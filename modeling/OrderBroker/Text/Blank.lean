/-!
# Blank characters and trimming

The characters of the Unicode property `White_Space`, and what is left of a text once the blanks
at its ends are taken away. Environment values, stream lines and calendar dates are all trimmed
with this one class, which is wider than the blanks of JSON.
-/

namespace OrderBroker.Text

/-- Has the Unicode property `White_Space`. -/
def isBlank (c : Char) : Bool :=
  let n := c.toNat
  (9 ≤ n && n ≤ 13) || n == 0x20 || n == 0x85 || n == 0xA0 || n == 0x1680 ||
    (0x2000 ≤ n && n ≤ 0x200A) || n == 0x2028 || n == 0x2029 || n == 0x202F ||
    n == 0x205F || n == 0x3000

/-- The blanks at the front are gone. -/
def trimStart (s : List Char) : List Char := s.dropWhile isBlank

/-- The blanks at the end are gone. -/
def trimEnd (s : List Char) : List Char := (s.reverse.dropWhile isBlank).reverse

/-- The blanks at both ends are gone. -/
def trimChars (s : List Char) : List Char := trimEnd (trimStart s)

/-- The text without the blanks at its ends. -/
def trim (s : String) : String := String.ofList (trimChars s.toList)

/-- Nothing but blanks. -/
def isBlankText (s : String) : Bool := s.toList.all isBlank

@[simp] theorem trimStart_nil : trimStart [] = [] := rfl

end OrderBroker.Text
