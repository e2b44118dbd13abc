/-!
# ASCII case

Case maps that change the 26 Latin letters of ASCII and nothing else, for names that are matched
without regard to their case.
-/

namespace OrderBroker.Text

/-- A Latin capital as a small letter. -/
def asciiLowerChar (c : Char) : Char :=
  if 65 ≤ c.toNat ∧ c.toNat ≤ 90 then Char.ofNat (c.toNat + 32) else c

/-- A Latin small letter as a capital. -/
def asciiUpperChar (c : Char) : Char :=
  if 97 ≤ c.toNat ∧ c.toNat ≤ 122 then Char.ofNat (c.toNat - 32) else c

/-- The text with Latin capitals as small letters. -/
def asciiLower (s : String) : String := s.map asciiLowerChar

/-- The text with Latin small letters as capitals. -/
def asciiUpper (s : String) : String := s.map asciiUpperChar

end OrderBroker.Text
