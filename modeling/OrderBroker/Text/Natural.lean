/-!
# Natural numbers in texts

A natural number in decimal, with an optional plus sign, up to the largest value that its place
allows. The reader says why a text is no such number; of several faults the first one in the text
counts. Hexadecimal digits, which stand in escapes and addresses, are read one by one.
-/

namespace OrderBroker.Text

/-- Why a text is no number of its place. -/
inductive NaturalFault where
  | empty
  | invalidDigit
  | tooLarge
  deriving DecidableEq, Repr

/-- What is said of a fault. -/
def NaturalFault.text : NaturalFault → String
  | .empty => "cannot parse integer from empty string"
  | .invalidDigit => "invalid digit found in string"
  | .tooLarge => "number too large to fit in target type"

/-- Reads digits after a number that is already known. -/
def readDigits (max : Nat) (n : Nat) : List Char → Except NaturalFault Nat
  | [] => .ok n
  | c :: rest =>
    if 48 ≤ c.toNat ∧ c.toNat ≤ 57 then
      let m := n * 10 + (c.toNat - 48)
      if max < m then .error .tooLarge else readDigits max m rest
    else .error .invalidDigit

/-- Reads a number up to a largest value. -/
def readNatural (max : Nat) (s : String) : Except NaturalFault Nat :=
  match s.toList with
  | [] => .error .empty
  | ['+'] => .error .invalidDigit
  | '+' :: rest => readDigits max 0 rest
  | cs => readDigits max 0 cs

/-- The largest 64-bit word. -/
def wordMax : Nat := UInt64.size - 1

/-- The value of a hexadecimal digit of either case, from its code. -/
def hexValue? (n : Nat) : Option Nat :=
  if 48 ≤ n ∧ n ≤ 57 then some (n - 48)
  else if 97 ≤ n ∧ n ≤ 102 then some (n - 87)
  else if 65 ≤ n ∧ n ≤ 70 then some (n - 55)
  else none

/-- The decimal text of a number. -/
def decimal (n : Nat) : String := String.ofList (Nat.toDigits 10 n)

end OrderBroker.Text
