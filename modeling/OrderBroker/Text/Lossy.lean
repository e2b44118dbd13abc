/-!
# Lossy UTF-8

Bytes as text, whatever they are: every longest start of a character that is cut short, and every
byte that starts none, becomes one replacement character. The reader takes one byte at a time and
remembers at most one unfinished character.
-/

namespace OrderBroker.Text

/-- An unfinished character: how many bytes are still to come, the range of the next one, and the
value of those that came. -/
structure Unfinished where
  more : Nat
  low : Nat
  high : Nat
  value : Nat

/-- The character that a byte above ASCII starts, if it starts one. -/
def Unfinished.start? (b : Nat) : Option Unfinished :=
  if 0xC2 ≤ b ∧ b ≤ 0xDF then some ⟨1, 0x80, 0xBF, b - 0xC0⟩
  else if b = 0xE0 then some ⟨2, 0xA0, 0xBF, 0⟩
  else if b = 0xED then some ⟨2, 0x80, 0x9F, 0xD⟩
  else if 0xE1 ≤ b ∧ b ≤ 0xEF then some ⟨2, 0x80, 0xBF, b - 0xE0⟩
  else if b = 0xF0 then some ⟨3, 0x90, 0xBF, 0⟩
  else if 0xF1 ≤ b ∧ b ≤ 0xF3 then some ⟨3, 0x80, 0xBF, b - 0xF0⟩
  else if b = 0xF4 then some ⟨3, 0x80, 0x8F, 4⟩
  else none

/-- The character that stands for bytes that are none. -/
def replacement : Char := '\uFFFD'

/-- Takes a byte at the start of a character. -/
def lossyStart (out : String) (b : UInt8) : String × Option Unfinished :=
  if b.toNat < 0x80 then (out.push (Char.ofNat b.toNat), none)
  else match Unfinished.start? b.toNat with
    | some u => (out, some u)
    | none => (out.push replacement, none)

/-- Takes a byte. -/
def lossyStep : String × Option Unfinished → UInt8 → String × Option Unfinished
  | (out, none), b => lossyStart out b
  | (out, some u), b =>
    if u.low ≤ b.toNat ∧ b.toNat ≤ u.high then
      let value := u.value * 64 + (b.toNat - 0x80)
      if u.more ≤ 1 then (out.push (Char.ofNat value), none)
      else (out, some ⟨u.more - 1, 0x80, 0xBF, value⟩)
    else lossyStart (out.push replacement) b

/-- The text of the bytes. -/
def lossy (bytes : List UInt8) : String :=
  match bytes.foldl lossyStep ("", none) with
  | (out, none) => out
  | (out, some _) => out.push replacement

/-- The text of the bytes. -/
def lossyText (bytes : ByteArray) : String := lossy bytes.data.toList

end OrderBroker.Text
