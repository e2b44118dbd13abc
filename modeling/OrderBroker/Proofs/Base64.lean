import OrderBroker.Base64
import OrderBroker.Proofs.Bytes

/-!
# Base64 is read back

The bytes of a base64 text are those that it was written for (`decode?_encode`), over every alphabet
whose 64 letters are told apart and from the padding.

Three bytes are a number below `2 ^ 24`, which four letters give digit by digit to the base 64; a
short last group is such a number with zeros at its end.
-/

namespace OrderBroker.Base64

/-- The letters of an alphabet are told apart, and from the padding. -/
def Distinct (b : Base64) : Prop :=
  ∀ n, n < 64 → b.value? (b.letter n) = some n ∧ b.letter n ≠ '='

theorem distinct_standard : standard.Distinct := by
  unfold Distinct
  decide

/-- The letters of bytes, with the padding. -/
def letters (b : Base64) : List UInt8 → List Char
  | x :: y :: z :: rest =>
    let n := x.toNat * 65536 + y.toNat * 256 + z.toNat
    b.letter (n / 262144) :: b.letter (n / 4096 % 64) :: b.letter (n / 64 % 64) ::
      b.letter (n % 64) :: b.letters rest
  | [x, y] =>
    let n := x.toNat * 256 + y.toNat
    b.letter (n / 1024) :: b.letter (n / 16 % 64) :: b.letter (n % 16 * 4) :: (b.padding 1).toList
  | [x] => b.letter (x.toNat / 4) :: b.letter (x.toNat % 4 * 16) :: (b.padding 2).toList
  | [] => []

section
variable {b : Base64}

/-- The text of bytes is their letters. -/
theorem toList_encodeOnto (out : String) (bytes : List UInt8) :
    (b.encodeOnto out bytes).toList = out.toList ++ b.letters bytes := by
  induction bytes using letters.induct generalizing out with
  | case1 x y z rest ih => simp [encodeOnto, letters, ih]
  | case2 x y => simp [encodeOnto, letters]
  | case3 x => simp [encodeOnto, letters]
  | case4 => simp [encodeOnto, letters]

/-- With their padding, every three bytes and the last ones have four letters. -/
theorem length_letters (hpadded : b.padded = true) (bytes : List UInt8) :
    (b.letters bytes).length = (bytes.length + 2) / 3 * 4 := by
  induction bytes using letters.induct with
  | case1 x y z rest ih =>
    simp only [letters, List.length_cons, ih]
    omega
  | case2 x y => simp [letters, padding, hpadded]
  | case3 x => simp [letters, padding, hpadded]
  | case4 => simp [letters]

/-- **The length of a padded text** is known without writing it. -/
theorem length_encode (hpadded : b.padded = true) (bytes : ByteArray) :
    (b.encode bytes).length = encodedLength bytes := by
  rw [← String.length_toList, encode, toList_encodeOnto, String.toList_empty, List.nil_append,
    length_letters hpadded, Array.length_toList, encodedLength, ByteArray.size_data]

/-- A byte is read off a number to the base 256. -/
theorem ofNat_eq {n : Nat} {x : UInt8} (h : n % 256 = x.toNat) : UInt8.ofNat n = x := by
  rw [← UInt8.toNat_inj, UInt8.toNat_ofNat', h]

variable (hb : b.Distinct)
include hb

/-- Four letters give the three bytes that they were written for. -/
theorem decodeGroup_letters (out : ByteArray) (x y z : UInt8) :
    let n := x.toNat * 65536 + y.toNat * 256 + z.toNat
    b.decodeGroup out (b.letter (n / 262144)) (b.letter (n / 4096 % 64)) (b.letter (n / 64 % 64))
      (b.letter (n % 64)) = some (onto out [x, y, z]) := by
  intro n
  have hx := x.toNat_lt
  have hy := y.toNat_lt
  have hz := z.toNat_lt
  have hdigits : n / 262144 * 262144 + n / 4096 % 64 * 4096 + n / 64 % 64 * 64 + n % 64 = n := by
    omega
  rw [decodeGroup, (hb (n / 262144) (by omega)).1, (hb (n / 4096 % 64) (by omega)).1,
    (hb (n / 64 % 64) (by omega)).1, (hb (n % 64) (by omega)).1]
  simp only [Option.bind_eq_bind, Option.bind_some, hdigits, push_eq_onto, onto_onto]
  rw [ofNat_eq (x := x) (by omega), ofNat_eq (x := y) (by omega), ofNat_eq (x := z) (by omega)]
  rfl

/-- Three letters of a last group give the two bytes that they were written for. -/
theorem decodeThree_letters (out : ByteArray) (x y : UInt8) :
    let n := x.toNat * 256 + y.toNat
    b.decodeThree out (b.letter (n / 1024)) (b.letter (n / 16 % 64)) (b.letter (n % 16 * 4)) =
      some (onto out [x, y]) := by
  intro n
  have hx := x.toNat_lt
  have hy := y.toNat_lt
  have hdigits : n / 1024 * 4096 + n / 16 % 64 * 64 + n % 16 * 4 = n * 4 := by omega
  rw [decodeThree, (hb (n / 1024) (by omega)).1, (hb (n / 16 % 64) (by omega)).1,
    (hb (n % 16 * 4) (by omega)).1]
  simp only [Option.bind_eq_bind, Option.bind_some, hdigits, push_eq_onto, onto_onto]
  rw [if_pos (by omega), ofNat_eq (x := x) (by omega), ofNat_eq (x := y) (by omega)]
  rfl

/-- Two letters of a last group give the byte that they were written for. -/
theorem decodeTwo_letters (out : ByteArray) (x : UInt8) :
    b.decodeTwo out (b.letter (x.toNat / 4)) (b.letter (x.toNat % 4 * 16)) =
      some (onto out [x]) := by
  have hx := x.toNat_lt
  have hdigits : x.toNat / 4 * 64 + x.toNat % 4 * 16 = x.toNat * 16 := by omega
  rw [decodeTwo, (hb (x.toNat / 4) (by omega)).1, (hb (x.toNat % 4 * 16) (by omega)).1]
  simp only [Option.bind_eq_bind, Option.bind_some, hdigits, push_eq_onto]
  rw [if_pos (by omega), ofNat_eq (x := x) (by omega)]
  rfl

/-- The letters of bytes give these bytes. -/
theorem decodeOnto_letters (out : ByteArray) (bytes : List UInt8) :
    b.decodeOnto out (b.letters bytes) = some (onto out bytes) := by
  induction bytes using letters.induct generalizing out with
  | case1 x y z rest ih =>
    have hpad : b.letter ((x.toNat * 65536 + y.toNat * 256 + z.toNat) % 64) ≠ '=' :=
      (hb _ (by omega)).2
    rw [letters, decodeOnto, if_neg fun h => hpad h.2.2, decodeGroup_letters hb]
    simp only [ih, onto_onto]
    rfl
  | case2 x y =>
    have hpad : b.letter ((x.toNat * 256 + y.toNat) % 16 * 4) ≠ '=' := (hb _ (by omega)).2
    rw [letters, ← decodeThree_letters hb out x y, padding]
    by_cases hpadded : b.padded = true
    · simp [decodeOnto, hpadded, hpad]
    · simp [decodeOnto, hpadded]
  | case3 x =>
    rw [letters, ← decodeTwo_letters hb out x, padding]
    by_cases hpadded : b.padded = true
    · simp [decodeOnto, hpadded, List.replicate]
    · simp [decodeOnto, hpadded]
  | case4 => simp [letters, decodeOnto, onto]

/-- **Base64 is read back**: a text gives the bytes that it was written for. -/
theorem decode?_encode (bytes : ByteArray) : b.decode? (b.encode bytes) = some bytes := by
  rw [decode?, encode, toList_encodeOnto, String.toList_empty, List.nil_append,
    decodeOnto_letters hb]
  simp [onto]

end

end OrderBroker.Base64
