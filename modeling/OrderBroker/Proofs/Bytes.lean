/-!
# Bytes that are appended

Readers of bytes append what they read to a byte array. What they have appended in the end is one
list of bytes.
-/

namespace OrderBroker

/-- A byte array with these bytes at its end. -/
def onto (out : ByteArray) (bytes : List UInt8) : ByteArray := ⟨out.data ++ bytes.toArray⟩

@[simp] theorem onto_nil (out : ByteArray) : onto out [] = out := by
  simp [onto]

theorem push_eq_onto (out : ByteArray) (b : UInt8) : out.push b = onto out [b] := by
  cases out with
  | mk data =>
    show ByteArray.mk (data.push b) = ByteArray.mk (data ++ [b].toArray)
    simp

@[simp] theorem onto_onto (out : ByteArray) (bytes bytes' : List UInt8) :
    onto (onto out bytes) bytes' = onto out (bytes ++ bytes') := by
  simp [onto]

/-- Bytes that are pushed one after the other. -/
theorem foldl_push (out : ByteArray) (bytes : List UInt8) :
    bytes.foldl ByteArray.push out = onto out bytes := by
  induction bytes generalizing out with
  | nil => simp
  | cons b bytes ih => rw [List.foldl_cons, ih, push_eq_onto, onto_onto, List.singleton_append]

end OrderBroker
