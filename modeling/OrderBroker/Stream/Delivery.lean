/-!
# Delivery to a consumer

A reader hands its items to a consumer through a few slots. When no slot is free it waits for one,
but for no more than a second for each item, and then drops the item.
-/

namespace OrderBroker.Stream

/-- How many items may wait for the consumer. -/
def deliverySlots : Nat := 16

/-- How long an item waits for a slot, in milliseconds. -/
def deliveryTimeout : Nat := 1000

/-- What reaches a consumer that takes nothing before `readFrom` and everything from then on, when
the items are ready at once. `now` is the time and `free` the number of free slots. -/
def deliverFrom {α : Type} (readFrom : Nat) : (now free : Nat) → List α → List α
  | _, _, [] => []
  | now, free, item :: rest =>
    if readFrom ≤ now then item :: deliverFrom readFrom now free rest
    else match free with
      | free + 1 => item :: deliverFrom readFrom now free rest
      | 0 =>
        if readFrom < now + deliveryTimeout then item :: deliverFrom readFrom readFrom 0 rest
        else deliverFrom readFrom (now + deliveryTimeout) 0 rest

/-- What reaches a consumer that takes nothing before `readFrom` milliseconds. -/
def deliver {α : Type} (readFrom : Nat) (items : List α) : List α :=
  deliverFrom readFrom 0 deliverySlots items

end OrderBroker.Stream
