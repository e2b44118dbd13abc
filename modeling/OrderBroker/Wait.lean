/-!
# Waits

Waiting for an order: ask, rest for the polling interval, ask again, until an answer decides. A wait
is either for the end of the order or for any change from what the first answer showed. It ends at
the first answer that decides, at the first failure, and when its caller gives up while it rests; a
caller who gives up while an answer is on its way is noticed after that answer. Giving up and the
end of a rest may fall on the same instant. Here giving up always comes first, where a race between
the two might let the wait ask once more at that instant; this is then the run in which the rest
ends before the caller gives up.

A wait that ends in any other way than by a deciding answer abandons its order, and cancels it at
the vendor if its rule says so.
-/

namespace OrderBroker

/-- What an answer shows of an order. -/
structure Sighting (ρ : Type) where
  /-- The vendor will not move the order any further. -/
  isOver : Bool
  /-- Where the order stands, in the vendor's own terms. -/
  substate : String
  /-- What the wait gives if it ends with this answer. -/
  result : ρ

namespace Wait

/-- How to wait. -/
structure Rule (ρ : Type) where
  /-- The first question is asked at once, and not only after a rest. -/
  asksAtOnce : Bool
  /-- A change from the first answer ends the wait. -/
  endsOnChange : Bool
  /-- The length of a rest, in milliseconds. -/
  interval : Nat
  /-- An abandoned order is cancelled at the vendor. -/
  cancelsAbandoned : Bool
  /-- What the wait gives when its caller gives up. -/
  cancelled : ρ

/-- Where a wait stands. -/
inductive Phase where
  | resting (due : Nat)
  | asking
  | over
  deriving DecidableEq, Repr

/-- What a wait does. -/
inductive Effect (ρ : Type) where
  /-- Asks about the order. -/
  | ask
  /-- Gives its result. -/
  | finish (result : ρ)
  /-- Cancels the order at the vendor. -/
  | cancelOrder
  deriving DecidableEq, Repr

end Wait

/-- A wait. -/
structure Wait (ρ : Type) where
  rule : Wait.Rule ρ
  phase : Wait.Phase := .over
  /-- Where the order stood at the first answer. -/
  baseline : Option String := none
  /-- The caller has given up. -/
  givenUp : Bool := false

namespace Wait

variable {ρ : Type}

/-- Ends without a deciding answer. -/
def abandon (w : Wait ρ) (effects : List (Effect ρ)) : Wait ρ × List (Effect ρ) :=
  ({ w with phase := .over }, effects ++ if w.rule.cancelsAbandoned then [.cancelOrder] else [])

/-- Asks. -/
def ask (w : Wait ρ) : Wait ρ × List (Effect ρ) := ({ w with phase := .asking }, [.ask])

/-- Rests, unless the caller has given up; also where the rest would be over as it begins. -/
def rest (now : Nat) (w : Wait ρ) : Wait ρ × List (Effect ρ) :=
  if w.givenUp then w.abandon [.finish w.rule.cancelled]
  else ({ w with phase := .resting (now + w.rule.interval) }, [])

/-- Starts to wait. -/
def start (now : Nat) (rule : Rule ρ) (givenUp : Bool) : Wait ρ × List (Effect ρ) :=
  let w : Wait ρ := { rule, givenUp }
  if rule.asksAtOnce then w.ask else w.rest now

/-- This answer ends the wait. -/
def decides (w : Wait ρ) (s : Sighting ρ) : Bool :=
  s.isOver || (w.rule.endsOnChange && w.baseline.any (· ≠ s.substate))

/-- Takes the answer to the question asked. -/
def answered (now : Nat) (w : Wait ρ) (answer : Except ρ (Sighting ρ)) : Wait ρ × List (Effect ρ) :=
  match w.phase, answer with
  | .asking, .error failure => w.abandon [.finish failure]
  | .asking, .ok s =>
    if w.decides s then ({ w with phase := .over }, [.finish s.result])
    else rest now { w with baseline := some (w.baseline.getD s.substate) }
  | _, _ => (w, [])

/-- Asks again once the rest is over. -/
def advance (now : Nat) (w : Wait ρ) : Option (Wait ρ × List (Effect ρ)) :=
  match w.phase with
  | .resting due => if due ≤ now then some w.ask else none
  | _ => none

/-- When the rest is over. -/
def due? (w : Wait ρ) : Option Nat :=
  match w.phase with
  | .resting due => some due
  | _ => none

/-- The caller gives up and waits for the result that says so. This ends a rest, also one that is
over at this instant. -/
def giveUp (w : Wait ρ) : Wait ρ × List (Effect ρ) :=
  match w.phase with
  | .resting _ => { w with givenUp := true }.abandon [.finish w.rule.cancelled]
  | .asking => ({ w with givenUp := true }, [])
  | .over => (w, [])

/-- The caller is gone. -/
def drop (w : Wait ρ) : Wait ρ × List (Effect ρ) :=
  match w.phase with
  | .over => (w, [])
  | _ => w.abandon []

end Wait

end OrderBroker
