import OrderBroker.BankId.Progress
import OrderBroker.Failure

/-!
# Watching a BankID order

A watch hands over what its first question showed, and from then on every change of status or hint
code from what was last seen, until the order is no longer pending or a question fails. The items go
through a single slot. An item that finds it taken waits for it, but for no more than a second, and
is then dropped; nobody is asked meanwhile.

A watch that is told to stop does so at its next rest, and hands over that it was cancelled. Being
told to stop and the end of a rest may fall on the same instant. Here the stop always comes first,
where a race between the two might let the watch ask once more at that instant; this is then the run
in which the rest ends before the watch is told. Only where rests have no length could that happen
more than once.
-/

namespace OrderBroker.BankId

/-- What a watch hands over. -/
abbrev Change := Except Failure Progress

namespace Watch

/-- Where a watch stands. -/
inductive Phase where
  | resting (due : Nat)
  | asking
  /-- An item waits for the slot. -/
  | offering (item : Change) (deadline : Nat)
  | over

/-- How long an item waits for the slot, in milliseconds. -/
def offerTimeout : Nat := 1000

/-- What is handed over when a watch was told to stop. -/
def stoppedItem : Change := .error (.at .bankId .cancelled)

end Watch

/-- A watch, from the answer to its first question on. -/
structure Watch where
  /-- The length of a rest, in milliseconds. -/
  interval : Nat
  /-- What was last seen. -/
  last : Progress
  phase : Watch.Phase := .over
  /-- The item that waits to be taken. -/
  slot : Option Change := none
  /-- Told to stop. -/
  stopped : Bool := false
  /-- Nobody takes items any more. -/
  unread : Bool := false

namespace Watch

/-- Hands over a last item. -/
def close (now : Nat) (w : Watch) (item : Change) : Watch :=
  if w.unread then { w with phase := .over }
  else match w.slot with
    | none => { w with phase := .over, slot := some item }
    | some _ => { w with phase := .offering item (now + offerTimeout) }

/-- Goes on after an item that was handed over or dropped: rests while the order is pending. If told
to stop it does not rest, also where a rest would be over as it begins. -/
def goOn (now : Nat) (w : Watch) : Change → Watch
  | .error _ => { w with phase := .over }
  | .ok p =>
    if p.status = .pending then
      if w.stopped then w.close now stoppedItem
      else { w with phase := .resting (now + w.interval) }
    else { w with phase := .over }

/-- Hands over an item, or waits for the slot. -/
def offer (now : Nat) (w : Watch) (item : Change) : Watch :=
  if w.unread then w.goOn now item
  else match w.slot with
    | none => { w with slot := some item }.goOn now item
    | some _ => { w with phase := .offering item (now + offerTimeout) }

/-- Starts with the answer to the first question. -/
def start (now interval : Nat) (baseline : Progress) (stopped : Bool) : Watch :=
  ({ interval, last := baseline, stopped } : Watch).offer now (.ok baseline)

/-- The answer differs from what was last seen. -/
def isChange (w : Watch) (p : Progress) : Bool :=
  p.status ≠ w.last.status ∨ p.hintCode ≠ w.last.hintCode

/-- Takes the answer to the question asked. -/
def answered (now : Nat) (w : Watch) (answer : Change) : Watch :=
  match w.phase, answer with
  | .asking, .error failure => w.close now (.error failure)
  | .asking, .ok p =>
    if w.isChange p then offer now { w with last := p } (.ok p) else w.goOn now (.ok p)
  | _, _ => w

/-- Asks again once the rest is over, and moves an item that waits; also whether it asks. -/
def advance (now : Nat) (w : Watch) : Option (Watch × Bool) :=
  match w.phase with
  | .resting due => if due ≤ now then some ({ w with phase := .asking }, true) else none
  | .offering item deadline =>
    if w.unread then some (w.goOn now item, false)
    else match w.slot with
      | none => some ({ w with slot := some item }.goOn now item, false)
      | some _ => if deadline ≤ now then some (w.goOn now item, false) else none
  | _ => none

/-- When it moves again by itself. -/
def due? (w : Watch) : Option Nat :=
  match w.phase with
  | .resting due => some due
  | .offering _ deadline => some deadline
  | _ => none

/-- Takes the item in the slot. -/
def take (w : Watch) : Option (Change × Watch) :=
  w.slot.map fun item => (item, { w with slot := none })

/-- No item is left and none will come. -/
def isClosed (w : Watch) : Bool :=
  match w.phase, w.slot with
  | .over, none => true
  | _, _ => false

/-- Tells it to stop. This ends a rest, also one that is over at this instant. -/
def stop (now : Nat) (w : Watch) : Watch :=
  match w.phase with
  | .resting _ => { w with stopped := true }.close now stoppedItem
  | _ => { w with stopped := true }

/-- Nobody takes items any more; those that wait are lost. -/
def abandon (w : Watch) : Watch := { w with unread := true, slot := none }

end Watch

end OrderBroker.BankId
