import OrderBroker.Proofs.Job.Guard
import OrderBroker.Service

/-!
# When a job asks and how it ends

The history of a job read with its times: when it has asked which question (`asked`), when the
answers have come that it waited for (`replies`), and how it has ended (`ending?`).
-/

namespace OrderBroker

variable {ρ : Type}

/-! ## Phases of a wait -/

namespace Wait

section
variable {w : Wait ρ} {due : Nat}

theorem idle_of_resting (hrests : w.phase = .resting due) : w.phase ≠ .asking := by
  rw [hrests]
  exact Phase.noConfusion

theorem idle_of_over (hover : w.phase = .over) : w.phase ≠ .asking := by
  rw [hover]
  exact Phase.noConfusion

theorem goes_of_resting (hrests : w.phase = .resting due) : w.phase ≠ .over := by
  rw [hrests]
  exact Phase.noConfusion

theorem goes_of_asking (hasks : w.phase = .asking) : w.phase ≠ .over := by
  rw [hasks]
  exact Phase.noConfusion

/-- Who gives up while the wait rests ends it. -/
theorem giveUp_resting (hrests : w.phase = .resting due) :
    w.giveUp = ({ w with givenUp := true } : Wait ρ).abandon [.finish w.rule.cancelled] := by
  simp only [giveUp, hrests]

/-- Who gives up while the wait asks does not end it. -/
theorem giveUp_asking (hasks : w.phase = .asking) :
    w.giveUp = ({ w with givenUp := true }, []) := by
  simp only [giveUp, hasks]

/-- Who leaves ends a wait that goes on. -/
theorem drop_of_goes (hgoes : w.phase ≠ .over) : w.drop = w.abandon [] := by
  unfold drop
  split
  · next hover => exact absurd hover hgoes
  · rfl

/-- A wait that rests asks when the rest is over. -/
theorem advance_resting (hrests : w.phase = .resting due) (now : Nat) :
    w.advance now = if due ≤ now then some w.ask else none := by
  simp only [advance, hrests]

end

end Wait

namespace Job

/-- The result that an effect gives. -/
def Effect.result? : Effect ρ → Option ρ
  | .finish x => some x
  | _ => none

/-- The request that an effect sends and that is waited for. -/
def Effect.question? : Effect ρ → Option Call
  | .send _ call => some call
  | _ => none

/-- How a step ends a job. -/
def endsBy? (tr : Transition (Job ρ) Event (Effect ρ)) : Option (Ending ρ) :=
  match tr.event with
  | .drop => some (.left tr.time)
  | _ => (tr.effects.findSome? (·.result?)).map (.done tr.time)

/-- How a job has ended: by its first result, or by its caller's leaving. -/
def ending? (t₀ : Nat) (givenUp : Bool) (a : Activity ρ) (h : History ρ) : Option (Ending ρ) :=
  (((start t₀ givenUp a).2.findSome? (·.result?)).map (.done t₀)).or (h.findSome? endsBy?)

/-- When a job has asked, and what. -/
def asked (t₀ : Nat) (givenUp : Bool) (a : Activity ρ) (h : History ρ) : List (Nat × Call) :=
  ((start t₀ givenUp a).2.filterMap (·.question?)).map (t₀, ·) ++
    h.flatMap fun tr => (tr.effects.filterMap (·.question?)).map (tr.time, ·)

/-- The answers that a job waited for, and when they came. -/
def replies (h : History ρ) : List (Nat × Answer) :=
  h.filterMap fun tr =>
    match tr.event with
    | .answered _ answer => if tr.before.asks then some (tr.time, answer) else none
    | _ => none

/-- The caller has given up, at his coming or since. -/
def GaveUp (givenUp : Bool) (h : History ρ) : Prop := givenUp = true ∨ ∃ tr ∈ h, tr.event = .giveUp

section
variable {t₀ : Nat} {givenUp : Bool} {a : Activity ρ} {h : History ρ}
  {tr : Transition (Job ρ) Event (Effect ρ)}

/-- A step that is no leaving ends a job by its first result. -/
theorem endsBy?_of_ne (hstays : tr.event ≠ .drop) :
    endsBy? tr = (tr.effects.findSome? (·.result?)).map (.done tr.time) := by
  unfold endsBy?
  split
  · next hdrop => exact absurd hdrop hstays
  · rfl

theorem ending?_nil :
    ending? t₀ givenUp a [] = ((start t₀ givenUp a).2.findSome? (·.result?)).map (.done t₀) := by
  simp [ending?]

/-- A job that gives its result at its start has ended then. -/
theorem ending?_of_start {x : ρ}
    (hgives : (start t₀ givenUp a).2.findSome? (·.result?) = some x) :
    ending? t₀ givenUp a h = some (.done t₀ x) := by
  rw [ending?, hgives]
  rfl

/-- A job ends once. -/
theorem ending?_snoc :
    ending? t₀ givenUp a (h ++ [tr]) = (ending? t₀ givenUp a h).or (endsBy? tr) := by
  simp [ending?, List.findSome?_append, Option.or_assoc]

theorem asked_nil :
    asked t₀ givenUp a [] = ((start t₀ givenUp a).2.filterMap (·.question?)).map (t₀, ·) := by
  simp [asked]

theorem asked_snoc :
    asked t₀ givenUp a (h ++ [tr]) =
      asked t₀ givenUp a h ++ (tr.effects.filterMap (·.question?)).map (tr.time, ·) := by
  simp [asked]

/-- An answer that the job waits for. -/
theorem replies_snoc {slot : Nat} {answer : Answer} (hevent : tr.event = .answered slot answer)
    (hasks : tr.before.asks = true) : replies (h ++ [tr]) = replies h ++ [(tr.time, answer)] := by
  simp [replies, hevent, hasks]

/-- Nothing else is an answer that the job waits for. -/
theorem replies_snoc_other
    (hother : ∀ slot answer, tr.event = .answered slot answer → tr.before.asks = false) :
    replies (h ++ [tr]) = replies h := by
  cases hevent : tr.event with
  | answered slot answer => simp [replies, hevent, hother slot answer hevent]
  | _ => simp [replies, hevent]

/-- Who has given up has given up. -/
theorem GaveUp.later (hgave : GaveUp givenUp h) : GaveUp givenUp (h ++ [tr]) :=
  hgave.imp_right fun ⟨tr', htr', hevent⟩ => ⟨tr', List.mem_append_left _ htr', hevent⟩

end

/-! ## Waits that are over -/

section
variable {w : Wait ρ} {question : Except ρ Call} {read : Answer → Except ρ (Sighting ρ)}
  {cancel : Option Call} {now : Nat} {e : Event} {j' : Job ρ} {effects : List (Effect ρ)}

/-- A wait that has moved, and does not ask. -/
theorem ofWait_idle {step : Wait ρ × List (Wait.Effect ρ)} (hidle : step.1.phase ≠ .asking) :
    ofWait now question read cancel step =
      (.wait step.1 question read cancel, waitEffects question cancel step.2) := by
  obtain ⟨w, effects⟩ := step
  simp only [ofWait]
  split
  · next hasks => exact absurd hasks hidle
  · rfl

/-- **A wait that is over** does nothing any more, whatever happens. -/
theorem wait_stays_over (hover : w.phase = .over)
    (hstep : machine now (.wait w question read cancel) e = some (j', effects)) :
    j' = .wait w question read cancel ∧ effects = [] := by
  have hidle := Wait.idle_of_over hover
  have hstill (step : Wait ρ × List (Wait.Effect ρ)) (hs : step = (w, []))
      (h : some (ofWait now question read cancel step) = some (j', effects)) :
      j' = .wait w question read cancel ∧ effects = [] := by
    rw [hs, ofWait_idle hidle] at h
    obtain ⟨rfl, rfl⟩ := Prod.mk.inj (Option.some.inj h)
    exact ⟨rfl, rfl⟩
  cases e with
  | answered slot answer => exact hstill _ (Wait.answered_idle hidle _) hstep
  | advance =>
    have hnone : w.advance now = none := by simp only [Wait.advance, hover]
    rw [machine, advance, hnone] at hstep
    cases hstep
  | giveUp => exact hstill w.giveUp (by simp only [Wait.giveUp, hover]) hstep
  | drop => exact hstill w.drop (by simp only [Wait.drop, hover]) hstep
  | _ =>
    obtain ⟨rfl, rfl⟩ := Prod.mk.inj (Option.some.inj hstep)
    exact ⟨rfl, rfl⟩

end

end Job

end OrderBroker
