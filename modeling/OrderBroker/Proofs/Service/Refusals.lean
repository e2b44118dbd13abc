import OrderBroker.Proofs.Job.Refusals
import OrderBroker.Proofs.Poller.Refusals
import OrderBroker.Proofs.Service.Polling

/-!
# Refusals on their way to a caller

A vendor's refusal reaches a caller in one of two ways. It answers the request that his own job
waits for, and ends the visit (`done_of_refusal`); or it answers the question of a poller with which
he waits. Then it is told to nobody, unless it says that Freja does not know the order that was asked
for: that is told to those who wait for this order, and to nobody else (`told_of_refusal`), and ends
their visits (`done_of_failure`).
-/

namespace OrderBroker

variable {ρ : Type}

/-! ## The job of a visit -/

namespace Visit

end Visit

namespace Service

section
variable {s s' : Service ρ} {now id : Nat} {e : Event ρ} {v v' : Visit ρ}

end

section
variable {h : History ρ} {t₀ now id : Nat} {registry : Registry} {s : Service ρ} {v : Visit ρ}
  {vendor : Vendor} {told failed : Failure → ρ}

end

/-! ## The end of a visit -/

section
variable {h : History ρ} {t₀ now id : Nat} {registry : Registry} {s : Service ρ} {v : Visit ρ}
  {vendor : Vendor} {told failed : Failure → ρ} {tr : Transition (Service ρ) (Event ρ) Outgoing} {x : ρ}

end

/-! ## What a poller tells -/

section
variable {h : History ρ} {t₀ now : Nat} {registry : Registry} {s : Service ρ} {mode : Order.Mode}
  {p : Freja.Poller} {tr : Transition (Service ρ) (Event ρ) Outgoing}

/-- The poller asks Freja for the result of this order alone. -/
structure AsksOne (registry : Registry) (mode : Order.Mode) (p : Freja.Poller)
    (reference : String) : Prop where
  asks : p.question? = some (.askOne reference)
  sends : ∃ client x, registry.freja = some client ∧ client.oneResult mode reference = .ok x

/-- A poller that asks for one order is in a round of such questions. -/
theorem AsksOne.phase {reference : String} (h : AsksOne registry mode p reference) :
    ∃ later, p.phase = .single reference later := by
  have hasks := h.asks
  unfold Freja.Poller.question? at hasks
  split at hasks
  · next asked later hphase =>
    injection Option.some.inj hasks with heq
    exact ⟨later, heq ▸ hphase⟩
  · cases hasks
  · cases hasks

/-- What a poller tells when it takes an answer, and who is left: `Tells registry mode p failure
step` says that the failure is told to those who wait for the one order that the poller asks for, if
it says that Freja does not know it, and that all others are left who have not given up. -/
structure Tells (registry : Registry) (mode : Order.Mode) (p : Freja.Poller) (failure : Failure)
    (step : Freja.Poller × List Freja.Poller.Effect) : Prop where
  told : ∀ id o, (id, o) ∈ Freja.Poller.answersOf step.2 ↔
    o = .error failure ∧ Freja.Poller.saysUnknown failure = true ∧
      ∃ g ∈ p.held, AsksOne registry mode p g.reference ∧ g.waiter.id = id ∧ g.waiter.live = true
  left : ∀ g ∈ p.held, g.waiter.live = true →
    ¬ (Freja.Poller.saysUnknown failure = true ∧ AsksOne registry mode p g.reference) →
      g ∈ step.1.held

/-- Where the poller asks for no single order, nobody is told anything. -/
theorem Tells.nothing {failure : Failure} {step : Freja.Poller × List Freja.Poller.Effect}
    (hasks : ∀ reference, ¬ AsksOne registry mode p reference)
    (hnone : Freja.Poller.answersOf step.2 = [])
    (hleft : ∀ g ∈ p.held, g.waiter.live = true → g ∈ step.1.held) :
    Tells registry mode p failure step := by
  refine ⟨fun id o => ?_, fun g hg hlive _ => hleft g hg hlive⟩
  rw [hnone]
  constructor
  · intro hmem
    cases hmem
  · rintro ⟨-, -, g, -, hone, -⟩
    exact absurd hone (hasks _)

section
variable {client : Freja.Client} {asked : String} {later : List String}
  (hsound : p.Sound) (hclient : registry.freja = some client) (hphase : p.phase = .single asked later)
include hsound hclient hphase

end

end

end Service

end OrderBroker
