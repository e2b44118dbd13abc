import OrderBroker.Job
import OrderBroker.Proofs.BankId.Handover
import OrderBroker.Proofs.Run

/-!
# Jobs that watch an order

The job of a caller who watches a BankID order, as a machine: BankID answers, the job moves by
itself, the caller takes an item, tells it to stop, or leaves. Any of these may happen at any time,
so that the runs of the machine hold every sequence of answers and every pace of the caller.

`does_of_step` says once what a step of such a job can be.
-/

namespace OrderBroker.Job.Watching

open BankId (Change Progress Watch)

variable {ρ : Type}

/-! ## The machine -/

/-- What happens to the job. -/
inductive Event where
  /-- BankID answers the question asked. -/
  | answered (answer : Answer)
  /-- The job moves by itself. -/
  | moved
  /-- The caller takes an item. -/
  | taken
  /-- The caller tells the job to stop, and waits for the item that says so. -/
  | stopped
  /-- The caller leaves. -/
  | left

/-- What comes of it. -/
inductive Effect (ρ : Type) where
  | job (effect : Job.Effect ρ)
  /-- The caller is given an item. -/
  | give (item : ρ)

/-- BankID is asked and has not answered yet. -/
def asks : Job ρ → Bool
  | .startWatch .. => true
  | .watch _ _ w .. =>
    match w.phase with
    | .asking => true
    | _ => false
  | _ => false

/-- What a job does, as effects. -/
def acts (step : Job ρ × List (Job.Effect ρ)) : Job ρ × List (Effect ρ) :=
  (step.1, step.2.map .job)

/-- The job as a machine. It takes the answer that it waits for. -/
def machine : Machine (Job ρ) Event (Effect ρ) := fun now j e =>
  match e with
  | .answered answer => if asks j then some (acts (j.answered now 0 answer)) else none
  | .moved => (j.advance now).map acts
  | .taken => j.take.map fun (item, j) => (j, [.give item])
  | .stopped => some (acts (j.giveUp now))
  | .left => some (acts (j.drop now))

/-- What has happened to the job. -/
abbrev History (ρ : Type) : Type := List (Transition (Job ρ) Event (Effect ρ))

section
variable (client : BankId.Client) (orderRef : String) (read : Change → ρ) (closed : ρ)

/-- The runs of a job that watches an order, from its start. -/
abbrev Runs (t₀ : Nat) (givenUp : Bool) : History ρ → Nat → Job ρ → Prop :=
  Run machine (fun _ _ => True) t₀ (start t₀ givenUp (.watch client orderRef read closed)).1

/-- Everything that the job has done. -/
def doings (t₀ : Nat) (givenUp : Bool) (h : History ρ) : List (Effect ρ) :=
  (start t₀ givenUp (.watch client orderRef read closed)).2.map .job ++ h.flatMap (·.effects)

/-- What the answers say, where the question may be asked. -/
def answers (h : History ρ) : List Change :=
  h.filterMap fun tr =>
    match tr.event with
    | .answered answer => some (readProgress client orderRef answer)
    | _ => none

/-- What asking about the order has led to, the first answer first: that it may not be asked about,
or what the answers say. -/
def heard (h : History ρ) : List Change :=
  match client.collectOnce orderRef with
  | .error failure => [.error failure]
  | .ok _ => answers client orderRef h

end

/-- The effect is a question to BankID. -/
def Effect.isQuestion : Effect ρ → Bool
  | .job (.send ..) => true
  | _ => false

/-- The result that the caller is given. -/
def Effect.result? : Effect ρ → Option ρ
  | .job (.finish result) => some result
  | _ => none

/-- The item that the caller is given. -/
def Effect.item? : Effect ρ → Option ρ
  | .give item => some item
  | _ => none

/-- The watch of a job. -/
def watch? : Job ρ → Option Watch
  | .watch _ _ w .. => some w
  | _ => none

/-! ## What a step can be -/

section
variable {client : BankId.Client} {orderRef : String} {read : Change → ρ} {closed : ρ}
  {x : Exchange Progress} {now : Nat} {j j' : Job ρ} {e : Event} {effects : List (Effect ρ)}

/-- Where a job can stand that watches an order. -/
inductive Under (client : BankId.Client) (orderRef : String) (read : Change → ρ) (closed : ρ) :
    Job ρ → Prop
  | ended : Under client orderRef read closed .over
  | starting (stopped : Bool) :
      Under client orderRef read closed (.startWatch client orderRef read closed stopped)
  | watching (w : Watch) : Under client orderRef read closed (.watch client orderRef w read closed)

/-- What a step of the job can be, and when; `call` is its question. -/
inductive Does (client : BankId.Client) (orderRef : String) (read : Change → ρ) (closed : ρ)
    (call : Call) (now : Nat) : Job ρ → Event → Job ρ → List (Effect ρ) → Prop
  /-- The first question fails. -/
  | refused {answer : Answer} {stopped : Bool} {failure : Failure} :
      readProgress client orderRef answer = .error failure →
      Does client orderRef read closed call now (.startWatch client orderRef read closed stopped)
        (.answered answer) .over [.job (.finish (read (.error failure)))]
  /-- The first question shows the order. -/
  | found {answer : Answer} {stopped : Bool} {p : Progress} :
      readProgress client orderRef answer = .ok p →
      Does client orderRef read closed call now (.startWatch client orderRef read closed stopped)
        (.answered answer)
        (.watch client orderRef (Watch.start now client.pollInterval p stopped) read closed) []
  /-- The watch is answered. -/
  | told {answer : Answer} {w : Watch} : w.phase = .asking →
      Does client orderRef read closed call now (.watch client orderRef w read closed)
        (.answered answer)
        (.watch client orderRef (w.answered now (readProgress client orderRef answer)) read closed)
        []
  /-- The watch moves, and may ask. -/
  | moved {w w' : Watch} {asks : Bool} : w.advance now = some (w', asks) →
      Does client orderRef read closed call now (.watch client orderRef w read closed) .moved
        (.watch client orderRef w' read closed) (if asks then [.job (.send 0 call)] else [])
  /-- The caller takes an item. -/
  | taken {w w' : Watch} {item : Change} : w.take = some (item, w') →
      Does client orderRef read closed call now (.watch client orderRef w read closed) .taken
        (.watch client orderRef w' read closed) [.give (read item)]
  /-- The caller tells the job to stop before the first answer. -/
  | stoppedFirst {stopped : Bool} :
      Does client orderRef read closed call now (.startWatch client orderRef read closed stopped)
        .stopped (.startWatch client orderRef read closed true) []
  /-- The caller tells the watch to stop. -/
  | stopped {w : Watch} :
      Does client orderRef read closed call now (.watch client orderRef w read closed) .stopped
        (.watch client orderRef (w.stop now) read closed) []
  /-- The caller leaves before the first answer. -/
  | leftFirst {stopped : Bool} :
      Does client orderRef read closed call now (.startWatch client orderRef read closed stopped)
        .left .over []
  /-- The caller leaves the watch. -/
  | left {w : Watch} :
      Does client orderRef read closed call now (.watch client orderRef w read closed) .left
        (.watch client orderRef w.abandon read closed) []
  /-- Nothing comes of it after the end. -/
  | idle {e : Event} : e = .stopped ∨ e = .left →
      Does client orderRef read closed call now .over e .over []

/-- A job that takes an answer asks. -/
theorem asking_of_asks {w : Watch} (h : asks (.watch client orderRef w read closed) = true) :
    w.phase = .asking := by
  cases hphase : w.phase with
  | asking => rfl
  | _ => simp [asks, hphase] at h

/-- **A step of the job** is one of these. -/
theorem does_of_step (hx : client.collectOnce orderRef = .ok x)
    (hunder : Under client orderRef read closed j) (hstep : machine now j e = some (j', effects)) :
    Does client orderRef read closed x.call now j e j' effects := by
  have hquiet (w : Watch) : ofWatch now client orderRef read closed w false =
      (.watch client orderRef w read closed, []) := rfl
  cases e with
  | answered answer =>
    simp only [machine, Option.ite_none_right_eq_some, Option.some.injEq] at hstep
    obtain ⟨hasks, hstep⟩ := hstep
    cases hunder with
    | ended => simp [asks] at hasks
    | starting stopped =>
      simp only [answered] at hstep
      cases hread : readProgress client orderRef answer with
      | error failure =>
        simp only [hread, acts, List.map_cons, List.map_nil, Prod.mk.injEq] at hstep
        obtain ⟨rfl, rfl⟩ := hstep
        exact .refused hread
      | ok p =>
        simp only [hread, hquiet, acts, List.map_nil, Prod.mk.injEq] at hstep
        obtain ⟨rfl, rfl⟩ := hstep
        exact .found hread
    | watching w =>
      simp only [answered, hquiet, acts, List.map_nil, Prod.mk.injEq] at hstep
      obtain ⟨rfl, rfl⟩ := hstep
      exact .told (asking_of_asks hasks)
  | moved =>
    simp only [machine, Option.map_eq_some_iff] at hstep
    obtain ⟨step, hadvance, heq⟩ := hstep
    cases hunder with
    | ended => cases hadvance
    | starting stopped => cases hadvance
    | watching w =>
      simp only [advance, Option.map_eq_some_iff] at hadvance
      obtain ⟨⟨w', asks⟩, hw, rfl⟩ := hadvance
      cases asks with
      | true =>
        simp only [ofWatch, hx, if_true, acts, List.map_cons, List.map_nil, Prod.mk.injEq] at heq
        obtain ⟨rfl, rfl⟩ := heq
        exact .moved hw
      | false =>
        simp only [hquiet, acts, List.map_nil, Prod.mk.injEq] at heq
        obtain ⟨rfl, rfl⟩ := heq
        exact .moved hw
  | taken =>
    simp only [machine, Option.map_eq_some_iff] at hstep
    obtain ⟨⟨item, taken⟩, htake, heq⟩ := hstep
    cases hunder with
    | ended => cases htake
    | starting stopped => cases htake
    | watching w =>
      simp only [take, Option.map_eq_some_iff, Prod.mk.injEq] at htake
      obtain ⟨⟨item', w'⟩, hw, rfl, rfl⟩ := htake
      simp only [Prod.mk.injEq] at heq
      obtain ⟨rfl, rfl⟩ := heq
      exact .taken hw
  | stopped =>
    simp only [machine, Option.some.injEq] at hstep
    cases hunder <;> cases hstep
    · exact .idle (.inl rfl)
    · exact .stoppedFirst
    · exact .stopped
  | left =>
    simp only [machine, Option.some.injEq] at hstep
    cases hunder <;> cases hstep
    · exact .idle (.inr rfl)
    · exact .leftFirst
    · exact .left

/-- Each of these can happen. -/
theorem step_of_does (hx : client.collectOnce orderRef = .ok x)
    (hdoes : Does client orderRef read closed x.call now j e j' effects) :
    machine now j e = some (j', effects) := by
  cases hdoes with
  | refused hread => simp [machine, asks, answered, hread, acts]
  | found hread => simp [machine, asks, answered, hread, acts, ofWatch]
  | told hasks => simp [machine, asks, hasks, answered, acts, ofWatch]
  | @moved w w' asks hadvance =>
    cases asks <;> simp [machine, advance, hadvance, ofWatch, hx, acts]
  | taken htake => simp [machine, take, htake]
  | stoppedFirst => rfl
  | stopped => rfl
  | leftFirst => rfl
  | left => rfl
  | idle hends => rcases hends with rfl | rfl <;> rfl

end

end OrderBroker.Job.Watching
