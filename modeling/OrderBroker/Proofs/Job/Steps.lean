import OrderBroker.Job
import OrderBroker.Proofs.Job.Collect
import OrderBroker.Proofs.Job.Wait
import OrderBroker.Proofs.Run

/-!
# Steps of a job

A job as a machine, for the activities that give one result and no items: nothing to do, one
exchange, a wait, and the collecting of an order. Such a job stays under its activity (`Under`), and
gives a result only for a reason that the activity names (`Gives`).
-/

namespace OrderBroker

namespace Job

variable {ρ : Type}

/-! ## The machine -/

/-- What happens to a job. -/
inductive Event where
  | answered (slot : Nat) (answer : Answer)
  | registered
  | polled (outcome : Except Failure Freja.Result)
  | advance
  | giveUp
  | drop

/-- A job as a machine. -/
def machine : Machine (Job ρ) Event (Effect ρ) := fun now j e =>
  match e with
  | .answered slot answer => some (j.answered now slot answer)
  | .registered => some j.registered
  | .polled outcome => some (j.polled outcome)
  | .advance => j.advance now
  | .giveUp => some (j.giveUp now)
  | .drop => some (j.drop now)

/-- What has happened to a job. -/
abbrev History (ρ : Type) : Type := List (Transition (Job ρ) Event (Effect ρ))

/-- The runs of a job from the start of its activity. -/
abbrev Runs (t₀ : Nat) (givenUp : Bool) (a : Activity ρ) : History ρ → Nat → Job ρ → Prop :=
  Run machine (fun _ _ => True) t₀ (start t₀ givenUp a).1

/-- Everything that a job has done. -/
def doings (t₀ : Nat) (givenUp : Bool) (a : Activity ρ) (h : History ρ) : List (Effect ρ) :=
  (start t₀ givenUp a).2 ++ h.flatMap (·.effects)

@[simp] theorem doings_nil (t₀ : Nat) (givenUp : Bool) (a : Activity ρ) :
    doings t₀ givenUp a [] = (start t₀ givenUp a).2 := by
  simp [doings]

@[simp] theorem doings_snoc (t₀ : Nat) (givenUp : Bool) (a : Activity ρ) (h : History ρ)
    (tr : Transition (Job ρ) Event (Effect ρ)) :
    doings t₀ givenUp a (h ++ [tr]) = doings t₀ givenUp a h ++ tr.effects := by
  simp [doings]

/-! ## Passing effects on -/

section
variable {now : Nat} {question : Except ρ Call} {call : Call}
  {read : Answer → Except ρ (Sighting ρ)} {cancel : Option Call} {x : ρ}

@[simp] theorem waitEffects_append (question : Except ρ Call) (cancel : Option Call)
    (a b : List (Wait.Effect ρ)) :
    waitEffects question cancel (a ++ b) =
      waitEffects question cancel a ++ waitEffects question cancel b := by
  induction a with
  | nil => rfl
  | cons effect rest ih =>
    cases effect with
    | ask =>
      cases question with
      | ok call => simp [waitEffects, ih]
      | error failure => simp [waitEffects, ih]
    | finish result => simp [waitEffects, ih]
    | cancelOrder => simp [waitEffects, ih]

@[simp] theorem collectEffects_append (mode : Order.Mode) (reference : String)
    (cancel : Option Call) (a b : List (Freja.Collect.Effect ρ)) :
    collectEffects mode reference cancel (a ++ b) =
      collectEffects mode reference cancel a ++ collectEffects mode reference cancel b := by
  induction a with
  | nil => rfl
  | cons effect rest ih => cases effect <;> simp [collectEffects, ih]

/-- A job gives what its wait gives. -/
theorem finish_mem_waitEffects {effects : List (Wait.Effect ρ)} :
    .finish x ∈ waitEffects question cancel effects ↔ .finish x ∈ effects := by
  induction effects with
  | nil => simp [waitEffects]
  | cons effect rest ih =>
    cases effect with
    | ask => cases question <;> simp [waitEffects, ih]
    | finish result => simp [waitEffects, ih]
    | cancelOrder => cases cancel <;> simp [waitEffects, ih]

/-- A job gives what collecting gives. -/
theorem finish_mem_collectEffects {mode : Order.Mode} {reference : String}
    {effects : List (Freja.Collect.Effect ρ)} :
    .finish x ∈ collectEffects mode reference cancel effects ↔ .finish x ∈ effects := by
  induction effects with
  | nil => simp [collectEffects]
  | cons effect rest ih =>
    cases effect with
    | cancelOrder => cases cancel <;> simp [collectEffects, ih]
    | _ => simp [collectEffects, ih]

/-- A question that may be sent is sent. -/
theorem ofWait_ok (step : Wait ρ × List (Wait.Effect ρ)) :
    ofWait now (.ok call) read cancel step =
      (.wait step.1 (.ok call) read cancel, waitEffects (.ok call) cancel step.2) := by
  obtain ⟨w, effects⟩ := step
  cases hphase : w.phase <;> simp only [ofWait, hphase]

/-- What a wait that has moved is, and what it gives: a question that may not be sent is
answered. -/
theorem ofWait_spec (now : Nat) (question : Except ρ Call)
    (read : Answer → Except ρ (Sighting ρ)) (cancel : Option Call)
    (step : Wait ρ × List (Wait.Effect ρ)) :
    ∃ w, (ofWait now question read cancel step).1 = .wait w question read cancel ∧
      w.rule = step.1.rule ∧
      ∀ x, .finish x ∈ (ofWait now question read cancel step).2 →
        .finish x ∈ step.2 ∨ question = .error x := by
  obtain ⟨w, effects⟩ := step
  simp only [ofWait]
  split
  · refine ⟨_, rfl, Wait.rule_answered _, fun x hx => ?_⟩
    rw [finish_mem_waitEffects] at hx
    rcases List.mem_append.1 hx with hx | hx
    · exact .inl hx
    · rcases Wait.finish_of_answered hx with heq | ⟨s, heq, -⟩
      · injection heq with heq
        exact .inr (by rw [heq])
      · cases heq
  · exact ⟨_, rfl, rfl, fun x hx => .inl (finish_mem_waitEffects.1 hx)⟩

end

end Job

/-! ## Activities with one result -/

/-- The activity gives one result and no items. -/
def Activity.IsPlain {ρ : Type} : Activity ρ → Prop
  | .settled _ | .exchange .. | .wait .. | .collect .. => True
  | _ => False

namespace Job

variable {ρ : Type} {a : Activity ρ} {j j' : Job ρ} {e : Event} {effects : List (Effect ρ)}
  {now : Nat} {x : ρ}

/-- `Under a j`: the job `j` is the activity `a` under way, or over. -/
inductive Under : Activity ρ → Job ρ → Prop
  | over {a : Activity ρ} : Under a .over
  | exchange {call : Call} {read : Answer → ρ} : Under (.exchange call read) (.exchange read)
  | wait {question : Except ρ Call} {read : Answer → Except ρ (Sighting ρ)}
      {cancel : Option Call} {w : Wait ρ} :
      Under (.wait w.rule question read cancel) (.wait w question read cancel)
  | collect {mode : Order.Mode} {reference : String} {read : Except Failure Freja.Result → ρ}
      {cancels : Bool} {cancel : Option Call} {c : Freja.Collect ρ} :
      c.read = read → c.cancelsAbandoned = cancels →
      Under (.collect mode reference read cancels cancel) (.collect c mode reference cancel)

/-- `Gives a e x`: the activity `a` gives the result `x` when `e` happens, or at its start where
nothing has happened yet. -/
inductive Gives : Activity ρ → Option Event → ρ → Prop
  | settled {x : ρ} : Gives (.settled x) none x
  | exchange {call : Call} {read : Answer → ρ} {slot : Nat} {answer : Answer} :
      Gives (.exchange call read) (some (.answered slot answer)) (read answer)
  /-- The question may not be sent. -/
  | unasked {rule : Wait.Rule ρ} {read : Answer → Except ρ (Sighting ρ)} {cancel : Option Call}
      {e : Option Event} {x : ρ} : Gives (.wait rule (.error x) read cancel) e x
  /-- The answer cannot be used. -/
  | failed {rule : Wait.Rule ρ} {question : Except ρ Call}
      {read : Answer → Except ρ (Sighting ρ)} {cancel : Option Call} {slot : Nat}
      {answer : Answer} {x : ρ} : read answer = .error x →
      Gives (.wait rule question read cancel) (some (.answered slot answer)) x
  /-- The answer decides. -/
  | shown {rule : Wait.Rule ρ} {question : Except ρ Call}
      {read : Answer → Except ρ (Sighting ρ)} {cancel : Option Call} {slot : Nat}
      {answer : Answer} {s : Sighting ρ} : read answer = .ok s →
      Gives (.wait rule question read cancel) (some (.answered slot answer)) s.result
  /-- The caller has given up, and no answer shows that the order is over. -/
  | stopped {rule : Wait.Rule ρ} {question : Except ρ Call}
      {read : Answer → Except ρ (Sighting ρ)} {cancel : Option Call} {e : Option Event} :
      (∀ slot answer s, e = some (.answered slot answer) → read answer = .ok s →
        s.isOver = false) →
      Gives (.wait rule question read cancel) e rule.cancelled
  | polled {mode : Order.Mode} {reference : String} {read : Except Failure Freja.Result → ρ}
      {cancels : Bool} {cancel : Option Call} {outcome : Except Failure Freja.Result} :
      Gives (.collect mode reference read cancels cancel) (some (.polled outcome)) (read outcome)
  /-- The caller has given up, and no answer of the poller is there. -/
  | unpolled {mode : Order.Mode} {reference : String} {read : Except Failure Freja.Result → ρ}
      {cancels : Bool} {cancel : Option Call} {e : Option Event} :
      (∀ outcome, e ≠ some (.polled outcome)) →
      Gives (.collect mode reference read cancels cancel) e (Freja.Collect.whenCancelled read)

/-- A wait that has moved is still the same activity. -/
theorem under_ofWait {question : Except ρ Call} {read : Answer → Except ρ (Sighting ρ)}
    {cancel : Option Call} {rule : Wait.Rule ρ} {step : Wait ρ × List (Wait.Effect ρ)}
    (hrule : step.1.rule = rule) :
    Under (.wait rule question read cancel) (ofWait now question read cancel step).1 := by
  obtain ⟨w, hw, hsame, -⟩ := ofWait_spec now question read cancel step
  rw [hw, ← hrule, ← hsame]
  exact .wait

/-! ## Every step -/

/-- A job starts under its activity. -/
theorem under_start (hplain : a.IsPlain) (now : Nat) (givenUp : Bool) :
    Under a (start now givenUp a).1 := by
  cases a with
  | settled result => exact .over
  | exchange call read => exact .exchange
  | wait rule question read cancel => exact under_ofWait (Wait.rule_start rule givenUp)
  | collect mode reference read cancels cancel => exact .collect rfl rfl
  | _ => exact hplain.elim

/-- What is given at the start is given for a reason. -/
theorem gives_of_start (hplain : a.IsPlain) {givenUp : Bool}
    (h : .finish x ∈ (start now givenUp a).2) : Gives a none x := by
  cases a with
  | settled result =>
    have hx := List.mem_singleton.1 h
    injection hx with hx
    rw [hx]
    exact .settled
  | exchange call read => simp [start] at h
  | wait rule question read cancel =>
    obtain ⟨-, -, -, hfinish⟩ := ofWait_spec now question read cancel (Wait.start now rule givenUp)
    rcases hfinish x h with hx | rfl
    · rw [Wait.finish_of_start hx]
      exact .stopped fun _ _ _ heq => by cases heq
    · exact .unasked
  | collect mode reference read cancels cancel =>
    have hx : Freja.Collect.Effect.finish x ∈ (Freja.Collect.start read cancels givenUp).2 :=
      finish_mem_collectEffects.1 h
    simp [Freja.Collect.start] at hx
  | _ => exact hplain.elim

/-- A wait that has moved is under its activity, and gives a result for a reason, if the wait itself
does. -/
theorem under_wait {w : Wait ρ} {question : Except ρ Call}
    {read : Answer → Except ρ (Sighting ρ)} {cancel : Option Call}
    {step : Wait ρ × List (Wait.Effect ρ)} (hrule : step.1.rule = w.rule)
    (hgives : ∀ x, .finish x ∈ step.2 → Gives (.wait w.rule question read cancel) (some e) x)
    (heq : ofWait now question read cancel step = (j', effects)) :
    Under (.wait w.rule question read cancel) j' ∧
      ∀ x, .finish x ∈ effects → Gives (.wait w.rule question read cancel) (some e) x := by
  have hunder : Under (.wait w.rule question read cancel)
      (ofWait now question read cancel step).1 := under_ofWait hrule
  obtain ⟨-, -, -, hfinish⟩ := ofWait_spec now question read cancel step
  rw [heq] at hunder hfinish
  refine ⟨hunder, fun x hx => ?_⟩
  rcases hfinish x hx with hx | rfl
  · exact hgives x hx
  · exact .unasked

/-- A wait moves under its activity, and gives a result only for a reason. -/
theorem wait_step {w : Wait ρ} {question : Except ρ Call} {read : Answer → Except ρ (Sighting ρ)}
    {cancel : Option Call}
    (hstep : machine now (.wait w question read cancel) e = some (j', effects)) :
    Under (.wait w.rule question read cancel) j' ∧
      ∀ x, .finish x ∈ effects → Gives (.wait w.rule question read cancel) (some e) x := by
  cases e with
  | answered slot answer =>
    refine under_wait (Wait.rule_answered _) (fun x hx => ?_) (Option.some.inj hstep)
    rcases Wait.finish_of_answered hx with hread | ⟨s, hread, rfl | ⟨hover, rfl⟩⟩
    · exact .failed hread
    · exact .shown hread
    · refine .stopped fun slot' answer' s' heq hread' => ?_
      injection heq with heq
      injection heq with _ heq
      subst heq
      rw [hread, Except.ok.injEq] at hread'
      rwa [← hread']
  | advance =>
    obtain ⟨step, hadvance, heq⟩ := Option.map_eq_some_iff.1 hstep
    exact under_wait (Wait.rule_advance hadvance)
      (fun x hx => (Wait.finish_of_advance hadvance hx).elim) heq
  | giveUp =>
    refine under_wait Wait.rule_giveUp (fun x hx => ?_) (Option.some.inj hstep)
    rw [Wait.finish_of_giveUp hx]
    exact .stopped fun _ _ _ heq => by cases heq
  | drop =>
    exact under_wait Wait.rule_drop (fun x hx => (Wait.finish_of_drop hx).elim)
      (Option.some.inj hstep)
  | _ =>
    obtain ⟨rfl, rfl⟩ := Prod.mk.inj (Option.some.inj hstep)
    exact ⟨.wait, fun x hx => by cases hx⟩

section
variable {mode : Order.Mode} {reference : String} {read : Except Failure Freja.Result → ρ}
  {cancels : Bool} {cancel : Option Call} {c : Freja.Collect ρ}

/-- Collecting that has moved is under its activity, and gives a result for a reason, if collecting
itself does. -/
theorem under_collect {step : Freja.Collect ρ × List (Freja.Collect.Effect ρ)}
    (hread : c.read = read) (hcancels : c.cancelsAbandoned = cancels)
    (hcaller : Freja.Collect.Same c step.1)
    (hgives : ∀ x, .finish x ∈ step.2 →
      Gives (.collect mode reference read cancels cancel) (some e) x)
    (heq : ofCollect mode reference cancel step = (j', effects)) :
    Under (.collect mode reference read cancels cancel) j' ∧
      ∀ x, .finish x ∈ effects →
        Gives (.collect mode reference read cancels cancel) (some e) x := by
  obtain ⟨rfl, rfl⟩ := Prod.mk.inj heq
  exact ⟨.collect (hcaller.1.trans hread) (hcaller.2.trans hcancels), fun x hx =>
    hgives x (finish_mem_collectEffects.1 hx)⟩

/-- Collecting moves under its activity, and gives a result only for a reason. -/
theorem collect_step (hread : c.read = read) (hcancels : c.cancelsAbandoned = cancels)
    (hstep : machine now (.collect c mode reference cancel) e = some (j', effects)) :
    Under (.collect mode reference read cancels cancel) j' ∧
      ∀ x, .finish x ∈ effects →
        Gives (.collect mode reference read cancels cancel) (some e) x := by
  cases e with
  | registered =>
    refine under_collect hread hcancels Freja.Collect.same_registered (fun x hx => ?_)
      (Option.some.inj hstep)
    rw [Freja.Collect.finish_of_registered hx, hread]
    exact .unpolled fun _ heq => by cases heq
  | polled outcome =>
    refine under_collect hread hcancels (Freja.Collect.same_answered outcome) (fun x hx => ?_)
      (Option.some.inj hstep)
    rw [Freja.Collect.finish_of_answered hx, hread]
    exact .polled
  | giveUp =>
    refine under_collect hread hcancels Freja.Collect.same_giveUp (fun x hx => ?_)
      (Option.some.inj hstep)
    rw [Freja.Collect.finish_of_giveUp hx, hread]
    exact .unpolled fun _ heq => by cases heq
  | drop =>
    exact under_collect hread hcancels Freja.Collect.same_drop
      (fun x hx => (Freja.Collect.finish_of_drop hx).elim) (Option.some.inj hstep)
  | answered slot answer =>
    obtain ⟨rfl, rfl⟩ := Prod.mk.inj (Option.some.inj hstep)
    exact ⟨.collect hread hcancels, fun x hx => by cases hx⟩
  | advance => cases hstep

end

/-- **A step of a job** leaves it under its activity, and gives a result only for a reason. -/
theorem under_step (hj : Under a j) (hstep : machine now j e = some (j', effects)) :
    Under a j' ∧ ∀ x, .finish x ∈ effects → Gives a (some e) x := by
  have hquiet {a : Activity ρ} {j : Job ρ} (hj : Under a j)
      (heq : (j, ([] : List (Effect ρ))) = (j', effects)) :
      Under a j' ∧ ∀ x, .finish x ∈ effects → Gives a (some e) x := by
    obtain ⟨rfl, rfl⟩ := Prod.mk.inj heq
    exact ⟨hj, fun x hx => by cases hx⟩
  cases hj with
  | «over» =>
    cases e with
    | advance => cases hstep
    | _ => exact hquiet .over (Option.some.inj hstep)
  | exchange =>
    cases e with
    | answered slot answer =>
      obtain ⟨rfl, rfl⟩ := Prod.mk.inj (Option.some.inj hstep)
      refine ⟨.over, fun x hx => ?_⟩
      have hx := List.mem_singleton.1 hx
      injection hx with hx
      rw [hx]
      exact .exchange
    | advance => cases hstep
    | drop => exact hquiet .over (Option.some.inj hstep)
    | _ => exact hquiet .exchange (Option.some.inj hstep)
  | wait => exact wait_step hstep
  | collect hread hcancels => exact collect_step hread hcancels hstep

/-- A job is under its activity after every run. -/
theorem under_of_runs (hplain : a.IsPlain) {t₀ : Nat} {givenUp : Bool} {h : History ρ}
    (run : Runs t₀ givenUp a h now j) : Under a j := by
  induction run with
  | start => exact under_start hplain t₀ givenUp
  | next _ _ _ hstep ih => exact (under_step ih hstep).1

end Job

end OrderBroker
