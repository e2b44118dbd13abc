import OrderBroker.Proofs.Job.Activities
import OrderBroker.Proofs.Json.Values
import OrderBroker.Proofs.OrderStream.Words

/-!
# Bounds on what a job does

What a job may ever send, and what its caller may ever be given, can be read off its activity: the
requests that stand in it, and what it makes of the answers that may come (`Activity.Within`). A job
that starts within such bounds stays within them, whatever happens to it (`keeps_start`,
`keeps_step`, `within_take`).

This holds of all activities, those with items included. It says nothing of when something is sent
or given; for activities with one result `Gives` says more.
-/

namespace OrderBroker

/-! ## Waits of patient callers -/

namespace Wait

variable {ρ : Type} {w : Wait ρ} {x : ρ} {now : Nat} {answer : Except ρ (Sighting ρ)}

/-- A wait rests or ends, and its caller has given up only if he had. -/
@[simp] theorem givenUp_rest : (w.rest now).1.givenUp = w.givenUp := by
  unfold rest
  split <;> rfl

@[simp] theorem givenUp_answered : (w.answered now answer).1.givenUp = w.givenUp := by
  unfold answered
  split
  · rfl
  · split
    · rfl
    · exact givenUp_rest
  · rfl

@[simp] theorem givenUp_drop : w.drop.1.givenUp = w.givenUp := by
  unfold drop
  split <;> rfl

@[simp] theorem givenUp_start (rule : Rule ρ) (givenUp : Bool) :
    (Wait.start now rule givenUp).1.givenUp = givenUp := by
  unfold Wait.start
  split
  · rfl
  · exact givenUp_rest

theorem givenUp_advance {step : Wait ρ × List (Effect ρ)} (hstep : w.advance now = some step) :
    step.1.givenUp = w.givenUp := by
  unfold advance at hstep
  split at hstep
  · simp only [Option.ite_none_right_eq_some, Option.some.injEq] at hstep
    rw [← hstep.2]
    rfl
  · cases hstep

/-- A wait goes on resting unless its caller has given up. -/
theorem givenUp_of_rest (h : .finish x ∈ (w.rest now).2) : w.givenUp = true := by
  unfold rest at h
  split at h
  · next hgiven => exact hgiven
  · cases h

/-- So does one that starts with a rest. -/
theorem givenUp_of_start {rule : Rule ρ} {givenUp : Bool}
    (h : .finish x ∈ (Wait.start now rule givenUp).2) : givenUp = true := by
  unfold Wait.start at h
  split at h
  · simp [ask] at h
  · exact givenUp_of_rest h

/-- What a patient caller is given when an answer comes: the failure that the answer is, or what it
shows. -/
theorem finish_of_answered_patient (hpatient : w.givenUp = false)
    (h : .finish x ∈ (w.answered now answer).2) :
    answer = .error x ∨ ∃ s, answer = .ok s ∧ x = s.result := by
  rcases finish_of_answered h with hread | ⟨s, hread, hx | ⟨-, -⟩⟩
  · exact .inl hread
  · exact .inr ⟨s, hread, hx⟩
  · subst hread
    by_cases hasks : w.phase = .asking
    · rw [answered_ok hasks] at h
      split at h
      · have hx : Effect.finish x = Effect.finish s.result := List.mem_singleton.1 h
        injection hx with hx
        exact .inr ⟨s, rfl, hx⟩
      · have hgiven := givenUp_of_rest h
        simp [hpatient] at hgiven
    · rw [answered_idle hasks] at h
      cases h

end Wait

namespace Freja.Collect

variable {ρ : Type} {c : Collect ρ} {x : ρ}

/-- Nobody has given up collecting who had not. -/
@[simp] theorem givenUp_registered : c.registered.1.givenUp = c.givenUp := by
  unfold registered
  split
  · split <;> rfl
  · rfl

@[simp] theorem givenUp_answered (outcome : Except Failure Result) :
    (c.answered outcome).1.givenUp = c.givenUp := by
  unfold answered
  split <;> rfl

@[simp] theorem givenUp_drop : c.drop.1.givenUp = c.givenUp := by
  unfold drop
  split <;> rfl

/-- Only a caller who has given up is given something when the registration is queued. -/
theorem givenUp_of_registered (h : .finish x ∈ c.registered.2) : c.givenUp = true := by
  unfold registered at h
  split at h
  · split at h
    · next hgiven => exact hgiven
    · cases h
  · cases h

end Freja.Collect

namespace Job

variable {ρ σ : Type}

/-! ## Bounds -/

/-- Bounds on a job: what it may send, what its caller may be given, what may happen to it, and the
failures for which a stream may have words. -/
structure Bounds (ρ : Type) where
  sends : Call → Prop
  gives : ρ → Prop
  /-- The answers of vendors that come. -/
  hears : Answer → Prop
  /-- What the poller answers. -/
  learns : Except Failure Freja.Result → Prop
  /-- The caller does not give up. -/
  patient : Prop
  words : Failure → Prop
  stopped : words (.at .bankId .cancelled)
  unasked : ∀ (client : BankId.Client) (orderRef : String) (failure : Failure),
    client.collectOnce orderRef = .error failure → words failure
  heard : ∀ (client : BankId.Client) (orderRef : String) (answer : Answer) (failure : Failure),
    hears answer → readProgress client orderRef answer = .error failure → words failure

namespace Bounds

/-- The same bounds for a caller who is then given something else. -/
def comap (b : Bounds σ) (f : ρ → σ) : Bounds ρ := { b with gives := b.gives ∘ f }

/-- Bounds on requests alone. -/
def sending (sends : Call → Prop) : Bounds ρ where
  sends := sends
  gives _ := True
  hears _ := True
  learns _ := True
  patient := False
  words _ := True
  stopped := trivial
  unasked _ _ _ _ := trivial
  heard _ _ _ _ _ _ := trivial

/-- What may happen to the job. -/
def May (b : Bounds ρ) : Event → Prop
  | .answered _ answer => b.hears answer
  | .polled outcome => b.learns outcome
  | .giveUp => ¬ b.patient
  | _ => True

/-- A wait within bounds. -/
structure Waits (b : Bounds ρ) (rule : Wait.Rule ρ) (question : Except ρ Call)
    (read : Answer → Except ρ (Sighting ρ)) (cancel : Option Call) : Prop where
  asks : ∀ call, question = .ok call → b.sends call
  unasked : ∀ x, question = .error x → b.gives x
  fails : ∀ answer x, b.hears answer → read answer = .error x → b.gives x
  shows : ∀ answer s, b.hears answer → read answer = .ok s → b.gives s.result
  stops : ¬ b.patient → b.gives rule.cancelled
  cancels : ∀ call ∈ cancel, b.sends call

/-- The collecting of an order within bounds. -/
structure Collects (b : Bounds ρ) (read : Except Failure Freja.Result → ρ)
    (cancel : Option Call) : Prop where
  reads : ∀ outcome, b.learns outcome → b.gives (read outcome)
  stops : ¬ b.patient → b.gives (Freja.Collect.whenCancelled read)
  cancels : ∀ call ∈ cancel, b.sends call

/-- A stream within bounds. -/
structure Streams (b : Bounds ρ) (client : BankId.Client) (head : ρ) (chunk : String → ρ) :
    Prop where
  asks : ∀ orderRef x, client.collectOnce orderRef = .ok x → b.sends x.call
  head : b.gives head
  chunks : ∀ text, Http.OrderStream.Worded b.words text → b.gives (chunk text)

/-- A watch within bounds. -/
structure Watches (b : Bounds ρ) (client : BankId.Client) (orderRef : String)
    (read : Except Failure BankId.Progress → ρ) (closed : ρ) : Prop where
  asks : ∀ x, client.collectOnce orderRef = .ok x → b.sends x.call
  items : ∀ item, (∀ failure, item = .error failure → b.words failure) → b.gives (read item)
  closed : b.gives closed

end Bounds

/-- The effect is within bounds. -/
def Effect.Within (b : Bounds ρ) : Effect ρ → Prop
  | .send _ call | .sendAway call => b.sends call
  | .head x | .finish x => b.gives x
  | _ => True

/-- The job stays within bounds. -/
def Within (b : Bounds ρ) : Job ρ → Prop
  | .over => True
  | .exchange read => ∀ answer, b.hears answer → b.gives (read answer)
  | .survey answers read =>
    (∀ answer, some answer ∈ answers → b.hears answer) ∧
      ∀ answers, (∀ answer ∈ answers, b.hears answer) → b.gives (read answers)
  | .wait w question read cancel =>
    b.Waits w.rule question read cancel ∧ (w.givenUp = true → ¬ b.patient)
  | .collect c _ _ cancel => b.Collects c.read cancel ∧ (c.givenUp = true → ¬ b.patient)
  | .startStream client read _ head chunk =>
    b.Streams client head chunk ∧ ∀ answer x, b.hears answer → read answer = .error x → b.gives x
  | .stream client s head chunk => b.Streams client head chunk ∧ s.Within b.words
  | .startWatch client orderRef read closed _ => b.Watches client orderRef read closed
  | .watch client orderRef w read closed =>
    b.Watches client orderRef read closed ∧ ∀ failure, .error failure ∈ w.queue → b.words failure

/-- A step is within bounds. -/
def Bounds.Keeps (b : Bounds ρ) (step : Job ρ × List (Effect ρ)) : Prop :=
  step.1.Within b ∧ ∀ effect ∈ step.2, effect.Within b

end Job

/-- The activity stays within bounds. -/
def Activity.Within {ρ : Type} (b : Job.Bounds ρ) : Activity ρ → Prop
  | .settled x => b.gives x
  | .exchange call read => b.sends call ∧ ∀ answer, b.hears answer → b.gives (read answer)
  | .survey calls read =>
    (∀ call ∈ calls, b.sends call) ∧
      ∀ answers, (∀ answer ∈ answers, b.hears answer) → b.gives (read answers)
  | .wait rule question read cancel => b.Waits rule question read cancel
  | .collect _ _ read _ cancel => b.Collects read cancel
  | .orderStream client call read _ head chunk =>
    b.sends call ∧ b.Streams client head chunk ∧
      ∀ answer x, b.hears answer → read answer = .error x → b.gives x
  | .watch client orderRef read closed => b.Watches client orderRef read closed

namespace Job

variable {ρ σ : Type} {b : Bounds ρ} {j j' : Job ρ} {e : Event} {effects : List (Effect ρ)}
  {now : Nat} {x : ρ}

/-- Nothing is done. -/
theorem Bounds.Keeps.quiet (hj : j.Within b) : b.Keeps (j, []) := ⟨hj, fun _ h => nomatch h⟩

/-- The job ends with a result. -/
theorem Bounds.Keeps.finish (hx : b.gives x) : b.Keeps (.over, [.finish x]) :=
  ⟨trivial, fun effect h => by rw [List.mem_singleton.1 h]; exact hx⟩

/-! ## One step -/

section
variable {question : Except ρ Call} {read : Answer → Except ρ (Sighting ρ)} {cancel : Option Call}

/-- What a wait does is within bounds, if its results are. -/
theorem within_waitEffects (hasks : ∀ call, question = .ok call → b.sends call)
    (hcancels : ∀ call ∈ cancel, b.sends call) {waited : List (Wait.Effect ρ)}
    (hgives : ∀ x, .finish x ∈ waited → b.gives x) :
    ∀ effect ∈ waitEffects question cancel waited, effect.Within b := by
  induction waited with
  | nil => exact fun _ h => nomatch h
  | cons first rest ih =>
    have hrest := ih fun x hx => hgives x (.tail _ hx)
    cases first with
    | ask =>
      cases question with
      | ok call => exact List.forall_mem_cons.2 ⟨hasks call rfl, hrest⟩
      | error failure => exact hrest
    | finish result => exact List.forall_mem_cons.2 ⟨hgives result (.head _), hrest⟩
    | cancelOrder =>
      cases cancel with
      | none => exact hrest
      | some call => exact List.forall_mem_cons.2 ⟨hcancels call rfl, hrest⟩

/-- A wait that has moved is within bounds. -/
theorem keeps_ofWait {rule : Wait.Rule ρ} {givenUp : Bool}
    {step : Wait ρ × List (Wait.Effect ρ)} (hwaits : b.Waits rule question read cancel)
    (hpatient : givenUp = true → ¬ b.patient) (hrule : step.1.rule = rule)
    (hgiven : step.1.givenUp = givenUp) (hgives : ∀ x, .finish x ∈ step.2 → b.gives x) :
    b.Keeps (ofWait now question read cancel step) := by
  obtain ⟨w, waited⟩ := step
  subst hrule hgiven
  simp only [ofWait]
  split
  · next failure _ =>
    have hrule : (w.answered now (.error failure)).1.rule = w.rule := Wait.rule_answered _
    have hgiven : (w.answered now (.error failure)).1.givenUp = w.givenUp := Wait.givenUp_answered
    refine ⟨⟨hrule.symm ▸ hwaits, fun h => hpatient (hgiven ▸ h)⟩, ?_⟩
    refine within_waitEffects hwaits.asks hwaits.cancels fun x hx => ?_
    rcases List.mem_append.1 hx with hx | hx
    · exact hgives x hx
    · rcases Wait.finish_of_answered hx with heq | ⟨s, heq, -⟩
      · exact hwaits.unasked x (congrArg Except.error (Except.error.inj heq))
      · cases heq
  · exact ⟨⟨hwaits, hpatient⟩, within_waitEffects hwaits.asks hwaits.cancels hgives⟩

/-- A wait keeps its bounds. -/
theorem keeps_wait {w : Wait ρ} (hj : Within b (.wait w question read cancel)) (hmay : b.May e)
    (hstep : machine now (.wait w question read cancel) e = some (j', effects)) :
    b.Keeps (j', effects) := by
  obtain ⟨hwaits, hpatient⟩ := hj
  have hcancelled : w.givenUp = true → b.gives w.rule.cancelled :=
    fun hgiven => hwaits.stops (hpatient hgiven)
  cases e with
  | answered slot answer =>
    rw [← Option.some.inj hstep]
    refine keeps_ofWait hwaits hpatient (Wait.rule_answered _) Wait.givenUp_answered fun x hx => ?_
    cases hgiven : w.givenUp with
    | false =>
      rcases Wait.finish_of_answered_patient hgiven hx with hread | ⟨s, hread, rfl⟩
      · exact hwaits.fails answer x hmay hread
      · exact hwaits.shows answer s hmay hread
    | true =>
      rcases Wait.finish_of_answered hx with hread | ⟨s, hread, rfl | ⟨-, rfl⟩⟩
      · exact hwaits.fails answer x hmay hread
      · exact hwaits.shows answer s hmay hread
      · exact hcancelled hgiven
  | advance =>
    obtain ⟨step, hadvance, heq⟩ := Option.map_eq_some_iff.1 hstep
    rw [← heq]
    exact keeps_ofWait hwaits hpatient (Wait.rule_advance hadvance)
      (Wait.givenUp_advance hadvance) fun x hx => (Wait.finish_of_advance hadvance hx).elim
  | giveUp =>
    rw [← Option.some.inj hstep]
    refine keeps_ofWait hwaits (fun _ => hmay) Wait.rule_giveUp rfl fun x hx => ?_
    rw [Wait.finish_of_giveUp hx]
    exact hwaits.stops hmay
  | drop =>
    rw [← Option.some.inj hstep]
    exact keeps_ofWait hwaits hpatient Wait.rule_drop Wait.givenUp_drop
      fun x hx => (Wait.finish_of_drop hx).elim
  | _ =>
    rw [← Option.some.inj hstep]
    exact .quiet ⟨hwaits, hpatient⟩

end

section
variable {mode : Order.Mode} {reference : String} {cancel : Option Call} {c : Freja.Collect ρ}

/-- The collecting of an order that has moved is within bounds. -/
theorem keeps_ofCollect {step : Freja.Collect ρ × List (Freja.Collect.Effect ρ)}
    (hcollects : b.Collects step.1.read cancel) (hpatient : step.1.givenUp = true → ¬ b.patient)
    (hgives : ∀ x, .finish x ∈ step.2 → b.gives x) :
    b.Keeps (ofCollect mode reference cancel step) := by
  refine ⟨⟨hcollects, hpatient⟩, fun effect heffect => ?_⟩
  obtain ⟨c, collected⟩ := step
  simp only [ofCollect] at heffect
  induction collected with
  | nil => cases heffect
  | cons first rest ih =>
    have hrest := ih hcollects hpatient fun x hx => hgives x (.tail _ hx)
    cases first with
    | register =>
      rcases List.mem_cons.1 heffect with rfl | heffect
      exacts [trivial, hrest heffect]
    | leave =>
      rcases List.mem_cons.1 heffect with rfl | heffect
      exacts [trivial, hrest heffect]
    | finish result =>
      rcases List.mem_cons.1 heffect with rfl | heffect
      exacts [hgives result (.head _), hrest heffect]
    | cancelOrder =>
      rcases List.mem_append.1 heffect with heffect | heffect
      · cases cancel with
        | none => cases heffect
        | some call =>
          obtain rfl := List.mem_singleton.1 heffect
          exact hcollects.cancels call rfl
      · exact hrest heffect

/-- The collecting of an order keeps its bounds. -/
theorem keeps_collect (hj : Within b (.collect c mode reference cancel)) (hmay : b.May e)
    (hstep : machine now (.collect c mode reference cancel) e = some (j', effects)) :
    b.Keeps (j', effects) := by
  obtain ⟨hcollects, hpatient⟩ := hj
  have hread {c' : Freja.Collect ρ} (hsame : Freja.Collect.Same c c') :
      b.Collects c'.read cancel := hsame.1.symm ▸ hcollects
  cases e with
  | registered =>
    rw [← Option.some.inj hstep]
    refine keeps_ofCollect (hread Freja.Collect.same_registered) ?_ fun x hx => ?_
    · simpa using hpatient
    · rw [Freja.Collect.finish_of_registered hx]
      exact hcollects.stops (hpatient (Freja.Collect.givenUp_of_registered hx))
  | polled outcome =>
    rw [← Option.some.inj hstep]
    refine keeps_ofCollect (hread (Freja.Collect.same_answered outcome)) ?_ fun x hx => ?_
    · simpa using hpatient
    · rw [Freja.Collect.finish_of_answered hx]
      exact hcollects.reads outcome hmay
  | giveUp =>
    rw [← Option.some.inj hstep]
    refine keeps_ofCollect (hread Freja.Collect.same_giveUp) (fun _ => hmay) fun x hx => ?_
    rw [Freja.Collect.finish_of_giveUp hx]
    exact hcollects.stops hmay
  | drop =>
    rw [← Option.some.inj hstep]
    refine keeps_ofCollect (hread Freja.Collect.same_drop) ?_
      fun x hx => (Freja.Collect.finish_of_drop hx).elim
    simpa using hpatient
  | answered slot answer =>
    rw [← Option.some.inj hstep]
    exact .quiet ⟨hcollects, hpatient⟩
  | advance => cases hstep

end

section
variable {client : BankId.Client} {head : ρ} {chunk : String → ρ} {s : Http.OrderStream}
  {asks : Bool}

/-- A stream that has moved is within bounds. -/
theorem keeps_ofStream (hstreams : b.Streams client head chunk) (hs : s.Within b.words) :
    b.Keeps (ofStream now client head chunk s asks) := by
  unfold ofStream
  split
  · split
    · next q hq =>
      refine ⟨⟨hstreams, hs⟩, fun effect h => ?_⟩
      rw [List.mem_singleton.1 h]
      exact hstreams.asks _ q hq
    · next failure hq =>
      refine .quiet ⟨hstreams, hs.answered b.stopped fun failure' heq => ?_⟩
      rw [← Except.error.inj heq]
      exact b.unasked _ _ _ hq
  · exact .quiet ⟨hstreams, hs⟩

/-- A stream keeps its bounds. -/
theorem keeps_stream (hj : Within b (.stream client s head chunk)) (hmay : b.May e)
    (hstep : machine now (.stream client s head chunk) e = some (j', effects)) :
    b.Keeps (j', effects) := by
  obtain ⟨hstreams, hs⟩ := hj
  cases e with
  | answered slot answer =>
    rw [← Option.some.inj hstep]
    exact keeps_ofStream hstreams
      (hs.answered b.stopped fun failure heq => b.heard _ _ answer failure hmay heq)
  | advance =>
    obtain ⟨⟨s', asks⟩, hadvance, heq⟩ := Option.map_eq_some_iff.1 hstep
    rw [← heq]
    exact keeps_ofStream hstreams (hs.advance b.stopped hadvance)
  | drop =>
    rw [← Option.some.inj hstep]
    exact .quiet ⟨hstreams, hs.leave⟩
  | _ =>
    rw [← Option.some.inj hstep]
    exact .quiet ⟨hstreams, hs⟩

/-- The start of a stream keeps its bounds. -/
theorem keeps_startStream {read : Answer → Except ρ BankId.StartedOrder} {style : StreamStyle}
    (hj : Within b (.startStream client read style head chunk)) (hmay : b.May e)
    (hstep : machine now (.startStream client read style head chunk) e = some (j', effects)) :
    b.Keeps (j', effects) := by
  obtain ⟨hstreams, hfails⟩ := hj
  cases e with
  | answered slot answer =>
    rw [← Option.some.inj hstep, answered]
    split
    · next result hread => exact .finish (hfails answer result hmay hread)
    · next order _ =>
      obtain ⟨hjob, heffects⟩ : b.Keeps (ofStream now client head chunk
          (.start order style.period client.pollInterval style.format) true) :=
        keeps_ofStream hstreams (.start order style.period client.pollInterval style.format)
      exact ⟨hjob, List.forall_mem_cons.2 ⟨hstreams.head, heffects⟩⟩
  | advance => cases hstep
  | drop =>
    rw [← Option.some.inj hstep]
    exact .quiet trivial
  | _ =>
    rw [← Option.some.inj hstep]
    exact .quiet ⟨hstreams, hfails⟩

end

section
variable {client : BankId.Client} {orderRef : String}
  {read : Except Failure BankId.Progress → ρ} {closed : ρ} {w : BankId.Watch} {asks : Bool}

/-- The word to stop is among those of a watch. -/
theorem words_of_stopped {failure : Failure} (h : .error failure = BankId.Watch.stoppedItem) :
    b.words failure :=
  Http.OrderStream.said_of_stopped b.stopped h

/-- An answer leaves a watch its words. -/
theorem words_answered {answer : BankId.Change}
    (hw : ∀ failure, .error failure ∈ w.queue → b.words failure)
    (hanswer : ∀ failure, answer = .error failure → b.words failure) :
    ∀ failure, .error failure ∈ (w.answered now answer).queue → b.words failure := by
  intro failure hfailure
  have hmem := BankId.Watch.queue_answered hfailure
  simp only [List.mem_append, List.mem_cons, List.not_mem_nil, or_false] at hmem
  rcases hmem with hold | heq | hlast
  · exact hw failure hold
  · exact hanswer failure heq.symm
  · exact words_of_stopped hlast

/-- A watch that has moved is within bounds. -/
theorem keeps_ofWatch (hwatches : b.Watches client orderRef read closed)
    (hw : ∀ failure, .error failure ∈ w.queue → b.words failure) :
    b.Keeps (ofWatch now client orderRef read closed w asks) := by
  unfold ofWatch
  split
  · split
    · next q hq =>
      refine ⟨⟨hwatches, hw⟩, fun effect h => ?_⟩
      rw [List.mem_singleton.1 h]
      exact hwatches.asks q hq
    · next failure hq =>
      refine .quiet ⟨hwatches, words_answered hw fun failure' heq => ?_⟩
      rw [← Except.error.inj heq]
      exact b.unasked _ _ _ hq
  · exact .quiet ⟨hwatches, hw⟩

/-- A watch keeps its bounds. -/
theorem keeps_watch (hj : Within b (.watch client orderRef w read closed)) (hmay : b.May e)
    (hstep : machine now (.watch client orderRef w read closed) e = some (j', effects)) :
    b.Keeps (j', effects) := by
  obtain ⟨hwatches, hw⟩ := hj
  cases e with
  | answered slot answer =>
    rw [← Option.some.inj hstep]
    exact keeps_ofWatch hwatches
      (words_answered hw fun failure heq => b.heard _ _ answer failure hmay heq)
  | advance =>
    obtain ⟨⟨w', asks⟩, hadvance, heq⟩ := Option.map_eq_some_iff.1 hstep
    rw [← heq]
    refine keeps_ofWatch hwatches fun failure hfailure => ?_
    rcases List.mem_append.1 (BankId.Watch.queue_advance hadvance hfailure) with hold | hlast
    · exact hw failure hold
    · exact words_of_stopped (List.mem_singleton.1 hlast)
  | giveUp =>
    rw [← Option.some.inj hstep]
    refine .quiet ⟨hwatches, fun failure hfailure => ?_⟩
    rcases List.mem_append.1 (BankId.Watch.queue_stop hfailure) with hold | hlast
    · exact hw failure hold
    · exact words_of_stopped (List.mem_singleton.1 hlast)
  | drop =>
    rw [← Option.some.inj hstep]
    exact .quiet ⟨hwatches, fun failure hfailure => hw failure (BankId.Watch.queue_abandon hfailure)⟩
  | _ =>
    rw [← Option.some.inj hstep]
    exact .quiet ⟨hwatches, hw⟩

/-- The start of a watch keeps its bounds. -/
theorem keeps_startWatch {stopped : Bool}
    (hj : Within b (.startWatch client orderRef read closed stopped)) (hmay : b.May e)
    (hstep : machine now (.startWatch client orderRef read closed stopped) e =
      some (j', effects)) : b.Keeps (j', effects) := by
  have hwatches : b.Watches client orderRef read closed := hj
  cases e with
  | answered slot answer =>
    rw [← Option.some.inj hstep, answered]
    split
    · next failure hread =>
      refine .finish (hwatches.items _ fun failure' heq => ?_)
      rw [← Except.error.inj heq]
      exact b.heard _ _ answer failure hmay hread
    · refine keeps_ofWatch hwatches fun failure hfailure => ?_
      have hmem := BankId.Watch.queue_start hfailure
      simp only [List.mem_cons, reduceCtorEq, List.not_mem_nil, or_false, false_or] at hmem
      exact words_of_stopped hmem
  | advance => cases hstep
  | drop =>
    rw [← Option.some.inj hstep]
    exact .quiet trivial
  | _ =>
    rw [← Option.some.inj hstep]
    exact .quiet hj

end

/-- The survey of several answers keeps its bounds. -/
theorem keeps_survey {answers : List (Option Answer)} {read : List Answer → ρ}
    (hj : Within b (.survey answers read)) (hmay : b.May e)
    (hstep : machine now (.survey answers read) e = some (j', effects)) :
    b.Keeps (j', effects) := by
  obtain ⟨hcome, hgives⟩ := hj
  cases e with
  | answered slot answer =>
    have hset : ∀ answer', some answer' ∈ answers.set slot (some answer) → b.hears answer' := by
      intro answer' hmem
      rcases List.mem_or_eq_of_mem_set hmem with hold | heq
      · exact hcome answer' hold
      · rw [Option.some.inj heq]
        exact hmay
    rw [← Option.some.inj hstep, answered]
    split
    · next all hall =>
      refine .finish (hgives all fun answer' hmem => hset answer' ?_)
      obtain ⟨given, hgiven, rfl⟩ := Json.exists_of_mem_mapM hall hmem
      exact hgiven
    · exact .quiet ⟨hset, hgives⟩
  | advance => cases hstep
  | drop =>
    rw [← Option.some.inj hstep]
    exact .quiet trivial
  | _ =>
    rw [← Option.some.inj hstep]
    exact .quiet ⟨hcome, hgives⟩

/-- One exchange keeps its bounds. -/
theorem keeps_exchange {read : Answer → ρ} (hj : Within b (.exchange read)) (hmay : b.May e)
    (hstep : machine now (.exchange read) e = some (j', effects)) : b.Keeps (j', effects) := by
  cases e with
  | answered slot answer =>
    rw [← Option.some.inj hstep]
    exact .finish (hj answer hmay)
  | advance => cases hstep
  | drop =>
    rw [← Option.some.inj hstep]
    exact .quiet trivial
  | _ =>
    rw [← Option.some.inj hstep]
    exact .quiet hj

/-- **Every step of a job** is within the bounds of the job. -/
theorem keeps_step (hj : j.Within b) (hmay : b.May e)
    (hstep : machine now j e = some (j', effects)) : b.Keeps (j', effects) := by
  cases j with
  | «over» =>
    cases e with
    | advance => cases hstep
    | _ =>
      rw [← Option.some.inj hstep]
      exact .quiet trivial
  | exchange read => exact keeps_exchange hj hmay hstep
  | survey answers read => exact keeps_survey hj hmay hstep
  | wait w question read cancel => exact keeps_wait hj hmay hstep
  | collect c mode reference cancel => exact keeps_collect hj hmay hstep
  | startStream client read style head chunk => exact keeps_startStream hj hmay hstep
  | stream client s head chunk => exact keeps_stream hj hmay hstep
  | startWatch client orderRef read closed stopped => exact keeps_startWatch hj hmay hstep
  | watch client orderRef w read closed => exact keeps_watch hj hmay hstep

/-- **A job starts** within the bounds of its activity, for a caller who is as patient as they say. -/
theorem keeps_start {a : Activity ρ} (ha : a.Within b) {givenUp : Bool}
    (hpatient : givenUp = true → ¬ b.patient) (now : Nat) : b.Keeps (start now givenUp a) := by
  cases a with
  | settled result => exact .finish ha
  | exchange call read =>
    refine ⟨ha.2, fun effect h => ?_⟩
    rw [List.mem_singleton.1 h]
    exact ha.1
  | survey calls read =>
    obtain ⟨hsends, hgives⟩ := ha
    rw [start]
    split
    · exact .finish (hgives [] (by simp))
    · refine ⟨⟨by simp, hgives⟩, fun effect h => ?_⟩
      obtain ⟨slot, hslot, rfl⟩ := List.mem_mapIdx.1 h
      exact hsends _ (List.getElem_mem hslot)
  | wait rule question read cancel =>
    have hwaits : b.Waits rule question read cancel := ha
    refine keeps_ofWait hwaits hpatient (Wait.rule_start ..) (Wait.givenUp_start ..) fun x hx => ?_
    rw [Wait.finish_of_start hx]
    exact hwaits.stops (hpatient (Wait.givenUp_of_start hx))
  | collect mode reference read cancels cancel =>
    refine keeps_ofCollect ha hpatient fun x hx => ?_
    simp [Freja.Collect.start] at hx
  | orderStream client call read style head chunk =>
    obtain ⟨hsends, hstreams, hfails⟩ := ha
    refine ⟨⟨hstreams, hfails⟩, fun effect h => ?_⟩
    rw [List.mem_singleton.1 h]
    exact hsends
  | watch client orderRef read closed =>
    have hwatches : b.Watches client orderRef read closed := ha
    rw [start]
    split
    · next q hq =>
      refine ⟨hwatches, fun effect h => ?_⟩
      rw [List.mem_singleton.1 h]
      exact hwatches.asks q hq
    · next failure hq =>
      refine .finish (hwatches.items _ fun failure' heq => ?_)
      rw [← Except.error.inj heq]
      exact b.unasked _ _ _ hq

/-! ## Items -/

/-- **An item that is taken** is within the bounds of the job, and so is the job afterwards. -/
theorem within_take (hj : j.Within b) (htake : j.take = some (x, j')) : b.gives x ∧ j'.Within b := by
  cases j with
  | stream client s head chunk =>
    obtain ⟨hstreams, hs⟩ := hj
    obtain ⟨⟨text, s'⟩, hread, heq⟩ := Option.map_eq_some_iff.1 htake
    obtain ⟨rfl, rfl⟩ := Prod.mk.inj heq
    obtain ⟨hworded, hs'⟩ := hs.take hread
    exact ⟨hstreams.chunks text hworded, hstreams, hs'⟩
  | watch client orderRef w read closed =>
    obtain ⟨hwatches, hw⟩ := hj
    obtain ⟨⟨item, w'⟩, hread, heq⟩ := Option.map_eq_some_iff.1 htake
    obtain ⟨rfl, rfl⟩ := Prod.mk.inj heq
    obtain ⟨hitem, hrest⟩ := BankId.Watch.queue_take hread
    exact ⟨hwatches.items item fun failure heq => hw failure (heq ▸ hitem), hwatches,
      fun failure hfailure => hw failure (hrest hfailure)⟩
  | _ => cases htake

/-- So is what comes after the last item. -/
theorem gives_closing (hj : j.Within b) (hclosing : j.closing? = some x) : b.gives x := by
  cases j with
  | stream client s head chunk =>
    simp only [closing?, Option.ite_none_right_eq_some, Option.some.injEq] at hclosing
    exact hclosing.2 ▸ hj.1.head
  | watch client orderRef w read closed =>
    simp only [closing?, Option.ite_none_right_eq_some, Option.some.injEq] at hclosing
    exact hclosing.2 ▸ hj.1.closed
  | _ => cases hclosing

end Job

namespace Activity

variable {ρ σ : Type}

/-! ## Requests that stand in an activity -/

/-- The requests that an activity may lead to. -/
inductive Holds : Activity ρ → Call → Prop
  | exchange {call : Call} {read : Answer → ρ} : Holds (.exchange call read) call
  | survey {calls : List Call} {read : List Answer → ρ} {call : Call} : call ∈ calls →
      Holds (.survey calls read) call
  | asks {rule : Wait.Rule ρ} {call : Call} {read : Answer → Except ρ (Sighting ρ)}
      {cancel : Option Call} : Holds (.wait rule (.ok call) read cancel) call
  | cancels {rule : Wait.Rule ρ} {question : Except ρ Call}
      {read : Answer → Except ρ (Sighting ρ)} {call : Call} :
      Holds (.wait rule question read (some call)) call
  | collect {mode : Order.Mode} {reference : String} {read : Except Failure Freja.Result → ρ}
      {cancels : Bool} {call : Call} : Holds (.collect mode reference read cancels (some call)) call
  | starts {client : BankId.Client} {call : Call} {read : Answer → Except ρ BankId.StartedOrder}
      {style : StreamStyle} {head : ρ} {chunk : String → ρ} :
      Holds (.orderStream client call read style head chunk) call
  | streams {client : BankId.Client} {call : Call} {read : Answer → Except ρ BankId.StartedOrder}
      {style : StreamStyle} {head : ρ} {chunk : String → ρ} {orderRef : String}
      {x : Exchange BankId.Progress} : client.collectOnce orderRef = .ok x →
      Holds (.orderStream client call read style head chunk) x.call
  | watches {client : BankId.Client} {orderRef : String}
      {read : Except Failure BankId.Progress → ρ} {closed : ρ} {x : Exchange BankId.Progress} :
      client.collectOnce orderRef = .ok x → Holds (.watch client orderRef read closed) x.call

/-- An activity sends nothing but the requests that stand in it. -/
theorem within_holds (a : Activity ρ) : a.Within (.sending a.Holds) := by
  cases a with
  | settled x => trivial
  | exchange call read => exact ⟨.exchange, fun _ _ => trivial⟩
  | survey calls read => exact ⟨fun call hcall => .survey hcall, fun _ _ => trivial⟩
  | wait rule question read cancel =>
    exact ⟨fun call hcall => hcall ▸ .asks, fun _ _ => trivial, fun _ _ _ _ => trivial,
      fun _ _ _ _ => trivial, fun _ => trivial, fun call hcall => hcall ▸ .cancels⟩
  | collect mode reference read cancels cancel =>
    exact ⟨fun _ _ => trivial, fun _ => trivial, fun call hcall => hcall ▸ .collect⟩
  | orderStream client call read style head chunk =>
    exact ⟨.starts, ⟨fun _ _ hx => .streams hx, trivial, fun _ _ => trivial⟩,
      fun _ _ _ _ => trivial⟩
  | watch client orderRef read closed =>
    exact ⟨fun _ hx => .watches hx, fun _ _ => trivial, trivial⟩

/-- Another caller's activity holds the same requests. -/
theorem holds_map {a : Activity ρ} {f : ρ → σ} {call : Call} :
    (a.map f).Holds call ↔ a.Holds call := by
  constructor
  · intro h
    cases a with
    | settled x => cases h
    | exchange asked read =>
      cases h with
      | exchange => exact .exchange
    | survey calls read =>
      cases h with
      | survey hcall => exact .survey hcall
    | wait rule question read cancel =>
      cases question with
      | ok asked =>
        cases h with
        | asks => exact .asks
        | cancels => exact .cancels
      | error failure =>
        cases h with
        | cancels => exact .cancels
    | collect mode reference read cancels cancel =>
      cases h with
      | collect => exact .collect
    | orderStream client asked read style head chunk =>
      cases h with
      | starts => exact .starts
      | streams hx => exact .streams hx
    | watch client orderRef read closed =>
      cases h with
      | watches hx => exact .watches hx
  · intro h
    cases h with
    | exchange => exact .exchange
    | survey hcall => exact .survey hcall
    | asks => exact .asks
    | cancels => exact .cancels
    | collect => exact .collect
    | starts => exact .starts
    | streams hx => exact .streams hx
    | watches hx => exact .watches hx

/-! ## Callers who are given something else -/

/-- **A caller who is then given something else** stays within the same bounds. -/
theorem Within.map {b : Job.Bounds σ} {a : Activity ρ} {f : ρ → σ} (ha : a.Within (b.comap f)) :
    (a.map f).Within b := by
  have herror {α : Type} {value : Except ρ α} {x : σ} (h : mapFailure f value = .error x) :
      ∃ y, value = .error y ∧ x = f y := by
    cases value with
    | ok _ => cases h
    | error y => exact ⟨y, rfl, (Except.error.inj h).symm⟩
  cases a with
  | settled x => exact ha
  | exchange call read => exact ha
  | survey calls read => exact ha
  | wait rule question read cancel =>
    have hwaits : (b.comap f).Waits rule question read cancel := ha
    refine ⟨fun call hcall => hwaits.asks call ?_, fun x hx => ?_, fun answer x hears hx => ?_,
      fun answer s hears hs => ?_, hwaits.stops, hwaits.cancels⟩
    · cases question with
      | ok asked => exact congrArg Except.ok (Except.ok.inj hcall)
      | error _ => cases hcall
    · obtain ⟨y, hy, rfl⟩ := herror hx
      exact hwaits.unasked y hy
    · cases hread : read answer with
      | ok s => simp [hread, mapFailure, Except.map] at hx
      | error y =>
        obtain rfl : f y = x := by simpa [hread, mapFailure, Except.map] using hx
        exact hwaits.fails answer y hears hread
    · cases hread : read answer with
      | ok s' =>
        obtain rfl : mapSighting f s' = s := by simpa [hread, mapFailure, Except.map] using hs
        exact hwaits.shows answer s' hears hread
      | error y => simp [hread, mapFailure, Except.map] at hs
  | collect mode reference read cancels cancel =>
    have hcollects : (b.comap f).Collects read cancel := ha
    exact ⟨hcollects.reads, hcollects.stops, hcollects.cancels⟩
  | orderStream client call read style head chunk =>
    obtain ⟨hsends, hstreams, hfails⟩ := ha
    refine ⟨hsends, ⟨hstreams.asks, hstreams.head, hstreams.chunks⟩, fun answer x hears hx => ?_⟩
    obtain ⟨y, hy, rfl⟩ := herror hx
    exact hfails answer y hears hy
  | watch client orderRef read closed =>
    have hwatches : (b.comap f).Watches client orderRef read closed := ha
    exact ⟨hwatches.asks, hwatches.items, hwatches.closed⟩

end Activity

end OrderBroker
