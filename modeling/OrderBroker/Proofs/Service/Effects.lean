import OrderBroker.Proofs.Service.Steps

/-!
# What the service does for a job or a poller

Whatever a job does changes its own visit, the mail and the outbox, and nothing else (`Carries`);
what a poller does changes neither visits nor the other poller (`PollerCarries`). Requests go out
under the number of the job, or for the poller, that sends them.
-/

namespace OrderBroker

variable {ρ : Type}

/-! ## Effects as requests and messages -/

/-- The request that an effect sends. -/
def Job.Effect.request? (id : Nat) : Job.Effect ρ → Option Outgoing
  | .send slot call => some ⟨some (.job id slot), call⟩
  | .sendAway call => some ⟨none, call⟩
  | _ => none

/-- The message that an effect posts. -/
def Job.Effect.mail? (id : Nat) : Job.Effect ρ → Option Mail
  | .register mode reference => some (.register id mode reference)
  | .leave mode => some (.giveUp id mode)
  | _ => none

/-- The message that an effect of a poller posts. -/
def Freja.Poller.Effect.mail? : Freja.Poller.Effect → Option Mail
  | .registered id => some (.registered id)
  | .answer id outcome => some (.polled id outcome)
  | _ => none

namespace Visit

/-- What an effect makes of the visit. -/
def perform (now : Nat) (v : Visit ρ) : Job.Effect ρ → Visit ρ
  | .head result => { v with head := some result }
  | .finish result => v.finish now result
  | _ => v

section
variable {now : Nat} {v : Visit ρ} {effects : List (Job.Effect ρ)}

/-- The end of a visit leaves its job alone. -/
theorem job_finish (v : Visit ρ) (now : Nat) (result : ρ) : (v.finish now result).job = v.job := by
  unfold finish
  split <;> rfl

/-- Effects leave the job of a visit alone. -/
theorem job_performs : (effects.foldl (perform now) v).job = v.job := by
  induction effects generalizing v with
  | nil => rfl
  | cons effect rest ih =>
    rw [List.foldl_cons, ih]
    cases effect with
    | finish result => exact job_finish v now result
    | _ => rfl

/-- A visit ends once. -/
theorem ending_performs_of_ended (hended : v.ending ≠ none) :
    (effects.foldl (perform now) v).ending = v.ending := by
  induction effects generalizing v with
  | nil => rfl
  | cons effect rest ih =>
    have hsame : (v.perform now effect).ending = v.ending := by
      cases effect with
      | finish result =>
        rw [perform, finish]
        split
        · next hnone => exact absurd hnone hended
        · rfl
      | _ => rfl
    rw [List.foldl_cons, ih (by rwa [hsame]), hsame]

/-- A visit that has not ended ends with the first result. -/
theorem ending_performs (hopen : v.ending = none) :
    ((effects.foldl (perform now) v).ending = none ∧ ∀ x, .finish x ∉ effects) ∨
      ∃ x, .finish x ∈ effects ∧
        (effects.foldl (perform now) v).ending = some (.done now x) := by
  induction effects generalizing v with
  | nil => exact .inl ⟨hopen, by simp⟩
  | cons effect rest ih =>
    rw [List.foldl_cons]
    by_cases hfinishes : ∃ result, effect = .finish result
    · obtain ⟨result, rfl⟩ := hfinishes
      have hfinish : (v.perform now (.finish result)).ending = some (.done now result) := by
        rw [perform, finish, hopen]
      refine .inr ⟨result, .head _, ?_⟩
      rw [ending_performs_of_ended (by simp [hfinish]), hfinish]
    · have hstill : (v.perform now effect).ending = none := by
        cases effect with
        | finish result => exact absurd ⟨result, rfl⟩ hfinishes
        | _ => exact hopen
      rcases ih hstill with ⟨hnone, hno⟩ | ⟨x, hx, hend⟩
      · refine .inl ⟨hnone, fun x hx => ?_⟩
        rcases List.mem_cons.1 hx with heq | hx
        · exact hfinishes ⟨x, heq.symm⟩
        · exact hno x hx
      · exact .inr ⟨x, .tail _ hx, hend⟩

end

end Visit

namespace Service

/-! ## Lookups -/

section
variable {s : Service ρ} {id i : Nat} {v : Visit ρ} {mode : Order.Mode}

/-- Changing a visit changes no other. -/
theorem visit?_setVisit (s : Service ρ) (id i : Nat) (v : Visit ρ) :
    (s.setVisit id v).visit? i = if i = id then (s.visit? i).map fun _ => v else s.visit? i := by
  suffices H : ∀ visits : List (Nat × Visit ρ),
      (visits.map fun e => if e.1 = id then (e.1, v) else (e.1, e.2)).lookup i =
        if i = id then (visits.lookup i).map fun _ => v else visits.lookup i from H s.visits
  intro visits
  induction visits with
  | nil => simp
  | cons e rest ih =>
    obtain ⟨k, old⟩ := e
    by_cases hi : i = k
    · subst hi
      by_cases hid : i = id <;> simp [hid]
    · have hne : (i == k) = false := beq_eq_false_iff_ne.2 hi
      by_cases hk : k = id
      · rw [List.map_cons, if_pos hk, List.lookup_cons, List.lookup_cons, hne]
        exact ih
      · rw [List.map_cons, if_neg hk, List.lookup_cons, List.lookup_cons, hne]
        exact ih

/-- Changing the visit of a number changes no other. -/
theorem visit?_onVisit (s : Service ρ) (id i : Nat) (f : Visit ρ → Visit ρ) :
    (s.onVisit id f).visit? i = if i = id then (s.visit? i).map f else s.visit? i := by
  unfold onVisit
  split
  · next v hv =>
    rw [visit?_setVisit]
    by_cases hi : i = id
    · subst hi
      simp [hv]
    · simp [hi]
  · next hnone =>
    by_cases hi : i = id
    · subst hi
      simp [hnone]
    · simp [hi]

/-- Putting a poller into its place changes no other. -/
theorem poller?_setPoller (s : Service ρ) (mode m : Order.Mode) (p : Freja.Poller) :
    (s.setPoller mode p).poller? m = if m = mode then some p else s.poller? m := by
  cases mode <;> cases m <;> rfl

end

/-! ## Jobs -/

/-- `Carries now id s effects s'`: the service `s'` is `s` after it has done what a job does. -/
structure Carries (now id : Nat) (s : Service ρ) (effects : List (Job.Effect ρ)) (s' : Service ρ) :
    Prop where
  registry : s'.registry = s.registry
  poller : ∀ mode, s'.poller? mode = s.poller? mode
  mail : s'.mail = s.mail ++ effects.filterMap (·.mail? id)
  outbox : s'.outbox = s.outbox ++ effects.filterMap (·.request? id)
  others : ∀ i, i ≠ id → s'.visit? i = s.visit? i
  own : s'.visit? id = (s.visit? id).map fun v => effects.foldl (Visit.perform now) v

section
variable {now id : Nat} {s : Service ρ}

/-- One effect of a job. -/
theorem carries_perform (effect : Job.Effect ρ) :
    Carries now id s [effect] (s.perform now id effect) := by
  have hvisit (f : Visit ρ → Visit ρ) (hf : ∀ v, f v = v.perform now effect)
      (hmail : effect.mail? id = none) (hrequest : effect.request? id = none) :
      Carries now id s [effect] (s.onVisit id f) := by
    refine ⟨?_, fun mode => ?_, ?_, ?_, fun i hi => ?_, ?_⟩
    · unfold onVisit
      split <;> rfl
    · unfold onVisit
      split <;> cases mode <;> rfl
    · unfold onVisit
      split <;> simp [setVisit, hmail]
    · unfold onVisit
      split <;> simp [setVisit, hrequest]
    · rw [visit?_onVisit, if_neg hi]
    · rw [visit?_onVisit, if_pos rfl]
      exact congrArg (Option.map · _) (funext hf)
  cases effect with
  | head result => exact hvisit _ (fun _ => rfl) rfl rfl
  | finish result => exact hvisit _ (fun _ => rfl) rfl rfl
  | _ =>
    exact ⟨rfl, fun mode => by cases mode <;> rfl, by simp [perform, send, post, Job.Effect.mail?],
      by simp [perform, send, post, Job.Effect.request?], fun i hi => rfl, Option.map_id'.symm⟩

/-- All effects of a job. -/
theorem carries_performs (effects : List (Job.Effect ρ)) :
    Carries now id s effects (effects.foldl (Service.perform now id) s) := by
  induction effects generalizing s with
  | nil => exact ⟨rfl, fun _ => rfl, by simp, by simp, fun _ _ => rfl, by simp⟩
  | cons effect rest ih =>
    have hfirst : Carries now id s [effect] _ := carries_perform effect
    have hrest : Carries now id (s.perform now id effect) rest _ := ih
    refine ⟨hrest.registry.trans hfirst.registry,
      fun mode => (hrest.poller mode).trans (hfirst.poller mode), ?_, ?_,
      fun i hi => (hrest.others i hi).trans (hfirst.others i hi), ?_⟩
    · rw [List.foldl_cons, hrest.mail, hfirst.mail, List.append_assoc, ← List.filterMap_append]
      rfl
    · rw [List.foldl_cons, hrest.outbox, hfirst.outbox, List.append_assoc,
        ← List.filterMap_append]
      rfl
    · rw [List.foldl_cons, hrest.own, hfirst.own, Option.map_map]
      rfl

end

/-! ## Pollers -/

/-- `PollerCarries mode s effects s'`: the service `s'` is `s` after it has done what the poller of
the mode does. -/
structure PollerCarries (mode : Order.Mode) (s : Service ρ) (effects : List Freja.Poller.Effect)
    (s' : Service ρ) : Prop where
  registry : s'.registry = s.registry
  poller : ∀ m, s'.poller? m = s.poller? m
  visits : s'.visits = s.visits
  mail : s'.mail = s.mail ++ effects.filterMap (·.mail?)
  outbox : ∃ sent, s'.outbox = s.outbox ++ sent ∧
    ∀ o ∈ sent, o.addressee = some (.poller mode)

section
variable {mode : Order.Mode} {s : Service ρ}

/-- One effect of a poller. -/
theorem pollerCarries_performPoller (effect : Freja.Poller.Effect) :
    PollerCarries mode s [effect] (s.performPoller mode effect) := by
  have hsame (hmail : effect.mail? = none) : PollerCarries mode s [effect] s :=
    ⟨rfl, fun _ => rfl, rfl, by simp [hmail], [], by simp, by simp⟩
  have hsend (hmail : effect.mail? = none) (call : Call) :
      PollerCarries mode s [effect] (s.send (some (.poller mode)) call) :=
    ⟨rfl, fun m => by cases m <;> rfl, rfl, by simp [hmail, send],
      [⟨some (.poller mode), call⟩], rfl, by simp⟩
  have hpost (m : Mail) (hmail : effect.mail? = some m) :
      PollerCarries mode s [effect] (s.post m) :=
    ⟨rfl, fun m => by cases m <;> rfl, rfl, by simp [hmail, post], [],
      (List.append_nil _).symm, by simp⟩
  cases effect with
  | askOne reference =>
    simp only [performPoller]
    split
    · split
      · exact hsend rfl _
      · exact hsame rfl
    · exact hsame rfl
  | askAll =>
    simp only [performPoller]
    split
    · exact hsend rfl _
    · exact hsame rfl
  | registered id => exact hpost _ rfl
  | answer id outcome => exact hpost _ rfl

/-- All effects of a poller. -/
theorem pollerCarries_performs (effects : List Freja.Poller.Effect) :
    PollerCarries mode s effects (effects.foldl (Service.performPoller mode) s) := by
  induction effects generalizing s with
  | nil => exact ⟨rfl, fun _ => rfl, rfl, by simp, [], by simp, by simp⟩
  | cons effect rest ih =>
    have hfirst : PollerCarries mode s [effect] _ := pollerCarries_performPoller effect
    have hrest : PollerCarries mode (s.performPoller mode effect) rest _ := ih
    obtain ⟨sent, houtbox, hsent⟩ := hfirst.outbox
    obtain ⟨sent', houtbox', hsent'⟩ := hrest.outbox
    refine ⟨hrest.registry.trans hfirst.registry,
      fun m => (hrest.poller m).trans (hfirst.poller m), hrest.visits.trans hfirst.visits, ?_,
      sent ++ sent', ?_, fun o ho => (List.mem_append.1 ho).elim (hsent o) (hsent' o)⟩
    · rw [List.foldl_cons, hrest.mail, hfirst.mail, List.append_assoc, ← List.filterMap_append]
      rfl
    · rw [List.foldl_cons, houtbox', houtbox, List.append_assoc]

end

end Service

end OrderBroker
