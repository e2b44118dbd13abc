import OrderBroker.Proofs.Poller.Frame

/-!
# Those who wait at a poller

Whoever comes to wait at a poller for an order, and does not give up, is answered once, or still
stands in one place of the poller under that order. This holds of every run, whoever gives up and
whatever the vendor answers: no waiter is lost, and none is answered twice or for another order.

`Kept` is the invariant; it compares the poller with the history of the run. `waiter_served` is the
statement about all runs.
-/

namespace OrderBroker.Freja.Poller

/-! ## Histories -/

/-- What has happened to a poller. -/
abbrev History : Type := List (Transition Poller Event Effect)

/-- Somebody came to wait for an order. -/
def Registered (h : History) (w : Nat) (r : String) : Prop := ∃ tr ∈ h, tr.event = .register w r

/-- Somebody was told that the registration is in the queue. -/
def Accepted (h : History) (w : Nat) : Prop := ∃ tr ∈ h, .registered w ∈ tr.effects

/-- Somebody gave up waiting. -/
def GaveUp (h : History) (w : Nat) : Prop := ∃ tr ∈ h, tr.event = .giveUp w

/-- All answers that were given. -/
def answers (h : History) : List (Nat × Outcome) := h.flatMap (answersOf ·.effects)

/-- The answers that were given to somebody. -/
def answersTo (h : History) (w : Nat) : List Outcome := ((answers h).filter (·.1 = w)).map (·.2)

/-- Everybody comes to wait once: a waiter stands for one call. -/
def Fresh (h : History) (e : Event) : Prop := ∀ w r r', e = .register w r → ¬ Registered h w r'

/-- The runs of a poller from its start. -/
abbrev Runs (t₀ interval : Nat) : History → Nat → Poller → Prop :=
  Run machine Fresh t₀ (Poller.start t₀ interval)

/-- The orders that somebody's registrations in the queue are for. -/
def queuedFor (p : Poller) (w : Nat) : List String :=
  (p.queue.filter (·.waiter.id = w)).map (·.reference)

/-- The orders under which somebody stands in the table. -/
def heldFor (p : Poller) (w : Nat) : List String :=
  (p.held.filter (·.waiter.id = w)).map (·.reference)

section
variable {h : History} {tr : Transition Poller Event Effect} {w : Nat} {r : String}

/-- Who came to wait before, or comes now. -/
theorem registered_snoc :
    Registered (h ++ [tr]) w r ↔ Registered h w r ∨ tr.event = .register w r := by
  simp [Registered, or_and_right, exists_or]

/-- Who was admitted before, or is now. -/
theorem accepted_snoc :
    Accepted (h ++ [tr]) w ↔ Accepted h w ∨ .registered w ∈ tr.effects := by
  simp [Accepted, or_and_right, exists_or]

/-- Who gave up before, or gives up now. -/
theorem gaveUp_snoc : GaveUp (h ++ [tr]) w ↔ GaveUp h w ∨ tr.event = .giveUp w := by
  simp [GaveUp, or_and_right, exists_or]

/-- What was answered before, and what is answered now. -/
theorem answers_snoc : answers (h ++ [tr]) = answers h ++ answersOf tr.effects := by
  simp [answers]

end

/-- Where nobody comes, nobody comes twice. -/
theorem fresh_of_newcomers {h : History} {e : Event} (hnone : e.newcomers = []) : Fresh h e := by
  rintro w r r' rfl
  cases hnone

/-- Events that can happen to a poller make a run, if nobody comes twice. -/
theorem runs_of_play {t₀ interval : Nat} {events : List (Nat × Event)} {p : Poller}
    (hplay : machine.play (Poller.start t₀ interval) events = some (h, p))
    (htimes : (t₀ :: events.map (·.1)).Pairwise (· ≤ ·))
    (honce : ((h.flatMap (·.event.newcomers)).map (·.waiter.id)).Nodup) :
    Runs t₀ interval h ((events.map (·.1)).getLastD t₀) p := by
  refine Run.of_play hplay htimes ?_
  rintro past tr later rfl w r r' hevent ⟨first, hfirst, hagain⟩
  rw [List.flatMap_append, List.map_append, List.flatMap_cons] at honce
  have hpast : w ∈ (past.flatMap (·.event.newcomers)).map (·.waiter.id) :=
    List.mem_map.2 ⟨⟨{ id := w }, r'⟩,
      List.mem_flatMap.2 ⟨first, hfirst, by simp [hagain, Event.newcomers]⟩, rfl⟩
  exact (List.nodup_append.1 honce).2.2 w hpast w (by simp [hevent, Event.newcomers]) rfl

/-! ## The invariant -/

/-- The invariant of those who wait: `Kept h p` compares a poller with its history. Nobody stands in
two places, counting an answer as one; everybody stands under the order for which he came; and
whoever came and did not give up is still there, or was answered. -/
structure Kept (h : History) (p : Poller) : Prop where
  sound : Sound p
  nodup : (p.pending.map (·.waiter.id) ++ (answers h).map (·.1)).Nodup
  known : ∀ g ∈ p.pending, Registered h g.waiter.id g.reference
  marked : ∀ g ∈ p.pending, g.waiter.live = false → GaveUp h g.waiter.id
  answered : ∀ a ∈ answers h, ∃ r, Registered h a.1 r
  complete : ∀ w r, Registered h w r → ¬ GaveUp h w →
    (∃ g ∈ p.pending, g.waiter.id = w ∧ g.reference = r) ∨ ∃ o, (w, o) ∈ answers h
  accepted : ∀ w, Accepted h w → ∃ r, Registered h w r
  outside : ∀ g ∈ p.blocked, ¬ Accepted h g.waiter.id

namespace Kept

section
variable {h : History} {p p' : Poller} {t₀ interval t now : Nat} {e : Event} {effects : List Effect}

/-- At the start nobody waits. -/
theorem start : Kept [] (Poller.start t₀ interval) where
  sound := sound_start t₀ interval
  nodup := by simp [Poller.start, pending, held, heldIn, answers]
  known := by simp [Poller.start, pending, held, heldIn]
  marked := by simp [Poller.start, pending, held, heldIn]
  answered := by simp [answers]
  complete w r hw := by
    obtain ⟨tr, htr, -⟩ := hw
    cases htr
  accepted w hw := by
    obtain ⟨tr, htr, -⟩ := hw
    cases htr
  outside := by simp [Poller.start]

/-- Nobody who is known comes to wait again. -/
theorem fresh_newcomers (hk : Kept h p) (hfresh : Fresh h e) :
    ((p.pending ++ e.newcomers).map (·.waiter.id) ++ (answers h).map (·.1)).Nodup := by
  cases e with
  | register w r =>
    have hnew : w ∉ p.pending.map (·.waiter.id) ++ (answers h).map (·.1) := by
      intro hmem
      rcases List.mem_append.1 hmem with hmem | hmem
      · obtain ⟨g, hg, rfl⟩ := List.mem_map.1 hmem
        exact hfresh _ _ _ rfl (hk.known g hg)
      · obtain ⟨a, ha, rfl⟩ := List.mem_map.1 hmem
        obtain ⟨r', hr'⟩ := hk.answered a ha
        exact hfresh _ _ _ rfl hr'
    have hmiddle : (p.pending.map (·.waiter.id) ++ w :: (answers h).map (·.1)).Perm
        (w :: (p.pending.map (·.waiter.id) ++ (answers h).map (·.1))) := List.perm_middle
    simpa [Event.newcomers] using hmiddle.nodup_iff.2 (List.nodup_cons.2 ⟨hnew, hk.nodup⟩)
  | _ => simpa [Event.newcomers] using hk.nodup

/-- A waiter's giving up loses nobody else. -/
theorem giveUp (hk : Kept h p) (w : Nat) :
    Kept (h ++ [⟨now, p, .giveUp w, p.giveUp w, []⟩]) (p.giveUp w) := by
  have hids : ((p.giveUp w).pending.map (·.waiter.id)).Sublist (p.pending.map (·.waiter.id)) := by
    have hsame : ((p.queue ++ p.held).map (quit w)).map (·.waiter.id) =
        (p.queue ++ p.held).map (·.waiter.id) := by
      rw [List.map_map]
      exact List.map_congr_left fun g _ => id_quit w g
    rw [pending_giveUp, pending, List.append_assoc, List.map_append, hsame, ← List.map_append]
    exact (List.filter_sublist.append (List.Sublist.refl _)).map _
  have hregistered (w' : Nat) (r : String) :
      Registered (h ++ [⟨now, p, .giveUp w, p.giveUp w, []⟩]) w' r ↔ Registered h w' r := by
    simp [registered_snoc]
  have hanswers : answers (h ++ [⟨now, p, .giveUp w, p.giveUp w, []⟩]) = answers h := by
    simp [answers_snoc]
  have haccepted (w' : Nat) :
      Accepted (h ++ [⟨now, p, .giveUp w, p.giveUp w, []⟩]) w' ↔ Accepted h w' := by
    simp [accepted_snoc]
  refine ⟨sound_giveUp hk.sound w, ?_, fun g hg => ?_, fun g hg hdead => ?_, ?_, ?_, ?_, ?_⟩
  · rw [hanswers]
    exact (hids.append (List.Sublist.refl _)).nodup hk.nodup
  · obtain ⟨g₀, hg₀, hid, href, -⟩ := mem_pending_giveUp hg
    rw [hregistered, hid, href]
    exact hk.known g₀ hg₀
  · obtain ⟨g₀, hg₀, hid, -, hlive⟩ := mem_pending_giveUp hg
    rw [gaveUp_snoc, hid]
    rcases hlive hdead with hdead | rfl
    · exact .inl (hk.marked g₀ hg₀ hdead)
    · exact .inr rfl
  · simpa only [hanswers, hregistered] using hk.answered
  · intro w' r hw' hstays
    rw [gaveUp_snoc, not_or] at hstays
    have hne : w' ≠ w := fun heq => hstays.2 (heq ▸ rfl)
    rw [hanswers]
    refine (hk.complete w' r ((hregistered w' r).1 hw') hstays.1).imp_left ?_
    rintro ⟨g, hg, rfl, rfl⟩
    have hquit : quit w g = g := if_neg hne
    refine ⟨g, ?_, rfl, rfl⟩
    rw [pending_giveUp]
    rw [pending, List.append_assoc] at hg
    rcases List.mem_append.1 hg with hg | hg
    · exact List.mem_append_left _ (List.mem_filter.2 ⟨hg, by simpa using hne⟩)
    · exact List.mem_append_right _ (List.mem_map.2 ⟨g, hg, hquit⟩)
  · simpa only [haccepted, hregistered] using hk.accepted
  · intro g hg
    rw [haccepted]
    exact hk.outside g (List.mem_filter.1 hg).1

/-- Whoever is answered in a step stood in one place before, and stands in none afterwards. -/
theorem nodup_step (hk : Kept h p) (hfresh : Fresh h e)
    (hsettles : Settles (Told p e) (p.pending ++ e.newcomers) p'.pending (answersOf effects)) :
    (p'.pending.map (·.waiter.id) ++
      ((answers h).map (·.1) ++ (answersOf effects).map (·.1))).Nodup := by
  obtain ⟨rest, hids⟩ := hsettles.ids_subperm
  have hbefore := (hids.append_right _).nodup_iff.1 (hk.fresh_newcomers hfresh)
  have hperm : (p'.pending.map (·.waiter.id) ++ (answersOf effects).map (·.1) ++ rest ++
      (answers h).map (·.1)).Perm (p'.pending.map (·.waiter.id) ++
        ((answers h).map (·.1) ++ (answersOf effects).map (·.1)) ++ rest) := by
    simp only [List.append_assoc]
    refine List.Perm.append_left _ ?_
    rw [← List.append_assoc, ← List.append_assoc]
    exact List.perm_append_comm.trans (by rw [List.append_assoc])
  exact (List.sublist_append_left _ _).nodup (hperm.nodup_iff.1 hbefore)

/-- No other step loses anybody. -/
theorem step (hk : Kept h p) (hfresh : Fresh h e)
    (hstep : machine now p e = some (p', effects)) (hstays : ∀ w, e ≠ .giveUp w) :
    Kept (h ++ [⟨now, p, e, p', effects⟩]) p' := by
  obtain ⟨hsound, hsettles⟩ := moves_of_step hk.sound hstep hstays
  obtain ⟨hqueue, hblocked, -⟩ := leaves_of_step hstep
  have hregistered (w : Nat) (r : String) :
      Registered (h ++ [⟨now, p, e, p', effects⟩]) w r ↔ Registered h w r ∨ e = .register w r :=
    registered_snoc
  have hgaveUp (w : Nat) : GaveUp (h ++ [⟨now, p, e, p', effects⟩]) w ↔ GaveUp h w := by
    simp [gaveUp_snoc, hstays w]
  have haccepted (w : Nat) :
      Accepted (h ++ [⟨now, p, e, p', effects⟩]) w ↔ Accepted h w ∨ .registered w ∈ effects :=
    accepted_snoc
  have hanswers : answers (h ++ [⟨now, p, e, p', effects⟩]) = answers h ++ answersOf effects :=
    answers_snoc
  have hnewcomer : ∀ g ∈ e.newcomers, e = .register g.waiter.id g.reference ∧
      g.waiter.live = true := by
    cases e <;> simp [Event.newcomers]
  have hcame : ∀ g ∈ p.pending ++ e.newcomers,
      Registered (h ++ [⟨now, p, e, p', effects⟩]) g.waiter.id g.reference := by
    intro g hg
    rw [hregistered]
    exact (List.mem_append.1 hg).imp (hk.known g) fun hg => (hnewcomer g hg).1
  have hmarked : ∀ g ∈ p.pending ++ e.newcomers, g.waiter.live = false →
      GaveUp h g.waiter.id := by
    intro g hg hdead
    rcases List.mem_append.1 hg with hg | hg
    · exact hk.marked g hg hdead
    · rw [(hnewcomer g hg).2] at hdead
      cases hdead
  have hnodup : (p'.pending.map (·.waiter.id) ++
      (answers (h ++ [⟨now, p, e, p', effects⟩])).map (·.1)).Nodup := by
    rw [hanswers, List.map_append]
    exact hk.nodup_step hfresh hsettles
  refine ⟨hsound, hnodup, fun g hg => hcame g (hsettles.mem_before hg), ?_, ?_, ?_, ?_, ?_⟩
  · intro g hg hdead
    rw [hgaveUp]
    exact hmarked g (hsettles.mem_before hg) hdead
  · intro a ha
    rw [hanswers] at ha
    rcases List.mem_append.1 ha with ha | ha
    · obtain ⟨r, hr⟩ := hk.answered a ha
      exact ⟨r, (hregistered _ _).2 (.inl hr)⟩
    · obtain ⟨g, hg, -, hid, -⟩ := hsettles.answered ha
      exact ⟨g.reference, hid ▸ hcame g hg⟩
  · intro w r hw hnot
    rw [hgaveUp] at hnot
    rw [hanswers]
    have hpending : (∃ g ∈ p.pending ++ e.newcomers, g.waiter.id = w ∧ g.reference = r) ∨
        ∃ o, (w, o) ∈ answers h := by
      rcases (hregistered w r).1 hw with hold | rfl
      · refine (hk.complete w r hold hnot).imp_left ?_
        rintro ⟨g, hg, heq⟩
        exact ⟨g, List.mem_append_left _ hg, heq⟩
      · exact .inl ⟨⟨{ id := w }, r⟩, by simp [Event.newcomers], rfl, rfl⟩
    rcases hpending with ⟨g, hg, rfl, rfl⟩ | ⟨o, ho⟩
    · have hlive : g.waiter.live = true :=
        Bool.of_not_eq_false fun hdead => hnot (hmarked g hg hdead)
      rcases hsettles.left_or_answered hg hlive with hleft | ⟨o, -, ho⟩
      · exact .inl ⟨g, hleft, rfl, rfl⟩
      · exact .inr ⟨o, List.mem_append_right _ ho⟩
    · exact .inr ⟨o, List.mem_append_left _ ho⟩
  · intro w hw
    rcases (haccepted w).1 hw with hold | hnow
    · obtain ⟨r, hr⟩ := hk.accepted w hold
      exact ⟨r, (hregistered _ _).2 (.inl hr)⟩
    · obtain ⟨g, hg, rfl⟩ := hqueue w hnow
      exact ⟨g.reference, hcame g (hsettles.mem_before (by simp [pending, hg]))⟩
  · intro g hg hacc
    rcases (haccepted _).1 hacc with hold | hnow
    · rcases List.mem_append.1 (hblocked g hg) with hg | hg
      · exact hk.outside g hg hold
      · obtain ⟨r, hr⟩ := hk.accepted _ hold
        exact hfresh _ _ _ (hnewcomer g hg).1 hr
    · -- Whoever is let in would stand in the queue and wait for room in it at once.
      obtain ⟨g', hg', hid⟩ := hqueue _ hnow
      have hplaces := (List.nodup_append.1 hnodup).1
      simp only [pending, List.map_append] at hplaces
      have hapart := (List.nodup_append.1 (List.nodup_append.1 hplaces).1).2.2
      exact hapart _ (List.mem_map_of_mem hg) _ (List.mem_map_of_mem hg') hid.symm

end

/-- The invariant holds after every run. -/
theorem of_runs {t₀ interval now : Nat} {h : History} {p : Poller}
    (run : Runs t₀ interval h now p) : Kept h p := by
  induction run with
  | start => exact .start
  | @next h t now p p' e effects _ _ hfresh hstep ih =>
    by_cases hgive : ∃ w, e = .giveUp w
    · obtain ⟨w, rfl⟩ := hgive
      cases does_of_step hstep
      exact ih.giveUp w
    · exact ih.step hfresh hstep fun w heq => hgive ⟨w, heq⟩

end Kept

/-! ## Every run -/

section
variable {h past later : History} {p : Poller} {t₀ interval now : Nat} {w : Nat} {r r' : String}

/-- Where somebody stands who waits for the order `r`: in one of three places, and in no other. -/
inductive Stands (h : History) (p : Poller) (w : Nat) (r : String) : Prop
  /-- In the queue. -/
  | queued : p.queuedFor w = [r] → p.heldFor w = [] → answersTo h w = [] → Stands h p w r
  /-- In the table, under the order. -/
  | held : p.queuedFor w = [] → p.heldFor w = [r] → answersTo h w = [] → Stands h p w r
  /-- Nowhere, having been answered once. -/
  | answered {o : Outcome} : p.queuedFor w = [] → p.heldFor w = [] → answersTo h w = [o] →
      Stands h p w r

/-- What somebody may be told who waits for the order `r`. -/
inductive Rightly (tr : Transition Poller Event Effect) (r : String) : Outcome → Prop
  /-- A final result of the order. -/
  | result {x : Result} : x.reference = r → x.status.isFinal = true → Rightly tr r (.ok x)
  /-- Freja's refusal of the question about this order: it does not know the order. -/
  | unknown {vendor : Vendor} {status : Nat} {detail : String} :
      tr.event = .toldOne r (.error (.at vendor (.rejected status "1100" detail))) →
      Rightly tr r (.error (.at vendor (.rejected status "1100" detail)))
  /-- That the poller stops, or has stopped. -/
  | stopped : tr.event = .move .stop ∨ tr.before.phase = .stopped →
      Rightly tr r (.error (.at .freja .pollerStopped))

/-- Nobody comes to wait for two orders. -/
theorem registered_unique (run : Runs t₀ interval h now p) (hr : Registered h w r)
    (hr' : Registered h w r') : r = r' := by
  induction run with
  | start =>
    obtain ⟨tr, htr, -⟩ := hr
    cases htr
  | next _ _ hfresh _ ih =>
    rcases registered_snoc.1 hr with hr | hr <;> rcases registered_snoc.1 hr' with hr' | hr'
    · exact ih hr hr'
    · exact absurd hr (hfresh _ _ _ hr')
    · exact absurd hr' (hfresh _ _ _ hr)
    · injection hr.symm.trans hr'

/-- What has happened is part of what happens in the end. -/
theorem registered_mono (hsub : ∀ tr ∈ past, tr ∈ h) (hr : Registered past w r) :
    Registered h w r := by
  obtain ⟨tr, htr, heq⟩ := hr
  exact ⟨tr, hsub tr htr, heq⟩

/-- Only an answer that says so counts as a refusal for an unknown order. -/
theorem saysUnknown_iff {failure : Failure} : saysUnknown failure = true ↔
    ∃ vendor status detail, failure = .at vendor (.rejected status unknownReference detail) := by
  rcases failure with name | reason | ⟨vendor, cause⟩
  · simp [saysUnknown]
  · simp [saysUnknown]
  · cases cause with
    | rejected status code detail =>
      refine ⟨fun h => ?_, ?_⟩
      · have hcode : code ≠ "" ∧ code = unknownReference := by
          simpa [saysUnknown, Cause.code?] using h
        exact ⟨vendor, status, detail, by rw [hcode.2]⟩
      · rintro ⟨vendor', status', detail', heq⟩
        injection heq with _ hcause
        injection hcause with _ hcode _
        simp [saysUnknown, Cause.code?, hcode, unknownReference]
    | _ => simp [saysUnknown, Cause.code?]

/-- Nobody is answered without a reason. -/
theorem told_of_answer {tr : Transition Poller Event Effect} {o : Outcome}
    (run : Runs t₀ interval h now p) (htr : tr ∈ h) (ho : (w, o) ∈ answersOf tr.effects) :
    ∃ g, (∀ r, Registered h w r ↔ r = g.reference) ∧ Sound tr.before ∧
      Told tr.before tr.event g o := by
  obtain ⟨past, later, t, rfl, hpast, -, hfresh, hstep⟩ := run.of_mem htr
  have hbefore := Kept.of_runs hpast
  have hstays : ∀ w, tr.event ≠ .giveUp w := by
    intro w' heq
    rw [heq] at hstep
    rw [show tr.effects = [] from congrArg Prod.snd (Option.some.inj hstep).symm] at ho
    cases ho
  have hsettles := (moves_of_step hbefore.sound hstep hstays).settles
  obtain ⟨g, hg, -, rfl, htold⟩ := hsettles.answered ho
  have hcame : Registered (past ++ tr :: later) g.waiter.id g.reference := by
    rcases List.mem_append.1 hg with hg | hg
    · exact registered_mono (fun _ => List.mem_append_left _) (hbefore.known g hg)
    · refine ⟨tr, htr, ?_⟩
      cases hevent : tr.event <;> simp_all [Event.newcomers]
  refine ⟨g, fun r => ⟨fun hr => registered_unique run hr hcame, ?_⟩, hbefore.sound, htold⟩
  rintro rfl
  exact hcame

/-- Whatever somebody is told, he is told rightly. -/
theorem Told.rightly {tr : Transition Poller Event Effect} {g : Registration} {o : Outcome}
    (h : Told tr.before tr.event g o) (hp : Sound tr.before) : Rightly tr g.reference o := by
  cases h with
  | result _ hx =>
    obtain ⟨-, href, hfinal⟩ := firstFinal_spec hx
    exact .result href hfinal
  | unknown _ hevent hunknown =>
    obtain ⟨vendor, status, detail, rfl⟩ := saysUnknown_iff.1 hunknown
    exact .unknown hevent
  | remembered _ _ hseen =>
    obtain ⟨t, ht⟩ := mem_seen_of_seen? hseen
    exact .result (reference_of_seen? hseen) (hp.final _ ht)
  | stop hevent => exact .stopped (.inl hevent)
  | late hphase _ => exact .stopped (.inr hphase)

/-- Where nobody stands in two places, somebody who stands in a place stands there alone. -/
theorem filter_eq_singleton {α : Type} {id : α → Nat} {l : List α} {x : α}
    (hnodup : (l.map id).Nodup) (hx : x ∈ l) : l.filter (id · = id x) = [x] := by
  induction l with
  | nil => cases hx
  | cons y rest ih =>
    obtain ⟨hy, hrest⟩ := List.nodup_cons.1 hnodup
    rcases List.mem_cons.1 hx with rfl | hx
    · rw [List.filter_cons_of_pos (by simp), List.filter_eq_nil_iff.2]
      intro z hz heq
      exact hy (of_decide_eq_true heq ▸ List.mem_map_of_mem hz)
    · have hne : id y ≠ id x := fun heq => hy (heq ▸ List.mem_map_of_mem hx)
      rw [List.filter_cons_of_neg (by simpa using hne)]
      exact ih hrest hx

/-- Whoever was admitted and did not give up stands in one place. -/
theorem Kept.stands (hk : Kept h p) (hr : Registered h w r) (hacc : Accepted h w)
    (hstays : ¬ GaveUp h w) : Stands h p w r := by
  obtain ⟨hids, hanswers, hapart⟩ := List.nodup_append.1 hk.nodup
  simp only [pending, List.map_append, List.append_assoc] at hids
  obtain ⟨-, hids, -⟩ := List.nodup_append.1 hids
  obtain ⟨hqueue, hheld, hqueueHeld⟩ := List.nodup_append.1 hids
  -- Where nobody has the name, the place is empty for him.
  have hnone {α : Type} {id : α → Nat} (l : List α) (hl : ∀ x ∈ l, id x ≠ w) :
      l.filter (id · = w) = [] := List.filter_eq_nil_iff.2 fun x hx => by simpa using hl x hx
  have hanswered (g : Registration) (hg : g ∈ p.pending) : answersTo h g.waiter.id = [] := by
    rw [answersTo, List.map_eq_nil_iff, List.filter_eq_nil_iff]
    intro a ha heq
    exact hapart _ (List.mem_map_of_mem hg) _ (List.mem_map_of_mem ha)
      (of_decide_eq_true heq).symm
  rcases hk.complete w r hr hstays with ⟨g, hg, rfl, rfl⟩ | ⟨o, ho⟩
  · have hplace := hg
    rw [pending, List.append_assoc] at hplace
    rcases List.mem_append.1 hplace with hplace | hplace
    · exact absurd hacc (hk.outside g hplace)
    · rcases List.mem_append.1 hplace with hplace | hplace
      · refine .queued ?_ ?_ (hanswered g hg)
        · rw [queuedFor, filter_eq_singleton hqueue hplace, List.map_singleton]
        · rw [heldFor, hnone, List.map_nil]
          intro g' hg' heq
          exact hqueueHeld _ (List.mem_map_of_mem hplace) _ (List.mem_map_of_mem hg') heq.symm
      · refine .held ?_ ?_ (hanswered g hg)
        · rw [queuedFor, hnone, List.map_nil]
          intro g' hg' heq
          exact hqueueHeld _ (List.mem_map_of_mem hg') _ (List.mem_map_of_mem hplace) heq
        · rw [heldFor, filter_eq_singleton hheld hplace, List.map_singleton]
  · have hgone (g : Registration) (hg : g ∈ p.pending) : g.waiter.id ≠ w := fun heq =>
      hapart _ (List.mem_map_of_mem hg) _ (List.mem_map_of_mem ho) heq
    refine .answered (o := o) ?_ ?_ ?_
    · rw [queuedFor, hnone _ fun g hg => hgone g (by simp [pending, hg]), List.map_nil]
    · rw [heldFor, hnone _ fun g hg => hgone g (by simp [pending, hg]), List.map_nil]
    · rw [answersTo, filter_eq_singleton hanswers ho, List.map_singleton]

/-- Nobody is answered twice. -/
theorem Kept.length_answersTo_le (hk : Kept h p) (w : Nat) : (answersTo h w).length ≤ 1 := by
  obtain ⟨-, hanswers, -⟩ := List.nodup_append.1 hk.nodup
  by_cases hw : ∃ a ∈ answers h, a.1 = w
  · obtain ⟨a, ha, rfl⟩ := hw
    simp [answersTo, filter_eq_singleton hanswers ha]
  · have hnone : (answers h).filter (·.1 = w) = [] :=
      List.filter_eq_nil_iff.2 fun a ha heq => hw ⟨a, ha, of_decide_eq_true heq⟩
    simp [answersTo, hnone]

/-- A poller that has stopped answers whoever comes, and does not start again. -/
theorem stopped_of_step {p p' : Poller} {e : Event} {effects : List Effect}
    (hstop : p.phase = .stopped) (hstep : machine now p e = some (p', effects)) :
    p'.phase = .stopped ∧ ∀ w r, e = .register w r → effects = [.answer w stoppedOutcome] := by
  cases does_of_step hstep with
  | register w r =>
    simp only [register, hstop, if_true]
    refine ⟨trivial, fun w' r' heq => ?_⟩
    injection heq with hw
    rw [hw]
  | giveUp w => exact ⟨hstop, by simp⟩
  | shutdown => exact ⟨hstop, by simp⟩
  | move hm =>
    have hnone : p.moves now = [] := by
      unfold moves
      rw [hstop]
    rw [hnone] at hm
    cases hm
  | toldOne answer hphase =>
    rw [hstop] at hphase
    cases hphase
  | toldAll answer hphase =>
    rw [hstop] at hphase
    cases hphase
  | relist _ => exact ⟨hstop, by simp⟩

/-- What a poller is that has made its last move. -/
theorem eq_stop_of_step {p p' : Poller} {effects : List Effect}
    (hstep : machine now p (.move .stop) = some (p', effects)) : p' = p.stop.1 := by
  cases does_of_step hstep
  rfl

/-- Whoever came before the poller stops, did not give up and was not answered, is told so. -/
theorem answered_at_stop {tr : Transition Poller Event Effect}
    (run : Runs t₀ interval (past ++ tr :: later) now p) (hevent : tr.event = .move .stop)
    (hr : Registered past w r) (hstays : ¬ GaveUp past w) (hnone : answersTo past w = []) :
    (w, stoppedOutcome) ∈ answersOf tr.effects := by
  obtain ⟨t, hpast, -, -, hstep⟩ := run.split
  have hk := Kept.of_runs hpast
  have hsettles := (moves_of_step hk.sound hstep (by simp [hevent])).settles
  rw [hevent] at hstep
  have hleft : tr.after.pending = [] := by
    rw [eq_stop_of_step hstep]
    rfl
  rcases hk.complete w r hr hstays with ⟨g, hg, rfl, rfl⟩ | ⟨o, ho⟩
  · have hlive : g.waiter.live = true :=
      Bool.of_not_eq_false fun hdead => hstays (hk.marked g hg hdead)
    rcases hsettles.left_or_answered (List.mem_append_left _ hg) hlive with hg | ⟨o, htold, ho⟩
    · rw [hleft] at hg
      cases hg
    · rw [hevent] at htold
      cases htold with
      | result _ hx => cases hx
      | unknown _ heq _ => cases heq
      | remembered heq _ _ => cases heq
      | stop _ => exact ho
      | late _ heq => cases heq
  · have hmem : o ∈ answersTo past w :=
      List.mem_map.2 ⟨(w, o), List.mem_filter.2 ⟨ho, by simp⟩, rfl⟩
    rw [hnone] at hmem
    cases hmem

/-- Whoever comes after the poller has stopped is told so at once. -/
theorem answered_after_stop {tr : Transition Poller Event Effect}
    (run : Runs t₀ interval (past ++ tr :: later) now p) (hevent : tr.event = .move .stop) :
    ∀ tr' ∈ later, ∀ w r, tr'.event = .register w r →
      tr'.effects = [.answer w stoppedOutcome] := by
  have hstop : tr.after.phase = .stopped := by
    obtain ⟨t, -, -, -, hstep⟩ := run.split
    rw [hevent] at hstep
    rw [eq_stop_of_step hstep]
    rfl
  intro tr' htr' w r heq
  have hbefore := run.throughout (fun p => p.phase = .stopped) (tr'.time + 1) hstop
    (fun _ _ _ _ _ _ _ _ _ hphase hstep => (stopped_of_step hphase hstep).1) tr' htr'
    (Nat.lt_succ_self _)
  obtain ⟨-, -, -, -, -, -, -, hstep⟩ := run.of_mem (List.mem_append_right _ (.tail _ htr'))
  exact (stopped_of_step hbefore.1 hstep).2 w r heq

/-- **Every waiter is served.** At every point of every run, whoever was admitted and did not give
up stands in exactly one place; nobody is answered twice; whoever is answered is told rightly, for
the order for which he came; and where the poller stops, all who are left are told so, and all who
come later. -/
theorem waiter_served (run : Runs t₀ interval h now p) :
    (∀ w r, Registered h w r → Accepted h w → ¬ GaveUp h w → Stands h p w r) ∧
      (∀ w, (answersTo h w).length ≤ 1) ∧
      (∀ tr ∈ h, ∀ w o, (w, o) ∈ answersOf tr.effects →
        ∃ r, (∀ r', Registered h w r' ↔ r' = r) ∧ Rightly tr r o) ∧
      ∀ past tr later, h = past ++ tr :: later → tr.event = .move .stop →
        (∀ w r, Registered past w r → ¬ GaveUp past w → answersTo past w = [] →
          (w, .error (.at .freja .pollerStopped)) ∈ answersOf tr.effects) ∧
        ∀ tr' ∈ later, ∀ w r, tr'.event = .register w r →
          tr'.effects = [.answer w (.error (.at .freja .pollerStopped))] := by
  have hk := Kept.of_runs run
  refine ⟨fun w r => hk.stands, hk.length_answersTo_le, fun tr htr w o ho => ?_,
    fun past tr later heq hevent => ?_⟩
  · obtain ⟨g, hg, hsound, htold⟩ := told_of_answer run htr ho
    exact ⟨g.reference, hg, htold.rightly hsound⟩
  · subst heq
    exact ⟨fun w r hr hstays hnone => answered_at_stop run hevent hr hstays hnone,
      answered_after_stop run hevent⟩

end

/-- A run with three waiters: the first is told a result, the second still waits in the queue when
the poller stops, and the third comes after that. -/
theorem three_waiters_served :
    ∃ h p past tr later, Runs 0 1000 h 9 p ∧ h = past ++ tr :: later ∧ tr.event = .move .stop ∧
      (∃ o, Stands past tr.before 1 "A" ∧ answersTo past 1 = [o]) ∧
      Stands past tr.before 2 "B" ∧ (2, stoppedOutcome) ∈ answersOf tr.effects ∧
      later.map (·.effects) = [[.answer 3 stoppedOutcome]] := by
  have quiet {h : History} {e : Event} (he : e.newcomers = []) : Fresh h e := by
    rintro w r r' rfl
    cases he
  have h₁ : Runs 0 1000 _ 0 _ := Run.next (e := .register 1 "A") .start (Nat.le_refl 0)
    (fun _ _ _ _ h => by simp [Registered] at h) rfl
  have h₂ := h₁.next (Nat.le_refl 0) (quiet (e := .move .accept) rfl) rfl
  have h₃ := h₂.next (Nat.le_add_right 0 7)
    (quiet (e := .toldOne "A" (.ok { reference := "A", status := .approved })) rfl) rfl
  have h₄ := h₃.next (e := .register 2 "B") (Nat.le_refl 7)
    (fun _ _ _ heq h => by injection heq with hw; subst hw; simp [Registered] at h) rfl
  have h₅ := h₄.next (Nat.le_refl 7) (quiet (e := .shutdown) rfl) rfl
  have h₆ := h₅.next (Nat.le_refl 7) (quiet (e := .move .stop) rfl) rfl
  have h₇ := h₆.next (e := .register 3 "C") (Nat.le_add_right 7 2)
    (fun _ _ _ heq h => by injection heq with hw; subst hw; simp [Registered] at h) rfl
  have hstop := (waiter_served h₇).2.2.2 _ _ [_] (List.append_assoc _ _ _) rfl
  refine ⟨_, _, _, _, [_], h₇, List.append_assoc _ _ _, rfl,
    ⟨_, (waiter_served h₅).1 1 "A" ?_ ?_ ?_, rfl⟩, (waiter_served h₅).1 2 "B" ?_ ?_ ?_,
    hstop.1 2 "B" ?_ ?_ rfl, rfl⟩
  all_goals simp [Registered, Accepted, GaveUp]

end OrderBroker.Freja.Poller
