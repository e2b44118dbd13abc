import OrderBroker.Proofs.Poller.Table

/-!
# Operations on the poller's table

What taking a result, failing an order and pruning do to table and memory. Each of them leaves the
queue alone, keeps the table sound and settles the registrations that it removes (`Works`). A result
is told to everybody who waits for its order, and to nobody else; of several results of one order
the first final one counts (`firstFinal`).
-/

namespace OrderBroker.Freja.Poller

/-! ## Removing an order -/

section
variable {r : String} {waiter : Waiter} {waiting : List (String × List Waiter)}

/-- The registrations of an order and those of all others are all there are. -/
theorem heldIn_perm_filter (r : String) {waiting : List (String × List Waiter)}
    (hnodup : (waiting.map (·.1)).Nodup) :
    (heldIn waiting).Perm (heldIn (waiting.filter (·.1 ≠ r)) ++
      ((waiting.lookup r).getD []).map (⟨·, r⟩)) := by
  induction waiting with
  | nil => simp [heldIn]
  | cons e rest ih =>
    obtain ⟨r', ws⟩ := e
    obtain ⟨hr', hrest⟩ := List.nodup_cons.1 hnodup
    have ih := ih hrest
    by_cases h : r' = r
    · subst h
      have hall : rest.filter (·.1 ≠ r') = rest := by
        refine List.filter_eq_self.2 fun e he => ?_
        have : e.1 ≠ r' := fun heq => hr' (List.mem_map.2 ⟨e, he, heq⟩)
        simpa using this
      rw [List.filter_cons_of_neg (by simp), hall, List.lookup_cons_self]
      exact List.perm_append_comm
    · have hlookup : ((r', ws) :: rest).lookup r = rest.lookup r := by
        rw [List.lookup_cons, beq_eq_false_iff_ne.2 (Ne.symm h)]
      rw [List.filter_cons_of_pos (by simpa using h), hlookup, heldIn, List.flatMap_cons, heldIn,
        List.flatMap_cons, List.append_assoc]
      exact ih.append_left _

/-- Adding a waiter adds a registration. -/
theorem heldIn_addWaiter (waiter : Waiter) (r : String) (waiting : List (String × List Waiter)) :
    (heldIn (addWaiter waiter r waiting)).Perm (heldIn waiting ++ [⟨waiter, r⟩]) := by
  induction waiting with
  | nil => simp [addWaiter, heldIn]
  | cons e rest ih =>
    obtain ⟨r', ws⟩ := e
    by_cases h : r' = r
    · subst h
      simp only [addWaiter, if_true, heldIn, List.flatMap_cons, List.map_append, List.map_cons,
        List.map_nil, List.append_assoc]
      exact (List.perm_append_comm).append_left _
    · simp only [addWaiter, h, if_false, heldIn, List.flatMap_cons, List.append_assoc]
      exact ih.append_left _

/-- Adding a waiter adds the order, unless it stands in the table. -/
theorem keys_addWaiter (waiter : Waiter) (r : String) (waiting : List (String × List Waiter)) :
    (addWaiter waiter r waiting).map (·.1) =
      if r ∈ waiting.map (·.1) then waiting.map (·.1) else waiting.map (·.1) ++ [r] := by
  induction waiting with
  | nil => simp [addWaiter]
  | cons e rest ih =>
    obtain ⟨r', ws⟩ := e
    by_cases h : r' = r
    · simp [addWaiter, h]
    · have hne : ¬ r = r' := Ne.symm h
      simp only [addWaiter, h, if_false, List.map_cons, ih, List.mem_cons, hne, false_or]
      split <;> rfl

/-- Nothing is held for an order that was removed. -/
theorem not_mem_orders_withoutReference (p : Poller) (r : String) :
    r ∉ (p.withoutReference r).orders := by
  simp [orders, withoutReference]

/-- The orders that are left are orders from before. -/
theorem orders_withoutReference_sublist (p : Poller) (r : String) :
    (p.withoutReference r).orders.Sublist p.orders :=
  List.filter_sublist.map _

end

/-! ## What an operation does -/

/-- `Works told p p' answers`: an operation on the table makes of `p` the poller `p'` and gives
`answers`. It keeps the rest of the poller and the invariant, and settles registrations of the
table as `told` allows. -/
structure Works (told : Registration → Outcome → Prop) (p p' : Poller)
    (answers : List (Nat × Outcome)) : Prop where
  queue : p'.queue = p.queue
  blocked : p'.blocked = p.blocked
  phase : p'.phase = p.phase
  sound : Sound p'
  settles : Settles told p.held p'.held answers

namespace Works

section
variable {told told' : Registration → Outcome → Prop} {p p' p'' : Poller}
  {answers answers' : List (Nat × Outcome)}

/-- An operation that changes nothing. -/
theorem refl (hp : Sound p) : Works told p p [] := ⟨rfl, rfl, rfl, hp, .refl⟩

/-- One operation after another. -/
theorem trans (h : Works told p p' answers) (h' : Works told p' p'' answers') :
    Works told p p'' (answers ++ answers') :=
  ⟨h'.queue.trans h.queue, h'.blocked.trans h.blocked, h'.phase.trans h.phase, h'.sound,
    h.settles.trans h'.settles⟩

/-- What may be told may be told where more may be told. -/
theorem mono (h : Works told p p' answers)
    (hmono : ∀ g o, g ∈ p.held → told g o → told' g o) : Works told' p p' answers :=
  { h with settles := h.settles.mono hmono }

/-- Of all registrations, an operation settles some in the table. -/
theorem settles_pending (h : Works told p p' answers) :
    Settles told p.pending p'.pending answers := by
  rw [pending, pending, h.queue, h.blocked]
  exact h.settles.append_left _

/-- The sum of an operation that keeps queue and phase and leaves some registrations of the table:
the invariant of a stopped poller is kept. -/
theorem of_settles (hp : Sound p) (hqueue : p'.queue = p.queue) (hblocked : p'.blocked = p.blocked)
    (hphase : p'.phase = p.phase) (hnodup : p'.orders.Nodup)
    (hseen : (p'.seen.map (·.result.reference)).Nodup)
    (hapart : ∀ s ∈ p'.seen, s.result.reference ∉ p'.orders)
    (hfinal : ∀ s ∈ p'.seen, s.result.status.isFinal = true)
    (hsettles : Settles told p.held p'.held answers) : Works told p p' answers := by
  refine ⟨hqueue, hblocked, hphase, ⟨hnodup, hseen, hapart, hfinal, fun hstop => ?_⟩, hsettles⟩
  have hnone := hp.stopped (hphase ▸ hstop)
  refine List.eq_nil_iff_forall_not_mem.2 fun g hg => ?_
  have hsub : g ∈ p.pending := by
    rw [pending, hqueue, hblocked] at hg
    exact (hsettles.append_left _).mem_before hg
  rw [hnone] at hsub
  exact List.not_mem_nil hsub

end

end Works

/-! ## The operations -/

section
variable {p : Poller} {now : Nat} {r : String} {x : Result} {xs : List Result}

/-- An order is removed from the table, and all who wait for it are told the same. -/
theorem works_withoutReference (hp : Sound p) (r : String) (o : Outcome) (seen : List Seen)
    (hnodup : (seen.map (·.result.reference)).Nodup)
    (hapart : ∀ s ∈ seen, s.result.reference = r ∨ s ∈ p.seen)
    (hfinal : ∀ s ∈ seen, s.result.status.isFinal = true) :
    Works (fun g o' => g ∈ p.held ∧ g.reference = r ∧ o' = o) p
      { p.withoutReference r with seen := seen } (answersOf (answerAll (p.waitersOf r) o)) := by
  refine Works.of_settles hp rfl rfl rfl
    ((orders_withoutReference_sublist p r).nodup hp.orders_nodup) hnodup ?_ hfinal ?_
  · intro s hs hmem
    rcases hapart s hs with rfl | hold
    · exact not_mem_orders_withoutReference p _ hmem
    · exact hp.apart s hold ((orders_withoutReference_sublist p r).subset hmem)
  · have hperm := heldIn_perm_filter r hp.orders_nodup
    refine ⟨(p.waitersOf r).map fun w => (⟨w, r⟩, o), ?_, ?_, ?_⟩
    · simpa [held, withoutReference, waitersOf, Function.comp_def] using hperm
    · simp [List.filter_map, Function.comp_def]
    · intro g hg _
      obtain ⟨w, hw, rfl⟩ := List.mem_map.1 hg
      refine ⟨hperm.mem_iff.2 (List.mem_append_right _ ?_), rfl, rfl⟩
      exact List.mem_map_of_mem hw

/-- A result that is new and final is told to all who wait for its order, and then remembered. -/
theorem process_new (now : Nat) (hfinal : x.status.isFinal = true)
    (hnew : p.seen? x.reference = none) :
    p.process now x = ({ p.withoutReference x.reference with seen := ⟨now, x⟩ :: p.seen },
      answerAll (p.waitersOf x.reference) (.ok x)) := by
  simp [process, hfinal, hnew]

/-- A result that is not final, or that comes after another of the same order, changes nothing. -/
theorem process_old (now : Nat)
    (hold : x.status.isFinal = false ∨ (p.seen? x.reference).isSome = true) :
    p.process now x = (p, []) := by
  rw [process, if_neg]
  rintro ⟨hfinal, hnew⟩
  rcases hold with h | h
  · rw [h] at hfinal
    cases hfinal
  · rw [Option.isNone_iff_eq_none.1 hnew] at h
    cases h

/-- Taking a result tells it to those who wait for its order. -/
theorem works_process (hp : Sound p) (now : Nat) (x : Result) :
    Works (fun g o => g ∈ p.held ∧ g.reference = x.reference ∧ x.status.isFinal = true ∧ o = .ok x)
      p (p.process now x).1 (answersOf (p.process now x).2) := by
  by_cases h : x.status.isFinal = true ∧ p.seen? x.reference = none
  · obtain ⟨hfinal, hnew⟩ := h
    have hfresh := seen?_eq_none.1 hnew
    rw [process_new now hfinal hnew]
    refine (works_withoutReference hp x.reference (.ok x) (⟨now, x⟩ :: p.seen) ?_ ?_ ?_).mono
      fun g o _ hg => ⟨hg.1, hg.2.1, hfinal, hg.2.2⟩
    · refine List.nodup_cons.2 ⟨fun hmem => ?_, hp.seen_nodup⟩
      obtain ⟨s, hs, heq⟩ := List.mem_map.1 hmem
      exact hfresh s hs heq
    · intro s hs
      rcases List.mem_cons.1 hs with rfl | hs
      · exact .inl rfl
      · exact .inr hs
    · intro s hs
      rcases List.mem_cons.1 hs with rfl | hs
      · exact hfinal
      · exact hp.final s hs
  · rw [process_old now]
    · exact .refl hp
    · cases hfinal : x.status.isFinal with
      | false => exact .inl rfl
      | true => exact .inr (Option.isSome_iff_ne_none.2 fun hnone => h ⟨hfinal, hnone⟩)

/-- The first final result of an order among results. -/
def firstFinal (r : String) (xs : List Result) : Option Result :=
  xs.find? fun x => x.reference = r ∧ x.status.isFinal

/-- The first final result of an order is one of its final results. -/
theorem firstFinal_spec (h : firstFinal r xs = some x) :
    x ∈ xs ∧ x.reference = r ∧ x.status.isFinal = true := by
  have hx := List.find?_some h
  simp only [decide_eq_true_eq] at hx
  exact ⟨List.mem_of_find?_eq_some h, hx⟩

/-- Taking results one after the other tells everybody who waits the first final one of the order
that they wait for. -/
theorem works_processAll (hp : Sound p) (now : Nat) (xs : List Result) :
    Works (fun g o => g ∈ p.held ∧ ∃ x, firstFinal g.reference xs = some x ∧ o = .ok x)
      p (p.processAll now xs).1 (answersOf (p.processAll now xs).2) := by
  induction xs generalizing p with
  | nil => exact .refl hp
  | cons x rest ih =>
    have hfirst := works_process hp now x
    have hrest := ih hfirst.sound
    rw [processAll, answersOf_append]
    refine Works.trans (hfirst.mono ?_) (hrest.mono ?_)
    · rintro g o - ⟨hg, href, hfinal, rfl⟩
      exact ⟨hg, x, List.find?_cons_of_pos (by simp [href, hfinal]), rfl⟩
    · rintro g o hg ⟨-, y, hy, rfl⟩
      have hheld := hfirst.settles.mem_before hg
      refine ⟨hheld, y, ?_, rfl⟩
      -- Whoever still waits after `x` does not wait for the order of `x`, if `x` is final.
      rw [firstFinal, List.find?_cons_of_neg, ← firstFinal, hy]
      simp only [decide_eq_true_eq]
      rintro ⟨href, hfinal⟩
      cases hnew : p.seen? x.reference with
      | none =>
        rw [process_new now hfinal hnew, href] at hg
        exact not_mem_orders_withoutReference p _ (reference_mem_orders hg)
      | some z =>
        exact hp.not_mem_orders hnew (href ▸ reference_mem_orders hheld)

/-- Failing an order tells the failure to those who wait for it. -/
theorem works_fail (hp : Sound p) (r : String) (failure : Failure) :
    Works (fun g o => g ∈ p.held ∧ g.reference = r ∧ o = .error failure) p (p.fail r failure).1
      (answersOf (p.fail r failure).2) :=
  works_withoutReference hp r (.error failure) p.seen hp.seen_nodup (fun _ hs => .inr hs) hp.final

/-- After pruning those are left who have not given up. -/
theorem held_prune (now : Nat) (p : Poller) :
    (p.prune now).held = p.held.filter (·.waiter.live) := by
  suffices H : ∀ waiting : List (String × List Waiter),
      heldIn ((waiting.map fun e => (e.1, e.2.filter (·.live))).filter (!·.2.isEmpty)) =
        (heldIn waiting).filter (·.waiter.live) from H p.waiting
  intro waiting
  induction waiting with
  | nil => rfl
  | cons e rest ih =>
    have hhead : ((e.2.map fun w => (⟨w, e.1⟩ : Registration)).filter (·.waiter.live)) =
        (e.2.filter (·.live)).map fun w => ⟨w, e.1⟩ := by
      simp [List.filter_map, Function.comp_def]
    rw [List.map_cons, heldIn, heldIn, List.flatMap_cons, List.filter_append, hhead]
    cases hws : e.2.filter (·.live) with
    | nil =>
      rw [List.filter_cons_of_neg (by simp)]
      exact ih
    | cons w ws =>
      rw [List.filter_cons_of_pos (by simp), List.flatMap_cons]
      exact congrArg _ ih

/-- Pruning removes those who have given up, and tells nobody anything. -/
theorem works_prune (hp : Sound p) (now : Nat) (told : Registration → Outcome → Prop) :
    Works told p (p.prune now) [] := by
  have horders : (p.prune now).orders.Sublist p.orders := by
    have hsub := (List.filter_sublist (p := fun e : String × List Waiter => !e.2.isEmpty)
      (l := p.waiting.map fun e => (e.1, e.2.filter (·.live)))).map (·.1)
    simpa [orders, prune, List.map_map, Function.comp_def] using hsub
  have hseen : (p.prune now).seen.Sublist p.seen := List.filter_sublist
  refine Works.of_settles hp rfl rfl rfl (horders.nodup hp.orders_nodup)
    ((hseen.map _).nodup hp.seen_nodup)
    (fun s hs hmem => hp.apart s (hseen.subset hs) (horders.subset hmem))
    (fun s hs => hp.final s (hseen.subset hs)) ?_
  refine ⟨(p.held.filter (!·.waiter.live)).map (·, stoppedOutcome), ?_, ?_, ?_⟩
  · rw [held_prune, List.map_map]
    simpa [Function.comp_def] using (List.filter_append_perm (·.waiter.live) p.held).symm
  · simp [List.filter_map, Function.comp_def, List.filter_filter]
  · intro g hg hlive
    obtain ⟨w, hw, rfl⟩ := List.mem_map.1 hg
    obtain ⟨-, hdead⟩ := List.mem_filter.1 hw
    rw [show w.waiter.live = true from hlive] at hdead
    cases hdead

end

end OrderBroker.Freja.Poller
