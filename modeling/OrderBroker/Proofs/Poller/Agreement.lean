import OrderBroker.Proofs.Poller.Rounds

/-!
# The two ways to ask

A poller asks for its orders one by one or for all of them at once. `Resolves` says what the final
results of some orders make of a poller: it does not matter in which order they are taken, nor how
often, nor whether results of other orders stand among them. So where Freja knows the orders that
somebody waits for, both ways come to the same (`ways_agree`).
-/

namespace OrderBroker.Freja.Poller

/-! ## Resolving orders -/

/-- What those are told who wait, if `final` gives the final results of orders. -/
def toldBy (final : String → Option Result) (registrations : List Registration) :
    List (Nat × Outcome) :=
  (registrations.filter (·.waiter.live)).filterMap fun g =>
    (final g.reference).map fun x => (g.waiter.id, .ok x)

/-- `Resolves t final p q answers`: since the time `t` the poller `p` has taken the results that
`final` gives of the orders in its table, and is `q` now. Those orders are gone from the table,
everybody who waits for them is told the result, and it is remembered. -/
structure Resolves (t : Nat) (final : String → Option Result) (p q : Poller)
    (answers : List (Nat × Outcome)) : Prop where
  sound : Sound q
  waiting : q.waiting = p.waiting.filter fun e => (final e.1).isNone
  answers : answers.Perm (toldBy final p.held)
  keeps : ∀ s ∈ p.seen, s ∈ q.seen
  fresh : ∀ r ∈ p.orders, ∀ x, final r = some x → ∃ τ, t ≤ τ ∧ ⟨τ, x⟩ ∈ q.seen

/-- The one result that is final, of its order. -/
def finalOf (x : Result) (r : String) : Option Result :=
  if x.reference = r ∧ x.status.isFinal = true then some x else none

section
variable {p q s : Poller} {t now : Nat} {r : String} {x : Result} {xs : List Result}
  {final final' : String → Option Result} {a b : List (Nat × Outcome)}

/-- The first final result of an order is the first of the results, or one of the others. -/
theorem firstFinal_cons (x : Result) (xs : List Result) (r : String) :
    firstFinal r (x :: xs) = (finalOf x r).or (firstFinal r xs) := by
  unfold finalOf
  split
  · next h => exact List.find?_cons_of_pos (by simpa using h)
  · next h => exact List.find?_cons_of_neg (by simpa using h)

/-- The registrations that are left when some orders are removed. -/
theorem heldIn_filter (keep : String → Bool) (waiting : List (String × List Waiter)) :
    heldIn (waiting.filter fun e => keep e.1) =
      (heldIn waiting).filter fun g => keep g.reference := by
  induction waiting with
  | nil => rfl
  | cons e rest ih =>
    have hcons (l : List (String × List Waiter)) :
        heldIn (e :: l) = e.2.map (⟨·, e.1⟩) ++ heldIn l := List.flatMap_cons
    rw [hcons, List.filter_append, ← ih]
    cases hkeep : keep e.1 with
    | true => simp [hkeep, hcons, List.filter_map, Function.comp_def]
    | false => simp [hkeep, List.filter_map, Function.comp_def]

/-- Those are told the same who are told first by one, and if not by the other. -/
theorem toldBy_or (final final' : String → Option Result) (l : List Registration) :
    (toldBy final l ++ toldBy final' (l.filter fun g => (final g.reference).isNone)).Perm
      (toldBy (fun r => (final r).or (final' r)) l) := by
  induction l with
  | nil => exact .refl _
  | cons g rest ih =>
    cases hlive : g.waiter.live with
    | false =>
      cases hfinal : final g.reference <;> simpa [toldBy, hlive, hfinal] using ih
    | true =>
      cases hfinal : final g.reference with
      | some x => simpa [toldBy, hlive, hfinal] using ih
      | none =>
        cases hfinal' : final' g.reference with
        | none => simpa [toldBy, hlive, hfinal, hfinal'] using ih
        | some x =>
          have hmiddle := List.perm_middle.trans (ih.cons (g.waiter.id, Except.ok x))
          simpa [toldBy, hlive, hfinal, hfinal'] using hmiddle

namespace Resolves

/-- An order that is left in the table is one of those from before, and has no final result. -/
theorem mem_orders (h : Resolves t final p q a) : r ∈ q.orders ↔ r ∈ p.orders ∧ final r = none := by
  simp only [orders, h.waiting, List.mem_map, List.mem_filter, Option.isNone_iff_eq_none]
  constructor
  · rintro ⟨e, ⟨he, hnone⟩, rfl⟩
    exact ⟨⟨e, he, rfl⟩, hnone⟩
  · rintro ⟨⟨e, he, rfl⟩, hnone⟩
    exact ⟨e, ⟨he, hnone⟩, rfl⟩

/-- Nothing is taken. -/
theorem refl (hp : Sound p) : Resolves t (fun _ => none) p p [] where
  sound := hp
  waiting := by simp
  answers := by simp [toldBy]
  keeps _ hs := hs
  fresh := nofun

/-- One result after another. -/
theorem trans (h : Resolves t final p q a) (h' : Resolves t final' q s b) :
    Resolves t (fun r => (final r).or (final' r)) p s (a ++ b) where
  sound := h'.sound
  waiting := by
    rw [h'.waiting, h.waiting, List.filter_filter]
    refine List.filter_congr fun e _ => ?_
    cases final e.1 <;> simp
  answers := by
    have hheld : q.held = p.held.filter fun g => (final g.reference).isNone := by
      rw [held, h.waiting]
      exact heldIn_filter (fun r => (final r).isNone) p.waiting
    have hanswers := h'.answers
    rw [hheld] at hanswers
    exact (h.answers.append hanswers).trans (toldBy_or final final' p.held)
  keeps s hs := h'.keeps s (h.keeps s hs)
  fresh r hr x hx := by
    cases hfinal : final r with
    | some y =>
      obtain rfl : y = x := by simpa [hfinal] using hx
      obtain ⟨τ, hτ, hmem⟩ := h.fresh r hr y hfinal
      exact ⟨τ, hτ, h'.keeps _ hmem⟩
    | none =>
      exact h'.fresh r (h.mem_orders.2 ⟨hr, hfinal⟩) x (by simpa [hfinal] using hx)

/-- The same results, for the orders in the table. -/
theorem congr (h : Resolves t final p q a) (hsame : ∀ r ∈ p.orders, final r = final' r) :
    Resolves t final' p q a where
  sound := h.sound
  waiting := by
    rw [h.waiting]
    exact List.filter_congr fun e he => by rw [hsame e.1 (List.mem_map_of_mem he)]
  answers := by
    have htold : toldBy final p.held = toldBy final' p.held := by
      refine List.filterMap_congr fun g hg => ?_
      rw [hsame g.reference (reference_mem_orders (List.mem_filter.1 hg).1)]
    exact htold ▸ h.answers
  keeps := h.keeps
  fresh r hr x hx := h.fresh r hr x (hsame r hr ▸ hx)

/-- What is remembered of an order that stood in the table is its final result. -/
theorem seen?_eq (h : Resolves t final p q a) (hfinal : ∀ r x, final r = some x → x.reference = r)
    (hr : r ∈ p.orders) : q.seen? r = final r := by
  cases hx : final r with
  | some x =>
    obtain ⟨τ, -, hmem⟩ := h.fresh r hr x hx
    have hseen := h.sound.seen?_of_mem hmem
    rwa [hfinal r x hx] at hseen
  | none =>
    cases hseen : q.seen? r with
    | none => rfl
    | some x => exact absurd (h.mem_orders.2 ⟨hr, hx⟩) (h.sound.not_mem_orders hseen)

end Resolves

/-- What some are told and what others are told. -/
theorem toldBy_append (final : String → Option Result) (l l' : List Registration) :
    toldBy final (l ++ l') = toldBy final l ++ toldBy final l' := by
  simp [toldBy]

/-- Those are told the same, in whatever order they are listed. -/
theorem toldBy_perm (final : String → Option Result) {l l' : List Registration} (h : l.Perm l') :
    (toldBy final l).Perm (toldBy final l') := (h.filter _).filterMap _

/-- One final result is told to those who wait for its order. -/
theorem toldBy_finalOf (hp : Sound p) (hfinal : x.status.isFinal = true) :
    (answersOf (answerAll (p.waitersOf x.reference) (.ok x))).Perm
      (toldBy (finalOf x) p.held) := by
  have hothers : toldBy (finalOf x) (heldIn (p.waiting.filter (·.1 ≠ x.reference))) = [] := by
    refine List.filterMap_eq_nil_iff.2 fun g hg => ?_
    obtain ⟨e, he, hg⟩ := List.mem_flatMap.1 (List.mem_filter.1 hg).1
    obtain ⟨w, -, rfl⟩ := List.mem_map.1 hg
    have hne : e.1 ≠ x.reference := by simpa using (List.mem_filter.1 he).2
    rw [finalOf, if_neg fun h => hne h.1.symm, Option.map_none]
  have hown : toldBy (finalOf x) ((p.waitersOf x.reference).map (⟨·, x.reference⟩)) =
      answersOf (answerAll (p.waitersOf x.reference) (.ok x)) := by
    simp [toldBy, finalOf, hfinal, List.filter_map, Function.comp_def]
  have hperm := toldBy_perm (finalOf x) (heldIn_perm_filter x.reference hp.orders_nodup)
  rw [toldBy_append, hothers, List.nil_append] at hperm
  exact hown ▸ hperm.symm

/-- Taking a result that is new and final resolves its order. -/
theorem resolves_new (hp : Sound p) (ht : t ≤ now) (hfinal : x.status.isFinal = true)
    (hnew : p.seen? x.reference = none) :
    Resolves t (finalOf x) p (p.process now x).1 (answersOf (p.process now x).2) := by
  have hsound := (works_process hp now x).sound
  rw [process_new now hfinal hnew] at hsound ⊢
  refine ⟨hsound, ?_, ?_, fun s hs => .tail _ hs, fun r _ y hy => ⟨now, ht, ?_⟩⟩
  · refine List.filter_congr fun e _ => ?_
    by_cases h : x.reference = e.1 <;> simp [finalOf, hfinal, h, eq_comm]
  · exact toldBy_finalOf hp hfinal
  · obtain ⟨-, rfl⟩ : _ ∧ x = y := by simpa [finalOf] using hy
    exact .head _

/-- Taking a result resolves its order, if it is the first final one. -/
theorem resolves_process (hp : Sound p) (ht : t ≤ now) (x : Result) :
    Resolves t (finalOf x) p (p.process now x).1 (answersOf (p.process now x).2) := by
  by_cases hnew : x.status.isFinal = true ∧ p.seen? x.reference = none
  · exact resolves_new hp ht hnew.1 hnew.2
  · have hold : x.status.isFinal = false ∨ (p.seen? x.reference).isSome = true := by
      cases hfinal : x.status.isFinal with
      | false => exact .inl rfl
      | true => exact .inr (Option.isSome_iff_ne_none.2 fun hnone => hnew ⟨hfinal, hnone⟩)
    rw [process_old now hold]
    refine (Resolves.refl hp).congr fun r hr => ?_
    refine (if_neg ?_).symm
    rintro ⟨rfl, hfinal⟩
    rcases hold with hopen | hseen
    · rw [hfinal] at hopen
      cases hopen
    · obtain ⟨y, hy⟩ := Option.isSome_iff_exists.1 hseen
      exact hp.not_mem_orders hy hr

/-- **Taking all results** at once resolves the orders of which they have a final one. -/
theorem resolves_processAll (hp : Sound p) (ht : t ≤ now) (xs : List Result) :
    Resolves t (firstFinal · xs) p (p.processAll now xs).1 (answersOf (p.processAll now xs).2) := by
  induction xs generalizing p with
  | nil => exact .refl hp
  | cons x rest ih =>
    have hfirst := resolves_process hp ht x
    rw [processAll, answersOf_append]
    exact (hfirst.trans (ih hfirst.sound)).congr fun r _ => (firstFinal_cons x rest r).symm

/-- **Taking results one by one** resolves the same orders. -/
theorem resolves_takeEach (vendor : String → Result) (hp : Sound p) (times : List Nat)
    (asked : List String) (htimes : ∀ τ ∈ times, t ≤ τ) (hlength : times.length = asked.length) :
    Resolves t (firstFinal · (asked.map vendor)) p
      (p.takeEach (times.zip (asked.map fun r => (r, .ok (vendor r))))).1
      (answersOf (p.takeEach (times.zip (asked.map fun r => (r, .ok (vendor r))))).2) := by
  induction asked generalizing p times with
  | nil =>
    obtain rfl : times = [] := List.length_eq_zero_iff.1 hlength
    exact .refl hp
  | cons r rest ih =>
    cases times with
    | nil => cases hlength
    | cons τ times =>
      have hfirst := resolves_process hp (htimes τ (.head _)) (vendor r)
      have hrest := ih hfirst.sound times (fun τ' hτ' => htimes τ' (.tail _ hτ'))
        (Nat.succ.inj hlength)
      rw [List.map_cons, List.map_cons, List.zip_cons_cons, takeEach, answersOf_append]
      exact (hfirst.trans hrest).congr fun q _ => (firstFinal_cons (vendor r) _ q).symm

/-- Where all results of an order are one and the same, it is the first final one if it is final. -/
theorem firstFinal_of_known {y : Result} (hmem : y ∈ xs) (hy : y.reference = r)
    (hsame : ∀ x ∈ xs, x.reference = r → x = y) : firstFinal r xs = finalOf y r := by
  cases hfirst : firstFinal r xs with
  | some x =>
    obtain ⟨hx, href, hfinal⟩ := firstFinal_spec hfirst
    obtain rfl := hsame x hx href
    rw [finalOf, if_pos ⟨href, hfinal⟩]
  | none =>
    have hopen := List.find?_eq_none.1 hfirst y hmem
    rw [finalOf, if_neg (by simpa using hopen)]

/-! ## The end of a round -/

/-- What is left at the end of a round depends on what was left before. -/
theorem waiting_endRound {now' : Nat} (h : p.waiting = q.waiting) :
    (p.endRound now).waiting = (q.endRound now').waiting := by
  simp only [endRound, prune, h]

/-- The results of a round are remembered at its end, unless it has taken too long. -/
theorem Resolves.seen?_endRound (h : Resolves t final p q a)
    (hfinal : ∀ r x, final r = some x → x.reference = r) (htime : now < t + retention)
    (hr : r ∈ p.orders) : (q.endRound now).seen? r = final r := by
  have hsound := (moves_endRound h.sound now fun _ _ => True).sound
  cases hx : final r with
  | some x =>
    obtain ⟨τ, hτ, hmem⟩ := h.fresh r hr x hx
    have hkept : ⟨τ, x⟩ ∈ (q.endRound now).seen := by
      refine List.mem_filter.2 ⟨hmem, ?_⟩
      have hpositive : 0 < retention := by decide
      simp only [decide_eq_true_eq]
      omega
    have hseen := hsound.seen?_of_mem hkept
    rwa [hfinal r x hx] at hseen
  | none =>
    have hnone := seen?_eq_none.1 (hx ▸ h.seen?_eq hfinal hr)
    exact seen?_eq_none.2 fun s hs => hnone s (mem_seen_endRound hs)

end

/-! ## Agreement -/

/-- What the answers of a round make of a poller, before it prunes. -/
def taken (p : Poller) (h : History) (asked : List String) (answer : String → Outcome) : Poller :=
  (p.takeEach ((h.map (·.time)).zip (asked.map fun r => (r, answer r)))).1

section
variable {p p₁ p₂ : Poller} {t₀ interval t now now' : Nat} {past h : History}
  {effects : List Effect} {vendor : String → Result} {asked : List String} {listed : List Result}

/-- **The two ways agree.** Freja knows the orders that somebody waits for: asked for one of them,
it tells one result of this order, and asked for all it lists these results, in whatever order and
with whatever others. Then asking for the orders one by one, in whatever order, and asking for all
at once leave the same table, tell the same to the same people, and leave the same results of these
orders in the memory. A poller asks in one of these ways. -/
theorem ways_agree (run : Runs t₀ interval past t p) (hasked : asked.Perm p.orders)
    (hknown : ∀ r ∈ p.orders, (vendor r).reference = r)
    (hlisted : ∀ r ∈ p.orders, vendor r ∈ listed)
    (hsame : ∀ x ∈ listed, x.reference ∈ p.orders → x = vendor x.reference)
    (single : Round p t asked (fun r => .ok (vendor r)) h now p₁)
    (bulk : machine now' { p with phase := .bulk } (.toldAll (.ok listed)) = some (p₂, effects)) :
    (p₁ = (p.taken h asked fun r => .ok (vendor r)).endRound now ∧
      p₂ = (p.processAll now' listed).1.endRound now') ∧
    (p.taken h asked fun r => .ok (vendor r)).waiting = (p.processAll now' listed).1.waiting ∧
    p₁.waiting = p₂.waiting ∧
    (answers h).Perm (answersOf effects) ∧
    (∀ r ∈ p.orders, (p.taken h asked fun r => .ok (vendor r)).seen? r =
      (p.processAll now' listed).1.seen? r) ∧
    (now < t + retention → ∀ r ∈ p.orders, p₁.seen? r = p₂.seen? r) ∧
    ("" ∉ p.orders → (p.startRound t).1 = (p.askNext t p.orders).1 ∨
      (p.startRound t).1 = { p with phase := .bulk }) := by
  have hp := sound_of_runs run
  have hmem {r : String} (hr : r ∈ p.orders) : r ∈ asked := hasked.mem_iff.2 hr
  -- Of every order in the table both ways bring the same final result.
  have hsingle (r : String) (hr : r ∈ p.orders) :
      firstFinal r (asked.map vendor) = finalOf (vendor r) r := by
    refine firstFinal_of_known (List.mem_map_of_mem (hmem hr)) (hknown r hr) ?_
    rintro x hx rfl
    obtain ⟨k, hk, rfl⟩ := List.mem_map.1 hx
    rw [hknown k (hasked.mem_iff.1 hk)]
  have hall (r : String) (hr : r ∈ p.orders) : firstFinal r listed = finalOf (vendor r) r := by
    refine firstFinal_of_known (hlisted r hr) (hknown r hr) ?_
    rintro x hx rfl
    exact hsame x hx hr
  have hfinal (r : String) (x : Result) (hx : finalOf (vendor r) r = some x) :
      x.reference = r := by
    simp only [finalOf, Option.ite_none_right_eq_some, Option.some.injEq] at hx
    rw [← hx.2, hx.1.1]
  obtain ⟨hend, hanswers, hnow, htimes⟩ := single.eq_takeEach
  have hlength : (h.map (·.time)).length = asked.length := by
    simpa using congrArg List.length single.events
  have h₁ := (resolves_takeEach vendor hp _ asked htimes hlength).congr hsingle
  have h₂ := (resolves_processAll hp (Nat.le_refl now') listed).congr hall
  have hbulk : p₂ = (p.processAll now' listed).1.endRound now' ∧
      effects = (p.processAll now' listed).2 := by
    simp only [machine, if_true, answeredAll, processAll_phase, Option.some.injEq,
      Prod.mk.injEq] at bulk
    exact ⟨bulk.1.symm, bulk.2.symm⟩
  obtain ⟨rfl, rfl⟩ := hbulk
  subst hend
  have hwaiting := h₁.waiting.trans h₂.waiting.symm
  refine ⟨⟨rfl, rfl⟩, hwaiting, waiting_endRound hwaiting,
    hanswers ▸ h₁.answers.trans h₂.answers.symm, fun r hr => ?_, fun htime r hr => ?_,
    fun hnamed => ?_⟩
  · exact (h₁.seen?_eq hfinal hr).trans (h₂.seen?_eq hfinal hr).symm
  · have hsoon : now' < now' + retention := Nat.lt_add_of_pos_right (by decide)
    exact (h₁.seen?_endRound hfinal htime hr).trans (h₂.seen?_endRound hfinal hsoon hr).symm
  · have hnames : p.orders.filter (· ≠ "") = p.orders := by
      refine List.filter_eq_self.2 fun r hr => ?_
      simpa using fun heq : r = "" => hnamed (heq ▸ hr)
    by_cases hfew : 0 < p.orders.length ∧ p.orders.length < bulkThreshold
    · rw [startRound_few t hfew.1 hfew.2, named, hnames]
      exact .inl rfl
    · rw [startRound_many t hfew]
      exact .inr rfl

end

/-- Two orders are waited for, and Freja knows both. One of them is approved, and whoever waits for
it is told so, whichever way Freja is asked. -/
theorem two_orders_agree :
    ∃ (past h : History) (p p₁ p₂ : Poller) (vendor : String → Result) (x : Result)
      (effects : List Effect),
      Runs 0 1000 past 6 p ∧ p.orders = ["A", "B"] ∧ vendor "A" = x ∧
      Round p 6 ["B", "A"] (fun r => .ok (vendor r)) h 6 p₁ ∧
      machine 9 { p with phase := .bulk }
        (.toldAll (.ok [{ reference := "C", status := .approved }, x, vendor "B", x])) =
          some (p₂, effects) ∧
      p₁.waiting = p₂.waiting ∧ (answers h).Perm (answersOf effects) ∧
      answersOf effects = [(1, .ok x)] ∧ p₁.seen? "A" = some x ∧ p₂.seen? "A" = some x := by
  let x : Result := { reference := "A", status := .approved }
  let vendor (r : String) : Result :=
    { reference := r, status := if r = "A" then .approved else .started }
  have h₁ : Runs 0 1000 _ 0 _ := Run.next (e := .register 1 "A") .start (Nat.le_refl 0)
    (fun _ _ _ _ h => by simp [Registered] at h) rfl
  have h₂ := h₁.next (Nat.le_refl 0) (fresh_of_newcomers (e := .move .accept) rfl) rfl
  have h₃ := h₂.next (Nat.le_add_right 0 5)
    (fresh_of_newcomers (e := .toldOne "A" (.ok { reference := "A", status := .started })) rfl) rfl
  have h₄ := h₃.next (e := .register 2 "B") (Nat.le_add_right 5 1)
    (fun _ _ _ heq h => by injection heq with hw; subst hw; simp [Registered] at h) rfl
  have h₅ := h₄.next (Nat.le_refl 6) (fresh_of_newcomers (e := .move .accept) rfl) rfl
  obtain ⟨past, p, run, horders, hbulk⟩ : ∃ (past : History) (p : Poller), Runs 0 1000 past 6 p ∧
      p.orders = ["A", "B"] ∧ ∃ p₂ effects, machine 9 { p with phase := .bulk }
        (.toldAll (.ok [{ reference := "C", status := .approved }, x, vendor "B", x])) =
          some (p₂, effects) ∧ answersOf effects = [(1, .ok x)] ∧ p₂.seen? "A" = some x :=
    ⟨_, _, h₅, rfl, _, _, rfl, rfl, rfl⟩
  obtain ⟨p₂, effects, bulk, hanswers, hseen⟩ := hbulk
  obtain ⟨h, p₁, single⟩ := Round.exists_at p 6 ["B", "A"] fun r => .ok (vendor r)
  have hlisted (r : String) (hr : r ∈ p.orders) :
      vendor r ∈ [{ reference := "C", status := .approved }, x, vendor "B", x] := by
    rw [horders] at hr
    rcases List.mem_pair.1 hr with rfl | rfl
    · exact .tail _ (.head _)
    · exact .tail _ (.tail _ (.head _))
  have hsame (y : Result)
      (hy : y ∈ [{ reference := "C", status := .approved }, x, vendor "B", x])
      (hr : y.reference ∈ p.orders) : y = vendor y.reference := by
    rw [horders] at hr
    simp only [List.mem_cons, List.not_mem_nil, or_false] at hy
    rcases hy with rfl | rfl | rfl | rfl
    · simp at hr
    all_goals rfl
  obtain ⟨-, -, hwaiting, hsent, -, hlater, -⟩ := ways_agree run (horders ▸ List.Perm.swap _ _ _)
    (fun _ _ => rfl) hlisted hsame single bulk
  have hmem : "A" ∈ p.orders := horders ▸ .head _
  exact ⟨past, h, p, p₁, p₂, vendor, x, effects, run, horders, rfl, single, bulk, hwaiting, hsent,
    hanswers, (hlater (by decide) "A" hmem).trans hseen, hseen⟩

end OrderBroker.Freja.Poller
