/-!
# Machines and their runs

The result poller, a job and the service as a whole move alike: something happens to them at some
time, and they go on to another state and do something. A `Machine` is such a function, and `Run`
holds every history that it can have, whatever happens to it and in whatever order.

`Run.split` cuts a run before one of its transitions, `Run.after` after it, and `Run.cons_iff` after
the first; `Run.throughout` carries a fact that every step keeps over a stretch of time.
-/

namespace OrderBroker

/-- What a machine in some state does at a time when something happens to it: its next state and
its effects, or `none` where that cannot happen. -/
abbrev Machine (σ ε φ : Type) : Type := Nat → σ → ε → Option (σ × List φ)

/-- Something that happened to a machine, with the states before and after it and the effects. -/
structure Transition (σ ε φ : Type) where
  time : Nat
  before : σ
  event : ε
  after : σ
  effects : List φ

variable {σ ε φ : Type}

/-- `Run m may t₀ s₀ h now s`: from the state `s₀` at the time `t₀` the machine comes to the state
`s` at the time `now` by the history `h`, the first transition first. Time never goes back, and an
event happens only where `may` allows it after the history so far. -/
inductive Run (m : Machine σ ε φ) (may : List (Transition σ ε φ) → ε → Prop) (t₀ : Nat) (s₀ : σ) :
    List (Transition σ ε φ) → Nat → σ → Prop
  | start : Run m may t₀ s₀ [] t₀ s₀
  | next {h : List (Transition σ ε φ)} {t now : Nat} {s s' : σ} {e : ε} {effects : List φ} :
      Run m may t₀ s₀ h t s → t ≤ now → may h e → m now s e = some (s', effects) →
      Run m may t₀ s₀ (h ++ [⟨now, s, e, s', effects⟩]) now s'

namespace Run

section
variable {m : Machine σ ε φ} {may : List (Transition σ ε φ) → ε → Prop} {t₀ now : Nat} {s₀ s : σ}
  {h past later : List (Transition σ ε φ)} {tr : Transition σ ε φ}

/-- A history that is cut before its last transition is cut at that one or before an earlier one. -/
theorem snoc_eq_cut {last : Transition σ ε φ} (heq : h ++ [last] = past ++ tr :: later) :
    (later = [] ∧ past = h ∧ tr = last) ∨
      ∃ later', later = later' ++ [last] ∧ h = past ++ tr :: later' := by
  rcases List.eq_nil_or_concat later with rfl | ⟨later', x, rfl⟩
  · obtain ⟨hpast, htr⟩ := List.append_inj' heq rfl
    simp only [List.cons.injEq, and_true] at htr
    exact .inl ⟨rfl, hpast.symm, htr.symm⟩
  · rw [List.concat_eq_append, ← List.cons_append, ← List.append_assoc] at heq
    obtain ⟨hh, hx⟩ := List.append_inj' heq rfl
    simp only [List.cons.injEq, and_true] at hx
    subst hx
    exact .inr ⟨later', List.concat_eq_append, hh⟩

/-- Every transition of a run follows on a run, by one step of the machine. -/
theorem split (run : Run m may t₀ s₀ (past ++ tr :: later) now s) :
    ∃ t, Run m may t₀ s₀ past t tr.before ∧ t ≤ tr.time ∧ may past tr.event ∧
      m tr.time tr.before tr.event = some (tr.after, tr.effects) := by
  generalize heq : past ++ tr :: later = h at run
  induction run generalizing later with
  | start => simp at heq
  | @next h t now s s' e effects run ht hmay hm ih =>
    rcases snoc_eq_cut heq.symm with ⟨-, rfl, rfl⟩ | ⟨later', rfl, rfl⟩
    · exact ⟨t, run, ht, hmay, hm⟩
    · exact ih rfl

/-- Every transition of a run follows on a run, by one step of the machine. -/
theorem of_mem (run : Run m may t₀ s₀ h now s) (htr : tr ∈ h) :
    ∃ past later t, h = past ++ tr :: later ∧ Run m may t₀ s₀ past t tr.before ∧ t ≤ tr.time ∧
      may past tr.event ∧ m tr.time tr.before tr.event = some (tr.after, tr.effects) := by
  obtain ⟨past, later, rfl⟩ := List.append_of_mem htr
  obtain ⟨t, hpast⟩ := run.split
  exact ⟨past, later, t, rfl, hpast⟩

/-- Time does not go back. -/
theorem le (run : Run m may t₀ s₀ h now s) : t₀ ≤ now := by
  induction run with
  | start => exact Nat.le_refl _
  | next _ ht _ _ ih => exact Nat.le_trans ih ht

/-- Nothing happens before the start. -/
theorem le_time (run : Run m may t₀ s₀ h now s) (htr : tr ∈ h) : t₀ ≤ tr.time := by
  obtain ⟨past, later, t, -, hpast, ht, -⟩ := run.of_mem htr
  exact Nat.le_trans hpast.le ht

/-- Every transition begins where the one before it ends. -/
theorem adjacent {tr' : Transition σ ε φ}
    (run : Run m may t₀ s₀ (past ++ tr :: tr' :: later) now s) :
    tr'.before = tr.after := by
  rw [List.append_cons] at run
  obtain ⟨t, hpast, -⟩ := run.split
  generalize heq : past ++ [tr] = h at hpast
  cases hpast with
  | start => simp at heq
  | next _ _ _ _ =>
    obtain ⟨-, htr⟩ := List.append_inj' heq rfl
    simp only [List.cons.injEq, and_true] at htr
    rw [htr]

/-- Where nothing has happened, the machine is at its start. -/
theorem eq_start (run : Run m may t₀ s₀ [] now s) : now = t₀ ∧ s = s₀ := by
  generalize heq : [] = h at run
  cases run with
  | start => exact ⟨rfl, rfl⟩
  | next => simp at heq

/-- A run begins with its first transition, and goes on from there. -/
theorem cons_iff :
    Run m may t₀ s₀ (tr :: h) now s ↔
      (t₀ ≤ tr.time ∧ tr.before = s₀ ∧ may [] tr.event ∧
        m tr.time s₀ tr.event = some (tr.after, tr.effects)) ∧
      Run m (fun past => may (tr :: past)) tr.time tr.after h now s := by
  constructor
  · intro run
    generalize heq : tr :: h = all at run
    induction run generalizing h with
    | start => cases heq
    | @next before t now s s' e effects run ht hmay hm ih =>
      cases before with
      | nil =>
        obtain ⟨rfl, rfl⟩ := List.cons.inj heq
        obtain ⟨rfl, rfl⟩ := run.eq_start
        exact ⟨⟨ht, rfl, hmay, hm⟩, .start⟩
      | cons first before =>
        obtain ⟨rfl, rfl⟩ := List.cons.inj heq
        obtain ⟨hfirst, hrest⟩ := ih rfl
        exact ⟨hfirst, hrest.next ht hmay hm⟩
  · rintro ⟨⟨ht, hbefore, hmay, hm⟩, hrest⟩
    induction hrest with
    | start =>
      obtain ⟨time, before, event, after, effects⟩ := tr
      subst hbefore
      exact Run.start.next ht hmay hm
    | next _ ht' hmay' hm' ih => exact ih.next ht' hmay' hm'

/-- What comes after a transition is a run of its own. -/
theorem after (run : Run m may t₀ s₀ (past ++ tr :: later) now s) :
    Run m (fun h => may (past ++ tr :: h)) tr.time tr.after later now s := by
  induction past generalizing may t₀ s₀ with
  | nil => exact (cons_iff.1 run).2
  | cons first past ih => exact ih (cons_iff.1 run).2

/-- A fact that holds after a transition, and that every later step before the time `limit` keeps,
holds before and after each of these steps. -/
theorem throughout (P : σ → Prop) (limit : Nat)
    (run : Run m may t₀ s₀ (past ++ tr :: later) now s) (hP : P tr.after)
    (hkeep : ∀ (h : List (Transition σ ε φ)) (t now : Nat) (s s' : σ) (e : ε) (effects : List φ),
      Run m may t₀ s₀ h t s → now < limit → P s → m now s e = some (s', effects) → P s') :
    ∀ tr' ∈ later, tr'.time < limit → P tr'.before ∧ P tr'.after := by
  suffices H : (now < limit → P s) ∧
      ∀ tr' ∈ later, tr'.time < limit → P tr'.before ∧ P tr'.after from H.2
  generalize heq : past ++ tr :: later = h at run
  induction run generalizing later with
  | start => simp at heq
  | @next h t now s s' e effects run ht hmay hm ih =>
    rcases snoc_eq_cut heq.symm with ⟨rfl, rfl, rfl⟩ | ⟨later', rfl, rfl⟩
    · exact ⟨fun _ => hP, by simp⟩
    · obtain ⟨hs, hlater⟩ := ih rfl
      have hstep : now < limit → P s ∧ P s' := fun hlt =>
        have hPs := hs (Nat.lt_of_le_of_lt ht hlt)
        ⟨hPs, hkeep _ _ _ _ _ _ _ run hlt hPs hm⟩
      refine ⟨fun hlt => (hstep hlt).2, fun tr' htr' hlt => ?_⟩
      rcases List.mem_append.1 htr' with htr' | htr'
      · exact hlater tr' htr' hlt
      · rw [List.mem_singleton] at htr'
        subst htr'
        exact hstep hlt

end

end Run

/-! ## Playing events -/

/-- Lets events happen to a machine one after the other, each at its time. -/
def Machine.play (m : Machine σ ε φ) :
    σ → List (Nat × ε) → Option (List (Transition σ ε φ) × σ)
  | s, [] => some ([], s)
  | s, (now, e) :: rest =>
    match m now s e with
    | none => none
    | some (s', effects) =>
      match Machine.play m s' rest with
      | none => none
      | some (h, last) => some (⟨now, s, e, s', effects⟩ :: h, last)

/-- What happens is what was played. -/
theorem Machine.events_of_play {m : Machine σ ε φ} {s₀ s : σ} {events : List (Nat × ε)}
    {h : List (Transition σ ε φ)} (hplay : m.play s₀ events = some (h, s)) :
    h.map (fun tr => (tr.time, tr.event)) = events := by
  induction events generalizing s₀ h with
  | nil =>
    obtain ⟨rfl, rfl⟩ := Prod.mk.inj (Option.some.inj hplay)
    rfl
  | cons event rest ih =>
    simp only [Machine.play] at hplay
    split at hplay
    · cases hplay
    · split at hplay
      · cases hplay
      · next hrest =>
        obtain ⟨rfl, rfl⟩ := Prod.mk.inj (Option.some.inj hplay)
        exact congrArg _ (ih hrest)

/-- Events that can happen one after the other make a run, if time does not go back and every event
is allowed where it comes. -/
theorem Run.of_play {m : Machine σ ε φ} {may : List (Transition σ ε φ) → ε → Prop} {t₀ : Nat}
    {s₀ s : σ} {events : List (Nat × ε)} {h : List (Transition σ ε φ)}
    (hplay : m.play s₀ events = some (h, s)) (htimes : (t₀ :: events.map (·.1)).Pairwise (· ≤ ·))
    (hmay : ∀ past tr later, h = past ++ tr :: later → may past tr.event) :
    Run m may t₀ s₀ h ((events.map (·.1)).getLastD t₀) s := by
  induction events generalizing t₀ s₀ h may with
  | nil =>
    obtain ⟨rfl, rfl⟩ := Prod.mk.inj (Option.some.inj hplay)
    exact .start
  | cons event rest ih =>
    obtain ⟨now, e⟩ := event
    simp only [Machine.play] at hplay
    split at hplay
    · cases hplay
    · next s' effects hstep =>
      split at hplay
      · cases hplay
      · next later last hrest =>
        obtain ⟨rfl, rfl⟩ := Prod.mk.inj (Option.some.inj hplay)
        obtain ⟨ht, htimes⟩ := List.pairwise_cons.1 htimes
        rw [List.map_cons, List.getLastD_cons]
        refine Run.cons_iff.2 ⟨⟨ht now (.head _), rfl, hmay [] _ later rfl, hstep⟩, ih hrest htimes ?_⟩
        rintro past tr after rfl
        exact hmay (_ :: past) tr after rfl

end OrderBroker
