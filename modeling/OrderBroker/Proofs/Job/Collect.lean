import OrderBroker.Freja.Collect

/-!
# What becomes of collecting an order

Collecting an order goes on until the poller answers, or the caller gives up or leaves. It has then
cancelled the order exactly if its caller wishes so and no result came (`Guard`).
-/

namespace OrderBroker.Freja.Collect

variable {ρ : Type}

/-- The effect cancels the order. -/
def Effect.cancels : Effect ρ → Bool
  | .cancelOrder => true
  | _ => false

/-- The effect gives the result. -/
def Effect.finishes : Effect ρ → Bool
  | .finish _ => true
  | _ => false

/-- `Guard read cancels results left effects c`: what `c` collects has come in `results`, and it has
done `effects`; `left` says that its caller has left. -/
structure Guard (read : Except Failure Result → ρ) (cancels : Bool) (results : List Result)
    (left : Prop) (effects : List (Effect ρ)) (c : Collect ρ) : Prop where
  reads : c.read = read
  follows : c.cancelsAbandoned = cancels
  missing : c.phase ≠ .over → results = []
  silent : c.phase ≠ .over → effects.countP (·.cancels) = 0
  ended : c.phase = .over ↔ left ∨ effects.any (·.finishes) = true
  cancelled : c.phase = .over →
    (effects.countP (·.cancels) = 1 ↔ cancels = true ∧ results = []) ∧
      effects.countP (·.cancels) ≤ 1

section
variable {read : Except Failure Result → ρ} {cancels : Bool} {results : List Result} {left : Prop}
  {effects : List (Effect ρ)} {c : Collect ρ} {x : ρ}

/-- It does not matter how it is said that the caller has left. -/
theorem Guard.of_iff {left' : Prop} (h : Guard read cancels results left effects c)
    (hiff : left ↔ left') : Guard read cancels results left' effects c := propext hiff ▸ h

/-- Collecting that is over has to account for its end and for the cancelling. -/
theorem Guard.of_over (hreads : c.read = read) (hfollows : c.cancelsAbandoned = cancels)
    (hover : c.phase = .over) (hends : left ∨ effects.any (·.finishes) = true)
    (hiff : effects.countP (·.cancels) = 1 ↔ cancels = true ∧ results = [])
    (hle : effects.countP (·.cancels) ≤ 1) : Guard read cancels results left effects c :=
  ⟨hreads, hfollows, fun hgoes => absurd hover hgoes, fun hgoes => absurd hover hgoes,
    ⟨fun _ => hends, fun _ => hover⟩, fun _ => ⟨hiff, hle⟩⟩

/-- The start of collecting. -/
theorem guard_start (read : Except Failure Result → ρ) (cancels givenUp : Bool) :
    Guard read cancels [] False (Collect.start read cancels givenUp).2
      (Collect.start read cancels givenUp).1 :=
  ⟨rfl, rfl, fun _ => rfl, fun _ => rfl, by simp [Collect.start, Effect.finishes],
    fun hover => Phase.noConfusion hover⟩

/-- Collecting that has gone on so far ends without a result. -/
theorem guard_abandon (h : Guard read cancels results left effects c) (hgoes : c.phase ≠ .over)
    {left' : Prop} {more : List (Effect ρ)} (hmore : more.countP (·.cancels) = 0)
    (hends : left' ∨ more.any (·.finishes) = true) :
    Guard read cancels results left' (effects ++ (c.abandon more).2) (c.abandon more).1 := by
  have hcount : (effects ++ (c.abandon more).2).countP (·.cancels) =
      if cancels then 1 else 0 := by
    rw [abandon, List.countP_append, List.countP_append, h.silent hgoes, hmore, h.follows]
    cases cancels <;> rfl
  refine .of_over h.reads h.follows rfl (hends.imp_right fun hmore => ?_) ?_ ?_
  · simp [abandon, hmore]
  · rw [hcount, h.missing hgoes]
    cases cancels <;> simp
  · rw [hcount]
    cases cancels <;> simp

/-- The registration is queued. -/
theorem guard_registered (h : Guard read cancels results left effects c) :
    Guard read cancels results left (effects ++ c.registered.2) c.registered.1 := by
  unfold registered
  split
  · next hregisters =>
    have hgoes : c.phase ≠ .over := by simp [hregisters]
    split
    · exact guard_abandon h hgoes rfl (.inr rfl)
    · rw [List.append_nil]
      exact ⟨h.reads, h.follows, fun _ => h.missing hgoes, fun _ => h.silent hgoes,
        ⟨fun hover => Phase.noConfusion hover, fun hends => absurd (h.ended.2 hends) hgoes⟩,
        fun hover => Phase.noConfusion hover⟩
  · rw [List.append_nil]
    exact h

/-- After its end, collecting takes no answer. -/
theorem answered_over (hover : c.phase = .over) (outcome : Except Failure Result) :
    c.answered outcome = (c, []) := by
  simp only [answered, hover]

/-- A result ends collecting. -/
theorem answered_ok (hgoes : c.phase ≠ .over) (result : Result) :
    c.answered (.ok result) = ({ c with phase := .over }, [.finish (c.read (.ok result))]) := by
  cases hphase : c.phase with
  | «over» => exact absurd hphase hgoes
  | registering => simp only [answered, hphase]
  | waiting => simp only [answered, hphase]

/-- A failure ends collecting. -/
theorem answered_error (hgoes : c.phase ≠ .over) (failure : Failure) :
    c.answered (.error failure) = c.abandon [.finish (c.read (.error failure))] := by
  cases hphase : c.phase with
  | «over» => exact absurd hphase hgoes
  | registering => simp only [answered, hphase]
  | waiting => simp only [answered, hphase]

/-- A result comes. -/
theorem guard_result (h : Guard read cancels results left effects c) (hgoes : c.phase ≠ .over)
    (result : Result) :
    Guard read cancels (results ++ [result]) left (effects ++ (c.answered (.ok result)).2)
      (c.answered (.ok result)).1 := by
  rw [answered_ok hgoes]
  have hcount : (effects ++ [Effect.finish (c.read (.ok result))]).countP (·.cancels) = 0 := by
    rw [List.countP_append, h.silent hgoes]
    rfl
  refine .of_over h.reads h.follows rfl (.inr ?_) ?_ ?_
  · simp [Effect.finishes]
  · simp [hcount]
  · simp [hcount]

/-- The poller says why there is no result. -/
theorem guard_failed (h : Guard read cancels results left effects c) (hgoes : c.phase ≠ .over)
    (failure : Failure) :
    Guard read cancels results left (effects ++ (c.answered (.error failure)).2)
      (c.answered (.error failure)).1 := by
  rw [answered_error hgoes]
  exact guard_abandon h hgoes rfl (.inr rfl)

/-- The caller gives up. -/
theorem guard_giveUp (h : Guard read cancels results left effects c) :
    Guard read cancels results left (effects ++ c.giveUp.2) c.giveUp.1 := by
  unfold giveUp
  split
  · next hregisters =>
    rw [List.append_nil]
    exact ⟨h.reads, h.follows, h.missing, h.silent, h.ended, h.cancelled⟩
  · next hwaits => exact guard_abandon h (by simp [hwaits]) rfl (.inr rfl)
  · rw [List.append_nil]
    exact h

/-- The caller leaves. -/
theorem guard_drop (h : Guard read cancels results left effects c) :
    Guard read cancels results True (effects ++ c.drop.2) c.drop.1 := by
  unfold drop
  split
  · next hover =>
    rw [List.append_nil]
    exact ⟨h.reads, h.follows, h.missing, h.silent, ⟨fun _ => .inl trivial, fun _ => hover⟩,
      h.cancelled⟩
  · next hgoes => exact guard_abandon h (by simpa using hgoes) rfl (.inl trivial)

/-! ## Results -/

/-- `Same c c'`: the two collect for the same caller. -/
def Same (c c' : Collect ρ) : Prop := c'.read = c.read ∧ c'.cancelsAbandoned = c.cancelsAbandoned

/-- Whatever happens, the caller is the same. -/
theorem same_registered : Same c c.registered.1 := by
  unfold registered
  split
  · split <;> exact ⟨rfl, rfl⟩
  · exact ⟨rfl, rfl⟩

theorem same_answered (outcome : Except Failure Result) : Same c (c.answered outcome).1 := by
  by_cases hover : c.phase = .over
  · rw [answered_over hover]
    exact ⟨rfl, rfl⟩
  · cases outcome with
    | ok result =>
      rw [answered_ok hover]
      exact ⟨rfl, rfl⟩
    | error failure =>
      rw [answered_error hover]
      exact ⟨rfl, rfl⟩

theorem same_giveUp : Same c c.giveUp.1 := by
  unfold giveUp
  split <;> exact ⟨rfl, rfl⟩

theorem same_drop : Same c c.drop.1 := by
  unfold drop
  split <;> exact ⟨rfl, rfl⟩

/-- What a caller is given who has given up. -/
def whenCancelled (read : Except Failure Result → ρ) : ρ := read (.error (.at .freja .cancelled))

/-- Abandoning the order gives no result of its own. -/
theorem finish_of_abandon {more : List (Effect ρ)} (h : .finish x ∈ (c.abandon more).2) :
    .finish x ∈ more := by
  rcases List.mem_append.1 h with h | h
  · exact h
  · split at h <;> simp at h

/-- What is given to a caller who has given up. -/
theorem finish_of_cancel (h : .finish x ∈ c.cancel.2) : x = whenCancelled c.read := by
  have h := finish_of_abandon h
  simp only [List.mem_cons, reduceCtorEq, Effect.finish.injEq, List.not_mem_nil, or_false,
    false_or] at h
  exact h

/-- What is given when the registration is queued. -/
theorem finish_of_registered (h : .finish x ∈ c.registered.2) : x = whenCancelled c.read := by
  unfold registered at h
  split at h
  · split at h
    · exact finish_of_cancel h
    · cases h
  · cases h

/-- What is given when the poller answers. -/
theorem finish_of_answered {outcome : Except Failure Result}
    (h : .finish x ∈ (c.answered outcome).2) : x = c.read outcome := by
  by_cases hover : c.phase = .over
  · rw [answered_over hover] at h
    cases h
  · cases outcome with
    | ok result =>
      rw [answered_ok hover] at h
      have hx := List.mem_singleton.1 h
      injection hx
    | error failure =>
      rw [answered_error hover] at h
      have hx := List.mem_singleton.1 (finish_of_abandon h)
      injection hx

/-- What is given to a caller who gives up. -/
theorem finish_of_giveUp (h : .finish x ∈ c.giveUp.2) : x = whenCancelled c.read := by
  unfold giveUp at h
  split at h
  · cases h
  · exact finish_of_cancel h
  · cases h

/-- Nothing is given to a caller who leaves. -/
theorem finish_of_drop (h : .finish x ∈ c.drop.2) : False := by
  unfold drop at h
  split at h
  · cases h
  · have h := finish_of_abandon h
    simp at h

end

end OrderBroker.Freja.Collect
