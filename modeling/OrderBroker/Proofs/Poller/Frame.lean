import OrderBroker.Proofs.Poller.Steps

/-!
# What a poller's steps leave alone

The queue changes only where somebody comes, gives up, is taken from it or is let into it; the
rounds leave it as it is. Nothing is forgotten before its time, whatever the step
(`leaves_of_step`).
-/

namespace OrderBroker.Freja.Poller

/-! ## The rounds -/

/-- `Frame now p s`: the step `s` of `p` leaves the queue, and those who wait for room in it, as
they are, admits nobody and forgets nothing before its time. -/
structure Frame (now : Nat) (p : Poller) (s : Poller × List Effect) : Prop where
  queue : s.1.queue = p.queue
  blocked : s.1.blocked = p.blocked
  silent : ∀ w, Effect.registered w ∉ s.2
  keeps : ∀ x ∈ p.seen, now - x.time < retention → x ∈ s.1.seen

namespace Frame

section
variable {p : Poller} {now : Nat}

/-- Answers admit nobody. -/
theorem silent_answerAll (waiters : List Waiter) (o : Outcome) (w : Nat) :
    Effect.registered w ∉ answerAll waiters o := by
  simp [answerAll]

/-- One operation after another. -/
theorem trans {s s' : Poller × List Effect} (h : Frame now p s) (h' : Frame now s.1 s') :
    Frame now p (s'.1, s.2 ++ s'.2) :=
  ⟨h'.queue.trans h.queue, h'.blocked.trans h.blocked, fun w hw =>
    (List.mem_append.1 hw).elim (h.silent w) (h'.silent w),
    fun x hx hnew => h'.keeps x (h.keeps x hx hnew) hnew⟩

/-- The end of a round forgets what is old. -/
theorem endRound : Frame now p (p.endRound now, []) :=
  ⟨rfl, rfl, by simp, fun _ hx hnew => List.mem_filter.2 ⟨hx, by simpa using hnew⟩⟩

/-- A question changes nothing. -/
theorem askNext (references : List String) : Frame now p (p.askNext now references) := by
  cases references with
  | nil => exact endRound
  | cons reference later => exact ⟨rfl, rfl, by simp [Poller.askNext], fun _ hx _ => hx⟩

/-- The start of a round changes nothing. -/
theorem startRound : Frame now p (p.startRound now) := by
  unfold Poller.startRound
  split
  · exact askNext _
  · exact ⟨rfl, rfl, by simp, fun _ hx _ => hx⟩

/-- A registration that is taken ends a round or starts one. -/
theorem accept (g : Registration) : Frame now p (p.accept now g) := by
  unfold Poller.accept
  cases p.seen? g.reference with
  | some x => exact ⟨rfl, rfl, silent_answerAll _ _, (endRound (p := p)).keeps⟩
  | none =>
    have hstart : Frame now _ (Poller.startRound now { p with
      waiting := addWaiter g.waiter g.reference p.waiting
      registeredAt := now }) := startRound
    exact ⟨hstart.queue, hstart.blocked, hstart.silent, hstart.keeps⟩

/-- A result that is taken comes into the memory, if anything does. -/
theorem process (x : Result) : Frame now p (p.process now x) := by
  unfold Poller.process
  split
  · exact ⟨rfl, rfl, silent_answerAll _ _, fun _ hx _ => List.mem_cons_of_mem _ hx⟩
  · exact ⟨rfl, rfl, by simp, fun _ hx _ => hx⟩

/-- So do results. -/
theorem processAll (xs : List Result) : Frame now p (p.processAll now xs) := by
  induction xs generalizing p with
  | nil => exact ⟨rfl, rfl, by simp [Poller.processAll], fun _ hx _ => hx⟩
  | cons x rest ih => exact (process x).trans ih

/-- The answer to the question about one order. -/
theorem answeredOne (answer : Except Failure Result) :
    Frame now p (p.answeredOne now answer) := by
  unfold Poller.answeredOne
  split
  · cases answer with
    | ok x => exact (process x).trans (askNext _)
    | error failure =>
      by_cases hunknown : saysUnknown failure = true
      · simp only [hunknown, if_true]
        exact Frame.trans (s := p.fail _ failure)
          ⟨rfl, rfl, silent_answerAll _ _, fun _ hx _ => hx⟩ (askNext _)
      · simp only [hunknown, Bool.false_eq_true, if_false]
        exact askNext _
  · exact ⟨rfl, rfl, by simp, fun _ hx _ => hx⟩

/-- The answer to the question about all orders. -/
theorem answeredAll (answer : Except Failure (List Result)) :
    Frame now p (p.answeredAll now answer) := by
  unfold Poller.answeredAll
  split
  · cases answer with
    | ok xs =>
      have h : Frame now p (p.processAll now xs) := processAll xs
      have hend : Frame now _ (Poller.endRound now (p.processAll now xs).1, []) := endRound
      exact ⟨h.queue, h.blocked, h.silent, fun x hx hnew => hend.keeps x (h.keeps x hx hnew) hnew⟩
    | error failure => exact endRound
  · exact ⟨rfl, rfl, by simp, fun _ hx _ => hx⟩

end

end Frame

/-! ## Every step -/

/-- Whoever comes into the queue from among those who wait for room is told so. -/
theorem admits_fillQueue (p : Poller) :
    (∀ w, .registered w ∈ p.fillQueue.2 → ∃ g ∈ p.fillQueue.1.queue, g.waiter.id = w) ∧
      (∀ g ∈ p.fillQueue.1.blocked, g ∈ p.blocked) ∧ p.fillQueue.1.seen = p.seen := by
  unfold fillQueue
  cases hblocked : p.blocked with
  | nil => exact ⟨by simp, by simp [hblocked], rfl⟩
  | cons g rest =>
    refine ⟨fun w hw => ⟨g, by simp, ?_⟩, fun g' hg' => List.mem_cons_of_mem _ hg', rfl⟩
    simpa [eq_comm] using hw

/-- What every step leaves as it is: whoever is told that he was admitted stands in the queue, only
those wait for room who waited for it or come now, and nothing is forgotten before its time. -/
structure Leaves (now : Nat) (p : Poller) (e : Event) (s : Poller × List Effect) : Prop where
  admitted : ∀ w, .registered w ∈ s.2 → ∃ g ∈ s.1.queue, g.waiter.id = w
  outside : ∀ g ∈ s.1.blocked, g ∈ p.blocked ++ e.newcomers
  keeps : ∀ x ∈ p.seen, now - x.time < retention → x ∈ s.1.seen

/-- What a step leaves that admits nobody. -/
theorem Frame.leaves {now : Nat} {p : Poller} {s : Poller × List Effect} (h : Frame now p s)
    (e : Event) : Leaves now p e s :=
  ⟨fun w hw => absurd hw (h.silent w), fun _ hg => List.mem_append_left _ (h.blocked ▸ hg), h.keeps⟩

/-- **What a step leaves.** -/
theorem leaves_of_step {now : Nat} {p p' : Poller} {e : Event} {effects : List Effect}
    (hstep : machine now p e = some (p', effects)) : Leaves now p e (p', effects) := by
  have hsame : Frame now p (p, []) := ⟨rfl, rfl, by simp, fun _ hx _ => hx⟩
  cases does_of_step hstep with
  | register w r =>
    unfold Poller.register
    split
    · have hframe : Frame now p (p, [.answer w stoppedOutcome]) :=
        ⟨rfl, rfl, by simp, fun _ hx _ => hx⟩
      exact hframe.leaves _
    · split
      · exact ⟨by simp, fun _ hg => List.mem_append_left _ hg, fun _ hx _ => hx⟩
      · exact ⟨by simp, fun _ hg => hg, fun _ hx _ => hx⟩
  | giveUp w =>
    exact ⟨by simp, fun _ hg => List.mem_append_left _ (List.mem_filter.1 hg).1, fun _ hx _ => hx⟩
  | shutdown =>
    have hframe : Frame now p (p.shutdown, []) := ⟨rfl, rfl, by simp, fun _ hx _ => hx⟩
    exact hframe.leaves _
  | @move m hm =>
    cases m with
    | stop =>
      exact ⟨fun w hw => absurd hw (Frame.silent_answerAll _ _ w), fun _ hg => (by cases hg),
        fun _ hx _ => hx⟩
    | round => exact Frame.startRound.leaves _
    | accept =>
      simp only [make, acceptNext]
      cases p.queue with
      | nil => exact hsame.leaves _
      | cons g rest =>
        have haccept : Frame now _ (({ p with queue := rest } : Poller).fillQueue.1.accept now g) :=
          Frame.accept g
        obtain ⟨hadmitted, houtside, hseen⟩ := admits_fillQueue { p with queue := rest }
        refine ⟨fun w hw => ?_, fun g' hg' => ?_, fun x hx hnew => ?_⟩
        · rw [haccept.queue]
          rcases List.mem_append.1 hw with hw | hw
          · exact hadmitted w hw
          · exact absurd hw (haccept.silent w)
        · rw [haccept.blocked] at hg'
          exact List.mem_append_left _ (houtside g' hg')
        · exact haccept.keeps x (by rw [hseen]; exact hx) hnew
  | toldOne answer _ => exact (Frame.answeredOne answer).leaves _
  | toldAll answer _ => exact (Frame.answeredAll answer).leaves _
  | @relist waiting _ =>
    have hframe : Frame now p ({ p with waiting }, []) := ⟨rfl, rfl, by simp, fun _ hx _ => hx⟩
    exact hframe.leaves _

/-- Results admit nobody, and the queue stays as it is. -/
theorem frame_of_results {now : Nat} {p p' : Poller} {e : Event} {effects : List Effect}
    (hstep : machine now p e = some (p', effects)) (hresults : e.results ≠ []) :
    Frame now p (p', effects) := by
  cases does_of_step hstep with
  | toldOne answer _ => exact Frame.answeredOne answer
  | toldAll answer _ => exact Frame.answeredAll answer
  | _ => exact absurd rfl hresults

end OrderBroker.Freja.Poller
