import OrderBroker.Proofs.Poller.Operations
import OrderBroker.Proofs.Run

/-!
# Steps of a poller

Everything that can happen to a poller, as a machine: somebody wants to wait or gives up, a vendor's
answer comes, a move of its own, the word to stop. A rest can end by any of its moves, and the table
has no order of its own, so that it may be listed in any.

`does_of_step` says once what a step of a poller can be. `moves_of_step` says of every step but a
waiter's giving up what becomes of the registrations and why those are answered that are gone
(`Told`); `sound_of_step` that every step keeps the poller sound.
-/

namespace OrderBroker.Freja.Poller

/-! ## The machine -/

/-- What happens to a poller. -/
inductive Event where
  /-- Somebody wants to wait for an order. -/
  | register (waiter : Nat) (reference : String)
  /-- Somebody gives up waiting. -/
  | giveUp (waiter : Nat)
  /-- The poller is told to stop. -/
  | shutdown
  /-- The poller moves by itself. -/
  | move (m : Move)
  /-- Freja answers the question about one order. -/
  | toldOne (reference : String) (answer : Except Failure Result)
  /-- Freja answers the question about all orders. -/
  | toldAll (answer : Except Failure (List Result))
  /-- The table is listed in another order. -/
  | relist (waiting : List (String × List Waiter))

/-- The results that Freja tells. -/
def Event.results : Event → List Result
  | .toldOne _ (.ok x) => [x]
  | .toldAll (.ok xs) => xs
  | _ => []

/-- Those who come to wait. -/
def Event.newcomers : Event → List Registration
  | .register waiter reference => [⟨{ id := waiter }, reference⟩]
  | _ => []

/-- A poller as a machine. It moves when it may, and takes the answer that it waits for. -/
def machine : Machine Poller Event Effect := fun now p e =>
  match e with
  | .register waiter reference => some (p.register waiter reference)
  | .giveUp waiter => some (p.giveUp waiter, [])
  | .shutdown => some (p.shutdown, [])
  | .move m => if m ∈ p.moves now then some (p.make now m) else none
  | .toldOne reference answer =>
    match p.phase with
    | .single asked _ => if asked = reference then some (p.answeredOne now answer) else none
    | _ => none
  | .toldAll answer => if p.phase = .bulk then some (p.answeredAll now answer) else none
  | .relist waiting => if waiting.Perm p.waiting then some ({ p with waiting }, []) else none

/-- What a step of a poller can be, and when. -/
inductive Does (now : Nat) (p : Poller) : Event → Poller → List Effect → Prop
  | register (w : Nat) (r : String) :
      Does now p (.register w r) (p.register w r).1 (p.register w r).2
  | giveUp (w : Nat) : Does now p (.giveUp w) (p.giveUp w) []
  | shutdown : Does now p .shutdown p.shutdown []
  | move {m : Move} : m ∈ p.moves now → Does now p (.move m) (p.make now m).1 (p.make now m).2
  | toldOne {asked : String} {later : List String} (answer : Except Failure Result) :
      p.phase = .single asked later →
      Does now p (.toldOne asked answer) (p.answeredOne now answer).1 (p.answeredOne now answer).2
  | toldAll (answer : Except Failure (List Result)) : p.phase = .bulk →
      Does now p (.toldAll answer) (p.answeredAll now answer).1 (p.answeredAll now answer).2
  | relist {waiting : List (String × List Waiter)} : waiting.Perm p.waiting →
      Does now p (.relist waiting) { p with waiting } []

/-- **A step of a poller** is one of these. -/
theorem does_of_step {now : Nat} {p p' : Poller} {e : Event} {effects : List Effect}
    (hstep : machine now p e = some (p', effects)) : Does now p e p' effects := by
  have hmoved {step : Poller × List Effect} (hdoes : Does now p e step.1 step.2)
      (heq : step = (p', effects)) : Does now p e p' effects := by
    rw [heq] at hdoes
    exact hdoes
  cases e with
  | register w r => exact hmoved (.register w r) (Option.some.inj hstep)
  | giveUp w => exact hmoved (.giveUp w) (Option.some.inj hstep)
  | shutdown => exact hmoved .shutdown (Option.some.inj hstep)
  | move m =>
    simp only [machine, Option.ite_none_right_eq_some, Option.some.injEq] at hstep
    exact hmoved (.move hstep.1) hstep.2
  | toldOne reference answer =>
    simp only [machine] at hstep
    split at hstep
    · next asked later hphase =>
      simp only [Option.ite_none_right_eq_some, Option.some.injEq] at hstep
      obtain ⟨rfl, heq⟩ := hstep
      exact hmoved (.toldOne answer hphase) heq
    · cases hstep
  | toldAll answer =>
    simp only [machine, Option.ite_none_right_eq_some, Option.some.injEq] at hstep
    exact hmoved (.toldAll answer hstep.1) hstep.2
  | relist waiting =>
    simp only [machine, Option.ite_none_right_eq_some, Option.some.injEq] at hstep
    exact hmoved (.relist hstep.1) hstep.2

/-- Why somebody is told something about an order. -/
inductive Told (p : Poller) (e : Event) (g : Registration) : Outcome → Prop
  /-- Freja tells the first final result of the order. -/
  | result {x : Result} : g ∈ p.held → firstFinal g.reference e.results = some x →
      Told p e g (.ok x)
  /-- Freja, asked for the order, does not know it. -/
  | unknown {failure : Failure} : g ∈ p.held → e = .toldOne g.reference (.error failure) →
      saysUnknown failure = true → Told p e g (.error failure)
  /-- The result of the order is remembered. -/
  | remembered {x : Result} : e = .move .accept → p.queue.head? = some g →
      p.seen? g.reference = some x → Told p e g (.ok x)
  /-- The poller stops. -/
  | stop : e = .move .stop → Told p e g stoppedOutcome
  /-- The poller has stopped. -/
  | late : p.phase = .stopped → e = .register g.waiter.id g.reference → Told p e g stoppedOutcome

/-! ## Rounds -/

section
variable {told : Registration → Outcome → Prop} {before : List Registration} {p : Poller}
  {now : Nat}

/-- `Moves told before p answers`: the poller `p` is sound, and `before` has settled into what is
pending at `p`, with `answers` as `told` allows. -/
structure Moves (told : Registration → Outcome → Prop) (before : List Registration) (p : Poller)
    (answers : List (Nat × Outcome)) : Prop where
  sound : Sound p
  settles : Settles told before p.pending answers

/-- An operation on the table moves the poller. -/
theorem Works.moves {p' : Poller} {answers : List (Nat × Outcome)} (h : Works told p p' answers) :
    Moves told p.pending p' answers := ⟨h.sound, h.settles_pending⟩

/-- What may be told may be told where more may be told. -/
theorem Moves.mono {told' : Registration → Outcome → Prop} {answers : List (Nat × Outcome)}
    (h : Moves told before p answers) (hmono : ∀ g o, g ∈ before → told g o → told' g o) :
    Moves told' before p answers := ⟨h.sound, h.settles.mono hmono⟩

/-- One move after another. -/
theorem Moves.trans {p' : Poller} {answers answers' : List (Nat × Outcome)}
    (h : Moves told before p answers) (h' : Moves told p.pending p' answers') :
    Moves told before p' (answers ++ answers') := ⟨h'.sound, h.settles.trans h'.settles⟩

/-- At the end of a round nobody is told anything. -/
theorem moves_endRound (hp : Sound p) (now : Nat) (told : Registration → Outcome → Prop) :
    Moves told p.pending (p.endRound now) [] := by
  have h := works_prune hp now told
  exact ⟨h.sound.of_same rfl rfl (by simp [endRound]), h.settles_pending⟩

/-- A question tells nobody anything. -/
theorem moves_askNext (hp : Sound p) (now : Nat) (references : List String)
    (told : Registration → Outcome → Prop) :
    Moves told p.pending (p.askNext now references).1 (answersOf (p.askNext now references).2) := by
  cases references with
  | nil => exact moves_endRound hp now told
  | cons reference later => exact ⟨hp.of_same rfl rfl (by simp [askNext]), .refl⟩

/-- The start of a round tells nobody anything. -/
theorem moves_startRound (hp : Sound p) (now : Nat) (told : Registration → Outcome → Prop) :
    Moves told p.pending (p.startRound now).1 (answersOf (p.startRound now).2) := by
  unfold startRound
  split
  · exact moves_askNext hp now _ told
  · exact ⟨hp.of_same rfl rfl (by simp), .refl⟩

/-! ## Registrations -/

/-- Whoever comes to wait for an order that is not remembered stands in the table. -/
theorem sound_addWaiter (hp : Sound p) (hgoes : p.phase ≠ .stopped) (now : Nat) (g : Registration)
    (hnew : p.seen? g.reference = none) :
    Sound { p with
      waiting := addWaiter g.waiter g.reference p.waiting
      registeredAt := now } := by
  have horders : ∀ r, r ∈ (addWaiter g.waiter g.reference p.waiting).map (·.1) →
      r ∈ p.orders ∨ r = g.reference := by
    intro r hr
    rw [keys_addWaiter] at hr
    split at hr
    · exact .inl hr
    · exact (List.mem_append.1 hr).imp_right List.mem_singleton.1
  refine ⟨?_, hp.seen_nodup, fun s hs hmem => ?_, hp.final, fun h => absurd h hgoes⟩
  · rw [orders, keys_addWaiter]
    split
    · exact hp.orders_nodup
    · next hout =>
      refine List.nodup_append.2 ⟨hp.orders_nodup, by simp, fun a ha b hb hab => ?_⟩
      rw [List.mem_singleton] at hb
      exact hout (hb ▸ hab ▸ ha)
  · rcases horders _ hmem with hold | heq
    · exact hp.apart s hs hold
    · exact seen?_eq_none.1 hnew s hs heq

/-- A registration that is taken is answered from memory, or stands in the table. -/
theorem moves_accept (hp : Sound p) (hgoes : p.phase ≠ .stopped) (now : Nat) (g : Registration) :
    Moves (fun g' o => g' = g ∧ ∃ x, p.seen? g.reference = some x ∧ o = .ok x) (p.pending ++ [g])
      (p.accept now g).1 (answersOf (p.accept now g).2) := by
  unfold accept
  cases hseen : p.seen? g.reference with
  | some x =>
    have hanswer : Settles (fun g' o => g' = g ∧ ∃ y, some x = some y ∧ o = .ok y)
        (p.pending ++ [g]) p.pending (answersOf (answerAll [g.waiter] (.ok x))) := by
      refine ⟨[(g, .ok x)], List.Perm.refl _, ?_, ?_⟩
      · rw [answersOf_answerAll]
        cases hlive : g.waiter.live <;> simp [hlive]
      · intro y hy _
        rw [List.mem_singleton] at hy
        subst hy
        exact ⟨rfl, x, rfl, rfl⟩
    have hend := moves_endRound hp now fun g' o => g' = g ∧ ∃ y, some x = some y ∧ o = .ok y
    have hall := hanswer.trans hend.settles
    rw [List.append_nil] at hall
    exact ⟨hend.sound, hall⟩
  | none =>
    have hstart := moves_startRound (sound_addWaiter hp hgoes now g hseen) now
      fun g' o => g' = g ∧ ∃ x, (none : Option Result) = some x ∧ o = .ok x
    refine ⟨hstart.sound, hstart.settles.perm ?_ (List.Perm.refl _)⟩
    rw [pending, pending, List.append_assoc]
    exact ((heldIn_addWaiter g.waiter g.reference p.waiting).symm).append_left _

/-- The first who waits for room comes into the queue, and is told nothing yet. -/
theorem moves_fillQueue (hp : Sound p) (told : Registration → Outcome → Prop) :
    Moves told p.pending p.fillQueue.1 (answersOf p.fillQueue.2) ∧
      p.fillQueue.1.seen = p.seen ∧ p.fillQueue.1.phase = p.phase := by
  unfold fillQueue
  cases hblocked : p.blocked with
  | nil => exact ⟨⟨hp, .refl⟩, rfl, rfl⟩
  | cons g rest =>
    have hperm : p.pending.Perm (rest ++ (p.queue ++ [g]) ++ p.held) := by
      have hmiddle : (g :: (rest ++ p.queue ++ p.held)).Perm (rest ++ p.queue ++ g :: p.held) :=
        List.perm_middle.symm
      simpa [pending, hblocked, List.append_assoc] using hmiddle
    refine ⟨⟨⟨hp.orders_nodup, hp.seen_nodup, hp.apart, hp.final, fun hstop => ?_⟩, ?_⟩, rfl, rfl⟩
    · have hnone := hp.stopped hstop
      rw [hnone] at hperm
      exact hperm.nil_eq.symm
    · exact .of_perm hperm

/-- The first registration of the queue is taken, and its place is free for another. -/
theorem moves_acceptNext (hp : Sound p) (hgoes : p.phase ≠ .stopped) :
    Moves (Told p (.move .accept)) p.pending (p.acceptNext now).1
      (answersOf (p.acceptNext now).2) := by
  unfold acceptNext
  cases hqueue : p.queue with
  | nil => exact ⟨hp, .refl⟩
  | cons g rest =>
    have hrest : Sound { p with queue := rest } := hp.of_same rfl rfl hgoes
    obtain ⟨hfill, hseen, hphase⟩ := moves_fillQueue hrest (Told p (.move .accept))
    have haccept := moves_accept hfill.sound (by rw [hphase]; exact hgoes) now g
    have hseen? : ({ p with queue := rest } : Poller).fillQueue.1.seen? g.reference =
        p.seen? g.reference := by rw [seen?, seen?, hseen]
    -- The registration in hand stands before those that are pending without it.
    have hhand : p.pending.Perm ([g] ++ ({ p with queue := rest } : Poller).pending) := by
      simp [pending, hqueue, held, List.append_assoc]
    have hfirst := hfill.settles.append_left [g]
    have htold (g' : Registration) (o : Outcome) (hg' : g' = g ∧ ∃ x,
        ({ p with queue := rest } : Poller).fillQueue.1.seen? g.reference = some x ∧ o = .ok x) :
        Told p (.move .accept) g' o := by
      obtain ⟨rfl, x, hx, rfl⟩ := hg'
      exact .remembered rfl (by rw [hqueue]; rfl) (hseen? ▸ hx)
    have hsecond := (haccept.settles.perm List.perm_append_comm (List.Perm.refl _)).mono
      fun g' o _ => htold g' o
    rw [answersOf_append]
    exact ⟨haccept.sound, (hfirst.trans hsecond).perm hhand (List.Perm.refl _)⟩

/-- Whoever comes to wait is pending, or is told that the poller has stopped. -/
theorem moves_register (hp : Sound p) (waiter : Nat) (reference : String) :
    Moves (Told p (.register waiter reference)) (p.pending ++ [⟨{ id := waiter }, reference⟩])
      (p.register waiter reference).1 (answersOf (p.register waiter reference).2) := by
  unfold register
  split
  · next hstop =>
    refine ⟨hp, [(⟨{ id := waiter }, reference⟩, stoppedOutcome)], List.Perm.refl _, rfl, ?_⟩
    intro x hx _
    rw [List.mem_singleton] at hx
    subst hx
    exact .late hstop rfl
  · next hgoes =>
    have hmiddle (a b : List Registration) (g : Registration) :
        (a ++ b ++ [g]).Perm (a ++ ([g] ++ b)) := by
      rw [List.append_assoc]
      exact List.perm_append_comm.append_left a
    split
    · refine ⟨hp.of_same rfl rfl hgoes, .of_perm ?_⟩
      simpa [pending, held, List.append_assoc] using
        hmiddle (p.blocked ++ p.queue) p.held ⟨{ id := waiter }, reference⟩
    · refine ⟨hp.of_same rfl rfl hgoes, .of_perm ?_⟩
      simpa [pending, held, List.append_assoc] using
        hmiddle p.blocked (p.queue ++ p.held) ⟨{ id := waiter }, reference⟩

/-- A poller that stops tells everybody so. -/
theorem moves_stop (hp : Sound p) :
    Moves (Told p (.move .stop)) p.pending p.stop.1 (answersOf p.stop.2) := by
  refine ⟨⟨by simp [stop, orders], hp.seen_nodup, by simp [stop, orders], hp.final, fun _ => rfl⟩,
    (p.held ++ (p.queue ++ p.blocked)).map (·, stoppedOutcome), ?_, ?_, ?_⟩
  · have hperm : p.pending.Perm (p.held ++ (p.queue ++ p.blocked)) :=
      List.perm_append_comm.trans (List.perm_append_comm.append_left p.held)
    simpa [stop, pending, held, heldIn, Function.comp_def] using hperm
  · have hwaiters : p.waiting.flatMap (·.2) = p.held.map (·.waiter) := by
      simp [held, heldIn, List.map_flatMap, Function.comp_def]
    rw [stop, answersOf_answerAll, hwaiters, ← List.map_append]
    simp [List.filter_map, Function.comp_def]
  · intro x hx _
    obtain ⟨g, -, rfl⟩ := List.mem_map.1 hx
    exact .stop rfl

/-! ## Answers of the vendor -/

/-- The answer to the question about one order is taken, and the next question asked. -/
theorem moves_answeredOne (hp : Sound p) {reference : String} {later : List String}
    (hphase : p.phase = .single reference later) (answer : Except Failure Result) :
    Moves (Told p (.toldOne reference answer)) p.pending (p.answeredOne now answer).1
      (answersOf (p.answeredOne now answer).2) := by
  unfold answeredOne
  rw [hphase]
  cases answer with
  | ok x =>
    have htake : Moves (Told p (.toldOne reference (.ok x))) p.pending (p.process now x).1
        (answersOf (p.process now x).2) := by
      refine (works_process hp now x).moves.mono ?_
      rintro g o - ⟨hg, href, hfinal, rfl⟩
      exact .result hg (List.find?_cons_of_pos (by simp [href, hfinal]))
    simp only [answersOf_append]
    exact htake.trans (moves_askNext htake.sound now later _)
  | error failure =>
    by_cases hunknown : saysUnknown failure = true
    · have hfail : Moves (Told p (.toldOne reference (.error failure))) p.pending
          (p.fail reference failure).1 (answersOf (p.fail reference failure).2) := by
        refine (works_fail hp reference failure).moves.mono ?_
        rintro g o - ⟨hg, rfl, rfl⟩
        exact .unknown hg rfl hunknown
      simp only [hunknown, if_true, answersOf_append]
      exact hfail.trans (moves_askNext hfail.sound now later _)
    · simp only [hunknown, Bool.false_eq_true, if_false, List.nil_append]
      exact moves_askNext hp now later _

/-- The answer to the question about all orders is taken, and the round ends. -/
theorem moves_answeredAll (hp : Sound p) (hphase : p.phase = .bulk)
    (answer : Except Failure (List Result)) :
    Moves (Told p (.toldAll answer)) p.pending (p.answeredAll now answer).1
      (answersOf (p.answeredAll now answer).2) := by
  unfold answeredAll
  rw [hphase]
  cases answer with
  | error failure => exact moves_endRound hp now _
  | ok xs =>
    have htake : Moves (Told p (.toldAll (.ok xs))) p.pending (p.processAll now xs).1
        (answersOf (p.processAll now xs).2) := by
      refine (works_processAll hp now xs).moves.mono ?_
      rintro g o - ⟨hg, x, hx, rfl⟩
      exact .result hg hx
    have hend := htake.trans (moves_endRound htake.sound now _)
    rwa [List.append_nil] at hend

/-! ## Every step -/

/-- A poller that may move rests. -/
theorem resting_of_mem_moves {m : Move} (hm : m ∈ p.moves now) : ∃ due, p.phase = .resting due := by
  unfold moves at hm
  split at hm
  · next due hphase => exact ⟨due, hphase⟩
  · cases hm

/-- A poller that may move has not stopped. -/
theorem goes_of_mem_moves {m : Move} (hm : m ∈ p.moves now) : p.phase ≠ .stopped := by
  obtain ⟨due, hphase⟩ := resting_of_mem_moves hm
  rw [hphase]
  exact Phase.noConfusion

/-- Whoever gives up is marked where he waits. -/
def quit (waiter : Nat) (g : Registration) : Registration :=
  if g.waiter.id = waiter then { g with waiter := { g.waiter with live := false } } else g

/-- Nobody stands elsewhere for having given up. -/
@[simp] theorem id_quit (waiter : Nat) (g : Registration) :
    (quit waiter g).waiter.id = g.waiter.id := by
  unfold quit
  split <;> rfl

/-- Nobody waits for another order for having given up. -/
@[simp] theorem reference_quit (waiter : Nat) (g : Registration) :
    (quit waiter g).reference = g.reference := by
  unfold quit
  split <;> rfl

/-- A waiter who gives up is marked under his order. -/
theorem quit_mk (waiter : Nat) (w : Waiter) (r : String) :
    (⟨if w.id = waiter then { w with live := false } else w, r⟩ : Registration) =
      quit waiter ⟨w, r⟩ := by
  unfold quit
  split <;> rfl

/-- A waiter who gives up is marked where he stands in the table. -/
theorem held_giveUp (p : Poller) (waiter : Nat) :
    (p.giveUp waiter).held = p.held.map (quit waiter) := by
  simp [giveUp, held, heldIn, List.map_flatMap, List.flatMap_map, Function.comp_def, quit_mk]

/-- What a waiter's giving up leaves pending: his registration is dropped where it waits for room,
and marked elsewhere. -/
theorem pending_giveUp (p : Poller) (waiter : Nat) :
    (p.giveUp waiter).pending = p.blocked.filter (·.waiter.id ≠ waiter) ++
      (p.queue ++ p.held).map (quit waiter) := by
  have hqueue : (p.giveUp waiter).queue = p.queue.map (quit waiter) :=
    List.map_congr_left fun g _ => quit_mk waiter g.waiter g.reference
  rw [pending, hqueue, held_giveUp, List.append_assoc, ← List.map_append]
  rfl

/-- A waiter's giving up keeps the poller sound. -/
theorem sound_giveUp (hp : Sound p) (waiter : Nat) : Sound (p.giveUp waiter) := by
  have horders : (p.giveUp waiter).orders = p.orders := by
    simp [orders, giveUp, List.map_map, Function.comp_def]
  refine ⟨horders ▸ hp.orders_nodup, hp.seen_nodup, horders ▸ hp.apart, hp.final, fun hstop => ?_⟩
  have hnone : p.blocked = [] ∧ p.queue ++ p.held = [] := by
    have hpending := hp.stopped hstop
    rw [pending, List.append_assoc] at hpending
    exact List.append_eq_nil_iff.1 hpending
  rw [pending_giveUp, hnone.1, hnone.2]
  rfl

/-- **A step of a poller.** What is pending, with whoever comes to wait, settles into what is
pending afterwards; `Told` says what anybody is told. A waiter's giving up is no such step. -/
theorem moves_of_step (hp : Sound p) {e : Event} {p' : Poller} {effects : List Effect}
    (hstep : machine now p e = some (p', effects)) (hstays : ∀ w, e ≠ .giveUp w) :
    Moves (Told p e) (p.pending ++ e.newcomers) p' (answersOf effects) := by
  cases does_of_step hstep with
  | giveUp w => exact absurd rfl (hstays w)
  | register w r => exact moves_register hp w r
  | shutdown =>
    simp only [Event.newcomers, List.append_nil]
    exact ⟨⟨hp.orders_nodup, hp.seen_nodup, hp.apart, hp.final, hp.stopped⟩, .refl⟩
  | @move m hm =>
    simp only [Event.newcomers, List.append_nil]
    cases m with
    | stop => exact moves_stop hp
    | accept => exact moves_acceptNext hp (goes_of_mem_moves hm)
    | round => exact moves_startRound hp now _
  | toldOne answer hphase =>
    simp only [Event.newcomers, List.append_nil]
    exact moves_answeredOne hp hphase answer
  | toldAll answer hphase =>
    simp only [Event.newcomers, List.append_nil]
    exact moves_answeredAll hp hphase answer
  | @relist waiting hperm =>
    simp only [Event.newcomers, List.append_nil]
    have horders : (waiting.map (·.1)).Perm p.orders := hperm.map _
    have hpending : p.pending.Perm ({ p with waiting } : Poller).pending :=
      (hperm.symm.flatMap_right _).append_left _
    refine ⟨⟨horders.nodup_iff.2 hp.orders_nodup, hp.seen_nodup,
      fun s hs hmem => hp.apart s hs (horders.mem_iff.1 hmem), hp.final, fun hstop => ?_⟩,
      .of_perm hpending⟩
    have hnone := hp.stopped hstop
    rw [hnone] at hpending
    exact hpending.nil_eq.symm

/-- Every step keeps a poller sound. -/
theorem sound_of_step (hp : Sound p) {e : Event} {p' : Poller} {effects : List Effect}
    (hstep : machine now p e = some (p', effects)) : Sound p' := by
  by_cases hgive : ∃ w, e = .giveUp w
  · obtain ⟨w, rfl⟩ := hgive
    cases does_of_step hstep
    exact sound_giveUp hp w
  · exact (moves_of_step hp hstep fun w heq => hgive ⟨w, heq⟩).sound

/-- Whoever is pending after somebody has given up was pending before, for the same order. Only that
one has given up since. -/
theorem mem_pending_giveUp {w : Nat} {g : Registration} (hg : g ∈ (p.giveUp w).pending) :
    ∃ g₀ ∈ p.pending, g.waiter.id = g₀.waiter.id ∧ g.reference = g₀.reference ∧
      (g.waiter.live = false → g₀.waiter.live = false ∨ g₀.waiter.id = w) := by
  rw [pending_giveUp] at hg
  rcases List.mem_append.1 hg with hg | hg
  · exact ⟨g, by simp [pending, (List.mem_filter.1 hg).1], rfl, rfl, .inl⟩
  · obtain ⟨g₀, hg₀, rfl⟩ := List.mem_map.1 hg
    refine ⟨g₀, by simpa [pending, List.append_assoc] using List.mem_append_right _ hg₀,
      id_quit w g₀, reference_quit w g₀, fun hdead => ?_⟩
    by_cases hw : g₀.waiter.id = w
    · exact .inr hw
    · rw [quit, if_neg hw] at hdead
      exact .inl hdead

/-- Whoever is pending was pending before the step, or comes with it, for the same order. -/
theorem pending_of_step (hp : Sound p) {e : Event} {p' : Poller} {effects : List Effect}
    (hstep : machine now p e = some (p', effects)) {g : Registration} (hg : g ∈ p'.pending) :
    ∃ g₀ ∈ p.pending ++ e.newcomers,
      g.waiter.id = g₀.waiter.id ∧ g.reference = g₀.reference := by
  by_cases hgive : ∃ w, e = .giveUp w
  · obtain ⟨w, rfl⟩ := hgive
    cases does_of_step hstep
    obtain ⟨g₀, hg₀, hid, href, -⟩ := mem_pending_giveUp hg
    exact ⟨g₀, List.mem_append_left _ hg₀, hid, href⟩
  · have hsettles := (moves_of_step hp hstep fun w heq => hgive ⟨w, heq⟩).settles
    exact ⟨g, hsettles.mem_before hg, rfl, rfl⟩

end

end OrderBroker.Freja.Poller
