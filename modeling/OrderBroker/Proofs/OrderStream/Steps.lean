import OrderBroker.Http.OrderStream
import OrderBroker.Proofs.Run
import Mathlib.Logic.Basic

/-!
# Steps of an order stream

Everything that can happen to an order stream, as a machine: BankID answers, the stream moves by
itself, the client reads a chunk or leaves. Of the moves that a stream may make any is made, at any
time, so that the runs of the machine hold every schedule, every delay of an answer and every pace
of the client.

`does_of_step` says once what a step of a stream can be, and when.
-/

namespace OrderBroker.Http.OrderStream

open BankId (StartedOrder Change Watch Progress)

/-! ## The machine -/

/-- What happens to a stream. -/
inductive Event where
  /-- BankID answers the question asked. -/
  | answered (answer : Change)
  /-- The stream moves by itself. -/
  | moved (m : Move)
  /-- The client reads a chunk. -/
  | read
  /-- The client leaves. -/
  | left

/-- A stream as it begins. One whose client has left before is over and says nothing. -/
def opened (left : Bool) (order : StartedOrder) (period pollInterval : Nat)
    (format : Stream.Format) : OrderStream :=
  let s := start order period pollInterval format
  if left then { s with phase := .over, clientLeft := true, body := [] } else s

/-- BankID is asked and has not answered yet. -/
def asks (s : OrderStream) : Bool :=
  match s.phase, s.watch.map (·.phase) with
  | .starting, _ => true
  | _, some Watch.Phase.asking => true
  | _, _ => false

/-- What becomes of a stream. It moves when it may, and takes the answer that it waits for. -/
def step (now : Nat) (s : OrderStream) : Event → Option OrderStream
  | .answered answer => if s.asks then some (s.answered now answer) else none
  | .moved m => if m ∈ s.moves now then some (s.make now m).1 else none
  | .read => s.take.map (·.2)
  | .left => if s.clientLeft then none else some s.leave

/-- The chunks that were put into the body between two states. -/
def added (s s' : OrderStream) : List String := s'.body.drop s.body.length

/-- A stream as a machine. Its effects are the chunks that it puts into the body. -/
def machine : Machine OrderStream Event String := fun now s e =>
  (s.step now e).map fun s' => (s', s.added s')

/-- What has happened to a stream. -/
abbrev History : Type := List (Transition OrderStream Event String)

/-- `Runs t₀ s₀ h now s`: a stream that is `s₀` at the time `t₀` comes by the history `h` to `s`. -/
abbrev Runs (t₀ : Nat) (s₀ : OrderStream) (h : History) (now : Nat) (s : OrderStream) : Prop :=
  Run machine (fun _ _ => True) t₀ s₀ h now s

/-- The progress that BankID tells where something happens to a stream. -/
def Event.told? : Event → Option Progress
  | .answered answer => answer.toOption
  | _ => none

/-- The progress that the watch delivers where something happens to a stream. -/
def Event.delivered? (s : OrderStream) : Event → Option Progress
  | .moved .change => (s.watch.bind Watch.take).bind fun taken => taken.1.toOption
  | _ => none

/-- The progress that BankID has told, in order. -/
def observed (h : History) : List Progress := h.filterMap (·.event.told?)

/-- The progress that the watch has delivered, in order. -/
def delivered (h : History) : List Progress := h.filterMap fun tr => tr.event.delivered? tr.before

/-- What is told in one more step. -/
theorem observed_snoc {h : History} {tr : Transition OrderStream Event String} :
    observed (h ++ [tr]) = observed h ++ tr.event.told?.toList := by
  rw [observed, List.filterMap_append]
  cases htold : tr.event.told? <;> simp [observed, htold]

/-- What is delivered in one more step. -/
theorem delivered_snoc {h : History} {tr : Transition OrderStream Event String} :
    delivered (h ++ [tr]) = delivered h ++ (tr.event.delivered? tr.before).toList := by
  rw [delivered, List.filterMap_append]
  cases hdelivered : tr.event.delivered? tr.before <;> simp [delivered, hdelivered]

/-! ## What a step can be -/

/-- What a step of a stream can be, and when. -/
inductive Does (now : Nat) (s : OrderStream) : Event → OrderStream → Prop
  /-- The first question fails. -/
  | refused {failure : Failure} : s.phase = .starting →
      Does now s (.answered (.error failure)) (s.passOn now (.error failure))
  /-- The first question shows the order. -/
  | found {p : Progress} : s.phase = .starting →
      Does now s (.answered (.ok p))
        { s with
          phase := .following, began := now
          watch := some (Watch.start now s.pollInterval p false) }
  /-- The watch is answered. -/
  | told {answer : Change} {w : Watch} :
      s.phase ≠ .starting → s.watch = some w → w.phase = .asking →
      Does now s (.answered answer) { s with watch := some (w.answered now answer) }
  /-- The client's leaving is noticed. -/
  | noticed : s.phase ≠ .over → s.clientLeft = true → Does now s (.moved .leave) (s.finish now)
  /-- A change is passed on. -/
  | passed {w w' : Watch} {item : Change} :
      s.phase = .following → s.watch = some w → w.take = some (item, w') →
      Does now s (.moved .change) ({ s with watch := some w' }.passOn now item)
  /-- The watch is at its end. -/
  | exhausted : s.phase = .following → s.watch.bind Watch.take = none →
      (∀ w, s.watch = some w → w.isClosed = true) → Does now s (.moved .change) (s.finish now)
  /-- A tick is due. -/
  | ticked : s.phase = .following → s.deadline ≤ now → Does now s (.moved .tick) (s.onTick now)
  /-- The chunk that waits finds room. -/
  | put {chunk : String} {next : Next} :
      s.phase = .sending chunk next → s.clientLeft = false → s.body.length < bodySlots →
      Does now s (.moved .room) ({ s with body := s.body ++ [chunk] }.goOn now next)
  /-- The watch moves. -/
  | watched {w w' : Watch} {asks : Bool} :
      s.watch = some w → w.advance now = some (w', asks) →
      Does now s (.moved .watch) { s with watch := some w' }
  /-- The client reads a chunk. -/
  | read {chunk : String} {rest : List String} :
      s.body = chunk :: rest → Does now s .read { s with body := rest }
  /-- The client leaves. -/
  | left : s.clientLeft = false → Does now s .left s.leave

section
variable {now : Nat} {s s' : OrderStream} {m : Move} {answer : Change}

/-- The moves of a stream that follows its order. -/
theorem following_of_mem_moves (hm : m ∈ s.moves now) (hwatch : m ≠ .watch)
    (hphase : s.phase = .following) :
    m = .leave ∧ s.clientLeft = true ∨ m = .change ∧ s.hasChange = true ∨
      m = .tick ∧ s.deadline ≤ now := by
  simp only [moves, hphase, List.mem_append, List.mem_ite_nil_right, List.mem_singleton] at hm
  rcases hm with ((⟨hleft, rfl⟩ | ⟨hchange, rfl⟩) | ⟨hdue, rfl⟩) | ⟨-, rfl⟩
  · exact .inl ⟨rfl, hleft⟩
  · exact .inr (.inl ⟨rfl, hchange⟩)
  · exact .inr (.inr ⟨rfl, hdue⟩)
  · exact absurd rfl hwatch

/-- The moves of a stream with a chunk that waits. -/
theorem sending_of_mem_moves {chunk : String} {next : Next} (hm : m ∈ s.moves now)
    (hwatch : m ≠ .watch) (hphase : s.phase = .sending chunk next) :
    m = .leave ∧ s.clientLeft = true ∨
      m = .room ∧ s.clientLeft = false ∧ s.body.length < bodySlots := by
  simp only [moves, hphase, List.mem_append] at hm
  rcases hm with hm | hm
  · split at hm
    · next hleft =>
      rw [List.mem_singleton] at hm
      exact .inl ⟨hm, hleft⟩
    · next hleft =>
      rw [List.mem_ite_nil_right, List.mem_singleton] at hm
      exact .inr ⟨hm.2, Bool.eq_false_iff.2 hleft, hm.1⟩
  · rw [List.mem_ite_nil_right, List.mem_singleton] at hm
    exact absurd hm.2 hwatch

/-- A stream that has not begun or is over makes no move but its watch's. -/
theorem watch_of_mem_moves (hm : m ∈ s.moves now)
    (hphase : s.phase = .starting ∨ s.phase = .over) : m = .watch := by
  have hwatch : m ∈ if (s.watch.bind (Watch.advance now)).isSome then [Move.watch] else [] := by
    rcases hphase with hphase | hphase <;> simpa [moves, hphase] using hm
  rw [List.mem_ite_nil_right, List.mem_singleton] at hwatch
  exact hwatch.2

/-- The watch moves if it can. -/
theorem does_watch (hm : Move.watch ∈ s.moves now) :
    Does now s (.moved .watch) (s.make now .watch).1 := by
  have hsome : (s.watch.bind (Watch.advance now)).isSome = true := by
    cases hphase : s.phase with
    | sending chunk next =>
      cases hleft : s.clientLeft <;> simpa [moves, hphase, hleft] using hm
    | _ => simpa [moves, hphase] using hm
  obtain ⟨⟨w', asks⟩, hbind⟩ := Option.isSome_iff_exists.1 hsome
  obtain ⟨w, hw, hadvance⟩ := Option.bind_eq_some_iff.1 hbind
  simp only [make, hbind]
  exact .watched hw hadvance

/-- A change is passed on, or the watch is at its end. -/
theorem does_change (hphase : s.phase = .following) (hchange : s.hasChange = true) :
    Does now s (.moved .change) (s.onChange now) := by
  cases htake : s.watch.bind Watch.take with
  | none =>
    simp only [onChange, htake]
    refine .exhausted hphase htake fun w hw => ?_
    rw [hw, Option.bind_some] at htake
    simpa [hasChange, hw, htake] using hchange
  | some taken =>
    obtain ⟨w, hw, htaken⟩ := Option.bind_eq_some_iff.1 htake
    simp only [onChange, htake]
    exact .passed hphase hw htaken

/-- What a move can be. -/
theorem does_move (hm : m ∈ s.moves now) : Does now s (.moved m) (s.make now m).1 := by
  rcases eq_or_ne m .watch with rfl | hwatch
  · exact does_watch hm
  · cases hphase : s.phase with
    | starting => exact absurd (watch_of_mem_moves hm (.inl hphase)) hwatch
    | following =>
      rcases following_of_mem_moves hm hwatch hphase with
        ⟨rfl, hleft⟩ | ⟨rfl, hchange⟩ | ⟨rfl, hdue⟩
      · exact .noticed (by simp [hphase]) hleft
      · exact does_change hphase hchange
      · exact .ticked hphase hdue
    | sending chunk next =>
      rcases sending_of_mem_moves hm hwatch hphase with ⟨rfl, hleft⟩ | ⟨rfl, hstays, hroom⟩
      · exact .noticed (by simp [hphase]) hleft
      · simp only [make, onRoom, hphase]
        exact .put hphase hstays hroom
    | _ => exact absurd (watch_of_mem_moves hm (.inr hphase)) hwatch

/-- What an answer can be. -/
theorem does_answer (hasks : s.asks = true) :
    Does now s (.answered answer) (s.answered now answer) := by
  unfold asks at hasks
  split at hasks
  · next hphase =>
    cases answer with
    | error failure =>
      simp only [answered, hphase]
      exact .refused hphase
    | ok p =>
      simp only [answered, hphase]
      exact .found hphase
  · next hasking hstarted =>
    obtain ⟨w, hw, hphase⟩ := Option.map_eq_some_iff.1 hasking
    have heq : s.answered now answer = { s with watch := some (w.answered now answer) } := by
      unfold answered
      split
      · next _ hstarting => exact absurd hstarting hstarted
      · next _ hstarting => exact absurd hstarting hstarted
      · rw [hw, Option.map_some]
    rw [heq]
    exact .told hstarted hw hphase
  · cases hasks

/-- **A step of a stream** is one of these. -/
theorem does_of_step {e : Event} (hstep : s.step now e = some s') : Does now s e s' := by
  cases e with
  | answered answer =>
    simp only [step, Option.ite_none_right_eq_some, Option.some.injEq] at hstep
    obtain ⟨hasks, rfl⟩ := hstep
    exact does_answer hasks
  | moved m =>
    simp only [step, Option.ite_none_right_eq_some, Option.some.injEq] at hstep
    obtain ⟨hm, rfl⟩ := hstep
    exact does_move hm
  | read =>
    simp only [step, take] at hstep
    split at hstep
    · next chunk rest hbody =>
      obtain rfl := Option.some.inj hstep
      exact .read hbody
    · cases hstep
  | left =>
    simp only [step, Option.ite_none_left_eq_some, Option.some.injEq] at hstep
    obtain ⟨hstays, rfl⟩ := hstep
    exact .left (Bool.eq_false_iff.2 hstays)

end

end OrderBroker.Http.OrderStream
