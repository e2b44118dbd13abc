import OrderBroker.Proofs.BankId.Handover
import OrderBroker.Proofs.OrderStream.Keeping

/-!
# Streams that have ended

A stream that ends tells its watch to stop and takes nothing from it any more. Wherever that finds
the watch, it does not ask again: a rest is over at once, an item that waits for the slot is lost,
and a question that is in flight is its last (`Watch.Quiet`). So the watch of a stream that has
ended is quiet (`quietAtEnd_of_does`), and once its last question is answered only the client does
something (`Silent.remains`).
-/

namespace OrderBroker.BankId.Watch

/-- Told to stop while nobody takes items any more, and so without a rest ahead. -/
structure Quiet (w : Watch) : Prop where
  stopped : w.stopped = true
  unread : w.unread = true
  restless : ∀ due, w.phase ≠ .resting due

section
variable {w w' : Watch} {item answer : Change} {now : Nat} {asks : Bool}

/-- A watch that is not read and told to stop is quiet, wherever it stands. -/
theorem quiet_stop_abandon (now : Nat) (w : Watch) : Quiet (w.abandon.stop now) := by
  obtain ⟨hstopped, hunread⟩ := stop_marks now w.abandon
  refine ⟨hstopped, hunread, fun due hrests => ?_⟩
  cases hphase : w.phase with
  | resting _ => simp [stop, abandon, close, hphase] at hrests
  | _ => simp [stop, abandon, hphase] at hrests

/-- Such a watch is over after any item. -/
theorem phase_goOn_of_marks (hstopped : w.stopped = true) (hunread : w.unread = true) :
    (w.goOn now item).phase = .over := by
  cases item with
  | error failure => rfl
  | ok p =>
    by_cases hpending : p.status = .pending
    · simp [goOn, hpending, hstopped, close, hunread]
    · simp [goOn, hpending]

/-- So it is after an item that it hands over. -/
theorem phase_offer_of_marks (hstopped : w.stopped = true) (hunread : w.unread = true) :
    (w.offer now item).phase = .over := by
  rw [offer, if_pos hunread]
  exact phase_goOn_of_marks hstopped hunread

/-- The answer to its question is the end of a quiet watch. -/
theorem Quiet.over_of_answered (h : Quiet w) (hasks : w.phase = .asking) :
    (w.answered now answer).phase = .over := by
  cases answer with
  | error failure => simp [answered, hasks, close, h.unread]
  | ok p =>
    simp only [answered, hasks]
    split
    · exact phase_offer_of_marks h.stopped h.unread
    · exact phase_goOn_of_marks h.stopped h.unread

/-- If a quiet watch moves, that is its end, and it does not ask. -/
theorem Quiet.over_of_advance (h : Quiet w) (hadvance : w.advance now = some (w', asks)) :
    w'.phase = .over ∧ asks = false := by
  cases hphase : w.phase with
  | resting due => exact absurd hphase (h.restless due)
  | offering item deadline =>
    simp only [advance, hphase, h.unread, if_true, Option.some.injEq, Prod.mk.injEq] at hadvance
    obtain ⟨rfl, rfl⟩ := hadvance
    exact ⟨phase_goOn_of_marks h.stopped h.unread, rfl⟩
  | _ => simp [advance, hphase] at hadvance

/-- A quiet watch that is answered stays quiet. -/
theorem Quiet.answered (h : Quiet w) (hasks : w.phase = .asking) :
    Quiet (w.answered now answer) := by
  obtain ⟨hstopped, hunread⟩ := answered_marks now w answer
  exact ⟨hstopped.trans h.stopped, hunread.trans h.unread,
    fun due => by rw [h.over_of_answered hasks]; exact Phase.noConfusion⟩

/-- A quiet watch that moves stays quiet. -/
theorem Quiet.advance (h : Quiet w) (hadvance : w.advance now = some (w', asks)) : Quiet w' := by
  obtain ⟨hstopped, hunread⟩ := advance_marks hadvance
  exact ⟨hstopped.trans h.stopped, hunread.trans h.unread,
    fun due => by rw [(h.over_of_advance hadvance).1]; exact Phase.noConfusion⟩

end

end OrderBroker.BankId.Watch

namespace OrderBroker.Http.OrderStream

open BankId (Change Watch)

/-! ## The order of a stream -/

section
variable {now : Nat} {s s' : OrderStream} {e : Event}

theorem order_goOn (now : Nat) (s : OrderStream) (next : Next) :
    (s.goOn now next).order = s.order := by
  cases next with
  | nextTick =>
    simp only [goOn]
    split <;> rfl
  | _ => rfl

theorem order_event (now : Nat) (s : OrderStream) (name : String) (data : Json) (next : Next) :
    (s.event now name data next).order = s.order := by
  simp only [event, push]
  split
  · rfl
  · split
    · exact order_goOn now _ next
    · rfl

theorem order_passOn (now : Nat) (s : OrderStream) (item : Change) :
    (s.passOn now item).order = s.order := by
  cases item with
  | error failure => exact order_event now s _ _ _
  | ok p => exact order_event now _ _ _ _

theorem order_onTick (now : Nat) (s : OrderStream) : (s.onTick now).order = s.order := by
  unfold onTick
  split
  · exact order_event now s _ _ _
  · exact order_goOn now s _

/-- A stream stays with its order. -/
theorem order_of_does (hdoes : Does now s e s') : s'.order = s.order := by
  cases hdoes with
  | refused _ => exact order_passOn now s _
  | passed _ _ _ => exact order_passOn now _ _
  | ticked _ _ => exact order_onTick now s
  | put _ _ _ => exact order_goOn now _ _
  | _ => rfl

end

/-! ## The end of a stream -/

/-- The watch of a stream is quiet once the stream is over. -/
def QuietAtEnd (s : OrderStream) : Prop :=
  s.phase = .over → ∀ w, s.watch = some w → w.Quiet

/-- The stream is over and so is its watch. -/
def Silent (s : OrderStream) : Prop := s.phase = .over ∧ ∀ w, s.watch = some w → w.phase = .over

section
variable {now : Nat} {s s' : OrderStream} {e : Event}

/-- What a stream is led to has a quiet watch if that is its end. -/
theorem quietAtEnd_of_leads (h : Leads now s s') : QuietAtEnd s' := by
  intro hover w hw
  cases h with
  | follows hphase _ => simp [hphase] at hover
  | waits hphase _ => simp [hphase] at hover
  | ends _ hwatch =>
    rw [hwatch] at hw
    obtain ⟨w₀, -, rfl⟩ := Option.map_eq_some_iff.1 hw
    exact Watch.quiet_stop_abandon now w₀

/-- **A step** leaves the watch of a stream quiet if the stream is over. -/
theorem quietAtEnd_of_does (h : QuietAtEnd s) (hdoes : Does now s e s') : QuietAtEnd s' := by
  cases hdoes with
  | refused _ => exact quietAtEnd_of_leads (leads_passOn now s _)
  | found _ =>
    rintro ⟨⟩
  | told _ hw hasks =>
    rintro hover _ ⟨⟩
    exact (h hover _ hw).answered hasks
  | noticed _ _ => exact quietAtEnd_of_leads (.ends rfl rfl)
  | passed _ _ _ => exact quietAtEnd_of_leads (leads_passOn now _ _)
  | exhausted _ _ _ => exact quietAtEnd_of_leads (.ends rfl rfl)
  | ticked _ _ => exact quietAtEnd_of_leads (leads_onTick now s)
  | put _ _ _ => exact quietAtEnd_of_leads (leads_goOn now _ _)
  | watched hw hadvance =>
    rintro hover _ ⟨⟩
    exact (h hover _ hw).advance hadvance
  | read _ => exact h
  | left _ => exact h

/-- What can still happen to a stream that is over. -/
inductive Remains (now : Nat) (s : OrderStream) : Event → OrderStream → Prop
  /-- The question in flight is answered. -/
  | told {answer : Change} {w : Watch} : s.watch = some w → w.phase = .asking →
      Remains now s (.answered answer) { s with watch := some (w.answered now answer) }
  /-- The watch moves. -/
  | watched {w w' : Watch} {asks : Bool} : s.watch = some w → w.advance now = some (w', asks) →
      Remains now s (.moved .watch) { s with watch := some w' }
  /-- The client reads a chunk. -/
  | read {rest : List String} : Remains now s .read { s with body := rest }
  /-- The client leaves. -/
  | left : Remains now s .left s.leave

/-- What happens to a stream that is over is one of these. -/
theorem remains_of_does (hover : s.phase = .over) (hdoes : Does now s e s') :
    Remains now s e s' := by
  cases hdoes with
  | refused hphase => simp [hphase] at hover
  | found hphase => simp [hphase] at hover
  | told _ hw hasks => exact .told hw hasks
  | noticed hphase _ => exact absurd hover hphase
  | passed hphase _ _ => simp [hphase] at hover
  | exhausted hphase _ _ => simp [hphase] at hover
  | ticked hphase _ => simp [hphase] at hover
  | put hphase _ _ => simp [hphase] at hover
  | watched hw hadvance => exact .watched hw hadvance
  | read _ => exact .read
  | left _ => exact .left

/-- A stream that is over stays so. -/
theorem Remains.phase_eq (h : Remains now s e s') : s'.phase = s.phase := by
  cases h <;> rfl

/-- The watch of a stream that is over is over itself after the answer to its question. -/
theorem silent_of_answered {answer : Change} (hquiet : QuietAtEnd s) (hover : s.phase = .over)
    (h : Remains now s (.answered answer) s') : Silent s' := by
  cases h with
  | told hw hasks =>
    refine ⟨hover, ?_⟩
    rintro _ ⟨⟩
    exact (hquiet hover _ hw).over_of_answered hasks

/-- To a stream that is over with its watch only the client does something. -/
theorem Silent.remains (hsilent : Silent s) (h : Remains now s e s') :
    Silent s' ∧ (e = .read ∨ e = .left) := by
  obtain ⟨hover, hwatch⟩ := hsilent
  cases h with
  | told hw hasks => simp [hwatch _ hw] at hasks
  | watched hw hadvance => simp [Watch.advance, hwatch _ hw] at hadvance
  | read => exact ⟨⟨hover, hwatch⟩, .inl rfl⟩
  | left => exact ⟨⟨hover, hwatch⟩, .inr rfl⟩

end

end OrderBroker.Http.OrderStream
