import OrderBroker.Proofs.BankId.Watch
import OrderBroker.Proofs.OrderStream.Grammar

/-!
# The words of an order stream

Every chunk of a stream is a code, a status or an error, and an error is worded for a failure that
the watch handed over or that its first question met. So if those failures are all of some kind, so
are the failures that the client is told (`Within`), whatever happens to the stream.

For a watch this is a matter of its queue: nothing comes into it but answers, and that the watch was
told to stop.
-/

namespace OrderBroker

/-! ## Watches -/

namespace BankId.Watch

section
variable {now : Nat} {w w' : Watch} {item answer : Change}

/-- The item in the slot is the first of the queue. -/
theorem slot_subset (l : List Change) : w.slot.toList ++ l ⊆ w.queue ++ l := by
  simp [queue]

/-- Only the slot of a watch that offers nothing holds an item. -/
theorem queue_of_silent (hsilent : ∀ item deadline, w.phase ≠ .offering item deadline) :
    w.queue = w.slot.toList := by
  have hnone : w.waiting? = none := by
    unfold waiting?
    split
    · next hphase => exact absurd hphase (hsilent _ _)
    · rfl
  rw [queue, hnone, Option.toList_none, List.append_nil]

/-- A last item comes into the queue. -/
theorem queue_close : (w.close now answer).queue ⊆ w.slot.toList ++ [answer] := by
  unfold close
  split
  · simp [queue, waiting?]
  · split <;> simp [queue, waiting?, *]

/-- A watch that goes on has been told to stop, if anything comes into the queue. -/
theorem queue_goOn : (w.goOn now answer).queue ⊆ w.slot.toList ++ [stoppedItem] := by
  have hsame (phase : Phase) (hsilent : ∀ item deadline, phase ≠ .offering item deadline) :
      ({ w with phase } : Watch).queue ⊆ w.slot.toList ++ [stoppedItem] := by
    rw [queue_of_silent hsilent]
    exact List.subset_append_left _ _
  unfold goOn
  split
  · exact hsame .over nofun
  · split
    · split
      · exact queue_close
      · exact hsame (.resting _) nofun
    · exact hsame .over nofun

/-- An item that is offered comes into the queue. -/
theorem queue_offer : (w.offer now answer).queue ⊆ w.queue ++ [answer, stoppedItem] := by
  unfold offer
  split
  · refine List.Subset.trans queue_goOn (List.Subset.trans (slot_subset _) ?_)
    simp
  · split
    · exact List.Subset.trans queue_goOn (by simp)
    · simp [queue, waiting?]

/-- A watch starts with the answer to its first question. -/
theorem queue_start {interval : Nat} {p : Progress} {stopped : Bool} :
    (Watch.start now interval p stopped).queue ⊆ [.ok p, stoppedItem] :=
  List.Subset.trans queue_offer (by simp [queue, waiting?])

/-- An answer comes into the queue, if anything does. -/
theorem queue_answered : (w.answered now answer).queue ⊆ w.queue ++ [answer, stoppedItem] := by
  unfold answered
  split
  · refine List.Subset.trans queue_close (List.Subset.trans (slot_subset _) ?_)
    simp
  · split
    · exact queue_offer
    · refine List.Subset.trans queue_goOn (List.Subset.trans (slot_subset _) ?_)
      simp
  · exact List.subset_append_left _ _

/-- A watch that moves by itself hands over what waits. -/
theorem queue_advance {asks : Bool} (hstep : w.advance now = some (w', asks)) :
    w'.queue ⊆ w.queue ++ [stoppedItem] := by
  have hgoesOn (item : Change) : (w.goOn now item).queue ⊆ w.queue ++ [stoppedItem] :=
    List.Subset.trans queue_goOn (slot_subset _)
  unfold advance at hstep
  split at hstep
  · split at hstep
    · obtain ⟨rfl, -⟩ := Prod.mk.inj (Option.some.inj hstep)
      simp [queue, waiting?]
    · cases hstep
  · next first deadline hphase =>
    have hwaiting : first ∈ w.queue := by simp [queue, waiting?, hphase]
    split at hstep
    · obtain ⟨rfl, -⟩ := Prod.mk.inj (Option.some.inj hstep)
      exact hgoesOn first
    · split at hstep
      · obtain ⟨rfl, -⟩ := Prod.mk.inj (Option.some.inj hstep)
        refine List.Subset.trans queue_goOn ?_
        simp [hwaiting]
      · split at hstep
        · obtain ⟨rfl, -⟩ := Prod.mk.inj (Option.some.inj hstep)
          exact hgoesOn first
        · cases hstep
  · cases hstep

/-- What is taken stood in the queue, and the rest stays there. -/
theorem queue_take (htake : w.take = some (item, w')) : item ∈ w.queue ∧ w'.queue ⊆ w.queue := by
  obtain ⟨first, hslot, heq⟩ := Option.map_eq_some_iff.1 htake
  obtain ⟨rfl, rfl⟩ := Prod.mk.inj heq
  exact ⟨by simp [queue, hslot], by simp [queue, waiting?]⟩

/-- A watch that is told to stop hands that over, if anything. -/
theorem queue_stop : (w.stop now).queue ⊆ w.queue ++ [stoppedItem] := by
  unfold stop
  split
  · exact List.Subset.trans queue_close (slot_subset _)
  · exact List.subset_append_left _ _

/-- Nothing comes into the queue of a watch that is not read any more. -/
theorem queue_abandon : w.abandon.queue ⊆ w.queue := by
  simp [abandon, queue, waiting?]

end

end BankId.Watch

/-! ## Streams -/

namespace Http.OrderStream

open BankId (StartedOrder Change Watch Progress)

/-- The chunk of an event, where an error is worded for one of the failures `said`. -/
def Worded (said : Failure → Prop) (chunk : String) : Prop :=
  ∃ (e : Stream.Encoder) (order : StartedOrder) (x : Said),
    chunk = (e.event x.name (x.data order)).1 ∧ ∀ failure, x = .error failure → said failure

/-- The chunk that waits for room in the body. -/
def waiting? (s : OrderStream) : Option String :=
  match s.phase with
  | .sending chunk _ => some chunk
  | _ => none

/-- The chunks that the client has not read yet. -/
def texts (s : OrderStream) : List String := s.body ++ s.waiting?.toList

/-- The stream has no words but these, and its watch no failures. -/
structure Within (said : Failure → Prop) (s : OrderStream) : Prop where
  words : ∀ chunk ∈ s.texts, Worded said chunk
  watch : ∀ w, s.watch = some w → ∀ failure, .error failure ∈ w.queue → said failure

section
variable {said : Failure → Prop} {s : OrderStream} {now : Nat} {chunk : String} {next : Next}
  {x : Said}

/-- Other fields do not matter. -/
theorem Within.of_same {s' : OrderStream} (h : s.Within said) (htexts : s'.texts = s.texts)
    (hwatch : s'.watch = s.watch) : s'.Within said :=
  ⟨htexts ▸ h.words, hwatch ▸ h.watch⟩

/-- What stands in the body is among the words. -/
theorem Within.body (h : s.Within said) : ∀ chunk ∈ s.body, Worded said chunk :=
  fun chunk hchunk => h.words chunk (List.mem_append_left _ hchunk)

/-- A stream in which no chunk waits has the words of its body. -/
theorem Within.of_body (hbody : ∀ chunk ∈ s.body, Worded said chunk) (hwaiting : s.waiting? = none)
    (hwatch : ∀ w, s.watch = some w → ∀ failure, .error failure ∈ w.queue → said failure) :
    s.Within said :=
  ⟨by simpa [texts, hwaiting] using hbody, hwatch⟩

/-- Another watch, in whose queue there are only these failures. -/
theorem Within.watched (h : s.Within said) {w : Watch}
    (hwatch : ∀ failure, .error failure ∈ w.queue → said failure) :
    ({ s with watch := some w } : OrderStream).Within said :=
  ⟨h.words, fun _ hw => Option.some.inj hw ▸ hwatch⟩

section
variable (hstop : said (.at .bankId .cancelled))
include hstop

/-- The word to stop is one of the failures. -/
theorem said_of_stopped {failure : Failure} (h : .error failure = Watch.stoppedItem) :
    said failure := by
  rw [show failure = .at .bankId .cancelled from Except.error.inj h]
  exact hstop

/-- A stream that ends stops its watch. -/
theorem Within.finish (h : s.Within said) : (s.finish now).Within said := by
  refine .of_body h.body rfl fun w hw failure hfailure => ?_
  obtain ⟨w', hw', rfl⟩ := Option.map_eq_some_iff.1 hw
  rcases List.mem_append.1 (Watch.queue_stop hfailure) with hold | hlast
  · exact h.watch w' hw' failure (Watch.queue_abandon hold)
  · exact said_of_stopped hstop (List.mem_singleton.1 hlast)

/-- Going on writes nothing. -/
theorem Within.goOn (h : s.Within said) : (s.goOn now next).Within said := by
  cases next with
  | follow => exact .of_body h.body rfl h.watch
  | nextTick =>
    rw [OrderStream.goOn]
    split
    · exact .of_body h.body rfl h.watch
    · exact h.finish hstop
  | finish => exact h.finish hstop

/-- A chunk that is sent is one more of the words. -/
theorem Within.push (h : s.Within said) (hchunk : Worded said chunk) :
    (s.push now chunk next).Within said := by
  have hbody : ∀ text ∈ s.body ++ [chunk], Worded said text := by
    intro text htext
    rcases List.mem_append.1 htext with htext | htext
    · exact h.body text htext
    · exact List.mem_singleton.1 htext ▸ hchunk
  unfold OrderStream.push
  split
  · exact h.finish hstop
  · split
    · refine Within.goOn hstop ⟨fun text htext => ?_, h.watch⟩
      rcases List.mem_append.1 htext with htext | htext
      · exact hbody text htext
      · exact h.words text (List.mem_append_right _ htext)
    · exact ⟨hbody, h.watch⟩

/-- So is an event. -/
theorem Within.event (h : s.Within said) (hx : ∀ failure, x = .error failure → said failure) :
    (s.event now x.name (x.data s.order) next).Within said := by
  have hsame : ({ s with encoder := (s.encoder.event x.name (x.data s.order)).2 } :
      OrderStream).Within said := h.of_same rfl rfl
  exact hsame.push hstop ⟨s.encoder, s.order, x, rfl, hx⟩

/-- A change that is passed on. -/
theorem Within.passOn {item : Change} (h : s.Within said)
    (hitem : ∀ failure, item = .error failure → said failure) :
    (s.passOn now item).Within said := by
  cases item with
  | error failure =>
    refine h.event (x := .error failure) hstop fun failure' heq => hitem failure' ?_
    rw [Said.error.inj heq]
  | ok p =>
    have hsame : ({ s with showsCode := s.showsCode && p.hintCode ≠ BankId.userSignHint } :
        OrderStream).Within said := h.of_same rfl rfl
    rw [passOn_status s.order]
    exact hsame.event hstop nofun

/-- A tick. -/
theorem Within.onTick (h : s.Within said) : (s.onTick now).Within said := by
  unfold OrderStream.onTick
  split
  · rw [code_eq rfl]
    exact h.event (x := .code s.tick) hstop nofun
  · exact h.goOn hstop

/-- A change that is taken. -/
theorem Within.onChange (h : s.Within said) : (s.onChange now).Within said := by
  unfold OrderStream.onChange
  split
  · next item w htake =>
    obtain ⟨w', hw', htake⟩ := Option.bind_eq_some_iff.1 htake
    obtain ⟨hitem, hrest⟩ := Watch.queue_take htake
    have hwatched : ({ s with watch := some w } : OrderStream).Within said :=
      h.watched fun failure hfailure => h.watch w' hw' failure (hrest hfailure)
    exact hwatched.passOn hstop fun failure heq => h.watch w' hw' failure (heq ▸ hitem)
  · exact h.finish hstop

/-- Room for the chunk that waits. -/
theorem Within.onRoom (h : s.Within said) : (s.onRoom now).Within said := by
  unfold OrderStream.onRoom
  split
  · next chunk next hphase =>
    have hput : ({ s with body := s.body ++ [chunk], phase := .following } :
        OrderStream).Within said := by
      refine .of_body (fun text htext => h.words text ?_) rfl h.watch
      simpa [texts, waiting?, hphase] using htext
    have hsame : ∀ next, ({ s with body := s.body ++ [chunk] } : OrderStream).goOn now next =
        ({ s with body := s.body ++ [chunk], phase := .following } : OrderStream).goOn now next := by
      intro next
      cases next <;> rfl
    rw [hsame]
    exact hput.goOn hstop
  · exact h

/-- **Every move** keeps to the words. -/
theorem Within.make (h : s.Within said) (m : Move) : (s.make now m).1.Within said := by
  cases m with
  | leave => exact h.finish hstop
  | change => exact h.onChange hstop
  | tick => exact h.onTick hstop
  | room => exact h.onRoom hstop
  | watch =>
    rw [OrderStream.make]
    split
    · next w asks hadvance =>
      obtain ⟨w', hw', hadvance⟩ := Option.bind_eq_some_iff.1 hadvance
      refine h.watched fun failure hfailure => ?_
      rcases List.mem_append.1 (Watch.queue_advance hadvance hfailure) with hold | hlast
      · exact h.watch w' hw' failure hold
      · exact said_of_stopped hstop (List.mem_singleton.1 hlast)
    · exact h

/-- So does the stream when it moves by itself. -/
theorem Within.advance {s' : OrderStream} {asks : Bool} (h : s.Within said)
    (hstep : s.advance now = some (s', asks)) : s'.Within said := by
  obtain ⟨m, -, heq⟩ := Option.map_eq_some_iff.1 hstep
  have hmade : (s.make now m).1.Within said := h.make hstop m
  rwa [heq] at hmade

/-- So does an answer. -/
theorem Within.answered {answer : Change} (h : s.Within said)
    (hanswer : ∀ failure, answer = .error failure → said failure) :
    (s.answered now answer).Within said := by
  unfold OrderStream.answered
  split
  · exact h.passOn hstop hanswer
  · refine .of_body h.body rfl fun w hw failure hfailure => ?_
    obtain rfl := Option.some.inj hw
    have hmem := Watch.queue_start hfailure
    simp only [List.mem_cons, reduceCtorEq, List.not_mem_nil, or_false, false_or] at hmem
    exact said_of_stopped hstop hmem
  · refine ⟨h.words, fun w hw failure hfailure => ?_⟩
    obtain ⟨w', hw', rfl⟩ := Option.map_eq_some_iff.1 hw
    have hmem := Watch.queue_answered hfailure
    simp only [List.mem_append, List.mem_cons, List.not_mem_nil, or_false] at hmem
    rcases hmem with hold | heq | hlast
    · exact h.watch w' hw' failure hold
    · exact hanswer failure heq.symm
    · exact said_of_stopped hstop hlast

end

/-- A stream starts with a code. -/
theorem Within.start (order : StartedOrder) (period pollInterval : Nat) (format : Stream.Format) :
    (OrderStream.start order period pollInterval format).Within said := by
  have hwatch : (OrderStream.start order period pollInterval format).watch = none := rfl
  refine .of_body (fun chunk hchunk => ?_) rfl (by simp [hwatch])
  rw [start_eq, List.mem_singleton] at hchunk
  exact ⟨encoderAt format 0, order, .code 0, by rw [hchunk, event_encoderAt], nofun⟩

/-- What is read are words of the stream. -/
theorem Within.take {s' : OrderStream} (h : s.Within said) (htake : s.take = some (chunk, s')) :
    Worded said chunk ∧ s'.Within said := by
  unfold OrderStream.take at htake
  split at htake
  · next first rest hbody =>
    obtain ⟨rfl, rfl⟩ := Prod.mk.inj (Option.some.inj htake)
    refine ⟨h.body first (by simp [hbody]), fun text htext => h.words text ?_, h.watch⟩
    rw [texts, hbody]
    exact .tail _ htext
  · cases htake

/-- A client who leaves reads nothing more. -/
theorem Within.leave (h : s.Within said) : s.leave.Within said :=
  ⟨fun text htext => h.words text (List.mem_append_right _ htext), h.watch⟩

end

end Http.OrderStream

end OrderBroker
