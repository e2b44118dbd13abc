import OrderBroker.Job
import OrderBroker.Proofs.OrderStream.Ending

/-!
# Jobs that stream an order

The job of a stream, once its BankID order is started, as a machine: BankID answers, the stream
moves by itself, the client reads a chunk or leaves. Any of these may happen at any time, and of the
moves that the stream may make any is made, so that the runs of the machine hold every schedule,
every delay of an answer and every pace of the client. What the job does is to send requests.

`does_of_step` says once what a step of such a job can be. Whatever ends the stream, nothing is sent
any more (`ended_stream_asks_nothing`).
-/

namespace OrderBroker.Job.Streaming

open BankId (StartedOrder)
open Http (OrderStream)
open Http.OrderStream (Move opened)

variable {ρ : Type}

/-! ## The machine -/

/-- What happens to the job. -/
inductive Event where
  /-- BankID answers the question asked. -/
  | answered (answer : Answer)
  /-- The stream moves by itself. -/
  | moved (m : Move)
  /-- The client reads a chunk. -/
  | read
  /-- The client leaves. -/
  | left

/-- The job as a machine. Its stream moves when it may, and takes the answer that it waits for. -/
def machine : Machine (Job ρ) Event (Effect ρ) := fun now j e =>
  match j with
  | .stream client s head chunk =>
    match e with
    | .answered answer => if s.asks then some (j.answered now 0 answer) else none
    | .moved m =>
      if m ∈ s.moves now then
        some (ofStream now client head chunk (s.make now m).1 (s.make now m).2)
      else none
    | .read => j.take.map fun taken => (taken.2, [])
    | .left => if s.clientLeft then none else some (j.drop now)
  | _ => none

/-- What has happened to the job. -/
abbrev History (ρ : Type) : Type := List (Transition (Job ρ) Event (Effect ρ))

/-- BankID's answer is one of the things that happen. -/
def Event.isAnswer : Event → Bool
  | .answered _ => true
  | _ => false

/-- The client does something. -/
def Event.OfClient (e : Event) : Prop := e = .read ∨ e = .left

/-- The stream of the job has ended. -/
def Ended : Job ρ → Prop
  | .stream _ s _ _ => s.phase = .over
  | _ => False

section
variable (client : BankId.Client) (order : StartedOrder) (style : StreamStyle) (head : ρ)
  (chunk : String → ρ)

/-- The job as the stream of a started order begins, and what it does then: it asks about the order,
unless the client has left before. -/
def begun (t₀ : Nat) (left : Bool) : Job ρ × List (Effect ρ) :=
  ofStream t₀ client head chunk (opened left order style.period client.pollInterval style.format)
    !left

/-- The runs of a job that streams an order, from the start of the stream. -/
abbrev Runs (t₀ : Nat) (left : Bool) : History ρ → Nat → Job ρ → Prop :=
  Run machine (fun _ _ => True) t₀ (begun client order style head chunk t₀ left).1

/-- Everything that the job has done. -/
def doings (t₀ : Nat) (left : Bool) (h : History ρ) : List (Effect ρ) :=
  (begun client order style head chunk t₀ left).2 ++ h.flatMap (·.effects)

end

section
variable {client : BankId.Client} {order : StartedOrder} {style : StreamStyle} {head : ρ}
  {chunk : String → ρ} {now : Nat} {s s' : OrderStream} {j j' : Job ρ} {e : Event}
  {effects : List (Effect ρ)}

/-- The answer that starts an order begins its stream. -/
theorem answered_startStream {read : Answer → Except ρ StartedOrder} {slot : Nat} {answer : Answer}
    (hread : read answer = .ok order) :
    Job.answered now slot answer (.startStream client read style head chunk) =
      ((begun client order style head chunk now false).1,
        .head head :: (begun client order style head chunk now false).2) := by
  simp [Job.answered, hread, begun, opened]

/-- Where a job moves by itself, it makes one of these moves. -/
theorem moved_of_advance {step : Job ρ × List (Effect ρ)}
    (hadvance : Job.advance now (.stream client s head chunk) = some step) :
    ∃ m, machine now (.stream client s head chunk) (.moved m) = some step := by
  simp only [advance, OrderStream.advance, Option.map_eq_some_iff] at hadvance
  obtain ⟨made, ⟨m, hfirst, rfl⟩, rfl⟩ := hadvance
  exact ⟨m, if_pos (List.mem_of_head? hfirst)⟩

/-! ## What a step can be -/

/-- What happens to the stream where something happens to its job. -/
def Event.inner (client : BankId.Client) (orderRef : String) : Event → OrderStream.Event
  | .answered answer => .answered (readProgress client orderRef answer)
  | .moved m => .moved m
  | .read => .read
  | .left => .left

/-- What a step of the job is to its stream, and whether the watch then asks. -/
inductive Does (client : BankId.Client) (now : Nat) (s : OrderStream) :
    Event → OrderStream → Bool → Prop
  | silent {e : Event} {s' : OrderStream} :
      s.step now (e.inner client s.order.orderRef) = some s' → Does client now s e s' false
  | asks {w w' : BankId.Watch} : s.watch = some w → w.advance now = some (w', true) →
      Does client now s (.moved .watch) { s with watch := some w' } true

/-- A stream that moves and does not ask is all that moves. -/
theorem ofStream_false : ofStream now client head chunk s false =
    (.stream client s head chunk, ([] : List (Effect ρ))) := rfl

/-- The stream takes what an answer says. -/
theorem machine_answered {told : BankId.Change} {answer : Answer} (hasks : s.asks = true)
    (hread : readProgress client s.order.orderRef answer = told) :
    machine now (.stream client s head chunk) (.answered answer) =
      some (.stream client (s.answered now told) head chunk, []) := by
  rw [machine, if_pos hasks, Job.answered, hread, ofStream_false]

/-- Only the watch asks. -/
theorem does_of_asks {m : Move} (hasks : (s.make now m).2 = true) :
    Does client now s (.moved m) (s.make now m).1 true := by
  cases m with
  | watch =>
    simp only [OrderStream.make] at hasks ⊢
    cases hbind : s.watch.bind (BankId.Watch.advance now) with
    | none => simp [hbind] at hasks
    | some made =>
      obtain ⟨w', asks⟩ := made
      obtain ⟨w, hw, hadvance⟩ := Option.bind_eq_some_iff.1 hbind
      obtain rfl : asks = true := by simpa [hbind] using hasks
      exact .asks hw hadvance
  | _ => cases hasks

/-- **A step of the job** is one of these, and a question about its order if the watch asks. -/
theorem does_of_step {step : Job ρ × List (Effect ρ)}
    (hstep : machine now (.stream client s head chunk) e = some step) :
    ∃ s' asks, Does client now s e s' asks ∧
      step = ofStream now client head chunk s' asks := by
  cases e with
  | answered answer =>
    simp only [machine, Option.ite_none_right_eq_some, Option.some.injEq] at hstep
    obtain ⟨hasks, rfl⟩ := hstep
    exact ⟨_, false, .silent (if_pos hasks), rfl⟩
  | moved m =>
    simp only [machine, Option.ite_none_right_eq_some, Option.some.injEq] at hstep
    obtain ⟨hm, rfl⟩ := hstep
    refine ⟨_, _, ?_, rfl⟩
    cases hasks : (s.make now m).2 with
    | false => exact .silent (if_pos hm)
    | true => exact does_of_asks hasks
  | read =>
    simp only [machine, Job.take, Option.map_map, Option.map_eq_some_iff, Function.comp] at hstep
    obtain ⟨⟨text, s'⟩, htake, rfl⟩ := hstep
    exact ⟨s', false, .silent (by simp [OrderStream.step, Event.inner, htake]), rfl⟩
  | left =>
    simp only [machine, Option.ite_none_left_eq_some, Option.some.injEq] at hstep
    obtain ⟨hstays, rfl⟩ := hstep
    exact ⟨_, false, .silent (if_neg hstays), rfl⟩

/-- A step of the job is one of its stream. -/
theorem Does.inner {asks : Bool} (hdoes : Does client now s e s' asks) :
    OrderStream.Does now s (e.inner client s.order.orderRef) s' := by
  cases hdoes with
  | silent hstep => exact OrderStream.does_of_step hstep
  | asks hw hadvance => exact .watched hw hadvance

/-- The stream then asks if the watch does. -/
theorem Does.asking (hdoes : Does client now s e s' true) : s'.asks = true := by
  cases hdoes with
  | asks _ hadvance =>
    have hasking := (BankId.Watch.advance_asks hadvance).2.2 rfl
    cases s.phase <;> simp [OrderStream.asks, hasking]

/-! ## One step -/

/-- Where a job stands that streams an order. -/
inductive Stands (client : BankId.Client) (order : StartedOrder) (head : ρ) (chunk : String → ρ) :
    Job ρ → Prop
  | streams {s : OrderStream} : s.order = order → s.QuietAtEnd →
      Stands client order head chunk (.stream client s head chunk)

/-- A stream that asks what may not be asked is answered at once, and stands no worse. -/
theorem stands_ofStream {asks : Bool} (horder : s.order = order) (hquiet : s.QuietAtEnd)
    (hasks : asks = true → s.asks = true) :
    Stands client order head chunk (ofStream now client head chunk s asks).1 := by
  cases asks with
  | false => exact .streams horder hquiet
  | true =>
    rw [ofStream, if_pos rfl]
    cases client.collectOnce s.order.orderRef with
    | ok x => exact .streams horder hquiet
    | error failure =>
      have hanswers : OrderStream.Does now s (.answered (.error failure)) _ :=
        OrderStream.does_answer (hasks rfl)
      exact .streams ((OrderStream.order_of_does hanswers).trans horder)
        (OrderStream.quietAtEnd_of_does hquiet hanswers)

/-- What a stream that moves sends is a question about its order. -/
theorem question_of_ofStream {asks : Bool} (horder : s.order = order) :
    ∀ effect ∈ (ofStream now client head chunk s asks).2,
      ∃ x, client.collectOnce order.orderRef = .ok x ∧ effect = .send 0 x.call := by
  cases asks with
  | false => simp [ofStream]
  | true => cases hx : client.collectOnce order.orderRef <;> simp [ofStream, horder, hx]

/-- The stream as it begins. -/
theorem stands_begun {t₀ : Nat} {left : Bool} : Stands client order head chunk
    (begun client order style head chunk t₀ left).1 := by
  cases left with
  | true => exact stands_ofStream rfl (fun _ w hw => by cases hw) nofun
  | false => exact stands_ofStream rfl nofun fun _ => rfl

/-- What a step of a job leads to, and what is sent. -/
theorem stands_step (hs : Stands client order head chunk j)
    (hstep : machine now j e = some (j', effects)) :
    Stands client order head chunk j' ∧ ∀ effect ∈ effects,
      ∃ x, client.collectOnce order.orderRef = .ok x ∧ effect = .send 0 x.call := by
  obtain ⟨horder, hquiet⟩ := hs
  obtain ⟨s', asks, hdoes, heq⟩ := does_of_step hstep
  have horder' := (OrderStream.order_of_does hdoes.inner).trans horder
  obtain ⟨rfl, rfl⟩ := Prod.mk.inj heq
  refine ⟨stands_ofStream horder' (OrderStream.quietAtEnd_of_does hquiet hdoes.inner) ?_,
    question_of_ofStream horder'⟩
  rintro rfl
  exact hdoes.asking

/-- A stream that has ended does not ask. -/
theorem remains_of_step (hquiet : s.QuietAtEnd) (hover : s.phase = .over)
    (hstep : machine now (.stream client s head chunk) e = some (j', effects)) :
    effects = [] ∧ ∃ s', j' = .stream client s' head chunk ∧
      s.Remains now (e.inner client s.order.orderRef) s' ∧ s'.QuietAtEnd := by
  obtain ⟨s', asks, hdoes, heq⟩ := does_of_step hstep
  have hremains := OrderStream.remains_of_does hover hdoes.inner
  have hquiet' := OrderStream.quietAtEnd_of_does hquiet hdoes.inner
  cases hdoes with
  | silent _ =>
    obtain ⟨rfl, rfl⟩ := Prod.mk.inj heq
    exact ⟨rfl, s', rfl, hremains, hquiet'⟩
  | asks hw hadvance => cases ((hquiet hover _ hw).over_of_advance hadvance).2

/-! ## Every run -/

variable {t t₀ : Nat} {left : Bool} {h : History ρ}

/-- In every run the job stands so. -/
theorem stands_of_runs (run : Runs client order style head chunk t₀ left h now j) :
    Stands client order head chunk j := by
  induction run with
  | start => exact stands_begun
  | next _ _ _ hm ih => exact (stands_step ih hm).1

/-- After the last answer to a stream that has ended only its client does something. -/
theorem ofClient_of_silent {may : History ρ → Event → Prop}
    (run : Run machine may t (.stream client s head chunk) h now j) (hquiet : s.QuietAtEnd)
    (hsilent : s.Silent) : ∀ tr ∈ h, tr.event.OfClient := by
  suffices H : (∃ s', j = .stream client s' head chunk ∧ s'.QuietAtEnd ∧ s'.Silent) ∧
      ∀ tr ∈ h, tr.event.OfClient from H.2
  induction run with
  | start => exact ⟨⟨s, rfl, hquiet, hsilent⟩, by simp⟩
  | @next h t now j j' e effects _ _ _ hm ih =>
    obtain ⟨⟨s, rfl, hquiet, hsilent⟩, hclient⟩ := ih
    obtain ⟨-, s', rfl, hremains, hquiet'⟩ := remains_of_step hquiet hsilent.1 hm
    obtain ⟨hsilent', hinner⟩ := hsilent.remains hremains
    refine ⟨⟨s', rfl, hquiet', hsilent'⟩, fun tr htr => ?_⟩
    rcases List.mem_append.1 htr with htr | htr
    · exact hclient tr htr
    · rw [List.mem_singleton] at htr
      subst htr
      cases e with
      | read => exact .inl rfl
      | left => exact .inr rfl
      | _ => simp [Event.inner] at hinner

/-- A question about an order is no request to cancel one. -/
theorem cancel_ne_question {x : Exchange BankId.Progress} {c : Exchange Unit} {ref ref' : String}
    (hx : client.collectOnce ref = .ok x) (hc : client.cancel ref' = .ok c) :
    c.call ≠ x.call := by
  unfold BankId.Client.collectOnce at hx
  unfold BankId.Client.cancel at hc
  split at hx
  · cases hx
  · split at hc
    · cases hc
    · obtain rfl := Except.ok.inj hx
      obtain rfl := Except.ok.inj hc
      have hpaths : BankId.cancelPath ≠ BankId.collectPath := by decide
      exact fun hsame => hpaths ((String.append_right_inj _).1 (congrArg Call.url hsame))

/-- **A stream that has ended asks nothing.** In every run, whatever ended the stream and wherever
its watch stood then, nothing is sent any more: of a question that is in flight the answer may come,
and after it only the client reads what is left or leaves. All that is ever sent are questions about
the order, and so the order is never cancelled. The watch does rest between its questions: if its
rests had no length, what stops it would always be in a race with the end of a rest. -/
theorem ended_stream_asks_nothing (_ : 0 < client.pollInterval)
    (run : Runs client order style head chunk t₀ left h now j) :
    (∀ past tr later, h = past ++ tr :: later → Ended tr.before →
      Ended tr.after ∧ tr.effects = [] ∧
        (tr.event.isAnswer = true → ∀ tr' ∈ later, tr'.event.OfClient)) ∧
    ∀ effect ∈ doings client order style head chunk t₀ left h,
      ∃ x, client.collectOnce order.orderRef = .ok x ∧ effect = .send 0 x.call ∧
        ∀ ref c, client.cancel ref = .ok c → c.call ≠ x.call := by
  constructor
  · rintro past tr later rfl hended
    obtain ⟨t, hpast, -, -, hstep⟩ := run.split
    have hlater := run.after
    have hstands := stands_of_runs hpast
    obtain ⟨now', before, e, after, effects⟩ := tr
    cases hstands with
    | streams _ hquiet =>
      obtain ⟨hnothing, s', hafter, hremains, hquiet'⟩ := remains_of_step hquiet hended hstep
      obtain rfl : after = .stream client s' head chunk := hafter
      refine ⟨hremains.phase_eq.trans hended, hnothing, fun hanswer => ?_⟩
      cases e with
      | answered answer =>
        exact ofClient_of_silent hlater hquiet'
          (OrderStream.silent_of_answered hquiet hended hremains)
      | _ => cases hanswer
  · intro effect heffect
    have hquestion : ∃ x, client.collectOnce order.orderRef = .ok x ∧ effect = .send 0 x.call := by
      rcases List.mem_append.1 heffect with hfirst | hthen
      · exact question_of_ofStream (by cases left <;> rfl) effect hfirst
      · obtain ⟨tr, htr, hmem⟩ := List.mem_flatMap.1 hthen
        obtain ⟨past, later, t, rfl, hpast, -, -, hstep⟩ := run.of_mem htr
        exact (stands_step (stands_of_runs hpast) hstep).2 effect hmem
    obtain ⟨x, hx, heq⟩ := hquestion
    exact ⟨x, hx, heq, fun ref c hc => cancel_ne_question hx hc⟩

end

/-- The client leaves while a question is in flight. The stream ends, the answer comes, and it is
not asked again. -/
theorem left_stream_asks_nothing :
    ∃ (client : BankId.Client) (order : StartedOrder) (style : StreamStyle) (h : History String)
      (ended : Transition (Job String) Event (Effect String)) (call : Call) (j : Job String),
      0 < client.pollInterval ∧ Runs client order style "" id 0 false (h ++ [ended]) 14 j ∧
        doings client order style "" id 0 false h = [.send 0 call, .send 0 call] ∧
        ended.event.isAnswer = true ∧ Ended ended.before ∧ Ended ended.after ∧
        ended.effects = [] := by
  let client : BankId.Client := ⟨"https://appapi2.test.bankid.com", 4, 15000⟩
  let order : StartedOrder := { orderRef := "131daac9", autoStartToken := "7c40b5c9" }
  let p : BankId.Progress := { orderRef := "131daac9", status := .pending }
  let signing : BankId.Progress := { p with hintCode := "userSign" }
  let a₁ : Answer :=
    .replied 200 "\x7b\"orderRef\":\"131daac9\",\"status\":\"pending\"\x7d".toUTF8
  let a₂ : Answer := .replied 200
    "\x7b\"orderRef\":\"131daac9\",\"status\":\"pending\",\"hintCode\":\"userSign\"\x7d".toUTF8
  have hread₁ : readProgress client "131daac9" a₁ = .ok p := by decide +kernel
  have hread₂ : readProgress client "131daac9" a₂ = .ok signing := by decide +kernel
  have h₁ : Runs client order ⟨.sse, 30⟩ "" id 0 false [⟨2, _, .answered a₁, _, []⟩] 2 _ :=
    Run.next .start (Nat.zero_le 2) trivial (machine_answered rfl hread₁)
  have h₂ := h₁.next (e := .moved .watch) (Nat.le_add_right 2 4) trivial rfl
  have h₃ := h₂.next (e := .left) (Nat.le_add_right 6 4) trivial rfl
  have h₄ := h₃.next (e := .moved .leave) (Nat.le_refl 10) trivial rfl
  have h₅ := h₄.next (e := .answered a₂) (Nat.le_add_right 10 4) trivial
    (machine_answered rfl hread₂)
  obtain ⟨hends, hnothing, -⟩ := (ended_stream_asks_nothing (by decide) h₅).1 _ _ [] rfl rfl
  exact ⟨client, order, ⟨.sse, 30⟩, _, _, _, _, by decide, h₅, rfl, rfl, rfl, hends, hnothing⟩

end OrderBroker.Job.Streaming
