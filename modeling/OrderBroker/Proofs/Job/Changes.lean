import OrderBroker.Proofs.Job.Watching

/-!
# What the caller of a watch is given

Whatever BankID answers, and however the caller takes items, stops the job or leaves: the first
answer decides whether there is a watch, a watch sends the news of its answers, and the caller is
given all of it, save what the single slot had no room for during a whole second
(`changes_handed_over`).
-/

namespace OrderBroker.Job.Watching

open BankId (Change Progress Watch Loses news)
open BankId.Watch (isLast offerTimeout Account Halted Finishes)

variable {ρ : Type}

/-! ## What is seen of a run -/

section
variable (client : BankId.Client) (orderRef : String) (read : Change → ρ) (closed : ρ)

/-- The items that the caller has been given. -/
def given (h : History ρ) : List ρ := (h.flatMap (·.effects)).filterMap Effect.item?

/-- The results that the caller has been given instead of items. -/
def results (t₀ : Nat) (givenUp : Bool) (h : History ρ) : List ρ :=
  (doings client orderRef read closed t₀ givenUp h).filterMap Effect.result?

/-- How often BankID has been asked. -/
def questions (t₀ : Nat) (givenUp : Bool) (h : History ρ) : Nat :=
  (doings client orderRef read closed t₀ givenUp h).countP Effect.isQuestion

/-- The caller has left. -/
def Left (h : History ρ) : Prop := ∃ tr ∈ h, tr.event = .left

/-- The caller had given up before the start, or has told the job to stop. -/
def Cancelled (givenUp : Bool) (h : History ρ) : Prop :=
  givenUp = true ∨ ∃ tr ∈ h, tr.event = .stopped

/-- The slot is taken. -/
def Occupied (j : Job ρ) : Prop := ∃ w, watch? j = some w ∧ w.slot.isSome = true

/-- The item waits for the slot, which is taken. -/
def Waits (item : Change) (j : Job ρ) : Prop :=
  ∃ w, watch? j = some w ∧ w.waiting? = some item ∧ w.slot.isSome = true

/-- The watch rests. -/
def Rests (j : Job ρ) : Prop := ∃ w due, watch? j = some w ∧ w.phase = .resting due

/-- What a watch can have sent: the news, and perhaps that it was told to stop. -/
def Sends (h : History ρ) (sent : List Change) : Prop :=
  sent = news (heard client orderRef h) ∨
    sent = news (heard client orderRef h) ++ [.error (.at .bankId .cancelled)]

/-- The item that was sent after `before` has waited for the slot, which was taken for a second on
end. -/
def Crowded (h : History ρ) (before : List Change) (item : Change) : Prop :=
  ∃ past tr during tr' later, h = past ++ tr :: during ++ tr' :: later ∧
    Sends client orderRef (past ++ [tr]) (before ++ [item]) ∧
    (∀ x ∈ tr :: during, Waits item x.after) ∧
    tr.time + 1000 ≤ tr'.time ∧ tr'.event = .moved

/-- Why an item has not come through: it was crowded out, or the caller has left. -/
def Lost (h : History ρ) (before : List Change) (item : Change) : Prop :=
  Crowded client orderRef h before item ∨ Left h

/-- Whenever the slot is taken, the caller takes an item within a second. -/
def Prompt (h : History ρ) : Prop :=
  ∀ past tr during tr' later, h = past ++ tr :: during ++ tr' :: later →
    Occupied tr.after → tr.time + 1000 ≤ tr'.time →
    ∃ x ∈ during ++ [tr'], x.event = .taken ∧ x.time ≤ tr.time + 1000

end

section
variable {client : BankId.Client} {orderRef : String} {read : Change → ρ} {closed : ρ}
  {t₀ now : Nat} {givenUp : Bool} {h : History ρ} {tr : Transition (Job ρ) Event (Effect ρ)}
  {before sent got : List Change} {item : Change} {x : Exchange Progress}

/-! ## One more transition -/

@[simp] theorem given_snoc :
    given (h ++ [tr]) = given h ++ tr.effects.filterMap Effect.item? := by
  simp [given]

@[simp] theorem results_snoc :
    results client orderRef read closed t₀ givenUp (h ++ [tr]) =
      results client orderRef read closed t₀ givenUp h ++
        tr.effects.filterMap Effect.result? := by
  simp [results, doings]

@[simp] theorem questions_snoc :
    questions client orderRef read closed t₀ givenUp (h ++ [tr]) =
      questions client orderRef read closed t₀ givenUp h +
        tr.effects.countP Effect.isQuestion := by
  simp [questions, doings, Nat.add_assoc]

@[simp] theorem left_snoc : Left (h ++ [tr]) ↔ Left h ∨ tr.event = .left := by
  simp [Left, or_and_right, exists_or]

@[simp] theorem cancelled_snoc :
    Cancelled givenUp (h ++ [tr]) ↔ Cancelled givenUp h ∨ tr.event = .stopped := by
  simp [Cancelled, or_and_right, exists_or, or_assoc]

/-- An answer is heard. -/
theorem heard_answered {answer : Answer} (hx : client.collectOnce orderRef = .ok x)
    (he : tr.event = .answered answer) :
    heard client orderRef (h ++ [tr]) =
      heard client orderRef h ++ [readProgress client orderRef answer] := by
  simp [heard, hx, answers, he]

/-- Nothing else is heard. -/
theorem heard_other (hx : client.collectOnce orderRef = .ok x)
    (he : ∀ answer, tr.event ≠ .answered answer) :
    heard client orderRef (h ++ [tr]) = heard client orderRef h := by
  simp only [heard, hx, answers, List.filterMap_append, List.filterMap_cons, List.filterMap_nil]
  cases hevent : tr.event with
  | answered answer => exact absurd hevent (he answer)
  | _ => simp

/-- An item that was crowded out stays so. -/
theorem Crowded.snoc (hcrowded : Crowded client orderRef h before item) :
    Crowded client orderRef (h ++ [tr]) before item := by
  obtain ⟨past, first, during, last, later, rfl, hwhole⟩ := hcrowded
  exact ⟨past, first, during, last, later ++ [tr], by simp, hwhole⟩

/-- An item that is lost stays so. -/
theorem Lost.snoc (hlost : Lost client orderRef h before item) :
    Lost client orderRef (h ++ [tr]) before item :=
  hlost.imp Crowded.snoc fun hleft => left_snoc.2 (.inl hleft)

/-! ## The invariant of a watch -/

/-- An item has waited for the slot, which was taken, since the transition that sent it. -/
def Since (client : BankId.Client) (orderRef : String) (h : History ρ) (w : Watch)
    (sent : List Change) : Prop :=
  ∀ item deadline, w.phase = .offering item deadline → w.slot.isSome = true →
    ∃ past tr during, h = past ++ tr :: during ∧ deadline = tr.time + offerTimeout ∧
      Sends client orderRef (past ++ [tr]) sent ∧ ∀ x ∈ tr :: during, Waits item x.after

/-- A watch that was told to stop while it rested has been stopped: it got no last answer, and asks
no more. -/
def Stops (client : BankId.Client) (orderRef : String) (h : History ρ) (w : Watch) : Prop :=
  ∀ past tr later, h = past ++ tr :: later → tr.event = .stopped → Rests tr.before →
    Halted w ∧ (∀ answer ∈ heard client orderRef h, isLast answer = false) ∧
      ∀ x ∈ tr :: later, ∀ effect ∈ x.effects, effect.isQuestion = false

/-- Where a watch stands after the history `h`: `sent` is what it has sent, and `got` what of it the
caller has taken. -/
structure Stands (client : BankId.Client) (orderRef : String) (read : Change → ρ) (closed : ρ)
    (t₀ : Nat) (givenUp : Bool) (h : History ρ) (w : Watch) (sent got : List Change) : Prop where
  account : Account (Lost client orderRef h) (heard client orderRef h) got sent w
  given : given h = got.map read
  results : results client orderRef read closed t₀ givenUp h = []
  questions : questions client orderRef read closed t₀ givenUp h =
    (heard client orderRef h).length + (asks (.watch client orderRef w read closed)).toNat
  unread : w.unread = true ↔ Left h
  stopped : w.stopped = true ↔ Cancelled givenUp h
  since : Since client orderRef h w sent
  stops : Stops client orderRef h w

/-! ## A step of a watch -/

variable {w w' : Watch} {j j' : Job ρ} {e : Event} {effects : List (Effect ρ)}

/-- An item that begins to wait for the slot does so since now. -/
theorem since_new (hafter : tr.after = .watch client orderRef w read closed)
    (hdeadline : ∀ item deadline, w.phase = .offering item deadline →
      deadline = tr.time + offerTimeout)
    (hsends : Sends client orderRef (h ++ [tr]) sent) :
    Since client orderRef (h ++ [tr]) w sent := by
  intro item deadline hphase hslot
  refine ⟨h, tr, [], rfl, hdeadline item deadline hphase, hsends, ?_⟩
  rintro y hy
  rw [List.mem_singleton.1 hy]
  exact ⟨w, by rw [hafter, watch?], by rw [Watch.waiting?, hphase], hslot⟩

/-- An item that goes on waiting does so since the same time. -/
theorem Since.snoc (hsince : Since client orderRef h w sent)
    (hafter : tr.after = .watch client orderRef w' read closed)
    (hphase : w'.phase = w.phase) (hslot : w'.slot = w.slot) :
    Since client orderRef (h ++ [tr]) w' sent := by
  intro item deadline hoffers htaken
  obtain ⟨past, first, during, rfl, hdeadline, hsends, hwaits⟩ :=
    hsince item deadline (hphase ▸ hoffers) (hslot ▸ htaken)
  refine ⟨past, first, during ++ [tr], by simp, hdeadline, hsends, fun y hy => ?_⟩
  rw [← List.cons_append] at hy
  rcases List.mem_append.1 hy with hy | hy
  · exact hwaits y hy
  · rw [List.mem_singleton.1 hy]
    exact ⟨w', by rw [hafter, watch?], by rw [Watch.waiting?, hoffers], htaken⟩

/-- Where the slot is free nothing waits for it. -/
theorem since_free (hslot : w.slot = none) : Since client orderRef h w sent := by
  intro item deadline _ htaken
  simp [hslot] at htaken

/-- A watch that has been stopped stays so. -/
theorem Stops.snoc (hstops : Stops client orderRef h w)
    (hnew : tr.event = .stopped → Rests tr.before → Halted w' ∧
      (∀ answer ∈ heard client orderRef (h ++ [tr]), isLast answer = false) ∧
      ∀ effect ∈ tr.effects, effect.isQuestion = false)
    (hkeep : Halted w → Halted w' ∧
      heard client orderRef (h ++ [tr]) = heard client orderRef h ∧
      ∀ effect ∈ tr.effects, effect.isQuestion = false) :
    Stops client orderRef (h ++ [tr]) w' := by
  intro past first later heq hevent hrests
  rcases Run.snoc_eq_cut heq with ⟨rfl, rfl, rfl⟩ | ⟨later, rfl, rfl⟩
  · obtain ⟨hhalted, hpending, hquiet⟩ := hnew hevent hrests
    exact ⟨hhalted, hpending, by simpa using hquiet⟩
  · obtain ⟨hhalted, hpending, hsilent⟩ := hstops past first later rfl hevent hrests
    obtain ⟨hhalted', hheard, hquiet⟩ := hkeep hhalted
    refine ⟨hhalted', hheard ▸ hpending, fun y hy => ?_⟩
    rw [← List.cons_append] at hy
    rcases List.mem_append.1 hy with hy | hy
    · exact hsilent y hy
    · rw [List.mem_singleton.1 hy]
      exact hquiet

/-- A job asks if its watch does. -/
theorem asks_iff : asks (.watch client orderRef w read closed) = true ↔ w.phase = .asking := by
  refine ⟨asking_of_asks, fun hphase => ?_⟩
  simp [asks, hphase]

/-- A job asks as little as its watch. -/
theorem asks_eq_false (hphase : w.phase ≠ .asking) :
    asks (.watch client orderRef w read closed) = false :=
  Bool.eq_false_iff.2 fun hasks => hphase (asks_iff.1 hasks)

/-- Everything may be lost once the caller has left. -/
theorem Stands.lost (hs : Stands client orderRef read closed t₀ givenUp h w sent got)
    (hunread : w.unread = true) (before : List Change) (item : Change) :
    Lost client orderRef (h ++ [tr]) before item :=
  .inr (left_snoc.2 (.inl (hs.unread.1 hunread)))

/-- After one more transition the account holds of what has been heard so far. -/
theorem Stands.kept (hs : Stands client orderRef read closed t₀ givenUp h w sent got)
    (tr : Transition (Job ρ) Event (Effect ρ)) :
    Account (Lost client orderRef (h ++ [tr])) (heard client orderRef h) got sent w :=
  hs.account.mono fun _ _ => Lost.snoc

/-- A transition that is neither the caller's leaving nor the word to stop leaves the marks of a
watch as they are. -/
theorem Stands.marks (hs : Stands client orderRef read closed t₀ givenUp h w sent got)
    (tr : Transition (Job ρ) Event (Effect ρ)) (w' : Watch)
    (hmarks : w'.stopped = w.stopped ∧ w'.unread = w.unread) (hstays : tr.event ≠ .left)
    (hgoes : tr.event ≠ .stopped) :
    (w'.unread = true ↔ Left (h ++ [tr])) ∧
      (w'.stopped = true ↔ Cancelled givenUp (h ++ [tr])) := by
  rw [hmarks.1, hmarks.2, left_snoc, cancelled_snoc, hs.unread, hs.stopped]
  simp [hstays, hgoes]

/-- The watch is answered. -/
theorem stands_told (tr : Transition (Job ρ) Event (Effect ρ))
    {answer : Answer} (hx : client.collectOnce orderRef = .ok x)
    (hs : Stands client orderRef read closed t₀ givenUp h w sent got) (hasks : w.phase = .asking)
    (hw' : w' = w.answered tr.time (readProgress client orderRef answer))
    (hevent : tr.event = .answered answer)
    (hafter : tr.after = .watch client orderRef w' read closed) (heffects : tr.effects = []) :
    ∃ sent', Stands client orderRef read closed t₀ givenUp (h ++ [tr]) w' sent' got := by
  have hheard := heard_answered hx (h := h) hevent
  obtain ⟨hunread, hstopped⟩ := hs.marks tr w'
    (hw' ▸ Watch.answered_marks tr.time w (readProgress client orderRef answer))
    (by simp [hevent]) (by simp [hevent])
  obtain ⟨sent', haccount⟩ := Watch.account_answered (hs.kept tr) hasks
    hs.lost (readProgress client orderRef answer)
  rw [← hheard, ← hw'] at haccount
  refine ⟨sent', haccount, ?_, ?_, ?_, hunread, hstopped, ?_, ?_⟩
  · simp [heffects, hs.given]
  · simp [heffects, hs.results]
  · have hrests : w'.phase ≠ .asking := hw' ▸ Watch.answered_not_asking hasks _
    simp [heffects, hs.questions, hheard, asks_iff.2 hasks, asks_eq_false hrests]
  · exact since_new hafter
      (fun item deadline hphase => Watch.deadline_of_answered hasks (hw' ▸ hphase))
      haccount.sent_eq
  · refine hs.stops.snoc (fun hstop => ?_) fun hhalted => ?_
    · rw [hevent] at hstop
      cases hstop
    · simp [Halted, hasks] at hhalted

/-- The watch moves. -/
theorem stands_moved (tr : Transition (Job ρ) Event (Effect ρ))
    {asks : Bool} (hx : client.collectOnce orderRef = .ok x)
    (hs : Stands client orderRef read closed t₀ givenUp h w sent got)
    (hadvance : w.advance tr.time = some (w', asks)) (hevent : tr.event = .moved)
    (hafter : tr.after = .watch client orderRef w' read closed)
    (heffects : tr.effects = if asks then [.job (.send 0 x.call)] else []) :
    ∃ sent', Stands client orderRef read closed t₀ givenUp (h ++ [tr]) w' sent' got := by
  have hheard : heard client orderRef (h ++ [tr]) = heard client orderRef h :=
    heard_other hx (by simp [hevent])
  obtain ⟨hunread, hstopped⟩ := hs.marks tr w' (Watch.advance_marks hadvance)
    (by simp [hevent]) (by simp [hevent])
  have hlate (item : Change) (deadline : Nat) (hphase : w.phase = .offering item deadline)
      (hslot : w.slot.isSome = true) (hdue : deadline ≤ tr.time) (before : List Change)
      (hsent : sent = before ++ [item]) : Lost client orderRef (h ++ [tr]) before item := by
    obtain ⟨past, first, during, heq, hdeadline, hsends, hwaits⟩ :=
      hs.since item deadline hphase hslot
    exact .inl ⟨past, first, during, tr, [], by rw [heq], hsent ▸ hsends, hwaits,
      hdeadline ▸ hdue, hevent⟩
  obtain ⟨sent', haccount⟩ := Watch.account_advance (hs.kept tr) hadvance
    hlate hs.lost
  rw [← hheard] at haccount
  have hquiet (hrests : asks = false) : tr.effects = [] := by simp [heffects, hrests]
  obtain ⟨hrested, hasks⟩ := Watch.advance_asks hadvance
  refine ⟨sent', haccount, ?_, ?_, ?_, hunread, hstopped, ?_, ?_⟩
  · cases asks <;> simp [heffects, hs.given, Effect.item?]
  · cases asks <;> simp [heffects, hs.results, Effect.result?]
  · cases asks with
    | false =>
      have hrests : w'.phase ≠ .asking := by simp [hasks]
      simp [heffects, hs.questions, hheard, asks_eq_false hrested, asks_eq_false hrests]
    | true =>
      simp [heffects, hs.questions, hheard, asks_eq_false hrested, asks_iff.2 (hasks.2 rfl),
        Effect.isQuestion]
  · exact since_new hafter (fun item deadline hphase => Watch.deadline_of_advance hadvance hphase)
      haccount.sent_eq
  · refine hs.stops.snoc (fun hstop => ?_) fun hhalted => ?_
    · rw [hevent] at hstop
      cases hstop
    · obtain ⟨hhalted', hrests⟩ := hhalted.advance hadvance
      exact ⟨hhalted', hheard, by simp [hquiet hrests]⟩

/-- The caller takes an item. -/
theorem stands_taken (tr : Transition (Job ρ) Event (Effect ρ))
    (hx : client.collectOnce orderRef = .ok x)
    (hs : Stands client orderRef read closed t₀ givenUp h w sent got)
    (htake : w.take = some (item, w')) (hevent : tr.event = .taken)
    (heffects : tr.effects = [.give (read item)]) :
    Stands client orderRef read closed t₀ givenUp (h ++ [tr]) w' sent (got ++ [item]) := by
  have hheard : heard client orderRef (h ++ [tr]) = heard client orderRef h :=
    heard_other hx (by simp [hevent])
  have haccount := Watch.account_take (hs.kept tr) htake
  rw [← hheard] at haccount
  obtain ⟨first, hslot, heq⟩ := Option.map_eq_some_iff.1 htake
  obtain ⟨rfl, rfl⟩ := Prod.mk.inj heq
  obtain ⟨hunread, hstopped⟩ := hs.marks tr { w with slot := none } ⟨rfl, rfl⟩
    (by simp [hevent]) (by simp [hevent])
  refine ⟨haccount, ?_, ?_, ?_, hunread, hstopped, since_free rfl, ?_⟩
  · simp [heffects, hs.given, Effect.item?]
  · simp [heffects, hs.results, Effect.result?]
  · simp [heffects, hs.questions, hheard, Effect.isQuestion, asks]
  · refine hs.stops.snoc (fun hstop => ?_) fun hhalted => ?_
    · rw [hevent] at hstop
      cases hstop
    · exact ⟨hhalted, hheard, by simp [heffects, Effect.isQuestion]⟩

/-- The caller tells the watch to stop. -/
theorem stands_stopped (tr : Transition (Job ρ) Event (Effect ρ))
    (hx : client.collectOnce orderRef = .ok x)
    (hs : Stands client orderRef read closed t₀ givenUp h w sent got)
    (hw' : w' = w.stop tr.time) (hbefore : tr.before = .watch client orderRef w read closed)
    (hevent : tr.event = .stopped) (hafter : tr.after = .watch client orderRef w' read closed)
    (heffects : tr.effects = []) :
    ∃ sent', Stands client orderRef read closed t₀ givenUp (h ++ [tr]) w' sent' got := by
  have hheard : heard client orderRef (h ++ [tr]) = heard client orderRef h :=
    heard_other hx (by simp [hevent])
  have hunread : w'.unread = true ↔ Left (h ++ [tr]) := by
    rw [hw', (Watch.stop_marks tr.time w).2, hs.unread, left_snoc]
    simp [hevent]
  have hstopped : w'.stopped = true ↔ Cancelled givenUp (h ++ [tr]) := by
    rw [hw', (Watch.stop_marks tr.time w).1, cancelled_snoc]
    simp [hevent]
  have hquestions : questions client orderRef read closed t₀ givenUp (h ++ [tr]) =
      (heard client orderRef (h ++ [tr])).length +
        (asks (.watch client orderRef w' read closed)).toNat := by
    have hsame : asks (.watch client orderRef w' read closed) =
        asks (.watch client orderRef w read closed) := by
      rw [Bool.eq_iff_iff, asks_iff, asks_iff, hw', Watch.stop_asking_iff]
    simp [heffects, hs.questions, hheard, hsame]
  have hgiven : given (h ++ [tr]) = got.map read := by simp [heffects, hs.given]
  have hresults : results client orderRef read closed t₀ givenUp (h ++ [tr]) = [] := by
    simp [heffects, hs.results]
  by_cases hrests : ∃ due, w.phase = .resting due
  · obtain ⟨due, hrests⟩ := hrests
    have haccount := Watch.account_stop_rest tr.time (hs.kept tr) hrests hs.lost
    rw [← hheard, ← hw'] at haccount
    have hhalted : Halted w' := hw' ▸ Watch.halted_stop hrests
    refine ⟨_, haccount, hgiven, hresults, hquestions, hunread, hstopped, ?_, ?_⟩
    · refine since_new hafter (fun item deadline hphase => ?_) haccount.sent_eq
      rw [hw', Watch.stop, hrests] at hphase
      exact Watch.deadline_of_close hphase
    · refine hs.stops.snoc (fun _ _ => ⟨hhalted, ?_, by simp [heffects]⟩) fun hhalted' => ?_
      · exact hheard ▸ (hs.account.going (.inr ⟨due, hrests⟩)).1
      · exact absurd hrests (hhalted'.not_rest due)
  · have hgoes (due : Nat) : w.phase ≠ .resting due := fun hphase => hrests ⟨due, hphase⟩
    have haccount := Watch.account_stop_later tr.time (hs.kept tr) hgoes
    have hlater := Watch.stop_of_not_rest tr.time hgoes
    rw [← hw'] at haccount hlater
    refine ⟨sent, hheard ▸ haccount, hgiven, hresults, hquestions, hunread, hstopped,
      hs.since.snoc hafter (by rw [hlater]) (by rw [hlater]), ?_⟩
    refine hs.stops.snoc (fun _ hrested => ?_) fun hhalted => ?_
    · obtain ⟨y, due, hwatch, hphase⟩ := hrested
      rw [hbefore, watch?, Option.some.injEq] at hwatch
      exact absurd (hwatch ▸ hphase) (hgoes due)
    · exact ⟨by rw [hlater]; exact hhalted, hheard, by simp [heffects]⟩

/-- The caller leaves the watch. -/
theorem stands_left (tr : Transition (Job ρ) Event (Effect ρ))
    (hx : client.collectOnce orderRef = .ok x)
    (hs : Stands client orderRef read closed t₀ givenUp h w sent got) (hevent : tr.event = .left)
    (heffects : tr.effects = []) :
    Stands client orderRef read closed t₀ givenUp (h ++ [tr]) w.abandon sent got := by
  have hheard : heard client orderRef (h ++ [tr]) = heard client orderRef h :=
    heard_other hx (by simp [hevent])
  have haccount := Watch.account_abandon (hs.kept tr)
    fun _ _ => .inr (left_snoc.2 (.inr hevent))
  rw [← hheard] at haccount
  refine ⟨haccount, ?_, ?_, ?_, ?_, ?_, since_free rfl, ?_⟩
  · simp [heffects, hs.given]
  · simp [heffects, hs.results]
  · simp [heffects, hs.questions, hheard, asks, Watch.abandon]
  · simp [hevent, Watch.abandon]
  · rw [cancelled_snoc, ← hs.stopped]
    simp [hevent, Watch.abandon]
  · refine hs.stops.snoc (fun hstop => ?_) fun hhalted => ?_
    · rw [hevent] at hstop
      cases hstop
    · exact ⟨hhalted, hheard, by simp [heffects]⟩

/-! ## The run of a job -/

/-- Where a job stands after the history `h`. -/
inductive JobStands (client : BankId.Client) (orderRef : String) (read : Change → ρ) (closed : ρ)
    (t₀ : Nat) (givenUp : Bool) (h : History ρ) : Job ρ → Prop
  /-- Asking about the order has failed at once, and there is no watch. -/
  | failed {failure : Failure} : heard client orderRef h = [.error failure] → given h = [] →
      results client orderRef read closed t₀ givenUp h = [read (.error failure)] →
      JobStands client orderRef read closed t₀ givenUp h .over
  /-- BankID has been asked for the first time. -/
  | starting {stopped : Bool} : heard client orderRef h = [] → given h = [] →
      results client orderRef read closed t₀ givenUp h = [] →
      questions client orderRef read closed t₀ givenUp h = 1 →
      (stopped = true ↔ Cancelled givenUp h) → ¬ Left h → (∀ tr ∈ h, ¬ Rests tr.before) →
      JobStands client orderRef read closed t₀ givenUp h
        (.startWatch client orderRef read closed stopped)
  /-- The caller has left before the first answer. -/
  | gone : heard client orderRef h = [] → given h = [] →
      JobStands client orderRef read closed t₀ givenUp h .over
  /-- The first answer shows the order, which is watched. -/
  | watching {p : Progress} {w : Watch} {sent got : List Change} :
      (heard client orderRef h).head? = some (.ok p) →
      Stands client orderRef read closed t₀ givenUp h w sent got →
      JobStands client orderRef read closed t₀ givenUp h (.watch client orderRef w read closed)

/-- Such a job is one that watches an order. -/
theorem JobStands.under (hs : JobStands client orderRef read closed t₀ givenUp h j) :
    Under client orderRef read closed j := by
  cases hs with
  | failed => exact .ended
  | starting => exact .starting _
  | gone => exact .ended
  | watching => exact .watching _

/-- Nothing that happens after the end changes anything. -/
theorem jobStands_idle (hs : JobStands client orderRef read closed t₀ givenUp h .over)
    (hevent : tr.event = .stopped ∨ tr.event = .left) (heffects : tr.effects = []) :
    JobStands client orderRef read closed t₀ givenUp (h ++ [tr]) .over := by
  have hheard : heard client orderRef (h ++ [tr]) = heard client orderRef h := by
    simp only [heard, answers, List.filterMap_append, List.filterMap_cons, List.filterMap_nil]
    rcases hevent with hevent | hevent <;> simp [hevent]
  cases hs with
  | failed hfails hgiven hresults =>
    exact .failed (hheard ▸ hfails) (by simpa [heffects] using hgiven)
      (by simpa [heffects] using hresults)
  | gone hnone hgiven => exact .gone (hheard ▸ hnone) (by simpa [heffects] using hgiven)

/-- The first answer that has been heard stays the first. -/
theorem head?_heard_snoc {first : Change} (hx : client.collectOnce orderRef = .ok x)
    (hfirst : (heard client orderRef h).head? = some first) :
    (heard client orderRef (h ++ [tr])).head? = some first := by
  simp only [heard, hx, answers, List.filterMap_append] at hfirst ⊢
  rw [List.head?_append, hfirst, Option.some_or]

/-- The first answer begins a watch. -/
theorem stands_found (tr : Transition (Job ρ) Event (Effect ρ))
    {answer : Answer} {stopped : Bool} {p : Progress}
    (hx : client.collectOnce orderRef = .ok x) (hnone : heard client orderRef h = [])
    (hgiven : given h = []) (hresults : results client orderRef read closed t₀ givenUp h = [])
    (hquestions : questions client orderRef read closed t₀ givenUp h = 1)
    (hstopped : stopped = true ↔ Cancelled givenUp h) (hstays : ¬ Left h)
    (hrests : ∀ tr ∈ h, ¬ Rests tr.before)
    (hread : readProgress client orderRef answer = .ok p)
    (hw : w = Watch.start tr.time client.pollInterval p stopped)
    (hbefore : tr.before = .startWatch client orderRef read closed stopped)
    (hevent : tr.event = .answered answer)
    (hafter : tr.after = .watch client orderRef w read closed) (heffects : tr.effects = []) :
    heard client orderRef (h ++ [tr]) = [.ok p] ∧
      ∃ sent, Stands client orderRef read closed t₀ givenUp (h ++ [tr]) w sent [] := by
  have hheard : heard client orderRef (h ++ [tr]) = [.ok p] := by
    rw [heard_answered hx hevent, hnone, hread, List.nil_append]
  obtain ⟨sent, haccount⟩ := Watch.account_start (Lost client orderRef (h ++ [tr])) tr.time
    client.pollInterval p stopped
  obtain ⟨hkeeps, hunread⟩ := Watch.offer_marks tr.time
    { interval := client.pollInterval, last := p, stopped } (.ok p)
  have hquiet : w.phase ≠ .asking := hw ▸ Watch.offer_not_asking tr.time _ _
  rw [← hheard, ← hw] at haccount
  refine ⟨hheard, sent, haccount, ?_, ?_, ?_, ?_, ?_, ?_, ?_⟩
  · simp [heffects, hgiven]
  · simp [heffects, hresults]
  · simp [heffects, hquestions, hheard, asks_eq_false hquiet]
  · rw [hw, Watch.start, hunread, left_snoc]
    simp [hstays, hevent]
  · rw [hw, Watch.start, hkeeps, cancelled_snoc]
    simp [hstopped, hevent]
  · exact since_new hafter (fun item deadline hphase => Watch.deadline_of_offer (hw ▸ hphase))
      haccount.sent_eq
  · intro past first later heq _ hrested
    have hmem : first ∈ h ++ [tr] := heq ▸ List.mem_append_right past (.head _)
    rcases List.mem_append.1 hmem with hmem | hmem
    · exact absurd hrested (hrests first hmem)
    · obtain ⟨y, due, hwatch, -⟩ := hrested
      rw [List.mem_singleton.1 hmem, hbefore] at hwatch
      cases hwatch

/-- **A step of the job.** -/
theorem jobStands_step (tr : Transition (Job ρ) Event (Effect ρ))
    (hx : client.collectOnce orderRef = .ok x)
    (hs : JobStands client orderRef read closed t₀ givenUp h tr.before)
    (hstep : machine tr.time tr.before tr.event = some (tr.after, tr.effects)) :
    JobStands client orderRef read closed t₀ givenUp (h ++ [tr]) tr.after := by
  have hdoes := does_of_step hx hs.under hstep
  generalize hbefore : tr.before = j at hs hdoes
  generalize hevent : tr.event = e at hdoes
  generalize hafter : tr.after = j' at hdoes
  generalize heffects : tr.effects = effects at hdoes
  cases hdoes with
  | refused hread =>
    cases hs with
    | starting hnone hgiven hresults =>
      have hfails := heard_answered hx (h := h) hevent
      rw [hnone, hread, List.nil_append] at hfails
      refine .failed hfails ?_ ?_
      · simpa [heffects, Effect.item?] using hgiven
      · simp [heffects, hresults, Effect.result?]
  | found hread =>
    cases hs with
    | starting hnone hgiven hresults hquestions hstopped hstays hrests =>
      obtain ⟨hheard, sent, hstands⟩ := stands_found tr hx hnone hgiven hresults hquestions
        hstopped hstays hrests hread rfl hbefore hevent hafter heffects
      exact .watching (by rw [hheard, List.head?_cons]) hstands
  | told hasks =>
    cases hs with
    | watching hfirst hs =>
      obtain ⟨sent, hstands⟩ := stands_told tr hx hs hasks rfl hevent hafter heffects
      exact .watching (head?_heard_snoc hx hfirst) hstands
  | moved hadvance =>
    cases hs with
    | watching hfirst hs =>
      obtain ⟨sent, hstands⟩ := stands_moved tr hx hs hadvance hevent hafter heffects
      exact .watching (head?_heard_snoc hx hfirst) hstands
  | taken htake =>
    cases hs with
    | watching hfirst hs =>
      exact .watching (head?_heard_snoc hx hfirst) (stands_taken tr hx hs htake hevent heffects)
  | stoppedFirst =>
    cases hs with
    | starting hnone hgiven hresults hquestions hstopped hstays hrests =>
      refine .starting ?_ ?_ ?_ ?_ ?_ ?_ fun past hpast hrested => ?_
      · rw [heard_other hx (by simp [hevent]), hnone]
      · simpa [heffects] using hgiven
      · simpa [heffects] using hresults
      · simpa [heffects] using hquestions
      · simp [hevent]
      · simpa [hevent] using hstays
      · rcases List.mem_append.1 hpast with hpast | hpast
        · exact hrests past hpast hrested
        · obtain ⟨y, due, hwatch, -⟩ := hrested
          rw [List.mem_singleton.1 hpast, hbefore] at hwatch
          cases hwatch
  | stopped =>
    cases hs with
    | watching hfirst hs =>
      obtain ⟨sent, hstands⟩ := stands_stopped tr hx hs rfl hbefore hevent hafter heffects
      exact .watching (head?_heard_snoc hx hfirst) hstands
  | leftFirst =>
    cases hs with
    | starting hnone hgiven =>
      refine .gone ?_ (by simpa [heffects] using hgiven)
      rw [heard_other hx (by simp [hevent]), hnone]
  | left =>
    cases hs with
    | watching hfirst hs =>
      exact .watching (head?_heard_snoc hx hfirst) (stands_left tr hx hs hevent heffects)
  | idle hends => exact jobStands_idle hs (by rwa [hevent]) heffects

/-- What can happen after the end. -/
theorem idle_of_step (hstep : machine now (.over : Job ρ) e = some (j', effects)) :
    j' = .over ∧ effects = [] ∧ (e = .stopped ∨ e = .left) := by
  cases e with
  | answered => cases hstep
  | moved => cases hstep
  | taken => cases hstep
  | stopped =>
    cases hstep
    exact ⟨rfl, rfl, .inl rfl⟩
  | left =>
    cases hstep
    exact ⟨rfl, rfl, .inr rfl⟩

/-- A job whose order may be asked about asks. -/
theorem start_ok (hx : client.collectOnce orderRef = .ok x) :
    start t₀ givenUp (.watch client orderRef read closed) =
      (.startWatch client orderRef read closed givenUp, [.send 0 x.call]) := by
  simp only [start, hx]

/-- A job whose order may not be asked about says so. -/
theorem start_error {failure : Failure} (hx : client.collectOnce orderRef = .error failure) :
    start t₀ givenUp (.watch client orderRef read closed) =
      (.over, [.finish (read (.error failure))]) := by
  simp only [start, hx]

/-- **Every run** stands so. -/
theorem jobStands_of_runs (run : Runs client orderRef read closed t₀ givenUp h now j) :
    JobStands client orderRef read closed t₀ givenUp h j := by
  cases hx : client.collectOnce orderRef with
  | ok x =>
    rw [Runs, start_ok hx] at run
    induction run with
    | start =>
      refine .starting ?_ rfl ?_ ?_ ?_ ?_ (by simp)
      · simp [heard, hx, answers]
      · simp [results, doings, start_ok hx, Effect.result?]
      · simp [questions, doings, start_ok hx, Effect.isQuestion]
      · simp [Cancelled]
      · simp [Left]
    | next _ _ _ hstep ih => exact jobStands_step ⟨_, _, _, _, _⟩ hx ih hstep
  | error failure =>
    rw [Runs, start_error hx] at run
    suffices H : JobStands client orderRef read closed t₀ givenUp h j ∧ j = .over from H.1
    induction run with
    | start =>
      have hfails : heard client orderRef ([] : History ρ) = [.error failure] := by
        simp [heard, hx]
      refine ⟨.failed hfails rfl ?_, rfl⟩
      simp [results, doings, start_error hx, Effect.result?]
    | next _ _ _ hstep ih =>
      obtain ⟨hs, rfl⟩ := ih
      obtain ⟨rfl, rfl, hevent⟩ := idle_of_step hstep
      exact ⟨jobStands_idle hs hevent rfl, rfl⟩

/-! ## The caller -/

/-- After an item was taken the slot is free. -/
theorem slot_of_taken (hstep : machine now j .taken = some (j', effects))
    (hw : watch? j' = some w) : w.slot = none := by
  cases j with
  | watch client orderRef y read closed =>
    simp only [machine, take, Watch.take, Option.map_map, Option.map_eq_some_iff] at hstep
    obtain ⟨item, -, heq⟩ := hstep
    cases heq
    cases hw
    rfl
  | stream client y head chunk =>
    simp only [machine, take, Option.map_map, Option.map_eq_some_iff] at hstep
    obtain ⟨item, -, heq⟩ := hstep
    cases heq
    cases hw
  | _ => cases hstep

/-- Nothing is crowded out while the caller takes items in time. -/
theorem not_crowded (run : Runs client orderRef read closed t₀ givenUp h now j)
    (hprompt : Prompt h) : ¬ Crowded client orderRef h before item := by
  rintro ⟨past, first, during, last, later, rfl, -, hwaits, htime, hmoved⟩
  obtain ⟨w, hw, -, hslot⟩ := hwaits first (.head _)
  obtain ⟨y, hy, htaken, -⟩ := hprompt past first during last later rfl ⟨w, hw, hslot⟩ htime
  rcases List.mem_append.1 hy with hy | hy
  · have hmem : y ∈ past ++ first :: during ++ last :: later := by simp [hy]
    obtain ⟨-, -, -, -, -, -, -, hstep⟩ := run.of_mem hmem
    obtain ⟨w, hw, -, hslot⟩ := hwaits y (.tail _ hy)
    rw [htaken] at hstep
    rw [slot_of_taken hstep hw] at hslot
    cases hslot
  · rw [List.mem_singleton.1 hy, hmoved] at htaken
    cases htaken

/-- A job gives items only when they are taken. -/
theorem items_of_step (hstep : machine now j e = some (j', effects)) (hgoes : e ≠ .taken) :
    effects.filterMap Effect.item? = [] := by
  have hjob (step : Job ρ × List (Job.Effect ρ)) :
      (acts step).2.filterMap Effect.item? = [] := by
    simp [acts, List.filterMap_map, Function.comp_def, Effect.item?]
  cases e with
  | taken => exact absurd rfl hgoes
  | answered answer =>
    simp only [machine, Option.ite_none_right_eq_some, Option.some.injEq] at hstep
    obtain rfl : _ = effects := congrArg Prod.snd hstep.2
    exact hjob _
  | moved =>
    simp only [machine, Option.map_eq_some_iff] at hstep
    obtain ⟨step, -, heq⟩ := hstep
    obtain rfl : _ = effects := congrArg Prod.snd heq
    exact hjob _
  | stopped =>
    simp only [machine, Option.some.injEq] at hstep
    obtain rfl : _ = effects := congrArg Prod.snd hstep
    exact hjob _
  | left =>
    simp only [machine, Option.some.injEq] at hstep
    obtain rfl : _ = effects := congrArg Prod.snd hstep
    exact hjob _

/-- Nothing can be taken once the caller has left. -/
theorem not_taken_of_left (hs : JobStands client orderRef read closed t₀ givenUp h j)
    (hleft : Left h) : machine now j .taken = none := by
  cases hs with
  | failed => rfl
  | starting => rfl
  | gone => rfl
  | watching _ hs =>
    have hslot := hs.account.unread (hs.unread.2 hleft)
    simp only [machine, take, Watch.take, hslot, Option.map_none]

/-- Nothing is given to a caller who has left. -/
theorem given_of_left (run : Runs client orderRef read closed t₀ givenUp h now j) :
    ∀ past tr later, h = past ++ tr :: later → tr.event = .left → given h = given past := by
  induction run with
  | start => simp
  | @next h t now j j' e effects run _ _ hstep ih =>
    intro past tr later heq hleft
    rcases Run.snoc_eq_cut heq with ⟨rfl, rfl, rfl⟩ | ⟨later, rfl, rfl⟩
    · rw [given_snoc, items_of_step hstep (by rintro rfl; cases hleft), List.append_nil]
    · have hgone : Left (past ++ tr :: later) := ⟨tr, by simp, hleft⟩
      have hgoes : e ≠ .taken := by
        rintro rfl
        rw [not_taken_of_left (jobStands_of_runs run) hgone] at hstep
        cases hstep
      rw [given_snoc, items_of_step hstep hgoes, List.append_nil, ih _ _ _ rfl hleft]

/-- What the caller of a watch can rely on after the history `h`: `sent` is what the watch has sent,
and `got` is what of it the caller has taken. -/
structure Delivers (client : BankId.Client) (orderRef : String) (read : Change → ρ) (closed : ρ)
    (t₀ : Nat) (givenUp : Bool) (h : History ρ) (w : Watch) (sent got : List Change) : Prop where
  /-- Only the last answer can be one after which nothing comes. -/
  goes : ∀ answer ∈ (heard client orderRef h).dropLast, isLast answer = false
  /-- BankID has been asked once for every answer, and once more if the watch is asking. -/
  asked : questions client orderRef read closed t₀ givenUp h =
    (heard client orderRef h).length + (asks (.watch client orderRef w read closed)).toNat
  /-- A watch that is never told to stop sends the news. -/
  sends : ¬ Cancelled givenUp h → sent = news (heard client orderRef h)
  /-- The answer after which nothing comes is sent last. Nothing is asked then, and the watch comes
  to its end. -/
  ends : ∀ last, (heard client orderRef h).getLast? = some last → isLast last = true →
    sent = news (heard client orderRef h) ∧ sent.getLast? = some last ∧ w.phase ≠ .asking ∧
      Finishes w
  /-- A watch that is told to stop while it rests says so last. Nothing is asked from then on, and
  the watch comes to its end. -/
  stops : ∀ past tr later, h = past ++ tr :: later → tr.event = .stopped → Rests tr.before →
    sent = news (heard client orderRef h) ++ [.error (.at .bankId .cancelled)] ∧ Finishes w ∧
      ∀ x ∈ tr :: later, ∀ effect ∈ x.effects, effect.isQuestion = false
  /-- A watch that is not over waits for an answer, or moves by itself when its time has come. -/
  moves : w.phase = .over ∨ w.phase = .asking ∨
    ∃ due, w.due? = some due ∧ ∀ now, due ≤ now → (w.advance now).isSome = true
  /-- A watch is over only after the last answer, or when it was told to stop. -/
  finished : w.phase = .over → (∃ last, (heard client orderRef h).getLast? = some last ∧
    isLast last = true) ∨ Cancelled givenUp h
  /-- The caller learns that the watch is over once everything has been taken. -/
  closes : closing? (.watch client orderRef w read closed) = some closed ↔
    w.phase = .over ∧ w.queue = []
  /-- What is sent comes through in its order, save what is lost. -/
  loses : Loses (Lost client orderRef h) sent (got ++ w.queue)
  /-- The first answer comes first, unless the caller has left without taking it. -/
  first : (heard client orderRef h).take 1 <+: got ++ w.queue ∨ Left h ∧ got = []
  /-- Everything comes through to a caller who stays and takes items in time. -/
  whole : Prompt h → ¬ Left h → got ++ w.queue = sent
  /-- A caller who has left is given nothing more. -/
  gone : ∀ past tr later, h = past ++ tr :: later → tr.event = .left → given h = given past

/-- What a caller can rely on in a run. -/
theorem delivers_of_stands (run : Runs client orderRef read closed t₀ givenUp h now j)
    (hs : Stands client orderRef read closed t₀ givenUp h w sent got) :
    Delivers client orderRef read closed t₀ givenUp h w sent got where
  goes := hs.account.heard.goes
  asked := hs.questions
  sends hgoes := hs.account.sent_of_goes (Bool.eq_false_iff.2 fun h => hgoes (hs.stopped.1 h))
  ends last hlast hends := by
    obtain ⟨hsent, hfinishes⟩ := hs.account.ends hlast hends
    refine ⟨hsent, hsent ▸ Watch.getLast_news hs.account.heard.goes hlast hends, fun hasks => ?_,
      hfinishes⟩
    rw [(hs.account.going (.inl hasks)).1 last (List.mem_of_getLast? hlast)] at hends
    cases hends
  stops past tr later heq hevent hrests := by
    obtain ⟨hhalted, hpending, hquiet⟩ := hs.stops past tr later heq hevent hrests
    exact ⟨hs.account.sent_of_halted hpending hhalted, hhalted.finishes, hquiet⟩
  moves := w.moves_on
  finished hover := (hs.account.over hover).imp_right hs.stopped.1
  closes := by simp [closing?, Watch.isClosed_iff]
  loses := hs.account.loses_queue
  first := by
    rcases hs.account.first with hfirst | ⟨hunread, hnone⟩
    · exact .inl (hfirst.trans ⟨w.waiting?.toList, by simp [Watch.queue]⟩)
    · exact .inr ⟨hs.unread.1 hunread, hnone⟩
  whole hprompt hstays := hs.account.loses_queue.eq_of_none fun before item hlost =>
    hlost.elim (not_crowded run hprompt) hstays
  gone := given_of_left run

/-- **What the caller is given.** If asking about the order fails at once, the caller is told so as
a result, and there is no watch. Otherwise the order is watched, and the caller is given items that
the watch has sent: all of them or, if the caller is slow or leaves, some. -/
theorem changes_handed_over (run : Runs client orderRef read closed t₀ givenUp h now j) :
    (∀ failure rest, heard client orderRef h = .error failure :: rest →
      rest = [] ∧ j = .over ∧ given h = [] ∧
        results client orderRef read closed t₀ givenUp h = [read (.error failure)]) ∧
    ∀ p rest, heard client orderRef h = .ok p :: rest →
      results client orderRef read closed t₀ givenUp h = [] ∧
        ∃ w sent got, j = .watch client orderRef w read closed ∧ given h = got.map read ∧
          Delivers client orderRef read closed t₀ givenUp h w sent got := by
  have hs := jobStands_of_runs run
  refine ⟨fun failure rest hheard => ?_, fun p rest hheard => ?_⟩
  · cases hs with
    | failed hfails hgiven hresults =>
      rw [hfails, List.cons.injEq] at hheard
      obtain ⟨hsame, rfl⟩ := hheard
      exact ⟨rfl, rfl, hgiven, hsame ▸ hresults⟩
    | starting hnone => simp [hnone] at hheard
    | gone hnone => simp [hnone] at hheard
    | watching hfirst => simp [hheard] at hfirst
  · cases hs with
    | failed hfails => simp [hfails] at hheard
    | starting hnone => simp [hnone] at hheard
    | gone hnone => simp [hnone] at hheard
    | watching _ hs =>
      exact ⟨hs.results, _, _, _, rfl, hs.given, delivers_of_stands run hs⟩

end

/-- A caller takes the first item late. The change that has waited for the slot for a second by then
is lost, and the one after it is not. -/
theorem slow_caller_misses_change :
    ∃ (client : BankId.Client) (r₀ r₁ r₂ : Progress) (h : History (Option Change))
      (w : Watch),
      Runs client "131daac9" some none 0 false h 3600
        (.watch client "131daac9" w some none) ∧
      heard client "131daac9" h = [.ok r₀, .ok r₁, .ok r₂] ∧
      given h = [some (.ok r₀), some (.ok r₂)] ∧ ¬ Cancelled false h ∧ ¬ Left h ∧
      w.phase = .over ∧
      Delivers client "131daac9" some none 0 false h w [.ok r₀, .ok r₁, .ok r₂]
        [.ok r₀, .ok r₂] := by
  let client : BankId.Client := ⟨"https://appapi2.bankid.com", 1000, 15000⟩
  let r₀ : Progress := { orderRef := "131daac9", status := .pending, hintCode := "started" }
  let r₁ : Progress := { orderRef := "131daac9", status := .pending, hintCode := "userSign" }
  let r₂ : Progress := { orderRef := "131daac9", status := .complete }
  let a₀ : Answer := .replied 200
    "\x7b\"orderRef\":\"131daac9\",\"status\":\"pending\",\"hintCode\":\"started\"\x7d".toUTF8
  let a₁ : Answer := .replied 200
    "\x7b\"orderRef\":\"131daac9\",\"status\":\"pending\",\"hintCode\":\"userSign\"\x7d".toUTF8
  let a₂ : Answer := .replied 200 "\x7b\"orderRef\":\"131daac9\",\"status\":\"complete\"\x7d".toUTF8
  have hread₀ : readProgress client "131daac9" a₀ = .ok r₀ := by decide +kernel
  have hread₁ : readProgress client "131daac9" a₁ = .ok r₁ := by decide +kernel
  have hread₂ : readProgress client "131daac9" a₂ = .ok r₂ := by decide +kernel
  have hx : client.collectOnce "131daac9" = .ok (client.post BankId.collectPath
    (Wire.toJson (BankId.OrderName.mk "131daac9")) Wire.ofTree?) := rfl
  -- The first answer stands in the slot until the caller takes it, after half of a fourth second.
  let w₀ : Watch := { interval := 1000, last := r₀, phase := .resting 1000, slot := some (.ok r₀) }
  let w₁ : Watch := { w₀ with last := r₁, phase := .offering (.ok r₁) 2000 }
  let w₂ : Watch := { w₁ with last := r₂, phase := .offering (.ok r₂) 4000 }
  let job (w : Watch) : Job (Option Change) := .watch client "131daac9" w some none
  have s₁ : machine 0 (.startWatch client "131daac9" some none false) (.answered a₀) =
      some (job w₀, []) := step_of_does hx (.found hread₀)
  have s₂ : machine 1000 (job w₀) .moved = some (job { w₀ with phase := .asking }, _) :=
    step_of_does hx (.moved rfl)
  have s₃ : machine 1000 (job { w₀ with phase := .asking }) (.answered a₁) = some (job w₁, []) := by
    rw [step_of_does hx (.told rfl), hread₁]
    rfl
  have m₄ : w₁.advance 2000 = some ({ w₁ with phase := .resting 3000 }, false) := rfl
  have s₄ : machine 2000 (job w₁) .moved = some (job { w₁ with phase := .resting 3000 }, []) :=
    step_of_does hx (.moved m₄)
  have s₅ : machine 3000 (job { w₁ with phase := .resting 3000 }) .moved =
      some (job { w₁ with phase := .asking }, _) := step_of_does hx (.moved rfl)
  have s₆ : machine 3000 (job { w₁ with phase := .asking }) (.answered a₂) = some (job w₂, []) := by
    rw [step_of_does hx (.told rfl), hread₂]
    rfl
  have s₇ : machine 3500 (job w₂) .taken =
      some (job { w₂ with slot := none }, [.give (some (.ok r₀))]) := step_of_does hx (.taken rfl)
  have m₈ : Watch.advance 3500 { w₂ with slot := none } =
      some ({ w₂ with phase := .over, slot := some (.ok r₂) }, false) := rfl
  have s₈ : machine 3500 (job { w₂ with slot := none }) .moved =
      some (job { w₂ with phase := .over, slot := some (.ok r₂) }, []) :=
    step_of_does hx (.moved m₈)
  have s₉ : machine 3600 (job { w₂ with phase := .over, slot := some (.ok r₂) }) .taken =
      some (job { w₂ with phase := .over, slot := none }, [.give (some (.ok r₂))]) :=
    step_of_does hx (.taken rfl)
  have h₀ : Runs client "131daac9" some none 0 false [] 0
      (.startWatch client "131daac9" some none false) := by
    rw [Runs, start_ok hx]
    exact .start
  have run := ((((((((h₀.next (Nat.le_refl 0) trivial s₁).next (Nat.zero_le 1000) trivial s₂).next
    (Nat.le_refl 1000) trivial s₃).next (Nat.le_add_right 1000 1000) trivial s₄).next
    (Nat.le_add_right 2000 1000) trivial s₅).next (Nat.le_refl 3000) trivial s₆).next
    (Nat.le_add_right 3000 500) trivial s₇).next (Nat.le_refl 3500) trivial s₈).next
    (Nat.le_add_right 3500 100) trivial s₉
  obtain ⟨h, run, hheard, hgiven, hgoes, hstays⟩ :
      ∃ h, Runs client "131daac9" some none 0 false h 3600
          (job { w₂ with phase := .over, slot := none }) ∧
        heard client "131daac9" h = [.ok r₀, .ok r₁, .ok r₂] ∧
        given h = [some (.ok r₀), some (.ok r₂)] ∧ ¬ Cancelled false h ∧ ¬ Left h :=
    ⟨_, run, by simp [heard, hx, answers, hread₀, hread₁, hread₂], rfl, by simp [Cancelled],
      by simp [Left]⟩
  obtain ⟨-, w, sent, got, hjob, hgot, hdelivers⟩ := (changes_handed_over run).2 r₀ _ hheard
  obtain rfl : _ = w := (Job.watch.inj hjob).2.2.1
  obtain rfl : got = [.ok r₀, .ok r₂] :=
    List.map_injective_iff.2 (fun _ _ => Option.some.inj) (hgot.symm.trans hgiven)
  have hsent : sent = [.ok r₀, .ok r₁, .ok r₂] := by
    rw [hdelivers.sends hgoes, hheard]
    decide
  exact ⟨client, r₀, r₁, r₂, h, _, run, hheard, hgiven, hgoes, hstays, rfl, hsent ▸ hdelivers⟩

end OrderBroker.Job.Watching
