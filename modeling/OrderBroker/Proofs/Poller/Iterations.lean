import OrderBroker.Proofs.Poller.Latecomers
import OrderBroker.Proofs.Poller.Unknown

/-!
# Iterations of a poller

A poller rests, starts a round or answers a latecomer, prunes, and rests again: one iteration after
the other. `turn_of_step` says what a step is to the course of the iterations, and the rest of this
module reads off it: an iteration ends with a pruning (`after_of_ends`), no order comes into the
table but with a registration that joins those who wait (`orders_of_step`), and what a round
asks is settled when it starts (`asked_of_opens`, `asked_in_round`).
-/

namespace OrderBroker.Freja.Poller

/-! ## The parts of an iteration -/

/-- The poller moves by itself. -/
def Event.isMove : Event → Bool
  | .move _ => true
  | _ => false

/-- The transition ends an iteration: the poller rests after it, and it has asked or moved. -/
def ends (tr : Transition Poller Event Effect) : Bool :=
  tr.after.rests && (!tr.before.rests || tr.event.isMove)

/-- The registration that is taken from the queue, if one is. -/
def taken? (p : Poller) : Event → Option Registration
  | .move .accept => p.queue.head?
  | _ => none

/-- The registration that joins those who wait, if one does: it is taken from the queue, and nothing
is remembered of its order. -/
def joins? (p : Poller) (e : Event) : Option Registration :=
  (p.taken? e).filter fun g => (p.seen? g.reference).isNone

/-- The poller without the first registration of its queue. -/
def withoutFirst (p : Poller) : Poller := ({ p with queue := p.queue.tail } : Poller).fillQueue.1

/-- A registration joins those who wait. -/
def joined (now : Nat) (g : Registration) (p : Poller) : Poller :=
  { p with waiting := addWaiter g.waiter g.reference p.waiting, registeredAt := now }

/-- The poller after what comes in an iteration before the pruning at its end. -/
def unpruned (now : Nat) (p : Poller) (e : Event) : Poller :=
  match e with
  | .toldOne asked o => (p.takeOne now asked o).1
  | .toldAll (.ok xs) => (p.processAll now xs).1
  | .move .accept =>
    match p.joins? e with
    | some g => p.withoutFirst.joined now g
    | none => p.withoutFirst
  | _ => p

/-- The transition starts a round, for the sake of the orders that are waited for then: those of a
registration that joins among them, or those in the table when the rest is over. -/
inductive Opens (tr : Transition Poller Event Effect) : List String → Prop
  | joined {g : Registration} : tr.before.joins? tr.event = some g →
      Opens tr (tr.before.joined tr.time g).orders
  | rested : tr.event = .move .round → Opens tr tr.before.orders

/-- What a round asks that starts while orders are waited for: for one to four of them one by one,
unless they have no name, and else for all at once. -/
def plan (orders : List String) : List Effect :=
  if 0 < orders.length ∧ orders.length < 5 then
    (orders.filter (· ≠ "")).map .askOne
  else [.askAll]

/-- What is still to be asked in the round that is under way. -/
def toAsk (p : Poller) : List Effect := p.agenda.tail.map .askOne

/-- The questions among effects. -/
def asked (effects : List Effect) : List Effect := effects.filter Effect.asks

section
variable {p p' q : Poller} {t now : Nat} {e : Event} {effects : List Effect} {g : Registration}
  {tr : Transition Poller Event Effect} {orders : List String} {r : String}

/-- Whoever joins is taken from the queue, and nothing is remembered of his order. -/
theorem joins?_eq_some :
    p.joins? e = some g ↔ p.taken? e = some g ∧ p.seen? g.reference = none := by
  simp [joins?, Option.filter_eq_some_iff]

/-- Whoever is taken from the queue stands first in it, when the poller takes a registration. -/
theorem taken?_eq_some : p.taken? e = some g ↔ e = .move .accept ∧ p.queue.head? = some g := by
  cases e with
  | move m => cases m <;> simp [taken?]
  | _ => simp [taken?]

/-- Where the queue goes on, the rest of the poller stays. -/
theorem withoutFirst_eq (p : Poller) :
    p.withoutFirst = { p with queue := p.withoutFirst.queue, blocked := p.withoutFirst.blocked } :=
  fillQueue_eq _

/-- The orders that are waited for when somebody has joined. -/
theorem mem_orders_joined : r ∈ (p.joined now g).orders ↔ r ∈ p.orders ∨ r = g.reference := by
  rw [orders, joined, keys_addWaiter]
  split
  · next hmem =>
    refine ⟨.inl, fun hr => hr.elim id fun heq => heq ▸ hmem⟩
  · rw [List.mem_append, List.mem_singleton]
    rfl

/-! ## What a step is to an iteration -/

/-- `Turn now p e p' effects`: what a step is to the course of the iterations. -/
inductive Turn (now : Nat) (p : Poller) : Event → Poller → List Effect → Prop
  /-- Something comes from outside, and the iteration takes its course. -/
  | outside {e : Event} {p' : Poller} {effects : List Effect} : e.outer = true →
      p'.phase = p.phase → p'.orders.Perm p.orders → p'.registeredAt = p.registeredAt →
      asked effects = [] → Turn now p e p' effects
  /-- The poller stops. -/
  | stop : p.rests = true → Turn now p (.move .stop) p.stop.1 p.stop.2
  /-- A latecomer is answered, and the iteration is over. -/
  | late {g : Registration} {effects : List Effect} : p.rests = true →
      p.taken? (.move .accept) = some g → p.joins? (.move .accept) = none → asked effects = [] →
      Turn now p (.move .accept) (p.withoutFirst.endRound now) effects
  /-- Somebody joins those who wait, and a round starts. -/
  | join {g : Registration} {admitted : List Effect} : p.rests = true →
      p.joins? (.move .accept) = some g → asked admitted = [] →
      Turn now p (.move .accept) ((p.withoutFirst.joined now g).startRound now).1
        (admitted ++ ((p.withoutFirst.joined now g).startRound now).2)
  /-- The rest is over, and a round starts. -/
  | round {due : Nat} : p.phase = .resting due → due ≤ now →
      Turn now p (.move .round) (p.startRound now).1 (p.startRound now).2
  /-- An answer about one order is taken, and the next question asked. -/
  | one {r : String} {later : List String} {o : Outcome} : p.phase = .single r later →
      Turn now p (.toldOne r o) ((p.takeOne now r o).1.askNext now later).1
        ((p.takeOne now r o).2 ++ ((p.takeOne now r o).1.askNext now later).2)
  /-- An answer about all orders is taken, and the iteration is over. -/
  | all {answer : Except Failure (List Result)} : p.phase = .bulk →
      Turn now p (.toldAll answer) ((p.unpruned now (.toldAll answer)).endRound now)
        (p.answeredAll now answer).2

/-- Where no effect is a question, there are no questions. -/
theorem asked_eq_nil (h : ∀ effect ∈ effects, effect.asks = false) : asked effects = [] :=
  List.filter_eq_nil_iff.2 fun effect heffect => by simp [h effect heffect]

/-- Taking an answer asks nothing. -/
theorem asked_takeOne (p : Poller) (now : Nat) (r : String) (o : Outcome) :
    asked (p.takeOne now r o).2 = [] := by
  refine asked_eq_nil fun effect heffect => ?_
  cases o with
  | ok x => exact asks_process heffect
  | error failure =>
    simp only [takeOne] at heffect
    split at heffect
    · exact asks_answerAll heffect
    · cases heffect

/-- Taking the results of all orders asks nothing. -/
theorem asked_answeredAll (p : Poller) (now : Nat) (answer : Except Failure (List Result)) :
    asked (p.answeredAll now answer).2 = [] := by
  refine asked_eq_nil fun effect heffect => ?_
  unfold answeredAll at heffect
  split at heffect
  · cases answer with
    | ok xs => exact asks_processAll heffect
    | error _ => cases heffect
  · cases heffect

/-- A registration that is taken answers a latecomer or starts a round. -/
theorem turn_accept (hrests : p.rests = true) (hqueue : p.queue ≠ []) :
    Turn now p (.move .accept) (p.acceptNext now).1 (p.acceptNext now).2 := by
  obtain ⟨g, rest, hqueue⟩ := List.exists_cons_of_ne_nil hqueue
  have htaken : p.taken? (.move .accept) = some g := by simp [taken?, hqueue]
  have hfirst : ({ p with queue := rest } : Poller).fillQueue.1 = p.withoutFirst := by
    rw [withoutFirst, hqueue, List.tail_cons]
  have hseen : p.withoutFirst.seen? g.reference = p.seen? g.reference := by
    rw [withoutFirst_eq]
    rfl
  have hfill : asked ({ p with queue := rest } : Poller).fillQueue.2 = [] :=
    asked_eq_nil fun _ => asks_fillQueue
  simp only [acceptNext, hqueue, hfirst]
  unfold accept
  rw [hseen]
  cases hremembered : p.seen? g.reference with
  | some x =>
    refine .late hrests htaken (by simp [joins?, htaken, hremembered]) ?_
    rw [asked, List.filter_append, ← asked, hfill, List.nil_append]
    exact asked_eq_nil fun _ => asks_answerAll
  | none => exact .join hrests (joins?_eq_some.2 ⟨htaken, hremembered⟩) hfill

/-- **What a step is to an iteration** is one of these. -/
theorem turn_of_step (hstep : machine now p e = some (p', effects)) : Turn now p e p' effects := by
  cases does_of_step hstep with
  | register w r =>
    unfold register
    split
    · exact .outside rfl rfl (.refl _) rfl rfl
    · split <;> exact .outside rfl rfl (.refl _) rfl rfl
  | giveUp w =>
    refine .outside rfl rfl ?_ rfl rfl
    simp [orders, giveUp, List.map_map, Function.comp_def]
  | shutdown => exact .outside rfl rfl (.refl _) rfl rfl
  | relist hperm => exact .outside rfl rfl (hperm.map _) rfl rfl
  | @move m hm =>
    obtain ⟨due, hphase⟩ := resting_of_mem_moves hm
    have hrests : p.rests = true := by rw [rests, hphase]
    cases m with
    | stop => exact .stop hrests
    | accept =>
      refine turn_accept hrests fun hnone => ?_
      simp [moves, hphase, hnone] at hm
    | round =>
      refine .round hphase ?_
      simp only [moves, hphase] at hm
      by_contra hlater
      simp [hlater] at hm
  | @toldOne r later o hphase =>
    rw [answeredOne_eq now hphase]
    exact .one hphase
  | toldAll answer hphase =>
    have hafter : (p.answeredAll now answer).1 =
        (p.unpruned now (.toldAll answer)).endRound now := by
      simp only [answeredAll, hphase]
      cases answer <;> rfl
    rw [hafter]
    exact .all hphase

/-! ## The end of an iteration -/

/-- A round is over at its start if there is nothing to ask. -/
theorem endRound_of_startRound (hrests : (p.startRound now).1.rests = true) :
    (p.startRound now).1 = p.endRound now := by
  by_cases hfew : 0 < p.orders.length ∧ p.orders.length < bulkThreshold
  · rw [startRound_few now hfew.1 hfew.2] at hrests ⊢
    cases hnamed : p.named with
    | nil => rfl
    | cons r rest =>
      rw [hnamed] at hrests
      cases hrests
  · rw [startRound_many now hfew] at hrests
    cases hrests

/-- What comes from outside is no move. -/
theorem isMove_of_outer (houter : e.outer = true) : e.isMove = false := by
  cases e with
  | move m => cases houter
  | _ => rfl

/-- What comes from outside ends no iteration. -/
theorem outer_of_ends (hstep : machine tr.time tr.before tr.event = some (tr.after, tr.effects))
    (hends : ends tr = true) : tr.event.outer = false := by
  obtain ⟨now, p, e, p', effects⟩ := tr
  simp only [ends, Bool.and_eq_true, Bool.or_eq_true, Bool.not_eq_true'] at hstep hends ⊢
  obtain ⟨hrests, hends⟩ := hends
  cases turn_of_step hstep with
  | outside houter hphase =>
    rw [rests, hphase, ← rests] at hrests
    rw [hrests, isMove_of_outer houter] at hends
    simp at hends
  | _ => rfl

/-- **An iteration ends with a pruning**, after which the poller begins to rest. -/
theorem after_of_ends (hstep : machine tr.time tr.before tr.event = some (tr.after, tr.effects))
    (hends : ends tr = true) :
    tr.after = (tr.before.unpruned tr.time tr.event).endRound tr.time := by
  have hinner := outer_of_ends hstep hends
  obtain ⟨now, p, e, p', effects⟩ := tr
  simp only [ends, Bool.and_eq_true] at hstep hends hinner ⊢
  obtain ⟨hrests, -⟩ := hends
  cases turn_of_step hstep with
  | outside houter =>
    rw [houter] at hinner
    cases hinner
  | stop => cases hrests
  | late _ _ hnone _ => simp only [unpruned, hnone]
  | join _ hjoins _ =>
    simp only [unpruned, hjoins]
    exact endRound_of_startRound hrests
  | round => exact endRound_of_startRound hrests
  | @one r later o =>
    cases later with
    | nil => rfl
    | cons r' rest => cases hrests
  | all => rfl

/-- A poller that rests and is not at the end of an iteration goes on resting. -/
theorem phase_of_not_ends (hstep : machine tr.time tr.before tr.event = some (tr.after, tr.effects))
    (hends : ends tr = false) (hrests : tr.after.rests = true) :
    tr.after.phase = tr.before.phase := by
  simp only [ends, hrests, Bool.true_and, Bool.or_eq_false_iff, Bool.not_eq_false'] at hends
  refine phase_of_step hstep hends.1 fun m hm => ?_
  rw [hm] at hends
  cases hends.2

/-! ## Orders -/

/-- What comes before the pruning brings no order into the table, unless somebody joins. -/
theorem orders_unpruned_subset (p : Poller) (now : Nat) (e : Event) :
    ∀ r ∈ (p.unpruned now e).orders, r ∈ p.orders ∨ ∃ g, p.joins? e = some g ∧ r = g.reference := by
  intro r hr
  have hfirst : p.withoutFirst.orders = p.orders := by rw [withoutFirst_eq]; rfl
  unfold unpruned at hr
  split at hr
  · exact .inl (orders_takeOne_subset p now _ _ hr)
  · exact .inl (orders_processAll_subset p now _ hr)
  · split at hr
    · next g hjoins =>
      rcases mem_orders_joined.1 hr with hr | hr
      · exact .inl (hfirst ▸ hr)
      · exact .inr ⟨g, hjoins, hr⟩
    · exact .inl (hfirst ▸ hr)
  · exact .inl hr

/-- At its start a round brings no order into the table. -/
theorem orders_startRound_subset (p : Poller) (now : Nat) :
    (p.startRound now).1.orders ⊆ p.orders := by
  unfold startRound
  split
  · exact orders_askNext_subset p now _
  · exact List.Subset.refl _

/-- **No order comes into the table but with a registration that joins.** -/
theorem orders_of_step (hstep : machine now p e = some (p', effects)) :
    ∀ r ∈ p'.orders, r ∈ p.orders ∨ ∃ g, p.joins? e = some g ∧ r = g.reference := by
  intro r hr
  have hfirst : p.withoutFirst.orders = p.orders := by rw [withoutFirst_eq]; rfl
  cases turn_of_step hstep with
  | outside _ _ hperm => exact .inl (hperm.mem_iff.1 hr)
  | stop => cases hr
  | late => exact .inl (hfirst ▸ orders_endRound_subset _ now hr)
  | join _ hjoins _ =>
    rcases mem_orders_joined.1 (orders_startRound_subset _ now hr) with hr | hr
    · exact .inl (hfirst ▸ hr)
    · exact .inr ⟨_, hjoins, hr⟩
  | round => exact .inl (orders_startRound_subset p now hr)
  | one => exact .inl (orders_takeOne_subset p now _ _ (orders_askNext_subset _ now _ hr))
  | all => exact orders_unpruned_subset p now _ r (orders_endRound_subset _ now hr)

/-! ## Questions -/

/-- Two lists of effects ask what the one asks and then what the other asks. -/
@[simp] theorem asked_append (effects effects' : List Effect) :
    asked (effects ++ effects') = asked effects ++ asked effects' := List.filter_append _ _

/-- What is asked next, and what is still to be asked then. -/
theorem asked_askNext (p : Poller) (now : Nat) (rs : List String) :
    asked (p.askNext now rs).2 ++ (p.askNext now rs).1.toAsk = rs.map .askOne := by
  cases rs <;> rfl

/-- What a round asks at its start, and what is still to be asked then. -/
theorem asked_startRound (p : Poller) (now : Nat) :
    asked (p.startRound now).2 ++ (p.startRound now).1.toAsk = plan p.orders := by
  by_cases hfew : 0 < p.orders.length ∧ p.orders.length < 5
  · rw [startRound_few now hfew.1 hfew.2, asked_askNext, plan, if_pos hfew, named]
  · rw [startRound_many now hfew, plan, if_neg hfew]
    rfl

/-- A poller that rests has nothing to ask. -/
theorem toAsk_of_rests (hrests : p.rests = true) : p.toAsk = [] := by
  rw [toAsk, agenda_of_rests hrests]
  rfl

/-- Where the poller stands, it has the same to ask. -/
theorem toAsk_of_phase (hphase : p'.phase = p.phase) : p'.toAsk = p.toAsk := by
  rw [toAsk, toAsk, agenda, agenda, hphase]

/-- **What a round asks** is settled when it starts. -/
theorem asked_of_opens (hstep : machine tr.time tr.before tr.event = some (tr.after, tr.effects))
    (hopens : Opens tr orders) : asked tr.effects ++ tr.after.toAsk = plan orders := by
  obtain ⟨now, p, e, p', effects⟩ := tr
  simp only at hstep
  have hturn := turn_of_step hstep
  cases hopens with
  | @joined g hjoins =>
    obtain ⟨rfl, -⟩ := taken?_eq_some.1 (joins?_eq_some.1 hjoins).1
    cases hturn with
    | outside houter => cases houter
    | late _ _ hnone _ =>
      rw [hnone] at hjoins
      cases hjoins
    | @join g' admitted _ hjoins' hadmitted =>
      obtain rfl : g' = g := Option.some.inj (hjoins'.symm.trans hjoins)
      have horders : (p.withoutFirst.joined now g').orders = (p.joined now g').orders := by
        rw [withoutFirst_eq]
        rfl
      rw [asked_append, hadmitted, List.nil_append, asked_startRound, horders]
  | rested hround =>
    simp only at hround
    subst hround
    cases hturn with
    | outside houter => cases houter
    | round => exact asked_startRound p now

/-- In the course of a round nothing is asked but what is still to be asked. -/
theorem asked_in_round (hstep : machine now p e = some (p', effects)) (hasks : p.rests = false) :
    asked effects ++ p'.toAsk = p.toAsk := by
  cases turn_of_step hstep with
  | outside _ hphase _ _ hnone => rw [hnone, List.nil_append, toAsk_of_phase hphase]
  | stop hrests | late hrests | join hrests =>
    rw [hrests] at hasks
    cases hasks
  | round hphase =>
    rw [rests, hphase] at hasks
    cases hasks
  | one hphase =>
    rw [asked_append, asked_takeOne, List.nil_append, asked_askNext, toAsk, agenda, hphase,
      List.tail_cons]
  | all hphase =>
    rw [asked_answeredAll, toAsk_of_rests rfl, toAsk, agenda, hphase]
    rfl

/-- A poller that rests asks nothing, unless a round starts. -/
theorem opens_or_idle (hstep : machine tr.time tr.before tr.event = some (tr.after, tr.effects))
    (hrests : tr.before.rests = true) :
    (∃ orders, Opens tr orders) ∨ (asked tr.effects = [] ∧ tr.after.toAsk = []) := by
  obtain ⟨now, p, e, p', effects⟩ := tr
  simp only at hstep hrests
  have hidle : p.toAsk = [] := toAsk_of_rests hrests
  cases turn_of_step hstep with
  | outside _ hphase _ _ hnone => exact .inr ⟨hnone, (toAsk_of_phase hphase).trans hidle⟩
  | stop => exact .inr ⟨asked_eq_nil fun _ => asks_answerAll, rfl⟩
  | late _ _ _ hnone => exact .inr ⟨hnone, rfl⟩
  | join _ hjoins => exact .inl ⟨_, .joined hjoins⟩
  | round => exact .inl ⟨_, .rested rfl⟩
  | one hphase | all hphase =>
    simp only [rests, hphase] at hrests
    cases hrests

/-- A round starts where the poller rests. -/
theorem rests_of_opens (hstep : machine tr.time tr.before tr.event = some (tr.after, tr.effects))
    (hopens : Opens tr orders) : tr.before.rests = true := by
  have hmove : ∃ m, tr.event = .move m := by
    cases hopens with
    | joined hjoins => exact ⟨_, (taken?_eq_some.1 (joins?_eq_some.1 hjoins).1).1⟩
    | rested hround => exact ⟨_, hround⟩
  obtain ⟨m, hmove⟩ := hmove
  rw [hmove] at hstep
  obtain ⟨due, hphase⟩ := resting_of_mem_moves (Option.ite_none_right_eq_some.1 hstep).1
  rw [rests, hphase]

/-- No order is listed twice for which a round starts. -/
theorem nodup_of_opens (hp : Sound tr.before)
    (hstep : machine tr.time tr.before tr.event = some (tr.after, tr.effects))
    (hopens : Opens tr orders) : orders.Nodup := by
  have hgoes : tr.before.phase ≠ .stopped := by
    have hrests := rests_of_opens hstep hopens
    intro hstopped
    rw [rests, hstopped] at hrests
    cases hrests
  cases hopens with
  | joined hjoins =>
    exact (sound_addWaiter hp hgoes tr.time _ (joins?_eq_some.1 hjoins).2).orders_nodup
  | rested => exact hp.orders_nodup

end

end OrderBroker.Freja.Poller
