import OrderBroker.Http.Problem
import OrderBroker.Proofs.Freja.Modes
import OrderBroker.Proofs.Operations
import OrderBroker.Proofs.Service.Times

/-!
# Orders without a name

A handle that comes back without the name of its order is refused, and nothing is sent. An inquiry
into where the order stands, a wait for a change and a cancelling are refused at once; a wait for
the end of a BankID order rests for one polling interval before it is refused. Only the wait for the
result of a Freja order is not refused: the name goes to the poller, which never asks for it, and
answers it with any final result that came without a name (`nameless_order`,
`nameless_order_answered`).
-/

namespace OrderBroker

open OrderBroker.Order (Handle Outcome)

variable {ρ : Type}

/-! ## Waits that may not ask -/

namespace Job

/-- `Unasked t₀ rule x read gaveUp j ending`: what becomes of a wait since `t₀` that asks only after
a rest, and then may not, because of `x`. -/
inductive Unasked (t₀ : Nat) (rule : Wait.Rule ρ) (x : ρ) (read : Answer → Except ρ (Sighting ρ))
    (gaveUp : Prop) : Job ρ → Option (Ending ρ) → Prop
  | rests {w : Wait ρ} : w.rule = rule → w.phase = .resting (t₀ + rule.interval) →
      Unasked t₀ rule x read gaveUp (.wait w (.error x) read none) none
  | refused {w : Wait ρ} {t : Nat} : w.phase = .over → t₀ + rule.interval ≤ t →
      Unasked t₀ rule x read gaveUp (.wait w (.error x) read none) (some (.done t x))
  | cancelled {w : Wait ρ} {t : Nat} : w.phase = .over → gaveUp →
      Unasked t₀ rule x read gaveUp (.wait w (.error x) read none) (some (.done t rule.cancelled))
  | left {w : Wait ρ} {t : Nat} : w.phase = .over →
      Unasked t₀ rule x read gaveUp (.wait w (.error x) read none) (some (.left t))

section
variable {rule : Wait.Rule ρ} {x : ρ} {read : Answer → Except ρ (Sighting ρ)} {t₀ now : Nat}
  {givenUp : Bool} {h : History ρ} {j : Job ρ} {tr : Transition (Job ρ) Event (Effect ρ)}

/-- Giving up and leaving do nothing to a wait that may not cancel its order but end it. -/
theorem waitEffects_abandon (w : Wait ρ) (question : Except ρ Call)
    (effects : List (Wait.Effect ρ)) :
    waitEffects question none (w.abandon effects).2 = waitEffects question none effects := by
  rw [Wait.abandon, waitEffects_append]
  split
  · exact List.append_nil _
  · exact List.append_nil _

/-- A wait that rests is refused at the end of its rest. -/
theorem advance_unasked (x : ρ) (read : Answer → Except ρ (Sighting ρ)) {w : Wait ρ} {due : Nat}
    (hrests : w.phase = .resting due) (hdue : due ≤ now) :
    ∃ w' : Wait ρ, w'.phase = .over ∧ advance now (.wait w (.error x) read none) =
      some (.wait w' (.error x) read none, [.finish x]) := by
  refine ⟨(({ w with phase := .asking } : Wait ρ).abandon [.finish x]).1, rfl, ?_⟩
  rw [advance, Wait.advance_resting hrests, if_pos hdue, Option.map_some]
  refine congrArg some (Prod.ext rfl ?_)
  exact waitEffects_abandon { w with phase := .asking } (.error x) [.ask, .finish x]

/-- A wait that asks at once, and may not, is refused at once. -/
theorem start_unasked (hatOnce : rule.asksAtOnce = true) :
    (start t₀ givenUp (.wait rule (.error x) read none)).2 = [.finish x] := by
  have hstart : Wait.start t₀ rule givenUp = Wait.ask { rule, givenUp } := by
    simp [Wait.start, hatOnce]
  rw [start, hstart]
  exact waitEffects_abandon { rule, phase := .asking, givenUp } (.error x) [.ask, .finish x]

/-- Every step of a wait that asks after a rest. -/
theorem Unasked.step {ending : Option (Ending ρ)}
    (hj : Unasked t₀ rule x read (GaveUp givenUp h) tr.before ending)
    (hstep : machine tr.time tr.before tr.event = some (tr.after, tr.effects)) :
    Unasked t₀ rule x read (GaveUp givenUp (h ++ [tr])) tr.after (ending.or (endsBy? tr)) := by
  obtain ⟨now, j, e, j', effects⟩ := tr
  simp only at hj hstep ⊢
  cases hj with
  | @rests w hrule hrests =>
    have hidle := Wait.idle_of_resting hrests
    rw [Option.none_or]
    cases e with
    | answered slot answer =>
      rw [machine, answered, Wait.answered_idle hidle, ofWait_idle hidle] at hstep
      obtain ⟨rfl, rfl⟩ := Prod.mk.inj (Option.some.inj hstep)
      exact .rests hrule hrests
    | advance =>
      rcases Nat.lt_or_ge now (t₀ + rule.interval) with hearly | hdue
      · rw [machine, advance, Wait.advance_resting hrests, if_neg (Nat.not_le_of_lt hearly)] at hstep
        cases hstep
      · obtain ⟨w', hover, hadvance⟩ := advance_unasked x read hrests hdue
        rw [machine, hadvance] at hstep
        obtain ⟨rfl, rfl⟩ := Prod.mk.inj (Option.some.inj hstep)
        exact .refused hover hdue
    | giveUp =>
      have hgave :
          GaveUp givenUp (h ++ [⟨now, .wait w (.error x) read none, .giveUp, j', effects⟩]) :=
        .inr ⟨_, List.mem_append_right _ (.head _), rfl⟩
      rw [machine, giveUp, Wait.giveUp_resting hrests, ofWait_idle Wait.Phase.noConfusion,
        waitEffects_abandon] at hstep
      obtain ⟨rfl, rfl⟩ := Prod.mk.inj (Option.some.inj hstep)
      rw [← hrule]
      exact .cancelled rfl hgave
    | drop =>
      rw [machine, drop, Wait.drop_of_goes (Wait.goes_of_resting hrests),
        ofWait_idle Wait.Phase.noConfusion] at hstep
      obtain ⟨rfl, rfl⟩ := Prod.mk.inj (Option.some.inj hstep)
      exact .left rfl
    | _ =>
      obtain ⟨rfl, rfl⟩ := Prod.mk.inj (Option.some.inj hstep)
      exact .rests hrule hrests
  | refused hover hlate =>
    obtain ⟨rfl, rfl⟩ := wait_stays_over hover hstep
    exact .refused hover hlate
  | cancelled hover hgave =>
    obtain ⟨rfl, rfl⟩ := wait_stays_over hover hstep
    exact .cancelled hover hgave.later
  | left hover =>
    obtain ⟨rfl, rfl⟩ := wait_stays_over hover hstep
    exact .left hover

/-- **A wait that asks only after a rest, and then may not**, rests, or has ended. -/
theorem unasked_of_runs (hlate : rule.asksAtOnce = false)
    (run : Runs t₀ givenUp (.wait rule (.error x) read none) h now j) :
    Unasked t₀ rule x read (GaveUp givenUp h) j
      (ending? t₀ givenUp (.wait rule (.error x) read none) h) := by
  induction run with
  | start =>
    have hstart : Wait.start t₀ rule givenUp = Wait.rest t₀ { rule, givenUp } := by
      simp [Wait.start, hlate]
    rw [ending?_nil, start, hstart]
    cases givenUp with
    | true =>
      have habandon : Wait.rest t₀ { rule, givenUp := true } =
          ({ rule, givenUp := true } : Wait ρ).abandon [.finish rule.cancelled] := rfl
      rw [habandon, ofWait_idle Wait.Phase.noConfusion, waitEffects_abandon]
      exact .cancelled rfl (.inl rfl)
    | false => exact .rests rfl rfl
  | next _ _ _ hstep ih =>
    rw [ending?_snoc]
    exact ih.step hstep

end

end Job

/-! ## Refusals -/

/-- Why nothing is asked about an order without a name. -/
def ProviderClient.unnamed (p : ProviderClient) (handle : Handle) : Failure :=
  match p with
  | .bankId _ => .at .bankId (.validation "missing order ref")
  | .freja _ => .at .freja (.validation (Freja.modeKey handle.mode ++ " is required"))

/-- An order without a name is a bad request. -/
theorem ProviderClient.status_unnamed (p : ProviderClient) (handle : Handle) :
    (Http.Problem.ofFailure (p.unnamed handle)).status = 400 := by
  cases p <;> rfl

/-- The inquiry waits for the end of the order. -/
def Inquiry.awaitsEnd : Inquiry → Bool
  | .collect _ => true
  | _ => false

/-- The activity gives the result at its start, and sends nothing. -/
structure Activity.Refuses (a : Activity ρ) (x : ρ) : Prop where
  plain : a.IsPlain
  mute : a.Mute
  gives : ∀ t givenUp, (Job.start t givenUp a).2.findSome? (·.result?) = some x

/-- A result that is there at once. -/
theorem Activity.Refuses.settled (x : ρ) : (Activity.settled x).Refuses x :=
  ⟨trivial, mute_settled x, fun _ _ => rfl⟩

/-- Nobody polls by a question that may not be sent, about an order that may not be cancelled. -/
theorem Activity.mute_polling {α β : Type} (rule : Wait.Rule (Except Failure α))
    (failure cause : Failure) (sight : β → Sighting (Except Failure α)) :
    (Activity.polling rule (.error failure) sight (.error cause)).Mute := by
  constructor
  · intro call hcall
    rcases holds_polling hcall with ⟨y, hy, -⟩ | ⟨y, hy, -⟩
    · cases hy
    · cases hy
  · intro mode reference read cancels cancel heq
    cases heq

/-- Polling by a question that may not be sent is refused at once, if it asks at once. -/
theorem Activity.Refuses.polling {α β : Type} {rule : Wait.Rule (Except Failure α)}
    (hatOnce : rule.asksAtOnce = true) (failure cause : Failure)
    (sight : β → Sighting (Except Failure α)) (f : Except Failure α → ρ) :
    ((Activity.polling rule (.error failure) sight (.error cause)).map f).Refuses
      (f (.error failure)) := by
  refine ⟨trivial, (mute_polling rule failure cause sight).map f, fun t givenUp => ?_⟩
  have hmapped : (mapRule f rule).asksAtOnce = true := hatOnce
  rw [show (Activity.polling rule (.error failure) sight (.error cause)).map f =
    .wait (mapRule f rule) (.error (f (.error failure))) _ none from rfl, Job.start_unasked hmapped]
  rfl

section
variable {handle : Handle} (hname : handle.reference = "")

include hname

/-- BankID is not asked about an order without a name. -/
theorem collectOnce_unnamed (client : BankId.Client) : client.collectOnce handle.reference =
    .error ((ProviderClient.bankId client).unnamed handle) := by
  rw [hname]
  rfl

/-- Nor to cancel it. -/
theorem bankId_cancel_unnamed (client : BankId.Client) : client.cancel handle.reference =
    .error ((ProviderClient.bankId client).unnamed handle) := by
  rw [hname]
  rfl

/-- Freja has no record of an order without a name. -/
theorem orderName_unnamed (client : Freja.Client) :
    Freja.Client.orderName handle.mode handle.reference =
      .error ((ProviderClient.freja client).unnamed handle) := by
  obtain ⟨-, -, -, -, hkey⟩ := Freja.endpoints_eq handle.mode
  rw [ProviderClient.unnamed, ← hkey]
  exact if_pos hname

/-- Freja is not asked about an order without a name. -/
theorem oneResult_unnamed (client : Freja.Client) : client.oneResult handle.mode handle.reference =
    .error ((ProviderClient.freja client).unnamed handle) := by
  rw [Freja.Client.oneResult, orderName_unnamed hname client]
  rfl

/-- Nor to cancel it. -/
theorem freja_cancel_unnamed (client : Freja.Client) :
    client.cancel handle.mode handle.reference =
      .error ((ProviderClient.freja client).unnamed handle) := by
  rw [Freja.Client.cancel, orderName_unnamed hname client]
  rfl

/-- **An inquiry that does not wait for the end of the order** is refused. -/
theorem refuses_inquire (p : ProviderClient) {q : Inquiry} (hq : q.awaitsEnd = false)
    (f : Except Failure Outcome → ρ) :
    ((p.inquire q handle).map f).Refuses (f (.error (p.unnamed handle))) := by
  cases q with
  | peek =>
    cases p with
    | bankId client =>
      rw [ProviderClient.inquire, BankId.Client.peekOrder, collectOnce_unnamed hname]
      exact .settled _
    | freja client =>
      rw [ProviderClient.inquire, Freja.Client.peekOrder, oneResult_unnamed hname]
      exact .settled _
  | collect cancelOnError => cases hq
  | change cancelOnError =>
    cases p with
    | bankId client =>
      rw [ProviderClient.inquire, BankId.Client.changeOrder, BankId.Client.changeWith,
        collectOnce_unnamed hname, bankId_cancel_unnamed hname]
      exact .polling rfl _ _ _ f
    | freja client =>
      rw [ProviderClient.inquire, Freja.Client.changeOrder, oneResult_unnamed hname,
        freja_cancel_unnamed hname]
      exact .polling rfl _ _ _ f

/-- **To cancel an order without a name** is refused. -/
theorem refuses_cancelOrder (p : ProviderClient) (f : Except Failure Unit → ρ) :
    ((p.cancelOrder handle).map f).Refuses (f (.error (p.unnamed handle))) := by
  cases p with
  | bankId client =>
    rw [ProviderClient.cancelOrder, BankId.Client.cancelOrder, bankId_cancel_unnamed hname]
    exact .settled _
  | freja client =>
    rw [ProviderClient.cancelOrder, Freja.Client.cancelOrder, freja_cancel_unnamed hname]
    exact .settled _

/-- Who waits for the end of a BankID order may not ask for it, and waits all the same. -/
theorem bankId_collect_unnamed (client : BankId.Client) (cancelOnError : Bool)
    (f : Except Failure Outcome → ρ) :
    ((ProviderClient.bankId client).inquire (.collect cancelOnError) handle).Mute ∧
      ∃ rule read, rule.asksAtOnce = false ∧ rule.interval = client.pollInterval ∧
        rule.cancelled = f (.error (.at .bankId .cancelled)) ∧
        ((ProviderClient.bankId client).inquire (.collect cancelOnError) handle).map f =
          .wait rule (.error (f (.error ((ProviderClient.bankId client).unnamed handle)))) read
            none := by
  rw [ProviderClient.inquire, BankId.Client.collectOrder, BankId.Client.collectWith,
    collectOnce_unnamed hname, bankId_cancel_unnamed hname]
  exact ⟨Activity.mute_polling _ _ _ _, _, _, rfl, rfl, rfl, rfl⟩

end

/-! ## What becomes of whoever comes without a name -/

namespace Service

section
variable {h : History ρ} {t₀ now id readFrom : Nat} {registry : Registry} {s : Service ρ}
  {a : Activity ρ} {givenUp : Bool} {arrival : Transition (Service ρ) (Event ρ) Outgoing} {x : ρ}
  {handle : Handle}

/-- Nothing is sent for whoever wants something mute. -/
theorem silent_of_mute (run : Runs t₀ registry h now s) (harrival : arrival ∈ h)
    (harrive : arrival.event = .arrive id a readFrom givenUp) (ha : a.Mute) (call : Call) :
    ¬ SentFor h id call := by
  intro hsent
  rcases sentFor_of_runs run harrival harrive hsent with
    hholds | ⟨mode, reference, read, cancels, cancel, client, heq, -⟩
  · exact ha.silent call hholds
  · exact ha.alone _ _ _ _ _ heq

/-- `Refused h s id t x`: the visit has ended with the result at the time `t`, and nothing was sent
for it. -/
structure Refused (h : History ρ) (s : Service ρ) (id t : Nat) (x : ρ) : Prop where
  silent : ∀ call, ¬ SentFor h id call
  told : ∀ v, s.visit? id = some v → v.ending = some (.done t x)

/-- What an activity refuses, the service refuses. -/
theorem refused_of_runs (run : Runs t₀ registry h now s) (harrival : arrival ∈ h)
    (harrive : arrival.event = .arrive id a readFrom givenUp) (ha : a.Refuses x) :
    Refused h s id arrival.time x := by
  constructor
  · exact silent_of_mute run harrival harrive ha.mute
  · intro v hv
    rw [ending_of_runs run ha.plain harrival harrive hv]
    exact Job.ending?_of_start (ha.gives _ _)

/-- `RefusedAfter h id givenUp t₁ due x cancelled v`: the visit rests until the time `due` and is
refused at its next move, or was refused since, or has ended because the caller gave up or left. -/
inductive RefusedAfter (h : History ρ) (id : Nat) (givenUp : Bool) (due : Nat) (x cancelled : ρ)
    (v : Visit ρ) : Prop
  | rests : v.ending = none → v.job.due? = some due →
      (∀ t, due ≤ t → ∃ j, v.job.advance t = some (j, [.finish x])) →
      RefusedAfter h id givenUp due x cancelled v
  | refused {t : Nat} : due ≤ t → v.ending = some (.done t x) →
      RefusedAfter h id givenUp due x cancelled v
  | gaveUp {t : Nat} : GaveUp h id givenUp → v.ending = some (.done t cancelled) →
      RefusedAfter h id givenUp due x cancelled v
  | left {t : Nat} : v.ending = some (.left t) → RefusedAfter h id givenUp due x cancelled v

/-- A wait that asks only after a rest, and then may not, is refused after the rest. -/
theorem refusedAfter_of_runs (run : Runs t₀ registry h now s) (harrival : arrival ∈ h)
    {rule : Wait.Rule ρ} {read : Answer → Except ρ (Sighting ρ)}
    (hlate : rule.asksAtOnce = false)
    (harrive : arrival.event = .arrive id (.wait rule (.error x) read none) readFrom givenUp)
    {v : Visit ρ} (hv : s.visit? id = some v) :
    RefusedAfter h id givenUp (arrival.time + rule.interval) x rule.cancelled v := by
  have hplain : (Activity.wait rule (.error x) read none).IsPlain := trivial
  obtain ⟨t, j, -, hruns, hjob⟩ := (follows_of_runs run hplain harrival harrive).runs
  have hunasked := Job.unasked_of_runs hlate hruns
  rw [← ending_of_runs run hplain harrival harrive hv] at hunasked
  obtain rfl := hjob v hv
  generalize hj : v.job = j at hunasked
  generalize hending : v.ending = ending at hunasked
  cases hunasked with
  | rests hrule hrests =>
    refine .rests hending ?_ fun t hdue => ?_
    · rw [hj, Job.due?, Wait.due?, hrests]
    · rw [hj]
      obtain ⟨w', -, hadvance⟩ := Job.advance_unasked x read hrests hdue
      exact ⟨_, hadvance⟩
  | refused _ hdue => exact .refused hdue hending
  | cancelled _ hgave => exact .gaveUp (gaveUp_of_job hgave) hending
  | left _ => exact .left hending

/-- **The poller is never asked by name** for an order without one. -/
theorem call_of_unnamed {client : Freja.Client} {cancelOnError : Bool}
    {f : Except Failure Outcome → ρ} (run : Runs t₀ registry h now s) (harrival : arrival ∈ h)
    (hname : handle.reference = "") (hclient : registry.freja = some client)
    (harrive : arrival.event =
      .arrive id ((client.collectOrder handle cancelOnError).map f) readFrom givenUp)
    {call : Call} (hsent : SentFor h id call) : call = (client.allResults handle.mode).call := by
  have hcancel := freja_cancel_unnamed hname client
  have hone := oneResult_unnamed hname client
  rcases sentFor_of_runs run harrival harrive hsent with
    hholds | ⟨mode, reference, read, cancels, cancel, client', heq, hclient', hpolling⟩
  · obtain ⟨y, hy, -⟩ := Activity.holds_collect (Activity.holds_map.1 hholds)
    rw [hcancel] at hy
    cases hy
  · obtain rfl := Option.some.inj (hclient.symm.trans hclient')
    injection heq with hmode href
    subst hmode href
    cases hpolling with
    | one hx =>
      rw [hone] at hx
      cases hx
    | all => rfl

/-- Why somebody is given a result who waits for a Freja order without a name. -/
inductive FoundNameless (h : History ρ) (registry : Registry) (client : Freja.Client)
    (handle : Handle) : Except Failure Outcome → Prop
  | cancelled : FoundNameless h registry client handle (.error (.at .freja .cancelled))
  | stopped : FoundNameless h registry client handle (.error (.at .freja .pollerStopped))
  /-- Freja told a final result without a name. -/
  | result {r : Freja.Result} : r.reference = "" → r.status.isFinal = true →
      Told h registry handle.mode r →
      FoundNameless h registry client handle (Freja.outcomeOf client handle r)

/-- **Nobody is refused** who waits for a Freja order without a name. -/
theorem FoundNameless.ne_unnamed {client : Freja.Client} {y : Except Failure Outcome}
    (hy : FoundNameless h registry client handle y) (reason : String) :
    y ≠ .error (.at .freja (.validation reason)) := by
  intro heq
  cases hy with
  | cancelled => cases heq
  | stopped => cases heq
  | result =>
    obtain ⟨_, hfailure⟩ := fair_outcomeOf client handle _ _ heq
    cases hfailure

/-- What is given to somebody who waits for a Freja order without a name. -/
theorem found_of_runs {client : Freja.Client} {cancelOnError : Bool}
    {f : Except Failure Outcome → ρ} (run : Runs t₀ registry h now s) (harrival : arrival ∈ h)
    (hname : handle.reference = "")
    (harrive : arrival.event =
      .arrive id ((client.collectOrder handle cancelOnError).map f) readFrom givenUp)
    {v : Visit ρ} (hv : s.visit? id = some v) {t : Nat} (hdone : v.ending = some (.done t x)) :
    ∃ y, x = f y ∧ FoundNameless h registry client handle y := by
  have hplain : ((client.collectOrder handle cancelOnError).map f).IsPlain := trivial
  obtain ⟨past, told, later, je?, rfl, -, -, hje, hgives⟩ :=
    given_of_runs run hplain harrival harrive hv hdone
  obtain ⟨y, rfl, hy⟩ := Job.gives_of_map hgives
  refine ⟨y, rfl, ?_⟩
  cases hy with
  | unpolled => exact .cancelled
  | @polled _ _ _ _ _ outcome =>
    obtain ⟨n, -, hmail⟩ := deliver_of_polled hje
    have hmem := List.mem_of_getElem? hmail
    cases outcome with
    | ok r =>
      obtain ⟨href, hfinal, client', hclient', tr, htr, htold⟩ :=
        result_of_mail run harrival harrive hmem
      exact .result (href.trans hname) hfinal
        ⟨client', hclient', tr, List.mem_append_left _ htr, htold⟩
    | error failure =>
      rcases failure_of_mail run harrival harrive hmem with rfl | hdenied
      · exact .stopped
      · obtain ⟨client', x, -, hx, -⟩ := hdenied.said
        rw [oneResult_unnamed hname] at hx
        cases hx

/-- **An order without a name.** To ask where it stands, to wait for a change and to cancel it are
refused at once, as a bad request, and nothing is sent. So is the wait for the end of a BankID
order, but only after the rest before the first question. The wait for the result of a Freja order is never
refused: the caller waits with the poller, which asks for all results only, until it is told a final
result without a name, until it stops, or until the caller gives up or leaves. -/
theorem nameless_order {p : ProviderClient} (run : Runs t₀ registry h now s)
    (harrival : arrival ∈ h) (hname : handle.reference = "")
    (hp : registry.provider handle.providerName = .ok p) :
    (∀ (q : Inquiry) (f : Except Failure Outcome → ρ), q.awaitsEnd = false →
      arrival.event = .arrive id ((q.activity registry handle).map f) readFrom givenUp →
      Refused h s id arrival.time (f (.error (p.unnamed handle)))) ∧
    (∀ f : Except Failure Unit → ρ,
      arrival.event = .arrive id ((registry.cancel handle).map f) readFrom givenUp →
      Refused h s id arrival.time (f (.error (p.unnamed handle)))) ∧
    (∀ (client : BankId.Client) cancelOnError (f : Except Failure Outcome → ρ), p = .bankId client →
      arrival.event = .arrive id
        (((Inquiry.collect cancelOnError).activity registry handle).map f) readFrom givenUp →
      (∀ call, ¬ SentFor h id call) ∧ ∀ v, s.visit? id = some v →
        RefusedAfter h id givenUp (arrival.time + client.pollInterval)
          (f (.error (p.unnamed handle))) (f (.error (.at .bankId .cancelled))) v) ∧
    (∀ (client : Freja.Client) cancelOnError (f : Except Failure Outcome → ρ), p = .freja client →
      arrival.event = .arrive id
        (((Inquiry.collect cancelOnError).activity registry handle).map f) readFrom givenUp →
      (∀ call, SentFor h id call → call = (client.allResults handle.mode).call) ∧
        ∀ v t x, s.visit? id = some v → v.ending = some (.done t x) →
          ∃ y, x = f y ∧ FoundNameless h registry client handle y ∧
            ∀ reason, y ≠ .error (.at .freja (.validation reason))) ∧
    (Http.Problem.ofFailure (p.unnamed handle)).status = 400 := by
  refine ⟨fun q f hq harrive => ?_, fun f harrive => ?_, ?_, ?_, p.status_unnamed handle⟩
  · rw [Inquiry.activity_of_provider hp] at harrive
    exact refused_of_runs run harrival harrive (refuses_inquire hname p hq f)
  · rw [Registry.cancel_eq, Registry.atProvider, hp] at harrive
    exact refused_of_runs run harrival harrive (refuses_cancelOrder hname p f)
  · rintro client cancelOnError f rfl harrive
    rw [Inquiry.activity_of_provider hp] at harrive
    obtain ⟨hmute, rule, read, hlate, hinterval, hcancelled, heq⟩ :=
      bankId_collect_unnamed hname client cancelOnError f
    refine ⟨silent_of_mute run harrival harrive (hmute.map f), fun v hv => ?_⟩
    rw [heq] at harrive
    rw [← hinterval, ← hcancelled]
    exact refusedAfter_of_runs run harrival hlate harrive hv
  · rintro client cancelOnError f rfl harrive
    rw [Inquiry.activity_of_provider hp] at harrive
    have hclient := Registry.freja_of_mem (Registry.name_of_provider hp).2
    refine ⟨fun call hsent => call_of_unnamed run harrival hname hclient harrive hsent, ?_⟩
    intro v t x hv hdone
    obtain ⟨y, hx, hfound⟩ := found_of_runs run harrival hname harrive hv hdone
    exact ⟨y, hx, hfound, hfound.ne_unnamed⟩

end

/-! ## Results without a name -/

/-- A poller that asks for one order takes the answer. -/
theorem machine_toldOne {s : Service ρ} {mode : Order.Mode} {client : Freja.Client}
    {p : Freja.Poller} {reference : String} {later : List String} {call : Call} {answer : Answer}
    {outcome : Except Failure Freja.Result} (now : Nat) (hclient : s.registry.freja = some client)
    (hp : s.poller? mode = some p) (hphase : p.phase = .single reference later)
    (hread : ((client.oneResult mode reference).bind fun x => x.read answer) = outcome) :
    machine now s (.reply ⟨some (.poller mode), call⟩ answer) =
      some ({ s.movedPoller mode (p.answeredOne now outcome) with outbox := [] },
        (s.movedPoller mode (p.answeredOne now outcome)).outbox) := by
  subst hread
  simp only [machine, react, answered, answerPoller, hclient, onPoller, hp, hphase, Option.map_some]

/-- An order of Freja's. -/
def orderAt (reference : String) : Handle :=
  { request := { provider := { name := "FrejaID" } }, mode := .auth, reference }

/-- Freja tells that an order has expired, but not which. Whoever then waits for an order without a
name is told so. -/
theorem runs_unnamed_result (client : Freja.Client) :
    ∃ (h : History (Except Failure Outcome)) (s : Service (Except Failure Outcome))
      (arrival : Transition (Service (Except Failure Outcome)) (Event (Except Failure Outcome))
        Outgoing) (v : Visit (Except Failure Outcome)),
      Runs 0 { freja := some client } h 5 s ∧ arrival ∈ h ∧
        arrival.event = .arrive 8 (((Inquiry.collect false).activity { freja := some client }
          (orderAt "")).map id) 0 false ∧
        s.visit? 8 = some v ∧
          v.ending = some (.done 5 (.ok (.withoutInfo (orderAt "") .expired))) := by
  let registry : Registry := { freja := some client }
  let a : Activity (Except Failure Outcome) :=
    ((Inquiry.collect false).activity registry (orderAt "A")).map id
  let b : Activity (Except Failure Outcome) :=
    ((Inquiry.collect false).activity registry (orderAt "")).map id
  let answer : Answer := .replied 200 "\x7b\"status\":\"EXPIRED\"\x7d".toUTF8
  have hread : ((client.oneResult .auth "A").bind fun x => x.read answer) =
      .ok ({ status := .expired } : Freja.Result) := by
    show Freja.readAnswer Wire.ofTree? answer = .ok ({ status := .expired } : Freja.Result)
    decide +kernel
  let names := Freja.authEndpoints
  let asked : Call := (client.post names.oneResult names.oneResultRequest
    (.object [("authRef", .string "A")]) (Wire.ofTree? (α := Freja.Result))).call
  let idle : Freja.Poller := .start 0 client.pollInterval
  let polls : Freja.Poller :=
    { idle with waiting := [("A", [{ id := 7 }])], phase := .single "A" [] }
  let knows : Freja.Poller :=
    { idle with waiting := [("A", [{ id := 7 }])], seen := [⟨5, { status := .expired }⟩]
                phase := .resting (5 + client.pollInterval) }
  let first : Visit (Except Failure Outcome) := { job := (Job.start 0 false a).1 }
  let second : Visit (Except Failure Outcome) := { job := (Job.start 5 false b).1 }
  let told : Visit (Except Failure Outcome) :=
    { job := (second.job.polled (.ok { status := .expired })).1
      ending := some (.done 5 (.ok (.withoutInfo (orderAt "") .expired))) }
  -- The poller asks for the first order, and remembers a result without a name.
  let s₁ : Service (Except Failure Outcome) :=
    { registry, authPoller := some idle, signPoller := some idle, visits := [(7, first)]
      mail := [.register 7 .auth "A"] }
  let s₂ : Service (Except Failure Outcome) :=
    { s₁ with authPoller := some { idle with queue := [⟨{ id := 7 }, "A"⟩] }
              mail := [.registered 7] }
  let s₃ : Service (Except Failure Outcome) := { s₂ with authPoller := some polls }
  let s₄ : Service (Except Failure Outcome) := { s₃ with authPoller := some knows }
  have hfirst : machine 0 (Service.start 0 registry) (.arrive 7 a 0 false) = some (s₁, []) := rfl
  have hqueued : machine 0 s₁ (.deliver 0) = some (s₂, []) := rfl
  have hasked : machine 0 s₂ (.move .auth .accept) = some (s₃, [⟨some (.poller .auth), asked⟩]) :=
    rfl
  have hreply : machine 5 s₃ (.reply ⟨some (.poller .auth), asked⟩ answer) = some (s₄, []) :=
    (machine_toldOne (s := s₃) (p := polls) 5 rfl rfl rfl hread).trans rfl
  have run₁ : Runs 0 registry [⟨0, _, .arrive 7 a 0 false, s₁, []⟩] 0 s₁ :=
    Run.start.next (Nat.le_refl 0) (by rintro ⟨tr, htr, -⟩; cases htr) hfirst
  have run₃ := (run₁.next (Nat.le_refl 0) (by trivial) hqueued).next (Nat.le_refl 0) (by trivial)
    hasked
  have run₄ := run₃.next (Nat.zero_le 5) (by exact ⟨_, .tail _ (.tail _ (.head _)), .head _⟩) hreply
  -- The second order has no name, and is taken for the one of that result.
  let s₅ : Service (Except Failure Outcome) :=
    { s₄ with visits := [(7, first), (8, second)], mail := [.registered 7, .register 8 .auth ""] }
  let s₆ : Service (Except Failure Outcome) :=
    { s₅ with authPoller := some { knows with queue := [⟨{ id := 8 }, ""⟩] }
              mail := [.registered 7, .registered 8] }
  let s₇ : Service (Except Failure Outcome) :=
    { s₆ with authPoller := some knows
              mail := [.registered 7, .registered 8, .polled 8 (.ok { status := .expired })] }
  let s₈ : Service (Except Failure Outcome) :=
    { s₇ with visits := [(7, first), (8, told)], mail := [.registered 7, .registered 8] }
  have hsecond : machine 5 s₄ (.arrive 8 b 0 false) = some (s₅, []) := rfl
  have hqueued' : machine 5 s₅ (.deliver 1) = some (s₆, []) := rfl
  have hfound : machine 5 s₆ (.move .auth .accept) = some (s₇, []) := rfl
  have htold : machine 5 s₇ (.deliver 2) = some (s₈, []) := rfl
  have run₅ := run₄.next (Nat.le_refl 5) (by
    rintro ⟨tr, htr, _, _, _, hevent⟩
    simp only [List.nil_append, List.cons_append, List.mem_cons, List.not_mem_nil, or_false] at htr
    rcases htr with rfl | rfl | rfl | rfl <;> cases hevent) hsecond
  have run₈ := ((run₅.next (Nat.le_refl 5) (by trivial) hqueued').next (Nat.le_refl 5) (by trivial)
    hfound).next (Nat.le_refl 5) (by trivial) htold
  exact ⟨_, s₈, ⟨5, s₄, .arrive 8 b 0 false, s₅, []⟩, told, run₈, by simp, rfl, rfl, rfl⟩

/-- Somebody waits for an order without a name, and is given a result that Freja told without
one. -/
theorem unnamed_result_found :
    ∃ (registry : Registry) (client : Freja.Client) (h : History (Except Failure Outcome))
      (s : Service (Except Failure Outcome)) (v : Visit (Except Failure Outcome)) (y : Outcome),
      Runs 0 registry h 5 s ∧ s.visit? 8 = some v ∧ v.ending = some (.done 5 (.ok y)) ∧
        y.status = .expired ∧ FoundNameless h registry client (orderAt "") (.ok y) := by
  let client : Freja.Client := ⟨"https://services.test.frejaeid.com", 3000, 15000, .extended, none⟩
  obtain ⟨h, s, arrival, v, run, harrival, harrive, hv, hdone⟩ := runs_unnamed_result client
  obtain ⟨-, -, -, hfreja, -⟩ := nameless_order run harrival (rfl : (orderAt "").reference = "") rfl
  obtain ⟨-, hgiven⟩ := hfreja client false id rfl harrive
  obtain ⟨y, rfl, hfound, -⟩ := hgiven v 5 _ hv hdone
  exact ⟨_, client, h, s, v, _, run, hv, hdone, rfl, hfound⟩

/-- It is not so that whoever waits for an order without a name is refused, if anything. -/
theorem nameless_order_answered :
    ¬ ∀ (registry : Registry) (p : ProviderClient) (handle : Handle)
      (h : History (Except Failure Outcome)) (s : Service (Except Failure Outcome))
      (arrival : Transition (Service (Except Failure Outcome)) (Event (Except Failure Outcome))
        Outgoing) (t₀ now id readFrom t : Nat) (givenUp cancelOnError : Bool)
      (v : Visit (Except Failure Outcome)) (x : Except Failure Outcome),
      Runs t₀ registry h now s → arrival ∈ h →
      arrival.event = .arrive id
        (((Inquiry.collect cancelOnError).activity registry handle).map fun x => x) readFrom
        givenUp →
      registry.provider handle.providerName = .ok p → handle.reference = "" →
      s.visit? id = some v → v.ending = some (.done t x) →
      ∃ reason, x = .error (.at p.vendor (.validation reason)) := by
  intro hclaim
  let client : Freja.Client := ⟨"https://services.test.frejaeid.com", 3000, 15000, .extended, none⟩
  obtain ⟨h, s, arrival, v, run, harrival, harrive, hv, hdone⟩ := runs_unnamed_result client
  obtain ⟨reason, heq⟩ := hclaim _ (.freja client) (orderAt "") h s arrival 0 5 8 0 5 false false
    v _ run harrival harrive rfl rfl hv hdone
  cases heq

end Service

end OrderBroker
