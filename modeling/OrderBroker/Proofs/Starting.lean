import OrderBroker.Proofs.OrderIdentity

/-!
# What starting an order sends

Whoever wants an order has one request sent when he comes, or is told at once why there is none
(`Activity.Tries`). Which of the two it is depends on the checks of the provider alone, and not on
whether the wish is a call of the operation or comes over HTTP (`Starts.tries`).
-/

namespace OrderBroker

open OrderBroker.Order (Handle Mode)
open Service (Runs Receives sentBy)

/-! ## One attempt -/

/-- `a.Tries fails x`: the activity is to send the request, or, where there is none, to give what
becomes of the failure. -/
inductive Activity.Tries {ρ : Type} (fails : Failure → ρ) : Except Failure Call → Activity ρ → Prop
  | sends {call : Call} {read : Answer → ρ} : Tries fails (.ok call) (.exchange call read)
  | fails {failure : Failure} : Tries fails (.error failure) (.settled (fails failure))

namespace Activity

variable {α ρ σ : Type}

/-- One exchange is such an attempt. -/
theorem tries_ofExchange (x : Except Failure (Exchange α)) :
    Tries .error (x.map (·.call)) (ofExchange x) := by
  cases x with
  | ok y => exact .sends
  | error failure => exact .fails

/-- So is the same for another caller. -/
theorem Tries.map {fails : Failure → ρ} {x : Except Failure Call} {a : Activity ρ}
    (ha : Tries fails x a) (f : ρ → σ) : Tries (fun failure => f (fails failure)) x (a.map f) := by
  cases ha with
  | sends => exact .sends
  | fails => exact .fails

/-- So is what an exchange gives as something else. -/
theorem tries_value (x : Except Failure (Exchange α)) (f : α → σ) :
    Tries .error (x.map (·.call)) ((ofExchange x).map (·.map f)) :=
  (tries_ofExchange x).map (·.map f)

end Activity

namespace Service

variable {ρ : Type} {registry : Registry} {h : History ρ} {t₀ now id readFrom : Nat} {s : Service ρ}
  {tr : Transition (Service ρ) (Event ρ) Outgoing} {givenUp : Bool} {a : Activity ρ} {call : Call}

/-- A visit sends first what its job does at the start. -/
theorem sentBy_of_arrival (run : Runs t₀ registry h now s) (htr : tr ∈ h)
    (harrive : tr.event = .arrive id a readFrom givenUp) :
    ∃ rest, sentBy h id =
      (Job.start tr.time givenUp a).2.filterMap (·.request? id) ++ rest := by
  obtain ⟨past, later, t, rfl, hpast, -, hmay, hstep⟩ := run.of_mem htr
  rw [harrive] at hmay hstep
  have hsent : tr.effects = (Job.start tr.time givenUp a).2.filterMap (·.request? id) := by
    have heffects := (Prod.mk.inj (Option.some.inj hstep)).2
    rw [← heffects, (carries_arrive tr.time tr.before id readFrom a givenUp).outbox,
      show ({ tr.before with visits := _ } : Service ρ).outbox = [] from outbox_of_runs hpast,
      List.nil_append]
  have hvisitor : tr.event.visitor tr.before = some id := by rw [harrive]; rfl
  refine ⟨sentBy later id, ?_⟩
  rw [sentBy, List.flatMap_append, List.flatMap_cons, if_pos hvisitor, hsent]
  rw [show past.flatMap _ = [] from (unknown_of_runs hpast hmay).2.1, List.nil_append]
  rfl

/-- The job of one exchange sends nothing more once it has started. -/
theorem quiet_exchange {read : Answer → ρ} {j j' : Job ρ} {je : Job.Event}
    {effects : List (Job.Effect ρ)} (hj : Job.Under (.exchange call read) j)
    (hstep : Job.machine now j je = some (j', effects)) :
    effects.filterMap (·.request? id) = [] := by
  have hnone {step : Job ρ × List (Job.Effect ρ)} (heq : some step = some (j', effects))
      (hstep : step.2.filterMap (·.request? id) = []) : effects.filterMap (·.request? id) = [] := by
    obtain rfl := Option.some.inj heq
    exact hstep
  cases hj with
  | exchange =>
    cases je with
    | advance => cases hstep
    | _ => exact hnone hstep rfl
  | _ =>
    cases je with
    | advance => cases hstep
    | _ => exact hnone hstep rfl

/-- **A visit for one exchange** sends its request and nothing else. -/
theorem sentBy_exchange {read : Answer → ρ} (run : Runs t₀ registry h now s) (htr : tr ∈ h)
    (harrive : tr.event = .arrive id (.exchange call read) readFrom givenUp) :
    sentBy h id = [⟨some (.job id 0), call⟩] := by
  have hfollows := follows_of_runs run (a := .exchange call read) trivial htr harrive
  obtain ⟨t, j, -, hruns, -⟩ := hfollows.runs
  rw [hfollows.sent]
  generalize jobHistory h id = jh at hruns
  induction hruns with
  | start => rfl
  | next hruns _ _ hstep ih =>
    rw [Job.doings_snoc, List.filterMap_append, ih,
      quiet_exchange (Job.under_of_runs trivial hruns) hstep]
    rfl

/-- **A visit for nothing** sends nothing, and gives the one result that it came for. -/
theorem quiet_settled {x : ρ} (run : Runs t₀ registry h now s) (htr : tr ∈ h)
    (harrive : tr.event = .arrive id (.settled x) readFrom givenUp) :
    sentBy h id = [] ∧ ∀ y, Receives h id y ↔ y = x := by
  refine ⟨List.eq_nil_iff_forall_not_mem.2 fun o ho => ?_, fun y => ⟨fun hy => ?_, ?_⟩⟩
  · cases holds_of_runs run htr harrive ho
  · have hasked : ∀ call, (Activity.settled x).Holds call → True := fun _ _ => trivial
    exact gives_of_starting run htr harrive hasked (· = x) rfl hy
  · rintro rfl
    obtain ⟨past, later, t, rfl, hpast, -, hmay, hstep⟩ := run.of_mem htr
    rw [harrive] at hmay hstep
    have hafter := (Prod.mk.inj (Option.some.inj hstep)).1
    have hvisit : tr.after.visit? id =
        some { job := .over, readFrom, ending := some (.done tr.time y) } := by
      rw [← hafter]
      exact visit?_arrive_own tr.before id readFrom (.settled y) givenUp
        (unknown_of_runs hpast hmay).1
    exact .result (List.mem_append_right _ (.head _)) hvisit rfl

end Service

/-! ## Wishes for orders -/

namespace Http

/-- What is answered where an operation fails. -/
def problemFor (r : Request) (failure : Failure) : Message :=
  .response { Response.problem (.ofFailure failure) with requestId := r.requestId }

/-- What is answered to an operation and to its failures. -/
theorem Site.tries_respond {α : Type} {a : Activity (Except Failure α)} {x : Except Failure Call}
    (ha : a.Tries .error x) (value : α → Response) :
    (respond value a).Tries (fun failure => .response (.problem (.ofFailure failure))) x :=
  ha.map fun result => Message.response (.ofResult value result)

/-- Every answer repeats the caller's name for the request. -/
theorem Site.tries_handle {site : Site} {r : Request} {x : Except Failure Call}
    (hroute : (site.route r).Tries (fun failure => .response (.problem (.ofFailure failure))) x) :
    (site.handle r).Tries (problemFor r) x :=
  hroute.map (·.mapResponse fun answer => { answer with requestId := r.requestId })

/-- A body that is read is gone on with. -/
theorem Site.withBody_of_ok {α : Type} {r : Request} {read : Json.Tree → Option α} {value : α}
    (hread : r.read read = .ok value) (operation : α → Activity Message) :
    withBody r read operation = operation value := by
  rw [withBody, hread]

end Http

/-- `Starts registry mode q fails a`: the activity is to start the order, for somebody who calls the
operation or who sends the request for the order over HTTP; he is given `fails failure` where this
fails. -/
inductive Starts (registry : Registry) (mode : Mode) (q : Order.Request) :
    {ρ : Type} → (Failure → ρ) → Activity ρ → Prop
  | call {ρ : Type} (f : Except Failure Handle → ρ) :
      Starts registry mode q (fun failure => f (.error failure)) ((registry.start mode q).map f)
  | request {site : Http.Site} {r : Http.Request} : site.registry = registry →
      Http.Endpoint.at? r.path = some (.action mode.action) → r.method = "POST" →
      r.read Wire.ofTree? = .ok q → Starts registry mode q (Http.problemFor r) (site.handle r)

/-- BankID is asked to start an order of the mode. -/
def BankId.Client.order (client : BankId.Client) :
    Mode → BankId.StartRequest → Except Failure (Exchange BankId.StartedOrder)
  | .auth => client.auth
  | .sign => client.sign

/-- The request by which a provider is asked for an order, or why it is not asked. -/
def ProviderClient.startCall (mode : Mode) (q : Order.Request) :
    ProviderClient → Except Failure Call
  | .bankId client => (client.order mode (BankId.startRequest q)).map (·.call)
  | .freja client =>
    match mode with
    | .auth => .ok (client.initAuth {
        subject := Freja.authSubject q.whoOrInferred, level := client.level }).call
    | .sign => ((client.signRequest q).bind client.initSign).map (·.call)

section
variable {ρ : Type} {registry : Registry} {mode : Mode} {q : Order.Request} {p : ProviderClient}
  {fails : Failure → ρ} {a : Activity ρ}

/-- To start an order at a provider is one attempt. -/
theorem ProviderClient.tries_start (p : ProviderClient) (mode : Mode) (q : Order.Request) :
    (p.start mode q).Tries .error (p.startCall mode q) := by
  cases p with
  | bankId client => cases mode <;> exact Activity.tries_value _ _
  | freja client =>
    cases mode with
    | auth => exact Activity.tries_value (.ok _) _
    | sign => exact Activity.tries_value _ _

/-- **Whoever wants an order** has its provider tried once. -/
theorem Starts.tries (ha : Starts registry mode q fails a)
    (hp : registry.provider q.provider.name = .ok p) : a.Tries fails (p.startCall mode q) := by
  have hstart : registry.start mode q = p.start mode q := by
    rw [Registry.start_eq, Registry.atProvider, hp]
  cases ha with
  | call f => exact hstart ▸ (p.tries_start mode q).map f
  | @request site r hregistry hat hpost hread =>
    subst hregistry
    have hact : site.act r mode.action =
        Http.Site.respond .value (site.registry.start mode q) := by
      cases mode <;> exact Http.Site.withBody_of_ok hread _
    refine Http.Site.tries_handle ?_
    rw [site.route_of_post hat hpost, hact, hstart]
    exact Http.Site.tries_respond (p.tries_start mode q) _

end

end OrderBroker
