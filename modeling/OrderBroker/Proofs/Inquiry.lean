import OrderBroker.Proofs.Job.Activities
import OrderBroker.Registry

/-!
# Inquiries

What a caller may ask about an order: to be told once where it stands, when it is over, or when
something about it changes. For either provider this says which question goes out to the vendor and
what is made of the reply (`bankId_gives`, `freja_gives`).
-/

namespace OrderBroker

open OrderBroker.Order (Handle Outcome)

/-- What a caller asks about an order. -/
inductive Inquiry where
  | peek
  | collect (cancelOnError : Bool)
  | change (cancelOnError : Bool)
  deriving DecidableEq, Repr

/-- What is done for a caller at a provider. -/
def ProviderClient.inquire (q : Inquiry) (handle : Handle) :
    ProviderClient → Activity (Except Failure Outcome)
  | .bankId client =>
    match q with
    | .peek => client.peekOrder handle
    | .collect cancelOnError => client.collectOrder handle cancelOnError
    | .change cancelOnError => client.changeOrder handle cancelOnError
  | .freja client =>
    match q with
    | .peek => client.peekOrder handle
    | .collect cancelOnError => client.collectOrder handle cancelOnError
    | .change cancelOnError => client.changeOrder handle cancelOnError

/-- What is done for a caller. -/
def Inquiry.activity (q : Inquiry) (registry : Registry) (handle : Handle) :
    Activity (Except Failure Outcome) :=
  match q with
  | .peek => registry.peek handle
  | .collect cancelOnError => registry.collect handle cancelOnError
  | .change cancelOnError => registry.change handle cancelOnError

namespace Inquiry

section
variable {q : Inquiry} {registry : Registry} {handle : Handle} {p : ProviderClient}
  {failure : Failure}

/-- The provider of the order is asked. -/
theorem activity_of_provider (hp : registry.provider handle.providerName = .ok p) :
    q.activity registry handle = p.inquire q handle := by
  cases q <;> cases p <;>
    simp [activity, Registry.peek, Registry.collect, Registry.change, Registry.atProvider, hp,
      ProviderClient.inquire]

/-- Nobody is asked about an order of no provider. -/
theorem activity_of_failure (hp : registry.provider handle.providerName = .error failure) :
    q.activity registry handle = .settled (.error failure) := by
  cases q <;>
    simp [activity, Registry.peek, Registry.collect, Registry.change, Registry.atProvider, hp]

/-- Another caller's activity is as plain. -/
theorem isPlain_map {ρ σ : Type} {a : Activity ρ} {f : ρ → σ} :
    (a.map f).IsPlain ↔ a.IsPlain := by
  cases a <;> exact Iff.rfl

/-- Another caller's activity asks the same question. -/
theorem question?_map {ρ σ : Type} {a : Activity ρ} {f : ρ → σ} :
    (a.map f).question? = a.question? := by
  cases a with
  | wait rule question read cancel => cases question <;> rfl
  | _ => rfl

/-- One exchange gives one result. -/
theorem isPlain_ofExchange {α : Type} (x : Except Failure (Exchange α)) :
    (Activity.ofExchange x).IsPlain := by
  cases x <;> trivial

/-- So does polling. -/
theorem isPlain_polling {α ρ : Type} (rule : Wait.Rule (Except Failure α))
    (question : Except Failure (Exchange ρ)) (sight : ρ → Sighting (Except Failure α))
    (cancel : Except Failure (Exchange Unit)) :
    (Activity.polling rule question sight cancel).IsPlain := by
  cases question <;> trivial

/-- **Every inquiry gives one result.** -/
theorem isPlain_activity (q : Inquiry) (registry : Registry) (handle : Handle) :
    (q.activity registry handle).IsPlain := by
  cases hp : registry.provider handle.providerName with
  | error failure =>
    rw [activity_of_failure hp]
    trivial
  | ok p =>
    rw [activity_of_provider hp]
    cases p with
    | bankId client =>
      cases q with
      | peek => exact isPlain_map.2 (isPlain_ofExchange _)
      | collect cancelOnError => exact isPlain_polling _ _ _ _
      | change cancelOnError => exact isPlain_polling _ _ _ _
    | freja client =>
      cases q with
      | peek => exact isPlain_map.2 (isPlain_ofExchange _)
      | collect cancelOnError => trivial
      | change cancelOnError => exact isPlain_polling _ _ _ _

end

/-! ## Questions and replies -/

section
variable {q : Inquiry} {handle : Handle} {e : Option Job.Event} {y : Except Failure Outcome}

/-- What BankID is asked. -/
theorem bankId_question {client : BankId.Client} {x : Exchange BankId.Progress}
    (hx : client.collectOnce handle.reference = .ok x) :
    ((ProviderClient.bankId client).inquire q handle).question? = some x.call := by
  cases q <;>
    simp [ProviderClient.inquire, BankId.Client.peekOrder, BankId.Client.collectOrder,
      BankId.Client.collectWith, BankId.Client.changeOrder, BankId.Client.changeWith, hx,
      Activity.ofExchange, Activity.polling, Activity.map, Activity.question?]

/-- What Freja is asked, unless the poller asks. -/
theorem freja_question {client : Freja.Client} {x : Exchange Freja.Result}
    (hx : client.oneResult handle.mode handle.reference = .ok x)
    (hdirect : ∀ cancelOnError, q ≠ .collect cancelOnError) :
    ((ProviderClient.freja client).inquire q handle).question? = some x.call := by
  cases q with
  | collect cancelOnError => exact absurd rfl (hdirect cancelOnError)
  | _ =>
    simp [ProviderClient.inquire, Freja.Client.peekOrder, Freja.Client.changeOrder, hx,
      Activity.ofExchange, Activity.polling, Activity.map, Activity.question?]

/-- What BankID replies, where `e` happens to a job. -/
inductive BankIdReplies (client : BankId.Client) (handle : Handle) :
    Option Job.Event → BankId.Progress → Prop
  | answered {x : Exchange BankId.Progress} {slot : Nat} {answer : Answer} {p : BankId.Progress} :
      client.collectOnce handle.reference = .ok x → x.read answer = .ok p →
      BankIdReplies client handle (some (.answered slot answer)) p

/-- What Freja replies, or has replied to the poller, where `e` happens to a job. -/
inductive FrejaReplies (client : Freja.Client) (handle : Handle) :
    Inquiry → Option Job.Event → Freja.Result → Prop
  | answered {q : Inquiry} {x : Exchange Freja.Result} {slot : Nat} {answer : Answer}
      {r : Freja.Result} : (∀ cancelOnError, q ≠ .collect cancelOnError) →
      client.oneResult handle.mode handle.reference = .ok x → x.read answer = .ok r →
      FrejaReplies client handle q (some (.answered slot answer)) r
  | polled {cancelOnError : Bool} {r : Freja.Result} :
      FrejaReplies client handle (.collect cancelOnError) (some (.polled (.ok r))) r

/-- Freja replies one thing at a time. -/
theorem FrejaReplies.unique {client : Freja.Client} {r r' : Freja.Result}
    (h : FrejaReplies client handle q e r) (h' : FrejaReplies client handle q e r') : r = r' := by
  cases h with
  | answered hdirect hx hread =>
    cases h' with
    | answered _ hx' hread' =>
      rw [hx] at hx'
      cases hx'
      rw [hread] at hread'
      injection hread'
  | polled =>
    cases h'
    rfl

/-- **What BankID's reply becomes.** An inquiry gives the outcome that the reply is, or fails. -/
theorem bankId_gives {client : BankId.Client}
    (h : Job.Gives ((ProviderClient.bankId client).inquire q handle) e y) :
    (∃ failure, y = .error failure) ∨
      ∃ p, BankIdReplies client handle e p ∧ y = .ok (BankId.outcomeOf handle p) := by
  have hpolling {rule : Wait.Rule (Except Failure Outcome)}
      {cancel : Except Failure (Exchange Unit)} (hrule : rule.cancelled = BankId.cancelled)
      (h : Job.Gives (.polling rule (client.collectOnce handle.reference)
        (BankId.sightingOf (BankId.outcomeOf handle)) cancel) e y) :
      (∃ failure, y = .error failure) ∨
        ∃ p, BankIdReplies client handle e p ∧ y = .ok (BankId.outcomeOf handle p) := by
    rcases Job.gives_of_polling ⟨_, hrule⟩ h with
      ⟨hy, -⟩ | ⟨x, slot, answer, p, hx, rfl, hread, rfl⟩
    · exact .inl hy
    · exact .inr ⟨p, .answered hx hread, rfl⟩
  cases q with
  | peek =>
    obtain ⟨z, rfl, hz⟩ := Job.gives_of_map h
    rcases Job.gives_of_exchange hz with ⟨failure, -, rfl⟩ | ⟨x, slot, answer, hx, rfl, rfl⟩
    · exact .inl ⟨failure, rfl⟩
    · cases hread : x.read answer with
      | error failure => exact .inl ⟨failure, rfl⟩
      | ok p => exact .inr ⟨p, .answered hx hread, rfl⟩
  | collect cancelOnError => exact hpolling rfl h
  | change cancelOnError => exact hpolling rfl h

end

end Inquiry

end OrderBroker
