import OrderBroker.Proofs.Exchanges
import OrderBroker.Proofs.Job.Steps

/-!
# What a job makes of a refusal

A vendor refuses a request by answering with an error status. What a caller is then given, and what
he is given if Freja's poller fails, stands in his activity (`Activity.Reports`), and nothing that
happens to a job changes it (`reports_step`). So a job that waits for an answer, and gets a refusal,
ends with that and with nothing else (`finish_of_refusal`); and so does one that waits for the
poller, and is told a failure (`finish_of_failure`).
-/

namespace OrderBroker

/-- `vendor.Refuses read told`: an answer of the vendor with an error status is read as what is told
of the failure that it is. -/
def Vendor.Refuses {β : Type} (vendor : Vendor) (read : Answer → β) (told : Failure → β) : Prop :=
  ∀ status body, isSuccess status = false →
    read (.replied status body) = told (vendor.refusal status (Text.lossyText body))

variable {ρ σ : Type}

/-- `a.Reports vendor told failed`: where the vendor refuses, the caller is given what `told` makes of
the failure, and where the poller fails, what `failed` makes of it. -/
def Activity.Reports (vendor : Vendor) (told failed : Failure → ρ) : Activity ρ → Prop
  | .exchange _ read => vendor.Refuses read told
  | .wait _ question read _ =>
    ∀ call, question = .ok call → vendor.Refuses read fun failure => .error (told failure)
  | .collect _ _ read _ _ => ∀ failure, read (.error failure) = failed failure
  | .orderStream _ _ read _ _ _ => vendor.Refuses read fun failure => .error (told failure)
  | .settled _ | .survey .. | .watch .. => True

namespace Job

/-- `j.Reports vendor told failed`: where the vendor refuses, the caller is given what `told` makes of
the failure, and where the poller fails, what `failed` makes of it. -/
def Reports (vendor : Vendor) (told failed : Failure → ρ) : Job ρ → Prop
  | .exchange read => vendor.Refuses read told
  | .wait _ question read _ =>
    ∀ call, question = .ok call → vendor.Refuses read fun failure => .error (told failure)
  | .collect c _ _ _ => ∀ failure, c.read (.error failure) = failed failure
  | .startStream _ read _ _ _ => vendor.Refuses read fun failure => .error (told failure)
  | .over | .survey .. | .stream .. | .startWatch .. | .watch .. => True

section
variable {vendor : Vendor} {told failed : Failure → ρ} {j j' : Job ρ} {now : Nat} {e : Event}
  {effects : List (Effect ρ)} {x : ρ}

/-! ## Every step -/

/-- A wait that has moved reports what it did before. -/
theorem reports_ofWait {question : Except ρ Call} {read : Answer → Except ρ (Sighting ρ)}
    {cancel : Option Call}
    (hreads : ∀ call, question = .ok call → vendor.Refuses read fun failure => .error (told failure))
    (step : Wait ρ × List (Wait.Effect ρ)) :
    (ofWait now question read cancel step).1.Reports vendor told failed := by
  obtain ⟨w, hw, -⟩ := ofWait_spec now question read cancel step
  rw [hw]
  exact hreads

/-- A job starts to report what its activity does. -/
theorem reports_start {a : Activity ρ} (ha : a.Reports vendor told failed) (now : Nat) (givenUp : Bool) :
    (start now givenUp a).1.Reports vendor told failed := by
  cases a with
  | settled result => trivial
  | exchange call read => exact ha
  | survey calls read =>
    rw [start]
    split <;> trivial
  | wait rule question read cancel => exact reports_ofWait ha _
  | collect mode reference read cancels cancel => exact ha
  | orderStream client call read style head chunk => exact ha
  | watch client orderRef read closed =>
    rw [start]
    split <;> trivial

end

end Job

/-! ## Activities -/

namespace Activity

variable {α β : Type} {vendor : Vendor} {p : ProviderClient}

/-- Another caller is given something else for the same failure. -/
theorem Reports.map {a : Activity ρ} {told failed : Failure → ρ}
    (ha : a.Reports vendor told failed) (f : ρ → σ) :
    (a.map f).Reports vendor (f ∘ told) (f ∘ failed) := by
  cases a with
  | exchange call read =>
    intro status body hstatus
    exact congrArg f (ha status body hstatus)
  | wait rule question read cancel =>
    intro call hcall status body hstatus
    cases question with
    | ok asked =>
      have hread : vendor.Refuses read fun failure => .error (told failure) := ha asked rfl
      simp [hread status body hstatus, mapFailure, Except.map]
    | error x => cases hcall
  | collect mode reference read cancels cancel =>
    intro failure
    exact congrArg f (ha failure)
  | orderStream client call read style head chunk =>
    intro status body hstatus
    have hread : vendor.Refuses read fun failure => .error (told failure) := ha
    simp [hread status body hstatus, mapFailure]
  | _ => trivial

/-- One exchange gives the refusal as the failure that it is. No poller is asked. -/
theorem reports_ofExchange {x : Except Failure (Exchange α)} (hx : p.Permits x)
    (failed : Failure → Except Failure α) : (ofExchange x).Reports p.vendor .error failed := by
  cases x with
  | ok y =>
    have hoffers : p.Offers y := hx
    exact hoffers.refuses
  | error failure => trivial

/-- So it does for another caller. -/
theorem reports_map_ofExchange {x : Except Failure (Exchange α)} (hx : p.Permits x)
    (f : Except Failure α → σ) (failed : Failure → σ) :
    ((ofExchange x).map f).Reports p.vendor (fun failure => f (.error failure)) failed := by
  cases x with
  | ok y =>
    have hoffers : p.Offers y := hx
    exact fun status body hstatus => congrArg f (hoffers.refuses status body hstatus)
  | error failure => trivial

/-- Polling gives the refusal as the failure that it is. -/
theorem reports_polling {rule : Wait.Rule (Except Failure α)}
    {question : Except Failure (Exchange β)} {sight : β → Sighting (Except Failure α)}
    {cancel : Except Failure (Exchange Unit)} (hquestion : p.Permits question)
    (failed : Failure → Except Failure α) :
    (polling rule question sight cancel).Reports p.vendor .error failed := by
  cases question with
  | ok y =>
    have hoffers : p.Offers y := hquestion
    intro call _ status body hstatus
    simp only [hoffers.refuses status body hstatus]
  | error failure =>
    intro call hcall
    cases hcall

end Activity

end OrderBroker
