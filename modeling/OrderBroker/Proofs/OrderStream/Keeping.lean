import OrderBroker.Proofs.BankId.Watch
import OrderBroker.Proofs.OrderStream.Steps

/-!
# Streams whose client keeps up

No chunk of such a stream waits for room, and no item of its watch waits for a whole second. Then
the watch loses nothing (`synced_of_runs`): what it has delivered are the first changes that BankID
has told, and it delivers its last item before it is at its end.
-/

namespace OrderBroker.Http.OrderStream

open BankId (Change Watch Progress changes changes_prefix_snoc)

/-! ## Keeping up -/

/-- An item of the watch waits for the slot. -/
def Waits (s : OrderStream) : Prop :=
  ∃ w item deadline, s.watch = some w ∧ w.phase = .offering item deadline ∧ w.slot.isSome = true

/-- No item of the watch waits for a whole second. -/
def Punctual (h : History) : Prop :=
  ∀ past tr during tr' later, h = past ++ tr :: during ++ tr' :: later →
    (∀ x ∈ tr :: during, x.after.Waits) → tr'.time < tr.time + 1000

/-- Nothing that is sent has to wait: no chunk waits for room in the body, and an item of the watch
waits for the slot for less than a second, if at all. -/
structure KeepsUp (h : History) : Prop where
  room : ∀ tr ∈ h, ∀ chunk next, tr.after.phase ≠ .sending chunk next
  punctual : Punctual h

/-! ## One step -/

/-- `Leads now s s'`: the stream goes on, waits for room, or is over and has stopped its watch. -/
inductive Leads (now : Nat) (s s' : OrderStream) : Prop
  | follows : s'.phase = .following → s'.watch = s.watch → Leads now s s'
  | waits {chunk : String} {next : Next} : s'.phase = .sending chunk next → s'.watch = s.watch →
      Leads now s s'
  | ends : s'.phase = .over → s'.watch = s.watch.map (fun w => w.abandon.stop now) → Leads now s s'

section
variable {now : Nat} {s s' : OrderStream} {e : Event} {shown seen : List Progress}

/-- Only the watch matters to where a stream is led from. -/
theorem Leads.of_eq {s₁ : OrderStream} (h : Leads now s₁ s') (hwatch : s₁.watch = s.watch) :
    Leads now s s' := by
  cases h with
  | follows hphase hsame => exact .follows hphase (hsame.trans hwatch)
  | waits hphase hsame => exact .waits hphase (hsame.trans hwatch)
  | ends hphase hsame => exact .ends hphase (hwatch ▸ hsame)

/-- Where going on leads. -/
theorem leads_goOn (now : Nat) (s : OrderStream) (next : Next) : Leads now s (s.goOn now next) := by
  cases next with
  | follow => exact .follows rfl rfl
  | nextTick =>
    simp only [goOn]
    split
    · exact .follows rfl rfl
    · exact .ends rfl rfl
  | finish => exact .ends rfl rfl

/-- Where an event leads. -/
theorem leads_event (now : Nat) (s : OrderStream) (name : String) (data : Json) (next : Next) :
    Leads now s (s.event now name data next) := by
  simp only [event, push]
  split
  · exact .ends rfl rfl
  · split
    · exact (leads_goOn now _ next).of_eq rfl
    · exact .waits rfl rfl

/-- Where a change leads. -/
theorem leads_passOn (now : Nat) (s : OrderStream) (item : Change) :
    Leads now s (s.passOn now item) := by
  cases item with
  | error failure => exact leads_event now s _ _ _
  | ok p => exact Leads.of_eq (leads_event now _ _ _ _) rfl

/-- Where a tick leads. -/
theorem leads_onTick (now : Nat) (s : OrderStream) : Leads now s (s.onTick now) := by
  unfold onTick
  split
  · exact leads_event now s _ _ _
  · exact leads_goOn now s _

/-- The last event does not lead on. -/
theorem phase_event_finish (now : Nat) (s : OrderStream) (name : String) (data : Json) :
    (s.event now name data .finish).phase ≠ .following := by
  simp only [event, push]
  split
  · simp [finish]
  · split <;> simp [goOn, finish]

/-- The last item does not lead on. -/
theorem phase_passOn {item : Change} (hlast : Watch.isLast item = true) :
    (s.passOn now item).phase ≠ .following := by
  cases item with
  | error failure => exact phase_event_finish now s _ _
  | ok p =>
    have hover : p.status ≠ .pending := by simpa [Watch.isLast] using hlast
    rw [passOn, if_neg hover]
    exact phase_event_finish now _ _ _

/-- `Synced shown seen s`: BankID has told `seen` for the stream `s`, and the watch has lost nothing
of it and has delivered `shown`. -/
inductive Synced (shown seen : List Progress) (s : OrderStream) : Prop
  | starting : s.phase = .starting → shown = [] → seen = [] → Synced shown seen s
  | following {w : Watch} : s.phase = .following → s.watch = some w → Watch.Keeps shown seen w →
      Synced shown seen s
  | ended : s.phase = .over → shown <+: changes seen → Synced shown seen s

/-- A stream that goes on keeps its watch. -/
theorem synced_of_leads {w : Watch} (hleads : Leads now s s') (hwatch : s.watch = some w)
    (hkeeps : s'.phase = .following → Watch.Keeps shown seen w)
    (hinitial : shown <+: changes seen)
    (hroom : ∀ chunk next, s'.phase ≠ .sending chunk next) : Synced shown seen s' := by
  cases hleads with
  | follows hphase hsame => exact .following hphase (hsame.trans hwatch) (hkeeps hphase)
  | waits hphase _ => exact absurd hphase (hroom _ _)
  | ends hphase _ => exact .ended hphase hinitial

/-- Only the phase and the watch matter. -/
theorem Synced.of_eq (h : Synced shown seen s) (hphase : s'.phase = s.phase)
    (hwatch : s'.watch = s.watch) : Synced shown seen s' := by
  cases h with
  | starting hstarting hshown hseen => exact .starting (hphase.trans hstarting) hshown hseen
  | following hfollowing hw hkeeps =>
    exact .following (hphase.trans hfollowing) (hwatch.trans hw) hkeeps
  | ended hover hinitial => exact .ended (hphase.trans hover) hinitial

/-- The watch has delivered the first changes. -/
theorem Synced.initial (h : Synced shown seen s) : shown <+: changes seen := by
  cases h with
  | starting _ hshown _ => exact hshown ▸ List.nil_prefix
  | following _ _ hkeeps => exact hkeeps.kept ▸ List.prefix_append _ _
  | ended _ hinitial => exact hinitial

/-- A stream that follows its order has a watch that has lost nothing. -/
theorem Synced.keeps {w : Watch} (h : Synced shown seen s) (hphase : s.phase = .following)
    (hwatch : s.watch = some w) : Watch.Keeps shown seen w := by
  cases h with
  | starting hstarting => simp [hphase] at hstarting
  | following _ hw hkeeps =>
    obtain rfl := Option.some.inj (hw.symm.trans hwatch)
    exact hkeeps
  | ended hover => simp [hphase] at hover

/-- An item is passed on. -/
theorem synced_passOn {w w' : Watch} {item : Change} (h : Watch.Keeps shown seen w)
    (htake : w.take = some (item, w'))
    (hroom : ∀ chunk next, ({ s with watch := some w' }.passOn now item).phase ≠
      .sending chunk next) :
    Synced (shown ++ item.toOption.toList) seen ({ s with watch := some w' }.passOn now item) := by
  refine synced_of_leads (leads_passOn now { s with watch := some w' } item) rfl (fun hphase => ?_)
    (Watch.prefix_take h htake) hroom
  cases hlast : Watch.isLast item with
  | false => exact Watch.keeps_take h htake hlast
  | true => exact absurd hphase (phase_passOn hlast)

/-- BankID answers the watch. -/
theorem synced_answered {w : Watch} {answer : Change} (h : Synced shown seen s)
    (hstarted : s.phase ≠ .starting) (hw : s.watch = some w) (hasks : w.phase = .asking) :
    Synced shown (seen ++ answer.toOption.toList)
      { s with watch := some (w.answered now answer) } := by
  cases h with
  | starting hstarting => exact absurd hstarting hstarted
  | following hphase hw' hkeeps =>
    obtain rfl := Option.some.inj (hw'.symm.trans hw)
    exact .following hphase rfl (Watch.keeps_answered hkeeps hasks answer)
  | ended hover hinitial =>
    refine .ended hover (hinitial.trans ?_)
    cases answer with
    | error failure => exact (List.append_nil seen).symm ▸ List.prefix_rfl
    | ok p => exact changes_prefix_snoc

/-- The watch moves. -/
theorem synced_advance {w w' : Watch} {asks : Bool} (h : Synced shown seen s)
    (hw : s.watch = some w) (hadvance : w.advance now = some (w', asks))
    (hpunctual : ∀ item deadline, w.phase = .offering item deadline → w.slot.isSome = true →
      now < deadline) : Synced shown seen { s with watch := some w' } := by
  cases h with
  | starting hstarting hshown hseen => exact .starting hstarting hshown hseen
  | following hphase hw' hkeeps =>
    obtain rfl := Option.some.inj (hw'.symm.trans hw)
    exact .following hphase rfl (Watch.keeps_advance hkeeps hadvance hpunctual)
  | ended hover hinitial => exact .ended hover hinitial

/-- Nothing is delivered and nothing is told. -/
theorem Synced.silent (h : Synced shown seen s') (hdelivered : e.delivered? s = none)
    (htold : e.told? = none) :
    Synced (shown ++ (e.delivered? s).toList) (seen ++ e.told?.toList) s' := by
  rw [hdelivered, htold, Option.toList_none, List.append_nil, List.append_nil]
  exact h

/-- **A step** of a stream whose client keeps up loses nothing. -/
theorem synced_of_does (h : Synced shown seen s) (hdoes : Does now s e s')
    (hroom : ∀ chunk next, s'.phase ≠ .sending chunk next)
    (hpunctual : ∀ w item deadline, s.watch = some w → w.phase = .offering item deadline →
      w.slot.isSome = true → now < deadline) :
    Synced (shown ++ (e.delivered? s).toList) (seen ++ e.told?.toList) s' := by
  cases hdoes with
  | @refused failure hphase =>
    refine Synced.silent ?_ rfl rfl
    cases leads_passOn now s (.error failure) with
    | follows hfollows _ => exact absurd hfollows (phase_passOn rfl)
    | waits hwaits _ => exact absurd hwaits (hroom _ _)
    | ends hends _ => exact .ended hends h.initial
  | @found p hphase =>
    cases h with
    | starting _ hshown hseen =>
      subst hshown hseen
      exact .following rfl rfl (Watch.keeps_start now s.pollInterval p)
    | following hfollowing => simp [hphase] at hfollowing
    | ended hover => simp [hphase] at hover
  | @told answer w hstarted hw hasks =>
    have hanswered : Synced shown (seen ++ answer.toOption.toList)
        { s with watch := some (w.answered now answer) } :=
      synced_answered h hstarted hw hasks
    exact (List.append_nil shown).symm ▸ hanswered
  | noticed _ _ => exact Synced.silent (.ended rfl h.initial) rfl rfl
  | @passed w w' item hphase hw htake =>
    have hdelivered : (Event.moved .change).delivered? s = item.toOption := by
      simp [Event.delivered?, hw, htake]
    rw [hdelivered]
    exact (List.append_nil seen).symm ▸ synced_passOn (h.keeps hphase hw) htake hroom
  | exhausted hphase htake _ =>
    exact Synced.silent (.ended rfl h.initial) (by simp [Event.delivered?, htake]) rfl
  | ticked hphase _ =>
    refine Synced.silent ?_ rfl rfl
    cases h with
    | following _ hw hkeeps =>
      exact synced_of_leads (leads_onTick now s) hw (fun _ => hkeeps)
        (hkeeps.kept ▸ List.prefix_append _ _) hroom
    | starting hstarting => simp [hphase] at hstarting
    | ended hover => simp [hphase] at hover
  | put hphase _ _ =>
    -- No chunk waits, so none finds room.
    cases h with
    | starting hstarting => simp [hphase] at hstarting
    | following hfollowing => simp [hphase] at hfollowing
    | ended hover => simp [hphase] at hover
  | @watched w w' asks hw hadvance =>
    exact Synced.silent
      (synced_advance h hw hadvance fun item deadline => hpunctual w item deadline hw) rfl rfl
  | read _ => exact Synced.silent (h.of_eq rfl rfl) rfl rfl
  | left _ => exact Synced.silent (h.of_eq rfl rfl) rfl rfl

/-- The watch is not at its end while the stream follows the order. -/
theorem item_of_synced (h : Synced shown seen s) (hdoes : Does now s (.moved .change) s') :
    s.watch.bind Watch.take ≠ none := by
  intro hnone
  cases hdoes with
  | passed _ hw htake => simp [hw, htake] at hnone
  | exhausted hphase _ hclosed =>
    cases h with
    | starting hstarting => simp [hphase] at hstarting
    | @following w _ hw hkeeps =>
      rw [hw, Option.bind_some] at hnone
      have hopen := Watch.Keeps.open hkeeps hnone
      simp [hclosed w hw] at hopen
    | ended hover => simp [hphase] at hover

/-! ## Items that wait -/

/-- A watch that still has an item is not stopped. -/
theorem watch_of_leads {w : Watch} (hleads : Leads now s s') (hw : s'.watch = some w)
    (hslot : w.slot.isSome = true) : s.watch = some w := by
  cases hleads with
  | follows _ hwatch => exact hwatch ▸ hw
  | waits _ hwatch => exact hwatch ▸ hw
  | ends _ hwatch =>
    rw [hwatch] at hw
    obtain ⟨w₀, -, rfl⟩ := Option.map_eq_some_iff.1 hw
    simp [Watch.slot_stop_abandon] at hslot

/-- An item that waits for the slot has just begun to wait, or the watch is as before. -/
theorem offering_of_does {w : Watch} {item : Change} {deadline : Nat} (hdoes : Does now s e s')
    (hw : s'.watch = some w) (hoffers : w.phase = .offering item deadline)
    (hslot : w.slot.isSome = true) :
    deadline = now + Watch.offerTimeout ∨ s.watch = some w := by
  cases hdoes with
  | refused _ => exact .inr (watch_of_leads (leads_passOn now s _) hw hslot)
  | found _ =>
    obtain rfl := Option.some.inj hw
    exact .inl (Watch.deadline_of_offer hoffers)
  | told _ _ hasks =>
    obtain rfl := Option.some.inj hw
    exact .inl (Watch.deadline_of_answered hasks hoffers)
  | noticed _ _ => exact .inr (watch_of_leads (.ends rfl rfl) hw hslot)
  | @passed w₀ w' item _ _ htake =>
    have hsame := watch_of_leads (leads_passOn now { s with watch := some w' } item) hw hslot
    obtain rfl := Option.some.inj hsame
    obtain ⟨first, -, heq⟩ := Option.map_eq_some_iff.1 htake
    obtain ⟨-, rfl⟩ := Prod.mk.inj heq
    cases hslot
  | exhausted _ _ _ => exact .inr (watch_of_leads (.ends rfl rfl) hw hslot)
  | ticked _ _ => exact .inr (watch_of_leads (leads_onTick now s) hw hslot)
  | @put chunk next _ _ _ =>
    have hleads := leads_goOn now { s with body := s.body ++ [chunk] } next
    exact .inr (watch_of_leads (hleads.of_eq rfl) hw hslot)
  | watched _ hadvance =>
    obtain rfl := Option.some.inj hw
    exact .inl (Watch.deadline_of_advance hadvance hoffers)
  | read _ => exact .inr hw
  | left _ => exact .inr hw

/-! ## Every run -/

variable {t₀ : Nat} {s₀ : OrderStream} {h : History}

/-- A history that goes on from one whose client keeps up. -/
theorem KeepsUp.of_snoc {tr : Transition OrderStream Event String} (hkeeps : KeepsUp (h ++ [tr])) :
    KeepsUp h := by
  refine ⟨fun x hx => hkeeps.room x (List.mem_append_left _ hx), ?_⟩
  rintro past first during last later rfl hwaits
  exact hkeeps.punctual past first during last (later ++ [tr]) (by simp) hwaits

/-- An item that waits for the slot waits since some step, and the slot is taken since. -/
theorem waits_of_runs (run : Runs t₀ s₀ h now s) (hstart : s₀.watch = none) {w : Watch}
    {item : Change} {deadline : Nat} (hw : s.watch = some w)
    (hoffers : w.phase = .offering item deadline) (hslot : w.slot.isSome = true) :
    ∃ past tr during, h = past ++ tr :: during ∧ deadline = tr.time + Watch.offerTimeout ∧
      ∀ x ∈ tr :: during, x.after.Waits := by
  induction run generalizing w item deadline with
  | start => simp [hstart] at hw
  | @next h t now s s' e effects run _ _ hm ih =>
    obtain ⟨s'', hstep, heq⟩ := Option.map_eq_some_iff.1 hm
    obtain ⟨rfl, rfl⟩ := Prod.mk.inj heq
    have hwaits : Waits s'' := ⟨w, item, deadline, hw, hoffers, hslot⟩
    rcases offering_of_does (does_of_step hstep) hw hoffers hslot with rfl | hsame
    · exact ⟨h, _, [], rfl, rfl, List.forall_mem_singleton.2 hwaits⟩
    · obtain ⟨past, tr, during, rfl, hdeadline, hduring⟩ := ih hsame hoffers hslot
      let last : Transition OrderStream Event String := ⟨now, s, e, s'', s.added s''⟩
      have hall : ∀ x ∈ (tr :: during) ++ [last], x.after.Waits :=
        List.forall_mem_append.2 ⟨hduring, List.forall_mem_singleton.2 hwaits⟩
      exact ⟨past, tr, during ++ [last], List.append_assoc _ _ _, hdeadline, hall⟩

/-- **A run** of a stream whose client keeps up loses nothing, and the watch is never at its end
while the stream follows the order. -/
theorem synced_of_runs (run : Runs t₀ s₀ h now s) (hwatch : s₀.watch = none)
    (hstart : s₀.phase = .starting ∨ s₀.phase = .over) (hkeeps : KeepsUp h) :
    Synced (delivered h) (observed h) s ∧
      ∀ tr ∈ h, ¬ (tr.event = .moved .change ∧ tr.before.watch.bind Watch.take = none) := by
  induction run with
  | start =>
    refine ⟨?_, by simp⟩
    rcases hstart with hstart | hstart
    · exact .starting hstart rfl rfl
    · exact .ended hstart List.nil_prefix
  | @next h t now s s' e effects run _ _ hm ih =>
    obtain ⟨hsynced, hitems⟩ := ih hkeeps.of_snoc
    obtain ⟨s'', hstep, heq⟩ := Option.map_eq_some_iff.1 hm
    obtain ⟨rfl, rfl⟩ := Prod.mk.inj heq
    have hdoes := does_of_step hstep
    -- A watch drops an item at its deadline, a second after it began to wait.
    have hpunctual (w : Watch) (item : Change) (deadline : Nat) (hw : s.watch = some w)
        (hoffers : w.phase = .offering item deadline) (hslot : w.slot.isSome = true) :
        now < deadline := by
      obtain ⟨past, tr, during, rfl, rfl, hduring⟩ := waits_of_runs run hwatch hw hoffers hslot
      exact hkeeps.punctual past tr during _ [] rfl hduring
    refine ⟨?_, List.forall_mem_append.2 ⟨hitems, List.forall_mem_singleton.2 ?_⟩⟩
    · rw [delivered_snoc, observed_snoc]
      exact synced_of_does hsynced hdoes
        (hkeeps.room _ (List.mem_append_right _ (List.mem_singleton_self _))) hpunctual
    · rintro ⟨rfl, hnone⟩
      exact item_of_synced hsynced hdoes hnone

end

end OrderBroker.Http.OrderStream
