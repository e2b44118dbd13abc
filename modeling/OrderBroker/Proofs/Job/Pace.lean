import OrderBroker.Proofs.Job.Times

/-!
# The pace of a wait

A wait asks at its start or one interval later, and again one interval after each answer, until an
answer decides or its caller gives up or leaves. `Course` compares a wait with its record: the times
of its questions, its answers and its ending. Every step keeps it (`Coursing.step`), and so does
every run (`coursing_of_runs`).
-/

namespace OrderBroker

variable {ρ : Type}

/-- How an order is asked about, and what the answers mean to whoever waits. -/
structure Asking (ρ : Type) where
  call : Call
  /-- The first question is asked at once, and not only after an interval. -/
  asksAtOnce : Bool
  /-- The time between an answer and the next question, in milliseconds. -/
  interval : Nat
  /-- The answer ends the wait, where `first` was the first one. -/
  decides (first answer : Answer) : Prop
  /-- What the wait gives if it ends with the answer. -/
  outcome : Answer → ρ
  /-- What the wait gives when its caller gives up. -/
  cancelled : ρ

namespace Asking

/-- The way of a wait that goes by a rule. -/
def ofRule (rule : Wait.Rule ρ) (call : Call) (read : Answer → Except ρ (Sighting ρ)) :
    Asking ρ where
  call
  asksAtOnce := rule.asksAtOnce
  interval := rule.interval
  decides first answer :=
    match read answer with
    | .error _ => True
    | .ok s => s.isOver = true ∨
      rule.endsOnChange = true ∧ ∃ s₀, read first = .ok s₀ ∧ s₀.substate ≠ s.substate
  outcome answer :=
    match read answer with
    | .error x => x
    | .ok s => s.result
  cancelled := rule.cancelled

section
variable (k : Asking ρ) (t₀ : Nat)

/-- The answer decides, after the first one of the answers. -/
def Decides (answers : List (Nat × Answer)) (answer : Answer) : Prop :=
  ∃ first, answers.head? = some first ∧ k.decides first.2 answer

/-- None of the answers decides. -/
def Undecided (answers : List (Nat × Answer)) : Prop := ∀ r ∈ answers, ¬ k.Decides answers r.2

/-- When the questions are due: the first one, and one after each answer. -/
def dues (answers : List (Nat × Answer)) : List Nat :=
  (if k.asksAtOnce then t₀ else t₀ + k.interval) :: answers.map (·.1 + k.interval)

/-- No question is asked before it is due; if the wait is `punctual`, none is asked later. -/
def Paced (punctual : Prop) (asked : List Nat) (answers : List (Nat × Answer)) : Prop :=
  ∀ i t : Nat, asked[i]? = some t →
    ∃ due, (k.dues t₀ answers)[i]? = some due ∧ due ≤ t ∧ (punctual → t = due)

end

section
variable {k : Asking ρ} {t₀ now due : Nat} {punctual punctual' : Prop} {asked : List Nat}
  {answers : List (Nat × Answer)} {r : Nat × Answer} {answer : Answer}

/-- Another answer does not change what decided before. -/
theorem decides_snoc (hr : r ∈ answers) {last : Nat × Answer} :
    k.Decides (answers ++ [last]) answer ↔ k.Decides answers answer := by
  cases answers with
  | nil => cases hr
  | cons first rest => rfl

/-- Only the last answer may decide. -/
theorem Undecided.early (hundecided : k.Undecided answers) {last : Nat × Answer} :
    ∀ r ∈ (answers ++ [last]).dropLast, ¬ k.Decides (answers ++ [last]) r.2 := by
  intro r hr
  rw [List.dropLast_concat] at hr
  rw [decides_snoc hr]
  exact hundecided r hr

/-- If that does not, none does. -/
theorem Undecided.snoc (hundecided : k.Undecided answers)
    (hlast : ¬ k.Decides (answers ++ [r]) r.2) : k.Undecided (answers ++ [r]) := by
  intro r' hr'
  rcases List.mem_append.1 hr' with hold | hnew
  · rw [decides_snoc hold]
    exact hundecided r' hold
  · rw [List.mem_singleton.1 hnew]
    exact hlast

theorem dues_snoc : k.dues t₀ (answers ++ [r]) = k.dues t₀ answers ++ [r.1 + k.interval] := by
  rw [dues, List.map_append]
  rfl

theorem length_dues : (k.dues t₀ answers).length = answers.length + 1 := by
  rw [dues, List.length_cons, List.length_map]

/-- At most one question has no answer. -/
theorem Paced.length_le (hpaced : k.Paced t₀ punctual asked answers) :
    asked.length ≤ answers.length + 1 := by
  cases hlast : asked.getLast? with
  | none =>
    rw [List.getLast?_eq_none_iff.1 hlast]
    exact Nat.zero_le _
  | some t =>
    rw [List.getLast?_eq_getElem?] at hlast
    obtain ⟨due, hdue, -⟩ := hpaced _ t hlast
    have hlt := (List.getElem?_eq_some_iff.1 hdue).1
    rw [length_dues] at hlt
    omega

theorem Paced.mono (hpaced : k.Paced t₀ punctual asked answers) (himp : punctual' → punctual) :
    k.Paced t₀ punctual' asked answers := by
  intro i t ht
  obtain ⟨due, hdue, hle, heq⟩ := hpaced i t ht
  exact ⟨due, hdue, hle, fun h => heq (himp h)⟩

/-- An answer makes one more question due. -/
theorem Paced.answered (hpaced : k.Paced t₀ punctual asked answers) :
    k.Paced t₀ punctual asked (answers ++ [r]) := by
  intro i t ht
  obtain ⟨due, hdue, hrest⟩ := hpaced i t ht
  refine ⟨due, ?_, hrest⟩
  rw [dues_snoc, List.getElem?_append_left (List.getElem?_eq_some_iff.1 hdue).1]
  exact hdue

/-- A question that is due is asked. -/
theorem Paced.asks (hpaced : k.Paced t₀ punctual asked answers)
    (hdue : (k.dues t₀ answers)[asked.length]? = some due) (hle : due ≤ now)
    (hlate : punctual → now ≤ due) : k.Paced t₀ punctual (asked ++ [now]) answers := by
  intro i t ht
  rcases Nat.lt_or_ge i asked.length with hlt | hge
  · rw [List.getElem?_append_left hlt] at ht
    exact hpaced i t ht
  · rw [List.getElem?_append_right hge, List.getElem?_singleton] at ht
    split at ht
    · next hi =>
      obtain rfl : i = asked.length := by omega
      obtain rfl := Option.some.inj ht
      exact ⟨due, hdue, hle, fun h => Nat.le_antisymm (hlate h) hle⟩
    · cases ht

end

/-- `k.Stands t₀ gaveUp n answers w ending`: where the wait `w` stands after `n` questions, and how
it has ended if it has. -/
inductive Stands (k : Asking ρ) (t₀ : Nat) (gaveUp : Prop) (n : Nat)
    (answers : List (Nat × Answer)) (w : Wait ρ) : Option (Ending ρ) → Prop
  | rests {due : Nat} : w.phase = .resting due → n = answers.length →
      (k.dues t₀ answers)[n]? = some due → k.Undecided answers →
      Stands k t₀ gaveUp n answers w none
  | asks : w.phase = .asking → n = answers.length + 1 → k.Undecided answers →
      Stands k t₀ gaveUp n answers w none
  | decided {r : Nat × Answer} : w.phase = .over → n = answers.length →
      answers.getLast? = some r → k.Decides answers r.2 →
      Stands k t₀ gaveUp n answers w (some (.done r.1 (k.outcome r.2)))
  | cancelled {t : Nat} : w.phase = .over → gaveUp → n = answers.length → k.Undecided answers →
      Stands k t₀ gaveUp n answers w (some (.done t k.cancelled))
  | left {t : Nat} : w.phase = .over → k.Undecided answers →
      Stands k t₀ gaveUp n answers w (some (.left t))

/-- Who has given up has given up. -/
theorem Stands.mono {k : Asking ρ} {t₀ n : Nat} {gaveUp gaveUp' : Prop}
    {answers : List (Nat × Answer)} {w : Wait ρ} {ending : Option (Ending ρ)}
    (hstands : k.Stands t₀ gaveUp n answers w ending) (himp : gaveUp → gaveUp') :
    k.Stands t₀ gaveUp' n answers w ending := by
  cases hstands with
  | rests hphase hn hdue hundecided => exact .rests hphase hn hdue hundecided
  | asks hphase hn hundecided => exact .asks hphase hn hundecided
  | decided hphase hn hlast hdecides => exact .decided hphase hn hlast hdecides
  | cancelled hphase hgave hn hundecided => exact .cancelled hphase (himp hgave) hn hundecided
  | left hphase hundecided => exact .left hphase hundecided

/-- A wait ends with an answer that decides. -/
theorem Stands.ends {k : Asking ρ} {t₀ n : Nat} {gaveUp : Prop} {answers : List (Nat × Answer)}
    {w : Wait ρ} {ending : Option (Ending ρ)} {r : Nat × Answer}
    (hstands : k.Stands t₀ gaveUp n answers w ending) (hlast : answers.getLast? = some r)
    (hdecides : k.Decides answers r.2) :
    n = answers.length ∧ ending = some (.done r.1 (k.outcome r.2)) := by
  have hdecided : ¬ k.Undecided answers := fun hundecided =>
    hundecided r (List.mem_of_getLast? hlast) hdecides
  cases hstands with
  | rests _ _ _ hundecided => exact absurd hundecided hdecided
  | asks _ _ hundecided => exact absurd hundecided hdecided
  | decided _ hn hlast' _ =>
    obtain rfl := Option.some.inj (hlast.symm.trans hlast')
    exact ⟨hn, rfl⟩
  | cancelled _ _ _ hundecided => exact absurd hundecided hdecided
  | left _ hundecided => exact absurd hundecided hdecided

end Asking

namespace Wait

/-! ## The course of a wait -/

/-- The effect asks. -/
def Effect.asks : Effect ρ → Bool
  | .ask => true
  | _ => false

/-- The result that an effect gives. -/
def Effect.result? : Effect ρ → Option ρ
  | .finish x => some x
  | _ => none

/-- Abandoning the order gives no result of its own. -/
theorem result_abandon (w : Wait ρ) (effects : List (Effect ρ)) :
    (w.abandon effects).2.findSome? (·.result?) = effects.findSome? (·.result?) := by
  rw [abandon, List.findSome?_append]
  split
  · exact Option.or_none
  · exact Option.or_none

/-- Nor does it ask. -/
theorem asks_abandon (w : Wait ρ) (effects : List (Effect ρ)) :
    (w.abandon effects).2.countP (·.asks) = effects.countP (·.asks) := by
  rw [abandon, List.countP_append]
  split
  · rfl
  · rfl

/-- Nor does a rest. -/
theorem asks_rest (w : Wait ρ) (now : Nat) : (w.rest now).2.countP (·.asks) = 0 := by
  unfold rest
  split
  · exact asks_abandon w _
  · rfl

/-- No answer makes a wait ask at once. -/
theorem asks_answered (w : Wait ρ) (now : Nat) (answer : Except ρ (Sighting ρ)) :
    (w.answered now answer).2.countP (·.asks) = 0 := by
  unfold answered
  split
  · exact asks_abandon w _
  · split
    · rfl
    · exact asks_rest _ now
  · rfl

section
variable {rule : Rule ρ} {call : Call} {read : Answer → Except ρ (Sighting ρ)}

/-- `Course rule call read t₀ gaveUp punctual asked answers w ending`: the wait `w` goes by `rule`
since `t₀`, and has asked and been answered as recorded. -/
structure Course (rule : Rule ρ) (call : Call) (read : Answer → Except ρ (Sighting ρ)) (t₀ : Nat)
    (gaveUp punctual : Prop) (asked : List Nat) (answers : List (Nat × Answer)) (w : Wait ρ)
    (ending : Option (Ending ρ)) : Prop where
  follows : w.rule = rule
  baseline : w.phase ≠ .over →
    w.baseline = (answers.head?.bind fun r => (read r.2).toOption).map (·.substate)
  gave : w.givenUp = true → gaveUp
  paced : (Asking.ofRule rule call read).Paced t₀ punctual asked answers
  early : ∀ r ∈ answers.dropLast, ¬ (Asking.ofRule rule call read).Decides answers r.2
  stands : (Asking.ofRule rule call read).Stands t₀ gaveUp asked.length answers w ending

variable {t₀ now : Nat} {gaveUp punctual gaveUp' punctual' : Prop} {asked : List Nat}
  {answers : List (Nat × Answer)} {w : Wait ρ} {ending : Option (Ending ρ)} {answer : Answer}
  {s : Sighting ρ} {x : ρ}

/-- What happened before has happened, and who was late is late. -/
theorem Course.mono (hcourse : Course rule call read t₀ gaveUp punctual asked answers w ending)
    (hgave : gaveUp → gaveUp') (hpunctual : punctual' → punctual) :
    Course rule call read t₀ gaveUp' punctual' asked answers w ending :=
  ⟨hcourse.follows, hcourse.baseline, fun h => hgave (hcourse.gave h),
    hcourse.paced.mono hpunctual, hcourse.early, hcourse.stands.mono hgave⟩

/-- A failure decides. -/
theorem decides_error (hread : read answer = .error x) :
    (Asking.ofRule rule call read).Decides (answers ++ [(now, answer)]) answer := by
  obtain ⟨first, hfirst⟩ : ∃ first, (answers ++ [(now, answer)]).head? = some first := by
    cases answers <;> exact ⟨_, rfl⟩
  refine ⟨first, hfirst, ?_⟩
  simp only [Asking.ofRule, hread]

/-- Where nothing has decided, the order was shown. -/
theorem read_of_undecided (hundecided : (Asking.ofRule rule call read).Undecided answers)
    {r : Nat × Answer} (hr : r ∈ answers) : ∃ s, read r.2 = .ok s := by
  cases hread : read r.2 with
  | ok s => exact ⟨s, rfl⟩
  | error x =>
    refine absurd ?_ (hundecided r hr)
    cases answers with
    | nil => cases hr
    | cons first rest =>
      refine ⟨first, rfl, ?_⟩
      simp only [Asking.ofRule, hread]

/-- What is shown decides exactly if the wait takes it as deciding. -/
theorem decides_ok (hfollows : w.rule = rule)
    (hbaseline : w.baseline =
      (answers.head?.bind fun r => (read r.2).toOption).map (·.substate))
    (hread : read answer = .ok s) :
    (Asking.ofRule rule call read).Decides (answers ++ [(now, answer)]) answer ↔
      w.decides s = true := by
  rw [decides, hfollows, Bool.or_eq_true, Bool.and_eq_true, hbaseline]
  cases answers with
  | nil => simp [Asking.Decides, Asking.ofRule, hread]
  | cons first rest =>
    cases hfirst : read first.2 <;>
      simp [Asking.Decides, Asking.ofRule, hread, hfirst, Except.toOption]

/-- A wait ends with an answer that decides. -/
theorem Course.of_decided (hfollows : w.rule = rule) (hgave : w.givenUp = true → gaveUp)
    (hpaced : (Asking.ofRule rule call read).Paced t₀ punctual asked answers)
    (hundecided : (Asking.ofRule rule call read).Undecided answers)
    (hn : asked.length = answers.length + 1)
    (hdecides : (Asking.ofRule rule call read).Decides (answers ++ [(now, answer)]) answer) :
    Course rule call read t₀ gaveUp punctual asked (answers ++ [(now, answer)])
      { w with phase := .over }
      (some (.done now ((Asking.ofRule rule call read).outcome answer))) := by
  refine ⟨hfollows, fun hgoes => absurd rfl hgoes, hgave, hpaced.answered, hundecided.early, ?_⟩
  refine .decided (r := (now, answer)) rfl ?_ List.getLast?_concat hdecides
  rw [List.length_append, hn]
  rfl

/-- A wait rests, or ends because its caller has given up. -/
theorem Course.of_rest (hfollows : w.rule = rule)
    (hbaseline : w.baseline =
      (answers.head?.bind fun r => (read r.2).toOption).map (·.substate))
    (hpaced : (Asking.ofRule rule call read).Paced t₀ punctual asked answers)
    (hundecided : (Asking.ofRule rule call read).Undecided answers)
    (hn : asked.length = answers.length) (hgave : w.givenUp = true → gaveUp)
    (hdue : ((Asking.ofRule rule call read).dues t₀ answers)[asked.length]? =
      some (now + rule.interval)) :
    Course rule call read t₀ gaveUp punctual asked answers (w.rest now).1
      (((w.rest now).2.findSome? (·.result?)).map (.done now)) := by
  have hearly : ∀ r ∈ answers.dropLast, ¬ (Asking.ofRule rule call read).Decides answers r.2 :=
    fun r hr => hundecided r (List.dropLast_subset _ hr)
  refine ⟨rule_rest.trans hfollows, ?_, ?_, hpaced, hearly, ?_⟩
  · intro _
    rw [← hbaseline]
    unfold rest
    split <;> rfl
  · intro hgivenUp
    refine hgave (Eq.trans ?_ hgivenUp)
    unfold rest
    split <;> rfl
  · unfold rest
    split
    · next hgivenUp =>
      rw [hfollows]
      exact .cancelled rfl (hgave hgivenUp) hn hundecided
    · rw [hfollows]
      exact .rests rfl hn hdue hundecided

/-- The start of a wait. -/
theorem course_start (givenUp : Bool) (hgave : givenUp = true → gaveUp) :
    Course rule call read t₀ gaveUp punctual
      (List.replicate ((Wait.start t₀ rule givenUp).2.countP (·.asks)) t₀) []
      (Wait.start t₀ rule givenUp).1
      (((Wait.start t₀ rule givenUp).2.findSome? (·.result?)).map (.done t₀)) := by
  have hunasked : (Asking.ofRule rule call read).Paced t₀ punctual [] [] := by
    intro i t ht
    cases ht
  have hundecided : (Asking.ofRule rule call read).Undecided [] := by
    intro r hr
    cases hr
  unfold Wait.start
  split
  · next hatOnce =>
    have hdue : ((Asking.ofRule rule call read).dues t₀ [])[([] : List Nat).length]? = some t₀ := by
      simp [Asking.dues, Asking.ofRule, hatOnce]
    refine ⟨rfl, fun _ => rfl, hgave, hunasked.asks hdue (Nat.le_refl _) fun _ => Nat.le_refl _,
      ?_, .asks rfl rfl hundecided⟩
    intro r hr
    cases hr
  · next hlate =>
    rw [asks_rest]
    refine .of_rest rfl rfl hunasked hundecided rfl hgave ?_
    simp [Asking.dues, Asking.ofRule, hlate]

/-- A wait that asks has not ended, and waits for one answer. -/
theorem Course.asking (hcourse : Course rule call read t₀ gaveUp punctual asked answers w ending)
    (hasks : w.phase = .asking) :
    ending = none ∧ asked.length = answers.length + 1 ∧
      (Asking.ofRule rule call read).Undecided answers := by
  cases hcourse.stands with
  | asks _ hn hundecided => exact ⟨rfl, hn, hundecided⟩
  | _ hphase =>
    rw [hasks] at hphase
    cases hphase

/-- A wait that rests has not ended, and asks when its rest is over. -/
theorem Course.resting (hcourse : Course rule call read t₀ gaveUp punctual asked answers w ending)
    {due : Nat} (hrests : w.phase = .resting due) :
    ending = none ∧ asked.length = answers.length ∧
      ((Asking.ofRule rule call read).dues t₀ answers)[asked.length]? = some due ∧
      (Asking.ofRule rule call read).Undecided answers := by
  cases hcourse.stands with
  | rests hphase hn hdue hundecided =>
    rw [hrests] at hphase
    cases hphase
    exact ⟨rfl, hn, hdue, hundecided⟩
  | _ hphase =>
    rw [hrests] at hphase
    cases hphase

/-- A wait that is over has ended. -/
theorem Course.over (hcourse : Course rule call read t₀ gaveUp punctual asked answers w ending)
    (hover : w.phase = .over) : ending ≠ none := by
  cases hcourse.stands with
  | rests hphase | asks hphase =>
    rw [hover] at hphase
    cases hphase
  | _ => exact Option.some_ne_none _

/-- The answer to the question comes. -/
theorem Course.answered (hcourse : Course rule call read t₀ gaveUp punctual asked answers w ending)
    (hasks : w.phase = .asking) (now : Nat) (answer : Answer) :
    Course rule call read t₀ gaveUp punctual asked (answers ++ [(now, answer)])
      (w.answered now (read answer)).1
      (((w.answered now (read answer)).2.findSome? (·.result?)).map (.done now)) := by
  obtain ⟨-, hn, hundecided⟩ := hcourse.asking hasks
  have hbaseline := hcourse.baseline (goes_of_asking hasks)
  have hends
      (hdecides : (Asking.ofRule rule call read).Decides (answers ++ [(now, answer)]) answer) :
      Course rule call read t₀ gaveUp punctual asked (answers ++ [(now, answer)])
        { w with phase := .over }
        (some (.done now ((Asking.ofRule rule call read).outcome answer))) :=
    .of_decided hcourse.follows hcourse.gave hcourse.paced hundecided hn hdecides
  cases hread : read answer with
  | error x =>
    have houtcome : (Asking.ofRule rule call read).outcome answer = x := by
      simp only [Asking.ofRule, hread]
    rw [houtcome] at hends
    rw [answered_error hasks, result_abandon]
    exact hends (decides_error hread)
  | ok s =>
    have houtcome : (Asking.ofRule rule call read).outcome answer = s.result := by
      simp only [Asking.ofRule, hread]
    have hiff : (Asking.ofRule rule call read).Decides (answers ++ [(now, answer)]) answer ↔
        w.decides s = true := decides_ok hcourse.follows hbaseline hread
    rw [houtcome, hiff] at hends
    rw [answered_ok hasks]
    cases hdecides : w.decides s with
    | true => exact hends hdecides
    | false =>
      have hlast :
          ¬ (Asking.ofRule rule call read).Decides (answers ++ [(now, answer)]) answer := by
        rw [hiff, hdecides]
        exact Bool.false_ne_true
      have hlength : asked.length = (answers ++ [(now, answer)]).length := by
        rw [List.length_append]
        exact hn
      refine .of_rest hcourse.follows ?_ hcourse.paced.answered (hundecided.snoc hlast) hlength
        hcourse.gave ?_
      · rw [hbaseline]
        cases answers with
        | nil => simp [hread, Except.toOption]
        | cons first rest =>
          obtain ⟨s₀, hfirst⟩ := read_of_undecided hundecided (.head _)
          simp [hfirst, Except.toOption]
      · have hlength : ((Asking.ofRule rule call read).dues t₀ answers).length = asked.length :=
          Asking.length_dues.trans hn.symm
        rw [Asking.dues_snoc, ← hlength, List.getElem?_concat_length]
        rfl

/-- The rest is over, and the next question is asked. -/
theorem Course.asks (hcourse : Course rule call read t₀ gaveUp punctual asked answers w ending)
    {due : Nat} (hrests : w.phase = .resting due) (hdue : due ≤ now)
    (hlate : punctual → now ≤ due) :
    Course rule call read t₀ gaveUp punctual (asked ++ [now]) answers w.ask.1 none := by
  obtain ⟨-, hn, hnext, hundecided⟩ := hcourse.resting hrests
  have hbaseline := hcourse.baseline (goes_of_resting hrests)
  refine ⟨hcourse.follows, fun _ => hbaseline, hcourse.gave, hcourse.paced.asks hnext hdue hlate,
    hcourse.early, .asks rfl ?_ hundecided⟩
  rw [List.length_append, hn]
  rfl

/-- The caller gives up while the wait rests. -/
theorem Course.cancelled
    (hcourse : Course rule call read t₀ gaveUp punctual asked answers w ending) {due : Nat}
    (hrests : w.phase = .resting due) (hgave : gaveUp) (now : Nat) :
    Course rule call read t₀ gaveUp punctual asked answers w.giveUp.1
      (some (.done now rule.cancelled)) := by
  obtain ⟨-, hn, -, hundecided⟩ := hcourse.resting hrests
  rw [giveUp_resting hrests]
  exact ⟨hcourse.follows, fun hgoes => absurd rfl hgoes, fun _ => hgave, hcourse.paced,
    hcourse.early, .cancelled rfl hgave hn hundecided⟩

/-- The caller gives up while the wait asks, and is noticed later. -/
theorem Course.givesUp
    (hcourse : Course rule call read t₀ gaveUp punctual asked answers w ending)
    (hasks : w.phase = .asking) (hgave : gaveUp) :
    Course rule call read t₀ gaveUp punctual asked answers w.giveUp.1 none := by
  obtain ⟨-, hn, hundecided⟩ := hcourse.asking hasks
  rw [giveUp_asking hasks]
  exact ⟨hcourse.follows, hcourse.baseline, fun _ => hgave, hcourse.paced, hcourse.early,
    .asks hasks hn hundecided⟩

/-- The caller leaves. -/
theorem Course.leaves (hcourse : Course rule call read t₀ gaveUp punctual asked answers w ending)
    (hgoes : w.phase ≠ .over) (now : Nat) :
    Course rule call read t₀ gaveUp punctual asked answers (w.abandon []).1 (some (.left now)) := by
  have hundecided : (Asking.ofRule rule call read).Undecided answers := by
    cases hphase : w.phase with
    | resting due => exact (hcourse.resting hphase).2.2.2
    | asking => exact (hcourse.asking hphase).2.2
    | _ => exact absurd hphase hgoes
  exact ⟨hcourse.follows, fun hgoes => absurd rfl hgoes, hcourse.gave, hcourse.paced,
    hcourse.early, .left rfl hundecided⟩

end

end Wait

namespace Job

/-! ## The record of a job -/

/-- Nothing happens to the job after the end of a rest but what ends the rest. -/
def Punctual (h : History ρ) : Prop := ∀ tr ∈ h, ∀ due, tr.before.due? = some due → tr.time ≤ due

section
variable {rule : Wait.Rule ρ} {call : Call} {read : Answer → Except ρ (Sighting ρ)}
  {cancel : Option Call} {t₀ now : Nat} {givenUp : Bool} {h : History ρ} {j : Job ρ}
  {tr : Transition (Job ρ) Event (Effect ρ)}

/-- A job asks when its wait does. -/
theorem questions_waitEffects (effects : List (Wait.Effect ρ)) :
    ((waitEffects (.ok call) cancel effects).filterMap (·.question?)).map (now, ·) =
      (List.replicate (effects.countP (·.asks)) now).map (·, call) := by
  induction effects with
  | nil => rfl
  | cons effect rest ih =>
    cases effect with
    | ask =>
      rw [List.countP_cons_of_pos rfl, List.replicate_succ, List.map_cons, ← ih]
      rfl
    | finish result => exact ih
    | cancelOrder => cases cancel <;> exact ih

/-- A job gives the first result that its wait gives. -/
theorem result_waitEffects (effects : List (Wait.Effect ρ)) :
    (waitEffects (.ok call) cancel effects).findSome? (·.result?) =
      effects.findSome? (·.result?) := by
  induction effects with
  | nil => rfl
  | cons effect rest ih =>
    cases effect with
    | ask => exact ih
    | finish result => rfl
    | cancelOrder => cases cancel <;> exact ih

/-- The job `j` is a wait whose course is as the job's history says. -/
def Coursing (t₀ : Nat) (givenUp : Bool) (rule : Wait.Rule ρ) (call : Call)
    (read : Answer → Except ρ (Sighting ρ)) (cancel : Option Call) (h : History ρ) (j : Job ρ) :
    Prop :=
  ∃ w times, j = .wait w (.ok call) read cancel ∧
    asked t₀ givenUp (.wait rule (.ok call) read cancel) h = times.map (·, call) ∧
    Wait.Course rule call read t₀ (GaveUp givenUp h) (Punctual h) times (replies h) w
      (ending? t₀ givenUp (.wait rule (.ok call) read cancel) h)

section
variable {w : Wait ρ} {times : List Nat} {step : Wait ρ × List (Wait.Effect ρ)}
  (hasked : asked t₀ givenUp (.wait rule (.ok call) read cancel) h = times.map (·, call))

include hasked

/-- A wait that has moved, and whose caller stays, ends with the first result that it gives. -/
theorem Coursing.of_moved
    (hopen : ending? t₀ givenUp (.wait rule (.ok call) read cancel) h = none)
    (hstays : tr.event ≠ .drop)
    (hs : ofWait tr.time (.ok call) read cancel step = (tr.after, tr.effects))
    (hnext : Wait.Course rule call read t₀ (GaveUp givenUp (h ++ [tr])) (Punctual (h ++ [tr]))
      (times ++ List.replicate (step.2.countP (·.asks)) tr.time) (replies (h ++ [tr])) step.1
      ((step.2.findSome? (·.result?)).map (.done tr.time))) :
    Coursing t₀ givenUp rule call read cancel (h ++ [tr]) tr.after := by
  rw [ofWait_ok] at hs
  obtain ⟨hafter, heffects⟩ := Prod.mk.inj hs
  refine ⟨step.1, times ++ List.replicate (step.2.countP (·.asks)) tr.time, hafter.symm, ?_, ?_⟩
  · rw [asked_snoc, hasked, ← heffects, questions_waitEffects, List.map_append]
  · rw [ending?_snoc, hopen, Option.none_or, endsBy?_of_ne hstays, ← heffects, result_waitEffects]
    exact hnext

variable (hcourse : Wait.Course rule call read t₀ (GaveUp givenUp (h ++ [tr]))
    (Punctual (h ++ [tr])) times (replies h) w
    (ending? t₀ givenUp (.wait rule (.ok call) read cancel) h))

include hcourse

/-- A step that is none of the wait's. -/
theorem Coursing.of_still (hafter : tr.after = .wait w (.ok call) read cancel)
    (heffects : tr.effects = []) (hreplies : replies (h ++ [tr]) = replies h)
    (hstays : w.phase ≠ .over → tr.event ≠ .drop) :
    Coursing t₀ givenUp rule call read cancel (h ++ [tr]) tr.after := by
  have hending : ending? t₀ givenUp (.wait rule (.ok call) read cancel) (h ++ [tr]) =
      ending? t₀ givenUp (.wait rule (.ok call) read cancel) h := by
    rw [ending?_snoc]
    by_cases hover : w.phase = .over
    · obtain ⟨ending, hending⟩ := Option.ne_none_iff_exists'.1 (hcourse.over hover)
      rw [hending]
      rfl
    · rw [endsBy?_of_ne (hstays hover), heffects]
      exact Option.or_none
  refine ⟨w, times, hafter, ?_, ?_⟩
  · rw [asked_snoc, heffects]
    exact (List.append_nil _).trans hasked
  · rw [hending, hreplies]
    exact hcourse

/-- Where the caller leaves, the wait ends. -/
theorem Coursing.of_left (hgoes : w.phase ≠ .over)
    (hopen : ending? t₀ givenUp (.wait rule (.ok call) read cancel) h = none)
    (hleaves : tr.event = .drop)
    (hs : ofWait tr.time (.ok call) read cancel w.drop = (tr.after, tr.effects)) :
    Coursing t₀ givenUp rule call read cancel (h ++ [tr]) tr.after := by
  rw [Wait.drop_of_goes hgoes, ofWait_ok] at hs
  obtain ⟨hafter, heffects⟩ := Prod.mk.inj hs
  have hreplies : replies (h ++ [tr]) = replies h :=
    replies_snoc_other fun slot answer hevent => by
      rw [hleaves] at hevent
      cases hevent
  refine ⟨_, times, hafter.symm, ?_, ?_⟩
  · rw [asked_snoc, ← heffects, questions_waitEffects, Wait.asks_abandon, hasked]
    exact List.append_nil _
  · rw [ending?_snoc, hopen, Option.none_or, endsBy?, hleaves, hreplies]
    exact hcourse.leaves hgoes tr.time

variable (hbefore : tr.before = .wait w (.ok call) read cancel)
  (hstep : machine tr.time (.wait w (.ok call) read cancel) tr.event = some (tr.after, tr.effects))

include hbefore hstep

/-- A step of a wait that is over. -/
theorem Coursing.of_over (hover : w.phase = .over) :
    Coursing t₀ givenUp rule call read cancel (h ++ [tr]) tr.after := by
  obtain ⟨hafter, heffects⟩ := wait_stays_over hover hstep
  refine .of_still hasked hcourse hafter heffects ?_ fun hgoes => absurd hover hgoes
  refine replies_snoc_other fun slot answer _ => ?_
  rw [hbefore, asks, hover]
  rfl

/-- A step of a wait that asks. -/
theorem Coursing.of_asking (hasks : w.phase = .asking) :
    Coursing t₀ givenUp rule call read cancel (h ++ [tr]) tr.after := by
  obtain ⟨hopen, -⟩ := hcourse.asking hasks
  have hgoes := Wait.goes_of_asking hasks
  have hwaits : tr.before.asks = true := by
    rw [hbefore]
    exact decide_eq_true hasks
  generalize hevent : tr.event = e at hstep
  have hreplies (hother : ∀ slot answer, e ≠ .answered slot answer) :
      replies (h ++ [tr]) = replies h :=
    replies_snoc_other fun slot answer heq => absurd (hevent.symm.trans heq) (hother slot answer)
  cases e with
  | answered slot answer =>
    have hs : ofWait tr.time (.ok call) read cancel (w.answered tr.time (read answer)) =
        (tr.after, tr.effects) := Option.some.inj hstep
    refine .of_moved hasked hopen (by simp [hevent]) hs ?_
    rw [replies_snoc hevent hwaits, Wait.asks_answered]
    exact (List.append_nil times).symm ▸ hcourse.answered hasks tr.time answer
  | advance =>
    have hnone : w.advance tr.time = none := by simp only [Wait.advance, hasks]
    rw [machine, advance, hnone] at hstep
    cases hstep
  | giveUp =>
    have hs : ofWait tr.time (.ok call) read cancel w.giveUp = (tr.after, tr.effects) :=
      Option.some.inj hstep
    have hgave : GaveUp givenUp (h ++ [tr]) :=
      .inr ⟨tr, List.mem_append_right _ (.head _), hevent⟩
    have hgivesUp := hcourse.givesUp hasks hgave
    rw [Wait.giveUp_asking hasks] at hgivesUp hs
    refine .of_moved hasked hopen (by simp [hevent]) hs ?_
    rw [hreplies (by simp)]
    exact (List.append_nil times).symm ▸ hgivesUp
  | drop => exact .of_left hasked hcourse hgoes hopen hevent (Option.some.inj hstep)
  | _ =>
    obtain ⟨hafter, heffects⟩ := Prod.mk.inj (Option.some.inj hstep)
    exact .of_still hasked hcourse hafter.symm heffects.symm (hreplies (by simp))
      fun _ => by simp [hevent]

/-- A step of a wait that rests. -/
theorem Coursing.of_resting {due : Nat} (hrests : w.phase = .resting due) :
    Coursing t₀ givenUp rule call read cancel (h ++ [tr]) tr.after := by
  obtain ⟨hopen, -⟩ := hcourse.resting hrests
  have hgoes := Wait.goes_of_resting hrests
  have hidle := Wait.idle_of_resting hrests
  have hreplies : replies (h ++ [tr]) = replies h := by
    refine replies_snoc_other fun slot answer _ => ?_
    rw [hbefore]
    exact decide_eq_false hidle
  have hstill (hs : (wait w (.ok call) read cancel, []) = (tr.after, tr.effects))
      (hstays : tr.event ≠ .drop) :
      Coursing t₀ givenUp rule call read cancel (h ++ [tr]) tr.after := by
    obtain ⟨hafter, heffects⟩ := Prod.mk.inj hs
    exact .of_still hasked hcourse hafter.symm heffects.symm hreplies fun _ => hstays
  generalize hevent : tr.event = e at hstep
  cases e with
  | answered slot answer =>
    have hs : ofWait tr.time (.ok call) read cancel (w.answered tr.time (read answer)) =
        (tr.after, tr.effects) := Option.some.inj hstep
    rw [Wait.answered_idle hidle, ofWait_idle hidle] at hs
    exact hstill hs (by simp [hevent])
  | advance =>
    obtain ⟨step, hadvance, hs⟩ := Option.map_eq_some_iff.1 hstep
    rw [Wait.advance_resting hrests, Option.ite_none_right_eq_some, Option.some.injEq] at hadvance
    obtain ⟨hdue, rfl⟩ := hadvance
    refine .of_moved hasked hopen (by simp [hevent]) hs ?_
    rw [hreplies]
    refine hcourse.asks hrests hdue fun hpunctual => ?_
    refine hpunctual tr (List.mem_append_right _ (.head _)) due ?_
    rw [hbefore, due?, Wait.due?, hrests]
  | giveUp =>
    have hs : ofWait tr.time (.ok call) read cancel w.giveUp = (tr.after, tr.effects) :=
      Option.some.inj hstep
    have hgave : GaveUp givenUp (h ++ [tr]) :=
      .inr ⟨tr, List.mem_append_right _ (.head _), hevent⟩
    have hcancelled := hcourse.cancelled hrests hgave tr.time
    rw [← hcourse.follows, Wait.giveUp_resting hrests] at hcancelled
    rw [Wait.giveUp_resting hrests] at hs
    refine .of_moved hasked hopen (by simp [hevent]) hs ?_
    rw [Wait.result_abandon, Wait.asks_abandon, hreplies, ← hcourse.follows]
    exact (List.append_nil times).symm ▸ hcancelled
  | drop => exact .of_left hasked hcourse hgoes hopen hevent (Option.some.inj hstep)
  | _ => exact hstill (Option.some.inj hstep) (by simp [hevent])

end

/-- Every step keeps the course of a wait. -/
theorem Coursing.step (tr : Transition (Job ρ) Event (Effect ρ))
    (hj : Coursing t₀ givenUp rule call read cancel h tr.before)
    (hstep : machine tr.time tr.before tr.event = some (tr.after, tr.effects)) :
    Coursing t₀ givenUp rule call read cancel (h ++ [tr]) tr.after := by
  obtain ⟨w, times, hw, hasked, hcourse⟩ := hj
  have hpunctual : Punctual (h ++ [tr]) → Punctual h := fun hpunctual tr' htr' =>
    hpunctual tr' (List.mem_append_left _ htr')
  have hlater : GaveUp givenUp h → GaveUp givenUp (h ++ [tr]) := GaveUp.later
  replace hcourse := hcourse.mono hlater hpunctual
  rw [hw] at hstep
  cases hphase : w.phase with
  | resting due => exact .of_resting hasked hcourse hw hstep hphase
  | asking => exact .of_asking hasked hcourse hw hstep hphase
  | _ => exact .of_over hasked hcourse hw hstep hphase

/-- **The course of a wait** after every run. -/
theorem coursing_of_runs (run : Runs t₀ givenUp (.wait rule (.ok call) read cancel) h now j) :
    Coursing t₀ givenUp rule call read cancel h j := by
  induction run with
  | start =>
    have hstart : start t₀ givenUp (.wait rule (.ok call) read cancel) =
        (.wait _ (.ok call) read cancel, waitEffects (.ok call) cancel _) :=
      ofWait_ok (Wait.start t₀ rule givenUp)
    refine ⟨_, List.replicate ((Wait.start t₀ rule givenUp).2.countP (·.asks)) t₀,
      congrArg Prod.fst hstart, ?_, ?_⟩
    · rw [asked_nil, hstart]
      exact questions_waitEffects _
    · rw [ending?_nil, hstart, result_waitEffects]
      exact Wait.course_start givenUp .inl
  | next _ _ _ hstep ih => exact .step ⟨_, _, _, _, _⟩ ih hstep

/-- A wait that asks at once asks at its start. -/
theorem asked_atOnce (hatOnce : rule.asksAtOnce = true) :
    (asked t₀ givenUp (.wait rule (.ok call) read cancel) h).head? = some (t₀, call) := by
  have hstart : Wait.start t₀ rule givenUp = Wait.ask { rule, givenUp } := by
    simp [Wait.start, hatOnce]
  rw [asked, start, hstart, ofWait_ok]
  rfl

/-- A wait that rests asks at the end of its rest. -/
theorem advance_resting {w : Wait ρ} {due : Nat} (hrests : w.phase = .resting due)
    (hdue : due ≤ now) :
    advance now (.wait w (.ok call) read cancel) =
      some (.wait w.ask.1 (.ok call) read cancel, [.send 0 call]) := by
  rw [advance, Wait.advance_resting hrests, if_pos hdue, Option.map_some, ofWait_ok]
  rfl

/-- Nothing more is done by a wait that is over. -/
theorem idle_of_over {may : History ρ → Event → Prop} {t : Nat} {w : Wait ρ} {later : History ρ}
    (hover : w.phase = .over)
    (run : Run machine may t (.wait w (.ok call) read cancel) later now j) :
    j = .wait w (.ok call) read cancel ∧ ∀ tr ∈ later, tr.effects = [] := by
  induction run with
  | start => exact ⟨rfl, fun tr htr => by cases htr⟩
  | next _ _ _ hstep ih =>
    obtain ⟨rfl, hidle⟩ := ih
    obtain ⟨rfl, rfl⟩ := wait_stays_over hover hstep
    refine ⟨rfl, fun tr htr => ?_⟩
    rcases List.mem_append.1 htr with hold | hlast
    · exact hidle tr hold
    · rw [List.mem_singleton.1 hlast]

/-- **Who gives up while the wait rests** ends it, and nothing more is asked. -/
theorem cancelled_of_giveUp {past later : History ρ} {due : Nat}
    (run : Runs t₀ givenUp (.wait rule (.ok call) read cancel) (past ++ tr :: later) now j)
    (hevent : tr.event = .giveUp) (hrests : tr.before.due? = some due) :
    asked t₀ givenUp (.wait rule (.ok call) read cancel) (past ++ tr :: later) =
        asked t₀ givenUp (.wait rule (.ok call) read cancel) past ∧
      ending? t₀ givenUp (.wait rule (.ok call) read cancel) (past ++ tr :: later) =
        some (.done tr.time rule.cancelled) := by
  obtain ⟨t, hpast, -, -, hstep⟩ := run.split
  obtain ⟨w, times, hw, -, hcourse⟩ := coursing_of_runs hpast
  rw [hw] at hrests hstep
  obtain ⟨due', hphase⟩ : ∃ due, w.phase = .resting due := by
    cases hphase : w.phase with
    | resting due => exact ⟨due, rfl⟩
    | _ =>
      rw [due?, Wait.due?, hphase] at hrests
      cases hrests
  obtain ⟨hopen, -⟩ := hcourse.resting hphase
  rw [hevent, machine, giveUp, Wait.giveUp_resting hphase, hcourse.follows, ofWait_ok] at hstep
  obtain ⟨hafter, heffects⟩ := Prod.mk.inj (Option.some.inj hstep)
  have hnone : (tr.effects.filterMap (·.question?)).map (tr.time, ·) = [] := by
    rw [← heffects, questions_waitEffects, Wait.asks_abandon]
    rfl
  have hresult : tr.effects.findSome? (·.result?) = some rule.cancelled := by
    rw [← heffects, result_waitEffects, Wait.result_abandon]
    rfl
  have hlater := run.after
  rw [← hafter] at hlater
  obtain ⟨-, hidle⟩ := idle_of_over rfl hlater
  constructor
  · have hquiet : (later.flatMap fun tr =>
        (tr.effects.filterMap (·.question?)).map (tr.time, ·)) = [] := by
      refine List.flatMap_eq_nil_iff.2 fun tr' htr' => ?_
      rw [hidle tr' htr']
      rfl
    rw [asked, List.flatMap_append, List.flatMap_cons, hnone, hquiet, List.nil_append,
      List.append_nil, ← asked]
  · have hends : endsBy? tr = some (.done tr.time rule.cancelled) := by
      rw [endsBy?_of_ne (by simp [hevent]), hresult]
      rfl
    rw [ending?, List.findSome?_append, ← Option.or_assoc, ← ending?, hopen, Option.none_or,
      List.findSome?_cons, hends]

end

end Job

end OrderBroker
