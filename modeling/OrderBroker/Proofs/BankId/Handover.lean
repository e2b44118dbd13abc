import OrderBroker.Proofs.BankId.Watch

/-!
# What a watch sends, and what is lost of it

Of the answers that it gets a watch sends the first, and from then on every one that differs from
the one before (`news`). What it sends goes through a single slot and may be lost there (`Loses`).
`Account` compares a watch with the answers that it has got and with the items that were taken from
it: it says what was sent, in which order it came through, and for each item that has not why. Every
operation of a watch keeps the account, whether its items wait in vain for the slot or not, and
whether it is told to stop or not.
-/

namespace OrderBroker.BankId

/-! ## News -/

/-- An answer says something else than the one before it: it shows another status or hint code, or
is a failure. -/
def IsNews : Change → Change → Prop
  | .ok last, .ok p => Differs last p
  | _, _ => True

instance : DecidableRel IsNews
  | .ok last, .ok p => inferInstanceAs (Decidable (Differs last p))
  | .ok _, .error _ | .error _, .ok _ | .error _, .error _ => .isTrue trivial

/-- The answers that differ from the one before them, where `last` comes before the first. -/
def newsAfter (last : Change) : List Change → List Change
  | [] => []
  | answer :: rest =>
    if IsNews last answer then answer :: newsAfter answer rest else newsAfter answer rest

/-- The first answer, and every other that differs from the one before it. -/
def news : List Change → List Change
  | [] => []
  | first :: rest => first :: newsAfter first rest

section
variable {answers : List Change} {last answer : Change}

/-- One more answer is news if it differs from the last. -/
theorem newsAfter_snoc (first : Change) (rest : List Change) (answer : Change) :
    newsAfter first (rest ++ [answer]) =
      newsAfter first rest ++ if IsNews (rest.getLastD first) answer then [answer] else [] := by
  induction rest generalizing first with
  | nil => simp [newsAfter]
  | cons next rest ih =>
    rw [List.cons_append, newsAfter, newsAfter, ih, List.getLastD_cons]
    split <;> rfl

/-- One more answer is news if it differs from the last. -/
theorem news_snoc (hlast : answers.getLast? = some last) (answer : Change) :
    news (answers ++ [answer]) =
      news answers ++ if IsNews last answer then [answer] else [] := by
  cases answers with
  | nil => simp at hlast
  | cons first rest =>
    have heq : rest.getLastD first = last := by
      rw [List.getLast?_cons] at hlast
      simpa [List.getLastD_eq_getLast?] using hlast
    rw [List.cons_append, news, news, newsAfter_snoc, heq, List.cons_append]

end

/-! ## Losing items -/

/-- `Loses lost sent got`: the items `got` are what has come through of the items `sent`, in their
order. Of every other item `x` holds `lost before x`, where `before` was sent before it. -/
inductive Loses {α : Type} (lost : List α → α → Prop) : List α → List α → Prop
  | nil : Loses lost [] []
  | came {x : α} {sent got : List α} :
      Loses lost sent got → Loses lost (sent ++ [x]) (got ++ [x])
  | missed {x : α} {sent got : List α} :
      Loses lost sent got → lost sent x → Loses lost (sent ++ [x]) got

namespace Loses

section
variable {α : Type} {lost lost' : List α → α → Prop} {sent got : List α} {x : α}

/-- Where more may be lost, the same may be lost. -/
theorem mono (h : Loses lost sent got) (hmono : ∀ before x, lost before x → lost' before x) :
    Loses lost' sent got := by
  induction h with
  | nil => exact .nil
  | came _ ih => exact .came ih
  | missed _ hx ih => exact .missed ih (hmono _ _ hx)

/-- The last item that had come through is lost after all. -/
theorem of_snoc (h : Loses lost sent (got ++ [x])) (hlost : ∀ before, lost before x) :
    Loses lost sent got := by
  generalize heq : got ++ [x] = all at h
  induction h with
  | nil => simp at heq
  | came h _ =>
    obtain ⟨rfl, hlast⟩ := List.append_inj' heq rfl
    obtain rfl := List.singleton_inj.1 hlast
    exact .missed h (hlost _)
  | missed _ hy ih => exact .missed (ih heq) hy

/-- What has come through was sent, in this order. -/
theorem sublist (h : Loses lost sent got) : got.Sublist sent := by
  induction h with
  | nil => exact .slnil
  | came _ ih => exact ih.append (.refl _)
  | missed _ _ ih => exact ih.trans (List.sublist_append_left _ _)

/-- Where nothing can be lost, everything comes through. -/
theorem eq_of_none (h : Loses lost sent got) (hnone : ∀ before x, ¬ lost before x) :
    got = sent := by
  induction h with
  | nil => rfl
  | came _ ih => rw [ih]
  | missed _ hx _ => exact absurd hx (hnone _ _)

end

end Loses

namespace Watch

/-! ## The account -/

/-- The watch has been told to stop, and sends nothing more than that it was. -/
def Halted (w : Watch) : Prop :=
  w.phase = .over ∨ ∃ deadline, w.phase = .offering stoppedItem deadline

/-- What a watch has got: nothing but the last answer can be one after which nothing comes, and the
watch knows what the last one showed. -/
structure Heard (answers : List Change) (w : Watch) : Prop where
  goes : ∀ answer ∈ answers.dropLast, isLast answer = false
  last : ∃ answer, answers.getLast? = some answer ∧
    ∀ p, answer = .ok p → p.status = w.last.status ∧ p.hintCode = w.last.hintCode

/-- `Course answers w sent`: where a watch stands that has got `answers` and has sent `sent`. -/
inductive Course (answers : List Change) (w : Watch) : List Change → Prop
  /-- The watch asks, or rests before it asks again. -/
  | goes : (∀ answer ∈ answers, isLast answer = false) →
      (w.phase = .asking ∨ ∃ due, w.phase = .resting due ∧ w.stopped = false) →
      Course answers w (news answers)
  /-- The last answer waits for the slot. -/
  | offers {item : Change} {deadline : Nat} : answers.getLast? = some item →
      w.phase = .offering item deadline → Course answers w (news answers)
  /-- Nothing comes after the last answer. -/
  | ended {item : Change} : answers.getLast? = some item → isLast item = true →
      w.phase = .over → Course answers w (news answers)
  /-- The watch was told to stop before such an answer came. -/
  | stopped : (∀ answer ∈ answers, isLast answer = false) → w.stopped = true → Halted w →
      Course answers w (news answers ++ [stoppedItem])

/-- `Handed lost got sent w`: of the items `sent` the last may wait for the slot. Of the others
those of `got` have been taken, one may stand in the slot, and the rest is lost. -/
def Handed (lost : List Change → Change → Prop) (got sent : List Change) (w : Watch) : Prop :=
  ∃ done, sent = done ++ w.waiting?.toList ∧ Loses lost done (got ++ w.slot.toList)

/-- The first answer is not lost while somebody takes items. -/
def KeepsFirst (answers got : List Change) (w : Watch) : Prop :=
  answers.take 1 <+: got ++ w.slot.toList ∨ w.unread = true ∧ got = []

/-- `Account lost answers got sent w`: the watch `w` has got `answers` and has sent `sent`, of which
`got` was taken. -/
structure Account (lost : List Change → Change → Prop) (answers got sent : List Change)
    (w : Watch) : Prop where
  heard : Heard answers w
  course : Course answers w sent
  handed : Handed lost got sent w
  first : KeepsFirst answers got w
  unread : w.unread = true → w.slot = none

section
variable {lost lost' : List Change → Change → Prop} {answers got sent done : List Change}
  {w w' : Watch} {item : Change} {now deadline : Nat}

/-- Where more may be lost, the account holds as well. -/
theorem Account.mono (h : Account lost answers got sent w)
    (hmono : ∀ before x, lost before x → lost' before x) : Account lost' answers got sent w := by
  obtain ⟨done, hsent, hloses⟩ := h.handed
  exact { h with handed := ⟨done, hsent, hloses.mono hmono⟩ }

/-- The first item stays in its place when another comes after it. -/
theorem KeepsFirst.snoc (h : KeepsFirst answers got w) (hslot : w.slot = none)
    (hread : w.unread = false) (item : Change) : answers.take 1 <+: got ++ [item] := by
  rcases h with h | ⟨h, -⟩
  · rw [hslot, Option.toList_none, List.append_nil] at h
    exact h.trans (List.prefix_append _ _)
  · rw [hread] at h
    cases h

/-! ## Sending an item -/

/-- A last item is handed over, waits for the slot, or is lost because nobody takes it. -/
theorem handed_close (hloses : Loses lost done (got ++ w.slot.toList))
    (hunread : w.unread = true → ∀ before x, lost before x) :
    Handed lost got (done ++ [item]) (w.close now item) := by
  unfold close
  split
  · next hread => exact ⟨done ++ [item], by simp [waiting?], hloses.missed (hunread hread _ _)⟩
  · split
    · next hslot =>
      rw [hslot, Option.toList_none, List.append_nil] at hloses
      exact ⟨done ++ [item], by simp [waiting?], hloses.came⟩
    · next first hslot =>
      rw [hslot] at hloses
      exact ⟨done, by simp [waiting?], by simpa [hslot] using hloses⟩

/-- After a last item the watch is over, or the item waits for the slot. -/
theorem phase_close (now : Nat) (w : Watch) (item : Change) :
    (w.close now item).phase = .over ∨
      ∃ deadline, (w.close now item).phase = .offering item deadline := by
  unfold close
  split
  · exact .inl rfl
  · split
    · exact .inl rfl
    · exact .inr ⟨_, rfl⟩

/-- A last item changes nothing else of a watch. -/
theorem close_frame (now : Nat) (w : Watch) (item : Change) :
    (w.close now item).last = w.last ∧ (w.close now item).stopped = w.stopped ∧
      (w.close now item).unread = w.unread ∧
      ((w.close now item).slot = w.slot ∨
        w.slot = none ∧ w.unread = false ∧ (w.close now item).slot = some item) := by
  unfold close
  split
  · exact ⟨rfl, rfl, rfl, .inl rfl⟩
  · next hread =>
    split
    · next hslot => exact ⟨rfl, rfl, rfl, .inr ⟨hslot, Bool.eq_false_iff.2 hread, rfl⟩⟩
    · exact ⟨rfl, rfl, rfl, .inl rfl⟩

/-- Going on after an item leaves the marks of a watch as they are. -/
theorem goOn_marks (now : Nat) (w : Watch) (item : Change) :
    (w.goOn now item).stopped = w.stopped ∧ (w.goOn now item).unread = w.unread := by
  unfold goOn
  split
  · exact ⟨rfl, rfl⟩
  · split
    · split
      · obtain ⟨-, hstopped, hunread, -⟩ := close_frame now w stoppedItem
        exact ⟨hstopped, hunread⟩
      · exact ⟨rfl, rfl⟩
    · exact ⟨rfl, rfl⟩

/-- So does handing over an item. -/
theorem offer_marks (now : Nat) (w : Watch) (item : Change) :
    (w.offer now item).stopped = w.stopped ∧ (w.offer now item).unread = w.unread := by
  unfold offer
  split
  · exact goOn_marks now w item
  · split
    · exact goOn_marks now { w with slot := some item } item
    · exact ⟨rfl, rfl⟩

/-- So does an answer. -/
theorem answered_marks (now : Nat) (w : Watch) (answer : Change) :
    (w.answered now answer).stopped = w.stopped ∧
      (w.answered now answer).unread = w.unread := by
  unfold answered
  split
  · next failure _ =>
    obtain ⟨-, hstopped, hunread, -⟩ := close_frame now w (.error failure)
    exact ⟨hstopped, hunread⟩
  · next p _ =>
    split
    · exact offer_marks now { w with last := p } (.ok p)
    · exact goOn_marks now w (.ok p)
  · exact ⟨rfl, rfl⟩

/-- So does a move. -/
theorem advance_marks {asks : Bool} (hadvance : w.advance now = some (w', asks)) :
    w'.stopped = w.stopped ∧ w'.unread = w.unread := by
  unfold advance at hadvance
  split at hadvance
  · simp only [Option.ite_none_right_eq_some, Option.some.injEq, Prod.mk.injEq] at hadvance
    obtain ⟨-, rfl, -⟩ := hadvance
    exact ⟨rfl, rfl⟩
  · next item deadline _ =>
    split at hadvance
    · obtain ⟨rfl, -⟩ := Prod.mk.inj (Option.some.inj hadvance)
      exact goOn_marks now w item
    · split at hadvance
      · obtain ⟨rfl, -⟩ := Prod.mk.inj (Option.some.inj hadvance)
        exact goOn_marks now { w with slot := some item } item
      · simp only [Option.ite_none_right_eq_some, Option.some.injEq, Prod.mk.injEq] at hadvance
        obtain ⟨-, rfl, -⟩ := hadvance
        exact goOn_marks now w item
  · cases hadvance

/-- A watch that is told to stop has only been told so. -/
theorem stop_marks (now : Nat) (w : Watch) :
    (w.stop now).stopped = true ∧ (w.stop now).unread = w.unread := by
  unfold stop
  split
  · obtain ⟨-, hstopped, hunread, -⟩ := close_frame now { w with stopped := true } stoppedItem
    exact ⟨hstopped, hunread⟩
  · exact ⟨rfl, rfl⟩

/-- A last item takes no room from the first. -/
theorem keepsFirst_close (h : KeepsFirst answers got w) :
    KeepsFirst answers got (w.close now item) := by
  obtain ⟨-, -, hunread, hslot | ⟨hnone, hread, hslot⟩⟩ := close_frame now w item
  · rw [KeepsFirst, hslot, hunread]
    exact h
  · rw [KeepsFirst, hslot]
    exact .inl (h.snoc hnone hread item)

/-- Nothing stands in the slot of a watch that nobody reads. -/
theorem slot_close (h : w.unread = true → w.slot = none)
    (hread : (w.close now item).unread = true) : (w.close now item).slot = none := by
  obtain ⟨-, -, hunread, hslot | ⟨-, hfalse, -⟩⟩ := close_frame now w item
  · rw [hslot]
    exact h (hunread ▸ hread)
  · rw [hunread, hfalse] at hread
    cases hread

/-- What a watch knows does not change with a last item. -/
theorem heard_close (h : Heard answers w) : Heard answers (w.close now item) := by
  obtain ⟨hlast, -⟩ := close_frame now w item
  exact ⟨h.goes, by rw [hlast]; exact h.last⟩

/-- A watch that has been told to stop says so. -/
theorem account_stopped (heard : Heard answers w) (hpending : ∀ a ∈ answers, isLast a = false)
    (hstopped : w.stopped = true) (hloses : Loses lost (news answers) (got ++ w.slot.toList))
    (hfirst : KeepsFirst answers got w) (hslot : w.unread = true → w.slot = none)
    (hunread : w.unread = true → ∀ before x, lost before x) :
    Account lost answers got (news answers ++ [stoppedItem]) (w.close now stoppedItem) where
  heard := heard_close heard
  course := .stopped hpending ((close_frame now w _).2.1.trans hstopped) (phase_close now w _)
  handed := handed_close hloses hunread
  first := keepsFirst_close hfirst
  unread := slot_close hslot

/-- The watch goes on after the last answer, once that was sent if it is news. -/
theorem account_goOn (heard : Heard answers w) (hlast : answers.getLast? = some item)
    (hloses : Loses lost (news answers) (got ++ w.slot.toList))
    (hfirst : KeepsFirst answers got w) (hslot : w.unread = true → w.slot = none)
    (hunread : w.unread = true → ∀ before x, lost before x) :
    ∃ sent, Account lost answers got sent (w.goOn now item) := by
  have hpending (hgoes : isLast item = false) : ∀ a ∈ answers, isLast a = false := by
    intro a ha
    obtain ⟨init, rfl⟩ := List.getLast?_eq_some_iff.1 hlast
    rcases List.mem_append.1 ha with ha | ha
    · exact heard.goes a (by simpa using ha)
    · rwa [List.mem_singleton.1 ha]
  have hover (hends : isLast item = true) :
      Account lost answers got (news answers) { w with phase := .over } :=
    ⟨⟨heard.goes, heard.last⟩, .ended hlast hends rfl, ⟨news answers, by simp [waiting?], hloses⟩,
      hfirst, hslot⟩
  cases item with
  | error failure => exact ⟨_, hover rfl⟩
  | ok p =>
    by_cases hp : p.status = .pending
    · have hgoes := hpending (by simp [isLast, hp])
      cases hstopped : w.stopped with
      | true =>
        simp only [goOn, hp, hstopped, if_true]
        exact ⟨_, account_stopped heard hgoes hstopped hloses hfirst hslot hunread⟩
      | false =>
        simp only [goOn, hp, hstopped, if_true, Bool.false_eq_true, if_false]
        exact ⟨_, ⟨⟨heard.goes, heard.last⟩, .goes hgoes (.inr ⟨_, rfl, rfl⟩),
          ⟨news answers, by simp [waiting?], hloses⟩, hfirst, hslot⟩⟩
    · simp only [goOn, hp, if_false]
      exact ⟨_, hover (by simp [isLast, hp])⟩

/-- An item is handed over, waits for the slot, or is lost because nobody takes it; then the watch
goes on. -/
theorem account_offer (heard : Heard answers w) (hlast : answers.getLast? = some item)
    (hnews : news answers = done ++ [item]) (hloses : Loses lost done (got ++ w.slot.toList))
    (hfirst : KeepsFirst answers got w) (hslot : w.unread = true → w.slot = none)
    (hunread : w.unread = true → ∀ before x, lost before x) :
    ∃ sent, Account lost answers got sent (w.offer now item) := by
  unfold offer
  split
  · next hread =>
    refine account_goOn heard hlast ?_ hfirst hslot hunread
    rw [hnews]
    exact hloses.missed (hunread hread _ _)
  · next hread =>
    split
    · next hnone =>
      rw [hnone, Option.toList_none, List.append_nil] at hloses
      refine account_goOn ⟨heard.goes, heard.last⟩ hlast ?_ ?_ ?_ hunread
      · rw [hnews]
        exact hloses.came
      · exact .inl (hfirst.snoc hnone (Bool.eq_false_iff.2 hread) item)
      · exact fun h => absurd h hread
    · exact ⟨_, ⟨heard.goes, heard.last⟩, .offers hlast rfl,
        ⟨done, by simp [waiting?, hnews], hloses⟩, hfirst, hslot⟩

/-! ## The operations -/

/-- A watch begins with the answer to its first question. -/
theorem account_start (lost : List Change → Change → Prop) (now interval : Nat) (p : Progress)
    (stopped : Bool) :
    ∃ sent, Account lost [.ok p] [] sent (Watch.start now interval p stopped) := by
  have heard : Heard [.ok p] { interval, last := p, stopped, slot := some (.ok p) } := by
    refine ⟨by simp, .ok p, rfl, ?_⟩
    rintro _ ⟨⟩
    exact ⟨rfl, rfl⟩
  exact account_goOn heard rfl (.came .nil) (.inl (List.prefix_refl _)) nofun nofun

/-- What is known of a watch that asks or rests. -/
theorem Account.going (h : Account lost answers got sent w)
    (hgoes : w.phase = .asking ∨ ∃ due, w.phase = .resting due) :
    (∀ a ∈ answers, isLast a = false) ∧ Loses lost (news answers) (got ++ w.slot.toList) := by
  obtain ⟨done, hsent, hloses⟩ := h.handed
  have hwaiting : w.waiting? = none := by
    rcases hgoes with hphase | ⟨due, hphase⟩ <;> rw [waiting?, hphase]
  rw [hwaiting, Option.toList_none, List.append_nil] at hsent
  cases h.course with
  | goes hpending _ => exact ⟨hpending, hsent ▸ hloses⟩
  | offers _ hphase => simp [hphase] at hgoes
  | ended _ _ hphase => simp [hphase] at hgoes
  | stopped _ _ hhalted =>
    rcases hhalted with hphase | ⟨deadline, hphase⟩ <;> simp [hphase] at hgoes

/-- What a watch has got with one more answer, if it knows what that shows. -/
theorem Heard.snoc (hpending : ∀ a ∈ answers, isLast a = false) {answer : Change}
    (hknown : ∀ p, answer = .ok p → p.status = w.last.status ∧ p.hintCode = w.last.hintCode) :
    Heard (answers ++ [answer]) w :=
  ⟨by simpa using hpending, answer, by simp, hknown⟩

/-- A watch tells news from repeats. -/
theorem isNews_iff (h : Account lost answers got sent w)
    (hpending : ∀ a ∈ answers, isLast a = false) {last : Change}
    (hlast : answers.getLast? = some last) (p : Progress) :
    IsNews last (.ok p) ↔ w.isChange p = true := by
  obtain ⟨last', hlast', hknown⟩ := h.heard.last
  obtain rfl : last' = last := Option.some.inj (hlast'.symm.trans hlast)
  cases last' with
  | error failure => simpa [isLast] using hpending _ (List.mem_of_getLast? hlast)
  | ok q =>
    obtain ⟨hstatus, hhint⟩ := hknown q rfl
    simp [IsNews, Differs, isChange, hstatus, hhint]

/-- **An answer** is sent if it is news. -/
theorem account_answered (h : Account lost answers got sent w) (hasks : w.phase = .asking)
    (hunread : w.unread = true → ∀ before x, lost before x) (answer : Change) :
    ∃ sent, Account lost (answers ++ [answer]) got sent (w.answered now answer) := by
  obtain ⟨hpending, hloses⟩ := h.going (.inl hasks)
  obtain ⟨last, hlast, -⟩ := h.heard.last
  have hnext : (answers ++ [answer]).getLast? = some answer := by simp
  have hnews := news_snoc hlast answer
  -- The first answer stays the first.
  have hfirst : KeepsFirst (answers ++ [answer]) got w := by
    have htake : (answers ++ [answer]).take 1 = answers.take 1 := by
      cases answers with
      | nil => simp at hlast
      | cons first rest => simp
    rw [KeepsFirst, htake]
    exact h.first
  cases answer with
  | error failure =>
    have hfails : IsNews last (.error failure) := by cases last <;> trivial
    rw [if_pos hfails] at hnews
    simp only [answered, hasks]
    have hheard : Heard (answers ++ [.error failure]) w := .snoc hpending fun p heq => by cases heq
    refine ⟨_, heard_close hheard, ?_, handed_close hloses hunread,
      keepsFirst_close hfirst, slot_close h.unread⟩
    rw [← hnews]
    rcases phase_close now w (.error failure) with hphase | ⟨deadline, hphase⟩
    · exact .ended hnext rfl hphase
    · exact .offers hnext hphase
  | ok p =>
    simp only [answered, hasks]
    cases hchange : w.isChange p with
    | true =>
      rw [if_pos ((isNews_iff h hpending hlast p).2 hchange)] at hnews
      refine account_offer (.snoc hpending ?_) hnext hnews hloses hfirst h.unread hunread
      rintro _ ⟨⟩
      exact ⟨rfl, rfl⟩
    | false =>
      have hsame : ¬ IsNews last (.ok p) := by
        rw [isNews_iff h hpending hlast p, hchange]
        exact Bool.false_ne_true
      rw [if_neg hsame, List.append_nil] at hnews
      have hknown : p.status = w.last.status ∧ p.hintCode = w.last.hintCode := by
        simpa [isChange] using hchange
      refine account_goOn (.snoc hpending ?_) hnext (hnews ▸ hloses) hfirst h.unread
        hunread
      rintro _ ⟨⟩
      exact hknown

/-- An item that waited for the slot has been handed over or is lost, and the watch goes on. -/
theorem account_settled (h : Account lost answers got sent w)
    (hphase : w.phase = .offering item deadline) (heard : Heard answers w')
    (hstopped : w'.stopped = w.stopped) (hloses : Loses lost sent (got ++ w'.slot.toList))
    (hfirst : KeepsFirst answers got w') (hslot : w'.unread = true → w'.slot = none)
    (hunread : w'.unread = true → ∀ before x, lost before x) :
    ∃ sent, Account lost answers got sent (w'.goOn now item) := by
  cases h.course with
  | goes _ hgoes => simp [hphase] at hgoes
  | offers hlast hsame =>
    rw [hphase, Phase.offering.injEq] at hsame
    exact account_goOn heard (hsame.1 ▸ hlast) hloses hfirst hslot hunread
  | ended _ _ hover => simp [hphase] at hover
  | stopped hpending hstop hhalted =>
    obtain rfl : item = stoppedItem := by simpa [Halted, hphase] using hhalted
    exact ⟨_, ⟨heard.goes, heard.last⟩, .stopped hpending (hstopped.trans hstop) (.inl rfl),
      ⟨_, by simp [waiting?, goOn, stoppedItem], hloses⟩, hfirst, hslot⟩

/-- **A move.** An item that waits for the slot is handed over where the slot is free. It is lost if
its time is over, or if nobody takes items. -/
theorem account_advance {asks : Bool} (h : Account lost answers got sent w)
    (hadvance : w.advance now = some (w', asks))
    (hlate : ∀ item deadline, w.phase = .offering item deadline → w.slot.isSome = true →
      deadline ≤ now → ∀ before, sent = before ++ [item] → lost before item)
    (hunread : w.unread = true → ∀ before x, lost before x) :
    ∃ sent, Account lost answers got sent w' := by
  unfold advance at hadvance
  split at hadvance
  · next due hphase =>
    simp only [Option.ite_none_right_eq_some, Option.some.injEq, Prod.mk.injEq] at hadvance
    obtain ⟨-, rfl, -⟩ := hadvance
    cases h.course with
    | goes hpending _ =>
      obtain ⟨done, hsent, hloses⟩ := h.handed
      rw [waiting?, hphase] at hsent
      exact ⟨_, ⟨h.heard.goes, h.heard.last⟩, .goes hpending (.inl rfl), ⟨done, hsent, hloses⟩,
        h.first, h.unread⟩
    | offers _ hsame => simp [hphase] at hsame
    | ended _ _ hover => simp [hphase] at hover
    | stopped _ _ hhalted => simp [Halted, hphase] at hhalted
  · next item deadline hphase =>
    obtain ⟨done, hsent, hloses⟩ := h.handed
    rw [waiting?, hphase] at hsent
    split at hadvance
    · next hread =>
      obtain ⟨rfl, -⟩ := Prod.mk.inj (Option.some.inj hadvance)
      exact account_settled h hphase h.heard rfl (hsent ▸ hloses.missed (hunread hread _ _))
        h.first h.unread hunread
    · next hread =>
      split at hadvance
      · next hslot =>
        obtain ⟨rfl, -⟩ := Prod.mk.inj (Option.some.inj hadvance)
        rw [hslot, Option.toList_none, List.append_nil] at hloses
        exact account_settled h hphase ⟨h.heard.goes, h.heard.last⟩ rfl
          (hsent ▸ hloses.came) (.inl (h.first.snoc hslot (Bool.eq_false_iff.2 hread) item))
          (fun h => absurd h hread) hunread
      · next first hslot =>
        simp only [Option.ite_none_right_eq_some, Option.some.injEq, Prod.mk.injEq] at hadvance
        obtain ⟨hdue, rfl, -⟩ := hadvance
        have hlost := hlate item deadline hphase (by rw [hslot]; rfl) hdue done hsent
        exact account_settled h hphase h.heard rfl (hsent ▸ hloses.missed hlost) h.first
          h.unread hunread
  · cases hadvance

/-- **Taking** an item. -/
theorem account_take (h : Account lost answers got sent w) (htake : w.take = some (item, w')) :
    Account lost answers (got ++ [item]) sent w' := by
  obtain ⟨first, hslot, heq⟩ := Option.map_eq_some_iff.1 htake
  obtain ⟨rfl, rfl⟩ := Prod.mk.inj heq
  obtain ⟨done, hsent, hloses⟩ := h.handed
  rw [hslot] at hloses
  refine ⟨⟨h.heard.goes, h.heard.last⟩, ?_, ⟨done, hsent, by simpa using hloses⟩, ?_,
    fun _ => rfl⟩
  · cases h.course with
    | goes hpending hgoes => exact .goes hpending hgoes
    | offers hlast hphase => exact .offers hlast hphase
    | ended hlast hends hover => exact .ended hlast hends hover
    | stopped hpending hstop hhalted => exact .stopped hpending hstop hhalted
  · rcases h.first with hfirst | ⟨hread, -⟩
    · exact .inl (by simpa [hslot] using hfirst)
    · rw [h.unread hread] at hslot
      cases hslot

/-- **The word to stop**, for a watch that rests. It sends that it was stopped. -/
theorem account_stop_rest (now : Nat) {due : Nat} (h : Account lost answers got sent w)
    (hrests : w.phase = .resting due) (hunread : w.unread = true → ∀ before x, lost before x) :
    Account lost answers got (news answers ++ [stoppedItem]) (w.stop now) := by
  obtain ⟨hpending, hloses⟩ := h.going (.inr ⟨due, hrests⟩)
  simp only [stop, hrests]
  exact account_stopped ⟨h.heard.goes, h.heard.last⟩ hpending rfl hloses h.first h.unread hunread

/-- A watch that does not rest only remembers the word to stop. -/
theorem stop_of_not_rest (now : Nat) (hmoves : ∀ due, w.phase ≠ .resting due) :
    w.stop now = { w with stopped := true } := by
  unfold stop
  split
  · next due hphase => exact absurd hphase (hmoves due)
  · rfl

/-- **The word to stop**, for a watch that does not rest. -/
theorem account_stop_later (now : Nat) (h : Account lost answers got sent w)
    (hmoves : ∀ due, w.phase ≠ .resting due) : Account lost answers got sent (w.stop now) := by
  rw [stop_of_not_rest now hmoves]
  refine ⟨⟨h.heard.goes, h.heard.last⟩, ?_, h.handed, h.first, h.unread⟩
  cases h.course with
  | goes hpending hgoes =>
    refine .goes hpending (hgoes.imp_right ?_)
    rintro ⟨due, hphase, -⟩
    exact absurd hphase (hmoves due)
  | offers hlast hphase => exact .offers hlast hphase
  | ended hlast hends hover => exact .ended hlast hends hover
  | stopped hpending _ hhalted => exact .stopped hpending rfl hhalted

/-- **The last reader's leaving.** What stands in the slot is lost. -/
theorem account_abandon (h : Account lost answers got sent w)
    (hlost : ∀ before x, lost before x) : Account lost answers got sent w.abandon := by
  obtain ⟨done, hsent, hloses⟩ := h.handed
  have hgot : Loses lost done (got ++ w.abandon.slot.toList) := by
    rw [abandon, Option.toList_none, List.append_nil]
    cases hslot : w.slot with
    | none => simpa [hslot] using hloses
    | some item =>
      rw [hslot] at hloses
      exact hloses.of_snoc (hlost · item)
  refine ⟨⟨h.heard.goes, h.heard.last⟩, ?_, ⟨done, hsent, hgot⟩, ?_, fun _ => rfl⟩
  · cases h.course with
    | goes hpending hgoes => exact .goes hpending hgoes
    | offers hlast hphase => exact .offers hlast hphase
    | ended hlast hends hover => exact .ended hlast hends hover
    | stopped hpending hstop hhalted => exact .stopped hpending hstop hhalted
  · cases got with
    | nil => exact .inr ⟨rfl, rfl⟩
    | cons first rest =>
      rcases h.first with hfirst | ⟨-, hnone⟩
      · refine .inl (List.prefix_of_prefix_length_le hfirst (List.prefix_append _ _) ?_ |>.trans
          (List.prefix_append _ _))
        simp only [List.length_cons, List.length_take]
        omega
      · cases hnone

/-! ## Asking -/

/-- A watch that closes does not ask. -/
theorem close_not_asking (now : Nat) (w : Watch) (item : Change) :
    (w.close now item).phase ≠ .asking := by
  rcases phase_close now w item with hphase | ⟨_, hphase⟩ <;> simp [hphase]

/-- A watch that goes on does not ask at once. -/
theorem goOn_not_asking (now : Nat) (w : Watch) (item : Change) :
    (w.goOn now item).phase ≠ .asking := by
  unfold goOn
  split
  · nofun
  · split
    · split
      · exact close_not_asking now w stoppedItem
      · nofun
    · nofun

/-- Nor does one that hands over an item. -/
theorem offer_not_asking (now : Nat) (w : Watch) (item : Change) :
    (w.offer now item).phase ≠ .asking := by
  unfold offer
  split
  · exact goOn_not_asking now w item
  · split
    · exact goOn_not_asking now _ item
    · nofun

/-- Nor does one that has been answered. -/
theorem answered_not_asking (hasks : w.phase = .asking) (answer : Change) :
    (w.answered now answer).phase ≠ .asking := by
  cases answer with
  | error failure =>
    simp only [answered, hasks]
    exact close_not_asking now w (.error failure)
  | ok p =>
    simp only [answered, hasks]
    split
    · exact offer_not_asking now _ _
    · exact goOn_not_asking now w _

/-- A watch that moves does not ask before, and says whether it asks after. -/
theorem advance_asks {asks : Bool} (hadvance : w.advance now = some (w', asks)) :
    w.phase ≠ .asking ∧ (w'.phase = .asking ↔ asks = true) := by
  unfold advance at hadvance
  split at hadvance
  · next due hphase =>
    simp only [Option.ite_none_right_eq_some, Option.some.injEq, Prod.mk.injEq] at hadvance
    obtain ⟨-, rfl, rfl⟩ := hadvance
    exact ⟨by simp [hphase], by simp⟩
  · next item deadline hphase =>
    refine ⟨by simp [hphase], ?_⟩
    split at hadvance
    · obtain ⟨rfl, rfl⟩ := Prod.mk.inj (Option.some.inj hadvance)
      simpa using goOn_not_asking now w item
    · split at hadvance
      · obtain ⟨rfl, rfl⟩ := Prod.mk.inj (Option.some.inj hadvance)
        simpa using goOn_not_asking now { w with slot := some item } item
      · simp only [Option.ite_none_right_eq_some, Option.some.injEq, Prod.mk.injEq] at hadvance
        obtain ⟨-, rfl, rfl⟩ := hadvance
        simpa using goOn_not_asking now w item
  · cases hadvance

/-- A watch that is told to stop asks only if it was asking. -/
theorem stop_asking_iff (now : Nat) (w : Watch) :
    (w.stop now).phase = .asking ↔ w.phase = .asking := by
  unfold stop
  split
  · next due hrests =>
    exact ⟨fun hasks => absurd hasks (close_not_asking now _ stoppedItem),
      fun hasks => by simp [hrests] at hasks⟩
  · exact Iff.rfl

/-! ## What an account says -/

/-- Of what was sent, everything that is not lost has been taken or is yet to be taken. -/
theorem Account.loses_queue (h : Account lost answers got sent w) :
    Loses lost sent (got ++ w.queue) := by
  obtain ⟨done, rfl, hloses⟩ := h.handed
  cases hwaiting : w.waiting? with
  | none => simpa [queue, hwaiting] using hloses
  | some item => simpa [queue, hwaiting] using hloses.came (x := item)

/-- What was sent is the news, and perhaps that the watch was stopped. -/
theorem Account.sent_eq (h : Account lost answers got sent w) :
    sent = news answers ∨ sent = news answers ++ [stoppedItem] := by
  cases h.course with
  | goes _ _ => exact .inl rfl
  | offers _ _ => exact .inl rfl
  | ended _ _ _ => exact .inl rfl
  | stopped _ _ _ => exact .inr rfl

/-- A watch that was not told to stop has sent the news. -/
theorem Account.sent_of_goes (h : Account lost answers got sent w) (hgoes : w.stopped = false) :
    sent = news answers := by
  cases h.course with
  | goes _ _ => rfl
  | offers _ _ => rfl
  | ended _ _ _ => rfl
  | stopped _ hstopped _ => simp [hgoes] at hstopped

/-- A watch that has been stopped has sent this last. -/
theorem Account.sent_of_halted (h : Account lost answers got sent w)
    (hpending : ∀ a ∈ answers, isLast a = false) (hhalted : Halted w) :
    sent = news answers ++ [stoppedItem] := by
  cases h.course with
  | goes _ hgoes => rcases hgoes with hphase | ⟨due, hphase, -⟩ <;> simp [Halted, hphase] at hhalted
  | offers hlast hphase =>
    obtain rfl : _ = stoppedItem := by simpa [Halted, hphase] using hhalted
    simpa [isLast, stoppedItem] using hpending _ (List.mem_of_getLast? hlast)
  | ended hlast hends _ =>
    rw [hpending _ (List.mem_of_getLast? hlast)] at hends
    cases hends
  | stopped _ _ _ => rfl

/-- The answer after which nothing comes is news, and the last of it. -/
theorem getLast_news {answers : List Change} {last : Change}
    (hgoes : ∀ answer ∈ answers.dropLast, isLast answer = false)
    (hlast : answers.getLast? = some last) (hends : isLast last = true) :
    (news answers).getLast? = some last := by
  obtain ⟨init, rfl⟩ := List.getLast?_eq_some_iff.1 hlast
  cases hinit : init.getLast? with
  | none => simp [List.getLast?_eq_none_iff.1 hinit, news, newsAfter]
  | some before =>
    have hbefore : isLast before = false :=
      hgoes before (by simpa using List.mem_of_getLast? hinit)
    have hdiffers : IsNews before last := by
      cases before with
      | error failure => cases hbefore
      | ok q =>
        cases last with
        | error failure => trivial
        | ok p =>
          simp only [isLast, decide_eq_false_iff_not, not_not] at hbefore
          simp only [isLast, decide_eq_true_eq] at hends
          exact .inl (hbefore ▸ hends)
    rw [news_snoc hinit, if_pos hdiffers, List.getLast?_concat]

/-- The watch is over, or it is as soon as its last item no longer waits for the slot. -/
def Finishes (w : Watch) : Prop :=
  w.phase = .over ∨ ∃ item deadline, w.phase = .offering item deadline ∧
    ∀ now, deadline ≤ now → ∃ w', w.advance now = some (w', false) ∧ w'.phase = .over

/-- Nothing comes after an item that is the last. -/
theorem phase_goOn_of_last (now : Nat) (w : Watch) (hends : isLast item = true) :
    (w.goOn now item).phase = .over := by
  cases item with
  | error failure => rfl
  | ok p =>
    have hp : p.status ≠ .pending := by simpa [isLast] using hends
    simp only [goOn, if_neg hp]

/-- A watch with a last item that waits for the slot comes to its end. -/
theorem finishes_of_offering (hphase : w.phase = .offering item deadline)
    (hends : isLast item = true) : Finishes w := by
  refine .inr ⟨item, deadline, hphase, fun now hdue => ?_⟩
  simp only [advance, hphase]
  split
  · exact ⟨_, rfl, phase_goOn_of_last now w hends⟩
  · split
    · exact ⟨_, rfl, phase_goOn_of_last now _ hends⟩
    · exact ⟨_, rfl, phase_goOn_of_last now w hends⟩

/-- After the last answer a watch has sent the news and comes to its end. -/
theorem Account.ends (h : Account lost answers got sent w) {last : Change}
    (hlast : answers.getLast? = some last) (hends : isLast last = true) :
    sent = news answers ∧ Finishes w := by
  have hnone (hpending : ∀ a ∈ answers, isLast a = false) : False := by
    rw [hpending last (List.mem_of_getLast? hlast)] at hends
    cases hends
  cases h.course with
  | goes hpending _ => exact (hnone hpending).elim
  | offers hlast' hphase =>
    obtain rfl := Option.some.inj (hlast.symm.trans hlast')
    exact ⟨rfl, finishes_of_offering hphase hends⟩
  | ended _ _ hover => exact ⟨rfl, .inl hover⟩
  | stopped hpending _ _ => exact (hnone hpending).elim

/-- A watch that is over has got the last answer or was told to stop. -/
theorem Account.over (h : Account lost answers got sent w) (hover : w.phase = .over) :
    (∃ last, answers.getLast? = some last ∧ isLast last = true) ∨ w.stopped = true := by
  cases h.course with
  | goes _ hgoes => simp [hover] at hgoes
  | offers _ hphase => simp [hover] at hphase
  | ended hlast hends _ => exact .inl ⟨_, hlast, hends⟩
  | stopped _ hstopped _ => exact .inr hstopped

/-- A watch is closed once it is over and everything has been taken. -/
theorem isClosed_iff : w.isClosed = true ↔ w.phase = .over ∧ w.queue = [] := by
  unfold isClosed
  split
  · next hphase hslot => simp [hphase, queue, hslot, waiting?]
  · next hopen =>
    constructor
    · intro hclosed
      cases hclosed
    · rintro ⟨hphase, hqueue⟩
      have hslot : w.slot = none := by simpa using (List.append_eq_nil_iff.1 hqueue).1
      exact absurd hslot (hopen hphase)

/-- A watch is over, waits for an answer, or moves by itself when its time has come. -/
theorem moves_on (w : Watch) :
    w.phase = .over ∨ w.phase = .asking ∨
      ∃ due, w.due? = some due ∧ ∀ now, due ≤ now → (w.advance now).isSome = true := by
  match hphase : w.phase with
  | .over => exact .inl rfl
  | .asking => exact .inr (.inl rfl)
  | .resting due =>
    exact .inr (.inr ⟨due, by simp [due?, hphase], fun now hdue => by simp [advance, hphase, hdue]⟩)
  | .offering item deadline =>
    refine .inr (.inr ⟨deadline, by simp [due?, hphase], fun now hdue => ?_⟩)
    simp only [advance, hphase, hdue, if_true]
    split
    · rfl
    · split <;> rfl

/-! ## Watches that have been stopped -/

/-- A watch that is told to stop while it rests is stopped. -/
theorem halted_stop {due : Nat} (hrests : w.phase = .resting due) : Halted (w.stop now) := by
  simp only [stop, hrests]
  exact phase_close now _ stoppedItem

/-- It comes to its end. -/
theorem Halted.finishes (h : Halted w) : Finishes w := by
  rcases h with hover | ⟨deadline, hphase⟩
  · exact .inl hover
  · exact finishes_of_offering hphase rfl

/-- It does not ask any more. -/
theorem Halted.advance {asks : Bool} (h : Halted w) (hadvance : w.advance now = some (w', asks)) :
    Halted w' ∧ asks = false := by
  rcases h with hover | ⟨deadline, hphase⟩
  · simp [Watch.advance, hover] at hadvance
  · simp only [Watch.advance, hphase] at hadvance
    split at hadvance
    · obtain ⟨rfl, rfl⟩ := Prod.mk.inj (Option.some.inj hadvance)
      exact ⟨.inl rfl, rfl⟩
    · split at hadvance
      · obtain ⟨rfl, rfl⟩ := Prod.mk.inj (Option.some.inj hadvance)
        exact ⟨.inl rfl, rfl⟩
      · simp only [Option.ite_none_right_eq_some, Option.some.injEq, Prod.mk.injEq] at hadvance
        obtain ⟨-, rfl, rfl⟩ := hadvance
        exact ⟨.inl rfl, rfl⟩

/-- It does not rest any more. -/
theorem Halted.not_rest (h : Halted w) (due : Nat) : w.phase ≠ .resting due := by
  rcases h with hphase | ⟨deadline, hphase⟩ <;> simp [hphase]

end

end Watch

end OrderBroker.BankId
