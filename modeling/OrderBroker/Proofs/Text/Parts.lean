/-!
# Texts cut into parts

A text is cut into its lines at every line end, and no line end is left in a part. Where only the
last separator counts, it is found from the end.
-/

namespace OrderBroker.Text

/-- No part has a character in it at which the text is cut. -/
theorem not_of_mem_splitOnP {p : Char → Bool} {cs part : List Char}
    (hpart : part ∈ cs.splitOnP p) : ∀ c ∈ part, p c = false := by
  induction cs generalizing part with
  | nil =>
    obtain rfl : part = [] := by simpa using hpart
    simp
  | cons c cs ih =>
    rw [List.splitOnP_cons_eq_if_modifyHead] at hpart
    by_cases hend : p c = true
    · rw [if_pos hend] at hpart
      rcases List.mem_cons.1 hpart with rfl | hpart
      · simp
      · exact ih hpart
    · rw [if_neg hend] at hpart
      cases hrest : cs.splitOnP p with
      | nil => simp [hrest] at hpart
      | cons first rest =>
        rw [hrest, List.modifyHead_cons] at hpart
        rw [hrest] at ih
        rcases List.mem_cons.1 hpart with rfl | hpart
        · intro d hd
          rcases List.mem_cons.1 hd with rfl | hd
          · exact Bool.eq_false_iff.2 hend
          · exact ih (.head _) d hd
        · exact ih (.tail _ hpart)

/-- A text is cut in one way at the last of its separators. -/
theorem cut_at_last {sep : Char} {front front' back back' : List Char} (hback : sep ∉ back)
    (hback' : sep ∉ back') (heq : front ++ sep :: back = front' ++ sep :: back') :
    front = front' ∧ back = back' := by
  -- Of the longer front, what the other one lacks would be behind the last separator.
  have hside {front front' back back' more : List Char} (hback : sep ∉ back)
      (hfront : front' = front ++ more) (hrest : sep :: back = more ++ sep :: back') :
      front = front' ∧ back = back' := by
    cases more with
    | nil => exact ⟨by simpa using hfront.symm, by simpa using hrest⟩
    | cons c more =>
      obtain ⟨-, rfl⟩ := List.cons.inj hrest
      exact absurd (List.mem_append_right more List.mem_cons_self) hback
  rcases List.append_eq_append_iff.1 heq with ⟨more, hfront, hrest⟩ | ⟨more, hfront, hrest⟩
  · exact hside hback hfront hrest
  · obtain ⟨hfront, hback⟩ := hside hback' hfront hrest
    exact ⟨hfront.symm, hback.symm⟩

end OrderBroker.Text
