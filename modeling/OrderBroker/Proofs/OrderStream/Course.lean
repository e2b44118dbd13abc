import OrderBroker.Proofs.OrderStream.Grammar
import OrderBroker.Proofs.OrderStream.Keeping

/-!
# The course of an order stream

What a stream says, whatever BankID answers and whenever, whatever the client does and whichever of
its moves the stream makes (`events_in_order`).
-/

namespace OrderBroker.Http.OrderStream

open BankId (StartedOrder Progress changes)

section
variable {order : StartedOrder} {period pollInterval t₀ now : Nat} {format : Stream.Format}
  {left : Bool} {h : History} {s : OrderStream}

/-- If time does not pass while an item of the watch waits, no item waits for a whole second. -/
theorem punctual_of_prompt
    (hprompt : h.IsChain fun tr tr' => tr.after.Waits → tr'.time = tr.time) : Punctual h := by
  rintro past tr during tr' later rfl hwaits
  suffices htime : tr'.time = tr.time by
    rw [htime]
    exact Nat.lt_add_of_pos_right (by decide)
  rw [List.append_assoc] at hprompt
  have hsince := (List.isChain_append.1 hprompt).2.1
  clear hprompt
  induction during generalizing tr with
  | nil => exact (List.isChain_cons_cons.1 hsince).1 (hwaits tr (.head _))
  | cons next during ih =>
    obtain ⟨hnext, hrest⟩ := List.isChain_cons_cons.1 hsince
    exact (ih next (fun x hx => hwaits x (.tail _ hx)) hrest).trans (hnext (hwaits tr (.head _)))

/-- **The events of a stream.** In every run the chunks are those of a grammatical list of events,
numbered from zero: first a code, the codes of the ticks from zero on without a gap, none after the
user has scanned one, and an error or a status that is not pending only at the end. The statuses are
the first that the watch has delivered. If moreover the client keeps up, the statuses are the first
changes that BankID has told, and a stream that ends while its client is there, and not with its
thirtieth tick, ends with an error or with a status that is not pending. -/
theorem events_in_order (run : Runs t₀ (opened left order period pollInterval format) h now s) :
    ∃ xs : List Said,
      pushed (opened left order period pollInterval format) h =
        xs.mapIdx (fun n x => x.chunk order format n) ∧
      Grammatical xs ∧ statuses xs <+: delivered h ∧
      (KeepsUp h → statuses xs <+: changes (observed h) ∧
        ∀ tr ∈ h, tr.before.phase ≠ .over → tr.after.phase = .over → tr.after.clientLeft = false →
          ¬ (tr.event = .moved .tick ∧ tr.before.tick = 30) → Finished xs) := by
  obtain ⟨xs, hpushed, haccounts⟩ := accounts_of_runs run
  have hinitial := haccounts.stands.statuses_initial
  refine ⟨xs, ?_, haccounts.grammatical, hinitial, fun hkeeps => ?_⟩
  · simpa only [chunks, Nat.zero_add] using hpushed
  · obtain ⟨hsynced, hitems⟩ := synced_of_runs run
      (watch_opened left order period pollInterval format)
      (phase_opened left order period pollInterval format) hkeeps
    refine ⟨hinitial.trans hsynced.initial, ?_⟩
    intro tr htr hgoes hends hclient hearly
    exact (haccounts.ended ⟨tr, htr, hgoes, hends, hclient, hearly, hitems tr htr⟩).2

end

/-- The user signs before the first tick. The stream shows one code, says that the user signs and
then that the order is complete, and ends. -/
theorem signed_order_streamed :
    ∃ (order : StartedOrder) (signing signed : Progress) (h : History) (s : OrderStream)
      (xs : List Said),
      Runs 0 (opened false order 2 4 .sse) h 6 s ∧ KeepsUp h ∧
        pushed (opened false order 2 4 .sse) h =
          xs.mapIdx (fun n x => x.chunk order .sse n) ∧
        Grammatical xs ∧ statuses xs <+: [signing, signed] ∧ Finished xs := by
  let order : StartedOrder := { orderRef := "131daac9", autoStartToken := "7c40b5c9" }
  let signing : Progress := { orderRef := "131daac9", status := .pending, hintCode := "userSign" }
  let signed : Progress := { orderRef := "131daac9", status := .complete }
  have h₁ : Runs 0 (opened false order 2 4 .sse)
      [⟨1, _, .answered (.ok signing), _, []⟩] 1 _ := Run.next .start (Nat.zero_le 1) trivial rfl
  have h₂ := h₁.next (e := .moved .change) (Nat.le_refl 1) trivial rfl
  have h₃ := h₂.next (e := .moved .tick) (Nat.le_add_right 1 2) trivial rfl
  have h₄ := h₃.next (e := .moved .watch) (Nat.le_add_right 3 2) trivial rfl
  have h₅ := h₄.next (e := .answered (.ok signed)) (Nat.le_add_right 5 1) trivial rfl
  have h₆ := h₅.next (e := .moved .change) (Nat.le_refl 6) trivial rfl
  obtain ⟨h, s, run, hphases, hwatches, hdelivered, tr, htr, hgoes, hends, hclient, hevent⟩ :
      ∃ (h : History) (s : OrderStream), Runs 0 (opened false order 2 4 .sse) h 6 s ∧
        h.map (·.after.phase) =
          [.following, .following, .following, .following, .following, .over] ∧
        h.map (fun tr => tr.after.watch.map (·.phase)) =
          [some (.resting 5), some (.resting 5), some (.resting 5), some .asking,
            some .over, some .over] ∧
        delivered h = [signing, signed] ∧
        ∃ tr ∈ h, tr.before.phase = .following ∧ tr.after.phase = .over ∧
          tr.after.clientLeft = false ∧ tr.event = .moved .change :=
    ⟨_, _, h₆, rfl, rfl, rfl, _, List.mem_append_right _ (.head _), rfl, rfl, rfl, rfl⟩
  have hidle : ∀ x ∈ h, ¬ x.after.Waits := by
    rintro x hx ⟨w, item, deadline, hw, hoffers, -⟩
    have hmem := List.mem_map_of_mem (f := fun tr => tr.after.watch.map (·.phase)) hx
    rw [hwatches, hw, Option.map_some, hoffers] at hmem
    simp at hmem
  have hkeeps : KeepsUp h := by
    refine ⟨fun x hx chunk next hsending => ?_, punctual_of_prompt (List.Pairwise.isChain
      (List.pairwise_of_forall_mem_list fun x hx y _ hwaits => absurd hwaits (hidle x hx)))⟩
    have hmem := List.mem_map_of_mem (f := (·.after.phase)) hx
    rw [hphases, hsending] at hmem
    simp at hmem
  obtain ⟨xs, hpushed, hgrammatical, hinitial, hkept⟩ := events_in_order run
  exact ⟨order, signing, signed, h, s, xs, run, hkeeps, hpushed, hgrammatical,
    hdelivered ▸ hinitial,
    (hkept hkeeps).2 tr htr (by simp [hgoes]) hends hclient (by simp [hevent])⟩

end OrderBroker.Http.OrderStream
