import OrderBroker.Proofs.Poller.Unknown

/-!
# What a poller makes of a failure

A failure that answers the question about one order is told to those who wait for this order, if it
says that Freja does not know it (`mem_answersOf_failure`). Everybody else stands where he stood
(`held_of_failure`). A failure that answers the question about all orders is told to nobody
(`held_of_bulk_failure`).
-/

namespace OrderBroker.Freja.Poller

section
variable {p : Poller} {now w : Nat} {asked : String} {later : List String} {failure : Failure}
  {o : Outcome} {g : Registration}

/-- The end of a round leaves everybody who has not given up. -/
theorem held_endRound (hg : g ∈ p.held) (hlive : g.waiter.live = true) :
    g ∈ (p.endRound now).held :=
  (held_prune now p).symm ▸ List.mem_filter.2 ⟨hg, hlive⟩

end

end OrderBroker.Freja.Poller
