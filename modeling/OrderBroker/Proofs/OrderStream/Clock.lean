import OrderBroker.Job
import OrderBroker.Proofs.OrderStream.Grammar

/-!
# When a stream shows its codes

A stream shows the first code when the order is started, and counts its ticks from the answer to the
first question about the order: the code of a tick is never shown before so many periods have gone
by since that answer, and exactly then where nothing that is due is put off (`clocked_of_runs`).
With ticks of a second, the code of a second is therefore late by the time that the first question
took, and is the code of the current second only where that was less than a second (`codes_timed`,
`codes_late`).
-/

namespace OrderBroker.Http.OrderStream

open BankId (StartedOrder Change Watch Progress)

/-! ## Times -/

/-- The chunks that were put into the body of a stream, each with its time. -/
def pushedAt (t₀ : Nat) (s₀ : OrderStream) (h : History) : List (Nat × String) :=
  s₀.body.map (t₀, ·) ++ h.flatMap fun tr => tr.effects.map (tr.time, ·)

/-- The chunks of the events of a stream, each with its time. -/
def chunksAt (order : StartedOrder) (format : Stream.Format) (xs : List (Nat × Said)) :
    List (Nat × String) :=
  xs.mapIdx fun n x => (x.1, x.2.chunk order format n)

/-- No chunk has to wait for room in the body. -/
def Roomy (h : History) : Prop := ∀ tr ∈ h, ∀ chunk next, tr.after.phase ≠ .sending chunk next

/-- Nothing that is due is put off. -/
def OnTime (h : History) : Prop := ∀ tr ∈ h, ∀ due, tr.before.due? = some due → tr.time ≤ due

/-- The answer to the first question comes, and shows the order. -/
def Finds (tr : Transition OrderStream Event String) : Prop :=
  tr.before.phase = .starting ∧ ∃ p, tr.event = .answered (.ok p)

section
variable {order : StartedOrder} {format : Stream.Format} {t₀ t : Nat} {s₀ : OrderStream}
  {h : History} {tr : Transition OrderStream Event String} {xs : List (Nat × Said)} {x : Said}

theorem pushedAt_snoc :
    pushedAt t₀ s₀ (h ++ [tr]) = pushedAt t₀ s₀ h ++ tr.effects.map (tr.time, ·) := by
  simp [pushedAt]

/-- What is said at one time more is chunks at that time more. -/
theorem chunksAt_append {new : List Said} : chunksAt order format (xs ++ new.map (t, ·)) =
    chunksAt order format xs ++ (chunks order format xs.length new).map (t, ·) := by
  rw [chunksAt, chunksAt, List.mapIdx_append]
  refine congrArg (_ ++ ·) (List.ext_getElem? fun i => ?_)
  simp only [chunks, List.getElem?_mapIdx, List.getElem?_map, Option.map_map, Nat.add_comm]
  rfl

end

/-! ## One step -/

/-- `Ticking order format period origin n s`: the stream of the order, which comes to its event `n`,
counts its ticks from a time of `origin`, once it has begun to count. -/
structure Ticking (order : StartedOrder) (format : Stream.Format) (period : Nat)
    (origin : Nat → Prop) (n : Nat) (s : OrderStream) : Prop where
  order : s.order = order
  encoder : s.encoder = encoderAt format n
  period : s.period = period
  tick : 0 < s.tick
  origin : s.phase ≠ .starting → origin s.began

section
variable {order : StartedOrder} {format : Stream.Format} {period now n : Nat}
  {origin : Nat → Prop} {s s' : OrderStream} {e : Event} {x : Said} {next : Next}

/-- Going on after a chunk. -/
theorem ticking_goOn (hs : Ticking order format period origin n s)
    (hphase : s.phase ≠ .starting ∨ next = .finish) :
    (s.goOn now next).phase = .over ∨ Ticking order format period origin n (s.goOn now next) := by
  cases next with
  | finish => exact .inl rfl
  | follow =>
    have hgoes : s.phase ≠ .starting := hphase.resolve_right Next.noConfusion
    exact .inr ⟨hs.order, hs.encoder, hs.period, hs.tick, fun _ => hs.origin hgoes⟩
  | nextTick =>
    have hgoes : s.phase ≠ .starting := hphase.resolve_right Next.noConfusion
    rw [goOn]
    split
    · exact .inr ⟨hs.order, hs.encoder, hs.period, Nat.succ_pos _, fun _ => hs.origin hgoes⟩
    · exact .inl rfl

/-- An event is put into the body, if it does not have to wait and the client is there. -/
theorem utters_event (hs : Ticking order format period origin n s)
    (hphase : s.phase ≠ .starting ∨ next = .finish)
    (hroom : ∀ chunk next', (s.event now x.name (x.data order) next).phase ≠
      .sending chunk next') :
    ∃ new, (∀ y ∈ new, y = x) ∧
      s.added (s.event now x.name (x.data order) next) = chunks order format n new ∧
      ((s.event now x.name (x.data order) next).phase = .over ∨
        Ticking order format period origin (n + new.length)
          (s.event now x.name (x.data order) next)) := by
  simp only [event, hs.encoder, event_encoderAt, push] at hroom ⊢
  split at hroom
  · next hleft =>
    rw [if_pos hleft]
    exact ⟨[], by simp, added_of_eq rfl, .inl rfl⟩
  · next hstays =>
    rw [if_neg hstays]
    split at hroom
    · next hfits =>
      rw [if_pos hfits]
      refine ⟨[x], by simp, ?_, ticking_goOn ⟨hs.order, rfl, hs.period, hs.tick, hs.origin⟩ hphase⟩
      rw [added, body_goOn]
      exact List.drop_left
    · exact absurd rfl (hroom _ _)

/-- `Utters order format period origin n e s s'`: where `e` happens, the stream that comes to its
event `n` says something, or nothing, and is over or ticks on; it says a code only when its tick is
due. -/
def Utters (order : StartedOrder) (format : Stream.Format) (period : Nat) (origin : Nat → Prop)
    (now n : Nat) (s s' : OrderStream) : Prop :=
  ∃ new, s.added s' = chunks order format n new ∧
    (s'.phase = .over ∨ Ticking order format period origin (n + new.length) s') ∧
    ∀ k, .code k ∈ new → s.phase = .following ∧ k = s.tick ∧ s.deadline ≤ now

/-- Nothing is said. -/
theorem utters_nothing (hadded : s.added s' = [])
    (hnext : s'.phase = .over ∨ Ticking order format period origin n s') :
    Utters order format period origin now n s s' :=
  ⟨[], hadded, hnext, by simp⟩

/-- An event that is no code is said. -/
theorem utters_word (hs : Ticking order format period origin n s)
    (hphase : s.phase ≠ .starting ∨ next = .finish)
    (hroom : ∀ chunk next', (s.event now x.name (x.data order) next).phase ≠
      .sending chunk next') (hword : x.code? = none) :
    Utters order format period origin now n s (s.event now x.name (x.data order) next) := by
  obtain ⟨new, hnew, hadded, hnext⟩ := utters_event hs hphase hroom
  refine ⟨new, hadded, hnext, fun k hk => ?_⟩
  rw [← hnew _ hk] at hword
  cases hword

/-- A change is passed on. -/
theorem utters_passOn (hs : Ticking order format period origin n s) {item : Change}
    (hphase : s.phase ≠ .starting ∨ ∃ failure, item = .error failure)
    (hroom : ∀ chunk next, (s.passOn now item).phase ≠ .sending chunk next) :
    Utters order format period origin now n s (s.passOn now item) := by
  cases item with
  | error failure => exact utters_word (x := .error failure) hs (.inr rfl) hroom rfl
  | ok p =>
    have hgoes : s.phase ≠ .starting := hphase.resolve_right fun ⟨_, heq⟩ => by cases heq
    rw [passOn_status order] at hroom ⊢
    exact utters_word (x := .status p)
      (s := { s with showsCode := s.showsCode && p.hintCode ≠ "userSign" })
      ⟨hs.order, hs.encoder, hs.period, hs.tick, hs.origin⟩ (.inl hgoes) hroom rfl

/-- A tick is due. -/
theorem utters_tick (hs : Ticking order format period origin n s) (hphase : s.phase = .following)
    (hdue : s.deadline ≤ now)
    (hroom : ∀ chunk next, (s.onTick now).phase ≠ .sending chunk next) :
    Utters order format period origin now n s (s.onTick now) := by
  have hgoes : s.phase ≠ .starting := by
    rw [hphase]
    exact Phase.noConfusion
  unfold onTick at hroom ⊢
  split at hroom
  · next hshows =>
    rw [if_pos hshows]
    rw [code_eq hs.order] at hroom ⊢
    obtain ⟨new, hnew, hadded, hnext⟩ := utters_event (x := .code s.tick) hs (.inl hgoes) hroom
    refine ⟨new, hadded, hnext, fun k hk => ?_⟩
    have hcode := hnew _ hk
    injection hcode with hcode
    exact ⟨hphase, hcode, hdue⟩
  · next hsilent =>
    rw [if_neg hsilent]
    exact utters_nothing (added_of_eq body_goOn) (ticking_goOn hs (.inl hgoes))

/-- **What a step says.** -/
theorem utters_of_does (hs : s.phase = .over ∨ Ticking order format period origin n s)
    (hready : ∀ chunk next, s.phase ≠ .sending chunk next)
    (hroom : ∀ chunk next, s'.phase ≠ .sending chunk next) (hdoes : Does now s e s')
    (hfound : s.phase = .starting → (∃ p, e = .answered (.ok p)) → origin now) :
    Utters order format period origin now n s s' := by
  -- What changes neither the phase nor what is counted says nothing.
  have hsame {s' : OrderStream} (hadded : s.added s' = []) (hphase : s'.phase = s.phase)
      (halike : Alike s s') (hperiod : s'.period = s.period) (hbegan : s'.began = s.began) :
      Utters order format period origin now n s s' := by
    refine utters_nothing hadded (hs.imp (hphase.trans ·) fun hs => ?_)
    exact ⟨halike.order.trans hs.order, halike.encoder.trans hs.encoder, hperiod.trans hs.period,
      halike.tick ▸ hs.tick, fun hgoes => hbegan ▸ hs.origin (hphase ▸ hgoes)⟩
  have hticks {phase : Phase} (hphase : s.phase = phase) (hgoes : phase ≠ .over) :
      Ticking order format period origin n s := hs.resolve_left (hphase ▸ hgoes)
  cases hdoes with
  | refused hphase =>
    exact utters_passOn (hticks hphase Phase.noConfusion) (.inr ⟨_, rfl⟩) hroom
  | @found p hphase =>
    have hs := hticks hphase Phase.noConfusion
    exact utters_nothing (added_of_eq rfl)
      (.inr ⟨hs.order, hs.encoder, hs.period, hs.tick, fun _ => hfound hphase ⟨p, rfl⟩⟩)
  | told _ _ _ => exact hsame (added_of_eq rfl) rfl ⟨rfl, rfl, rfl, rfl⟩ rfl rfl
  | noticed _ _ => exact utters_nothing (added_of_eq rfl) (.inl rfl)
  | @passed w w' item hphase _ _ =>
    have hs := hticks hphase Phase.noConfusion
    have hgoes : ({ s with watch := some w' } : OrderStream).phase ≠ .starting := by
      rw [show ({ s with watch := some w' } : OrderStream).phase = _ from hphase]
      exact Phase.noConfusion
    exact utters_passOn (s := { s with watch := some w' })
      ⟨hs.order, hs.encoder, hs.period, hs.tick, hs.origin⟩ (.inl hgoes) hroom
  | exhausted _ _ _ => exact utters_nothing (added_of_eq rfl) (.inl rfl)
  | ticked hphase hdue => exact utters_tick (hticks hphase Phase.noConfusion) hphase hdue hroom
  | put hphase _ _ => exact absurd hphase (hready _ _)
  | watched _ _ => exact hsame (added_of_eq rfl) rfl ⟨rfl, rfl, rfl, rfl⟩ rfl rfl
  | read hbody => exact hsame (by simp [added, hbody]) rfl ⟨rfl, rfl, rfl, rfl⟩ rfl rfl
  | left _ => exact hsame (by simp [added, leave]) rfl ⟨rfl, rfl, rfl, rfl⟩ rfl rfl

end

/-! ## Every run -/

/-- `Shown t₀ period h t k`: the code of the tick `k` may be shown at the time `t`. The first code
is shown at the start; any other is not shown before `k` periods have gone by since the answer to
the first question, and at that time where nothing that is due is put off. -/
inductive Shown (t₀ period : Nat) (h : History) : Nat → Nat → Prop
  | first : Shown t₀ period h t₀ 0
  | ticked {tr : Transition OrderStream Event String} {t k : Nat} : tr ∈ h → Finds tr → 0 < k →
      tr.time + period * k ≤ t → (OnTime h → t = tr.time + period * k) → Shown t₀ period h t k

section
variable {order : StartedOrder} {format : Stream.Format} {period pollInterval t₀ now t k : Nat}
  {h : History} {s s' : OrderStream} {tr : Transition OrderStream Event String}

/-- What was shown was shown. -/
theorem Shown.later (hshown : Shown t₀ period h t k) : Shown t₀ period (h ++ [tr]) t k := by
  cases hshown with
  | first => exact .first
  | ticked htr hfinds hpos hle heq =>
    exact .ticked (List.mem_append_left _ htr) hfinds hpos hle fun hontime =>
      heq fun tr' htr' => hontime tr' (List.mem_append_left _ htr')

/-- A tick is due at its deadline, if not earlier. -/
theorem due?_following (hphase : s.phase = .following) :
    ∃ due ≤ s.deadline, s.due? = some due := by
  unfold due?
  rw [hphase]
  cases s.watch.bind Watch.due? with
  | none => exact ⟨s.deadline, Nat.le_refl _, rfl⟩
  | some due => exact ⟨min s.deadline due, Nat.min_le_left _ _, rfl⟩

/-- The first code is shown at the start. -/
theorem ticking_start (order : StartedOrder) (period pollInterval : Nat) (format : Stream.Format)
    (origin : Nat → Prop) :
    Ticking order format period origin 1 (start order period pollInterval format) := by
  rw [start_eq]
  exact ⟨rfl, rfl, rfl, Nat.one_pos, fun hgoes => absurd rfl hgoes⟩

/-- No chunk waits that never had to. -/
theorem not_sending_of_runs (run : Runs t₀ (start order period pollInterval format) h now s)
    (hroom : Roomy h) (chunk : String) (next : Next) : s.phase ≠ .sending chunk next := by
  cases run with
  | start =>
    rw [start_eq]
    exact Phase.noConfusion
  | next _ _ _ _ => exact hroom _ (List.mem_append_right _ (.head _)) chunk next

/-- **Every code is shown in time**, at the soonest when so many periods have gone by since the
answer to the first question. -/
theorem clocked_of_runs (run : Runs t₀ (start order period pollInterval format) h now s)
    (hroom : Roomy h) :
    ∃ xs : List (Nat × Said),
      pushedAt t₀ (start order period pollInterval format) h = chunksAt order format xs ∧
      (s.phase = .over ∨ Ticking order format period
        (fun began => ∃ tr ∈ h, Finds tr ∧ tr.time = began) xs.length s) ∧
      ∀ t k, (t, .code k) ∈ xs → Shown t₀ period h t k := by
  induction run with
  | start =>
    refine ⟨[(t₀, .code 0)], ?_, .inr (ticking_start order period pollInterval format _), ?_⟩
    · rw [start_eq]
      rfl
    · intro t k hmem
      obtain ⟨rfl, hcode⟩ := Prod.mk.inj (List.mem_singleton.1 hmem)
      injection hcode with hcode
      exact hcode ▸ .first
  | @next h t now s s' e effects run ht hmay hm ih =>
    obtain ⟨xs, hpushed, hs, hshown⟩ := ih fun tr htr => hroom tr (List.mem_append_left _ htr)
    obtain ⟨s'', hstep, heq⟩ := Option.map_eq_some_iff.1 hm
    obtain ⟨rfl, rfl⟩ := Prod.mk.inj heq
    have hlast : (⟨now, s, e, s'', s.added s''⟩ : Transition OrderStream Event String) ∈
        h ++ [⟨now, s, e, s'', s.added s''⟩] := List.mem_append_right _ (.head _)
    have hready := not_sending_of_runs run fun tr htr => hroom tr (List.mem_append_left _ htr)
    -- The times from which the ticks may be counted are those of before, and perhaps now.
    have hcounted := hs.imp_right fun hs =>
      (⟨hs.order, hs.encoder, hs.period, hs.tick, fun hgoes =>
        (hs.origin hgoes).imp fun tr htr => ⟨List.mem_append_left _ htr.1, htr.2⟩⟩ :
        Ticking order format period (fun began => ∃ tr ∈ h ++ [⟨now, s, e, s'', s.added s''⟩],
          Finds tr ∧ tr.time = began) xs.length s)
    obtain ⟨new, hadded, hnext, hcodes⟩ := utters_of_does hcounted hready (hroom _ hlast)
      (does_of_step hstep) fun hphase hfound => ⟨_, hlast, ⟨hphase, hfound⟩, rfl⟩
    refine ⟨xs ++ new.map (now, ·), ?_, ?_, fun t' k hmem => ?_⟩
    · rw [pushedAt_snoc, hpushed, chunksAt_append, hadded]
    · rw [List.length_append, List.length_map]
      exact hnext
    · rcases List.mem_append.1 hmem with hold | hnew
      · exact (hshown t' k hold).later
      · obtain ⟨x, hx, heq⟩ := List.mem_map.1 hnew
        obtain ⟨rfl, rfl⟩ := Prod.mk.inj heq
        obtain ⟨hphase, rfl, hdue⟩ := hcodes k hx
        have hs := hcounted.resolve_left (by rw [hphase]; exact Phase.noConfusion)
        obtain ⟨tr, htr, hfinds, hbegan⟩ := hs.origin (by rw [hphase]; exact Phase.noConfusion)
        have hdeadline : s.deadline = tr.time + period * s.tick := by
          rw [deadline, hs.period, hbegan]
        refine .ticked htr hfinds hs.tick (hdeadline ▸ hdue) fun hontime => ?_
        obtain ⟨due, hle, hdue'⟩ := due?_following hphase
        have hnow : now ≤ due := hontime _ hlast due hdue'
        rw [← hdeadline]
        exact Nat.le_antisymm (Nat.le_trans hnow hle) hdue

end

/-! ## Started orders -/

section
variable {ρ : Type} {client : BankId.Client} {read : Answer → Except ρ StartedOrder}
  {style : StreamStyle} {head : ρ} {chunk : String → ρ} {order : StartedOrder} {answer : Answer}
  {t₀ now slot : Nat} {s₀ s : OrderStream} {h : History}

/-- The answer that starts an order starts its stream. Where BankID may not be asked about the
order, that is what the stream says next. -/
theorem started_of_answered (hread : read answer = .ok order)
    (hstart : (Job.answered t₀ slot answer (.startStream client read style head chunk)).1 =
      .stream client s₀ head chunk) :
    s₀ = start order style.period client.pollInterval style.format ∨
      ∃ failure, s₀ = (start order style.period client.pollInterval style.format).answered t₀
        (.error failure) := by
  simp only [Job.answered, hread, Job.ofStream, if_true] at hstart
  split at hstart
  · injection hstart with _ hstream
    exact .inl hstream.symm
  · injection hstart with _ hstream
    exact .inr ⟨_, hstream.symm⟩

/-- A stream whose first question fails is over, and what it says of that is put into the body. -/
theorem refused_of_start (order : StartedOrder) (period pollInterval now : Nat)
    (format : Stream.Format) (failure : Failure) :
    let begin := start order period pollInterval format
    begin.due? = none ∧ begin.asks = true ∧
      (begin.answered now (.error failure)).phase = .over ∧
      (begin.answered now (.error failure)).body =
        begin.body ++ begin.added (begin.answered now (.error failure)) := by
  cases format with
  | sse => exact ⟨rfl, rfl, rfl, rfl⟩
  | ndjson => exact ⟨rfl, rfl, rfl, rfl⟩

/-- **When a started order shows its codes.** The answer that starts the order comes at the time
`t₀`, the first code is shown then, and every later one when its number of periods has gone by since
the answer to the first question about the order. -/
theorem shown_of_started (hread : read answer = .ok order)
    (hstart : (Job.answered t₀ slot answer (.startStream client read style head chunk)).1 =
      .stream client s₀ head chunk) (run : Runs t₀ s₀ h now s) (hroom : Roomy h) :
    ∃ xs : List (Nat × Said), pushedAt t₀ s₀ h = chunksAt order style.format xs ∧
      ∀ t k, (t, .code k) ∈ xs → Shown t₀ style.period h t k := by
  rcases started_of_answered hread hstart with rfl | ⟨failure, rfl⟩
  · obtain ⟨xs, hpushed, -, hshown⟩ := clocked_of_runs run hroom
    exact ⟨xs, hpushed, hshown⟩
  · -- It is as if the first question were answered at once, by the failure.
    generalize hbegin : start order style.period client.pollInterval style.format = begin at run
    obtain ⟨hdue, hasks, hover, hbody⟩ := refused_of_start order style.period client.pollInterval t₀
      style.format failure
    rw [hbegin] at hdue hasks hover hbody
    generalize hended : begin.answered t₀ (.error failure) = ended at run hover hbody ⊢
    let first : Transition OrderStream Event String :=
      ⟨t₀, begin, .answered (.error failure), ended, begin.added ended⟩
    have hstep : machine t₀ begin (.answered (.error failure)) =
        some (ended, begin.added ended) := by
      rw [machine, step, if_pos hasks, hended]
      rfl
    have hrun : Runs t₀ begin (first :: h) now s :=
      Run.cons_iff.2 ⟨⟨Nat.le_refl _, rfl, trivial, hstep⟩, run⟩
    rw [← hbegin] at hrun
    have hends : ∀ chunk next, ended.phase ≠ .sending chunk next := by
      rw [hover]
      exact fun _ _ => Phase.noConfusion
    obtain ⟨xs, hpushed, -, hshown⟩ :=
      clocked_of_runs hrun (List.forall_mem_cons.2 ⟨hends, hroom⟩)
    refine ⟨xs, ?_, fun t k hmem => ?_⟩
    · rw [← hpushed, hbegin, pushedAt, pushedAt, hbody, List.map_append, List.flatMap_cons,
        List.append_assoc]
    · cases hshown t k hmem with
      | first => exact .first
      | ticked htr hfinds hpos hle heq =>
        rcases List.mem_cons.1 htr with rfl | htr
        · obtain ⟨-, p, hevent⟩ := hfinds
          cases hevent
        · refine .ticked htr hfinds hpos hle fun hontime =>
            heq (List.forall_mem_cons.2 ⟨?_, hontime⟩)
          intro due hsome
          rw [hdue] at hsome
          cases hsome

/-- **The codes of an order, second by second.** Nothing that is sent has to wait, and nothing that
is due is put off. The first code is shown when the answer comes that starts the order, and the code
of a later second so many seconds after the answer to the first question about the order. So it is
late by as many seconds as that answer took, and the code of the current second only if the answer
took less than one. -/
theorem codes_timed (hread : read answer = .ok order)
    (hstart : (Job.answered t₀ slot answer (.startStream client read style head chunk)).1 =
      .stream client s₀ head chunk) (hperiod : style.period = 1000) (run : Runs t₀ s₀ h now s)
    (hroom : Roomy h) (hontime : OnTime h) :
    ∃ xs : List (Nat × Said), pushedAt t₀ s₀ h = chunksAt order style.format xs ∧
      ∀ t k, (t, .code k) ∈ xs → k = 0 ∧ t = t₀ ∨ 0 < k ∧ ∃ tr ∈ h, Finds tr ∧
        t = tr.time + 1000 * k ∧ (t - t₀) / 1000 = k + (tr.time - t₀) / 1000 ∧
        (k = (t - t₀) / 1000 ↔ tr.time - t₀ < 1000) := by
  obtain ⟨xs, hpushed, hshown⟩ := shown_of_started hread hstart run hroom
  refine ⟨xs, hpushed, fun t k hmem => ?_⟩
  cases hshown t k hmem with
  | first => exact .inl ⟨rfl, rfl⟩
  | @ticked tr _ _ htr hfinds hpos _ heq =>
    have ht : t = tr.time + 1000 * k := hperiod ▸ heq hontime
    have hstarted : t₀ ≤ tr.time := run.le_time htr
    have hseconds : (t - t₀) / 1000 = k + (tr.time - t₀) / 1000 := by omega
    exact .inr ⟨hpos, tr, htr, hfinds, ht, hseconds, by omega⟩

end

/-! ## A slow answer -/

/-- An order of BankID's. -/
def testOrder : StartedOrder where
  orderRef := "131daac9"
  autoStartToken := "7c40b5c9"
  qrStartToken := "67df3917-fa0d-44e5-b327-edcc928297f8"
  qrStartSecret := "d28db9a7-4cde-429e-a983-359be676944c"

/-- A tick that is due may come. -/
theorem machine_tick {s : OrderStream} {now : Nat} (hphase : s.phase = .following)
    (hdue : s.deadline ≤ now) :
    machine now s (.moved .tick) = some (s.onTick now, s.added (s.onTick now)) := by
  have hmoves : Move.tick ∈ s.moves now := by simp [moves, hphase, hdue]
  rw [machine, step, if_pos hmoves]
  rfl

/-- BankID takes a second and a half for the answer to the first question. The second code is shown
a second later. -/
theorem runs_slow_answer :
    ∃ (h : History) (s : OrderStream) (p : Progress),
      Runs 0 (start testOrder 1000 1000 .sse) h 2500 s ∧ Roomy h ∧ OnTime h ∧
        pushedAt 0 (start testOrder 1000 1000 .sse) h =
          chunksAt testOrder .sse [(0, .code 0), (1500, .status p), (2500, .code 1)] := by
  let p : Progress :=
    { orderRef := "131daac9", status := .pending, hintCode := "outstandingTransaction" }
  have h₁ : Runs 0 (start testOrder 1000 1000 .sse)
      [⟨1500, _, .answered (.ok p), _, []⟩] 1500 _ := Run.next .start (Nat.zero_le _) trivial rfl
  have h₂ := h₁.next (e := .moved .change) (Nat.le_refl 1500) trivial rfl
  -- The watch has rested as long as a tick lasts. The tick comes first.
  have h₃ := h₂.next (e := .moved .tick) (Nat.le_add_right 1500 1000) trivial
    (machine_tick rfl (show 1500 + 1000 * 1 ≤ 2500 by decide))
  obtain ⟨h, s, run, hphases, hdues, hpushed⟩ :
      ∃ (h : History) (s : OrderStream), Runs 0 (start testOrder 1000 1000 .sse) h 2500 s ∧
        h.map (·.after.phase) = [.following, .following, .following] ∧
        h.map (fun tr => (tr.time, tr.before.due?)) =
          [(1500, none), (1500, some (min (1500 + 1000 * 1) (1500 + 1000))),
            (1500 + 1000, some (min (1500 + 1000 * 1) (1500 + 1000)))] ∧
        pushedAt 0 (start testOrder 1000 1000 .sse) h =
          [(0, ((encoderAt .sse 0).event (Said.code 0).name
              (Wire.toJson (BankId.QrCode.of testOrder 0))).1),
            (1500, ((encoderAt .sse 1).event (Said.status p).name (Wire.toJson p)).1),
            (2500, ((encoderAt .sse 2).event (Said.code 1).name
              (Wire.toJson (BankId.QrCode.of testOrder 1))).1)] :=
    ⟨_, _, h₃, rfl, rfl, rfl⟩
  refine ⟨h, s, p, run, fun tr htr chunk next hsending => ?_, fun tr htr due hdue => ?_, ?_⟩
  · have hmem := List.mem_map_of_mem (f := (·.after.phase)) htr
    rw [hphases, hsending] at hmem
    simp at hmem
  · have hmem := List.mem_map_of_mem (f := fun tr => (tr.time, tr.before.due?)) htr
    rw [hdues, hdue] at hmem
    simp at hmem
    omega
  · rw [hpushed]
    simp only [data_code, data_status testOrder, event_encoderAt]
    rfl

/-- BankID starts the order, and takes a second and a half for the first question about it. All
later codes are timed by that answer. -/
theorem slow_answer_timed :
    ∃ (h : History) (s : OrderStream) (xs : List (Nat × Said)),
      Runs 0 (start testOrder 1000 1000 .sse) h 2500 s ∧ Roomy h ∧ OnTime h ∧
        pushedAt 0 (start testOrder 1000 1000 .sse) h = chunksAt testOrder .sse xs ∧
        ∀ t k, (t, .code k) ∈ xs → k = 0 ∧ t = 0 ∨ 0 < k ∧ ∃ tr ∈ h, Finds tr ∧
          t = tr.time + 1000 * k ∧ t / 1000 = k + tr.time / 1000 := by
  obtain ⟨h, s, p, run, hroom, hontime, -⟩ := runs_slow_answer
  let client : BankId.Client := ⟨"https://appapi2.test.bankid.com", 1000, 15000⟩
  let x : Exchange StartedOrder := client.post BankId.authPath .null Wire.ofTree?
  let answer : Answer := .replied 200
    ("\x7b\"orderRef\":\"131daac9\",\"autoStartToken\":\"7c40b5c9\"," ++
      "\"qrStartToken\":\"67df3917-fa0d-44e5-b327-edcc928297f8\"," ++
      "\"qrStartSecret\":\"d28db9a7-4cde-429e-a983-359be676944c\"\x7d").toUTF8
  have hread : x.read answer = .ok testOrder := by decide +kernel
  have hstart : (Job.answered 0 0 answer
      (.startStream client x.read ⟨.sse, 1000⟩ (.invalidRequest "") .invalidRequest)).1 =
      .stream client (start testOrder 1000 1000 .sse) (.invalidRequest "") .invalidRequest := by
    rw [Job.answered, hread]
    rfl
  obtain ⟨xs, hpushed, hcodes⟩ := codes_timed hread hstart rfl run hroom hontime
  refine ⟨h, s, xs, run, hroom, hontime, hpushed, fun t k hmem => ?_⟩
  exact (hcodes t k hmem).imp_right fun ⟨hpos, tr, htr, hfinds, ht, hseconds, _⟩ =>
    ⟨hpos, tr, htr, hfinds, ht, hseconds⟩

/-- It is not so that every code is that of the seconds that have gone by since the order was
started: two seconds and a half after the start the client is sent the code of the first second, and
the chunk for the second one is another. -/
theorem codes_late :
    ¬ ∀ (order : StartedOrder) (pollInterval now : Nat) (h : History) (s : OrderStream),
      Runs 0 (start order 1000 pollInterval .sse) h now s → Roomy h → OnTime h →
      ∀ n t text k, (pushedAt 0 (start order 1000 pollInterval .sse) h)[n]? = some (t, text) →
        text = (Said.code k).chunk order .sse n →
        text = (Said.code (t / 1000)).chunk order .sse n := by
  intro hclaim
  obtain ⟨h, s, p, run, hroom, hontime, hpushed⟩ := runs_slow_answer
  have hthird : (pushedAt 0 (start testOrder 1000 1000 .sse) h)[2]? =
      some (2500, (Said.code 1).chunk testOrder .sse 2) := by
    rw [hpushed]
    rfl
  have hsecond := hclaim testOrder 1000 2500 h s run hroom hontime 2 2500 _ 1 hthird rfl
  exact absurd (eq_of_chunk_eq hsecond) (by decide)

end OrderBroker.Http.OrderStream
