import OrderBroker.Proofs.OrderStream.Events
import OrderBroker.Proofs.OrderStream.Steps
import Mathlib.Data.List.Basic
import Mathlib.Data.List.Infix

/-!
# What an order stream says

A stream says codes, statuses and at most one error, in the order that `Grammatical` tells. Every
event is a chunk, with its number in the stream.

`Accounts` compares a stream with what it has said so far and with what the watch has delivered to
it. Every step keeps it (`accounts_of_step`), and so every run (`accounts_of_runs`).
-/

namespace OrderBroker.Http.OrderStream

open BankId (StartedOrder Watch Progress)

/-! ## Events in order -/

/-- The codes among events. -/
def codes (xs : List Said) : List Nat := xs.filterMap Said.code?

/-- The statuses among events. -/
def statuses (xs : List Said) : List Progress := xs.filterMap Said.status?

/-- The chunks of events that `n` events come before. -/
def chunks (order : StartedOrder) (format : Stream.Format) (n : Nat) (xs : List Said) :
    List String :=
  xs.mapIdx fun i x => x.chunk order format (n + i)

/-- The order in which events come. -/
structure Grammatical (xs : List Said) : Prop where
  /-- The first code comes first. -/
  first : ∀ x ∈ xs.head?, x = .code 0
  /-- The codes are those of the first thirty ticks at most, each once and in order. -/
  counted : ∃ n ≤ 30, codes xs = List.range n
  /-- There are no codes after the user has scanned one. -/
  scanned : xs.Pairwise fun x y => x.isScanned = true → y.code? = none
  /-- An error and a status that is not pending come last. -/
  last : ∀ x ∈ xs.dropLast, x.isLast = false

/-- The codes after one more event. -/
theorem codes_snoc {xs : List Said} {x : Said} :
    codes (xs ++ [x]) = codes xs ++ x.code?.toList := by
  cases x <;> simp [codes, Said.code?]

/-- The statuses after one more event. -/
theorem statuses_snoc {xs : List Said} {x : Said} :
    statuses (xs ++ [x]) = statuses xs ++ x.status?.toList := by
  cases x <;> simp [statuses, Said.status?]

/-- The chunks of a stream's events start with those of its first events. -/
theorem chunks_append {order : StartedOrder} {format : Stream.Format} {n : Nat}
    {xs ys : List Said} :
    chunks order format n (xs ++ ys) =
      chunks order format n xs ++ chunks order format (n + xs.length) ys := by
  simp only [chunks, List.mapIdx_append, Nat.add_assoc, Nat.add_comm xs.length]

/-- One more event. -/
theorem Grammatical.snoc {xs : List Said} {x : Said} (h : Grammatical xs) (hne : xs ≠ [])
    (hopen : ∀ y ∈ xs, y.isLast = false)
    (hcode : ∀ n, x = .code n → codes xs = List.range n ∧ n < ticks ∧
      ∀ y ∈ xs, y.isScanned = false) :
    Grammatical (xs ++ [x]) := by
  refine ⟨?_, ?_, ?_, ?_⟩
  · rw [List.head?_append_of_ne_nil xs hne]
    exact h.first
  · cases x with
    | code n =>
      obtain ⟨hcodes, hlt, -⟩ := hcode n rfl
      refine ⟨n + 1, hlt, ?_⟩
      rw [codes_snoc, hcodes, List.range_succ]
      rfl
    | _ =>
      rw [codes_snoc]
      exact (List.append_nil _).symm ▸ h.counted
  · refine List.pairwise_append.2 ⟨h.scanned, List.pairwise_singleton _ _, fun y hy z hz => ?_⟩
    rw [List.mem_singleton] at hz
    subst hz
    cases z with
    | code n =>
      intro hscanned
      rw [(hcode n rfl).2.2 y hy] at hscanned
      cases hscanned
    | _ => exact fun _ => rfl
  · rwa [List.dropLast_concat]

/-- Nothing comes after these events. -/
def Finished (xs : List Said) : Prop := ∃ x ∈ xs.getLast?, x.isLast = true

/-! ## What a stream has said so far -/

/-- Two states of a stream that say the same next. -/
structure Alike (s s' : OrderStream) : Prop where
  order : s'.order = s.order
  encoder : s'.encoder = s.encoder
  tick : s'.tick = s.tick
  showsCode : s'.showsCode = s.showsCode

/-- `Open order format shown xs s`: the stream `s` of `order` has said `xs` and goes on. The watch
has delivered `shown` to it. -/
structure Open (order : StartedOrder) (format : Stream.Format) (shown : List Progress)
    (xs : List Said) (s : OrderStream) : Prop where
  order : s.order = order
  encoder : s.encoder = encoderAt format xs.length
  tick : s.tick ≤ ticks
  begun : xs ≠ []
  unfinished : ∀ x ∈ xs, x.isLast = false
  codes : s.showsCode = true → codes xs = List.range s.tick ∧ ∀ x ∈ xs, x.isScanned = false
  statuses : statuses xs = shown

/-- What holds before a stream goes on after a chunk. -/
def Ready (order : StartedOrder) (format : Stream.Format) (shown : List Progress) (next : Next)
    (xs : List Said) (s : OrderStream) : Prop :=
  match next with
  | .follow => Open order format shown xs s
  | .nextTick => s.tick < ticks ∧ Open order format shown xs { s with tick := s.tick + 1 }
  | .finish => Finished xs ∧ statuses xs <+: shown

/-- `Stands order format shown xs s`: where the stream `s` of `order` stands that has said `xs`. -/
inductive Stands (order : StartedOrder) (format : Stream.Format) (shown : List Progress)
    (xs : List Said) (s : OrderStream) : Prop
  | goes : s.phase = .starting ∨ s.phase = .following → Open order format shown xs s →
      Stands order format shown xs s
  | sending {x : Said} {next : Next} : s.phase = .sending (x.chunk order format xs.length) next →
      Grammatical (xs ++ [x]) → statuses xs <+: shown →
      Ready order format shown next (xs ++ [x]) s → Stands order format shown xs s
  | ended : s.phase = .over → statuses xs <+: shown → Stands order format shown xs s

/-- `Accounts order format shown alone xs s`: the stream `s` of `order` has said `xs`, and the watch
has delivered `shown` to it; `alone` says that it has ended by what it said. -/
structure Accounts (order : StartedOrder) (format : Stream.Format) (shown : List Progress)
    (alone : Prop) (xs : List Said) (s : OrderStream) : Prop where
  grammatical : Grammatical xs
  stands : Stands order format shown xs s
  ended : alone → s.phase = .over ∧ Finished xs

section
variable {order : StartedOrder} {format : Stream.Format} {shown : List Progress} {alone : Prop}
  {xs : List Said} {x : Said} {s s' : OrderStream} {now : Nat} {next : Next}

/-- Other fields of a stream do not matter to what it says next. -/
theorem Open.of_alike (h : Open order format shown xs s) (halike : Alike s s') :
    Open order format shown xs s' := by
  refine ⟨halike.order.trans h.order, halike.encoder.trans h.encoder, halike.tick ▸ h.tick, h.begun,
    h.unfinished, fun hcode => ?_, h.statuses⟩
  rw [halike.tick]
  exact h.codes (halike.showsCode ▸ hcode)

/-- Nor do they to how it goes on. -/
theorem Ready.of_alike (h : Ready order format shown next xs s) (halike : Alike s s') :
    Ready order format shown next xs s' := by
  cases next with
  | follow => exact Open.of_alike h halike
  | nextTick =>
    refine ⟨halike.tick ▸ h.1, h.2.of_alike ⟨halike.order, halike.encoder, ?_, halike.showsCode⟩⟩
    exact congrArg (· + 1) halike.tick
  | finish => exact h

/-- Nor, with its phase, to where it stands. -/
theorem Stands.of_alike (h : Stands order format shown xs s) (hphase : s'.phase = s.phase)
    (halike : Alike s s') : Stands order format shown xs s' := by
  cases h with
  | goes hgoes hopen => exact .goes (by rwa [hphase]) (hopen.of_alike halike)
  | sending hsending hx hinitial hready =>
    exact .sending (hphase.trans hsending) hx hinitial (hready.of_alike halike)
  | ended hover hinitial => exact .ended (hphase.trans hover) hinitial

/-- The statuses are the first that the watch has delivered. -/
theorem Stands.statuses_initial (h : Stands order format shown xs s) : statuses xs <+: shown := by
  cases h with
  | goes _ hopen => exact hopen.statuses ▸ List.prefix_rfl
  | sending _ _ hinitial _ => exact hinitial
  | ended _ hinitial => exact hinitial

/-- Going on after a chunk. -/
theorem stands_goOn (now : Nat) (h : Ready order format shown next xs s) :
    Stands order format shown xs (s.goOn now next) ∧
      ((s.goOn now next).phase = .over → Finished xs) := by
  cases next with
  | follow =>
    exact ⟨.goes (.inr rfl) (h.of_alike ⟨rfl, rfl, rfl, rfl⟩), fun hover => by cases hover⟩
  | nextTick =>
    obtain ⟨hlt, hopen⟩ := h
    rw [goOn, if_pos hlt]
    exact ⟨.goes (.inr rfl) (hopen.of_alike ⟨rfl, rfl, rfl, rfl⟩), fun hover => by cases hover⟩
  | finish => exact ⟨.ended rfl h.2, fun _ => h.1⟩

/-! ## One step -/

/-- `Says order format shown xs s s'`: the stream that has said `xs` comes from `s` to `s'`, and
what it says meanwhile is put into the body. Unless its client has left, its last words come before
its end. -/
def Says (order : StartedOrder) (format : Stream.Format) (shown : List Progress) (xs : List Said)
    (s s' : OrderStream) : Prop :=
  ∃ new, s.added s' = chunks order format xs.length new ∧ Grammatical (xs ++ new) ∧
    Stands order format shown (xs ++ new) s' ∧
    (s'.phase = .over → s'.clientLeft = true ∨ Finished (xs ++ new))

/-- Going on puts nothing into the body. -/
theorem body_goOn : (s.goOn now next).body = s.body := by
  cases next with
  | nextTick =>
    simp only [goOn]
    split <;> rfl
  | _ => rfl

/-- A state with the same body. -/
theorem added_of_eq (hbody : s'.body = s.body) : s.added s' = [] := by
  rw [added, hbody, List.drop_length]

/-- A stream that says nothing. -/
theorem says_nothing (hxs : Grammatical xs) (hbody : s'.body = s.body)
    (hstands : Stands order format shown xs s')
    (hends : s'.phase = .over → s'.clientLeft = true ∨ Finished xs) :
    Says order format shown xs s s' := by
  refine ⟨[], added_of_eq hbody, ?_, ?_, ?_⟩ <;> rwa [List.append_nil]

/-- A chunk that is put into the body. -/
theorem says_put (hbody : s'.body = s.body ++ [x.chunk order format xs.length])
    (hx : Grammatical (xs ++ [x])) (hready : Ready order format shown next (xs ++ [x]) s') :
    Says order format shown xs s (s'.goOn now next) := by
  obtain ⟨hstands, hends⟩ := stands_goOn now hready
  refine ⟨[x], ?_, hx, hstands, fun hover => .inr (hends hover)⟩
  rw [added, body_goOn, hbody, List.drop_left]
  rfl

/-- An event is put into the body or waits, unless the client has left. -/
theorem says_event (hencoder : s.encoder = encoderAt format xs.length) (hxs : Grammatical xs)
    (hx : Grammatical (xs ++ [x])) (hinitial : statuses xs <+: shown)
    (hready : Ready order format shown next (xs ++ [x])
      { s with encoder := encoderAt format (xs.length + 1) }) :
    Says order format shown xs s (s.event now x.name (x.data order) next) := by
  simp only [event, hencoder, event_encoderAt, push]
  split
  · next hleft => exact says_nothing hxs rfl (.ended rfl hinitial) fun _ => .inl hleft
  · split
    · exact says_put rfl hx (hready.of_alike ⟨rfl, rfl, rfl, rfl⟩)
    · exact says_nothing hxs rfl (.sending rfl hx hinitial (hready.of_alike ⟨rfl, rfl, rfl, rfl⟩))
        fun hover => by cases hover

/-- Nothing comes after an event that is the last. -/
theorem finished_snoc (hlast : x.isLast = true) : Finished (xs ++ [x]) :=
  ⟨x, by rw [List.getLast?_concat]; rfl, hlast⟩

/-- An error is passed on. -/
theorem says_error (hopen : Open order format shown xs s) (hxs : Grammatical xs)
    (failure : Failure) : Says order format shown xs s (s.passOn now (.error failure)) :=
  have hstatuses : statuses (xs ++ [Said.error failure]) <+: shown := by
    rw [statuses_snoc, hopen.statuses]
    exact (List.append_nil shown).symm ▸ List.prefix_rfl
  says_event (x := .error failure) hopen.encoder hxs
    (hxs.snoc hopen.begun hopen.unfinished fun n heq => by cases heq)
    (hopen.statuses ▸ List.prefix_rfl) ⟨finished_snoc rfl, hstatuses⟩

/-- A status is passed on. -/
theorem says_status (hopen : Open order format shown xs s) (hxs : Grammatical xs) (p : Progress) :
    Says order format (shown ++ [p]) xs s (s.passOn now (.ok p)) := by
  have hstatuses : statuses (xs ++ [Said.status p]) = shown ++ [p] := by
    rw [statuses_snoc, hopen.statuses]
    rfl
  rw [passOn_status order]
  refine says_event (x := .status p)
    (s := { s with showsCode := s.showsCode && p.hintCode ≠ "userSign" }) hopen.encoder hxs
    (hxs.snoc hopen.begun hopen.unfinished fun n heq => by cases heq)
    (hopen.statuses ▸ List.prefix_append _ _) ?_
  split
  · next hpending =>
    have hgoes : (Said.status p).isLast = false := by simp [Said.isLast, hpending]
    refine ⟨hopen.order, by rw [List.length_append]; rfl, hopen.tick, by simp,
      List.forall_mem_append.2 ⟨hopen.unfinished, List.forall_mem_singleton.2 hgoes⟩,
      fun hcode => ?_, hstatuses⟩
    obtain ⟨hshows, hhint⟩ := (Bool.and_eq_true _ _).mp hcode
    obtain ⟨hcodes, hscanned⟩ := hopen.codes hshows
    have hunscanned : (Said.status p).isScanned = false := by simpa [Said.isScanned] using hhint
    refine ⟨?_, List.forall_mem_append.2 ⟨hscanned, List.forall_mem_singleton.2 hunscanned⟩⟩
    rw [codes_snoc, hcodes]
    exact List.append_nil _
  · next hover =>
    exact ⟨finished_snoc (by simpa [Said.isLast] using hover), hstatuses ▸ List.prefix_rfl⟩

/-- The code of a tick is shown. -/
theorem says_code (hopen : Open order format shown xs s) (hxs : Grammatical xs)
    (hshows : s.showsCode = true) (hlt : s.tick < ticks) :
    Says order format shown xs s (s.event now codeEvent (s.code s.tick) .nextTick) := by
  obtain ⟨hcodes, hscanned⟩ := hopen.codes hshows
  rw [code_eq hopen.order]
  refine says_event (x := .code s.tick) hopen.encoder hxs
    (hxs.snoc hopen.begun hopen.unfinished fun n heq => ?_) (hopen.statuses ▸ List.prefix_rfl)
    ⟨hlt, hopen.order, by rw [List.length_append]; rfl, hlt, by simp,
      List.forall_mem_append.2 ⟨hopen.unfinished, List.forall_mem_singleton.2 rfl⟩,
      fun _ => ⟨?_, List.forall_mem_append.2 ⟨hscanned, List.forall_mem_singleton.2 rfl⟩⟩, ?_⟩
  · obtain rfl := Said.code.inj heq
    exact ⟨hcodes, hlt, hscanned⟩
  · rw [codes_snoc, hcodes, List.range_succ]
    rfl
  · rw [statuses_snoc, hopen.statuses]
    exact List.append_nil _

/-- The stream ends, though its client is there, it is not its last tick, and the watch has
something to say. -/
structure EndsAlone (s : OrderStream) (e : Event) (s' : OrderStream) : Prop where
  goes : s.phase ≠ .over
  ends : s'.phase = .over
  client : s'.clientLeft = false
  early : ¬ (e = .moved .tick ∧ s.tick = ticks)
  change : ¬ (e = .moved .change ∧ s.watch.bind Watch.take = none)

/-- `Proceeds order format shown alone xs s s'`: what a step from `s` to `s'` says is put into the
body and accounted for. -/
def Proceeds (order : StartedOrder) (format : Stream.Format) (shown : List Progress) (alone : Prop)
    (xs : List Said) (s s' : OrderStream) : Prop :=
  ∃ new, s.added s' = chunks order format xs.length new ∧
    Accounts order format shown alone (xs ++ new) s'

variable {e : Event}

/-- A stream that goes on says something. -/
theorem Says.proceeds {shown' : List Progress} (hspeaks : Says order format shown' xs s s')
    (h : Accounts order format shown alone xs s) (hgoes : s.phase ≠ .over) :
    Proceeds order format shown' (alone ∨ EndsAlone s e s') xs s s' := by
  obtain ⟨new, hadded, hnew, hstands, hends⟩ := hspeaks
  refine ⟨new, hadded, hnew, hstands, ?_⟩
  rintro (halone | halone)
  · exact absurd (h.ended halone).1 hgoes
  · refine ⟨halone.ends, (hends halone.ends).resolve_left ?_⟩
    simp [halone.client]

/-- A stream says nothing. -/
theorem Accounts.proceeds (h : Accounts order format shown alone xs s) (hadded : s.added s' = [])
    (hstands : Stands order format shown xs s') (hover : s.phase = .over → s'.phase = .over)
    (hends : ¬ EndsAlone s e s') :
    Proceeds order format shown (alone ∨ EndsAlone s e s') xs s s' := by
  refine ⟨[], hadded, ?_⟩
  rw [List.append_nil]
  refine ⟨h.grammatical, hstands, ?_⟩
  rintro (halone | halone)
  · exact ⟨hover (h.ended halone).1, (h.ended halone).2⟩
  · exact absurd halone hends

/-- A stream that stands where it stood says nothing. -/
theorem Accounts.proceeds_of_alike (h : Accounts order format shown alone xs s)
    (hadded : s.added s' = []) (hphase : s'.phase = s.phase) (halike : Alike s s') :
    Proceeds order format shown (alone ∨ EndsAlone s e s') xs s s' :=
  h.proceeds hadded (h.stands.of_alike hphase halike) (hphase.trans ·)
    fun hends => hends.goes (hphase ▸ hends.ends)

/-- A stream that goes on and has no chunk that waits is open. -/
theorem Stands.open (h : Stands order format shown xs s)
    (hphase : s.phase = .starting ∨ s.phase = .following) : Open order format shown xs s := by
  cases h with
  | goes _ hopen => exact hopen
  | sending hsending => simp [hsending] at hphase
  | ended hover => simp [hover] at hphase

/-- The next tick. -/
theorem proceeds_tick (h : Accounts order format shown alone xs s) (hphase : s.phase = .following) :
    Proceeds order format shown (alone ∨ EndsAlone s (.moved .tick) (s.onTick now)) xs s
      (s.onTick now) := by
  have hopen := h.stands.open (.inr hphase)
  by_cases hlt : s.tick < ticks
  · cases hshows : s.showsCode with
    | true =>
      rw [onTick, if_pos ⟨hshows, hlt⟩]
      exact (says_code hopen h.grammatical hshows hlt).proceeds h (by simp [hphase])
    | false =>
      have hnext : Open order format shown xs { s with tick := s.tick + 1 } :=
        ⟨hopen.order, hopen.encoder, hlt, hopen.begun, hopen.unfinished,
          fun hcode => absurd hcode (by simp [hshows]), hopen.statuses⟩
      rw [onTick, if_neg (by simp [hshows]), goOn, if_pos hlt]
      exact h.proceeds (added_of_eq rfl) (.goes (.inr rfl) (hnext.of_alike ⟨rfl, rfl, rfl, rfl⟩))
        (by simp [hphase]) fun hends => by cases hends.ends
  · rw [onTick, if_neg fun hcode => hlt hcode.2, goOn, if_neg hlt]
    exact h.proceeds (added_of_eq rfl) (.ended rfl h.stands.statuses_initial) (fun _ => rfl)
      fun hends => hends.early ⟨rfl, Nat.le_antisymm hopen.tick (Nat.le_of_not_lt hlt)⟩

/-- A chunk that waits finds room. -/
theorem proceeds_room {chunk : String} (h : Accounts order format shown alone xs s)
    (hphase : s.phase = .sending chunk next) :
    Proceeds order format shown
      (alone ∨ EndsAlone s e ({ s with body := s.body ++ [chunk] }.goOn now next)) xs s
      ({ s with body := s.body ++ [chunk] }.goOn now next) := by
  cases h.stands with
  | goes hgoes => simp [hphase] at hgoes
  | ended hover => simp [hphase] at hover
  | @sending x _ hsending hx _ hready =>
    obtain ⟨rfl, rfl⟩ := Phase.sending.inj (hphase.symm.trans hsending)
    have hput : Ready order format shown next (xs ++ [x])
        { s with body := s.body ++ [x.chunk order format xs.length] } :=
      hready.of_alike ⟨rfl, rfl, rfl, rfl⟩
    refine Says.proceeds (says_put ?_ hx hput) h (by simp [hphase])
    rfl

/-- Where the watch delivers nothing, there is nothing more to account for. -/
theorem Proceeds.undelivered (h : Proceeds order format shown alone xs s s')
    (hnone : e.delivered? s = none) :
    Proceeds order format (shown ++ (e.delivered? s).toList) alone xs s s' := by
  rw [hnone, Option.toList_none, List.append_nil]
  exact h

/-- **Every step is accounted for.** -/
theorem proceeds_of_does (h : Accounts order format shown alone xs s) (hdoes : Does now s e s') :
    Proceeds order format (shown ++ (e.delivered? s).toList) (alone ∨ EndsAlone s e s') xs
      s s' := by
  have hinitial := h.stands.statuses_initial
  -- Only `passed` delivers progress; a step that ends without a last word is no end alone.
  cases hdoes with
  | refused hphase =>
    have hopen := h.stands.open (.inl hphase)
    refine Proceeds.undelivered ?_ rfl
    exact (says_error hopen h.grammatical _).proceeds h (by simp [hphase])
  | found hphase =>
    have hopen := h.stands.open (.inl hphase)
    refine Proceeds.undelivered ?_ rfl
    exact h.proceeds (added_of_eq rfl) (.goes (.inr rfl) (hopen.of_alike ⟨rfl, rfl, rfl, rfl⟩))
      (by simp [hphase]) fun hends => absurd hends.ends (by simp)
  | noticed hgoes hleft =>
    refine Proceeds.undelivered ?_ rfl
    exact h.proceeds (added_of_eq rfl) (.ended rfl hinitial) (fun _ => rfl)
      fun hends => absurd (hleft.symm.trans hends.client) (by simp)
  | @passed w w' item hphase hw htake =>
    have htaken : s.watch.bind Watch.take = some (item, w') := by
      rw [hw]
      exact htake
    have hopen : Open order format shown xs { s with watch := some w' } :=
      (h.stands.open (.inr hphase)).of_alike ⟨rfl, rfl, rfl, rfl⟩
    have hgoes : s.phase ≠ .over := by simp [hphase]
    cases item with
    | error failure =>
      have hspeaks : Says order format shown xs s
          ({ s with watch := some w' }.passOn now (.error failure)) :=
        says_error hopen h.grammatical failure
      refine Proceeds.undelivered (hspeaks.proceeds h hgoes) ?_
      simp [Event.delivered?, htaken, Except.toOption]
    | ok p =>
      have hspeaks : Says order format (shown ++ [p]) xs s
          ({ s with watch := some w' }.passOn now (.ok p)) :=
        says_status hopen h.grammatical p
      have hdelivered : (Event.moved .change).delivered? s = some p := by
        simp [Event.delivered?, htaken, Except.toOption]
      rw [hdelivered]
      exact hspeaks.proceeds h hgoes
  | exhausted hphase htake _ =>
    refine Proceeds.undelivered ?_ (by simp [Event.delivered?, htake])
    exact h.proceeds (added_of_eq rfl) (.ended rfl hinitial) (fun _ => rfl)
      fun hends => hends.change ⟨rfl, htake⟩
  | ticked hphase _ => exact (proceeds_tick h hphase).undelivered rfl
  | put hphase _ _ => exact (proceeds_room h hphase).undelivered rfl
  | told _ _ _ =>
    refine Proceeds.undelivered ?_ rfl
    exact h.proceeds_of_alike (added_of_eq rfl) rfl ⟨rfl, rfl, rfl, rfl⟩
  | watched _ _ =>
    refine Proceeds.undelivered ?_ rfl
    exact h.proceeds_of_alike (added_of_eq rfl) rfl ⟨rfl, rfl, rfl, rfl⟩
  | read hbody =>
    refine Proceeds.undelivered ?_ rfl
    exact h.proceeds_of_alike (by simp [added, hbody]) rfl ⟨rfl, rfl, rfl, rfl⟩
  | left _ =>
    refine Proceeds.undelivered ?_ rfl
    exact h.proceeds_of_alike (by simp [added, leave]) rfl ⟨rfl, rfl, rfl, rfl⟩

/-! ## Every run -/

/-- The stream has ended by what it said: its client was there, it was not its last tick, and the
watch had something to say. -/
def EndedAlone (h : History) : Prop := ∃ tr ∈ h, EndsAlone tr.before tr.event tr.after

/-- The chunks that were put into the body of a stream that is `s₀` at first. -/
def pushed (s₀ : OrderStream) (h : History) : List String := s₀.body ++ h.flatMap (·.effects)

variable {left : Bool} {period pollInterval t₀ : Nat} {h : History}

/-- The first code is accounted for, unless the client has left before. -/
theorem accounts_opened (left : Bool) (order : StartedOrder) (period pollInterval : Nat)
    (format : Stream.Format) :
    ∃ xs, (opened left order period pollInterval format).body = chunks order format 0 xs ∧
      Accounts order format [] False xs (opened left order period pollInterval format) := by
  cases left with
  | true =>
    exact ⟨[], rfl, ⟨by simp, ⟨0, Nat.zero_le _, rfl⟩, .nil, by simp⟩,
      .ended rfl List.prefix_rfl, False.elim⟩
  | false =>
    have hopened : opened false order period pollInterval format =
        start order period pollInterval format := rfl
    rw [hopened, start_eq]
    exact ⟨[.code 0], rfl,
      ⟨by simp, ⟨1, Nat.le_add_left 1 29, rfl⟩, List.pairwise_singleton _ _, by simp⟩,
      .goes (.inl rfl) ⟨rfl, rfl, Nat.le_add_left 1 29, by simp, List.forall_mem_singleton.2 rfl,
        fun _ => ⟨rfl, List.forall_mem_singleton.2 rfl⟩, rfl⟩, False.elim⟩

/-- A stream begins without a watch. -/
theorem watch_opened (left : Bool) (order : StartedOrder) (period pollInterval : Nat)
    (format : Stream.Format) : (opened left order period pollInterval format).watch = none := by
  cases left <;> cases format <;> rfl

/-- A stream begins with the first question, or is over. -/
theorem phase_opened (left : Bool) (order : StartedOrder) (period pollInterval : Nat)
    (format : Stream.Format) :
    (opened left order period pollInterval format).phase = .starting ∨
      (opened left order period pollInterval format).phase = .over := by
  cases left with
  | true => exact .inr rfl
  | false => cases format <;> exact .inl rfl

/-- A longer history has ended alone if it had before or does so with its last step. -/
theorem endedAlone_snoc {tr : Transition OrderStream Event String} :
    EndedAlone (h ++ [tr]) ↔ EndedAlone h ∨ EndsAlone tr.before tr.event tr.after := by
  simp [EndedAlone, or_and_right, exists_or]

/-- **Every run is accounted for.** -/
theorem accounts_of_runs (run : Runs t₀ (opened left order period pollInterval format) h now s) :
    ∃ xs, pushed (opened left order period pollInterval format) h = chunks order format 0 xs ∧
      Accounts order format (delivered h) (EndedAlone h) xs s := by
  induction run with
  | start =>
    obtain ⟨xs, hbody, haccounts⟩ := accounts_opened left order period pollInterval format
    refine ⟨xs, ?_, haccounts.grammatical, haccounts.stands, ?_⟩
    · rw [pushed, List.flatMap_nil, List.append_nil, hbody]
    · rintro ⟨tr, htr, -⟩
      cases htr
  | @next h t now s s' e effects run _ _ hm ih =>
    obtain ⟨xs, hpushed, haccounts⟩ := ih
    obtain ⟨s'', hstep, heq⟩ := Option.map_eq_some_iff.1 hm
    obtain ⟨rfl, rfl⟩ := Prod.mk.inj heq
    obtain ⟨new, hadded, hnew⟩ := proceeds_of_does haccounts (does_of_step hstep)
    refine ⟨xs ++ new, ?_, ?_⟩
    · rw [chunks_append, ← hpushed, Nat.zero_add, ← hadded, pushed, pushed, List.flatMap_append,
        List.append_assoc, List.flatMap_singleton]
    · rw [delivered_snoc, endedAlone_snoc]
      exact hnew

end

end OrderBroker.Http.OrderStream
