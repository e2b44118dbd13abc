import OrderBroker.Net.IpAddress
import OrderBroker.Proofs.Text.Digits
import Mathlib.Tactic.Set

/-!
# IP addresses are read back

The text of an address gives the address, for every address of either family (`parse?_text`).

The fields of an address hold no separator, so that they are found again between separators
(`splitOn_joinWith`). In an IPv6 address the run that is left out is one of zeros
(`longestRun_isRun`) and leaves a `::` that is the only one (`cutGap_groupsText`), so that the
groups before and after it are those that were written, and zeros fill up what is missing.
-/

namespace OrderBroker.IpAddress

/-! ## Fields between separators -/

theorem joinWith_eq (sep : Char) (parts : List (List Char)) :
    joinWith sep parts = [sep].intercalate parts := by
  induction parts with
  | nil => rfl
  | cons part rest ih =>
    cases rest with
    | nil => simp [joinWith]
    | cons part' rest =>
      rw [joinWith, ih, List.intercalate_cons_cons, List.append_assoc, List.singleton_append]
      simp

/-- Parts with a separator between them are found again, if none holds it. -/
theorem splitOn_joinWith {sep : Char} {parts : List (List Char)} (hne : parts ≠ [])
    (hparts : ∀ part ∈ parts, sep ∉ part) : (joinWith sep parts).splitOn sep = parts := by
  rw [joinWith_eq, List.splitOn_intercalate sep hparts hne]

/-! ## Numbers -/

section
variable {n : Nat} {c : Char}

/-- The digits of a number are read as the number. -/
theorem number?_toDigits {base : Nat} (hbase : base = 10 ∨ base = 16) (n : Nat) :
    number? base (base.toDigits n) = some n := by
  refine Text.foldlM_toDigits (by omega) ?_ n
  rcases hbase with rfl | rfl <;> decide

/-! ## IPv4 -/

/-- The text of an octet is read as the octet. -/
theorem octet?_octetText (b : UInt8) : octet? (octetText b) = some b := by
  have hb := b.toNat_lt
  have hlength : ¬ ((octetText b).isEmpty ∨ 3 < (octetText b).length) := by
    have hle := (Nat.length_toDigits_le_iff (b := 10) (n := b.toNat) (k := 3) (by omega)
      (by omega)).2 (by omega)
    simpa [octetText] using hle
  have hhead : ¬ ((octetText b).head? = some '0' ∧ 1 < (octetText b).length) := by
    rintro ⟨hzero, hlong⟩
    have := Text.length_toDigits_of_head? (by omega) (by omega) hzero
    rw [octetText] at hlong
    omega
  have hnumber : number? 10 (octetText b) = some b.toNat := number?_toDigits (.inl rfl) _
  rw [octet?, if_neg hlength, if_neg hhead]
  simp only [hnumber, Option.bind_eq_bind, Option.bind_some]
  rw [if_pos (by omega), UInt8.ofNat_toNat]

/-- Four octets are read back. -/
theorem quad?_quadText (a b c d : UInt8) : quad? (quadText a b c d) = some (a, b, c, d) := by
  have hparts : (quadText a b c d).splitOn '.' =
      [octetText a, octetText b, octetText c, octetText d] := by
    refine splitOn_joinWith (by simp) ?_
    simp [octetText, Text.not_mem_toDigits]
  simp [quad?, hparts, octet?_octetText]

/-- A text without points is no IPv4 address. -/
theorem quad?_eq_none {cs : List Char} (hcs : '.' ∉ cs) : quad? cs = none := by
  rw [quad?, List.splitOn_eq_singleton hcs]

/-! ## Groups of an IPv6 address -/

/-- The text of a group is read as the group. -/
theorem group?_groupText (g : UInt16) : group? (groupText g) = some g := by
  have hg := g.toNat_lt
  have hlength : ¬ ((groupText g).isEmpty ∨ 4 < (groupText g).length) := by
    have hle := (Nat.length_toDigits_le_iff (b := 16) (n := g.toNat) (k := 4) (by omega)
      (by omega)).2 (by omega)
    simpa [groupText] using hle
  have hnumber : number? 16 (groupText g) = some g.toNat := number?_toDigits (.inr rfl) _
  rw [group?, if_neg hlength]
  simp [hnumber]

theorem not_mem_groupText (g : UInt16) : '.' ∉ groupText g ∧ ':' ∉ groupText g :=
  Text.not_mem_toDigits (.inr rfl) _

/-- Groups up to a gap are read back. -/
theorem headGroups?_map (gs : List UInt16) : headGroups? (gs.map groupText) = some gs := by
  rw [headGroups?]
  induction gs with
  | nil => rfl
  | cons g gs ih => simp [group?_groupText, ih]

/-- Groups at the end are read back. -/
theorem tailGroups?_map (gs : List UInt16) : tailGroups? (gs.map groupText) = some gs := by
  induction gs with
  | nil => rfl
  | cons g gs ih =>
    cases gs with
    | nil => simp [tailGroups?, quad?_eq_none (not_mem_groupText g).1, group?_groupText]
    | cons g' gs =>
      simp only [List.map_cons] at ih
      simp [tailGroups?, group?_groupText, ih]

/-- The fields of groups are their texts. -/
theorem splitOn_groupsText {gs : List UInt16} (hgs : gs ≠ []) :
    (groupsText gs).splitOn ':' = gs.map groupText := by
  refine splitOn_joinWith (by simpa using hgs) ?_
  intro part hpart
  obtain ⟨g, -, rfl⟩ := List.mem_map.1 hpart
  exact (not_mem_groupText g).2

/-- The text of a group comes first in that of groups that it is the first of. -/
theorem groupsText_cons (g : UInt16) (gs : List UInt16) :
    groupsText (g :: gs) =
      groupText g ++ if gs = [] then [] else ':' :: groupsText gs := by
  cases gs with
  | nil => simp [groupsText, joinWith]
  | cons g' gs => rfl

theorem fieldsOf_groupsText (gs : List UInt16) : fieldsOf (groupsText gs) = gs.map groupText := by
  rw [fieldsOf]
  cases gs with
  | nil => rfl
  | cons g gs =>
    have hne : groupsText (g :: gs) ≠ [] := by
      rw [groupsText_cons]
      simp [groupText]
    rw [if_neg (by simpa using hne), splitOn_groupsText (by simp)]

/-- No point is in the text of groups. -/
theorem point_not_mem_groupsText (gs : List UInt16) : '.' ∉ groupsText gs := by
  induction gs with
  | nil => simp [groupsText, joinWith]
  | cons g gs ih =>
    rw [groupsText_cons]
    have hg := (not_mem_groupText g).1
    split <;> simp [hg, ih]

/-! ## The gap -/

/-- Colons are looked for behind a text without any. -/
theorem cutGap_skip {part : List Char} (hpart : ':' ∉ part) (seen rest : List Char) :
    cutGap seen (part ++ rest) = cutGap (part.reverse ++ seen) rest := by
  induction part generalizing seen with
  | nil => rfl
  | cons c part ih =>
    obtain ⟨hc, hpart⟩ : ¬ ':' = c ∧ ':' ∉ part := by simpa using hpart
    rw [List.cons_append, cutGap, ih hpart]
    · simp
    · rintro _ rfl
      exact absurd rfl hc

/-- A single colon is passed. -/
theorem cutGap_colon (seen rest : List Char) (hrest : rest.head? ≠ some ':') :
    cutGap seen (':' :: rest) = cutGap (':' :: seen) rest := by
  rw [cutGap]
  rintro _ - rfl
  exact hrest rfl

/-- The first character of groups is no colon. -/
theorem head?_groupsText (gs : List UInt16) (hgs : gs ≠ []) (rest : List Char) :
    (groupsText gs ++ rest).head? ≠ some ':' := by
  cases gs with
  | nil => exact absurd rfl hgs
  | cons g gs =>
    rw [groupsText_cons]
    have hg := (not_mem_groupText g).2
    cases htext : groupText g with
    | nil => exact absurd htext Nat.toDigits_ne_nil
    | cons c cs =>
      rw [htext] at hg
      intro h
      exact hg (by simpa using Or.inl (Option.some.inj h).symm)

/-- The colons between groups are no gap, so that what follows them decides. -/
theorem cutGap_groupsText (gs : List UInt16) (seen rest : List Char) :
    cutGap seen (groupsText gs ++ rest) = cutGap ((groupsText gs).reverse ++ seen) rest := by
  induction gs generalizing seen with
  | nil => rfl
  | cons g gs ih =>
    rw [groupsText_cons, List.append_assoc, cutGap_skip (not_mem_groupText g).2]
    split
    · simp
    · rename_i hgs
      rw [List.cons_append, cutGap_colon _ _ (head?_groupsText gs hgs rest), ih]
      simp

/-! ## The longest run of zeros -/

/-- Zeros of the groups stand there. -/
structure IsRun (groups : List UInt16) (r : Run) : Prop where
  within : r.start + r.length ≤ groups.length
  zero : ∀ i, r.start ≤ i → i < r.start + r.length → groups[i]? = some 0

/-- A zero starts a run or goes on with the run that ends before it. -/
theorem isRun_extended {groups : List UInt16} {current : Run} {n : Nat}
    (hcurrent : IsRun groups current)
    (hend : current.length = 0 ∨ current.start + current.length = n)
    (hzero : groups[n]? = some 0) {next : Run}
    (hnext : next =
      if current.length = 0 then ⟨n, 1⟩ else ⟨current.start, current.length + 1⟩) :
    IsRun groups next ∧ next.start + next.length = n + 1 := by
  obtain ⟨hn, -⟩ := List.getElem?_eq_some_iff.1 hzero
  split at hnext
  · subst hnext
    refine ⟨⟨hn, fun i hlow hhigh => ?_⟩, rfl⟩
    obtain rfl : i = n := Nat.le_antisymm (Nat.le_of_lt_succ hhigh) hlow
    exact hzero
  · next hlong =>
    have hstop := hend.resolve_left hlong
    subst hnext
    refine ⟨⟨?_, fun i hlow hhigh => ?_⟩, ?_⟩
    · show current.start + (current.length + 1) ≤ groups.length
      omega
    · rcases Nat.lt_or_eq_of_le (Nat.le_of_lt_succ hhigh) with hbefore | hlast
      · exact hcurrent.zero i hlow hbefore
      · have hi : i = n := hlast.trans hstop
        rw [hi]
        exact hzero
    · show current.start + (current.length + 1) = n + 1
      omega

/-- What is found is a run: one that was known before, or one that was extended. -/
theorem longestRun_isRun {groups seen rest : List UInt16} {best current : Run}
    (hgroups : groups = seen ++ rest) (hbest : IsRun groups best) (hcurrent : IsRun groups current)
    (hend : current.length = 0 ∨ current.start + current.length = seen.length) :
    IsRun groups (longestRun best current seen.length rest) := by
  induction rest generalizing seen best current with
  | nil => exact hbest
  | cons g rest ih =>
    have hgroups' : groups = (seen ++ [g]) ++ rest := by simp [hgroups]
    have hlength : seen.length + 1 = (seen ++ [g]).length := by simp
    rw [longestRun]
    by_cases hg : g = 0
    · subst hg
      rw [if_pos rfl]
      set next : Run :=
        if current.length = 0 then ⟨seen.length, 1⟩ else ⟨current.start, current.length + 1⟩
        with hnext
      obtain ⟨hrun, hstop⟩ := isRun_extended hcurrent hend (by simp [hgroups]) hnext
      rw [hlength]
      refine ih hgroups' ?_ hrun (.inr (by rw [hstop, hlength]))
      split
      · exact hrun
      · exact hbest
    · rw [if_neg hg, hlength]
      exact ih hgroups' hbest ⟨by simp, fun i hlow hhigh => absurd hhigh (by simp at hlow ⊢)⟩
        (.inl rfl)

/-- Groups are what is before a run, its zeros and what is after it. -/
theorem IsRun.eq_append {groups : List UInt16} {r : Run} (hrun : IsRun groups r) :
    groups = groups.take r.start ++ List.replicate r.length 0 ++
      groups.drop (r.start + r.length) := by
  have hzeros : (groups.drop r.start).take r.length = List.replicate r.length 0 := by
    refine List.ext_getElem? fun i => ?_
    by_cases hi : i < r.length
    · simp [hi, hrun.zero (r.start + i) (by omega) (by omega)]
    · simp [hi]
  rw [← hzeros, List.append_assoc, ← List.drop_drop, List.take_append_drop, List.take_append_drop]

/-! ## IPv6 -/

/-- A group is made of its two bytes. -/
theorem ofNat_bytes (g : UInt16) :
    UInt16.ofNat ((g >>> 8).toUInt8.toNat * 256 + g.toUInt8.toNat) = g := by
  have hg := g.toNat_lt
  rw [← UInt16.toNat_inj]
  simp [Nat.shiftRight_eq_div_pow]
  omega

/-- The bytes of two groups as an IPv4 address fill the two groups. -/
theorem quadGroups_bytes (x y : UInt16) :
    quadGroups ((x >>> 8).toUInt8, x.toUInt8, (y >>> 8).toUInt8, y.toUInt8) = [x, y] := by
  rw [quadGroups, ofNat_bytes, ofNat_bytes]

/-- An IPv4-mapped address is read back. -/
theorem v6?_mapped (x y : UInt16) :
    v6? (v6Text [0, 0, 0, 0, 0, 0xFFFF, x, y]) = ofGroups? [0, 0, 0, 0, 0, 0xFFFF, x, y] := by
  set quad := quadText (x >>> 8).toUInt8 x.toUInt8 (y >>> 8).toUInt8 y.toUInt8 with hquad
  have htext : v6Text [0, 0, 0, 0, 0, 0xFFFF, x, y] =
      ':' :: ':' :: joinWith ':' [['f', 'f', 'f', 'f'], quad] := rfl
  have hcolon : ':' ∉ quad := by
    simp [hquad, quadText, joinWith, octetText, Text.not_mem_toDigits]
  have hparts : fieldsOf (joinWith ':' [['f', 'f', 'f', 'f'], quad]) =
      [['f', 'f', 'f', 'f'], quad] := by
    rw [fieldsOf, if_neg (by simp [joinWith]), splitOn_joinWith (by simp) (by simp [hcolon])]
  have hgroups : tailGroups? [['f', 'f', 'f', 'f'], quad] = some [0xFFFF, x, y] := by
    have hffff : group? ['f', 'f', 'f', 'f'] = some 0xFFFF := by decide
    simp [tailGroups?, hffff, hquad, quad?_quadText, quadGroups_bytes]
  have hcut : cutGap [] (':' :: ':' :: joinWith ':' [['f', 'f', 'f', 'f'], quad]) =
      some ([], joinWith ':' [['f', 'f', 'f', 'f'], quad]) := rfl
  have hnone : fieldsOf [] = [] := rfl
  rw [v6?, htext, hcut]
  simp [hparts, hgroups, headGroups?, hnone]

/-- Groups with a run of zeros left out are read back. -/
theorem v6?_gap {groups : List UInt16} (hlength : groups.length = 8) {r : Run}
    (hrun : IsRun groups r) (hlong : 1 < r.length) :
    v6? (groupsText (groups.take r.start) ++ ':' :: ':' ::
      groupsText (groups.drop (r.start + r.length))) = ofGroups? groups := by
  have hwithin := hrun.within
  have hhead : (groups.take r.start).length = r.start := by
    rw [List.length_take]
    omega
  have htail : (groups.drop (r.start + r.length)).length = 8 - r.start - r.length := by
    rw [List.length_drop]
    omega
  have hfill : 8 - r.start - (8 - r.start - r.length) = r.length := by omega
  rw [v6?, cutGap_groupsText, cutGap]
  simp only [List.append_nil, List.reverse_reverse, fieldsOf_groupsText, headGroups?_map,
    tailGroups?_map, Option.bind_eq_bind, Option.bind_some, hhead, htail]
  rw [if_neg (by omega), hfill, ← hrun.eq_append]

/-- The text of groups is that of an IPv4-mapped address, or it leaves out a run of zeros, or it
shows them all. -/
theorem v6Text_cases (groups : List UInt16) :
    (∃ x y, groups = [0, 0, 0, 0, 0, 0xFFFF, x, y]) ∨
      (∃ r, IsRun groups r ∧ 1 < r.length ∧ v6Text groups =
        groupsText (groups.take r.start) ++ ':' :: ':' ::
          groupsText (groups.drop (r.start + r.length))) ∨
      v6Text groups = groupsText groups := by
  by_cases hmapped : ∃ x y, groups = [0, 0, 0, 0, 0, 0xFFFF, x, y]
  · exact .inl hmapped
  · have hnone : IsRun groups ⟨0, 0⟩ := ⟨by simp, fun i _ hhigh => absurd hhigh (by simp)⟩
    have hrun : IsRun groups (longestRun ⟨0, 0⟩ ⟨0, 0⟩ 0 groups) :=
      @longestRun_isRun groups [] groups _ _ rfl hnone hnone (.inl rfl)
    have htext := v6Text.eq_2 groups fun x y h => hmapped ⟨x, y, h⟩
    by_cases hlong : 1 < (longestRun ⟨0, 0⟩ ⟨0, 0⟩ 0 groups).length
    · exact .inr (.inl ⟨_, hrun, hlong, by simpa only [if_pos hlong] using htext⟩)
    · exact .inr (.inr (by simpa only [if_neg hlong] using htext))

/-- The text of eight groups is read back. -/
theorem v6?_v6Text {groups : List UInt16} (hlength : groups.length = 8) :
    v6? (v6Text groups) = ofGroups? groups := by
  obtain ⟨x, y, rfl⟩ | ⟨r, hrun, hlong, htext⟩ | htext := v6Text_cases groups
  · exact v6?_mapped x y
  · rw [htext, v6?_gap hlength hrun hlong]
  · have hcut : cutGap [] (groupsText groups) = none := by
      have := cutGap_groupsText groups [] []
      rwa [List.append_nil] at this
    have hne : groups ≠ [] := by
      rintro rfl
      simp at hlength
    rw [htext, v6?, hcut]
    simp [splitOn_groupsText hne, tailGroups?_map]

/-- The text of groups is no IPv4 address. -/
theorem quad?_v6Text (groups : List UInt16) : quad? (v6Text groups) = none := by
  obtain ⟨x, y, rfl⟩ | ⟨r, hrun, hlong, htext⟩ | htext := v6Text_cases groups
  · -- What is before the first point is too long for an octet.
    set first := ':' :: ':' :: 'f' :: 'f' :: 'f' :: 'f' :: ':' :: octetText (x >>> 8).toUInt8
      with hfirst
    have htext : v6Text [0, 0, 0, 0, 0, 0xFFFF, x, y] =
        joinWith '.' [first, octetText x.toUInt8, octetText (y >>> 8).toUInt8,
          octetText y.toUInt8] := rfl
    have hparts : (v6Text [0, 0, 0, 0, 0, 0xFFFF, x, y]).splitOn '.' =
        [first, octetText x.toUInt8, octetText (y >>> 8).toUInt8, octetText y.toUInt8] := by
      rw [htext]
      refine splitOn_joinWith (by simp) ?_
      simp [hfirst, octetText, Text.not_mem_toDigits]
    have hlong : octet? first = none := by
      rw [octet?, if_pos (.inr (by simp [hfirst]))]
      rfl
    simp [quad?, hparts, hlong]
  · rw [htext]
    refine quad?_eq_none ?_
    simp [point_not_mem_groupsText]
  · rw [htext]
    exact quad?_eq_none (point_not_mem_groupsText groups)

/-- **An address is read back** from its text. -/
theorem parse?_text (ip : IpAddress) : parse? ip.text = some ip := by
  cases ip with
  | v4 a b c d => simp [parse?, text, quad?_quadText]
  | v6 groups =>
    have hgroups : ofGroups? groups.toList = some (.v6 groups) := by
      have harray : groups.toList.toArray = groups.toArray := by simp [Vector.toList]
      rw [ofGroups?, dif_pos (by simp)]
      simp only [harray]
    simp [parse?, text, quad?_v6Text, v6?_v6Text, hgroups]

end

end OrderBroker.IpAddress
