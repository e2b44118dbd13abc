import OrderBroker.Text.Natural

/-!
# IP addresses

Addresses of both families and their text. An IPv4 address is four decimal octets without leading
zeros. An IPv6 address is eight hexadecimal groups; one run of groups may be left out as `::`, and
the last two groups may be written as an IPv4 address. The text that is written leaves out the
longest run of at least two zero groups, the first of equals, and shows an IPv4-mapped address with
its dotted quad.
-/

namespace OrderBroker

/-- An IP address: four octets or eight groups. -/
inductive IpAddress where
  | v4 (a b c d : UInt8)
  | v6 (groups : Vector UInt16 8)
  deriving DecidableEq, Repr

namespace IpAddress

/-- The host itself. -/
def loopback : IpAddress := .v4 127 0 0 1

/-! ## Fields between separators -/

/-- The texts with a separator between them. -/
def joinWith (sep : Char) : List (List Char) → List Char
  | [] => []
  | [part] => part
  | part :: parts => part ++ sep :: joinWith sep parts

/-- A digit of base ten or sixteen, the latter of either case. -/
def digit? (base : Nat) (c : Char) : Option Nat := (Text.hexValue? c.toNat).filter (· < base)

/-- The number that the digits make up. -/
def number? (base : Nat) (cs : List Char) : Option Nat :=
  cs.foldlM (fun n c => (digit? base c).map (n * base + ·)) 0

/-! ## IPv4 -/

/-- One to three decimal digits up to 255; a zero stands alone. -/
def octet? (cs : List Char) : Option UInt8 := do
  if cs.isEmpty ∨ 3 < cs.length then none
  if cs.head? = some '0' ∧ 1 < cs.length then none
  let n ← number? 10 cs
  if n ≤ 255 then some (UInt8.ofNat n) else none

/-- Four octets between points. -/
def quad? (cs : List Char) : Option (UInt8 × UInt8 × UInt8 × UInt8) :=
  match cs.splitOn '.' with
  | [a, b, c, d] => do return (← octet? a, ← octet? b, ← octet? c, ← octet? d)
  | _ => none

/-- The text of an octet. -/
def octetText (b : UInt8) : List Char := Nat.toDigits 10 b.toNat

/-- The text of four octets. -/
def quadText (a b c d : UInt8) : List Char :=
  joinWith '.' [octetText a, octetText b, octetText c, octetText d]

/-! ## IPv6 -/

/-- One to four hexadecimal digits. -/
def group? (cs : List Char) : Option UInt16 := do
  if cs.isEmpty ∨ 4 < cs.length then none
  return UInt16.ofNat (← number? 16 cs)

/-- The two groups that an IPv4 address fills. -/
def quadGroups (q : UInt8 × UInt8 × UInt8 × UInt8) : List UInt16 :=
  let (a, b, c, d) := q
  [UInt16.ofNat (a.toNat * 256 + b.toNat), UInt16.ofNat (c.toNat * 256 + d.toNat)]

/-- The groups of the fields up to a `::`, where no IPv4 address may stand. -/
def headGroups? (parts : List (List Char)) : Option (List UInt16) := parts.mapM group?

/-- The groups of the fields at the end, the last of which may be an IPv4 address. -/
def tailGroups? : List (List Char) → Option (List UInt16)
  | [] => some []
  | [last] =>
    match quad? last with
    | some q => some (quadGroups q)
    | none => (group? last).map ([·])
  | part :: rest => do return (← group? part) :: (← tailGroups? rest)

/-- The fields of a part of an address; no text is no field. -/
def fieldsOf (cs : List Char) : List (List Char) := if cs.isEmpty then [] else cs.splitOn ':'

/-- What stands before and after the first `::`; `seen` is what has been passed, the latest
first. -/
def cutGap (seen : List Char) : List Char → Option (List Char × List Char)
  | ':' :: ':' :: rest => some (seen.reverse, rest)
  | c :: rest => cutGap (c :: seen) rest
  | [] => none

/-- The groups as an address, where there are eight. -/
def ofGroups? (groups : List UInt16) : Option IpAddress :=
  if h : groups.toArray.size = 8 then some (.v6 ⟨groups.toArray, h⟩) else none

/-- Reads an IPv6 address. A `::` stands for at least one group. -/
def v6? (cs : List Char) : Option IpAddress :=
  match cutGap [] cs with
  | none => (tailGroups? (cs.splitOn ':')).bind ofGroups?
  | some (front, back) => do
    let head ← headGroups? (fieldsOf front)
    let tail ← tailGroups? (fieldsOf back)
    if 7 < head.length + tail.length then none
    ofGroups? (head ++ List.replicate (8 - head.length - tail.length) 0 ++ tail)

/-- Reads an address of either family. -/
def parse? (text : String) : Option IpAddress :=
  let cs := text.toList
  match quad? cs with
  | some (a, b, c, d) => some (.v4 a b c d)
  | none => v6? cs

/-! ## Writing IPv6 -/

/-- A run of zero groups: where it starts and how long it is. -/
structure Run where
  start : Nat
  length : Nat

/-- The longest run of zeros, the first of equals. `current` is the run that ends just before the
group at `at`. -/
def longestRun (best current : Run) (pos : Nat) : List UInt16 → Run
  | [] => best
  | g :: rest =>
    if g = 0 then
      let current : Run := if current.length = 0 then ⟨pos, 1⟩ else ⟨current.start, current.length + 1⟩
      longestRun (if best.length < current.length then current else best) current (pos + 1) rest
    else longestRun best ⟨0, 0⟩ (pos + 1) rest

/-- The text of a group: hexadecimal without leading zeros. -/
def groupText (g : UInt16) : List Char := Nat.toDigits 16 g.toNat

/-- The texts of groups between colons. -/
def groupsText (groups : List UInt16) : List Char := joinWith ':' (groups.map groupText)

/-- The text of eight groups. -/
def v6Text (groups : List UInt16) : List Char :=
  match groups with
  | [0, 0, 0, 0, 0, 0xFFFF, x, y] =>
    ':' :: ':' :: 'f' :: 'f' :: 'f' :: 'f' :: ':' ::
      quadText (x >>> 8).toUInt8 x.toUInt8 (y >>> 8).toUInt8 y.toUInt8
  | _ =>
    let run := longestRun ⟨0, 0⟩ ⟨0, 0⟩ 0 groups
    if 1 < run.length then
      groupsText (groups.take run.start) ++ ':' :: ':' ::
        groupsText (groups.drop (run.start + run.length))
    else groupsText groups

/-- The text of an address. -/
def text : IpAddress → String
  | .v4 a b c d => String.ofList (quadText a b c d)
  | .v6 groups => String.ofList (v6Text groups.toList)

end IpAddress

end OrderBroker
