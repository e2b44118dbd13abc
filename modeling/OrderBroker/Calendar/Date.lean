import OrderBroker.Text.Blank

/-!
# Calendar dates

Dates of the proleptic Gregorian calendar and their text. A pattern says how a date is written: its
numbers, the letters between them and the places where blanks are allowed. Blanks may stand before
every number in any case. A year has at most four digits, or any number of them after a sign; month
and day have one or two.
-/

namespace OrderBroker

/-- Whether a year has a 29th of February. -/
def isLeapYear (y : Int) : Bool := y % 4 = 0 ∧ (y % 100 ≠ 0 ∨ y % 400 = 0)

/-- The number of days of a month; none for a number that is no month. -/
def daysInMonth (y : Int) (m : Nat) : Nat :=
  if m = 2 then (if isLeapYear y then 29 else 28)
  else if m = 4 ∨ m = 6 ∨ m = 9 ∨ m = 11 then 30
  else if 1 ≤ m ∧ m ≤ 12 then 31
  else 0

/-- A date of the calendar, within the years that it covers. -/
structure Date where
  year : Int
  month : Nat
  day : Nat
  year_bounds : -262143 ≤ year ∧ year ≤ 262142
  day_bounds : 1 ≤ day ∧ day ≤ daysInMonth year month
  deriving DecidableEq, Repr

namespace Date

/-- The date with these numbers, if there is one. -/
def of? (year : Int) (month day : Nat) : Option Date :=
  if hy : -262143 ≤ year ∧ year ≤ 262142 then
    if hd : 1 ≤ day ∧ day ≤ daysInMonth year month then some ⟨year, month, day, hy, hd⟩ else none
  else none

/-! ## Writing -/

/-- A number with zeros in front up to a width. -/
def padded (width n : Nat) : List Char :=
  let ds := Nat.toDigits 10 n
  List.replicate (width - ds.length) '0' ++ ds

/-- Years from 0 to 9999 have four digits, all others a sign and at least four digits. -/
def yearText (y : Int) : List Char :=
  if 0 ≤ y ∧ y ≤ 9999 then padded 4 y.toNat
  else (if y < 0 then '-' else '+') :: padded 4 y.natAbs

/-- Year, month and day between hyphens. -/
def text (d : Date) : String :=
  String.ofList (yearText d.year ++ '-' :: padded 2 d.month ++ '-' :: padded 2 d.day)

/-! ## Reading -/

/-- A part of a pattern. -/
inductive Part where
  | year
  | month
  | day
  | letter (c : Char)
  /-- Any number of blanks. -/
  | blanks

/-- The digits at the front, at most `width` of them, as a number, and what follows. -/
def takeNumber (width : Nat) (cs : List Char) : Option (Nat × List Char) :=
  let ds := (cs.take width).takeWhile Char.isDigit
  if ds.isEmpty then none
  else some (ds.foldl (fun n c => n * 10 + (c.toNat - 48)) 0, cs.drop ds.length)

/-- A year: up to four digits, or a sign and any number of digits. -/
def takeYear (cs : List Char) : Option (Int × List Char) :=
  match cs with
  | '-' :: rest => (takeNumber rest.length rest).map fun (n, rest) => (-n, rest)
  | '+' :: rest => (takeNumber rest.length rest).map fun (n, rest) => (n, rest)
  | _ => (takeNumber 4 cs).map fun (n, rest) => (n, rest)

/-- The numbers read so far. -/
structure Numbers where
  year : Int := 0
  month : Nat := 0
  day : Nat := 0

/-- Reads the whole text by the parts of a pattern. -/
def readParts (n : Numbers) : List Part → List Char → Option Numbers
  | [], [] => some n
  | [], _ :: _ => none
  | .blanks :: parts, cs => readParts n parts (Text.trimStart cs)
  | .letter c :: parts, cs =>
    match cs with
    | d :: rest => if d = c then readParts n parts rest else none
    | [] => none
  | .year :: parts, cs =>
    match takeYear (Text.trimStart cs) with
    | some (y, rest) => readParts { n with year := y } parts rest
    | none => none
  | .month :: parts, cs =>
    match takeNumber 2 (Text.trimStart cs) with
    | some (m, rest) => readParts { n with month := m } parts rest
    | none => none
  | .day :: parts, cs =>
    match takeNumber 2 (Text.trimStart cs) with
    | some (d, rest) => readParts { n with day := d } parts rest
    | none => none

/-- The date that a text gives by a pattern. -/
def parseBy? (parts : List Part) (cs : List Char) : Option Date :=
  (readParts {} parts cs).bind fun n => of? n.year n.month n.day

/-- Year, month and day between hyphens, with blanks after each number. -/
def spaced : List Part :=
  [.year, .blanks, .letter '-', .month, .blanks, .letter '-', .day, .blanks]

/-- Year, month and day between hyphens. -/
def hyphened : List Part := [.year, .letter '-', .month, .letter '-', .day]

/-- Year, month and day without anything between them. -/
def compact : List Part := [.year, .month, .day]

/-- The date of a text in the order's own documents. -/
def parse? (text : String) : Option Date := parseBy? spaced text.toList

end Date

end OrderBroker
