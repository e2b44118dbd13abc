import OrderBroker.Stream.Ndjson
import Mathlib.Data.List.Basic

/-!
# Reading lines of JSON

The reader takes one byte after the other and remembers a line. What it gives is what the whole
input says (`valuesIn`, `linesIn`): the input is cut at every LF, and of its lines those that are
blank do not count, and none from the first that is no value on. So the cuts between reads do not
matter, and a list of values is read back from the lines that are written for it
(`read_eq_valuesIn`).

The proof goes through `Ndjson.parse`, which takes the lines of the whole input one after the other:
the reader is compared with it byte by byte (`found_of_bytes`), its lines with the parts between the
LFs (`lines_eq`) and its values with those of the lines (`valuesOf_eq`).
-/

namespace OrderBroker.Stream.Ndjson

variable {α : Type} {decode : String → Option α}

/-! ## What a whole input says -/

/-- A line that an LF ends: a CR before the LF does not belong to it. -/
def ended (line : List UInt8) : List UInt8 :=
  if line.getLast? = some 0x0D then line.dropLast else line

/-- The lines of an input: what stands between its LFs, and what comes after the last one, unless
that is nothing or the input ends with an error. -/
def linesIn (input : List UInt8) (failed : Bool) : List (List UInt8) :=
  (input.splitOn 0x0A).dropLast.map ended ++
    (input.splitOn 0x0A).getLast?.toList.filter fun line => !failed && !line.isEmpty

/-- The text of a line, if its bytes are one. -/
def text? (line : List UInt8) : Option String := String.fromUTF8? (ByteArray.mk line.toArray)

/-- The line is a text of blanks. -/
def isBlankLine (line : List UInt8) : Bool := (text? line).any Text.isBlankText

/-- The values of lines, up to the first line that is neither blank nor a value. -/
def valuesIn (decode : String → Option α) (lines : List (List UInt8)) : List α :=
  (((lines.filter (!isBlankLine ·)).map fun line => (text? line).bind decode).takeWhile
    Option.isSome).filterMap id

/-! ## From bytes to lines -/

section
variable {line rest : List UInt8} {failed : Bool}

/-- The CR at the end of a line is dropped, and nothing else. -/
theorem dropCr_eq (line : List UInt8) : dropCr line = ended line := by
  rcases List.eq_nil_or_concat line with rfl | ⟨front, b, rfl⟩
  · rfl
  · rw [List.concat_eq_append, dropCr, ended, List.reverse_append, List.getLast?_concat,
      List.dropLast_concat]
    by_cases hcr : b = 0x0D
    · subst hcr
      simp
    · rw [if_neg (by simpa using hcr)]
      split
      · next heq => simp_all
      · rfl

/-- The lines of the rest of an input are those between its LFs; the first of them has begun. -/
theorem lines_eq (hline : 0x0A ∉ line) (input : List UInt8) :
    lines failed line input = linesIn (line.reverse ++ input) failed := by
  induction input generalizing line with
  | nil =>
    rw [List.append_nil, linesIn, List.splitOn_eq_singleton (by simpa using hline), lines]
    cases failed <;> cases line <;> simp
  | cons b rest ih =>
    rw [lines]
    by_cases hlf : b = 0x0A
    · subst hlf
      have hcut := List.splitOn_append_cons_self_of_not_mem
        (show 0x0A ∉ line.reverse by simpa using hline) rest
      rw [if_pos rfl, ih (by simp), linesIn, linesIn, hcut, dropCr_eq,
        List.dropLast_cons_of_ne_nil (List.splitOn_ne_nil _ _),
        List.getLast?_cons_of_ne_nil (List.splitOn_ne_nil _ _)]
      rfl
    · rw [if_neg hlf, ih (by simp [hline, Ne.symm hlf])]
      simp

end

/-! ## From lines to values -/

/-- What a line gives. -/
theorem takeLine_eq (decode : String → Option α) (line : List UInt8) :
    takeLine decode line =
      if isBlankLine line then .skipped
      else ((text? line).bind decode).elim .malformed .value := by
  rw [takeLine, isBlankLine, text?]
  cases String.fromUTF8? (ByteArray.mk line.toArray) with
  | none => rfl
  | some text =>
    simp only [Option.any_some, Option.bind_some]
    split
    · rfl
    · cases decode text <;> rfl

/-- A blank line is passed over, a value comes before those of the rest, and any other line is the
end. -/
theorem valuesIn_cons (decode : String → Option α) (line : List UInt8)
    (rest : List (List UInt8)) :
    valuesIn decode (line :: rest) =
      if isBlankLine line then valuesIn decode rest
      else ((text? line).bind decode).elim [] (· :: valuesIn decode rest) := by
  cases hblank : isBlankLine line with
  | true => simp [valuesIn, hblank]
  | false => cases hvalue : (text? line).bind decode <;> simp [valuesIn, hblank, hvalue]

/-- The values of lines are those before the first line that is none. -/
theorem valuesOf_eq (decode : String → Option α) (lines : List (List UInt8)) :
    valuesOf decode lines = valuesIn decode lines := by
  induction lines with
  | nil => rfl
  | cons line rest ih =>
    rw [valuesOf, takeLine_eq, valuesIn_cons, ih]
    cases isBlankLine line with
    | true => rfl
    | false => cases (text? line).bind decode <;> rfl

/-! ## The reader -/

namespace Reader

section
variable {r : Reader α} {failed : Bool}

/-- The reader at the end of the input. -/
def atEnd (decode : String → Option α) (failed : Bool) (r : Reader α) : Reader α :=
  if failed then r else r.finish decode

/-- The values that a reader finds in the rest of an input are those of the lines that it ends
there. -/
theorem found_of_bytes (input : List UInt8) :
    ((r.bytes decode input).atEnd decode failed).found =
      (if r.closed then [] else valuesOf decode (lines failed r.line input)).reverse ++
        r.found := by
  induction input generalizing r with
  | nil =>
    cases hclosed : r.closed with
    | true => cases failed <;> simp [bytes, atEnd, finish, hclosed]
    | false =>
      cases failed with
      | true => simp [bytes, atEnd, lines, valuesOf]
      | false =>
        by_cases hline : r.line = []
        · simp [bytes, atEnd, finish, lines, hline, valuesOf]
        · simp only [bytes, List.foldl_nil, atEnd, finish, lines, hclosed, hline, valuesOf, endLine,
            Bool.false_eq_true, or_self, if_false]
          cases takeLine decode r.line.reverse <;> rfl
  | cons b rest ih =>
    rw [bytes, List.foldl_cons, ← bytes, ih]
    cases hclosed : r.closed with
    | true => simp [byte, hclosed]
    | false =>
      by_cases hlf : b = 0x0A
      · simp only [byte, hclosed, hlf, Bool.false_eq_true, if_false, if_true, lines, valuesOf,
          endLine]
        cases takeLine decode (dropCr r.line.reverse) <;> simp
      · simp [byte, hclosed, hlf, lines]

end

end Reader

/-- What is read in pieces is what is read at once. -/
theorem read_eq_parse (decode : String → Option α) (reads : List (List UInt8)) (failed : Bool) :
    read decode reads failed = parse decode reads.flatten failed := by
  have hread : read decode reads failed =
      (((({} : Reader α).bytes decode reads.flatten).atEnd decode failed).found).reverse := by
    rw [Reader.bytes, List.foldl_flatten]
    rfl
  rw [hread, Reader.found_of_bytes]
  simp [parse]

/-- The reading of a whole input, line by line, is what it says. -/
theorem parse_eq_valuesIn (decode : String → Option α) (input : List UInt8) (failed : Bool) :
    parse decode input failed = valuesIn decode (linesIn input failed) := by
  rw [parse, valuesOf_eq, lines_eq (by simp)]
  rfl

/-- The reader gives what the whole input says. -/
theorem read_eq_valuesIn (decode : String → Option α) (reads : List (List UInt8)) (failed : Bool) :
    read decode reads failed = valuesIn decode (linesIn reads.flatten failed) := by
  rw [read_eq_parse, parse_eq_valuesIn]

end OrderBroker.Stream.Ndjson
