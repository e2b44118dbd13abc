import OrderBroker.Proofs.Text.Utf8
import OrderBroker.Stream.Delivery
import OrderBroker.Stream.Sse

/-!
# Reading server-sent events

The reader takes one byte after the other and remembers a line, an event and whether the last byte
was a CR. What it gives is what the whole input says (`eventsIn`): the input is cut into lines, the
lines into groups that an empty line ends, and every group is an event whose fields are the values
of their lines. So neither the cuts between reads nor the kind of line end matter, nor how the input
ends (`read_eq_eventsIn`).

The proof goes through `Sse.parse`, which takes the lines of the whole input into events one after
the other: first the reader is compared with it byte by byte (`bytes_found`), then its events are
gathered field by field (`eventsOf_eq`).
-/

namespace OrderBroker.Stream

/-- A consumer that takes everything from the start loses nothing. -/
theorem deliver_zero {α : Type} (items : List α) : deliver 0 items = items := by
  suffices H : ∀ now free, deliverFrom 0 now free items = items from H 0 deliverySlots
  induction items with
  | nil => intros; rfl
  | cons item rest ih =>
    intro now free
    unfold deliverFrom
    rw [if_pos (Nat.zero_le now), ih]

namespace Sse

/-! ## What a whole input says -/

/-- The name and the value that a line gives: what is before its first colon, and what is after it
without the blanks at its ends. The name has at least two bytes, and no line that starts with `#`
gives any. -/
def fieldOf? (line : String) : Option (String × String) :=
  let name := line.toList.takeWhile (· ≠ ':')
  if ':' ∈ line.toList ∧ 2 ≤ (String.ofList name).utf8ByteSize ∧ line.toList.head? ≠ some '#' then
    some (String.ofList name, String.ofList (Text.trimChars (line.toList.drop (name.length + 1))))
  else none

/-- The values that lines give to a field. -/
def valuesOf (name : String) (lines : List String) : List String :=
  ((lines.filterMap fieldOf?).filter (·.1 = name)).map (·.2)

/-- Values in lines of their own, without those in front that are empty. -/
def joined (values : List String) : String :=
  String.intercalate "\n" (values.dropWhile (· = ""))

/-- The event that lines make. -/
def eventOf (lines : List String) : Event :=
  { id := joined (valuesOf "id" lines)
    event :=
      if joined (valuesOf "event" lines) = "" then defaultEvent
      else joined (valuesOf "event" lines)
    data := joined (valuesOf "data" lines)
    retry := joined (valuesOf "retry" lines) }

/-- The lines of an input that a line end follows, as texts. -/
def linesIn (input : List UInt8) : List String := (terminatedLines [] input).map Text.lossy

/-- The events of a whole input: one for every empty line, made of the lines before it. The lines
after the last empty one make none. -/
def eventsIn (input : List UInt8) : List Event :=
  ((linesIn input).splitOn "").dropLast.map eventOf

/-! ## From bytes to lines -/

namespace Reader

/-- A reader has ended its line where it has just seen a CR. -/
def Apart (r : Reader) : Prop := r.afterCr = true → r.line = []

/-- The lines that a reader will end in the rest of an input. -/
def linesAhead (r : Reader) (input : List UInt8) : List (List UInt8) :=
  if r.afterCr = true ∧ input.head? = some 0x0A then terminatedLines r.line input.tail
  else terminatedLines r.line input

section
variable {r : Reader} {b : UInt8} {rest : List UInt8}

theorem linesAhead_of_not_afterCr (h : r.afterCr = false) (input : List UInt8) :
    r.linesAhead input = terminatedLines r.line input :=
  if_neg (by simp [h])

theorem linesAhead_of_ne_lf (h : b ≠ 0x0A) :
    r.linesAhead (b :: rest) = terminatedLines r.line (b :: rest) :=
  if_neg (by simp [h])

/-- The lines that follow a CR. -/
theorem terminatedLines_cr (line rest : List UInt8) (event : Event) :
    terminatedLines line (0x0D :: rest) = line.reverse :: linesAhead ⟨true, [], event⟩ rest := by
  by_cases hlf : rest.head? = some 0x0A
  · obtain ⟨rest, rfl⟩ : ∃ rest', rest = 0x0A :: rest' := by
      cases rest with
      | nil => cases hlf
      | cons b rest => exact ⟨rest, by rw [Option.some.inj hlf]⟩
    rw [terminatedLines, linesAhead, if_pos ⟨rfl, hlf⟩, List.tail_cons]
  · rw [linesAhead, if_neg (fun h => hlf h.2), terminatedLines]
    · simp
    · rintro rest' - rfl
      exact hlf rfl

/-- The lines that follow an LF. -/
theorem terminatedLines_lf (line rest : List UInt8) :
    terminatedLines line (0x0A :: rest) = line.reverse :: terminatedLines [] rest := by
  rw [terminatedLines]
  · simp
  · intro rest' hcrlf
    cases hcrlf

/-- Any other byte belongs to the line. -/
theorem terminatedLines_other (hlf : b ≠ 0x0A) (hcr : b ≠ 0x0D) (line rest : List UInt8) :
    terminatedLines line (b :: rest) = terminatedLines (b :: line) rest := by
  rw [terminatedLines]
  · rw [if_neg (by simp [hlf, hcr])]
  · intro rest' hb
    exact absurd hb hcr

/-- The events that a reader finds in the rest of an input are those of the lines that it ends
there. -/
theorem bytes_found (hr : r.Apart) (found : List Event) (input : List UInt8) :
    (r.bytes found input).2 =
      (eventsOf r.event ((r.linesAhead input).map Text.lossy)).reverse ++ found := by
  induction input generalizing r found with
  | nil => cases r with | mk afterCr line event => cases afterCr <;> rfl
  | cons b rest ih =>
    rw [bytes, byte]
    by_cases hlf : b = 0x0A
    · subst hlf
      by_cases hcr : r.afterCr = true
      · -- The LF of a CRLF.
        have hline := hr hcr
        have hahead : r.linesAhead (0x0A :: rest) = terminatedLines r.line rest := by
          simp [linesAhead, hcr]
        rw [if_pos rfl, if_pos hcr, hahead]
        rw [ih (r := { r with afterCr := false }) (fun h => nomatch h),
          linesAhead_of_not_afterCr rfl]
      · have hcr : r.afterCr = false := Bool.eq_false_iff.2 hcr
        rw [if_pos rfl, if_neg (by simp [hcr]), linesAhead_of_not_afterCr hcr, terminatedLines_lf,
          List.map_cons, eventsOf, endLine]
        have hnext := fun event => ih (r := ⟨false, [], event⟩) (fun h => nomatch h)
        simp only [linesAhead_of_not_afterCr] at hnext
        generalize takeLine r.event (Text.lossy r.line.reverse) = taken
        obtain ⟨event, done⟩ := taken
        cases done with
        | none => exact hnext event found
        | some e => simp [hnext]
    · rw [if_neg hlf, linesAhead_of_ne_lf hlf]
      by_cases hcr : b = 0x0D
      · subst hcr
        rw [if_pos rfl, terminatedLines_cr _ _ (takeLine r.event (Text.lossy r.line.reverse)).1,
          List.map_cons, eventsOf, endLine]
        have hnext := fun event => ih (r := ⟨true, [], event⟩) (fun _ => rfl)
        generalize takeLine r.event (Text.lossy r.line.reverse) = taken
        obtain ⟨event, done⟩ := taken
        cases done with
        | none => exact hnext event found
        | some e => simp [hnext]
      · rw [if_neg hcr, terminatedLines_other hlf hcr]
        rw [ih (r := { r with afterCr := false, line := b :: r.line }) (fun h => nomatch h),
          linesAhead_of_not_afterCr rfl]

/-- Two reads are as good as one. -/
theorem bytes_append (r : Reader) (found : List Event) (a b : List UInt8) :
    r.bytes found (a ++ b) = (r.bytes found a).1.bytes (r.bytes found a).2 b := by
  induction a generalizing r found with
  | nil => rfl
  | cons x a ih =>
    rw [List.cons_append, bytes, bytes]
    generalize r.byte x = step
    obtain ⟨r', done⟩ := step
    cases done <;> exact ih ..

/-- The reads of an input are as good as one of the whole input. -/
theorem chunks_eq (failed : Bool) (r : Reader) (found : List Event) (reads : List (List UInt8)) :
    r.chunks failed found reads =
      ((r.bytes found reads.flatten).1.finish failed (r.bytes found reads.flatten).2).reverse := by
  induction reads generalizing r found with
  | nil => rfl
  | cons c rest ih =>
    rw [chunks, List.flatten_cons, bytes_append]
    exact ih ..

end

end Reader

/-! ## From lines to fields -/

section
variable {e : Event} {seen : List String} {name value : String}

/-- A line is read to its first colon. -/
theorem takeWhile_colon {name : List Char} (hname : ':' ∉ name) (rest : List Char) :
    (name ++ rest).takeWhile (· ≠ ':') = name ++ rest.takeWhile (· ≠ ':') := by
  refine List.takeWhile_append_of_pos fun c hc => ?_
  have hne : c ≠ ':' := fun heq => hname (heq ▸ hc)
  simpa using hne

/-- A line that is not empty gives a field or is ignored. -/
theorem Line.parse_eq (line : String) :
    Line.parse line = if line = "" then .endOfEvent else
      match fieldOf? line with
      | some (name, value) => .field name value
      | none => .ignored := by
  rw [Line.parse, fieldOf?]
  by_cases hcolon : ':' ∈ line.toList
  · obtain ⟨name, value, hline, hname⟩ := List.eq_append_cons_of_mem hcolon
    have hne : line ≠ "" := by
      rintro rfl
      cases hcolon
    have htake : line.toList.takeWhile (· ≠ ':') = name := by
      rw [hline, takeWhile_colon hname]
      simp
    have hdrop : line.toList.drop name.length = ':' :: value := by simp [hline]
    have hdrop' : line.toList.drop (name.length + 1) = value := by simp [hline]
    simp only [htake, hdrop, hdrop', if_neg hne]
    by_cases hshort : (String.ofList name).utf8ByteSize ≤ 1
    · rw [if_pos (.inl hshort), if_neg (by omega)]
    · by_cases hhash : line.toList.head? = some '#'
      · rw [if_pos (.inr hhash), if_neg (by simp [hhash])]
      · rw [if_neg (by simp [hshort, hhash]), if_pos ⟨hcolon, by omega, hhash⟩]
  · have htake : line.toList.takeWhile (· ≠ ':') = line.toList := by
      simpa using takeWhile_colon hcolon []
    simp only [htake, List.drop_length]
    simp [hcolon]

/-- A line of text is taken into the event, if it gives a field. -/
theorem takeLine_of_ne (e : Event) {line : String} (hline : line ≠ "") :
    takeLine e line =
      (match fieldOf? line with
        | some (name, value) => Event.add e name value
        | none => e, none) := by
  rw [takeLine, Line.parse_eq, if_neg hline]
  cases fieldOf? line <;> rfl

/-- The fields that lines make, before an event without a name is given one. -/
def fieldsOf (lines : List String) : Event :=
  { id := joined (valuesOf "id" lines)
    event := joined (valuesOf "event" lines)
    data := joined (valuesOf "data" lines)
    retry := joined (valuesOf "retry" lines) }

theorem finish_fieldsOf (lines : List String) : Event.finish (fieldsOf lines) = eventOf lines := by
  rw [Event.finish, fieldsOf, eventOf]
  split <;> rfl

/-- One more value is appended. -/
theorem joined_concat (values : List String) (v : String) :
    joined (values ++ [v]) = append (joined values) v := by
  rw [joined, joined, List.dropWhile_append]
  cases hkept : values.dropWhile (· = "") with
  | nil => by_cases hv : v = "" <;> simp [append, hv]
  | cons first rest =>
    have hfirst : first ≠ "" := by
      have := List.head?_dropWhile_not (· = "") values
      simpa [hkept] using this
    have hjoined : String.intercalate "\n" (first :: rest) ≠ "" := by
      rw [Ne, ← String.toList_inj]
      cases rest <;> simp [hfirst]
    rw [append, if_neg hjoined, if_neg (by simp),
      String.intercalate_append_of_ne_nil (by simp) (by simp), String.intercalate_singleton]

/-- A line that gives no field adds no value. -/
theorem valuesOf_concat_none (lines : List String) {line : String} (hline : fieldOf? line = none)
    (name : String) : valuesOf name (lines ++ [line]) = valuesOf name lines := by
  simp [valuesOf, hline]

/-- A line that gives a field adds its value to this one. -/
theorem valuesOf_concat_some (lines : List String) {line : String}
    (hline : fieldOf? line = some (name, value)) (name' : String) :
    valuesOf name' (lines ++ [line]) =
      if name = name' then valuesOf name' lines ++ [value] else valuesOf name' lines := by
  by_cases heq : name = name' <;> simp [valuesOf, hline, heq]

/-- One more line is taken into the fields. -/
theorem takeLine_fieldsOf (lines : List String) {line : String} (hline : line ≠ "") :
    takeLine (fieldsOf lines) line = (fieldsOf (lines ++ [line]), none) := by
  rw [takeLine_of_ne _ hline]
  cases hfield : fieldOf? line with
  | none => simp only [fieldsOf, valuesOf_concat_none lines hfield]
  | some field =>
    obtain ⟨name, value⟩ := field
    simp only [fieldsOf, valuesOf_concat_some lines hfield, Event.add]
    by_cases hevent : name = "event"
    · subst hevent
      simp [joined_concat]
    · by_cases hdata : name = "data"
      · subst hdata
        simp [joined_concat]
      · by_cases hid : name = "id"
        · subst hid
          simp [joined_concat]
        · by_cases hretry : name = "retry"
          · subst hretry
            simp [joined_concat]
          · simp [hevent, hdata, hid, hretry]

/-- The events of lines are those of the groups that empty lines end. The lines of the first group
that are already seen are not empty. -/
theorem eventsOf_fieldsOf (seen lines : List String) (hseen : "" ∉ seen) :
    eventsOf (fieldsOf seen) lines = ((seen ++ lines).splitOn "").dropLast.map eventOf := by
  induction lines generalizing seen with
  | nil =>
    rw [List.append_nil, List.splitOn_eq_singleton hseen]
    rfl
  | cons line rest ih =>
    rw [eventsOf]
    by_cases hline : line = ""
    · subst hline
      have htaken : takeLine (fieldsOf seen) "" = (fieldsOf [], some (eventOf seen)) := by
        rw [takeLine, Line.parse_eq, if_pos rfl, finish_fieldsOf]
        rfl
      rw [htaken, List.splitOn_append_cons_self_of_not_mem hseen,
        List.dropLast_cons_of_ne_nil (List.splitOn_ne_nil _ _), List.map_cons]
      exact congrArg _ (ih [] (by simp))
    · rw [takeLine_fieldsOf seen hline, List.append_cons seen line rest]
      exact ih (seen ++ [line]) (by simp [hseen, Ne.symm hline])

/-- The events of lines are those of the groups that empty lines end. -/
theorem eventsOf_eq (lines : List String) :
    eventsOf {} lines = (lines.splitOn "").dropLast.map eventOf :=
  eventsOf_fieldsOf [] lines (by simp)

end

/-! ## The end of the input -/

/-- A line that the end of the input cuts short ends no event. -/
theorem Reader.finish_eq (failed : Bool) (r : Reader) (found : List Event) :
    r.finish failed found = found := by
  rw [Reader.finish]
  by_cases hnone : failed ∨ r.line = []
  · rw [if_pos hnone]
  · have hline : Text.lossy r.line.reverse ≠ "" := by
      refine Text.lossy_ne_empty fun hnil => hnone (.inr ?_)
      simpa using hnil
    rw [if_neg hnone, Reader.endLine, takeLine_of_ne _ hline]

/-- What is read in pieces is what is read at once. -/
theorem read_eq_parse (reads : List (List UInt8)) (failed : Bool) :
    read reads failed = parse reads.flatten := by
  rw [read, Reader.chunks_eq, Reader.finish_eq,
    Reader.bytes_found (r := {}) (fun _ => rfl), List.append_nil, List.reverse_reverse, parse,
    Reader.linesAhead_of_not_afterCr rfl]

/-- The reading of a whole input, line by line, is what it says. -/
theorem parse_eq_eventsIn (input : List UInt8) : parse input = eventsIn input := by
  rw [parse, eventsOf_eq, eventsIn, linesIn]

/-! ## Line ends -/

/-- The bytes of an input whose line ends are LF, with this line end in the place of each. -/
def withLineEnd (lineEnd input : List UInt8) : List UInt8 :=
  input.flatMap fun b => if b = 0x0A then lineEnd else [b]

/-- An input has the same lines whether they end with LF, CR or CRLF. -/
theorem terminatedLines_withLineEnd {lineEnd input : List UInt8} (hcr : 0x0D ∉ input)
    (hend : lineEnd = [0x0D] ∨ lineEnd = [0x0D, 0x0A]) (line : List UInt8) :
    terminatedLines line (withLineEnd lineEnd input) = terminatedLines line input := by
  induction input generalizing line with
  | nil => rfl
  | cons b rest ih =>
    obtain ⟨hb, hrest⟩ : b ≠ 0x0D ∧ 0x0D ∉ rest := by simpa [eq_comm] using hcr
    by_cases hlf : b = 0x0A
    · subst hlf
      have hcons : withLineEnd lineEnd (0x0A :: rest) = lineEnd ++ withLineEnd lineEnd rest := rfl
      rw [hcons, Reader.terminatedLines_lf, ← ih hrest]
      rcases hend with rfl | rfl
      · -- No LF follows, which would belong to the CR.
        have hhead : (withLineEnd [0x0D] rest).head? ≠ some 0x0A := by
          cases rest with
          | nil => simp [withLineEnd]
          | cons b' rest' => by_cases hlf : b' = 0x0A <;> simp [withLineEnd, hlf]
        rw [List.singleton_append, Reader.terminatedLines_cr line _ {}, Reader.linesAhead,
          if_neg fun h => hhead h.2]
      · rw [List.cons_append, List.singleton_append, terminatedLines]
    · have hcons : withLineEnd lineEnd (b :: rest) = b :: withLineEnd lineEnd rest := by
        rw [withLineEnd, List.flatMap_cons, if_neg hlf, List.singleton_append, withLineEnd]
      rw [hcons, Reader.terminatedLines_other hlf hb, Reader.terminatedLines_other hlf hb, ih hrest]

/-- **The reader gives what the whole input says.** However an input is cut into reads, and whether
it ends properly or with an error, a consumer that keeps up is given the events of the whole input.
So two inputs that differ only in their cuts or in how they end give the same events, and so do two
that differ only in their line ends. -/
theorem read_eq_eventsIn (reads : List (List UInt8)) (failed : Bool) :
    deliver 0 (read reads failed) = eventsIn reads.flatten ∧
      (∀ reads' failed', reads'.flatten = reads.flatten →
        deliver 0 (read reads' failed') = deliver 0 (read reads failed)) ∧
      (0x0D ∉ reads.flatten → ∀ lineEnd reads' failed',
        lineEnd = [0x0D] ∨ lineEnd = [0x0D, 0x0A] →
        reads'.flatten = withLineEnd lineEnd reads.flatten →
        deliver 0 (read reads' failed') = deliver 0 (read reads failed)) := by
  have hread (reads : List (List UInt8)) (failed : Bool) :
      deliver 0 (read reads failed) = eventsIn reads.flatten := by
    rw [deliver_zero, read_eq_parse, parse_eq_eventsIn]
  refine ⟨hread reads failed, fun reads' failed' heq => ?_,
    fun hcr lineEnd reads' failed' hend heq => ?_⟩
  · rw [hread, hread, heq]
  · rw [hread, hread, heq, eventsIn, eventsIn, linesIn, linesIn,
      terminatedLines_withLineEnd hcr hend]

/-- A character that is cut in two, with its line ends as CRLF, each cut in two, and an error at the
end: it is read as it is at once, with LF and with a proper end. -/
theorem cut_event_read_alike :
    0x0D ∉ [[0x64, 0x61, 0x74, 0x61, 0x3A, 0xC3, 0xA5, 0x0A, 0x0A]].flatten ∧
      deliver 0 (read [[0x64, 0x61, 0x74, 0x61, 0x3A, 0xC3], [0xA5, 0x0D], [0x0A, 0x0D], [0x0A]]
        true) = deliver 0 (read [[0x64, 0x61, 0x74, 0x61, 0x3A, 0xC3, 0xA5, 0x0A, 0x0A]]) ∧
      deliver 0 (read [[0x64, 0x61, 0x74, 0x61, 0x3A, 0xC3, 0xA5, 0x0A, 0x0A]]) =
        [{ event := "message", data := "å" }] :=
  ⟨by decide, (read_eq_eventsIn _ false).2.2 (by decide) [0x0D, 0x0A] _ true (.inr rfl) rfl,
    by decide +kernel⟩

end Sse

end OrderBroker.Stream
