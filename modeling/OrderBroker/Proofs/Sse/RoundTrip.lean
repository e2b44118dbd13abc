import OrderBroker.Proofs.Sse.Reading
import OrderBroker.Proofs.Text.Parts

/-!
# Events that are written and read

What is written for events is read as their normal forms, one event for each, whatever their fields
hold: a field is split at its line ends, and every part stands in a line that begins with the
field's own name. So the text of a field can end no event, start none, and belong to no other field
(`read_encode`).

`eventLines` are the lines of an event. The text of an event is these lines and an empty one
(`encode_eq`), its bytes are cut into the same lines (`linesIn_unlines`), and the values that the
lines give are the parts of the fields (`eventOf_eventLines`).
-/

namespace OrderBroker.Stream.Sse

/-! ## Lines -/

section
variable {cs line : List Char} {text name : String} {lines : List String}

/-- The lines of a field: each begins with the field's name. -/
def fieldTexts (name text : String) : List String :=
  (fieldLines text).map fun line => name ++ ": " ++ String.ofList line

/-- The lines of an event. -/
def eventLines (e : Event) : List String :=
  fieldTexts "id" e.id ++ (if e.event = defaultEvent then [] else fieldTexts "event" e.event) ++
    fieldTexts "data" e.data ++ fieldTexts "retry" e.retry

/-- Lines as one text. -/
def unlines (lines : List String) : String := String.join (lines.map (· ++ "\n"))

theorem unlines_append (lines lines' : List String) :
    unlines (lines ++ lines') = unlines lines ++ unlines lines' := by
  simp [unlines, String.join_append]

/-- What is written for a field is its lines. -/
theorem writeField_eq (out name text : String) :
    writeField out name text = out ++ unlines (fieldTexts name text) := by
  rw [writeField, fieldTexts]
  induction fieldLines text generalizing out with
  | nil => simp [unlines]
  | cons line rest ih =>
    rw [List.foldl_cons, ih]
    simp [unlines, String.append_assoc]

/-- What is written for an event is its lines and an empty one. -/
theorem encode_eq (e : Event) : encode e = unlines (eventLines e ++ [""]) := by
  have hlast : unlines [""] = "\n" := rfl
  rw [encode, eventLines]
  by_cases hname : e.event = defaultEvent
  · simp [hname, writeField_eq, unlines_append, hlast, String.append_assoc]
  · simp [hname, writeField_eq, unlines_append, hlast, String.append_assoc]

/-- What is written for events is the lines of all. -/
theorem join_encode (events : List Event) :
    String.join (events.map encode) = unlines (events.flatMap fun e => eventLines e ++ [""]) := by
  induction events with
  | nil => rfl
  | cons e rest ih =>
    rw [List.map_cons, String.join_cons, ih, encode_eq, List.flatMap_cons,
      unlines_append (eventLines e ++ [""])]

/-! ## Reading lines back -/

/-- A text that is one line. -/
def IsLine (line : String) : Prop := ∀ c ∈ line.toList, isLineEnd c = false

/-- The bytes of a line hold no line end. -/
theorem not_lineEnd_of_mem_utf8 {line : String} (hline : IsLine line) {b : UInt8}
    (hb : b ∈ Json.utf8 line) : b ≠ 0x0A ∧ b ≠ 0x0D := by
  rw [Json.utf8_eq, List.mem_flatMap] at hb
  obtain ⟨c, hc, hb⟩ := hb
  have hend := hline c hc
  constructor
  · rintro rfl
    have hval := Text.mem_encodeChar_ascii (b := 0x0A) (by decide) hb
    have : c = '\n' := Char.toNat_inj.1 hval
    simp [isLineEnd, this] at hend
  · rintro rfl
    have hval := Text.mem_encodeChar_ascii (b := 0x0D) (by decide) hb
    have : c = '\r' := Char.toNat_inj.1 hval
    simp [isLineEnd, this] at hend

/-- The bytes of a line are read up to the LF after them. -/
theorem terminatedLines_append {bytes : List UInt8} (hbytes : ∀ b ∈ bytes, b ≠ 0x0A ∧ b ≠ 0x0D)
    (line rest : List UInt8) :
    terminatedLines line (bytes ++ 0x0A :: rest) =
      (line.reverse ++ bytes) :: terminatedLines [] rest := by
  induction bytes generalizing line with
  | nil => simp [Reader.terminatedLines_lf]
  | cons b bytes ih =>
    obtain ⟨hlf, hcr⟩ := hbytes b (.head _)
    rw [List.cons_append, Reader.terminatedLines_other hlf hcr,
      ih fun b hb => hbytes b (.tail _ hb)]
    simp

/-- Lines that are written are read. -/
theorem linesIn_unlines {lines : List String} (hlines : ∀ line ∈ lines, IsLine line) :
    linesIn (Json.utf8 (unlines lines)) = lines := by
  induction lines with
  | nil => rfl
  | cons line rest ih =>
    have hbytes : Json.utf8 (unlines (line :: rest)) =
        Json.utf8 line ++ 0x0A :: Json.utf8 (unlines rest) := by
      have hlf : Json.utf8 "\n" = [0x0A] := by decide
      rw [unlines, List.map_cons, String.join_cons, Json.utf8_append, Json.utf8_append, hlf,
        List.append_assoc, List.singleton_append, unlines]
    have hrest := ih fun line hline => hlines line (.tail _ hline)
    rw [linesIn] at hrest ⊢
    rw [hbytes,
      terminatedLines_append fun b hb => not_lineEnd_of_mem_utf8 (hlines line (.head _)) hb,
      List.map_cons, hrest, List.reverse_nil, List.nil_append, Text.lossy_utf8]

/-- The lines of a field are lines. -/
theorem isLine_of_mem_fieldTexts (hname : IsLine name) {line : String}
    (hline : line ∈ fieldTexts name text) : IsLine line := by
  obtain ⟨part, hpart, rfl⟩ := List.mem_map.1 hline
  have hmem := (List.mem_filter.1 hpart).1
  intro c hc
  simp only [String.toList_append, String.toList_ofList, List.mem_append] at hc
  rcases hc with (hc | hc) | hc
  · exact hname c hc
  · have hmark : c = ':' ∨ c = ' ' := by simpa using hc
    rcases hmark with rfl | rfl <;> rfl
  · exact Text.not_of_mem_splitOnP hmem c hc

/-- The names of the fields of an event hold no line end. -/
theorem isLine_of_mem_names (hname : name ∈ ["id", "event", "data", "retry"]) : IsLine name := by
  simp only [List.mem_cons, List.not_mem_nil, or_false] at hname
  rcases hname with rfl | rfl | rfl | rfl <;> simp [IsLine, isLineEnd]

/-- The lines of an event are lines, and none is empty. -/
theorem isLine_of_mem_eventLines {e : Event} {line : String} (hline : line ∈ eventLines e) :
    IsLine line ∧ line ≠ "" := by
  obtain ⟨name, hname, text, hmem⟩ :
      ∃ name ∈ ["id", "event", "data", "retry"], ∃ text, line ∈ fieldTexts name text := by
    simp only [eventLines, List.mem_append] at hline
    rcases hline with ((hline | hline) | hline) | hline
    · exact ⟨"id", by simp, _, hline⟩
    · split at hline
      · cases hline
      · exact ⟨"event", by simp, _, hline⟩
    · exact ⟨"data", by simp, _, hline⟩
    · exact ⟨"retry", by simp, _, hline⟩
  refine ⟨isLine_of_mem_fieldTexts (isLine_of_mem_names hname) hmem, ?_⟩
  obtain ⟨part, -, rfl⟩ := List.mem_map.1 hmem
  simp

/-! ## Reading fields back -/

/-- A name that a line can give. -/
def IsFieldName (name : String) : Prop :=
  ':' ∉ name.toList ∧ 2 ≤ name.utf8ByteSize ∧ name.toList.head? ≠ some '#'

/-- The names of the fields of an event are such names. -/
theorem isFieldName_of_mem (hname : name ∈ ["id", "event", "data", "retry"]) :
    IsFieldName name := by
  revert name
  simp only [IsFieldName]
  decide

/-- A blank in front does not count. -/
theorem trimChars_cons_blank {c : Char} (hc : Text.isBlank c = true) (cs : List Char) :
    Text.trimChars (c :: cs) = Text.trimChars cs := by
  rw [Text.trimChars, Text.trimStart, List.dropWhile_cons_of_pos hc]
  rfl

/-- A line of a field gives its part of the field, without the blanks at the ends. -/
theorem fieldOf?_fieldText (hname : IsFieldName name) (part : List Char) :
    fieldOf? (name ++ ": " ++ String.ofList part) =
      some (name, String.ofList (Text.trimChars part)) := by
  obtain ⟨hcolon, hsize, hhash⟩ := hname
  have hline : (name ++ ": " ++ String.ofList part).toList =
      name.toList ++ ':' :: ' ' :: part := by
    simp [String.toList_append]
  have hhead : (name.toList ++ ':' :: ' ' :: part).head? = name.toList.head? := by
    cases hchars : name.toList with
    | nil =>
      rw [String.toList_eq_nil_iff.1 hchars] at hsize
      exact absurd hsize (by decide)
    | cons c cs => rfl
  have htake : (name.toList ++ ':' :: ' ' :: part).takeWhile (· ≠ ':') = name.toList := by
    rw [takeWhile_colon hcolon]
    simp
  rw [fieldOf?, hline, htake, hhead, String.ofList_toList, if_pos ⟨by simp, hsize, hhash⟩]
  have hdrop : (name.toList ++ ':' :: ' ' :: part).drop (name.toList.length + 1) = ' ' :: part := by
    simp
  rw [hdrop, trimChars_cons_blank (by decide)]

/-- What the lines of a field give to it. -/
def parts (text : String) : List String :=
  (fieldLines text).map fun part => String.ofList (Text.trimChars part)

theorem valuesOf_append (name : String) (lines lines' : List String) :
    valuesOf name (lines ++ lines') = valuesOf name lines ++ valuesOf name lines' := by
  simp [valuesOf]

/-- The lines of a field give its parts to this field and nothing to any other. -/
theorem valuesOf_fieldTexts (hname : IsFieldName name) (name' text : String) :
    valuesOf name' (fieldTexts name text) = if name = name' then parts text else [] := by
  rw [fieldTexts, parts]
  induction fieldLines text with
  | nil => simp [valuesOf]
  | cons part rest ih =>
    rw [List.map_cons, ← List.singleton_append, valuesOf_append, ih]
    by_cases heq : name = name'
    · subst heq
      simp [valuesOf, fieldOf?_fieldText hname]
    · simp [valuesOf, fieldOf?_fieldText hname, heq]

/-- The normal text of a field: the text is cut at CR and LF, lines that are empty do not count,
nor do blanks at the ends of the others, nor those in front that are then empty. -/
theorem normalText_eq (text : String) :
    normalText text = String.intercalate "\n"
      ((((text.toList.splitOnP isLineEnd).filter (!·.isEmpty)).map fun line =>
        Text.trim (String.ofList line)).dropWhile (· = "")) := by
  have hjoin (lines : List (List Char)) :
      String.ofList (lines.intersperse ['\n']).flatten =
        String.intercalate "\n" (lines.map String.ofList) := by
    rw [← String.toList_inj, String.toList_intercalate, String.toList_ofList]
    simp [List.intercalate, Function.comp_def]
  have htrim : (String.ofList ∘ Text.trimChars) = fun line => Text.trim (String.ofList line) := by
    funext line
    simp [Text.trim]
  have hempty : (fun text => decide (text = "")) ∘ String.ofList = List.isEmpty := by
    funext line
    cases line <;> simp
  rw [normalText, hjoin, fieldLines, ← htrim, ← List.map_map, ← hempty,
    ← List.dropWhile_map]

/-- The parts of a field make its normal text. -/
theorem joined_parts (text : String) : joined (parts text) = normalText text := by
  rw [normalText_eq, joined, parts, fieldLines]
  simp [Text.trim]

/-- The lines of an event give the parts of a field to it. -/
theorem valuesOf_eventLines (e : Event) (name : String) :
    valuesOf name (eventLines e) =
      (if "id" = name then parts e.id else []) ++
        (if e.event = defaultEvent then [] else if "event" = name then parts e.event else []) ++
        (if "data" = name then parts e.data else []) ++
        (if "retry" = name then parts e.retry else []) := by
  have hfield (text : String) : ∀ field ∈ ["id", "event", "data", "retry"],
      valuesOf name (fieldTexts field text) = if field = name then parts text else [] :=
    fun field hmem => valuesOf_fieldTexts (isFieldName_of_mem hmem) name text
  rw [eventLines, valuesOf_append, valuesOf_append, valuesOf_append, hfield _ "id" (by simp),
    hfield _ "data" (by simp), hfield _ "retry" (by simp)]
  by_cases hname : e.event = defaultEvent
  · rw [if_pos hname, if_pos hname]
    rfl
  · rw [if_neg hname, if_neg hname, hfield _ "event" (by simp)]

/-- The lines of an event make its normal form. -/
theorem eventOf_eventLines (e : Event) : eventOf (eventLines e) = normal e := by
  rw [eventOf, normal, ← joined_parts, ← joined_parts, ← joined_parts, ← joined_parts]
  simp only [valuesOf_eventLines]
  by_cases hname : e.event = defaultEvent
  · -- The default name is not written, and an event without a name is given it.
    have hparts : joined (parts defaultEvent) = defaultEvent := by decide
    have hnone : joined [] = "" := rfl
    simp [hname, hparts, hnone]
  · simp [hname]

/-- The groups of lines that are written for events are the lines of each. -/
theorem splitOn_eventLines (events : List Event) :
    (events.flatMap fun e => eventLines e ++ [""]).splitOn "" = events.map eventLines ++ [[]] := by
  induction events with
  | nil => rfl
  | cons e rest ih =>
    have hnone : "" ∉ eventLines e := fun hmem => (isLine_of_mem_eventLines hmem).2 rfl
    rw [List.flatMap_cons, List.append_assoc, List.singleton_append,
      List.splitOn_append_cons_self_of_not_mem hnone, ih, List.map_cons, List.cons_append]

/-- What is written for events is read as their normal forms. -/
theorem read_written (events : List Event) (reads : List (List UInt8)) (failed : Bool)
    (hreads : reads.flatten = Json.utf8 (String.join (events.map encode))) :
    read reads failed = events.map normal := by
  have hlines : ∀ line ∈ events.flatMap fun e => eventLines e ++ [""], IsLine line := by
    intro line hline
    obtain ⟨e, -, hline⟩ := List.mem_flatMap.1 hline
    rcases List.mem_append.1 hline with hline | hline
    · exact (isLine_of_mem_eventLines hline).1
    · obtain rfl := List.mem_singleton.1 hline
      simp [IsLine]
  rw [read_eq_parse, parse_eq_eventsIn, hreads, join_encode, eventsIn, linesIn_unlines hlines,
    splitOn_eventLines, List.dropLast_concat, List.map_map]
  exact List.map_congr_left fun e _ => eventOf_eventLines e

/-- **What is written is read, and nothing else.** Whatever the fields of events hold, and however
what is written for them is cut into reads, a consumer that keeps up is given one event for each, in
order: its normal form, in which every field is its own normal text. -/
theorem read_encode (events : List Event) (reads : List (List UInt8)) (failed : Bool)
    (hreads : reads.flatten = Json.utf8 (String.join (events.map encode))) :
    deliver 0 (read reads failed) = events.map normal ∧
      ∀ e, normal e =
        { id := normalText e.id
          event := if normalText e.event = "" then defaultEvent else normalText e.event
          data := normalText e.data
          retry := normalText e.retry } ∧
      ∀ text, normalText text = String.intercalate "\n"
        ((((text.toList.splitOnP isLineEnd).filter (!·.isEmpty)).map fun line =>
          Text.trim (String.ofList line)).dropWhile (· = "")) := by
  refine ⟨?_, fun e => ⟨rfl, normalText_eq⟩⟩
  rw [deliver_zero, read_written events reads failed hreads]

/-- Texts that hold lines of other fields and empty lines: they are read as texts of their own
fields, with the reads cut in the middle. -/
theorem odd_event_read_back :
    let events : List Event :=
      [{ id := "1\n\ndata: 2", event := " ", data := "\r\n \r: #\r\nid: 9 \n" }, {}]
    let bytes := Json.utf8 (String.join (events.map encode))
    [bytes.take 7, bytes.drop 7].flatten = bytes ∧
      deliver 0 (read [bytes.take 7, bytes.drop 7]) = events.map normal ∧
      events.map normal =
        [{ id := "1\ndata: 2", event := "message", data := ": #\nid: 9" },
          { event := "message" }] :=
  ⟨by decide +kernel, (read_encode _ _ false (by decide +kernel)).1, by decide +kernel⟩

end

end OrderBroker.Stream.Sse
