import OrderBroker.Proofs.Json.Compact
import OrderBroker.Proofs.Sse.RoundTrip
import OrderBroker.Stream.Encoder

/-!
# Both stream formats carry the same data

The document of an event is one line in either format: what stands behind `data:` in the one is the
line of the other. So a reader of server-sent events finds every document as it was written, byte
for byte, whatever it holds (`formats_agree`).

This rests on the text of a document being compact (`Json.compact_render`): nothing in it ends a
line, and there is nothing at its ends that a reader takes away (`normalText_of_line`).
-/

namespace OrderBroker.Stream

namespace Sse

section
variable {text : String} {cs : List Char}

/-- A line with nothing to trim is its own normal text, if there is anything in it. -/
theorem normalText_of_line (hline : IsLine text) (hne : text ≠ "") (htrim : Text.trim text = text) :
    normalText text = text := by
  have huncut : text.toList.splitOnP isLineEnd = [text.toList] :=
    List.splitOnP_eq_singleton fun c hc => by simp [hline c hc]
  have hkept : text.toList.isEmpty = false := by simpa using hne
  rw [normalText_eq, huncut]
  simp [hkept, htrim, hne]

/-- A compact text is one line. -/
theorem isLine_of_compact (hcs : Json.Compact text.toList) : IsLine text := by
  intro c hc
  have hclear := hcs.clear c hc
  have hcr : c ≠ '\r' := by rintro rfl; exact absurd hclear (by decide)
  have hlf : c ≠ '\n' := by rintro rfl; exact absurd hclear (by decide)
  simp [isLineEnd, hcr, hlf]

/-- There is something in a compact text. -/
theorem ne_empty_of_compact (hcs : Json.Compact text.toList) : text ≠ "" := by
  rintro rfl
  obtain ⟨c, hc, -⟩ := hcs.first
  cases hc

/-- A compact text is its own normal text. -/
theorem normalText_of_compact (hcs : Json.Compact text.toList) : normalText text = text := by
  refine normalText_of_line (isLine_of_compact hcs) (ne_empty_of_compact hcs) ?_
  rw [Text.trim, hcs.trimChars, String.ofList_toList]

/-- A number is compact. -/
theorem compact_toString (n : Nat) : Json.Compact (toString n).toList := by
  have hdigits : (toString n).toList = Nat.toDigits 10 n := String.toList_ofList
  rw [hdigits]
  exact .of_visible (by simp) fun c hc => Json.visible_of_mem_toDigits hc

/-- A field that is one line is written as this line. -/
theorem unlines_fieldTexts (name : String) (hline : IsLine text) (hne : text ≠ "") :
    unlines (fieldTexts name text) = name ++ ": " ++ text ++ "\n" := by
  have huncut : text.toList.splitOnP isLineEnd = [text.toList] :=
    List.splitOnP_eq_singleton fun c hc => by simp [hline c hc]
  have hlines : fieldLines text = [text.toList] := by
    simp [fieldLines, huncut, hne]
  simp [fieldTexts, hlines, unlines]

/-- What is written for a numbered event of another name than the default: a line for the number, the
name and the document each, and an empty one. -/
theorem encode_numbered {name : String} (hname : IsLine name) (hne : name ≠ "")
    (hown : name ≠ defaultEvent) (data : Json) (n : Nat) :
    encode { id := toString n, event := name, data := data.render } =
      "id: " ++ toString n ++ "\nevent: " ++ name ++ "\ndata: " ++ data.render ++ "\n\n" := by
  have hid := compact_toString n
  have hdata := Json.compact_render data
  have hretry : unlines (fieldTexts "retry" "") = "" := rfl
  have hlast : unlines [""] = "\n" := rfl
  have hjoin : "id: " ++ toString n ++ "\nevent: " ++ name ++ "\ndata: " ++ data.render ++ "\n\n" =
      ("id" ++ ": " ++ toString n ++ "\n") ++ ("event" ++ ": " ++ name ++ "\n") ++
        ("data" ++ ": " ++ data.render ++ "\n") ++ "" ++ "\n" := by
    apply String.toList_inj.1
    simp
  rw [hjoin, encode_eq, eventLines, if_neg hown]
  simp only [unlines_append, hretry, hlast,
    unlines_fieldTexts "id" (isLine_of_compact hid) (ne_empty_of_compact hid),
    unlines_fieldTexts "event" hname hne,
    unlines_fieldTexts "data" (isLine_of_compact hdata) (ne_empty_of_compact hdata)]

end

end Sse

/-- A name that stands in its line as it is: it is not empty, it has no line end, and there are no
blanks around it. -/
structure IsEventName (name : String) : Prop where
  nonempty : name ≠ ""
  line : ∀ c ∈ name.toList, c ≠ '\r' ∧ c ≠ '\n'
  trimmed : Text.trim name = name

namespace Encoder

section
variable {name : String} {data : Json} {n : Nat}

/-- The events that are written from this number on. -/
def numbered (n : Nat) (pairs : List (String × Json)) : List Event :=
  (pairs.zipIdx n).map fun p =>
    { id := toString p.2, event := p.1.1, data := p.1.2.render, retry := "" }

/-- A stream of server-sent events is its numbered events. -/
theorem events_sse (n : Nat) (pairs : List (String × Json)) :
    events ⟨.sse, n⟩ pairs = (numbered n pairs).map Sse.encode := by
  induction pairs generalizing n with
  | nil => rfl
  | cons pair rest ih =>
    have hrest : events ⟨.sse, n + 1⟩ rest = (numbered (n + 1) rest).map Sse.encode := ih (n + 1)
    rw [numbered, List.zipIdx_cons, List.map_cons, List.map_cons, ← numbered, ← hrest]
    rfl

/-- A stream of lines is the documents alone. -/
theorem events_ndjson (n : Nat) (pairs : List (String × Json)) :
    events ⟨.ndjson, n⟩ pairs = pairs.map fun p => p.2.render ++ "\n" := by
  induction pairs with
  | nil => rfl
  | cons pair rest ih =>
    have hline : Ndjson.encode pair.2 = pair.2.render ++ "\n" := String.push_eq_append _
    rw [List.map_cons, ← ih, ← hline]
    rfl

/-- An event with a name of its own is read as it was written. -/
theorem normal_numbered (hname : IsEventName name) (data : Json) (n : Nat) :
    Sse.normal { id := toString n, event := name, data := data.render, retry := "" } =
      { id := toString n, event := name, data := data.render, retry := "" } := by
  have hid := Sse.normalText_of_compact (Sse.compact_toString n)
  have hevent : Sse.normalText name = name := by
    refine Sse.normalText_of_line (fun c hc => ?_) hname.nonempty hname.trimmed
    simp [Sse.isLineEnd, hname.line c hc]
  have hdata := Sse.normalText_of_compact (Json.compact_render data)
  have hretry : Sse.normalText "" = "" := by decide
  simp only [Sse.normal, hid, hevent, hdata, hretry, if_neg hname.nonempty]

/-- The line of a document has one LF, at its end. -/
theorem line_count (data : Json) :
    (Json.utf8 (data.render ++ "\n")).count 0x0A = 1 ∧
      (Json.utf8 (data.render ++ "\n")).getLast? = some 0x0A := by
  have hlf : Json.utf8 "\n" = [0x0A] := by decide
  have hnone : (0x0A : UInt8) ∉ Json.utf8 data.render := fun hmem =>
    (Sse.not_lineEnd_of_mem_utf8 (Sse.isLine_of_compact (Json.compact_render data)) hmem).1 rfl
  rw [Json.utf8_append, hlf]
  exact ⟨by rw [List.count_append, List.count_eq_zero_of_not_mem hnone]; rfl,
    List.getLast?_concat⟩

end

/-- **Both formats carry the same data.** However what is written as server-sent events is cut into
reads, a consumer that keeps up is given one event for each that was written: with its number, its
name, no retry, and as its data the line that is written for it in the other format. A line is
ended by the only LF in it. -/
theorem formats_agree (pairs : List (String × Json)) (reads : List (List UInt8)) (failed : Bool)
    (hnames : ∀ p ∈ pairs, IsEventName p.1)
    (hreads : reads.flatten =
      Json.utf8 (String.join (Encoder.events { format := .sse } pairs))) :
    (deliver 0 (Sse.read reads failed)).length = pairs.length ∧
      (Encoder.events { format := .ndjson } pairs).length = pairs.length ∧
      (∀ (i : Nat) (name : String) (data : Json), pairs[i]? = some (name, data) →
        ∃ line, (Encoder.events { format := .ndjson } pairs)[i]? = some (line ++ "\n") ∧
          (deliver 0 (Sse.read reads failed))[i]? =
            some { id := toString i, event := name, data := line, retry := "" }) ∧
      ∀ chunk ∈ Encoder.events { format := .ndjson } pairs,
        (Json.utf8 chunk).count 0x0A = 1 ∧ (Json.utf8 chunk).getLast? = some 0x0A := by
  have hread : Sse.read reads failed = numbered 0 pairs := by
    rw [events_sse] at hreads
    rw [Sse.read_written _ _ _ hreads]
    conv => rhs; rw [← List.map_id (numbered 0 pairs)]
    refine List.map_congr_left fun e he => ?_
    obtain ⟨⟨⟨name, data⟩, i⟩, hmem, rfl⟩ := List.mem_map.1 he
    exact normal_numbered (hnames _ (List.fst_mem_of_mem_zipIdx hmem)) data i
  rw [deliver_zero, hread, events_ndjson]
  refine ⟨by simp [numbered], by simp, fun i name data hi => ⟨data.render, ?_, ?_⟩, ?_⟩
  · simp [hi]
  · simp [numbered, hi]
  · intro chunk hchunk
    obtain ⟨⟨name, data⟩, -, rfl⟩ := List.mem_map.1 hchunk
    exact line_count data

/-- Documents whose texts hold what looks like line ends, fields and blanks, one of them under the
name that is not written, with the reads cut in the middle of a line. -/
theorem odd_documents_agree :
    let pairs : List (String × Json) :=
      [("message", .object [("\n\ndata: 1", .string " \r\u2028 ")]), ("a b", .array [.null])]
    let bytes := Json.utf8 (String.join (Encoder.events { format := .sse } pairs))
    (∀ p ∈ pairs, IsEventName p.1) ∧ [bytes.take 9, bytes.drop 9].flatten = bytes ∧
      (deliver 0 (Sse.read [bytes.take 9, bytes.drop 9]))[1]? =
        some { id := "1", event := "a b", data := "[null]", retry := "" } := by
  intro pairs bytes
  have hnames : ∀ p ∈ pairs, IsEventName p.1 := by
    intro p hp
    simp only [pairs, List.mem_cons, List.not_mem_nil, or_false] at hp
    rcases hp with rfl | rfl <;> exact ⟨by decide, by simp, by decide⟩
  have hreads : [bytes.take 9, bytes.drop 9].flatten = bytes := by simp
  obtain ⟨-, -, hevent, -⟩ := formats_agree pairs _ false hnames hreads
  obtain ⟨line, hline, hread⟩ := hevent 1 "a b" (.array [.null]) rfl
  obtain rfl : line = "[null]" := by
    have hchunk : "[null]" ++ "\n" = line ++ "\n" := Option.some.inj hline
    exact (String.append_left_inj _).1 hchunk.symm
  exact ⟨hnames, hreads, hread⟩

end Encoder

end OrderBroker.Stream
