import OrderBroker.Proofs.Ndjson.Reading
import OrderBroker.Proofs.Stream.Formats
import OrderBroker.Proofs.Wire.RoundTrip

/-!
# Lines of JSON that are written and read

A consumer that keeps up is given the values that the whole input says, whatever the cuts between
the reads and however values are decoded (`values_delivered`). So a list of values is read back from
its lines: the document of a value is a compact text, which no line end cuts and which is not blank
(`read_written`).
-/

namespace OrderBroker.Stream.Ndjson

variable {α : Type} [Wire α]

/-- The lines of values, as one text. -/
def written (values : List α) : String :=
  String.join (values.map fun a => encode (Wire.toJson a))

section
variable {bytes : List UInt8} {text : String} {failed : Bool}

/-- A line that an LF ends is the first line of an input. -/
theorem linesIn_cons (hlf : 0x0A ∉ bytes) (hcr : bytes.getLast? ≠ some 0x0D) (rest : List UInt8) :
    linesIn (bytes ++ 0x0A :: rest) failed = bytes :: linesIn rest failed := by
  rw [linesIn, linesIn, List.splitOn_append_cons_self_of_not_mem hlf,
    List.dropLast_cons_of_ne_nil (List.splitOn_ne_nil _ _),
    List.getLast?_cons_of_ne_nil (List.splitOn_ne_nil _ _), List.map_cons, ended, if_neg hcr,
    List.cons_append]

/-- The bytes of lines of text are cut into these lines. -/
theorem linesIn_unlines {texts : List String} (htexts : ∀ text ∈ texts, Sse.IsLine text) :
    linesIn (Json.utf8 (Sse.unlines texts)) failed = texts.map Json.utf8 := by
  induction texts with
  | nil => cases failed <;> rfl
  | cons text rest ih =>
    have hline {b : UInt8} (hb : b ∈ Json.utf8 text) : b ≠ 0x0A ∧ b ≠ 0x0D :=
      Sse.not_lineEnd_of_mem_utf8 (htexts text (.head _)) hb
    have hbytes : Json.utf8 (Sse.unlines (text :: rest)) =
        Json.utf8 text ++ 0x0A :: Json.utf8 (Sse.unlines rest) := by
      have hlf : Json.utf8 "\n" = [0x0A] := by decide
      rw [Sse.unlines, List.map_cons, String.join_cons, Json.utf8_append, Json.utf8_append, hlf,
        List.append_assoc, List.singleton_append, Sse.unlines]
    rw [hbytes, linesIn_cons (fun hmem => (hline hmem).1 rfl)
        (fun hlast => (hline (List.mem_of_getLast? hlast)).2 rfl),
      ih fun text htext => htexts text (.tail _ htext), List.map_cons]

/-- A compact text is not blank. -/
theorem not_blank_of_compact (htext : Json.Compact text.toList) :
    Text.isBlankText text = false := by
  obtain ⟨c, hc, hblank⟩ := htext.first
  exact List.all_eq_false.2 ⟨c, List.mem_of_head? hc, by simp [hblank]⟩

end

/-! ## The lines of values -/

section
variable {values : List α}

/-- The document of a value is compact. -/
theorem compact_encode (a : α) : Json.Compact (Wire.encode a).toList := Json.compact_render _

/-- The lines of values are their documents. -/
theorem written_eq (values : List α) : written values = Sse.unlines (values.map Wire.encode) := by
  rw [written, Sse.unlines, List.map_map]
  exact congrArg String.join (List.map_congr_left fun a _ => String.push_eq_append _)

/-- The documents of values say the values, if each of them is read back. -/
theorem valuesIn_documents (hvalues : ∀ a ∈ values, Wire.decode? (Wire.encode a) = some a) :
    valuesIn Wire.decode? ((values.map Wire.encode).map Json.utf8) = values := by
  induction values with
  | nil => rfl
  | cons a rest ih =>
    have htext : text? (Json.utf8 (Wire.encode a)) = some (Wire.encode a) := Json.fromUTF8?_utf8 _
    have hblank : isBlankLine (Json.utf8 (Wire.encode a)) = false := by
      rw [isBlankLine, htext, Option.any_some, not_blank_of_compact (compact_encode a)]
    rw [List.map_cons, List.map_cons, valuesIn_cons, hblank, htext, Option.bind_some,
      hvalues a (.head _), ih fun a ha => hvalues a (.tail _ ha)]
    rfl

/-- What is written for values is read as the values, if the document of each is read back. -/
theorem read_written {reads : List (List UInt8)} (failed : Bool)
    (hvalues : ∀ a ∈ values, Wire.decode? (Wire.encode a) = some a)
    (hreads : reads.flatten = Json.utf8 (written values)) :
    read Wire.decode? reads failed = values := by
  have hlines : ∀ text ∈ values.map Wire.encode, Sse.IsLine text := by
    simpa using fun a _ => Sse.isLine_of_compact (compact_encode a)
  rw [read_eq_valuesIn, hreads, written_eq, linesIn_unlines hlines, valuesIn_documents hvalues]

end

/-- **What a reader of lines delivers.** However an input is cut into reads, however it ends and
however values are decoded, a consumer that keeps up is given the values of its lines: those of the
lines that are not blank, in order, up to the first line that is no value. So it is given back every
list of values of which each is decoded from its own document, such as the progress of orders and
the handles of orders. -/
theorem values_delivered :
    (∀ {α : Type} (decode : String → Option α) (reads : List (List UInt8)) (failed : Bool),
      deliver 0 (read decode reads failed) = valuesIn decode (linesIn reads.flatten failed)) ∧
    (∀ {α : Type} [Wire α] (values : List α) (reads : List (List UInt8)) (failed : Bool),
      (∀ a ∈ values, Wire.decode? (Wire.encode a) = some a) →
      reads.flatten = Json.utf8 (written values) →
      deliver 0 (read Wire.decode? reads failed) = values) ∧
    (∀ (values : List BankId.Progress) (reads : List (List UInt8)) (failed : Bool),
      reads.flatten = Json.utf8 (written values) →
      deliver 0 (read Wire.decode? reads failed) = values) ∧
    ∀ (values : List Order.Handle) (reads : List (List UInt8)) (failed : Bool),
      reads.flatten = Json.utf8 (written values) →
      deliver 0 (read Wire.decode? reads failed) = values := by
  refine ⟨fun decode reads failed => ?_, fun values reads failed hvalues hreads => ?_,
    fun values reads failed hreads => ?_, fun values reads failed hreads => ?_⟩
  · rw [deliver_zero, read_eq_valuesIn]
  · rw [deliver_zero, read_written failed hvalues hreads]
  · have hvalues (p : BankId.Progress) : Wire.decode? (Wire.encode p) = some p :=
      (Wire.roundTrips_of_readsAs (BankId.readsAs_progress p)).decode?_encode
    rw [deliver_zero, read_written failed (fun p _ => hvalues p) hreads]
  · have hvalues (h : Order.Handle) : Wire.decode? (Wire.encode h) = some h :=
      (Wire.roundTrips_of_readsAs (Order.readsAs_handle h)).decode?_encode
    rw [deliver_zero, read_written failed (fun h _ => hvalues h) hreads]

/-- A reader of numbers passes over a line whose blank is cut in two and stops at a line that is cut
off in the middle of a character, though a number follows. Progress with line ends in its texts is
read back although a cut falls into its line and the input ends with an error. -/
theorem odd_lines_delivered :
    (let number (text : String) :=
        (Json.Tree.ofBytes? (Json.utf8 text)).bind (Json.Tree.natural? 9);
      deliver 0 (read number
        [[0x31, 0x0D], [0x0A, 0x20, 0xC2], [0xA0, 0x0A, 0x32, 0x0A, 0xC2, 0x0A], [0x33, 0x0A]]
        false) = [1, 2]) ∧
    (let values : List BankId.Progress :=
        [{ orderRef := "a\r\n", status := .pending, hintCode := "\u2028" },
          { orderRef := "\n\n", status := .complete }];
      let bytes := Json.utf8 (written values);
      (∀ a ∈ values, Wire.decode? (Wire.encode a) = some a) ∧
        [bytes.take 9, bytes.drop 9].flatten = bytes ∧
        deliver 0 (read Wire.decode? [bytes.take 9, bytes.drop 9] true) = values) := by
  obtain ⟨hread, hvalues, -⟩ := values_delivered
  refine ⟨?_, ?_⟩
  · intro number
    rw [hread]
    decide +kernel
  · intro values bytes
    have hgoes : ∀ a ∈ values, Wire.decode? (Wire.encode a) = some a := fun a _ =>
      (Wire.roundTrips_of_readsAs (BankId.readsAs_progress a)).decode?_encode
    have hcut : [bytes.take 9, bytes.drop 9].flatten = bytes := by simp
    exact ⟨hgoes, hcut, hvalues values _ true hgoes hcut⟩

end OrderBroker.Stream.Ndjson
