import IocDb.Output.Sink
import IocDb.Proofs.Traversal

/-!
# What a full sink has received

A text is written in many pieces, and the sink may be full in the middle of any of them. Whatever
the pieces are, the sink has then received the first part of the text, and if a database cannot be
rendered, it has received nothing.

* `Sink.put_of_le`, `Sink.put_of_lt`: bytes that fit, and bytes that do not.
  `Sink.put_append_of_le`, `Sink.put_append_of_lt`: what follows them.
* **`Sink.putAll_eq_put`**: pieces one after the other are as good as the whole text.
* `Document.writeTo_eq`: a document with the flush behind it.
* `WriteOutcome`, **`Database.writeOutcome`**: a database on a sink of any capacity.
-/

namespace IocDb

/-! ## Pieces of a text -/

namespace Sink

variable {sink : Sink} {bytes : List UInt8}

/-- The sink with more bytes in it. -/
def receiving (sink : Sink) (bytes : List UInt8) : Sink :=
  { sink with received := sink.received ++ bytes }

theorem receiving_receiving (sink : Sink) (first second : List UInt8) :
    (sink.receiving first).receiving second = sink.receiving (first ++ second) := by
  simp [receiving]

theorem room_receiving (sink : Sink) (bytes : List UInt8) :
    (sink.receiving bytes).room = sink.room - bytes.length := by
  simp only [receiving, room, List.length_append]
  omega

theorem put_eq (sink : Sink) (bytes : List UInt8) :
    sink.put bytes = (decide (bytes.length ≤ sink.room), sink.receiving (bytes.take sink.room)) :=
  rfl

theorem put_of_le (h : bytes.length ≤ sink.room) : sink.put bytes = (true, sink.receiving bytes) := by
  rw [put_eq, List.take_of_length_le h, decide_eq_true h]

theorem put_of_lt (h : sink.room < bytes.length) :
    sink.put bytes = (false, sink.receiving (bytes.take sink.room)) := by
  rw [put_eq, decide_eq_false (Nat.not_le.mpr h)]

theorem put_append_of_le {first : List UInt8} (h : first.length ≤ sink.room) (rest : List UInt8) :
    sink.put (first ++ rest) = (sink.receiving first).put rest := by
  have hle : (first ++ rest).length ≤ sink.room ↔ rest.length ≤ sink.room - first.length := by
    rw [List.length_append]
    omega
  rw [put_eq, put_eq, room_receiving, receiving_receiving, List.take_append,
    List.take_of_length_le h, decide_eq_decide.mpr hle]

theorem put_append_of_lt {first : List UInt8} (h : sink.room < first.length) (rest : List UInt8) :
    sink.put (first ++ rest) = sink.put first := by
  have hlt : sink.room < (first ++ rest).length := by
    rw [List.length_append]
    omega
  rw [put_of_lt h, put_of_lt hlt, List.take_append_of_le_length (Nat.le_of_lt h)]

/-- **Pieces that are written one after the other are as good as the whole text.** -/
theorem putAll_eq_put (sink : Sink) (pieces : List String) :
    sink.putAll pieces = sink.put (utf8 (String.join pieces).toList) := by
  induction pieces generalizing sink with
  | nil =>
    rw [putAll, put_of_le (Nat.zero_le _)]
    simp [receiving]
  | cons piece rest ih =>
    have hjoin : utf8 (String.join (piece :: rest)).toList =
        utf8 piece.toList ++ utf8 (String.join rest).toList := by
      rw [String.toList_join, String.toList_join, List.flatMap_cons, utf8_append]
    rw [putAll, hjoin]
    rcases Nat.lt_or_ge sink.room (utf8 piece.toList).length with h | h
    · rw [put_append_of_lt h, put_of_lt h]
    · rw [put_append_of_le h, put_of_le h, ← ih]

end Sink

/-! ## Documents -/

/-- The lines of a document are written as its text, and the sink is flushed if all of it fits. -/
theorem Document.writeTo_eq (d : Document) (sink : Sink) :
    d.writeTo sink = (decide ((utf8 d.text.toList).length ≤ sink.room) && !sink.flushFails,
      sink.receiving ((utf8 d.text.toList).take sink.room)) := by
  have hlines : sink.putAll (d.lines.map (· ++ "\n")) = sink.put (utf8 d.text.toList) :=
    sink.putAll_eq_put _
  rw [writeTo, hlines]
  rcases Nat.lt_or_ge sink.room (utf8 d.text.toList).length with h | h
  · rw [Sink.put_of_lt h, decide_eq_false (Nat.not_le.mpr h), Bool.false_and]
  · rw [Sink.put_of_le h, List.take_of_length_le h, decide_eq_true h, Bool.true_and]
    rfl

/-! ## Databases -/

namespace Database

variable {db : Database} {options : OutputOptions}

theorem length_render {alphabetical : Bool} {records : List Rendered}
    (h : db.render alphabetical = .ok records) : records.length = db.records.length := by
  rw [← (mapM_eq_ok_iff.mp h).length_eq, outputOrder]
  split
  · exact List.length_mergeSort _
  · rfl

theorem writeTo_of_render_error {fault : Fault} (h : db.render options.alphabetical = .error fault)
    (sink : Sink) : db.writeTo options sink = (.error fault, sink) := by
  rw [writeTo, document, h]
  rfl

/-- **A database is written as its text.** -/
theorem writeTo_of_text {text : String} (h : db.text options = .ok text) (sink : Sink) :
    db.writeTo options sink =
      (if (utf8 text.toList).length ≤ sink.room ∧ sink.flushFails = false then
          .ok db.records.length
        else .error .output, (sink.put (utf8 text.toList)).2) := by
  obtain ⟨d, hd, rfl⟩ := exists_of_map_ok h
  obtain ⟨records, hrender, rfl⟩ := exists_of_map_ok hd
  rw [writeTo, hd]
  simp only [Document.writeTo_eq, length_render hrender, Sink.put_eq]
  by_cases hfits : (utf8 (Document.text ⟨options.header, db.parameterList, records⟩).toList).length ≤
    sink.room <;> cases hflush : sink.flushFails <;> simp [hfits]

end Database

/-- What becomes of a sink that takes so many bytes, and what is reported. -/
structure WriteOutcome (db : Database) (options : OutputOptions) (capacity : Nat)
    (flushFails : Bool) (outcome : Except Fault Nat × Sink) : Prop where
  /-- a database that cannot be rendered leaves the sink as it was -/
  refused : ∀ fault, db.render options.alphabetical = .error fault →
    outcome = (.error fault, .new capacity flushFails)
  /-- any other has a text, and of this the sink has received as many bytes as it takes -/
  received : ∀ records, db.render options.alphabetical = .ok records → ∃ text,
    db.text options = .ok text ∧
    outcome.2.received = (utf8 text.toList).take (min capacity (utf8 text.toList).length)
  /-- into which pieces the text is cut makes no difference to the sink -/
  pieces : ∀ pieces, db.text options = .ok (String.join pieces) →
    outcome.2 = ((Sink.new capacity flushFails).putAll pieces).2
  /-- the number of records is reported if all of the text was received and flushed -/
  result : ∀ text, db.text options = .ok text → outcome.1 =
    if (utf8 text.toList).length ≤ capacity ∧ flushFails = false then .ok db.records.length
    else .error .output

/-- **A sink that fails has received the first part of the right text.** -/
theorem Database.writeOutcome (db : Database) (options : OutputOptions) (capacity : Nat)
    (flushFails : Bool) :
    WriteOutcome db options capacity flushFails
      (db.writeTo options (.new capacity flushFails)) := by
  refine ⟨fun fault h => writeTo_of_render_error h _, fun records h => ?_, fun pieces h => ?_,
    fun text h => ?_⟩
  · have ht : db.text options =
        .ok (Document.text ⟨options.header, db.parameterList, records⟩) := by
      rw [text, document, h]
      rfl
    refine ⟨_, ht, ?_⟩
    rw [writeTo_of_text ht, ← List.take_eq_take_min]
    rfl
  · rw [writeTo_of_text h, Sink.putAll_eq_put]
  · rw [writeTo_of_text h]
    rfl

end IocDb
