import IocDb.Output.Sink
import IocDb.Proofs.Document
import IocDb.Proofs.Links

/-!
# Written databases read back

The text of a database is read as all its records, in the order in which they were declared or in
that of their names, with everything that they hold but the comments.

* `LinkReads`, `ValueReads`, `RecordReads`: what has to be read for a link, a value and a record.
* `exists_reads_of_fieldText`, `exists_reads_of_renderRecord`: it is what is written.
* `Run.commentsAre`, `Run.inlineComments`: comments keep within their lines.
* **`Run.readDatabase_text`**: the whole text, after any run.
-/

namespace IocDb

/-! ## What is read -/

/-- A field behind the name of its record, if the link is not to the record as a whole. -/
def fieldSuffix : Option FieldName → String
  | none => ""
  | some field => "." ++ field.val

/-- What is read for the target of a link: `NAME`, `NAME.FIELD` or `$(NAME)`. -/
inductive LinkReads (db : Database) : LinkTarget → String → Prop where
  | record {link : RecordLink} {name : String} : db.nameOf link.record = .ok name →
      LinkReads db (.record link) (name ++ fieldSuffix link.field)
  | parameter (p : Parameter) : LinkReads db (.parameter p) ("$(" ++ p.name.val ++ ")")

/-- What is read for a value. -/
inductive ValueReads (db : Database) : Value → Source.Value → Prop where
  | scalar (value : Scalar) : ValueReads db (.scalar value) (.string value.text)
  | parameter (p : Parameter) :
      ValueReads db (.parameter p) (.string ("$(" ++ p.name.val ++ ")"))
  | array (a : ConstantArray) :
      ValueReads db (.array a) (.array (a.elements.map Constant.source))
  | link {value : RecordLink} {text : String} : LinkReads db (.record value) text →
      ValueReads db (.link value) (.string text)
  | decorated {value : DecoratedLink} {text : String} : LinkReads db value.target text →
      ValueReads db (.decorated value)
        (.string (text ++ String.join (value.options.map fun option => " " ++ option.text)))

/-- What is read for a record. -/
structure RecordReads (db : Database) (r : Record) (s : Source.Record) : Prop where
  type : s.type = r.type.val
  name : s.name = r.canonical
  fields : List.Forall₂ (fun entry field => field.1 = entry.1.val ∧
    ValueReads db entry.2 field.2) r.fields.entries s.fields
  aliases : s.aliases = r.aliases
  info : s.info = r.info.entries.map fun (name, value) => (name.val, value)

/-! ## What is written -/

section Written

variable {db : Database}

theorem linkReads_of_linkText {link : RecordLink} {text : String}
    (h : db.linkText link = .ok text) : LinkReads db (.record link) text := by
  obtain ⟨name, hn, h⟩ := exists_of_bind_ok h
  have hl : LinkReads db (.record link) (name ++ fieldSuffix link.field) := .record hn
  cases hf : link.field with
  | none =>
    rw [hf] at h hl
    obtain rfl : name = text := Except.ok.inj h
    rwa [fieldSuffix, String.append_empty] at hl
  | some field =>
    rw [hf] at h hl
    obtain rfl : name ++ "." ++ field.val = text := Except.ok.inj h
    rwa [fieldSuffix, ← String.append_assoc] at hl

theorem linkReads_of_targetText {target : LinkTarget} {text : String}
    (h : db.targetText target = .ok text) : LinkReads db target text := by
  cases target with
  | record link => exact linkReads_of_linkText h
  | parameter p =>
    obtain rfl := Except.ok.inj h
    exact .parameter p

/-- **The text of a value is read as it should be.** -/
theorem exists_reads_of_fieldText {v : Value} {text : String} (h : db.fieldText v = .ok text) :
    ∃ s, ValueReads db v s ∧ Source.Reads Source.value? text.toList s := by
  cases v with
  | scalar value =>
    obtain rfl := Except.ok.inj h
    exact ⟨_, .scalar value, Source.reads_value_quote _⟩
  | parameter p =>
    obtain rfl := Except.ok.inj h
    exact ⟨_, .parameter p, Source.reads_value_quote _⟩
  | array a =>
    obtain rfl := Except.ok.inj h
    exact ⟨_, .array a, Source.reads_array a⟩
  | link link =>
    obtain ⟨unquoted, ht, rfl⟩ := exists_of_map_ok h
    exact ⟨_, .link (linkReads_of_linkText ht), Source.reads_value_quote _⟩
  | decorated value =>
    obtain ⟨unquoted, hd, rfl⟩ := exists_of_map_ok h
    obtain ⟨target, ht, hd⟩ := exists_of_bind_ok hd
    obtain rfl := Except.ok.inj hd
    exact ⟨_, .decorated (linkReads_of_targetText ht), Source.reads_value_quote _⟩

theorem isIdentifier_of_recordType (type : RecordType) : Source.IsIdentifier type.val := by
  have h := type.property
  simp only [isRecordType, isWord, Bool.and_eq_true, List.all_eq_true] at h
  exact ⟨by simpa using h.1, h.2⟩

theorem isIdentifier_of_fieldName (field : FieldName) : Source.IsIdentifier field.val := by
  have h := field.property
  simp only [isFieldName, isWord, Bool.and_eq_true, List.all_eq_true] at h
  refine ⟨by simpa using h.1, fun c hc => ?_⟩
  have hf := h.2 c hc
  simp only [Bool.or_eq_true, decide_eq_true_eq] at hf
  rcases hf with (hf | hf) | rfl
  · have halpha : c.isAlpha = true := by
      change (c.isUpper || c.isLower) = true
      rw [hf, Bool.true_or]
    simp [isIdentifierChar, Char.isAlphanum, halpha]
  · simp [isIdentifierChar, Char.isAlphanum, hf]
  · decide

theorem isIdentifier_of_infoName {name : InfoName}
    (h : ∀ c ∈ name.val.toList, isIdentifierChar c = true) : Source.IsIdentifier name.val := by
  have hn := name.property
  simp only [isInfoName, isWord, Bool.and_eq_true] at hn
  exact ⟨by simpa using hn.1, h⟩

theorem exists_reads_of_renderField {record : String} {field : FieldName} {v : Value}
    {text : String × String} (h : db.renderField record field v = .ok text) :
    ∃ s, ValueReads db v s ∧ text.1 = field.val ∧ Source.Reads Source.value? text.2.toList s := by
  obtain ⟨-, -, h⟩ := exists_of_bind_ok h
  obtain ⟨value, ht, h⟩ := exists_of_bind_ok h
  obtain rfl := Except.ok.inj h
  obtain ⟨s, hs, hr⟩ := exists_reads_of_fieldText ht
  exact ⟨s, hs, rfl, hr⟩

/-- For related lists there is a third one that is related to both. -/
theorem exists_forall₂_between {α β γ : Type} {R : α → β → Prop} {S : α → γ → Prop}
    {T : β → γ → Prop} {l : List α} {m : List β} (h : List.Forall₂ R l m)
    (hR : ∀ a ∈ l, ∀ b, R a b → ∃ c, S a c ∧ T b c) :
    ∃ n, List.Forall₂ S l n ∧ List.Forall₂ T m n := by
  induction h with
  | nil => exact ⟨[], .nil, .nil⟩
  | cons hab _ ih =>
    obtain ⟨hhead, htail⟩ := List.forall_mem_cons.mp hR
    obtain ⟨c, hac, hbc⟩ := hhead _ hab
    obtain ⟨n, hs, ht⟩ := ih htail
    exact ⟨c :: n, .cons hac hs, .cons hbc ht⟩

/-- **The lines of a record are read as they should be.** -/
theorem exists_reads_of_renderRecord {r : Record} {d : Rendered}
    (h : db.renderRecord r = .ok d)
    (hcomments : ∀ line ∈ r.comments, ∀ c ∈ line.toList, Source.isInline c = true)
    (hinfo : ∀ item ∈ r.info.entries, ∀ c ∈ item.1.val.toList, isIdentifierChar c = true) :
    ∃ s, RecordReads db r s ∧ Source.ReadsRecord d s := by
  rw [Database.renderRecord_eq] at h
  obtain ⟨texts, hm, rfl⟩ := exists_of_map_ok h
  have hfields : ∀ entry ∈ r.fields.entries, ∀ text : String × String,
      db.renderField r.canonical entry.1 entry.2 = .ok text →
      ∃ field : String × Source.Value,
        (field.1 = entry.1.val ∧ ValueReads db entry.2 field.2) ∧
        Source.IsIdentifier text.1 ∧ field.1 = text.1 ∧
          Source.Reads Source.value? text.2.toList field.2 := by
    intro entry _ text htext
    obtain ⟨s, hs, hname, hread⟩ := exists_reads_of_renderField htext
    exact ⟨(entry.1.val, s), ⟨rfl, hs⟩, hname ▸ isIdentifier_of_fieldName entry.1, hname.symm,
      hread⟩
  obtain ⟨fields, hf, ht⟩ := exists_forall₂_between (mapM_eq_ok_iff.mp hm) hfields
  refine ⟨⟨r.type.val, r.canonical, fields, r.aliases,
    r.info.entries.map fun (name, value) => (name.val, value)⟩, ⟨rfl, rfl, hf, rfl, rfl⟩,
    ⟨hcomments, ⟨isIdentifier_of_recordType r.type, rfl⟩, rfl, ht, rfl, ?_, rfl⟩⟩
  intro item hitem
  obtain ⟨entry, he, rfl⟩ := List.mem_map.mp hitem
  exact isIdentifier_of_infoName (hinfo entry he)

end Written

/-! ## Comments -/

/-- All comments of the records pass a test. -/
def Database.CommentsAre (db : Database) (P : String → Prop) : Prop :=
  ∀ r ∈ db.records, ∀ line ∈ r.comments, P line

/-- No comment has a line end in it. -/
def Database.InlineComments (db : Database) : Prop :=
  ∀ r ∈ db.records, ∀ line ∈ r.comments, ∀ c ∈ line.toList, Source.isInline c = true

section Comments

variable {db db' : Database} {comments : List String} {P : String → Prop}

theorem Database.CommentsAre.set_record (h : db.CommentsAre P) {i : Nat} {r edited : Record}
    {names : Table String NameState} (hr : db.records[i]? = some r)
    (he : ∀ line ∈ edited.comments, line ∈ r.comments ∨ P line) :
    Database.CommentsAre { db with names, records := db.records.set i edited } P := by
  intro s hs line hl
  rcases List.mem_or_eq_of_mem_set hs with hs | rfl
  · exact h s hs line hl
  · rcases he line hl with hl | hl
    · exact h r (List.mem_of_getElem? hr) line hl
    · exact hl

theorem Change.commentsAre (hc : Change comments db db')
    (hp : ∀ text ∈ comments, ∀ line ∈ linesOf text, P line) (h : db.CommentsAre P) :
    db'.CommentsAre P := by
  cases hc with
  | mention name =>
    rw [Database.CommentsAre, Database.mention_records]
    exact h
  | imported | setting => exact h
  | record type hd =>
    intro r hr line hl
    rcases List.mem_append.mp hr with hr | hr
    · exact h r hr line hl
    · obtain rfl := List.mem_singleton.mp hr
      cases hl
  | name hf hd => exact h.set_record (Database.find_ok hf).1 fun line hl => .inl hl
  | field field hf hv => exact h.set_record (Database.find_ok hf).1 fun line hl => .inl hl
  | info name value hf => exact h.set_record (Database.find_ok hf).1 fun line hl => .inl hl
  | comment hf ht =>
    exact h.set_record (Database.find_ok hf).1 fun line hl =>
      (List.mem_append.mp hl).imp_right (hp _ ht line)

theorem Run.commentsAre {id : Nat} {naming : Naming} {ops : List Operation}
    (h : Run (.new id naming) ops db)
    (hp : ∀ op ∈ ops, ∀ text ∈ op.comments, ∀ line ∈ linesOf text, P line) :
    db.CommentsAre P := by
  refine h.changes_flatMap.invariant (fun hc => hc.commentsAre fun text ht => ?_)
    fun _ hr => nomatch hr
  obtain ⟨op, hop, ht⟩ := List.mem_flatMap.mp ht
  exact hp op hop text ht

theorem Run.inlineComments {id : Nat} {naming : Naming} {ops : List Operation}
    (h : Run (.new id naming) ops db)
    (hp : ∀ op ∈ ops, ∀ text ∈ op.comments, PairedReturns text.toList) :
    db.InlineComments :=
  h.commentsAre fun op hop text ht _ hl => isInline_of_mem_linesOf (hp op hop text ht) hl

end Comments

/-! ## The whole text -/

theorem length_of_writeTo {db : Database} {options : OutputOptions} {d : Document}
    (hd : db.document options = .ok d) {sink last : Sink} {count : Nat}
    (h : db.writeTo options sink = (.ok count, last)) : d.records.length = count := by
  simp only [Database.writeTo, hd] at h
  split at h
  · exact Except.ok.inj (Prod.mk.inj h).1
  · cases (Prod.mk.inj h).1

/-- **The text of a database is read as all its records**, in the order of their declarations or of
their names, and as many are read as are reported in writing. -/
theorem Run.readDatabase_text {id : Nat} {naming : Naming} {ops : List Operation} {db : Database}
    (h : Run (.new id naming) ops db) {options : OutputOptions} {text : String}
    (htext : db.text options = .ok text)
    (hinfo : ∀ r ∈ db.records, ∀ item ∈ r.info.entries, ∀ c ∈ item.1.val.toList,
      isIdentifierChar c = true)
    (hheader : ∀ header ∈ options.header, PairedReturns header.toList)
    (hcomments : ∀ op ∈ ops, ∀ comment ∈ op.comments, PairedReturns comment.toList)
    (hparameters : ∀ p ∈ db.parameterList, '\r' ∉ p.description.toList ∧
      '\n' ∉ p.description.toList) :
    ∃ order sources, db.Ordered options.alphabetical order ∧
      Source.readDatabase text = .ok sources ∧ List.Forall₂ (RecordReads db) order sources ∧
      ∀ sink count last, db.writeTo options sink = (.ok count, last) →
        sources.length = count := by
  have hinline := h.inlineComments hcomments
  obtain ⟨d, hd, rfl⟩ := exists_of_map_ok htext
  obtain ⟨records, hrender, rfl⟩ := exists_of_map_ok hd
  have hrecords : ∀ r ∈ db.outputOrder options.alphabetical, ∀ rendered,
      db.renderRecord r = .ok rendered →
      ∃ s, RecordReads db r s ∧ Source.ReadsRecord rendered s := by
    intro r hr rendered hrendered
    have hr' := (db.outputOrder_perm options.alphabetical).mem_iff.mp hr
    exact exists_reads_of_renderRecord hrendered (hinline r hr') (hinfo r hr')
  obtain ⟨sources, hreads, hsources⟩ :=
    exists_forall₂_between (mapM_eq_ok_iff.mp hrender) hrecords
  have hdescriptions : ∀ p ∈ db.parameterList, ∀ c ∈ p.description.toList,
      Source.isInline c = true := by
    intro p hp c hc
    obtain ⟨hreturn, hfeed⟩ := hparameters p hp
    have hr : c ≠ '\r' := fun he => hreturn (he ▸ hc)
    have hn : c ≠ '\n' := fun he => hfeed (he ▸ hc)
    simp [Source.isInline, hr, hn]
  refine ⟨_, sources, db.ordered_outputOrder options.alphabetical,
    Source.readDatabase_document hheader hdescriptions hsources, hreads, ?_⟩
  intro sink count last hwrite
  rw [← length_of_writeTo hd hwrite]
  exact hsources.length_eq.symm

/-- A record with a comment, a field and an info item, below a header. -/
theorem Run.readDatabase_text_commented :
    ∃ db text, Run (.new 0 .template) [.record "ai" "A", .addComment ⟨0, 0⟩ "note",
        .setField ⟨0, 0⟩ "DESC" (.scalar (.string "a")), .addInfo ⟨0, 0⟩ "tag" "b"] db ∧
      db.records.length = 1 ∧ db.text ⟨some "head", false⟩ = .ok text ∧
      ∃ order sources, db.Ordered false order ∧ Source.readDatabase text = .ok sources ∧
        List.Forall₂ (RecordReads db) order sources ∧
        ∀ sink count last, db.writeTo ⟨some "head", false⟩ sink = (.ok count, last) →
          sources.length = count := by
  have hpaired : ∀ cs : List Char, '\r' ∉ cs → PairedReturns cs :=
    fun cs hcs before after he => absurd (he ▸ by simp) hcs
  have hfits : ∀ (op : Operation) (db : Database), db.id = 0 → 0 < db.names.size →
      op.handles = [⟨0, 0⟩] → op.Fits db := by
    intro op db _ hsize hop h hm _
    rw [hop] at hm
    rwa [List.mem_singleton.mp hm]
  have hfirst : (Operation.record "ai" "A").Fits (.new 0 .template) := fun _ hm => nomatch hm
  obtain ⟨db, hrun, hlength, ⟨text, htext⟩, hinfo, hparameters⟩ :
      ∃ db, Run (.new 0 .template) [.record "ai" "A", .addComment ⟨0, 0⟩ "note",
          .setField ⟨0, 0⟩ "DESC" (.scalar (.string "a")), .addInfo ⟨0, 0⟩ "tag" "b"] db ∧
        db.records.length = 1 ∧ (∃ text, db.text ⟨some "head", false⟩ = .ok text) ∧
        (db.records.all fun r => r.info.entries.all fun item =>
          item.1.val.toList.all isIdentifierChar) = true ∧ db.parameterList = [] :=
    ⟨_, .cons hfirst (.cons (hfits (.addComment ⟨0, 0⟩ "note") _ rfl (by decide) rfl)
      (.cons (hfits (.setField ⟨0, 0⟩ "DESC" (.scalar (.string "a"))) _ rfl (by decide) rfl)
        (.cons (hfits (.addInfo ⟨0, 0⟩ "tag" "b") _ rfl (by decide) rfl) (.nil _)))),
      by decide, ⟨_, rfl⟩, by decide, by decide⟩
  simp only [List.all_eq_true] at hinfo
  refine ⟨db, text, hrun, hlength, htext, Run.readDatabase_text hrun htext hinfo ?_ ?_ ?_⟩
  · rintro header ⟨⟩
    exact hpaired _ (by decide)
  · intro op hop comment hc
    have hnote : comment = "note" := by
      simp only [List.mem_cons, List.not_mem_nil, or_false] at hop
      rcases hop with rfl | rfl | rfl | rfl <;> simp_all [Operation.comments]
    exact hnote ▸ hpaired _ (by decide)
  · rw [hparameters]
    simp

end IocDb
