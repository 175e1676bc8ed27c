import IocDb.Proofs.Handles
import IocDb.Proofs.ReadBack
import IocDb.Proofs.UsableNames

/-!
# What the text of a link says

The text of a link is taken apart from its end: options behind blanks, and before them a field
behind a period. A name that ends in a period and a field name is taken for a field of another
record. Nothing else is mistaken.

* `quote_injective`, `eq_of_append_eq`: quoted texts, and texts up to the first separator.
* `optionChars_injective`, `fieldSuffix_cases`: the options and the field of a link.
* `Database.Shadows`: a name that looks like a field of another record.
* **`Run.fieldText_eq_iff`**: which links are written alike. `not_fieldText_injective`: not only
  equal ones.
-/

namespace IocDb

/-! ## Texts with a separator -/

theorem quote_injective : Function.Injective quote := by
  intro s t h
  have hq : (quote s).toList ++ [] = (quote t).toList ++ [] := by rw [h]
  exact (Source.quote_append_inj hq).1

/-- A text up to the first separator, and what begins with the separator. -/
theorem eq_of_append_eq {sep : Char} {a b x y : List Char} (ha : sep ∉ a) (hb : sep ∉ b)
    (hx : ∀ c ∈ x.head?, c = sep) (hy : ∀ c ∈ y.head?, c = sep) (h : a ++ x = b ++ y) :
    a = b ∧ x = y := by
  induction a generalizing b with
  | nil =>
    cases b with
    | nil => exact ⟨rfl, h⟩
    | cons d b =>
      rw [List.nil_append] at h
      obtain rfl : d = sep := hx d (by rw [h]; rfl)
      exact absurd List.mem_cons_self hb
  | cons c a ih =>
    cases b with
    | nil =>
      rw [List.nil_append] at h
      obtain rfl : c = sep := hy c (by rw [← h]; rfl)
      exact absurd List.mem_cons_self ha
    | cons d b =>
      obtain ⟨rfl, htail⟩ := List.cons.inj h
      obtain ⟨rfl, hxy⟩ :=
        ih (mt (List.mem_cons_of_mem c) ha) (mt (List.mem_cons_of_mem c) hb) htail
      exact ⟨rfl, hxy⟩

/-! ## Options -/

theorem LinkOption.ofText?_text (option : LinkOption) : ofText? option.text = some option := by
  cases option <;> decide

theorem LinkOption.text_injective : Function.Injective LinkOption.text := by
  intro a b h
  have ha := ofText?_text a
  rw [h, ofText?_text] at ha
  exact (Option.some.inj ha).symm

theorem LinkOption.blank_notMem_text (option : LinkOption) : ' ' ∉ option.text.toList := by
  cases option <;> decide

/-- The options of a value. Only decorated links have some. -/
def Value.options : Value → List LinkOption
  | .decorated value => value.options
  | .scalar _ | .parameter _ | .array _ | .link _ => []

/-- Options, each behind a blank. -/
def optionChars (options : List LinkOption) : List Char :=
  options.flatMap fun option => ' ' :: option.text.toList

theorem toList_join_options (options : List LinkOption) :
    (String.join (options.map fun option => " " ++ option.text)).toList = optionChars options := by
  rw [String.toList_join, List.flatMap_map, optionChars]
  refine List.flatMap_congr fun option _ => ?_
  rw [String.toList_append]
  rfl

theorem head?_optionChars (options : List LinkOption) : ∀ c ∈ (optionChars options).head?, c = ' ' := by
  cases options with
  | nil => exact fun _ hc => nomatch hc
  | cons option options => exact fun _ hc => (Option.some.inj hc).symm

theorem optionChars_injective : Function.Injective optionChars := by
  intro options others h
  induction options generalizing others with
  | nil =>
    cases others with
    | nil => rfl
    | cons other others => cases h
  | cons option options ih =>
    cases others with
    | nil => cases h
    | cons other others =>
      obtain ⟨hfirst, hrest⟩ := eq_of_append_eq option.blank_notMem_text other.blank_notMem_text
        (head?_optionChars options) (head?_optionChars others) (List.cons.inj h).2
      rw [LinkOption.text_injective (String.toList_inj.mp hfirst), ih hrest]

/-! ## Fields -/

theorem fieldName_char {field : FieldName} {c : Char} (hc : isIdentifierChar c = false) :
    c ∉ field.val.toList := by
  intro hm
  rw [(isIdentifier_of_fieldName field).2 c hm] at hc
  cases hc

theorem fieldSuffix_char {field : Option FieldName} {c : Char} (hc : isIdentifierChar c = false)
    (hp : c ≠ '.') : c ∉ (fieldSuffix field).toList := by
  cases field with
  | none => exact List.not_mem_nil
  | some field =>
    rw [fieldSuffix, String.toList_append, List.mem_append]
    rintro (hm | hm)
    · exact hp (List.mem_singleton.mp hm)
    · exact fieldName_char hc hm

/-- A name and a field in two ways: the same, or a period in the name is taken for the one before
the field. -/
theorem fieldSuffix_cases {name other : String} {field field' : Option FieldName}
    (h : name ++ fieldSuffix field = other ++ fieldSuffix field') :
    (name = other ∧ field = field') ∨
      (∃ f, field = none ∧ field' = some f ∧ name = other ++ "." ++ f.val) ∨
      ∃ f, field = some f ∧ field' = none ∧ other = name ++ "." ++ f.val := by
  cases field with
  | none =>
    rw [fieldSuffix, String.append_empty] at h
    cases field' with
    | none =>
      rw [fieldSuffix, String.append_empty] at h
      exact .inl ⟨h, rfl⟩
    | some f =>
      rw [fieldSuffix, ← String.append_assoc] at h
      exact .inr (.inl ⟨f, rfl, rfl, h⟩)
  | some f =>
    cases field' with
    | none =>
      rw [fieldSuffix, fieldSuffix, String.append_empty, ← String.append_assoc] at h
      exact .inr (.inr ⟨f, rfl, rfl, h.symm⟩)
    | some g =>
      -- from the end, a field name runs up to the period
      have hr := congrArg (fun s => s.toList.reverse) h
      simp only [fieldSuffix, String.toList_append, List.reverse_append, List.append_assoc] at hr
      have hdot : ∀ field : FieldName, '.' ∉ field.val.toList.reverse := fun field =>
        mt List.mem_reverse.mp (fieldName_char (by decide))
      have hhead : ∀ cs : List Char, ∀ c ∈ (".".toList.reverse ++ cs).head?, c = '.' :=
        fun _ _ hc => (Option.some.inj hc).symm
      obtain ⟨hf, hn⟩ := eq_of_append_eq (hdot f) (hdot g) (hhead _) (hhead _) hr
      obtain rfl : f = g := Subtype.ext (String.toList_inj.mp (List.reverse_inj.mp hf))
      exact .inl ⟨String.toList_inj.mp (List.reverse_inj.mp (List.append_cancel_left hn)), rfl⟩

/-! ## Values -/

namespace Database

variable {db : Database} {v : Value} {link : RecordLink} {name : String}

theorem linkText_of_nameOf (hn : db.nameOf link.record = .ok name) :
    db.linkText link = .ok (name ++ fieldSuffix link.field) := by
  rw [linkText, hn]
  cases link.field with
  | none => rw [fieldSuffix, String.append_empty]; rfl
  | some field => rw [fieldSuffix, ← String.append_assoc]; rfl

theorem fieldText_of_nameOf (hv : v.recordLink? = some link)
    (hn : db.nameOf link.record = .ok name) :
    db.fieldText v = .ok (quote (name ++ fieldSuffix link.field ++
      String.join (v.options.map fun option => " " ++ option.text))) := by
  cases v with
  | scalar | parameter | array => cases hv
  | link value =>
    obtain rfl := Option.some.inj hv
    rw [fieldText, linkText_of_nameOf hn, Value.options, List.map_nil, String.join_nil,
      String.append_empty]
    rfl
  | decorated value =>
    rcases value with ⟨target | _, options, hc⟩ <;> cases hv
    rw [fieldText, decoratedText, targetText, linkText_of_nameOf hn]
    rfl

theorem exists_nameOf_of_validate {record field : String} (hv : v.recordLink? = some link)
    (h : db.validate record field v = .ok ()) : ∃ name, db.nameOf link.record = .ok name := by
  rw [validate_of_link hv, validateLink] at h
  obtain ⟨⟨name, state⟩, he, -⟩ := exists_of_bind_ok h
  exact ⟨name, by rw [nameOf, he]; rfl⟩

/-- A link to a whole record whose name looks like the field that another link is to. -/
def Shadows (db : Database) (link other : RecordLink) : Prop :=
  ∃ name field, link.field = none ∧ other.field = some field ∧
    db.nameOf other.record = .ok name ∧ db.nameOf link.record = .ok (name ++ "." ++ field.val)

end Database

theorem Database.Shadows.target_eq {db : Database} {link other : RecordLink} {name name' : String}
    (h : db.Shadows link other) (hn : db.nameOf link.record = .ok name)
    (hn' : db.nameOf other.record = .ok name') :
    name ++ fieldSuffix link.field = name' ++ fieldSuffix other.field := by
  obtain ⟨base, field, hnone, hsome, hother, hlink⟩ := h
  obtain rfl := Except.ok.inj (hn'.symm.trans hother)
  obtain rfl := Except.ok.inj (hn.symm.trans hlink)
  rw [hnone, hsome, fieldSuffix, fieldSuffix, String.append_empty, String.append_assoc]

theorem target_options_of_eq {target target' : String} {options options' : List LinkOption}
    (ht : ' ' ∉ target.toList) (ht' : ' ' ∉ target'.toList)
    (h : target ++ String.join (options.map fun option => " " ++ option.text) =
      target' ++ String.join (options'.map fun option => " " ++ option.text)) :
    target = target' ∧ options = options' := by
  have hl := congrArg String.toList h
  rw [String.toList_append, String.toList_append, toList_join_options, toList_join_options] at hl
  obtain ⟨hfirst, hrest⟩ := eq_of_append_eq ht ht' (head?_optionChars options)
    (head?_optionChars options') hl
  exact ⟨String.toList_inj.mp hfirst, optionChars_injective hrest⟩

/-! ## Texts of links -/

/-- No target has a blank if no strategy puts one into names. -/
theorem Run.blank_notMem {id : Nat} {naming : Naming} {ops : List Operation} {db : Database}
    (h : Run (.new id naming) ops db) (hblank : ' ' ∉ looseChars naming ops) {handle : Handle}
    {name : String} (hn : db.nameOf handle = .ok name) (field : Option FieldName) :
    ' ' ∉ (name ++ fieldSuffix field).toList := by
  have hname := h.namesUsable_looseChars.key name (Database.nameOf_eq_ok_iff.mp hn).2
  rw [String.toList_append, List.mem_append]
  rintro (hm | hm)
  · exact hblank (hname.mem_loose ' ' hm (by decide))
  · exact fieldSuffix_char (by decide) (by decide) hm

/-- **Two links are written alike just if they are the same link with the same options**, or one is
to a record whose name looks like the field that the other is to. -/
theorem Run.fieldText_eq_iff {id : Nat} {naming : Naming} {ops : List Operation} {db : Database}
    (h : Run (.new id naming) ops db) (hblank : ' ' ∉ looseChars naming ops) {v w : Value}
    {link other : RecordLink} (hv : v.recordLink? = some link) (hw : w.recordLink? = some other)
    {record field record' field' : String} (hvalid : db.validate record field v = .ok ())
    (hvalid' : db.validate record' field' w = .ok ()) :
    (∃ text, db.fieldText v = .ok text ∧ db.fieldText w = .ok text) ↔
      v.options = w.options ∧ (link = other ∨ db.Shadows link other ∨ db.Shadows other link) := by
  obtain ⟨name, hn⟩ := Database.exists_nameOf_of_validate hv hvalid
  obtain ⟨name', hn'⟩ := Database.exists_nameOf_of_validate hw hvalid'
  rw [Database.fieldText_of_nameOf hv hn, Database.fieldText_of_nameOf hw hn']
  constructor
  · rintro ⟨text, ht, ht'⟩
    have hq := quote_injective (Except.ok.inj (ht.trans ht'.symm))
    obtain ⟨htarget, hoptions⟩ := target_options_of_eq (h.blank_notMem hblank hn link.field)
      (h.blank_notMem hblank hn' other.field) hq
    refine ⟨hoptions, ?_⟩
    rcases fieldSuffix_cases htarget with ⟨rfl, hfield⟩ | ⟨f, hf, hf', rfl⟩ | ⟨f, hf, hf', rfl⟩
    · have hrecord : link.record = other.record :=
        (Database.nameOf_eq_ok_iff.mp hn).1.trans (Database.nameOf_eq_ok_iff.mp hn').1.symm
      exact .inl (congrArg₂ RecordLink.mk hrecord hfield)
    · exact .inr (.inl ⟨name', f, hf, hf', hn', hn⟩)
    · exact .inr (.inr ⟨name, f, hf', hf, hn, hn'⟩)
  · rintro ⟨hoptions, hlinks⟩
    have htarget : name ++ fieldSuffix link.field = name' ++ fieldSuffix other.field := by
      rcases hlinks with rfl | hs | hs
      · rw [Except.ok.inj (hn.symm.trans hn')]
      · exact hs.target_eq hn hn'
      · exact (hs.target_eq hn' hn).symm
    exact ⟨_, rfl, by rw [htarget, hoptions]⟩

theorem isFieldName_val : isFieldName "VAL" = true := by decide

/-- The value field of `A` and a record `A.VAL`. -/
def periodLinks : RecordLink × RecordLink :=
  (⟨⟨0, 0⟩, some ⟨"VAL", isFieldName_val⟩⟩, ⟨⟨0, 1⟩, none⟩)

theorem exists_run_period :
    ∃ db, Run (.new 0 .template) [.importRecord "A", .importRecord "A.VAL"] db ∧
      db.validate "R" "INPA" (.link periodLinks.1) = .ok () ∧
      db.validate "R" "INPB" (.link periodLinks.2) = .ok () ∧
      db.fieldText (.link periodLinks.1) = .ok "\"A.VAL\"" ∧
      db.fieldText (.link periodLinks.2) = .ok "\"A.VAL\"" := by
  have hfirst : (Operation.importRecord "A").Fits (.new 0 .template) := fun _ hm => nomatch hm
  have hsecond : (Operation.importRecord "A.VAL").Fits
      ((Operation.importRecord "A").action.run (.new 0 .template)).db := fun _ hm => nomatch hm
  exact ⟨_, .cons hfirst (.cons hsecond (.nil _)), by rfl, by rfl, by rfl, by rfl⟩

/-- The two are written alike, and the name of the one looks like the field of the other. -/
theorem Run.fieldText_eq_iff_period :
    ∃ db, Run (.new 0 .template) [.importRecord "A", .importRecord "A.VAL"] db ∧
      ((∃ text, db.fieldText (.link periodLinks.1) = .ok text ∧
          db.fieldText (.link periodLinks.2) = .ok text) ↔
        Value.options (.link periodLinks.1) = Value.options (.link periodLinks.2) ∧
          (periodLinks.1 = periodLinks.2 ∨ db.Shadows periodLinks.1 periodLinks.2 ∨
            db.Shadows periodLinks.2 periodLinks.1)) := by
  obtain ⟨db, hrun, hvalid, hvalid', -⟩ := exists_run_period
  exact ⟨db, hrun, Run.fieldText_eq_iff hrun (by decide) rfl rfl hvalid hvalid'⟩

/-- Links that are written alike need not be equal. -/
theorem not_fieldText_injective :
    ¬ ∀ db, Reachable db → ∀ (v w : Value) (link other : RecordLink),
      v.recordLink? = some link → w.recordLink? = some other →
      ∀ record field record' field', db.validate record field v = .ok () →
        db.validate record' field' w = .ok () →
        ∀ text, db.fieldText v = .ok text → db.fieldText w = .ok text →
          link.record = other.record ∧ link.field = other.field ∧ v.options = w.options := by
  intro h
  obtain ⟨db, hrun, hvalid, hvalid', ht, ht'⟩ := exists_run_period
  have heq := h db ⟨0, .template, _, hrun⟩ (.link periodLinks.1) (.link periodLinks.2) _ _ rfl rfl
    "R" "INPA" "R" "INPB" hvalid hvalid' _ ht ht'
  exact absurd heq.1 (by decide)

end IocDb
