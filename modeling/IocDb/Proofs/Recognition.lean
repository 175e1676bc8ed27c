import IocDb.Proofs.Phrases
import IocDb.Source.Text

/-!
# What is read is what the grammar derives: items, records and texts

* `Call.reads_field`, `Call.reads_alias`, `Call.reads_info`: items with a value of their own.
  `IsItem.reads`, `exists_isItem`: an item.
* `IsItems.readItems_append`, `exists_isItems`: the items of a record, sort by sort.
* `Call.reads_record`, `IsRecord.reads`, `exists_isRecord`: a record.
* **`readDatabase_eq_ok_iff`**: a text is read if and only if it derives, as the records of its
  derivation.
-/

namespace IocDb.Source

/-! ## Items -/

theorem field?_of_ne {c : Char} (h : 'f' ≠ c) (cs : List Char) : field? (c :: cs) = none := by
  rw [field?, opened?_of_ne rfl h]
  rfl

theorem alias?_of_ne {c : Char} (h : 'a' ≠ c) (cs : List Char) : alias? (c :: cs) = none := by
  rw [alias?, opened?_of_ne rfl h]
  rfl

theorem info?_of_ne {c : Char} (h : 'i' ≠ c) (cs : List Char) : info? (c :: cs) = none := by
  rw [info?, opened?_of_ne rfl h]
  rfl

theorem Call.exists_cons {keyword : String} {k : Char} {ks inner text : List Char}
    (h : Call keyword inner text) (hk : keyword.toList = k :: ks) : ∃ cs, text = k :: cs := by
  obtain ⟨-, -, -⟩ := h
  exact ⟨_, by rw [hk, List.cons_append]⟩

theorem Call.reads_field {name : String} {v : Value} {value inner text : List Char}
    (hc : Call "field" inner text) (hp : Pair name value inner) (hv : Reads value? value v) :
    Reads readItem? text (.field name v) := by
  refine ⟨hc.begins ⟨_, _, rfl, by decide, by decide⟩, fun rest => ?_⟩
  obtain ⟨after, hopen, hclose⟩ := hc.opened?_append hp.begins rest
  obtain ⟨more, hname, hcomma⟩ := hp.identifier?_append hv.begins after
  have hfield : field? (text ++ rest) = some (.field name v, rest) := by
    simp only [field?, Option.bind_eq_bind, Option.bind_some, hopen, hname, hcomma, hv.read, hclose,
      Option.pure_def]
  rw [readItem?, hfield, Option.some_or]

theorem Call.reads_alias {name : String} {token text : List Char}
    (hc : Call "alias" token text) (hn : Reads quoted? token name) :
    Reads readItem? text (.alias name) := by
  refine ⟨hc.begins ⟨_, _, rfl, by decide, by decide⟩, fun rest => ?_⟩
  obtain ⟨after, hopen, hclose⟩ := hc.opened?_append hn.begins rest
  have halias : alias? (text ++ rest) = some (.alias name, rest) := by
    simp only [alias?, Option.bind_eq_bind, Option.bind_some, hopen, hn.read, hclose,
      Option.pure_def]
  obtain ⟨cs, rfl⟩ := hc.exists_cons (rfl : _ = 'a' :: _)
  have hfield : field? ('a' :: cs ++ rest) = none := field?_of_ne (by decide) _
  rw [readItem?, hfield, halias, Option.none_or, Option.some_or]

theorem Call.reads_info {name value : String} {token inner text : List Char}
    (hc : Call "info" inner text) (hp : Pair name token inner) (hv : Reads quoted? token value) :
    Reads readItem? text (.info name value) := by
  refine ⟨hc.begins ⟨_, _, rfl, by decide, by decide⟩, fun rest => ?_⟩
  obtain ⟨after, hopen, hclose⟩ := hc.opened?_append hp.begins rest
  obtain ⟨more, hname, hcomma⟩ := hp.identifier?_append hv.begins after
  have hinfo : info? (text ++ rest) = some (.info name value, rest) := by
    simp only [info?, Option.bind_eq_bind, Option.bind_some, hopen, hname, hcomma, hv.read, hclose,
      Option.pure_def]
  obtain ⟨cs, rfl⟩ := hc.exists_cons (rfl : _ = 'i' :: _)
  have hfield : field? ('i' :: cs ++ rest) = none := field?_of_ne (by decide) _
  have halias : alias? ('i' :: cs ++ rest) = none := alias?_of_ne (by decide) _
  rw [readItem?, hfield, halias, hinfo, Option.none_or, Option.none_or]

theorem IsItem.reads {text : List Char} {item : Item} (h : IsItem text item) :
    Reads readItem? text item := by
  cases h with
  | field hv hp hc => exact hc.reads_field hp hv.reads
  | otherName hn hc => exact hc.reads_alias hn.reads
  | info hv hp hc => exact hc.reads_info hp hv.reads

theorem exists_isItem_of_field? {cs rest : List Char} {item : Item}
    (h : field? cs = some (item, rest)) : ∃ text, cs = text ++ rest ∧ IsItem text item := by
  simp only [field?, Option.bind_eq_bind, Option.bind_eq_some_iff, Option.pure_def,
    Option.some.injEq, Prod.mk.injEq] at h
  obtain ⟨_, hopen, ⟨name, _⟩, hname, _, hcomma, ⟨v, _⟩, hv, _, hclose, rfl, rfl⟩ := h
  obtain ⟨value, rfl, hvalue⟩ := exists_isValue hv
  obtain ⟨inner, rfl, hinner⟩ := exists_pair hname hcomma hvalue.reads.begins.ne_nil
  obtain ⟨text, rfl, htext⟩ := exists_call hopen hinner.begins.ne_nil hclose
  exact ⟨text, rfl, .field hvalue hinner htext⟩

theorem exists_isItem_of_alias? {cs rest : List Char} {item : Item}
    (h : alias? cs = some (item, rest)) : ∃ text, cs = text ++ rest ∧ IsItem text item := by
  simp only [alias?, Option.bind_eq_bind, Option.bind_eq_some_iff, Option.pure_def,
    Option.some.injEq, Prod.mk.injEq] at h
  obtain ⟨_, hopen, ⟨name, _⟩, hname, _, hclose, rfl, rfl⟩ := h
  obtain ⟨token, rfl, htoken⟩ := exists_isString hname
  obtain ⟨text, rfl, htext⟩ := exists_call hopen htoken.begins.ne_nil hclose
  exact ⟨text, rfl, .otherName htoken htext⟩

theorem exists_isItem_of_info? {cs rest : List Char} {item : Item}
    (h : info? cs = some (item, rest)) : ∃ text, cs = text ++ rest ∧ IsItem text item := by
  simp only [info?, Option.bind_eq_bind, Option.bind_eq_some_iff, Option.pure_def,
    Option.some.injEq, Prod.mk.injEq] at h
  obtain ⟨_, hopen, ⟨name, _⟩, hname, _, hcomma, ⟨v, _⟩, hv, _, hclose, rfl, rfl⟩ := h
  obtain ⟨token, rfl, htoken⟩ := exists_isString hv
  obtain ⟨inner, rfl, hinner⟩ := exists_pair hname hcomma htoken.begins.ne_nil
  obtain ⟨text, rfl, htext⟩ := exists_call hopen hinner.begins.ne_nil hclose
  exact ⟨text, rfl, .info htoken hinner htext⟩

theorem exists_isItem {cs rest : List Char} {item : Item}
    (h : readItem? cs = some (item, rest)) : ∃ text, cs = text ++ rest ∧ IsItem text item := by
  rcases Option.or_eq_some_iff.mp h with h | ⟨-, h⟩
  · exact exists_isItem_of_field? h
  rcases Option.or_eq_some_iff.mp h with h | ⟨-, h⟩
  · exact exists_isItem_of_alias? h
  · exact exists_isItem_of_info? h

/-! ## All items of a record -/

theorem begins_brace (rest : List Char) : Begins ('\x7d' :: rest) :=
  ⟨'\x7d', rest, rfl, by decide, by decide⟩

theorem readItems_of_none {cs : List Char} (h : readItem? cs = none) : readItems cs = ([], cs) := by
  rw [readItems]
  split
  · rfl
  · next hs => rw [h] at hs; cases hs

theorem readItems_brace (rest : List Char) : readItems ('\x7d' :: rest) = ([], '\x7d' :: rest) := by
  refine readItems_of_none ?_
  rw [readItem?, field?_of_ne (by decide), alias?_of_ne (by decide), info?_of_ne (by decide)]
  rfl

theorem readItems_cons {text : List Char} {item : Item} (h : Reads readItem? text item)
    (rest : List Char) :
    readItems (text ++ rest) =
      (item :: (readItems (skipBlanks rest)).1, (readItems (skipBlanks rest)).2) := by
  rw [readItems]
  split
  · next hn => rw [h.read] at hn; cases hn
  · next item' after hs =>
    rw [h.read] at hs
    obtain ⟨rfl, rfl⟩ := Prod.mk.inj (Option.some.inj hs)
    rfl

section Items

variable {text gap more body : List Char} {item : Item} {items : List Item}
  {fields : List (String × Value)} {aliases : List String} {info : List (String × String)}

theorem IsItems.begins (h : IsItems body fields aliases info) (rest : List Char) :
    Begins (body ++ '\x7d' :: rest) := by
  cases h with
  | nil => exact begins_brace rest
  | field hitem | otherName hitem | info hitem =>
    rw [List.append_assoc]
    exact hitem.reads.begins.append _

theorem readItems_isItem (hitem : IsItem text item) (hgap : Gap gap)
    (hmore : IsItems more fields aliases info)
    (hread : ∀ rest, readItems (more ++ '\x7d' :: rest) = (items, '\x7d' :: rest))
    (rest : List Char) :
    readItems (text ++ (gap ++ more) ++ '\x7d' :: rest) = (item :: items, '\x7d' :: rest) := by
  rw [List.append_assoc, List.append_assoc, readItems_cons hitem.reads, hgap.blank,
    skipBlanks_of_begins (hmore.begins rest), hread]

/-- **Derived items are read** up to the closing brace, and sorted as in their derivation. -/
theorem IsItems.readItems_append (h : IsItems body fields aliases info) :
    ∃ items, (∀ rest, readItems (body ++ '\x7d' :: rest) = (items, '\x7d' :: rest)) ∧
      ∀ type name, Record.ofItems type name items = ⟨type, name, fields, aliases, info⟩ := by
  induction h with
  | nil => exact ⟨[], readItems_brace, fun _ _ => rfl⟩
  | @field _ _ _ field value _ _ _ hitem hgap hmore ih =>
    obtain ⟨items, hread, hsorted⟩ := ih
    exact ⟨_, readItems_isItem hitem hgap hmore hread, fun type name =>
      congrArg (fun r => { r with fields := (field, value) :: r.fields }) (hsorted type name)⟩
  | @otherName _ _ _ other _ _ _ hitem hgap hmore ih =>
    obtain ⟨items, hread, hsorted⟩ := ih
    exact ⟨_, readItems_isItem hitem hgap hmore hread, fun type name =>
      congrArg (fun r => { r with aliases := other :: r.aliases }) (hsorted type name)⟩
  | @info _ _ _ key value _ _ _ hitem hgap hmore ih =>
    obtain ⟨items, hread, hsorted⟩ := ih
    exact ⟨_, readItems_isItem hitem hgap hmore hread, fun type name =>
      congrArg (fun r => { r with info := (key, value) :: r.info }) (hsorted type name)⟩

/-- **Items that are read are derived**, if anything is left behind them. -/
theorem exists_isItems {cs rest : List Char} (h : readItems cs = (items, rest)) (hr : rest ≠ []) :
    ∃ body fields aliases info, cs = body ++ rest ∧ IsItems body fields aliases info ∧
      ∀ type name, Record.ofItems type name items = ⟨type, name, fields, aliases, info⟩ := by
  fun_induction readItems cs generalizing items with
  | case1 cs =>
    obtain ⟨rfl, rfl⟩ := Prod.mk.inj h
    exact ⟨[], [], [], [], rfl, .nil, fun _ _ => rfl⟩
  | case2 cs item after hi hl items' last hread ih =>
    obtain ⟨rfl, rfl⟩ := Prod.mk.inj h
    obtain ⟨text, rfl, hitem⟩ := exists_isItem hi
    obtain ⟨more, fields, aliases, info, hmore, hitems, hsorted⟩ := ih hread
    obtain ⟨gap, rfl, hgap⟩ := exists_gap_of_ne_nil hmore (List.append_ne_nil_of_right_ne_nil _ hr)
    have hchars : text ++ (gap ++ (more ++ last)) = text ++ (gap ++ more) ++ last := by
      simp only [List.append_assoc]
    rcases item with ⟨field, value⟩ | other | ⟨key, value⟩
    · exact ⟨_, _, _, _, hchars, .field hitem hgap hitems, fun type name =>
        congrArg (fun r => { r with fields := (field, value) :: r.fields }) (hsorted type name)⟩
    · exact ⟨_, _, _, _, hchars, .otherName hitem hgap hitems, fun type name =>
        congrArg (fun r => { r with aliases := other :: r.aliases }) (hsorted type name)⟩
    · exact ⟨_, _, _, _, hchars, .info hitem hgap hitems, fun type name =>
        congrArg (fun r => { r with info := (key, value) :: r.info }) (hsorted type name)⟩

end Items

/-! ## Records -/

theorem openBrace?_append {gap : List Char} (h : Blank gap) (rest : List Char) :
    openBrace? (gap ++ '\x7b' :: rest) = some (skipBlanks rest) := by
  have hopen : Begins ('\x7b' :: rest) := ⟨_, _, rfl, by decide, by decide⟩
  rw [openBrace?, h, skipBlanks_of_begins hopen]
  rfl

/-- What is read of a record whose head is derived depends on its items. -/
theorem Call.readRecord?_append {type name : String} {token inner head gap : List Char}
    (hc : Call "record" inner head) (hp : Pair type token inner) (hn : Reads quoted? token name)
    (hg : Blank gap) (rest : List Char) :
    readRecord? (head ++ (gap ++ '\x7b' :: rest)) =
      (closeBrace? (readItems (skipBlanks rest)).2).map
        fun after => (.ofItems type name (readItems (skipBlanks rest)).1, after) := by
  obtain ⟨after, hopen, hclose⟩ := hc.opened?_append hp.begins (gap ++ '\x7b' :: rest)
  obtain ⟨more, htype, hcomma⟩ := hp.identifier?_append hn.begins after
  simp only [readRecord?, Option.bind_eq_bind, Option.bind_some, hopen, htype, hcomma, hn.read,
    hclose, openBrace?_append hg, Option.pure_def]
  exact Option.map_eq_bind.symm

theorem Call.reads_record {type name : String} {token inner head gap body : List Char}
    {items : List Item} (hc : Call "record" inner head) (hp : Pair type token inner)
    (hn : Reads quoted? token name) (hg : Blank gap)
    (hi : ∀ rest, readItems (skipBlanks (body ++ '\x7d' :: rest)) = (items, '\x7d' :: rest)) :
    Reads readRecord? (head ++ (gap ++ '\x7b' :: (body ++ ['\x7d']))) (.ofItems type name items) := by
  have hb : Begins head := hc.begins ⟨_, _, rfl, by decide, by decide⟩
  refine ⟨hb.append _, fun rest => ?_⟩
  simp only [List.append_assoc, List.cons_append, List.nil_append]
  rw [hc.readRecord?_append hp hn hg, hi]
  rfl

theorem IsRecord.reads {text : List Char} {r : Record} (h : IsRecord text r) :
    Reads readRecord? text r := by
  obtain ⟨hn, hp, hc, h₁, h₂, hitems⟩ := h
  next type name token inner head g₁ g₂ body fields aliases info =>
  obtain ⟨items, hread, hsorted⟩ := hitems.readItems_append
  rw [← hsorted type name, ← List.append_assoc g₂]
  refine hc.reads_record hp hn.reads h₁.blank fun rest => ?_
  rw [List.append_assoc, h₂.blank, skipBlanks_of_begins (hitems.begins rest), hread]

theorem exists_openBrace {cs rest : List Char} (h : openBrace? cs = some rest) (hr : rest ≠ []) :
    ∃ g₁ g₂, cs = g₁ ++ '\x7b' :: (g₂ ++ rest) ∧ Gap g₁ ∧ Gap g₂ := by
  unfold openBrace? at h
  split at h
  · next he => exact exists_gaps_around he (Option.some.inj h) hr
  · cases h

theorem closeBrace?_eq_some {cs rest : List Char} (h : closeBrace? cs = some rest) :
    cs = '\x7d' :: rest := by
  unfold closeBrace? at h
  split at h
  · rw [Option.some.inj h]
  · cases h

theorem exists_isRecord {cs rest : List Char} {r : Record} (h : readRecord? cs = some (r, rest)) :
    ∃ text, cs = text ++ rest ∧ IsRecord text r := by
  simp only [readRecord?, Option.bind_eq_bind, Option.bind_eq_some_iff, Option.pure_def,
    Option.some.injEq, Prod.mk.injEq] at h
  obtain ⟨_, hopen, ⟨type, _⟩, htype, _, hcomma, ⟨name, _⟩, hname, _, hclose, inner, hbrace, _, hend,
    rfl, rfl⟩ := h
  obtain ⟨token, rfl, htoken⟩ := exists_isString hname
  obtain ⟨pair, rfl, hpair⟩ := exists_pair htype hcomma htoken.begins.ne_nil
  obtain ⟨head, rfl, hhead⟩ := exists_call hopen hpair.begins.ne_nil hclose
  have hlast := closeBrace?_eq_some hend
  have hne : (readItems inner).2 ≠ [] := by
    rw [hlast]
    exact List.cons_ne_nil _ _
  obtain ⟨body, fields, aliases, info, hinner, hitems, hsorted⟩ :=
    exists_isItems (rfl : readItems inner = (_, _)) hne
  obtain ⟨g₁, g₂, rfl, h₁, h₂⟩ :=
    exists_openBrace hbrace (hinner ▸ List.append_ne_nil_of_right_ne_nil body hne)
  rw [hsorted]
  refine ⟨_, ?_, .intro htoken hpair hhead h₁ h₂ hitems⟩
  rw [hinner, hlast]
  simp

/-! ## Texts -/

theorem readRecords_of_none {cs : List Char} (h : readRecord? cs = none) :
    readRecords cs = ([], cs) := by
  rw [readRecords]
  split
  · rfl
  · next hs => rw [h] at hs; cases hs

theorem readRecords_cons {text : List Char} {s : Record} (h : Reads readRecord? text s)
    (rest : List Char) :
    readRecords (text ++ rest) =
      (s :: (readRecords (skipBlanks rest)).1, (readRecords (skipBlanks rest)).2) := by
  rw [readRecords]
  split
  · next hn => rw [h.read] at hn; cases hn
  · next s' after hs =>
    rw [h.read] at hs
    obtain ⟨rfl, rfl⟩ := Prod.mk.inj (Option.some.inj hs)
    rfl

/-- **Derived records are read** in front of any text, and reading goes on behind them. -/
theorem IsRecords.readRecords_rest {body : List Char} {rs : List Record} (h : IsRecords body rs)
    (rest : List Char) :
    readRecords (skipBlanks (body ++ rest)) =
      (rs ++ (readRecords (skipBlanks rest)).1, (readRecords (skipBlanks rest)).2) := by
  induction h with
  | nil => rw [List.nil_append, List.nil_append]
  | cons hr hgap _ ih =>
    rw [List.append_assoc, List.append_assoc, skipBlanks_of_begins (hr.reads.begins.append _),
      readRecords_cons hr.reads, hgap.blank, ih, List.cons_append]

theorem IsRecords.readRecords_append {body tail : List Char} {rs : List Record}
    (h : IsRecords body rs) (ht : OpenComment tail) :
    readRecords (skipBlanks (body ++ tail)) = (rs, []) := by
  rw [h.readRecords_rest, ht.skipBlanks_eq, readRecords_of_none rfl, List.append_nil]

/-- What is skipped before records is a gap; without any records it is a comment as well. -/
theorem exists_gap_append {cs body tail rest : List Char} {rs : List Record}
    (h : skipBlanks cs = body ++ (tail ++ rest)) (hb : IsRecords body rs) (ht : OpenComment tail)
    (hr : rest ≠ [] → tail = []) :
    ∃ gap tail', cs = gap ++ (body ++ (tail' ++ rest)) ∧ Gap gap ∧ OpenComment tail' ∧
      (rest ≠ [] → tail' = []) := by
  obtain ⟨gap, before, hcs, hgap, hbefore, hnil⟩ := exists_gap cs
  by_cases hne : skipBlanks cs = []
  · rw [hne] at h
    simp only [List.nil_eq_append_iff, List.append_eq_nil_iff] at h
    obtain ⟨rfl, rfl, rfl⟩ := h
    rw [hne] at hcs
    exact ⟨gap, before, hcs, hgap, hbefore, (absurd rfl ·)⟩
  · rw [hnil hne, h, List.nil_append] at hcs
    exact ⟨gap, tail, hcs, hgap, ht, hr⟩

/-- **Records that are read are derived**; all that is left is no record, or the text ends. -/
theorem exists_isRecords {cs rest : List Char} {rs : List Record} (h : readRecords cs = (rs, rest)) :
    ∃ body tail, cs = body ++ (tail ++ rest) ∧ IsRecords body rs ∧ OpenComment tail ∧
      (rest ≠ [] → tail = []) := by
  fun_induction readRecords cs generalizing rs with
  | case1 cs =>
    obtain ⟨rfl, rfl⟩ := Prod.mk.inj h
    exact ⟨[], [], rfl, .nil, .nil, fun _ => rfl⟩
  | case2 cs r after hrecord hl rs' last hread ih =>
    obtain ⟨rfl, rfl⟩ := Prod.mk.inj h
    obtain ⟨text, rfl, hr⟩ := exists_isRecord hrecord
    obtain ⟨body, tail, hafter, hbody, htail, hnil⟩ := ih hread
    obtain ⟨gap, tail', rfl, hgap, htail', hnil'⟩ := exists_gap_append hafter hbody htail hnil
    exact ⟨_, tail', by simp, .cons hr hgap hbody, htail', hnil'⟩

/-- **A text is read if and only if it derives from the grammar, as the records of its
derivation.** -/
theorem readDatabase_eq_ok_iff {text : String} {rs : List Record} :
    readDatabase text = .ok rs ↔ IsDatabase text.toList rs := by
  constructor
  · intro h
    unfold readDatabase atEnd at h
    split at h
    · next found hread =>
      obtain rfl := Except.ok.inj h
      obtain ⟨body, tail, hcs, hbody, htail, hnil⟩ := exists_isRecords (Except.ok.inj hread)
      obtain ⟨gap, tail', he, hgap, htail', -⟩ := exists_gap_append hcs hbody htail hnil
      rw [he, List.append_nil]
      exact .intro hgap hbody htail'
    · cases h
    · cases h
  · intro h
    generalize hcs : text.toList = cs at h
    obtain ⟨hgap, hbody, htail⟩ := h
    rw [readDatabase, hcs, hgap.blank, hbody.readRecords_append htail]
    rfl

end IocDb.Source
