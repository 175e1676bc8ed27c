import IocDb.Source.Array
import IocDb.Word

/-!
# Reading records

A record has a type and a name, and between braces any number of fields, aliases and info items in
any order.

* `Item`, `readItem?`, `readItems`: what stands between the braces.
* `readRecord?`, **`readRecords`**: one record, and as many as follow each other.
-/

namespace IocDb.Source

/-! ## Words and brackets -/

/-- What follows a keyword and an opening parenthesis. -/
def opened? (keyword : String) (cs : List Char) : Option (List Char) :=
  match (keyword? keyword.toList cs).map skipBlanks with
  | some ('(' :: rest) => some (skipBlanks rest)
  | _ => none

/-- What follows a closing parenthesis. -/
def closed? (cs : List Char) : Option (List Char) :=
  match skipBlanks cs with
  | ')' :: rest => some rest
  | _ => none

/-- An identifier at the beginning of a text. -/
def identifier? (cs : List Char) : Option (String × List Char) := word? isIdentifierChar cs

theorem length_opened? {keyword : String} {cs rest : List Char}
    (h : opened? keyword cs = some rest) : rest.length < cs.length := by
  unfold opened? at h
  split at h
  · next after ho =>
    obtain ⟨tail, ht, hs⟩ := Option.map_eq_some_iff.mp ho
    obtain rfl := Option.some.inj h
    have hk := length_keyword?_le ht
    have hb := length_skipBlanks_le tail
    rw [hs, List.length_cons] at hb
    have := length_skipBlanks_le after
    omega
  · cases h

theorem length_closed? {cs rest : List Char} (h : closed? cs = some rest) :
    rest.length < cs.length := by
  have hs := length_skipBlanks_le cs
  unfold closed? at h
  split at h
  · next after he => obtain rfl := Option.some.inj h; rw [he] at hs; exact hs
  · cases h

theorem length_identifier? {cs rest : List Char} {word : String}
    (h : identifier? cs = some (word, rest)) : rest.length < cs.length := length_word? h

/-! ## Items -/

/-- What can stand between the braces of a record. -/
inductive Item where
  | field (name : String) (value : Value)
  | alias (name : String)
  | info (name value : String)
deriving Repr, DecidableEq

/-- A string token. -/
def quoted? (cs : List Char) : Option (String × List Char) := (readQuoted cs).toOption

/-- A field value: an array or a string token. -/
def value? (cs : List Char) : Option (Value × List Char) :=
  match readArray cs with
  | .ok (elements, rest) => some (.array elements, rest)
  | .error _ => (quoted? cs).map fun (s, rest) => (.string s, rest)

/-- `field(NAME, VALUE)`. -/
def field? (cs : List Char) : Option (Item × List Char) := do
  let rest ← opened? "field" cs
  let (name, rest) ← identifier? rest
  let rest ← comma? rest
  let (value, rest) ← value? rest
  let rest ← closed? rest
  return (.field name value, rest)

/-- `alias("NAME")`. -/
def alias? (cs : List Char) : Option (Item × List Char) := do
  let rest ← opened? "alias" cs
  let (name, rest) ← quoted? rest
  let rest ← closed? rest
  return (.alias name, rest)

/-- `info(NAME, "VALUE")`. -/
def info? (cs : List Char) : Option (Item × List Char) := do
  let rest ← opened? "info" cs
  let (name, rest) ← identifier? rest
  let rest ← comma? rest
  let (value, rest) ← quoted? rest
  let rest ← closed? rest
  return (.info name value, rest)

/-- A field, an alias or an info item at the beginning of a text. -/
def readItem? (cs : List Char) : Option (Item × List Char) :=
  (field? cs).or <| (alias? cs).or <| info? cs

theorem length_quoted? {cs rest : List Char} {s : String} (h : quoted? cs = some (s, rest)) :
    rest.length < cs.length := by
  unfold quoted? at h
  cases hq : readQuoted cs with
  | error _ => simp [hq, Except.toOption] at h
  | ok r => simp [hq, Except.toOption] at h; subst h; exact length_readQuoted hq

theorem length_value? {cs rest : List Char} {v : Value} (h : value? cs = some (v, rest)) :
    rest.length < cs.length := by
  unfold value? at h
  split at h
  · next elements after ha =>
    obtain ⟨-, rfl⟩ := Prod.mk.inj (Option.some.inj h)
    exact length_readArray ha
  · obtain ⟨⟨s, after⟩, hq, he⟩ := Option.map_eq_some_iff.mp h
    obtain ⟨-, rfl⟩ := Prod.mk.inj he
    exact length_quoted? hq

theorem length_field? {cs rest : List Char} {item : Item} (h : field? cs = some (item, rest)) :
    rest.length < cs.length := by
  simp only [field?, Option.bind_eq_bind, Option.bind_eq_some_iff, Option.pure_def,
    Option.some.injEq, Prod.mk.injEq] at h
  obtain ⟨_, ho, ⟨_, _⟩, hn, _, hs, ⟨_, _⟩, hv, _, hc, -, rfl⟩ := h
  exact Nat.lt_trans (length_closed? hc) <|
    Nat.lt_trans (length_value? hv) <|
    Nat.lt_trans (length_comma? hs) <|
    Nat.lt_trans (length_identifier? hn) <|
    length_opened? ho

theorem length_alias? {cs rest : List Char} {item : Item} (h : alias? cs = some (item, rest)) :
    rest.length < cs.length := by
  simp only [alias?, Option.bind_eq_bind, Option.bind_eq_some_iff, Option.pure_def,
    Option.some.injEq, Prod.mk.injEq] at h
  obtain ⟨_, ho, ⟨_, _⟩, hn, _, hc, -, rfl⟩ := h
  exact Nat.lt_trans (length_closed? hc) <|
    Nat.lt_trans (length_quoted? hn) <|
    length_opened? ho

theorem length_info? {cs rest : List Char} {item : Item} (h : info? cs = some (item, rest)) :
    rest.length < cs.length := by
  simp only [info?, Option.bind_eq_bind, Option.bind_eq_some_iff, Option.pure_def,
    Option.some.injEq, Prod.mk.injEq] at h
  obtain ⟨_, ho, ⟨_, _⟩, hn, _, hs, ⟨_, _⟩, hv, _, hc, -, rfl⟩ := h
  exact Nat.lt_trans (length_closed? hc) <|
    Nat.lt_trans (length_quoted? hv) <|
    Nat.lt_trans (length_comma? hs) <|
    Nat.lt_trans (length_identifier? hn) <|
    length_opened? ho

theorem length_readItem? {cs rest : List Char} {item : Item}
    (h : readItem? cs = some (item, rest)) : rest.length < cs.length := by
  rcases Option.or_eq_some_iff.mp h with h | ⟨-, h⟩
  · exact length_field? h
  rcases Option.or_eq_some_iff.mp h with h | ⟨-, h⟩
  · exact length_alias? h
  · exact length_info? h

/-- The items at the beginning of a text, with the blanks behind each. -/
def readItems (cs : List Char) : List Item × List Char :=
  match h : readItem? cs with
  | none => ([], cs)
  | some (item, after) =>
    have : (skipBlanks after).length < cs.length :=
      Nat.lt_of_le_of_lt (length_skipBlanks_le after) (length_readItem? h)
    let (items, rest) := readItems (skipBlanks after)
    (item :: items, rest)
termination_by cs.length
decreasing_by exact this

theorem length_readItems_le (cs : List Char) : (readItems cs).2.length ≤ cs.length := by
  fun_induction readItems cs with
  | case1 => exact Nat.le_refl _
  | case2 cs item after h hl items rest he ih =>
    rw [he] at ih
    exact Nat.le_trans ih (Nat.le_of_lt hl)

/-! ## Records -/

/-- The record with the given items, each sort in order. -/
def Record.ofItems (type name : String) (items : List Item) : Record where
  type := type
  name := name
  fields := items.filterMap fun
    | .field name value => some (name, value)
    | _ => none
  aliases := items.filterMap fun
    | .alias name => some name
    | _ => none
  info := items.filterMap fun
    | .info name value => some (name, value)
    | _ => none

/-- What follows an opening brace and the blanks around it. -/
def openBrace? (cs : List Char) : Option (List Char) :=
  match skipBlanks cs with
  | '\x7b' :: rest => some (skipBlanks rest)
  | _ => none

/-- What follows a closing brace. -/
def closeBrace? : List Char → Option (List Char)
  | '\x7d' :: rest => some rest
  | _ => none

/-- A record at the beginning of a text. -/
def readRecord? (cs : List Char) : Option (Record × List Char) := do
  let rest ← opened? "record" cs
  let (type, rest) ← identifier? rest
  let rest ← comma? rest
  let (name, rest) ← quoted? rest
  let rest ← closed? rest
  let rest ← openBrace? rest
  let (items, rest) := readItems rest
  let rest ← closeBrace? rest
  return (.ofItems type name items, rest)

theorem length_openBrace? {cs rest : List Char} (h : openBrace? cs = some rest) :
    rest.length < cs.length := by
  have hs := length_skipBlanks_le cs
  unfold openBrace? at h
  split at h
  · next after he =>
    obtain rfl := Option.some.inj h
    rw [he, List.length_cons] at hs
    exact Nat.lt_of_le_of_lt (length_skipBlanks_le after) hs
  · cases h

theorem length_closeBrace? {cs rest : List Char} (h : closeBrace? cs = some rest) :
    rest.length < cs.length := by
  unfold closeBrace? at h
  split at h
  · obtain rfl := Option.some.inj h; exact Nat.lt_succ_self _
  · cases h

theorem length_readRecord? {cs rest : List Char} {r : Record}
    (h : readRecord? cs = some (r, rest)) : rest.length < cs.length := by
  simp only [readRecord?, Option.bind_eq_bind, Option.bind_eq_some_iff, Option.pure_def,
    Option.some.injEq, Prod.mk.injEq] at h
  obtain ⟨_, ho, ⟨_, _⟩, ht, _, hs, ⟨_, _⟩, hn, _, hc, inner, hb, _, he, -, rfl⟩ := h
  exact Nat.lt_trans (length_closeBrace? he) <|
    Nat.lt_of_le_of_lt (length_readItems_le inner) <|
    Nat.lt_trans (length_openBrace? hb) <| Nat.lt_trans (length_closed? hc) <|
    Nat.lt_trans (length_quoted? hn) <| Nat.lt_trans (length_comma? hs) <|
    Nat.lt_trans (length_identifier? ht) (length_opened? ho)

/-- The records at the beginning of a text, with the blanks behind each. -/
def readRecords (cs : List Char) : List Record × List Char :=
  match h : readRecord? cs with
  | none => ([], cs)
  | some (record, after) =>
    have : (skipBlanks after).length < cs.length :=
      Nat.lt_of_le_of_lt (length_skipBlanks_le after) (length_readRecord? h)
    let (records, rest) := readRecords (skipBlanks after)
    (record :: records, rest)
termination_by cs.length
decreasing_by exact this

end IocDb.Source
