import IocDb.Proofs.Recognition
import Mathlib.Data.List.Forall2

/-!
# Values and items read back

* `Constant.source`: what is read for an element of an array.
* **`isArray_text`**: what is written for a constant array derives as an array.
* `reads_field`, `reads_alias`, `reads_info`: one item.
* **`readItems_append`**, `readItems_lines`: the items of a record, a line for each.
-/

namespace IocDb

/-- What is read for an element of an array. -/
def Constant.source : Constant → Source.Constant
  | parameter value => .string value.reference
  | scalar (.string value) => .string value
  | scalar value => .number value.text

namespace Source

/-! ## Arrays -/

theorem isString_quote (s : String) : IsString (quote s).toList s := by
  have hq := readQuoted_quote s []
  rwa [List.append_nil] at hq

theorem isElement_constant (c : IocDb.Constant) : IsElement c.text.toList c.source := by
  cases c with
  | parameter p =>
    have hq := readQuoted_reference p []
    rw [List.append_nil] at hq
    exact .string hq
  | scalar s =>
    cases s with
    | string t => exact .string (isString_quote t)
    | _ => exact .number (isNumeral_scalar (by simp))

theorem isMore_elements (cs : List IocDb.Constant) :
    IsMore (cs.flatMap fun c => ',' :: c.text.toList) (cs.map Constant.source) := by
  induction cs with
  | nil => exact .nil
  | cons c cs ih =>
    rw [List.flatMap_cons, List.cons_append, List.map_cons]
    exact .cons .nil .nil (isElement_constant c) ih

theorem intercalate_comma (first : List Char) (more : List (List Char)) :
    [','].intercalate (first :: more) = first ++ more.flatMap (',' :: ·) := by
  induction more generalizing first with
  | nil => simp
  | cons second more ih =>
    rw [List.intercalate_cons_cons, ih, List.flatMap_cons]
    simp

theorem toList_text_array (a : ConstantArray) :
    a.text.toList =
      '[' :: (a.head.text.toList ++ ((a.tail.flatMap fun c => ',' :: c.text.toList) ++ [']'])) := by
  have hcomma : ",".toList = [','] := rfl
  simp only [ConstantArray.text, String.toList_append, String.toList_intercalate, hcomma,
    ConstantArray.elements, List.map_cons, intercalate_comma, List.map_map, List.flatMap_map,
    List.append_assoc]
  rfl

/-- **The text of an array is an array of its elements.** -/
theorem isArray_text (a : ConstantArray) :
    IsArray a.text.toList (a.elements.map Constant.source) := by
  rw [toList_text_array]
  exact .intro .nil (isElement_constant a.head) (isMore_elements a.tail) .nil

/-! ## Values -/

theorem reads_array (a : ConstantArray) :
    Reads value? a.text.toList (.array (a.elements.map Constant.source)) :=
  (IsValue.array (isArray_text a)).reads

theorem reads_value_quote (s : String) : Reads value? (quote s).toList (.string s) :=
  (IsValue.string (isString_quote s)).reads

/-! ## Items -/

theorem call_text (keyword : String) (inner : List Char) :
    Call keyword inner (keyword.toList ++ '(' :: (inner ++ [')'])) :=
  .intro .nil .nil .nil

theorem pair_text {name : String} (h : IsIdentifier name) (value : List Char) :
    Pair name value (name.toList ++ ',' :: ' ' :: value) :=
  .intro h .nil (.separator (by decide) .nil)

/-- **A field is read with its value.** -/
theorem reads_field {name text : String} {v : Value} (hn : IsIdentifier name)
    (hv : Reads value? text.toList v) :
    Reads readItem? ("field(" ++ name ++ ", " ++ text ++ ")").toList (.field name v) := by
  have hopen : "field(".toList = "field".toList ++ ['('] := rfl
  have hchars : ("field(" ++ name ++ ", " ++ text ++ ")").toList =
      "field".toList ++ '(' :: (name.toList ++ ',' :: ' ' :: text.toList ++ [')']) := by
    simp only [String.toList_append, hopen, toList_comma, toList_closing, List.append_assoc,
      List.cons_append, List.nil_append]
  rw [hchars]
  exact (call_text _ _).reads_field (pair_text hn _) hv

theorem reads_alias (name : String) :
    Reads readItem? ("alias(" ++ quote name ++ ")").toList (.alias name) := by
  have hopen : "alias(".toList = "alias".toList ++ ['('] := rfl
  have hchars : ("alias(" ++ quote name ++ ")").toList =
      "alias".toList ++ '(' :: ((quote name).toList ++ [')']) := by
    simp only [String.toList_append, hopen, toList_closing, List.append_assoc, List.cons_append,
      List.nil_append]
  rw [hchars]
  exact (call_text _ _).reads_alias (reads_quote name)

theorem reads_info {name : String} (hn : IsIdentifier name) (value : String) :
    Reads readItem? ("info(" ++ name ++ ", " ++ quote value ++ ")").toList (.info name value) := by
  have hopen : "info(".toList = "info".toList ++ ['('] := rfl
  have hchars : ("info(" ++ name ++ ", " ++ quote value ++ ")").toList =
      "info".toList ++ '(' :: (name.toList ++ ',' :: ' ' :: (quote value).toList ++ [')']) := by
    simp only [String.toList_append, hopen, toList_comma, toList_closing, List.append_assoc,
      List.cons_append, List.nil_append]
  rw [hchars]
  exact (call_text _ _).reads_info (pair_text hn _) (reads_quote value)

/-! ## All items -/

theorem blank_indent : Blank "    ".toList :=
  ((blank_space.append blank_space).append blank_space).append blank_space

/-- An item on a line of its own. -/
def indented (text : String) : List Char := "    ".toList ++ text.toList ++ ['\n']

theorem indented_append (text : String) (rest : List Char) :
    indented text ++ rest = "    ".toList ++ (text.toList ++ (['\n'] ++ rest)) := by
  change "    ".toList ++ text.toList ++ ['\n'] ++ rest = _
  rw [List.append_assoc, List.append_assoc]

/-- **Items are read line by line**, and reading goes on behind them. -/
theorem readItems_append {texts : List String} {items : List Item}
    (h : List.Forall₂ (fun text item => Reads readItem? text.toList item) texts items)
    (rest : List Char) :
    readItems (skipBlanks (texts.flatMap indented ++ rest)) =
      (items ++ (readItems (skipBlanks rest)).1, (readItems (skipBlanks rest)).2) := by
  induction h with
  | nil => rw [List.flatMap_nil, List.nil_append, List.nil_append]
  | cons ht _ ih =>
    rw [List.flatMap_cons, List.append_assoc, indented_append, blank_indent,
      skipBlanks_of_begins (ht.begins.append _), readItems_cons ht, blank_newline, ih,
      List.cons_append]

theorem readItems_lines {texts : List String} {items : List Item}
    (h : List.Forall₂ (fun text item => Reads readItem? text.toList item) texts items)
    (rest : List Char) :
    readItems (skipBlanks (texts.flatMap indented ++ '\x7d' :: rest)) =
      (items, '\x7d' :: rest) := by
  rw [readItems_append h, skipBlanks_of_begins (begins_brace rest), readItems_brace,
    List.append_nil]

end Source

end IocDb
