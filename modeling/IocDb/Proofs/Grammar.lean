import IocDb.Proofs.Numeral
import IocDb.Proofs.Tokens

/-!
# The grammar of database texts

A database text is a list of records. Gaps of blanks and comments can stand between any two tokens,
and only at the end of the text a comment can do without the end of its line.

* `Gap`, `OpenComment`: what separates tokens, and what is left of it at the end of the text.
* `Call`, `Pair`: a keyword with parentheses behind it, and a name with a value behind a comma.
* `IsString`, `IsElement`, `IsArray`, `IsValue`: string tokens, arrays and field values.
* `IsItem`, `IsItems`, `IsRecord`: records and what stands between their braces.
* **`IsDatabase`**: a whole text and its records.
-/

namespace IocDb.Source

/-! ## Gaps -/

/-- The end of a line. -/
inductive LineEnd : List Char → Prop where
  | feed : LineEnd ['\n']
  | returnFeed : LineEnd ['\r', '\n']

/-- The characters of one line. -/
def Inline (line : List Char) : Prop := ∀ c ∈ line, c ≠ '\r' ∧ c ≠ '\n'

/-- Spaces, tabs, returns, line feeds and comments, in any mix. A comment runs from a number sign
to the end of its line. -/
inductive Gap : List Char → Prop where
  | nil : Gap []
  | separator {c : Char} {gap : List Char} : c ∈ [' ', '\t', '\r', '\n'] → Gap gap → Gap (c :: gap)
  | comment {line stop gap : List Char} : Inline line → LineEnd stop → Gap gap →
      Gap ('#' :: (line ++ (stop ++ gap)))

/-- A comment that runs to the end of the text, or nothing. -/
inductive OpenComment : List Char → Prop where
  | nil : OpenComment []
  | comment {line : List Char} : Inline line → OpenComment ('#' :: line)

/-! ## Parentheses and commas -/

/-- A keyword with something in parentheses: `keyword ( inner )`. -/
inductive Call (keyword : String) (inner : List Char) : List Char → Prop where
  | intro {g₁ g₂ g₃ : List Char} : Gap g₁ → Gap g₂ → Gap g₃ →
      Call keyword inner (keyword.toList ++ (g₁ ++ '(' :: (g₂ ++ (inner ++ (g₃ ++ [')'])))))

/-- An identifier with something behind a comma: `name , value`. -/
inductive Pair (name : String) (value : List Char) : List Char → Prop where
  | intro {g₁ g₂ : List Char} : IsIdentifier name → Gap g₁ → Gap g₂ →
      Pair name value (name.toList ++ (g₁ ++ ',' :: (g₂ ++ value)))

/-! ## Values -/

/-- A string token and the text that it is decoded to. -/
def IsString (token : List Char) (s : String) : Prop := readQuoted token = .ok (s, [])

/-- An element of an array: a string token or a number. -/
inductive IsElement : List Char → Constant → Prop where
  | string {token : List Char} {s : String} : IsString token s → IsElement token (.string s)
  | number {s : String} : IsNumeral s.toList → IsElement s.toList (.number s)

/-- Any number of elements, each behind a comma. -/
inductive IsMore : List Char → List Constant → Prop where
  | nil : IsMore [] []
  | cons {g₁ g₂ text more : List Char} {e : Constant} {es : List Constant} :
      Gap g₁ → Gap g₂ → IsElement text e → IsMore more es →
      IsMore (g₁ ++ ',' :: (g₂ ++ (text ++ more))) (e :: es)

/-- An array: one or more elements in brackets, with a comma between each two. -/
inductive IsArray : List Char → List Constant → Prop where
  | intro {g₁ g₂ text more : List Char} {e : Constant} {es : List Constant} :
      Gap g₁ → IsElement text e → IsMore more es → Gap g₂ →
      IsArray ('[' :: (g₁ ++ (text ++ (more ++ (g₂ ++ [']']))))) (e :: es)

/-- The value of a field: an array or a string token. -/
inductive IsValue : List Char → Value → Prop where
  | array {text : List Char} {es : List Constant} : IsArray text es → IsValue text (.array es)
  | string {token : List Char} {s : String} : IsString token s → IsValue token (.string s)

/-! ## Records -/

/-- A field, an alias or an info item. -/
inductive IsItem : List Char → Item → Prop where
  | field {name : String} {value : Value} {v inner text : List Char} :
      IsValue v value → Pair name v inner → Call "field" inner text →
      IsItem text (.field name value)
  | otherName {name : String} {token text : List Char} :
      IsString token name → Call "alias" token text → IsItem text (.alias name)
  | info {name value : String} {token inner text : List Char} :
      IsString token value → Pair name token inner → Call "info" inner text →
      IsItem text (.info name value)

/-- Any number of items with a gap behind each, and their fields, aliases and info items in
order. -/
inductive IsItems : List Char → List (String × Value) → List String → List (String × String) → Prop
    where
  | nil : IsItems [] [] [] []
  | field {text gap more : List Char} {name : String} {value : Value}
      {fields : List (String × Value)} {aliases : List String} {info : List (String × String)} :
      IsItem text (.field name value) → Gap gap → IsItems more fields aliases info →
      IsItems (text ++ (gap ++ more)) ((name, value) :: fields) aliases info
  | otherName {text gap more : List Char} {name : String}
      {fields : List (String × Value)} {aliases : List String} {info : List (String × String)} :
      IsItem text (.alias name) → Gap gap → IsItems more fields aliases info →
      IsItems (text ++ (gap ++ more)) fields (name :: aliases) info
  | info {text gap more : List Char} {name value : String}
      {fields : List (String × Value)} {aliases : List String} {info : List (String × String)} :
      IsItem text (.info name value) → Gap gap → IsItems more fields aliases info →
      IsItems (text ++ (gap ++ more)) fields aliases ((name, value) :: info)

/-- A record: its type and name in parentheses, and its items in braces. -/
inductive IsRecord : List Char → Record → Prop where
  | intro {type name : String} {token inner head g₁ g₂ body : List Char}
      {fields : List (String × Value)} {aliases : List String} {info : List (String × String)} :
      IsString token name → Pair type token inner → Call "record" inner head →
      Gap g₁ → Gap g₂ → IsItems body fields aliases info →
      IsRecord (head ++ (g₁ ++ '\x7b' :: (g₂ ++ (body ++ ['\x7d'])))) ⟨type, name, fields, aliases, info⟩

/-! ## Texts -/

/-- Any number of records with a gap behind each. -/
inductive IsRecords : List Char → List Record → Prop where
  | nil : IsRecords [] []
  | cons {text gap more : List Char} {r : Record} {rs : List Record} :
      IsRecord text r → Gap gap → IsRecords more rs → IsRecords (text ++ (gap ++ more)) (r :: rs)

/-- A whole text: a gap and records, up to a comment in the last line. -/
inductive IsDatabase : List Char → List Record → Prop where
  | intro {gap body tail : List Char} {rs : List Record} :
      Gap gap → IsRecords body rs → OpenComment tail → IsDatabase (gap ++ (body ++ tail)) rs

end IocDb.Source
