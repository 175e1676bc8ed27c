import IocDb.Text.Blank

/-!
# Words

The words of a database file that are written without quotes, each a text that passes a test on
its characters. All tests but the one on info names admit ASCII alone.

* `FieldName`, `RecordType`, `ParameterName`, `InfoName`, each with its `ofString?`.
-/

namespace IocDb

/-- A non-empty text of characters that pass the test. -/
def isWord (test : Char → Bool) (s : String) : Bool := !s.toList.isEmpty && s.toList.all test

/-- An ASCII letter, an ASCII digit or the underscore. -/
def isIdentifierChar (c : Char) : Bool := c.isAlphanum || c = '_'

/-! ## Field names -/

/-- A field name: capital letters, digits and underscores. -/
def isFieldName (s : String) : Bool := isWord (fun c => c.isUpper || c.isDigit || c = '_') s

/-- The name of a field of a record. -/
abbrev FieldName : Type := {s : String // isFieldName s = true}

/-- The field name with the given text. -/
def FieldName.ofString? (s : String) : Option FieldName :=
  if h : isFieldName s = true then some ⟨s, h⟩ else none

/-! ## Record types -/

/-- A record type: letters, digits and underscores. -/
def isRecordType (s : String) : Bool := isWord isIdentifierChar s

/-- The type of a record. -/
abbrev RecordType : Type := {s : String // isRecordType s = true}

/-- The record type with the given text. -/
def RecordType.ofString? (s : String) : Option RecordType :=
  if h : isRecordType s = true then some ⟨s, h⟩ else none

/-! ## Parameter names -/

/-- A parameter name: letters, digits and underscores, with no digit in front. -/
def isParameterName (s : String) : Bool :=
  isWord isIdentifierChar s && s.toList.head?.any fun c => !c.isDigit

/-- The name of a macro parameter. -/
abbrev ParameterName : Type := {s : String // isParameterName s = true}

/-- The parameter name with the given text. -/
def ParameterName.ofString? (s : String) : Option ParameterName :=
  if h : isParameterName s = true then some ⟨s, h⟩ else none

/-! ## Info names -/

/-- An info name: any characters but blanks, controls, quotes, commas and parentheses. -/
def isInfoName (s : String) : Bool :=
  isWord (fun c => !(isBlank c || isControl c || c ∈ ['"', ',', '(', ')'])) s

/-- The name of an info item. -/
abbrev InfoName : Type := {s : String // isInfoName s = true}

/-- The info name with the given text. -/
def InfoName.ofString? (s : String) : Option InfoName :=
  if h : isInfoName s = true then some ⟨s, h⟩ else none

end IocDb
