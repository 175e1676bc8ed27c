/-!
# Text as bytes

Text is a list of characters; its bytes are its UTF-8 form.

* `utf8`: the bytes of a text. `ofUtf8?`: the text of some bytes, if they are valid.
* **`ofUtf8?_eq_some_iff`**: the two are inverse to each other.
-/

namespace IocDb

/-- The bytes of a text. -/
def utf8 (cs : List Char) : List UInt8 := cs.flatMap String.utf8EncodeChar

/-- The text that some bytes stand for; `none` if they are not valid UTF-8. -/
def ofUtf8? (bytes : List UInt8) : Option (List Char) :=
  bytes.toByteArray.utf8Decode?.map Array.toList

@[simp] theorem utf8_nil : utf8 [] = [] := rfl

theorem utf8_cons (c : Char) (cs : List Char) :
    utf8 (c :: cs) = String.utf8EncodeChar c ++ utf8 cs := rfl

@[simp] theorem utf8_append (cs ds : List Char) : utf8 (cs ++ ds) = utf8 cs ++ utf8 ds := by
  simp [utf8]

theorem toByteArray_utf8 (cs : List Char) : (utf8 cs).toByteArray = cs.utf8Encode := rfl

theorem ofUtf8?_utf8 (cs : List Char) : ofUtf8? (utf8 cs) = some cs := by
  simp [ofUtf8?, toByteArray_utf8, List.utf8Decode?_utf8Encode]

theorem ofUtf8?_eq_some_iff {bytes : List UInt8} {cs : List Char} :
    ofUtf8? bytes = some cs ↔ bytes = utf8 cs := by
  constructor
  · intro h
    obtain ⟨a, ha, rfl⟩ := Option.map_eq_some_iff.mp h
    have he : a.toList.utf8Encode = bytes.toByteArray := by
      have := ByteArray.utf8Encode_get_utf8Decode? (b := bytes.toByteArray) (h := by simp [ha])
      simpa [ha] using this
    have hd := congrArg (fun b : ByteArray => b.data.toList) he
    simpa [← toByteArray_utf8, List.data_toByteArray] using hd.symm
  · rintro rfl
    exact ofUtf8?_utf8 cs

theorem utf8_injective : Function.Injective utf8 := fun cs ds h =>
  Option.some.inj ((ofUtf8?_utf8 cs).symm.trans (h ▸ ofUtf8?_utf8 ds))

end IocDb
