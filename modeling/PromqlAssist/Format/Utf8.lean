import PromqlAssist.Text.Basic

/-!
# UTF-8

Texts as bytes, and bytes that are a text.
-/

namespace PromqlAssist

/-- A sequence of bytes. -/
abbrev Bytes := List UInt8

namespace Utf8

def encode (t : Text) : Bytes :=
  t.flatMap String.utf8EncodeChar

/-- The text that bytes encode, unless they are not valid UTF-8. -/
def decode? (bytes : Bytes) : Option Text :=
  bytes.toByteArray.utf8Decode?.map Array.toList

@[simp] theorem decode?_encode (t : Text) : decode? (encode t) = some t := by
  have h : (encode t).toByteArray = t.utf8Encode := rfl
  simp [decode?, h, List.utf8Decode?_utf8Encode]

theorem decode?_eq_some_iff {bytes : Bytes} {t : Text} :
    decode? bytes = some t ↔ bytes = encode t := by
  constructor
  · intro h
    obtain ⟨chars, hchars, rfl⟩ := Option.map_eq_some_iff.mp h
    have hsome : bytes.toByteArray.utf8Decode?.isSome := by simp [hchars]
    have hencode := ByteArray.utf8Encode_get_utf8Decode? (h := hsome)
    simp only [hchars, Option.get_some] at hencode
    have hlists : (encode chars.toList).toByteArray = bytes.toByteArray := hencode
    simpa using (congrArg (fun b => b.data.toList) hlists).symm
  · rintro rfl
    exact decode?_encode t

theorem encode_append (s t : Text) : encode (s ++ t) = encode s ++ encode t :=
  List.flatMap_append

@[simp] theorem length_encode (t : Text) : (encode t).length = t.size := by
  induction t with
  | nil => rfl
  | cons c t ih =>
    have : encode (c :: t) = String.utf8EncodeChar c ++ encode t := rfl
    simp [this, ih]

end Utf8

end PromqlAssist
