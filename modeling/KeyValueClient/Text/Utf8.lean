import KeyValueClient.Bytes

/-!
# Text as bytes

Text travels as UTF-8.  `encode` writes a string, and `decode?` reads a byte string back when it is
well-formed UTF-8 and refuses it otherwise.  **The two are inverse to each other**: every string is
read back (`decode?_encode`), and a byte string that reads as a string is the one that the string
is written as (`encode_of_decode?`).  So a string has one spelling only.
-/

namespace KeyValueClient
namespace Utf8

/-- The UTF-8 bytes of a string. -/
def encode (s : String) : Bytes := s.toByteArray.data.toList

/-- The string that a byte string spells in UTF-8, if it spells one. -/
def decode? (bytes : Bytes) : Option String := String.fromUTF8? ⟨bytes.toArray⟩

theorem decode?_eq_some_iff {bytes : Bytes} {s : String} :
    decode? bytes = some s ↔ bytes = encode s := by
  unfold decode? String.fromUTF8? encode
  constructor
  · intro h
    split at h
    · cases h
      simp [String.fromUTF8]
    · cases h
  · rintro rfl
    rw [Array.toArray_toList]
    exact dif_pos s.isValidUTF8

/-- Every string is read back from its bytes. -/
@[simp] theorem decode?_encode (s : String) : decode? (encode s) = some s :=
  decode?_eq_some_iff.mpr rfl

/-- Bytes that read as a string are the bytes of that string. -/
theorem encode_of_decode? {bytes : Bytes} {s : String} (h : decode? bytes = some s) :
    encode s = bytes :=
  (decode?_eq_some_iff.mp h).symm

/-- Different strings have different bytes. -/
theorem encode_inj {s t : String} : encode s = encode t ↔ s = t := by
  constructor
  · intro h
    have hs := decode?_encode s
    rw [h, decode?_encode] at hs
    exact (Option.some.inj hs).symm
  · rintro rfl
    rfl

/-- Texts are written one after the other. -/
theorem encode_append (s t : String) : encode (s ++ t) = encode s ++ encode t := by
  rw [encode, String.toByteArray_append, ByteArray.data_append, Array.toList_append, encode, encode]

/-- Only the empty string has no bytes. -/
theorem encode_eq_nil_iff {s : String} : encode s = [] ↔ s = "" :=
  encode_inj (t := "")

end Utf8
end KeyValueClient
