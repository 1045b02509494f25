/-!
# Octets and the text they stand for

Text travels as UTF-8. `utf8` writes it and `ofUtf8?` reads it back, refusing what is not well
formed.

Headlines:
* **`ofUtf8?_eq_some_iff`**: what is read is exactly what was written.
* **`utf8_append`**: text put together is written one after the other.
-/

namespace MessageBroker

/-- Octets. -/
abbrev Bytes := List UInt8

/-- The octets of a text. -/
def utf8 (s : String) : Bytes := s.toByteArray.data.toList

/-- The text that the octets stand for, if they are well formed. -/
def ofUtf8? (bs : Bytes) : Option String := String.fromUTF8? ⟨bs.toArray⟩

/-- **What is read is exactly what was written.** -/
theorem ofUtf8?_eq_some_iff {bs : Bytes} {s : String} : ofUtf8? bs = some s ↔ bs = utf8 s := by
  unfold ofUtf8? String.fromUTF8? utf8
  constructor
  · intro h
    split at h
    · simp only [Option.some.injEq] at h
      subst h
      rfl
    · cases h
  · rintro rfl
    have hv : ByteArray.IsValidUTF8 ⟨(s.toByteArray.data.toList).toArray⟩ := s.isValidUTF8
    rw [dif_pos hv]
    rfl

@[simp] theorem ofUtf8?_utf8 (s : String) : ofUtf8? (utf8 s) = some s :=
  ofUtf8?_eq_some_iff.mpr rfl

/-- **Text put together is written one after the other.** -/
theorem utf8_append (s t : String) : utf8 (s ++ t) = utf8 s ++ utf8 t := by
  unfold utf8
  rw [String.toByteArray_append]
  simp

theorem utf8_ofList (cs : List Char) :
    utf8 (String.ofList cs) = cs.flatMap String.utf8EncodeChar := by
  unfold utf8
  rw [String.toByteArray_ofList]
  simp [List.utf8Encode]

end MessageBroker
