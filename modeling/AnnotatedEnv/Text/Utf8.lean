/-
Module: AnnotatedEnv.Text.Utf8
Purpose: Texts as the bytes of their UTF-8 form.
Main exports: utf8, ofUtf8?
-/

namespace AnnotatedEnv.Text

def utf8 (s : String) : List UInt8 := s.toUTF8.data.toList

/-- The text of some bytes, if they are well-formed. -/
def ofUtf8? (bytes : List UInt8) : Option String :=
  String.fromUTF8? ⟨bytes.toArray⟩

/-- A text is read back from its bytes. -/
theorem ofUtf8?_utf8 (s : String) : ofUtf8? (utf8 s) = some s := by
  have h : (⟨(utf8 s).toArray⟩ : ByteArray) = s.toUTF8 := by simp [utf8]
  rw [ofUtf8?, h, String.fromUTF8?, dif_pos (by simpa using s.isValidUTF8)]
  rfl

theorem utf8_inj {s t : String} : utf8 s = utf8 t ↔ s = t := by
  refine ⟨fun h => ?_, fun h => by rw [h]⟩
  have hread := ofUtf8?_utf8 s
  rw [h, ofUtf8?_utf8] at hread
  exact (Option.some.inj hread).symm

end AnnotatedEnv.Text
