import Workflow.Text.Glyph
/-!
# Workflow — the bytes of a text, read back

The bytes that a text has in UTF-8 read as its characters, one glyph each.
So a text and its bytes are the same input, and a stray byte among the
glyphs of some bytes shows that they are the bytes of no text.
-/

namespace Workflow

namespace Text

/-- What the bytes of some characters give once others are passed. The
induction is on the characters still to come; those passed only move the
position. -/
theorem glyphsFrom_utf8Encode (before after : List Char) :
    glyphsFrom (before ++ after).utf8Encode before.utf8Encode.size = after.map Glyph.char := by
  induction after generalizing before with
  | nil => simp [glyphsFrom]
  | cons c rest ih =>
    have hsize : (before ++ c :: rest).utf8Encode.size =
        before.utf8Encode.size + c.utf8Size + rest.utf8Encode.size := by
      rw [List.utf8Encode_append, List.utf8Encode_cons]
      simp [List.utf8Encode_singleton, Nat.add_assoc]
    have hpos := c.utf8Size_pos
    -- decoding at a position looks only at what is there and after it
    have hc : (before ++ c :: rest).utf8Encode.utf8DecodeChar? before.utf8Encode.size = some c := by
      rw [ByteArray.utf8DecodeChar?_eq_utf8DecodeChar?_extract, List.utf8Encode_append,
        ByteArray.size_append, ByteArray.extract_append_eq_right rfl rfl]
      exact List.utf8DecodeChar?_utf8Encode_cons
    have hnext : before.utf8Encode.size + c.utf8Size = (before ++ [c]).utf8Encode.size := by
      simp [List.utf8Encode_append, List.utf8Encode_singleton]
    rw [glyphsFrom, dif_pos (by omega), hc]
    have := ih (before ++ [c])
    rw [← hnext, List.append_assoc] at this
    exact congrArg (Glyph.char c :: ·) this

/-- **A text and its bytes are the same glyphs.** -/
theorem glyphsOfBytes_toUTF8 (text : String) : glyphsOfBytes text.toUTF8 = glyphsOfText text := by
  have := glyphsFrom_utf8Encode [] text.toList
  rw [List.nil_append, String.utf8Encode_toList] at this
  exact this

/-- Bytes with a stray one among them are the bytes of no text. -/
theorem ne_toUTF8_of_stray {bytes : ByteArray} {b : UInt8} (h : .stray b ∈ glyphsOfBytes bytes)
    (text : String) : bytes ≠ text.toUTF8 := by
  rintro rfl
  rw [glyphsOfBytes_toUTF8] at h
  obtain ⟨c, -, hc⟩ := List.mem_map.1 h
  cases hc

end Text

end Workflow
