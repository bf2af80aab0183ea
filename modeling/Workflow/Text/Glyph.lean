/-!
# Workflow — bytes read as text

Text arrives as characters or as bytes. A glyph is one unit of either: a
character, or a byte that starts no character of UTF-8. Reading bytes never
fails; a stray byte stays visible, so whoever meets it decides what it means
there.
-/

namespace Workflow

namespace Text

/-- One unit of incoming text. -/
inductive Glyph where
  /-- A character. -/
  | char (c : Char)
  /-- A byte at which no well-formed UTF-8 character starts. -/
  | stray (byte : UInt8)
  deriving DecidableEq, Repr

/-- The character that a glyph is, unless it is a stray byte. -/
def Glyph.char? : Glyph → Option Char
  | .char c => some c
  | .stray _ => none

/-- The glyphs of `bytes` from position `i` on. UTF-8 is read strictly: an
overlong form, a surrogate and a code point past U+10FFFF are stray bytes. -/
def glyphsFrom (bytes : ByteArray) (i : Nat) : List Glyph :=
  if h : i < bytes.size then
    match bytes.utf8DecodeChar? i with
    | some c => .char c :: glyphsFrom bytes (i + c.utf8Size)
    | none => .stray bytes[i] :: glyphsFrom bytes (i + 1)
  else []
termination_by bytes.size - i
decreasing_by
  · have := c.utf8Size_pos
    omega
  · omega

/-- The glyphs of a row of bytes. -/
def glyphsOfBytes (bytes : ByteArray) : List Glyph :=
  glyphsFrom bytes 0

/-- The glyphs of a text are its characters. -/
def glyphsOfText (text : String) : List Glyph :=
  text.toList.map Glyph.char

/-- The text that glyphs spell, unless a stray byte is among them. -/
def spell? (glyphs : List Glyph) : Option String :=
  (glyphs.mapM Glyph.char?).map String.ofList

end Text

end Workflow
