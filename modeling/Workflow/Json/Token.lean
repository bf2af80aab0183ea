import Workflow.Json.Basic
import Workflow.Text.Glyph
/-!
# Workflow — the tokens of JSON text

JSON text is a row of tokens with blanks between them. Cutting it up never
fails: where no token starts, the row ends with a `malformed` one, so a
reader meets the fault only if it gets that far. A string whose bytes are
not UTF-8 and a number past the largest are tokens of their own, since their
extent is still known.
-/

namespace Workflow

namespace Json

open Text (Glyph)

/-- A token of JSON text. -/
inductive Token where
  /-- A bracket, a brace or a mark between values. -/
  | openArray | closeArray | openObject | closeObject | comma | colon
  /-- A value that is one token long. -/
  | value (v : Json)
  /-- An integer that takes more than a machine word. -/
  | wide (n : Int)
  /-- A number with a point or an exponent that is past the largest. -/
  | outOfRange
  /-- A string that holds a stray byte. -/
  | illFormed
  /-- The text stops being JSON here. -/
  | malformed

namespace Token

/-- Blanks may stand between tokens. -/
def isBlank (c : Char) : Bool :=
  c = ' ' || c = '\t' || c = '\n' || c = '\r'

/-! ## Strings -/

/-- What one step inside a string yields: a glyph, or a UTF-16 unit that an
escape gives by number. -/
inductive Piece where
  /-- A glyph, bare or by a short escape. -/
  | glyph (g : Glyph)
  /-- A UTF-16 unit. -/
  | unit (u : Nat)

/-- The character that a short escape stands for. -/
def shortEscape? : Char → Option Char
  | '"' => some '"'
  | '\\' => some '\\'
  | '/' => some '/'
  | 'b' => some '\x08'
  | 'f' => some '\x0c'
  | 'n' => some '\n'
  | 'r' => some '\r'
  | 't' => some '\t'
  | _ => none

/-- The value of a hexadecimal digit of either case. -/
def hexDigit? (c : Char) : Option Nat :=
  if '0' ≤ c ∧ c ≤ '9' then some (c.toNat - '0'.toNat)
  else if 'a' ≤ c ∧ c ≤ 'f' then some (c.toNat - 'a'.toNat + 10)
  else if 'A' ≤ c ∧ c ≤ 'F' then some (c.toNat - 'A'.toNat + 10)
  else none

/-- The value of four hexadecimal digits. -/
def hexUnit? (a b c d : Char) : Option Nat := do
  return (((← hexDigit? a) * 16 + (← hexDigit? b)) * 16 + (← hexDigit? c)) * 16 + (← hexDigit? d)

/-- The pieces up to the closing quote, and what follows it; none if an
escape is unknown, a control character stands bare or the quote is missing. -/
def pieces : List Glyph → Option (List Piece × List Glyph)
  | [] => none
  | .char '"' :: rest => some ([], rest)
  | .char '\\' :: .char 'u' :: .char a :: .char b :: .char c :: .char d :: rest => do
    let u ← hexUnit? a b c d
    let (more, rest) ← pieces rest
    return (.unit u :: more, rest)
  | .char '\\' :: .char e :: rest => do
    let c ← shortEscape? e
    let (more, rest) ← pieces rest
    return (.glyph (.char c) :: more, rest)
  | .char '\\' :: _ => none
  | .char c :: rest =>
    if c.toNat < 0x20 then none
    else do
      let (more, rest) ← pieces rest
      return (.glyph (.char c) :: more, rest)
  | .stray byte :: rest => do
    let (more, rest) ← pieces rest
    return (.glyph (.stray byte) :: more, rest)

/-- A UTF-16 unit that opens a surrogate pair. -/
def isHigh (u : Nat) : Bool := 0xD800 ≤ u && u < 0xDC00

/-- A UTF-16 unit that closes a surrogate pair. -/
def isLow (u : Nat) : Bool := 0xDC00 ≤ u && u < 0xE000

/-- The glyphs that pieces spell; none if a surrogate lacks its partner. -/
def spelled : List Piece → Option (List Glyph)
  | [] => some []
  | .glyph g :: rest => (g :: ·) <$> spelled rest
  | .unit u :: rest =>
    if isHigh u then
      match rest with
      | .unit l :: rest =>
        if isLow l then
          (.char (Char.ofNat (0x10000 + (u - 0xD800) * 0x400 + (l - 0xDC00))) :: ·) <$> spelled rest
        else none
      | _ => none
    else if isLow u then none
    else (.char (Char.ofNat u) :: ·) <$> spelled rest

/-- The string token after an opening quote, and what follows it. -/
def string? (gs : List Glyph) : Option (Token × List Glyph) := do
  let (body, rest) ← pieces gs
  let glyphs ← spelled body
  return match Text.spell? glyphs with
    | some s => (.value (.str s), rest)
    | none => (.illFormed, rest)

/-! ## Numbers -/

/-- The decimal digits at the front, and what follows them. -/
def digits : List Glyph → List Char × List Glyph
  | .char c :: rest =>
    if c.isDigit then (c :: (digits rest).1, (digits rest).2) else ([], .char c :: rest)
  | gs => ([], gs)

/-- The integer of a sign and a size. -/
def signed (negative : Bool) (size : Nat) : Int :=
  if negative then -size else size

/-- The digits after a point, if there is one; it must have some. -/
def fraction? : List Glyph → Option (Option (List Char) × List Glyph)
  | .char '.' :: rest =>
    if (digits rest).1.isEmpty then none else some (some (digits rest).1, (digits rest).2)
  | gs => some (none, gs)

/-- The sign at the front of an exponent, and what follows it. -/
def sign : List Glyph → Bool × List Glyph
  | .char '-' :: rest => (true, rest)
  | .char '+' :: rest => (false, rest)
  | gs => (false, gs)

/-- The exponent after its mark, if there is one; it must have digits. -/
def exponent? : List Glyph → Option (Option Int × List Glyph)
  | .char c :: rest =>
    if c = 'e' ∨ c = 'E' then
      let ds := digits (sign rest).2
      if ds.1.isEmpty then none
      else some (some (signed (sign rest).1 (Nat.ofDigitChars 10 ds.1 0)), ds.2)
    else some (none, .char c :: rest)
  | gs => some (none, gs)

/-- A whole part has a digit, and no zero before another digit. -/
def isWhole : List Char → Bool
  | [] => false
  | '0' :: _ :: _ => false
  | _ => true

/-- An integer fits a machine word of 64 bits, with or without a sign. -/
def fitsWord (n : Int) : Bool :=
  -Nat.pow 2 63 ≤ n && n < Nat.pow 2 64

/-- The token of an integer. -/
def ofInt (n : Int) : Token :=
  if fitsWord n then .value (.int n) else .wide n

/-- The token of the number that the parts of its text write. -/
def ofParts (negative : Bool) (whole : List Char) (fraction : Option (List Char))
    (exponent : Option Int) : Token :=
  match fraction, exponent with
  | none, none => ofInt (signed negative (Nat.ofDigitChars 10 whole 0))
  | _, _ =>
    let after := fraction.getD []
    let power := exponent.getD 0 - after.length
    match Double.ofDecimal? negative (Nat.ofDigitChars 10 (whole ++ after) 0) power with
    | some x => .value (.float x)
    | none => .outOfRange

/-- The number token after its sign, and what follows it. -/
def number? (negative : Bool) (gs : List Glyph) : Option (Token × List Glyph) :=
  if isWhole (digits gs).1 then do
    let fraction ← fraction? (digits gs).2
    let exponent ← exponent? fraction.2
    return (ofParts negative (digits gs).1 fraction.1 exponent.1, exponent.2)
  else none

/-! ## The row of tokens -/

/-- The token at the front of a text that starts with no blank, and what
follows it. -/
def front? : List Glyph → Option (Token × List Glyph)
  | .char '[' :: rest => some (.openArray, rest)
  | .char ']' :: rest => some (.closeArray, rest)
  | .char '{' :: rest => some (.openObject, rest)
  | .char '}' :: rest => some (.closeObject, rest)
  | .char ',' :: rest => some (.comma, rest)
  | .char ':' :: rest => some (.colon, rest)
  | .char 'n' :: .char 'u' :: .char 'l' :: .char 'l' :: rest => some (.value .null, rest)
  | .char 't' :: .char 'r' :: .char 'u' :: .char 'e' :: rest => some (.value (.bool true), rest)
  | .char 'f' :: .char 'a' :: .char 'l' :: .char 's' :: .char 'e' :: rest =>
    some (.value (.bool false), rest)
  | .char '"' :: rest => string? rest
  | .char '-' :: rest => number? true rest
  | gs => number? false gs

/-! Each token takes at least one glyph, so the row is finite. -/

theorem length_digits (gs : List Glyph) :
    (digits gs).1.length + (digits gs).2.length = gs.length := by
  fun_induction digits gs with
  | case1 c rest hc ih =>
    simp only [List.length_cons]
    omega
  | case2 => simp
  | case3 => simp

theorem length_fraction?_le {gs rest : List Glyph} {f : Option (List Char)}
    (h : fraction? gs = some (f, rest)) : rest.length ≤ gs.length := by
  unfold fraction? at h
  split at h
  · rename_i r
    have := length_digits r
    split at h
    · cases h
    · cases h
      simp only [List.length_cons]
      omega
  · cases h
    exact Nat.le_refl _

theorem length_sign_le (gs : List Glyph) : (sign gs).2.length ≤ gs.length := by
  unfold sign
  split <;> simp

theorem length_exponent?_le {gs rest : List Glyph} {e : Option Int}
    (h : exponent? gs = some (e, rest)) : rest.length ≤ gs.length := by
  unfold exponent? at h
  split at h
  · rename_i c r
    have := length_sign_le r
    have := length_digits (sign r).2
    split at h
    · dsimp only at h
      split at h
      · cases h
      · cases h
        simp only [List.length_cons]
        omega
    · cases h
      exact Nat.le_refl _
  · cases h
    exact Nat.le_refl _

theorem length_number?_lt {negative : Bool} {gs rest : List Glyph} {t : Token}
    (h : number? negative gs = some (t, rest)) : rest.length < gs.length := by
  have hd := length_digits gs
  unfold number? at h
  split at h
  · rename_i hw
    have hpos : 0 < (digits gs).1.length := by
      cases hw' : (digits gs).1 with
      | nil => simp [hw', isWhole] at hw
      | cons c cs => simp
    simp only [bind, Option.bind_eq_some_iff] at h
    obtain ⟨⟨f, r₁⟩, hf, ⟨e, r₂⟩, he, h⟩ := h
    have := length_fraction?_le hf
    have := length_exponent?_le he
    cases h
    dsimp only at *
    omega
  · cases h

theorem length_pieces_lt {gs rest : List Glyph} {ps : List Piece}
    (h : pieces gs = some (ps, rest)) : rest.length < gs.length := by
  fun_induction pieces gs generalizing ps rest with
  | case1 => cases h
  | case2 r =>
    cases h
    simp
  | case3 a b c d r ih =>
    simp only [bind, Option.bind_eq_some_iff] at h
    obtain ⟨u, -, ⟨more, r'⟩, hr, h⟩ := h
    have := ih hr
    cases h
    simp only [List.length_cons]
    omega
  | case4 e r _ ih =>
    simp only [bind, Option.bind_eq_some_iff] at h
    obtain ⟨u, -, ⟨more, r'⟩, hr, h⟩ := h
    have := ih hr
    cases h
    simp only [List.length_cons]
    omega
  | case5 => cases h
  | case6 => cases h
  | case7 c r _ _ _ _ _ ih =>
    simp only [bind, Option.bind_eq_some_iff] at h
    obtain ⟨⟨more, r'⟩, hr, h⟩ := h
    have := ih hr
    cases h
    simp only [List.length_cons]
    omega
  | case8 b r ih =>
    simp only [bind, Option.bind_eq_some_iff] at h
    obtain ⟨⟨more, r'⟩, hr, h⟩ := h
    have := ih hr
    cases h
    simp only [List.length_cons]
    omega

theorem length_string?_lt {gs rest : List Glyph} {t : Token}
    (h : string? gs = some (t, rest)) : rest.length < gs.length := by
  simp only [string?, bind, Option.bind_eq_some_iff] at h
  obtain ⟨⟨ps, r⟩, hp, glyphs, -, h⟩ := h
  have := length_pieces_lt hp
  simp only [pure, Option.some.injEq] at h
  split at h <;> (simp only [Prod.mk.injEq] at h; rw [← h.2]; exact this)

theorem length_front?_lt {gs rest : List Glyph} {t : Token}
    (h : front? gs = some (t, rest)) : rest.length < gs.length := by
  unfold front? at h
  split at h
  all_goals first
    | exact Nat.lt_succ_of_lt (length_string?_lt h)
    | exact Nat.lt_succ_of_lt (length_number?_lt h)
    | exact length_number?_lt h
    | (cases h
       simp only [List.length_cons]
       omega)

/-- The tokens of a text. -/
def row : List Glyph → List Token
  | [] => []
  | .char c :: rest =>
    if isBlank c then row rest
    else
      match _h : front? (.char c :: rest) with
      | some (t, rest') => t :: row rest'
      | none => [.malformed]
  | .stray _ :: _ => [.malformed]
termination_by gs => gs.length
decreasing_by
  · exact Nat.lt_succ_self _
  · exact length_front?_lt _h

end Token

end Json

end Workflow
