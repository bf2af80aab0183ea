import Workflow.Proofs.Json.Lexeme
/-!
# Workflow — rows of tokens

What a row of tokens was cut from. A cut takes a mark between values, a word
of the grammar, or a string with a stray byte in it off the front of a text
(`Cut`); the front of a row is such a cut after blanks (`row_eq_cons`), and
every mark and every word that nothing lengthens is cut off whole
(`row_of_mark`, `row_of_lexeme`).
-/

namespace Workflow

namespace Json

open Text (Glyph)
open Token

/-- The marks between values. -/
def mark? : Char → Option Token
  | '[' => some .openArray
  | ']' => some .closeArray
  | '{' => some .openObject
  | '}' => some .closeObject
  | ',' => some .comma
  | ':' => some .colon
  | _ => none

/-- A token at the front of a text, and what follows it. -/
inductive Cut : List Glyph → Token → List Glyph → Prop where
  | mark {c : Char} {t : Token} {rest : List Glyph} (h : mark? c = some t) :
      Cut (.char c :: rest) t rest
  | word {cs : List Char} {s : Scalar} {rest : List Glyph} (h : Lexeme cs s) :
      Cut (glyphs cs ++ rest) s.token rest
  | illFormed {inside rest : List Glyph} {b : UInt8} (h : .stray b ∈ inside) :
      Cut (.char '"' :: (inside ++ .char '"' :: rest)) .illFormed rest

/-- A token is one of the marks between values. -/
def isMark : Token → Bool
  | .openArray | .closeArray | .openObject | .closeObject | .comma | .colon => true
  | _ => false

theorem isMark_of_mark? {c : Char} {t : Token} (h : mark? c = some t) : isMark t := by
  unfold mark? at h
  split at h <;> cases h <;> rfl

/-- No word is cut off as a mark. -/
theorem isMark_token (s : Scalar) : isMark s.token = false := by
  cases s <;> simp only [Scalar.token, ofInt] <;> first | rfl | (split <;> rfl)

theorem token_ne_illFormed (s : Scalar) : s.token ≠ .illFormed := by
  cases s <;> simp [Scalar.token, ofInt] <;> split <;> nofun

/-- Only a string's word is cut off as a text. -/
theorem eq_str_of_token {s : Scalar} {key : String} (h : s.token = .value (.str key)) :
    s = .str key := by
  cases s with
  | str t =>
    cases h
    rfl
  | int n =>
    simp only [Scalar.token, ofInt] at h
    split at h <;> cases h
  | decimal =>
    simp only [Scalar.token] at h
    split at h <;> cases h
  | null => cases h
  | bool => cases h

/-- Each mark is one character. -/
theorem eq_of_mark? {c c' : Char} {t : Token} (h : mark? c = some t) (h' : mark? c' = some t) :
    c = c' := by
  unfold mark? at h h'
  split at h <;> cases h <;> split at h' <;> cases h' <;> rfl

/-- A mark was cut off as its character. -/
theorem Cut.eq_of_mark {c : Char} {t : Token} (hm : mark? c = some t) {gs rest : List Glyph}
    (h : Cut gs t rest) : gs = .char c :: rest := by
  cases h with
  | mark h => rw [eq_of_mark? hm h]
  | word => exact absurd (isMark_of_mark? hm) (by simp [isMark_token])
  | illFormed => exact absurd (isMark_of_mark? hm) (by decide)

/-- A token that is no mark and no ill-formed string was cut off as a word. -/
theorem Cut.word_of {t : Token} (hm : isMark t = false) (hi : t ≠ .illFormed)
    {gs rest : List Glyph} (h : Cut gs t rest) :
    ∃ cs s, Lexeme cs s ∧ gs = glyphs cs ++ rest ∧ t = s.token := by
  cases h with
  | mark h => exact absurd (isMark_of_mark? h) (by simp [hm])
  | word h => exact ⟨_, _, h, rfl, rfl⟩
  | illFormed => exact absurd rfl hi

/-- An ill-formed token was cut off as a string with a stray byte in it. -/
theorem Cut.stray_of {t : Token} (ht : t = .illFormed) {gs rest : List Glyph} (h : Cut gs t rest) :
    ∃ inside b, .stray b ∈ inside ∧ gs = .char '"' :: (inside ++ .char '"' :: rest) := by
  cases h with
  | mark h => exact absurd (isMark_of_mark? h) (by simp [ht, isMark])
  | word => exact absurd ht (token_ne_illFormed _)
  | illFormed h => exact ⟨_, _, h, rfl⟩

/-! ## The front of a text -/

theorem cut_of_number? {negative : Bool} {gs rest : List Glyph} {t : Token}
    (h : number? negative gs = some (t, rest)) :
    Cut (glyphs (minus negative) ++ gs) t rest := by
  obtain ⟨cs, s, hs, rfl, rfl⟩ := number?_eq_some h
  have hcut : Cut (glyphs (minus negative ++ cs) ++ rest) s.token rest := .word hs
  simpa using hcut

/-- **Whatever is cut off the front is a mark, a word or an ill-formed
string.** -/
theorem cut_of_front? {gs rest : List Glyph} {t : Token} (h : front? gs = some (t, rest)) :
    Cut gs t rest := by
  unfold front? at h
  split at h
  -- three words, a string, and numbers with and without a minus; the others are marks
  case h_7 =>
    cases h
    exact .word .null
  case h_8 =>
    cases h
    exact .word .true
  case h_9 =>
    cases h
    exact .word .false
  case h_10 r =>
    obtain ⟨cs, text, hb, rfl, rfl⟩ | ⟨rfl, inside, b, hb, rfl⟩ := string?_eq_some h
    · have hcut : Cut (glyphs ('"' :: (cs ++ ['"'])) ++ rest) _ rest := .word (.str hb)
      simpa [Scalar.token] using hcut
    · exact .illFormed hb
  case h_11 r => exact cut_of_number? h
  case h_12 r => exact cut_of_number? h
  all_goals
    cases h
    exact .mark rfl

theorem front?_of_digit {c : Char} (hc : c.isDigit) (gs : List Glyph) :
    front? (.char c :: gs) = number? false (.char c :: gs) := by
  unfold front?
  split <;> simp_all

theorem front?_of_number (negative : Bool) {ds rest : List Char} {gs : List Glyph} {t : Token}
    (hd : Whole ds) (h : number? negative (glyphs (ds ++ rest) ++ gs) = some (t, gs)) :
    front? (glyphs (minus negative ++ (ds ++ rest)) ++ gs) = some (t, gs) := by
  cases negative with
  | true => exact h
  | false =>
    obtain ⟨d, ds, rfl⟩ := List.exists_cons_of_ne_nil hd.1.1
    rw [← h]
    exact front?_of_digit (hd.1.2 d List.mem_cons_self) _

/-- **A word that nothing lengthens is cut off whole.** -/
theorem front?_of_lexeme {cs : List Char} {s : Scalar} (h : Lexeme cs s) {gs : List Glyph}
    (hgs : Ends gs) : front? (glyphs cs ++ gs) = some (s.token, gs) := by
  cases h with
  | null => rfl
  | true => rfl
  | false => rfl
  | str hb => simpa [front?, Scalar.token] using string?_of_body hb gs
  | int negative hd =>
    have h := number?_of_parts negative hd .none .none hgs
    rw [ofParts_of_parts negative _ .none .none, if_pos (List.append_nil [])] at h
    simp only [List.append_assoc] at h
    simpa [Scalar.token] using front?_of_number negative hd h
  | decimal negative hd hf he hne =>
    have h := number?_of_parts negative hd hf he hgs
    rw [ofParts_of_parts negative _ hf he, if_neg hne] at h
    simp only [List.append_assoc] at h ⊢
    exact front?_of_number negative hd h

/-! ## Rows -/

theorem row_of_blank {blank : List Char} (h : Blank blank) (gs : List Glyph) :
    row (glyphs blank ++ gs) = row gs := by
  induction blank with
  | nil => rfl
  | cons c cs ih =>
    have hc := h c List.mem_cons_self
    have hrest := ih fun c hc => h c (List.mem_cons_of_mem _ hc)
    change row (.char c :: (glyphs cs ++ gs)) = row gs
    rw [row, if_pos hc, hrest]

/-- No digit is a blank. -/
theorem not_isBlank_of_digit {c : Char} (h : c.isDigit) : ¬ isBlank c := by
  intro hb
  rcases isBlank_iff.1 hb with rfl | rfl | rfl | rfl <;> cases h

/-- A number starts with its sign or with a digit. -/
theorem head_of_whole (negative : Bool) {ds : List Char} (hd : Whole ds) (rest : List Char) :
    ∃ c cs, minus negative ++ (ds ++ rest) = c :: cs ∧ ¬ isBlank c := by
  cases negative with
  | true => exact ⟨'-', _, rfl, by decide⟩
  | false =>
    obtain ⟨d, ds, rfl⟩ := List.exists_cons_of_ne_nil hd.1.1
    exact ⟨d, _, rfl, not_isBlank_of_digit (hd.1.2 d List.mem_cons_self)⟩

/-- A word starts with a character that is no blank. -/
theorem Lexeme.head {cs : List Char} {s : Scalar} (h : Lexeme cs s) :
    ∃ c cs', cs = c :: cs' ∧ ¬ isBlank c := by
  cases h with
  | null => exact ⟨_, _, rfl, by decide⟩
  | true => exact ⟨_, _, rfl, by decide⟩
  | false => exact ⟨_, _, rfl, by decide⟩
  | str => exact ⟨_, _, rfl, by decide⟩
  | int negative hd => simpa using head_of_whole negative hd []
  | decimal negative hd => simpa using head_of_whole negative hd _

/-- A cut starts with a character that is no blank. -/
theorem Cut.head {gs rest : List Glyph} {t : Token} (h : Cut gs t rest) :
    ∃ c gs', gs = .char c :: gs' ∧ ¬ isBlank c := by
  cases h with
  | @mark c _ _ h =>
    refine ⟨c, _, rfl, ?_⟩
    intro hc
    rcases isBlank_iff.1 hc with rfl | rfl | rfl | rfl <;> cases h
  | word h =>
    obtain ⟨c, cs', rfl, hc⟩ := h.head
    exact ⟨c, _, rfl, hc⟩
  | illFormed => exact ⟨'"', _, rfl, by decide⟩

/-- A token at the front of a text is the first of its row. -/
theorem row_of_front? {gs rest : List Glyph} {t : Token} (h : front? gs = some (t, rest)) :
    row gs = t :: row rest := by
  obtain ⟨c, gs', rfl, hc⟩ := (cut_of_front? h).head
  rw [row, if_neg hc]
  split
  · rename_i t' rest' h'
    cases h.symm.trans h'
    rfl
  · rename_i h'
    cases h.symm.trans h'

theorem row_of_mark {c : Char} {t : Token} (h : mark? c = some t) (gs : List Glyph) :
    row (.char c :: gs) = t :: row gs := by
  refine row_of_front? ?_
  unfold mark? at h
  split at h <;> cases h <;> rfl

theorem row_of_lexeme {cs : List Char} {s : Scalar} (h : Lexeme cs s) {gs : List Glyph}
    (hgs : Ends gs) : row (glyphs cs ++ gs) = s.token :: row gs :=
  row_of_front? (front?_of_lexeme h hgs)

/-- What follows a cut is the end of the text. -/
theorem Cut.exists_append {gs rest : List Glyph} {t : Token} (h : Cut gs t rest) :
    ∃ front, gs = front ++ rest := by
  cases h with
  | @mark c => exact ⟨[.char c], rfl⟩
  | word => exact ⟨_, rfl⟩
  | @illFormed inside => exact ⟨.char '"' :: (inside ++ [.char '"']), by simp⟩

/-- An ill-formed token comes from a stray byte between two quotes. -/
theorem stray_of_row {gs : List Glyph} (h : .illFormed ∈ row gs) :
    ∃ before inside after b, .stray b ∈ inside ∧
      gs = before ++ .char '"' :: (inside ++ .char '"' :: after) := by
  fun_induction row gs with
  | case1 => cases h
  | case2 c rest hc ih =>
    obtain ⟨before, inside, after, b, hb, rfl⟩ := ih h
    exact ⟨.char c :: before, inside, after, b, hb, rfl⟩
  | case3 c rest _ t rest' h' ih =>
    have hcut := cut_of_front? h'
    rcases List.mem_cons.1 h with ht | h
    · obtain ⟨inside, b, hb, hgs⟩ := hcut.stray_of ht.symm
      exact ⟨[], inside, rest', b, hb, hgs⟩
    · obtain ⟨before, inside, after, b, hb, rfl⟩ := ih h
      obtain ⟨front, hfront⟩ := hcut.exists_append
      exact ⟨front ++ before, inside, after, b, hb, by rw [hfront, List.append_assoc]⟩
  | case4 => simp at h
  | case5 => simp at h

theorem exists_stray_of_row {gs : List Glyph} (h : .illFormed ∈ row gs) : ∃ b, .stray b ∈ gs := by
  obtain ⟨before, inside, after, b, hb, rfl⟩ := stray_of_row h
  exact ⟨b, by simp [hb]⟩

/-- A row without tokens was cut from blanks. -/
theorem row_eq_nil {gs : List Glyph} (h : row gs = []) :
    ∃ blank, Blank blank ∧ gs = glyphs blank := by
  fun_induction row gs with
  | case1 => exact ⟨[], nofun, rfl⟩
  | case2 c rest hc ih =>
    obtain ⟨blank, hb, rfl⟩ := ih h
    exact ⟨c :: blank, List.forall_mem_cons.2 ⟨hc, hb⟩, rfl⟩
  | case3 => cases h
  | case4 => cases h
  | case5 => cases h

/-- The first token of a row was cut off the front of the text, after blanks,
unless the text stops being JSON there. -/
theorem row_eq_cons {gs : List Glyph} {t : Token} {ts : List Token} (h : row gs = t :: ts)
    (ht : t ≠ .malformed) : ∃ blank gs₁ gs₂, Blank blank ∧ gs = glyphs blank ++ gs₁ ∧
      Cut gs₁ t gs₂ ∧ ts = row gs₂ := by
  fun_induction row gs with
  | case1 => cases h
  | case2 c rest hc ih =>
    obtain ⟨blank, gs₁, gs₂, hb, rfl, hcut, hts⟩ := ih h
    exact ⟨c :: blank, gs₁, gs₂, List.forall_mem_cons.2 ⟨hc, hb⟩, rfl, hcut, hts⟩
  | case3 c rest _ t' rest' h' ih =>
    cases h
    exact ⟨[], _, rest', nofun, rfl, cut_of_front? h', rfl⟩
  | case4 =>
    cases h
    exact absurd rfl ht
  | case5 =>
    cases h
    exact absurd rfl ht

/-- A mark at the front of a row stood in the text, after blanks. -/
theorem row_eq_mark {c : Char} {t : Token} (hm : mark? c = some t) {gs : List Glyph}
    {ts : List Token} (h : row gs = t :: ts) :
    ∃ blank gs', Blank blank ∧ gs = glyphs blank ++ .char c :: gs' ∧ ts = row gs' := by
  have ht : t ≠ .malformed := by
    rintro rfl
    exact absurd (isMark_of_mark? hm) (by decide)
  obtain ⟨blank, gs₁, gs₂, hb, rfl, hcut, rfl⟩ := row_eq_cons h ht
  exact ⟨blank, gs₂, hb, by rw [hcut.eq_of_mark hm], rfl⟩

/-- Any other token at the front of a row was a word in the text, after
blanks, if it is no defect. -/
theorem row_eq_word {t : Token} (hm : isMark t = false) (hi : t ≠ .illFormed)
    (ht : t ≠ .malformed) {gs : List Glyph} {ts : List Token} (h : row gs = t :: ts) :
    ∃ blank cs s gs', Blank blank ∧ Lexeme cs s ∧ gs = glyphs (blank ++ cs) ++ gs' ∧
      t = s.token ∧ ts = row gs' := by
  obtain ⟨blank, gs₁, gs₂, hb, rfl, hcut, rfl⟩ := row_eq_cons h ht
  obtain ⟨cs, s, hs, rfl, rfl⟩ := hcut.word_of hm hi
  exact ⟨blank, cs, s, gs₂, hb, hs, by simp, rfl, rfl⟩

end Json

end Workflow
