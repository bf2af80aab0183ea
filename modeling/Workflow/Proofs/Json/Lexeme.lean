import Workflow.Proofs.Json.Grammar
/-!
# Workflow — words and tokens

The reader cuts off exactly the words of the grammar. In one direction a
string's or a number's word, followed by nothing that lengthens it, is cut
off whole, as the token of the scalar it writes (`string?_of_body`,
`number?_of_parts`). In the other, what is cut off is such a word, or a
string with a stray byte in it (`string?_eq_some`, `number?_eq_some`).
-/

namespace Workflow

namespace Json

open Text (Glyph)
open Token

/-- The characters of a text as they arrive. -/
abbrev glyphs (cs : List Char) : List Glyph :=
  cs.map Glyph.char

/-- The token that a scalar's word is cut off as. -/
def Scalar.token : Scalar → Token
  | .null => .value .null
  | .bool b => .value (.bool b)
  | .int n => ofInt n
  | .decimal negative digits power =>
    match Double.ofDecimal? negative digits power with
    | some x => .value (.float x)
    | none => .outOfRange
  | .str s => .value (.str s)

/-- The bounds of a machine word of 64 bits, with or without a sign. -/
theorem Token.fitsWord_iff {n : Int} : fitsWord n ↔ -Nat.pow 2 63 ≤ n ∧ n < Nat.pow 2 64 := by
  simp only [fitsWord, Bool.and_eq_true, decide_eq_true_eq]

theorem Token.isBlank_iff {c : Char} :
    isBlank c ↔ c = ' ' ∨ c = '\t' ∨ c = '\n' ∨ c = '\r' := by
  simp only [isBlank, Bool.or_eq_true, decide_eq_true_eq, or_assoc]

/-! ## The inside of strings -/

theorem spell?_glyphs (text : List Char) :
    Text.spell? (glyphs text) = some (String.ofList text) := by
  have (cs : List Char) : (glyphs cs).mapM Glyph.char? = some cs := by
    induction cs with
    | nil => rfl
    | cons c cs ih => simp [Glyph.char?, ih]
  rw [Text.spell?, this, Option.map_some]

/-- Glyphs spell a text exactly if they are its characters. -/
theorem spell?_eq_some {gs : List Glyph} {s : String} (h : Text.spell? gs = some s) :
    ∃ text, gs = glyphs text ∧ s = String.ofList text := by
  obtain ⟨text, ht, rfl⟩ := Option.map_eq_some_iff.1 h
  refine ⟨text, ?_, rfl⟩
  clear h
  induction gs generalizing text with
  | nil =>
    cases ht
    rfl
  | cons g gs ih =>
    cases g with
    | stray b => simp [Glyph.char?] at ht
    | char c =>
      simp only [List.mapM_cons, Glyph.char?, Option.pure_def, Option.bind_eq_bind,
        Option.bind_some, Option.bind_eq_some_iff, Option.some.injEq] at ht
      obtain ⟨cs, hcs, rfl⟩ := ht
      rw [ih _ hcs]
      rfl

/-- Only a stray byte keeps glyphs from spelling a text. -/
theorem exists_stray_of_spell? {gs : List Glyph} (h : Text.spell? gs = none) :
    ∃ b, .stray b ∈ gs := by
  induction gs with
  | nil => simp [Text.spell?] at h
  | cons g gs ih =>
    cases g with
    | stray b => exact ⟨b, List.mem_cons_self⟩
    | char c =>
      have hgs : Text.spell? gs = none := by
        rw [Text.spell?, Option.map_eq_none_iff] at h ⊢
        cases hm : gs.mapM Glyph.char? with
        | none => rfl
        | some text => simp [Glyph.char?, hm] at h
      obtain ⟨b, hb⟩ := ih hgs
      exact ⟨b, List.mem_cons_of_mem _ hb⟩

/-- The pieces of a string's inside spell its characters. -/
theorem pieces_of_body {cs text : List Char} (h : Body cs text) (rest : List Glyph) :
    ∃ ps, pieces (glyphs cs ++ .char '"' :: rest) = some (ps, rest) ∧
      spelled ps = some (glyphs text) := by
  induction h with
  | nil => exact ⟨[], by simp [pieces], rfl⟩
  | @bare c cs text hq hb hc _ ih =>
    obtain ⟨ps, hp, hs⟩ := ih
    refine ⟨.glyph (.char c) :: ps, ?_, by simp [spelled, hs]⟩
    simp [pieces, hb, Nat.not_lt.2 hc, hp]
  | @short e c cs text he _ ih =>
    obtain ⟨ps, hp, hs⟩ := ih
    refine ⟨.glyph (.char c) :: ps, ?_, by simp [spelled, hs]⟩
    have hu : e ≠ 'u' := by
      rintro rfl
      simp [shortEscape?] at he
    simp [pieces, hu, he, hp]
  | @unit a b c d u cs text hu hr _ ih =>
    obtain ⟨ps, hp, hs⟩ := ih
    refine ⟨.unit u :: ps, by simp [pieces, hu, hp], ?_⟩
    have hhigh : isHigh u = false := by
      simp only [isHigh, Bool.and_eq_false_iff, decide_eq_false_iff_not]
      omega
    have hlow : isLow u = false := by
      simp only [isLow, Bool.and_eq_false_iff, decide_eq_false_iff_not]
      omega
    rw [spelled.eq_def]
    simp [hhigh, hlow, hs]
  | @pair a b c d a' b' c' d' u l cs text hu hhigh hl hlow _ ih =>
    obtain ⟨ps, hp, hs⟩ := ih
    refine ⟨.unit u :: .unit l :: ps, by simp [pieces, hu, hl, hp], ?_⟩
    have hhigh : isHigh u = true := by simpa [isHigh] using hhigh
    have hlow : isLow l = true := by simpa [isLow] using hlow
    simp [spelled, hhigh, hlow, hs]

/-! What pieces came from, by the first of them. -/

theorem pieces_eq_nil {gs rest : List Glyph} (h : pieces gs = some ([], rest)) :
    gs = .char '"' :: rest := by
  unfold pieces at h
  split at h <;> simp_all [Option.bind_eq_some_iff]

theorem pieces_eq_unit {gs rest : List Glyph} {u : Nat} {more : List Piece}
    (h : pieces gs = some (.unit u :: more, rest)) :
    ∃ a b c d gs', hexUnit? a b c d = some u ∧ gs = glyphs ['\\', 'u', a, b, c, d] ++ gs' ∧
      pieces gs' = some (more, rest) := by
  unfold pieces at h
  split at h
  case h_3 a b c d gs' =>
    simp only [bind, Option.bind_eq_some_iff, pure, Option.some.injEq] at h
    obtain ⟨_, hu, ⟨_, _⟩, hp, ⟨⟩⟩ := h
    exact ⟨a, b, c, d, gs', hu, rfl, hp⟩
  all_goals simp_all [Option.bind_eq_some_iff]

/-- A glyph among the pieces came by a short escape or bare. -/
theorem pieces_eq_glyph {gs rest : List Glyph} {g : Glyph} {more : List Piece}
    (h : pieces gs = some (.glyph g :: more, rest)) :
    ∃ gs', pieces gs' = some (more, rest) ∧
      ((∃ e c, g = .char c ∧ shortEscape? e = some c ∧ gs = glyphs ['\\', e] ++ gs') ∨
        ((∀ c, g = .char c → c ≠ '"' ∧ c ≠ '\\' ∧ 0x20 ≤ c.toNat) ∧ gs = g :: gs')) := by
  unfold pieces at h
  split at h
  -- a short escape, a bare character or a stray byte; no other way in yields a glyph
  case h_4 e gs' _ =>
    simp only [bind, Option.bind_eq_some_iff, pure, Option.some.injEq] at h
    obtain ⟨c, he, ⟨_, _⟩, hp, ⟨⟩⟩ := h
    exact ⟨gs', hp, .inl ⟨e, c, rfl, he, rfl⟩⟩
  case h_6 c gs' hq _ _ hb =>
    simp only [bind, Option.ite_none_left_eq_some, Option.bind_eq_some_iff, pure,
      Option.some.injEq] at h
    obtain ⟨hc, ⟨_, _⟩, hp, ⟨⟩⟩ := h
    refine ⟨gs', hp, .inr ⟨?_, rfl⟩⟩
    rintro _ ⟨⟩
    exact ⟨fun h => hq h, fun h => hb h, Nat.not_lt.1 hc⟩
  case h_7 b gs' =>
    simp only [bind, Option.bind_eq_some_iff, pure, Option.some.injEq] at h
    obtain ⟨⟨_, _⟩, hp, ⟨⟩⟩ := h
    exact ⟨gs', hp, .inr ⟨nofun, rfl⟩⟩
  all_goals simp_all [Option.bind_eq_some_iff]

/-- What pieces spell was the inside of a string, unless a stray byte was in
it. The induction follows the spelling, which takes a surrogate pair at once. -/
theorem body_of_pieces {gs rest : List Glyph} {ps : List Piece} {text : List Char}
    (hp : pieces gs = some (ps, rest)) (hs : spelled ps = some (glyphs text)) :
    ∃ cs, gs = glyphs cs ++ .char '"' :: rest ∧ Body cs text := by
  fun_induction spelled ps generalizing gs text with
  | case1 =>
    cases text with
    | nil => exact ⟨[], pieces_eq_nil hp, .nil⟩
    | cons => cases hs
  | case2 g more ih =>
    obtain ⟨text', hs', ht⟩ := Option.map_eq_some_iff.1 hs
    cases text with
    | nil => cases ht
    | cons c text =>
    obtain ⟨rfl, rfl⟩ := List.cons.inj ht
    obtain ⟨gs', hp', ⟨e, _, ⟨⟩, he, rfl⟩ | ⟨hc, rfl⟩⟩ := pieces_eq_glyph hp
    · obtain ⟨cs, rfl, h⟩ := ih hp' hs'
      exact ⟨'\\' :: e :: cs, rfl, .short he h⟩
    · obtain ⟨cs, rfl, h⟩ := ih hp' hs'
      obtain ⟨hq, hb, hlow⟩ := hc c rfl
      exact ⟨c :: cs, rfl, .bare hq hb hlow h⟩
  | case3 u hhigh l more hlow ih =>
    obtain ⟨text', hs', ht⟩ := Option.map_eq_some_iff.1 hs
    cases text with
    | nil => cases ht
    | cons c text =>
    obtain ⟨hc, rfl⟩ := List.cons.inj ht
    obtain rfl := Glyph.char.inj hc
    -- one character, but two escapes in the text
    obtain ⟨a, b, c, d, gs₁, hu, rfl, hp₁⟩ := pieces_eq_unit hp
    obtain ⟨a', b', c', d', gs₂, hl, rfl, hp₂⟩ := pieces_eq_unit hp₁
    obtain ⟨cs, rfl, h⟩ := ih hp₂ hs'
    simp only [isHigh, isLow, Bool.and_eq_true, decide_eq_true_eq] at hhigh hlow
    exact ⟨_ :: _ :: _ :: _ :: _ :: _ :: _ :: _ :: _ :: _ :: _ :: _ :: cs, rfl,
      .pair hu hhigh hl hlow h⟩
  | case4 => cases hs
  | case5 => cases hs
  | case6 => cases hs
  | case7 u more hhigh hlow ih =>
    obtain ⟨text', hs', ht⟩ := Option.map_eq_some_iff.1 hs
    cases text with
    | nil => cases ht
    | cons c text =>
    obtain ⟨hc, rfl⟩ := List.cons.inj ht
    obtain rfl := Glyph.char.inj hc
    obtain ⟨a, b, c, d, gs', hu, rfl, hp'⟩ := pieces_eq_unit hp
    obtain ⟨cs, rfl, h⟩ := ih hp' hs'
    simp only [isHigh, isLow, Bool.and_eq_true, decide_eq_true_eq] at hhigh hlow
    exact ⟨_ :: _ :: _ :: _ :: _ :: _ :: cs, rfl, .unit hu (by omega) h⟩

/-- The inside of a string ends at a quote, and every stray byte among its
pieces stands in it. -/
theorem inside_of_pieces {gs rest : List Glyph} {ps : List Piece}
    (h : pieces gs = some (ps, rest)) : ∃ inside, gs = inside ++ .char '"' :: rest ∧
      ∀ b, .glyph (.stray b) ∈ ps → .stray b ∈ inside := by
  induction ps generalizing gs with
  | nil => exact ⟨[], pieces_eq_nil h, nofun⟩
  | cons p more ih =>
    cases p with
    | unit u =>
      obtain ⟨a, b, c, d, gs', -, rfl, hp⟩ := pieces_eq_unit h
      obtain ⟨inside, rfl, hmem⟩ := ih hp
      refine ⟨glyphs ['\\', 'u', a, b, c, d] ++ inside, by simp, fun byte hb => ?_⟩
      exact List.mem_append_right _ (hmem byte (by simpa using hb))
    | glyph g =>
      obtain ⟨gs', hp, ⟨e, c, rfl, -, rfl⟩ | ⟨-, rfl⟩⟩ := pieces_eq_glyph h
      · obtain ⟨inside, rfl, hmem⟩ := ih hp
        refine ⟨glyphs ['\\', e] ++ inside, by simp, fun byte hb => ?_⟩
        exact List.mem_append_right _ (hmem byte (by simpa using hb))
      · obtain ⟨inside, rfl, hmem⟩ := ih hp
        refine ⟨g :: inside, rfl, fun byte hb => ?_⟩
        rcases List.mem_cons.1 hb with hb | hb
        · exact List.mem_cons.2 (.inl (Piece.glyph.inj hb))
        · exact List.mem_cons_of_mem _ (hmem byte hb)

/-- A stray byte that pieces spell is one of them. -/
theorem mem_of_spelled {ps : List Piece} {spelling : List Glyph} {b : UInt8}
    (hs : spelled ps = some spelling) (hb : .stray b ∈ spelling) : .glyph (.stray b) ∈ ps := by
  fun_induction spelled ps generalizing spelling with
  | case1 =>
    cases hs
    cases hb
  | case2 g more ih =>
    obtain ⟨spelling, hs', rfl⟩ := Option.map_eq_some_iff.1 hs
    rcases List.mem_cons.1 hb with rfl | hb
    · exact List.mem_cons_self
    · exact List.mem_cons_of_mem _ (ih hs' hb)
  | case3 u _ l more _ ih =>
    obtain ⟨spelling, hs', rfl⟩ := Option.map_eq_some_iff.1 hs
    simpa using ih hs' (by simpa using hb)
  | case4 => cases hs
  | case5 => cases hs
  | case6 => cases hs
  | case7 u more _ _ ih =>
    obtain ⟨spelling, hs', rfl⟩ := Option.map_eq_some_iff.1 hs
    simpa using ih hs' (by simpa using hb)

/-! ## Strings -/

/-- A string's word is cut off as its text. -/
theorem string?_of_body {cs text : List Char} (h : Body cs text) (rest : List Glyph) :
    string? (glyphs cs ++ .char '"' :: rest) = some (.value (.str (String.ofList text)), rest) := by
  obtain ⟨ps, hp, hs⟩ := pieces_of_body h rest
  simp [string?, hp, hs, spell?_glyphs]

/-- What is cut off after an opening quote is a string's word, or a stray
byte is in it. -/
theorem string?_eq_some {gs rest : List Glyph} {t : Token} (h : string? gs = some (t, rest)) :
    (∃ cs text, Body cs text ∧ gs = glyphs cs ++ .char '"' :: rest ∧
      t = .value (.str (String.ofList text))) ∨
    t = .illFormed ∧
      ∃ inside b, .stray b ∈ inside ∧ gs = inside ++ .char '"' :: rest := by
  simp only [string?, bind, Option.bind_eq_some_iff, pure, Option.some.injEq] at h
  obtain ⟨⟨ps, r⟩, hp, spelling, hs, h⟩ := h
  dsimp only at h hs
  split at h
  · rename_i s hspell
    cases h
    obtain ⟨text, rfl, rfl⟩ := spell?_eq_some hspell
    obtain ⟨cs, rfl, hbody⟩ := body_of_pieces hp hs
    exact .inl ⟨cs, text, hbody, rfl, rfl⟩
  · rename_i hspell
    cases h
    obtain ⟨b, hb⟩ := exists_stray_of_spell? hspell
    obtain ⟨inside, rfl, hmem⟩ := inside_of_pieces hp
    exact .inr ⟨rfl, inside, b, hmem b (mem_of_spelled hs hb), rfl⟩

/-! ## Numbers -/

/-- What may follow a number: nothing that would lengthen it. -/
def Ends (gs : List Glyph) : Prop :=
  ∀ c rest, gs = .char c :: rest → ¬ c.isDigit ∧ c ≠ '.' ∧ c ≠ 'e' ∧ c ≠ 'E'

theorem digits_append {ds : List Char} {gs : List Glyph} (hd : ∀ c ∈ ds, c.isDigit)
    (hgs : ∀ c rest, gs = .char c :: rest → ¬ c.isDigit) :
    digits (glyphs ds ++ gs) = (ds, gs) := by
  induction ds with
  | nil =>
    cases gs with
    | nil => rfl
    | cons g rest =>
      cases g with
      | char c => simp [digits, hgs c rest rfl]
      | stray b => rfl
  | cons d ds ih =>
    have hrest := ih fun c hc => hd c (List.mem_cons_of_mem _ hc)
    simp [digits, hd d List.mem_cons_self, hrest]

/-- The digits at the front are digits, and were there. -/
theorem digits_spec (gs : List Glyph) :
    (∀ c ∈ (digits gs).1, c.isDigit) ∧ gs = glyphs (digits gs).1 ++ (digits gs).2 := by
  fun_induction digits gs with
  | case1 c rest hc ih =>
    refine ⟨?_, congrArg (Glyph.char c :: ·) ih.2⟩
    rintro d hd
    rcases List.mem_cons.1 hd with rfl | hd
    · exact hc
    · exact ih.1 d hd
  | case2 => exact ⟨fun c hc => absurd hc List.not_mem_nil, rfl⟩
  | case3 => exact ⟨fun c hc => absurd hc List.not_mem_nil, rfl⟩

theorem whole_iff {ds : List Char} (hd : ∀ c ∈ ds, c.isDigit) : isWhole ds ↔ Whole ds := by
  unfold Whole Digits
  match ds with
  | [] => simp [isWhole]
  | [d] => simp_all [isWhole]
  | d :: d' :: ds =>
    by_cases h : d = '0' <;> simp_all [isWhole]

theorem fraction?_of_fraction {cs ds : List Char} (h : Fraction cs ds) {gs : List Glyph}
    (hgs : ∀ c rest, gs = .char c :: rest → ¬ c.isDigit ∧ c ≠ '.') :
    fraction? (glyphs cs ++ gs) = some (if cs = [] then none else some ds, gs) := by
  cases h with
  | none =>
    unfold fraction?
    split
    · rename_i rest h
      exact absurd rfl (hgs _ rest h).2
    · rfl
  | some hd =>
    have hds := digits_append hd.2 fun c rest h => (hgs c rest h).1
    simp [fraction?, hds, hd.1]

theorem exponent?_of_exponent {cs : List Char} {power : Int} (h : Exponent cs power)
    {gs : List Glyph} (hgs : ∀ c rest, gs = .char c :: rest → ¬ c.isDigit ∧ c ≠ 'e' ∧ c ≠ 'E') :
    exponent? (glyphs cs ++ gs) = some (if cs = [] then none else some power, gs) := by
  cases h with
  | none =>
    unfold exponent?
    split
    · rename_i c rest h
      obtain ⟨-, he, hE⟩ := hgs c rest h
      simp [he, hE, ← h]
    · rfl
  | @some mark sg ds negative hm hs hd =>
    have hds := digits_append hd.2 fun c rest h => (hgs c rest h).1
    have hsign : sign (glyphs sg ++ (glyphs ds ++ gs)) = (negative, glyphs ds ++ gs) := by
      cases hs with
      | none =>
        obtain ⟨d, ds, rfl⟩ := List.exists_cons_of_ne_nil hd.1
        have hd' := hd.2 d List.mem_cons_self
        unfold sign
        split <;> simp_all
      | plus => rfl
      | minus => rfl
    simp [exponent?, hm, hsign, hds, hd.1]

theorem fraction?_eq_some {gs rest : List Glyph} {o : Option (List Char)}
    (h : fraction? gs = some (o, rest)) :
    ∃ cs ds, Fraction cs ds ∧ gs = glyphs cs ++ rest ∧ o = if cs = [] then none else some ds := by
  unfold fraction? at h
  split at h
  · rename_i r
    obtain ⟨hne, h⟩ := Option.ite_none_left_eq_some.1 h
    cases h
    obtain ⟨hd, hr⟩ := digits_spec r
    exact ⟨_, _, .some ⟨by simpa using hne, hd⟩, congrArg (Glyph.char '.' :: ·) hr, rfl⟩
  · cases h
    exact ⟨[], [], .none, rfl, rfl⟩

theorem sign_spec (gs : List Glyph) :
    ∃ cs, Sign cs (sign gs).1 ∧ gs = glyphs cs ++ (sign gs).2 := by
  unfold sign
  split
  · exact ⟨_, .minus, rfl⟩
  · exact ⟨_, .plus, rfl⟩
  · exact ⟨_, .none, rfl⟩

theorem exponent?_eq_some {gs rest : List Glyph} {o : Option Int}
    (h : exponent? gs = some (o, rest)) :
    ∃ cs power, Exponent cs power ∧ gs = glyphs cs ++ rest ∧
      o = if cs = [] then none else some power := by
  unfold exponent? at h
  split at h
  · rename_i c r
    split at h
    · rename_i hm
      obtain ⟨hne, h⟩ := Option.ite_none_left_eq_some.1 h
      cases h
      obtain ⟨cs, hs, hr⟩ := sign_spec r
      obtain ⟨hd, hr'⟩ := digits_spec (sign r).2
      refine ⟨_, _, .some hm hs ⟨by simpa using hne, hd⟩, ?_, rfl⟩
      simp only [List.map_cons, List.map_append, List.cons_append, List.append_assoc]
      rw [← hr', ← hr]
    · cases h
      exact ⟨[], 0, .none, rfl, rfl⟩
  · cases h
    exact ⟨[], 0, .none, rfl, rfl⟩

/-- The token that the parts of a number give. -/
theorem ofParts_of_parts (negative : Bool) (ds : List Char) {fraction after exponent : List Char}
    {power : Int} (hf : Fraction fraction after) (he : Exponent exponent power) :
    ofParts negative ds (if fraction = [] then none else some after)
        (if exponent = [] then none else some power) =
      if fraction ++ exponent = [] then ofInt (signed negative (Nat.ofDigitChars 10 ds 0))
      else (Scalar.decimal negative (Nat.ofDigitChars 10 (ds ++ after) 0)
        (power - after.length)).token := by
  cases hf <;> cases he <;> rfl

/-- A number's word is cut off whole. -/
theorem number?_of_parts (negative : Bool) {ds fraction after exponent : List Char} {power : Int}
    (hd : Whole ds) (hf : Fraction fraction after) (he : Exponent exponent power)
    {gs : List Glyph} (hgs : Ends gs) :
    number? negative (glyphs (ds ++ fraction ++ exponent) ++ gs) =
      some (ofParts negative ds (if fraction = [] then none else some after)
        (if exponent = [] then none else some power), gs) := by
  -- each part ends where the next begins, so no scanner runs on into it
  have hrest : ∀ c rest, glyphs exponent ++ gs = .char c :: rest → ¬ c.isDigit ∧ c ≠ '.' := by
    rintro c rest h
    cases he with
    | none => exact ⟨(hgs c rest h).1, (hgs c rest h).2.1⟩
    | some hm =>
      cases h
      rcases hm with rfl | rfl <;> decide
  have hrest' : ∀ c rest, glyphs fraction ++ (glyphs exponent ++ gs) = .char c :: rest →
      ¬ c.isDigit := by
    rintro c rest h
    cases hf with
    | none => exact (hrest c rest h).1
    | some =>
      cases h
      decide
  have hds := digits_append hd.1.2 hrest'
  have hfraction := fraction?_of_fraction hf hrest
  have hexponent := exponent?_of_exponent he fun c rest h =>
    ⟨(hgs c rest h).1, (hgs c rest h).2.2⟩
  simp [number?, hds, (whole_iff hd.1.2).2 hd, hfraction, hexponent]

/-- What is cut off as a number is a number's word. -/
theorem number?_eq_some {negative : Bool} {gs rest : List Glyph} {t : Token}
    (h : number? negative gs = some (t, rest)) :
    ∃ cs s, Lexeme (minus negative ++ cs) s ∧ gs = glyphs cs ++ rest ∧ t = s.token := by
  obtain ⟨hw, h⟩ := Option.ite_none_right_eq_some.1 h
  simp only [bind, Option.bind_eq_some_iff, pure, Option.some.injEq, Prod.mk.injEq] at h
  obtain ⟨⟨_, r₁⟩, hfraction, ⟨_, r₂⟩, hexponent, rfl, rfl⟩ := h
  obtain ⟨hd, hgs⟩ := digits_spec gs
  obtain ⟨fraction, after, hf, hr, rfl⟩ := fraction?_eq_some hfraction
  obtain ⟨exponent, power, he, rfl, rfl⟩ := exponent?_eq_some hexponent
  have hwhole := (whole_iff hd).1 hw
  have htext : gs = glyphs ((digits gs).1 ++ fraction ++ exponent) ++ r₂ := by
    simpa [← hr] using hgs
  refine ⟨(digits gs).1 ++ fraction ++ exponent, ?_⟩
  dsimp only
  rw [ofParts_of_parts negative _ hf he]
  by_cases hnil : fraction ++ exponent = []
  · obtain ⟨rfl, rfl⟩ := List.append_eq_nil_iff.1 hnil
    exact ⟨_, by simpa using Lexeme.int negative hwhole, htext, if_pos hnil⟩
  · exact ⟨_, by simpa using Lexeme.decimal negative hwhole hf he hnil, htext, if_neg hnil⟩

end Json

end Workflow
