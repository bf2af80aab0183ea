import Workflow.Proofs.Json.Marks
import Workflow.Proofs.Json.Row
/-!
# Workflow — drafts of forms

What reading a text comes to. A text that writes a form is read as the draft
of that form with nothing left over (`ofGlyphs_of_written`); and a text whose
draft bears no mark of a defect and leaves nothing over writes a form
(`written_of_marks`). The draft of a form bears none, so the two together say
which texts are JSON.
-/

namespace Workflow

namespace Json

open Text (Glyph)
open Token

/-! ## The draft and the tokens of a form -/

/-- The draft of a scalar. -/
def Scalar.draft : Scalar → Draft
  | .null => .leaf .null
  | .bool b => .leaf (.bool b)
  | .int n => if fitsWord n then .leaf (.int n) else .wide n
  | .decimal negative digits power =>
    match Double.ofDecimal? negative digits power with
    | some x => .leaf (.float x)
    | none => .outOfRange
  | .str s => .leaf (.str s)

theorem Scalar.draft_ne_obj (s : Scalar) (ms : List (Label × Draft)) : s.draft ≠ .obj ms := by
  cases s with
  | int n =>
    simp only [draft]
    split <;> nofun
  | decimal =>
    simp only [draft]
    split <;> nofun
  | _ => nofun

theorem Scalar.ofJson_ne_obj {s : Scalar} {v : Json} (h : s.value? = some v)
    (ms : List (Label × Draft)) : Draft.ofJson v ≠ .obj ms := by
  cases s with
  | decimal =>
    obtain ⟨x, -, rfl⟩ := Option.map_eq_some_iff.1 h
    nofun
  | _ =>
    cases h
    nofun

namespace Form

mutual

/-- The draft of a form. -/
def draft : Form → Draft
  | .scalar s => s.draft
  | .arr items => .arr (draftItems items)
  | .obj members => .obj (draftMembers members)

/-- The drafts of elements. -/
def draftItems : List Form → List Draft
  | [] => []
  | f :: rest => draft f :: draftItems rest

/-- The drafts of members under their names. -/
def draftMembers : List (String × Form) → List (Label × Draft)
  | [] => []
  | (key, f) :: rest => (.named key, draft f) :: draftMembers rest

end

mutual

/-- The tokens of a form. -/
def tokens : Form → List Token
  | .scalar s => [s.token]
  | .arr items => .openArray :: tokensItems items
  | .obj members => .openObject :: tokensMembers members

/-- The tokens of elements and of the closing bracket. -/
def tokensItems : List Form → List Token
  | [] => [.closeArray]
  | [f] => tokens f ++ [.closeArray]
  | f :: g :: rest => tokens f ++ .comma :: tokensItems (g :: rest)

/-- The tokens of members and of the closing brace. -/
def tokensMembers : List (String × Form) → List Token
  | [] => [.closeObject]
  | [(key, f)] => .value (.str key) :: .colon :: (tokens f ++ [.closeObject])
  | (key, f) :: m :: rest =>
    .value (.str key) :: .colon :: (tokens f ++ .comma :: tokensMembers (m :: rest))

end

theorem marks_scalar (s : Scalar) : s.draft.marks = [] := by
  cases s with
  | int n =>
    simp only [Scalar.draft]
    split <;> rfl
  | decimal =>
    simp only [Scalar.draft]
    split <;> rfl
  | _ => rfl

mutual

/-- The draft of a form bears no mark. -/
theorem marks_draft : (f : Form) → f.draft.marks = []
  | .scalar s => marks_scalar s
  | .arr items => by simpa [draft, Draft.marks] using marks_draftItems items
  | .obj members => by simpa [draft, Draft.marks] using marks_draftMembers members

theorem marks_draftItems : (fs : List Form) → Draft.marksItems (draftItems fs) = []
  | [] => rfl
  | f :: rest => by simp [draftItems, Draft.marksItems, marks_draft f, marks_draftItems rest]

theorem marks_draftMembers :
    (ms : List (String × Form)) → Draft.marksMembers (draftMembers ms) = []
  | [] => rfl
  | (key, f) :: rest => by
    simp [draftMembers, Draft.marksMembers, Label.marks, marks_draft f, marks_draftMembers rest]

end

/-! ## The row of a form's text -/

theorem ends_nil : Ends [] := nofun

theorem ends_mark {c : Char} {t : Token} (h : mark? c = some t) (gs : List Glyph) :
    Ends (.char c :: gs) := by
  rintro _ _ ⟨⟩
  unfold mark? at h
  split at h <;> first | exact (by decide) | cases h

theorem ends_blank {blank : List Char} (hb : Blank blank) {gs : List Glyph} (h : Ends gs) :
    Ends (glyphs blank ++ gs) := by
  cases blank with
  | nil => exact h
  | cons c cs =>
    rintro _ _ ⟨⟩
    rcases isBlank_iff.1 (hb c List.mem_cons_self) with rfl | rfl | rfl | rfl <;> decide

mutual

/-- The text of a form is cut into the form's tokens. -/
theorem row_of_spelled {cs : List Char} {f : Form} {gs : List Glyph} (hgs : Ends gs) :
    Spelled cs f → row (glyphs cs ++ gs) = f.tokens ++ row gs
  | .scalar h => row_of_lexeme h hgs
  | @Spelled.arrNil blank hb => by
    have h := row_of_blank hb (.char ']' :: gs)
    rw [row_of_mark rfl] at h
    simpa [tokens, tokensItems, ← h] using row_of_mark rfl (glyphs blank ++ .char ']' :: gs)
  | @Spelled.arr cs fs h => by
    have h := row_of_items gs h
    simpa [tokens, ← h] using row_of_mark rfl (glyphs cs ++ .char ']' :: gs)
  | @Spelled.objNil blank hb => by
    have h := row_of_blank hb (.char '}' :: gs)
    rw [row_of_mark rfl] at h
    simpa [tokens, tokensMembers, ← h] using row_of_mark rfl (glyphs blank ++ .char '}' :: gs)
  | @Spelled.obj cs ms h => by
    have h := row_of_members gs h
    simpa [tokens, ← h] using row_of_mark rfl (glyphs cs ++ .char '}' :: gs)

theorem row_of_padded {cs : List Char} {f : Form} {gs : List Glyph} (hgs : Ends gs) :
    Padded cs f → row (glyphs cs ++ gs) = f.tokens ++ row gs
  | @Padded.mk before cs after _ hb h ha => by
    have h := row_of_spelled (ends_blank ha hgs) h
    rw [row_of_blank ha] at h
    simpa [← h] using row_of_blank hb (glyphs cs ++ (glyphs after ++ gs))

theorem row_of_items {cs : List Char} {fs : List Form} (gs : List Glyph) :
    SpelledItems cs fs → row (glyphs cs ++ .char ']' :: gs) = tokensItems fs ++ row gs
  | .one h => by
    have h := row_of_padded (ends_mark (c := ']') rfl gs) h
    rw [row_of_mark rfl] at h
    simpa [tokensItems] using h
  | @SpelledItems.more cs rest f fs h hr => by
    have h := row_of_padded (ends_mark (c := ',') rfl (glyphs rest ++ .char ']' :: gs)) h
    rw [row_of_mark rfl, row_of_items gs hr] at h
    cases hr <;> simpa [tokensItems] using h

theorem row_of_members {cs : List Char} {ms : List (String × Form)} (gs : List Glyph) :
    SpelledMembers cs ms → row (glyphs cs ++ .char '}' :: gs) = tokensMembers ms ++ row gs
  | @SpelledMembers.one name cs key f hk h => by
    have hk := row_of_padded (ends_mark (c := ':') rfl (glyphs cs ++ .char '}' :: gs)) hk
    rw [row_of_mark rfl, row_of_padded (ends_mark rfl gs) h, row_of_mark rfl] at hk
    simpa [tokensMembers, tokens, Scalar.token] using hk
  | @SpelledMembers.more name cs rest key f ms hk h hr => by
    have hk := row_of_padded (ends_mark (c := ':') rfl (glyphs cs ++ .char ',' ::
      (glyphs rest ++ .char '}' :: gs))) hk
    rw [row_of_mark rfl, row_of_padded (ends_mark rfl _) h, row_of_mark rfl,
      row_of_members gs hr] at hk
    cases hr <;> simpa [tokensMembers, tokens, Scalar.token] using hk

end

/-! ## The draft of a form's tokens -/

/-- The tokens of a form do not start by closing anything. -/
theorem tokens_eq_cons (f : Form) :
    ∃ t ts, f.tokens = t :: ts ∧ t ≠ .closeArray ∧ t ≠ .closeObject := by
  cases f with
  | scalar s =>
    have hs := isMark_token s
    refine ⟨s.token, [], rfl, ?_, ?_⟩ <;> (intro h; rw [h] at hs; cases hs)
  | arr items => exact ⟨.openArray, _, rfl, nofun, nofun⟩
  | obj members => exact ⟨.openObject, _, rfl, nofun, nofun⟩

end Form

namespace Draft

theorem value_token (fuel : Nat) (s : Scalar) (ts : List Token) :
    value (fuel + 1) (s.token :: ts) = (s.draft, ts) := by
  cases s with
  | int n =>
    simp only [Scalar.token, ofInt, Scalar.draft]
    split <;> rfl
  | decimal negative digits power =>
    cases hx : Double.ofDecimal? negative digits power with
    | none =>
      have ht : (Scalar.decimal negative digits power).token = .outOfRange := by
        simp [Scalar.token, hx]
      have hd : (Scalar.decimal negative digits power).draft = .outOfRange := by
        simp [Scalar.draft, hx]
      rw [ht, hd]
      rfl
    | some x =>
      have ht : (Scalar.decimal negative digits power).token = .value (.float x) := by
        simp [Scalar.token, hx]
      have hd : (Scalar.decimal negative digits power).draft = .leaf (.float x) := by
        simp [Scalar.draft, hx]
      rw [ht, hd]
      rfl
  | _ => rfl

theorem value_openArray (fuel : Nat) {ts : List Token} (h : ∀ ts', ts ≠ .closeArray :: ts') :
    value (fuel + 1) (.openArray :: ts) = (.arr (items fuel ts).1, (items fuel ts).2) := by
  rw [value]
  exact fun ts' hts => h ts' hts

theorem value_openObject (fuel : Nat) {ts : List Token} (h : ∀ ts', ts ≠ .closeObject :: ts') :
    value (fuel + 1) (.openObject :: ts) = (.obj (members fuel ts).1, (members fuel ts).2) := by
  rw [value]
  exact fun ts' hts => h ts' hts

end Draft

namespace Form

mutual

/-- The tokens of a form are read as its draft. Each level of reading takes a
token, so as much fuel as there are tokens is enough. -/
theorem value_of_tokens (fuel : Nat) (ts : List Token) :
    (f : Form) → f.tokens.length ≤ fuel → Draft.value fuel (f.tokens ++ ts) = (f.draft, ts)
  | .scalar s, h => by
    obtain ⟨fuel, rfl⟩ := Nat.exists_eq_add_one.2 h
    exact Draft.value_token fuel s ts
  | .arr [], h => by
    obtain ⟨fuel, rfl⟩ := Nat.exists_eq_add_one.2 (Nat.lt_of_lt_of_le Nat.zero_lt_two h)
    rfl
  | .arr (f :: rest), h => by
    obtain ⟨fuel, rfl⟩ := Nat.exists_eq_add_one.2 (Nat.lt_of_lt_of_le (Nat.succ_pos _) h)
    have hitems := items_of_tokens fuel ts f rest (Nat.le_of_succ_le_succ h)
    have hopen : ∀ ts', tokensItems (f :: rest) ++ ts ≠ .closeArray :: ts' := by
      obtain ⟨t, ts₁, hf, ht, -⟩ := tokens_eq_cons f
      cases rest <;> simp [tokensItems, hf, ht]
    rw [tokens, List.cons_append, Draft.value_openArray fuel hopen, hitems, draft]
  | .obj [], h => by
    obtain ⟨fuel, rfl⟩ := Nat.exists_eq_add_one.2 (Nat.lt_of_lt_of_le Nat.zero_lt_two h)
    rfl
  | .obj ((key, f) :: rest), h => by
    obtain ⟨fuel, rfl⟩ := Nat.exists_eq_add_one.2 (Nat.lt_of_lt_of_le (Nat.succ_pos _) h)
    have hmembers := members_of_tokens fuel ts key f rest (Nat.le_of_succ_le_succ h)
    have hopen : ∀ ts', tokensMembers ((key, f) :: rest) ++ ts ≠ .closeObject :: ts' := by
      cases rest <;> simp [tokensMembers]
    rw [tokens, List.cons_append, Draft.value_openObject fuel hopen, hmembers, draft]

theorem items_of_tokens (fuel : Nat) (ts : List Token) : (f : Form) → (rest : List Form) →
    (tokensItems (f :: rest)).length ≤ fuel →
      Draft.items fuel (tokensItems (f :: rest) ++ ts) = (draftItems (f :: rest), ts)
  | f, [], h => by
    simp only [tokensItems, List.length_append, List.length_singleton] at h
    obtain ⟨fuel, rfl⟩ := Nat.exists_eq_add_one.2 (Nat.lt_of_lt_of_le (Nat.succ_pos _) h)
    have hf := value_of_tokens fuel (.closeArray :: ts) f (by omega)
    simp [Draft.items, tokensItems, draftItems, hf]
  | f, g :: rest, h => by
    simp only [tokensItems, List.length_append, List.length_cons] at h
    obtain ⟨fuel, rfl⟩ := Nat.exists_eq_add_one.2 (Nat.lt_of_lt_of_le (Nat.succ_pos _) h)
    have hf := value_of_tokens fuel (.comma :: (tokensItems (g :: rest) ++ ts)) f (by omega)
    have hrest := items_of_tokens fuel ts g rest (by omega)
    rw [draftItems]
    simp [Draft.items, tokensItems, hf, hrest]

theorem members_of_tokens (fuel : Nat) (ts : List Token) : (key : String) → (f : Form) →
    (rest : List (String × Form)) → (tokensMembers ((key, f) :: rest)).length ≤ fuel →
      Draft.members fuel (tokensMembers ((key, f) :: rest) ++ ts) =
        (draftMembers ((key, f) :: rest), ts)
  | key, f, [], h => by
    simp only [tokensMembers, List.length_append, List.length_cons, List.length_nil] at h
    obtain ⟨fuel, rfl⟩ : ∃ n, fuel = n + 2 := ⟨fuel - 2, by omega⟩
    have hf := value_of_tokens fuel (.closeObject :: ts) f (by omega)
    simp [Draft.members, Draft.afterLabel, tokensMembers, draftMembers, hf]
  | key, f, (key', g) :: rest, h => by
    simp only [tokensMembers, List.length_append, List.length_cons] at h
    obtain ⟨fuel, rfl⟩ : ∃ n, fuel = n + 2 := ⟨fuel - 2, by omega⟩
    have hf := value_of_tokens fuel (.comma :: (tokensMembers ((key', g) :: rest) ++ ts)) f
      (by omega)
    have hrest := members_of_tokens fuel ts key' g rest (by omega)
    rw [draftMembers]
    simp [Draft.members, Draft.afterLabel, tokensMembers, hf, hrest]

end

/-! ## The text of a draft without marks -/

/-- If members bear no mark, their first label bears none. -/
theorem marks_label {fuel : Nat} {label : Label} {ts : List Token}
    (h : Draft.marksMembers (Draft.afterLabel fuel label ts).1 = []) : label.marks = [] := by
  unfold Draft.afterLabel at h
  dsimp only at h
  split at h
  · exact (List.append_eq_nil_iff.1 (List.append_eq_nil_iff.1 h).1).1
  · split at h <;> exact (List.append_eq_nil_iff.1 (List.append_eq_nil_iff.1 h).1).1

/-- A word at the front of a row is read as its scalar. -/
theorem spelled_of_word (fuel : Nat) {gs : List Glyph} {t : Token} {ts : List Token}
    (hm : isMark t = false) (hi : t ≠ .illFormed) (ht : t ≠ .malformed)
    (h : row gs = t :: ts) : ∃ blank cs f gs', Blank blank ∧ Spelled cs f ∧
      gs = glyphs (blank ++ cs) ++ gs' ∧ Draft.value (fuel + 1) (row gs) = (f.draft, row gs') := by
  obtain ⟨blank, cs, s, gs', hb, hs, hgs, rfl, rfl⟩ := row_eq_word hm hi ht h
  refine ⟨blank, cs, .scalar s, gs', hb, .scalar hs, hgs, ?_⟩
  rw [h]
  exact Draft.value_token fuel s _

mutual

/-- A draft without marks was read off the text of a form, after blanks. -/
theorem spelled_of_value : (fuel : Nat) → (gs : List Glyph) →
    (Draft.value fuel (row gs)).1.marks = [] → ∃ blank cs f gs', Blank blank ∧ Spelled cs f ∧
      gs = glyphs (blank ++ cs) ++ gs' ∧ Draft.value fuel (row gs) = (f.draft, row gs')
  | 0, _, h => nomatch h
  | fuel + 1, gs, h => by
    cases hrow : row gs with
    | nil =>
      rw [hrow] at h
      cases h
    | cons t ts =>
    rw [hrow] at h
    cases t with
    | value v => exact hrow ▸ spelled_of_word fuel (t := .value v) rfl nofun nofun hrow
    | wide n => exact hrow ▸ spelled_of_word fuel (t := .wide n) rfl nofun nofun hrow
    | outOfRange => exact hrow ▸ spelled_of_word fuel (t := .outOfRange) rfl nofun nofun hrow
    | openArray =>
      obtain ⟨blank, gs₁, hb, rfl, rfl⟩ := row_eq_mark (c := '[') rfl hrow
      by_cases hclose : ∃ ts', row gs₁ = .closeArray :: ts'
      · obtain ⟨ts', hts⟩ := hclose
        obtain ⟨blank', gs', hb', rfl, rfl⟩ := row_eq_mark (c := ']') rfl hts
        exact ⟨blank, _, _, gs', hb, .arrNil hb', by simp, by rw [hts]; rfl⟩
      · rw [Draft.value_openArray fuel fun ts' hts => hclose ⟨ts', hts⟩] at h ⊢
        obtain ⟨cs, fs, gs', hitems, rfl, hread⟩ := items_of_marks fuel gs₁ h
        exact ⟨blank, _, _, gs', hb, .arr hitems, by simp, by rw [hread]; rfl⟩
    | openObject =>
      obtain ⟨blank, gs₁, hb, rfl, rfl⟩ := row_eq_mark (c := '{') rfl hrow
      by_cases hclose : ∃ ts', row gs₁ = .closeObject :: ts'
      · obtain ⟨ts', hts⟩ := hclose
        obtain ⟨blank', gs', hb', rfl, rfl⟩ := row_eq_mark (c := '}') rfl hts
        exact ⟨blank, _, _, gs', hb, .objNil hb', by simp, by rw [hts]; rfl⟩
      · rw [Draft.value_openObject fuel fun ts' hts => hclose ⟨ts', hts⟩] at h ⊢
        obtain ⟨cs, ms, gs', hmembers, rfl, hread⟩ := members_of_marks fuel gs₁ h
        exact ⟨blank, _, _, gs', hb, .obj hmembers, by simp, by rw [hread]; rfl⟩
    -- no other token starts a value, so it leaves a mark
    | _ => cases h

theorem items_of_marks : (fuel : Nat) → (gs : List Glyph) →
    Draft.marksItems (Draft.items fuel (row gs)).1 = [] → ∃ cs fs gs', SpelledItems cs fs ∧
      gs = glyphs cs ++ .char ']' :: gs' ∧ Draft.items fuel (row gs) = (draftItems fs, row gs')
  | 0, _, h => nomatch h
  | fuel + 1, gs, h => by
    have hfirst : (Draft.value fuel (row gs)).1.marks = [] := by
      rw [Draft.items] at h
      split at h <;> exact (List.append_eq_nil_iff.1 h).1
    obtain ⟨blank, cs, f, gs₁, hb, hf, rfl, hread⟩ := spelled_of_value fuel gs hfirst
    rw [Draft.items, hread] at h ⊢
    dsimp only at h ⊢
    split at h
    · rename_i ts hrow
      obtain ⟨after, gs₂, ha, rfl, rfl⟩ := row_eq_mark (c := ',') rfl hrow
      obtain ⟨cs', fs, gs', hitems, rfl, hread'⟩ :=
        items_of_marks fuel gs₂ (List.append_eq_nil_iff.1 h).2
      refine ⟨_, f :: fs, gs', .more (.mk hb hf ha) hitems, by simp, ?_⟩
      rw [hread']
      rfl
    · rename_i ts hrow
      obtain ⟨after, gs', ha, rfl, rfl⟩ := row_eq_mark (c := ']') rfl hrow
      exact ⟨_, [f], gs', .one (.mk hb hf ha), by simp, rfl⟩
    · cases (List.append_eq_nil_iff.1 h).2

theorem members_of_marks : (fuel : Nat) → (gs : List Glyph) →
    Draft.marksMembers (Draft.members fuel (row gs)).1 = [] → ∃ cs ms gs', SpelledMembers cs ms ∧
      gs = glyphs cs ++ .char '}' :: gs' ∧
        Draft.members fuel (row gs) = (draftMembers ms, row gs')
  | 0, _, h => nomatch h
  | fuel + 1, gs, h => by
    unfold Draft.members at h ⊢
    split at h
    case h_2 fuel' key ts hfuel hrow =>
      cases hfuel
      obtain ⟨blank, name, s, gs₁, hb, hs, rfl, htoken, hts⟩ :=
        row_eq_word (t := .value (.str key)) rfl nofun nofun hrow
      obtain rfl := eq_str_of_token htoken.symm
      obtain ⟨blank', gs₂, hb', rfl, rfl⟩ := row_eq_mark (c := ':') rfl hts.symm
      obtain ⟨cs, ms, gs', hmembers, rfl, hread⟩ :=
        members_of_afterLabel (.mk hb (.scalar hs) hb') fuel gs₂ h
      exact ⟨_, ms, gs', hmembers, by simp, hread⟩
    -- an ill-formed name is a mark, whatever its value is
    case h_3 => cases marks_label h
    all_goals cases h

/-- The members from a value on whose name is read. -/
theorem members_of_afterLabel {name : List Char} {key : String}
    (hk : Padded name (.scalar (.str key))) : (fuel : Nat) → (gs : List Glyph) →
    Draft.marksMembers (Draft.afterLabel fuel (.named key) (row gs)).1 = [] → ∃ cs ms gs',
      SpelledMembers (name ++ ':' :: cs) ms ∧ gs = glyphs cs ++ .char '}' :: gs' ∧
        Draft.afterLabel fuel (.named key) (row gs) = (draftMembers ms, row gs')
  | 0, _, h => nomatch h
  | fuel + 1, gs, h => by
    have hfirst : (Draft.value fuel (row gs)).1.marks = [] := by
      rw [Draft.afterLabel] at h
      split at h <;> exact (List.append_eq_nil_iff.1 h).1
    obtain ⟨blank, cs, f, gs₁, hb, hf, rfl, hread⟩ := spelled_of_value fuel gs hfirst
    rw [Draft.afterLabel, hread] at h ⊢
    dsimp only at h ⊢
    split at h
    · rename_i ts hrow
      obtain ⟨after, gs₂, ha, rfl, rfl⟩ := row_eq_mark (c := ',') rfl hrow
      obtain ⟨cs', ms, gs', hmembers, rfl, hread'⟩ :=
        members_of_marks fuel gs₂ (List.append_eq_nil_iff.1 h).2
      refine ⟨_, (key, f) :: ms, gs', .more hk (.mk hb hf ha) hmembers, by simp, ?_⟩
      rw [hread']
      rfl
    · rename_i ts hrow
      obtain ⟨after, gs', ha, rfl, rfl⟩ := row_eq_mark (c := '}') rfl hrow
      exact ⟨_, [(key, f)], gs', .one hk (.mk hb hf ha), by simp, rfl⟩
    · cases (List.append_eq_nil_iff.1 h).2

end

/-! ## Whole texts -/

/-- **A text that writes a form is read as the form's draft, to its end.** -/
theorem ofGlyphs_of_written {text : String} {f : Form} (h : Written text f) :
    Reading.ofGlyphs (Text.glyphsOfText text) = ⟨f.draft, false⟩ := by
  have hrow : row (glyphs text.toList ++ []) = f.tokens ++ row [] := row_of_padded ends_nil h
  rw [row, List.append_nil, List.append_nil] at hrow
  have hread := value_of_tokens (3 * f.tokens.length + 1) [] f (by omega)
  rw [List.append_nil] at hread
  simp [Reading.ofGlyphs, Text.glyphsOfText, hrow, hread]

/-- **A text that is read to its end, and without a mark, writes a form.** -/
theorem written_of_marks {text : String}
    (hmarks : (Reading.ofGlyphs (Text.glyphsOfText text)).draft.marks = [])
    (htrailing : (Reading.ofGlyphs (Text.glyphsOfText text)).trailing = false) :
    ∃ f, Written text f := by
  obtain ⟨blank, cs, f, gs', hb, hf, hgs, hread⟩ := spelled_of_value _ _ hmarks
  have hrow : row gs' = [] := by
    simpa [Reading.ofGlyphs, hread] using htrailing
  obtain ⟨after, ha, rfl⟩ := row_eq_nil hrow
  have htext : text.toList = blank ++ cs ++ after := by
    have hmap : glyphs text.toList = glyphs (blank ++ cs ++ after) :=
      hgs.trans List.map_append.symm
    exact (List.map_inj_right fun _ _ => Glyph.char.inj).1 hmap
  refine ⟨f, ?_⟩
  unfold Written
  rw [htext]
  exact .mk hb hf ha

end Form

end Json

end Workflow
