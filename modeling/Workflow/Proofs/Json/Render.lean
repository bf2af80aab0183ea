import Workflow.Json.Text
import Workflow.Proofs.Json.Parse
import Workflow.Proofs.Number.Literal
/-!
# Workflow — values written and read again

A value that is written as JSON text is one text of the grammar, without
blanks, and the form that it writes is of that value (`Json.exists_spelled`).
So parsing gives the value again, the order of members included
(`Json.parse_render`), as long as no object in it repeats a name.
-/

namespace Workflow

namespace Json

/-! ## Words -/

/-- A control character is written by its two last hexadecimal digits, after
two zeros. -/
theorem hexText_of_lt {n : Nat} (h : n < 0x20) :
    hexText 4 n = ['0', '0', Nat.digitChar (n / 16), Nat.digitChar (n % 16)] ∧
      Token.hexUnit? '0' '0' (Nat.digitChar (n / 16)) (Nat.digitChar (n % 16)) = some n := by
  have hall : ∀ n < 0x20,
      hexText 4 n = ['0', '0', Nat.digitChar (n / 16), Nat.digitChar (n % 16)] ∧
        Token.hexUnit? '0' '0' (Nat.digitChar (n / 16)) (Nat.digitChar (n % 16)) = some n := by
    decide
  exact hall n h

/-- **A character that is written inside a string is spelled there.** -/
theorem body_escaped (c : Char) {cs text : List Char} (h : Body cs text) :
    Body (escaped c ++ cs) (c :: text) := by
  unfold escaped
  -- the seven characters that have a short escape
  iterate 7
    split
    · rename_i hc
      subst hc
      exact .short rfl h
  split
  · rename_i hc
    obtain ⟨htext, hunit⟩ := hexText_of_lt hc
    have hbody := Body.unit hunit (.inl (by omega)) h
    rw [Char.ofNat_toNat] at hbody
    rw [htext]
    exact hbody
  · rename_i hquote hslash _ _ _ _ _ hc
    exact .bare hquote hslash (by omega) h

/-- So is a whole string. -/
theorem lexeme_quoted (s : String) : Lexeme (quoted s) (.str s) := by
  have hbody (cs : List Char) : Body (cs.flatMap escaped) cs := by
    induction cs with
    | nil => exact .nil
    | cons c cs ih =>
      rw [List.flatMap_cons]
      exact body_escaped c ih
  have hword := Lexeme.str (hbody s.toList)
  rwa [String.ofList_toList] at hword

/-- An integer is written by its digits. -/
theorem lexeme_decimal (n : Int) : Lexeme (decimal n) (.int n) := by
  have hword := Lexeme.int (decide (n < 0)) (whole_toDigits n.natAbs)
  rw [Nat.ofDigitChars_ten_toDigits, signed_natAbs] at hword
  have hsame : decimal n = minus (decide (n < 0)) ++ Nat.toDigits 10 n.natAbs := by
    unfold decimal minus
    by_cases hn : n < 0 <;> simp [hn]
  rwa [hsame]

/-! ## Values -/

open Form (Spelled Padded SpelledItems SpelledMembers valueItems? valueMembers?)

mutual

/-- **A value is written as a form of that value.** -/
theorem exists_spelled : ∀ v : Json, v.WellFormed → ∃ f, Spelled v.text f ∧ f.value? = some v
  | .null, _ => ⟨_, .scalar .null, rfl⟩
  | .bool true, _ => ⟨_, .scalar .true, rfl⟩
  | .bool false, _ => ⟨_, .scalar .false, rfl⟩
  | .int n, _ => ⟨_, .scalar (lexeme_decimal n), rfl⟩
  | .float x, _ => by
    obtain ⟨s, hword, hvalue⟩ := Layout.exists_lexeme_text x
    exact ⟨.scalar s, .scalar hword, hvalue⟩
  | .str s, _ => ⟨_, .scalar (lexeme_quoted s), rfl⟩
  | .arr [], _ => ⟨_, .arrNil (show Blank [] from nofun), rfl⟩
  | .arr (v :: rest), h => by
    obtain ⟨f, hf, hv⟩ := exists_spelled v h.1
    obtain ⟨cs, fs, htext, hfs, hvs⟩ := exists_spelledItems rest h.2 hf.padded
    refine ⟨.arr (f :: fs), ?_, ?_⟩
    · rw [text, htext]
      exact .arr hfs
    · rw [Form.value?, Form.valueItems?_cons_eq_some.2 ⟨v, rest, hv, hvs, rfl⟩]
      rfl
  | .obj [], _ => ⟨_, .objNil (show Blank [] from nofun), rfl⟩
  | .obj ((key, v) :: rest), h => by
    obtain ⟨f, hf, hv⟩ := exists_spelled v h.2.1
    obtain ⟨cs, ms, htext, hms, hvs⟩ := exists_spelledMembers rest h.2.2 key hf.padded
    refine ⟨.obj ((key, f) :: ms), ?_, ?_⟩
    · rw [text, htext]
      exact .obj hms
    · rw [Form.value?, Form.valueMembers?_cons_eq_some.2 ⟨v, rest, hv, hvs, rfl⟩]
      exact congrArg (some ∘ Json.obj) (Entries.collect_of_distinct h.1)

/-- Elements are written after one that is. -/
theorem exists_spelledItems : ∀ (rest : List Json), WellFormedItems rest →
    ∀ {cs : List Char} {f : Form}, Padded cs f →
      ∃ cs' fs, cs ++ itemsText rest = cs' ++ [']'] ∧ SpelledItems cs' (f :: fs) ∧
        valueItems? fs = some rest
  | [], _, cs, f, hf => ⟨cs, [], rfl, .one hf, rfl⟩
  | v :: rest, h, cs, f, hf => by
    obtain ⟨g, hg, hv⟩ := exists_spelled v h.1
    obtain ⟨cs', fs, htext, hfs, hvs⟩ := exists_spelledItems rest h.2 hg.padded
    refine ⟨cs ++ ',' :: cs', g :: fs, ?_, .more hf hfs, ?_⟩
    · rw [itemsText, htext, List.append_assoc]
      rfl
    · exact Form.valueItems?_cons_eq_some.2 ⟨v, rest, hv, hvs, rfl⟩

/-- Members are written after one that is. -/
theorem exists_spelledMembers : ∀ (rest : List (String × Json)), WellFormedMembers rest →
    ∀ (key : String) {cs : List Char} {f : Form}, Padded cs f →
      ∃ cs' ms, quoted key ++ ':' :: (cs ++ membersText rest) = cs' ++ ['}'] ∧
        SpelledMembers cs' ((key, f) :: ms) ∧ valueMembers? ms = some rest
  | [], _, key, cs, f, hf => by
    have hkey : Padded (quoted key) (.scalar (.str key)) :=
      (Spelled.scalar (lexeme_quoted key)).padded
    refine ⟨quoted key ++ ':' :: cs, [], ?_, .one hkey hf, rfl⟩
    rw [membersText, List.append_assoc]
    rfl
  | (next, v) :: rest, h, key, cs, f, hf => by
    have hkey : Padded (quoted key) (.scalar (.str key)) :=
      (Spelled.scalar (lexeme_quoted key)).padded
    obtain ⟨g, hg, hv⟩ := exists_spelled v h.1
    obtain ⟨cs', ms, htext, hms, hvs⟩ := exists_spelledMembers rest h.2 next hg.padded
    refine ⟨quoted key ++ ':' :: (cs ++ ',' :: cs'), (next, g) :: ms, ?_, .more hkey hf hms, ?_⟩
    · rw [membersText, htext]
      simp
    · exact Form.valueMembers?_cons_eq_some.2 ⟨v, rest, hv, hvs, rfl⟩

end

/-- **What is written is one JSON text, of the value that was written.** -/
theorem exists_written_render {v : Json} (h : v.WellFormed) :
    ∃ f, Form.Written v.render f ∧ f.value? = some v := by
  obtain ⟨f, hf, hv⟩ := exists_spelled v h
  refine ⟨f, ?_, hv⟩
  unfold Form.Written render
  rw [String.toList_ofList]
  exact hf.padded

/-- **Parsing undoes writing.** -/
theorem parse_render {v : Json} (h : v.WellFormed) : parse v.render = .ok v :=
  parse_eq_ok_iff.2 (exists_written_render h)

end Json

end Workflow
