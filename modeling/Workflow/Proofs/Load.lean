import Workflow.Definition
import Workflow.Proofs.Json.Parse
import Workflow.Proofs.Shape.Agreement
import Workflow.Proofs.Shape.Given
import Workflow.Proofs.Text.Utf8
/-!
# Workflow — loading definitions

A definition loads alike from text, from the bytes of that text and from the
value that the text writes, up to one thing that text says differently of
integers that take more than a machine word; and loading comes to a
definition or is refused as malformed, up to bytes that are no text inside a
string.
-/

namespace Workflow

open Json (Form Reading)

namespace Definition

theorem record_strict : record.strict := rfl

theorem record_takesIntegers : record.TakesIntegers := by
  intro field hfield
  simp only [record, List.mem_cons, List.not_mem_nil, or_false] at hfield
  rcases hfield with rfl | rfl | rfl | rfl | rfl <;>
    simp [Shape.TakesIntegers, Shape.optionalText, Shape.optionalInt]

/-! ## What loading comes to -/

theorem ofDraft_of_ok {draft : Json.Draft} {ms : Members} (h : record.fit draft = .ok ms) :
    ofDraft draft = .ok (ofMembers ms) := by
  rw [ofDraft, h]
  rfl

theorem ofDraft_of_error {draft : Json.Draft} {p : Problem} (h : record.fit draft = .error p) :
    ofDraft draft = .error (.ofDefinition p) := by
  rw [ofDraft, h]
  rfl

theorem ofGlyphs_eq (gs : List Text.Glyph) :
    ofGlyphs gs = (ofDraft (Reading.ofGlyphs gs).draft >>= fun d =>
      if (Reading.ofGlyphs gs).trailing then .error .malformedText else .ok d) := rfl

/-- Text comes to a problem of its draft, to text after a draft that is in
order, or to the definition of its draft. -/
theorem ofGlyphs_cases (gs : List Text.Glyph) :
    (∃ p, record.fit (Reading.ofGlyphs gs).draft = .error p ∧
      ofGlyphs gs = .error (.ofDefinition p)) ∨
    ofGlyphs gs = .error .malformedText ∨
    ∃ ms, record.fit (Reading.ofGlyphs gs).draft = .ok ms ∧
      (Reading.ofGlyphs gs).trailing = false ∧ ofGlyphs gs = .ok (ofMembers ms) := by
  have hload := ofGlyphs_eq gs
  cases hfit : record.fit (Reading.ofGlyphs gs).draft with
  | error p =>
    rw [ofDraft_of_error hfit] at hload
    exact .inl ⟨p, rfl, hload⟩
  | ok ms =>
    rw [ofDraft_of_ok hfit] at hload
    cases htrailing : (Reading.ofGlyphs gs).trailing with
    | true =>
      rw [htrailing] at hload
      exact .inr (.inl hload)
    | false =>
      rw [htrailing] at hload
      exact .inr (.inr ⟨ms, rfl, rfl, hload⟩)

/-- A text that writes a form comes to what the form's draft comes to. -/
theorem load_text_of_written {text : String} {f : Form} (h : Form.Written text f) :
    load (.text text) = ofDraft f.draft := by
  change ofGlyphs (Text.glyphsOfText text) = ofDraft f.draft
  rw [ofGlyphs_eq, Form.ofGlyphs_of_written h]
  cases ofDraft f.draft <;> rfl

/-- Whatever a definition is loaded from has a draft that fits. -/
theorem exists_fit_of_load {source : Source} {d : Definition} (h : load source = .ok d) :
    ∃ draft ms, record.fit draft = .ok ms ∧ d = ofMembers ms := by
  have hglyphs (gs : List Text.Glyph) (h : ofGlyphs gs = .ok d) :
      ∃ draft ms, record.fit draft = .ok ms ∧ d = ofMembers ms := by
    obtain ⟨p, -, hload⟩ | hload | ⟨ms, hfit, -, hload⟩ := ofGlyphs_cases gs
    · cases h.symm.trans hload
    · cases h.symm.trans hload
    · exact ⟨_, ms, hfit, Except.ok.inj (h.symm.trans hload)⟩
  cases source with
  | value v =>
    cases hfit : record.fit (.ofJson v) with
    | error p => cases h.symm.trans (ofDraft_of_error hfit)
    | ok ms => exact ⟨_, ms, hfit, Except.ok.inj (h.symm.trans (ofDraft_of_ok hfit))⟩
  | text s => exact hglyphs _ h
  | bytes bs => exact hglyphs _ h

/-- **The raw states of a definition that was loaded repeat no name.** -/
theorem distinct_of_load {source : Source} {d : Definition} (h : load source = .ok d)
    {name : String} {raw : Members} (hraw : Entries.get? d.states name = some raw) :
    Entries.Distinct raw := by
  obtain ⟨draft, ms, hfit, rfl⟩ := exists_fit_of_load h
  obtain ⟨⟨key, v⟩, hmem, hv⟩ := List.mem_filterMap.1 (Entries.mem_of_get? hraw)
  obtain ⟨raw', hraw', hentry⟩ := Option.map_eq_some_iff.1 hv
  cases hentry
  cases htable : (Entries.get? ms "States").bind Json.members? with
  | none => simp [htable] at hmem
  | some entries =>
    obtain ⟨table, hget, hentries⟩ := Option.bind_eq_some_iff.1 htable
    rw [htable, Option.getD_some] at hmem
    -- the table of states was fitted, and so was every raw state in it
    obtain ⟨shape, draft', hshape, htablefit⟩ := Record.exists_fit_of_get? record_strict hfit hget
    obtain rfl : Shape.table (.table .any) = shape := Option.some.inj hshape
    obtain ⟨-, entries', -, rfl, -, hparts⟩ := Shape.table_of_fit htablefit
    cases hentries
    obtain ⟨draft'', hpart⟩ := hparts _ hmem
    obtain ⟨-, raw'', -, rfl, hdistinct, -⟩ := Shape.table_of_fit hpart
    cases hraw'
    exact hdistinct

/-! ## Text, bytes and values -/

/-- **A text and its bytes load alike.** -/
theorem load_toUTF8 (text : String) : load (.bytes text.toUTF8) = load (.text text) := by
  change ofGlyphs _ = ofGlyphs _
  rw [Text.glyphsOfBytes_toUTF8]

/-- **What text loads to, the value of the text loads to.** -/
theorem load_value_of_load_text {text : String} {d : Definition}
    (h : load (.text text) = .ok d) : ∃ f v, Form.Written text f ∧ f.value? = some v ∧
      load (.value v) = .ok d := by
  obtain ⟨p, -, hload⟩ | hload | ⟨ms, hfit, htrailing, hload⟩ :=
    ofGlyphs_cases (Text.glyphsOfText text)
  · cases h.symm.trans hload
  · cases h.symm.trans hload
  · have hmarks := Record.accounts_fit record_strict
      (Reading.ofGlyphs (Text.glyphsOfText text)).draft
    rw [hfit] at hmarks
    obtain ⟨f, hf⟩ := Form.written_of_marks hmarks htrailing
    rw [Form.ofGlyphs_of_written hf] at hfit
    obtain ⟨v, hv, hgiven⟩ := Record.value_of_fit record_strict record_takesIntegers hfit
    refine ⟨f, v, hf, hv, ?_⟩
    cases h.symm.trans hload
    exact ofDraft_of_ok hgiven

/-- A form of a definition repeats no name, nor does its table of states. -/
def Plain (f : Form) : Prop :=
  f.Distinct ∧ ∀ states, ("States", states) ∈ f.members → states.Distinct

/-- **A plain form is read as its value is given.** -/
theorem agrees_of_plain {f : Form} (h : Plain f) {v : Json} (hv : f.value? = some v) :
    Agrees f (record.fit f.draft) (record.fit (.ofJson v)) := by
  refine Record.agrees record_strict hv h.1 fun m hm shape hshape w hw => ?_
  have hfield := Entries.mem_of_get? hshape
  have hs : shape.TakesIntegers := record_takesIntegers _ hfield
  simp only [record, List.mem_cons, Prod.mk.injEq, List.not_mem_nil, or_false] at hfield
  rcases hfield with ⟨hkey, rfl⟩ | ⟨-, rfl⟩ | ⟨-, rfl⟩ | ⟨-, rfl⟩ | ⟨-, rfl⟩
  · refine Shape.agrees_table (hs.entry rfl) hw (h.2 m.2 (hkey ▸ hm)) fun m' _ w' hw' => ?_
    exact Shape.agrees_table_any hw'
  all_goals exact Shape.agrees_in_scalar hs hw

/-- A plain text comes to what its value comes to, or to the wide integer that
both refuse. -/
theorem load_text_agrees {text : String} {f : Form} (hf : Form.Written text f) (hplain : Plain f)
    {v : Json} (hv : f.value? = some v) : load (.text text) = load (.value v) ∨
      ∃ n expected place, f.Leads place (.scalar (.int n)) ∧
        (n < -Nat.pow 2 63 ∨ Nat.pow 2 64 ≤ n) ∧
        load (.text text) = .error (.badDefinition (.wide expected n place)) ∧
        load (.value v) = .error (.badDefinition (.wrongKind expected .int place)) := by
  rw [load_text_of_written hf]
  change ofDraft f.draft = ofDraft (.ofJson v) ∨ _
  rcases agrees_of_plain hplain hv with hsame | ⟨n, expected, place, hn, hwide, hread, hgiven⟩
  · exact .inl (by rw [ofDraft, hsame, ofDraft])
  · refine .inr ⟨n, expected, place, hn, ?_, ofDraft_of_error hread, ofDraft_of_error hgiven⟩
    rw [Json.Token.fitsWord_iff] at hwide
    omega

/-- A text without a value is refused, for its number past the largest or for
a misfit before it. -/
theorem load_text_of_no_value {text : String} {f : Form} (hf : Form.Written text f)
    (hnone : f.value? = none) : ∃ m, load (.text text) = .error (.badDefinition m) := by
  have hmarks := Record.accounts_fit record_strict f.draft
  rw [load_text_of_written hf]
  cases hfit : record.fit f.draft with
  | ok ms =>
    obtain ⟨v, hv, -⟩ := Record.value_of_fit record_strict record_takesIntegers hfit
    cases hnone.symm.trans hv
  | error p =>
    rw [hfit, f.marks_draft] at hmarks
    obtain ⟨m, rfl⟩ := hmarks.resolve_right List.not_mem_nil
    exact ⟨m, ofDraft_of_error hfit⟩

/-- **A definition loads alike from text, from bytes and from a value.** What
text loads to, the one value that the text writes loads to. A text of which
no name is repeated, neither on top nor in the table of states, comes to what
its value comes to, also where that is a refusal; only a wide integer where
no integer may stand is refused in other words. A text that has no value, for
a number past the largest, is refused. -/
theorem text_loads_as_its_value :
    (∀ text d, load (.text text) = .ok d → ∃ v, (∃ f, Form.Written text f) ∧
      (∀ f, Form.Written text f → f.value? = some v) ∧ load (.value v) = .ok d) ∧
    (∀ text f, Form.Written text f → Plain f →
      (∀ v, f.value? = some v → load (.text text) = load (.value v) ∨
        ∃ n expected place, f.Leads place (.scalar (.int n)) ∧
          (n < -Nat.pow 2 63 ∨ Nat.pow 2 64 ≤ n) ∧
          load (.text text) = .error (.badDefinition (.wide expected n place)) ∧
          load (.value v) = .error (.badDefinition (.wrongKind expected .int place))) ∧
      (f.value? = none → ∃ m, load (.text text) = .error (.badDefinition m))) ∧
    ∀ text : String, load (.bytes text.toUTF8) = load (.text text) := by
  refine ⟨fun text d h => ?_, fun text f hf hplain => ?_, load_toUTF8⟩
  · obtain ⟨f, v, hf, hv, hload⟩ := load_value_of_load_text h
    exact ⟨v, ⟨f, hf⟩, fun g hg => Form.value?_eq_of_written hf hg hv, hload⟩
  · exact ⟨fun v hv => load_text_agrees hf hplain hv, load_text_of_no_value hf⟩

/-- A definition as text gives it that has a start state of one word, and
nothing else. -/
def startsAt (s : Json.Scalar) : Form :=
  .obj [("StartAt", .scalar s)]

theorem padded_startsAt {cs : List Char} {s : Json.Scalar} (h : Json.Lexeme cs s) :
    Form.Padded ('\x7b' :: ("\"StartAt\":".toList ++ cs ++ ['\x7d'])) (startsAt s) := by
  have hbody : Json.Body ['S', 't', 'a', 'r', 't', 'A', 't'] ['S', 't', 'a', 'r', 't', 'A', 't'] :=
    .bare_self (by simp)
  have hname : Form.Spelled ['"', 'S', 't', 'a', 'r', 't', 'A', 't', '"']
      (.scalar (.str "StartAt")) := .scalar (.str hbody)
  exact (Form.Spelled.obj (.one hname.padded (Form.Spelled.scalar h).padded)).padded

theorem plain_startsAt (s : Json.Scalar) : Plain (startsAt s) := by
  simp [Plain, startsAt, Form.Distinct, Form.members, Entries.Distinct, Entries.keys]

/-- A definition that only names its start state loads from its text, and from
its value alike. -/
theorem named_start_loads_alike :
    load (.text "\x7b\"StartAt\":\"A\"\x7d") = .ok (ofMembers [("StartAt", .str "A")]) ∧
    Form.Written "\x7b\"StartAt\":\"A\"\x7d" (startsAt (.str "A")) ∧
    Plain (startsAt (.str "A")) ∧
    (∃ v, (∃ f, Form.Written "\x7b\"StartAt\":\"A\"\x7d" f) ∧
      (∀ f, Form.Written "\x7b\"StartAt\":\"A\"\x7d" f → f.value? = some v) ∧
      load (.value v) = .ok (ofMembers [("StartAt", .str "A")])) ∧
    load (.text "\x7b\"StartAt\":\"A\"\x7d") = load (.value (.obj [("StartAt", .str "A")])) := by
  have hbody : Json.Body ['A'] ['A'] := .bare_self (by simp)
  have hwritten : Form.Written "\x7b\"StartAt\":\"A\"\x7d" (startsAt (.str "A")) :=
    padded_startsAt (.str hbody)
  have hplain := plain_startsAt (.str "A")
  have hload : load (.text "\x7b\"StartAt\":\"A\"\x7d") =
      .ok (ofMembers [("StartAt", .str "A")]) := by
    rw [load_text_of_written hwritten]
    rfl
  refine ⟨hload, hwritten, hplain, text_loads_as_its_value.1 _ _ hload, ?_⟩
  obtain h | ⟨n, expected, place, -, -, h, -⟩ :=
    (text_loads_as_its_value.2.1 _ _ hwritten hplain).1 _ rfl
  · exact h
  · cases hload.symm.trans h

/-- A start state that is given as a wide integer is refused as a number with
a point by text, and as an integer by its value. -/
theorem wide_start_loads_apart :
    Form.Written "\x7b\"StartAt\":18446744073709551616\x7d"
      (startsAt (.int 18446744073709551616)) ∧
    Plain (startsAt (.int 18446744073709551616)) ∧
    (startsAt (.int 18446744073709551616)).value? =
      some (.obj [("StartAt", .int 18446744073709551616)]) ∧
    load (.text "\x7b\"StartAt\":18446744073709551616\x7d") =
      .error (.badDefinition (.wrongKind "str | null" .float [.field "StartAt"])) ∧
    load (.value (.obj [("StartAt", .int 18446744073709551616)])) =
      .error (.badDefinition (.wrongKind "str | null" .int [.field "StartAt"])) ∧
    (Fault.badDefinition (.wrongKind "str | null" .float [.field "StartAt"])).message ≠
      (Fault.badDefinition (.wrongKind "str | null" .int [.field "StartAt"])).message := by
  have hnumber : Json.Lexeme ['1', '8', '4', '4', '6', '7', '4', '4', '0', '7', '3', '7', '0', '9',
      '5', '5', '1', '6', '1', '6'] (.int 18446744073709551616) :=
    .int false ⟨⟨by simp, by simp⟩, by simp⟩
  have hwritten : Form.Written "\x7b\"StartAt\":18446744073709551616\x7d"
      (startsAt (.int 18446744073709551616)) := padded_startsAt hnumber
  refine ⟨hwritten, plain_startsAt _, rfl, ?_, rfl, by decide⟩
  rw [load_text_of_written hwritten]
  rfl

/-! ## Refusals -/

/-- Glyphs come to a definition, to a malformed one, or to a string that is
ill-formed. -/
theorem ofGlyphs_ok_or_refused (gs : List Text.Glyph) :
    (∃ d, ofGlyphs gs = .ok d) ∨
    (∃ fault, ofGlyphs gs = .error fault ∧ fault.family = .definition) ∨
    ofGlyphs gs = .error .illFormedText ∧ .illFormed ∈ Json.Token.row gs := by
  obtain ⟨p, hfit, hload⟩ | hload | ⟨ms, -, -, hload⟩ := ofGlyphs_cases gs
  · have hmarks := Record.accounts_fit record_strict (Reading.ofGlyphs gs).draft
    rw [hfit] at hmarks
    cases p with
    | malformed => exact .inr (.inl ⟨_, hload, rfl⟩)
    | misfit m => exact .inr (.inl ⟨_, hload, rfl⟩)
    | illFormed =>
      obtain ⟨m, hm⟩ | hmark := hmarks
      · cases hm
      · exact .inr (.inr ⟨hload, Json.Draft.illFormed_of_value _ _ (.inl hmark)⟩)
  · exact .inr (.inl ⟨_, hload, rfl⟩)
  · exact .inl ⟨_, hload⟩

/-- **Loading comes to a definition or is refused as malformed**, save for
bytes that are no text and have an ill-formed string among their tokens, one
with a stray byte between its quotes: these may be refused as ill-formed text.
Values and texts never are. -/
theorem load_ok_or_refused (source : Source) :
    (∃ d, load source = .ok d) ∨
    (∃ fault, load source = .error fault ∧ fault.family = .definition) ∨
    load source = .error .illFormedText ∧ ∃ bytes, source = .bytes bytes ∧
      (∀ text : String, bytes ≠ text.toUTF8) ∧
      .illFormed ∈ Json.Token.row (Text.glyphsOfBytes bytes) ∧
      ∃ before inside after b, .stray b ∈ inside ∧
        Text.glyphsOfBytes bytes = before ++ .char '"' :: (inside ++ .char '"' :: after) := by
  cases source with
  | value v =>
    have hmarks := Record.accounts_fit record_strict (Json.Draft.ofJson v)
    cases hfit : record.fit (.ofJson v) with
    | ok ms => exact .inl ⟨_, ofDraft_of_ok hfit⟩
    | error p =>
      rw [hfit, Json.Draft.marks_ofJson] at hmarks
      obtain ⟨m, rfl⟩ := hmarks.resolve_right List.not_mem_nil
      exact .inr (.inl ⟨_, ofDraft_of_error hfit, rfl⟩)
  | text text =>
    obtain hok | hrefused | ⟨-, htoken⟩ := ofGlyphs_ok_or_refused (Text.glyphsOfText text)
    · exact .inl hok
    · exact .inr (.inl hrefused)
    · rw [← Text.glyphsOfBytes_toUTF8] at htoken
      obtain ⟨b, hb⟩ := Json.exists_stray_of_row htoken
      exact absurd rfl (Text.ne_toUTF8_of_stray hb text)
  | bytes bytes =>
    obtain hok | hrefused | ⟨hload, htoken⟩ := ofGlyphs_ok_or_refused (Text.glyphsOfBytes bytes)
    · exact .inl hok
    · exact .inr (.inl hrefused)
    · obtain ⟨b, hb⟩ := Json.exists_stray_of_row htoken
      have htext := Text.ne_toUTF8_of_stray hb
      exact .inr (.inr ⟨hload, bytes, rfl, htext, htoken, Json.stray_of_row htoken⟩)

/-- The bytes of a definition whose start state is a string of one stray
byte. -/
def strayStart : ByteArray :=
  ⟨#[0x7b, 0x22, 0x53, 0x74, 0x61, 0x72, 0x74, 0x41, 0x74, 0x22, 0x3a, 0x22, 0xff, 0x22, 0x7d]⟩

theorem glyphsOfBytes_strayStart : Text.glyphsOfBytes strayStart =
    [.char '\x7b', .char '"', .char 'S', .char 't', .char 'a', .char 'r', .char 't', .char 'A',
      .char 't', .char '"', .char ':', .char '"', .stray 0xff, .char '"', .char '\x7d'] := by
  decide +kernel

theorem row_strayStart : Json.Token.row (Text.glyphsOfBytes strayStart) =
    [.openObject, .value (.str "StartAt"), .colon, .illFormed, .closeObject] := by
  rw [glyphsOfBytes_strayStart]
  refine (Json.row_of_front? rfl).trans (congrArg _ ?_)
  refine (Json.row_of_front? rfl).trans (congrArg _ ?_)
  refine (Json.row_of_front? rfl).trans (congrArg _ ?_)
  refine (Json.row_of_front? rfl).trans (congrArg _ ?_)
  refine (Json.row_of_front? rfl).trans (congrArg _ ?_)
  rw [Json.Token.row]

/-- A stray byte in the name of the start state is refused, and not as a
malformed definition. -/
theorem stray_start_is_no_malformed_definition :
    load (.bytes strayStart) = .error .illFormedText ∧
    Fault.illFormedText.family ≠ .definition ∧
    .definition ∉ Fault.illFormedText.family.wider := by
  refine ⟨?_, by decide, by decide⟩
  change ofGlyphs (Text.glyphsOfBytes strayStart) = _
  rw [ofGlyphs_eq, Reading.ofGlyphs, row_strayStart]
  rfl

end Definition

end Workflow
