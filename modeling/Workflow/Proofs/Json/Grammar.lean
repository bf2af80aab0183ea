import Workflow.Json.Token
/-!
# Workflow — the grammar of JSON text

What it is for a text to be JSON, said by rules that know nothing of how it
is read. A form is a value as its text writes it: an object may repeat a
name, and a number with a point or an exponent is still a decimal. The rules
are those of RFC 8259, one constructor each; `Form.Written` says that a whole
text writes a form, `Form.value?` which value the form stands for.
-/

namespace Workflow

namespace Json

open Token (shortEscape? hexUnit? signed isBlank)

/-- A value without parts, as it is written. -/
inductive Scalar where
  /-- The value that stands for none. -/
  | null
  /-- A truth value. -/
  | bool (b : Bool)
  /-- A number without a point or an exponent. -/
  | int (n : Int)
  /-- A number with one: `± digits · 10 ^ power`. -/
  | decimal (negative : Bool) (digits : Nat) (power : Int)
  /-- A text. -/
  | str (s : String)

/-- A value, as it is written. -/
inductive Form where
  /-- A value without parts. -/
  | scalar (s : Scalar)
  /-- A list. -/
  | arr (items : List Form)
  /-- An object, its names possibly repeated. -/
  | obj (members : List (String × Form))

/-! ## The value of a form -/

/-- The value that a scalar stands for; a decimal past the largest number
stands for none. -/
def Scalar.value? : Scalar → Option Json
  | .null => some .null
  | .bool b => some (.bool b)
  | .int n => some (.int n)
  | .decimal negative digits power => (Double.ofDecimal? negative digits power).map .float
  | .str s => some (.str s)

namespace Form

mutual

/-- The value that a form stands for. A name that an object repeats keeps its
first place and its last value. -/
def value? : Form → Option Json
  | .scalar s => s.value?
  | .arr items => (valueItems? items).map .arr
  | .obj members => (valueMembers? members).map fun ms => .obj (Entries.collect ms)

/-- The values of elements. -/
def valueItems? : List Form → Option (List Json)
  | [] => some []
  | f :: rest => do
    let v ← value? f
    let vs ← valueItems? rest
    return v :: vs

/-- The members with their values, as they are written. -/
def valueMembers? : List (String × Form) → Option (List (String × Json))
  | [] => some []
  | (key, f) :: rest => do
    let v ← value? f
    let vs ← valueMembers? rest
    return (key, v) :: vs

end

theorem valueItems?_cons_eq_some {f : Form} {rest : List Form} {ws : List Json} :
    valueItems? (f :: rest) = some ws ↔
      ∃ v vs, f.value? = some v ∧ valueItems? rest = some vs ∧ v :: vs = ws := by
  simp [valueItems?, Option.bind_eq_some_iff]

theorem valueMembers?_cons_eq_some {key : String} {f : Form} {rest : List (String × Form)}
    {ws : List (String × Json)} : valueMembers? ((key, f) :: rest) = some ws ↔
      ∃ v vs, f.value? = some v ∧ valueMembers? rest = some vs ∧ (key, v) :: vs = ws := by
  simp [valueMembers?, Option.bind_eq_some_iff]

/-- The members of the object that a form is. -/
def members : Form → List (String × Form)
  | .obj ms => ms
  | _ => []

end Form

/-! ## Words -/

/-- Only blanks. -/
def Blank (cs : List Char) : Prop :=
  ∀ c ∈ cs, isBlank c

/-- At least one decimal digit, and nothing else. -/
def Digits (cs : List Char) : Prop :=
  cs ≠ [] ∧ ∀ c ∈ cs, c.isDigit

/-- The whole part of a number: no zero before another digit. -/
def Whole (cs : List Char) : Prop :=
  Digits cs ∧ (cs.head? = some '0' → cs = ['0'])

/-- A minus, if the number is negative. -/
def minus (negative : Bool) : List Char :=
  if negative then ['-'] else []

/-- The part from the point on, with its digits. -/
inductive Fraction : List Char → List Char → Prop where
  | none : Fraction [] []
  | some {ds : List Char} (hd : Digits ds) : Fraction ('.' :: ds) ds

/-- The sign of an exponent, with its meaning. -/
inductive Sign : List Char → Bool → Prop where
  | none : Sign [] false
  | plus : Sign ['+'] false
  | minus : Sign ['-'] true

/-- The part from the mark of the exponent on, with the exponent. -/
inductive Exponent : List Char → Int → Prop where
  | none : Exponent [] 0
  | some {mark : Char} {sign ds : List Char} {negative : Bool} (hm : mark = 'e' ∨ mark = 'E')
      (hs : Sign sign negative) (hd : Digits ds) :
      Exponent (mark :: (sign ++ ds)) (signed negative (Nat.ofDigitChars 10 ds 0))

/-- The inside of a string, with the characters that it spells. -/
inductive Body : List Char → List Char → Prop where
  | nil : Body [] []
  /-- A character that stands for itself. -/
  | bare {c : Char} {cs text : List Char} (hq : c ≠ '"') (hb : c ≠ '\\') (hc : 0x20 ≤ c.toNat)
      (h : Body cs text) : Body (c :: cs) (c :: text)
  /-- A short escape. -/
  | short {e c : Char} {cs text : List Char} (he : shortEscape? e = some c) (h : Body cs text) :
      Body ('\\' :: e :: cs) (c :: text)
  /-- A character by its UTF-16 unit. -/
  | unit {a b c d : Char} {u : Nat} {cs text : List Char} (hu : hexUnit? a b c d = some u)
      (hs : u < 0xD800 ∨ 0xE000 ≤ u) (h : Body cs text) :
      Body ('\\' :: 'u' :: a :: b :: c :: d :: cs) (Char.ofNat u :: text)
  /-- A character by its surrogate pair. -/
  | pair {a b c d a' b' c' d' : Char} {u l : Nat} {cs text : List Char}
      (hu : hexUnit? a b c d = some u) (hhigh : 0xD800 ≤ u ∧ u < 0xDC00)
      (hl : hexUnit? a' b' c' d' = some l) (hlow : 0xDC00 ≤ l ∧ l < 0xE000) (h : Body cs text) :
      Body ('\\' :: 'u' :: a :: b :: c :: d :: '\\' :: 'u' :: a' :: b' :: c' :: d' :: cs)
        (Char.ofNat (0x10000 + (u - 0xD800) * 0x400 + (l - 0xDC00)) :: text)

/-- Characters that need no escape spell themselves. -/
theorem Body.bare_self {cs : List Char} (h : ∀ c ∈ cs, c ≠ '"' ∧ c ≠ '\\' ∧ 0x20 ≤ c.toNat) :
    Body cs cs := by
  induction cs with
  | nil => exact .nil
  | cons c cs ih =>
    obtain ⟨hq, hb, hc⟩ := h c List.mem_cons_self
    exact .bare hq hb hc (ih fun c hc => h c (List.mem_cons_of_mem _ hc))

/-- A word of JSON text, with the scalar that it writes. -/
inductive Lexeme : List Char → Scalar → Prop where
  | null : Lexeme ['n', 'u', 'l', 'l'] .null
  | true : Lexeme ['t', 'r', 'u', 'e'] (.bool true)
  | false : Lexeme ['f', 'a', 'l', 's', 'e'] (.bool false)
  | str {cs text : List Char} (h : Body cs text) :
      Lexeme ('"' :: (cs ++ ['"'])) (.str (String.ofList text))
  | int {ds : List Char} (negative : Bool) (hd : Whole ds) :
      Lexeme (minus negative ++ ds) (.int (signed negative (Nat.ofDigitChars 10 ds 0)))
  /-- A fraction, an exponent or both follow the whole part. -/
  | decimal {ds fraction after exponent : List Char} {power : Int} (negative : Bool)
      (hd : Whole ds) (hf : Fraction fraction after) (he : Exponent exponent power)
      (hne : fraction ++ exponent ≠ []) :
      Lexeme (minus negative ++ ds ++ fraction ++ exponent)
        (.decimal negative (Nat.ofDigitChars 10 (ds ++ after) 0) (power - after.length))

/-! ## Phrases -/

mutual

/-- The text of a value, from its first character to its last. -/
inductive Form.Spelled : List Char → Form → Prop where
  | scalar {cs : List Char} {s : Scalar} (h : Lexeme cs s) : Form.Spelled cs (.scalar s)
  | arrNil {blank : List Char} (hb : Blank blank) :
      Form.Spelled ('[' :: (blank ++ [']'])) (.arr [])
  | arr {cs : List Char} {fs : List Form} (h : Form.SpelledItems cs fs) :
      Form.Spelled ('[' :: (cs ++ [']'])) (.arr fs)
  | objNil {blank : List Char} (hb : Blank blank) :
      Form.Spelled ('{' :: (blank ++ ['}'])) (.obj [])
  | obj {cs : List Char} {ms : List (String × Form)} (h : Form.SpelledMembers cs ms) :
      Form.Spelled ('{' :: (cs ++ ['}'])) (.obj ms)

/-- The text of a value with blanks around it. -/
inductive Form.Padded : List Char → Form → Prop where
  | mk {before cs after : List Char} {f : Form} (hb : Blank before) (h : Form.Spelled cs f)
      (ha : Blank after) : Form.Padded (before ++ cs ++ after) f

/-- The text of elements, with a comma between two. -/
inductive Form.SpelledItems : List Char → List Form → Prop where
  | one {cs : List Char} {f : Form} (h : Form.Padded cs f) : Form.SpelledItems cs [f]
  | more {cs rest : List Char} {f : Form} {fs : List Form} (h : Form.Padded cs f)
      (hr : Form.SpelledItems rest fs) : Form.SpelledItems (cs ++ ',' :: rest) (f :: fs)

/-- The text of members, each a name, a colon and a value, with a comma
between two. -/
inductive Form.SpelledMembers : List Char → List (String × Form) → Prop where
  | one {name cs : List Char} {key : String} {f : Form} (hk : Form.Padded name (.scalar (.str key)))
      (h : Form.Padded cs f) : Form.SpelledMembers (name ++ ':' :: cs) [(key, f)]
  | more {name cs rest : List Char} {key : String} {f : Form} {ms : List (String × Form)}
      (hk : Form.Padded name (.scalar (.str key))) (h : Form.Padded cs f)
      (hr : Form.SpelledMembers rest ms) :
      Form.SpelledMembers (name ++ ':' :: (cs ++ ',' :: rest)) ((key, f) :: ms)

end

/-- No blanks need stand around a value. -/
theorem Form.Spelled.padded {cs : List Char} {f : Form} (h : Form.Spelled cs f) :
    Form.Padded cs f := by
  have hmk : Form.Padded ([] ++ cs ++ []) f := .mk nofun h nofun
  simpa using hmk

/-- A text is one JSON value, with blanks around it and nothing else. -/
def Form.Written (text : String) (f : Form) : Prop :=
  Form.Padded text.toList f

end Json

end Workflow
