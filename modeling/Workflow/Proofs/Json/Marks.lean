import Workflow.Shape
/-!
# Workflow — marks of a defect

Where reading meets no JSON or no text it leaves a mark in the draft. Values
that are already read bear none (`marks_ofJson`), and a mark of ill-formed
text comes from an ill-formed token (`illFormed_of_value`).
-/

namespace Workflow

namespace Json

/-- The defects that a label shows. One that lacks its colon is no JSON, also
where it holds a stray byte. -/
def Label.marks : Label → List Problem
  | .named _ => []
  | .illFormed => [.illFormed]
  | .illFormedAlone => [.illFormed, .malformed]
  | .malformed => [.malformed]

namespace Draft

mutual

/-- Where reading met no JSON or no text, in the order of the text. A number
past the largest is read in full, and no defect of the text. -/
def marks : Draft → List Problem
  | .malformed => [.malformed]
  | .illFormed => [.illFormed]
  | .arr items => marksItems items
  | .obj members => marksMembers members
  | .leaf _ | .wide _ | .outOfRange => []

/-- The marks of elements. -/
def marksItems : List Draft → List Problem
  | [] => []
  | d :: rest => marks d ++ marksItems rest

/-- The marks of members. -/
def marksMembers : List (Label × Draft) → List Problem
  | [] => []
  | (label, d) :: rest => label.marks ++ marks d ++ marksMembers rest

end

mutual

/-- A value that is already read bears no mark. -/
theorem marks_ofJson : (v : Json) → (ofJson v).marks = []
  | .arr items => by simpa [ofJson, marks] using marks_ofItems items
  | .obj members => by simpa [ofJson, marks] using marks_ofMembers members
  | .null | .bool _ | .int _ | .float _ | .str _ => rfl

theorem marks_ofItems : (vs : List Json) → marksItems (ofItems vs) = []
  | [] => rfl
  | v :: rest => by simp [ofItems, marksItems, marks_ofJson v, marks_ofItems rest]

theorem marks_ofMembers : (ms : List (String × Json)) → marksMembers (ofMembers ms) = []
  | [] => rfl
  | (key, v) :: rest => by
    simp [ofMembers, marksMembers, Label.marks, marks_ofJson v, marks_ofMembers rest]

end

/-! ## Where ill-formed text is marked -/

mutual

/-- An ill-formed mark, or an ill-formed token still to come, was among the
tokens. -/
theorem illFormed_of_value : (fuel : Nat) → (ts : List Token) →
    .illFormed ∈ (value fuel ts).1.marks ∨ .illFormed ∈ (value fuel ts).2 → .illFormed ∈ ts
  | 0, _, h => by simp [value, marks] at h
  | fuel + 1, ts, h => by
    unfold value at h
    split at h
    -- an ill-formed string leaves its mark at once, a list and an object pass on what is inside
    case h_5 => exact List.mem_cons_self
    case h_7 hfuel =>
      cases hfuel
      exact List.mem_cons_of_mem _ (illFormed_of_items fuel _ h)
    case h_9 hfuel =>
      cases hfuel
      exact List.mem_cons_of_mem _ (illFormed_of_members fuel _ h)
    all_goals simp_all [marks, marksItems, marksMembers]

theorem illFormed_of_items : (fuel : Nat) → (ts : List Token) →
    .illFormed ∈ marksItems (items fuel ts).1 ∨ .illFormed ∈ (items fuel ts).2 → .illFormed ∈ ts
  | 0, _, h => by simp [items, marksItems, marks] at h
  | fuel + 1, ts, h => by
    have hfirst := illFormed_of_value fuel ts
    unfold items at h
    dsimp only at h
    split at h
    · rename_i rest hrest
      have hmore := illFormed_of_items fuel rest
      simp only [marksItems, List.mem_append, hrest, List.mem_cons] at h hfirst
      grind
    · rename_i rest hrest
      simp only [marksItems, List.append_nil, hrest, List.mem_cons] at h hfirst
      grind
    · simp only [marksItems, marks, List.mem_append, List.mem_singleton] at h hfirst
      grind

theorem illFormed_of_members : (fuel : Nat) → (ts : List Token) →
    .illFormed ∈ marksMembers (members fuel ts).1 ∨ .illFormed ∈ (members fuel ts).2 →
      .illFormed ∈ ts
  | 0, _, h => by simp [members, marksMembers, Label.marks, marks] at h
  | fuel + 1, ts, h => by
    unfold members at h
    split at h
    case h_1 hfuel => cases hfuel
    case h_2 hfuel =>
      cases hfuel
      have hmore := illFormed_of_afterLabel fuel _ _ h
      simpa [Label.marks] using hmore
    case h_5 => simp [marksMembers, Label.marks, marks] at h
    all_goals simp

theorem illFormed_of_afterLabel : (fuel : Nat) → (label : Label) → (ts : List Token) →
    .illFormed ∈ marksMembers (afterLabel fuel label ts).1 ∨
      .illFormed ∈ (afterLabel fuel label ts).2 → .illFormed ∈ label.marks ∨ .illFormed ∈ ts
  | 0, _, _, h => by
    simp only [afterLabel, marksMembers, marks, List.append_nil, List.mem_append,
      List.mem_singleton, reduceCtorEq, or_false, List.not_mem_nil] at h
    exact .inl h
  | fuel + 1, label, ts, h => by
    have hfirst := illFormed_of_value fuel ts
    unfold afterLabel at h
    dsimp only at h
    split at h
    · rename_i rest hrest
      have hmore := illFormed_of_members fuel rest
      simp only [marksMembers, List.mem_append, hrest, List.mem_cons] at h hfirst
      grind
    · rename_i rest hrest
      simp only [marksMembers, List.append_nil, List.mem_append, hrest, List.mem_cons] at h hfirst
      grind
    · have hlabel : Label.malformed.marks = [.malformed] := rfl
      simp only [marksMembers, marks, hlabel, List.mem_append, List.mem_singleton] at h
      grind

end

end Draft

end Json

end Workflow
