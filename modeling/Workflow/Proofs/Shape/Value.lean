import Workflow.Proofs.Except
import Workflow.Proofs.Json.Reading
import Workflow.Proofs.Shape.Accounts
/-!
# Workflow — values that fit

A value can be fitted into a place as its text was read, from the draft of a
form, or as it is, once the form has come to its value. What the first way
accepts, the second accepts, with the same result (`Shape.value_of_fit`,
`Record.value_of_fit`); and where anything may stand, the first way accepts
every form that has a value (`Shape.fit_any_of_value`).
-/

namespace Workflow

open Json (Form Scalar Draft)

namespace Shape

/-- Where a number with a point may stand, an integer may. -/
def TakesIntegers : Shape → Prop
  | any => True
  | scalar accepted => .float ∈ accepted → .int ∈ accepted
  | list shape | table shape => shape.TakesIntegers

theorem takesIntegers_any : any.TakesIntegers := trivial

theorem takesIntegers_table {entry : Shape} (h : entry.TakesIntegers) :
    (table entry).TakesIntegers := h

theorem TakesIntegers.accepts {shape : Shape} (h : shape.TakesIntegers)
    (hf : shape.accepts .float) : shape.accepts .int := by
  cases shape with
  | any => rfl
  | scalar accepted => simpa [Shape.accepts] using h (by simpa [Shape.accepts] using hf)
  | list => cases hf
  | table => cases hf

theorem TakesIntegers.item {shape item : Shape} (h : shape.TakesIntegers)
    (hi : shape.item? = some item) : item.TakesIntegers := by
  cases shape <;> cases hi <;> exact h

theorem TakesIntegers.entry {shape entry : Shape} (h : shape.TakesIntegers)
    (he : shape.entry? = some entry) : entry.TakesIntegers := by
  cases shape <;> cases he <;> exact h

/-! ## Outcomes that are values -/

theorem fitLeaf_eq_ok {shape : Shape} {v w : Json} (h : shape.fitLeaf v = .ok w) :
    w = v ∧ shape.accepts v.kind := by
  unfold fitLeaf at h
  split at h
  · cases h
    exact ⟨rfl, ‹_›⟩
  · cases h

/-- A part and what follows it come to a value if each does. -/
theorem bind_eq_ok {α β γ : Type} {a : Except Problem α} {b : Except Problem β} {f : α → β → γ}
    {place : Place} {c : γ} :
    (do let x ← a.mapError (Problem.within place); let y ← b; return f x y) = Except.ok c ↔
      ∃ x y, a = .ok x ∧ b = .ok y ∧ f x y = c := by
  constructor
  · intro h
    obtain ⟨x, hx, hrest⟩ := Except.bind_eq_ok_iff.1 h
    obtain ⟨y, hy, hc⟩ := Except.bind_eq_ok_iff.1 hrest
    exact ⟨x, y, Except.mapError_eq_ok_iff.1 hx, hy, Except.ok.inj hc⟩
  · rintro ⟨x, y, rfl, rfl, rfl⟩
    rfl

theorem fitItems_cons_eq_ok {d : Draft} {rest : List Draft} {shape : Shape} {index : Nat}
    {ws : List Json} : fitItems (d :: rest) shape index = .ok ws ↔
      ∃ v vs, shape.fit d = .ok v ∧ fitItems rest shape (index + 1) = .ok vs ∧ v :: vs = ws := by
  rw [fitItems]
  exact bind_eq_ok

theorem fitMembers_cons_eq_ok {key : String} {d : Draft} {rest : List (Json.Label × Draft)}
    {shape : Shape} {ws : List (String × Json)} :
    fitMembers ((.named key, d) :: rest) shape = .ok ws ↔
      ∃ v vs, shape.fit d = .ok v ∧ fitMembers rest shape = .ok vs ∧ (key, v) :: vs = ws := by
  rw [fitMembers]
  exact bind_eq_ok

/-- Members that fit as they are, fit together. -/
theorem fitMembers_ofMembers {shape : Shape} {ms : List (String × Json)}
    (h : ∀ m ∈ ms, shape.fit (.ofJson m.2) = .ok m.2) :
    fitMembers (Draft.ofMembers ms) shape = .ok ms := by
  induction ms with
  | nil => rfl
  | cons m rest ih =>
    have hrest := ih fun m hm => h m (List.mem_cons_of_mem _ hm)
    exact fitMembers_cons_eq_ok.2 ⟨m.2, rest, h m List.mem_cons_self, hrest, rfl⟩

/-- A scalar is no table. -/
theorem fit_table_scalar (entry : Shape) (s : Scalar) :
    ∃ p, (table entry).fit s.draft = .error p := by
  have hwide (n : Int) : ∃ p, (table entry).fitWide n = .error p := by
    simp only [fitWide, fitLeaf, accepts, Bool.false_eq_true, if_false]
    split <;> exact ⟨_, rfl⟩
  cases s with
  | int n =>
    simp only [Scalar.draft]
    split
    · exact ⟨_, rfl⟩
    · exact hwide n
  | decimal =>
    simp only [Scalar.draft]
    split <;> exact ⟨_, rfl⟩
  | _ => exact ⟨_, rfl⟩

/-! ## From text to value -/

theorem value_of_fit_scalar {shape : Shape} (hs : shape.TakesIntegers) {s : Scalar} {v : Json}
    (h : shape.fit s.draft = .ok v) : s.value? = some v ∧ shape.fit (.ofJson v) = .ok v := by
  have hleaf (w : Json) (hw : Draft.ofJson w = .leaf w) (h : shape.fit (.leaf w) = .ok v) :
      v = w ∧ shape.fit (.ofJson v) = .ok v := by
    obtain ⟨rfl, -⟩ := fitLeaf_eq_ok h
    exact ⟨rfl, hw ▸ h⟩
  cases s with
  | null =>
    obtain ⟨rfl, hfit⟩ := hleaf .null rfl h
    exact ⟨rfl, hfit⟩
  | bool b =>
    obtain ⟨rfl, hfit⟩ := hleaf (.bool b) rfl h
    exact ⟨rfl, hfit⟩
  | str t =>
    obtain ⟨rfl, hfit⟩ := hleaf (.str t) rfl h
    exact ⟨rfl, hfit⟩
  | int n =>
    simp only [Scalar.draft] at h
    split at h
    · obtain ⟨rfl, hfit⟩ := hleaf (.int n) rfl h
      exact ⟨rfl, hfit⟩
    · simp only [fit, fitWide] at h
      split at h
      · rename_i hint
        cases h
        exact ⟨rfl, if_pos hint⟩
      · rename_i hint
        -- taken as a number with a point, it stands where an integer may stand as well
        split at h
        · exact absurd (hs.accepts (fitLeaf_eq_ok h).2) hint
        · cases h
  | decimal negative digits power =>
    simp only [Scalar.draft] at h
    split at h
    · rename_i x hx
      obtain ⟨rfl, hfit⟩ := hleaf (.float x) rfl h
      exact ⟨by simp [Scalar.value?, hx], hfit⟩
    · cases h

mutual

/-- **What fits as it was read is a value, and fits as it is.** -/
theorem value_of_fit {shape : Shape} (hs : shape.TakesIntegers) {v : Json} :
    (f : Form) → shape.fit f.draft = .ok v → f.value? = some v ∧ shape.fit (.ofJson v) = .ok v
  | .scalar s, h => value_of_fit_scalar hs h
  | .arr items, h => by
    rw [Form.draft, fit] at h
    split at h
    · rename_i item hitem
      obtain ⟨vs, hfit, rfl⟩ := Except.map_eq_ok_iff.1 h
      obtain ⟨hvs, hfits⟩ := values_of_fitItems (hs.item hitem) items hfit
      refine ⟨by simp [Form.value?, hvs], ?_⟩
      simp only [Draft.ofJson, fit, hitem, hfits]
      rfl
    · cases h
  | .obj members, h => by
    rw [Form.draft, fit] at h
    split at h
    · rename_i entry hentry
      obtain ⟨vs, hfit, rfl⟩ := Except.map_eq_ok_iff.1 h
      obtain ⟨hvs, hfits⟩ := values_of_fitMembers (hs.entry hentry) members hfit
      have hcollect := fitMembers_ofMembers fun m hm => hfits m (Entries.mem_of_mem_collect hm)
      refine ⟨by simp [Form.value?, hvs], ?_⟩
      simp only [Draft.ofJson, fit, hentry, hcollect]
      have hagain := Entries.collect_of_distinct (Entries.distinct_collect vs)
      exact congrArg (fun ms => Except.ok (Json.obj ms)) hagain
    · cases h

theorem values_of_fitItems {shape : Shape} (hs : shape.TakesIntegers) {vs : List Json}
    {index : Nat} : (fs : List Form) → fitItems (Form.draftItems fs) shape index = .ok vs →
      Form.valueItems? fs = some vs ∧ ∀ index, fitItems (Draft.ofItems vs) shape index = .ok vs
  | [], h => by
    cases h
    exact ⟨rfl, fun _ => rfl⟩
  | f :: rest, h => by
    obtain ⟨v, vs, hf, hr, rfl⟩ := fitItems_cons_eq_ok.1 h
    obtain ⟨hv, hfit⟩ := value_of_fit hs f hf
    obtain ⟨hvs, hfits⟩ := values_of_fitItems hs rest hr
    refine ⟨Form.valueItems?_cons_eq_some.2 ⟨v, vs, hv, hvs, rfl⟩, fun index => ?_⟩
    exact fitItems_cons_eq_ok.2 ⟨v, vs, hfit, hfits _, rfl⟩

theorem values_of_fitMembers {shape : Shape} (hs : shape.TakesIntegers)
    {vs : List (String × Json)} : (ms : List (String × Form)) →
    fitMembers (Form.draftMembers ms) shape = .ok vs →
      Form.valueMembers? ms = some vs ∧ ∀ m ∈ vs, shape.fit (.ofJson m.2) = .ok m.2
  | [], h => by
    cases h
    exact ⟨rfl, nofun⟩
  | (key, f) :: rest, h => by
    obtain ⟨v, vs, hf, hr, rfl⟩ := fitMembers_cons_eq_ok.1 h
    obtain ⟨hv, hfit⟩ := value_of_fit hs f hf
    obtain ⟨hvs, hfits⟩ := values_of_fitMembers hs rest hr
    refine ⟨Form.valueMembers?_cons_eq_some.2 ⟨v, vs, hv, hvs, rfl⟩, ?_⟩
    exact List.forall_mem_cons.2 ⟨hfit, hfits⟩

end

/-! ## From value to text -/

theorem fit_any_scalar {s : Scalar} {v : Json} (h : s.value? = some v) :
    any.fit s.draft = .ok v := by
  cases s with
  | int n =>
    cases h
    simp only [Scalar.draft]
    split <;> rfl
  | decimal negative digits power =>
    obtain ⟨x, hx, rfl⟩ := Option.map_eq_some_iff.1 h
    simp [Scalar.draft, hx, fit, fitLeaf, accepts]
  | _ =>
    cases h
    rfl

mutual

/-- Where anything may stand, a form that has a value fits. -/
theorem fit_any_of_value {v : Json} : (f : Form) → f.value? = some v → any.fit f.draft = .ok v
  | .scalar s, h => fit_any_scalar h
  | .arr items, h => by
    obtain ⟨vs, hvs, rfl⟩ := Option.map_eq_some_iff.1 h
    simp only [Form.draft, fit, item?, fitItems_any_of_values items hvs]
    rfl
  | .obj members, h => by
    obtain ⟨vs, hvs, rfl⟩ := Option.map_eq_some_iff.1 h
    simp only [Form.draft, fit, entry?, fitMembers_any_of_values members hvs]
    rfl

theorem fitItems_any_of_values {vs : List Json} {index : Nat} : (fs : List Form) →
    Form.valueItems? fs = some vs → fitItems (Form.draftItems fs) any index = .ok vs
  | [], h => by
    cases h
    rfl
  | f :: rest, h => by
    obtain ⟨v, vs, hv, hvs, rfl⟩ := Form.valueItems?_cons_eq_some.1 h
    exact fitItems_cons_eq_ok.2
      ⟨v, vs, fit_any_of_value f hv, fitItems_any_of_values rest hvs, rfl⟩

theorem fitMembers_any_of_values {vs : List (String × Json)} : (ms : List (String × Form)) →
    Form.valueMembers? ms = some vs → fitMembers (Form.draftMembers ms) any = .ok vs
  | [], h => by
    cases h
    rfl
  | (key, f) :: rest, h => by
    obtain ⟨v, vs, hv, hvs, rfl⟩ := Form.valueMembers?_cons_eq_some.1 h
    exact fitMembers_cons_eq_ok.2
      ⟨v, vs, fit_any_of_value f hv, fitMembers_any_of_values rest hvs, rfl⟩

end

end Shape

/-! ## Records -/

namespace Record

/-- Every field takes integers where it takes numbers with a point. -/
def TakesIntegers (r : Record) : Prop :=
  ∀ field ∈ r.fields, field.2.TakesIntegers

theorem fitMembers_cons_eq_ok {r : Record} (hr : r.strict) {key : String} {d : Draft}
    {rest : List (Json.Label × Draft)} {ws : List (String × Json)} :
    r.fitMembers ((.named key, d) :: rest) = .ok ws ↔ ∃ shape v vs, r.fields.get? key = some shape ∧
      shape.fit d = .ok v ∧ r.fitMembers rest = .ok vs ∧ (key, v) :: vs = ws := by
  rw [fitMembers]
  cases r.fields.get? key with
  | none => simp [hr]
  | some shape =>
    refine Shape.bind_eq_ok.trans ⟨?_, ?_⟩
    · rintro ⟨v, vs, h⟩
      exact ⟨shape, v, vs, rfl, h⟩
    · rintro ⟨_, v, vs, ⟨⟩, h⟩
      exact ⟨v, vs, h⟩

/-- Members that fit as they are, fit together. -/
theorem fitMembers_ofMembers {r : Record} (hr : r.strict) {ms : List (String × Json)}
    (h : ∀ m ∈ ms, ∃ shape, r.fields.get? m.1 = some shape ∧ shape.fit (.ofJson m.2) = .ok m.2) :
    r.fitMembers (Draft.ofMembers ms) = .ok ms := by
  induction ms with
  | nil => rfl
  | cons m rest ih =>
    obtain ⟨shape, hshape, hfit⟩ := h m List.mem_cons_self
    have hrest := ih fun m hm => h m (List.mem_cons_of_mem _ hm)
    exact (fitMembers_cons_eq_ok hr).2 ⟨shape, m.2, rest, hshape, hfit, hrest, rfl⟩

theorem values_of_fitMembers {r : Record} (hr : r.strict) (hs : r.TakesIntegers)
    {vs : List (String × Json)} : (ms : List (String × Form)) →
    r.fitMembers (Form.draftMembers ms) = .ok vs → Form.valueMembers? ms = some vs ∧
      ∀ m ∈ vs, ∃ shape, r.fields.get? m.1 = some shape ∧ shape.fit (.ofJson m.2) = .ok m.2
  | [], h => by
    cases h
    exact ⟨rfl, nofun⟩
  | (key, f) :: rest, h => by
    obtain ⟨shape, v, vs, hshape, hf, hrest, rfl⟩ := (fitMembers_cons_eq_ok hr).1 h
    obtain ⟨hv, hfit⟩ := Shape.value_of_fit (hs _ (Entries.mem_of_get? hshape)) f hf
    obtain ⟨hvs, hfits⟩ := values_of_fitMembers hr hs rest hrest
    refine ⟨Form.valueMembers?_cons_eq_some.2 ⟨v, vs, hv, hvs, rfl⟩, ?_⟩
    exact List.forall_mem_cons.2 ⟨⟨shape, hshape, hfit⟩, hfits⟩

/-- What is no object is fitted into a table. -/
theorem fit_of_ne_obj (r : Record) {d : Draft} (h : ∀ ms, d ≠ .obj ms) :
    r.fit d = do
      let v ← (Shape.table .any).fit d
      return v.members?.getD [] := by
  cases d with
  | obj ms => exact absurd rfl (h ms)
  | _ => rfl

/-- **A record that fits as it was read is a value, and fits as it is.** -/
theorem value_of_fit {r : Record} (hr : r.strict) (hs : r.TakesIntegers) {f : Form} {ms : Members}
    (h : r.fit f.draft = .ok ms) : ∃ v, f.value? = some v ∧ r.fit (.ofJson v) = .ok ms := by
  cases f with
  | scalar s =>
    obtain ⟨p, hp⟩ := Shape.fit_table_scalar .any s
    rw [Form.draft, fit_of_ne_obj r s.draft_ne_obj, hp] at h
    cases h
  | arr items => cases h
  | obj members =>
    obtain ⟨vs, hfit, rfl⟩ := Except.map_eq_ok_iff.1 h
    obtain ⟨hvs, hfits⟩ := values_of_fitMembers hr hs members hfit
    refine ⟨.obj (Entries.collect vs), by simp [Form.value?, hvs], ?_⟩
    have hcollect := fitMembers_ofMembers hr fun m hm => hfits m (Entries.mem_of_mem_collect hm)
    have hagain := Entries.collect_of_distinct (Entries.distinct_collect vs)
    simp only [Draft.ofJson, fit, hcollect]
    exact congrArg Except.ok hagain

end Record

end Workflow
