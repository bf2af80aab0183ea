/-!
# Workflow — steps that may fail

When steps that are put together come to a value, and when to a failure. A
proof about such steps takes them apart with these, and need not open them.
`Except.Rel` compares the outcomes of two steps, as `Option.Rel` compares two
options. `Except.FirstOf` says of several causes of failure which is met: steps in
a row fail by the first of them all (`Except.firstOf_bind`).
-/

namespace Option

variable {α α' β β' : Type} {R : α → α' → Prop} {S : β → β' → Prop} {a : Option α}
  {a' : Option α'}

/-- Two options are related if they are there together, and then related. -/
theorem Rel.of_isSome_iff (hsome : a.isSome ↔ a'.isSome)
    (h : ∀ x y, a = Option.some x → a' = Option.some y → R x y) : Option.Rel R a a' := by
  cases a with
  | none =>
    cases a' with
    | none => exact .none
    | some y => simp at hsome
  | some x =>
    cases a' with
    | none => simp at hsome
    | some y => exact .some (h x y rfl rfl)

theorem Rel.exists_of_eq_some {x : α} (h : Option.Rel R a a') (ha : a = Option.some x) :
    ∃ y, a' = Option.some y ∧ R x y := by
  subst ha
  cases h with
  | some h => exact ⟨_, rfl, h⟩

theorem Rel.isSome_iff (h : Option.Rel R a a') : a.isSome ↔ a'.isSome := by
  cases h with
  | none => exact Iff.rfl
  | some _ => exact ⟨fun _ => rfl, fun _ => rfl⟩

theorem Rel.eq_none (h : Option.Rel R a a') (ha : a = Option.none) :
    a' = Option.none := by
  subst ha
  cases h
  rfl

/-- It is the same from either side. -/
theorem Rel.flip (h : Option.Rel R a a') : Option.Rel (flip R) a' a := by
  cases h with
  | none => exact .none
  | some h => exact .some h

theorem Rel.bind {f : α → Option β} {f' : α' → Option β'} (h : Option.Rel R a a')
    (hf : ∀ x y, R x y → Option.Rel S (f x) (f' y)) : Option.Rel S (a.bind f) (a'.bind f') := by
  cases h with
  | none => exact .none
  | some h => exact hf _ _ h

theorem Rel.getD {x : α} {y : α'} (h : Option.Rel R a a') (hxy : R x y) :
    R (a.getD x) (a'.getD y) := by
  cases h with
  | none => exact hxy
  | some h => exact h

end Option

namespace Except

variable {ε ε' α β : Type} {a : Except ε α} {b : β} {e : ε}

/-- Two steps come to a value if the first does, and the second on that. -/
theorem bind_eq_ok_iff {f : α → Except ε β} :
    a >>= f = .ok b ↔ ∃ x, a = .ok x ∧ f x = .ok b := by
  cases a <;> simp [bind, Except.bind]

/-- They fail if either does. -/
theorem bind_eq_error_iff {f : α → Except ε β} :
    a >>= f = .error e ↔ a = .error e ∨ ∃ x, a = .ok x ∧ f x = .error e := by
  cases a <;> simp [bind, Except.bind]

theorem map_eq_ok_iff {f : α → β} : f <$> a = .ok b ↔ ∃ x, a = .ok x ∧ f x = b := by
  cases a <;> simp [Functor.map, Except.map]

theorem map_eq_error_iff {f : α → β} : f <$> a = .error e ↔ a = .error e := by
  cases a <;> simp [Functor.map, Except.map]

theorem mapError_eq_ok_iff {f : ε → ε'} {x : α} : a.mapError f = .ok x ↔ a = .ok x := by
  constructor
  · intro h
    cases a with
    | error e => cases h
    | ok y => exact congrArg Except.ok (Except.ok.inj h)
  · rintro rfl
    rfl

theorem mapError_eq_error_iff {f : ε → ε'} {e' : ε'} :
    a.mapError f = .error e' ↔ ∃ e, a = .error e ∧ f e = e' := by
  constructor
  · intro h
    cases a with
    | error e => exact ⟨e, rfl, Except.error.inj h⟩
    | ok y => cases h
  · rintro ⟨e, rfl, rfl⟩
    rfl

/-! ## Two steps side by side -/

/-- Two steps come to values that are related, or they fail alike. -/
inductive Rel {α' : Type} (R : α → α' → Prop) : Except ε α → Except ε α' → Prop
  | ok {x : α} {y : α'} (h : R x y) : Rel R (.ok x) (.ok y)
  | error (e : ε) : Rel R (.error e) (.error e)

namespace Rel

variable {α' β' : Type} {R : α → α' → Prop} {S : β → β' → Prop} {a' : Except ε α'}

theorem refl {R : α → α → Prop} (h : ∀ x, a = .ok x → R x x) : Rel R a a := by
  cases a with
  | error e => exact .error e
  | ok x => exact .ok (h x rfl)

theorem exists_of_eq_ok {x : α} (h : Rel R a a') (ha : a = .ok x) : ∃ y, a' = .ok y ∧ R x y := by
  subst ha
  cases h with
  | ok h => exact ⟨_, rfl, h⟩

/-- Then both come to a value or neither does. -/
theorem exists_ok_iff (h : Rel R a a') : (∃ x, a = .ok x) ↔ ∃ y, a' = .ok y := by
  cases h with
  | error e => simp
  | ok h => simp

/-- And they fail alike. -/
theorem eq_error_iff (h : Rel R a a') : a = .error e ↔ a' = .error e := by
  cases h with
  | error e => simp
  | ok h => simp

/-- What follows for the values that the steps come to is related as well. -/
theorem imp {R' : α → α' → Prop} (h : Rel R a a')
    (himp : ∀ x y, a = .ok x → a' = .ok y → R x y → R' x y) : Rel R' a a' := by
  cases h with
  | error e => exact .error e
  | ok h => exact .ok (himp _ _ rfl rfl h)

theorem bind {f : α → Except ε β} {f' : α' → Except ε β'} (h : Rel R a a')
    (hf : ∀ x y, R x y → Rel S (f x) (f' y)) : Rel S (a >>= f) (a' >>= f') := by
  cases h with
  | error e => exact .error e
  | ok h => exact hf _ _ h

/-- One step, and then two side by side from its value. -/
theorem of_bind {f : α → Except ε β} {f' : α → Except ε β'} (h : ∀ x, Rel S (f x) (f' x)) :
    Rel S (a >>= f) (a >>= f') := by
  cases a with
  | error e => exact .error e
  | ok x => exact h x

theorem map {f : α → β} {f' : α' → β'} (h : Rel R a a') (hf : ∀ x y, R x y → S (f x) (f' y)) :
    Rel S (f <$> a) (f' <$> a') := by
  cases h with
  | error e => exact .error e
  | ok h => exact .ok (hf _ _ h)

theorem mapError (h : Rel R a a') (f : ε → ε') : Rel R (a.mapError f) (a'.mapError f) := by
  cases h with
  | error e => exact .error (f e)
  | ok h => exact .ok h

end Rel

/-! ## The first of several causes -/

/-- An error is the first in a row of causes: one of them strikes with it, and
none before strikes at all. -/
inductive FirstOf {κ : Type} (strikes : κ → ε → Prop) : List κ → ε → Prop where
  | here {cause : κ} {rest : List κ} {e : ε} (h : strikes cause e) :
      FirstOf strikes (cause :: rest) e
  | later {cause : κ} {rest : List κ} {e : ε} (hno : ∀ e', ¬ strikes cause e')
      (h : FirstOf strikes rest e) : FirstOf strikes (cause :: rest) e

section FirstOf

variable {κ : Type} {strikes : κ → ε → Prop} {cause : κ} {causes causes' : List κ}

theorem firstOf_singleton_iff : FirstOf strikes [cause] e ↔ strikes cause e := by
  constructor
  · intro h
    cases h with
    | here h => exact h
    | later _ h => cases h
  · exact .here

/-- The first among causes that are given by others is the first among those. -/
theorem firstOf_map_iff {κ' : Type} {f : κ' → κ} {row : List κ'} :
    FirstOf strikes (row.map f) e ↔ FirstOf (fun cause e => strikes (f cause) e) row e := by
  induction row with
  | nil =>
    constructor <;> intro h <;> cases h
  | cons cause rest ih =>
    constructor
    · intro h
      cases h with
      | here h => exact .here h
      | later hno h => exact .later hno (ih.1 h)
    · intro h
      cases h with
      | here h => exact .here h
      | later hno h => exact .later hno (ih.2 h)

/-- What is the first of all is what some cause strikes with. -/
theorem FirstOf.exists_strikes (h : FirstOf strikes causes e) :
    ∃ cause ∈ causes, strikes cause e := by
  induction h with
  | here h => exact ⟨_, List.mem_cons_self, h⟩
  | later _ _ ih =>
    obtain ⟨cause, hmem, h⟩ := ih
    exact ⟨cause, List.mem_cons_of_mem _ hmem, h⟩

/-- Some error is the first of all if some cause strikes at all. -/
theorem exists_firstOf_iff :
    (∃ e, FirstOf strikes causes e) ↔ ∃ cause ∈ causes, ∃ e, strikes cause e := by
  constructor
  · rintro ⟨e, h⟩
    obtain ⟨cause, hmem, h⟩ := h.exists_strikes
    exact ⟨cause, hmem, e, h⟩
  · intro h
    induction causes with
    | nil =>
      obtain ⟨cause, hmem, -⟩ := h
      cases hmem
    | cons cause rest ih =>
      by_cases hcause : ∃ e, strikes cause e
      · obtain ⟨e, he⟩ := hcause
        exact ⟨e, .here he⟩
      · obtain ⟨other, hmem, hother⟩ := h
        rcases List.mem_cons.1 hmem with rfl | hmem
        · exact absurd hother hcause
        · obtain ⟨e, he⟩ := ih ⟨other, hmem, hother⟩
          exact ⟨e, .later (fun e' he' => hcause ⟨e', he'⟩) he⟩

/-- The first of two rows is the first of the one, or of the other if that has
none. -/
theorem firstOf_append_iff : FirstOf strikes (causes ++ causes') e ↔
    FirstOf strikes causes e ∨
      (∀ e', ¬ FirstOf strikes causes e') ∧ FirstOf strikes causes' e := by
  induction causes with
  | nil =>
    constructor
    · intro h
      refine .inr ⟨fun e' he' => ?_, h⟩
      cases he'
    · rintro (h | ⟨-, h⟩)
      · cases h
      · exact h
  | cons cause rest ih =>
    constructor
    · intro h
      cases h with
      | here h => exact .inl (.here h)
      | later hno h =>
        rcases ih.1 h with h | ⟨hrest, h⟩
        · exact .inl (.later hno h)
        · refine .inr ⟨fun e' he' => ?_, h⟩
          cases he' with
          | here he' => exact hno e' he'
          | later _ he' => exact hrest e' he'
    · rintro (h | ⟨hnone, h⟩)
      · cases h with
        | here h => exact .here h
        | later hno h => exact .later hno (ih.2 (.inl h))
      · have hno (e' : ε) : ¬ strikes cause e' := fun he' => hnone e' (.here he')
        exact .later hno (ih.2 (.inr ⟨fun e' he' => hnone e' (.later hno he'), h⟩))

/-- **Two steps fail by the first of their causes**, those of the first step
before those of the second. -/
theorem firstOf_bind {f : α → Except ε β}
    (ha : ∀ e, a = .error e ↔ FirstOf strikes causes e)
    (hf : ∀ x, a = .ok x → ∀ e, f x = .error e ↔ FirstOf strikes causes' e) (e : ε) :
    a >>= f = .error e ↔ FirstOf strikes (causes ++ causes') e := by
  rw [firstOf_append_iff, bind_eq_error_iff]
  cases a with
  | error e' =>
    have hfirst := (ha e').1 rfl
    constructor
    · rintro (h | ⟨x, hx, -⟩)
      · exact .inl ((ha e).1 h)
      · cases hx
    · rintro (h | ⟨hnone, -⟩)
      · exact .inl ((ha e).2 h)
      · exact absurd hfirst (hnone e')
  | ok x =>
    have hnone (e' : ε) : ¬ FirstOf strikes causes e' := fun h => by
      cases (ha e').2 h
    constructor
    · rintro (h | ⟨y, hy, h⟩)
      · cases h
      · exact .inr ⟨hnone, (hf y hy e).1 h⟩
    · rintro (h | ⟨-, h⟩)
      · exact absurd h (hnone e)
      · exact .inr ⟨x, rfl, (hf x rfl e).2 h⟩

end FirstOf

end Except
