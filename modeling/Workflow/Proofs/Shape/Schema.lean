import Workflow.Proofs.Shape.Decided
/-!
# Workflow — which members a record takes

The members of an object with known fields follow the rules of the shapes of their
fields (`Schema.Takes`, `Schema.Misses`). A raw object fits if all its members are
taken, and then its fields are kept as they are given (`Record.fit_eq_ok_iff`);
otherwise it is refused for the first member that is missed
(`Record.fit_eq_error_iff`).
-/

namespace Workflow

open Json (Draft)

/-- The fields that an object may have. -/
structure Schema where
  /-- What may stand under a name, if it is that of a field. -/
  field : String → Shape → Prop
  /-- Other fields are refused, rather than passed over. -/
  strict : Prop

namespace Schema

/-- A member is taken: it is a field with a value of its shape, or passed over. -/
inductive Takes (s : Schema) : String × Json → Prop where
  | field {key : String} {shape : Shape} {v : Json} (hkey : s.field key shape)
      (h : shape.Takes v) : Takes s (key, v)
  | other {key : String} {v : Json} (hkey : ∀ shape, ¬ s.field key shape) (hs : ¬ s.strict) :
      Takes s (key, v)

/-- How a member is missed: its value is, at the field, or it is no field. -/
inductive Misses (s : Schema) : String × Json → Misfit → Prop where
  | field {key : String} {shape : Shape} {v : Json} {m : Misfit} (hkey : s.field key shape)
      (h : shape.Misses v m) : Misses s (key, v) (m.within (.field key))
  | other {key : String} {v : Json} (hkey : ∀ shape, ¬ s.field key shape) (hs : s.strict) :
      Misses s (key, v) (.unknownField key)

end Schema

namespace Record

variable {r : Record} {raw : Members} {ms : List (String × Json)} {p : Problem} {key : String}
  {v : Json} {shape : Shape}

/-- The fields of a record, without their order. -/
def schema (r : Record) : Schema where
  field key shape := r.fields.get? key = some shape
  strict := r.strict

/-- A record takes a member or misses it. -/
theorem takes_or_misses (r : Record) (e : String × Json) :
    r.schema.Takes e ∨ ∃ m, r.schema.Misses e m := by
  obtain ⟨key, v⟩ := e
  cases hkey : r.fields.get? key with
  | some shape =>
    obtain htakes | ⟨m, hm⟩ := Shape.takes_or_misses shape v
    · exact .inl (.field hkey htakes)
    · exact .inr ⟨_, .field hkey hm⟩
  | none =>
    have hno (shape : Shape) : ¬ r.schema.field key shape := by simp [schema, hkey]
    by_cases hr : r.strict
    · exact .inr ⟨_, .other hno hr⟩
    · exact .inl (.other hno hr)

/-- The value of a member that is taken is one that the field takes. -/
theorem takes_of_field (hkey : r.fields.get? key = some shape) (h : r.schema.Takes (key, v)) :
    shape.Takes v := by
  cases h with
  | field hfield h =>
    obtain rfl := Option.some.inj (hkey.symm.trans hfield)
    exact h
  | other hno _ => exact absurd hkey (hno shape)

/-- And not both. -/
theorem not_misses_of_takes {e : String × Json} (h : r.schema.Takes e) (m : Misfit) :
    ¬ r.schema.Misses e m := by
  intro hmisses
  cases hmisses with
  | field hkey hm => exact (takes_of_field hkey h).not_misses _ hm
  | other hno hr =>
    cases h with
    | field hkey _ => exact hno _ hkey
    | other _ hs => exact hs hr

/-! ## One member after the other -/

/-- The fields among members. -/
def known (r : Record) (raw : Members) : Members :=
  raw.filter fun e => (r.fields.get? e.1).isSome

/-- They are found under their names as before. -/
theorem get?_known (hkey : (r.fields.get? key).isSome) (raw : Members) :
    Entries.get? (r.known raw) key = Entries.get? raw key := by
  induction raw with
  | nil => rfl
  | cons e rest ih =>
    obtain ⟨k, v⟩ := e
    by_cases hk : k = key
    · subst hk
      simp [known, Entries.get?, hkey]
    · cases hknown : (r.fields.get? k).isSome <;>
        simpa [known, Entries.get?, hk, hknown] using ih

/-- What one member adds to the fields, or the problem with it. -/
def fitMember (r : Record) (e : String × Json) : Except Problem Members :=
  match r.fields.get? e.1 with
  | some shape =>
    (fun w => [(e.1, w)]) <$> (shape.fit (.ofJson e.2)).mapError (Problem.within (.field e.1))
  | none => if r.strict then .error (.misfit (.unknownField e.1)) else .ok []

/-- **Members are fitted one after the other.** -/
theorem fitMembers_cons (r : Record) (e : String × Json) (rest : Members) :
    r.fitMembers (Draft.ofMembers (e :: rest)) =
      r.fitMember e >>= fun kept => (kept ++ ·) <$> r.fitMembers (Draft.ofMembers rest) := by
  obtain ⟨key, v⟩ := e
  rw [Draft.ofMembers, fitMembers, fitMember]
  cases r.fields.get? key with
  | some shape =>
    dsimp only
    cases (shape.fit (Draft.ofJson v)).mapError (Problem.within (.field key)) <;> rfl
  | none =>
    dsimp only
    cases r.strict with
    | true => rfl
    | false =>
      obtain ⟨w, hw⟩ := Shape.fit_of_takes (.any v)
      rw [hw]
      cases r.fitMembers (Draft.ofMembers rest) <;> rfl

/-- A member is refused for what the record misses in it. -/
theorem fitMember_eq_error_iff {e : String × Json} :
    r.fitMember e = .error p ↔ ∃ m, r.schema.Misses e m ∧ p = .misfit m := by
  obtain ⟨key, v⟩ := e
  rw [fitMember]
  cases hkey : r.fields.get? key with
  | some shape =>
    dsimp only
    rw [Except.map_eq_error_iff, Except.mapError_eq_error_iff]
    constructor
    · rintro ⟨q, hq, rfl⟩
      obtain ⟨m, hm, rfl⟩ := Shape.fit_eq_error_iff.1 hq
      exact ⟨_, .field hkey hm, rfl⟩
    · rintro ⟨m, hm, rfl⟩
      cases hm with
      | field hfield hm =>
        obtain rfl := Option.some.inj (hkey.symm.trans hfield)
        exact ⟨_, Shape.fit_of_misses hm, rfl⟩
      | other hno _ => exact absurd hkey (hno shape)
  | none =>
    have hno (shape : Shape) : ¬ r.schema.field key shape := by simp [schema, hkey]
    dsimp only
    constructor
    · intro h
      split at h
      · rename_i hr
        cases h
        exact ⟨_, .other hno hr, rfl⟩
      · cases h
    · rintro ⟨m, hm, rfl⟩
      cases hm with
      | field hfield _ => exact absurd hfield (hno _)
      | other _ hr => exact if_pos hr

/-- A member that is taken is kept as it is, if it is a field. -/
theorem fitMember_of_takes {e : String × Json} (hv : e.2.WellFormed) (h : r.schema.Takes e) :
    r.fitMember e = .ok (r.known [e]) := by
  rw [fitMember]
  cases hkey : r.fields.get? e.1 with
  | some shape =>
    obtain ⟨w, hw⟩ := Shape.fit_of_takes (takes_of_field hkey h)
    obtain rfl := Shape.eq_of_fit hv hw
    simp only [hw, known, List.filter_cons, List.filter_nil, hkey, Option.isSome_some, if_true]
    rfl
  | none =>
    cases h with
    | field hfield _ => cases hkey.symm.trans hfield
    | other _ hs =>
      simp only [known, List.filter_cons, List.filter_nil, hkey, Option.isSome_none,
        Bool.false_eq_true, if_false]
      exact if_neg hs

/-- **Members that are taken are kept**, as far as they are fields. -/
theorem fitMembers_of_takes (hv : ∀ e ∈ raw, e.2.WellFormed) (h : ∀ e ∈ raw, r.schema.Takes e) :
    r.fitMembers (Draft.ofMembers raw) = .ok (r.known raw) := by
  induction raw with
  | nil => rfl
  | cons e rest ih =>
    have hrest := ih (fun e he => hv e (List.mem_cons_of_mem _ he))
      fun e he => h e (List.mem_cons_of_mem _ he)
    have he := fitMember_of_takes (hv e List.mem_cons_self) (h e List.mem_cons_self)
    rw [fitMembers_cons, he, hrest]
    exact congrArg Except.ok (List.filter_append [e] rest).symm

/-- **Members are refused for the first that is missed.** -/
theorem fitMembers_eq_error_iff : r.fitMembers (Draft.ofMembers raw) = .error p ↔
    Except.FirstOf (fun e p => ∃ m, r.schema.Misses e m ∧ p = .misfit m) raw p := by
  induction raw generalizing p with
  | nil =>
    constructor <;> intro h <;> cases h
  | cons e rest ih =>
    rw [fitMembers_cons, ← List.singleton_append]
    refine Except.firstOf_bind (fun p => ?_) (fun kept _ p => ?_) p
    · rw [fitMember_eq_error_iff, Except.firstOf_singleton_iff]
    · rw [Except.map_eq_error_iff]
      exact ih

/-- So members are all taken where they fit. -/
theorem takes_of_fitMembers (h : r.fitMembers (Draft.ofMembers raw) = .ok ms) :
    ∀ e ∈ raw, r.schema.Takes e := by
  intro e he
  refine (takes_or_misses r e).resolve_right fun ⟨m, hm⟩ => ?_
  obtain ⟨p, hp⟩ : ∃ p, r.fitMembers (Draft.ofMembers raw) = .error p := by
    simp only [fitMembers_eq_error_iff]
    exact Except.exists_firstOf_iff.2 ⟨e, he, _, m, hm, rfl⟩
  cases h.symm.trans hp

/-- **A raw record that fits has taken all its members**, and has kept its fields
as they are given. -/
theorem fit_eq_ok_iff (hraw : (Json.obj raw).WellFormed) {fields : Members} :
    r.fit (.obj (Draft.ofMembers raw)) = .ok fields ↔
      (∀ e ∈ raw, r.schema.Takes e) ∧ fields = r.known raw := by
  obtain ⟨hdistinct, hv⟩ := Json.wellFormed_obj_iff.1 hraw
  have hknown : Entries.Distinct (r.known raw) :=
    (List.filter_sublist.map _).nodup hdistinct
  have hfit (h : ∀ e ∈ raw, r.schema.Takes e) :
      r.fit (.obj (Draft.ofMembers raw)) = .ok (r.known raw) := by
    rw [fit, fitMembers_of_takes hv h]
    exact congrArg Except.ok (Entries.collect_of_distinct hknown)
  constructor
  · intro h
    obtain ⟨ms, hms, -⟩ := Except.map_eq_ok_iff.1 h
    have hall := takes_of_fitMembers hms
    exact ⟨hall, Except.ok.inj (h.symm.trans (hfit hall))⟩
  · rintro ⟨hall, rfl⟩
    exact hfit hall

/-- **One that does not is refused for the first member that is missed.** -/
theorem fit_eq_error_iff : r.fit (.obj (Draft.ofMembers raw)) = .error p ↔
    Except.FirstOf (fun e p => ∃ m, r.schema.Misses e m ∧ p = .misfit m) raw p := by
  rw [fit, Except.map_eq_error_iff, fitMembers_eq_error_iff]

end Record

end Workflow
