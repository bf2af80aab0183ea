import Workflow.Proofs.Shape.Schema
/-!
# Workflow — values that are given

A value that is read already misses a place by its shape only
(`Record.misfit_of_fitMembers`). Where it fits, a part that is no list and no
object is kept as it is given (`Record.get?_of_fit`), a table becomes an object
that repeats no name (`Shape.table_of_fit`), and so does every object inside
(`Shape.wellFormed_of_fit`).
-/

namespace Workflow

open Json (Draft)

namespace Json.Draft

theorem mem_ofItems {vs : List Json} {d : Draft} : d ∈ ofItems vs ↔ ∃ v ∈ vs, ofJson v = d := by
  induction vs with
  | nil => simp [ofItems]
  | cons v rest ih => simp [ofItems, ih, eq_comm]

theorem exists_of_mem_ofMembers {ms : Members} {d : Label × Draft} (h : d ∈ ofMembers ms) :
    ∃ m ∈ ms, d.2 = ofJson m.2 := by
  induction ms with
  | nil => cases h
  | cons m rest ih =>
    rcases List.mem_cons.1 h with rfl | h
    · exact ⟨m, List.mem_cons_self, rfl⟩
    · obtain ⟨m', hm', hd⟩ := ih h
      exact ⟨m', List.mem_cons_of_mem _ hm', hd⟩

end Json.Draft

namespace Shape

/-- Where neither lists nor objects may stand, a value is kept as it is. -/
theorem eq_of_fit_scalar {accepted : List Json.Kind} {v w : Json}
    (h : (scalar accepted).fit (.ofJson v) = .ok w) : w = v := by
  cases v with
  | arr items => cases h
  | obj members => cases h
  | _ => exact (fitLeaf_eq_ok h).1

/-- The elements that fit were fitted. -/
theorem exists_fit_of_fitItems {item : Shape} {ds : List Draft} {index : Nat} {vs : List Json}
    (h : fitItems ds item index = .ok vs) : ∀ v ∈ vs, ∃ d ∈ ds, item.fit d = .ok v := by
  induction ds generalizing index vs with
  | nil =>
    cases h
    exact nofun
  | cons d rest ih =>
    obtain ⟨v, vs, hv, hvs, rfl⟩ := fitItems_cons_eq_ok.1 h
    refine List.forall_mem_cons.2 ⟨⟨d, List.mem_cons_self, hv⟩, fun w hw => ?_⟩
    obtain ⟨d', hd', hw⟩ := ih hvs w hw
    exact ⟨d', List.mem_cons_of_mem _ hd', hw⟩

/-- The values of members that fit were fitted. -/
theorem exists_fit_of_fitMembers {entry : Shape} {ds : List (Json.Label × Draft)}
    {vs : List (String × Json)} (h : fitMembers ds entry = .ok vs) :
    ∀ m ∈ vs, ∃ d ∈ ds, entry.fit d.2 = .ok m.2 := by
  induction ds generalizing vs with
  | nil =>
    cases h
    intro m hm
    cases hm
  | cons d rest ih =>
    obtain ⟨label, d⟩ := d
    cases label with
    | named key =>
      obtain ⟨v, vs, hv, hvs, rfl⟩ := fitMembers_cons_eq_ok.1 h
      refine List.forall_mem_cons.2 ⟨⟨_, List.mem_cons_self, hv⟩, fun m hm => ?_⟩
      obtain ⟨d', hd', hfit⟩ := ih hvs m hm
      exact ⟨d', List.mem_cons_of_mem _ hd', hfit⟩
    | illFormed => cases h
    | illFormedAlone => cases h
    | malformed => cases h

/-- **What fits as a table is an object, and becomes one that repeats no
name.** -/
theorem table_of_fit {entry : Shape} {d : Draft} {v : Json} (h : (table entry).fit d = .ok v) :
    ∃ ds ms, d = .obj ds ∧ v = .obj ms ∧ Entries.Distinct ms ∧
      ∀ m ∈ ms, ∃ d, entry.fit d = .ok m.2 := by
  cases d with
  | obj ds =>
    obtain ⟨vs, hvs, rfl⟩ := Except.map_eq_ok_iff.1 h
    refine ⟨ds, _, rfl, rfl, Entries.distinct_collect vs, fun m hm => ?_⟩
    obtain ⟨d, -, hfit⟩ := exists_fit_of_fitMembers hvs m (Entries.mem_of_mem_collect hm)
    exact ⟨d.2, hfit⟩
  | leaf w => exact absurd (fitLeaf_eq_ok h).2 (by simp [accepts])
  | wide n =>
    -- no integer may stand here, and so no number with a point either
    simp only [fit, fitWide, accepts, Bool.false_eq_true, if_false] at h
    split at h
    · exact absurd (fitLeaf_eq_ok h).2 (by simp [accepts])
    · cases h
  | _ => cases h

/-- **What a value becomes where it fits repeats no name.** -/
theorem wellFormed_of_fit {shape : Shape} {v w : Json} (h : shape.fit (.ofJson v) = .ok w) :
    w.WellFormed := by
  induction v using Json.induction generalizing shape w with
  | leaf v hv =>
    rw [fit_of_isLeaf hv] at h
    rw [(fitLeaf_eq_ok h).1]
    exact Json.wellFormed_of_isLeaf hv
  | arr vs ih =>
    rw [Draft.ofJson, fit] at h
    split at h
    · obtain ⟨ws, hws, rfl⟩ := Except.map_eq_ok_iff.1 h
      refine Json.wellFormed_arr_iff.2 fun w hw => ?_
      obtain ⟨d, hd, hfit⟩ := exists_fit_of_fitItems hws w hw
      obtain ⟨v, hv, rfl⟩ := Draft.mem_ofItems.1 hd
      exact ih v hv hfit
    · cases h
  | obj ms ih =>
    rw [Draft.ofJson, fit] at h
    split at h
    · obtain ⟨ns, hns, rfl⟩ := Except.map_eq_ok_iff.1 h
      refine Json.wellFormed_obj_iff.2 ⟨Entries.distinct_collect ns, fun n hn => ?_⟩
      obtain ⟨d, hd, hfit⟩ := exists_fit_of_fitMembers hns n (Entries.mem_of_mem_collect hn)
      obtain ⟨m, hm, hdm⟩ := Draft.exists_of_mem_ofMembers hd
      rw [hdm] at hfit
      exact ih m hm hfit
    · cases h

end Shape

namespace Record

variable {r : Record} {raw ms : Members} {key : String}

/-- The values of known fields were fitted. -/
theorem exists_fit_of_fitMembers (hr : r.strict) {ds : List (Json.Label × Draft)}
    {vs : List (String × Json)} (h : r.fitMembers ds = .ok vs) :
    ∀ m ∈ vs, ∃ shape, r.fields.get? m.1 = some shape ∧ ∃ d ∈ ds, shape.fit d.2 = .ok m.2 := by
  induction ds generalizing vs with
  | nil =>
    cases h
    intro m hm
    cases hm
  | cons d rest ih =>
    obtain ⟨label, d⟩ := d
    cases label with
    | named key =>
      obtain ⟨shape, v, vs, hshape, hv, hvs, rfl⟩ := (fitMembers_cons_eq_ok hr).1 h
      refine List.forall_mem_cons.2
        ⟨⟨shape, hshape, _, List.mem_cons_self, hv⟩, fun m hm => ?_⟩
      obtain ⟨shape', hshape', d', hd', hfit⟩ := ih hvs m hm
      exact ⟨shape', hshape', d', List.mem_cons_of_mem _ hd', hfit⟩
    | illFormed => simp [fitMembers, hr] at h
    | illFormedAlone => cases h
    | malformed => cases h

/-- What fits as a record is an object. -/
theorem obj_of_fit {d : Draft} (h : r.fit d = .ok ms) :
    ∃ ds vs, d = .obj ds ∧ r.fitMembers ds = .ok vs ∧ ms = Entries.collect vs := by
  by_cases hd : ∃ ds, d = .obj ds
  · obtain ⟨ds, rfl⟩ := hd
    obtain ⟨vs, hvs, rfl⟩ := Except.map_eq_ok_iff.1 h
    exact ⟨ds, vs, rfl, hvs, rfl⟩
  · -- anything else would have to fit as a table
    rw [fit_of_ne_obj r fun ds hds => hd ⟨ds, hds⟩] at h
    obtain ⟨v, htable, -⟩ := Except.bind_eq_ok_iff.1 h
    obtain ⟨ds, -, hds, -⟩ := Shape.table_of_fit htable
    exact absurd ⟨ds, hds⟩ hd

/-- **A field of a record that fits was fitted.** -/
theorem exists_fit_of_get? (hr : r.strict) {d : Draft} (h : r.fit d = .ok ms) {v : Json}
    (hkey : Entries.get? ms key = some v) :
    ∃ shape d, r.fields.get? key = some shape ∧ shape.fit d = .ok v := by
  obtain ⟨ds, vs, rfl, hvs, rfl⟩ := obj_of_fit h
  have hmem := Entries.mem_of_mem_collect (Entries.mem_of_get? hkey)
  obtain ⟨shape, hshape, d, -, hfit⟩ := exists_fit_of_fitMembers hr hvs _ hmem
  exact ⟨shape, d.2, hshape, hfit⟩

/-- **The fields of a record of members that are read already repeat no name.** -/
theorem wellFormed_of_get? (hr : r.strict) (h : r.fit (.obj (Draft.ofMembers raw)) = .ok ms)
    {v : Json} (hkey : Entries.get? ms key = some v) : v.WellFormed := by
  obtain ⟨vs, hvs, rfl⟩ := Except.map_eq_ok_iff.1 h
  have hmem := Entries.mem_of_mem_collect (Entries.mem_of_get? hkey)
  obtain ⟨shape, -, d, hd, hfit⟩ := exists_fit_of_fitMembers hr hvs _ hmem
  obtain ⟨m, -, hdm⟩ := Draft.exists_of_mem_ofMembers hd
  rw [hdm] at hfit
  exact Shape.wellFormed_of_fit hfit

/-- Members that are read already miss a record by their shape only. -/
theorem misfit_of_fitMembers {p : Problem} (h : r.fitMembers (Draft.ofMembers raw) = .error p) :
    ∃ m, p = .misfit m := by
  obtain ⟨e, -, m, -, hp⟩ := (fitMembers_eq_error_iff.1 h).exists_strikes
  exact ⟨m, hp⟩

/-- Fitted members keep their names, and a field that takes neither lists nor
objects keeps its value. -/
theorem get?_of_fitMembers (hr : r.strict) {vs : List (String × Json)}
    (h : r.fitMembers (Draft.ofMembers raw) = .ok vs) :
    Entries.keys vs = Entries.keys raw ∧ ∀ key accepted,
      r.fields.get? key = some (.scalar accepted) → Entries.get? vs key = Entries.get? raw key := by
  induction raw generalizing vs with
  | nil =>
    cases h
    exact ⟨rfl, fun _ _ _ => rfl⟩
  | cons e rest ih =>
    obtain ⟨k, v⟩ := e
    obtain ⟨shape, w, ws, hshape, hw, hws, rfl⟩ := (fitMembers_cons_eq_ok hr).1 h
    obtain ⟨hkeys, hrest⟩ := ih hws
    refine ⟨congrArg (k :: ·) hkeys, fun key accepted hkey => ?_⟩
    by_cases hk : k = key
    · subst hk
      obtain rfl := Option.some.inj (hshape.symm.trans hkey)
      obtain rfl := Shape.eq_of_fit_scalar hw
      simp [Entries.get?]
    · simp [Entries.get?, hk, hrest key accepted hkey]

/-- **A field of a record has the value that is given**, if no name is
repeated. -/
theorem get?_of_fit (hr : r.strict) (hraw : Entries.Distinct raw)
    (h : r.fit (.obj (Draft.ofMembers raw)) = .ok ms) {accepted : List Json.Kind}
    (hkey : r.fields.get? key = some (.scalar accepted)) :
    Entries.get? ms key = Entries.get? raw key := by
  obtain ⟨vs, hvs, rfl⟩ := Except.map_eq_ok_iff.1 h
  obtain ⟨hkeys, hget⟩ := get?_of_fitMembers hr hvs
  have hdistinct : Entries.Distinct vs := by
    unfold Entries.Distinct
    rw [hkeys]
    exact hraw
  rw [Entries.collect_of_distinct hdistinct, hget key accepted hkey]

/-- A record that fits has fields of its own only. -/
theorem isSome_field_of_fit (hr : r.strict) (h : r.fit (.obj (Draft.ofMembers raw)) = .ok ms)
    (hkey : key ∈ Entries.keys raw) : (r.fields.get? key).isSome := by
  obtain ⟨vs, hvs, -⟩ := Except.map_eq_ok_iff.1 h
  rw [← (get?_of_fitMembers hr hvs).1] at hkey
  obtain ⟨m, hm, rfl⟩ := List.mem_map.1 hkey
  obtain ⟨shape, hshape, -⟩ := exists_fit_of_fitMembers hr hvs m hm
  rw [hshape]
  rfl

/-- A value that is put under a field is fitted in its place, where it is kept as
it is, and so is the value that stood there, if one did. -/
theorem fitMembers_insert (hr : r.strict) {shape : Shape} {w : Json}
    (hkey : r.fields.get? key = some shape) (hw : shape.fit (.ofJson w) = .ok w)
    (hget : ∀ v, Entries.get? raw key = some v → shape.fit (.ofJson v) = .ok v) :
    r.fitMembers (Draft.ofMembers (Entries.insert raw key w)) =
      (Entries.insert · key w) <$> r.fitMembers (Draft.ofMembers raw) := by
  induction raw with
  | nil =>
    simp only [Entries.insert, Draft.ofMembers, fitMembers, hkey, hw]
    rfl
  | cons e rest ih =>
    obtain ⟨k, u⟩ := e
    by_cases hk : k = key
    · -- the value is exchanged here, and what follows is the same
      subst hk
      have hu := hget u (by simp [Entries.get?])
      have hput (vs : List (String × Json)) :
          Entries.insert ((k, u) :: vs) k w = (k, w) :: vs := by
        rw [Entries.insert, if_pos rfl]
      simp only [Entries.insert, if_true, Draft.ofMembers, fitMembers, hkey, hu, hw]
      cases r.fitMembers (Draft.ofMembers rest) with
      | error p => rfl
      | ok vs => exact congrArg Except.ok (hput vs).symm
    · have hrest := ih fun v hv => hget v (by simpa [Entries.get?, hk] using hv)
      have hput (x : Json) (vs : List (String × Json)) :
          Entries.insert ((k, x) :: vs) key w = (k, x) :: Entries.insert vs key w := by
        rw [Entries.insert, if_neg hk]
      simp only [Entries.insert, if_neg hk, Draft.ofMembers, fitMembers, hrest]
      cases r.fields.get? k with
      | none =>
        simp only [hr, if_true]
        rfl
      | some shape' =>
        dsimp only
        cases shape'.fit (Draft.ofJson u) with
        | error p => rfl
        | ok x =>
          cases r.fitMembers (Draft.ofMembers rest) with
          | error p => rfl
          | ok vs => exact congrArg Except.ok (hput x vs).symm

/-- **So a record fits with the value as it does without**, and then it has it. -/
theorem fit_insert (hr : r.strict) (hraw : Entries.Distinct raw) {shape : Shape} {w : Json}
    (hkey : r.fields.get? key = some shape) (hw : shape.fit (.ofJson w) = .ok w)
    (hget : ∀ v, Entries.get? raw key = some v → shape.fit (.ofJson v) = .ok v) :
    r.fit (.obj (Draft.ofMembers (Entries.insert raw key w))) =
      (Entries.insert · key w) <$> r.fit (.obj (Draft.ofMembers raw)) := by
  rw [fit, fit, fitMembers_insert hr hkey hw hget]
  cases hvs : r.fitMembers (Draft.ofMembers raw) with
  | error p => rfl
  | ok vs =>
    have hdistinct : Entries.Distinct vs := by
      unfold Entries.Distinct
      rw [(get?_of_fitMembers hr hvs).1]
      exact hraw
    have hinsert := Entries.distinct_insert hdistinct key w
    exact congrArg Except.ok ((Entries.collect_of_distinct hinsert).trans
      (congrArg (Entries.insert · key w) (Entries.collect_of_distinct hdistinct)).symm)

/-- Members fit two records alike that agree on their fields. -/
theorem fit_congr {r' : Record} (hr : r.strict = r'.strict)
    (hfields : ∀ key ∈ Entries.keys raw, r.fields.get? key = r'.fields.get? key) :
    r.fit (.obj (Draft.ofMembers raw)) = r'.fit (.obj (Draft.ofMembers raw)) := by
  have hmembers : r.fitMembers (Draft.ofMembers raw) = r'.fitMembers (Draft.ofMembers raw) := by
    induction raw with
    | nil => rfl
    | cons e rest ih =>
      have hrest := ih fun key hkey => hfields key (List.mem_cons_of_mem _ hkey)
      have hfield := hfields e.1 List.mem_cons_self
      simp only [Draft.ofMembers, fitMembers, hfield, hrest, hr]
  rw [fit, fit, hmembers]

end Record

end Workflow
