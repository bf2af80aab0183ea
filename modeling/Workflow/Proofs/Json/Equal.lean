import Mathlib.Data.List.Perm.Subperm
import Workflow.Proofs.Json.Like
import Workflow.Result
/-!
# Workflow — values that count as equal are alike

Whether two values count as equal is computed from the left one: its members
are looked up in the right one. As neither repeats a name, values count as equal
exactly if they are alike with equal scalars for leaves (`Json.same_iff_like`).
So equal values have equal parts, are read equally, and stay equal when equal
values are written to them (`Json.Equal.read`, `Json.Equal.write`).
-/

namespace Workflow

namespace Entries

variable {α β : Type} {es : Entries α}

/-- Of two tables of one size the one has the names of the other, if it has all
of them. -/
theorem keys_perm_of_subset {fs : Entries β} (h : Distinct es) (hlen : es.length = fs.length)
    (hsub : ∀ key ∈ keys es, key ∈ keys fs) : (keys es).Perm (keys fs) := by
  have hsubperm : (keys es).Subperm (keys fs) := List.subperm_of_subset h hsub
  exact hsubperm.perm_of_length_le (by simp [keys, hlen])

end Entries

namespace Json

variable {v w v' w' : Json}

/-! ## Equality as likeness -/

/-- Two leaves count as equal. -/
abbrev SameLeaf (v w : Json) : Prop :=
  v.sameScalar w = true

/-- A leaf counts as equal to itself. -/
theorem sameLeaf_refl (h : v.isLeaf) : SameLeaf v v := by
  cases v with
  | null => rfl
  | str s => exact decide_eq_true rfl
  | bool _ | int _ | float _ => exact decide_eq_true rfl
  | arr _ | obj _ => cases h

/-- Null counts as equal to null only. -/
theorem keepsNull_sameLeaf : KeepsNull SameLeaf where
  left {w} := by
    cases w with
    | null => exact ⟨fun _ => rfl, fun _ => rfl⟩
    | _ => exact ⟨nofun, nofun⟩
  right {v} := by
    cases v with
    | null => exact ⟨fun _ => rfl, fun _ => rfl⟩
    | _ => exact ⟨nofun, nofun⟩

/-- A leaf is compared as one. -/
theorem same_of_isLeaf (hv : v.isLeaf) (w : Json) : v.same w = v.sameScalar w := by
  cases v with
  | arr _ | obj _ => cases hv
  | _ => simp [same]

/-- No leaf counts as equal to a list or an object. -/
theorem isLeaf_of_sameLeaf (h : SameLeaf v w) : w.isLeaf := by
  cases w with
  | arr ws => cases v <;> cases h
  | obj ns => cases v <;> cases h
  | _ => rfl

theorem sameItems_eq_true_iff {vs ws : List Json} : sameItems vs ws = true ↔
    vs.length = ws.length ∧
      ∀ (i : Nat) v w, vs[i]? = some v → ws[i]? = some w → v.same w = true := by
  induction vs generalizing ws with
  | nil => cases ws <;> simp [sameItems]
  | cons v rest ih =>
    cases ws with
    | nil => simp [sameItems]
    | cons w more =>
      rw [sameItems, Bool.and_eq_true, ih]
      constructor
      · rintro ⟨hhead, hlen, hrest⟩
        refine ⟨by simp [hlen], fun i x y hx hy => ?_⟩
        cases i with
        | zero =>
          cases hx
          cases hy
          exact hhead
        | succ i => exact hrest i x y hx hy
      · rintro ⟨hlen, hall⟩
        exact ⟨hall 0 v w rfl rfl, by simpa using hlen, fun i x y hx hy => hall (i + 1) x y hx hy⟩

theorem sameMembers_eq_true_iff {ms ns : Members} : sameMembers ms ns = true ↔
    ∀ key v, (key, v) ∈ ms → ∃ w, Entries.get? ns key = some w ∧ v.same w = true := by
  induction ms with
  | nil => simp [sameMembers]
  | cons m rest ih =>
    obtain ⟨name, v⟩ := m
    rw [sameMembers]
    cases hw : Entries.get? ns name with
    | none =>
      simp only [Bool.false_eq_true, false_iff]
      intro hall
      obtain ⟨w, hw', -⟩ := hall name v List.mem_cons_self
      rw [hw] at hw'
      cases hw'
    | some w =>
      rw [Bool.and_eq_true, ih]
      constructor
      · rintro ⟨hhead, hrest⟩ key x hmem
        rcases List.mem_cons.1 hmem with heq | hmem
        · cases heq
          exact ⟨w, hw, hhead⟩
        · exact hrest key x hmem
      · intro hall
        obtain ⟨w', hw', hhead⟩ := hall name v List.mem_cons_self
        obtain rfl := Option.some.inj (hw.symm.trans hw')
        exact ⟨hhead, fun key x hmem => hall key x (List.mem_cons_of_mem _ hmem)⟩

/-- **Values that repeat no name count as equal exactly if they are alike**,
with equal leaves. -/
theorem same_iff_like (hv : v.WellFormed) (hw : w.WellFormed) :
    v.same w = true ↔ Like SameLeaf v w := by
  -- the comparison recurses on the left value, so the induction is on that
  induction v using Json.induction generalizing w with
  | leaf v hleaf =>
    rw [same_of_isLeaf hleaf]
    constructor
    · exact fun h => .leaf hleaf (isLeaf_of_sameLeaf h) h
    · intro h
      cases h with
      | leaf _ _ h => exact h
      | arr _ _ | obj _ _ => cases hleaf
  | arr vs ih =>
    have hvs := wellFormed_arr_iff.1 hv
    cases w with
    | arr ws =>
      have hws := wellFormed_arr_iff.1 hw
      rw [same, sameItems_eq_true_iff]
      constructor
      · rintro ⟨hlen, h⟩
        refine .arr hlen fun i x y hx hy => ?_
        have hmem := List.mem_of_getElem? hx
        exact (ih x hmem (hvs x hmem) (hws y (List.mem_of_getElem? hy))).1 (h i x y hx hy)
      · intro h
        cases h with
        | leaf hleaf _ _ => cases hleaf
        | arr hlen h =>
          refine ⟨hlen, fun i x y hx hy => ?_⟩
          have hmem := List.mem_of_getElem? hx
          exact (ih x hmem (hvs x hmem) (hws y (List.mem_of_getElem? hy))).2 (h i x y hx hy)
    | _ =>
      constructor
      · intro h
        cases h
      · intro h
        cases h with
        | leaf hleaf _ _ => cases hleaf
  | obj ms ih =>
    obtain ⟨hms, hvalues⟩ := wellFormed_obj_iff.1 hv
    cases w with
    | obj ns =>
      obtain ⟨hns, hvalues'⟩ := wellFormed_obj_iff.1 hw
      rw [same, Bool.and_eq_true, decide_eq_true_eq, sameMembers_eq_true_iff]
      constructor
      · -- the names on the left are all on the right, and there are no more of them
        rintro ⟨hlen, h⟩
        refine .obj (Entries.keys_perm_of_subset hms hlen fun key hkey => ?_)
          fun key x y hx hy => ?_
        · obtain ⟨⟨key, x⟩, hmem, rfl⟩ := List.mem_map.1 hkey
          obtain ⟨y, hy, -⟩ := h key x hmem
          rw [← Entries.get?_isSome_iff, hy]
          rfl
        · have hmem := Entries.mem_of_get? hx
          obtain ⟨y', hy', hsame⟩ := h key x hmem
          obtain rfl := Option.some.inj (hy.symm.trans hy')
          exact (ih _ hmem (hvalues _ hmem) (hvalues' _ (Entries.mem_of_get? hy))).1 hsame
      · intro h
        cases h with
        | leaf hleaf _ _ => cases hleaf
        | obj hkeys h =>
          refine ⟨by simpa [Entries.keys] using hkeys.length_eq, fun key x hmem => ?_⟩
          have hx := Entries.get?_of_mem hms hmem
          have hkey : (Entries.get? ns key).isSome := by
            rw [Entries.get?_isSome_iff, ← hkeys.mem_iff, ← Entries.get?_isSome_iff, hx]
            rfl
          obtain ⟨y, hy⟩ := Option.isSome_iff_exists.1 hkey
          exact ⟨y, hy, (ih _ hmem (hvalues _ hmem) (hvalues' _ (Entries.mem_of_get? hy))).2
            (h key x y hx hy)⟩
    | _ =>
      constructor
      · intro h
        cases h
      · intro h
        cases h with
        | leaf hleaf _ _ => cases hleaf

/-! ## Documents that count as equal -/

/-- Two documents count as equal. Documents repeat no name. -/
structure Equal (v w : Json) : Prop where
  /-- The one repeats no name. -/
  left : v.WellFormed
  /-- Nor does the other. -/
  right : w.WellFormed
  /-- They count as equal. -/
  same : v.same w = true

namespace Equal

theorem like (h : v.Equal w) : Like SameLeaf v w :=
  (same_iff_like h.left h.right).1 h.same

theorem of_like (hv : v.WellFormed) (hw : w.WellFormed) (h : Like SameLeaf v w) : v.Equal w :=
  ⟨hv, hw, (same_iff_like hv hw).2 h⟩

/-- A document counts as equal to itself. -/
theorem refl (hv : v.WellFormed) : v.Equal v :=
  .of_like hv hv (Like.refl (fun _ hleaf => sameLeaf_refl hleaf) v)

/-- **Equal documents are read equally.** -/
theorem read (h : v.Equal w) (h' : v'.Equal w') (p : Path) :
    (v.read p v').Equal (w.read p w') :=
  .of_like (wellFormed_read h.left h'.left p) (wellFormed_read h.right h'.right p)
    (h.like.read h'.like p)

/-- **Equal documents that equal values are written to stay equal**, or fail for
one reason. -/
theorem write (h : v.Equal w) (h' : v'.Equal w') (p : Path) :
    Except.Rel Equal (v.write p v') (w.write p w') := by
  refine (h.like.write keepsNull_sameLeaf h'.like p).imp fun x y hx hy hxy => ?_
  exact .of_like (wellFormed_write h.left h'.left hx) (wellFormed_write h.right h'.right hy) hxy

end Equal

end Json

end Workflow
