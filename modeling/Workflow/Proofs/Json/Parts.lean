import Workflow.Proofs.Segment
/-!
# Workflow — values and their parts

A value is a leaf, a list or an object, and what holds of a value if it holds
of its parts holds of every value (`Json.induction`). Values that repeat no name
have such parts, and stay so when one is written to (`Json.wellFormed_write`).
-/

namespace Workflow

namespace Json

variable {v new w : Json} {s : Segment} {p : Path}

/-- A value is neither a list nor an object. -/
def isLeaf : Json → Bool
  | arr _ | obj _ => false
  | null | bool _ | int _ | float _ | str _ => true

/-- **Induction on the parts of a value**: its elements, if it is a list, and
the values of its members, if it is an object. -/
@[elab_as_elim]
theorem induction {P : Json → Prop} (leaf : ∀ v : Json, v.isLeaf → P v)
    (arr : ∀ vs, (∀ v ∈ vs, P v) → P (.arr vs))
    (obj : ∀ ms : Members, (∀ m ∈ ms, P m.2) → P (.obj ms)) (v : Json) : P v := by
  have hcons {α : Type} {Q : α → Prop} (a : α) (rest : List α) (ha : Q a)
      (hrest : ∀ b ∈ rest, Q b) : ∀ b ∈ a :: rest, Q b :=
    List.forall_mem_cons.2 ⟨ha, hrest⟩
  exact @Json.rec P (fun vs => ∀ v ∈ vs, P v) (fun ms => ∀ m ∈ ms, P m.2) (fun m => P m.2)
    (leaf _ rfl) (fun _ => leaf _ rfl) (fun _ => leaf _ rfl) (fun _ => leaf _ rfl)
    (fun _ => leaf _ rfl) arr obj nofun hcons nofun hcons (fun _ _ hv => hv) v

/-! ## Values that repeat no name -/

theorem wellFormed_of_isLeaf (h : v.isLeaf) : v.WellFormed := by
  cases v with
  | arr _ | obj _ => cases h
  | null | bool _ | int _ | float _ | str _ => trivial

theorem wellFormed_arr_iff {vs : List Json} : (arr vs).WellFormed ↔ ∀ v ∈ vs, v.WellFormed := by
  show WellFormedItems vs ↔ _
  induction vs with
  | nil => exact ⟨fun _ => nofun, fun _ => trivial⟩
  | cons v rest ih => rw [WellFormedItems, ih, List.forall_mem_cons]

theorem wellFormed_obj_iff {ms : Members} :
    (obj ms).WellFormed ↔ Entries.Distinct ms ∧ ∀ m ∈ ms, m.2.WellFormed := by
  have hmembers (ms : Members) : WellFormedMembers ms ↔ ∀ m ∈ ms, m.2.WellFormed := by
    induction ms with
    | nil => exact ⟨fun _ => nofun, fun _ => trivial⟩
    | cons m rest ih => rw [WellFormedMembers, ih, List.forall_mem_cons]
  exact and_congr_right fun _ => hmembers ms

/-- A part that is read repeats no name. -/
theorem wellFormed_of_child? (hv : v.WellFormed) (h : v.child? s = some w) : w.WellFormed := by
  cases v with
  | arr vs =>
    cases s with
    | index n => exact wellFormed_arr_iff.1 hv w (List.mem_of_getElem? h)
    | key name => cases h
  | obj ms =>
    cases s with
    | index n => cases h
    | key name => exact (wellFormed_obj_iff.1 hv).2 _ (Entries.mem_of_get? h)
  | _ => cases s <;> cases h

theorem wellFormed_of_at? (hv : v.WellFormed) (h : v.at? p = some w) : w.WellFormed := by
  induction p generalizing v with
  | nil =>
    cases h
    exact hv
  | cons s rest ih =>
    obtain ⟨part, hpart, hrest⟩ := Option.bind_eq_some_iff.1 h
    exact ih (wellFormed_of_child? hv hpart) hrest

/-- So is one that is read with a default. -/
theorem wellFormed_read (hv : v.WellFormed) (hw : w.WellFormed) (p : Path) :
    (v.read p w).WellFormed := by
  unfold read
  cases h : v.at? p with
  | none => exact hw
  | some part => exact wellFormed_of_at? hv h

/-- A value into which a part is put repeats no name. -/
theorem wellFormed_put (hv : v.WellFormed) (hw : w.WellFormed) (s : Segment) :
    (v.put s w).WellFormed := by
  cases s with
  | index n =>
    refine wellFormed_arr_iff.2 fun x hx => ?_
    rcases List.mem_or_eq_of_mem_set hx with hx | rfl
    · cases v with
      | arr vs => exact wellFormed_arr_iff.1 hv x hx
      | _ => cases hx
    · exact hw
  | key name =>
    have hslots : Entries.Distinct (v.slots?.getD []) ∧
        ∀ m ∈ v.slots?.getD [], m.2.WellFormed := by
      cases v with
      | obj ms => exact wellFormed_obj_iff.1 hv
      | _ => exact ⟨List.nodup_nil, nofun⟩
    refine wellFormed_obj_iff.2 ⟨Entries.distinct_insert hslots.1 name w, fun m hm => ?_⟩
    rcases Entries.mem_insert hm with rfl | hm
    · exact hw
    · exact hslots.2 m hm

/-- **A value that is written to repeats no name.** -/
theorem wellFormed_write (hv : v.WellFormed) (hnew : new.WellFormed)
    (h : v.write p new = .ok w) : w.WellFormed := by
  induction p generalizing v w with
  | nil =>
    cases h
    exact hnew
  | cons s rest ih =>
    obtain ⟨inner, inner', hpart, hwrite, rfl⟩ := write_cons_eq_ok_iff.1 h
    have hinner : inner.WellFormed := by
      rw [eq_of_part hpart]
      cases hchild : v.child? s with
      | none => trivial
      | some part => exact wellFormed_of_child? hv hchild
    exact wellFormed_put hv (ih hinner hwrite) s

end Json

end Workflow
