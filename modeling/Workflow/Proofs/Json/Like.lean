import Workflow.Proofs.Json.Parts
/-!
# Workflow — values that are alike

Two values are alike if they are put together in the same way, whatever the
order of members, and a relation holds of their leaves. Alike values have alike
parts (`Json.Like.child?`), are read alike (`Json.Like.read`), and when alike
values are written to them they stay alike or fail for one reason
(`Json.Like.write`). With equality for the relation they differ in the order of
members only, as values do to which parts are put in another order
(`Json.put_comm`).
-/

namespace Workflow

namespace Json

/-- Two values are alike, as far as a relation tells of their leaves: lists
element by element, objects name by name, whatever the order of members. -/
inductive Like (Leaf : Json → Json → Prop) : Json → Json → Prop
  /-- Leaves that are related. -/
  | leaf {v w : Json} (hv : v.isLeaf) (hw : w.isLeaf) (h : Leaf v w) : Like Leaf v w
  /-- Lists of one length, with alike elements in each place. -/
  | arr {vs ws : List Json} (hlen : vs.length = ws.length)
      (h : ∀ (i : Nat) v w, vs[i]? = some v → ws[i]? = some w → Like Leaf v w) :
      Like Leaf (.arr vs) (.arr ws)
  /-- Objects of the same names, with alike values under each. -/
  | obj {ms ns : Members} (hkeys : (Entries.keys ms).Perm (Entries.keys ns))
      (h : ∀ key v w, Entries.get? ms key = some v → Entries.get? ns key = some w →
        Like Leaf v w) :
      Like Leaf (.obj ms) (.obj ns)

/-- Two values are equal but for the order of members. -/
abbrev Reordered : Json → Json → Prop :=
  Like (· = ·)

/-- Null is related to null and to nothing else. -/
structure KeepsNull (Leaf : Json → Json → Prop) : Prop where
  /-- Null is related to null only. -/
  left : ∀ {w}, Leaf null w ↔ w = null
  /-- Only null is related to null. -/
  right : ∀ {v}, Leaf v null ↔ v = null

theorem keepsNull_eq : KeepsNull (· = ·) :=
  ⟨eq_comm, Iff.rfl⟩

/-- A leaf has no parts. -/
theorem child?_of_isLeaf {v : Json} (h : v.isLeaf) (s : Segment) : v.child? s = none := by
  cases v with
  | arr _ | obj _ => cases h
  | _ => cases s <;> rfl

namespace Like

variable {Leaf : Json → Json → Prop} {v w v' w' new new' inner : Json} {ms ns : Members}

/-- A value is like itself if its leaves are. -/
theorem refl (hleaf : ∀ v : Json, v.isLeaf → Leaf v v) (v : Json) : Like Leaf v v := by
  induction v using Json.induction with
  | leaf v hv => exact .leaf hv hv (hleaf v hv)
  | arr vs ih =>
    refine .arr rfl fun i v w hv hw => ?_
    obtain rfl := Option.some.inj (hv.symm.trans hw)
    exact ih v (List.mem_of_getElem? hv)
  | obj ms ih =>
    refine .obj (.refl _) fun key v w hv hw => ?_
    obtain rfl := Option.some.inj (hv.symm.trans hw)
    exact ih _ (Entries.mem_of_get? hv)

/-- Alike objects have a name both or neither. -/
theorem get?_rel (h : Like Leaf (.obj ms) (.obj ns)) (key : String) :
    Option.Rel (Like Leaf) (Entries.get? ms key) (Entries.get? ns key) := by
  cases h with
  | leaf hv _ _ => cases hv
  | obj hkeys h =>
    refine Option.Rel.of_isSome_iff ?_ (h key)
    rw [Entries.get?_isSome_iff, Entries.get?_isSome_iff, hkeys.mem_iff]

/-- **Alike values have alike parts.** -/
theorem child? (h : Like Leaf v w) (s : Segment) :
    Option.Rel (Like Leaf) (v.child? s) (w.child? s) := by
  cases h with
  | leaf hv hw _ =>
    rw [child?_of_isLeaf hv, child?_of_isLeaf hw]
    exact .none
  | @arr vs ws hlen h =>
    cases s with
    | key name => exact .none
    | index n =>
      refine Option.Rel.of_isSome_iff ?_ (h n)
      show (vs[n]?).isSome ↔ (ws[n]?).isSome
      simp [hlen]
  | obj hkeys h =>
    cases s with
    | index n => exact .none
    | key name => exact (Like.obj hkeys h).get?_rel name

theorem at? (h : Like Leaf v w) (p : Path) : Option.Rel (Like Leaf) (v.at? p) (w.at? p) := by
  induction p generalizing v w with
  | nil => exact .some h
  | cons s rest ih => exact (h.child? s).bind fun _ _ hpart => ih hpart

/-- **Alike values are read alike.** -/
theorem read (h : Like Leaf v w) (hdefault : Like Leaf v' w') (p : Path) :
    Like Leaf (v.read p v') (w.read p w') :=
  (h.at? p).getD hdefault

/-! ## Writing to alike values -/

/-- Members are put among alike ones, or there are none for either. -/
theorem slots? (hnull : KeepsNull Leaf) (h : Like Leaf v w) :
    Option.Rel (fun ms ns => Like Leaf (.obj ms) (.obj ns)) v.slots? w.slots? := by
  cases h with
  | leaf hv hw h =>
    by_cases hvn : v = null
    · subst hvn
      obtain rfl := hnull.left.1 h
      exact .some (.obj (.refl _) nofun)
    · have hwn : w ≠ null := fun hwn => hvn (hnull.right.1 (hwn ▸ h))
      have hnone (x : Json) (hx : x.isLeaf) (hne : x ≠ null) : x.slots? = none := by
        cases x with
        | null => exact absurd rfl hne
        | obj _ => cases hx
        | _ => rfl
      rw [hnone v hv hvn, hnone w hw hwn]
      exact .none
  | arr _ _ => exact .none
  | obj hkeys h => exact .some (.obj hkeys h)

/-- A value under a name is put among alike members. -/
theorem insert (h : Like Leaf (.obj ms) (.obj ns)) (hnew : Like Leaf new new') (name : String) :
    Like Leaf (.obj (Entries.insert ms name new)) (.obj (Entries.insert ns name new')) := by
  cases h with
  | leaf hv _ _ => cases hv
  | obj hkeys h =>
    refine .obj ?_ fun key v w hv hw => ?_
    · rw [Entries.keys_insert, Entries.keys_insert]
      by_cases hname : name ∈ Entries.keys ms
      · rw [if_pos hname, if_pos (hkeys.mem_iff.1 hname)]
        exact hkeys
      · rw [if_neg hname, if_neg fun hmem => hname (hkeys.mem_iff.2 hmem)]
        exact hkeys.append_right [name]
    · rw [Entries.get?_insert] at hv hw
      by_cases hname : name = key
      · rw [if_pos hname] at hv hw
        cases hv
        cases hw
        exact hnew
      · rw [if_neg hname] at hv hw
        exact h key v w hv hw

/-- **Alike values have alike parts to write to**, or none for one reason. -/
theorem part (hnull : KeepsNull Leaf) (h : Like Leaf v w) (s : Segment) :
    Except.Rel (Like Leaf) (v.part s) (w.part s) := by
  have hmissing : Like Leaf null null := .leaf rfl rfl (hnull.left.2 rfl)
  cases s with
  | key name =>
    have hslots := h.slots? hnull
    rw [Json.part, Json.part]
    generalize v.slots? = found at hslots ⊢
    generalize w.slots? = found' at hslots ⊢
    cases hslots with
    | none => exact .error _
    | some hmembers => exact .ok ((hmembers.get?_rel name).getD hmissing)
  | index n =>
    have hleaf (x : Json) (hx : x.isLeaf) : x.items? = none := by
      cases x with
      | arr _ => cases hx
      | _ => rfl
    rw [Json.part, Json.part]
    cases h with
    | leaf hv hw _ =>
      rw [hleaf v hv, hleaf w hw]
      exact .error _
    | @arr vs ws hlen h =>
      have hitem : Option.Rel (Like Leaf) vs[n]? ws[n]? := (Like.arr hlen h).child? (.index n)
      simp only [items?]
      generalize vs[n]? = found at hitem ⊢
      generalize ws[n]? = found' at hitem ⊢
      cases hitem with
      | none => exact .error _
      | some hpart => exact .ok hpart
    | obj _ _ => exact .error _

/-- **Alike parts are put into alike values.** -/
theorem put (hnull : KeepsNull Leaf) (h : Like Leaf v w) (hnew : Like Leaf new new') {s : Segment}
    (hpart : v.part s = .ok inner) : Like Leaf (v.put s new) (w.put s new') := by
  cases s with
  | key name =>
    obtain ⟨members, hslots, -⟩ := part_key_eq_ok_iff.1 hpart
    obtain ⟨others, hothers, hmembers⟩ := (h.slots? hnull).exists_of_eq_some hslots
    rw [Json.put, Json.put, hslots, hothers]
    exact hmembers.insert hnew name
  | index n =>
    obtain ⟨items, rfl, hitem⟩ := part_index_eq_ok_iff.1 hpart
    cases h with
    | leaf hv _ _ => cases hv
    | @arr _ others hlen h =>
      have hlen' : (items.set n new).length = (others.set n new').length := by
        simp [hlen]
      refine .arr hlen' fun i v w hv hw => ?_
      have hv' : (items.set n new)[i]? = some v := hv
      have hw' : (others.set n new')[i]? = some w := hw
      rw [List.getElem?_set] at hv' hw'
      by_cases hi : n = i
      · rw [if_pos hi] at hv' hw'
        split at hv' <;> cases hv'
        split at hw' <;> cases hw'
        exact hnew
      · rw [if_neg hi] at hv' hw'
        exact h i v w hv' hw'

/-- **Alike values that are written to stay alike**, or fail for one reason. -/
theorem write (hnull : KeepsNull Leaf) (h : Like Leaf v w) (hnew : Like Leaf new new')
    (p : Path) : Except.Rel (Like Leaf) (v.write p new) (w.write p new') := by
  induction p generalizing v w with
  | nil => exact .ok hnew
  | cons s rest ih =>
    rw [write_cons_eq, write_cons_eq]
    have hpart := h.part hnull s
    -- the part is at hand when it is put back
    cases hv : v.part s with
    | error problem =>
      rw [hv] at hpart
      generalize w.part s = found at hpart ⊢
      cases hpart
      exact .error problem
    | ok inner =>
      obtain ⟨inner', hw, hinner⟩ := hpart.exists_of_eq_ok hv
      rw [hw]
      exact (ih hinner).map fun _ _ hwritten => h.put hnull hwritten hv

end Like

/-! ## Parts in another order -/

/-- A value is equal to itself, whatever the order of members. -/
theorem Reordered.refl (v : Json) : Reordered v v :=
  Like.refl (fun _ _ => rfl) v

/-- **Parts that are put at two segments may be put in either order.** -/
theorem put_comm {v inner inner' : Json} {s t : Segment} (hs : v.part s = .ok inner)
    (ht : v.part t = .ok inner') (hst : s ≠ t) (new new' : Json) :
    Reordered ((v.put s new).put t new') ((v.put t new').put s new) := by
  cases s with
  | index n =>
    obtain ⟨items, rfl, -⟩ := part_index_eq_ok_iff.1 hs
    cases t with
    | key name =>
      obtain ⟨members, hslots, -⟩ := part_key_eq_ok_iff.1 ht
      cases hslots
    | index k =>
      have hnk : n ≠ k := fun hnk => hst (hnk ▸ rfl)
      have hcomm : (items.set n new).set k new' = (items.set k new').set n new :=
        List.set_comm new new' hnk
      show Reordered (.arr ((items.set n new).set k new')) (.arr ((items.set k new').set n new))
      rw [hcomm]
      exact Reordered.refl _
  | key name =>
    obtain ⟨members, hslots, -⟩ := part_key_eq_ok_iff.1 hs
    cases t with
    | index k =>
      obtain ⟨items, rfl, -⟩ := part_index_eq_ok_iff.1 ht
      cases hslots
    | key name' =>
      have hname : name ≠ name' := fun hname => hst (hname ▸ rfl)
      have hboth (a b : String) (x y : Json) : (v.put (.key a) x).put (.key b) y =
          .obj (Entries.insert (Entries.insert members a x) b y) := by
        rw [put, put, hslots]
        rfl
      rw [hboth, hboth]
      refine .obj (Entries.keys_insert_comm members name name' new new') fun key x y hx hy => ?_
      rw [Entries.get?_insert_comm members hname] at hx
      obtain rfl := Option.some.inj (hx.symm.trans hy)
      exact Reordered.refl x

end Json

end Workflow
