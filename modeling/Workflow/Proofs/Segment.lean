import Workflow.Path.Document
import Workflow.Proofs.Except
/-!
# Workflow — the part at a segment

Writing at a path takes the part of a value that the first segment leads to,
writes further on to that, and puts it back (`Json.write_cons_eq`). Taking and
putting are a lens: what is put is taken again (`Json.part_put`), putting back
what is there changes nothing (`Json.put_of_child?`), the last part that is put
stays (`Json.put_put`), and at any other segment the value is as before
(`Json.part_put_of_ne`, `Json.child?_put`).
-/

namespace Workflow

namespace Json

variable {v new new' inner : Json} {s t : Segment}

/-- The part of a value that writing goes on with past a segment, or why there
is none. A missing member counts as null. -/
def part (v : Json) : Segment → Except PathProblem Json
  | .index n =>
    match v.items? with
    | none => .error (.notList n)
    | some items =>
      match items[n]? with
      | none => .error (.outOfRange n)
      | some item => .ok item
  | .key name =>
    match v.slots? with
    | none => .error (.notObject name)
    | some members => .ok ((Entries.get? members name).getD null)

/-- The value with another part at a segment. -/
def put (v : Json) (s : Segment) (new : Json) : Json :=
  match s with
  | .index n => arr ((v.items?.getD []).set n new)
  | .key name => obj (Entries.insert (v.slots?.getD []) name new)

/-- **Writing at a path takes a part, writes to it and puts it back.** -/
theorem write_cons_eq (v : Json) (s : Segment) (rest : Path) (new : Json) :
    v.write (s :: rest) new = v.part s >>= fun inner => v.put s <$> inner.write rest new := by
  cases s with
  | index n =>
    rw [write, part]
    cases hitems : v.items? with
    | none => rfl
    | some items =>
      have hput : v.put (.index n) = fun new => arr (items.set n new) := by
        funext new
        simp [put, hitems]
      rw [hput]
      dsimp only
      cases items[n]? <;> rfl
  | key name =>
    rw [write, part]
    cases hslots : v.slots? with
    | none => rfl
    | some members =>
      have hput : v.put (.key name) = fun new => obj (Entries.insert members name new) := by
        funext new
        simp [put, hslots]
      rw [hput]
      rfl

/-- A value is written to at a path if it has a part there and that is written
to. -/
theorem write_cons_eq_ok_iff {rest : Path} {v' : Json} : v.write (s :: rest) new = .ok v' ↔
    ∃ inner inner', v.part s = .ok inner ∧ inner.write rest new = .ok inner' ∧
      v.put s inner' = v' := by
  rw [write_cons_eq, Except.bind_eq_ok_iff]
  refine exists_congr fun inner => ?_
  rw [Except.map_eq_ok_iff]
  constructor
  · rintro ⟨hpart, inner', hwrite, hput⟩
    exact ⟨inner', hpart, hwrite, hput⟩
  · rintro ⟨inner', hpart, hwrite, hput⟩
    exact ⟨hpart, inner', hwrite, hput⟩

/-! ## What has a part -/

/-- A list has its elements. -/
theorem part_index_eq_ok_iff {n : Nat} :
    v.part (.index n) = .ok inner ↔ ∃ items, v = arr items ∧ items[n]? = some inner := by
  cases v with
  | arr items => cases hitem : items[n]? <;> simp [part, items?, hitem]
  | _ => simp [part, items?]

/-- An object has all members, as null has. -/
theorem part_key_eq_ok_iff {name : String} : v.part (.key name) = .ok inner ↔
    ∃ members, v.slots? = some members ∧ (Entries.get? members name).getD null = inner := by
  rw [part]
  cases v.slots? <;> simp

/-- The members that a member is put among are those that are read. -/
theorem child?_of_slots {members : Members} (h : v.slots? = some members) (s : Segment) :
    v.child? s = (obj members).child? s := by
  cases v with
  | obj _ => rw [← Option.some.inj h]
  | null =>
    rw [← Option.some.inj h]
    cases s <;> rfl
  | _ => cases h

/-- The part that is written to is the one that is read, or null. -/
theorem eq_of_part (h : v.part s = .ok inner) : inner = (v.child? s).getD null := by
  cases s with
  | index n =>
    obtain ⟨items, rfl, hitem⟩ := part_index_eq_ok_iff.1 h
    rw [child?, hitem]
    rfl
  | key name =>
    obtain ⟨members, hslots, rfl⟩ := part_key_eq_ok_iff.1 h
    rw [child?_of_slots hslots]
    rfl

/-! ## Taking and putting -/

/-- **What is put is taken again.** -/
theorem part_put (h : v.part s = .ok inner) (new : Json) : (v.put s new).part s = .ok new := by
  cases s with
  | index n =>
    obtain ⟨items, rfl, hitem⟩ := part_index_eq_ok_iff.1 h
    obtain ⟨hn, -⟩ := List.getElem?_eq_some_iff.1 hitem
    exact part_index_eq_ok_iff.2 ⟨_, rfl, by simp [items?, hn]⟩
  | key name => exact part_key_eq_ok_iff.2 ⟨_, rfl, by simp [Entries.get?_insert]⟩

/-- **A part that is read is there to be written to, and putting it back changes
nothing.** -/
theorem put_of_child? (h : v.child? s = some inner) :
    v.part s = .ok inner ∧ v.put s inner = v := by
  cases s with
  | index n =>
    cases v with
    | arr items =>
      have hitem : items[n]? = some inner := h
      have hset : items.set n inner = items := by
        obtain ⟨hn, rfl⟩ := List.getElem?_eq_some_iff.1 hitem
        exact List.set_getElem_self hn
      exact ⟨part_index_eq_ok_iff.2 ⟨items, rfl, hitem⟩, congrArg arr hset⟩
    | _ => cases h
  | key name =>
    cases v with
    | obj members =>
      have hmember : Entries.get? members name = some inner := h
      refine ⟨part_key_eq_ok_iff.2 ⟨members, rfl, ?_⟩, ?_⟩
      · rw [hmember]
        rfl
      · exact congrArg obj (Entries.insert_of_get? hmember)
    | _ => cases h

/-- **The last part that is put stays.** -/
theorem put_put (v : Json) (s : Segment) (new new' : Json) :
    (v.put s new).put s new' = v.put s new' := by
  cases s with
  | index n => simp [put, items?]
  | key name => simp [put, slots?, Entries.insert_insert]

/-- **Elsewhere the part is as before**, and if there is none, for the same
reason. -/
theorem part_put_of_ne (h : v.part s = .ok inner) (hts : t ≠ s) (new : Json) :
    (v.put s new).part t = v.part t := by
  cases s with
  | index n =>
    obtain ⟨items, rfl, -⟩ := part_index_eq_ok_iff.1 h
    cases t with
    | key name => rfl
    | index k =>
      have hk : n ≠ k := fun hk => hts (hk ▸ rfl)
      simp [part, put, items?, hk]
  | key name =>
    obtain ⟨members, hslots, -⟩ := part_key_eq_ok_iff.1 h
    cases t with
    | index k =>
      -- neither an object nor null is a list
      have hitems : v.items? = none := by
        cases v with
        | arr items => cases hslots
        | _ => rfl
      rw [part, part, hitems]
      rfl
    | key name' =>
      have hname : name ≠ name' := fun hname => hts (hname ▸ rfl)
      have hput : (v.put (.key name) new).slots? = some (Entries.insert members name new) := by
        rw [put, hslots]
        rfl
      simp [part, hput, hslots, Entries.get?_insert, hname]

/-- **What is read at a segment after a part is put.** -/
theorem child?_put (h : v.part s = .ok inner) (new : Json) (t : Segment) :
    (v.put s new).child? t = if t = s then some new else v.child? t := by
  cases s with
  | index n =>
    obtain ⟨items, rfl, hitem⟩ := part_index_eq_ok_iff.1 h
    obtain ⟨hn, -⟩ := List.getElem?_eq_some_iff.1 hitem
    cases t with
    | key name => rfl
    | index k =>
      by_cases hk : k = n
      · subst hk
        simp [put, child?, items?, hn]
      · simp [put, child?, items?, hk, Ne.symm hk]
  | key name =>
    obtain ⟨members, hslots, -⟩ := part_key_eq_ok_iff.1 h
    rw [child?_of_slots hslots]
    cases t with
    | index k => rfl
    | key name' =>
      simp only [put, hslots, Option.getD_some, child?, Entries.get?_insert, Segment.key.injEq]
      by_cases hname : name = name'
      · simp [hname]
      · simp [hname, Ne.symm hname]

end Json

end Workflow
