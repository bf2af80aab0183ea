import Workflow.Proofs.Json.Parts
import Workflow.Proofs.Shape.Value
/-!
# Workflow — which values a shape takes

What a shape takes, and what is wrong with a value that it does not take, said by
rules that know nothing of how a value is fitted (`Shape.Takes`, `Shape.Misses`). A
value that is read already fits if it is taken (`Shape.fit_of_takes`), and is kept as
it is (`Shape.eq_of_fit`); otherwise it is refused for the first thing in its order
that is wrong (`Shape.fit_eq_error_iff`).
-/

namespace Workflow

open Json (Draft)

namespace Shape

variable {shape item entry : Shape} {v w : Json} {vs ws : List Json} {ms : Members} {m : Misfit}
  {p : Problem} {index : Nat}

/-- A shape takes a value. -/
inductive Takes : Shape → Json → Prop where
  /-- Anything may stand where nothing is asked for. -/
  | any (v : Json) : Takes .any v
  /-- A value of an accepted kind, neither a list nor an object. -/
  | scalar {accepted : List Json.Kind} {v : Json} (hleaf : v.isLeaf) (h : v.kind ∈ accepted) :
      Takes (.scalar accepted) v
  /-- A list of elements that are taken. -/
  | list {item : Shape} {vs : List Json} (h : ∀ v ∈ vs, Takes item v) : Takes (.list item) (.arr vs)
  /-- An object whose members have values that are taken. -/
  | table {entry : Shape} {ms : Members} (h : ∀ e ∈ ms, Takes entry e.2) :
      Takes (.table entry) (.obj ms)

/-- How a shape misses a value: by its kind, or by its first part that is not
taken. -/
inductive Misses : Shape → Json → Misfit → Prop where
  /-- It is of no accepted kind. -/
  | scalar {accepted : List Json.Kind} {v : Json} (h : v.isLeaf → v.kind ∉ accepted) :
      Misses (.scalar accepted) v
        (.wrongKind (" | ".intercalate (accepted.map Json.Kind.name)) v.kind [])
  /-- It is no list. -/
  | noList {item : Shape} {v : Json} (h : v.kind ≠ .array) :
      Misses (.list item) v (.wrongKind "array" v.kind [])
  /-- It is a list, but an element is missed, and none before. -/
  | element {item : Shape} {before after : List Json} {v : Json} {m : Misfit}
      (hbefore : ∀ w ∈ before, Takes item w) (h : Misses item v m) :
      Misses (.list item) (.arr (before ++ v :: after)) (m.within (.element before.length))
  /-- It is no object. -/
  | noTable {entry : Shape} {v : Json} (h : v.kind ≠ .object) :
      Misses (.table entry) v (.wrongKind "object" v.kind [])
  /-- It is an object, but the value of a member is missed, and none before. -/
  | entry {entry : Shape} {before after : Members} {key : String} {v : Json} {m : Misfit}
      (hbefore : ∀ e ∈ before, Takes entry e.2) (h : Misses entry v m) :
      Misses (.table entry) (.obj (before ++ (key, v) :: after)) (m.within .entry)

theorem takes_scalar_iff {accepted : List Json.Kind} :
    (scalar accepted).Takes v ↔ v.isLeaf ∧ v.kind ∈ accepted := by
  constructor
  · rintro ⟨⟩
    exact ⟨‹_›, ‹_›⟩
  · rintro ⟨hleaf, h⟩
    exact .scalar hleaf h

/-! ## A part and what follows it -/

/-- Nothing comes of a part and what follows it if nothing comes of either. -/
theorem bind_eq_error {α β γ : Type} {a : Except Problem α} {b : Except Problem β} {f : α → β → γ}
    {place : Place} :
    (do let x ← a.mapError (Problem.within place); let y ← b; return f x y) = Except.error p ↔
      (∃ q, a = .error q ∧ q.within place = p) ∨ (∃ x, a = .ok x) ∧ b = .error p := by
  rw [Except.bind_eq_error_iff, Except.mapError_eq_error_iff]
  refine or_congr Iff.rfl ⟨?_, ?_⟩
  · rintro ⟨x, hx, hrest⟩
    refine ⟨⟨x, Except.mapError_eq_ok_iff.1 hx⟩, ?_⟩
    obtain hb | ⟨y, -, hreturn⟩ := Except.bind_eq_error_iff.1 hrest
    · exact hb
    · cases hreturn
  · rintro ⟨⟨x, rfl⟩, rfl⟩
    exact ⟨x, rfl, rfl⟩

theorem fitItems_cons_eq_error {d : Draft} {rest : List Draft} :
    fitItems (d :: rest) shape index = .error p ↔
      (∃ q, shape.fit d = .error q ∧ q.within (.element index) = p) ∨
        (∃ v, shape.fit d = .ok v) ∧ fitItems rest shape (index + 1) = .error p := by
  rw [fitItems]
  exact bind_eq_error

theorem fitMembers_cons_eq_error {key : String} {d : Draft} {rest : List (Json.Label × Draft)} :
    fitMembers ((.named key, d) :: rest) shape = .error p ↔
      (∃ q, shape.fit d = .error q ∧ q.within .entry = p) ∨
        (∃ v, shape.fit d = .ok v) ∧ fitMembers rest shape = .error p := by
  rw [fitMembers]
  exact bind_eq_error

/-! ## Lists and tables that are given -/

theorem exists_fitItems (h : ∀ v ∈ vs, ∃ w, shape.fit (.ofJson v) = .ok w) (index : Nat) :
    ∃ ws, fitItems (Draft.ofItems vs) shape index = .ok ws := by
  induction vs generalizing index with
  | nil => exact ⟨[], rfl⟩
  | cons v rest ih =>
    obtain ⟨w, hw⟩ := h v List.mem_cons_self
    obtain ⟨ws, hws⟩ := ih (fun v hv => h v (List.mem_cons_of_mem _ hv)) (index + 1)
    exact ⟨w :: ws, fitItems_cons_eq_ok.2 ⟨w, ws, hw, hws, rfl⟩⟩

theorem exists_fitMembers (h : ∀ e ∈ ms, ∃ w, shape.fit (.ofJson e.2) = .ok w) :
    ∃ ns, fitMembers (Draft.ofMembers ms) shape = .ok ns := by
  induction ms with
  | nil => exact ⟨[], rfl⟩
  | cons e rest ih =>
    obtain ⟨w, hw⟩ := h e List.mem_cons_self
    obtain ⟨ns, hns⟩ := ih fun e he => h e (List.mem_cons_of_mem _ he)
    exact ⟨(e.1, w) :: ns, fitMembers_cons_eq_ok.2 ⟨w, ns, hw, hns, rfl⟩⟩

/-- A list is refused at its first element that does not fit. -/
theorem fitItems_of_first {before after : List Json}
    (hbefore : ∀ v ∈ before, ∃ w, shape.fit (.ofJson v) = .ok w)
    (h : shape.fit (.ofJson v) = .error p) (index : Nat) :
    fitItems (Draft.ofItems (before ++ v :: after)) shape index =
      .error (p.within (.element (index + before.length))) := by
  induction before generalizing index with
  | nil => exact fitItems_cons_eq_error.2 (.inl ⟨p, h, rfl⟩)
  | cons u rest ih =>
    have hrest := ih (fun v hv => hbefore v (List.mem_cons_of_mem _ hv)) (index + 1)
    rw [Nat.add_right_comm, Nat.add_assoc] at hrest
    exact fitItems_cons_eq_error.2 (.inr ⟨hbefore u List.mem_cons_self, hrest⟩)

/-- A table is refused at its first member that does not fit. -/
theorem fitMembers_of_first {before after : Members} {key : String}
    (hbefore : ∀ e ∈ before, ∃ w, shape.fit (.ofJson e.2) = .ok w)
    (h : shape.fit (.ofJson v) = .error p) :
    fitMembers (Draft.ofMembers (before ++ (key, v) :: after)) shape =
      .error (p.within .entry) := by
  induction before with
  | nil => exact fitMembers_cons_eq_error.2 (.inl ⟨p, h, rfl⟩)
  | cons e rest ih =>
    have hrest := ih fun e he => hbefore e (List.mem_cons_of_mem _ he)
    exact fitMembers_cons_eq_error.2 (.inr ⟨hbefore e List.mem_cons_self, hrest⟩)

/-! ## Values that are given -/

/-- A value without parts is fitted as one token. -/
theorem fit_of_isLeaf (h : v.isLeaf) : shape.fit (.ofJson v) = shape.fitLeaf v := by
  cases v with
  | arr _ | obj _ => cases h
  | _ => rfl

/-- **What a shape takes fits.** -/
theorem fit_of_takes (h : shape.Takes v) : ∃ w, shape.fit (.ofJson v) = .ok w := by
  induction v using Json.induction generalizing shape with
  | leaf v hv =>
    have haccepts : shape.accepts v.kind := by
      cases h with
      | any => rfl
      | scalar _ h => simpa [accepts] using h
      | list => cases hv
      | table => cases hv
    exact ⟨v, by rw [fit_of_isLeaf hv, fitLeaf, if_pos haccepts]⟩
  | arr vs ih =>
    obtain ⟨item, hitem, hparts⟩ : ∃ item, shape.item? = some item ∧ ∀ v ∈ vs, item.Takes v := by
      cases h with
      | any => exact ⟨.any, rfl, fun v _ => .any v⟩
      | scalar hleaf _ => cases hleaf
      | list h => exact ⟨_, rfl, h⟩
    obtain ⟨ws, hws⟩ := exists_fitItems (fun v hv => ih v hv (hparts v hv)) 0
    exact ⟨.arr ws, by rw [Draft.ofJson, fit, hitem]; simp only [hws]; rfl⟩
  | obj ms ih =>
    obtain ⟨entry, hentry, hparts⟩ :
        ∃ entry, shape.entry? = some entry ∧ ∀ e ∈ ms, entry.Takes e.2 := by
      cases h with
      | any => exact ⟨.any, rfl, fun e _ => .any e.2⟩
      | scalar hleaf _ => cases hleaf
      | table h => exact ⟨_, rfl, h⟩
    obtain ⟨ns, hns⟩ := exists_fitMembers fun e he => ih e he (hparts e he)
    exact ⟨.obj (Entries.collect ns), by rw [Draft.ofJson, fit, hentry]; simp only [hns]; rfl⟩

/-- **What a shape misses is refused for that.** -/
theorem fit_of_misses (h : shape.Misses v m) : shape.fit (.ofJson v) = .error (.misfit m) := by
  induction h with
  | @scalar accepted v h =>
    cases v with
    | arr _ | obj _ => rfl
    | _ => rw [fit_of_isLeaf rfl, fitLeaf, if_neg (by simpa [accepts] using h rfl)]; rfl
  | @noList item v h =>
    cases v with
    | arr _ => exact absurd rfl h
    | _ => rfl
  | @element item before after v m hbefore _ ih =>
    have hitems : fitItems (Draft.ofItems (before ++ v :: after)) item 0 = _ :=
      fitItems_of_first (fun w hw => fit_of_takes (hbefore w hw)) ih 0
    rw [Nat.zero_add] at hitems
    rw [Draft.ofJson, fit]
    simp only [item?, hitems]
    rfl
  | @noTable entry v h =>
    cases v with
    | obj _ => exact absurd rfl h
    | _ => rfl
  | @entry entry before after key v m hbefore _ ih =>
    have hmembers : fitMembers (Draft.ofMembers (before ++ (key, v) :: after)) entry = _ :=
      fitMembers_of_first (fun e he => fit_of_takes (hbefore e he)) ih
    rw [Draft.ofJson, fit]
    simp only [hmembers, entry?]
    rfl

/-- Of parts that are each taken or missed, all are taken or there is a first
that is missed. -/
theorem forall_or_first {α : Type} {Good : α → Prop} {Bad : α → Misfit → Prop} (row : List α)
    (h : ∀ a ∈ row, Good a ∨ ∃ m, Bad a m) :
    (∀ a ∈ row, Good a) ∨
      ∃ before a after m, row = before ++ a :: after ∧ (∀ b ∈ before, Good b) ∧ Bad a m := by
  induction row with
  | nil => exact .inl nofun
  | cons a rest ih =>
    rcases h a List.mem_cons_self with ha | ⟨m, ha⟩
    · rcases ih fun b hb => h b (List.mem_cons_of_mem _ hb) with hall | ⟨before, b, after, m, hb⟩
      · exact .inl (List.forall_mem_cons.2 ⟨ha, hall⟩)
      · obtain ⟨rfl, hbefore, hbad⟩ := hb
        exact .inr ⟨a :: before, b, after, m, rfl, List.forall_mem_cons.2 ⟨ha, hbefore⟩, hbad⟩
    · exact .inr ⟨[], a, rest, m, rfl, nofun, ha⟩

/-- **A shape takes a value or misses it.** -/
theorem takes_or_misses (shape : Shape) (v : Json) : shape.Takes v ∨ ∃ m, shape.Misses v m := by
  induction v using Json.induction generalizing shape with
  | leaf v hv =>
    cases shape with
    | any => exact .inl (.any v)
    | scalar accepted =>
      by_cases h : v.kind ∈ accepted
      · exact .inl (.scalar hv h)
      · exact .inr ⟨_, .scalar fun _ => h⟩
    | list item =>
      refine .inr ⟨_, .noList fun hkind => ?_⟩
      cases v with
      | arr _ => cases hv
      | _ => cases hkind
    | table entry =>
      refine .inr ⟨_, .noTable fun hkind => ?_⟩
      cases v with
      | obj _ => cases hv
      | _ => cases hkind
  | arr vs ih =>
    cases shape with
    | any => exact .inl (.any _)
    | scalar accepted => exact .inr ⟨_, .scalar nofun⟩
    | list item =>
      rcases forall_or_first vs fun v hv => ih v hv item with hall | ⟨before, v, after, m, hv⟩
      · exact .inl (.list hall)
      · obtain ⟨rfl, hbefore, hmiss⟩ := hv
        exact .inr ⟨_, .element hbefore hmiss⟩
    | table entry => exact .inr ⟨_, .noTable nofun⟩
  | obj ms ih =>
    cases shape with
    | any => exact .inl (.any _)
    | scalar accepted => exact .inr ⟨_, .scalar nofun⟩
    | list item => exact .inr ⟨_, .noList nofun⟩
    | table entry =>
      rcases forall_or_first ms fun e he => ih e he entry with hall | ⟨before, e, after, m, he⟩
      · exact .inl (.table hall)
      · obtain ⟨rfl, hbefore, hmiss⟩ := he
        exact .inr ⟨_, .entry hbefore hmiss⟩

/-- And not both. -/
theorem Takes.not_misses (htakes : shape.Takes v) (m : Misfit) : ¬ shape.Misses v m := by
  intro hmisses
  obtain ⟨w, hw⟩ := fit_of_takes htakes
  cases hw.symm.trans (fit_of_misses hmisses)

/-- **A value is refused for what the shape misses.** -/
theorem fit_eq_error_iff :
    shape.fit (.ofJson v) = .error p ↔ ∃ m, shape.Misses v m ∧ p = .misfit m := by
  constructor
  · intro h
    obtain htakes | ⟨m, hm⟩ := takes_or_misses shape v
    · obtain ⟨w, hw⟩ := fit_of_takes htakes
      cases hw.symm.trans h
    · exact ⟨m, hm, Except.error.inj (h.symm.trans (fit_of_misses hm))⟩
  · rintro ⟨m, hm, rfl⟩
    exact fit_of_misses hm

theorem eq_of_fitItems (hparts : ∀ v ∈ vs, ∀ w, shape.fit (.ofJson v) = .ok w → w = v)
    (h : fitItems (Draft.ofItems vs) shape index = .ok ws) : ws = vs := by
  induction vs generalizing index ws with
  | nil =>
    cases h
    rfl
  | cons v rest ih =>
    obtain ⟨w, ws, hw, hws, rfl⟩ := fitItems_cons_eq_ok.1 h
    rw [hparts v List.mem_cons_self w hw,
      ih (fun v hv => hparts v (List.mem_cons_of_mem _ hv)) hws]

theorem eq_of_fitMembers {ns : List (String × Json)}
    (hparts : ∀ e ∈ ms, ∀ w, shape.fit (.ofJson e.2) = .ok w → w = e.2)
    (h : fitMembers (Draft.ofMembers ms) shape = .ok ns) : ns = ms := by
  induction ms generalizing ns with
  | nil =>
    cases h
    rfl
  | cons e rest ih =>
    obtain ⟨w, ns, hw, hns, rfl⟩ := fitMembers_cons_eq_ok.1 h
    rw [hparts e List.mem_cons_self w hw, ih (fun e he => hparts e (List.mem_cons_of_mem _ he)) hns]

/-- **A value that fits is kept as it is**, if it repeats no name. -/
theorem eq_of_fit (hv : v.WellFormed) (h : shape.fit (.ofJson v) = .ok w) : w = v := by
  induction v using Json.induction generalizing shape w with
  | leaf v hleaf =>
    rw [fit_of_isLeaf hleaf] at h
    exact (fitLeaf_eq_ok h).1
  | arr vs ih =>
    rw [Draft.ofJson, fit] at h
    split at h
    · obtain ⟨ws, hws, rfl⟩ := Except.map_eq_ok_iff.1 h
      have hparts := Json.wellFormed_arr_iff.1 hv
      rw [eq_of_fitItems (fun v hv w hw => ih v hv (hparts v hv) hw) hws]
    · cases h
  | obj ms ih =>
    rw [Draft.ofJson, fit] at h
    split at h
    · obtain ⟨ns, hns, rfl⟩ := Except.map_eq_ok_iff.1 h
      obtain ⟨hdistinct, hparts⟩ := Json.wellFormed_obj_iff.1 hv
      rw [eq_of_fitMembers (fun e he w hw => ih e he (hparts e he) hw) hns,
        Entries.collect_of_distinct hdistinct]
    · cases h

end Shape

end Workflow
