import Workflow.Proofs.Json.Marks
/-!
# Workflow — problems and the marks they come from

Fitting a draft into a place finds no problem of its own with the text. Either
the value has the wrong shape, or the problem is a mark that reading left in
the draft; and a draft that fits bears no mark at all, since fitting looks at
every part. `Accounts` says both of one outcome, and is kept by the steps that
fitting is made of.
-/

namespace Workflow

open Json (Label Draft)

/-- The marks of a draft account for what fitting it comes to. -/
def Accounts {α : Type} (marks : List Problem) : Except Problem α → Prop
  | .ok _ => marks = []
  | .error p => (∃ m, p = .misfit m) ∨ p ∈ marks

namespace Accounts

variable {α β : Type} {marks marks' : List Problem}

theorem ok (a : α) : Accounts [] (Except.ok a) := rfl

theorem misfit (m : Misfit) : Accounts (α := α) marks (.error (.misfit m)) :=
  .inl ⟨m, rfl⟩

theorem mark {p : Problem} (h : p ∈ marks) : Accounts (α := α) marks (.error p) :=
  .inr h

/-- What comes after is only met if what comes before is in order. -/
theorem bind {a : Except Problem α} {k : α → Except Problem β} (ha : Accounts marks a)
    (hk : ∀ x, Accounts marks' (k x)) : Accounts (marks ++ marks') (a >>= k) := by
  cases a with
  | error p =>
    rcases ha with hm | hp
    · exact .inl hm
    · exact .inr (List.mem_append_left _ hp)
  | ok x =>
    obtain rfl : marks = [] := ha
    exact hk x

theorem map {a : Except Problem α} (f : α → β) (ha : Accounts marks a) :
    Accounts marks (f <$> a) := by
  cases a <;> exact ha

/-- Where a part stands changes nothing about a mark in it. -/
theorem within {a : Except Problem α} (p : Place) (ha : Accounts marks a) :
    Accounts marks (a.mapError (Problem.within p)) := by
  cases a with
  | ok x => exact ha
  | error q =>
    rcases ha with ⟨m, rfl⟩ | hq
    · exact .inl ⟨m.within p, rfl⟩
    · cases q with
      | misfit m => exact .inl ⟨m.within p, rfl⟩
      | malformed => exact .inr hq
      | illFormed => exact .inr hq

end Accounts

namespace Shape

theorem accounts_fitLeaf (shape : Shape) (v : Json) : Accounts [] (shape.fitLeaf v) := by
  unfold fitLeaf
  split
  · exact .ok v
  · exact .misfit _

theorem accounts_fitWide (shape : Shape) (n : Int) : Accounts [] (shape.fitWide n) := by
  unfold fitWide
  split
  · exact .ok _
  · split
    · exact accounts_fitLeaf _ _
    · exact .misfit _

mutual

/-- **Fitting a draft finds a wrong shape, or a mark of the draft.** -/
theorem accounts_fit : (d : Draft) → (shape : Shape) → Accounts d.marks (shape.fit d)
  | .malformed, _ => .mark (List.mem_singleton.2 rfl)
  | .illFormed, shape => by
    unfold fit
    split
    · exact .mark (List.mem_singleton.2 rfl)
    · exact .misfit _
  | .outOfRange, _ => .misfit _
  | .leaf v, shape => accounts_fitLeaf shape v
  | .wide n, shape => accounts_fitWide shape n
  | .arr items, shape => by
    unfold fit
    split
    · exact (accounts_fitItems items _ 0).map _
    · exact .misfit _
  | .obj members, shape => by
    unfold fit
    split
    · exact (accounts_fitMembers members _).map _
    · exact .misfit _

theorem accounts_fitItems : (ds : List Draft) → (shape : Shape) → (index : Nat) →
    Accounts (Draft.marksItems ds) (fitItems ds shape index)
  | [], _, _ => .ok []
  | d :: rest, shape, index => by
    refine ((accounts_fit d shape).within _).bind fun v => ?_
    exact (accounts_fitItems rest shape (index + 1)).map (v :: ·)

theorem accounts_fitMembers : (ds : List (Label × Draft)) → (shape : Shape) →
    Accounts (Draft.marksMembers ds) (fitMembers ds shape)
  | [], _ => .ok []
  | (.named key, d) :: rest, shape => by
    refine ((accounts_fit d shape).within _).bind fun v => ?_
    exact (accounts_fitMembers rest shape).map ((key, v) :: ·)
  | (.malformed, _) :: _, _ => .mark List.mem_cons_self
  | (.illFormed, _) :: _, _ => .mark List.mem_cons_self
  | (.illFormedAlone, _) :: _, _ => .mark List.mem_cons_self

end

end Shape

namespace Record

/-- A record that refuses unknown fields looks at every member, too. -/
theorem accounts_fitMembers {r : Record} (hr : r.strict) : (ds : List (Label × Draft)) →
    Accounts (Draft.marksMembers ds) (r.fitMembers ds)
  | [] => .ok []
  | (.named key, d) :: rest => by
    unfold fitMembers
    split
    · refine ((Shape.accounts_fit d _).within _).bind fun v => ?_
      exact (accounts_fitMembers hr rest).map ((key, v) :: ·)
    · rw [if_pos hr]
      exact .misfit _
  | (.illFormed, d) :: rest => by
    rw [fitMembers, if_pos hr]
    exact .mark List.mem_cons_self
  | (.illFormedAlone, _) :: _ => .mark (List.mem_cons_of_mem _ List.mem_cons_self)
  | (.malformed, _) :: _ => .mark List.mem_cons_self

/-- **Fitting a draft into a record finds a wrong shape, or a mark.** -/
theorem accounts_fit {r : Record} (hr : r.strict) (d : Draft) : Accounts d.marks (r.fit d) := by
  unfold fit
  split
  · exact (accounts_fitMembers hr _).map _
  · exact (Shape.accounts_fit d _).map _

end Record

end Workflow
