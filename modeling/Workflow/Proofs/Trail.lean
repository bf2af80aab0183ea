import Mathlib.Data.List.Induction
import Mathlib.Data.List.Nodup
import Mathlib.Logic.Relator
/-!
# Workflow — trails

A trail goes from one place to another along a relation and keeps the places
that it leaves on the way. Where every place leads to at most one other there
is only one way to go, so of two trails from one place the shorter is the
beginning of the longer (`Trail.split_of_length_le`), and one that gets to a
dead end has been nowhere twice (`Trail.nodup`).
-/

namespace Workflow

/-- A way along a relation, with the places that it leaves, in order. -/
inductive Trail {α : Type} (Leads : α → α → Prop) : α → List α → α → Prop
  /-- Staying leaves no place. -/
  | here (a : α) : Trail Leads a [] a
  /-- Going on leaves the place where one is. -/
  | on {a b c : α} {passed : List α} (h : Leads a b) (rest : Trail Leads b passed c) :
      Trail Leads a (a :: passed) c

namespace Trail

variable {α : Type} {Leads : α → α → Prop} {a b c : α} {l l' : List α}

/-- One trail, then another from where it gets to. -/
theorem append (h : Trail Leads a l b) (h' : Trail Leads b l' c) : Trail Leads a (l ++ l') c := by
  induction h with
  | here => exact h'
  | on hab _ ih => exact .on hab (ih h')

/-- One step more. -/
theorem concat (h : Trail Leads a l b) (hbc : Leads b c) : Trail Leads a (l ++ [b]) c :=
  h.append (.on hbc (.here c))

/-- A trail that has left a place has come to it before and gone on from it. -/
theorem split (h : Trail Leads a (l ++ l') c) : ∃ b, Trail Leads a l b ∧ Trail Leads b l' c := by
  induction l generalizing a with
  | nil => exact ⟨a, .here a, h⟩
  | cons x rest ih =>
    cases h with
    | on hab hrest =>
      obtain ⟨b, hb, hc⟩ := ih hrest
      exact ⟨b, .on hab hb, hc⟩

/-- The last step of a trail. -/
theorem of_concat (h : Trail Leads a (l ++ [b]) c) : Trail Leads a l b ∧ Leads b c := by
  obtain ⟨x, hx, hrest⟩ := h.split
  cases hrest with
  | on hbc hnil =>
    cases hnil
    exact ⟨hx, hbc⟩

/-- A trail comes to every place on it, and goes on from there. -/
theorem split_of_mem (h : Trail Leads a l c) (hb : b ∈ l ++ [c]) :
    ∃ l₁ l₂, l = l₁ ++ l₂ ∧ Trail Leads a l₁ b ∧ Trail Leads b l₂ c := by
  rcases List.mem_append.1 hb with hl | hc
  · obtain ⟨l₁, l₂, rfl⟩ := List.append_of_mem hl
    obtain ⟨x, hx, hrest⟩ := h.split
    cases hrest with
    | on hxy hrest => exact ⟨l₁, _, rfl, hx, .on hxy hrest⟩
  · obtain rfl := List.mem_singleton.1 hc
    exact ⟨l, [], (List.append_nil l).symm, h, .here b⟩

/-- A trail is where it starts. -/
theorem start_mem (h : Trail Leads a l c) : a ∈ l ++ [c] := by
  cases h with
  | here => exact List.mem_singleton_self a
  | on _ _ => exact List.mem_cons_self

/-- Every place that a trail leaves leads to another. -/
theorem exists_leads_of_mem (h : Trail Leads a l c) (hb : b ∈ l) : ∃ b', Leads b b' := by
  obtain ⟨l₁, l₂, rfl⟩ := List.append_of_mem hb
  obtain ⟨x, -, hrest⟩ := h.split
  cases hrest with
  | on hxy _ => exact ⟨_, hxy⟩

/-- A trail to a place of some kind has come to a first one. -/
theorem exists_first {P : α → Prop} (h : Trail Leads a l c) (hc : P c) :
    ∃ l' c', Trail Leads a l' c' ∧ l'.length ≤ l.length ∧ (∀ b ∈ l', ¬ P b) ∧ P c' := by
  induction h with
  | here a => exact ⟨[], a, .here a, Nat.le_refl 0, by simp, hc⟩
  | @on a b c passed hab _ ih =>
    by_cases ha : P a
    · exact ⟨[], a, .here a, Nat.zero_le _, by simp, ha⟩
    · obtain ⟨l', c', hrest, hle, hno, hc'⟩ := ih hc
      exact ⟨a :: l', c', .on hab hrest, Nat.succ_le_succ hle,
        List.forall_mem_cons.2 ⟨ha, hno⟩, hc'⟩

/-! ## Where there is only one way to go -/

/-- **Of two trails from one place the shorter is the beginning of the
longer.** -/
theorem split_of_length_le (hdet : Relator.RightUnique Leads) (h : Trail Leads a l b)
    (h' : Trail Leads a l' c) (hle : l.length ≤ l'.length) :
    ∃ rest, l' = l ++ rest ∧ Trail Leads b rest c := by
  induction h generalizing l' with
  | here => exact ⟨l', rfl, h'⟩
  | on hab _ ih =>
    cases h' with
    | here => exact absurd hle (by simp)
    | on hab' hrest' =>
      -- both take the one step that there is
      obtain rfl := hdet hab hab'
      obtain ⟨rest, rfl, hrest⟩ := ih hrest' (by simpa using hle)
      exact ⟨rest, rfl, hrest⟩

/-- So are the places on it, with the one that it gets to. -/
theorem prefix_of_length_le (hdet : Relator.RightUnique Leads) (h : Trail Leads a l b)
    (h' : Trail Leads a l' c) (hle : l.length ≤ l'.length) : l ++ [b] <+: l' ++ [c] := by
  obtain ⟨rest, rfl, hrest⟩ := split_of_length_le hdet h h' hle
  rw [List.append_assoc, List.prefix_append_right_inj]
  cases hrest with
  | here => exact List.prefix_rfl
  | on _ _ => exact ⟨_, rfl⟩

/-- No trail gets past a dead end. -/
theorem split_of_dead_end (hdet : Relator.RightUnique Leads) (h : Trail Leads a l b)
    (hend : ∀ x, ¬ Leads b x) (h' : Trail Leads a l' c) :
    ∃ rest, l = l' ++ rest ∧ Trail Leads c rest b := by
  rcases Nat.le_total l'.length l.length with hle | hle
  · exact split_of_length_le hdet h' h hle
  · obtain ⟨rest, rfl, hrest⟩ := split_of_length_le hdet h h' hle
    cases hrest with
    | here => exact ⟨[], by simp, .here b⟩
    | on hbx _ => exact absurd hbx (hend _)

/-- There is one trail from a place to a dead end. -/
theorem eq_of_dead_ends (hdet : Relator.RightUnique Leads) (h : Trail Leads a l b)
    (hb : ∀ x, ¬ Leads b x) (h' : Trail Leads a l' c) (hc : ∀ x, ¬ Leads c x) :
    l = l' ∧ b = c := by
  obtain ⟨rest, rfl, hrest⟩ := split_of_dead_end hdet h hb h'
  cases hrest with
  | here => exact ⟨by simp, rfl⟩
  | on hcx _ => exact absurd hcx (hc _)

/-- **A trail that gets to a dead end has been nowhere twice.** From the
second time on it would go as it did after the first, and be as far from the
end as then. -/
theorem nodup (hdet : Relator.RightUnique Leads) (h : Trail Leads a l c)
    (hend : ∀ x, ¬ Leads c x) : (l ++ [c]).Nodup := by
  induction h with
  | here => simp
  | @on a b c passed hab hrest ih =>
    refine List.nodup_cons.2 ⟨fun hmem => ?_, ih hend⟩
    obtain ⟨l₁, l₂, rfl, -, hagain⟩ := hrest.split_of_mem hmem
    -- two trails from the same place to the end, one of them shorter
    have heq : a :: (l₁ ++ l₂) = l₂ := (eq_of_dead_ends hdet (.on hab hrest) hend hagain hend).1
    have hlen := congrArg List.length heq
    simp only [List.length_cons, List.length_append] at hlen
    omega

/-! ## Coming back -/

/-- Where no trail comes back to a place that it has left, none has been
anywhere twice. -/
theorem nodup_of_forall_not_mem (hno : ∀ l' c', Trail Leads a l' c' → c' ∉ l')
    (h : Trail Leads a l c) : (l ++ [c]).Nodup := by
  -- from the end: what a trail leaves is a trail to the last place left
  induction l using List.reverseRecOn generalizing c with
  | nil => simp
  | append_singleton l b ih =>
    refine List.nodup_append.2 ⟨ih h.of_concat.1, by simp, ?_⟩
    rintro x hx y hy rfl
    obtain rfl := List.mem_singleton.1 hy
    exact hno _ _ h hx

/-- So a trail that has been somewhere twice has come back to a place. -/
theorem exists_return (h : Trail Leads a l c) (hdup : ¬ (l ++ [c]).Nodup) :
    ∃ l' c', Trail Leads a l' c' ∧ c' ∈ l' := by
  by_contra hno
  exact hdup (nodup_of_forall_not_mem (fun l' c' h' hc' => hno ⟨l', c', h', hc'⟩) h)

end Trail

end Workflow
