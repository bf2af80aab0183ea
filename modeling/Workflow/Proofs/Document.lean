import Workflow.DataFlow
import Workflow.Proofs.Segment
/-!
# Workflow — documents that are written to

Writing to a value at a path that is not empty writes to the one part that the
first segment leads to, a missing one counting as null, and keeps every other
part (`Json.write_cons`). So a place is read as before if the path that is
written parts from the way to it (`Json.at?_write_of_diverges`).
-/

namespace Workflow

namespace Path

/-- Two paths part somewhere: neither goes on from the other. -/
def Diverges (p q : Path) : Prop :=
  ¬ p <+: q ∧ ¬ q <+: p

instance (p q : Path) : Decidable (p.Diverges q) :=
  inferInstanceAs (Decidable (¬ p <+: q ∧ ¬ q <+: p))

theorem Diverges.symm {p q : Path} (h : p.Diverges q) : q.Diverges p :=
  And.symm h

/-- Paths with one first segment part after it. -/
theorem diverges_cons_iff {s : Segment} {p q : Path} :
    Diverges (s :: p) (s :: q) ↔ p.Diverges q := by
  simp [Diverges, List.cons_prefix_cons]

end Path

namespace Json

variable {v v' new : Json} {p q rest : Path} {s : Segment}

/-- **Writing further on writes to one part.** -/
theorem write_cons (h : v.write (s :: rest) new = .ok v') :
    ∃ part, ((v.child? s).getD null).write rest new = .ok part ∧
      ∀ t, v'.child? t = if t = s then some part else v.child? t := by
  obtain ⟨inner, part, hinner, hpart, rfl⟩ := write_cons_eq_ok_iff.1 h
  exact ⟨part, eq_of_part hinner ▸ hpart, child?_put hinner part⟩

/-- Nothing is read further on where there is null. -/
theorem at?_null_of_ne_nil (h : p ≠ []) : null.at? p = none := by
  cases p with
  | nil => exact absurd rfl h
  | cons s rest => rfl

/-- **A place is read as before if the path that is written parts from the way
to it**, also where the way is made by the writing. -/
theorem at?_write_of_diverges (h : v.write p new = .ok v') (hpq : p.Diverges q) :
    v'.at? q = v.at? q := by
  induction p generalizing v v' q with
  | nil => exact absurd List.nil_prefix hpq.1
  | cons s rest ih =>
    cases q with
    | nil => exact absurd List.nil_prefix hpq.2
    | cons t more =>
      obtain ⟨part, hpart, hchild⟩ := write_cons h
      rw [at?, at?, hchild]
      by_cases hts : t = s
      · subst hts
        have hmore : Path.Diverges rest more := Path.diverges_cons_iff.1 hpq
        rw [if_pos rfl, Option.bind_some, ih hpart hmore]
        cases hc : v.child? t with
        | some c => rfl
        | none =>
          have hne : more ≠ [] := fun hnil => hmore.2 (hnil ▸ List.nil_prefix)
          exact at?_null_of_ne_nil hne
      · rw [if_neg hts]

/-- A missing value reads further on as null does. -/
theorem getD_at?_cons (v : Json) (s : Segment) (p : Path) :
    (v.at? (s :: p)).getD null = (((v.child? s).getD null).at? p).getD null := by
  cases hc : v.child? s with
  | some c => simp [at?, hc]
  | none =>
    by_cases hp : p = []
    · subst hp
      simp [at?, hc]
    · simp [at?, hc, at?_null_of_ne_nil hp]

/-- **A place on the way to one that is written to** holds what stood there,
written to further on; a missing value counts as null. -/
theorem at?_write_append (h : v.write (q ++ rest) new = .ok v') :
    ∃ w, ((v.at? q).getD null).write rest new = .ok w ∧ v'.at? q = some w := by
  induction q generalizing v v' with
  | nil => exact ⟨v', h, rfl⟩
  | cons s more ih =>
    obtain ⟨part, hpart, hchild⟩ := write_cons h
    obtain ⟨w, hw, hplace⟩ := ih hpart
    refine ⟨w, by rwa [getD_at?_cons], ?_⟩
    rw [at?, hchild, if_pos rfl]
    exact hplace

end Json

/-! ## Paths that are given as texts -/

/-- A fault refuses a path for a reason: it hands out the path, and its words are
the path and the reason. -/
structure Fault.RefusesPath (fault : Fault) (path reason : String) : Prop where
  family : fault.family = .invalidPath
  details : fault.details = [("path", .str path)]
  message : fault.message = some ("Invalid path '" ++ path ++ "': " ++ reason)

/-- What is wrong with a path is the reason that it is refused for. -/
theorem Fault.refusesPath (path : String) (problem : PathProblem) :
    (Fault.invalidPath path problem).RefusesPath path problem.text :=
  ⟨rfl, rfl, rfl⟩

namespace Json

/-- A document that is written to at a text is written to at the path that the
text gives. -/
theorem exists_write_of_writeAt {document document' value : Json} {path : String}
    (h : document.writeAt path value = .ok document') :
    ∃ p, Path.parse path = .ok p ∧ document.write p value = .ok document' := by
  obtain ⟨p, hp, hwrite⟩ := Except.bind_eq_ok_iff.1 h
  exact ⟨p, Except.mapError_eq_ok_iff.1 hp, Except.mapError_eq_ok_iff.1 hwrite⟩

/-- It is written to there, and fails as that does. -/
theorem writeAt_of_parse {path : String} {p : Path} (h : Path.parse path = .ok p)
    (document value : Json) :
    document.writeAt path value = (document.write p value).mapError (.invalidPath path) := by
  rw [writeAt, readPath, h]
  rfl

/-- Reading a document at the text of a path never fails. -/
theorem readAt_of_parse {path : String} {q : Path} (h : Path.parse path = .ok q)
    (document default : Json) : document.readAt path default = .ok (document.read q default) := by
  rw [readAt, readPath, h]
  rfl

end Json

end Workflow
