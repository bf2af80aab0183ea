import Workflow.Proofs.Document
import Workflow.Proofs.Json.Like
/-!
# Workflow — writing at one place and another

What a document reads after it is written to is settled by how the two paths
lie (`Json.readAt_writeAt`). Paths that part do not get in each other's way: what
is written at one changes nothing in how the other is written
(`Json.write_rel_of_diverges`), and either may be written first
(`Json.write_comm_of_diverges`). What is written at one path leaves nothing of what
was written there before (`Json.write_write`).
-/

namespace Workflow

namespace Json

variable {d d₁ d₂ d₁₂ d₂₁ v w : Json} {p q : Path}

/-! ## Reading after writing -/

/-- What is written reads on from its place as it does by itself. -/
theorem at?_write_self (h : d.write p v = .ok d₁) (rest : Path) :
    d₁.at? (p ++ rest) = v.at? rest := by
  rw [← List.append_nil p] at h
  obtain ⟨w, hw, hplace⟩ := at?_write_append h
  cases hw
  rw [at?_append, hplace, Option.bind_some]

/-- **What a document reads once it is written to.** At the place itself it
reads what was written, and further on what that reads there. On the way to the
place it reads what it read, null for nothing, with the rest of the path written,
which does not fail. Where the ways part it reads what it read, also where the
writing made the way. -/
theorem readAt_writeAt {path path' : String} {p q : Path} {d d₁ v : Json}
    (hp : Path.parse path = .ok p) (hq : Path.parse path' = .ok q)
    (h : d.writeAt path v = .ok d₁) :
    (∀ default, d₁.readAt path default = .ok v) ∧
    (∀ rest, q = p ++ rest →
      ∀ default, d₁.readAt path' default = .ok (v.read rest default)) ∧
    (∀ rest, p = q ++ rest → ∃ u w, d.readAt path' null = .ok u ∧ u.write rest v = .ok w ∧
      ∀ default, d₁.readAt path' default = .ok w) ∧
    (p.Diverges q → ∀ default, d₁.readAt path' default = d.readAt path' default) := by
  have hwrite : d.write p v = .ok d₁ := by
    rw [writeAt_of_parse hp] at h
    exact Except.mapError_eq_ok_iff.1 h
  have hself (rest : Path) (default : Json) : d₁.read (p ++ rest) default = v.read rest default :=
    congrArg (Option.getD · default) (at?_write_self hwrite rest)
  refine ⟨?_, ?_, ?_, ?_⟩
  · intro default
    rw [readAt_of_parse hp, ← List.append_nil p, hself]
    rfl
  · rintro rest rfl default
    rw [readAt_of_parse hq, hself]
  · rintro rest rfl
    obtain ⟨w, hw, hplace⟩ := at?_write_append hwrite
    refine ⟨d.read q null, w, readAt_of_parse hq d null, hw, fun default => ?_⟩
    rw [readAt_of_parse hq, read, hplace]
    rfl
  · intro hpq default
    rw [readAt_of_parse hq, readAt_of_parse hq, read, read, at?_write_of_diverges hwrite hpq]

/-- A document with a member to go through and one to make. -/
def parcel : Json :=
  .obj [("to", .obj [("name", .str "a")]), ("tags", .arr [.int 1, .null])]

/-- The parcel is read further on than it is written, on the way and elsewhere. -/
theorem parcel_readAt_writeAt :
    (∃ d₁, parcel.writeAt "$.to.at" (.obj [("zip", .int 9)]) = .ok d₁ ∧
      d₁.readAt "$.to.at.zip" .null = .ok (.int 9)) ∧
    (∃ d₁, parcel.writeAt "$.tags[1].made" (.int 2) = .ok d₁ ∧
      ∃ u w, parcel.readAt "$.tags" .null = .ok u ∧
        u.write [.index 1, .key "made"] (.int 2) = .ok w ∧
        ∀ default, d₁.readAt "$.tags" default = .ok w) ∧
    ∃ d₁, parcel.writeAt "$.tags[1].made" (.int 2) = .ok d₁ ∧
      ∀ default, d₁.readAt "$.tags[1].kept" default = parcel.readAt "$.tags[1].kept" default := by
  have hat : Path.parse "$.to.at" = .ok [.key "to", .key "at"] := by with_unfolding_all rfl
  have hzip : Path.parse "$.to.at.zip" = .ok [.key "to", .key "at", .key "zip"] := by
    with_unfolding_all rfl
  have hmade : Path.parse "$.tags[1].made" = .ok [.key "tags", .index 1, .key "made"] := by
    with_unfolding_all rfl
  have hkept : Path.parse "$.tags[1].kept" = .ok [.key "tags", .index 1, .key "kept"] := by
    with_unfolding_all rfl
  have htags : Path.parse "$.tags" = .ok [.key "tags"] := by with_unfolding_all rfl
  have hto : ∃ d₁, parcel.writeAt "$.to.at" (.obj [("zip", .int 9)]) = .ok d₁ :=
    ⟨_, by rw [writeAt_of_parse hat]; rfl⟩
  have hnull : ∃ d₁, parcel.writeAt "$.tags[1].made" (.int 2) = .ok d₁ :=
    ⟨_, by rw [writeAt_of_parse hmade]; rfl⟩
  obtain ⟨d₁, h₁⟩ := hto
  obtain ⟨d₂, h₂⟩ := hnull
  refine ⟨⟨d₁, h₁, ?_⟩, ⟨d₂, h₂, ?_⟩, ⟨d₂, h₂, ?_⟩⟩
  · exact (readAt_writeAt hat hzip h₁).2.1 [.key "zip"] rfl .null
  · exact (readAt_writeAt hmade htags h₂).2.2.1 [.index 1, .key "made"] rfl
  · exact (readAt_writeAt hmade hkept h₂).2.2.2 (by decide)

/-! ## Writing after writing -/

/-- **What is written where the ways part changes nothing in whether a document
is written to**, or for what reason it is not. -/
theorem write_rel_of_diverges (h : d.write p v = .ok d₁) (hpq : p.Diverges q) (w : Json) :
    Except.Rel (fun _ _ => True) (d₁.write q w) (d.write q w) := by
  induction p generalizing d d₁ q with
  | nil => exact absurd List.nil_prefix hpq.1
  | cons s rest ih =>
    cases q with
    | nil => exact absurd List.nil_prefix hpq.2
    | cons t more =>
      obtain ⟨inner, inner', hpart, hinner, rfl⟩ := write_cons_eq_ok_iff.1 h
      rw [write_cons_eq, write_cons_eq]
      by_cases hts : t = s
      · -- both go on from one part
        subst hts
        rw [part_put hpart, hpart]
        exact (ih hinner (Path.diverges_cons_iff.1 hpq)).map fun _ _ _ => trivial
      · -- the other part is as it was
        rw [part_put_of_ne hpart hts]
        refine Except.Rel.of_bind fun part => ?_
        cases part.write more w with
        | error problem => exact .error problem
        | ok inner => exact .ok trivial

/-- **Where the ways part either may be written first.** -/
theorem write_comm_of_diverges (hpq : p.Diverges q) (h₁ : d.write p v = .ok d₁)
    (h₁₂ : d₁.write q w = .ok d₁₂) (h₂ : d.write q w = .ok d₂) (h₂₁ : d₂.write p v = .ok d₂₁) :
    Reordered d₁₂ d₂₁ := by
  induction p generalizing d d₁ d₁₂ d₂ d₂₁ q with
  | nil => exact absurd List.nil_prefix hpq.1
  | cons s rest ih =>
    cases q with
    | nil => exact absurd List.nil_prefix hpq.2
    | cons t more =>
      obtain ⟨x, x₁, hx, hx₁, rfl⟩ := write_cons_eq_ok_iff.1 h₁
      obtain ⟨y, y₂, hy, hy₂, rfl⟩ := write_cons_eq_ok_iff.1 h₂
      obtain ⟨y', y₁₂, hy', hy₁₂, rfl⟩ := write_cons_eq_ok_iff.1 h₁₂
      obtain ⟨x', x₂₁, hx', hx₂₁, rfl⟩ := write_cons_eq_ok_iff.1 h₂₁
      by_cases hts : t = s
      · -- both go on from one part, and the last that is put stays
        subst hts
        obtain rfl : x = y := Except.ok.inj (hx.symm.trans hy)
        obtain rfl : x₁ = y' := Except.ok.inj ((part_put hx x₁).symm.trans hy')
        obtain rfl : y₂ = x' := Except.ok.inj ((part_put hx y₂).symm.trans hx')
        rw [put_put, put_put]
        have hinner := ih (Path.diverges_cons_iff.1 hpq) hx₁ hy₁₂ hy₂ hx₂₁
        exact (Reordered.refl d).put keepsNull_eq hinner hx
      · -- each is put at a segment of its own
        rw [part_put_of_ne hx hts, hy] at hy'
        obtain rfl := Except.ok.inj hy'
        rw [part_put_of_ne hy (Ne.symm hts), hx] at hx'
        obtain rfl := Except.ok.inj hx'
        obtain rfl : y₂ = y₁₂ := Except.ok.inj (hy₂.symm.trans hy₁₂)
        obtain rfl : x₁ = x₂₁ := Except.ok.inj (hx₁.symm.trans hx₂₁)
        exact put_comm hx hy (Ne.symm hts) x₁ y₂

/-- **Writes where the ways part are independent.** After the one the other
comes to a document exactly if it does before, and fails by the same fault
otherwise. So one after the other they come to a document in both orders or in
neither, and the two documents are equal but for the order of members. -/
theorem writeAt_writeAt {path path' : String} {p q : Path} (hp : Path.parse path = .ok p)
    (hq : Path.parse path' = .ok q) (hpq : p.Diverges q) (d v w : Json) :
    (∀ d₁, d.writeAt path v = .ok d₁ →
      ((∃ d₂, d₁.writeAt path' w = .ok d₂) ↔ ∃ d₂, d.writeAt path' w = .ok d₂) ∧
      ∀ fault, d₁.writeAt path' w = .error fault ↔ d.writeAt path' w = .error fault) ∧
    ((∃ d₂, d.writeAt path v >>= (writeAt · path' w) = .ok d₂) ↔
      ∃ d₂, d.writeAt path' w >>= (writeAt · path v) = .ok d₂) ∧
    ∀ d₁₂ d₂₁, d.writeAt path v >>= (writeAt · path' w) = .ok d₁₂ →
      d.writeAt path' w >>= (writeAt · path v) = .ok d₂₁ → Reordered d₁₂ d₂₁ := by
  have hpath (x : Json) {y : Json} : x.writeAt path v = .ok y ↔ x.write p v = .ok y := by
    rw [writeAt_of_parse hp, Except.mapError_eq_ok_iff]
  have hpath' (x : Json) {y : Json} : x.writeAt path' w = .ok y ↔ x.write q w = .ok y := by
    rw [writeAt_of_parse hq, Except.mapError_eq_ok_iff]
  refine ⟨?_, ?_, ?_⟩
  · intro d₁ h₁
    have hrel := (write_rel_of_diverges ((hpath d).1 h₁) hpq w).mapError (Fault.invalidPath path')
    rw [← writeAt_of_parse hq, ← writeAt_of_parse hq] at hrel
    exact ⟨hrel.exists_ok_iff, fun fault => hrel.eq_error_iff⟩
  · simp only [Except.bind_eq_ok_iff, hpath, hpath']
    constructor
    · rintro ⟨d₁₂, d₁, h₁, h₁₂⟩
      obtain ⟨d₂, h₂⟩ := (write_rel_of_diverges h₁ hpq w).exists_ok_iff.1 ⟨d₁₂, h₁₂⟩
      obtain ⟨d₂₁, h₂₁⟩ := (write_rel_of_diverges h₂ hpq.symm v).exists_ok_iff.2 ⟨d₁, h₁⟩
      exact ⟨d₂₁, d₂, h₂, h₂₁⟩
    · rintro ⟨d₂₁, d₂, h₂, h₂₁⟩
      obtain ⟨d₁, h₁⟩ := (write_rel_of_diverges h₂ hpq.symm v).exists_ok_iff.1 ⟨d₂₁, h₂₁⟩
      obtain ⟨d₁₂, h₁₂⟩ := (write_rel_of_diverges h₁ hpq w).exists_ok_iff.2 ⟨d₂, h₂⟩
      exact ⟨d₁₂, d₁, h₁, h₁₂⟩
  · intro d₁₂ d₂₁ h h'
    obtain ⟨d₁, h₁, h₁₂⟩ := Except.bind_eq_ok_iff.1 h
    obtain ⟨d₂, h₂, h₂₁⟩ := Except.bind_eq_ok_iff.1 h'
    exact write_comm_of_diverges hpq ((hpath d).1 h₁) ((hpath' d₁).1 h₁₂) ((hpath' d).1 h₂)
      ((hpath d₂).1 h₂₁)

/-- Two members are made in one place that is null, in either order. -/
theorem parcel_writeAt_writeAt :
    (∀ d₁, parcel.writeAt "$.tags[1].a" (.int 2) = .ok d₁ →
      ((∃ d₂, d₁.writeAt "$.tags[1].b" (.int 3) = .ok d₂) ↔
        ∃ d₂, parcel.writeAt "$.tags[1].b" (.int 3) = .ok d₂) ∧
      ∀ fault, d₁.writeAt "$.tags[1].b" (.int 3) = .error fault ↔
        parcel.writeAt "$.tags[1].b" (.int 3) = .error fault) ∧
    ∃ d₁₂ d₂₁, parcel.writeAt "$.tags[1].a" (.int 2) >>= (writeAt · "$.tags[1].b" (.int 3)) =
        .ok d₁₂ ∧
      parcel.writeAt "$.tags[1].b" (.int 3) >>= (writeAt · "$.tags[1].a" (.int 2)) = .ok d₂₁ ∧
      d₁₂ ≠ d₂₁ ∧ Reordered d₁₂ d₂₁ := by
  have ha : Path.parse "$.tags[1].a" = .ok [.key "tags", .index 1, .key "a"] := by
    with_unfolding_all rfl
  have hb : Path.parse "$.tags[1].b" = .ok [.key "tags", .index 1, .key "b"] := by
    with_unfolding_all rfl
  have hab := writeAt_writeAt ha hb (by decide) parcel (.int 2) (.int 3)
  have h₁₂ : parcel.writeAt "$.tags[1].a" (.int 2) >>= (writeAt · "$.tags[1].b" (.int 3)) =
      .ok (.obj [("to", .obj [("name", .str "a")]),
        ("tags", .arr [.int 1, .obj [("a", .int 2), ("b", .int 3)]])]) := by
    simp only [writeAt_of_parse ha, writeAt_of_parse hb]
    rfl
  have h₂₁ : parcel.writeAt "$.tags[1].b" (.int 3) >>= (writeAt · "$.tags[1].a" (.int 2)) =
      .ok (.obj [("to", .obj [("name", .str "a")]),
        ("tags", .arr [.int 1, .obj [("b", .int 3), ("a", .int 2)]])]) := by
    simp only [writeAt_of_parse ha, writeAt_of_parse hb]
    rfl
  exact ⟨hab.1, _, _, h₁₂, h₂₁, by simp, hab.2.2 _ _ h₁₂ h₂₁⟩

/-! ## Writing again -/

/-- **Whether a document is written to, and for what reason it is not, does not
depend on what is written.** -/
theorem write_rel (d : Json) (p : Path) (v w : Json) :
    Except.Rel (fun _ _ => True) (d.write p v) (d.write p w) := by
  induction p generalizing d with
  | nil => exact .ok trivial
  | cons s rest ih =>
    rw [write_cons_eq, write_cons_eq]
    exact Except.Rel.of_bind fun inner => (ih inner).map fun _ _ _ => trivial

/-- **Writing what a document holds already gives the document.** -/
theorem write_of_at? {u : Json} (h : d.at? p = some u) : d.write p u = .ok d := by
  induction p generalizing d with
  | nil =>
    obtain rfl : d = u := Option.some.inj h
    rfl
  | cons s rest ih =>
    obtain ⟨inner, hchild, hinner⟩ := Option.bind_eq_some_iff.1 h
    obtain ⟨hpart, hput⟩ := put_of_child? hchild
    exact write_cons_eq_ok_iff.2 ⟨inner, inner, hpart, ih hinner, hput⟩

/-- **Writing in a place that is written to already is writing there at first.** -/
theorem write_write (h : d.write p v = .ok d₁) (w : Json) : d₁.write p w = d.write p w := by
  induction p generalizing d d₁ with
  | nil => rfl
  | cons s rest ih =>
    obtain ⟨inner, inner', hpart, hinner, rfl⟩ := write_cons_eq_ok_iff.1 h
    have hput : (d.put s inner').put s = d.put s := funext fun new => put_put d s inner' new
    have hgo (x : Json) {y : Json} (hy : x.part s = .ok y) :
        x.write (s :: rest) w = x.put s <$> y.write rest w := by
      rw [write_cons_eq, hy]
      rfl
    calc (d.put s inner').write (s :: rest) w
        = (d.put s inner').put s <$> inner'.write rest w := hgo _ (part_put hpart inner')
      _ = d.put s <$> inner.write rest w := by rw [hput, ih hinner]
      _ = d.write (s :: rest) w := (hgo d hpart).symm

/-- **Nothing shows how a value came to its place.** A document that holds a
value at a path is left exactly as it is if the value is written there, the order
of members included. A document that is written to can be written to at the same
path again, and comes to what it comes to without the first writing. -/
theorem writeAt_leaves_no_trace {path : String} {p : Path} (hp : Path.parse path = .ok p)
    (d v w : Json) :
    (∀ u, d.at? p = some u → d.writeAt path u = .ok d) ∧
    ∀ d₁, d.writeAt path v = .ok d₁ →
      ∃ d₂, d₁.writeAt path w = .ok d₂ ∧ d.writeAt path w = .ok d₂ := by
  have hpath (x y : Json) {z : Json} : x.writeAt path y = .ok z ↔ x.write p y = .ok z := by
    rw [writeAt_of_parse hp, Except.mapError_eq_ok_iff]
  refine ⟨fun u hu => (hpath d u).2 (write_of_at? hu), fun d₁ h => ?_⟩
  have hfirst : d.write p v = .ok d₁ := (hpath d v).1 h
  obtain ⟨d₂, h₂⟩ := (write_rel d p v w).exists_ok_iff.1 ⟨d₁, hfirst⟩
  refine ⟨d₂, (hpath d₁ w).2 ?_, (hpath d w).2 h₂⟩
  rw [write_write hfirst w, h₂]

/-- The parcel is left as it is, null or not, and a way that is made is made
once. -/
theorem parcel_leaves_no_trace :
    parcel.writeAt "$.tags[1]" .null = .ok parcel ∧
    (∃ d₁, parcel.writeAt "$.to.at.zip" (.int 9) = .ok d₁ ∧
      ∃ d₂, d₁.writeAt "$.to.at.zip" .null = .ok d₂ ∧
        parcel.writeAt "$.to.at.zip" .null = .ok d₂) := by
  have hnull : Path.parse "$.tags[1]" = .ok [.key "tags", .index 1] := by with_unfolding_all rfl
  have hzip : Path.parse "$.to.at.zip" = .ok [.key "to", .key "at", .key "zip"] := by
    with_unfolding_all rfl
  have hmade : ∃ d₁, parcel.writeAt "$.to.at.zip" (.int 9) = .ok d₁ :=
    ⟨_, by rw [writeAt_of_parse hzip]; rfl⟩
  obtain ⟨d₁, h₁⟩ := hmade
  refine ⟨(writeAt_leaves_no_trace hnull parcel .null .null).1 .null rfl, d₁, h₁, ?_⟩
  exact (writeAt_leaves_no_trace hzip parcel (.int 9) .null).2 d₁ h₁

end Json

end Workflow
