import Workflow.Proofs.Path
import Workflow.Proofs.Writing
/-!
# Workflow — what stands in the way of a write

A document is written to at a path unless it holds something on the way that the
path cannot go through, and what it holds on the way is what reading finds there,
null for nothing (`Json.onWay`). The two walk the document in different manners: a
null stops a read at once, while a write makes an object of it where a member is
asked for. They agree all the same as far as the write comes
(`Json.stopsAt_cons_succ`), so the first obstacle is where and why it fails
(`Json.exists_firstStop_of_write`).
-/

namespace Workflow

namespace Json

variable {d d₁ v inner : Json} {s : Segment} {p rest : Path} {k : Nat} {reason : String}

/-- What reading finds behind the first segments of a path, null for nothing. -/
def onWay (d : Json) (p : Path) (k : Nat) : Json :=
  d.read (p.take k) null

/-- A value that a path cannot go through at a segment, and why in words. -/
inductive Obstructs : Json → Segment → String → Prop where
  /-- An element is asked for of something else than a list. -/
  | notList {v : Json} {n : Nat} (h : ∀ items, v ≠ arr items) :
      Obstructs v (.index n) ("index [" ++ toString n ++ "] applied to a non-list value")
  /-- An element is asked for that a list does not have. -/
  | outOfRange {items : List Json} {n : Nat} (h : items.length ≤ n) :
      Obstructs (arr items) (.index n) ("index [" ++ toString n ++ "] is out of range")
  /-- A member is asked for of what is neither an object nor null. -/
  | notObject {v : Json} {name : String} (hnull : v ≠ null) (hobj : ∀ members, v ≠ obj members) :
      Obstructs v (.key name) ("member '" ++ name ++ "' applied to a non-object value")

/-- What a document holds behind the first `k` segments of a path obstructs the
next one. -/
def StopsAt (d : Json) (p : Path) (k : Nat) (reason : String) : Prop :=
  ∃ s, p[k]? = some s ∧ (d.onWay p k).Obstructs s reason

/-- And nothing before does. -/
def FirstStop (d : Json) (p : Path) (k : Nat) (reason : String) : Prop :=
  d.StopsAt p k reason ∧ ∀ j < k, ∀ other, ¬ d.StopsAt p j other

/-- **What has no part at a segment obstructs it**, and nothing else does. -/
theorem obstructs_iff :
    v.Obstructs s reason ↔ ∃ problem, v.part s = .error problem ∧ problem.text = reason := by
  constructor
  · rintro (hlist | hrange | ⟨hnull, hobj⟩)
    · refine ⟨.notList _, ?_, rfl⟩
      cases v with
      | arr items => exact absurd rfl (hlist items)
      | _ => rfl
    · refine ⟨.outOfRange _, ?_, rfl⟩
      simp [part, items?, hrange]
    · refine ⟨.notObject _, ?_, rfl⟩
      cases v with
      | null => exact absurd rfl hnull
      | obj members => exact absurd rfl (hobj members)
      | _ => rfl
  · rintro ⟨problem, hpart, rfl⟩
    cases s with
    | index n =>
      cases v with
      | arr items =>
        cases hitem : items[n]? with
        | some item => simp [part, items?, hitem] at hpart
        | none =>
          obtain rfl : PathProblem.outOfRange n = problem := by
            simpa [part, items?, hitem] using hpart
          exact .outOfRange (List.getElem?_eq_none_iff.1 hitem)
      | _ =>
        cases hpart
        refine .notList fun items hitems => ?_
        cases hitems
    | key name =>
      cases v with
      | null | obj members => cases hpart
      | _ =>
        cases hpart
        refine .notObject (fun hnull => ?_) fun members hmembers => ?_
        · cases hnull
        · cases hmembers

/-! ## Along the way -/

/-- The document itself is what is written to first. -/
theorem stopsAt_cons_zero : d.StopsAt (s :: rest) 0 reason ↔ d.Obstructs s reason := by
  simp [StopsAt, onWay, read, at?]

/-- **Past a segment, reading finds what is written to there.** -/
theorem onWay_cons_succ (h : d.part s = .ok inner) (rest : Path) (k : Nat) :
    d.onWay (s :: rest) (k + 1) = inner.onWay rest k := by
  rw [onWay, List.take_succ_cons, read, getD_at?_cons, ← eq_of_part h]
  rfl

theorem stopsAt_cons_succ (h : d.part s = .ok inner) :
    d.StopsAt (s :: rest) (k + 1) reason ↔ inner.StopsAt rest k reason := by
  simp [StopsAt, onWay_cons_succ h]

/-- A document with a part at a segment does not obstruct it. -/
theorem not_stopsAt_cons_zero (h : d.part s = .ok inner) (reason : String) :
    ¬ d.StopsAt (s :: rest) 0 reason := by
  rw [stopsAt_cons_zero, obstructs_iff]
  rintro ⟨problem, herror, -⟩
  cases h.symm.trans herror

/-- **A write fails at the first obstacle**, and for its reason. -/
theorem exists_firstStop_of_write {problem : PathProblem} (h : d.write p v = .error problem) :
    ∃ k, d.FirstStop p k problem.text := by
  induction p generalizing d with
  | nil => cases h
  | cons s rest ih =>
    rw [write_cons_eq] at h
    obtain hpart | ⟨inner, hpart, hrest⟩ := Except.bind_eq_error_iff.1 h
    · have hstop : d.Obstructs s problem.text := obstructs_iff.2 ⟨problem, hpart, rfl⟩
      exact ⟨0, stopsAt_cons_zero.2 hstop, nofun⟩
    · obtain ⟨k, hstop, hfirst⟩ := ih (Except.map_eq_error_iff.1 hrest)
      refine ⟨k + 1, (stopsAt_cons_succ hpart).2 hstop, fun j hj other hother => ?_⟩
      cases j with
      | zero => exact not_stopsAt_cons_zero hpart other hother
      | succ j => exact hfirst j (by omega) other ((stopsAt_cons_succ hpart).1 hother)

/-- A write that does not fail meets no obstacle. -/
theorem not_stopsAt_of_write (h : d.write p v = .ok d₁) (k : Nat) (reason : String) :
    ¬ d.StopsAt p k reason := by
  induction p generalizing d d₁ k with
  | nil => simp [StopsAt]
  | cons s rest ih =>
    obtain ⟨inner, inner', hpart, hwrite, -⟩ := write_cons_eq_ok_iff.1 h
    cases k with
    | zero => exact not_stopsAt_cons_zero hpart reason
    | succ k =>
      rw [stopsAt_cons_succ hpart]
      exact ih hwrite k

/-! ## Paths that are given as texts -/

/-- A path leads somewhere if it is read without the default. -/
theorem at?_eq_some_of_read {u : Json} (h : ∀ default, d.read p default = u) :
    d.at? p = some u := by
  cases hplace : d.at? p with
  | some w => exact congrArg some (by simpa [read, hplace] using h null)
  | none =>
    have hnull : null = u := by simpa [read, hplace] using h null
    have hbool : bool true = u := by simpa [read, hplace] using h (bool true)
    cases hnull.trans hbool.symm

/-- What is found on the way is read at the text of the way. -/
theorem readAt_text_take {path : String} (hp : Path.parse path = .ok p) (d : Json) (k : Nat) :
    d.readAt (Path.text (p.take k)) null = .ok (d.onWay p k) := by
  obtain ⟨pieces, -, hpieces⟩ := Path.parse_eq_ok_iff.1 hp
  have hplain : ∀ s ∈ p.take k, s.Plain := fun s hs =>
    Path.plain_of_legible hpieces s (List.mem_of_mem_take hs)
  refine readAt_of_parse (Path.parse_eq_ok_iff.2 ⟨_, ?_, Path.legible_text hplain⟩) d null
  rw [Path.text, String.toList_ofList, List.flatMap_def]

/-- **A write fails exactly where the document obstructs the path.** It fails if
what reading finds behind some of the segments, null for nothing, obstructs the
next one, and the first of these is its reason. What is written makes no
difference, and where a path is read it can be written. -/
theorem writeAt_fails_at_first_stop {path : String} (hp : Path.parse path = .ok p) (d v : Json) :
    ((∃ fault, d.writeAt path v = .error fault) ↔ ∃ k reason, d.StopsAt p k reason) ∧
    (∀ fault, d.writeAt path v = .error fault →
      ∃ k reason, d.FirstStop p k reason ∧ fault.RefusesPath path reason) ∧
    (∀ w, Except.Rel (fun _ _ => True) (d.writeAt path v) (d.writeAt path w)) ∧
    (∀ u, (∀ default, d.readAt path default = .ok u) → ∃ d₁, d.writeAt path v = .ok d₁) ∧
    ∀ k, d.readAt (Path.text (p.take k)) null = .ok (d.onWay p k) := by
  have hpath := writeAt_of_parse hp d
  refine ⟨⟨?_, ?_⟩, ?_, ?_, ?_, readAt_text_take hp d⟩
  · rintro ⟨fault, hfault⟩
    rw [hpath, Except.mapError_eq_error_iff] at hfault
    obtain ⟨problem, hwrite, -⟩ := hfault
    obtain ⟨k, hstop, -⟩ := exists_firstStop_of_write hwrite
    exact ⟨k, problem.text, hstop⟩
  · rintro ⟨k, reason, hstop⟩
    cases hwrite : d.write p v with
    | ok d₁ => exact absurd hstop (not_stopsAt_of_write hwrite k reason)
    | error problem => exact ⟨.invalidPath path problem, by rw [hpath, hwrite]; rfl⟩
  · intro fault hfault
    rw [hpath, Except.mapError_eq_error_iff] at hfault
    obtain ⟨problem, hwrite, rfl⟩ := hfault
    obtain ⟨k, hfirst⟩ := exists_firstStop_of_write hwrite
    exact ⟨k, problem.text, hfirst, Fault.refusesPath path problem⟩
  · intro w
    rw [hpath, hpath]
    exact (write_rel d p v w).mapError _
  · intro u hu
    have hplace : d.at? p = some u := at?_eq_some_of_read fun default =>
      Except.ok.inj ((readAt_of_parse hp d default).symm.trans (hu default))
    obtain ⟨d₁, hwrite⟩ := (write_rel d p u v).exists_ok_iff.1 ⟨d, write_of_at? hplace⟩
    exact ⟨d₁, by rw [hpath, hwrite]; rfl⟩

/-- The null of the parcel is made an object, but an element of a member that it
does not have is asked for in vain; the null itself can be written over. -/
theorem parcel_writeAt_fails_at_first_stop :
    (∃ fault, parcel.writeAt "$.tags[1].a[0]" (.int 2) = .error fault ∧
      ∃ k reason, parcel.FirstStop [.key "tags", .index 1, .key "a", .index 0] k reason ∧
        fault.RefusesPath "$.tags[1].a[0]" reason) ∧
    (∀ default, parcel.readAt "$.tags[1]" default = .ok .null) ∧
    ∃ d₁, parcel.writeAt "$.tags[1]" (.int 2) = .ok d₁ := by
  have helement : Path.parse "$.tags[1].a[0]" =
      .ok [.key "tags", .index 1, .key "a", .index 0] := by
    with_unfolding_all rfl
  have hnull : Path.parse "$.tags[1]" = .ok [.key "tags", .index 1] := by with_unfolding_all rfl
  have hread (default : Json) : parcel.readAt "$.tags[1]" default = .ok .null :=
    readAt_of_parse hnull parcel default
  have hstop : parcel.StopsAt [.key "tags", .index 1, .key "a", .index 0] 3
      ("index [" ++ toString 0 ++ "] applied to a non-list value") :=
    ⟨.index 0, rfl, .notList nofun⟩
  obtain ⟨fault, hfault⟩ :=
    (writeAt_fails_at_first_stop helement parcel (.int 2)).1.2 ⟨3, _, hstop⟩
  exact ⟨⟨fault, hfault, (writeAt_fails_at_first_stop helement parcel (.int 2)).2.1 fault hfault⟩,
    hread, (writeAt_fails_at_first_stop hnull parcel (.int 2)).2.2.2.1 .null hread⟩

end Json

end Workflow
