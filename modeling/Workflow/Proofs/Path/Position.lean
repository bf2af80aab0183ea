import Mathlib.Order.Bounds.Defs
import Workflow.Proofs.Document
import Workflow.Proofs.Path
/-!
# Workflow — where a text stops being a path

A text that starts at the document but is no path goes wrong at one character,
and that is the first one behind the longest front of the text that is a path
(`Path.wrong_after_longest_front`). Reading takes the longest piece each time. A
front may end inside the last piece that is read, but nowhere behind it: what
reading leaves over is left over by every front that is a path
(`Path.suffix_of_segments_error`). If what is left over starts with a number that
is too long, the text is refused for that and not for the place.
-/

namespace Workflow

namespace Segment

variable {s : Segment} {piece : List Char}

/-- **A piece at the front of a text is found, or a longer one is**: what is left
is a part of what comes after the piece. -/
theorem exists_front?_append (h : Spelled s piece) (tail : List Char) :
    ∃ t rest, front? (piece ++ tail) = some (t, rest) ∧ rest <:+ tail := by
  cases h with
  | @key name hne hname =>
    -- the name goes on as far as the text goes on with it
    have hrun : ∀ c ∈ tail.takeWhile isKeyChar, c ≠ '.' ∧ c ≠ '[' ∧ c ≠ ']' :=
      fun c hc => isKeyChar_iff.1 (List.mem_takeWhile_imp hc)
    have hlonger : Spelled (.key (String.ofList (name ++ tail.takeWhile isKeyChar)))
        ('.' :: (name ++ tail.takeWhile isKeyChar)) :=
      .key (by simp [hne]) (List.forall_mem_append.2 ⟨hname, hrun⟩)
    have hends : Ends (tail.dropWhile isKeyChar) := by
      intro c hc
      have hnot := List.head?_dropWhile_not isKeyChar tail
      rw [Option.mem_def.1 hc] at hnot
      simpa using hnot
    have hfront := front?_append hlonger hends
    rw [List.cons_append, List.append_assoc, List.takeWhile_append_dropWhile] at hfront
    exact ⟨_, _, hfront, List.dropWhile_suffix _⟩
  | index h => exact ⟨_, tail, front?_append_index h tail, List.suffix_rfl⟩

end Segment

namespace Path

open Segment (Spelled Legible Ends)

variable {p : Path} {pieces : List (List Char)} {cs tail : List Char} {halt : Halt}
  {text : String} {n : Nat}

/-- **What reading leaves over, every way of taking pieces off leaves over.** -/
theorem suffix_of_segments_error (h : segments cs = .error halt)
    (hp : List.Forall₂ Legible p pieces) (hcs : cs = pieces.flatten ++ tail) :
    halt.left <:+ tail := by
  fun_induction segments cs generalizing p pieces with
  | case1 => cases h
  | case2 c cs hfront =>
    cases h
    cases hp with
    | nil => exact hcs ▸ List.suffix_rfl
    | @cons s piece p pieces hs hp =>
      obtain ⟨t, rest, hfound, -⟩ :=
        Segment.exists_front?_append hs.spelled (pieces.flatten ++ tail)
      rw [hcs, List.flatten_cons, List.append_assoc, hfound] at hfront
      cases hfront
  | case3 c cs s rest hfront hlong =>
    cases h
    cases hp with
    | nil => exact hcs ▸ List.suffix_rfl
    | @cons s piece p pieces hs hp =>
      -- the number that is too long would be the piece's
      rw [hcs, List.flatten_cons, List.append_assoc, hs.spelled.digitCount_append] at hlong
      exact absurd hs.short (Nat.not_le.2 hlong)
  | case4 c cs s rest hfront hshort ih =>
    have hrest := Except.map_eq_error_iff.1 h
    obtain ⟨-, p', pieces', -, hleft⟩ := exists_of_segments_error hrest
    have hsuffix : halt.left <:+ rest := ⟨pieces'.flatten, hleft.symm⟩
    cases hp with
    | nil =>
      obtain ⟨piece, -, hpiece⟩ := Segment.exists_of_front? hfront
      obtain rfl : tail = piece ++ rest := hcs.symm.trans hpiece
      exact hsuffix.trans (List.suffix_append piece rest)
    | @cons s' piece p pieces hs hp =>
      rw [List.flatten_cons, List.append_assoc] at hcs
      cases hp with
      | nil =>
        -- the last piece: reading may take a longer one in its place
        obtain ⟨t, rest', hfound, hrest'⟩ := Segment.exists_front?_append hs.spelled tail
        rw [hcs, List.flatten_nil, List.nil_append, hfound] at hfront
        cases hfront
        exact hsuffix.trans hrest'
      | @cons s'' piece' p pieces hs' hp =>
        -- another piece follows, so this one is read as it is
        have hends : Ends ((piece' :: pieces).flatten ++ tail) := by
          rw [List.flatten_cons, List.append_assoc]
          exact hs'.spelled.ends _
        rw [hcs, Segment.front?_append hs.spelled hends] at hfront
        cases hfront
        exact ih hrest (.cons hs' hp) rfl

/-- The front of a text up to a position is a path by itself. -/
def ReadsTo (text : String) (n : Nat) : Prop :=
  ∃ front : String, front.toList <+: text.toList ∧ front.length = n ∧ ∃ p, readPath front = .ok p

/-- Behind a position a text goes on with a number of too many digits. -/
def TooLongAt (text : String) (n digits : Nat) : Prop :=
  ∃ s piece, Spelled s piece ∧ piece <+: text.toList.drop n ∧
    Segment.digitCount piece = digits ∧ Text.digitLimit < digits

/-- A front of a rooted text that is a path is made of pieces, and what is left
of the text comes after them. -/
theorem exists_of_readsTo (htext : text.toList = '$' :: cs) (h : ReadsTo text n) :
    ∃ p pieces tail, List.Forall₂ Legible p pieces ∧ cs = pieces.flatten ++ tail ∧
      n = pieces.flatten.length + 1 := by
  obtain ⟨front, ⟨tail, htail⟩, rfl, p, hp⟩ := h
  obtain ⟨pieces, hfront, hpieces⟩ := parse_eq_ok_iff.1 (Except.mapError_eq_ok_iff.1 hp)
  refine ⟨p, pieces, tail, hpieces, ?_, ?_⟩
  · rw [htext, hfront, List.cons_append] at htail
    exact (List.tail_eq_of_cons_eq htail).symm
  · rw [← String.length_toList, hfront, List.length_cons]

/-- The pieces that a rooted text starts with are a front of it that is a path. -/
theorem readsTo_of_pieces (htext : text.toList = '$' :: (pieces.flatten ++ tail))
    (hp : List.Forall₂ Legible p pieces) : ReadsTo text (pieces.flatten.length + 1) := by
  refine ⟨String.ofList ('$' :: pieces.flatten), ?_, by rw [String.length_ofList]; rfl, p, ?_⟩
  · rw [String.toList_ofList, htext, ← List.cons_append]
    exact List.prefix_append _ _
  · exact Except.mapError_eq_ok_iff.2 (parse_eq_ok_iff.2 ⟨pieces, by simp, hp⟩)

/-- **Where reading stops, the longest front that is a path ends.** -/
theorem isGreatest_of_segments_error (htext : text.toList = '$' :: cs)
    (h : segments cs = .error halt) :
    IsGreatest {n | ReadsTo text n} (text.length - halt.left.length) ∧
      1 ≤ text.length - halt.left.length ∧ text.length - halt.left.length < text.length ∧
      text.toList.drop (text.length - halt.left.length) = halt.left := by
  obtain ⟨hat, p, pieces, hp, hcs⟩ := exists_of_segments_error h
  have hleft : 0 < halt.left.length := List.length_pos_iff.2 hat.left_ne_nil
  have hlength : text.length = pieces.flatten.length + 1 + halt.left.length := by
    rw [← String.length_toList, htext, hcs, List.length_cons, List.length_append]
    omega
  have hposition : text.length - halt.left.length = pieces.flatten.length + 1 := by omega
  refine ⟨⟨?_, ?_⟩, by omega, by omega, ?_⟩
  · have hreads := readsTo_of_pieces (hcs ▸ htext) hp
    rwa [← hposition] at hreads
  · intro n hn
    obtain ⟨p', pieces', tail, hp', hcs', rfl⟩ := exists_of_readsTo htext hn
    have hshort := (suffix_of_segments_error h hp' hcs').length_le
    have hsame := congrArg List.length (hcs.symm.trans hcs')
    rw [List.length_append, List.length_append] at hsame
    omega
  · rw [hposition, htext, hcs, List.drop_succ_cons, List.drop_left]

/-- A text that is not rooted is not read. -/
theorem readPath_of_not_rooted (h : text.toList.head? ≠ some '$') :
    readPath text = .error (.invalidPath text .notRooted) := by
  rw [readPath, parse]
  split
  · rename_i rest htext
    exact absurd (congrArg List.head? htext) h
  · rfl

/-- No number that is too long is where no piece is found. -/
theorem not_tooLongAt_of_front? {digits : Nat}
    (h : Segment.front? (text.toList.drop n) = none) : ¬ TooLongAt text n digits := by
  rintro ⟨s, piece, hs, ⟨rest, hrest⟩, -⟩
  obtain ⟨t, rest', hfound, -⟩ := Segment.exists_front?_append hs rest
  rw [hrest, h] at hfound
  cases hfound

/-- How a text that starts at the document is refused: for the place where the
longest front ends that is a path, or for the number that is too long there. -/
def RefusedAt (text : String) (n : Nat) : Prop :=
  ((∀ digits, ¬ TooLongAt text n digits) ∧ ∃ fault, readPath text = .error fault ∧
    fault.RefusesPath text ("unexpected character at position " ++ toString n)) ∨
  ∃ digits, TooLongAt text n digits ∧ readPath text = .error (.longNumeral digits)

/-- **A text is refused where reading it stops.** -/
theorem refusedAt_of_segments_error (htext : text.toList = '$' :: cs)
    (h : segments cs = .error halt) : RefusedAt text (text.length - halt.left.length) := by
  obtain ⟨hat, -⟩ := exists_of_segments_error h
  obtain ⟨-, -, -, hdrop⟩ := isGreatest_of_segments_error htext h
  have hread : readPath text = .error (.ofRefusal text (halt.refusal text.length)) := by
    rw [readPath, parse_of_rooted htext, h]
    rfl
  cases hat with
  | stray hfront _ =>
    rw [Halt.left] at hdrop
    rw [← hdrop] at hfront
    exact .inl ⟨fun digits => not_tooLongAt_of_front? hfront, _, hread, Fault.refusesPath _ _⟩
  | @tooLong left piece rest s hs hleft hlong =>
    have hcount : Segment.digitCount left = Segment.digitCount piece := by
      rw [hleft, hs.digitCount_append]
    have hprefix : piece <+: text.toList.drop (text.length - left.length) := by
      rw [Halt.left] at hdrop
      rw [hdrop, hleft]
      exact List.prefix_append _ _
    exact .inr ⟨_, ⟨s, piece, hs, hprefix, rfl, hlong⟩, hcount ▸ hread⟩

/-- **A text that is no path goes wrong behind the longest front that is one.** A
text that starts at the document and is not read is refused for a character that
it has: all that stands before it is a path, the `$` at least, and no longer front
of the text is. Only if the text goes on there with a number that is too long, it
is refused for that, by another fault. A text that does not start at the document
is refused for that. The refusals hand out the text. -/
theorem wrong_after_longest_front (text : String) :
    (text.toList.head? = some '$' → (∀ p, readPath text ≠ .ok p) →
      ∃ n, IsGreatest {m | ReadsTo text m} n ∧ 1 ≤ n ∧ n < text.length ∧ RefusedAt text n) ∧
    (text.toList.head? ≠ some '$' →
      ∃ fault, readPath text = .error fault ∧
        fault.RefusesPath text "paths must start with '$'") := by
  constructor
  · intro hroot hno
    obtain ⟨cs, htext⟩ := List.head?_eq_some_iff.1 hroot
    cases hsegments : segments cs with
    | ok p =>
      have hread : readPath text = .ok p := by
        rw [readPath, parse_of_rooted htext, hsegments]
        rfl
      exact absurd hread (hno p)
    | error halt =>
      obtain ⟨hgreatest, hpos, hlt, -⟩ := isGreatest_of_segments_error htext hsegments
      exact ⟨_, hgreatest, hpos, hlt, refusedAt_of_segments_error htext hsegments⟩
  · intro hroot
    exact ⟨_, readPath_of_not_rooted hroot, Fault.refusesPath _ _⟩

/-- A name that is broken off by a bracket without a number is read up to there;
a text without a `$` is not read at all. -/
theorem broken_path_wrong_after_longest_front :
    ("$.a[".toList.head? = some '$' ∧ (∀ p, readPath "$.a[" ≠ .ok p) ∧
      ∃ n, IsGreatest {m | ReadsTo "$.a[" m} n ∧ 1 ≤ n ∧ n < "$.a[".length ∧
        RefusedAt "$.a[" n) ∧
    "".toList.head? ≠ some '$' ∧ ∃ fault, readPath "" = .error fault ∧
      fault.RefusesPath "" "paths must start with '$'" := by
  have hread : readPath "$.a[" = .error (.invalidPath "$.a[" (.unexpected 3)) := by
    with_unfolding_all rfl
  have hno : ∀ p, readPath "$.a[" ≠ .ok p := by simp [hread]
  have hempty : "".toList.head? ≠ some '$' := by simp
  exact ⟨⟨rfl, hno, (wrong_after_longest_front "$.a[").1 rfl hno⟩, hempty,
    (wrong_after_longest_front "").2 hempty⟩

/-- **A rooted text that is refused for no place**: an index with one digit more
than are read is no fault of the path, and the text is not handed out. -/
theorem padded_refused_for_no_place :
    (atPadded 4300).toList.head? = some '$' ∧
      readPath (atPadded 4300) = .error (.longNumeral 4301) ∧
      (Fault.longNumeral 4301).details = [] ∧
      ∀ fault reason, readPath (atPadded 4300) = .error fault →
        ¬ fault.RefusesPath (atPadded 4300) reason := by
  have hread : readPath (atPadded 4300) = .error (.longNumeral 4301) :=
    readPath_atPadded (by decide)
  refine ⟨by simp [atPadded], hread, rfl, fun fault reason hfault hrefuses => ?_⟩
  cases hread.symm.trans hfault
  cases hrefuses.family

end Path

end Workflow
