import Mathlib.Data.List.Forall2
import Mathlib.Data.List.TakeWhile
import Mathlib.Data.Nat.Digits.Defs
import Workflow.DataFlow
import Workflow.Proofs.Except
import Workflow.Proofs.Text.Digit
/-!
# Workflow — paths as texts write them

What it is for a text to write a path, said by rules that know nothing of how it
is read: it is a `$` and then pieces, each of which writes a segment
(`Segment.Spelled`). No piece begins where another goes on, so the first segment
is found whatever comes after it (`Segment.front?_append`), and what is found is
always a piece (`Segment.exists_of_front?`). Hence reading follows the rules as
long as no number has too many digits (`Path.parse_eq_ok_iff`), and stops at the
first one that has (`Path.parse_of_too_long`). A text has one way of falling into
pieces (`Path.pieces_unique`).
-/

namespace Workflow

namespace Segment

variable {s : Segment} {piece rest : List Char} {cs : List Char}

/-- A piece of text writes a segment: a point and a name, or a number in
brackets. -/
inductive Spelled : Segment → List Char → Prop where
  /-- A name is verbatim; it is not empty and holds no mark of a segment. -/
  | key {name : List Char} (hne : name ≠ []) (hname : ∀ c ∈ name, c ≠ '.' ∧ c ≠ '[' ∧ c ≠ ']') :
      Spelled (.key (String.ofList name)) ('.' :: name)
  /-- A number is in the digits of any script, with any zeros before. -/
  | index {digits : List Char} {n : Nat} (h : Text.Numeral digits n) :
      Spelled (.index n) ('[' :: (digits ++ [']']))

/-- And it is read as the segment: the number in it has no more digits than are
read. -/
structure Legible (s : Segment) (piece : List Char) : Prop where
  spelled : Spelled s piece
  short : digitCount piece ≤ Text.digitLimit

/-- A segment that can be written to be read: its name is not empty and holds no
mark of a segment, and its number has no more digits than are read. -/
def Plain : Segment → Prop
  | .key name => name ≠ "" ∧ ∀ c ∈ name.toList, c ≠ '.' ∧ c ≠ '[' ∧ c ≠ ']'
  | .index n => n < 10 ^ Text.digitLimit

/-- A text that does not go on with a name, so that one before it ends there. -/
def Ends (rest : List Char) : Prop :=
  ∀ c ∈ rest.head?, isKeyChar c = false

theorem isKeyChar_iff {c : Char} : isKeyChar c ↔ c ≠ '.' ∧ c ≠ '[' ∧ c ≠ ']' := by
  simp [isKeyChar, and_assoc]

/-- A piece starts with the mark of a segment. -/
theorem Spelled.ends (h : Spelled s piece) (rest : List Char) : Ends (piece ++ rest) := by
  cases h with
  | key hne hname => simp [Ends, isKeyChar]
  | index h => simp [Ends, isKeyChar]

/-- Pieces end a name that is before them, if what comes after them does. -/
theorem ends_flatten {p : Path} {pieces : List (List Char)} (h : List.Forall₂ Spelled p pieces)
    (hrest : Ends rest) : Ends (pieces.flatten ++ rest) := by
  cases h with
  | nil => exact hrest
  | cons hs _ =>
    rw [List.flatten_cons, List.append_assoc]
    exact hs.ends _

/-- Characters of a kind, and then one that is not of it, are told apart. -/
theorem span_append {kind : Char → Bool} {run rest : List Char} (hrun : ∀ c ∈ run, kind c)
    (hrest : ∀ c ∈ rest.head?, kind c = false) :
    (run ++ rest).takeWhile kind = run ∧ (run ++ rest).dropWhile kind = rest := by
  rw [List.takeWhile_append_of_pos hrun, List.dropWhile_append_of_pos hrun]
  cases rest with
  | nil => simp
  | cons c more => simp [hrest c rfl]

/-- The digits of a number in brackets end with the bracket. -/
theorem span_digits {digits : List Char} {n : Nat} (h : Text.Numeral digits n)
    (rest : List Char) :
    (digits ++ ']' :: rest).takeWhile Text.isDigit = digits ∧
      (digits ++ ']' :: rest).dropWhile Text.isDigit = ']' :: rest := by
  obtain ⟨-, hdigits, -⟩ := Text.numeral_iff.1 h
  refine span_append hdigits ?_
  rintro c ⟨⟩
  decide

/-- A number in brackets is found, whatever comes after it. -/
theorem front?_append_index {digits : List Char} {n : Nat} (h : Text.Numeral digits n)
    (rest : List Char) : front? ('[' :: (digits ++ [']']) ++ rest) = some (.index n, rest) := by
  obtain ⟨hne, -, rfl⟩ := Text.numeral_iff.1 h
  obtain ⟨htake, hdrop⟩ := span_digits h rest
  rw [List.cons_append, List.append_assoc, List.singleton_append, front?, htake, hdrop]
  cases digits with
  | nil => exact absurd rfl hne
  | cons d more => rfl

/-- And its digits are counted. -/
theorem digitCount_append_index {digits : List Char} {n : Nat} (h : Text.Numeral digits n)
    (rest : List Char) : digitCount ('[' :: (digits ++ [']']) ++ rest) = digits.length := by
  rw [List.cons_append, List.append_assoc, List.singleton_append, digitCount,
    (span_digits h rest).1]

theorem digitCount_index {digits : List Char} {n : Nat} (h : Text.Numeral digits n) :
    digitCount ('[' :: (digits ++ [']'])) = digits.length := by
  have hcount := digitCount_append_index h []
  rwa [List.append_nil] at hcount

/-- The digits of a piece are counted in it alone. -/
theorem Spelled.digitCount_append (h : Spelled s piece) (rest : List Char) :
    digitCount (piece ++ rest) = digitCount piece := by
  cases h with
  | key hne hname => rfl
  | index h => rw [digitCount_append_index h rest, digitCount_index h]

/-- What is read is plain. -/
theorem Legible.plain (h : Legible s piece) : s.Plain := by
  obtain ⟨hspelled, hshort⟩ := h
  cases hspelled with
  | @key name hne hname =>
    refine ⟨fun hempty => hne ?_, by simpa using hname⟩
    simpa using congrArg String.toList hempty
  | @index digits n h =>
    rw [digitCount_index h] at hshort
    exact h.lt.trans_le (Nat.pow_le_pow_right (by decide) hshort)

/-- What is plain is read as a path writes it. -/
theorem legible_text (h : s.Plain) : Legible s s.text := by
  cases s with
  | key name =>
    obtain ⟨hne, hname⟩ := h
    have hkey : Spelled (.key (String.ofList name.toList)) ('.' :: name.toList) :=
      .key (by simpa using hne) hname
    rw [String.ofList_toList] at hkey
    exact ⟨hkey, Nat.zero_le _⟩
  | index n =>
    have hnumeral := Text.numeral_toDigits n
    refine ⟨.index hnumeral, ?_⟩
    rw [text, digitCount_index hnumeral]
    exact Nat.toDigits_length 10 n _ (by decide) h

/-- **A piece is found at the front of a text**, a name if the text does not go
on with it. -/
theorem front?_append (h : Spelled s piece) (hrest : Ends rest) :
    front? (piece ++ rest) = some (s, rest) := by
  cases h with
  | @key name hne hname =>
    obtain ⟨htake, hdrop⟩ := span_append (fun c hc => isKeyChar_iff.2 (hname c hc)) hrest
    rw [List.cons_append, front?, htake, hdrop]
    cases name with
    | nil => exact absurd rfl hne
    | cons c more => rfl
  | index h => exact front?_append_index h rest

/-- **What is found at the front of a text is a piece of it.** -/
theorem exists_of_front? (h : front? cs = some (s, rest)) :
    ∃ piece, Spelled s piece ∧ cs = piece ++ rest := by
  unfold front? at h
  split at h
  · rename_i more
    have hname : ∀ c ∈ more.takeWhile isKeyChar, c ≠ '.' ∧ c ≠ '[' ∧ c ≠ ']' :=
      fun c hc => isKeyChar_iff.1 (List.mem_takeWhile_imp hc)
    split at h
    · cases h
    · rename_i hne
      cases h
      exact ⟨'.' :: more.takeWhile isKeyChar, .key hne hname,
        congrArg ('.' :: ·) List.takeWhile_append_dropWhile.symm⟩
  · rename_i more
    split at h
    · rename_i d digits after htake hdrop
      cases h
      have hdigits : ∀ c ∈ d :: digits, Text.isDigit c :=
        fun c hc => List.mem_takeWhile_imp (htake ▸ hc)
      refine ⟨'[' :: (d :: digits ++ [']']),
        .index (Text.numeral_iff.2 ⟨by simp, hdigits, rfl⟩), ?_⟩
      have hmore : more = d :: digits ++ ']' :: rest := by
        rw [← htake, ← hdrop, List.takeWhile_append_dropWhile]
      simp [hmore]
    · cases h
  · cases h

end Segment

namespace Path

open Segment (Spelled Legible Ends)

variable {p p' q : Path} {pieces pieces' : List (List Char)} {s : Segment}
  {piece cs rest : List Char} {text : String} {halt : Halt}

/-! ## Reading -/

/-- Reading goes on after the segment that is found, if its number is not too
long. -/
theorem segments_of_front? (h : Segment.front? cs = some (s, rest))
    (hshort : Segment.digitCount cs ≤ Text.digitLimit) :
    segments cs = (s :: ·) <$> segments rest := by
  cases cs with
  | nil => cases h
  | cons c more =>
    rw [segments]
    split
    · rename_i hnone
      rw [h] at hnone
      cases hnone
    · rename_i hsome
      rw [h] at hsome
      cases hsome
      exact if_neg (Nat.not_lt.2 hshort)

/-- It stops at a number that is. -/
theorem segments_of_too_long (h : Segment.front? cs = some (s, rest))
    (hlong : Text.digitLimit < Segment.digitCount cs) :
    segments cs = .error (.tooLong cs) := by
  cases cs with
  | nil => cases h
  | cons c more =>
    rw [segments]
    split
    · rename_i hnone
      rw [h] at hnone
      cases hnone
    · exact if_pos hlong

/-- What is read is spelled. -/
theorem spelled_of_legible (h : List.Forall₂ Legible p pieces) : List.Forall₂ Spelled p pieces :=
  h.imp fun _ _ hs => hs.spelled

/-- **Pieces are read as what they write**, and then what comes after them is. -/
theorem segments_append (h : List.Forall₂ Legible p pieces) (hrest : Ends rest) :
    segments (pieces.flatten ++ rest) = (p ++ ·) <$> segments rest := by
  induction h with
  | nil => cases h : segments rest <;> simp [h, Functor.map, Except.map]
  | @cons s piece p pieces hs hp ih =>
    have hends := Segment.ends_flatten (spelled_of_legible hp) hrest
    have hfront := Segment.front?_append hs.spelled hends
    have hshort := hs.short
    rw [← hs.spelled.digitCount_append (pieces.flatten ++ rest)] at hshort
    rw [List.flatten_cons, List.append_assoc, segments_of_front? hfront hshort, ih]
    cases segments rest <;> rfl

/-- **What is read to its end falls into pieces that write it.** -/
theorem exists_of_segments (h : segments cs = .ok p) :
    ∃ pieces, List.Forall₂ Legible p pieces ∧ cs = pieces.flatten := by
  fun_induction segments cs generalizing p with
  | case1 =>
    cases h
    exact ⟨[], .nil, rfl⟩
  | case2 c cs hfront => cases h
  | case3 c cs s rest hfront hlong => cases h
  | case4 c cs s rest hfront hshort ih =>
    obtain ⟨p', hp', rfl⟩ := Except.map_eq_ok_iff.1 h
    obtain ⟨pieces, hpieces, rfl⟩ := ih hp'
    obtain ⟨piece, hpiece, hcs⟩ := Segment.exists_of_front? hfront
    have hlegible : Legible s piece := by
      rw [hcs, hpiece.digitCount_append, Nat.not_lt] at hshort
      exact ⟨hpiece, hshort⟩
    exact ⟨piece :: pieces, .cons hlegible hpieces, hcs⟩

/-- Why reading stops at the rest of a text: no piece is found there, or one whose
number is too long. -/
inductive Halt.At : Halt → Prop where
  | stray {left : List Char} (h : Segment.front? left = none) (hne : left ≠ []) : At (.stray left)
  | tooLong {left piece rest : List Char} {s : Segment} (hs : Spelled s piece)
      (hleft : left = piece ++ rest) (hlong : Text.digitLimit < Segment.digitCount piece) :
      At (.tooLong left)

theorem Halt.At.left_ne_nil (h : halt.At) : halt.left ≠ [] := by
  cases h with
  | stray _ hne => exact hne
  | tooLong hs hleft _ =>
    rw [Halt.left, hleft]
    cases hs <;> simp

/-- **Reading that stops has read pieces up to there.** -/
theorem exists_of_segments_error (h : segments cs = .error halt) :
    halt.At ∧ ∃ p pieces, List.Forall₂ Legible p pieces ∧ cs = pieces.flatten ++ halt.left := by
  fun_induction segments cs with
  | case1 => cases h
  | case2 c cs hfront =>
    cases h
    exact ⟨.stray hfront (by simp), [], [], .nil, rfl⟩
  | case3 c cs s rest hfront hlong =>
    cases h
    obtain ⟨piece, hpiece, hcs⟩ := Segment.exists_of_front? hfront
    rw [hcs, hpiece.digitCount_append] at hlong
    exact ⟨.tooLong hpiece hcs hlong, [], [], .nil, rfl⟩
  | case4 c cs s rest hfront hshort ih =>
    obtain ⟨hat, p, pieces, hpieces, rfl⟩ := ih (Except.map_eq_error_iff.1 h)
    obtain ⟨piece, hpiece, hcs⟩ := Segment.exists_of_front? hfront
    rw [hcs, hpiece.digitCount_append, Nat.not_lt] at hshort
    exact ⟨hat, s :: p, piece :: pieces, .cons ⟨hpiece, hshort⟩ hpieces, by simp [hcs]⟩

/-- A text that starts at the document is read behind its `$`. -/
theorem parse_of_rooted (htext : text.toList = '$' :: cs) :
    parse text = (segments cs).mapError (Halt.refusal text.length) := by
  rw [parse]
  split
  · rename_i rest hrest
    obtain rfl : rest = cs := List.tail_eq_of_cons_eq (hrest.symm.trans htext)
    rw [String.length_toList]
  · rename_i hno
    exact absurd htext (hno cs)

/-- **A text parses as the path that it writes**, and as no other. -/
theorem parse_eq_ok_iff : parse text = .ok p ↔
    ∃ pieces, text.toList = '$' :: pieces.flatten ∧ List.Forall₂ Legible p pieces := by
  constructor
  · intro h
    unfold parse at h
    split at h
    · rename_i rest htext
      obtain ⟨pieces, hpieces, rfl⟩ := exists_of_segments (Except.mapError_eq_ok_iff.1 h)
      exact ⟨pieces, htext, hpieces⟩
    · cases h
  · rintro ⟨pieces, htext, hpieces⟩
    have hread : segments (pieces.flatten ++ []) = (p ++ ·) <$> segments [] :=
      segments_append hpieces (by simp [Ends])
    rw [List.append_nil] at hread
    rw [parse_of_rooted htext, hread, segments]
    simp [Functor.map, Except.map, Except.mapError]

/-- **A text is refused for the first number in it that is too long.** -/
theorem parse_of_too_long (htext : text.toList = '$' :: (pieces.flatten ++ (piece ++ rest)))
    (hp : List.Forall₂ Legible p pieces) (hs : Spelled s piece) (hrest : Ends rest)
    (hlong : Text.digitLimit < Segment.digitCount piece) :
    parse text = .error (.tooLong (Segment.digitCount piece)) := by
  have hcount := hs.digitCount_append rest
  have hstop : segments (piece ++ rest) = .error (.tooLong (piece ++ rest)) :=
    segments_of_too_long (Segment.front?_append hs hrest) (hcount ▸ hlong)
  rw [parse_of_rooted htext, segments_append hp (hs.ends rest), hstop]
  exact congrArg (fun count => Except.error (Refusal.tooLong count)) hcount

/-- **A text falls into pieces in one way only.** -/
theorem pieces_unique (h : List.Forall₂ Spelled p pieces) (h' : List.Forall₂ Spelled p' pieces')
    (hflatten : pieces.flatten = pieces'.flatten) : pieces = pieces' := by
  induction h generalizing p' pieces' with
  | nil =>
    cases h' with
    | nil => rfl
    | cons hs' _ => cases hs' <;> simp at hflatten
  | @cons s piece p pieces hs hp ih =>
    cases h' with
    | nil => cases hs <;> simp at hflatten
    | @cons s' piece' p' pieces' hs' hp' =>
      -- both pieces are the one that is found at the front
      have hends : Ends ([] : List Char) := by simp [Ends]
      have hrest : pieces.flatten = pieces'.flatten := by
        have hfront := Segment.front?_append hs (Segment.ends_flatten hp hends)
        have hfront' := Segment.front?_append hs' (Segment.ends_flatten hp' hends)
        simp only [List.append_nil] at hfront hfront'
        rw [← List.flatten_cons, hflatten, List.flatten_cons, hfront'] at hfront
        exact (Prod.mk.inj (Option.some.inj hfront)).2.symm
      have hpiece : piece = piece' := by
        rw [List.flatten_cons, List.flatten_cons, hrest] at hflatten
        exact List.append_cancel_right hflatten
      rw [hpiece, ih hp' hrest]

/-- Pieces that are each of something are so in a row. -/
theorem exists_forall₂_iff {R : Segment → List Char → Prop} :
    (∃ p, List.Forall₂ R p pieces) ↔ ∀ piece ∈ pieces, ∃ s, R s piece := by
  induction pieces with
  | nil => simp
  | cons piece pieces ih =>
    rw [List.forall_mem_cons, ← ih]
    constructor
    · rintro ⟨p, hp⟩
      cases hp with
      | cons hs hp => exact ⟨⟨_, hs⟩, _, hp⟩
    · rintro ⟨⟨s, hs⟩, p, hp⟩
      exact ⟨s :: p, .cons hs hp⟩

/-- A text falls into pieces, each of which writes a segment, after its `$`. -/
def FallsInto (text : String) (pieces : List (List Char)) : Prop :=
  text.toList = '$' :: pieces.flatten ∧ ∀ piece ∈ pieces, ∃ s, Spelled s piece

theorem FallsInto.unique (h : FallsInto text pieces) (h' : FallsInto text pieces') :
    pieces' = pieces := by
  obtain ⟨p, hp⟩ := exists_forall₂_iff.2 h.2
  obtain ⟨p', hp'⟩ := exists_forall₂_iff.2 h'.2
  exact pieces_unique hp' hp (List.tail_eq_of_cons_eq (h'.1.symm.trans h.1))

/-- Pieces whose numbers are not too long write a path that is read. -/
theorem exists_legible (h : ∀ piece ∈ pieces, ∃ s, Spelled s piece)
    (hshort : ∀ piece ∈ pieces, Segment.digitCount piece ≤ Text.digitLimit) :
    ∃ p, List.Forall₂ Legible p pieces := by
  refine exists_forall₂_iff.2 fun piece hpiece => ?_
  obtain ⟨s, hs⟩ := h piece hpiece
  exact ⟨s, hs, hshort piece hpiece⟩

/-- **A text that falls into pieces is read exactly if no number is too long.** -/
theorem FallsInto.exists_parse_iff (h : FallsInto text pieces) : (∃ p, parse text = .ok p) ↔
    ∀ piece ∈ pieces, Segment.digitCount piece ≤ Text.digitLimit := by
  constructor
  · rintro ⟨p, hparse⟩ piece hpiece
    obtain ⟨pieces', htext, hp⟩ := parse_eq_ok_iff.1 hparse
    have hinto : FallsInto text pieces' := ⟨htext, exists_forall₂_iff.1 ⟨p, spelled_of_legible hp⟩⟩
    rw [← h.unique hinto] at hpiece
    obtain ⟨s, hs⟩ := exists_forall₂_iff.1 ⟨p, hp⟩ piece hpiece
    exact hs.short
  · intro hshort
    obtain ⟨p, hp⟩ := exists_legible h.2 hshort
    exact ⟨p, parse_eq_ok_iff.2 ⟨pieces, h.1, hp⟩⟩

/-- **Otherwise it is refused for the first one that is.** -/
theorem FallsInto.parse_of_too_long {before after : List (List Char)}
    (h : FallsInto text (before ++ piece :: after))
    (hbefore : ∀ other ∈ before, Segment.digitCount other ≤ Text.digitLimit)
    (hlong : Text.digitLimit < Segment.digitCount piece) :
    parse text = .error (.tooLong (Segment.digitCount piece)) := by
  obtain ⟨htext, hspelled⟩ := h
  obtain ⟨hinit, hrest⟩ := List.forall_mem_append.1 hspelled
  obtain ⟨⟨s, hs⟩, hafter⟩ := List.forall_mem_cons.1 hrest
  obtain ⟨p, hp⟩ := exists_legible hinit hbefore
  obtain ⟨q, hq⟩ := exists_forall₂_iff.2 hafter
  have hends : Ends (after.flatten ++ []) := Segment.ends_flatten hq (by simp [Ends])
  rw [List.append_nil] at hends
  refine Path.parse_of_too_long ?_ hp hs hends hlong
  rw [htext, List.flatten_append, List.flatten_cons]

/-- **Of two texts that parse, the second one without its `$` can be put behind
the first**, and so are the paths. -/
theorem parse_append {more : String} (hp : parse text = .ok p)
    (hq : parse ("$" ++ more) = .ok q) : parse (text ++ more) = .ok (p ++ q) := by
  obtain ⟨pieces, htext, hpieces⟩ := parse_eq_ok_iff.1 hp
  obtain ⟨pieces', hroot, hpieces'⟩ := parse_eq_ok_iff.1 hq
  have hmore : more.toList = pieces'.flatten := by simpa using hroot
  refine parse_eq_ok_iff.2 ⟨pieces ++ pieces', ?_, List.rel_append hpieces hpieces'⟩
  rw [String.toList_append, htext, hmore, List.flatten_append, List.cons_append]

/-! ## Writing -/

/-- A plain path is written by the texts of its segments. -/
theorem legible_text (h : ∀ s ∈ p, s.Plain) : List.Forall₂ Legible p (p.map Segment.text) := by
  rw [List.forall₂_map_right_iff, List.forall₂_same]
  exact fun s hs => Segment.legible_text (h s hs)

/-- The segments of a path that is read are plain. -/
theorem plain_of_legible (h : List.Forall₂ Legible p pieces) : ∀ s ∈ p, s.Plain := by
  induction h with
  | nil => nofun
  | @cons s piece p pieces hs _ ih => exact List.forall_mem_cons.2 ⟨hs.plain, ih⟩

/-- **Paths are read by the grammar, and read back as they are written**, as far
as no number in them has too many digits. A text parses as the path that the
pieces write which it falls into after its `$`, if the numbers are not too long.
It falls into pieces in one way only; then it parses exactly if no number is too
long, and is otherwise refused for the first one that is. A path is read back
from its text exactly if its names are not empty and hold no mark of a segment,
and its numbers are not too long. Of two texts that parse, the second one without
its `$` can be put behind the first, and so are the paths. -/
theorem parse_by_grammar (text : String) (p : Path) :
    (parse text = .ok p ↔
      ∃ pieces, text.toList = '$' :: pieces.flatten ∧ List.Forall₂ Legible p pieces) ∧
    (∀ pieces, FallsInto text pieces →
      (∀ pieces', FallsInto text pieces' → pieces' = pieces) ∧
      ((∃ p, parse text = .ok p) ↔
        ∀ piece ∈ pieces, Segment.digitCount piece ≤ Text.digitLimit) ∧
      ∀ before piece after, pieces = before ++ piece :: after →
        (∀ other ∈ before, Segment.digitCount other ≤ Text.digitLimit) →
        Text.digitLimit < Segment.digitCount piece →
        parse text = .error (.tooLong (Segment.digitCount piece))) ∧
    (parse p.text = .ok p ↔ ∀ s ∈ p, s.Plain) ∧
    ∀ more q, parse text = .ok p → parse ("$" ++ more) = .ok q →
      parse (text ++ more) = .ok (p ++ q) := by
  refine ⟨parse_eq_ok_iff, fun pieces h => ⟨?_, h.exists_parse_iff, ?_⟩, ⟨?_, ?_⟩, ?_⟩
  · exact fun pieces' h' => h.unique h'
  · rintro before piece after rfl hbefore hlong
    exact h.parse_of_too_long hbefore hlong
  · intro h
    obtain ⟨pieces, -, hp⟩ := parse_eq_ok_iff.1 h
    exact plain_of_legible hp
  · intro h
    refine parse_eq_ok_iff.2 ⟨p.map Segment.text, ?_, legible_text h⟩
    rw [Path.text, String.toList_ofList, List.flatMap_def]
  · intro more q hp hq
    exact parse_append hp hq

/-! ## A number that is too long -/

/-- The index one, with so many zeros before it. -/
def padded (zeros : Nat) : List Char :=
  '[' :: (List.replicate zeros '0' ++ ['1'] ++ [']'])

/-- The text of a path to the element there. -/
def atPadded (zeros : Nat) : String :=
  String.ofList ('$' :: padded zeros)

/-- Zeros before a number change nothing. -/
theorem numeral_padded (zeros : Nat) : Text.Numeral (List.replicate zeros '0' ++ ['1']) 1 := by
  have hzero : Text.DigitOf '0' 0 := ⟨by decide, 0x30, by decide, by decide⟩
  have hone : Text.DigitOf '1' 1 := ⟨by decide, 0x30, by decide, by decide⟩
  have hzeros (k : Nat) : Text.Numeral (List.replicate (k + 1) '0') 0 := by
    induction k with
    | zero => exact .digit hzero
    | succ k ih =>
      rw [List.replicate_succ']
      exact .more ih hzero
  cases zeros with
  | zero => exact .digit hone
  | succ k => exact .more (hzeros k) hone

theorem spelled_padded (zeros : Nat) : Spelled (.index 1) (padded zeros) :=
  .index (numeral_padded zeros)

/-- But they count as digits. -/
theorem digitCount_padded (zeros : Nat) : Segment.digitCount (padded zeros) = zeros + 1 := by
  rw [padded, Segment.digitCount_index (numeral_padded zeros), List.length_append,
    List.length_replicate, List.length_singleton]

/-- A text that holds nothing else falls into one piece. -/
theorem fallsInto_atPadded (zeros : Nat) : FallsInto (atPadded zeros) [padded zeros] := by
  refine ⟨by simp [atPadded], ?_⟩
  rw [List.forall_mem_singleton]
  exact ⟨_, spelled_padded zeros⟩

/-- **An index with too many zeros before it is not read.** -/
theorem parse_atPadded {zeros : Nat} (h : Text.digitLimit ≤ zeros) :
    parse (atPadded zeros) = .error (.tooLong (zeros + 1)) := by
  have hinto : FallsInto (atPadded zeros) ([] ++ padded zeros :: []) := fallsInto_atPadded zeros
  have hparse := hinto.parse_of_too_long nofun (by rw [digitCount_padded]; omega)
  rwa [digitCount_padded] at hparse

/-- That is no fault of the path. -/
theorem readPath_atPadded {zeros : Nat} (h : Text.digitLimit ≤ zeros) :
    readPath (atPadded zeros) = .error (.longNumeral (zeros + 1)) := by
  rw [readPath, parse_atPadded h]
  rfl

/-- **A text of the grammar that is not read**: it writes the index one, with one
digit more than are read. -/
theorem padded_not_read_by_grammar :
    ((atPadded 4300).toList = '$' :: [padded 4300].flatten ∧
        List.Forall₂ Spelled [.index 1] [padded 4300]) ∧
      parse (atPadded 4300) = .error (.tooLong 4301) ∧
      ¬ ∀ text, (∃ p, parse text = .ok p) ↔ ∃ pieces, FallsInto text pieces := by
  have hinto := fallsInto_atPadded 4300
  have hparse : parse (atPadded 4300) = .error (.tooLong 4301) := parse_atPadded (by decide)
  refine ⟨⟨hinto.1, .cons (spelled_padded 4300) .nil⟩, hparse, fun hall => ?_⟩
  obtain ⟨p, hp⟩ := (hall (atPadded 4300)).2 ⟨_, hinto⟩
  cases hparse.symm.trans hp

/-- A name with a blank, a digit of another script and zeros before a digit are
read, one after the other; an index with too many zeros is refused. -/
theorem mixed_path_by_grammar :
    FallsInto "$.a b[٣][007]" [".a b".toList, "[٣]".toList, "[007]".toList] ∧
      parse "$.a b[٣]" = .ok [.key "a b", .index 3] ∧ parse "$[007]" = .ok [.index 7] ∧
      parse "$.a b[٣][007]" = .ok [.key "a b", .index 3, .index 7] ∧
      (∃ p, parse "$.a b[٣][007]" = .ok p) ∧
      FallsInto (atPadded 4300) [padded 4300] ∧
      Text.digitLimit < Segment.digitCount (padded 4300) ∧
      parse (atPadded 4300) = .error (.tooLong (Segment.digitCount (padded 4300))) := by
  have hname : Spelled (.key "a b") ('.' :: "a b".toList) := .key (by simp) (by simp)
  have harabic : Text.DigitOf '٣' 3 := ⟨by decide, 0x660, by decide, by decide⟩
  have hzero : Text.DigitOf '0' 0 := ⟨by decide, 0x30, by decide, by decide⟩
  have hseven : Text.DigitOf '7' 7 := ⟨by decide, 0x30, by decide, by decide⟩
  have hthree : Spelled (.index 3) "[٣]".toList := .index (.digit harabic)
  have hzeros : Spelled (.index 7) "[007]".toList :=
    .index (.more (.more (.digit hzero) hzero) hseven)
  have hinto : FallsInto "$.a b[٣][007]" [".a b".toList, "[٣]".toList, "[007]".toList] :=
    ⟨rfl, by simpa using ⟨⟨_, hname⟩, ⟨_, hthree⟩, ⟨_, hzeros⟩⟩⟩
  have hfirst : parse "$.a b[٣]" = .ok [.key "a b", .index 3] :=
    (parse_by_grammar _ _).1.2 ⟨[".a b".toList, "[٣]".toList], rfl,
      .cons ⟨hname, by decide⟩ (.cons ⟨hthree, by decide⟩ .nil)⟩
  have hsecond : parse "$[007]" = .ok [.index 7] :=
    (parse_by_grammar _ _).1.2 ⟨["[007]".toList], rfl, .cons ⟨hzeros, by decide⟩ .nil⟩
  have hpadded := fallsInto_atPadded 4300
  have hlong : Text.digitLimit < Segment.digitCount (padded 4300) := by
    rw [digitCount_padded]
    decide
  exact ⟨hinto, hfirst, hsecond,
    (parse_by_grammar "$.a b[٣]" _).2.2.2 "[007]" _ hfirst hsecond,
    ((parse_by_grammar _ []).2.1 _ hinto).2.1.2 (by decide), hpadded, hlong,
    ((parse_by_grammar _ []).2.1 _ hpadded).2.2 [] _ [] rfl nofun hlong⟩

end Path

end Workflow
