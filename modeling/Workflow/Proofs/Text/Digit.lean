import Mathlib.Algebra.Group.Nat.Defs
import Mathlib.Data.List.Induction
import Workflow.Text.Digit
/-!
# Workflow — the numbers that digits write

What number a row of digits writes, said without reading it: a digit is so
many code points after the zero of its script, and one digit more makes the
number ten times as large and adds its own value (`Text.Numeral`). The scripts'
rows of ten do not overlap, so a digit has one value whatever row it is looked
for in, and reading a row of digits finds the number (`Text.numeral_iff`).
-/

namespace Workflow

namespace Text

variable {c : Char} {cs : List Char} {d n : Nat}

/-- A character is the digit of a value below ten in some script. -/
def DigitOf (c : Char) (d : Nat) : Prop :=
  d < 10 ∧ ∃ z ∈ digitZeros, c.toNat = z + d

/-- Digits, perhaps of several scripts, write a number, most significant
first. -/
inductive Numeral : List Char → Nat → Prop where
  /-- One digit writes its value. -/
  | digit {c : Char} {d : Nat} (hc : DigitOf c d) : Numeral [c] d
  /-- One more digit is the least significant. -/
  | more {cs : List Char} {c : Char} {n d : Nat} (hcs : Numeral cs n) (hc : DigitOf c d) :
      Numeral (cs ++ [c]) (10 * n + d)

/-! ## Digits -/

/-- The rows of ten that start with the zeros do not overlap. -/
theorem digitZeros_apart : digitZeros.Pairwise fun z z' => z + 10 ≤ z' := by
  decide

/-- So no character stands in two of them. -/
theorem zero_unique {z z' k : Nat} (hz : z ∈ digitZeros) (hz' : z' ∈ digitZeros)
    (hk : z ≤ k ∧ k < z + 10) (hk' : z' ≤ k ∧ k < z' + 10) : z = z' := by
  obtain ⟨i, hi, rfl⟩ := List.getElem_of_mem hz
  obtain ⟨j, hj, rfl⟩ := List.getElem_of_mem hz'
  have happart := List.pairwise_iff_getElem.1 digitZeros_apart
  rcases Nat.lt_trichotomy i j with hij | rfl | hij
  · have := happart i j hi hj hij
    omega
  · rfl
  · have := happart j i hj hi hij
    omega

/-- **A digit has the value that it is of.** -/
theorem digitValue?_eq_some_iff : digitValue? c = some d ↔ DigitOf c d := by
  constructor
  · intro h
    obtain ⟨z, hfind, rfl⟩ := Option.map_eq_some_iff.1 h
    have hrow := List.find?_some hfind
    simp only [Bool.and_eq_true, decide_eq_true_eq] at hrow
    exact ⟨by omega, z, List.mem_of_find?_eq_some hfind, by omega⟩
  · rintro ⟨hd, z, hz, hc⟩
    have hsome : (digitZeros.find? fun z => z ≤ c.toNat && c.toNat < z + 10).isSome := by
      rw [List.find?_isSome]
      refine ⟨z, hz, ?_⟩
      simp only [Bool.and_eq_true, decide_eq_true_eq]
      omega
    obtain ⟨z', hfind⟩ := Option.isSome_iff_exists.1 hsome
    have hrow := List.find?_some hfind
    simp only [Bool.and_eq_true, decide_eq_true_eq] at hrow
    obtain rfl := zero_unique hz (List.mem_of_find?_eq_some hfind) (by omega) hrow
    rw [digitValue?, hfind, Option.map_some, hc, Nat.add_sub_cancel_left]

/-- A character is a digit if it is one of some value. -/
theorem isDigit_iff : isDigit c ↔ ∃ d, DigitOf c d := by
  rw [isDigit, Option.isSome_iff_exists]
  exact exists_congr fun d => digitValue?_eq_some_iff

/-! ## Rows of digits -/

theorem digitsValue_append_singleton (cs : List Char) (hc : DigitOf c d) :
    digitsValue (cs ++ [c]) = 10 * digitsValue cs + d := by
  simp [digitsValue, List.foldl_append, digitValue?_eq_some_iff.2 hc]

/-- **Reading a row of digits finds the number that it writes**, and any row of
digits writes one. -/
theorem numeral_iff : Numeral cs n ↔ cs ≠ [] ∧ (∀ c ∈ cs, isDigit c) ∧ digitsValue cs = n := by
  constructor
  · intro h
    induction h with
    | @digit c d hc =>
      refine ⟨by simp, ?_, ?_⟩
      · simpa using isDigit_iff.2 ⟨d, hc⟩
      · simpa [digitsValue] using digitsValue_append_singleton [] hc
    | @more cs c n d _ hc ih =>
      obtain ⟨-, hdigits, rfl⟩ := ih
      refine ⟨by simp, fun b hb => ?_, digitsValue_append_singleton cs hc⟩
      rcases List.mem_append.1 hb with hb | hb
      · exact hdigits b hb
      · rw [List.mem_singleton.1 hb]
        exact isDigit_iff.2 ⟨d, hc⟩
  · rintro ⟨hne, hdigits, rfl⟩
    induction cs using List.reverseRecOn with
    | nil => exact absurd rfl hne
    | append_singleton cs c ih =>
      obtain ⟨d, hc⟩ := isDigit_iff.1 (hdigits c (by simp))
      rw [digitsValue_append_singleton cs hc]
      by_cases hcs : cs = []
      · subst hcs
        simpa [digitsValue] using Numeral.digit hc
      · exact .more (ih hcs fun b hb => hdigits b (List.mem_append_left _ hb)) hc

/-- So many digits write no larger number. -/
theorem Numeral.lt (h : Numeral cs n) : n < 10 ^ cs.length := by
  induction h with
  | digit hc =>
    rw [List.length_singleton, Nat.pow_one]
    exact hc.1
  | more _ hc ih =>
    have hd := hc.1
    rw [List.length_append, List.length_singleton, Nat.pow_succ]
    omega

/-- **A number in ASCII digits is written by them.** -/
theorem numeral_toDigits (n : Nat) : Numeral (Nat.toDigits 10 n) n := by
  have hdigit (d : Nat) (hd : d < 10) : DigitOf d.digitChar d := by
    have hrow : ∀ d < 10, d.digitChar.toNat = 0x30 + d := by decide
    exact ⟨hd, 0x30, by simp [digitZeros], hrow d hd⟩
  induction n using Nat.strongRecOn with
  | ind n ih =>
    by_cases hn : n < 10
    · rw [Nat.toDigits_of_lt_base hn]
      exact .digit (hdigit n hn)
    · have hmod : n % 10 < 10 := Nat.mod_lt n (by decide)
      rw [Nat.toDigits_of_base_le (by decide) (by omega)]
      have hmore := Numeral.more (ih (n / 10) (by omega)) (hdigit (n % 10) hmod)
      rwa [Nat.div_add_mod] at hmore

end Text

end Workflow
