import Workflow.Number.Layout
import Workflow.Proofs.Json.Grammar
import Workflow.Proofs.Number.Double
/-!
# Workflow — numbers as literals

However JSON text lays out a binary64 number, it writes a word of the grammar,
with a whole part, a fraction or an exponent, and the decimal that this word
writes is the number's shortest one or that in other units. So the word reads
back as the number (`Layout.exists_lexeme_text`).
-/

namespace Workflow

open Json (Digits Whole Fraction Exponent Lexeme)

/-! ## Digits in base ten -/

namespace Json

variable {ds ds' : List Char} {n k : Nat}

/-- A number's digits are digits, and there is one at least. -/
theorem digits_toDigits (n : Nat) : Digits (Nat.toDigits 10 n) :=
  ⟨Nat.toDigits_ne_nil, fun _ => Nat.isDigit_of_mem_toDigits (by decide) (by decide)⟩

/-- The first digit of a number is no zero, unless the number is. -/
theorem head?_toDigits_ne_zero (h : n ≠ 0) : (Nat.toDigits 10 n).head? ≠ some '0' := by
  induction n using Nat.strongRecOn with
  | ind n ih =>
    by_cases hn : n < 10
    · rw [Nat.toDigits_of_lt_base hn]
      intro hzero
      exact h (Nat.digitChar_eq_zero.1 (Option.some.inj hzero))
    · have hne : Nat.toDigits 10 (n / 10) ≠ [] := Nat.toDigits_ne_nil
      rw [Nat.toDigits_of_base_le (by decide) (by omega), List.head?_append_of_ne_nil _ hne]
      exact ih (n / 10) (by omega) (by omega)

/-- Digits that do not start with a zero are a whole part. -/
theorem whole_of_head? (hd : Digits ds) (hz : ds.head? ≠ some '0') : Whole ds :=
  ⟨hd, fun hzero => absurd hzero hz⟩

theorem whole_toDigits (n : Nat) : Whole (Nat.toDigits 10 n) := by
  by_cases hn : n = 0
  · subst hn
    exact ⟨digits_toDigits 0, fun _ => rfl⟩
  · exact whole_of_head? (digits_toDigits n) (head?_toDigits_ne_zero hn)

/-- Digits after digits are digits. -/
theorem Digits.append (hd : Digits ds) (hd' : ∀ c ∈ ds', c.isDigit) : Digits (ds ++ ds') :=
  ⟨List.append_ne_nil_of_left_ne_nil hd.1 ds', fun c hc =>
    (List.mem_append.1 hc).elim (hd.2 c) (hd' c)⟩

/-- An integer is its sign before its size. -/
theorem signed_natAbs (n : Int) : Token.signed (decide (n < 0)) n.natAbs = n := by
  unfold Token.signed
  by_cases hn : n < 0
  · rw [if_pos (decide_eq_true hn)]
    omega
  · rw [if_neg (by simp [hn])]
    omega

/-- A row of zeros is all digits. -/
theorem isDigit_of_mem_zeros {c : Char} (h : c ∈ Layout.zeros n) : c.isDigit := by
  rw [List.eq_of_mem_replicate h]
  rfl

/-- The first digits of a number are a whole part too. -/
theorem whole_take (hn : n ≠ 0) (hk : 0 < k) : Whole ((Nat.toDigits 10 n).take k) := by
  obtain ⟨hne, hd⟩ := digits_toDigits n
  refine whole_of_head? ⟨?_, fun c hc => hd c (List.mem_of_mem_take hc)⟩ ?_
  · rw [Ne, List.take_eq_nil_iff]
    rintro (hzero | hnil)
    · omega
    · exact hne hnil
  · rw [List.head?_take, if_neg (by omega)]
    exact head?_toDigits_ne_zero hn

/-- The last ones are digits, if there are any. -/
theorem digits_drop (hk : k < (Nat.toDigits 10 n).length) :
    Digits ((Nat.toDigits 10 n).drop k) := by
  refine ⟨?_, fun c hc => (digits_toDigits n).2 c (List.mem_of_mem_drop hc)⟩
  rw [Ne, List.drop_eq_nil_iff]
  omega

end Json

/-! ## Layouts -/

/-- A text is a number with a point or an exponent that reads as a decimal
does, whatever its sign. -/
def Decimal.WrittenBy (d : Decimal) (cs : List Char) : Prop :=
  ∃ ds fraction after exponent power, cs = ds ++ fraction ++ exponent ∧ Whole ds ∧
    Fraction fraction after ∧ Exponent exponent power ∧ fraction ++ exponent ≠ [] ∧
    ∀ negative, Double.ofDecimal? negative (Nat.ofDigitChars 10 (ds ++ after) 0)
      (power - after.length) = Double.ofDecimal? negative d.digits d.power

/-- It may be by its very digits. -/
theorem Decimal.writtenBy_of_digits {d : Decimal} {ds fraction after exponent : List Char}
    {power : Int} (hd : Whole ds) (hf : Fraction fraction after) (he : Exponent exponent power)
    (hne : fraction ++ exponent ≠ []) (hdigits : ds ++ after = Nat.toDigits 10 d.digits)
    (hpower : power - after.length = d.power) : d.WrittenBy (ds ++ fraction ++ exponent) := by
  refine ⟨ds, fraction, after, exponent, power, rfl, hd, hf, he, hne, fun negative => ?_⟩
  rw [hdigits, hpower, Nat.ofDigitChars_ten_toDigits]

namespace Layout

variable {d : Decimal} {places : Int}

/-- A number below one is written with zeros before its digits. -/
theorem writtenBy_of_nonpos (hplaces : d.power + (Nat.toDigits 10 d.digits).length = places)
    (h : places ≤ 0) : d.WrittenBy (pointed (Nat.toDigits 10 d.digits) places) := by
  have hdigits := Json.digits_toDigits d.digits
  have hafter : Digits (zeros (-places).toNat ++ Nat.toDigits 10 d.digits) :=
    ⟨List.append_ne_nil_of_right_ne_nil _ hdigits.1, fun c hc =>
      (List.mem_append.1 hc).elim Json.isDigit_of_mem_zeros (hdigits.2 c)⟩
  have hvalue : Nat.ofDigitChars 10 (['0'] ++ (zeros (-places).toNat ++ Nat.toDigits 10 d.digits))
      0 = d.digits := by
    rw [Nat.ofDigitChars_append, Nat.ofDigitChars_append, zeros, Nat.ofDigitChars_replicate_zero]
    simp [Nat.ofDigitChars_cons]
  refine ⟨['0'], _, _, [], 0, ?_, Json.whole_toDigits 0, .some hafter, .none, by simp,
    fun negative => ?_⟩
  · rw [pointed, if_pos h]
    simp
  · rw [hvalue, List.length_append, zeros, List.length_replicate]
    congr 1
    omega

/-- A whole number is written with zeros after its digits and one behind the
point, so it is counted in tenths. -/
theorem writtenBy_of_length_le
    (hplaces : d.power + (Nat.toDigits 10 d.digits).length = places)
    (h : ((Nat.toDigits 10 d.digits).length : Int) ≤ places) (hsmall : places ≤ 400)
    (hzero : d.digits = 0 → d.power = 0) :
    d.WrittenBy (pointed (Nat.toDigits 10 d.digits) places) := by
  have hdigits := Json.digits_toDigits d.digits
  have hpos : 0 < (Nat.toDigits 10 d.digits).length := Nat.length_toDigits_pos
  obtain ⟨k, hk⟩ := Int.eq_ofNat_of_zero_le (show 0 ≤ d.power by omega)
  have hrow : places.toNat - (Nat.toDigits 10 d.digits).length = k := by omega
  have hwhole : Whole (Nat.toDigits 10 d.digits ++ zeros k) := by
    by_cases hd : d.digits = 0
    · obtain rfl : k = 0 := by
        have hpower := hzero hd
        omega
      rw [zeros, List.replicate_zero, List.append_nil]
      exact Json.whole_toDigits _
    · refine Json.whole_of_head? (hdigits.append fun c => Json.isDigit_of_mem_zeros) ?_
      rw [List.head?_append_of_ne_nil _ hdigits.1]
      exact Json.head?_toDigits_ne_zero hd
  have hvalue : Nat.ofDigitChars 10 (Nat.toDigits 10 d.digits ++ zeros k ++ ['0']) 0 =
      d.digits * Nat.pow 10 (k + 1) := by
    rw [Nat.ofDigitChars_append, Nat.ofDigitChars_append, Nat.ofDigitChars_ten_toDigits, zeros,
      Nat.ofDigitChars_replicate_zero, Nat.ofDigitChars_cons, Nat.ofDigitChars_nil, Nat.sub_self,
      Nat.pow_eq]
    ring
  have htenths : Digits ['0'] := Json.digits_toDigits 0
  refine ⟨_, _, _, [], 0, ?_, hwhole, .some htenths, .none, by simp, fun negative => ?_⟩
  · rw [pointed, if_neg (by omega), if_pos h, hrow]
    simp
  · rw [hvalue, hk]
    exact Double.ofDecimal?_mul_pow negative d.digits (by omega)

/-- A point inside the digits parts them. -/
theorem pointed_of_lt {k : Nat} {digits : List Char} (hk : 0 < k) (h : k < digits.length) :
    pointed digits k = digits.take k ++ '.' :: digits.drop k := by
  rw [pointed, if_neg (by omega), if_neg (by omega), Int.toNat_natCast]

/-- A number with digits on either side of the point. -/
theorem writtenBy_of_lt {k : Nat} {exponent : List Char} {power : Int} (hk : 0 < k)
    (h : k < (Nat.toDigits 10 d.digits).length) (he : Exponent exponent power)
    (hpower : d.power + (Nat.toDigits 10 d.digits).length = power + k) :
    d.WrittenBy (pointed (Nat.toDigits 10 d.digits) k ++ exponent) := by
  have hd : d.digits ≠ 0 := by
    intro hzero
    rw [hzero, Nat.toDigits_zero, List.length_singleton] at h
    omega
  rw [pointed_of_lt hk h]
  refine Decimal.writtenBy_of_digits (Json.whole_take hd hk) (.some (Json.digits_drop h)) he
    (by simp) (List.take_append_drop _ _) ?_
  rw [List.length_drop]
  omega

/-- An exponent is written with a minus, or without a sign. -/
theorem exponent_json (e : Int) : Exponent ('e' :: json.exponentText e) e := by
  have hdigits := Json.digits_toDigits e.natAbs
  have hpos : 0 < (Nat.toDigits 10 e.natAbs).length := Nat.length_toDigits_pos
  have hrow : json.exponentWidth - (Nat.toDigits 10 e.natAbs).length = 0 := by
    show 1 - _ = 0
    omega
  unfold exponentText
  dsimp only
  rw [hrow, zeros, List.replicate_zero, List.append_nil]
  have hvalue : Json.Token.signed (decide (e < 0))
      (Nat.ofDigitChars 10 (Nat.toDigits 10 e.natAbs) 0) = e := by
    rw [Nat.ofDigitChars_ten_toDigits, Json.signed_natAbs]
  by_cases he : e < 0
  · have hexponent := Exponent.some (.inl rfl : 'e' = 'e' ∨ 'e' = 'E') .minus hdigits
    rw [← decide_eq_true he, hvalue] at hexponent
    rw [if_pos he]
    exact hexponent
  · have hexponent := Exponent.some (.inl rfl : 'e' = 'e' ∨ 'e' = 'E') .none hdigits
    rw [← decide_eq_false he, hvalue] at hexponent
    rw [if_neg he]
    exact hexponent

/-- **JSON text writes a decimal.** -/
theorem writtenBy_decimalText (hzero : d.digits = 0 → d.power = 0) :
    d.WrittenBy (json.decimalText d) := by
  have hpos : 0 < (Nat.toDigits 10 d.digits).length := Nat.length_toDigits_pos
  unfold decimalText
  dsimp only
  split
  · rename_i hplain
    have hmost : d.power + (Nat.toDigits 10 d.digits).length - 1 ≤ 15 := hplain.2
    by_cases h : d.power + (Nat.toDigits 10 d.digits).length ≤ 0
    · exact writtenBy_of_nonpos (by omega) (by omega)
    by_cases h' : 0 ≤ d.power
    · exact writtenBy_of_length_le (by omega) (by omega) (by omega) hzero
    · obtain ⟨k, hk⟩ := Int.eq_ofNat_of_zero_le
        (show 0 ≤ d.power + (Nat.toDigits 10 d.digits).length by omega)
      have hpointed := writtenBy_of_lt (d := d) (k := k) (by omega) (by omega) .none (by omega)
      rw [List.append_nil] at hpointed
      rw [sub_add_cancel, hk]
      exact hpointed
  · split
    · rename_i hone
      have hwritten := Decimal.writtenBy_of_digits (d := d) (Json.whole_toDigits d.digits) .none
        (exponent_json (d.power + (Nat.toDigits 10 d.digits).length - 1)) (by simp)
        (List.append_nil _) (by simp [hone])
      rw [List.append_nil] at hwritten
      exact hwritten
    · exact writtenBy_of_lt (k := 1) (by decide) (by omega) (exponent_json _) (by omega)

/-- **JSON text writes a binary64 number as a word that reads back as it.** -/
theorem exists_lexeme_text (x : Double) :
    ∃ s, Lexeme (json.text x) s ∧ s.value? = some (.float x) := by
  obtain ⟨ds, fraction, after, exponent, power, htext, hd, hf, he, hne, hread⟩ :=
    writtenBy_decimalText (d := x.shortest) Double.power_shortest_of_digits_eq_zero
  have hword := Lexeme.decimal x.negative hd hf he hne
  have hback : Double.ofDecimal? x.negative x.shortest.digits x.shortest.power = some x :=
    x.readsBack_shortest
  have hsame : json.text x = Json.minus x.negative ++ ds ++ fraction ++ exponent := by
    rw [text, htext, List.append_assoc, List.append_assoc, List.append_assoc]
    rfl
  rw [← hsame] at hword
  refine ⟨_, hword, ?_⟩
  rw [Json.Scalar.value?, hread, hback]
  rfl

end Layout

end Workflow
