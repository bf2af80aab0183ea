import Mathlib.Algebra.Order.Field.Power
import Mathlib.Data.Int.Log
import Mathlib.Data.Rat.Floor
import Mathlib.Tactic.FieldSimp
import Mathlib.Tactic.NormNum
import Mathlib.Tactic.Positivity
import Workflow.Number.Shortest
/-!
# Workflow — reading binary64 numbers back

A ratio is rounded by its value alone (`Double.ofRatio?_mul`), and one that is
a binary64 number is read as that number (`Double.ofRatio?_of_eq`). So a number
is read back from its exact expansion, and from the shortest decimal that is
chosen for it (`Double.readsBack_shortest`).
-/

namespace Workflow

namespace Double

variable {num den c : Nat} {e g : Int}

/-! ## The magnitude of a ratio -/

/-- A ratio reaches a power of two, in whole numbers. -/
theorem two_zpow_le_div_iff (num : Nat) (hd : 0 < den) (e : Int) :
    (2 : ℚ) ^ e ≤ (num : ℚ) / den ↔
      if 0 ≤ e then den * Nat.pow 2 e.toNat ≤ num else den ≤ num * Nat.pow 2 (-e).toNat := by
  have hden : (0 : ℚ) < den := by exact_mod_cast hd
  rw [le_div_iff₀ hden]
  split
  · rename_i he
    obtain ⟨k, rfl⟩ := Int.eq_ofNat_of_zero_le he
    rw [zpow_natCast, Int.toNat_natCast, Nat.pow_eq, mul_comm]
    exact_mod_cast Iff.rfl
  · obtain ⟨k, rfl⟩ := Int.exists_eq_neg_ofNat (show e ≤ 0 by omega)
    rw [zpow_neg, zpow_natCast, neg_neg, Int.toNat_natCast, Nat.pow_eq,
      inv_mul_le_iff₀ (by positivity), mul_comm]
    exact_mod_cast Iff.rfl

/-- The power of two that a ratio reaches and does not double is the only one. -/
theorem log_eq_of_le_of_lt {q : ℚ} (hle : (2 : ℚ) ^ g ≤ q) (hlt : q < (2 : ℚ) ^ (g + 1)) :
    Int.log 2 q = g := by
  have hq : 0 < q := lt_of_lt_of_le (zpow_pos two_pos g) hle
  have hlow : g ≤ Int.log 2 q := (Int.zpow_le_iff_le_log one_lt_two hq).1 (by exact_mod_cast hle)
  have hhigh : Int.log 2 q < g + 1 :=
    (Int.lt_zpow_iff_log_lt one_lt_two hq).1 (by exact_mod_cast hlt)
  omega

/-- **The magnitude is the largest power of two, as an exponent, that the ratio
reaches.** The lengths of the two numbers give it or one more. -/
theorem magnitude_eq_log (hn : 0 < num) (hd : 0 < den) :
    magnitude num den = Int.log 2 ((num : ℚ) / den) := by
  have hden : (0 : ℚ) < den := by exact_mod_cast hd
  have hn₁ : (2 : ℚ) ^ (num.log2 : Int) ≤ num := by
    rw [zpow_natCast]
    exact_mod_cast Nat.log2_self_le hn.ne'
  have hn₂ : (num : ℚ) < 2 ^ (num.log2 + 1 : Int) := by
    exact_mod_cast Nat.lt_log2_self
  have hd₁ : (2 : ℚ) ^ (den.log2 : Int) ≤ den := by
    rw [zpow_natCast]
    exact_mod_cast Nat.log2_self_le hd.ne'
  have hd₂ : (den : ℚ) < 2 ^ (den.log2 + 1 : Int) := by
    exact_mod_cast Nat.lt_log2_self
  have hlow : (2 : ℚ) ^ ((num.log2 : Int) - den.log2 - 1) ≤ num / den := by
    rw [le_div_iff₀ hden]
    calc (2 : ℚ) ^ ((num.log2 : Int) - den.log2 - 1) * den
        ≤ 2 ^ ((num.log2 : Int) - den.log2 - 1) * 2 ^ (den.log2 + 1 : Int) := by gcongr
      _ = 2 ^ (num.log2 : Int) := by
        rw [← zpow_add₀ two_ne_zero]
        congr 1
        omega
      _ ≤ num := hn₁
  have hhigh : (num : ℚ) / den < 2 ^ ((num.log2 : Int) - den.log2 + 1) := by
    rw [div_lt_iff₀ hden]
    calc (num : ℚ) < 2 ^ (num.log2 + 1 : Int) := hn₂
      _ = 2 ^ ((num.log2 : Int) - den.log2 + 1) * 2 ^ (den.log2 : Int) := by
        rw [← zpow_add₀ two_ne_zero]
        congr 1
        omega
      _ ≤ 2 ^ ((num.log2 : Int) - den.log2 + 1) * den := by gcongr
  have hreached := two_zpow_le_div_iff num hd (num.log2 - den.log2)
  unfold magnitude
  dsimp only
  by_cases h : (2 : ℚ) ^ ((num.log2 : Int) - den.log2) ≤ num / den
  · rw [if_pos (hreached.1 h)]
    exact (log_eq_of_le_of_lt h hhigh).symm
  · rw [if_neg (mt hreached.2 h)]
    refine (log_eq_of_le_of_lt hlow ?_).symm
    rw [sub_add_cancel]
    exact not_le.1 h

/-! ## Rounding a ratio -/

/-- Rounding looks at the ratio alone. -/
theorem roundEven_mul (hc : 0 < c) : roundEven (num * c) (den * c) = roundEven num den := by
  have hlt (a b : Nat) : a * c < b * c ↔ a < b := Nat.mul_lt_mul_right hc
  unfold roundEven
  simp only [Nat.mul_div_mul_right _ _ hc, Nat.mul_mod_mul_right, ← Nat.mul_assoc, hlt]

/-- Nothing is rounded where there is no remainder. -/
theorem roundEven_mul_self (k : Nat) (hd : 0 < den) : roundEven (k * den) den = k := by
  unfold roundEven
  simp [Nat.mul_div_cancel k hd, hd]

theorem magnitude_mul (hn : 0 < num) (hd : 0 < den) (hc : 0 < c) :
    magnitude (num * c) (den * c) = magnitude num den := by
  have hc' : (c : ℚ) ≠ 0 := by exact_mod_cast hc.ne'
  rw [magnitude_eq_log (Nat.mul_pos hn hc) (Nat.mul_pos hd hc), magnitude_eq_log hn hd]
  push_cast
  rw [mul_div_mul_right _ _ hc']

theorem scaled_mul (hc : 0 < c) : scaled (num * c) (den * c) e = scaled num den e := by
  unfold scaled
  rw [Nat.mul_right_comm den c, Nat.mul_right_comm num c, roundEven_mul hc, roundEven_mul hc]

/-- **A ratio is rounded by its value alone.** -/
theorem ofRatio?_mul (negative : Bool) (hn : 0 < num) (hd : 0 < den) (hc : 0 < c) :
    ofRatio? negative (num * c) (den * c) = ofRatio? negative num den := by
  simp only [ofRatio?, magnitude_mul hn hd hc, scaled_mul hc]

/-- What a ratio is worth in units of a power of two, if that is a whole
number. -/
theorem scaled_of_eq {k : Nat} (hd : 0 < den) (h : (num : ℚ) / den = k * 2 ^ e) :
    scaled num den e = k := by
  have hden : (den : ℚ) ≠ 0 := by exact_mod_cast hd.ne'
  rw [div_eq_iff hden] at h
  unfold scaled
  split
  · rename_i he
    obtain ⟨i, rfl⟩ := Int.eq_ofNat_of_zero_le he
    rw [zpow_natCast] at h
    have hnum : num = k * (den * Nat.pow 2 i) := by
      rw [Nat.pow_eq, Nat.mul_comm den, ← Nat.mul_assoc]
      exact_mod_cast h
    rw [Int.toNat_natCast, hnum]
    exact roundEven_mul_self k (Nat.mul_pos hd (Nat.pow_pos two_pos))
  · obtain ⟨i, rfl⟩ := Int.exists_eq_neg_ofNat (show e ≤ 0 by omega)
    rw [zpow_neg, zpow_natCast] at h
    have hnum : num * Nat.pow 2 i = k * den := by
      rw [Nat.pow_eq]
      have hq : (num : ℚ) * 2 ^ i = k * den := by
        rw [h]
        field_simp
      exact_mod_cast hq
    rw [neg_neg, Int.toNat_natCast, hnum]
    exact roundEven_mul_self k hd

/-! ## Reading a number as itself -/

/-- The value of a binary64 number, without its sign. -/
def size (x : Double) : ℚ :=
  x.mantissa * 2 ^ x.exponent

theorem size_pos (x : Double) (hx : x.mantissa ≠ 0) : 0 < x.size := by
  have hm : (0 : ℚ) < x.mantissa := by exact_mod_cast Nat.pos_of_ne_zero hx
  exact mul_pos hm (zpow_pos two_pos _)

/-- The leading bit of a number counts as much as that of its mantissa, in its
units. -/
theorem log_size (x : Double) (hx : x.mantissa ≠ 0) :
    Int.log 2 x.size = x.mantissa.log2 + x.exponent := by
  have hpow : (0 : ℚ) < 2 ^ x.exponent := zpow_pos two_pos _
  refine log_eq_of_le_of_lt ?_ ?_
  · rw [zpow_add₀ two_ne_zero, zpow_natCast, size]
    gcongr
    exact_mod_cast Nat.log2_self_le hx
  · rw [add_right_comm, zpow_add₀ two_ne_zero, size]
    gcongr
    exact_mod_cast Nat.lt_log2_self

/-- **The exponent of a number is the one that its magnitude asks for**: its
mantissa fills its bits unless the exponent is the least. -/
theorem max_log_size (x : Double) (hx : x.mantissa ≠ 0) :
    max (Int.log 2 x.size - 52) (-1074) = x.exponent := by
  obtain ⟨hlt, hleast, -, hfull⟩ := x.canonical
  have hlog : x.mantissa.log2 < 53 := (Nat.log2_lt hx).2 hlt
  rw [log_size x hx]
  rcases hfull with hfull | hfull
  · have hlog' : 52 ≤ x.mantissa.log2 := (Nat.le_log2 hx).2 hfull
    omega
  · omega

/-- **A ratio that is a binary64 number is read as that number.** -/
theorem ofRatio?_of_eq (x : Double) (hx : x.mantissa ≠ 0) (hd : 0 < den)
    (h : (num : ℚ) / den = x.size) : ofRatio? x.negative num den = some x := by
  have hn : 0 < num := by
    rcases Nat.eq_zero_or_pos num with rfl | hn
    · rw [Nat.cast_zero, zero_div] at h
      exact absurd h.symm (x.size_pos hx).ne'
    · exact hn
  have hmantissa : x.mantissa ≠ Nat.pow 2 53 := x.canonical.1.ne
  simp only [ofRatio?, magnitude_eq_log hn hd, h, x.max_log_size hx, scaled_of_eq hd h,
    if_neg hmantissa, dif_pos x.canonical]

/-! ## Reading decimals -/

/-- **A decimal that is a binary64 number is read as that number**, unless it is
so far outside the range that it is not looked at. -/
theorem ofDecimal?_of_eq (x : Double) (hx : x.mantissa ≠ 0) {digits : Nat} {power : Int}
    (hhigh : power ≤ 400) (hlow : -400 ≤ power + digits.log2)
    (h : (digits : ℚ) * 10 ^ power = x.size) : ofDecimal? x.negative digits power = some x := by
  have hdigits : digits ≠ 0 := by
    rintro rfl
    rw [Nat.cast_zero, zero_mul] at h
    exact (x.size_pos hx).ne h
  unfold ofDecimal?
  rw [if_neg hdigits, if_neg (by omega), if_neg (by omega)]
  split
  · rename_i hpower
    obtain ⟨k, rfl⟩ := Int.eq_ofNat_of_zero_le hpower
    refine x.ofRatio?_of_eq hx Nat.one_pos ?_
    rw [← h, zpow_natCast, Int.toNat_natCast, Nat.pow_eq]
    push_cast
    rw [div_one]
  · obtain ⟨k, rfl⟩ := Int.exists_eq_neg_ofNat (show power ≤ 0 by omega)
    refine x.ofRatio?_of_eq hx (Nat.pow_pos (by decide)) ?_
    rw [← h, zpow_neg, zpow_natCast, neg_neg, Int.toNat_natCast, Nat.pow_eq]
    push_cast
    rw [div_eq_mul_inv]

/-- A number that is written out in tens reads the same with its point one
digit further right. -/
theorem ofDecimal?_mul_pow (negative : Bool) (digits : Nat) {k : Nat} (hk : k ≤ 400) :
    ofDecimal? negative (digits * Nat.pow 10 (k + 1)) (-1) = ofDecimal? negative digits k := by
  unfold ofDecimal?
  by_cases hdigits : digits = 0
  · rw [hdigits, Nat.zero_mul, if_pos rfl, if_pos rfl]
  · have hpos : 0 < digits * Nat.pow 10 k :=
      Nat.mul_pos (Nat.pos_of_ne_zero hdigits) (Nat.pow_pos (by decide))
    have hsplit : digits * Nat.pow 10 (k + 1) = digits * Nat.pow 10 k * 10 :=
      (Nat.mul_assoc _ _ _).symm
    rw [hsplit, if_neg (by omega), if_neg (by omega), if_neg (by omega), if_neg (by omega),
      if_neg hdigits, if_neg (by omega), if_neg (by omega), if_pos (by omega), Int.toNat_natCast]
    exact ofRatio?_mul negative hpos Nat.one_pos (by decide)

/-- The exact expansion is worth what the number is. -/
theorem size_expansion (x : Double) (hx : x.mantissa ≠ 0) :
    (x.expansion.digits : ℚ) * 10 ^ x.expansion.power = x.size := by
  unfold expansion size
  rw [if_neg hx]
  split
  · rename_i he
    obtain ⟨k, hk⟩ := Int.eq_ofNat_of_zero_le he
    rw [hk, zpow_natCast, Int.toNat_natCast, Nat.pow_eq, zpow_zero, mul_one]
    push_cast
    rfl
  · obtain ⟨k, hk⟩ := Int.exists_eq_neg_ofNat (show x.exponent ≤ 0 by omega)
    have hten : (10 : ℚ) = 2 * 5 := by norm_num
    rw [hk, zpow_neg, zpow_neg, zpow_natCast, zpow_natCast, neg_neg, Int.toNat_natCast, Nat.pow_eq,
      hten, mul_pow]
    push_cast
    field_simp

/-- It is near enough to the range of binary64 to be looked at: there are at
least as many digits in base two behind the point as fives in the digits. -/
theorem expansion_near (x : Double) (hx : x.mantissa ≠ 0) :
    x.expansion.power ≤ 400 ∧ -400 ≤ x.expansion.power + x.expansion.digits.log2 := by
  unfold expansion
  rw [if_neg hx]
  split
  · constructor
    · show (0 : Int) ≤ 400
      omega
    · show (-400 : Int) ≤ 0 + _
      omega
  · obtain ⟨k, hk⟩ := Int.exists_eq_neg_ofNat (show x.exponent ≤ 0 by omega)
    have hpow : 2 ^ k ≤ x.mantissa * Nat.pow 5 k :=
      calc 2 ^ k ≤ 5 ^ k := Nat.pow_le_pow_left (by decide) k
        _ ≤ x.mantissa * 5 ^ k := Nat.le_mul_of_pos_left _ (Nat.pos_of_ne_zero hx)
    have hlog : k ≤ (x.mantissa * Nat.pow 5 k).log2 := by
      refine (Nat.le_log2 ?_).2 hpow
      exact (Nat.lt_of_lt_of_le (Nat.pow_pos two_pos) hpow).ne'
    constructor
    · show x.exponent ≤ 400
      omega
    · show -400 ≤ x.exponent + ((x.mantissa * Nat.pow 5 (-x.exponent).toNat).log2 : Int)
      rw [hk, neg_neg, Int.toNat_natCast]
      omega

/-- **A number is read back from its exact expansion.** -/
theorem readsBack_expansion (x : Double) : x.ReadsBack x.expansion := by
  by_cases hx : x.mantissa = 0
  · obtain ⟨negative, mantissa, exponent, hlt, hleast, hmost, hfull⟩ := x
    obtain rfl : mantissa = 0 := hx
    obtain rfl : exponent = -1074 := hfull.resolve_left (by decide)
    rfl
  · obtain ⟨hhigh, hlow⟩ := x.expansion_near hx
    exact x.ofDecimal?_of_eq hx hhigh hlow (x.size_expansion hx)

/-- **A number is read back from its shortest decimal**, which is the first that
is read back or, if none is, the exact expansion. -/
theorem readsBack_shortest (x : Double) : x.ReadsBack x.shortest := by
  unfold shortest
  dsimp only
  split
  · exact x.readsBack_expansion
  · cases hfound : (List.range 18).findSome? fun count =>
        (x.expansion.neighbours (x.expansion.length - count)).find? fun candidate =>
          x.ReadsBack candidate with
    | none => exact x.readsBack_expansion
    | some d =>
      obtain ⟨count, -, hcount⟩ := List.exists_of_findSome?_eq_some hfound
      simpa using List.find?_some hcount

/-- Only zero has a shortest decimal of no digits but zero, which counts ones. -/
theorem power_shortest_of_digits_eq_zero {x : Double} (h : x.shortest.digits = 0) :
    x.shortest.power = 0 := by
  have hread : ofDecimal? x.negative x.shortest.digits x.shortest.power = some x :=
    x.readsBack_shortest
  have hzero : zero x.negative = x := by
    rw [ofDecimal?, if_pos h] at hread
    exact Option.some.inj hread
  rw [← hzero]
  rfl

end Double

end Workflow
