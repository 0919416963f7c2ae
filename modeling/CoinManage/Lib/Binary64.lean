import Mathlib.Tactic
import Mathlib.Data.Int.Log

/-!
# Rounding to a double

`Binary64.round q` is the double nearest to the rational `q`, ties to even; it is exact rational
arithmetic, so it evaluates.  `Representable f` says that `f` is an integer of 53 bits times a
power of two that is not below the last subnormal place.

* `le_round`, `round_le`   rounding never crosses a representable number;
* `abs_round_le`           what is within a representable bound of zero stays within it;
* `abs_round_sub_le`       below `2^k` the rounding is off by at most half a unit of `2^(k-53)`.

The range is not cut off: a caller compares with `2^1024` where overflow matters.
-/

set_option linter.unusedSectionVars false

namespace Binary64

/-- the nearest integer, ties to the even one -/
def roundHalfEven (q : ℚ) : ℤ :=
  if q - ⌊q⌋ < 1 / 2 ∨ (q - ⌊q⌋ = 1 / 2 ∧ ⌊q⌋ % 2 = 0) then ⌊q⌋ else ⌊q⌋ + 1

/-- the exponent of the last place of a double near `q` -/
def lastPlace (q : ℚ) : ℤ := max (Int.log 2 q - 52) (-1074)

def roundAbs (q : ℚ) : ℚ := roundHalfEven (q / 2 ^ lastPlace q) * 2 ^ lastPlace q

def round (q : ℚ) : ℚ := if q < 0 then -roundAbs (-q) else roundAbs q

def Representable (f : ℚ) : Prop := ∃ m k : ℤ, f = m * 2 ^ k ∧ |m| ≤ 2 ^ 53 ∧ -1074 ≤ k

/-! ## integers -/

theorem floor_le_roundHalfEven (q : ℚ) : ⌊q⌋ ≤ roundHalfEven q := by
  rw [roundHalfEven]
  split <;> omega

theorem roundHalfEven_le_floor_add_one (q : ℚ) : roundHalfEven q ≤ ⌊q⌋ + 1 := by
  rw [roundHalfEven]
  split <;> omega

theorem roundHalfEven_intCast (n : ℤ) : roundHalfEven n = n := by
  have h : (n : ℚ) - ⌊(n : ℚ)⌋ < 1 / 2 := by
    rw [Int.floor_intCast, sub_self]
    norm_num
  rw [roundHalfEven, if_pos (Or.inl h), Int.floor_intCast]

theorem le_roundHalfEven {n : ℤ} {q : ℚ} (h : (n : ℚ) ≤ q) : n ≤ roundHalfEven q :=
  (Int.le_floor.mpr h).trans (floor_le_roundHalfEven q)

theorem roundHalfEven_le {n : ℤ} {q : ℚ} (h : q ≤ n) : roundHalfEven q ≤ n := by
  rcases h.eq_or_lt with rfl | hlt
  · exact (roundHalfEven_intCast n).le
  · have hfloor : ⌊q⌋ < n := Int.floor_lt.mpr hlt
    have hround := roundHalfEven_le_floor_add_one q
    omega

theorem abs_roundHalfEven_sub_le (q : ℚ) : |(roundHalfEven q : ℚ) - q| ≤ 1 / 2 := by
  have h1 := Int.floor_le q
  have h2 := Int.lt_floor_add_one q
  rw [roundHalfEven]
  split
  · next h =>
    have hle : q - ⌊q⌋ ≤ 1 / 2 := by
      rcases h with h | h
      · exact h.le
      · exact h.1.le
    rw [abs_le]
    constructor <;> linarith
  · next h =>
    have hge : 1 / 2 ≤ q - ⌊q⌋ := by
      by_contra hlt
      exact h (Or.inl (not_le.mp hlt))
    push_cast
    rw [abs_le]
    constructor <;> linarith

/-! ## the places of a positive number -/

theorem two_zpow_pos (e : ℤ) : (0 : ℚ) < 2 ^ e := zpow_pos (by norm_num) e

/-- above the subnormals the last place is 52 binary places below the first -/
theorem two_zpow_lastPlace_le {q : ℚ} (hq : 0 < q) (h : -1074 < lastPlace q) :
    (2 : ℚ) ^ (lastPlace q + 52) ≤ q := by
  have hlast : lastPlace q = Int.log 2 q - 52 := by
    rw [lastPlace] at h ⊢
    omega
  have hlog := Int.zpow_log_le_self (b := 2) (by norm_num) hq
  have hplaces : lastPlace q + 52 = Int.log 2 q := by omega
  rw [hplaces]
  exact hlog

/-- a representable number is a whole number of last places of `q`, or at most the least number
with those places -/
theorem Representable.cases {f q : ℚ} (hf : Representable f) :
    (∃ n : ℤ, f = n * 2 ^ lastPlace q) ∨
      (f ≤ 2 ^ (lastPlace q + 52) ∧ -1074 < lastPlace q) := by
  obtain ⟨m, k, rfl, hm, hk⟩ := hf
  by_cases hke : lastPlace q ≤ k
  · left
    obtain ⟨d, hd⟩ := Int.eq_ofNat_of_zero_le (sub_nonneg.mpr hke)
    have hsplit : k = (d : ℤ) + lastPlace q := by omega
    refine ⟨m * 2 ^ d, ?_⟩
    rw [hsplit, zpow_add₀ (by norm_num), zpow_natCast]
    push_cast
    ring
  · right
    have hlt : k < lastPlace q := not_le.mp hke
    refine ⟨?_, by omega⟩
    have hm' : (m : ℚ) ≤ 2 ^ 53 := by
      have h := (le_abs_self m).trans hm
      exact_mod_cast h
    have hstep : (2 : ℚ) ^ k ≤ 2 ^ (lastPlace q - 1) :=
      zpow_le_zpow_right₀ (by norm_num) (by omega)
    calc (m : ℚ) * 2 ^ k ≤ 2 ^ 53 * 2 ^ k :=
          mul_le_mul_of_nonneg_right hm' (two_zpow_pos k).le
      _ ≤ 2 ^ 53 * 2 ^ (lastPlace q - 1) := mul_le_mul_of_nonneg_left hstep (by positivity)
      _ = 2 ^ (lastPlace q + 52) := by
          rw [← zpow_natCast (2 : ℚ) 53, ← zpow_add₀ (by norm_num)]
          congr 1
          push_cast
          ring

/-- the least number with the places of `q`, as a whole number of them -/
theorem first_place (q : ℚ) :
    (2 : ℚ) ^ (lastPlace q + 52) = ((2 ^ 52 : ℤ) : ℚ) * 2 ^ lastPlace q := by
  rw [zpow_add₀ (by norm_num), mul_comm]
  norm_num

/-! ## the order -/

theorem whole_le_roundAbs {n : ℤ} {q : ℚ} (h : (n : ℚ) * 2 ^ lastPlace q ≤ q) :
    (n : ℚ) * 2 ^ lastPlace q ≤ roundAbs q := by
  have hn : (n : ℚ) ≤ q / 2 ^ lastPlace q := (le_div_iff₀ (two_zpow_pos _)).mpr h
  have hround : (n : ℚ) ≤ roundHalfEven (q / 2 ^ lastPlace q) := by
    exact_mod_cast le_roundHalfEven hn
  exact mul_le_mul_of_nonneg_right hround (two_zpow_pos _).le

theorem roundAbs_le_whole {n : ℤ} {q : ℚ} (h : q ≤ (n : ℚ) * 2 ^ lastPlace q) :
    roundAbs q ≤ (n : ℚ) * 2 ^ lastPlace q := by
  have hn : q / 2 ^ lastPlace q ≤ n := (div_le_iff₀ (two_zpow_pos _)).mpr h
  have hround : (roundHalfEven (q / 2 ^ lastPlace q) : ℚ) ≤ n := by
    exact_mod_cast roundHalfEven_le hn
  exact mul_le_mul_of_nonneg_right hround (two_zpow_pos _).le

theorem le_roundAbs {f q : ℚ} (hf : Representable f) (hq : 0 < q) (h : f ≤ q) :
    f ≤ roundAbs q := by
  rcases hf.cases (q := q) with ⟨n, rfl⟩ | ⟨hle, hplace⟩
  · exact whole_le_roundAbs h
  · have hfirst := two_zpow_lastPlace_le hq hplace
    rw [first_place] at hle hfirst
    exact hle.trans (whole_le_roundAbs hfirst)

theorem roundAbs_le {f q : ℚ} (hf : Representable f) (hq : 0 < q) (h : q ≤ f) :
    roundAbs q ≤ f := by
  rcases hf.cases (q := q) with ⟨n, rfl⟩ | ⟨hle, hplace⟩
  · exact roundAbs_le_whole h
  · -- only the least number with these places is left
    have hfirst := two_zpow_lastPlace_le hq hplace
    have heq : f = 2 ^ (lastPlace q + 52) := le_antisymm hle (hfirst.trans h)
    rw [first_place] at heq
    rw [heq] at h ⊢
    exact roundAbs_le_whole h

/-- rounding a positive number up to no more than a representable bound -/
theorem round_le {f q : ℚ} (hf : Representable f) (hq : 0 < q) (h : q ≤ f) : round q ≤ f := by
  rw [round, if_neg (not_lt.mpr hq.le)]
  exact roundAbs_le hf hq h

theorem le_round {f q : ℚ} (hf : Representable f) (hq : 0 < q) (h : f ≤ q) : f ≤ round q := by
  rw [round, if_neg (not_lt.mpr hq.le)]
  exact le_roundAbs hf hq h

theorem round_neg (q : ℚ) : round (-q) = -round q := by
  have h0 : roundAbs 0 = 0 := by decide +kernel
  rcases lt_trichotomy q 0 with h | rfl | h
  · rw [round, if_neg (by linarith), round, if_pos h, neg_neg]
  · rw [neg_zero, round, if_neg (lt_irrefl 0), h0, neg_zero]
  · rw [round, if_pos (by linarith), round, if_neg (by linarith), neg_neg]

theorem round_zero : round 0 = 0 := by decide +kernel

/-- what is at most a representable bound away from zero stays so -/
theorem abs_round_le {f q : ℚ} (hf : Representable f) (h : |q| ≤ f) : |round q| ≤ f := by
  have hpos : ∀ {p : ℚ}, 0 < p → p ≤ f → |round p| ≤ f := fun {p} hp hle => by
    have hzero : (0 : ℚ) ≤ round p := le_round ⟨0, 0, by norm_num, by norm_num, by norm_num⟩ hp hp.le
    rw [abs_of_nonneg hzero]
    exact round_le hf hp hle
  rcases lt_trichotomy q 0 with hq | rfl | hq
  · rw [abs_of_neg hq] at h
    have hneg := hpos (by linarith : 0 < -q) h
    rw [round_neg, abs_neg] at hneg
    exact hneg
  · rw [round_zero]
    exact h
  · rw [abs_of_pos hq] at h
    exact hpos hq h

/-! ## the error -/

theorem lastPlace_le {q : ℚ} {k : ℤ} (hq : 0 < q) (hk : -1021 ≤ k) (h : q < 2 ^ k) :
    lastPlace q ≤ k - 53 := by
  have hlog : Int.log 2 q < k := by
    rw [← Int.lt_zpow_iff_log_lt (by norm_num) hq]
    exact_mod_cast h
  rw [lastPlace]
  omega

theorem abs_round_sub_le {q : ℚ} {k : ℤ} (hq : 0 < q) (hk : -1021 ≤ k) (h : q < 2 ^ k) :
    |round q - q| ≤ 2 ^ (k - 54) := by
  have hplace := lastPlace_le hq hk h
  have hunit := two_zpow_pos (lastPlace q)
  have hhalf := abs_roundHalfEven_sub_le (q / 2 ^ lastPlace q)
  have hsplit : round q - q =
      (roundHalfEven (q / 2 ^ lastPlace q) - q / 2 ^ lastPlace q) * 2 ^ lastPlace q := by
    rw [round, if_neg (not_lt.mpr hq.le), roundAbs, sub_mul, div_mul_cancel₀ _ hunit.ne']
  have hstep : (2 : ℚ) ^ lastPlace q ≤ 2 ^ (k - 53) := zpow_le_zpow_right₀ (by norm_num) hplace
  have hpow : (2 : ℚ) ^ (k - 53) = 2 * 2 ^ (k - 54) := by
    rw [show k - 53 = 1 + (k - 54) by ring, zpow_add₀ (by norm_num), zpow_one]
  rw [hsplit, abs_mul, abs_of_pos hunit]
  calc |(roundHalfEven (q / 2 ^ lastPlace q) : ℚ) - q / 2 ^ lastPlace q| * 2 ^ lastPlace q
      ≤ 1 / 2 * 2 ^ lastPlace q := mul_le_mul_of_nonneg_right hhalf hunit.le
    _ ≤ 1 / 2 * 2 ^ (k - 53) := mul_le_mul_of_nonneg_left hstep (by norm_num)
    _ = 2 ^ (k - 54) := by rw [hpow]; ring

end Binary64
