import Mathlib.Data.List.TakeWhile
import CoinManage.Lib.Binary64

/-!
# The shortest decimal text of a double

A positive double is printed with the fewest digits that round back to it; of several such numbers
the nearest is taken, the even one on a tie.  `Decimal` is a number of `k` digits and the place of
its point; `candidate x k` looks for one of `k` digits among the two neighbours of `x`.

* `shortest_reads`      for a double the search ends, and the number found rounds back to it;
* `readDecimal_text`    the text reads back as the number printed;
* `isDecimalChar_text`  the text consists of digits, a point, an exponent and signs.
-/

set_option linter.unusedSectionVars false

/-- `s`, a number of `k` digits, with the point after the `n`-th of them -/
structure Decimal where
  s : Nat
  k : Nat
  n : ℤ
  deriving DecidableEq, Repr

namespace Decimal
open Binary64 (Representable two_zpow_pos)

def value (d : Decimal) : ℚ := d.s * 10 ^ (d.n - d.k)

/-- it has its `k` digits -/
structure Normal (d : Decimal) : Prop where
  pos : 0 < d.k
  le : 10 ^ (d.k - 1) ≤ d.s
  lt : d.s < 10 ^ d.k

/-! ## the search -/

/-- the number of `k` digits above `low` -/
def above (low k : Nat) (n : ℤ) : Decimal :=
  if low + 1 = 10 ^ k then ⟨10 ^ (k - 1), k, n + 1⟩ else ⟨low + 1, k, n⟩

/-- `⌊x⌋` in units of the `k`-th digit -/
def below (x : ℚ) (k : Nat) : Nat := ⌊x / 10 ^ (Int.log 10 x + 1 - k)⌋.toNat

/-- a number of `k` digits that rounds to `x` -/
def candidate (x : ℚ) (k : Nat) : Option Decimal :=
  let n := Int.log 10 x + 1
  let low : Decimal := ⟨below x k, k, n⟩
  let high := above (below x k) k n
  if Binary64.round low.value = x then
    if Binary64.round high.value = x ∧ (high.value - x < x - low.value ∨
      (high.value - x = x - low.value ∧ below x k % 2 = 1)) then some high
    else some low
  else if Binary64.round high.value = x then some high
  else none

/-- with so many digits every double is a whole number of the last one's units -/
def digitBound (x : ℚ) : Nat := (max (Int.log 10 x + 1) 0 + 1075).toNat

def shortest (x : ℚ) : Decimal :=
  ((List.range (digitBound x)).findSome? fun i => candidate x (i + 1)).getD ⟨0, 1, 0⟩

theorem candidate_reads {x : ℚ} {k : Nat} {d : Decimal} (h : candidate x k = some d) :
    Binary64.round d.value = x := by
  unfold candidate at h
  dsimp only at h
  split at h
  · next hlow =>
    split at h
    · next hhigh =>
      rw [← Option.some.inj h]
      exact hhigh.1
    · rw [← Option.some.inj h]
      exact hlow
  · split at h
    · next hhigh =>
      rw [← Option.some.inj h]
      exact hhigh
    · cases h

theorem candidate_cases {x : ℚ} {k : Nat} {d : Decimal} (h : candidate x k = some d) :
    d = ⟨below x k, k, Int.log 10 x + 1⟩ ∨ d = above (below x k) k (Int.log 10 x + 1) := by
  unfold candidate at h
  dsimp only at h
  split at h
  · split at h
    · exact Or.inr (Option.some.inj h).symm
    · exact Or.inl (Option.some.inj h).symm
  · split at h
    · exact Or.inr (Option.some.inj h).symm
    · cases h

/-- `x` in units of the `k`-th digit -/
theorem scaled_bounds {x : ℚ} (hx : 0 < x) {k : Nat} (hk : 0 < k) :
    (10 : ℚ) ^ (k - 1) ≤ x / 10 ^ (Int.log 10 x + 1 - k) ∧
      x / 10 ^ (Int.log 10 x + 1 - k) < 10 ^ k := by
  have hpos : (0 : ℚ) < 10 ^ (Int.log 10 x + 1 - k) := zpow_pos (by norm_num) _
  have hlow : (10 : ℚ) ^ Int.log 10 x ≤ x := by
    have h := Int.zpow_log_le_self (b := 10) (by norm_num) hx
    exact_mod_cast h
  have hhigh : x < (10 : ℚ) ^ (Int.log 10 x + 1) := by
    have h := Int.lt_zpow_succ_log_self (b := 10) (by norm_num) x
    exact_mod_cast h
  rw [le_div_iff₀ hpos, div_lt_iff₀ hpos, ← zpow_natCast, ← zpow_natCast, ← zpow_add₀ (by norm_num),
    ← zpow_add₀ (by norm_num)]
  have hexp : ((k - 1 : ℕ) : ℤ) + (Int.log 10 x + 1 - k) = Int.log 10 x := by omega
  have hexp' : (k : ℤ) + (Int.log 10 x + 1 - k) = Int.log 10 x + 1 := by omega
  rw [hexp, hexp']
  exact ⟨hlow, hhigh⟩

theorem below_bounds {x : ℚ} (hx : 0 < x) {k : Nat} (hk : 0 < k) :
    10 ^ (k - 1) ≤ below x k ∧ below x k < 10 ^ k := by
  obtain ⟨hle, hlt⟩ := scaled_bounds hx hk
  have hfloor : ((10 ^ (k - 1) : ℕ) : ℤ) ≤ ⌊x / 10 ^ (Int.log 10 x + 1 - k)⌋ := by
    rw [Int.le_floor]
    exact_mod_cast hle
  have hfloor' : ⌊x / 10 ^ (Int.log 10 x + 1 - k)⌋ < ((10 ^ k : ℕ) : ℤ) := by
    rw [Int.floor_lt]
    exact_mod_cast hlt
  have hpos : 0 < 10 ^ (k - 1) := Nat.pow_pos (by norm_num)
  rw [below]
  constructor
  · exact Int.le_toNat (by omega) |>.mpr hfloor
  · exact (Int.toNat_lt (by omega)).mpr hfloor'

theorem candidate_normal {x : ℚ} (hx : 0 < x) {k : Nat} (hk : 0 < k) {d : Decimal}
    (h : candidate x k = some d) : d.Normal := by
  obtain ⟨hle, hlt⟩ := below_bounds hx hk
  have hpow : 10 ^ (k - 1) < 10 ^ k := Nat.pow_lt_pow_right (by norm_num) (by omega)
  rcases candidate_cases h with rfl | rfl
  · exact ⟨hk, hle, hlt⟩
  · unfold above
    split
    · exact ⟨hk, le_refl _, hpow⟩
    · next hne =>
      refine ⟨hk, ?_, ?_⟩
      · show 10 ^ (k - 1) ≤ below x k + 1
        omega
      · show below x k + 1 < 10 ^ k
        omega

/-- a double that is a whole number of units is its own candidate -/
theorem candidate_of_whole {x : ℚ} (hr : Binary64.round x = x) {k : Nat} {m : ℕ}
    (hm : x = m * 10 ^ (Int.log 10 x + 1 - k)) : (candidate x k).isSome := by
  have hpos : (10 : ℚ) ^ (Int.log 10 x + 1 - k) ≠ 0 := (zpow_pos (by norm_num) _).ne'
  have hbelow : below x k = m := by
    have hq : x / 10 ^ (Int.log 10 x + 1 - k) = ((m : ℤ) : ℚ) := by
      rw [div_eq_iff hpos]
      exact_mod_cast hm
    rw [below, hq, Int.floor_intCast]
    exact Int.toNat_natCast m
  have hvalue : (⟨below x k, k, Int.log 10 x + 1⟩ : Decimal).value = x := by
    rw [hbelow, value]
    exact hm.symm
  unfold candidate
  dsimp only
  rw [if_pos (by rw [hvalue, hr])]
  split <;> rfl

theorem Representable.round_eq {x : ℚ} (h : Representable x) (hx : 0 < x) : Binary64.round x = x :=
  le_antisymm (Binary64.round_le h hx le_rfl) (Binary64.le_round h hx le_rfl)

/-- a double is a whole number of `10 ^ e`, when `e` is low enough -/
theorem Representable.whole {x : ℚ} (h : Representable x) (hx : 0 < x) {e : ℤ} (he : e ≤ -1074) :
    ∃ m : ℕ, x = m * 10 ^ e := by
  obtain ⟨m, k, rfl, -, hk⟩ := h
  have hm : 0 < m := by
    have hpos := two_zpow_pos k
    have hcast : (0 : ℚ) < m := (mul_pos_iff_of_pos_right hpos).mp hx
    exact_mod_cast hcast
  obtain ⟨a, ha⟩ := Int.eq_ofNat_of_zero_le (by omega : 0 ≤ k - e)
  obtain ⟨b, hb⟩ := Int.eq_ofNat_of_zero_le (by omega : 0 ≤ -e)
  refine ⟨m.toNat * (2 ^ a * 5 ^ b), ?_⟩
  have hcast : ((m.toNat : ℕ) : ℚ) = (m : ℚ) := by
    exact_mod_cast Int.toNat_of_nonneg hm.le
  have hten : (10 : ℚ) ^ e = 2 ^ e * 5 ^ e := by
    rw [← mul_zpow]
    norm_num
  have htwo : (2 : ℚ) ^ k = 2 ^ a * 2 ^ e := by
    rw [← zpow_natCast, ← zpow_add₀ (by norm_num), ← ha]
    congr 1
    omega
  have hfive : (5 : ℚ) ^ b * 5 ^ e = 1 := by
    rw [← zpow_natCast, ← zpow_add₀ (by norm_num), ← hb, neg_add_cancel, zpow_zero]
  push_cast
  rw [hcast, hten, htwo]
  calc (m : ℚ) * (2 ^ a * 2 ^ e) = m * (2 ^ a * 2 ^ e) * 1 := (mul_one _).symm
    _ = m * (2 ^ a * 2 ^ e) * (5 ^ b * 5 ^ e) := by rw [hfive]
    _ = m * (2 ^ a * 5 ^ b) * (2 ^ e * 5 ^ e) := by ring

theorem shortest_spec {x : ℚ} (h : Representable x) (hx : 0 < x) :
    Binary64.round (shortest x).value = x ∧ (shortest x).Normal := by
  have hsome : ((List.range (digitBound x)).findSome? fun i => candidate x (i + 1)).isSome := by
    rw [List.findSome?_isSome_iff]
    have hbound : 0 < digitBound x := by
      rw [digitBound]
      omega
    refine ⟨digitBound x - 1, List.mem_range.mpr (by omega), ?_⟩
    have hk : digitBound x - 1 + 1 = digitBound x := by omega
    rw [hk]
    have he : Int.log 10 x + 1 - (digitBound x : ℤ) ≤ -1074 := by
      rw [digitBound]
      omega
    obtain ⟨m, hm⟩ := Representable.whole h hx he
    exact candidate_of_whole (Representable.round_eq h hx) hm
  obtain ⟨d, hd⟩ := Option.isSome_iff_exists.mp hsome
  obtain ⟨i, -, hi⟩ := List.exists_of_findSome?_eq_some hd
  rw [shortest, hd]
  exact ⟨candidate_reads hi, candidate_normal hx (Nat.succ_pos i) hi⟩

/-! ## the text -/

/-- plain for up to 21 places, with an exponent beyond -/
def text (d : Decimal) : List Char :=
  let digits := Nat.toDigits 10 d.s
  if d.k ≤ d.n ∧ d.n ≤ 21 then digits ++ List.replicate (d.n - d.k).toNat '0'
  else if 0 < d.n ∧ d.n ≤ 21 then digits.take d.n.toNat ++ '.' :: digits.drop d.n.toNat
  else if -6 < d.n ∧ d.n ≤ 0 then '0' :: '.' :: (List.replicate (-d.n).toNat '0' ++ digits)
  else digits.take 1 ++ (if d.k = 1 then [] else '.' :: digits.drop 1) ++
    'e' :: (if 0 < d.n then '+' else '-') :: Nat.toDigits 10 (d.n - 1).natAbs

def readExponent : List Char → ℤ
  | 'e' :: '-' :: digits => -Nat.ofDigitChars 10 digits 0
  | 'e' :: _ :: digits => Nat.ofDigitChars 10 digits 0
  | _ => 0

def readMantissa (cs : List Char) : ℚ :=
  let fraction := (cs.dropWhile (· ≠ '.')).drop 1
  Nat.ofDigitChars 10 (cs.takeWhile (· ≠ '.') ++ fraction) 0 / 10 ^ fraction.length

/-- the number a decimal text means -/
def readDecimal (cs : List Char) : ℚ :=
  readMantissa (cs.takeWhile (· ≠ 'e')) * 10 ^ readExponent (cs.dropWhile (· ≠ 'e'))

theorem takeWhile_ne {a : Char} {cs : List Char} (h : ∀ c ∈ cs, c ≠ a) :
    cs.takeWhile (· ≠ a) = cs ∧ cs.dropWhile (· ≠ a) = [] := by
  have hall : ∀ c ∈ cs, decide (c ≠ a) = true := fun c hc => decide_eq_true (h c hc)
  exact ⟨List.takeWhile_eq_self_iff.mpr hall, List.dropWhile_eq_nil_iff.mpr hall⟩

theorem takeWhile_ne_append {a : Char} {cs r : List Char} (h : ∀ c ∈ cs, c ≠ a) :
    (cs ++ a :: r).takeWhile (· ≠ a) = cs ∧ (cs ++ a :: r).dropWhile (· ≠ a) = a :: r := by
  have hall : ∀ c ∈ cs, decide (c ≠ a) = true := fun c hc => decide_eq_true (h c hc)
  have hstop : decide (a ≠ a) = false := decide_eq_false fun h => h rfl
  rw [List.takeWhile_append_of_pos hall, List.dropWhile_append_of_pos hall,
    List.takeWhile_cons_of_neg (by rw [hstop]; exact Bool.false_ne_true),
    List.dropWhile_cons_of_neg (by rw [hstop]; exact Bool.false_ne_true), List.append_nil]
  exact ⟨rfl, rfl⟩

theorem readMantissa_whole {cs : List Char} (h : ∀ c ∈ cs, c ≠ '.') :
    readMantissa cs = Nat.ofDigitChars 10 cs 0 := by
  obtain ⟨htake, hdrop⟩ := takeWhile_ne h
  rw [readMantissa, htake, hdrop, List.drop_nil, List.append_nil]
  simp

theorem readMantissa_point {cs r : List Char} (h : ∀ c ∈ cs, c ≠ '.') :
    readMantissa (cs ++ '.' :: r) = Nat.ofDigitChars 10 (cs ++ r) 0 / 10 ^ r.length := by
  obtain ⟨htake, hdrop⟩ := takeWhile_ne_append (r := r) h
  rw [readMantissa, htake, hdrop]
  rfl

theorem readDecimal_plain {cs : List Char} (h : ∀ c ∈ cs, c ≠ 'e') :
    readDecimal cs = readMantissa cs := by
  obtain ⟨htake, hdrop⟩ := takeWhile_ne h
  have hexp : readExponent [] = 0 := rfl
  rw [readDecimal, htake, hdrop, hexp, zpow_zero, mul_one]

theorem readDecimal_exponent {cs r : List Char} (h : ∀ c ∈ cs, c ≠ 'e') :
    readDecimal (cs ++ 'e' :: r) = readMantissa cs * 10 ^ readExponent ('e' :: r) := by
  obtain ⟨htake, hdrop⟩ := takeWhile_ne_append (r := r) h
  rw [readDecimal, htake, hdrop]

theorem isDigit_toDigits {n : Nat} {c : Char} (h : c ∈ Nat.toDigits 10 n) : c.isDigit = true :=
  Nat.isDigit_of_mem_toDigits (by norm_num) (by norm_num) h

theorem ne_of_isDigit {c a : Char} (h : c.isDigit = true) (ha : a.isDigit = false) : c ≠ a := by
  rintro rfl
  rw [h] at ha
  cases ha

theorem Normal.length {d : Decimal} (h : d.Normal) : (Nat.toDigits 10 d.s).length = d.k := by
  have hle := (Nat.length_toDigits_le_iff (b := 10) (by norm_num) h.pos).mpr h.lt
  refine le_antisymm hle ?_
  by_contra hlt
  have hne : 0 < (Nat.toDigits 10 d.s).length := List.length_pos_iff.mpr Nat.toDigits_ne_nil
  have hshort : (Nat.toDigits 10 d.s).length ≤ d.k - 1 := by omega
  have hsmall := (Nat.length_toDigits_le_iff (b := 10) (by norm_num) (by omega)).mp hshort
  have := h.le
  omega

/-- the mantissa of the form with an exponent: one digit before the point -/
theorem readMantissa_digits {d : Decimal} (h : d.Normal) :
    (∀ c ∈ (Nat.toDigits 10 d.s).take 1 ++ (if d.k = 1 then [] else '.' :: (Nat.toDigits 10 d.s).drop 1),
      c ≠ 'e') ∧
    readMantissa ((Nat.toDigits 10 d.s).take 1 ++
      (if d.k = 1 then [] else '.' :: (Nat.toDigits 10 d.s).drop 1)) = d.s / 10 ^ (d.k - 1) := by
  have hlength := h.length
  have hdigits : Nat.ofDigitChars 10 (Nat.toDigits 10 d.s) 0 = d.s := Nat.ofDigitChars_ten_toDigits
  have hne : ∀ a : Char, a.isDigit = false → ∀ c ∈ Nat.toDigits 10 d.s, c ≠ a := fun a ha c hc =>
    ne_of_isDigit (isDigit_toDigits hc) ha
  split
  · next hk =>
    have htake : (Nat.toDigits 10 d.s).take 1 = Nat.toDigits 10 d.s :=
      List.take_of_length_le (by omega)
    rw [List.append_nil, htake, hk, readMantissa_whole (hne '.' rfl), hdigits]
    exact ⟨hne 'e' rfl, by norm_num⟩
  · next hk =>
    have htake : ∀ c ∈ (Nat.toDigits 10 d.s).take 1, c ≠ '.' := fun c hc =>
      hne '.' rfl c (List.mem_of_mem_take hc)
    refine ⟨fun c hc => ?_, ?_⟩
    · rcases List.mem_append.mp hc with hc | hc
      · exact hne 'e' rfl c (List.mem_of_mem_take hc)
      · rcases List.mem_cons.mp hc with rfl | hc
        · decide
        · exact hne 'e' rfl c (List.mem_of_mem_drop hc)
    · rw [readMantissa_point htake, List.take_append_drop, hdigits, List.length_drop, hlength]

theorem readExponent_digits (n : ℤ) :
    readExponent ('e' :: (if 0 < n then '+' else '-') :: Nat.toDigits 10 (n - 1).natAbs) = n - 1 := by
  have hdigits : Nat.ofDigitChars 10 (Nat.toDigits 10 (n - 1).natAbs) 0 = (n - 1).natAbs :=
    Nat.ofDigitChars_ten_toDigits
  split
  · have hread : readExponent ('e' :: '+' :: Nat.toDigits 10 (n - 1).natAbs) =
        Nat.ofDigitChars 10 (Nat.toDigits 10 (n - 1).natAbs) 0 := rfl
    rw [hread, hdigits]
    omega
  · have hread : readExponent ('e' :: '-' :: Nat.toDigits 10 (n - 1).natAbs) =
        -Nat.ofDigitChars 10 (Nat.toDigits 10 (n - 1).natAbs) 0 := rfl
    rw [hread, hdigits]
    omega

/-- the text means the number -/
theorem readDecimal_text {d : Decimal} (h : d.Normal) : readDecimal d.text = d.value := by
  have hlength := h.length
  have hdigits : Nat.ofDigitChars 10 (Nat.toDigits 10 d.s) 0 = d.s := Nat.ofDigitChars_ten_toDigits
  have hpoint : ∀ c ∈ Nat.toDigits 10 d.s, c ≠ '.' := fun c hc => ne_of_isDigit (isDigit_toDigits hc) rfl
  have he : ∀ c ∈ Nat.toDigits 10 d.s, c ≠ 'e' := fun c hc => ne_of_isDigit (isDigit_toDigits hc) rfl
  unfold text
  dsimp only
  split
  · next hplain =>
    -- zeros follow the digits
    have hall : ∀ a : Char, a.isDigit = false →
        ∀ c ∈ Nat.toDigits 10 d.s ++ List.replicate (d.n - d.k).toNat '0', c ≠ a := by
      intro a ha c hc
      rcases List.mem_append.mp hc with hc | hc
      · exact ne_of_isDigit (isDigit_toDigits hc) ha
      · rw [List.eq_of_mem_replicate hc]
        exact ne_of_isDigit rfl ha
    rw [readDecimal_plain (hall 'e' rfl), readMantissa_whole (hall '.' rfl), Nat.ofDigitChars_append,
      Nat.ofDigitChars_replicate_zero, hdigits, value]
    obtain ⟨m, hm⟩ := Int.eq_ofNat_of_zero_le (by omega : 0 ≤ d.n - d.k)
    rw [hm]
    push_cast
    rw [Int.toNat_natCast, zpow_natCast]
    ring
  split
  · next hmiddle =>
    -- the point is between the digits
    have hall : ∀ c ∈ (Nat.toDigits 10 d.s).take d.n.toNat ++ '.' :: (Nat.toDigits 10 d.s).drop d.n.toNat,
        c ≠ 'e' := by
      intro c hc
      rcases List.mem_append.mp hc with hc | hc
      · exact he c (List.mem_of_mem_take hc)
      · rcases List.mem_cons.mp hc with rfl | hc
        · decide
        · exact he c (List.mem_of_mem_drop hc)
    have htake : ∀ c ∈ (Nat.toDigits 10 d.s).take d.n.toNat, c ≠ '.' := fun c hc =>
      hpoint c (List.mem_of_mem_take hc)
    rw [readDecimal_plain hall, readMantissa_point htake, List.take_append_drop, hdigits, List.length_drop,
      hlength, value]
    have hexp : d.n - d.k = -((d.k - d.n.toNat : ℕ) : ℤ) := by omega
    rw [hexp, zpow_neg, zpow_natCast]
    rfl
  split
  · next hsmall =>
    -- zeros after the point
    have hall : ∀ c ∈ '0' :: '.' :: (List.replicate (-d.n).toNat '0' ++ Nat.toDigits 10 d.s), c ≠ 'e' := by
      intro c hc
      rcases List.mem_cons.mp hc with rfl | hc
      · decide
      · rcases List.mem_cons.mp hc with rfl | hc
        · decide
        · rcases List.mem_append.mp hc with hc | hc
          · rw [List.eq_of_mem_replicate hc]
            decide
          · exact he c hc
    have hzero : ∀ c ∈ ['0'], c ≠ '.' := by
      intro c hc
      rw [List.mem_singleton.mp hc]
      decide
    have hmantissa := readMantissa_point (r := List.replicate (-d.n).toNat '0' ++ Nat.toDigits 10 d.s) hzero
    rw [readDecimal_plain hall]
    show readMantissa (['0'] ++ '.' :: _) = _
    rw [hmantissa, Nat.ofDigitChars_append, Nat.ofDigitChars_append, Nat.ofDigitChars_replicate_zero,
      List.length_append, List.length_replicate, hlength, value]
    have hfirst : Nat.ofDigitChars 10 ['0'] 0 = 0 := rfl
    have hexp : d.n - d.k = -(((-d.n).toNat + d.k : ℕ) : ℤ) := by omega
    rw [hfirst, Nat.mul_zero, hdigits, hexp, zpow_neg, zpow_natCast]
    rfl
  · obtain ⟨hnoe, hmantissa⟩ := readMantissa_digits h
    have hpos := h.pos
    rw [readDecimal_exponent hnoe, hmantissa, readExponent_digits, value, div_mul_eq_mul_div, div_eq_iff
      (by positivity), mul_assoc, ← zpow_natCast, ← zpow_add₀ (by norm_num)]
    congr 2
    omega

/-! ## its characters -/

/-- what a printed number consists of -/
def isDecimalChar (c : Char) : Bool := c.isDigit || c = '.' || c = 'e' || c = '+' || c = '-'

theorem isDecimalChar_of_isDigit {c : Char} (h : c.isDigit = true) : isDecimalChar c = true := by
  rw [isDecimalChar, h]
  rfl

theorem isDecimalChar_text (d : Decimal) : ∀ c ∈ d.text, isDecimalChar c = true := by
  have hdigits : ∀ n, ∀ c ∈ Nat.toDigits 10 n, isDecimalChar c = true := fun n c hc =>
    isDecimalChar_of_isDigit (isDigit_toDigits hc)
  have hzeros : ∀ n, ∀ c ∈ List.replicate n '0', isDecimalChar c = true := by
    intro n c hc
    rw [List.eq_of_mem_replicate hc]
    rfl
  intro c hc
  unfold text at hc
  dsimp only at hc
  split at hc
  · rcases List.mem_append.mp hc with hc | hc
    · exact hdigits _ c hc
    · exact hzeros _ c hc
  · split at hc
    · rcases List.mem_append.mp hc with hc | hc
      · exact hdigits _ c (List.mem_of_mem_take hc)
      · rcases List.mem_cons.mp hc with rfl | hc
        · rfl
        · exact hdigits _ c (List.mem_of_mem_drop hc)
    · split at hc
      · rcases List.mem_cons.mp hc with rfl | hc
        · rfl
        · rcases List.mem_cons.mp hc with rfl | hc
          · rfl
          · rcases List.mem_append.mp hc with hc | hc
            · exact hzeros _ c hc
            · exact hdigits _ c hc
      · rcases List.mem_append.mp hc with hc | hc
        · rcases List.mem_append.mp hc with hc | hc
          · exact hdigits _ c (List.mem_of_mem_take hc)
          · split at hc
            · cases hc
            · rcases List.mem_cons.mp hc with rfl | hc
              · rfl
              · exact hdigits _ c (List.mem_of_mem_drop hc)
        · rcases List.mem_cons.mp hc with rfl | hc
          · rfl
          · rcases List.mem_cons.mp hc with rfl | hc
            · split <;> rfl
            · exact hdigits _ c hc

/-- the text starts with a digit -/
theorem head_text (d : Decimal) : ∃ c cs, d.text = c :: cs ∧ c.isDigit = true := by
  have hdigits : ∃ c cs, Nat.toDigits 10 d.s = c :: cs ∧ c.isDigit = true := by
    cases h : Nat.toDigits 10 d.s with
    | nil => exact absurd h Nat.toDigits_ne_nil
    | cons c cs => exact ⟨c, cs, rfl, isDigit_toDigits (n := d.s) (by rw [h]; exact List.mem_cons_self)⟩
  obtain ⟨c, cs, hcons, hdigit⟩ := hdigits
  unfold text
  dsimp only
  split
  · exact ⟨c, _, by rw [hcons, List.cons_append], hdigit⟩
  · split
    · next hmiddle =>
      obtain ⟨m, hm⟩ := Int.eq_succ_of_zero_lt hmiddle.1
      have htake : d.n.toNat = m + 1 := by omega
      exact ⟨c, _, by rw [hcons, htake, List.take_succ_cons, List.cons_append], hdigit⟩
    · split
      · exact ⟨'0', _, rfl, rfl⟩
      · exact ⟨c, _, by rw [hcons, List.take_succ_cons, List.append_assoc, List.cons_append], hdigit⟩

example : (shortest (Binary64.round (1 / 10))).text = "0.1".toList := by decide +kernel

example : (shortest (10 ^ 21)).text = "1e+21".toList := by decide +kernel

end Decimal
