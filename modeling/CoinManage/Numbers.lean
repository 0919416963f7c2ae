import Mathlib.Data.List.TakeWhile
import CoinManage.Lib.Binary64
import CoinManage.Money

/-!
# KORI amounts as JavaScript numbers

The deposit monitor turns the raw amount of a transfer event, a text of decimal digits, into
decimal text (`formatRawAmount`), reads that text as a double (`toNumber`) and parses the double
back into units (`parseKoriAmount`).  The doubles are `Binary64.round` of exact rationals.

* `toNumber_formatRawAmount`    the double read is the rounding of the units over 10^6;
* `parseKoriAmount_raw`         below 2^33 units a positive amount comes back as it was;
* `parseKoriAmount_raw_zero`    zero is refused.

From 2^33 units on the product with 10^6 can miss the integer by 2^-19, more than the parser's
tolerance of 10^-6.
-/

/-! ## doubles -/

namespace JsNumber

/-- the double nearest to an exact value; too large a one is infinite -/
def ofExact (q : ℚ) : JsNumber :=
  if 2 ^ 1024 ≤ |Binary64.round q| then .infinity (decide (q < 0)) else .finite (Binary64.round q)

end JsNumber

/-- a text of decimal digits, as the reader hands on a `uint256` -/
structure RawAmount where
  text : String
  digits : text.toList ≠ [] ∧ text.toList.all Char.isDigit = true
  deriving DecidableEq

namespace RawAmount

def units (raw : RawAmount) : Nat := Nat.ofDigitChars 10 raw.text.toList 0

/-- the raw amount an integer prints as -/
def ofNat (n : Nat) : RawAmount where
  text := String.ofList (Nat.toDigits 10 n)
  digits := by
    rw [String.toList_ofList]
    exact ⟨Nat.toDigits_ne_nil, List.all_eq_true.mpr fun _ hc => isDigit_toDigits hc⟩

theorem units_ofNat (n : Nat) : (ofNat n).units = n := by
  rw [units, ofNat, String.toList_ofList, Nat.ofDigitChars_ten_toDigits]

end RawAmount

/-- `rawAmount.replace(/^0+(\d)/, '$1')`: leading zeros go, the last digit stays -/
def dropLeadingZeros : List Char → List Char
  | '0' :: c :: rest => dropLeadingZeros (c :: rest)
  | s => s

/-- `.replace(/0+$/, '')` -/
def dropTrailingZeros (s : List Char) : List Char :=
  (s.reverse.dropWhile fun c => c == '0').reverse

def formatRawAmount (rawAmount : RawAmount) : String :=
  let normalized := dropLeadingZeros rawAmount.text.toList
  let padded := padStart 7 normalized
  let whole := padded.take (padded.length - 6)
  let fractional := dropTrailingZeros (padded.drop (padded.length - 6))
  String.ofList (if fractional = [] then whole else whole ++ '.' :: fractional)

/-- `Number(text)`, for a text that is digits or digits, a point and digits -/
def toNumber (text : String) : JsNumber :=
  let whole := text.toList.takeWhile Char.isDigit
  match text.toList.dropWhile Char.isDigit with
  | [] => .ofExact (Nat.ofDigitChars 10 whole 0)
  | c :: fractional =>
    if c = '.' ∧ whole ≠ [] ∧ fractional.all Char.isDigit then
      .ofExact (Nat.ofDigitChars 10 (whole ++ fractional) 0 / 10 ^ fractional.length)
    else .nan

/-- `Math.round` of a finite number -/
def mathRound (q : ℚ) : ℤ := ⌊q + 1 / 2⌋

def parseKoriAmount (amount : JsNumber) : Except LedgerError ℤ :=
  match amount with
  | .finite q =>
    if q ≤ 0 then .error (.domain 400 "VALIDATION_ERROR" "amount must be a positive number")
    else
      match JsNumber.ofExact (q * 1000000) with
      | .finite scaled =>
        let rounded := mathRound scaled
        if Binary64.round (1 / 1000000) < |Binary64.round (scaled - rounded)| then
          .error (.domain 400 "VALIDATION_ERROR" "amount supports up to 6 decimals")
        else .ok rounded
      -- infinity minus itself is not a number, which is not above the tolerance
      | _ => .error (.plain "The number Infinity cannot be converted to a BigInt")
  | _ => .error (.domain 400 "VALIDATION_ERROR" "amount must be a positive number")

/-! ## the decimal text of a raw amount -/

theorem ofDigitChars_dropLeadingZeros (s : List Char) :
    Nat.ofDigitChars 10 (dropLeadingZeros s) 0 = Nat.ofDigitChars 10 s 0 := by
  induction s using dropLeadingZeros.induct with
  | case1 c rest ih =>
    rw [dropLeadingZeros, ih]
    rfl
  | case2 s h =>
    rw [dropLeadingZeros]
    exact h

theorem mem_of_mem_dropLeadingZeros {s : List Char} {c : Char} (h : c ∈ dropLeadingZeros s) :
    c ∈ s := by
  induction s using dropLeadingZeros.induct with
  | case1 d rest ih =>
    rw [dropLeadingZeros] at h
    exact List.mem_cons_of_mem _ (ih h)
  | case2 s hs =>
    rw [dropLeadingZeros] at h
    · exact h
    · exact hs

/-- a digit text is its kept part and zeros -/
theorem dropTrailingZeros_append (s : List Char) :
    dropTrailingZeros s ++ List.replicate (s.length - (dropTrailingZeros s).length) '0' = s := by
  have hsplit : s.reverse.takeWhile (· == '0') ++ s.reverse.dropWhile (· == '0') = s.reverse :=
    List.takeWhile_append_dropWhile
  have hzeros : s.reverse.takeWhile (· == '0') =
      List.replicate (s.reverse.takeWhile (· == '0')).length '0' := by
    refine List.eq_replicate_of_mem fun c hc => ?_
    simpa using List.mem_takeWhile_imp hc
  have hlen := congrArg List.length hsplit
  rw [List.length_append, List.length_reverse] at hlen
  have hcount : s.length - (dropTrailingZeros s).length =
      (s.reverse.takeWhile (· == '0')).length := by
    rw [dropTrailingZeros, List.length_reverse]
    omega
  rw [hcount, dropTrailingZeros, ← List.reverse_replicate, ← hzeros, ← List.reverse_append, hsplit,
    List.reverse_reverse]

theorem ofDigitChars_append_zeros (s : List Char) (k : Nat) :
    Nat.ofDigitChars 10 (s ++ List.replicate k '0') 0 = Nat.ofDigitChars 10 s 0 * 10 ^ k := by
  rw [Nat.ofDigitChars_append, Nat.ofDigitChars_replicate_zero, Nat.mul_comm]

theorem RawAmount.isDigit_of_mem (raw : RawAmount) {c : Char} (h : c ∈ raw.text.toList) :
    c.isDigit = true := List.all_eq_true.mp raw.digits.2 c h

/-- the six decimals split off a padded text of digits -/
theorem padded_split (raw : RawAmount) :
    ∃ whole six : List Char, padStart 7 (dropLeadingZeros raw.text.toList) = whole ++ six ∧
      whole ≠ [] ∧ six.length = 6 ∧ (∀ c ∈ whole ++ six, c.isDigit = true) ∧
      Nat.ofDigitChars 10 (whole ++ six) 0 = raw.units := by
  set padded := padStart 7 (dropLeadingZeros raw.text.toList) with hpadded
  have hlen : 7 ≤ padded.length := by
    rw [hpadded, padStart, List.length_append, List.length_replicate]
    omega
  have hdigits : ∀ c ∈ padded, c.isDigit = true := by
    intro c hc
    rw [hpadded, padStart] at hc
    rcases List.mem_append.mp hc with h | h
    · rw [List.eq_of_mem_replicate h]
      rfl
    · exact raw.isDigit_of_mem (mem_of_mem_dropLeadingZeros h)
  have hvalue : Nat.ofDigitChars 10 padded 0 = raw.units := by
    rw [hpadded, padStart, Nat.ofDigitChars_append, Nat.ofDigitChars_replicate_zero, Nat.mul_zero,
      ofDigitChars_dropLeadingZeros, RawAmount.units]
  have hsplit : padded.take (padded.length - 6) ++ padded.drop (padded.length - 6) = padded :=
    List.take_append_drop _ _
  refine ⟨padded.take (padded.length - 6), padded.drop (padded.length - 6), hsplit.symm, ?_, ?_, ?_, ?_⟩
  · intro h
    have hzero := congrArg List.length h
    rw [List.length_take, List.length_nil] at hzero
    omega
  · rw [List.length_drop]
    omega
  · rw [hsplit]
    exact hdigits
  · rw [hsplit]
    exact hvalue

theorem ofDigitChars_six (whole six : List Char) (hlen : six.length = 6) :
    Nat.ofDigitChars 10 (whole ++ six) 0 =
      Nat.ofDigitChars 10 whole 0 * 10 ^ 6 + Nat.ofDigitChars 10 six 0 := by
  rw [Nat.ofDigitChars_append, Nat.ofDigitChars_eq_ofDigitChars_zero, hlen, Nat.mul_comm]

/-- the double read back from the decimal text is the one nearest to the amount -/
theorem toNumber_formatRawAmount (raw : RawAmount) :
    toNumber (formatRawAmount raw) = .ofExact ((raw.units : ℚ) / 1000000) := by
  obtain ⟨whole, six, hsplit, hwhole, hlen, hdigits, hvalue⟩ := padded_split raw
  have htake : (whole ++ six).take ((whole ++ six).length - 6) = whole := by
    rw [List.length_append, hlen, Nat.add_sub_cancel, List.take_left]
  have hdrop : (whole ++ six).drop ((whole ++ six).length - 6) = six := by
    rw [List.length_append, hlen, Nat.add_sub_cancel, List.drop_left]
  have hzeros := dropTrailingZeros_append six
  set fractional := dropTrailingZeros six with hfractional
  have hwd : ∀ c ∈ whole, c.isDigit = true := fun c hc => hdigits c (List.mem_append_left _ hc)
  have hfd : ∀ c ∈ fractional, c.isDigit = true := fun c hc => by
    refine hdigits c (List.mem_append_right _ ?_)
    rw [← hzeros]
    exact List.mem_append_left _ hc
  -- the digits read, with the zeros dropped from the end put back, are the units
  have hunits : (Nat.ofDigitChars 10 (whole ++ fractional) 0 : ℚ) / 10 ^ fractional.length =
      (raw.units : ℚ) / 1000000 := by
    have hle : fractional.length ≤ 6 := by
      have h := congrArg List.length hzeros
      rw [List.length_append, List.length_replicate] at h
      omega
    have hback : raw.units =
        Nat.ofDigitChars 10 (whole ++ fractional) 0 * 10 ^ (6 - fractional.length) := by
      rw [← hvalue, ← hzeros, hlen, ← List.append_assoc, ofDigitChars_append_zeros]
    have hpow : (10 : ℚ) ^ fractional.length * 10 ^ (6 - fractional.length) = 1000000 := by
      rw [← pow_add, Nat.add_sub_cancel' hle]
      norm_num
    rw [hback, ← hpow]
    push_cast
    exact (mul_div_mul_right _ _ (pow_ne_zero _ (by norm_num))).symm
  rw [formatRawAmount, hsplit]
  simp only [htake, hdrop]
  rw [← hfractional, toNumber]
  by_cases hnil : fractional = []
  · rw [hnil, List.append_nil, List.length_nil, pow_zero, div_one] at hunits
    simp only [hnil, if_true, String.toList_ofList]
    rw [List.takeWhile_eq_self_iff.mpr hwd, List.dropWhile_eq_nil_iff.mpr hwd]
    simp only [hunits]
  · have hpoint : Char.isDigit '.' = false := by decide
    obtain ⟨ht, hd⟩ := takeWhile_append_of_all hwd hpoint (r := fractional)
    simp only [hnil, if_false, String.toList_ofList, ht, hd]
    rw [if_pos ⟨trivial, hwhole, List.all_eq_true.mpr hfd⟩, hunits]

/-! ## the parser on raw amounts -/

/-- 10^-6 is above 2^-20 for doubles too -/
theorem tolerance_le : (2 : ℚ) ^ (-20 : ℤ) ≤ Binary64.round (1 / 1000000) :=
  Binary64.le_round ⟨1, -20, by norm_num, by norm_num, by norm_num⟩ (by norm_num) (by norm_num)

theorem ofExact_of_abs_lt {q : ℚ} (h : |Binary64.round q| < 2 ^ 1024) :
    JsNumber.ofExact q = .finite (Binary64.round q) := by
  rw [JsNumber.ofExact, if_neg (not_le.mpr h)]

/-- below 2^33 units the product with 10^6 is within 2^-20 of the integer -/
theorem scaled_near {n : Nat} (hpos : 0 < n) (hlt : n < 2 ^ 33) :
    |Binary64.round (Binary64.round ((n : ℚ) / 1000000) * 1000000) - n| ≤ 2 ^ (-20 : ℤ) := by
  have hq : (0 : ℚ) < (n : ℚ) / 1000000 := by positivity
  have hn : (n : ℚ) < 2 ^ 33 := by exact_mod_cast hlt
  have hn1 : (1 : ℚ) ≤ n := by exact_mod_cast hpos
  have hq14 : (n : ℚ) / 1000000 < 2 ^ (14 : ℤ) := by
    rw [div_lt_iff₀ (by norm_num)]
    refine hn.trans ?_
    norm_num
  have hread := Binary64.abs_round_sub_le hq (by norm_num) hq14
  -- the exact product is within 2^-20 of the integer, and both ends of that range are doubles
  have hproduct : |Binary64.round ((n : ℚ) / 1000000) * 1000000 - n| ≤ 2 ^ (-20 : ℤ) := by
    have hback : Binary64.round ((n : ℚ) / 1000000) * 1000000 - n =
        (Binary64.round ((n : ℚ) / 1000000) - (n : ℚ) / 1000000) * 1000000 := by ring
    rw [hback, abs_mul, abs_of_pos (by norm_num : (0 : ℚ) < 1000000)]
    refine (mul_le_mul_of_nonneg_right hread (by norm_num)).trans ?_
    norm_num
  have hlow : Binary64.Representable ((n : ℚ) - 2 ^ (-20 : ℤ)) := by
    refine ⟨(n : ℤ) * 2 ^ 20 - 1, -20, ?_, ?_, by norm_num⟩
    · push_cast
      rw [sub_mul, mul_assoc, one_mul]
      norm_num
    · rw [abs_le]
      constructor <;> push_cast <;> omega
  have hhigh : Binary64.Representable ((n : ℚ) + 2 ^ (-20 : ℤ)) := by
    refine ⟨(n : ℤ) * 2 ^ 20 + 1, -20, ?_, ?_, by norm_num⟩
    · push_cast
      rw [add_mul, mul_assoc, one_mul]
      norm_num
    · rw [abs_le]
      constructor <;> push_cast <;> omega
  obtain ⟨hge, hle⟩ := abs_le.mp hproduct
  have hsmall : (2 : ℚ) ^ (-20 : ℤ) < 1 := by norm_num
  have hscaled : (0 : ℚ) < Binary64.round ((n : ℚ) / 1000000) * 1000000 := by linarith
  have h1 := Binary64.le_round hlow hscaled (by linarith)
  have h2 := Binary64.round_le hhigh hscaled (by linarith)
  rw [abs_le]
  constructor <;> linarith

theorem mathRound_of_near {q : ℚ} {n : ℤ} (h : |q - n| < 1 / 2) : mathRound q = n := by
  obtain ⟨h1, h2⟩ := abs_lt.mp h
  rw [mathRound, Int.floor_eq_iff]
  constructor <;> linarith

/-- a positive raw amount below 2^33 units is parsed to what it is -/
theorem parseKoriAmount_raw {raw : RawAmount} (hpos : 0 < raw.units) (hlt : raw.units < 2 ^ 33) :
    parseKoriAmount (toNumber (formatRawAmount raw)) = .ok raw.units := by
  set n := raw.units with hn
  have hnear := scaled_near hpos hlt
  have hq : (0 : ℚ) < (n : ℚ) / 1000000 := by positivity
  have hn1 : (1 : ℚ) ≤ n := by exact_mod_cast hpos
  have hn33 : (n : ℚ) < 2 ^ 33 := by exact_mod_cast hlt
  have hbig : (2 : ℚ) ^ 34 < 2 ^ 1024 := pow_lt_pow_right₀ (by norm_num) (by norm_num)
  have hsmall : (2 : ℚ) ^ (-20 : ℤ) < 1 / 2 := by norm_num
  have hread := Binary64.abs_round_sub_le (k := 14) hq (by norm_num) (by
    rw [div_lt_iff₀ (by norm_num)]
    refine hn33.trans ?_
    norm_num)
  obtain ⟨hr1, hr2⟩ := abs_le.mp hread
  obtain ⟨hs1, hs2⟩ := abs_le.mp hnear
  have hq1 : (1 : ℚ) / 1000000 ≤ (n : ℚ) / 1000000 :=
    div_le_div_of_nonneg_right hn1 (by norm_num)
  have hq2 : (n : ℚ) / 1000000 < 2 ^ 33 := by
    rw [div_lt_iff₀ (by norm_num)]
    refine hn33.trans ?_
    norm_num
  have htiny : (2 : ℚ) ^ ((14 : ℤ) - 54) < 1 / 1000000 := by norm_num
  have hdouble : 0 < Binary64.round ((n : ℚ) / 1000000) := by linarith
  have hfin : |Binary64.round ((n : ℚ) / 1000000)| < 2 ^ 1024 := by
    rw [abs_of_pos hdouble]
    refine lt_trans ?_ hbig
    linarith
  have hfin' : |Binary64.round (Binary64.round ((n : ℚ) / 1000000) * 1000000)| < 2 ^ 1024 := by
    rw [abs_of_pos (by linarith)]
    refine lt_trans ?_ hbig
    linarith
  have hround : mathRound (Binary64.round (Binary64.round ((n : ℚ) / 1000000) * 1000000)) = n :=
    mathRound_of_near (lt_of_le_of_lt hnear hsmall)
  have hdiff : |Binary64.round (Binary64.round (Binary64.round ((n : ℚ) / 1000000) * 1000000)
      - ((n : ℤ) : ℚ))| ≤ 2 ^ (-20 : ℤ) :=
    Binary64.abs_round_le ⟨1, -20, by norm_num, by norm_num, by norm_num⟩ hnear
  rw [toNumber_formatRawAmount, ← hn, ofExact_of_abs_lt hfin]
  simp only [parseKoriAmount]
  rw [if_neg (not_le.mpr hdouble), ofExact_of_abs_lt hfin']
  simp only [hround]
  rw [if_neg (not_lt.mpr (hdiff.trans tolerance_le))]

theorem parseKoriAmount_raw_zero {raw : RawAmount} (h : raw.units = 0) :
    parseKoriAmount (toNumber (formatRawAmount raw)) =
      .error (.domain 400 "VALIDATION_ERROR" "amount must be a positive number") := by
  rw [toNumber_formatRawAmount, h, Nat.cast_zero, zero_div,
    ofExact_of_abs_lt (by rw [Binary64.round_zero]; norm_num), Binary64.round_zero]
  rfl

/-- 16567.675651 KORI is refused: the product is 2 units of the last place off -/
example : parseKoriAmount (toNumber (formatRawAmount (.ofNat 16567675651))) =
    .error (.domain 400 "VALIDATION_ERROR" "amount supports up to 6 decimals") := by decide +kernel
example : formatRawAmount ⟨"0001500000", by decide⟩ = "1.5" := by decide
