import CoinManage.Numbers

/-!
# Amounts and decimal text

Three formatters print amounts as decimal text: `formatKoriAmount` with six decimals,
`formatRawAmount` and the wallet reader's `formatUnits` without trailing zeros.
`parseStoredKoriAmount` reads such text back.

* `parse_dropped`     what the parser makes of digits with trailing zeros dropped;
* `value_of_parse`    a text that is accepted denotes the units over 10^6;
* `amounts_convert`   nothing is lost between text and integers.
-/

set_option linter.unusedSectionVars false

namespace TronWalletReader

/-- decimal text of a balance, which the contract reports as an unsigned integer -/
def formatUnits (rawValue decimals : Nat) : String :=
  let divisor := 10 ^ decimals
  let whole := Nat.toDigits 10 (rawValue / divisor)
  let fractionText := dropTrailingZeros (padStart decimals (Nat.toDigits 10 (rawValue % divisor)))
  String.ofList (if fractionText = [] then whole else whole ++ '.' :: fractionText)

end TronWalletReader

/-! ## the number a text denotes -/

/-- the rational number written as a sign, digits and perhaps a point and more digits -/
def decimalValue (s : String) : Option ℚ :=
  let text := (jsTrim s).toList
  let negative := text.head? == some '-'
  let unsigned := if negative then text.drop 1 else text
  let whole := unsigned.takeWhile Char.isDigit
  let magnitude : Option ℚ :=
    match unsigned.dropWhile Char.isDigit with
    | [] => if whole = [] then none else some (Nat.ofDigitChars 10 whole 0)
    | c :: fractional =>
      if c = '.' ∧ whole ≠ [] ∧ fractional ≠ [] ∧ fractional.all Char.isDigit then
        some (Nat.ofDigitChars 10 (whole ++ fractional) 0 / 10 ^ fractional.length)
      else none
  magnitude.map fun q => if negative then -q else q

/-! ## digits without trailing zeros -/

theorem not_whitespace_of_digit {c : Char} (h : c.isDigit = true) : isJsWhitespace c = false := by
  have hc := Char.isDigit_iff_toNat.mp h
  have h1 : ('0' : Char).toNat = 48 := rfl
  have h2 : ('9' : Char).toNat = 57 := rfl
  simp only [isJsWhitespace, Bool.or_eq_false_iff, Bool.and_eq_false_iff, decide_eq_false_iff_not,
    beq_eq_false_iff_ne]
  omega

theorem head_ne_sign {whole : List Char} (hwhole : whole ≠ []) (hdigits : ∀ c ∈ whole, c.isDigit = true)
    (rest : List Char) : ((whole ++ rest).head? == some '-') = false := by
  obtain ⟨c, cs, rfl⟩ := List.exists_cons_of_ne_nil hwhole
  have hd : c.isDigit = true := hdigits c List.mem_cons_self
  have hc : c ≠ '-' := by
    intro e
    rw [e] at hd
    exact absurd hd (by decide)
  simp [hc]

section
variable {whole fractional : List Char} (hwhole : whole ≠ []) (hwd : ∀ c ∈ whole, c.isDigit = true)
  (hfd : ∀ c ∈ fractional, c.isDigit = true) (hle : fractional.length ≤ KORI_DECIMALS)
include hwhole hwd hfd hle

theorem matchStoredAmount_digits :
    matchStoredAmount (if fractional = [] then whole else whole ++ '.' :: fractional) =
      some (false, whole, fractional) := by
  by_cases hnil : fractional = []
  · subst hnil
    have hhead := head_ne_sign hwhole hwd []
    rw [List.append_nil] at hhead
    rw [if_pos rfl, matchStoredAmount]
    simp only [hhead, Bool.false_eq_true, if_false]
    rw [List.takeWhile_eq_self_iff.mpr hwd, List.dropWhile_eq_nil_iff.mpr hwd]
    exact if_neg hwhole
  · have hpoint : Char.isDigit '.' = false := by decide
    obtain ⟨ht, hd⟩ := takeWhile_append_of_all hwd hpoint (r := fractional)
    have hpos : 1 ≤ fractional.length := List.length_pos_iff.mpr hnil
    rw [if_neg hnil, matchStoredAmount]
    simp only [head_ne_sign hwhole hwd, Bool.false_eq_true, if_false, ht, hd]
    exact if_pos ⟨trivial, hwhole, List.all_eq_true.mpr hfd, hpos, hle⟩

theorem parse_digits :
    parseStoredKoriAmount (String.ofList (if fractional = [] then whole else whole ++ '.' :: fractional)) =
      .ok ((Nat.ofDigitChars 10 whole 0 * KORI_SCALE +
        Nat.ofDigitChars 10 (padEnd KORI_DECIMALS fractional) 0 : Nat) : ℤ) := by
  have htrim : jsTrim (String.ofList (if fractional = [] then whole else whole ++ '.' :: fractional)) =
      String.ofList (if fractional = [] then whole else whole ++ '.' :: fractional) := by
    apply jsTrim_eq_self
    intro c hc
    rw [String.toList_ofList] at hc
    split at hc
    · exact not_whitespace_of_digit (hwd c hc)
    · rcases List.mem_append.mp hc with h | h
      · exact not_whitespace_of_digit (hwd c h)
      · rcases List.mem_cons.mp h with rfl | h
        · decide
        · exact not_whitespace_of_digit (hfd c h)
  rw [parseStoredKoriAmount, htrim, String.toList_ofList]
  simp only [matchStoredAmount_digits hwhole hwd hfd hle]
  rfl

end

/-- the parser puts the zeros back that the formatter dropped -/
theorem parse_dropped {whole text : List Char} (hwhole : whole ≠ []) (hwd : ∀ c ∈ whole, c.isDigit = true)
    (htd : ∀ c ∈ text, c.isDigit = true) (hle : text.length ≤ KORI_DECIMALS) :
    parseStoredKoriAmount (String.ofList
        (if dropTrailingZeros text = [] then whole else whole ++ '.' :: dropTrailingZeros text)) =
      .ok ((Nat.ofDigitChars 10 whole 0 * KORI_SCALE +
        Nat.ofDigitChars 10 text 0 * 10 ^ (KORI_DECIMALS - text.length) : Nat) : ℤ) := by
  have hzeros := dropTrailingZeros_append text
  set fractional := dropTrailingZeros text with hfractional
  have hfd : ∀ c ∈ fractional, c.isDigit = true := by
    intro c hc
    refine htd c ?_
    rw [← hzeros]
    exact List.mem_append_left _ hc
  have hlen : fractional.length ≤ text.length := by
    have h := congrArg List.length hzeros
    rw [List.length_append] at h
    omega
  have hvalue : Nat.ofDigitChars 10 (padEnd KORI_DECIMALS fractional) 0 =
      Nat.ofDigitChars 10 text 0 * 10 ^ (KORI_DECIMALS - text.length) := by
    have htext : Nat.ofDigitChars 10 text 0 =
        Nat.ofDigitChars 10 fractional 0 * 10 ^ (text.length - fractional.length) := by
      rw [← ofDigitChars_append_zeros, hzeros]
    rw [padEnd, ofDigitChars_append_zeros, htext, mul_assoc, ← pow_add]
    congr 2
    omega
  rw [parse_digits hwhole hwd hfd (hlen.trans hle), hvalue]

/-! ## the formatters -/

theorem parse_formatRawAmount (raw : RawAmount) :
    parseStoredKoriAmount (formatRawAmount raw) = .ok raw.units := by
  obtain ⟨whole, six, hsplit, hwhole, hlen, hdigits, hvalue⟩ := padded_split raw
  have htake : (whole ++ six).take ((whole ++ six).length - 6) = whole := by
    rw [List.length_append, hlen, Nat.add_sub_cancel, List.take_left]
  have hdrop : (whole ++ six).drop ((whole ++ six).length - 6) = six := by
    rw [List.length_append, hlen, Nat.add_sub_cancel, List.drop_left]
  have hparse := parse_dropped hwhole (fun c hc => hdigits c (List.mem_append_left _ hc))
    (fun c hc => hdigits c (List.mem_append_right _ hc)) (le_of_eq hlen)
  rw [formatRawAmount, hsplit]
  simp only [htake, hdrop]
  have hlast : KORI_DECIMALS - 6 = 0 := rfl
  rw [hparse, hlen, ← hvalue, ofDigitChars_six whole six hlen, hlast, pow_zero, mul_one]
  rfl

theorem parse_formatUnits {rawValue decimals : Nat} (h : decimals ≤ 6) :
    parseStoredKoriAmount (TronWalletReader.formatUnits rawValue decimals) =
      .ok ((rawValue * 10 ^ (6 - decimals) : Nat) : ℤ) := by
  have hwhole : Nat.toDigits 10 (rawValue / 10 ^ decimals) ≠ [] := Nat.toDigits_ne_nil
  have hwd : ∀ c ∈ Nat.toDigits 10 (rawValue / 10 ^ decimals), c.isDigit = true := fun c hc =>
    isDigit_toDigits hc
  rw [TronWalletReader.formatUnits]
  by_cases hzero : decimals = 0
  · -- the one zero that is left of the fraction is dropped
    subst hzero
    have hparse := @parse_dropped _ [] hwhole hwd (by simp) (by simp)
    rw [pow_zero, Nat.div_one] at hparse ⊢
    rw [Nat.mod_one]
    refine hparse.trans ?_
    have hscale : 10 ^ (6 - 0) = KORI_SCALE := by norm_num [KORI_SCALE]
    rw [Nat.ofDigitChars_ten_toDigits, Nat.ofDigitChars_nil, Nat.zero_mul, Nat.add_zero, hscale]
  · have hlen : (padStart decimals (Nat.toDigits 10 (rawValue % 10 ^ decimals))).length = decimals :=
      length_padStart (Nat.pos_of_ne_zero hzero) (Nat.mod_lt _ (by positivity))
    have hparse := parse_dropped hwhole hwd
      (List.all_eq_true.mp (all_digits_padStart decimals (rawValue % 10 ^ decimals)))
      (by rw [hlen]; exact h)
    refine hparse.trans ?_
    rw [hlen, Nat.ofDigitChars_ten_toDigits, ofDigitChars_padStart]
    have hscale : KORI_SCALE = 10 ^ decimals * 10 ^ (6 - decimals) := by
      rw [← pow_add, Nat.add_sub_cancel' h]
      rfl
    have hunits : rawValue / 10 ^ decimals * KORI_SCALE +
        rawValue % 10 ^ decimals * 10 ^ (KORI_DECIMALS - decimals) = rawValue * 10 ^ (6 - decimals) := by
      show _ + rawValue % 10 ^ decimals * 10 ^ (6 - decimals) = _
      rw [hscale, ← mul_assoc, ← add_mul, Nat.div_add_mod']
    rw [hunits]

/-! ## the parser -/

/-- what an accepted text denotes -/
theorem value_of_parse {s : String} {n : ℤ} (h : parseStoredKoriAmount s = .ok n) :
    decimalValue s = some ((n : ℚ) / 10 ^ 6) := by
  have hsix : (10 : ℚ) ^ 6 = KORI_SCALE := by norm_num [KORI_SCALE]
  rw [parseStoredKoriAmount] at h
  simp only [decimalValue]
  generalize (jsTrim s).toList = text at h ⊢
  rw [matchStoredAmount] at h
  generalize hneg : (text.head? == some '-') = negative at h ⊢
  generalize hunsigned : (if negative = true then text.drop 1 else text) = unsigned at h ⊢
  generalize unsigned.takeWhile Char.isDigit = whole at h ⊢
  have hsign : ∀ units : Nat, ∀ q : ℚ, (units : ℚ) = q * KORI_SCALE →
      Except.ok (if negative = true then -(units : ℤ) else units) = Except.ok (ε := LedgerError) n →
      (some q).map (fun q => if negative = true then -q else q) = some ((n : ℚ) / 10 ^ 6) := by
    intro units q hunits hok
    have hscale : (KORI_SCALE : ℚ) ≠ 0 := by norm_num [KORI_SCALE]
    have hq : q = units / KORI_SCALE := by
      rw [hunits]
      exact (mul_div_cancel_right₀ q hscale).symm
    rw [← Except.ok.inj hok, Option.map_some, hq, hsix]
    cases negative with
    | true =>
      rw [if_pos rfl, if_pos rfl]
      push_cast
      rw [neg_div]
    | false =>
      rw [if_neg (by simp), if_neg (by simp)]
      push_cast
      rfl
  cases hrest : unsigned.dropWhile Char.isDigit with
  | nil =>
    rw [hrest] at h
    by_cases hnil : whole = []
    · simp only [hnil, if_true] at h
      cases h
    · simp only [hnil, if_false] at h ⊢
      refine hsign _ _ ?_ h
      push_cast
      rw [padEnd, List.nil_append, Nat.ofDigitChars_replicate_zero]
      simp
  | cons c fractional =>
    rw [hrest] at h
    by_cases hform : c = '.' ∧ whole ≠ [] ∧ fractional.all Char.isDigit ∧ 1 ≤ fractional.length ∧
        fractional.length ≤ KORI_DECIMALS
    · obtain ⟨hpoint, hwhole, hdigits, hpos, hle⟩ := hform
      have hform' : c = '.' ∧ whole ≠ [] ∧ fractional ≠ [] ∧ fractional.all Char.isDigit :=
        ⟨hpoint, hwhole, List.ne_nil_of_length_pos hpos, hdigits⟩
      simp only [if_pos (show c = '.' ∧ whole ≠ [] ∧ fractional.all Char.isDigit ∧
        1 ≤ fractional.length ∧ fractional.length ≤ KORI_DECIMALS from
          ⟨hpoint, hwhole, hdigits, hpos, hle⟩)] at h
      show Option.map _ (if _ then _ else _) = _
      rw [if_pos hform']
      refine hsign _ _ ?_ h
      have hpow : (10 : ℚ) ^ fractional.length * 10 ^ (KORI_DECIMALS - fractional.length) = KORI_SCALE := by
        rw [← pow_add, Nat.add_sub_cancel' hle]
        norm_num [KORI_SCALE, KORI_DECIMALS]
      have happend : Nat.ofDigitChars 10 (whole ++ fractional) 0 =
          Nat.ofDigitChars 10 whole 0 * 10 ^ fractional.length + Nat.ofDigitChars 10 fractional 0 := by
        rw [Nat.ofDigitChars_append, Nat.ofDigitChars_eq_ofDigitChars_zero, Nat.mul_comm]
      have hne : (10 : ℚ) ^ fractional.length ≠ 0 := pow_ne_zero _ (by norm_num)
      rw [padEnd, ofDigitChars_append_zeros, happend]
      push_cast
      rw [← hpow, add_div, mul_div_cancel_right₀ _ hne, add_mul, ← mul_assoc, ← mul_assoc,
        div_mul_cancel₀ _ hne]
    · simp only [if_neg hform] at h
      cases h

/-- no digit and no sign is lost between text and integers -/
theorem amounts_convert :
    (∀ n : ℤ, parseStoredKoriAmount (formatKoriAmount n) = .ok n) ∧
    (∀ raw : RawAmount, parseStoredKoriAmount (formatRawAmount raw) = .ok raw.units) ∧
    (∀ a d : Nat, d ≤ 6 →
      parseStoredKoriAmount (TronWalletReader.formatUnits a d) = .ok ((a * 10 ^ (6 - d) : Nat) : ℤ)) ∧
    (∀ (s : String) (n : ℤ), parseStoredKoriAmount s = .ok n →
      decimalValue s = some ((n : ℚ) / 10 ^ 6) ∧ decimalValue (formatKoriAmount n) = decimalValue s) := by
  refine ⟨parse_format, parse_formatRawAmount, fun a d h => parse_formatUnits h, ?_⟩
  intro s n h
  refine ⟨value_of_parse h, ?_⟩
  rw [value_of_parse (parse_format n), value_of_parse h]

theorem amounts_convert_examples :
    parseStoredKoriAmount (TronWalletReader.formatUnits 1500 4) = .ok ((1500 * 10 ^ (6 - 4) : Nat) : ℤ) ∧
      (decimalValue " -0.05 " = some (((-50000 : ℤ) : ℚ) / 10 ^ 6) ∧
        decimalValue (formatKoriAmount (-50000)) = decimalValue " -0.05 ") :=
  ⟨amounts_convert.2.2.1 1500 4 (by decide), amounts_convert.2.2.2 " -0.05 " (-50000) (by decide)⟩
