import CoinManage.Numbers

/-!
# Amounts in exact arithmetic

`Number(text)` and `parseKoriAmount` once more, with numbers that are not rounded to doubles: what is
left is the parser's own tolerance.

* `numberOf`            the number a text is read as;
* `parse_exact_iff`     an amount is accepted as what it is, or refused, exactly when no multiple of
                        10^-6 is nearer than 10^-12 without being equal to it.
-/

set_option linter.unusedSectionVars false

namespace Exact

/-! ## `Number(text)` -/

def digitValue (c : Char) : Option Nat :=
  if c.isDigit then some (c.toNat - '0'.toNat)
  else if 'a' ≤ c ∧ c ≤ 'z' then some (c.toNat - 'a'.toNat + 10)
  else if 'A' ≤ c ∧ c ≤ 'Z' then some (c.toNat - 'A'.toNat + 10)
  else none

/-- the digits of an integer after `0x`, `0o` or `0b` -/
def integerOf (base : Nat) (digits : List Char) : JsNumber :=
  match digits.mapM digitValue with
  | some (d :: ds) =>
    if (d :: ds).all (· < base) then .finite ((d :: ds).foldl (fun n d => n * base + d) 0 : Nat) else .nan
  | _ => .nan

/-- `e`, perhaps a sign, and digits; without `e` the exponent is 0 -/
def exponentOf : List Char → Option ℤ
  | [] => some 0
  | c :: rest =>
    let negative := rest.head? == some '-'
    let digits := if negative || rest.head? == some '+' then rest.drop 1 else rest
    if (c = 'e' ∨ c = 'E') ∧ digits ≠ [] ∧ digits.all Char.isDigit then
      let e : ℤ := Nat.ofDigitChars 10 digits 0
      some (if negative then -e else e)
    else none

def unsignedOf (text : List Char) : JsNumber :=
  if text = "Infinity".toList then .infinity false
  else
    let whole := text.takeWhile Char.isDigit
    let rest := text.dropWhile Char.isDigit
    let fraction := if rest.head? == some '.' then (rest.drop 1).takeWhile Char.isDigit else []
    let rest := if rest.head? == some '.' then (rest.drop 1).dropWhile Char.isDigit else rest
    match exponentOf rest with
    | some e =>
      if whole = [] ∧ fraction = [] then .nan
      else .finite (Nat.ofDigitChars 10 (whole ++ fraction) 0 * 10 ^ (e - fraction.length))
    | none => .nan

def negate : JsNumber → JsNumber
  | .nan => .nan
  | .infinity negative => .infinity !negative
  | .finite q => .finite (-q)

/-- `Number(text)` -/
def numberOf (text : String) : JsNumber :=
  match (jsTrim text).toList with
  | [] => .finite 0
  | '0' :: 'x' :: digits => integerOf 16 digits
  | '0' :: 'X' :: digits => integerOf 16 digits
  | '0' :: 'o' :: digits => integerOf 8 digits
  | '0' :: 'O' :: digits => integerOf 8 digits
  | '0' :: 'b' :: digits => integerOf 2 digits
  | '0' :: 'B' :: digits => integerOf 2 digits
  | '-' :: rest => negate (unsignedOf rest)
  | '+' :: rest => unsignedOf rest
  | rest => unsignedOf rest

/-! ## the parser -/

def parseKoriAmount (amount : JsNumber) : Except LedgerError ℤ :=
  match amount with
  | .finite q =>
    if q ≤ 0 then .error (.domain 400 "VALIDATION_ERROR" "amount must be a positive number")
    else
      let scaled := q * KORI_SCALE
      let rounded := mathRound scaled
      if 1 / 1000000 < |scaled - rounded| then
        .error (.domain 400 "VALIDATION_ERROR" "amount supports up to 6 decimals")
      else .ok rounded
  | _ => .error (.domain 400 "VALIDATION_ERROR" "amount must be a positive number")

/-- `n` units are this amount, and not nothing -/
def Worth (amount : JsNumber) (n : ℤ) : Prop := 1 ≤ n ∧ amount = .finite (n / 10 ^ 6)

/-- a positive amount has a whole number of units, or its units are more than 10^-6 away from every
whole number -/
def Unambiguous (amount : JsNumber) : Prop :=
  ∀ q : ℚ, amount = .finite q → 0 < q → ∀ k : ℤ, |q * 10 ^ 6 - k| ≤ 1 / 10 ^ 6 → q * 10 ^ 6 = k

theorem scale_eq : (KORI_SCALE : ℚ) = 10 ^ 6 := by norm_num [KORI_SCALE]

theorem parse_ok_iff {amount : JsNumber} {n : ℤ} :
    parseKoriAmount amount = .ok n ↔
      ∃ q : ℚ, amount = .finite q ∧ 0 < q ∧ |q * 10 ^ 6 - n| ≤ 1 / 10 ^ 6 := by
  have htolerance : (1 : ℚ) / 1000000 = 1 / 10 ^ 6 := by norm_num
  cases amount with
  | nan => exact iff_of_false (by simp [parseKoriAmount]) (by simp)
  | infinity negative => exact iff_of_false (by simp [parseKoriAmount]) (by simp)
  | finite q =>
    simp only [parseKoriAmount, scale_eq, htolerance, JsNumber.finite.injEq, exists_eq_left']
    by_cases hq : q ≤ 0
    · rw [if_pos hq]
      exact iff_of_false (by simp) fun h => absurd h.1 (not_lt.mpr hq)
    · rw [if_neg hq]
      by_cases hfar : 1 / 10 ^ 6 < |q * 10 ^ 6 - (mathRound (q * 10 ^ 6) : ℤ)|
      · rw [if_pos hfar]
        refine iff_of_false (by simp) fun h => ?_
        have hsmall : |q * 10 ^ 6 - (n : ℚ)| < 1 / 2 := lt_of_le_of_lt h.2 (by norm_num)
        rw [mathRound_of_near hsmall] at hfar
        exact absurd h.2 (not_le.mpr hfar)
      · rw [if_neg hfar, Except.ok.injEq]
        constructor
        · rintro rfl
          exact ⟨not_le.mp hq, not_lt.mp hfar⟩
        · intro h
          exact mathRound_of_near (lt_of_le_of_lt h.2 (by norm_num))

/-- what is accepted is worth what was asked for, exactly when the amount is unambiguous -/
theorem parse_exact_iff (amount : JsNumber) :
    (∀ n, parseKoriAmount amount = .ok n → Worth amount n) ↔ Unambiguous amount := by
  have hscale : (10 : ℚ) ^ 6 ≠ 0 := by norm_num
  constructor
  · intro h q hq hpos k hk
    obtain ⟨-, hworth⟩ := h k (parse_ok_iff.mpr ⟨q, hq, hpos, hk⟩)
    rw [hq, JsNumber.finite.injEq] at hworth
    rw [hworth]
    exact div_mul_cancel₀ _ hscale
  · intro h n hn
    obtain ⟨q, hq, hpos, hnear⟩ := parse_ok_iff.mp hn
    have hexact : q * 10 ^ 6 = n := h q hq hpos n hnear
    have hn0 : (0 : ℚ) < n := by
      rw [← hexact]
      positivity
    have hn1 : 0 < n := by exact_mod_cast hn0
    refine ⟨hn1, ?_⟩
    rw [hq, ← hexact]
    congr 1
    exact (mul_div_cancel_right₀ q hscale).symm

end Exact
