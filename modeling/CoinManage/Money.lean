import CoinManage.Core

/-!
# KORI amounts as text

Amounts are integers of 10^-6 KORI inside the program and decimal text outside it: in request
bodies, in event contracts and in the `NUMERIC(36,6)` columns of the database.

* `parse_format`     parsing what `formatKoriAmount` prints gives the amount back, for every
                     integer;
* `format_injective` two amounts never print the same;
* `amountPattern_format`  the printed text matches the amount pattern of the contracts.
-/

def KORI_DECIMALS : Nat := 6
def KORI_SCALE : Nat := 1000000

/-- `s.padStart(n, '0')` -/
def padStart (n : Nat) (s : List Char) : List Char := List.replicate (n - s.length) '0' ++ s

/-- `s.padEnd(n, '0')` -/
def padEnd (n : Nat) (s : List Char) : List Char := s ++ List.replicate (n - s.length) '0'

/-- the characters `formatKoriAmount` prints for an amount without its sign -/
def formatUnits (abs : Nat) : List Char :=
  Nat.toDigits 10 (abs / KORI_SCALE) ++ '.' ::
    padStart KORI_DECIMALS (Nat.toDigits 10 (abs % KORI_SCALE))

def formatKoriAmount (units : ℤ) : String :=
  String.ofList ((if units < 0 then ['-'] else []) ++ formatUnits units.natAbs)

/-- the groups of `/^-?\d+(\.\d{1,6})?$/`: the sign, the integer digits, the fraction digits -/
def matchStoredAmount (s : List Char) : Option (Bool × List Char × List Char) :=
  let negative := s.head? == some '-'
  let unsigned := if negative then s.drop 1 else s
  let intPart := unsigned.takeWhile Char.isDigit
  match unsigned.dropWhile Char.isDigit with
  | [] => if intPart = [] then none else some (negative, intPart, [])
  | c :: fracPart =>
    if c = '.' ∧ intPart ≠ [] ∧ fracPart.all Char.isDigit ∧ 1 ≤ fracPart.length ∧
        fracPart.length ≤ KORI_DECIMALS then
      some (negative, intPart, fracPart)
    else none

def parseStoredKoriAmount (amount : String) : Except LedgerError ℤ :=
  let normalized := jsTrim amount
  match matchStoredAmount normalized.toList with
  | none => .error (.domain 500 "STATE_CORRUPTED" ("invalid stored KORI amount: " ++ normalized))
  | some (negative, intPart, fracPart) =>
    let units : Nat := Nat.ofDigitChars 10 intPart 0 * KORI_SCALE +
      Nat.ofDigitChars 10 (padEnd KORI_DECIMALS fracPart) 0
    .ok (if negative then -(units : ℤ) else units)

/-- `/^-?[0-9]+\.[0-9]{6}$/` -/
def amountPattern (s : String) : Bool :=
  match matchStoredAmount s.toList with
  | some (_, _, fracPart) => fracPart.length == KORI_DECIMALS
  | none => false

/-! ## what the formatter prints -/

theorem isDigit_toDigits {n : Nat} {c : Char} (h : c ∈ Nat.toDigits 10 n) : c.isDigit = true :=
  Nat.isDigit_of_mem_toDigits (by norm_num) (by norm_num) h

theorem all_digits_padStart (k n : Nat) :
    (padStart k (Nat.toDigits 10 n)).all Char.isDigit = true := by
  rw [List.all_eq_true]
  intro c hc
  rcases List.mem_append.mp hc with h | h
  · rw [List.eq_of_mem_replicate h]; rfl
  · exact isDigit_toDigits h

theorem length_padStart {k n : Nat} (hk : 0 < k) (hn : n < 10 ^ k) :
    (padStart k (Nat.toDigits 10 n)).length = k := by
  have h := (Nat.length_toDigits_le_iff (b := 10) (by norm_num) hk).mpr hn
  rw [padStart, List.length_append, List.length_replicate]
  omega

theorem ofDigitChars_padStart (k n : Nat) :
    Nat.ofDigitChars 10 (padStart k (Nat.toDigits 10 n)) 0 = n := by
  rw [padStart, Nat.ofDigitChars_append, Nat.ofDigitChars_replicate_zero, Nat.mul_zero,
    Nat.ofDigitChars_ten_toDigits]

theorem padEnd_of_length {k : Nat} {s : List Char} (h : s.length = k) : padEnd k s = s := by
  rw [padEnd, h, Nat.sub_self, List.replicate_zero, List.append_nil]

theorem mod_scale_lt (n : Nat) : n % KORI_SCALE < 10 ^ KORI_DECIMALS :=
  Nat.mod_lt n (by decide)

theorem takeWhile_append_of_all {p : Char → Bool} {l r : List Char} {c : Char}
    (hl : ∀ a ∈ l, p a = true) (hc : p c = false) :
    (l ++ c :: r).takeWhile p = l ∧ (l ++ c :: r).dropWhile p = c :: r := by
  induction l with
  | nil => simp [hc]
  | cons a l ih =>
    have ha := hl a List.mem_cons_self
    have ih' := ih fun b hb => hl b (List.mem_cons_of_mem _ hb)
    simp [ha, ih'.1, ih'.2]

theorem head_toDigits (n : Nat) (r : List Char) :
    ((Nat.toDigits 10 n ++ r).head? == some '-') = false := by
  cases h : Nat.toDigits 10 n with
  | nil => exact absurd h Nat.toDigits_ne_nil
  | cons c cs =>
    have hd : c.isDigit = true := isDigit_toDigits (n := n) (by rw [h]; exact List.mem_cons_self)
    have hc : c ≠ '-' := fun e => by rw [e] at hd; exact absurd hd (by decide)
    simp [hc]

/-- the pattern reads back sign, integer digits and six fraction digits -/
theorem matchStoredAmount_format (units : ℤ) :
    matchStoredAmount (formatKoriAmount units).toList =
      some (decide (units < 0), Nat.toDigits 10 (units.natAbs / KORI_SCALE),
        padStart KORI_DECIMALS (Nat.toDigits 10 (units.natAbs % KORI_SCALE))) := by
  have hlen := length_padStart (k := KORI_DECIMALS) (by decide) (mod_scale_lt units.natAbs)
  have hall := all_digits_padStart KORI_DECIMALS (units.natAbs % KORI_SCALE)
  have hsplit := takeWhile_append_of_all (p := Char.isDigit)
    (r := padStart KORI_DECIMALS (Nat.toDigits 10 (units.natAbs % KORI_SCALE)))
    (fun a ha => isDigit_toDigits (n := units.natAbs / KORI_SCALE) ha)
    (show Char.isDigit '.' = false by decide)
  have hne : Nat.toDigits 10 (units.natAbs / KORI_SCALE) ≠ [] := Nat.toDigits_ne_nil
  have h1 : 1 ≤ KORI_DECIMALS := by decide
  rw [formatKoriAmount, String.toList_ofList]
  by_cases hneg : units < 0
  · rw [if_pos hneg]
    simp only [matchStoredAmount, formatUnits, List.cons_append, List.nil_append, List.head?_cons,
      BEq.rfl, if_true, List.drop_succ_cons, List.drop_zero, hsplit, hlen, hall, hneg, decide_true]
    rw [if_pos ⟨trivial, hne, trivial, h1, le_refl _⟩]
  · rw [if_neg hneg, List.nil_append]
    simp only [matchStoredAmount, formatUnits, head_toDigits, Bool.false_eq_true, if_false, hsplit,
      hlen, hall, hneg, decide_false]
    rw [if_pos ⟨trivial, hne, trivial, h1, le_refl _⟩]

theorem format_no_whitespace (units : ℤ) :
    ∀ c ∈ (formatKoriAmount units).toList, isJsWhitespace c = false := by
  have hd : ∀ c : Char, c.isDigit = true → isJsWhitespace c = false := by
    intro c hc
    have h := Char.isDigit_iff_toNat.mp hc
    simp only [isJsWhitespace]
    have h1 : ('0' : Char).toNat = 48 := rfl
    have h2 : ('9' : Char).toNat = 57 := rfl
    simp only [Bool.or_eq_false_iff, Bool.and_eq_false_iff, decide_eq_false_iff_not, beq_eq_false_iff_ne]
    omega
  intro c hc
  rw [formatKoriAmount, String.toList_ofList, formatUnits] at hc
  rcases List.mem_append.mp hc with h | h
  · split at h
    · rw [List.mem_singleton.mp h]; decide
    · simp at h
  · rcases List.mem_append.mp h with h | h
    · exact hd c (isDigit_toDigits h)
    · rcases List.mem_cons.mp h with rfl | h
      · decide
      · exact hd c (List.all_eq_true.mp (all_digits_padStart _ _) c h)

/-! ## round trips -/

/-- parsing what the formatter prints gives the amount back -/
theorem parse_format (units : ℤ) : parseStoredKoriAmount (formatKoriAmount units) = .ok units := by
  have hlen := length_padStart (k := KORI_DECIMALS) (by decide) (mod_scale_lt units.natAbs)
  have hsum : units.natAbs / KORI_SCALE * KORI_SCALE + units.natAbs % KORI_SCALE = units.natAbs :=
    Nat.div_add_mod' _ _
  rw [parseStoredKoriAmount, jsTrim_eq_self (format_no_whitespace units)]
  simp only [matchStoredAmount_format, Nat.ofDigitChars_ten_toDigits, padEnd_of_length hlen,
    ofDigitChars_padStart, hsum]
  by_cases hneg : units < 0
  · rw [decide_eq_true hneg, if_pos rfl]
    congr 1
    omega
  · rw [decide_eq_false hneg, if_neg (by simp)]
    congr 1
    omega

theorem format_injective : Function.Injective formatKoriAmount := by
  intro a b h
  have ha := parse_format a
  rw [h, parse_format b] at ha
  exact (Except.ok.inj ha).symm

theorem amountPattern_format (units : ℤ) : amountPattern (formatKoriAmount units) = true := by
  have hlen := length_padStart (k := KORI_DECIMALS) (by decide) (mod_scale_lt units.natAbs)
  rw [amountPattern, matchStoredAmount_format]
  simp only [hlen, BEq.rfl]

example : formatKoriAmount (-1500000) = "-1.500000" := by decide
example : parseStoredKoriAmount " 12.5 " = .ok 12500000 := by decide
