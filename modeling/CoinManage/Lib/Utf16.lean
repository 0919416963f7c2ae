import CoinManage.Lib.Fields

/-!
# The order of JavaScript strings

JavaScript compares strings by their UTF-16 code units.  Two strings with the same code units are
the same (`codeUnits_inj`), so the order is total (`total`).
-/

namespace Utf16

def units (c : Char) : List Nat :=
  if c.toNat < 0x10000 then [c.toNat]
  else [0xd800 + (c.toNat - 0x10000) / 0x400, 0xdc00 + (c.toNat - 0x10000) % 0x400]

def codeUnits (s : String) : List Nat := s.toList.flatMap units

/-- the order of `Array.prototype.sort` without a comparator -/
def le (s t : String) : Bool := decide (codeUnits s ≤ codeUnits t)

/-- reads one character -/
def decode : List Nat → Option (Char × List Nat)
  | [] => none
  | high :: us =>
    if 0xd800 ≤ high ∧ high < 0xdc00 then
      match us with
      | low :: us => some (Char.ofNat (0x10000 + (high - 0xd800) * 0x400 + (low - 0xdc00)), us)
      | [] => none
    else some (Char.ofNat high, us)

theorem decode_units (c : Char) (r : List Nat) : decode (units c ++ r) = some (c, r) := by
  have hvalid : c.toNat < 0xd800 ∨ 0xdfff < c.toNat ∧ c.toNat < 0x110000 := c.valid
  unfold units
  split
  · next hsmall =>
    show (if 0xd800 ≤ c.toNat ∧ c.toNat < 0xdc00 then _ else some (Char.ofNat c.toNat, r)) = _
    rw [if_neg (by omega), Char.ofNat_toNat]
  · next hlarge =>
    show (if 0xd800 ≤ 0xd800 + (c.toNat - 0x10000) / 0x400 ∧ _ then
      some (Char.ofNat (0x10000 + (0xd800 + (c.toNat - 0x10000) / 0x400 - 0xd800) * 0x400 +
        (0xdc00 + (c.toNat - 0x10000) % 0x400 - 0xdc00)), r) else _) = _
    rw [if_pos (by omega)]
    have hvalue : 0x10000 + (0xd800 + (c.toNat - 0x10000) / 0x400 - 0xd800) * 0x400 +
        (0xdc00 + (c.toNat - 0x10000) % 0x400 - 0xdc00) = c.toNat := by omega
    rw [hvalue, Char.ofNat_toNat]

theorem flatMap_units_inj {cs cs' : List Char} (h : cs.flatMap units = cs'.flatMap units) :
    cs = cs' := by
  induction cs generalizing cs' with
  | nil =>
    cases cs' with
    | nil => rfl
    | cons c cs' =>
      have hread := congrArg decode h
      rw [List.flatMap_cons, decode_units] at hread
      cases hread
  | cons c cs ih =>
    have hread := congrArg decode h
    rw [List.flatMap_cons, decode_units] at hread
    cases cs' with
    | nil => cases hread
    | cons c' cs' =>
      rw [List.flatMap_cons, decode_units] at hread
      obtain ⟨rfl, hrest⟩ := Prod.mk.inj (Option.some.inj hread)
      rw [ih hrest]

theorem codeUnits_inj {s t : String} (h : codeUnits s = codeUnits t) : s = t :=
  String.toList_inj.mp (flatMap_units_inj h)

theorem total : Fields.Total le where
  trans a b c hab hbc := by
    unfold le at *
    rw [decide_eq_true_eq] at *
    exact le_trans hab hbc
  total a b := by
    unfold le
    rw [Bool.or_eq_true, decide_eq_true_eq, decide_eq_true_eq]
    exact le_total _ _
  antisymm a b hab hba := by
    unfold le at *
    rw [decide_eq_true_eq] at *
    exact codeUnits_inj (le_antisymm hab hba)

end Utf16
