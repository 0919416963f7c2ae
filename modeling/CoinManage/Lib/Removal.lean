import Mathlib.Tactic

/-!
# Removing every occurrence of a text

`removeAll sub s` is `replace(s, sub, '')`: the text is read from the left, and what follows an
occurrence is read on from its end.

* `removeAll_append`      an occurrence in front is removed;
* `removeAll_eq_self`     a text without an occurrence stays;
* `length_removeAll_lt`   a text with one becomes shorter.
-/

namespace Removal

section
variable {α : Type} [DecidableEq α]

/-- the rest of a text, of whose front `skip` places belong to an occurrence -/
def removeFrom (sub : List α) : (skip : Nat) → List α → List α
  | _, [] => []
  | skip + 1, _ :: s => removeFrom sub skip s
  | 0, a :: s => if sub.isPrefixOf (a :: s) then removeFrom sub (sub.length - 1) s
    else a :: removeFrom sub 0 s

def removeAll (sub s : List α) : List α := removeFrom sub 0 s

theorem removeFrom_append (sub : List α) (occurrence s : List α) :
    removeFrom sub occurrence.length (occurrence ++ s) = removeAll sub s := by
  induction occurrence with
  | nil => rfl
  | cons a occurrence ih => exact ih

theorem removeAll_append {sub : List α} (h : sub ≠ []) (s : List α) :
    removeAll sub (sub ++ s) = removeAll sub s := by
  cases sub with
  | nil => exact absurd rfl h
  | cons a sub =>
    have hprefix : (a :: sub).isPrefixOf (a :: (sub ++ s)) = true :=
      List.isPrefixOf_iff_prefix.mpr (List.prefix_append (a :: sub) s)
    show (if (a :: sub).isPrefixOf (a :: (sub ++ s)) then _ else _) = _
    rw [if_pos hprefix]
    exact removeFrom_append (a :: sub) sub s

theorem length_removeFrom_le (sub : List α) (skip : Nat) (s : List α) :
    (removeFrom sub skip s).length ≤ s.length := by
  induction s generalizing skip with
  | nil => cases skip <;> exact le_refl 0
  | cons a s ih =>
    cases skip with
    | succ skip => exact (ih skip).trans (Nat.le_succ _)
    | zero =>
      show (if sub.isPrefixOf (a :: s) then _ else _ : List α).length ≤ _
      split
      · exact (ih _).trans (Nat.le_succ _)
      · exact Nat.succ_le_succ (ih 0)

theorem length_removeAll_le (sub s : List α) : (removeAll sub s).length ≤ s.length :=
  length_removeFrom_le sub 0 s

/-- a text with an occurrence becomes shorter -/
theorem length_removeAll_lt {sub s : List α} (hne : sub ≠ []) (h : sub <:+: s) :
    (removeAll sub s).length < s.length := by
  induction s with
  | nil => exact absurd (List.infix_nil.mp h) hne
  | cons a s ih =>
    show (if sub.isPrefixOf (a :: s) then _ else _ : List α).length < _
    split
    · exact Nat.lt_succ_of_le (length_removeFrom_le sub _ s)
    · next hno =>
      rcases List.infix_cons_iff.mp h with hprefix | hinfix
      · exact absurd (List.isPrefixOf_iff_prefix.mpr hprefix) hno
      · exact Nat.succ_lt_succ (ih hinfix)

/-- a text without an occurrence stays -/
theorem removeAll_eq_self {sub s : List α} (h : ¬ sub <:+: s) : removeAll sub s = s := by
  induction s with
  | nil => rfl
  | cons a s ih =>
    have hno : ¬ sub.isPrefixOf (a :: s) = true := fun hp =>
      h (List.isPrefixOf_iff_prefix.mp hp).isInfix
    show (if sub.isPrefixOf (a :: s) then _ else _) = _
    rw [if_neg hno]
    exact congrArg (a :: ·) (ih fun hinfix => h (List.infix_cons_iff.mpr (Or.inr hinfix)))

theorem removeAll_eq_self_iff {sub s : List α} (hne : sub ≠ []) :
    removeAll sub s = s ↔ ¬ sub <:+: s := by
  constructor
  · intro heq hinfix
    have hlt := length_removeAll_lt hne hinfix
    rw [heq] at hlt
    exact lt_irrefl _ hlt
  · exact removeAll_eq_self

end

end Removal
