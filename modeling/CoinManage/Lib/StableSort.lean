import Mathlib.Data.List.Sort

/-!
# Prefixes of stable sorts

Sources that are each sorted and cut, then put together, sorted again and cut, give the same list as
everything put together and sorted once, as long as no source was cut shorter than the result.  The
order need only be total and transitive: elements that tie keep the order they come in.

* `insertionSort_append`    a stable sort of two lists merges the sorted lists, the first one first;
* `take_merge`              a prefix of a merge needs the prefixes only;
* `take_insertionSort_cut`  the first source may be cut, whatever is done to the rest.
-/

namespace List

section
variable {α : Type*} {r : α → α → Prop} [DecidableRel r]

/-- an element inserted in a merge goes before its ties in both lists, so it may join the first one -/
theorem orderedInsert_merge (htrans : ∀ a b c, r a b → r b c → r a c) (htotal : ∀ a b, r a b ∨ r b a)
    (a : α) (xs ys : List α) :
    (merge xs ys fun x y => r x y).orderedInsert r a = merge (xs.orderedInsert r a) ys fun x y => r x y := by
  induction xs generalizing ys with
  | nil =>
    rw [nil_merge, orderedInsert_nil]
    induction ys with
    | nil => rw [merge_right, orderedInsert_nil]
    | cons y ys ih =>
      by_cases hay : r a y
      · rw [orderedInsert_cons_of_le r _ hay, cons_merge_cons_pos _ _ _ (decide_eq_true hay), nil_merge]
      · rw [orderedInsert_of_not_le r _ hay, cons_merge_cons_neg _ _ _ (by simpa using hay), ih]
  | cons x xs ihx =>
    induction ys with
    | nil => rw [merge_right, merge_right]
    | cons y ys ihy =>
      by_cases hxy : r x y
      · rw [cons_merge_cons_pos _ _ _ (decide_eq_true hxy)]
        by_cases hax : r a x
        · have hay : r a y := htrans a x y hax hxy
          rw [orderedInsert_cons_of_le r _ hax, orderedInsert_cons_of_le r _ hax,
            cons_merge_cons_pos _ _ _ (decide_eq_true hay),
            cons_merge_cons_pos _ _ _ (decide_eq_true hxy)]
        · rw [orderedInsert_of_not_le r _ hax, orderedInsert_of_not_le r _ hax,
            cons_merge_cons_pos _ _ _ (decide_eq_true hxy), ihx]
      · have hyx : r y x := (htotal x y).resolve_left hxy
        rw [cons_merge_cons_neg _ _ _ (by simpa using hxy)]
        by_cases hay : r a y
        · have hax : r a x := htrans a y x hay hyx
          rw [orderedInsert_cons_of_le r _ hay, orderedInsert_cons_of_le r _ hax,
            cons_merge_cons_pos _ _ _ (decide_eq_true hay),
            cons_merge_cons_neg _ _ _ (by simpa using hxy)]
        · rw [orderedInsert_of_not_le r _ hay, ihy]
          by_cases hax : r a x
          · rw [orderedInsert_cons_of_le r _ hax, cons_merge_cons_neg _ _ _ (by simpa using hay)]
          · rw [orderedInsert_of_not_le r _ hax, cons_merge_cons_neg _ _ _ (by simpa using hxy)]

theorem insertionSort_append (htrans : ∀ a b c, r a b → r b c → r a c)
    (htotal : ∀ a b, r a b ∨ r b a) (xs ys : List α) :
    (xs ++ ys).insertionSort r =
      merge (xs.insertionSort r) (ys.insertionSort r) fun x y => r x y := by
  induction xs with
  | nil => rw [nil_append, insertionSort_nil, nil_merge]
  | cons x xs ih =>
    rw [cons_append, insertionSort_cons, ih, orderedInsert_merge htrans htotal, insertionSort_cons]

theorem take_merge (le : α → α → Bool) {n p q : ℕ} (hp : n ≤ p) (hq : n ≤ q) (xs ys : List α) :
    (merge xs ys le).take n = (merge (xs.take p) (ys.take q) le).take n := by
  induction n generalizing p q xs ys with
  | zero => rw [take_zero, take_zero]
  | succ n ih =>
    obtain ⟨p, rfl⟩ : ∃ p', p = p' + 1 := ⟨p - 1, by omega⟩
    obtain ⟨q, rfl⟩ : ∃ q', q = q' + 1 := ⟨q - 1, by omega⟩
    cases xs with
    | nil =>
      rw [take_nil, nil_merge, nil_merge, take_take, min_eq_left (by omega)]
    | cons x xs =>
      cases ys with
      | nil => rw [take_nil, merge_right, merge_right, take_take, min_eq_left (by omega)]
      | cons y ys =>
        rw [take_succ_cons, take_succ_cons]
        by_cases h : le x y
        · rw [cons_merge_cons_pos _ _ _ h, cons_merge_cons_pos _ _ _ h, take_succ_cons, take_succ_cons,
            ih (p := p) (q := q + 1) (by omega) (by omega), take_succ_cons]
        · rw [cons_merge_cons_neg _ _ _ h, cons_merge_cons_neg _ _ _ h, take_succ_cons, take_succ_cons,
            ih (p := p + 1) (q := q) (by omega) (by omega), take_succ_cons]

theorem insertionSort_take_insertionSort (htrans : ∀ a b c, r a b → r b c → r a c)
    (htotal : ∀ a b, r a b ∨ r b a) (p : ℕ) (xs : List α) :
    ((xs.insertionSort r).take p).insertionSort r = (xs.insertionSort r).take p := by
  have : Std.Total r := ⟨htotal⟩
  have : IsTrans α r := ⟨htrans⟩
  apply Pairwise.insertionSort_eq
  exact (pairwise_insertionSort r xs).sublist (take_sublist p _)

/-- the first of two sources, sorted and cut no shorter than the result, and a second one that has been
replaced by another with the same sorted prefix -/
theorem take_insertionSort_cut (htrans : ∀ a b c, r a b → r b c → r a c)
    (htotal : ∀ a b, r a b ∨ r b a) {n p : ℕ} (hp : n ≤ p) (xs : List α) {ys zs : List α}
    (hys : (ys.insertionSort r).take n = (zs.insertionSort r).take n) :
    (((xs.insertionSort r).take p ++ ys).insertionSort r).take n =
      ((xs ++ zs).insertionSort r).take n := by
  calc (((xs.insertionSort r).take p ++ ys).insertionSort r).take n
      = (merge ((xs.insertionSort r).take p) (ys.insertionSort r) fun x y => r x y).take n := by
        rw [insertionSort_append htrans htotal, insertionSort_take_insertionSort htrans htotal]
    _ = (merge ((xs.insertionSort r).take n) ((ys.insertionSort r).take n) fun x y => r x y).take n := by
        rw [take_merge _ (le_refl n) (le_refl n), take_take, min_eq_left hp]
    _ = (merge (xs.insertionSort r) (zs.insertionSort r) fun x y => r x y).take n := by
        rw [hys, ← take_merge _ (le_refl n) (le_refl n)]
    _ = ((xs ++ zs).insertionSort r).take n := by rw [insertionSort_append htrans htotal]

end

end List
