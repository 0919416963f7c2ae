import Mathlib.Tactic

/-!
# A fallible function over a list

`xs.mapM f` in `Except` stops at the first element that is refused.

* `mapM_ok_iff`     it returns exactly when every element does, with the values in order;
* `mapM_source`, `mapM_target`   where a value comes from, and where an element goes;
* `mapM_error`      one refused element is enough.
-/

namespace Collect

section
variable {α β ε : Type} {f : α → Except ε β} {xs : List α} {ys : List β}

theorem mapM_ok_iff : xs.mapM f = .ok ys ↔ List.Forall₂ (fun x y => f x = .ok y) xs ys := by
  constructor
  · intro h
    induction xs generalizing ys with
    | nil =>
      obtain rfl := Except.ok.inj h
      exact .nil
    | cons x xs ih =>
      rw [List.mapM_cons] at h
      cases hx : f x with
      | error e =>
        rw [hx] at h
        cases h
      | ok y =>
        rw [hx] at h
        cases hxs : xs.mapM f with
        | error e =>
          rw [hxs] at h
          cases h
        | ok ys' =>
          rw [hxs] at h
          obtain rfl := Except.ok.inj h
          exact .cons hx (ih hxs)
  · intro h
    induction h with
    | nil => rfl
    | cons hx _ ih =>
      rw [List.mapM_cons, hx, ih]
      rfl

theorem mapM_of_ok {g : α → β} (h : ∀ x ∈ xs, f x = .ok (g x)) : xs.mapM f = .ok (xs.map g) := by
  rw [mapM_ok_iff, List.forall₂_map_right_iff, List.forall₂_same]
  exact h

/-- the same for the elements of a list that was made from another -/
theorem mapM_map_of_ok {γ : Type} {k : γ → α} {g : γ → β} {zs : List γ}
    (h : ∀ z ∈ zs, f (k z) = .ok (g z)) : (zs.map k).mapM f = .ok (zs.map g) := by
  rw [mapM_ok_iff, List.forall₂_map_left_iff, List.forall₂_map_right_iff, List.forall₂_same]
  exact h

theorem mapM_source (h : xs.mapM f = .ok ys) {y : β} (hy : y ∈ ys) : ∃ x ∈ xs, f x = .ok y := by
  replace h := mapM_ok_iff.mp h
  induction h with
  | nil => cases hy
  | cons hx _ ih =>
    rcases List.mem_cons.mp hy with rfl | hy
    · exact ⟨_, List.mem_cons_self, hx⟩
    · obtain ⟨x, hmem, hf⟩ := ih hy
      exact ⟨x, List.mem_cons_of_mem _ hmem, hf⟩

theorem mapM_target (h : xs.mapM f = .ok ys) {x : α} (hx : x ∈ xs) : ∃ y ∈ ys, f x = .ok y := by
  replace h := mapM_ok_iff.mp h
  induction h with
  | nil => cases hx
  | cons hf _ ih =>
    rcases List.mem_cons.mp hx with rfl | hx
    · exact ⟨_, List.mem_cons_self, hf⟩
    · obtain ⟨y, hmem, hf'⟩ := ih hx
      exact ⟨y, List.mem_cons_of_mem _ hmem, hf'⟩

theorem mapM_error {x : α} (hx : x ∈ xs) (h : ∃ e, f x = .error e) : ∃ e, xs.mapM f = .error e := by
  obtain ⟨e, he⟩ := h
  cases hxs : xs.mapM f with
  | error e' => exact ⟨e', rfl⟩
  | ok ys =>
    obtain ⟨y, -, hy⟩ := mapM_target hxs hx
    rw [he] at hy
    cases hy

end

end Collect
