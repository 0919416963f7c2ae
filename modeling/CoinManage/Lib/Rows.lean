import Mathlib.Tactic
import Mathlib.Algebra.BigOperators.Group.List.Basic

/-!
# Tables as lists of rows

A table is a list of rows; a query filters it, an update rewrites the rows with a given key, an
insert appends.

* `sum_filter`      a sum over the selected rows, as a sum over the table;
* `sum_at`          a sum over the row with a given key;
* `sum_update`      an update of one row changes a sum by the new value minus the old;
* `nodup_update`    an update that keeps the key keeps the keys distinct;
* `eq_of_key`       two rows with one key are the same row.
-/

set_option linter.unusedSectionVars false

namespace Rows

section
variable {ρ κ M : Type} [DecidableEq κ] [AddCommGroup M]

/-- rewrite the rows with this key -/
def update (key : ρ → κ) (k : κ) (change : ρ → ρ) (rows : List ρ) : List ρ :=
  rows.map fun row => if key row = k then change row else row

theorem sum_filter (p : ρ → Prop) [DecidablePred p] (f : ρ → M) (rows : List ρ) :
    ((rows.filter fun row => p row).map f).sum = (rows.map fun row => if p row then f row else 0).sum := by
  induction rows with
  | nil => rfl
  | cons row rows ih =>
    by_cases hp : p row
    · rw [List.filter_cons_of_pos (by simpa using hp), List.map_cons, List.sum_cons, ih,
        List.map_cons, List.sum_cons, if_pos hp]
    · rw [List.filter_cons_of_neg (by simpa using hp), ih, List.map_cons, List.sum_cons, if_neg hp,
        zero_add]

theorem sum_at {key : ρ → κ} (f : ρ → M) {rows : List ρ} (hnd : (rows.map key).Nodup) {row : ρ}
    (hrow : row ∈ rows) : (rows.map fun r => if key r = key row then f r else 0).sum = f row := by
  induction rows with
  | nil => cases hrow
  | cons r rows ih =>
    rw [List.map_cons, List.nodup_cons] at hnd
    rw [List.map_cons, List.sum_cons]
    rcases List.mem_cons.mp hrow with rfl | hmem
    · have hzero : ∀ x ∈ rows.map fun r => if key r = key row then f r else 0, x = 0 := by
        intro x hx
        obtain ⟨r, hr, rfl⟩ := List.mem_map.mp hx
        exact if_neg fun e : key r = key row => hnd.1 (e ▸ List.mem_map_of_mem hr)
      rw [if_pos rfl, List.sum_eq_zero hzero, add_zero]
    · have hne : ¬ key r = key row := fun e => hnd.1 (e ▸ List.mem_map_of_mem hmem)
      rw [if_neg hne, zero_add]
      exact ih hnd.2 hmem

theorem update_of_not_mem {key : ρ → κ} {k : κ} {change : ρ → ρ} {rows : List ρ}
    (h : k ∉ rows.map key) : update key k change rows = rows := by
  induction rows with
  | nil => rfl
  | cons row rows ih =>
    have hne : ¬ key row = k := fun e => h (List.mem_cons.mpr (Or.inl e.symm))
    have hrest := ih fun hmem => h (List.mem_cons_of_mem _ hmem)
    rw [update, List.map_cons, if_neg hne]
    exact congrArg (row :: ·) hrest

theorem sum_update {key : ρ → κ} {change : ρ → ρ} (g : ρ → M) {rows : List ρ}
    (hnd : (rows.map key).Nodup) {row : ρ} (hrow : row ∈ rows) :
    ((update key (key row) change rows).map g).sum = (rows.map g).sum - g row + g (change row) := by
  induction rows with
  | nil => cases hrow
  | cons r rows ih =>
    rw [List.map_cons, List.nodup_cons] at hnd
    rcases List.mem_cons.mp hrow with rfl | hmem
    · have hrest : update key (key row) change rows = rows := update_of_not_mem hnd.1
      have hhere : update key (key row) change (row :: rows) =
          change row :: update key (key row) change rows := by
        rw [update, List.map_cons, if_pos rfl]
        rfl
      rw [hhere, hrest, List.map_cons, List.sum_cons, List.map_cons, List.sum_cons]
      abel
    · have hne : ¬ key r = key row := fun e => hnd.1 (e ▸ List.mem_map_of_mem hmem)
      have hhere : update key (key row) change (r :: rows) =
          r :: update key (key row) change rows := by
        rw [update, List.map_cons, if_neg hne]
        rfl
      rw [hhere, List.map_cons, List.sum_cons, ih hnd.2 hmem, List.map_cons, List.sum_cons]
      abel

theorem map_update {β : Type} {key : ρ → κ} {k : κ} {change : ρ → ρ} (g : ρ → β)
    (hg : ∀ row, key row = k → g (change row) = g row) (rows : List ρ) :
    (update key k change rows).map g = rows.map g := by
  rw [update, List.map_map]
  refine List.map_congr_left fun row _ => ?_
  show g (if key row = k then change row else row) = g row
  split
  · next h => exact hg row h
  · rfl

theorem nodup_update {key : ρ → κ} {k : κ} {change : ρ → ρ} {rows : List ρ}
    (hkey : ∀ row, key (change row) = key row) (hnd : (rows.map key).Nodup) :
    ((update key k change rows).map key).Nodup := by
  rw [map_update key fun row _ => hkey row]
  exact hnd

theorem eq_of_key {key : ρ → κ} {rows : List ρ} (hnd : (rows.map key).Nodup) {r r' : ρ}
    (hr : r ∈ rows) (hr' : r' ∈ rows) (h : key r = key r') : r = r' :=
  List.inj_on_of_nodup_map hnd hr hr' h

theorem nodup_append {key : ρ → κ} {rows : List ρ} {row : ρ} (hnd : (rows.map key).Nodup)
    (hnew : ¬ ∃ other ∈ rows, key other = key row) : ((rows ++ [row]).map key).Nodup := by
  rw [List.map_append, List.nodup_append]
  refine ⟨hnd, List.nodup_singleton _, ?_⟩
  intro a ha b hb hab
  obtain ⟨other, hother, rfl⟩ := List.mem_map.mp ha
  rw [List.map_singleton, List.mem_singleton] at hb
  exact hnew ⟨other, hother, hab.trans hb⟩

end

end Rows
