import Mathlib.Data.List.Basic
import Mathlib.Order.Basic

/-!
# The first page of a sorted list

A query with `order by … limit` answers the first rows of a sorted list.  What the page holds is told by
counting, without the place of an element in the sorted list.

* `Collation`   an order to sort by;
* `mem_page_of_countP`   an element with few others before it is on the page.
-/

/-- an order to sort by; elements may be equal in it -/
structure Collation (α : Type) where
  le : α → α → Bool
  trans : ∀ a b c, le a b = true → le b c = true → le a c = true
  total : ∀ a b, (le a b || le b a) = true

namespace Collation

section
variable {α : Type} (c : Collation α) {l : List α} {a : α} {limit : Nat}

/-- `order by … limit` -/
def page (limit : Nat) (l : List α) : List α := (l.mergeSort c.le).take limit

theorem refl (a : α) : c.le a a = true := by
  have h := c.total a a
  rwa [Bool.or_self] at h

theorem mem_of_mem_page (h : a ∈ c.page limit l) : a ∈ l :=
  (l.mergeSort_perm c.le).mem_iff.mp (List.mem_of_mem_take h)

/-- an element with few others before it is on the page -/
theorem mem_page_of_countP (ha : a ∈ l) (h : l.countP (c.le · a) ≤ limit) : a ∈ c.page limit l := by
  by_contra hout
  have hsorted : (l.mergeSort c.le).Pairwise fun x y => c.le x y = true := List.pairwise_mergeSort c.trans c.total l
  have hcount : (l.mergeSort c.le).countP (c.le · a) = l.countP (c.le · a) :=
    (l.mergeSort_perm c.le).countP_eq _
  have hmem : a ∈ l.mergeSort c.le := (l.mergeSort_perm c.le).mem_iff.mpr ha
  rw [← List.take_append_drop limit (l.mergeSort c.le)] at hsorted hcount hmem
  have hdrop : a ∈ (l.mergeSort c.le).drop limit := (List.mem_append.mp hmem).resolve_left hout
  have hlimit : ((l.mergeSort c.le).take limit).length = limit := by
    rw [List.length_take]
    have hlong := List.length_pos_of_mem hdrop
    rw [List.length_drop] at hlong
    omega
  -- all of the page comes before `a`, and `a` itself is counted once more
  have hall : ((l.mergeSort c.le).take limit).countP (c.le · a) = limit := by
    rw [List.countP_eq_length.mpr, hlimit]
    intro x hx
    exact (List.pairwise_append.mp hsorted).2.2 x hx a hdrop
  have hself : 0 < ((l.mergeSort c.le).drop limit).countP (c.le · a) :=
    List.countP_pos_iff.mpr ⟨a, hdrop, c.refl a⟩
  rw [List.countP_append, hall] at hcount
  omega

end

end Collation
