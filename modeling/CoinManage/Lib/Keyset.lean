import Mathlib.Data.List.Sort
import Mathlib.Data.List.Nodup
import Mathlib.Order.Basic

/-!
# Keyset pagination

A table is read page by page, in the order of a key: the first rows with a key after the cursor.
The reader works its way through a page and may stop anywhere; then it puts the cursor at the key of
the last row it has done, or somewhat before it.

* `mem_done`            what lies before a row that was done, was done too;
* `below_of_crowd`      a page has no row beyond a limit that enough rows lie before;
* `pending_after`       with the cursor at the key of a page's last row, just the page is gone.
-/

set_option linter.unusedSectionVars false

namespace Keyset

section
variable {α κ : Type} [LinearOrder κ] (key : α → κ)

/-- without a cursor every row comes after it -/
def After (cursor : Option κ) (k : κ) : Prop := ∀ c ∈ cursor, c < k

instance (cursor : Option κ) (k : κ) : Decidable (After cursor k) :=
  inferInstanceAs (Decidable (∀ c ∈ cursor, c < k))

/-- the rows still to be read -/
def pending (cursor : Option κ) (rows : List α) : List α := rows.filter fun x => decide (After cursor (key x))

/-- `where key > cursor order by key` -/
def sorted (cursor : Option κ) (rows : List α) : List α :=
  (pending key cursor rows).mergeSort fun a b => decide (key a ≤ key b)

/-- `where key > cursor order by key limit n` -/
def page (cursor : Option κ) (limit : Nat) (rows : List α) : List α := (sorted key cursor rows).take limit

variable {key} {cursor : Option κ} {limit : Nat} {rows done rest : List α} {x y : α}

theorem mem_pending : x ∈ pending key cursor rows ↔ x ∈ rows ∧ After cursor (key x) := by
  unfold pending
  rw [List.mem_filter, decide_eq_true_eq]

theorem sorted_perm (cursor : Option κ) (rows : List α) :
    (sorted key cursor rows).Perm (pending key cursor rows) := List.mergeSort_perm _ _

theorem mem_sorted : x ∈ sorted key cursor rows ↔ x ∈ rows ∧ After cursor (key x) := by
  rw [(sorted_perm cursor rows).mem_iff, mem_pending]

variable (key) in
theorem sorted_pairwise (cursor : Option κ) (rows : List α) :
    (sorted key cursor rows).Pairwise fun a b => key a ≤ key b := by
  have h : (sorted key cursor rows).Pairwise fun a b => decide (key a ≤ key b) = true := by
    apply List.pairwise_mergeSort
    · intro a b c hab hbc
      rw [decide_eq_true_eq] at hab hbc ⊢
      exact hab.trans hbc
    · intro a b
      simpa using le_total (key a) (key b)
  exact h.imp of_decide_eq_true

variable (key) in
theorem length_page (cursor : Option κ) (limit : Nat) (rows : List α) :
    (page key cursor limit rows).length = min limit (pending key cursor rows).length := by
  rw [page, List.length_take, (sorted_perm cursor rows).length_eq]

theorem mem_page (h : x ∈ page key cursor limit rows) : x ∈ rows ∧ After cursor (key x) :=
  mem_sorted.mp (List.mem_of_mem_take h)

/-- the rest of the table comes after the page -/
theorem le_of_not_mem_page (hx : x ∈ page key cursor limit rows) (hy : y ∈ rows) (hafter : After cursor (key y))
    (hout : y ∉ page key cursor limit rows) : key x ≤ key y := by
  have hmem : y ∈ sorted key cursor rows := mem_sorted.mpr ⟨hy, hafter⟩
  have hpairs := sorted_pairwise key cursor rows
  rw [← List.take_append_drop limit (sorted key cursor rows)] at hmem hpairs
  have hdrop : y ∈ (sorted key cursor rows).drop limit := (List.mem_append.mp hmem).resolve_left hout
  exact (List.pairwise_append.mp hpairs).2.2 x hx y hdrop

/-- what lies before a row that was done, was done too -/
theorem mem_done (hpage : page key cursor limit rows = done ++ rest) (hy : y ∈ done) (hx : x ∈ rows)
    (hafter : After cursor (key x)) (hlt : key x < key y) : x ∈ done := by
  have hpairs : (done ++ rest).Pairwise fun a b => key a ≤ key b := by
    rw [← hpage]
    exact (sorted_pairwise key cursor rows).sublist (List.take_sublist _ _)
  have hyPage : y ∈ page key cursor limit rows := by
    rw [hpage]
    exact List.mem_append_left rest hy
  have hxPage : x ∈ page key cursor limit rows := by
    by_contra hout
    exact absurd hlt (not_lt.mpr (le_of_not_mem_page hyPage hx hafter hout))
  rw [hpage] at hxPage
  rcases List.mem_append.mp hxPage with h | h
  · exact h
  · exact absurd hlt (not_lt.mpr ((List.pairwise_append.mp hpairs).2.2 y hy x h))

/-- a page has no row beyond a limit that enough rows lie before -/
theorem below_of_crowd {p : κ → Bool} (hp : ∀ a b, a ≤ b → p b = true → p a = true)
    (hcrowd : limit ≤ (pending key cursor rows).countP fun x => p (key x)) (hy : y ∈ page key cursor limit rows) :
    p (key y) = true := by
  by_contra hout
  -- then none of the rows that are left out is before the limit, and one of the page is not either
  have hrest : ∀ x ∈ (sorted key cursor rows).drop limit, p (key x) ≠ true := by
    intro x hx hpx
    have hpairs := sorted_pairwise key cursor rows
    rw [← List.take_append_drop limit (sorted key cursor rows)] at hpairs
    have hle := (List.pairwise_append.mp hpairs).2.2 y hy x hx
    exact hout (hp _ _ hle hpx)
  have hcount : (page key cursor limit rows).countP (fun x => p (key x)) =
      (pending key cursor rows).countP fun x => p (key x) := by
    rw [← (sorted_perm cursor rows).countP_eq, ← List.take_append_drop limit (sorted key cursor rows),
      List.countP_append, List.countP_eq_zero.mpr hrest]
    rfl
  have hfull : (page key cursor limit rows).countP (fun x => p (key x)) < (page key cursor limit rows).length := by
    refine lt_of_le_of_ne List.countP_le_length fun h => ?_
    exact hout (List.countP_eq_length.mp h y hy)
  have hlength : (page key cursor limit rows).length ≤ limit := List.length_take_le _ _
  omega

/-- with the cursor at the key of a page's last row, just the page is gone -/
theorem pending_after (hdistinct : (rows.map key).Nodup) (hlast : (page key cursor limit rows).getLast? = some y) :
    (pending key (some (key y)) rows).length = (pending key cursor rows).length - limit := by
  obtain ⟨front, hfront⟩ : ∃ front, page key cursor limit rows = front ++ [y] := by
    rw [List.getLast?_eq_some_iff] at hlast
    exact hlast
  have hyPage : y ∈ page key cursor limit rows := by
    rw [hfront]
    exact List.mem_append_right front List.mem_cons_self
  obtain ⟨hyRows, hyAfter⟩ := mem_page hyPage
  have hpairs := sorted_pairwise key cursor rows
  have hsplit := List.take_append_drop limit (sorted key cursor rows)
  have hnodup : ((sorted key cursor rows).map key).Nodup := by
    have hsub : ((pending key cursor rows).map key).Nodup :=
      hdistinct.sublist (List.filter_sublist.map key)
    exact (((sorted_perm cursor rows).map key).nodup_iff).mpr hsub
  have hcross : ∀ x ∈ (sorted key cursor rows).drop limit, key y < key x := by
    intro x hx
    rw [← hsplit] at hpairs hnodup
    have hle := (List.pairwise_append.mp hpairs).2.2 y hyPage x hx
    refine lt_of_le_of_ne hle fun heq => ?_
    rw [List.map_append] at hnodup
    exact (List.nodup_append.mp hnodup).2.2 (key y) (List.mem_map_of_mem hyPage) (key x)
      (List.mem_map_of_mem hx) heq
  have hback : ∀ x ∈ page key cursor limit rows, ¬ key y < key x := by
    intro x hx
    rw [hfront] at hx
    rcases List.mem_append.mp hx with h | h
    · have hpage : (front ++ [y]).Pairwise fun a b => key a ≤ key b := by
        rw [← hfront]
        exact hpairs.sublist (List.take_sublist _ _)
      exact not_lt.mpr ((List.pairwise_append.mp hpage).2.2 x h y List.mem_cons_self)
    · rw [List.mem_singleton.mp h]
      exact lt_irrefl _
  have hgone : (pending key (some (key y)) rows).Perm ((sorted key cursor rows).drop limit) := by
    have htwice : pending key (some (key y)) rows =
        (pending key cursor rows).filter fun x => decide (key y < key x) := by
      unfold pending
      rw [List.filter_filter]
      apply List.filter_congr
      intro x _
      rw [← Bool.decide_and]
      apply decide_eq_decide.mpr
      constructor
      · intro h
        refine ⟨h _ rfl, fun c hc => ?_⟩
        exact (hyAfter c hc).trans (h _ rfl)
      · intro h c hc
        obtain rfl := Option.some.inj hc
        exact h.1
    rw [htwice]
    refine ((sorted_perm cursor rows).filter _).symm.trans ?_
    rw [← hsplit, List.filter_append, List.filter_eq_nil_iff.mpr, List.nil_append, List.filter_eq_self.mpr]
    · rw [hsplit]
    · intro x hx
      exact decide_eq_true (hcross x hx)
    · intro x hx h
      exact hback x hx (of_decide_eq_true h)
  rw [hgone.length_eq, List.length_drop, (sorted_perm cursor rows).length_eq]

end

end Keyset
