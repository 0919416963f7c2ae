import Mathlib.Tactic

/-!
# Pages that are filtered after they are cut

A reader takes the first `limit` items that are left, drops those it does not keep, and goes on behind the last
one it kept.  Where it kept none it stays where it is.

* `shown`, `leftover`        what a page shows, and what is left after it;
* `shown_append_leftover`    nothing that is kept is lost or shown twice;
* `progress_iff`             the reader gets stuck exactly where `limit` items that are not kept stand in a row
                             before one that is.
-/

namespace FilteredPages

section
variable {α : Type*} (keep : α → Bool) (limit : Nat)

/-- the number of items up to the last one that is kept -/
def reach (page : List α) : Nat := (page.reverse.dropWhile fun a => !keep a).length

def shown (items : List α) : List α := (items.take limit).filter keep

def leftover (items : List α) : List α := items.drop (reach keep (items.take limit))

/-- as long as something is left to show, something is shown -/
def Progress (items : List α) : Prop :=
  ∀ n, ((leftover keep limit)^[n] items).filter keep ≠ [] → shown keep limit ((leftover keep limit)^[n] items) ≠ []

/-- fewer than `limit` items that are not kept stand in a row before one that is -/
def ShortGaps (items : List α) : Prop :=
  ∀ before gap a after, items = before ++ (gap ++ a :: after) → (∀ g ∈ gap, keep g = false) → keep a = true →
    gap.length < limit

variable {keep limit}

/-- a page falls into the items up to the last kept one, and the others -/
theorem reach_cases (page : List α) :
    (page.filter keep = [] ∧ reach keep page = 0) ∨
    ∃ before a after, page = before ++ a :: after ∧ keep a = true ∧ (∀ g ∈ after, keep g = false) ∧
      reach keep page = before.length + 1 := by
  induction page using List.reverseRecOn with
  | nil => exact Or.inl ⟨rfl, rfl⟩
  | append_singleton page a ih =>
    unfold reach at ih ⊢
    rw [List.reverse_append, List.reverse_singleton, List.singleton_append]
    cases ha : keep a with
    | true =>
      right
      refine ⟨page, a, [], rfl, ha, fun g hg => absurd hg List.not_mem_nil, ?_⟩
      rw [List.dropWhile_cons_of_neg (by simp [ha])]
      simp
    | false =>
      rw [List.dropWhile_cons_of_pos (by simp [ha])]
      rcases ih with ⟨hnone, hzero⟩ | ⟨before, b, after, rfl, hb, hafter, hreach⟩
      · left
        exact ⟨by rw [List.filter_append, hnone]; simp [ha], hzero⟩
      · right
        refine ⟨before, b, after ++ [a], by simp, hb, ?_, hreach⟩
        intro g hg
        rcases List.mem_append.mp hg with hg | hg
        · exact hafter g hg
        · rw [List.mem_singleton.mp hg]
          exact ha

theorem reach_le (page : List α) : reach keep page ≤ page.length := by
  unfold reach
  have hle := (List.dropWhile_sublist (fun a => !keep a) (l := page.reverse)).length_le
  rw [List.length_reverse] at hle
  exact hle

/-- what a page shows stands before its reach -/
theorem filter_take_reach (page : List α) : (page.take (reach keep page)).filter keep = page.filter keep := by
  rcases @reach_cases _ keep page with ⟨hnone, hzero⟩ | ⟨before, a, after, rfl, ha, hafter, hreach⟩
  · rw [hzero, hnone]
    rfl
  · have htake : (before ++ a :: after).take (before.length + 1) = before ++ [a] := by
      rw [List.take_append, List.take_of_length_le (by omega)]
      simp
    have hrest : after.filter keep = [] := List.filter_eq_nil_iff.mpr (by simpa using hafter)
    rw [hreach, htake, List.filter_append, List.filter_append, List.filter_cons_of_pos ha, List.filter_cons_of_pos ha,
      hrest]
    rfl

/-- Nothing that is kept is lost, and nothing is shown twice. -/
theorem shown_append_leftover (items : List α) :
    shown keep limit items ++ (leftover keep limit items).filter keep = items.filter keep := by
  have hle := @reach_le _ keep (items.take limit)
  have htake : items.take (reach keep (items.take limit)) = (items.take limit).take (reach keep (items.take limit)) := by
    rw [List.take_take]
    congr 1
    have hlength := List.length_take_le limit items
    omega
  rw [shown, leftover, ← filter_take_reach (items.take limit), ← htake, ← List.filter_append, List.take_append_drop]

theorem leftover_of_shown_nil {items : List α} (h : shown keep limit items = []) : leftover keep limit items = items := by
  unfold shown at h
  rcases @reach_cases _ keep (items.take limit) with ⟨-, hzero⟩ | ⟨before, a, after, hpage, ha, -, -⟩
  · rw [leftover, hzero, List.drop_zero]
  · exfalso
    rw [hpage] at h
    have hmem : a ∈ (before ++ a :: after).filter keep := List.mem_filter.mpr ⟨by simp, ha⟩
    rw [h] at hmem
    exact absurd hmem List.not_mem_nil

theorem ShortGaps.drop {items : List α} (h : ShortGaps keep limit items) (n : Nat) :
    ShortGaps keep limit (items.drop n) := by
  intro before gap a after heq hgap ha
  apply h (items.take n ++ before) gap a after ?_ hgap ha
  rw [List.append_assoc, ← heq, List.take_append_drop]

/-- the first item that is kept is on the first page -/
theorem ShortGaps.shown {items : List α} (h : ShortGaps keep limit items) (hsome : items.filter keep ≠ []) :
    shown keep limit items ≠ [] := by
  obtain ⟨a, ha⟩ := List.exists_mem_of_ne_nil _ hsome
  obtain ⟨hmem, hkeep⟩ := List.mem_filter.mp ha
  have hfirst : ∃ gap b after, items = gap ++ b :: after ∧ (∀ g ∈ gap, keep g = false) ∧ keep b = true := by
    clear h hsome ha
    induction items with
    | nil => exact absurd hmem List.not_mem_nil
    | cons c items ih =>
      cases hc : keep c with
      | true => exact ⟨[], c, items, rfl, fun g hg => absurd hg List.not_mem_nil, hc⟩
      | false =>
        rcases List.mem_cons.mp hmem with rfl | hrest
        · rw [hkeep] at hc
          cases hc
        · obtain ⟨gap, b, after, rfl, hgap, hb⟩ := ih hrest
          refine ⟨c :: gap, b, after, rfl, ?_, hb⟩
          rintro g hg
          rcases List.mem_cons.mp hg with rfl | hg
          · exact hc
          · exact hgap g hg
  obtain ⟨gap, b, after, rfl, hgap, hb⟩ := hfirst
  have hlength := h [] gap b after rfl hgap hb
  have hpage : b ∈ (gap ++ b :: after).take limit := by
    rw [List.take_append, List.mem_append]
    right
    rw [show limit - gap.length = (limit - gap.length - 1) + 1 by omega, List.take_succ_cons]
    exact List.mem_cons_self
  exact List.ne_nil_of_mem (List.mem_filter.mpr ⟨hpage, hb⟩)

theorem ShortGaps.iterate {items : List α} (h : ShortGaps keep limit items) (n : Nat) :
    ShortGaps keep limit ((leftover keep limit)^[n] items) := by
  induction n generalizing items with
  | zero => exact h
  | succ n ih => exact ih (h.drop _)

/-- The reader never gets stuck exactly when the gaps are short. -/
theorem progress_iff (items : List α) : Progress keep limit items ↔ ShortGaps keep limit items := by
  constructor
  · intro hprogress before gap a after heq hgap ha
    induction hn : items.length using Nat.strong_induction_on generalizing items before with
    | _ length ih =>
      have hkept : items.filter keep ≠ [] := by
        apply List.ne_nil_of_mem (a := a)
        rw [heq]
        exact List.mem_filter.mpr ⟨by simp, ha⟩
      have hshown := hprogress 0 hkept
      rcases @reach_cases _ keep (items.take limit) with ⟨hnone, -⟩ | ⟨start, b, rest, hpage, hb, -, hreach⟩
      · exact absurd hnone hshown
      · have hstart : start.length + 1 ≤ limit := by
          have hle := List.length_take_le limit items
          rw [hpage, List.length_append, List.length_cons] at hle
          omega
        by_cases hbefore : start.length + 1 ≤ before.length
        · -- the gap is still ahead
          have hdrop : leftover keep limit items = before.drop (start.length + 1) ++ (gap ++ a :: after) := by
            rw [leftover, hreach, heq, List.drop_append_of_le_length hbefore]
          have hshort : (leftover keep limit items).length < length := by
            rw [hdrop, ← hn, heq]
            simp only [List.length_append, List.length_drop]
            omega
          exact ih _ hshort _ (fun n => hprogress (n + 1)) _ hdrop rfl
        · -- the last item kept on the page stands behind the gap
          have hitems : items = start ++ b :: (rest ++ items.drop limit) := by
            conv_lhs => rw [← List.take_append_drop limit items, hpage]
            simp
          have hb' : items[start.length]? = some b := by
            rw [hitems, List.getElem?_append_right (le_refl _)]
            simp
          by_contra hlong
          have hin : start.length - before.length < gap.length := by omega
          have hg : items[start.length]? = some (gap[start.length - before.length]) := by
            rw [heq, List.getElem?_append_right (by omega), List.getElem?_append_left hin]
            exact List.getElem?_eq_getElem hin
          have hsame : b = gap[start.length - before.length] := Option.some.inj (hb'.symm.trans hg)
          have hnot := hgap _ (List.getElem_mem hin)
          rw [← hsame, hb] at hnot
          cases hnot
  · intro hgaps n hkept
    exact (hgaps.iterate n).shown hkept

/-- the pages a reader shows, one after the other -/
def shownBy (keep : α → Bool) (limit : Nat) : Nat → List α → List α
  | 0, _ => []
  | n + 1, items => shown keep limit items ++ shownBy keep limit n (leftover keep limit items)

theorem shownBy_append (n : Nat) (items : List α) :
    shownBy keep limit n items ++ ((leftover keep limit)^[n] items).filter keep = items.filter keep := by
  induction n generalizing items with
  | zero => rfl
  | succ n ih =>
    rw [shownBy, List.append_assoc, Function.iterate_succ_apply, ih, shown_append_leftover]

/-- a reader that never gets stuck shows everything -/
theorem Progress.shows {items : List α} (h : Progress keep limit items) {n : Nat}
    (hn : (items.filter keep).length ≤ n) : shownBy keep limit n items = items.filter keep := by
  induction n generalizing items with
  | zero => exact (List.eq_nil_of_length_eq_zero (Nat.le_zero.mp hn)).symm
  | succ n ih =>
    have hparts := @shown_append_leftover _ keep limit items
    have hlengths := congrArg List.length hparts
    rw [List.length_append] at hlengths
    have hfewer : ((leftover keep limit items).filter keep).length ≤ n := by
      by_cases hnone : items.filter keep = []
      · rw [hnone, List.length_nil] at hlengths
        omega
      · have hshown := List.length_pos_of_ne_nil (h 0 hnone)
        have hfirst : (leftover keep limit)^[0] items = items := rfl
        rw [hfirst] at hshown
        omega
    rw [shownBy, ih (fun k => h (k + 1)) hfewer, hparts]

theorem shownBy_add (n k : Nat) (items : List α) :
    shownBy keep limit (n + k) items = shownBy keep limit n items ++ shownBy keep limit k ((leftover keep limit)^[n] items) := by
  induction n generalizing items with
  | zero => simp [shownBy]
  | succ n ih =>
    rw [show n + 1 + k = n + k + 1 by omega, shownBy, shownBy, ih, List.append_assoc]
    rfl

theorem shownBy_of_shown_nil {items : List α} (h : shown keep limit items = []) (n : Nat) :
    (leftover keep limit)^[n] items = items ∧ shownBy keep limit n items = [] := by
  induction n with
  | zero => exact ⟨rfl, rfl⟩
  | succ n ih =>
    rw [Function.iterate_succ_apply, shownBy, leftover_of_shown_nil h, h]
    exact ih

theorem shownBy_eq_nil_iff {n : Nat} (hn : 1 ≤ n) (items : List α) :
    shownBy keep limit n items = [] ↔ shown keep limit items = [] := by
  constructor
  · intro h
    obtain ⟨k, rfl⟩ : ∃ k, n = k + 1 := ⟨n - 1, by omega⟩
    rw [shownBy] at h
    exact (List.append_eq_nil_iff.mp h).1
  · intro h
    exact (shownBy_of_shown_nil h n).2

/-- Some pages at a time: the reader gets stuck there when it gets stuck at all. -/
theorem progress_iff_every {n : Nat} (hn : 1 ≤ n) (items : List α) :
    Progress keep limit items ↔ ∀ k, ((leftover keep limit)^[k * n] items).filter keep ≠ [] →
      shown keep limit ((leftover keep limit)^[k * n] items) ≠ [] := by
  constructor
  · intro h k
    exact h (k * n)
  · intro h k hkept hstuck
    -- a reader that is stuck after k pages is stuck after k * n
    have hle : k ≤ k * n := Nat.le_mul_of_pos_right k (by omega)
    have hlater : (leftover keep limit)^[k * n] items = (leftover keep limit)^[k] items := by
      rw [show k * n = (k * n - k) + k by omega, Function.iterate_add_apply]
      exact (shownBy_of_shown_nil hstuck _).1
    have hpage := h k
    rw [hlater] at hpage
    exact hpage hkept hstuck

theorem iterate_suffix (n : Nat) (items : List α) : (leftover keep limit)^[n] items <:+ items := by
  induction n generalizing items with
  | zero => exact List.suffix_refl items
  | succ n ih => exact (ih _).trans (List.drop_suffix _ _)

/-- an item at the end that is not kept stays there -/
theorem leftover_end {items : List α} {a : α} (hlast : items.getLast? = some a) (ha : keep a = false) :
    (leftover keep limit items).getLast? = some a := by
  unfold leftover
  rcases @reach_cases _ keep (items.take limit) with ⟨-, hzero⟩ | ⟨before, b, after, hpage, hb, hafter, hreach⟩
  · rwa [hzero, List.drop_zero]
  · have hitems : items = before ++ [b] ++ (after ++ items.drop limit) := by
      conv_lhs => rw [← List.take_append_drop limit items, hpage]
      simp
    have hdrop : items.drop (before.length + 1) = after ++ items.drop limit := by
      conv_lhs => rw [hitems]
      rw [List.drop_left' (by simp)]
    rw [hreach, hdrop]
    by_cases hrest : after ++ items.drop limit = []
    · rw [hitems, hrest, List.append_nil, List.getLast?_append, List.getLast?_singleton, Option.some_or] at hlast
      rw [Option.some.inj hlast, ha] at hb
      cases hb
    · rw [hitems, List.getLast?_append_of_ne_nil _ hrest] at hlast
      exact hlast

theorem iterate_end {items : List α} {a : α} (hlast : items.getLast? = some a) (ha : keep a = false) (n : Nat) :
    ((leftover keep limit)^[n] items).getLast? = some a := by
  induction n generalizing items with
  | zero => exact hlast
  | succ n ih => exact ih (leftover_end hlast ha)

theorem Progress.nothing_left {items : List α} (h : Progress keep limit items) {n : Nat}
    (hn : (items.filter keep).length ≤ n) : ((leftover keep limit)^[n] items).filter keep = [] := by
  have hparts := @shownBy_append _ keep limit n items
  rw [h.shows hn] at hparts
  simpa using hparts

/-- When everything that is kept was shown, nothing is left exactly when the last item is kept. -/
theorem leftover_nil_iff {items : List α} {n : Nat} (hnone : ((leftover keep limit)^[n] items).filter keep = []) :
    (leftover keep limit)^[n] items = [] ↔ ∀ a, items.getLast? = some a → keep a = true := by
  constructor
  · intro hempty a hlast
    by_contra hkeep
    have hend := @iterate_end _ keep limit _ _ hlast (by simpa using hkeep) n
    rw [hempty] at hend
    cases hend
  · intro hlast
    by_contra hrest
    obtain ⟨a, ha⟩ := Option.ne_none_iff_exists'.mp (mt List.getLast?_eq_none_iff.mp hrest)
    have hitem : items.getLast? = some a := by
      obtain ⟨before, heq⟩ := @iterate_suffix _ keep limit n items
      rw [← heq, List.getLast?_append_of_ne_nil _ hrest]
      exact ha
    have hnot := List.filter_eq_nil_iff.mp hnone a (List.mem_of_getLast? ha)
    exact hnot (hlast a hitem)

end

end FilteredPages
