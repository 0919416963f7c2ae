import Mathlib.Tactic
import Mathlib.Algebra.BigOperators.Group.List.Basic

/-!
# Maps that remember insertion order

`OrderedMap κ α` is a finite map whose entries keep the order in which their keys were first
set: `set` on a present key replaces the value in place, on a new key it appends.  That the
keys are distinct is a field, so every lookup and every sum below may use it.

* `get?_set`, `get?_delete`   what a lookup sees after an update;
* `mem_values`      the values are exactly what lookups return;
* `values_set_new`, `values_set_old`   the values after an update;
* `sum_set`         an update changes a sum over the values by new value minus replaced value;
* `sum_congr`, `sum_set_eq`   sums that an update does not reach.
-/

set_option linter.unusedSectionVars false

structure OrderedMap (κ α : Type*) where
  entries : List (κ × α)
  nodup : (entries.map Prod.fst).Nodup

namespace OrderedMap

/-! ## association lists -/

section
variable {κ α : Type*} [DecidableEq κ]

/-- replace the value at `k`, or append the entry -/
def upsert (k : κ) (v : α) : List (κ × α) → List (κ × α)
  | [] => [(k, v)]
  | e :: es => if e.1 = k then (k, v) :: es else e :: upsert k v es

def find (k : κ) : List (κ × α) → Option α
  | [] => none
  | e :: es => if e.1 = k then some e.2 else find k es

theorem find_eq_none {k : κ} {es : List (κ × α)} : find k es = none ↔ k ∉ es.map Prod.fst := by
  induction es with
  | nil => simp [find]
  | cons e es ih =>
    by_cases h : e.1 = k
    · simp [find, h]
    · simp [find, h, ih, Ne.symm h]

theorem mem_of_find {k : κ} {v : α} {es : List (κ × α)} (h : find k es = some v) :
    (k, v) ∈ es := by
  induction es with
  | nil => simp [find] at h
  | cons e es ih =>
    rw [find] at h
    split at h
    · next hk =>
      obtain rfl : e.2 = v := by simpa using h
      exact List.mem_cons.mpr (Or.inl (by rw [← hk]))
    · exact List.mem_cons_of_mem _ (ih h)

theorem find_of_mem {k : κ} {v : α} {es : List (κ × α)} (hnd : (es.map Prod.fst).Nodup)
    (h : (k, v) ∈ es) : find k es = some v := by
  induction es with
  | nil => simp at h
  | cons e es ih =>
    rw [List.map_cons, List.nodup_cons] at hnd
    rcases List.mem_cons.mp h with rfl | h'
    · simp [find]
    · have hne : e.1 ≠ k := fun he => hnd.1 (he ▸ List.mem_map_of_mem h')
      rw [find, if_neg hne, ih hnd.2 h']

theorem find_upsert (k j : κ) (v : α) (es : List (κ × α)) :
    find j (upsert k v es) = if k = j then some v else find j es := by
  induction es with
  | nil => rfl
  | cons e es ih =>
    by_cases h : e.1 = k
    · subst h
      by_cases hj : e.1 = j <;> simp [upsert, find, hj]
    · by_cases hj : e.1 = j
      · have hkj : k ≠ j := fun he => h (hj.trans he.symm)
        rw [upsert, if_neg h, find, if_pos hj, if_neg hkj, find, if_pos hj]
      · rw [upsert, if_neg h, find, if_neg hj, ih, find, if_neg hj]

theorem map_fst_upsert (k : κ) (v : α) (es : List (κ × α)) :
    (upsert k v es).map Prod.fst =
      if k ∈ es.map Prod.fst then es.map Prod.fst else es.map Prod.fst ++ [k] := by
  induction es with
  | nil => rfl
  | cons e es ih =>
    by_cases h : e.1 = k
    · subst h; simp [upsert]
    · rw [upsert, if_neg h, List.map_cons, List.map_cons, ih]
      by_cases hk : k ∈ es.map Prod.fst
      · rw [if_pos hk, if_pos (List.mem_cons_of_mem _ hk)]
      · rw [if_neg hk, if_neg (by simpa [Ne.symm h] using hk), List.cons_append]

theorem upsert_of_not_mem {k : κ} {es : List (κ × α)} (h : k ∉ es.map Prod.fst) (v : α) :
    upsert k v es = es ++ [(k, v)] := by
  induction es with
  | nil => rfl
  | cons e es ih =>
    rw [List.map_cons, List.mem_cons, not_or] at h
    rw [upsert, if_neg (Ne.symm h.1), ih h.2, List.cons_append]

theorem upsert_of_mem {k : κ} {es : List (κ × α)} (hnd : (es.map Prod.fst).Nodup)
    (h : k ∈ es.map Prod.fst) (v : α) :
    upsert k v es = es.map fun e => if e.1 = k then (k, v) else e := by
  induction es with
  | nil => cases h
  | cons e es ih =>
    rw [List.map_cons, List.nodup_cons] at hnd
    by_cases hk : e.1 = k
    · have hrest : ∀ e' ∈ es, (if e'.1 = k then (k, v) else e') = e' := fun e' he' =>
        if_neg fun heq => hnd.1 (by rw [hk, ← heq]; exact List.mem_map_of_mem he')
      rw [upsert, if_pos hk, List.map_cons, if_pos hk, List.map_congr_left hrest, List.map_id']
    · have hmem : k ∈ es.map Prod.fst :=
        (List.mem_cons.mp h).resolve_left fun heq => hk heq.symm
      rw [upsert, if_neg hk, List.map_cons, if_neg hk, ih hnd.2 hmem]

theorem upsert_upsert (k : κ) (v w : α) (es : List (κ × α)) :
    upsert k w (upsert k v es) = upsert k w es := by
  induction es with
  | nil => simp [upsert]
  | cons e es ih =>
    by_cases h : e.1 = k
    · simp [upsert, h]
    · simp [upsert, h, ih]

theorem nodup_upsert (k : κ) (v : α) {es : List (κ × α)} (h : (es.map Prod.fst).Nodup) :
    ((upsert k v es).map Prod.fst).Nodup := by
  rw [map_fst_upsert]
  split
  · exact h
  · next hk => exact List.nodup_append.mpr ⟨h, List.nodup_singleton k, by
      rintro a ha b hb rfl
      exact hk (List.mem_singleton.mp hb ▸ ha)⟩

theorem sum_upsert {M : Type*} [AddCommGroup M] (f : α → M) (k : κ) (v : α)
    (es : List (κ × α)) :
    ((upsert k v es).map fun e => f e.2).sum =
      (es.map fun e => f e.2).sum + f v - (find k es).elim 0 f := by
  induction es with
  | nil => simp [upsert, find]
  | cons e es ih =>
    by_cases h : e.1 = k
    · simp only [upsert, find, h, if_true, List.map_cons, List.sum_cons, Option.elim_some]
      abel
    · simp only [upsert, find, h, if_false, List.map_cons, List.sum_cons, ih]
      abel

end

/-! ## the map -/

section
variable {κ α : Type*}

def empty : OrderedMap κ α := ⟨[], List.nodup_nil⟩

def values (m : OrderedMap κ α) : List α := m.entries.map Prod.snd

def keys (m : OrderedMap κ α) : List κ := m.entries.map Prod.fst

/-- the sum of `f` over the values -/
def sum {M : Type*} [AddCommGroup M] (f : α → M) (m : OrderedMap κ α) : M :=
  (m.values.map f).sum

@[simp] theorem values_empty : (empty : OrderedMap κ α).values = [] := rfl
@[simp] theorem keys_empty : (empty : OrderedMap κ α).keys = [] := rfl

theorem keys_nodup (m : OrderedMap κ α) : m.keys.Nodup := m.nodup

variable [DecidableEq κ]

def get? (m : OrderedMap κ α) (k : κ) : Option α := find k m.entries

def set (m : OrderedMap κ α) (k : κ) (v : α) : OrderedMap κ α :=
  ⟨upsert k v m.entries, nodup_upsert k v m.nodup⟩

def delete (m : OrderedMap κ α) (k : κ) : OrderedMap κ α :=
  ⟨m.entries.filter fun e => e.1 ≠ k, (List.Sublist.map _ List.filter_sublist).nodup m.nodup⟩

/-- apply `f` to every value, keys and order unchanged -/
def mapValues (f : α → α) (m : OrderedMap κ α) : OrderedMap κ α :=
  ⟨m.entries.map fun e => (e.1, f e.2), by
    have h : (m.entries.map fun e => (e.1, f e.2)).map Prod.fst = m.entries.map Prod.fst := by
      simp
    rw [h]; exact m.nodup⟩

@[simp] theorem get?_empty (k : κ) : (empty : OrderedMap κ α).get? k = none := rfl

theorem get?_set (m : OrderedMap κ α) (k j : κ) (v : α) :
    (m.set k v).get? j = if k = j then some v else m.get? j :=
  find_upsert k j v m.entries

@[simp] theorem get?_set_self (m : OrderedMap κ α) (k : κ) (v : α) :
    (m.set k v).get? k = some v := by rw [get?_set, if_pos rfl]

theorem get?_set_of_ne (m : OrderedMap κ α) {k j : κ} (h : k ≠ j) (v : α) :
    (m.set k v).get? j = m.get? j := by rw [get?_set, if_neg h]

theorem isSome_get?_set {m : OrderedMap κ α} {j : κ} (h : (m.get? j).isSome) (k : κ) (v : α) :
    ((m.set k v).get? j).isSome := by
  rw [get?_set]
  split
  · rfl
  · exact h

theorem set_set (m : OrderedMap κ α) (k : κ) (v w : α) : (m.set k v).set k w = m.set k w := by
  simp only [set, upsert_upsert]

theorem get?_delete (m : OrderedMap κ α) (k j : κ) :
    (m.delete k).get? j = if k = j then none else m.get? j := by
  show find j (m.entries.filter fun e => e.1 ≠ k) = _
  rw [get?]
  induction m.entries with
  | nil => simp [find]
  | cons e es ih =>
    by_cases he : e.1 = k
    · rw [List.filter_cons_of_neg (by simp [he]), ih]
      by_cases hkj : k = j
      · simp [hkj]
      · simp [find, hkj, he]
    · rw [List.filter_cons_of_pos (by simp [he])]
      by_cases hj : e.1 = j
      · have hkj : k ≠ j := fun h => he (hj.trans h.symm)
        rw [find, if_pos hj, if_neg hkj, find, if_pos hj]
      · rw [find, if_neg hj, ih, find, if_neg hj]

theorem mem_entries_iff (m : OrderedMap κ α) {k : κ} {v : α} :
    (k, v) ∈ m.entries ↔ m.get? k = some v :=
  ⟨find_of_mem m.nodup, mem_of_find⟩

theorem mem_values (m : OrderedMap κ α) {v : α} : v ∈ m.values ↔ ∃ k, m.get? k = some v := by
  constructor
  · intro h
    obtain ⟨⟨k, w⟩, he, rfl⟩ := List.mem_map.mp h
    exact ⟨k, m.mem_entries_iff.mp he⟩
  · rintro ⟨k, hk⟩
    exact List.mem_map.mpr ⟨(k, v), m.mem_entries_iff.mpr hk, rfl⟩

theorem mem_values_of_get? {m : OrderedMap κ α} {k : κ} {v : α} (h : m.get? k = some v) :
    v ∈ m.values := m.mem_values.mpr ⟨k, h⟩

theorem get?_mapValues (f : α → α) (m : OrderedMap κ α) (k : κ) :
    (m.mapValues f).get? k = (m.get? k).map f := by
  show find k (m.entries.map fun e => (e.1, f e.2)) = (find k m.entries).map f
  induction m.entries with
  | nil => rfl
  | cons e es ih =>
    by_cases h : e.1 = k
    · simp [find, h]
    · simp [find, h, ih]

theorem values_mapValues (f : α → α) (m : OrderedMap κ α) : (m.mapValues f).values = m.values.map f := by
  rw [values, values, mapValues, List.map_map, List.map_map]
  rfl

theorem values_set_new {m : OrderedMap κ α} {k : κ} (h : m.get? k = none) (v : α) :
    (m.set k v).values = m.values ++ [v] := by
  show (upsert k v m.entries).map Prod.snd = m.values ++ [v]
  rw [upsert_of_not_mem (find_eq_none.mp h), List.map_append]
  rfl

/-- an update in place, where the keys can be told from the values -/
theorem values_set_old {m : OrderedMap κ α} (key : α → κ) (hkey : ∀ k v, m.get? k = some v → key v = k)
    {k : κ} {w : α} (h : m.get? k = some w) (v : α) :
    (m.set k v).values = m.values.map fun x => if key x = k then v else x := by
  have hmem : k ∈ m.entries.map Prod.fst := List.mem_map_of_mem (mem_of_find h)
  show (upsert k v m.entries).map Prod.snd = _
  rw [upsert_of_mem m.nodup hmem, values, List.map_map, List.map_map]
  apply List.map_congr_left
  intro e he
  have hk : key e.2 = e.1 := hkey _ _ (m.mem_entries_iff.mp he)
  show (if e.1 = k then (k, v) else e).2 = if key e.2 = k then v else e.2
  rw [hk]
  split <;> rfl

/-! ## sums over the values -/

variable {M : Type*} [AddCommGroup M]

@[simp] theorem sum_empty (f : α → M) : (empty : OrderedMap κ α).sum f = 0 := rfl

theorem sum_set (f : α → M) (m : OrderedMap κ α) (k : κ) (v : α) :
    (m.set k v).sum f = m.sum f + f v - (m.get? k).elim 0 f := by
  have h := sum_upsert f k v m.entries
  simp only [sum, values, set, get?, List.map_map]
  exact h

theorem sum_set_new (f : α → M) {m : OrderedMap κ α} {k : κ} (hk : m.get? k = none) (v : α) :
    (m.set k v).sum f = m.sum f + f v := by
  rw [sum_set, hk, Option.elim_none, sub_zero]

theorem sum_set_old (f : α → M) {m : OrderedMap κ α} {k : κ} {w : α} (hk : m.get? k = some w)
    (v : α) : (m.set k v).sum f = m.sum f + f v - f w := by
  rw [sum_set, hk, Option.elim_some]

/-- an update whose new and replaced values count the same leaves the sum alone -/
theorem sum_set_eq (f : α → M) {m : OrderedMap κ α} {k : κ} {v : α}
    (h : f v = (m.get? k).elim 0 f) : (m.set k v).sum f = m.sum f := by
  rw [sum_set, h, add_sub_cancel_right]

theorem sum_congr {f g : α → M} (m : OrderedMap κ α) (h : ∀ v ∈ m.values, f v = g v) :
    m.sum f = m.sum g := by
  rw [sum, sum, List.map_congr_left h]

theorem sum_nonneg {f : α → ℤ} (m : OrderedMap κ α) (h : ∀ v ∈ m.values, 0 ≤ f v) :
    0 ≤ m.sum f := by
  apply List.sum_nonneg
  intro x hx
  obtain ⟨v, hv, rfl⟩ := List.mem_map.mp hx
  exact h v hv

/-- one value is at most the sum when all count non-negatively -/
theorem le_sum {f : α → ℤ} (m : OrderedMap κ α) (h : ∀ v ∈ m.values, 0 ≤ f v) {k : κ} {v : α}
    (hk : m.get? k = some v) : f v ≤ m.sum f := by
  apply List.single_le_sum
  · intro x hx
    obtain ⟨w, hw, rfl⟩ := List.mem_map.mp hx
    exact h w hw
  · exact List.mem_map_of_mem (mem_values_of_get? hk)

end

end OrderedMap
