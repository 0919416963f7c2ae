import Mathlib.Tactic

/-!
# Lists of named fields

A record read from outside is a list of names with their values, in some order.  `List.lookup` reads
a field; with the names duplicate-free the fields are known from what `lookup` answers, up to order.

* `lookup_iff_mem`     what a field is;
* `perm_of_lookup`     equal answers, equal fields;
* `listed`             the fields in the order of a list of names;
* `sorted_eq`          one order of the names, one list.
-/

set_option linter.unusedSectionVars false

namespace Fields

section
variable {κ α β : Type*} [DecidableEq κ]

/-- the names of the fields -/
def names (fields : List (κ × α)) : List κ := fields.map Prod.fst

theorem lookup_cons_eq (k j : κ) (v : α) (fields : List (κ × α)) :
    ((k, v) :: fields).lookup j = if j = k then some v else fields.lookup j := by
  rw [List.lookup_cons]
  by_cases h : j = k
  · subst h
    rw [beq_self_eq_true, if_pos rfl]
  · rw [beq_eq_false_iff_ne.mpr h, if_neg h]

theorem lookup_isSome {fields : List (κ × α)} {k : κ} :
    (fields.lookup k).isSome ↔ k ∈ names fields := by
  induction fields with
  | nil => simp [names]
  | cons field fields ih =>
    obtain ⟨j, v⟩ := field
    rw [lookup_cons_eq]
    by_cases h : k = j
    · subst h
      simp [names]
    · rw [if_neg h, ih]
      simp [names, h]

theorem lookup_eq_none {fields : List (κ × α)} {k : κ} :
    fields.lookup k = none ↔ k ∉ names fields := by
  rw [← lookup_isSome, Option.not_isSome_iff_eq_none]

theorem mem_of_lookup {fields : List (κ × α)} {k : κ} {v : α} (h : fields.lookup k = some v) :
    (k, v) ∈ fields := by
  induction fields with
  | nil => cases h
  | cons field fields ih =>
    obtain ⟨j, w⟩ := field
    rw [lookup_cons_eq] at h
    by_cases hk : k = j
    · subst hk
      rw [if_pos rfl] at h
      cases h
      exact List.mem_cons_self
    · rw [if_neg hk] at h
      exact List.mem_cons_of_mem _ (ih h)

theorem lookup_of_mem {fields : List (κ × α)} (hnd : (names fields).Nodup) {k : κ} {v : α}
    (h : (k, v) ∈ fields) : fields.lookup k = some v := by
  induction fields with
  | nil => cases h
  | cons field fields ih =>
    obtain ⟨j, w⟩ := field
    obtain ⟨hj, hrest⟩ := List.nodup_cons.mp hnd
    rw [lookup_cons_eq]
    rcases List.mem_cons.mp h with heq | hmem
    · cases heq
      rw [if_pos rfl]
    · have hne : k ≠ j := by
        rintro rfl
        exact hj (List.mem_map.mpr ⟨_, hmem, rfl⟩)
      rw [if_neg hne]
      exact ih hrest hmem

theorem lookup_iff_mem {fields : List (κ × α)} (hnd : (names fields).Nodup) {k : κ} {v : α} :
    fields.lookup k = some v ↔ (k, v) ∈ fields := ⟨mem_of_lookup, lookup_of_mem hnd⟩

theorem nodup_of_names {fields : List (κ × α)} (hnd : (names fields).Nodup) : fields.Nodup :=
  List.Nodup.of_map _ hnd

theorem perm_of_lookup {fields fields' : List (κ × α)} (hnd : (names fields).Nodup)
    (hnd' : (names fields').Nodup) (h : ∀ k, fields.lookup k = fields'.lookup k) :
    fields.Perm fields' := by
  rw [List.perm_ext_iff_of_nodup (nodup_of_names hnd) (nodup_of_names hnd')]
  rintro ⟨k, v⟩
  rw [← lookup_iff_mem hnd, ← lookup_iff_mem hnd', h]

theorem names_perm {fields fields' : List (κ × α)} (h : fields.Perm fields') :
    (names fields).Perm (names fields') := h.map _

theorem lookup_of_perm {fields fields' : List (κ × α)} (hnd : (names fields).Nodup)
    (h : fields.Perm fields') (k : κ) : fields.lookup k = fields'.lookup k := by
  have hnd' : (names fields').Nodup := (names_perm h).nodup_iff.mp hnd
  apply Option.ext
  intro v
  rw [lookup_iff_mem hnd, lookup_iff_mem hnd', h.mem_iff]

/-! ## changing the values -/

/-- a function on every value -/
def mapValues (f : α → β) (fields : List (κ × α)) : List (κ × β) := fields.map fun p => (p.1, f p.2)

theorem names_mapValues (f : α → β) (fields : List (κ × α)) :
    names (mapValues f fields) = names fields := by
  rw [names, names, mapValues, List.map_map]
  rfl

theorem lookup_mapValues (f : α → β) (fields : List (κ × α)) (k : κ) :
    (mapValues f fields).lookup k = (fields.lookup k).map f := by
  induction fields with
  | nil => rfl
  | cons field fields ih =>
    obtain ⟨j, v⟩ := field
    show ((j, f v) :: mapValues f fields).lookup k = _
    rw [lookup_cons_eq, lookup_cons_eq, ih]
    split <;> rfl

/-- the fields whose names satisfy a test -/
theorem lookup_filter (p : κ → Bool) (fields : List (κ × α)) (k : κ) :
    (fields.filter fun field => p field.1).lookup k = if p k then fields.lookup k else none := by
  induction fields with
  | nil => simp
  | cons field fields ih =>
    obtain ⟨j, v⟩ := field
    rw [List.filter_cons]
    by_cases hj : p j = true
    · rw [if_pos hj, lookup_cons_eq, lookup_cons_eq, ih]
      by_cases hk : k = j
      · subst hk
        rw [if_pos rfl, if_pos rfl, if_pos hj]
      · rw [if_neg hk, if_neg hk]
    · rw [if_neg hj, ih, lookup_cons_eq]
      by_cases hk : k = j
      · subst hk
        rw [if_neg hj, if_neg hj]
      · rw [if_neg hk]

/-! ## the order of a list of names -/

/-- the fields that `find` answers for `order`, in that order -/
def listed (order : List κ) (find : κ → Option α) : List (κ × α) :=
  order.filterMap fun k => (find k).map fun v => (k, v)

theorem listed_cons (k : κ) (order : List κ) (find : κ → Option α) :
    listed (k :: order) find = match find k with
      | some v => (k, v) :: listed order find
      | none => listed order find := by
  rw [listed, List.filterMap_cons]
  cases find k <;> rfl

theorem names_listed_sublist (order : List κ) (find : κ → Option α) :
    (names (listed order find)).Sublist order := by
  induction order with
  | nil => exact List.Sublist.refl _
  | cons k order ih =>
    rw [listed_cons]
    cases find k with
    | none => exact ih.cons k
    | some v => exact ih.cons_cons k

theorem lookup_listed (order : List κ) (find : κ → Option α) (k : κ) :
    (listed order find).lookup k = if k ∈ order then find k else none := by
  induction order with
  | nil => rfl
  | cons j order ih =>
    rw [listed_cons]
    cases hj : find j with
    | none =>
      show (listed order find).lookup k = _
      rw [ih]
      by_cases hk : k = j
      · subst hk
        rw [if_pos List.mem_cons_self, hj]
        split <;> rfl
      · simp only [List.mem_cons, hk, false_or]
    | some v =>
      show ((j, v) :: listed order find).lookup k = _
      rw [lookup_cons_eq, ih]
      by_cases hk : k = j
      · subst hk
        rw [if_pos rfl, if_pos List.mem_cons_self, hj]
      · simp only [List.mem_cons, hk, if_false, false_or]

theorem listed_congr {order : List κ} {find find' : κ → Option α}
    (h : ∀ k ∈ order, find k = find' k) : listed order find = listed order find' := by
  apply List.filterMap_congr
  intro k hk
  rw [h k hk]

theorem mem_listed {order : List κ} {find : κ → Option α} {k : κ} {v : α}
    (h : (k, v) ∈ listed order find) : find k = some v := by
  obtain ⟨j, -, hj⟩ := List.mem_filterMap.mp h
  obtain ⟨w, hw, heq⟩ := Option.map_eq_some_iff.mp hj
  cases heq
  exact hw

/-! ## sorted names -/

/-- an order of names that tells any two apart -/
structure Total (le : κ → κ → Bool) : Prop where
  trans : ∀ a b c, le a b → le b c → le a c
  total : ∀ a b, le a b || le b a
  antisymm : ∀ a b, le a b → le b a → a = b

theorem sort_perm {le : κ → κ → Bool} (h : Total le) {ks ks' : List κ} (hp : ks.Perm ks') :
    ks.mergeSort le = ks'.mergeSort le := by
  have hperm : (ks.mergeSort le).Perm (ks'.mergeSort le) :=
    (List.mergeSort_perm ks le).trans (hp.trans (List.mergeSort_perm ks' le).symm)
  exact hperm.eq_of_pairwise (fun a b _ _ => h.antisymm a b)
    (List.pairwise_mergeSort h.trans h.total ks) (List.pairwise_mergeSort h.trans h.total ks')

/-- fields whose names stand in one order are known from what they answer -/
theorem sorted_eq {le : κ → κ → Bool} (h : Total le) {fields fields' : List (κ × α)}
    (hnd : (names fields).Nodup) (hp : fields.Perm fields')
    (hs : fields.Pairwise fun p q => le p.1 q.1) (hs' : fields'.Pairwise fun p q => le p.1 q.1) :
    fields = fields' := by
  refine hp.eq_of_pairwise (fun p q hpm hqm hpq hqp => ?_) hs hs'
  obtain ⟨k, v⟩ := p
  obtain ⟨j, w⟩ := q
  obtain rfl : k = j := h.antisymm _ _ hpq hqp
  have hv := lookup_of_mem hnd hpm
  have hw := lookup_of_mem hnd (hp.mem_iff.mpr hqm)
  rw [hv] at hw
  cases hw
  rfl

end

end Fields
