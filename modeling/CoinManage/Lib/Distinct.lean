import Mathlib.Tactic

/-!
# The first element of every key

A loop over a list that skips an element without a key, or with a key seen before, and otherwise notes
the key and collects the element.  `pushUnseen` is such a loop with a limit that is looked at after each
element it collects, so that it collects one even when the limit is reached before it starts.

* `fresh`              the elements the loop would collect without a limit;
* `fresh_split`, `mem_fresh`   these are the first ones of their keys, and every first one is there;
* `fresh_eq_nil`       nothing is collected when every key has been seen;
* `keys_fresh`, `nodup_keys_fresh`   their keys, as a list without repetitions;
* `pushUnseen_items`, `mem_pushUnseen_seen`   what the loop collects and what it has seen.
-/

namespace Distinct

section
variable {α β κ : Type*} [DecidableEq κ] (key : α → Option κ)

/-- the first element of every key that is not in `seen` -/
def fresh : List κ → List α → List α
  | _, [] => []
  | seen, a :: as =>
    match key a with
    | none => fresh seen as
    | some k => if k ∈ seen then fresh seen as else a :: fresh (k :: seen) as

/-- `for (const a of as) { if (..) continue; seen.add(..); items.push(..); if (items.length >= limit) break; }` -/
def pushUnseen (item : α → β) (limit : ℕ) : List α → List β → List κ → List β × List κ
  | [], items, seen => (items, seen)
  | a :: as, items, seen =>
    match key a with
    | none => pushUnseen item limit as items seen
    | some k =>
      if k ∈ seen then pushUnseen item limit as items seen
      else if limit ≤ items.length + 1 then (items ++ [item a], k :: seen)
      else pushUnseen item limit as (items ++ [item a]) (k :: seen)

variable {key}

theorem fresh_skip {a : α} {as : List α} {seen : List κ} (h : ∀ k, key a = some k → k ∈ seen) :
    fresh key seen (a :: as) = fresh key seen as := by
  rw [fresh]
  cases hk : key a with
  | none => rfl
  | some k => exact if_pos (h k hk)

theorem fresh_take {a : α} {as : List α} {seen : List κ} {k : κ} (hk : key a = some k) (h : k ∉ seen) :
    fresh key seen (a :: as) = a :: fresh key (k :: seen) as := by
  rw [fresh, hk]
  show (if k ∈ seen then _ else _) = _
  rw [if_neg h]

/-- every element either is skipped or is taken -/
theorem skip_or_take (key : α → Option κ) (a : α) (seen : List κ) :
    (∀ k, key a = some k → k ∈ seen) ∨ ∃ k, key a = some k ∧ k ∉ seen := by
  by_cases h : ∃ k, key a = some k ∧ k ∉ seen
  · exact Or.inr h
  · left
    intro k hk
    by_contra hne
    exact h ⟨k, hk, hne⟩

theorem fresh_sublist (seen : List κ) (as : List α) : (fresh key seen as).Sublist as := by
  induction as generalizing seen with
  | nil => exact List.Sublist.refl _
  | cons a as ih =>
    rcases skip_or_take key a seen with h | ⟨k, hk, h⟩
    · rw [fresh_skip h]
      exact (ih seen).cons a
    · rw [fresh_take hk h]
      exact (ih (k :: seen)).cons_cons a

/-- the first element of a key is collected, after earlier elements only -/
theorem fresh_split {seen : List κ} {before after : List α} {a : α} {k : κ} (hk : key a = some k)
    (hseen : k ∉ seen) (hfirst : ∀ b ∈ before, key b ≠ some k) :
    ∃ l r, fresh key seen (before ++ a :: after) = l ++ a :: r ∧ ∀ b ∈ l, b ∈ before := by
  induction before generalizing seen with
  | nil => exact ⟨[], _, fresh_take hk hseen, by simp⟩
  | cons b before ih =>
    have hfirst' : ∀ c ∈ before, key c ≠ some k := fun c hc => hfirst c (List.mem_cons_of_mem _ hc)
    rw [List.cons_append]
    rcases skip_or_take key b seen with h | ⟨j, hj, h⟩
    · obtain ⟨l, r, hl, hmem⟩ := ih hseen hfirst'
      exact ⟨l, r, by rw [fresh_skip h, hl], fun c hc => List.mem_cons_of_mem _ (hmem c hc)⟩
    · have hne : k ≠ j := by
        rintro rfl
        exact hfirst b List.mem_cons_self hj
      have hnew : k ∉ j :: seen := by simp [hne, hseen]
      obtain ⟨l, r, hl, hmem⟩ := ih hnew hfirst'
      refine ⟨b :: l, r, by rw [fresh_take hj h, hl, List.cons_append], fun c hc => ?_⟩
      rcases List.mem_cons.mp hc with rfl | hc
      · exact List.mem_cons_self
      · exact List.mem_cons_of_mem _ (hmem c hc)

/-- what is collected is the first element of its key -/
theorem mem_fresh {seen : List κ} {as : List α} {a : α} (h : a ∈ fresh key seen as) :
    ∃ k before after, key a = some k ∧ k ∉ seen ∧ as = before ++ a :: after ∧
      ∀ b ∈ before, key b ≠ some k := by
  induction as generalizing seen with
  | nil => cases h
  | cons b as ih =>
    rcases skip_or_take key b seen with hb | ⟨j, hj, hb⟩
    · rw [fresh_skip hb] at h
      obtain ⟨k, before, after, hk, hseen, rfl, hfirst⟩ := ih h
      refine ⟨k, b :: before, after, hk, hseen, rfl, fun c hc => ?_⟩
      rcases List.mem_cons.mp hc with rfl | hc
      · exact fun hc => hseen (hb k hc)
      · exact hfirst c hc
    · rw [fresh_take hj hb] at h
      rcases List.mem_cons.mp h with rfl | h
      · exact ⟨j, [], as, hj, hb, rfl, by simp⟩
      · obtain ⟨k, before, after, hk, hseen, rfl, hfirst⟩ := ih h
        obtain ⟨hne, hseen⟩ : k ≠ j ∧ k ∉ seen := by simpa using hseen
        refine ⟨k, b :: before, after, hk, hseen, rfl, fun c hc => ?_⟩
        rcases List.mem_cons.mp hc with rfl | hc
        · rw [hj]
          exact fun h' => hne (Option.some.inj h').symm
        · exact hfirst c hc

theorem fresh_eq_nil {seen : List κ} {as : List α} :
    fresh key seen as = [] ↔ ∀ a ∈ as, ∀ k, key a = some k → k ∈ seen := by
  induction as with
  | nil => simp [fresh]
  | cons a as ih =>
    rcases skip_or_take key a seen with h | ⟨k, hk, h⟩
    · rw [fresh_skip h, ih, List.forall_mem_cons]
      exact ⟨fun h' => ⟨h, h'⟩, fun h' => h'.2⟩
    · rw [fresh_take hk h]
      refine iff_of_false (List.cons_ne_nil _ _) fun h' => ?_
      exact h (h' a List.mem_cons_self k hk)

/-- the keys of what is collected: each key once, in the order of first occurrence -/
theorem keys_fresh (seen : List κ) (as : List α) :
    (fresh key seen as).filterMap key =
      ((as.filterMap key).filter fun k => k ∉ seen).eraseDups := by
  induction as generalizing seen with
  | nil => rfl
  | cons a as ih =>
    rcases skip_or_take key a seen with h | ⟨k, hk, h⟩
    · rw [fresh_skip h, ih]
      cases hk : key a with
      | none => rw [List.filterMap_cons_none hk]
      | some k => rw [List.filterMap_cons_some hk, List.filter_cons_of_neg (by simpa using h k hk)]
    · rw [fresh_take hk h, List.filterMap_cons_some hk, List.filterMap_cons_some hk, ih,
        List.filter_cons_of_pos (by simpa using h), List.eraseDups_cons, List.filter_filter]
      congr 2
      apply List.filter_congr
      intro j _
      by_cases hj : j = k
      · simp [hj]
      · simp [hj]

theorem nodup_keys_fresh (seen : List κ) (as : List α) :
    ((fresh key seen as).filterMap key).Nodup := by
  induction as generalizing seen with
  | nil => exact List.nodup_nil
  | cons a as ih =>
    rcases skip_or_take key a seen with h | ⟨k, hk, h⟩
    · rw [fresh_skip h]
      exact ih seen
    · rw [fresh_take hk h, List.filterMap_cons_some hk, List.nodup_cons]
      refine ⟨fun hmem => ?_, ih (k :: seen)⟩
      obtain ⟨b, hb, hkb⟩ := List.mem_filterMap.mp hmem
      obtain ⟨j, -, -, hj, hseen, -⟩ := mem_fresh hb
      obtain rfl := Option.some.inj (hkb.symm.trans hj)
      exact hseen List.mem_cons_self

variable (item : α → β) (limit : ℕ)

theorem pushUnseen_skip {a : α} {as : List α} {items : List β} {seen : List κ}
    (h : ∀ k, key a = some k → k ∈ seen) :
    pushUnseen key item limit (a :: as) items seen = pushUnseen key item limit as items seen := by
  rw [pushUnseen]
  cases hk : key a with
  | none => rfl
  | some k => exact if_pos (h k hk)

theorem pushUnseen_take {a : α} {as : List α} {items : List β} {seen : List κ} {k : κ}
    (hk : key a = some k) (h : k ∉ seen) :
    pushUnseen key item limit (a :: as) items seen =
      if limit ≤ items.length + 1 then (items ++ [item a], k :: seen)
      else pushUnseen key item limit as (items ++ [item a]) (k :: seen) := by
  rw [pushUnseen, hk]
  exact if_neg h

/-- the room a loop has left: never none, and one less after an element that does not fill it -/
theorem room_of_full {n : ℕ} (h : limit ≤ n + 1) : max 1 (limit - n) = 1 := by omega

theorem room_of_not_full {items : List β} {b : β} (h : ¬ limit ≤ items.length + 1) :
    max 1 (limit - items.length) = max 1 (limit - (items ++ [b]).length) + 1 := by
  rw [List.length_append, List.length_singleton]
  omega

theorem pushUnseen_items (as : List α) (items : List β) (seen : List κ) :
    (pushUnseen key item limit as items seen).1 =
      items ++ ((fresh key seen as).take (max 1 (limit - items.length))).map item := by
  induction as generalizing items seen with
  | nil => simp [pushUnseen, fresh]
  | cons a as ih =>
    rcases skip_or_take key a seen with h | ⟨k, hk, h⟩
    · rw [fresh_skip h, pushUnseen_skip item limit h, ih]
    · rw [fresh_take hk h, pushUnseen_take item limit hk h]
      split
      · next hfull =>
        rw [room_of_full limit hfull]
        rfl
      · next hroom =>
        rw [ih, room_of_not_full limit hroom, List.take_succ_cons, List.map_cons, List.append_assoc,
          List.singleton_append]

theorem mem_pushUnseen_seen (as : List α) (items : List β) (seen : List κ) (k : κ) :
    k ∈ (pushUnseen key item limit as items seen).2 ↔
      k ∈ seen ∨ ∃ a ∈ (fresh key seen as).take (max 1 (limit - items.length)), key a = some k := by
  induction as generalizing items seen with
  | nil => simp [pushUnseen, fresh]
  | cons a as ih =>
    rcases skip_or_take key a seen with h | ⟨j, hj, h⟩
    · rw [fresh_skip h, pushUnseen_skip item limit h, ih]
    · rw [fresh_take hj h, pushUnseen_take item limit hj h]
      split
      · next hfull =>
        rw [room_of_full limit hfull]
        simp [hj, or_comm, eq_comm]
      · next hroom =>
        rw [ih, room_of_not_full limit hroom, List.take_succ_cons]
        simp only [List.mem_cons, exists_eq_or_imp, hj, Option.some.injEq]
        rw [or_comm (a := k = j), or_assoc, eq_comm (a := k)]

end

end Distinct
