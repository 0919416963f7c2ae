import CoinManage.Lib.OrderedMap

/-!
# A map kept in both directions

`m` gives every key a value, `n` gives every tag the key it stands for, where a value shows its tag
(`f`).  Code that writes both maps by hand keeps them mutually inverse when a write of a key takes
away the tag the key had before, and when no other key has the new one.

* `Inverse f m n`   the two maps are mutually inverse partial functions;
* `unlink`          the tag map without the tag of a replaced value;
* `Inverse.rebind`  a write of both maps that keeps them inverse.
-/

namespace OrderedMap

section
variable {κ α β : Type*} [DecidableEq κ] [DecidableEq β] {f : α → β} {m : OrderedMap κ α}
  {n : OrderedMap β κ}

def Inverse (f : α → β) (m : OrderedMap κ α) (n : OrderedMap β κ) : Prop :=
  ∀ k b, (m.get? k).map f = some b ↔ n.get? b = some k

/-- forget the tag of the old value, when the new tag is another one -/
def unlink (f : α → β) (old : Option α) (b : β) (n : OrderedMap β κ) : OrderedMap β κ :=
  match old with
  | some w => if f w ≠ b then n.delete (f w) else n
  | none => n

theorem get?_unlink (old : Option α) (b c : β) :
    (unlink f old b n).get? c = if old.map f = some c ∧ c ≠ b then none else n.get? c := by
  cases old with
  | none => simp [unlink]
  | some w =>
    by_cases hw : f w = b
    · have hkept : ¬ ((some w).map f = some c ∧ c ≠ b) := by
        rintro ⟨h, hne⟩
        exact hne ((Option.some.inj h).symm.trans hw)
      rw [unlink, if_neg (not_not.mpr hw), if_neg hkept]
    · rw [unlink, if_pos hw, get?_delete]
      by_cases hc : f w = c
      · subst hc
        rw [if_pos rfl, if_pos ⟨rfl, hw⟩]
      · have hne : ¬ ((some w).map f = some c ∧ c ≠ b) := by
          rintro ⟨h, -⟩
          exact hc (Option.some.inj h)
        rw [if_neg hc, if_neg hne]

theorem Inverse.empty : Inverse f (empty : OrderedMap κ α) (empty : OrderedMap β κ) := by
  intro k b
  simp

/-- a key takes a new value: it gives its old tag up, and nobody else had the new one -/
theorem Inverse.rebind (h : Inverse f m n) {k : κ} {v : α}
    (hfree : ∀ j, n.get? (f v) = some j → j = k) :
    Inverse f (m.set k v) ((unlink f (m.get? k) (f v) n).set (f v) k) := by
  intro j b
  rw [get?_set, get?_set]
  by_cases hj : k = j
  · subst hj
    rw [if_pos rfl]
    by_cases hb : f v = b
    · rw [if_pos hb, hb.symm]
      exact iff_of_true rfl rfl
    · rw [if_neg hb, get?_unlink]
      refine iff_of_false (fun h' => hb (Option.some.inj h')) ?_
      split
      · rintro ⟨⟩
      · next hkept =>
        intro hn
        exact hkept ⟨(h k b).mpr hn, fun hbv => hb hbv.symm⟩
  · rw [if_neg hj, h j b]
    by_cases hb : f v = b
    · subst hb
      rw [if_pos rfl]
      refine iff_of_false (fun hn => hj (hfree j hn).symm) ?_
      intro hk
      exact hj (Option.some.inj hk)
    · rw [if_neg hb, get?_unlink]
      split
      · next hgone =>
        have hk : n.get? b = some k := (h k b).mp hgone.1
        refine iff_of_false ?_ (by simp)
        intro hn
        exact hj (Option.some.inj (hk.symm.trans hn))
      · exact Iff.rfl

end

end OrderedMap
