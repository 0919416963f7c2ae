import Mathlib.Tactic
import Mathlib.Algebra.BigOperators.Group.List.Basic
import Mathlib.Algebra.BigOperators.Group.Finset.Basic

/-!
# Double-entry bookkeeping

A posting debits or credits one account; the balance of an account is its credits minus its
debits.  Accounts and amounts are arbitrary: an account is any type, an amount lives in any
commutative group.

* `net_append`, `net_of_split`, `net_finset`   what a class of accounts holds, in parts;
* `Balanced.net_true`   over all accounts, balanced postings come to nothing;
* `move`, `net_move`    one amount from an account to another;
* `balance_mapAccounts` renaming the accounts does not change what they hold;
* `nonneg_of_move`      a move that its source covers keeps a class of accounts non-negative.
-/

set_option linter.unusedSectionVars false

namespace DoubleEntry

inductive Side where
  | debit
  | credit
  deriving DecidableEq, Repr

structure Posting (A M : Type) where
  account : A
  side : Side
  amount : M
  deriving DecidableEq, Repr

section
variable {A B M : Type} [AddCommGroup M]

/-- credits count up, debits count down -/
def Posting.signed (p : Posting A M) : M :=
  match p.side with
  | .debit => -p.amount
  | .credit => p.amount

/-- everything posted on one side -/
def total (side : Side) (ps : List (Posting A M)) : M :=
  (ps.map fun p => if p.side = side then p.amount else 0).sum

def Balanced (ps : List (Posting A M)) : Prop := total .debit ps = total .credit ps

/-- what the accounts of a class hold together -/
def net (C : A → Prop) [DecidablePred C] (ps : List (Posting A M)) : M :=
  (ps.map fun p => if C p.account then p.signed else 0).sum

/-- what an account holds -/
def balance [DecidableEq A] (a : A) (ps : List (Posting A M)) : M := net (· = a) ps

/-- `x` from account `a` to account `b` -/
def move (a b : A) (x : M) : List (Posting A M) := [⟨a, .debit, x⟩, ⟨b, .credit, x⟩]

def mapAccounts (f : A → B) (ps : List (Posting A M)) : List (Posting B M) :=
  ps.map fun p => ⟨f p.account, p.side, p.amount⟩

/-! ## totals -/

@[simp] theorem total_nil (side : Side) : total side ([] : List (Posting A M)) = 0 := rfl

@[simp] theorem total_cons (side : Side) (p : Posting A M) (ps : List (Posting A M)) :
    total side (p :: ps) = (if p.side = side then p.amount else 0) + total side ps := rfl

theorem total_append (side : Side) (ps qs : List (Posting A M)) :
    total side (ps ++ qs) = total side ps + total side qs := by
  rw [total, List.map_append, List.sum_append]
  rfl

theorem total_mapAccounts (f : A → B) (side : Side) (ps : List (Posting A M)) :
    total side (mapAccounts f ps) = total side ps := by
  rw [total, mapAccounts, List.map_map]
  rfl

theorem mapAccounts_append (f : A → B) (ps qs : List (Posting A M)) :
    mapAccounts f (ps ++ qs) = mapAccounts f ps ++ mapAccounts f qs := List.map_append

theorem mapAccounts_flatMap {E : Type} (f : A → B) (g : E → List (Posting A M)) (es : List E) :
    mapAccounts f (es.flatMap g) = es.flatMap fun e => mapAccounts f (g e) := List.map_flatMap ..

theorem Balanced.nil : Balanced ([] : List (Posting A M)) := rfl

theorem Balanced.append {ps qs : List (Posting A M)} (hp : Balanced ps) (hq : Balanced qs) :
    Balanced (ps ++ qs) := by
  have hp' : total .debit ps = total .credit ps := hp
  have hq' : total .debit qs = total .credit qs := hq
  rw [Balanced, total_append, total_append, hp', hq']

theorem Balanced.flatMap {E : Type} {f : E → List (Posting A M)} {es : List E}
    (h : ∀ e ∈ es, Balanced (f e)) : Balanced (es.flatMap f) := by
  induction es with
  | nil => exact Balanced.nil
  | cons e es ih =>
    have he := h e List.mem_cons_self
    have hes := ih fun e' he' => h e' (List.mem_cons_of_mem _ he')
    exact he.append hes

theorem balanced_mapAccounts (f : A → B) {ps : List (Posting A M)} :
    Balanced (mapAccounts f ps) ↔ Balanced ps := by
  rw [Balanced, Balanced, total_mapAccounts, total_mapAccounts]

theorem balanced_move (a b : A) (x : M) : Balanced (move a b x) := by
  simp [Balanced, move]

/-! ## what a class of accounts holds -/

section
variable {C D : A → Prop} [DecidablePred C] [DecidablePred D]

@[simp] theorem net_nil : net C ([] : List (Posting A M)) = 0 := rfl

@[simp] theorem net_cons (p : Posting A M) (ps : List (Posting A M)) :
    net C (p :: ps) = (if C p.account then p.signed else 0) + net C ps := rfl

theorem net_append (ps qs : List (Posting A M)) : net C (ps ++ qs) = net C ps + net C qs := by
  rw [net, List.map_append, List.sum_append]
  rfl

theorem net_congr {ps : List (Posting A M)} (h : ∀ p ∈ ps, C p.account ↔ D p.account) :
    net C ps = net D ps := by
  induction ps with
  | nil => rfl
  | cons p ps ih =>
    have hp := h p List.mem_cons_self
    have hps := ih fun q hq => h q (List.mem_cons_of_mem _ hq)
    rw [net_cons, net_cons, hps]
    simp only [hp]

/-- a class none of whose accounts is touched -/
theorem net_untouched {ps : List (Posting A M)} (h : ∀ p ∈ ps, ¬ C p.account) : net C ps = 0 := by
  induction ps with
  | nil => rfl
  | cons p ps ih =>
    have hp := h p List.mem_cons_self
    have hps := ih fun q hq => h q (List.mem_cons_of_mem _ hq)
    rw [net_cons, if_neg hp, hps, add_zero]

/-- a class that is only ever debited is down by what was debited -/
theorem net_of_debits {ps : List (Posting A M)}
    (h : ∀ p ∈ ps, C p.account → p.side = .debit) :
    net C ps = -total .debit (ps.filter fun p => C p.account) := by
  induction ps with
  | nil => simp
  | cons p ps ih =>
    have hrest := ih fun q hq => h q (List.mem_cons_of_mem _ hq)
    rw [net_cons, hrest]
    by_cases hC : C p.account
    · have hside := h p List.mem_cons_self hC
      simp [hC, hside, Posting.signed]
      abel
    · simp [hC]

/-- a class in two parts -/
theorem net_of_split {E : A → Prop} [DecidablePred E] (hE : ∀ a, E a ↔ C a ∨ D a)
    (hCD : ∀ a, C a → ¬ D a) (ps : List (Posting A M)) : net E ps = net C ps + net D ps := by
  induction ps with
  | nil => simp
  | cons p ps ih =>
    have hp : (if E p.account then p.signed else 0) =
        (if C p.account then p.signed else 0) + (if D p.account then p.signed else 0) := by
      by_cases hc : C p.account
      · have hd := hCD _ hc
        simp [hE, hc, hd]
      · simp [hE, hc]
    rw [net_cons, net_cons, net_cons, ih, hp]
    abel

/-- over all accounts: the credits minus the debits -/
theorem net_true (ps : List (Posting A M)) :
    net (fun _ => True) ps = total .credit ps - total .debit ps := by
  induction ps with
  | nil => simp
  | cons p ps ih =>
    rw [net_cons, total_cons, total_cons, ih, if_pos trivial]
    cases hp : p.side with
    | debit =>
      rw [Posting.signed, hp]
      simp only [if_true, reduceCtorEq, if_false]
      abel
    | credit =>
      rw [Posting.signed, hp]
      simp only [if_true, reduceCtorEq, if_false]
      abel

theorem Balanced.net_true {ps : List (Posting A M)} (h : Balanced ps) :
    net (fun _ => True) ps = 0 := by
  have h' : total .debit ps = total .credit ps := h
  rw [DoubleEntry.net_true, h', sub_self]

theorem net_move (a b : A) (x : M) :
    net C (move a b x) = (if C b then x else 0) - (if C a then x else 0) := by
  show (if C a then -x else 0) + ((if C b then x else 0) + 0) = _
  by_cases ha : C a <;> by_cases hb : C b <;> simp [ha, hb]

end

/-! ## single accounts -/

section
variable [DecidableEq A] [DecidableEq B]

@[simp] theorem balance_nil (a : A) : balance a ([] : List (Posting A M)) = 0 := rfl

theorem balance_append (a : A) (ps qs : List (Posting A M)) :
    balance a (ps ++ qs) = balance a ps + balance a qs := net_append ps qs

theorem balance_move (c a b : A) (x : M) :
    balance c (move a b x) = (if b = c then x else 0) - (if a = c then x else 0) := net_move a b x

/-- a finite class, account by account -/
theorem net_finset {C : A → Prop} [DecidablePred C] (S : Finset A) (hS : ∀ a, C a ↔ a ∈ S)
    (ps : List (Posting A M)) : net C ps = ∑ a ∈ S, balance a ps := by
  induction ps with
  | nil => simp [balance]
  | cons p ps ih =>
    have hp : (if C p.account then p.signed else 0) =
        ∑ a ∈ S, if p.account = a then p.signed else 0 := by
      rw [Finset.sum_ite_eq]
      simp only [hS]
    rw [net_cons, ih, hp, ← Finset.sum_add_distrib]
    rfl

theorem net_mapAccounts (f : A → B) {C : B → Prop} [DecidablePred C] (ps : List (Posting A M)) :
    net C (mapAccounts f ps) = net (fun a => C (f a)) ps := by
  rw [net, mapAccounts, List.map_map]
  rfl

theorem balance_mapAccounts {f : A → B} (hf : Function.Injective f) (a : A)
    (ps : List (Posting A M)) : balance (f a) (mapAccounts f ps) = balance a ps := by
  rw [balance, net_mapAccounts]
  exact net_congr fun p _ => hf.eq_iff

end

end

/-! ## classes that never go below zero -/

section
variable {A M : Type} [DecidableEq A] [AddCommGroup M] [LinearOrder M] [IsOrderedAddMonoid M]

/-- a move keeps a class of accounts non-negative when its source is outside of the class or
holds the amount -/
theorem nonneg_of_move {C : A → Prop} {ps : List (Posting A M)} {a b : A} {x : M} (hx : 0 ≤ x)
    (hC : ∀ c, C c → 0 ≤ balance c ps) (ha : C a → x ≤ balance a ps) :
    ∀ c, C c → 0 ≤ balance c (ps ++ move a b x) := by
  intro c hc
  rw [balance_append, balance_move]
  have hpos := hC c hc
  have hcredit : 0 ≤ (if b = c then x else 0) := by
    split
    · exact hx
    · exact le_refl 0
  by_cases hac : a = c
  · subst hac
    have hcover := ha hc
    rw [if_pos rfl]
    have hrest : 0 ≤ balance a ps - x := sub_nonneg.mpr hcover
    have hsum := add_nonneg hrest hcredit
    calc 0 ≤ balance a ps - x + (if b = a then x else 0) := hsum
      _ = balance a ps + ((if b = a then x else 0) - x) := by abel
  · rw [if_neg hac, sub_zero]
    exact add_nonneg hpos hcredit

end

end DoubleEntry
