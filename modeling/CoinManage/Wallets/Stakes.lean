import CoinManage.Wallets.Repository

/-!
# What the hot wallet has delegated

The chain's record of delegations, in their order.  The stake of a wallet, a resource and a network is what was
delegated less what was taken back.

* `Fits`, `Alternates`   a delegation finds no stake, and an undelegation takes all there is;
* `Alternates.append`    events of different stakes that fit can be recorded together;
* `Alternates.once`      between two delegations of one stake stands an undelegation.
-/

inductive TronResourceType where
  | bandwidth
  | energy
  deriving DecidableEq, Repr

def TronResourceType.text : TronResourceType → String
  | bandwidth => "BANDWIDTH"
  | energy => "ENERGY"

structure StakeKey where
  receiverAddress : String
  resource : TronResourceType
  network : TronNetwork
  deriving DecidableEq, Repr

inductive StakeEvent where
  | delegated (key : StakeKey) (amountSun : ℤ)
  | undelegated (key : StakeKey) (amountSun : ℤ)
  deriving DecidableEq, Repr

namespace StakeEvent

def key : StakeEvent → StakeKey
  | delegated key _ => key
  | undelegated key _ => key

/-- what the event adds to its stake -/
def amount : StakeEvent → ℤ
  | delegated _ amountSun => amountSun
  | undelegated _ amountSun => -amountSun

def change (k : StakeKey) (e : StakeEvent) : ℤ := if e.key = k then e.amount else 0

end StakeEvent

/-- what is staked -/
def stakeOf (chain : List StakeEvent) (k : StakeKey) : ℤ := (chain.map (·.change k)).sum

/-- a delegation finds no stake, and an undelegation takes all there is -/
def StakeEvent.Fits (chain : List StakeEvent) : StakeEvent → Prop
  | delegated k amountSun => 0 < amountSun ∧ stakeOf chain k = 0
  | undelegated k amountSun => 0 < amountSun ∧ stakeOf chain k = amountSun

/-- every event fits those before it -/
def Alternates (chain : List StakeEvent) : Prop :=
  ∀ before e after, chain = before ++ e :: after → e.Fits before

section
variable {chain events : List StakeEvent} {k : StakeKey} {e : StakeEvent}

theorem stakeOf_nil (k : StakeKey) : stakeOf [] k = 0 := rfl

theorem stakeOf_append (chain events : List StakeEvent) (k : StakeKey) :
    stakeOf (chain ++ events) k = stakeOf chain k + stakeOf events k := by
  unfold stakeOf
  rw [List.map_append, List.sum_append]

theorem stakeOf_cons (e : StakeEvent) (events : List StakeEvent) (k : StakeKey) :
    stakeOf (e :: events) k = e.change k + stakeOf events k := by
  unfold stakeOf
  rw [List.map_cons, List.sum_cons]

theorem stakeOf_of_ne (h : ∀ e ∈ events, e.key ≠ k) : stakeOf events k = 0 := by
  apply List.sum_eq_zero
  intro x hx
  obtain ⟨e, he, rfl⟩ := List.mem_map.mp hx
  exact if_neg (h e he)

theorem change_of_eq (h : e.key = k) : e.change k = e.amount := if_pos h

theorem Alternates.snoc (h : Alternates chain) (he : e.Fits chain) : Alternates (chain ++ [e]) := by
  intro before e' after heq
  rcases List.eq_nil_or_concat after with rfl | ⟨after', last, rfl⟩
  · obtain ⟨rfl, hlast⟩ := List.append_inj' heq rfl
    rw [← List.head_eq_of_cons_eq hlast]
    exact he
  · rw [List.concat_eq_append, ← List.cons_append, ← List.append_assoc] at heq
    obtain ⟨hchain, -⟩ := List.append_inj' heq rfl
    exact h before e' after' hchain

/-- whether an event fits depends on its own stake only -/
theorem fits_congr {chain' : List StakeEvent} (h : stakeOf chain' e.key = stakeOf chain e.key) (he : e.Fits chain) :
    e.Fits chain' := by
  cases e with
  | delegated k amountSun =>
    exact ⟨he.1, h.trans he.2⟩
  | undelegated k amountSun =>
    exact ⟨he.1, h.trans he.2⟩

theorem Alternates.append (h : Alternates chain) (hdistinct : (events.map (·.key)).Nodup)
    (hfit : ∀ e ∈ events, e.Fits chain) : Alternates (chain ++ events) := by
  induction events generalizing chain with
  | nil =>
    rw [List.append_nil]
    exact h
  | cons e events ih =>
    rw [List.map_cons, List.nodup_cons] at hdistinct
    have hone : Alternates (chain ++ [e]) := h.snoc (hfit e List.mem_cons_self)
    have hrest := ih hone hdistinct.2 fun e' he' => ?_
    · rw [List.append_assoc] at hrest
      exact hrest
    · apply fits_congr _ (hfit e' (List.mem_cons_of_mem _ he'))
      have hother : stakeOf [e] e'.key = 0 := by
        apply stakeOf_of_ne
        intro e₁ he₁ heq
        rw [List.mem_singleton.mp he₁] at heq
        exact hdistinct.1 (heq ▸ List.mem_map_of_mem he')
      rw [stakeOf_append, hother, add_zero]

theorem Alternates.nonneg (h : Alternates chain) (k : StakeKey) : 0 ≤ stakeOf chain k := by
  induction chain using List.reverseRecOn with
  | nil => exact le_refl _
  | append_singleton chain e ih =>
    have hbefore : 0 ≤ stakeOf chain k := by
      apply ih
      intro before e' after heq
      apply h before e' (after ++ [e])
      rw [heq, List.append_assoc, List.cons_append]
    have hfits := h chain e [] rfl
    rw [stakeOf_append, stakeOf_cons, stakeOf_nil, add_zero]
    by_cases hkey : e.key = k
    · rw [change_of_eq hkey]
      cases e with
      | delegated k' amountSun =>
        have hpos : 0 < amountSun := hfits.1
        show 0 ≤ stakeOf chain k + amountSun
        omega
      | undelegated k' amountSun =>
        have hall : stakeOf chain k' = amountSun := hfits.2
        obtain rfl : k' = k := hkey
        show 0 ≤ stakeOf chain k' + -amountSun
        omega
    · rw [StakeEvent.change, if_neg hkey]
      omega

/-- Between two delegations of one stake stands an undelegation of it. -/
theorem Alternates.once (h : Alternates chain) {before mid after : List StakeEvent} {a a' : ℤ}
    (heq : chain = before ++ .delegated k a :: (mid ++ .delegated k a' :: after)) :
    ∃ b, .undelegated k b ∈ mid := by
  by_contra hnone
  have hfirst : 0 < a := (h before (.delegated k a) _ heq).1
  have hfound : stakeOf before k = 0 := (h before (.delegated k a) _ heq).2
  have hsecond : stakeOf (before ++ .delegated k a :: mid) k = 0 := by
    refine (h (before ++ .delegated k a :: mid) (.delegated k a') after ?_).2
    rw [heq, List.append_assoc, List.cons_append]
  have hmid : 0 ≤ stakeOf mid k := by
    apply List.sum_nonneg
    intro x hx
    obtain ⟨e, he, rfl⟩ := List.mem_map.mp hx
    obtain ⟨l, l', rfl⟩ := List.append_of_mem he
    have hfits := h (before ++ .delegated k a :: l) e (l' ++ .delegated k a' :: after)
      (by rw [heq]; simp [List.append_assoc])
    by_cases hkey : e.key = k
    · rw [change_of_eq hkey]
      cases e with
      | delegated k' amountSun => exact le_of_lt hfits.1
      | undelegated k' amountSun =>
        obtain rfl : k' = k := hkey
        exact absurd ⟨amountSun, he⟩ hnone
    · rw [StakeEvent.change, if_neg hkey]
  have hamount : (StakeEvent.delegated k a).change k = a := change_of_eq rfl
  rw [stakeOf_append, stakeOf_cons, hamount] at hsecond
  omega

end
