import CoinManage.Postgres.Settlements

/-!
# The ledger as events

What the component is for, without tables: users hold money in three buckets, and a call makes
events, each of which moves money between accounts by one journal.

* `Standing.Sound.next`        reserves, deposits, payouts and the money of all users stay accounted
                               for, whatever happens;
* `Standing.NonNegativeIn.next` no bucket goes below zero when the event is covered;
* `Db.heldIn_eq_sum`           the money of all users, user by user.
-/

namespace Postgres

open DoubleEntry

inductive Event where
  | deposited (userId : String) (x : ℤ)
  | credited (userId : String) (x : ℤ)
  | transferred (fromUserId toUserId : String) (x : ℤ)
  | reserved (userId : String) (x : ℤ)
  | completed (userId : String) (x : ℤ)
  | withdrawFeePaid (x : ℤ)
  | failed (userId : String) (x : ℤ)
  | sweepFeePaid (x : ℤ)
  | locked (userId : String) (x : ℤ)
  | released (userId : String) (x : ℤ)
  /-- collateral consumed by a settlement -/
  | settled (userId : String) (x fee : ℤ)
  | receiverCredited (receiver : String) (x : ℤ)
  /-- collateral given back out of clearing -/
  | compensated (userId : String) (x : ℤ)
  /-- released collateral taken back -/
  | relocked (userId : String) (x : ℤ)
  | reconciled (userId : String) (delta : ℤ)
  | pendingReconciled (userId : String) (delta : ℤ)

namespace Event

/-- the journal of an event -/
def legs : Event → List (Posting LedgerAccount ℤ)
  | .deposited u x => move .depositClearing (.user u .available) x
  | .credited u x => move .balanceCreditSync (.user u .available) x
  | .transferred u v x => move (.user u .available) (.user v .available) x
  | .reserved u x => move (.user u .available) (.user u .withdrawPending) x
  | .completed u x => move (.user u .withdrawPending) .hotWallet x
  | .withdrawFeePaid x => move .withdrawNetworkFee .hotWalletTrx x
  | .failed u x => move (.user u .withdrawPending) (.user u .available) x
  | .sweepFeePaid x => move .sweepNetworkFee .sweepSourceTrx x
  | .locked u x | .relocked u x => move (.user u .available) (.user u .offlinePayPending) x
  | .released u x => move (.user u .offlinePayPending) (.user u .available) x
  | .settled u x fee =>
    [⟨.user u .offlinePayPending, .debit, x⟩, ⟨.offlinePayClearing, .credit, x - fee⟩] ++
      (if 0 < fee then [⟨.offlinePayFee, .credit, fee⟩] else [])
  | .receiverCredited v x => move .offlinePayClearing (.user v .available) x
  | .compensated u x => move .offlinePayClearing (.user u .offlinePayPending) x
  | .reconciled u delta => reconciliationLegs (.user u .available) delta
  | .pendingReconciled u delta => reconciliationLegs (.user u .offlinePayPending) delta

/-- what the journal comes to: amounts moved from one account to another -/
def moves : Event → List (Posting LedgerAccount ℤ)
  | .settled u x fee =>
    move (.user u .offlinePayPending) .offlinePayClearing (x - fee) ++
      move (.user u .offlinePayPending) .offlinePayFee fee
  | .reconciled u delta => move .offlinePayReconciliation (.user u .available) delta
  | .pendingReconciled u delta => move .offlinePayReconciliation (.user u .offlinePayPending) delta
  | e => e.legs

/-- what an event adds to the reserve of a user's active withdrawals -/
def reserves (userId : String) : Event → ℤ
  | .reserved u x => if u = userId then x else 0
  | .completed u x | .failed u x => -(if u = userId then x else 0)
  | _ => 0

/-- what an event adds to the recorded deposits -/
def deposits : Event → ℤ
  | .deposited _ x => x
  | _ => 0

/-- what an event adds to the completed withdrawals -/
def completes : Event → ℤ
  | .completed _ x => x
  | _ => 0

/-- amounts are not negative, and a settlement's fee is a part of its amount -/
def WellFormed : Event → Prop
  | .deposited _ x | .credited _ x | .transferred _ _ x | .reserved _ x | .completed _ x
  | .withdrawFeePaid x | .failed _ x | .sweepFeePaid x | .locked _ x | .released _ x
  | .receiverCredited _ x | .compensated _ x | .relocked _ x => 0 ≤ x
  | .settled _ x fee => 0 ≤ fee ∧ fee ≤ x
  | .reconciled _ _ | .pendingReconciled _ _ => True

end Event

/-! ## the standing of the ledger -/

/-- the accounts of users in these buckets -/
def LedgerAccount.InBuckets (B : Finset Bucket) : LedgerAccount → Prop
  | .user _ b => b ∈ B
  | _ => False

instance (B : Finset Bucket) : DecidablePred (LedgerAccount.InBuckets B) := fun a =>
  match a with
  | .user _ b => inferInstanceAs (Decidable (b ∈ B))
  | .depositClearing | .balanceCreditSync | .hotWallet | .hotWalletTrx | .withdrawNetworkFee
  | .sweepNetworkFee | .sweepSourceTrx | .offlinePayClearing | .offlinePayFee
  | .offlinePayReconciliation => isFalse id

def allBuckets : Finset Bucket := {.available, .withdrawPending, .offlinePayPending}

theorem mem_allBuckets (b : Bucket) : b ∈ allBuckets := by cases b <;> decide

structure Standing where
  balance : LedgerAccount → ℤ
  /-- all accounts of all users together -/
  held : ℤ
  /-- the amounts of a user's active withdrawals -/
  reserved : String → ℤ
  deposited : ℤ
  completed : ℤ

def Event.next (L : Standing) (e : Event) : Standing where
  balance a := L.balance a + DoubleEntry.balance a e.legs
  held := L.held + net (LedgerAccount.InBuckets allBuckets) e.legs
  reserved u := L.reserved u + e.reserves u
  deposited := L.deposited + e.deposits
  completed := L.completed + e.completes

/-- every unit the users hold is accounted for -/
structure Standing.Sound (L : Standing) : Prop where
  reserves : ∀ u, L.balance (.user u .withdrawPending) = L.reserved u
  deposits : L.balance .depositClearing = -L.deposited
  payouts : L.balance .hotWallet = L.completed
  held : L.held = L.deposited - L.balance .balanceCreditSync - L.completed -
    L.balance .offlinePayClearing - L.balance .offlinePayReconciliation - L.balance .offlinePayFee

/-- this bucket of no user is below zero -/
def Standing.NonNegativeIn (L : Standing) (b : Bucket) : Prop := ∀ u, 0 ≤ L.balance (.user u b)

/-- what an event takes from a user -/
def Event.takes : Event → Option (String × Bucket × ℤ)
  | .transferred u _ x | .reserved u x | .locked u x | .relocked u x => some (u, .available, x)
  | .completed u x | .failed u x => some (u, .withdrawPending, x)
  | .released u x | .settled u x _ => some (u, .offlinePayPending, x)
  | .reconciled u delta => some (u, .available, -delta)
  | .pendingReconciled u delta => some (u, .offlinePayPending, -delta)
  | _ => none

/-- what an event takes from this bucket is there -/
def Event.CoveredIn (L : Standing) (b : Bucket) (e : Event) : Prop :=
  ∀ u x, e.takes = some (u, b, x) → x ≤ L.balance (.user u b)

section
variable {L : Standing} {e : Event}

/-! ## journals and moves -/

theorem reconciliationLegs_net {C : LedgerAccount → Prop} [DecidablePred C] (a : LedgerAccount)
    (delta : ℤ) :
    net C (reconciliationLegs a delta) = net C (move .offlinePayReconciliation a delta) := by
  unfold reconciliationLegs
  split
  · next h => rw [abs_of_pos h]
  · next h =>
    rw [net_move, net_move, abs_of_nonpos (not_lt.mp h)]
    split <;> split <;> ring

/-- the journal of an event comes to its moves -/
theorem Event.net_legs {C : LedgerAccount → Prop} [DecidablePred C] (he : e.WellFormed) :
    net C e.legs = net C e.moves := by
  cases e with
  | settled u x fee =>
    have hfee : net C (if 0 < fee then [⟨.offlinePayFee, .credit, fee⟩] else []) =
        if C .offlinePayFee then fee else 0 := by
      split
      · simp [Posting.signed]
      · next h =>
        have hzero : fee = 0 := le_antisymm (not_lt.mp h) he.1
        simp [hzero]
    rw [Event.legs, Event.moves, net_append, net_append, hfee, net_move, net_move]
    simp only [net_cons, net_nil, Posting.signed]
    split <;> split <;> ring
  | reconciled u delta => exact reconciliationLegs_net _ _
  | pendingReconciled u delta => exact reconciliationLegs_net _ _
  | _ => rfl

theorem reconciliationLegs_balanced (a : LedgerAccount) (delta : ℤ) :
    Balanced (reconciliationLegs a delta) := by
  unfold reconciliationLegs
  split
  · exact balanced_move _ _ _
  · exact balanced_move _ _ _

theorem Event.legs_balanced (he : e.WellFormed) : Balanced e.legs := by
  cases e with
  | settled u x fee =>
    rw [Event.legs, DoubleEntry.Balanced]
    split
    · simp
    · next h =>
      have hzero : fee = 0 := le_antisymm (not_lt.mp h) he.1
      simp [hzero]
  | reconciled u delta => exact reconciliationLegs_balanced _ _
  | pendingReconciled u delta => exact reconciliationLegs_balanced _ _
  | _ => exact balanced_move _ _ _

/-! ## what an event does to the standing -/

theorem Event.balance_reserve (he : e.WellFormed) (u : String) :
    DoubleEntry.balance (.user u .withdrawPending) e.legs = e.reserves u := by
  rw [DoubleEntry.balance, Event.net_legs he]
  cases e <;> simp [Event.moves, Event.legs, Event.reserves, net_append, net_move]

theorem Event.balance_deposits (he : e.WellFormed) :
    DoubleEntry.balance .depositClearing e.legs = -e.deposits := by
  rw [DoubleEntry.balance, Event.net_legs he]
  cases e <;> simp [Event.moves, Event.legs, Event.deposits, net_append, net_move]

theorem Event.balance_payouts (he : e.WellFormed) :
    DoubleEntry.balance .hotWallet e.legs = e.completes := by
  rw [DoubleEntry.balance, Event.net_legs he]
  cases e <;> simp [Event.moves, Event.legs, Event.completes, net_append, net_move]

/-- what all users gain or lose, account by account of the other side -/
theorem Event.net_held (he : e.WellFormed) :
    net (LedgerAccount.InBuckets allBuckets) e.legs = e.deposits -
      DoubleEntry.balance .balanceCreditSync e.legs - e.completes -
      DoubleEntry.balance .offlinePayClearing e.legs -
      DoubleEntry.balance .offlinePayReconciliation e.legs -
      DoubleEntry.balance .offlinePayFee e.legs := by
  simp only [DoubleEntry.balance, Event.net_legs he]
  cases e with
  | settled u x fee =>
    simp [Event.moves, Event.deposits, Event.completes, net_append, net_move,
      LedgerAccount.InBuckets, mem_allBuckets]
    ring
  | _ =>
    simp [Event.moves, Event.legs, Event.deposits, Event.completes, net_move,
      LedgerAccount.InBuckets, mem_allBuckets]

theorem Standing.Sound.next (h : L.Sound) (he : e.WellFormed) : (e.next L).Sound where
  reserves u := by
    show L.balance _ + _ = L.reserved u + _
    rw [h.reserves, Event.balance_reserve he]
  deposits := by
    show L.balance _ + _ = -(L.deposited + _)
    rw [h.deposits, Event.balance_deposits he]
    ring
  payouts := by
    show L.balance _ + _ = L.completed + _
    rw [h.payouts, Event.balance_payouts he]
  held := by
    show L.held + _ = _
    rw [h.held, Event.net_held he]
    simp only [Event.next]
    ring

/-! ## no bucket below zero -/

/-- a user's account gains what it gains, and loses at most what the event takes -/
theorem Event.neg_takes_le (he : e.WellFormed) (u : String) (b : Bucket) :
    (match e.takes with
      | some (v, c, x) => if v = u ∧ c = b then -x else 0
      | none => 0) ≤ DoubleEntry.balance (.user u b) e.legs := by
  rw [DoubleEntry.balance, Event.net_legs he]
  cases e <;>
    simp only [Event.WellFormed] at he <;>
    simp [Event.takes, Event.moves, Event.legs, net_append, net_move] <;>
    split_ifs <;> omega

theorem Standing.NonNegativeIn.next {b : Bucket} (h : L.NonNegativeIn b) (he : e.WellFormed)
    (hc : e.CoveredIn L b) : (e.next L).NonNegativeIn b := by
  intro u
  show 0 ≤ L.balance _ + _
  have hold := h u
  have hloss := Event.neg_takes_le he u b
  cases htakes : e.takes with
  | none =>
    rw [htakes] at hloss
    simp only at hloss
    omega
  | some taken =>
    obtain ⟨v, c, x⟩ := taken
    rw [htakes] at hloss
    simp only at hloss
    split at hloss
    · next hvc =>
      obtain ⟨rfl, rfl⟩ := hvc
      have hcover := hc v x htakes
      omega
    · omega

end

/-! ## the tables' standing -/

/-- the code of a user's account in one of these buckets -/
def UserCode (B : Finset Bucket) (code : String) : Prop :=
  ∃ u, ∃ b ∈ B, code = (LedgerAccount.user u b).code

theorem userCode_iff (B : Finset Bucket) (a : LedgerAccount) : UserCode B a.code ↔ a.InBuckets B := by
  constructor
  · rintro ⟨u, b, hb, hcode⟩
    rw [LedgerAccount.code_injective hcode]
    exact hb
  · intro h
    cases a with
    | user u b => exact ⟨u, b, h, rfl⟩
    | _ => exact h.elim

open Classical in
/-- what all users hold in these buckets -/
noncomputable def Db.heldIn (s : Db) (B : Finset Bucket) : ℤ := net (UserCode B) s.postings

/-- the amounts of a user's active withdrawals -/
def Db.reserved (s : Db) (userId : String) : ℤ :=
  ((s.withdrawals.filter fun row => row.userId = userId ∧ row.status.isActive = true).map
    (·.amount.units)).sum

def Db.completed (s : Db) : ℤ :=
  ((s.withdrawals.filter fun row => row.status = .completed).map (·.amount.units)).sum

def Db.deposited (s : Db) : ℤ := (s.deposits.map (·.amount.units)).sum

noncomputable def Db.standing (s : Db) : Standing :=
  ⟨s.balance, s.heldIn allBuckets, s.reserved, s.deposited, s.completed⟩

section
variable {s s' : Db}

theorem Posted.heldIn {es : List Entry} {legs : List (Posting LedgerAccount ℤ)}
    (h : Posted s s' es) (hlegs : es.flatMap Entry.legs = mapAccounts LedgerAccount.code legs)
    (B : Finset Bucket) : s'.heldIn B = s.heldIn B + net (LedgerAccount.InBuckets B) legs := by
  classical
  have hnew : net (UserCode B) (mapAccounts LedgerAccount.code legs) =
      net (LedgerAccount.InBuckets B) legs := by
    rw [net_mapAccounts]
    exact net_congr fun p _ => userCode_iff B p.account
  rw [Db.heldIn, h.postings, hlegs, net_append, ← hnew]
  congr 1

/-- what all users hold, user by user -/
theorem Db.heldIn_eq_sum (B : Finset Bucket) (S : Finset String)
    (hS : ∀ u, s.HasPostings u → u ∈ S) :
    s.heldIn B = ∑ u ∈ S, ∑ b ∈ B, s.balance (.user u b) := by
  classical
  have hinj : Set.InjOn (fun ub : String × Bucket => (LedgerAccount.user ub.1 ub.2).code)
      (S ×ˢ B : Finset (String × Bucket)) := by
    intro x _ y _ h
    obtain ⟨hu, hb⟩ := userCode_injective h
    exact Prod.ext hu hb
  have hclass : net (UserCode B) s.postings = net (fun c => c ∈ (S ×ˢ B).image fun ub =>
      (LedgerAccount.user ub.1 ub.2).code) s.postings := by
    refine net_congr fun p hp => ?_
    rw [Finset.mem_image]
    constructor
    · rintro ⟨u, b, hb, hcode⟩
      exact ⟨(u, b), Finset.mem_product.mpr ⟨hS u ⟨p, hp, b, hcode⟩, hb⟩, hcode.symm⟩
    · rintro ⟨⟨u, b⟩, hmem, hcode⟩
      exact ⟨u, b, (Finset.mem_product.mp hmem).2, hcode.symm⟩
  rw [Db.heldIn, hclass, net_finset _ (fun _ => Iff.rfl), Finset.sum_image hinj, Finset.sum_product]
  rfl

end

end Postgres
