import CoinManage.InMemory.Calls

/-!
# What a call of the in-memory ledger can do to its books

`Move rt admits s s'` lists the changes a method makes to the money and to the records about it,
each with the check the method makes before it.  Every call, returning or throwing, is a sequence
of such moves (`exec_moves` in `CoinManage.InMemory.Runs`), so an invariant of the books is proved
once for each move.

* `Sound`          locked balances are the reserved withdrawals, holdings are what came in less what
                   was paid out, and the records refer to each other;
* `Solvent`        balances are not negative;
* `Move.sound`, `Move.solvent`   both are kept by every move.

`Sound` needs nothing of the amounts; `Solvent` needs them to be positive.
-/

namespace InMemoryLedger

/-! ## amounts in the tables -/

section
variable (accounts : OrderedMap String Account) (withdrawals : OrderedMap String Withdrawal)

def balanceIn (u : String) : ℤ := (accounts.get? u).elim 0 (·.balance)

def lockedIn (u : String) : ℤ := (accounts.get? u).elim 0 (·.lockedBalance)

/-- balances and locked balances of all users -/
def heldIn : ℤ := accounts.sum fun a => a.balance + a.lockedBalance

/-- what one withdrawal keeps locked for the user `u` -/
def reserves (u : String) (w : Withdrawal) : ℤ :=
  if w.userId = u ∧ w.status.isActive = true then w.amount else 0

/-- the amounts of the active withdrawals of a user -/
def reservedIn (u : String) : ℤ := withdrawals.sum (reserves u)

/-- what one withdrawal has taken out of the ledger -/
def paysOut (w : Withdrawal) : ℤ := if w.status = .completed then w.amount else 0

def paidOutIn : ℤ := withdrawals.sum paysOut

variable {accounts withdrawals}

theorem balanceIn_set (u v : String) (a : Account) :
    balanceIn (accounts.set u a) v = if u = v then a.balance else balanceIn accounts v := by
  rw [balanceIn, OrderedMap.get?_set]
  split <;> rfl

theorem lockedIn_set (u v : String) (a : Account) :
    lockedIn (accounts.set u a) v = if u = v then a.lockedBalance else lockedIn accounts v := by
  rw [lockedIn, OrderedMap.get?_set]
  split <;> rfl

theorem heldIn_set (u : String) (a : Account) :
    heldIn (accounts.set u a) =
      heldIn accounts + (a.balance + a.lockedBalance) - (balanceIn accounts u + lockedIn accounts u) := by
  rw [heldIn, heldIn, OrderedMap.sum_set, balanceIn, lockedIn]
  cases accounts.get? u <;> simp

theorem reservedIn_new {id : String} (h : withdrawals.get? id = none) (w : Withdrawal) (u : String) :
    reservedIn (withdrawals.set id w) u = reservedIn withdrawals u + reserves u w :=
  OrderedMap.sum_set_new _ h w

theorem reservedIn_old {id : String} {w : Withdrawal} (h : withdrawals.get? id = some w)
    (w' : Withdrawal) (u : String) :
    reservedIn (withdrawals.set id w') u = reservedIn withdrawals u + reserves u w' - reserves u w :=
  OrderedMap.sum_set_old _ h w'

theorem paidOutIn_new {id : String} (h : withdrawals.get? id = none) (w : Withdrawal) :
    paidOutIn (withdrawals.set id w) = paidOutIn withdrawals + paysOut w :=
  OrderedMap.sum_set_new _ h w

theorem paidOutIn_old {id : String} {w : Withdrawal} (h : withdrawals.get? id = some w)
    (w' : Withdrawal) :
    paidOutIn (withdrawals.set id w') = paidOutIn withdrawals + paysOut w' - paysOut w :=
  OrderedMap.sum_set_old _ h w'

theorem reserves_nonneg {u : String} {w : Withdrawal} (h : 0 < w.amount) : 0 ≤ reserves u w := by
  rw [reserves]
  split
  · exact h.le
  · exact le_refl 0

end

section
variable (s : InMemoryLedger)

def balanceOf (u : String) : ℤ := balanceIn s.accounts u
def lockedOf (u : String) : ℤ := lockedIn s.accounts u
def holdings : ℤ := heldIn s.accounts
def reservedOf (u : String) : ℤ := reservedIn s.withdrawals u
def paidOut : ℤ := paidOutIn s.withdrawals
def recordedDeposits : ℤ := s.depositsByTxHash.sum (·.amount)
def recordedCredits : ℤ := s.externalCreditsByReference.sum (·.amount)

theorem accountOf_balance (u nowIso : String) :
    (s.accountOf u nowIso).balance = balanceIn s.accounts u := by
  rw [accountOf, balanceIn]
  cases s.accounts.get? u <;> rfl

theorem accountOf_locked (u nowIso : String) :
    (s.accountOf u nowIso).lockedBalance = lockedIn s.accounts u := by
  rw [accountOf, lockedIn]
  cases s.accounts.get? u <;> rfl

end

/-! ## the two invariants -/

structure Sound (rt : Runtime) (s : InMemoryLedger) : Prop where
  recorded : ∀ id w, s.withdrawals.get? id = some w →
    w.withdrawalId = id ∧ (s.transactions.get? w.ledgerTxId).isSome
  drawn : ∀ id w, s.withdrawals.get? id = some w → ∃ k < s.uuidsDrawn, id = rt.uuid k
  requested : ∀ key id, s.withdrawalByIdempotencyKey.get? key = some id →
    (s.withdrawals.get? id).isSome
  transfers : ∀ key r, s.transferByIdempotencyKey.get? key = some r →
    (s.transactions.get? r.fromTxId).isSome ∧ (s.transactions.get? r.toTxId).isSome
  locked : ∀ u, s.lockedOf u = s.reservedOf u
  balanced : s.holdings = s.recordedDeposits + s.recordedCredits - s.paidOut

structure Solvent (s : InMemoryLedger) : Prop where
  balance_nonneg : ∀ u, 0 ≤ s.balanceOf u
  amount_pos : ∀ id w, s.withdrawals.get? id = some w → 0 < w.amount

/-! ## moves -/

/-- the books are the same; other tables may differ -/
structure SameBooks (s s' : InMemoryLedger) : Prop where
  accounts : s'.accounts = s.accounts
  transactions : s'.transactions = s.transactions
  deposits : s'.depositsByTxHash = s.depositsByTxHash
  credits : s'.externalCreditsByReference = s.externalCreditsByReference
  withdrawals : s'.withdrawals = s.withdrawals
  requests : s'.withdrawalByIdempotencyKey = s.withdrawalByIdempotencyKey
  transfers : s'.transferByIdempotencyKey = s.transferByIdempotencyKey
  drawn : s.uuidsDrawn ≤ s'.uuidsDrawn

theorem SameBooks.refl (s : InMemoryLedger) : SameBooks s s :=
  ⟨rfl, rfl, rfl, rfl, rfl, rfl, rfl, le_refl _⟩

/-- a withdrawal written back with another status or other notes, the money where it was -/
structure SameMoney (w w' : Withdrawal) : Prop where
  withdrawalId : w'.withdrawalId = w.withdrawalId
  userId : w'.userId = w.userId
  amount : w'.amount = w.amount
  ledgerTxId : w'.ledgerTxId = w.ledgerTxId
  active : w'.status.isActive = w.status.isActive
  completed : w'.status = .completed ↔ w.status = .completed

inductive Move (rt : Runtime) (admits : ℤ → Prop) (s : InMemoryLedger) : InMemoryLedger → Prop
  | frame {s'} (same : SameBooks s s') : Move rt admits s s'
  | opened (userId nowIso : String) : Move rt admits s (s.opened userId nowIso)
  | accountTouched {userId : String} {a : Account} (found : s.accounts.get? userId = some a)
      (a' : Account) (balance : a'.balance = a.balance) (locked : a'.lockedBalance = a.lockedBalance) :
      Move rt admits s { s with accounts := s.accounts.set userId a' }
  | deposited {input : DepositInput} (new : s.depositsByTxHash.get? input.txHash = none)
      (admitted : admits input.amount) : Move rt admits s (s.deposited rt input)
  | depositTouched {key : String} {d : Deposit} (found : s.depositsByTxHash.get? key = some d)
      (d' : Deposit) (amount : d'.amount = d.amount) :
      Move rt admits s { s with depositsByTxHash := s.depositsByTxHash.set key d' }
  | credited {input : ExternalCreditInput}
      (new : s.externalCreditsByReference.get?
        (referenceKey input.referenceType input.referenceId) = none)
      (admitted : admits input.amount) : Move rt admits s (s.credited rt input)
  | transferred {input : TransferInput} (distinct : input.fromUserId ≠ input.toUserId)
      (funds : input.amount ≤ s.balanceOf input.fromUserId) (admitted : admits input.amount) :
      Move rt admits s (s.transferred rt input)
  | reserved {input : WithdrawalInput} (funds : input.amount ≤ s.balanceOf input.userId)
      (admitted : admits input.amount) : Move rt admits s (s.reserved rt input)
  | touched {id : String} {w : Withdrawal} (found : s.withdrawals.get? id = some w)
      (w' : Withdrawal) (same : SameMoney w w') : Move rt admits s (s.withWithdrawal id w')
  | settled {id : String} {w : Withdrawal} {tx : LedgerTransaction} {nowIso : String}
      (found : s.withdrawals.get? id = some w) (status : w.status = .txBroadcasted) :
      Move rt admits s (s.settled id w tx nowIso)
  | released {id : String} {w : Withdrawal} {tx : LedgerTransaction} {reason nowIso : String}
      (found : s.withdrawals.get? id = some w) (active : w.status.isActive = true) :
      Move rt admits s (s.released id w tx reason nowIso)

/-! ## what opening an account changes -/

section
variable (s : InMemoryLedger)

theorem balanceIn_opened (u v nowIso : String) :
    balanceIn (s.opened u nowIso).accounts v = balanceIn s.accounts v := by
  unfold opened
  cases h : s.accounts.get? u with
  | some a => rfl
  | none =>
    simp only [balanceIn_set]
    split
    · next hv => rw [← hv, balanceIn, h]; rfl
    · rfl

theorem lockedIn_opened (u v nowIso : String) :
    lockedIn (s.opened u nowIso).accounts v = lockedIn s.accounts v := by
  unfold opened
  cases h : s.accounts.get? u with
  | some a => rfl
  | none =>
    simp only [lockedIn_set]
    split
    · next hv => rw [← hv, lockedIn, h]; rfl
    · rfl

theorem heldIn_opened (u nowIso : String) :
    heldIn (s.opened u nowIso).accounts = heldIn s.accounts := by
  unfold opened
  cases h : s.accounts.get? u with
  | some a => rfl
  | none =>
    simp only [heldIn_set, balanceIn, lockedIn, h, createEmptyAccount, Option.elim_none]
    ring

end

/-! ## what a transfer changes -/

section
variable {rt : Runtime} {s : InMemoryLedger} {input : TransferInput}

theorem balanceIn_transferred (hne : input.fromUserId ≠ input.toUserId) (v : String) :
    balanceIn (s.transferred rt input).accounts v =
      balanceIn s.accounts v + (if v = input.toUserId then input.amount else 0) -
        (if v = input.fromUserId then input.amount else 0) := by
  simp only [transferred, balanceIn_set, balanceIn_opened, accountOf_balance]
  by_cases hto : input.toUserId = v
  · subst hto
    simp [hne.symm]
  · by_cases hfrom : input.fromUserId = v
    · subst hfrom
      simp [hne, hto]
    · simp [hto, hfrom, Ne.symm hto, Ne.symm hfrom]

theorem lockedIn_transferred (v : String) :
    lockedIn (s.transferred rt input).accounts v = lockedIn s.accounts v := by
  simp only [transferred, lockedIn_set, lockedIn_opened, accountOf_locked]
  split
  · next h => rw [h]
  · split
    · next h => rw [h]
    · rfl

theorem heldIn_transferred (hne : input.fromUserId ≠ input.toUserId) :
    heldIn (s.transferred rt input).accounts = heldIn s.accounts := by
  simp only [transferred, heldIn_set, balanceIn_set, lockedIn_set, balanceIn_opened, lockedIn_opened,
    heldIn_opened, accountOf_balance, accountOf_locked, if_neg hne]
  ring

end

/-! ## moves keep the books sound -/

section
variable {rt : Runtime} {admits : ℤ → Prop} {s s' : InMemoryLedger}

theorem Sound.new (limits : WithdrawalLimitConfig) : Sound rt (new limits) where
  recorded := by intro id w h; cases h
  drawn := by intro id w h; cases h
  requested := by intro key id h; cases h
  transfers := by intro key r h; cases h
  locked := fun _ => rfl
  balanced := rfl

/-- a value just drawn is no key of the withdrawals -/
theorem Sound.fresh (hs : Sound rt s) (huuid : Function.Injective rt.uuid) {k : Nat}
    (hk : s.uuidsDrawn ≤ k) : s.withdrawals.get? (rt.uuid k) = none := by
  cases h : s.withdrawals.get? (rt.uuid k) with
  | none => rfl
  | some w =>
    obtain ⟨j, hj, he⟩ := hs.drawn _ w h
    have := huuid he
    omega

theorem Sound.sameBooks (hs : Sound rt s) (h : SameBooks s s') : Sound rt s' where
  recorded := by rw [h.withdrawals, h.transactions]; exact hs.recorded
  drawn := by
    rw [h.withdrawals]
    intro id w hw
    obtain ⟨k, hk, he⟩ := hs.drawn id w hw
    exact ⟨k, lt_of_lt_of_le hk h.drawn, he⟩
  requested := by rw [h.requests, h.withdrawals]; exact hs.requested
  transfers := by rw [h.transfers, h.transactions]; exact hs.transfers
  locked := by
    intro u
    have := hs.locked u
    rw [lockedOf, reservedOf] at this ⊢
    rw [h.accounts, h.withdrawals, this]
  balanced := by
    have := hs.balanced
    rw [holdings, recordedDeposits, recordedCredits, paidOut] at this ⊢
    rw [h.accounts, h.deposits, h.credits, h.withdrawals, this]

/-- only the accounts change, and every user's balances stay what they were in total -/
theorem Sound.withAccounts (hs : Sound rt s) {accounts : OrderedMap String Account}
    (hlocked : ∀ u, lockedIn accounts u = lockedIn s.accounts u)
    (hheld : heldIn accounts = heldIn s.accounts) : Sound rt { s with accounts := accounts } where
  recorded := hs.recorded
  drawn := hs.drawn
  requested := hs.requested
  transfers := hs.transfers
  locked := fun u => (hlocked u).trans (hs.locked u)
  balanced := hheld.trans hs.balanced

theorem Sound.deposited (hs : Sound rt s) {input : DepositInput}
    (hnew : s.depositsByTxHash.get? input.txHash = none) : Sound rt (s.deposited rt input) where
  recorded := fun id w hw =>
    ⟨(hs.recorded id w hw).1, OrderedMap.isSome_get?_set (hs.recorded id w hw).2 _ _⟩
  drawn := fun id w hw => by
    obtain ⟨k, hk, he⟩ := hs.drawn id w hw
    exact ⟨k, Nat.lt_add_right 2 hk, he⟩
  requested := hs.requested
  transfers := fun key r hr =>
    ⟨OrderedMap.isSome_get?_set (hs.transfers key r hr).1 _ _,
      OrderedMap.isSome_get?_set (hs.transfers key r hr).2 _ _⟩
  locked := fun u => by
    rw [← show s.lockedOf u = (s.deposited rt input).reservedOf u from hs.locked u]
    simp only [lockedOf, InMemoryLedger.deposited, lockedIn_set, accountOf_locked]
    split
    · next h => rw [h]
    · rfl
  balanced := by
    have h := hs.balanced
    simp only [holdings, recordedDeposits, recordedCredits, paidOut, InMemoryLedger.deposited,
      heldIn_set, accountOf_balance, accountOf_locked, OrderedMap.sum_set_new _ hnew,
      depositRecord] at h ⊢
    omega

theorem Sound.credited (hs : Sound rt s) {input : ExternalCreditInput}
    (hnew : s.externalCreditsByReference.get?
      (referenceKey input.referenceType input.referenceId) = none) :
    Sound rt (s.credited rt input) where
  recorded := hs.recorded
  drawn := hs.drawn
  requested := hs.requested
  transfers := hs.transfers
  locked := fun u => by
    rw [← show s.lockedOf u = (s.credited rt input).reservedOf u from hs.locked u]
    simp only [lockedOf, InMemoryLedger.credited, lockedIn_set, accountOf_locked]
    split
    · next h => rw [h]
    · rfl
  balanced := by
    have h := hs.balanced
    simp only [holdings, recordedDeposits, recordedCredits, paidOut, InMemoryLedger.credited,
      heldIn_set, accountOf_balance, accountOf_locked, OrderedMap.sum_set_new _ hnew,
      creditRecord] at h ⊢
    omega

theorem Sound.transferred (hs : Sound rt s) {input : TransferInput}
    (hne : input.fromUserId ≠ input.toUserId) : Sound rt (s.transferred rt input) where
  recorded := fun id w hw =>
    ⟨(hs.recorded id w hw).1,
      OrderedMap.isSome_get?_set (OrderedMap.isSome_get?_set (hs.recorded id w hw).2 _ _) _ _⟩
  drawn := fun id w hw => by
    obtain ⟨k, hk, he⟩ := hs.drawn id w hw
    exact ⟨k, Nat.lt_add_right 2 hk, he⟩
  requested := hs.requested
  transfers := fun key r hr => by
    simp only [InMemoryLedger.transferred, OrderedMap.get?_set] at hr
    split at hr
    · obtain rfl := Option.some.inj hr
      exact ⟨OrderedMap.isSome_get?_set (by rw [OrderedMap.get?_set_self]; rfl) _ _,
        by simp only [InMemoryLedger.transferred, OrderedMap.get?_set_self]; rfl⟩
    · exact ⟨OrderedMap.isSome_get?_set
        (OrderedMap.isSome_get?_set (hs.transfers key r hr).1 _ _) _ _,
        OrderedMap.isSome_get?_set (OrderedMap.isSome_get?_set (hs.transfers key r hr).2 _ _) _ _⟩
  locked := fun u => (lockedIn_transferred u).trans (hs.locked u)
  balanced := (heldIn_transferred hne).trans hs.balanced

theorem Sound.reserved (hs : Sound rt s) (huuid : Function.Injective rt.uuid)
    (input : WithdrawalInput) : Sound rt (s.reserved rt input) := by
  have hnew := hs.fresh huuid (Nat.le_add_right s.uuidsDrawn 1)
  have hlock : ∀ u, reserves u (s.requestedWithdrawal rt input) =
      if input.userId = u then input.amount else 0 := by
    intro u
    simp only [reserves, requestedWithdrawal, newWithdrawal, WithdrawalStatus.isActive, and_true]
  constructor
  case recorded =>
    intro id w hw
    simp only [InMemoryLedger.reserved, OrderedMap.get?_set] at hw
    split at hw
    · next hid =>
      obtain rfl := Option.some.inj hw
      refine ⟨hid, ?_⟩
      simp only [InMemoryLedger.reserved, requestedWithdrawal, newWithdrawal, OrderedMap.get?_set_self,
        Option.isSome_some]
    · exact ⟨(hs.recorded id w hw).1, OrderedMap.isSome_get?_set (hs.recorded id w hw).2 _ _⟩
  case drawn =>
    intro id w hw
    simp only [InMemoryLedger.reserved, OrderedMap.get?_set] at hw
    split at hw
    · next hid => exact ⟨s.uuidsDrawn + 1, Nat.lt_succ_self _, hid.symm⟩
    · obtain ⟨k, hk, he⟩ := hs.drawn id w hw
      exact ⟨k, Nat.lt_add_right 2 hk, he⟩
  case requested =>
    intro key id hid
    simp only [InMemoryLedger.reserved, OrderedMap.get?_set] at hid
    split at hid
    · obtain rfl := Option.some.inj hid
      simp only [InMemoryLedger.reserved, OrderedMap.get?_set_self, Option.isSome_some]
    · exact OrderedMap.isSome_get?_set (hs.requested key id hid) _ _
  case transfers =>
    intro key r hr
    exact ⟨OrderedMap.isSome_get?_set (hs.transfers key r hr).1 _ _,
      OrderedMap.isSome_get?_set (hs.transfers key r hr).2 _ _⟩
  case locked =>
    intro u
    have h := hs.locked u
    simp only [lockedOf, reservedOf, InMemoryLedger.reserved, lockedIn_set, accountOf_locked,
      reservedIn_new hnew, hlock] at h ⊢
    split
    · next hu => rw [← hu] at h ⊢; omega
    · omega
  case balanced =>
    have h := hs.balanced
    have hpaid : paysOut (s.requestedWithdrawal rt input) = 0 := rfl
    simp only [holdings, recordedDeposits, recordedCredits, paidOut, InMemoryLedger.reserved,
      heldIn_set, accountOf_balance, accountOf_locked, paidOutIn_new hnew, hpaid] at h ⊢
    omega

/-- a withdrawal written back: the accounts have to follow what it reserves and pays out -/
theorem Sound.rewritten (hs : Sound rt s) {id : String} {w : Withdrawal}
    (hw : s.withdrawals.get? id = some w) (w' : Withdrawal) (hid : w'.withdrawalId = w.withdrawalId)
    (htx : w'.ledgerTxId = w.ledgerTxId) {accounts : OrderedMap String Account}
    {transactions : OrderedMap String LedgerTransaction}
    (hkeep : ∀ j, (s.transactions.get? j).isSome → (transactions.get? j).isSome)
    (hlocked : ∀ u, lockedIn accounts u = lockedIn s.accounts u + reserves u w' - reserves u w)
    (hheld : heldIn accounts = heldIn s.accounts - (paysOut w' - paysOut w)) :
    Sound rt { s with
      accounts := accounts, transactions := transactions
      withdrawals := s.withdrawals.set id w' } := by
  obtain ⟨hrec, hsome⟩ := hs.recorded id w hw
  constructor
  case recorded =>
    intro j v hv
    simp only [OrderedMap.get?_set] at hv
    split at hv
    · next hj =>
      obtain rfl := Option.some.inj hv
      exact ⟨by rw [hid, hrec, hj], hkeep _ (by rw [htx]; exact hsome)⟩
    · exact ⟨(hs.recorded j v hv).1, hkeep _ (hs.recorded j v hv).2⟩
  case drawn =>
    intro j v hv
    simp only [OrderedMap.get?_set] at hv
    split at hv
    · next hj => exact hj ▸ hs.drawn id w hw
    · exact hs.drawn j v hv
  case requested =>
    intro key j hj
    exact OrderedMap.isSome_get?_set (hs.requested key j hj) _ _
  case transfers =>
    intro key r hr
    exact ⟨hkeep _ (hs.transfers key r hr).1, hkeep _ (hs.transfers key r hr).2⟩
  case locked =>
    intro u
    have h := hs.locked u
    simp only [lockedOf, reservedOf, reservedIn_old hw, hlocked] at h ⊢
    rw [h]
  case balanced =>
    have h := hs.balanced
    simp only [holdings, recordedDeposits, recordedCredits, paidOut, paidOutIn_old hw, hheld] at h ⊢
    omega

theorem Sound.touched (hs : Sound rt s) {id : String} {w w' : Withdrawal}
    (hw : s.withdrawals.get? id = some w) (same : SameMoney w w') :
    Sound rt (s.withWithdrawal id w') := by
  have hres : ∀ u, reserves u w' = reserves u w := by
    intro u
    rw [reserves, reserves, same.userId, same.amount, same.active]
  have hpays : paysOut w' = paysOut w := by
    rw [paysOut, paysOut, same.amount]
    exact if_congr same.completed rfl rfl
  exact hs.rewritten hw w' same.withdrawalId same.ledgerTxId (fun _ h => h)
    (fun u => by rw [hres]; ring) (by rw [hpays]; ring)

theorem reserves_of_active {w : Withdrawal} (h : w.status.isActive = true) (u : String) :
    reserves u w = if w.userId = u then w.amount else 0 := by
  simp only [reserves, h, and_true]

theorem paysOut_of_active {w : Withdrawal} (h : w.status.isActive = true) : paysOut w = 0 := by
  rw [paysOut, if_neg]
  intro hc
  rw [hc] at h
  cases h

theorem reserves_of_closed {w : Withdrawal} (h : w.status.isActive = false) (u : String) :
    reserves u w = 0 := by
  simp [reserves, h]

theorem Sound.settled (hs : Sound rt s) {id : String} {w : Withdrawal}
    (hw : s.withdrawals.get? id = some w) (hactive : w.status.isActive = true)
    (tx : LedgerTransaction) (nowIso : String) : Sound rt (s.settled id w tx nowIso) := by
  have hclosed : ∀ u, reserves u (completed w nowIso) = 0 := reserves_of_closed rfl
  have hpays : paysOut (completed w nowIso) = w.amount := rfl
  refine hs.rewritten hw (completed w nowIso) rfl rfl (fun _ h => OrderedMap.isSome_get?_set h _ _) ?_ ?_
  · intro u
    simp only [unlocked, lockedIn_set, accountOf_locked, hclosed, reserves_of_active hactive]
    split
    · next h => rw [h]; ring
    · ring
  · simp only [unlocked, heldIn_set, accountOf_locked, accountOf_balance, hpays, paysOut_of_active hactive]
    ring

theorem Sound.released (hs : Sound rt s) {id : String} {w : Withdrawal}
    (hw : s.withdrawals.get? id = some w) (hactive : w.status.isActive = true)
    (tx : LedgerTransaction) (reason nowIso : String) :
    Sound rt (s.released id w tx reason nowIso) := by
  have hclosed : ∀ u, reserves u (failed w reason nowIso) = 0 := reserves_of_closed rfl
  have hpays : paysOut (failed w reason nowIso) = 0 := rfl
  refine hs.rewritten hw (failed w reason nowIso) rfl rfl (fun _ h => OrderedMap.isSome_get?_set h _ _) ?_ ?_
  · intro u
    simp only [refunded, lockedIn_set, accountOf_locked, hclosed, reserves_of_active hactive]
    split
    · next h => rw [h]; ring
    · ring
  · simp only [refunded, heldIn_set, accountOf_locked, accountOf_balance, hpays, paysOut_of_active hactive]
    ring

/-- every move keeps the books sound -/
theorem Move.sound (huuid : Function.Injective rt.uuid) (hm : Move rt admits s s')
    (hs : Sound rt s) : Sound rt s' := by
  cases hm with
  | frame same => exact hs.sameBooks same
  | opened userId nowIso =>
    rw [opened_eq]
    exact hs.withAccounts (lockedIn_opened s userId · nowIso) (heldIn_opened s userId nowIso)
  | @accountTouched userId a found a' balance locked =>
    refine hs.withAccounts (fun u => ?_) ?_
    · rw [lockedIn_set]
      split
      · next h => rw [← h, lockedIn, found, locked]; rfl
      · rfl
    · simp only [heldIn_set, balanceIn, lockedIn, found, balance, locked, Option.elim_some]
      ring
  | deposited new => exact hs.deposited new
  | depositTouched found d' amount =>
    refine ⟨hs.recorded, hs.drawn, hs.requested, hs.transfers, hs.locked, hs.balanced.trans ?_⟩
    simp only [recordedDeposits, recordedCredits, paidOut, OrderedMap.sum_set_old _ found, amount]
    ring
  | credited new => exact hs.credited new
  | transferred distinct => exact hs.transferred distinct
  | reserved => exact hs.reserved huuid _
  | touched found w' same => exact hs.touched found same
  | settled found status => exact hs.settled found (by rw [status]; rfl) _ _
  | released found active => exact hs.released found active _ _ _

/-! ## moves of positive amounts keep them solvent -/

theorem Solvent.new (limits : WithdrawalLimitConfig) : Solvent (new limits) where
  balance_nonneg := fun _ => le_refl 0
  amount_pos := by intro id w h; cases h

/-- an active withdrawal is covered by what its user has locked -/
theorem Solvent.covered (hp : Solvent s) (hs : Sound rt s) {id : String} {w : Withdrawal}
    (hw : s.withdrawals.get? id = some w) (hactive : w.status.isActive = true) :
    w.amount ≤ s.lockedOf w.userId := by
  have hall : ∀ v ∈ s.withdrawals.values, 0 ≤ reserves w.userId v := by
    intro v hv
    obtain ⟨j, hj⟩ := s.withdrawals.mem_values.mp hv
    exact reserves_nonneg (hp.amount_pos j v hj)
  have hle := OrderedMap.le_sum s.withdrawals hall hw
  rw [reserves_of_active hactive, if_pos rfl] at hle
  rw [hs.locked]
  exact hle

theorem Solvent.touched (hp : Solvent s) {id : String} {w w' : Withdrawal}
    (hw : s.withdrawals.get? id = some w) (hamount : w'.amount = w.amount) (j : String)
    (v : Withdrawal) (hv : (s.withdrawals.set id w').get? j = some v) : 0 < v.amount := by
  rw [OrderedMap.get?_set] at hv
  split at hv
  · obtain rfl := Option.some.inj hv
    rw [hamount]
    exact hp.amount_pos id w hw
  · exact hp.amount_pos j v hv

/-- every move of a positive amount keeps the books solvent -/
theorem Move.solvent (hm : Move rt (0 < ·) s s') (hp : Solvent s) : Solvent s' := by
  cases hm with
  | frame same =>
    constructor
    · intro u
      rw [balanceOf, same.accounts]
      exact hp.balance_nonneg u
    · rw [same.withdrawals]
      exact hp.amount_pos
  | opened userId nowIso =>
    rw [opened_eq]
    exact ⟨fun u => (hp.balance_nonneg u).trans_eq (balanceIn_opened s userId u nowIso).symm,
      hp.amount_pos⟩
  | @accountTouched userId a found a' balance locked =>
    refine ⟨fun u => ?_, hp.amount_pos⟩
    simp only [balanceOf, balanceIn_set]
    split
    · have h := hp.balance_nonneg userId
      rw [balanceOf, balanceIn, found] at h
      rw [balance]
      exact h
    · exact hp.balance_nonneg u
  | deposited new admitted =>
    refine ⟨fun u => ?_, hp.amount_pos⟩
    have h := hp.balance_nonneg u
    simp only [balanceOf, InMemoryLedger.deposited, balanceIn_set, accountOf_balance] at h ⊢
    split
    · next hu => rw [hu]; omega
    · exact h
  | depositTouched => exact ⟨hp.balance_nonneg, hp.amount_pos⟩
  | credited new admitted =>
    refine ⟨fun u => ?_, hp.amount_pos⟩
    have h := hp.balance_nonneg u
    simp only [balanceOf, InMemoryLedger.credited, balanceIn_set, accountOf_balance] at h ⊢
    split
    · next hu => rw [hu]; omega
    · exact h
  | @transferred input distinct funds admitted =>
    refine ⟨fun u => ?_, hp.amount_pos⟩
    have h := hp.balance_nonneg u
    simp only [balanceOf, balanceIn_transferred distinct] at h funds ⊢
    have hto : 0 ≤ if u = input.toUserId then input.amount else 0 := by split <;> omega
    by_cases hfrom : u = input.fromUserId
    · rw [if_pos hfrom]
      rw [hfrom] at hto ⊢
      omega
    · rw [if_neg hfrom]
      omega
  | @reserved input funds admitted =>
    constructor
    · intro u
      have h := hp.balance_nonneg u
      simp only [balanceOf, InMemoryLedger.reserved, balanceIn_set, accountOf_balance] at h funds ⊢
      split
      · omega
      · exact h
    · intro id w hw
      simp only [InMemoryLedger.reserved, OrderedMap.get?_set] at hw
      split at hw
      · obtain rfl := Option.some.inj hw
        exact admitted
      · exact hp.amount_pos id w hw
  | touched found w' same => exact ⟨hp.balance_nonneg, hp.touched found same.amount⟩
  | @settled id w tx nowIso found status =>
    refine ⟨fun u => ?_, hp.touched found rfl⟩
    have h := hp.balance_nonneg u
    simp only [balanceOf, InMemoryLedger.settled, unlocked, balanceIn_set, accountOf_balance] at h ⊢
    split
    · next hu => rw [hu]; exact h
    · exact h
  | @released id w tx reason nowIso found active =>
    refine ⟨fun u => ?_, hp.touched found rfl⟩
    have h := hp.balance_nonneg u
    have hpos := hp.amount_pos id w found
    simp only [balanceOf, InMemoryLedger.released, refunded, balanceIn_set, accountOf_balance] at h ⊢
    split
    · next hu => rw [hu]; omega
    · exact h

end
end InMemoryLedger
