import CoinManage.Lib.Inverse
import CoinManage.InMemory.Calls

/-!
# Wallet bindings of the in-memory ledger

The ledger keeps the address of a user twice, in a map from users and in a map from addresses, and
copies it into the user's account.  The methods that look a wallet up read one map or the other.

* `getWalletBinding`, `resolveUserId`, `getAccountByWalletAddress`   the look-ups;
* `Bound`            the two maps are mutually inverse and every account shows its user's address;
* `KeepsBindings`    what every method other than `bindWalletAddress` does to the three tables;
* `run_bound`        the bindings after a run.
-/

namespace InMemoryLedger

/-! ## look-ups -/

def getWalletBinding (s : InMemoryLedger) (userId walletAddress : Option String) :
    Except LedgerError (Option WalletBinding) :=
  match truthy userId, truthy walletAddress with
  | some userId, _ => .ok (s.walletBindingsByUserId.get? userId)
  | none, some walletAddress =>
    match truthy (s.userIdByWalletAddress.get? walletAddress) with
    | none => .ok none
    | some userId => .ok (s.walletBindingsByUserId.get? userId)
  | none, none => .error (.domain 400 "VALIDATION_ERROR" "userId or walletAddress is required")

def resolveUserId (s : InMemoryLedger) (userId walletAddress : Option String) :
    Except LedgerError String :=
  match truthy userId, truthy walletAddress with
  | some userId, some walletAddress =>
    let boundUserId := truthy (s.userIdByWalletAddress.get? walletAddress)
    if boundUserId.isSome ∧ boundUserId ≠ some userId then
      .error (.domain 409 "ACCOUNT_REFERENCE_CONFLICT"
        "userId and walletAddress point to different accounts")
    else .ok userId
  | some userId, none => .ok userId
  | none, some walletAddress =>
    match truthy (s.userIdByWalletAddress.get? walletAddress) with
    | none =>
      .error (.domain 404 "WALLET_ADDRESS_NOT_FOUND" "wallet address is not bound to any user")
    | some userId => .ok userId
  | none, none => .error (.domain 400 "VALIDATION_ERROR" "userId or walletAddress is required")

def getAccountByWalletAddress (walletAddress nowIso : String) : Op Account := do
  let userId ← Method.ofExcept (resolveUserId (← get) none (some walletAddress))
  getAccount userId nowIso

/-- the address a user is bound to -/
def addressOf (s : InMemoryLedger) (userId : String) : Option String :=
  (s.walletBindingsByUserId.get? userId).map (·.walletAddress)

/-- An operation of the ledger.  The methods of the job, sweep, audit, fee and consumer tables stand
as any write that leaves the accounts and the two maps alone. -/
inductive Operation where
  | call (c : Call)
  | getAccountByWalletAddress (walletAddress nowIso : String)
  | recoverStaleProcessingOutboxEvents (threshold nowIso : String)
  | other (write : InMemoryLedger → InMemoryLedger)
      (frame : ∀ s, (write s).accounts = s.accounts ∧
        (write s).walletBindingsByUserId = s.walletBindingsByUserId ∧
        (write s).userIdByWalletAddress = s.userIdByWalletAddress)

/-- the store after an operation, whether it returned or threw -/
def Operation.step (rt : Runtime) : Operation → InMemoryLedger → InMemoryLedger
  | .call c, s => c.step rt s
  | .getAccountByWalletAddress walletAddress nowIso, s =>
    (InMemoryLedger.getAccountByWalletAddress walletAddress nowIso s).2
  | .recoverStaleProcessingOutboxEvents threshold nowIso, s =>
    (InMemoryLedger.recoverStaleProcessingOutboxEvents threshold nowIso s).2
  | .other write _, s => write s

/-! ## what a binding writes -/

section
variable {rt : Runtime} {s s' : InMemoryLedger}

/-- the store once the user is bound to the address -/
def boundTo (s : InMemoryLedger) (userId walletAddress nowIso : String) : InMemoryLedger :=
  { s with
    walletBindingsByUserId := s.walletBindingsByUserId.set userId
      { userId := userId
        walletAddress := walletAddress
        createdAt := ((s.walletBindingsByUserId.get? userId).map (·.createdAt)).getD nowIso }
    userIdByWalletAddress := (OrderedMap.unlink (·.walletAddress)
      (s.walletBindingsByUserId.get? userId) walletAddress s.userIdByWalletAddress).set walletAddress userId
    accounts := match s.accounts.get? userId with
      | some account => s.accounts.set userId { account with walletAddress := some walletAddress }
      | none => s.accounts }

theorem forgetPreviousAddress_apply (previous : Option WalletBinding) (walletAddress : String) :
    forgetPreviousAddress previous walletAddress s = (.ok (),
      { s with
        userIdByWalletAddress :=
          OrderedMap.unlink (·.walletAddress) previous walletAddress s.userIdByWalletAddress }) := by
  cases previous with
  | none => rfl
  | some previous =>
    rw [forgetPreviousAddress, Method.ite_apply, OrderedMap.unlink]
    split <;> rfl

theorem bindWalletAddress_apply (userId walletAddress nowIso : String) :
    (InMemoryLedger.bindWalletAddress userId walletAddress nowIso s).2 =
      if (truthy (s.userIdByWalletAddress.get? walletAddress)).isSome ∧
          truthy (s.userIdByWalletAddress.get? walletAddress) ≠ some userId then s
      else s.boundTo userId walletAddress nowIso := by
  simp only [InMemoryLedger.bindWalletAddress, Method.get_bind, Method.ite_apply]
  split
  · rfl
  · rw [Method.bind_ok _ (forgetPreviousAddress_apply _ _), Method.modify_bind, Method.bind_apply,
      setAccountWalletAddress, Method.get_bind, boundTo]
    cases s.accounts.get? userId <;> rfl

/-! ## the invariant -/

/-- every stored account is its user's and shows the address the user is bound to -/
def Shows (s : InMemoryLedger) : Prop :=
  ∀ u account, s.accounts.get? u = some account →
    account.userId = u ∧ account.walletAddress = s.addressOf u

structure Bound (s : InMemoryLedger) : Prop where
  inverse : OrderedMap.Inverse (·.walletAddress) s.walletBindingsByUserId s.userIdByWalletAddress
  named : ∀ a, s.userIdByWalletAddress.get? a ≠ some ""
  own : ∀ u binding, s.walletBindingsByUserId.get? u = some binding → binding.userId = u
  shows : Shows s

/-- what a method that binds nothing does to the accounts and the bindings -/
structure KeepsBindings (s s' : InMemoryLedger) : Prop where
  bindings : s'.walletBindingsByUserId = s.walletBindingsByUserId
  addresses : s'.userIdByWalletAddress = s.userIdByWalletAddress
  shows : Shows s → Shows s'

theorem KeepsBindings.refl (s : InMemoryLedger) : KeepsBindings s s := ⟨rfl, rfl, id⟩

theorem KeepsBindings.trans {s₁ s₂ s₃ : InMemoryLedger} (h : KeepsBindings s₁ s₂)
    (h' : KeepsBindings s₂ s₃) : KeepsBindings s₁ s₃ :=
  ⟨h'.bindings.trans h.bindings, h'.addresses.trans h.addresses, fun hs => h'.shows (h.shows hs)⟩

theorem KeepsBindings.addressOf (h : KeepsBindings s s') (u : String) : s'.addressOf u = s.addressOf u := by
  rw [InMemoryLedger.addressOf, h.bindings, InMemoryLedger.addressOf]

/-- a write of other tables -/
theorem KeepsBindings.frame {s'' : InMemoryLedger} (h : KeepsBindings s s')
    (ha : s''.accounts = s'.accounts) (hb : s''.walletBindingsByUserId = s'.walletBindingsByUserId)
    (hu : s''.userIdByWalletAddress = s'.userIdByWalletAddress) : KeepsBindings s s'' := by
  refine h.trans ⟨hb, hu, fun hs u account haccount => ?_⟩
  rw [ha] at haccount
  rw [InMemoryLedger.addressOf, hb]
  exact hs u account haccount

/-- a write of one account that keeps its user and its address -/
theorem KeepsBindings.write {u : String} {account : Account} (ha : s'.accounts = s.accounts.set u account)
    (hb : s'.walletBindingsByUserId = s.walletBindingsByUserId)
    (hu : s'.userIdByWalletAddress = s.userIdByWalletAddress)
    (haccount : Shows s → account.userId = u ∧ account.walletAddress = s.addressOf u) :
    KeepsBindings s s' := by
  refine ⟨hb, hu, fun hs v other hv => ?_⟩
  rw [ha, OrderedMap.get?_set] at hv
  rw [InMemoryLedger.addressOf, hb]
  split at hv
  · next h =>
    subst h
    obtain rfl := Option.some.inj hv
    exact haccount hs
  · exact hs v other hv

theorem Shows.accountOf (hs : Shows s) (userId nowIso : String) :
    (s.accountOf userId nowIso).userId = userId ∧
      (s.accountOf userId nowIso).walletAddress = s.addressOf userId := by
  rw [InMemoryLedger.accountOf]
  cases h : s.accounts.get? userId with
  | none => exact ⟨rfl, rfl⟩
  | some account => exact hs userId account h

theorem KeepsBindings.opened (userId nowIso : String) : KeepsBindings s (s.opened userId nowIso) := by
  rw [InMemoryLedger.opened]
  cases s.accounts.get? userId with
  | some account => exact KeepsBindings.refl s
  | none => exact KeepsBindings.write rfl rfl rfl fun _ => ⟨rfl, rfl⟩

theorem KeepsBindings.announced (h : KeepsBindings s s') (w : Withdrawal) (id occurredAt : String)
    {α : Type} (reply : α) : KeepsBindings s (s'.announced rt w id occurredAt reply).2 := by
  rw [InMemoryLedger.announced]
  cases buildWithdrawalStateChangedContract rt w occurredAt with
  | ok contract => exact h.frame rfl rfl rfl
  | error e => exact h

theorem KeepsBindings.replying {α β : Type} {m : Op α} (h : KeepsBindings s (m s).2) (f : α → β) :
    KeepsBindings s ((m >>= fun a => pure (f a) : Op β) s).2 := by
  rw [Method.bind_pure_store]
  exact h

/-! ## every method but one keeps the bindings -/

theorem getAccount_keeps (userId nowIso : String) :
    KeepsBindings s (InMemoryLedger.getAccount userId nowIso s).2 := by
  rw [InMemoryLedger.getAccount, Method.bind_ok _ (getMutableAccount_apply s _ _)]
  exact KeepsBindings.opened userId nowIso

theorem getAccountByWalletAddress_keeps (walletAddress nowIso : String) :
    KeepsBindings s (InMemoryLedger.getAccountByWalletAddress walletAddress nowIso s).2 := by
  rw [InMemoryLedger.getAccountByWalletAddress, Method.get_bind, Method.ofExcept_bind]
  cases s.resolveUserId none (some walletAddress) with
  | ok userId => exact getAccount_keeps userId nowIso
  | error e => exact KeepsBindings.refl s

theorem applyDeposit_keeps (input : DepositInput) :
    KeepsBindings s (InMemoryLedger.applyDeposit rt input s).2 := by
  cases h : s.depositsByTxHash.get? input.txHash with
  | some existing =>
    rw [applyDeposit_duplicated rt s h]
    exact KeepsBindings.refl s
  | none =>
    have hk : KeepsBindings s (s.deposited rt input) :=
      KeepsBindings.write rfl rfl rfl fun hs => hs.accountOf input.userId input.nowIso
    rw [applyDeposit_new rt s h]
    cases buildDepositStateChangedContract rt (s.depositChange rt input) with
    | ok contract => exact hk.frame rfl rfl rfl
    | error e => exact hk

theorem completeDeposit_keeps (depositId : String) :
    KeepsBindings s (InMemoryLedger.completeDeposit depositId s).2 := by
  simp only [InMemoryLedger.completeDeposit, Method.get_bind]
  cases s.depositsByTxHash.entries.find? fun entry => entry.2.depositId = depositId with
  | none => exact KeepsBindings.refl s
  | some entry =>
    simp only [Method.ite_apply]
    split
    · exact KeepsBindings.refl s
    · exact (KeepsBindings.refl s).frame rfl rfl rfl

theorem applyExternalCredit_keeps (input : ExternalCreditInput) :
    KeepsBindings s (InMemoryLedger.applyExternalCredit rt input s).2 := by
  rw [applyExternalCredit_apply]
  split
  · exact KeepsBindings.refl s
  · split
    · exact KeepsBindings.refl s
    · exact KeepsBindings.write rfl rfl rfl fun hs => hs.accountOf input.userId input.nowIso

theorem transferred_keeps (input : TransferInput) : KeepsBindings s (s.transferred rt input) := by
  refine ⟨rfl, rfl, fun hs => ?_⟩
  have hfrom : KeepsBindings s (s.opened input.fromUserId input.nowIso) := KeepsBindings.opened _ _
  have hboth := hfrom.trans (KeepsBindings.opened input.toUserId input.nowIso)
  have hsource := hs.accountOf input.fromUserId input.nowIso
  have htarget := (hfrom.shows hs).accountOf input.toUserId input.nowIso
  rw [hfrom.addressOf] at htarget
  -- the two writes, one after the other, from the store in which both accounts exist
  intro v account hv
  show account.userId = v ∧ account.walletAddress = s.addressOf v
  have hv' := hv
  simp only [transferred, OrderedMap.get?_set] at hv'
  split at hv'
  · next h =>
    subst h
    obtain rfl := Option.some.inj hv'
    exact htarget
  · split at hv'
    · next h =>
      subst h
      obtain rfl := Option.some.inj hv'
      exact hsource
    · rw [← hboth.addressOf]
      exact hboth.shows hs v account hv'

theorem transfer_keeps (input : TransferInput) :
    KeepsBindings s (InMemoryLedger.transfer rt input s).2 := by
  rw [transfer_apply]
  cases s.transferByIdempotencyKey.get? input.idempotencyKey with
  | some existing =>
    simp only
    split <;> exact KeepsBindings.refl s
  | none =>
    simp only
    split
    · exact KeepsBindings.refl s
    · split
      · exact (KeepsBindings.opened _ _).trans (KeepsBindings.opened _ _)
      · exact transferred_keeps input

theorem requestWithdrawal_keeps (input : WithdrawalInput) :
    KeepsBindings s (InMemoryLedger.requestWithdrawal rt input s).2 := by
  rw [requestWithdrawal_apply]
  cases truthy (s.withdrawalByIdempotencyKey.get? input.idempotencyKey) with
  | some existingId =>
    simp only
    split <;> exact KeepsBindings.refl s
  | none =>
    simp only
    split
    · exact KeepsBindings.refl s
    · split
      · exact KeepsBindings.refl s
      · split
        · exact KeepsBindings.opened _ _
        · have hk : KeepsBindings s (s.reserved rt input) :=
            KeepsBindings.write rfl rfl rfl fun hs => hs.accountOf input.userId input.nowIso
          exact hk.announced _ _ _ _

/-- the methods of the withdrawal lifecycle that write withdrawals only -/
theorem withWithdrawal_keeps (id : String) (w : Withdrawal) : KeepsBindings s (s.withWithdrawal id w) :=
  (KeepsBindings.refl s).frame rfl rfl rfl

theorem confirmWithdrawalExternalAuth_keeps (id provider requestId nowIso : String) :
    KeepsBindings s
      (InMemoryLedger.confirmWithdrawalExternalAuth rt id provider requestId nowIso s).2 := by
  rw [confirmWithdrawalExternalAuth_apply]
  cases s.withdrawals.get? id with
  | none => exact KeepsBindings.refl s
  | some w =>
    simp only
    split
    · exact (withWithdrawal_keeps id _).announced _ _ _ _
    · split <;> exact KeepsBindings.refl s

theorem markWithdrawalReviewRequired_keeps (id nowIso : String) :
    KeepsBindings s (InMemoryLedger.markWithdrawalReviewRequired id nowIso s).2 := by
  rw [markWithdrawalReviewRequired_apply]
  cases s.withdrawals.get? id with
  | none => exact KeepsBindings.refl s
  | some w =>
    simp only
    split
    · exact KeepsBindings.refl s
    · exact withWithdrawal_keeps id _

theorem approveWithdrawal_keeps (id : String) (input : ApprovalInput) (nowIso : String) :
    KeepsBindings s (InMemoryLedger.approveWithdrawal rt id input nowIso s).2 := by
  rw [approveWithdrawal_apply]
  cases s.withdrawals.get? id with
  | none => exact KeepsBindings.refl s
  | some w =>
    simp only
    split
    · exact KeepsBindings.refl s
    · split
      · exact KeepsBindings.refl s
      · have hk : KeepsBindings s (s.approved rt id w input nowIso) :=
          (KeepsBindings.refl s).frame rfl rfl rfl
        exact hk.announced _ _ _ _

theorem broadcastWithdrawal_keeps (id txHash nowIso : String) :
    KeepsBindings s (InMemoryLedger.broadcastWithdrawal rt id txHash nowIso s).2 := by
  rw [broadcastWithdrawal_apply]
  cases s.withdrawals.get? id with
  | none => exact KeepsBindings.refl s
  | some w =>
    simp only
    split
    · exact KeepsBindings.refl s
    · exact (withWithdrawal_keeps id _).announced _ _ _ _

theorem withNetworkFee_keeps (h : KeepsBindings s s') (id : String) (txHash : Option String)
    (networkFee : Option NetworkFee) (nowIso : String) :
    KeepsBindings s (s'.withNetworkFee id txHash networkFee nowIso) := by
  unfold withNetworkFee
  cases networkFee with
  | none => exact h
  | some fee =>
    cases truthy txHash with
    | none => exact h
    | some txHash => exact h.frame rfl rfl rfl

theorem confirmWithdrawal_keeps (id : String) (networkFee : Option NetworkFee) (nowIso : String) :
    KeepsBindings s (InMemoryLedger.confirmWithdrawal rt id networkFee nowIso s).2 := by
  rw [confirmWithdrawal_apply]
  cases s.withdrawals.get? id with
  | none => exact KeepsBindings.refl s
  | some w =>
    have hk : KeepsBindings s (s.unlocked w nowIso) :=
      KeepsBindings.write rfl rfl rfl fun hs => hs.accountOf w.userId nowIso
    simp only
    split
    · exact KeepsBindings.refl s
    · split
      · exact KeepsBindings.opened _ _
      · cases s.transactions.get? w.ledgerTxId with
        | none => exact hk
        | some tx =>
          have hsettled : KeepsBindings s (s.settled id w tx nowIso) := hk.frame rfl rfl rfl
          exact (withNetworkFee_keeps hsettled _ _ _ _).announced _ _ _ _

theorem failWithdrawal_keeps (id reason nowIso : String) :
    KeepsBindings s (InMemoryLedger.failWithdrawal rt id reason nowIso s).2 := by
  rw [failWithdrawal_apply]
  cases s.withdrawals.get? id with
  | none => exact KeepsBindings.refl s
  | some w =>
    have hk : KeepsBindings s (s.refunded w nowIso) :=
      KeepsBindings.write rfl rfl rfl fun hs => hs.accountOf w.userId nowIso
    simp only
    split
    · exact KeepsBindings.refl s
    · split
      · exact KeepsBindings.opened _ _
      · cases s.transactions.get? w.ledgerTxId with
        | none => exact hk
        | some tx =>
          have hreleased : KeepsBindings s (s.released id w tx reason nowIso) := hk.frame rfl rfl rfl
          exact hreleased.announced _ _ _ _

theorem updateEvents_keeps (events : List OutboxEvent) (f : OutboxEvent → OutboxEvent) :
    Method.Keeps KeepsBindings (updateEvents events f) :=
  Method.Keeps.modify fun s => (KeepsBindings.refl s).frame rfl rfl rfl

theorem updateEvent_keeps (outboxEventId : String) (f : OutboxEvent → OutboxEvent) :
    Method.Keeps KeepsBindings (updateEvent outboxEventId f) := by
  intro s
  simp only [updateEvent, Method.get_bind]
  cases s.outboxEvents.get? outboxEventId with
  | none => exact KeepsBindings.refl s
  | some event => exact (KeepsBindings.refl s).frame rfl rfl rfl

theorem recoverStaleProcessingOutboxEvents_keeps (threshold nowIso : String) :
    KeepsBindings s (InMemoryLedger.recoverStaleProcessingOutboxEvents threshold nowIso s).2 :=
  updateEvents_keeps _ (OutboxEvent.recover nowIso) s

theorem Call.keeps (c : Call) (h : ∀ u a nowIso, c ≠ .bindWalletAddress u a nowIso) :
    KeepsBindings s (c.step rt s) := by
  cases c with
  | bindWalletAddress u a nowIso => exact absurd rfl (h u a nowIso)
  | getAccount userId nowIso => exact (getAccount_keeps userId nowIso).replying _
  | applyDeposit input => exact (applyDeposit_keeps input).replying _
  | completeDeposit depositId => exact (completeDeposit_keeps depositId).replying _
  | applyExternalCredit input => exact (applyExternalCredit_keeps input).replying _
  | transfer input => exact (transfer_keeps input).replying _
  | requestWithdrawal input => exact (requestWithdrawal_keeps input).replying _
  | confirmWithdrawalExternalAuth id provider requestId nowIso =>
    exact (confirmWithdrawalExternalAuth_keeps id provider requestId nowIso).replying _
  | markWithdrawalReviewRequired id nowIso =>
    exact (markWithdrawalReviewRequired_keeps id nowIso).replying _
  | approveWithdrawal id input nowIso =>
    exact (approveWithdrawal_keeps id input nowIso).replying _
  | broadcastWithdrawal id txHash nowIso =>
    exact (broadcastWithdrawal_keeps id txHash nowIso).replying _
  | confirmWithdrawal id networkFee nowIso =>
    exact (confirmWithdrawal_keeps id networkFee nowIso).replying _
  | failWithdrawal id reason nowIso => exact (failWithdrawal_keeps id reason nowIso).replying _
  | claimPendingOutboxEvents limit nowIso =>
    have hk : KeepsBindings s (InMemoryLedger.claimPendingOutboxEvents rt limit nowIso s).2 :=
      updateEvents_keeps _ (OutboxEvent.claim nowIso) s
    exact hk.replying _
  | markOutboxEventPublished id nowIso =>
    exact (updateEvent_keeps id (OutboxEvent.publish nowIso) s).replying _
  | rescheduleOutboxEvent id error availableAt => exact (updateEvent_keeps id _ s).replying _
  | deadLetterOutboxEvent id error deadLetteredAt =>
    exact (updateEvent_keeps id (OutboxEvent.deadLetter error deadLetteredAt) s).replying _
  | replayOutboxEvents input =>
    have hk : KeepsBindings s (InMemoryLedger.replayOutboxEvents rt input s).2 :=
      updateEvents_keeps _ (OutboxEvent.replay input.nowIso) s
    exact hk.replying _
  | acknowledgeDeadLetterOutboxEvents input =>
    have hk : KeepsBindings s (InMemoryLedger.acknowledgeDeadLetterOutboxEvents rt input s).2 :=
      updateEvents_keeps _ (OutboxEvent.acknowledge input) s
    exact hk.replying _

theorem Operation.keeps (op : Operation) (h : ∀ u a nowIso, op ≠ .call (.bindWalletAddress u a nowIso)) :
    KeepsBindings s (op.step rt s) := by
  cases op with
  | call c => exact c.keeps fun u a nowIso hc => h u a nowIso (congrArg Operation.call hc)
  | getAccountByWalletAddress walletAddress nowIso =>
    exact getAccountByWalletAddress_keeps walletAddress nowIso
  | recoverStaleProcessingOutboxEvents threshold nowIso =>
    exact recoverStaleProcessingOutboxEvents_keeps threshold nowIso
  | other write frame =>
    obtain ⟨ha, hb, hu⟩ := frame s
    exact (KeepsBindings.refl s).frame ha hb hu

/-! ## bindings -/

theorem truthy_of_ne {o : Option String} (h : o ≠ some "") : truthy o = o := by
  unfold truthy
  split
  · exact absurd rfl h
  · rfl

theorem addressOf_boundTo (userId walletAddress nowIso u : String) :
    (s.boundTo userId walletAddress nowIso).addressOf u =
      if userId = u then some walletAddress else s.addressOf u := by
  rw [addressOf, boundTo, OrderedMap.get?_set]
  split <;> rfl

theorem Bound.keeps (h : Bound s) (hk : KeepsBindings s s') : Bound s' := by
  refine ⟨?_, ?_, ?_, hk.shows h.shows⟩
  · rw [hk.bindings, hk.addresses]
    exact h.inverse
  · rw [hk.addresses]
    exact h.named
  · rw [hk.bindings]
    exact h.own

theorem Bound.boundTo (h : Bound s) {userId walletAddress : String} (nowIso : String)
    (huser : userId ≠ "")
    (hfree : ∀ u, s.userIdByWalletAddress.get? walletAddress = some u → u = userId) :
    Bound (s.boundTo userId walletAddress nowIso) := by
  refine ⟨h.inverse.rebind hfree, ?_, ?_, ?_⟩
  · intro a
    show ((OrderedMap.unlink _ _ _ _).set walletAddress userId).get? a ≠ some ""
    rw [OrderedMap.get?_set]
    split
    · simpa using huser
    · rw [OrderedMap.get?_unlink]
      split
      · simp
      · exact h.named a
  · intro u binding hb
    change (s.walletBindingsByUserId.set userId _).get? u = some binding at hb
    rw [OrderedMap.get?_set] at hb
    split at hb
    · next hu =>
      obtain rfl := Option.some.inj hb
      exact hu
    · exact h.own u binding hb
  · intro u account hu
    rw [addressOf_boundTo]
    cases hold : s.accounts.get? userId with
    | none =>
      rw [InMemoryLedger.boundTo, hold] at hu
      have hne : userId ≠ u := by
        rintro rfl
        rw [hold] at hu
        cases hu
      rw [if_neg hne]
      exact h.shows u account hu
    | some old =>
      rw [InMemoryLedger.boundTo, hold] at hu
      change (s.accounts.set userId _).get? u = some account at hu
      rw [OrderedMap.get?_set] at hu
      split at hu
      · next hu' =>
        obtain rfl := Option.some.inj hu
        rw [if_pos hu']
        exact ⟨(h.shows userId old hold).1.trans hu', rfl⟩
      · next hu' =>
        rw [if_neg hu']
        exact h.shows u account hu

/-- a binding either finds the address taken and changes nothing, or writes all three tables -/
theorem Bound.bind_cases (h : Bound s) (userId walletAddress nowIso : String) :
    (InMemoryLedger.bindWalletAddress userId walletAddress nowIso s).2 = s ∨
      (InMemoryLedger.bindWalletAddress userId walletAddress nowIso s).2 =
          s.boundTo userId walletAddress nowIso ∧
        ∀ u, s.userIdByWalletAddress.get? walletAddress = some u → u = userId := by
  rw [bindWalletAddress_apply, truthy_of_ne (h.named walletAddress)]
  split
  · exact Or.inl rfl
  · next hopen =>
    refine Or.inr ⟨rfl, fun u hu => ?_⟩
    by_contra hne
    apply hopen
    rw [hu]
    exact ⟨rfl, fun h' => hne (Option.some.inj h')⟩

theorem Bound.new (limits : WithdrawalLimitConfig) : Bound (new limits) := by
  refine ⟨OrderedMap.Inverse.empty, ?_, ?_, ?_⟩
  · intro a h
    cases h
  · intro u binding h
    cases h
  · intro u account h
    cases h

/-- a binding, if it is one, names a user -/
def Operation.Named : Operation → Prop
  | .call (.bindWalletAddress userId _ _) => userId ≠ ""
  | _ => True

theorem Operation.binds_or_keeps (rt : Runtime) (s : InMemoryLedger) (op : Operation) :
    (∃ u a nowIso, op = .call (.bindWalletAddress u a nowIso)) ∨ KeepsBindings s (op.step rt s) := by
  by_cases h : ∃ u a nowIso, op = .call (.bindWalletAddress u a nowIso)
  · exact Or.inl h
  · exact Or.inr (op.keeps fun u a nowIso hop => h ⟨u, a, nowIso, hop⟩)

theorem bind_step (u a nowIso : String) :
    Operation.step rt (.call (.bindWalletAddress u a nowIso)) s =
      (InMemoryLedger.bindWalletAddress u a nowIso s).2 :=
  Method.bind_pure_store _ _ _

theorem Bound.step (op : Operation) (hnamed : op.Named) (h : Bound s) : Bound (op.step rt s) := by
  rcases Operation.binds_or_keeps rt s op with ⟨u, a, nowIso, rfl⟩ | hk
  · rw [bind_step]
    rcases h.bind_cases u a nowIso with hsame | ⟨hbound, hfree⟩
    · rw [hsame]
      exact h
    · rw [hbound]
      exact h.boundTo nowIso hnamed hfree
  · exact h.keeps hk

/-- the maps are inverse and the accounts show the bindings, after every run whose bindings name a user -/
theorem run_bound (limits : WithdrawalLimitConfig) {ops : List Operation} (hnamed : ∀ op ∈ ops, op.Named) :
    Bound (runCalls (Operation.step rt) ops (InMemoryLedger.new limits)) :=
  run_invariant (fun op _ hop h => h.step op hop) hnamed (Bound.new limits)

/-- a user keeps the address unless the operation is a binding of theirs -/
theorem Bound.kept (h : Bound s) (op : Operation) {u a : String} (hua : s.addressOf u = some a)
    (hother : ∀ b nowIso, op ≠ .call (.bindWalletAddress u b nowIso)) :
    (op.step rt s).addressOf u = some a := by
  rcases Operation.binds_or_keeps rt s op with ⟨v, b, nowIso, rfl⟩ | hk
  · rw [bind_step]
    rcases h.bind_cases v b nowIso with hsame | ⟨hbound, -⟩
    · rw [hsame]
      exact hua
    · have hne : v ≠ u := by
        rintro rfl
        exact hother b nowIso rfl
      rw [hbound, addressOf_boundTo, if_neg hne]
      exact hua
  · rw [hk.addressOf]
    exact hua

/-! ## the three look-ups by address -/

theorem resolveUserId_address (h : Bound s) (a u : String) :
    s.resolveUserId none (some a) = .ok u ↔ a ≠ "" ∧ s.userIdByWalletAddress.get? a = some u := by
  by_cases ha : a = ""
  · subst ha
    simp [resolveUserId, truthy]
  · have hta : truthy (some a) = some a := truthy_of_ne fun h' => ha (Option.some.inj h')
    have hnone : truthy none = none := rfl
    simp only [resolveUserId, hnone, hta, truthy_of_ne (h.named a)]
    cases s.userIdByWalletAddress.get? a with
    | none => simp
    | some v => simp [ha]

theorem getWalletBinding_address (h : Bound s) (a u : String) :
    (∃ binding, s.getWalletBinding none (some a) = .ok (some binding) ∧ binding.userId = u) ↔
      a ≠ "" ∧ s.userIdByWalletAddress.get? a = some u := by
  by_cases ha : a = ""
  · subst ha
    simp [getWalletBinding, truthy]
  · have hta : truthy (some a) = some a := truthy_of_ne fun h' => ha (Option.some.inj h')
    have hnone : truthy none = none := rfl
    simp only [getWalletBinding, hnone, hta, truthy_of_ne (h.named a)]
    cases hv : s.userIdByWalletAddress.get? a with
    | none => simp
    | some v =>
      obtain ⟨binding, hb, -⟩ := Option.map_eq_some_iff.mp ((h.inverse v a).mpr hv)
      have hid : binding.userId = v := h.own v binding hb
      simp [hb, hid, ha]

theorem getAccountByWalletAddress_names (h : Bound s) (a nowIso u : String) :
    (∃ account, (InMemoryLedger.getAccountByWalletAddress a nowIso s).1 = .ok account ∧
        account.userId = u) ↔
      a ≠ "" ∧ s.userIdByWalletAddress.get? a = some u := by
  rw [← resolveUserId_address h, InMemoryLedger.getAccountByWalletAddress, Method.get_bind,
    Method.ofExcept_bind]
  cases s.resolveUserId none (some a) with
  | error e => simp
  | ok v =>
    show (∃ account, (getAccount v nowIso s).1 = .ok account ∧ account.userId = u) ↔ _
    rw [getAccount, Method.bind_ok _ (getMutableAccount_apply s _ _)]
    have hid : (s.accountOf v nowIso).userId = v := (h.shows.accountOf v nowIso).1
    simp [hid]

end

/-- After every sequence of operations whose bindings name a user: the two maps are mutually inverse,
every stored account shows its user's address, no operation takes an address away from a user it does
not bind, and the three look-ups by an address name the same user. -/
theorem run_bindings (rt : Runtime) (limits : WithdrawalLimitConfig) (ops : List Operation)
    (hnamed : ∀ op ∈ ops, op.Named) :
    let s := runCalls (Operation.step rt) ops (new limits)
    (∀ u a, s.addressOf u = some a ↔ s.userIdByWalletAddress.get? a = some u) ∧
    (∀ op : Operation, op.Named → ∀ u a, s.addressOf u = some a →
      (∀ b nowIso, op ≠ .call (.bindWalletAddress u b nowIso)) →
      (op.step rt s).addressOf u = some a ∧
        (op.step rt s).userIdByWalletAddress.get? a = some u) ∧
    (∀ u account, s.accounts.get? u = some account →
      account.userId = u ∧ account.walletAddress = s.addressOf u) ∧
    (∀ a u nowIso,
      (s.resolveUserId none (some a) = .ok u ↔ a ≠ "" ∧ s.userIdByWalletAddress.get? a = some u) ∧
      ((∃ binding, s.getWalletBinding none (some a) = .ok (some binding) ∧ binding.userId = u) ↔
        a ≠ "" ∧ s.userIdByWalletAddress.get? a = some u) ∧
      ((∃ account, (getAccountByWalletAddress a nowIso s).1 = .ok account ∧ account.userId = u) ↔
        a ≠ "" ∧ s.userIdByWalletAddress.get? a = some u)) := by
  intro s
  have h : Bound s := run_bound limits hnamed
  refine ⟨fun u a => h.inverse u a, ?_, h.shows, fun a u nowIso => ?_⟩
  · intro op hop u a hua hother
    have hkept : (op.step rt s).addressOf u = some a := h.kept op hua hother
    exact ⟨hkept, ((h.step op hop).inverse u a).mp hkept⟩
  · exact ⟨resolveUserId_address h a u, getWalletBinding_address h a u,
      getAccountByWalletAddress_names h a nowIso u⟩

/-- two users, one of whom moves to another address; then the other takes the first one -/
def exampleBindings : List Operation :=
  [.call (.bindWalletAddress "alice" "TAlpha" "2026-01-01T00:00:00.000Z"),
   .call (.getAccount "alice" "2026-01-01T00:00:00.000Z"),
   .call (.bindWalletAddress "bob" "TAlpha" "2026-01-01T00:00:01.000Z"),
   .call (.bindWalletAddress "alice" "TBeta" "2026-01-01T00:00:02.000Z"),
   .call (.bindWalletAddress "bob" "TAlpha" "2026-01-01T00:00:03.000Z")]

theorem run_bindings_example :
    (∀ op ∈ exampleBindings, op.Named) ∧
    (runCalls (Operation.step .numbered) exampleBindings (new ⟨0, 0⟩)).userIdByWalletAddress.get? "TAlpha" =
      some "bob" ∧
    (runCalls (Operation.step .numbered) exampleBindings (new ⟨0, 0⟩)).addressOf "bob" = some "TAlpha" := by
  have hnamed : ∀ op ∈ exampleBindings, op.Named := by simp [exampleBindings, Operation.Named]
  have h := run_bindings .numbered ⟨0, 0⟩ exampleBindings hnamed
  have hmap : (runCalls (Operation.step .numbered) exampleBindings
      (new ⟨0, 0⟩)).userIdByWalletAddress.get? "TAlpha" = some "bob" := by decide
  exact ⟨hnamed, hmap, (h.1 "bob" "TAlpha").mpr hmap⟩

/-- bound to the user with the empty name, an address counts as free: the next user takes it -/
theorem empty_user_loses_address :
    let s := runCalls (Operation.step .numbered)
      [.call (.bindWalletAddress "" "TAlpha" "2026-01-01T00:00:00.000Z"),
       .call (.bindWalletAddress "bob" "TAlpha" "2026-01-01T00:00:01.000Z")] (new ⟨0, 0⟩)
    s.addressOf "" = some "TAlpha" ∧ s.addressOf "bob" = some "TAlpha" ∧
      s.userIdByWalletAddress.get? "TAlpha" = some "bob" ∧
      ¬ ∀ u a, s.addressOf u = some a ↔ s.userIdByWalletAddress.get? a = some u := by
  intro s
  have hempty : s.addressOf "" = some "TAlpha" := by decide
  have hmap : s.userIdByWalletAddress.get? "TAlpha" = some "bob" := by decide
  refine ⟨hempty, by decide, hmap, fun h => ?_⟩
  have hback := (h "" "TAlpha").mp hempty
  rw [hmap] at hback
  simp at hback

end InMemoryLedger
