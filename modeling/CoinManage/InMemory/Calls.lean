import CoinManage.InMemory.Ledger

/-!
# Calls of the in-memory ledger

A run of the ledger is a list of calls executed one after the other, each of which returns a
reply or throws, and leaves a store either way.

For every method this module states what it does to a store, in terms of the store it leaves
behind once its own checks have passed (`deposited`, `credited`, `transferred`, `reserved`,
`settled`, `released`): whether the event is then enqueued or its contract refused is the only
thing left open.

* `applyDeposit_new`, `applyExternalCredit_apply`, `transfer_apply`, `requestWithdrawal_apply`, ...
  one equation for each method, with every way it goes;
* `announced`  how the methods of the withdrawal lifecycle end.
-/

namespace InMemoryLedger

inductive Call where
  | getAccount (userId nowIso : String)
  | bindWalletAddress (userId walletAddress nowIso : String)
  | applyDeposit (input : DepositInput)
  | completeDeposit (depositId : String)
  | applyExternalCredit (input : ExternalCreditInput)
  | transfer (input : TransferInput)
  | requestWithdrawal (input : WithdrawalInput)
  | confirmWithdrawalExternalAuth (withdrawalId provider requestId nowIso : String)
  | markWithdrawalReviewRequired (withdrawalId nowIso : String)
  | approveWithdrawal (withdrawalId : String) (input : ApprovalInput) (nowIso : String)
  | broadcastWithdrawal (withdrawalId txHash nowIso : String)
  | confirmWithdrawal (withdrawalId : String) (networkFee : Option NetworkFee) (nowIso : String)
  | failWithdrawal (withdrawalId reason nowIso : String)
  | claimPendingOutboxEvents (limit : Nat) (nowIso : String)
  | markOutboxEventPublished (outboxEventId nowIso : String)
  | rescheduleOutboxEvent (outboxEventId error availableAt : String)
  | deadLetterOutboxEvent (outboxEventId error deadLetteredAt : String)
  | replayOutboxEvents (input : ReplayInput)
  | acknowledgeDeadLetterOutboxEvents (input : AcknowledgeInput)

inductive Reply where
  | unit
  | account (account : Account)
  | binding (binding : WalletBinding)
  | depositApplied (result : DepositApplyResult)
  | deposit (deposit : Deposit)
  | credited (result : ExternalCreditApplyResult)
  | transferred (result : TransferResult)
  | requested (result : WithdrawalRequestResult)
  | withdrawal (withdrawal : Withdrawal)
  | approved (result : ApprovalDecisionResult)
  | events (events : List OutboxEvent)
  | count (n : Nat)
  deriving DecidableEq

section
variable (rt : Runtime)

def Call.exec : Call → Op Reply
  | .getAccount userId nowIso => do return .account (← InMemoryLedger.getAccount userId nowIso)
  | .bindWalletAddress userId walletAddress nowIso => do
    return .binding (← InMemoryLedger.bindWalletAddress userId walletAddress nowIso)
  | .applyDeposit input => do return .depositApplied (← InMemoryLedger.applyDeposit rt input)
  | .completeDeposit depositId => do return .deposit (← InMemoryLedger.completeDeposit depositId)
  | .applyExternalCredit input => do
    return .credited (← InMemoryLedger.applyExternalCredit rt input)
  | .transfer input => do return .transferred (← InMemoryLedger.transfer rt input)
  | .requestWithdrawal input => do
    return .requested (← InMemoryLedger.requestWithdrawal rt input)
  | .confirmWithdrawalExternalAuth withdrawalId provider requestId nowIso => do
    return .withdrawal
      (← InMemoryLedger.confirmWithdrawalExternalAuth rt withdrawalId provider requestId nowIso)
  | .markWithdrawalReviewRequired withdrawalId nowIso => do
    return .withdrawal (← InMemoryLedger.markWithdrawalReviewRequired withdrawalId nowIso)
  | .approveWithdrawal withdrawalId input nowIso => do
    return .approved (← InMemoryLedger.approveWithdrawal rt withdrawalId input nowIso)
  | .broadcastWithdrawal withdrawalId txHash nowIso => do
    return .withdrawal (← InMemoryLedger.broadcastWithdrawal rt withdrawalId txHash nowIso)
  | .confirmWithdrawal withdrawalId networkFee nowIso => do
    return .withdrawal (← InMemoryLedger.confirmWithdrawal rt withdrawalId networkFee nowIso)
  | .failWithdrawal withdrawalId reason nowIso => do
    return .withdrawal (← InMemoryLedger.failWithdrawal rt withdrawalId reason nowIso)
  | .claimPendingOutboxEvents limit nowIso => do
    return .events (← InMemoryLedger.claimPendingOutboxEvents rt limit nowIso)
  | .markOutboxEventPublished outboxEventId nowIso => do
    InMemoryLedger.markOutboxEventPublished outboxEventId nowIso
    return .unit
  | .rescheduleOutboxEvent outboxEventId error availableAt => do
    InMemoryLedger.rescheduleOutboxEvent outboxEventId error availableAt
    return .unit
  | .deadLetterOutboxEvent outboxEventId error deadLetteredAt => do
    InMemoryLedger.deadLetterOutboxEvent outboxEventId error deadLetteredAt
    return .unit
  | .replayOutboxEvents input => do return .count (← InMemoryLedger.replayOutboxEvents rt input)
  | .acknowledgeDeadLetterOutboxEvents input => do
    return .count (← InMemoryLedger.acknowledgeDeadLetterOutboxEvents rt input)

/-- the store after a call, whether it returned or threw -/
def Call.step (c : Call) (s : InMemoryLedger) : InMemoryLedger := (c.exec rt s).2

end

/-- the amount a call moves, where it moves one, satisfies `p` -/
def Call.AmountSatisfies (p : ℤ → Prop) : Call → Prop
  | .applyDeposit input => p input.amount
  | .applyExternalCredit input => p input.amount
  | .transfer input => p input.amount
  | .requestWithdrawal input => p input.amount
  | _ => True

/-! ## the stores methods leave behind -/

section
variable (rt : Runtime) (s : InMemoryLedger)

/-- the account a method works with: the stored one, or a new one with zero balances -/
def accountOf (userId nowIso : String) : Account :=
  (s.accounts.get? userId).getD (createEmptyAccount s userId nowIso)

/-- the store once that account exists -/
def opened (userId nowIso : String) : InMemoryLedger :=
  match s.accounts.get? userId with
  | some _ => s
  | none => { s with accounts := s.accounts.set userId (createEmptyAccount s userId nowIso) }

def enqueued (input : EnqueueInput) : InMemoryLedger :=
  { s with
    outboxEvents := s.outboxEvents.set (rt.uuid s.uuidsDrawn) (input.toEvent (rt.uuid s.uuidsDrawn))
    uuidsDrawn := s.uuidsDrawn + 1 }

/-- the deposit record `applyDeposit` writes -/
def depositRecord (input : DepositInput) : Deposit where
  depositId := rt.uuid (s.uuidsDrawn + 1)
  userId := input.userId
  txHash := input.txHash
  amount := input.amount
  status := .credited
  blockNumber := input.blockNumber
  createdAt := input.nowIso

/-- what `applyDeposit` announces -/
def depositChange (input : DepositInput) : DepositStateChange where
  depositId := rt.uuid (s.uuidsDrawn + 1)
  userId := input.userId
  walletAddress := orElse (input.walletAddress <|> input.toAddress) ""
  txHash := input.txHash
  toAddress := orElse input.toAddress ""
  status := .credited
  amount := input.amount
  blockNumber := input.blockNumber
  occurredAt := input.nowIso

def deposited (input : DepositInput) : InMemoryLedger :=
  { s with
    accounts := s.accounts.set input.userId
      { s.accountOf input.userId input.nowIso with
        balance := (s.accountOf input.userId input.nowIso).balance + input.amount
        updatedAt := input.nowIso }
    transactions := s.transactions.set (rt.uuid s.uuidsDrawn)
      { txId := rt.uuid s.uuidsDrawn, userId := input.userId, type := .deposit
        amount := input.amount, status := .confirmed, blockTx := some input.txHash
        createdAt := input.nowIso }
    depositsByTxHash := s.depositsByTxHash.set input.txHash (s.depositRecord rt input)
    uuidsDrawn := s.uuidsDrawn + 2 }

def creditRecord (input : ExternalCreditInput) : ExternalCreditApplyResult where
  creditId := input.referenceId
  userId := input.userId
  amount := input.amount
  currencyCode := normalizeCode rt input.currencyCode
  journalType := input.journalType
  referenceType := input.referenceType
  referenceId := input.referenceId
  duplicated := false
  createdAt := input.nowIso

def credited (input : ExternalCreditInput) : InMemoryLedger :=
  { s with
    accounts := s.accounts.set input.userId
      { s.accountOf input.userId input.nowIso with
        balance := (s.accountOf input.userId input.nowIso).balance + input.amount
        updatedAt := input.nowIso }
    externalCreditsByReference := s.externalCreditsByReference.set
      (referenceKey input.referenceType input.referenceId) (creditRecord rt input) }

/-- the two transactions of a transfer -/
def transferOut (input : TransferInput) : LedgerTransaction where
  txId := rt.uuid s.uuidsDrawn
  userId := input.fromUserId
  type := .internalTransferOut
  amount := input.amount
  status := .confirmed
  relatedUserId := some input.toUserId
  idempotencyKey := some input.idempotencyKey
  createdAt := input.nowIso

def transferIn (input : TransferInput) : LedgerTransaction where
  txId := rt.uuid (s.uuidsDrawn + 1)
  userId := input.toUserId
  type := .internalTransferIn
  amount := input.amount
  status := .confirmed
  relatedUserId := some input.fromUserId
  idempotencyKey := some input.idempotencyKey
  createdAt := input.nowIso

def transferred (input : TransferInput) : InMemoryLedger :=
  let source := s.accountOf input.fromUserId input.nowIso
  let target := (s.opened input.fromUserId input.nowIso).accountOf input.toUserId input.nowIso
  { s with
    accounts := (((s.opened input.fromUserId input.nowIso).opened input.toUserId
      input.nowIso).accounts.set input.fromUserId
        { source with balance := source.balance - input.amount, updatedAt := input.nowIso }).set
      input.toUserId
        { target with balance := target.balance + input.amount, updatedAt := input.nowIso }
    transactions := (s.transactions.set (rt.uuid s.uuidsDrawn) (s.transferOut rt input)).set
      (rt.uuid (s.uuidsDrawn + 1)) (s.transferIn rt input)
    transferByIdempotencyKey := s.transferByIdempotencyKey.set input.idempotencyKey
      ⟨rt.uuid s.uuidsDrawn, rt.uuid (s.uuidsDrawn + 1)⟩
    uuidsDrawn := s.uuidsDrawn + 2 }

/-- the withdrawal `requestWithdrawal` writes -/
def requestedWithdrawal (input : WithdrawalInput) : Withdrawal :=
  newWithdrawal input (rt.uuid (s.uuidsDrawn + 1)) (rt.uuid s.uuidsDrawn)

def reserved (input : WithdrawalInput) : InMemoryLedger :=
  { s with
    accounts := s.accounts.set input.userId
      { s.accountOf input.userId input.nowIso with
        balance := (s.accountOf input.userId input.nowIso).balance - input.amount
        lockedBalance := (s.accountOf input.userId input.nowIso).lockedBalance + input.amount
        updatedAt := input.nowIso }
    transactions := s.transactions.set (rt.uuid s.uuidsDrawn)
      { txId := rt.uuid s.uuidsDrawn, userId := input.userId, type := .withdraw
        amount := input.amount, status := .pending
        idempotencyKey := some input.idempotencyKey, createdAt := input.nowIso }
    withdrawals := s.withdrawals.set (rt.uuid (s.uuidsDrawn + 1)) (s.requestedWithdrawal rt input)
    withdrawalByIdempotencyKey := s.withdrawalByIdempotencyKey.set input.idempotencyKey
      (rt.uuid (s.uuidsDrawn + 1))
    approvalsByWithdrawalId := s.approvalsByWithdrawalId.set (rt.uuid (s.uuidsDrawn + 1)) []
    uuidsDrawn := s.uuidsDrawn + 2 }

def withWithdrawal (withdrawalId : String) (withdrawal : Withdrawal) : InMemoryLedger :=
  { s with withdrawals := s.withdrawals.set withdrawalId withdrawal }

def broadcasted (withdrawal : Withdrawal) (txHash nowIso : String) : Withdrawal :=
  { withdrawal with
    status := .txBroadcasted, txHash := some txHash, broadcastedAt := some nowIso }

def completed (withdrawal : Withdrawal) (nowIso : String) : Withdrawal :=
  { withdrawal with status := .completed, confirmedAt := some nowIso }

def failed (withdrawal : Withdrawal) (reason nowIso : String) : Withdrawal :=
  { withdrawal with status := .failed, failedAt := some nowIso, failReason := some reason }

/-- the locked amount taken away, nothing else written yet -/
def unlocked (withdrawal : Withdrawal) (nowIso : String) : InMemoryLedger :=
  { s with
    accounts := s.accounts.set withdrawal.userId
      { s.accountOf withdrawal.userId nowIso with
        lockedBalance := (s.accountOf withdrawal.userId nowIso).lockedBalance - withdrawal.amount
        updatedAt := nowIso } }

/-- the locked amount given back, nothing else written yet -/
def refunded (withdrawal : Withdrawal) (nowIso : String) : InMemoryLedger :=
  { s with
    accounts := s.accounts.set withdrawal.userId
      { s.accountOf withdrawal.userId nowIso with
        lockedBalance := (s.accountOf withdrawal.userId nowIso).lockedBalance - withdrawal.amount
        balance := (s.accountOf withdrawal.userId nowIso).balance + withdrawal.amount
        updatedAt := nowIso } }

/-- the store once a broadcasted withdrawal has left the ledger -/
def settled (withdrawalId : String) (withdrawal : Withdrawal) (tx : LedgerTransaction)
    (nowIso : String) : InMemoryLedger :=
  { s.unlocked withdrawal nowIso with
    transactions := s.transactions.set withdrawal.ledgerTxId
      { tx with status := .confirmed, blockTx := withdrawal.txHash }
    withdrawals := s.withdrawals.set withdrawalId (completed withdrawal nowIso) }

/-- the store once a withdrawal has been given back to its user -/
def released (withdrawalId : String) (withdrawal : Withdrawal) (tx : LedgerTransaction)
    (reason nowIso : String) : InMemoryLedger :=
  { s.refunded withdrawal nowIso with
    transactions := s.transactions.set withdrawal.ledgerTxId { tx with status := .failed }
    withdrawals := s.withdrawals.set withdrawalId (failed withdrawal reason nowIso) }

/-! ## steps shared by the methods -/

theorem set_opened (userId nowIso : String) (a : Account) :
    (s.opened userId nowIso).accounts.set userId a = s.accounts.set userId a := by
  unfold opened
  cases h : s.accounts.get? userId with
  | some existing => rfl
  | none => exact OrderedMap.set_set _ _ _ _

theorem opened_eq (userId nowIso : String) :
    s.opened userId nowIso = { s with accounts := (s.opened userId nowIso).accounts } := by
  unfold opened
  cases s.accounts.get? userId <;> rfl

theorem getMutableAccount_apply (userId nowIso : String) :
    getMutableAccount userId nowIso s = (.ok (s.accountOf userId nowIso), s.opened userId nowIso) := by
  simp only [getMutableAccount, Method.get_bind, accountOf, opened]
  cases h : s.accounts.get? userId <;> rfl

theorem enqueueOutboxEvent_apply (input : EnqueueInput) :
    enqueueOutboxEvent rt input s = (.ok (), s.enqueued rt input) := rfl

/-- the event of a withdrawal whose contract passed -/
def withdrawalEvent (contract : WithdrawalStateChangedContract) (withdrawalId occurredAt : String) :
    EnqueueInput where
  eventType := "withdrawal.state.changed"
  aggregateType := "withdrawal"
  aggregateId := withdrawalId
  payload := .withdrawal contract
  occurredAt := occurredAt

theorem announceWithdrawal_apply (w : Withdrawal) (withdrawalId occurredAt : String) :
    announceWithdrawal rt w withdrawalId occurredAt s =
      match buildWithdrawalStateChangedContract rt w occurredAt with
      | .ok contract => (.ok (), s.enqueued rt (withdrawalEvent contract withdrawalId occurredAt))
      | .error e => (.error e, s) := by
  rw [announceWithdrawal, Method.ofExcept_bind]
  cases buildWithdrawalStateChangedContract rt w occurredAt <;> rfl

/-- enqueue the event of a withdrawal and answer `reply`, or throw what its contract threw -/
def announced {α : Type} (w : Withdrawal) (withdrawalId occurredAt : String) (reply : α) :
    Except LedgerError α × InMemoryLedger :=
  match buildWithdrawalStateChangedContract rt w occurredAt with
  | .ok contract => (.ok reply, s.enqueued rt (withdrawalEvent contract withdrawalId occurredAt))
  | .error e => (.error e, s)

theorem announceWithdrawal_bind {α : Type} (w : Withdrawal) (withdrawalId occurredAt : String)
    (reply : α) :
    (announceWithdrawal rt w withdrawalId occurredAt >>= fun _ => pure reply) s =
      s.announced rt w withdrawalId occurredAt reply := by
  rw [Method.bind_apply, announceWithdrawal_apply, announced]
  cases buildWithdrawalStateChangedContract rt w occurredAt <;> rfl

theorem randomUUID_bind {α : Type} (f : String → Op α) :
    (randomUUID rt >>= f) s = f (rt.uuid s.uuidsDrawn) { s with uuidsDrawn := s.uuidsDrawn + 1 } := rfl

theorem setAccount_bind {α : Type} (userId : String) (account : Account) (f : Unit → Op α) :
    (setAccount userId account >>= f) s = f () { s with accounts := s.accounts.set userId account } :=
  rfl

theorem setTransaction_bind {α : Type} (txId : String) (tx : LedgerTransaction) (f : Unit → Op α) :
    (setTransaction txId tx >>= f) s = f () { s with transactions := s.transactions.set txId tx } :=
  rfl

theorem setWithdrawal_bind {α : Type} (withdrawalId : String) (withdrawal : Withdrawal)
    (f : Unit → Op α) :
    (setWithdrawal withdrawalId withdrawal >>= f) s =
      f () (s.withWithdrawal withdrawalId withdrawal) := rfl

/-! ## deposits, credits and transfers -/

theorem applyDeposit_duplicated {input : DepositInput} {existing : Deposit}
    (h : s.depositsByTxHash.get? input.txHash = some existing) :
    applyDeposit rt input s = (.ok { deposit := existing, duplicated := true }, s) := by
  simp only [applyDeposit, Method.get_bind, h, Method.pure_apply]

theorem applyDeposit_new {input : DepositInput}
    (h : s.depositsByTxHash.get? input.txHash = none) :
    applyDeposit rt input s =
      match buildDepositStateChangedContract rt (s.depositChange rt input) with
      | .ok contract => (.ok { deposit := s.depositRecord rt input, duplicated := false },
          (s.deposited rt input).enqueued rt
            { eventType := "deposit.state.changed", aggregateType := "deposit"
              aggregateId := rt.uuid (s.uuidsDrawn + 1), payload := .deposit contract
              occurredAt := input.nowIso })
      | .error e => (.error e, s.deposited rt input) := by
  have hacc := s.set_opened input.userId input.nowIso
  simp only [applyDeposit, Method.get_bind, h]
  rw [Method.bind_ok _ (getMutableAccount_apply s _ _), opened_eq]
  simp only [setAccount, setTransaction, randomUUID, Method.bind_apply, Method.modify_apply, hacc,
    Method.ofExcept_apply, depositChange]
  generalize buildDepositStateChangedContract rt _ = contract
  cases contract with
  | ok contract => rfl
  | error e => rfl

theorem applyExternalCredit_apply (input : ExternalCreditInput) :
    applyExternalCredit rt input s =
      if input.amount ≤ 0 then
        (.error (.domain 400 "VALIDATION_ERROR" "external credit amount must be positive"), s)
      else match s.externalCreditsByReference.get?
          (referenceKey input.referenceType input.referenceId) with
        | some existing => (.ok { existing with duplicated := true }, s)
        | none => (.ok (creditRecord rt input), s.credited rt input) := by
  rw [applyExternalCredit, Method.ite_apply]
  split
  · rfl
  · simp only [Method.get_bind]
    cases h : s.externalCreditsByReference.get? (referenceKey input.referenceType input.referenceId) with
    | some existing => rfl
    | none =>
      have hacc := s.set_opened input.userId input.nowIso
      simp only
      rw [Method.bind_ok _ (getMutableAccount_apply s _ _), opened_eq]
      simp only [setAccount, Method.bind_apply, Method.modify_apply, hacc]
      rfl

theorem transfer_apply (input : TransferInput) :
    transfer rt input s =
      match s.transferByIdempotencyKey.get? input.idempotencyKey with
      | some existing =>
        match s.transactions.get? existing.fromTxId, s.transactions.get? existing.toTxId with
        | some fromTx, some toTx => (.ok { fromTx := fromTx, toTx := toTx, duplicated := true }, s)
        | _, _ => (.error (.domain 500 "STATE_CORRUPTED" "transfer idempotency state is invalid"), s)
      | none =>
        if input.fromUserId = input.toUserId then
          (.error (.domain 400 "VALIDATION_ERROR" "fromUserId and toUserId must be different"), s)
        else if (s.accountOf input.fromUserId input.nowIso).balance < input.amount then
          (.error (.domain 400 "INSUFFICIENT_BALANCE" "insufficient balance for transfer"),
            (s.opened input.fromUserId input.nowIso).opened input.toUserId input.nowIso)
        else
          (.ok { fromTx := s.transferOut rt input, toTx := s.transferIn rt input, duplicated := false },
            s.transferred rt input) := by
  simp only [transfer, Method.get_bind]
  cases s.transferByIdempotencyKey.get? input.idempotencyKey with
  | some existing =>
    simp only [Method.get_bind]
    cases s.transactions.get? existing.fromTxId <;>
      cases s.transactions.get? existing.toTxId <;> rfl
  | none =>
    simp only [Method.ite_apply]
    split
    · rfl
    · rw [Method.bind_ok _ (getMutableAccount_apply s _ _),
        Method.bind_ok _ (getMutableAccount_apply _ _ _), Method.ite_apply]
      split
      · rfl
      · have hboth : (s.opened input.fromUserId input.nowIso).opened input.toUserId input.nowIso =
            { s with
              accounts := ((s.opened input.fromUserId input.nowIso).opened input.toUserId
                input.nowIso).accounts } := by
          cases h : s.accounts.get? input.fromUserId <;> 
            cases h' : (s.opened input.fromUserId input.nowIso).accounts.get? input.toUserId <;>
            simp only [opened, h] at h' ⊢ <;> simp only [h']
        rw [hboth]
        rfl

theorem requestWithdrawal_apply (input : WithdrawalInput) :
    requestWithdrawal rt input s =
      match truthy (s.withdrawalByIdempotencyKey.get? input.idempotencyKey) with
      | some existingId =>
        match s.withdrawals.get? existingId with
        | some existing => (.ok { withdrawal := existing, duplicated := true }, s)
        | none => (.error (.domain 500 "STATE_CORRUPTED" "withdraw idempotency state is invalid"), s)
      | none =>
        if s.limits.singleLimit < input.amount then
          (.error (.domain 400 "LIMIT_EXCEEDED" "single withdrawal limit exceeded"), s)
        else if s.limits.dailyLimit <
            getDailyRequestedWithdrawalAmount s input.userId input.nowIso + input.amount then
          (.error (.domain 400 "LIMIT_EXCEEDED" "daily withdrawal limit exceeded"), s)
        else if (s.accountOf input.userId input.nowIso).balance < input.amount then
          (.error (.domain 400 "INSUFFICIENT_BALANCE" "insufficient balance for withdrawal"),
            s.opened input.userId input.nowIso)
        else
          (s.reserved rt input).announced rt (s.requestedWithdrawal rt input)
            (rt.uuid (s.uuidsDrawn + 1)) input.nowIso
            { withdrawal := s.requestedWithdrawal rt input, duplicated := false } := by
  simp only [requestWithdrawal, Method.get_bind]
  cases truthy (s.withdrawalByIdempotencyKey.get? input.idempotencyKey) with
  | some existingId =>
    simp only [Method.get_bind]
    cases s.withdrawals.get? existingId <;> rfl
  | none =>
    simp only [Method.get_bind, Method.ite_apply]
    split
    · rfl
    · split
      · rfl
      · rw [Method.bind_ok _ (getMutableAccount_apply s _ _), Method.ite_apply]
        split
        · rfl
        · have hacc := s.set_opened input.userId input.nowIso
          rw [opened_eq]
          simp only [setAccount_bind, setTransaction_bind, setWithdrawal_bind, randomUUID_bind,
            Method.modify_bind, hacc]
          exact announceWithdrawal_bind rt (s.reserved rt input) _ _ _ _

/-! ## the withdrawal lifecycle -/

def withdrawalNotFound : LedgerError := .domain 404 "NOT_FOUND" "withdrawal not found"

theorem getMutableWithdrawal_apply (withdrawalId : String) :
    getMutableWithdrawal withdrawalId s =
      match s.withdrawals.get? withdrawalId with
      | some withdrawal => (.ok withdrawal, s)
      | none => (.error withdrawalNotFound, s) := by
  simp only [getMutableWithdrawal, Method.get_bind]
  cases s.withdrawals.get? withdrawalId <;> rfl

/-- the withdrawal after its external authorisation -/
def authenticated (withdrawal : Withdrawal) (provider requestId nowIso : String) : Withdrawal :=
  { withdrawal with
    status := .pendingAdmin, externalAuthProvider := some provider
    externalAuthRequestId := some requestId, externalAuthConfirmedAt := some nowIso }

theorem confirmWithdrawalExternalAuth_apply (withdrawalId provider requestId nowIso : String) :
    confirmWithdrawalExternalAuth rt withdrawalId provider requestId nowIso s =
      match s.withdrawals.get? withdrawalId with
      | none => (.error withdrawalNotFound, s)
      | some withdrawal =>
        if withdrawal.status = .ledgerReserved then
          (s.withWithdrawal withdrawalId (authenticated withdrawal provider requestId nowIso)).announced
            rt (authenticated withdrawal provider requestId nowIso) withdrawalId nowIso
            (authenticated withdrawal provider requestId nowIso)
        else if withdrawal.externalAuthRequestId = some requestId ∧
            withdrawal.externalAuthProvider = some provider then
          (.ok withdrawal, s)
        else (.error (.domain 409 "INVALID_STATE"
          "withdrawal external auth cannot be confirmed in current state"), s) := by
  rw [confirmWithdrawalExternalAuth, Method.bind_apply, getMutableWithdrawal_apply]
  cases s.withdrawals.get? withdrawalId with
  | none => rfl
  | some withdrawal =>
    simp only [Method.ite_apply]
    split
    · rw [setWithdrawal_bind]
      exact announceWithdrawal_bind rt _ _ _ _ _
    · split <;> rfl

theorem markWithdrawalReviewRequired_apply (withdrawalId nowIso : String) :
    markWithdrawalReviewRequired withdrawalId nowIso s =
      match s.withdrawals.get? withdrawalId with
      | none => (.error withdrawalNotFound, s)
      | some withdrawal =>
        if withdrawal.status ≠ .pendingAdmin then (.ok withdrawal, s)
        else (.ok { withdrawal with reviewRequiredAt := some nowIso },
          s.withWithdrawal withdrawalId { withdrawal with reviewRequiredAt := some nowIso }) := by
  rw [markWithdrawalReviewRequired, Method.bind_apply, getMutableWithdrawal_apply]
  cases s.withdrawals.get? withdrawalId with
  | none => rfl
  | some withdrawal =>
    simp only [Method.ite_apply]
    split <;> rfl

/-- the approvals recorded for a withdrawal -/
def approvalsOf (withdrawalId : String) : List WithdrawalApproval :=
  orElse (s.approvalsByWithdrawalId.get? withdrawalId) []

/-- the approval `approveWithdrawal` records -/
def approvalRecord (withdrawalId : String) (input : ApprovalInput) (nowIso : String) :
    WithdrawalApproval where
  approvalId := rt.uuid s.uuidsDrawn
  withdrawalId := withdrawalId
  adminId := input.adminId
  actorType := input.actorType
  reasonCode := orElse input.reasonCode .manualReviewPassed
  note := input.note
  createdAt := nowIso

/-- the withdrawal after its `count`-th approval -/
def approvedBy (withdrawal : Withdrawal) (count : Nat) (nowIso : String) : Withdrawal :=
  if JsNumber.natGe count withdrawal.requiredApprovals then
    { withdrawal with
      approvalCount := count, status := .adminApproved, approvedAt := some nowIso }
  else { withdrawal with approvalCount := count }

/-- the store once the approval is recorded -/
def approved (withdrawalId : String) (withdrawal : Withdrawal) (input : ApprovalInput)
    (nowIso : String) : InMemoryLedger :=
  { s with
    approvalsByWithdrawalId := s.approvalsByWithdrawalId.set withdrawalId
      (s.approvalsOf withdrawalId ++ [s.approvalRecord rt withdrawalId input nowIso])
    withdrawals := s.withdrawals.set withdrawalId
      (approvedBy withdrawal ((s.approvalsOf withdrawalId).length + 1) nowIso)
    uuidsDrawn := s.uuidsDrawn + 1 }

theorem approveWithdrawal_apply (withdrawalId : String) (input : ApprovalInput) (nowIso : String) :
    approveWithdrawal rt withdrawalId input nowIso s =
      match s.withdrawals.get? withdrawalId with
      | none => (.error withdrawalNotFound, s)
      | some withdrawal =>
        if withdrawal.status ≠ .pendingAdmin then
          (.error (.domain 409 "INVALID_STATE" "withdrawal must be pending admin approval"), s)
        else if (s.approvalsOf withdrawalId).any fun approval => approval.adminId = input.adminId then
          (.error (.domain 409 "ALREADY_APPROVED" "admin already approved this withdrawal"), s)
        else
          (s.approved rt withdrawalId withdrawal input nowIso).announced rt
            (approvedBy withdrawal ((s.approvalsOf withdrawalId).length + 1) nowIso) withdrawalId nowIso
            { withdrawal := approvedBy withdrawal ((s.approvalsOf withdrawalId).length + 1) nowIso
              approval := s.approvalRecord rt withdrawalId input nowIso
              finalized := JsNumber.natGe ((s.approvalsOf withdrawalId).length + 1)
                withdrawal.requiredApprovals } := by
  rw [approveWithdrawal, Method.bind_apply, getMutableWithdrawal_apply]
  cases s.withdrawals.get? withdrawalId with
  | none => rfl
  | some withdrawal =>
    simp only [Method.get_bind, Method.ite_apply]
    split
    · rfl
    · change (if (s.approvalsOf withdrawalId).any _ = true then _ else _) = _
      split
      · rfl
      · simp only [randomUUID_bind, setWithdrawal_bind, Method.modify_bind, List.length_append,
          List.length_singleton]
        exact announceWithdrawal_bind rt (s.approved rt withdrawalId withdrawal input nowIso) _ _ _ _

theorem broadcastWithdrawal_apply (withdrawalId txHash nowIso : String) :
    broadcastWithdrawal rt withdrawalId txHash nowIso s =
      match s.withdrawals.get? withdrawalId with
      | none => (.error withdrawalNotFound, s)
      | some withdrawal =>
        if withdrawal.status ≠ .adminApproved then
          (.error (.domain 409 "INVALID_STATE" "withdrawal must be admin approved"), s)
        else
          (s.withWithdrawal withdrawalId (broadcasted withdrawal txHash nowIso)).announced rt
            (broadcasted withdrawal txHash nowIso) withdrawalId nowIso
            (broadcasted withdrawal txHash nowIso) := by
  rw [broadcastWithdrawal, Method.bind_apply, getMutableWithdrawal_apply]
  cases s.withdrawals.get? withdrawalId with
  | none => rfl
  | some withdrawal =>
    simp only [Method.ite_apply]
    split
    · rfl
    · rw [setWithdrawal_bind]
      exact announceWithdrawal_bind rt _ _ _ _ _

/-- the fee receipt and the fee journal of a confirmation that reports a fee -/
def withNetworkFee (withdrawalId : String) (txHash : Option String) (networkFee : Option NetworkFee)
    (nowIso : String) : InMemoryLedger :=
  match networkFee, truthy txHash with
  | some fee, some txHash =>
    (recordNetworkFee withdrawalId txHash fee nowIso s).2
  | _, _ => s

theorem confirmWithdrawal_apply (withdrawalId : String) (networkFee : Option NetworkFee)
    (nowIso : String) :
    confirmWithdrawal rt withdrawalId networkFee nowIso s =
      match s.withdrawals.get? withdrawalId with
      | none => (.error withdrawalNotFound, s)
      | some withdrawal =>
        if withdrawal.status ≠ .txBroadcasted then
          (.error (.domain 409 "INVALID_STATE" "withdrawal must be tx broadcasted"), s)
        else if (s.accountOf withdrawal.userId nowIso).lockedBalance < withdrawal.amount then
          (.error (.domain 500 "STATE_CORRUPTED" "locked balance underflow"),
            s.opened withdrawal.userId nowIso)
        else match s.transactions.get? withdrawal.ledgerTxId with
          | none => (.error (.domain 500 "STATE_CORRUPTED" "withdraw transaction missing"),
              s.unlocked withdrawal nowIso)
          | some tx =>
            ((s.settled withdrawalId withdrawal tx nowIso).withNetworkFee withdrawalId
              withdrawal.txHash networkFee nowIso).announced rt (completed withdrawal nowIso)
              withdrawalId nowIso (completed withdrawal nowIso) := by
  rw [confirmWithdrawal, Method.bind_apply, getMutableWithdrawal_apply]
  cases s.withdrawals.get? withdrawalId with
  | none => rfl
  | some withdrawal =>
    simp only [Method.ite_apply]
    split
    · rfl
    · rw [Method.bind_ok _ (getMutableAccount_apply s _ _), Method.ite_apply]
      split
      · rfl
      · have hacc := s.set_opened withdrawal.userId nowIso
        rw [opened_eq]
        simp only [setAccount_bind, Method.get_bind, hacc]
        cases s.transactions.get? withdrawal.ledgerTxId with
        | none => rfl
        | some tx =>
          simp only [setTransaction_bind, setWithdrawal_bind, withNetworkFee]
          cases networkFee with
          | none => exact announceWithdrawal_bind rt (s.settled withdrawalId withdrawal tx nowIso) _ _ _ _
          | some fee =>
            cases truthy withdrawal.txHash with
            | none => exact announceWithdrawal_bind rt (s.settled withdrawalId withdrawal tx nowIso) _ _ _ _
            | some txHash => 
              simp only [recordNetworkFee, Method.modify_bind, Method.modify_apply]
              exact announceWithdrawal_bind rt _ _ _ _ _

theorem failWithdrawal_apply (withdrawalId reason nowIso : String) :
    failWithdrawal rt withdrawalId reason nowIso s =
      match s.withdrawals.get? withdrawalId with
      | none => (.error withdrawalNotFound, s)
      | some withdrawal =>
        if withdrawal.status.isActive = false then
          (.error (.domain 409 "INVALID_STATE" "withdrawal cannot be failed in current state"), s)
        else if (s.accountOf withdrawal.userId nowIso).lockedBalance < withdrawal.amount then
          (.error (.domain 500 "STATE_CORRUPTED" "locked balance underflow"),
            s.opened withdrawal.userId nowIso)
        else match s.transactions.get? withdrawal.ledgerTxId with
          | none => (.error (.domain 500 "STATE_CORRUPTED" "withdraw transaction missing"),
              s.refunded withdrawal nowIso)
          | some tx =>
            (s.released withdrawalId withdrawal tx reason nowIso).announced rt
              (failed withdrawal reason nowIso) withdrawalId nowIso
              (failed withdrawal reason nowIso) := by
  rw [failWithdrawal, Method.bind_apply, getMutableWithdrawal_apply]
  cases s.withdrawals.get? withdrawalId with
  | none => rfl
  | some withdrawal =>
    simp only [Method.ite_apply]
    split
    · rfl
    · rw [Method.bind_ok _ (getMutableAccount_apply s _ _), Method.ite_apply]
      split
      · rfl
      · have hacc := s.set_opened withdrawal.userId nowIso
        rw [opened_eq]
        simp only [setAccount_bind, Method.get_bind, hacc]
        cases s.transactions.get? withdrawal.ledgerTxId with
        | none => rfl
        | some tx =>
          simp only [setTransaction_bind, setWithdrawal_bind]
          exact announceWithdrawal_bind rt (s.released withdrawalId withdrawal tx reason nowIso) _ _ _ _

end
end InMemoryLedger
