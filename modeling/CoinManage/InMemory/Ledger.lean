import CoinManage.Lib.OrderedMap
import CoinManage.Lib.Method
import CoinManage.Ledger.Outbox

/-!
# The in-memory ledger

`InMemoryLedger` keeps its tables in insertion-ordered maps and its methods write them in place.
A method runs under a lock, so calls are executed one after the other; but a method that throws
keeps what it has written so far (`Method`), and the event contracts are built and validated
after the writes.

The methods here are the money operations, the withdrawal lifecycle, the wallet bindings and the
outbox.  `randomUUID` draws the next value of the process's generator; `uuidsDrawn` counts them.
-/

structure TransferIdempotencyRecord where
  fromTxId : String
  toTxId : String
  deriving DecidableEq, Repr

structure InMemoryLedger where
  limits : WithdrawalLimitConfig
  accounts : OrderedMap String Account
  walletBindingsByUserId : OrderedMap String WalletBinding
  userIdByWalletAddress : OrderedMap String String
  transactions : OrderedMap String LedgerTransaction
  depositsByTxHash : OrderedMap String Deposit
  externalCreditsByReference : OrderedMap String ExternalCreditApplyResult
  withdrawals : OrderedMap String Withdrawal
  withdrawalByIdempotencyKey : OrderedMap String String
  transferByIdempotencyKey : OrderedMap String TransferIdempotencyRecord
  approvalsByWithdrawalId : OrderedMap String (List WithdrawalApproval)
  networkFeeReceipts : OrderedMap String NetworkFeeReceipt
  networkFeeJournals : OrderedMap String NetworkFeeJournal
  outboxEvents : OrderedMap String OutboxEvent
  uuidsDrawn : Nat

namespace InMemoryLedger

/-- `new InMemoryLedger(limits)` -/
def new (limits : WithdrawalLimitConfig) : InMemoryLedger where
  limits := limits
  accounts := .empty
  walletBindingsByUserId := .empty
  userIdByWalletAddress := .empty
  transactions := .empty
  depositsByTxHash := .empty
  externalCreditsByReference := .empty
  withdrawals := .empty
  withdrawalByIdempotencyKey := .empty
  transferByIdempotencyKey := .empty
  approvalsByWithdrawalId := .empty
  networkFeeReceipts := .empty
  networkFeeJournals := .empty
  outboxEvents := .empty
  uuidsDrawn := 0

abbrev Op (α : Type) := Method InMemoryLedger LedgerError α

/-- an `if (value)` on a text: absent and empty both count as false -/
def truthy : Option String → Option String
  | some "" => none
  | o => o

section
variable (rt : Runtime)

/-! ## private helpers -/

def randomUUID : Op String := fun s => (.ok (rt.uuid s.uuidsDrawn), { s with uuidsDrawn := s.uuidsDrawn + 1 })

def createEmptyAccount (s : InMemoryLedger) (userId nowIso : String) : Account where
  userId := userId
  walletAddress := (s.walletBindingsByUserId.get? userId).map (·.walletAddress)
  balance := 0
  lockedBalance := 0
  updatedAt := nowIso

def setAccount (userId : String) (account : Account) : Op Unit :=
  modify fun s => { s with accounts := s.accounts.set userId account }

/-- the account object of the user, created with zero balances when missing -/
def getMutableAccount (userId nowIso : String) : Op Account := do
  match (← get).accounts.get? userId with
  | some existing => return existing
  | none =>
    let created := createEmptyAccount (← get) userId nowIso
    modify fun s => { s with accounts := s.accounts.set userId created }
    return created

def getMutableWithdrawal (withdrawalId : String) : Op Withdrawal := do
  match (← get).withdrawals.get? withdrawalId with
  | some withdrawal => return withdrawal
  | none => throw (.domain 404 "NOT_FOUND" "withdrawal not found")

def setWithdrawal (withdrawalId : String) (withdrawal : Withdrawal) : Op Unit :=
  modify fun s => { s with withdrawals := s.withdrawals.set withdrawalId withdrawal }

def setTransaction (txId : String) (tx : LedgerTransaction) : Op Unit :=
  modify fun s => { s with transactions := s.transactions.set txId tx }

def enqueueOutboxEvent (input : EnqueueInput) : Op Unit := do
  let outboxEventId ← randomUUID rt
  modify fun s => { s with outboxEvents := s.outboxEvents.set outboxEventId (input.toEvent outboxEventId) }

/-- build the contract of the withdrawal as it now stands, then enqueue it -/
def announceWithdrawal (withdrawal : Withdrawal) (aggregateId occurredAt : String) : Op Unit := do
  let contract ← Method.ofExcept (buildWithdrawalStateChangedContract rt withdrawal occurredAt)
  enqueueOutboxEvent rt
    { eventType := "withdrawal.state.changed"
      aggregateType := "withdrawal"
      aggregateId := aggregateId
      payload := .withdrawal contract
      occurredAt := occurredAt }

/-- `nowIso.slice(0, 10)` -/
def dayOf (iso : String) : String := String.ofList (iso.toList.take 10)

def getDailyRequestedWithdrawalAmount (s : InMemoryLedger) (userId nowIso : String) : ℤ :=
  s.withdrawals.sum fun w =>
    if w.userId = userId ∧ dayOf w.createdAt = dayOf nowIso ∧ w.status.countsForDailyLimit then w.amount
    else 0

/-! ## accounts and wallet bindings -/

def getAccount (userId nowIso : String) : Op Account := do
  let account ← getMutableAccount userId nowIso
  let binding := (← get).walletBindingsByUserId.get? userId
  return { account with walletAddress := binding.map (·.walletAddress) }

/-- forget the address the user was bound to, when it is another one -/
def forgetPreviousAddress (previousBinding : Option WalletBinding) (walletAddress : String) :
    Op Unit :=
  match previousBinding with
  | some previous =>
    if previous.walletAddress ≠ walletAddress then
      modify fun s =>
        { s with userIdByWalletAddress := s.userIdByWalletAddress.delete previous.walletAddress }
    else pure ()
  | none => pure ()

/-- `account.walletAddress = walletAddress`, where the account exists -/
def setAccountWalletAddress (userId walletAddress : String) : Op Unit := do
  match (← get).accounts.get? userId with
  | some account => setAccount userId { account with walletAddress := some walletAddress }
  | none => pure ()

def bindWalletAddress (userId walletAddress nowIso : String) : Op WalletBinding := do
  let s ← get
  let existingUserId := truthy (s.userIdByWalletAddress.get? walletAddress)
  if existingUserId.isSome ∧ existingUserId ≠ some userId then
    throw (.domain 409 "WALLET_ADDRESS_IN_USE" "wallet address is already bound to another user")
  else
    let previousBinding := s.walletBindingsByUserId.get? userId
    forgetPreviousAddress previousBinding walletAddress
    let binding : WalletBinding :=
      { userId := userId
        walletAddress := walletAddress
        createdAt := (previousBinding.map (·.createdAt)).getD nowIso }
    modify fun s =>
      { s with
        walletBindingsByUserId := s.walletBindingsByUserId.set userId binding
        userIdByWalletAddress := s.userIdByWalletAddress.set walletAddress userId }
    setAccountWalletAddress userId walletAddress
    return binding

/-! ## deposits, credits and transfers -/

def applyDeposit (input : DepositInput) : Op DepositApplyResult := do
  match (← get).depositsByTxHash.get? input.txHash with
  | some existing => return { deposit := existing, duplicated := true }
  | none =>
    let account ← getMutableAccount input.userId input.nowIso
    setAccount input.userId
      { account with balance := account.balance + input.amount, updatedAt := input.nowIso }
    let txId ← randomUUID rt
    setTransaction txId
      { txId := txId
        userId := input.userId
        type := .deposit
        amount := input.amount
        status := .confirmed
        blockTx := some input.txHash
        createdAt := input.nowIso }
    let depositId ← randomUUID rt
    let deposit : Deposit :=
      { depositId := depositId
        userId := input.userId
        txHash := input.txHash
        amount := input.amount
        status := .credited
        blockNumber := input.blockNumber
        createdAt := input.nowIso }
    modify fun s => { s with depositsByTxHash := s.depositsByTxHash.set input.txHash deposit }
    let contract ← Method.ofExcept (buildDepositStateChangedContract rt
      { depositId := depositId
        userId := input.userId
        walletAddress := orElse (input.walletAddress <|> input.toAddress) ""
        txHash := input.txHash
        toAddress := orElse input.toAddress ""
        status := .credited
        amount := input.amount
        blockNumber := input.blockNumber
        occurredAt := input.nowIso })
    enqueueOutboxEvent rt
      { eventType := "deposit.state.changed"
        aggregateType := "deposit"
        aggregateId := depositId
        payload := .deposit contract
        occurredAt := input.nowIso }
    return { deposit := deposit, duplicated := false }

def completeDeposit (depositId : String) : Op Deposit := do
  match (← get).depositsByTxHash.entries.find? fun entry => entry.2.depositId = depositId with
  | none => throw (.domain 404 "NOT_FOUND" "deposit not found")
  | some (key, deposit) =>
    if deposit.status = .completed then return deposit
    else
      let completed := { deposit with status := DepositStatus.completed }
      modify fun s => { s with depositsByTxHash := s.depositsByTxHash.set key completed }
      return completed

/-- `${referenceType}:${referenceId}` -/
def referenceKey (referenceType referenceId : String) : String := referenceType ++ ":" ++ referenceId

/-- `code.trim().toUpperCase()` -/
def normalizeCode (code : String) : String := rt.toUpperCase (jsTrim code)

def applyExternalCredit (input : ExternalCreditInput) : Op ExternalCreditApplyResult := do
  if input.amount ≤ 0 then
    throw (.domain 400 "VALIDATION_ERROR" "external credit amount must be positive")
  else
    let key := referenceKey input.referenceType input.referenceId
    match (← get).externalCreditsByReference.get? key with
    | some existing => return { existing with duplicated := true }
    | none =>
      let account ← getMutableAccount input.userId input.nowIso
      setAccount input.userId
        { account with balance := account.balance + input.amount, updatedAt := input.nowIso }
      let credit : ExternalCreditApplyResult :=
        { creditId := input.referenceId
          userId := input.userId
          amount := input.amount
          currencyCode := normalizeCode rt input.currencyCode
          journalType := input.journalType
          referenceType := input.referenceType
          referenceId := input.referenceId
          duplicated := false
          createdAt := input.nowIso }
      modify fun s =>
        { s with externalCreditsByReference := s.externalCreditsByReference.set key credit }
      return credit

def transfer (input : TransferInput) : Op TransferResult := do
  match (← get).transferByIdempotencyKey.get? input.idempotencyKey with
  | some existing =>
    let transactions := (← get).transactions
    match transactions.get? existing.fromTxId, transactions.get? existing.toTxId with
    | some fromTx, some toTx => return { fromTx := fromTx, toTx := toTx, duplicated := true }
    | _, _ => throw (.domain 500 "STATE_CORRUPTED" "transfer idempotency state is invalid")
  | none =>
    if input.fromUserId = input.toUserId then
      throw (.domain 400 "VALIDATION_ERROR" "fromUserId and toUserId must be different")
    else
      let source ← getMutableAccount input.fromUserId input.nowIso
      let target ← getMutableAccount input.toUserId input.nowIso
      if source.balance < input.amount then
        throw (.domain 400 "INSUFFICIENT_BALANCE" "insufficient balance for transfer")
      else
        setAccount input.fromUserId
          { source with balance := source.balance - input.amount, updatedAt := input.nowIso }
        setAccount input.toUserId
          { target with balance := target.balance + input.amount, updatedAt := input.nowIso }
        let fromTxId ← randomUUID rt
        let toTxId ← randomUUID rt
        let fromTx : LedgerTransaction :=
          { txId := fromTxId
            userId := input.fromUserId
            type := .internalTransferOut
            amount := input.amount
            status := .confirmed
            relatedUserId := some input.toUserId
            idempotencyKey := some input.idempotencyKey
            createdAt := input.nowIso }
        let toTx : LedgerTransaction :=
          { txId := toTxId
            userId := input.toUserId
            type := .internalTransferIn
            amount := input.amount
            status := .confirmed
            relatedUserId := some input.fromUserId
            idempotencyKey := some input.idempotencyKey
            createdAt := input.nowIso }
        setTransaction fromTxId fromTx
        setTransaction toTxId toTx
        modify fun s =>
          { s with
            transferByIdempotencyKey :=
              s.transferByIdempotencyKey.set input.idempotencyKey ⟨fromTxId, toTxId⟩ }
        return { fromTx := fromTx, toTx := toTx, duplicated := false }

/-! ## the withdrawal lifecycle -/

/-- the record of a new withdrawal -/
def newWithdrawal (input : WithdrawalInput) (withdrawalId ledgerTxId : String) : Withdrawal where
  withdrawalId := withdrawalId
  userId := input.userId
  amount := input.amount
  toAddress := input.toAddress
  status := .ledgerReserved
  idempotencyKey := input.idempotencyKey
  ledgerTxId := ledgerTxId
  createdAt := input.nowIso
  riskLevel := orElse input.riskLevel .low
  riskScore := orElse input.riskScore 0
  riskFlags := orElse input.riskFlags []
  requiredApprovals := orElse input.requiredApprovals 1
  approvalCount := 0
  clientIp := input.clientIp
  deviceId := input.deviceId

def requestWithdrawal (input : WithdrawalInput) : Op WithdrawalRequestResult := do
  match truthy ((← get).withdrawalByIdempotencyKey.get? input.idempotencyKey) with
  | some existingId =>
    match (← get).withdrawals.get? existingId with
    | some existing => return { withdrawal := existing, duplicated := true }
    | none => throw (.domain 500 "STATE_CORRUPTED" "withdraw idempotency state is invalid")
  | none =>
    if (← get).limits.singleLimit < input.amount then
      throw (.domain 400 "LIMIT_EXCEEDED" "single withdrawal limit exceeded")
    else
      let requestedToday := getDailyRequestedWithdrawalAmount (← get) input.userId input.nowIso
      if (← get).limits.dailyLimit < requestedToday + input.amount then
        throw (.domain 400 "LIMIT_EXCEEDED" "daily withdrawal limit exceeded")
      else
        let account ← getMutableAccount input.userId input.nowIso
        if account.balance < input.amount then
          throw (.domain 400 "INSUFFICIENT_BALANCE" "insufficient balance for withdrawal")
        else
          setAccount input.userId
            { account with
              balance := account.balance - input.amount
              lockedBalance := account.lockedBalance + input.amount
              updatedAt := input.nowIso }
          let ledgerTxId ← randomUUID rt
          setTransaction ledgerTxId
            { txId := ledgerTxId
              userId := input.userId
              type := .withdraw
              amount := input.amount
              status := .pending
              idempotencyKey := some input.idempotencyKey
              createdAt := input.nowIso }
          let withdrawalId ← randomUUID rt
          let withdrawal := newWithdrawal input withdrawalId ledgerTxId
          setWithdrawal withdrawalId withdrawal
          modify fun s =>
            { s with
              withdrawalByIdempotencyKey := s.withdrawalByIdempotencyKey.set input.idempotencyKey withdrawalId
              approvalsByWithdrawalId := s.approvalsByWithdrawalId.set withdrawalId [] }
          announceWithdrawal rt withdrawal withdrawalId input.nowIso
          return { withdrawal := withdrawal, duplicated := false }

def confirmWithdrawalExternalAuth (withdrawalId provider requestId nowIso : String) :
    Op Withdrawal := do
  let withdrawal ← getMutableWithdrawal withdrawalId
  if withdrawal.status = .ledgerReserved then
    let confirmed :=
      { withdrawal with
        status := .pendingAdmin
        externalAuthProvider := some provider
        externalAuthRequestId := some requestId
        externalAuthConfirmedAt := some nowIso }
    setWithdrawal withdrawalId confirmed
    announceWithdrawal rt confirmed withdrawalId nowIso
    return confirmed
  else if withdrawal.externalAuthRequestId = some requestId ∧
      withdrawal.externalAuthProvider = some provider then
    return withdrawal
  else
    throw (.domain 409 "INVALID_STATE" "withdrawal external auth cannot be confirmed in current state")

def markWithdrawalReviewRequired (withdrawalId nowIso : String) : Op Withdrawal := do
  let withdrawal ← getMutableWithdrawal withdrawalId
  if withdrawal.status ≠ .pendingAdmin then return withdrawal
  else
    let marked := { withdrawal with reviewRequiredAt := some nowIso }
    setWithdrawal withdrawalId marked
    return marked

def approveWithdrawal (withdrawalId : String) (input : ApprovalInput) (nowIso : String) :
    Op ApprovalDecisionResult := do
  let withdrawal ← getMutableWithdrawal withdrawalId
  if withdrawal.status ≠ .pendingAdmin then
    throw (.domain 409 "INVALID_STATE" "withdrawal must be pending admin approval")
  else
    let approvals := orElse ((← get).approvalsByWithdrawalId.get? withdrawalId) []
    if approvals.any fun approval => approval.adminId = input.adminId then
      throw (.domain 409 "ALREADY_APPROVED" "admin already approved this withdrawal")
    else
      let approvalId ← randomUUID rt
      let approval : WithdrawalApproval :=
        { approvalId := approvalId
          withdrawalId := withdrawalId
          adminId := input.adminId
          actorType := input.actorType
          reasonCode := orElse input.reasonCode .manualReviewPassed
          note := input.note
          createdAt := nowIso }
      let recorded := approvals ++ [approval]
      modify fun s =>
        { s with approvalsByWithdrawalId := s.approvalsByWithdrawalId.set withdrawalId recorded }
      let finalized := JsNumber.natGe recorded.length withdrawal.requiredApprovals
      let counted := { withdrawal with approvalCount := recorded.length }
      let decided :=
        if finalized then { counted with status := .adminApproved, approvedAt := some nowIso }
        else counted
      setWithdrawal withdrawalId decided
      announceWithdrawal rt decided withdrawalId nowIso
      return { withdrawal := decided, approval := approval, finalized := finalized }

def broadcastWithdrawal (withdrawalId txHash nowIso : String) : Op Withdrawal := do
  let withdrawal ← getMutableWithdrawal withdrawalId
  if withdrawal.status ≠ .adminApproved then
    throw (.domain 409 "INVALID_STATE" "withdrawal must be admin approved")
  else
    let broadcasted :=
      { withdrawal with
        status := .txBroadcasted, txHash := some txHash, broadcastedAt := some nowIso }
    setWithdrawal withdrawalId broadcasted
    announceWithdrawal rt broadcasted withdrawalId nowIso
    return broadcasted

/-- the receipt and the fee journal of a confirmed withdrawal -/
def recordNetworkFee (withdrawalId txHash : String) (fee : NetworkFee) (nowIso : String) : Op Unit :=
  let feeReceiptId := withdrawalId ++ ":" ++ txHash
  modify fun s =>
    { s with
      networkFeeReceipts := s.networkFeeReceipts.set feeReceiptId
        { feeReceiptId := feeReceiptId
          referenceType := .withdrawal
          referenceId := withdrawalId
          txHash := fee.txHash
          feeSun := fee.feeSun
          energyUsed := fee.energyUsed
          bandwidthUsed := fee.bandwidthUsed
          confirmedAt := nowIso
          createdAt := nowIso }
      networkFeeJournals := s.networkFeeJournals.set feeReceiptId
        { snapshotDate := dayOf nowIso
          referenceType := .withdrawal
          feeSun := fee.feeSun
          createdAt := nowIso } }

def confirmWithdrawal (withdrawalId : String) (networkFee : Option NetworkFee) (nowIso : String) :
    Op Withdrawal := do
  let withdrawal ← getMutableWithdrawal withdrawalId
  if withdrawal.status ≠ .txBroadcasted then
    throw (.domain 409 "INVALID_STATE" "withdrawal must be tx broadcasted")
  else
    let account ← getMutableAccount withdrawal.userId nowIso
    if account.lockedBalance < withdrawal.amount then
      throw (.domain 500 "STATE_CORRUPTED" "locked balance underflow")
    else
      setAccount withdrawal.userId
        { account with
          lockedBalance := account.lockedBalance - withdrawal.amount, updatedAt := nowIso }
      match (← get).transactions.get? withdrawal.ledgerTxId with
      | none => throw (.domain 500 "STATE_CORRUPTED" "withdraw transaction missing")
      | some tx =>
        setTransaction withdrawal.ledgerTxId { tx with status := .confirmed, blockTx := withdrawal.txHash }
        let completed := { withdrawal with status := .completed, confirmedAt := some nowIso }
        setWithdrawal withdrawalId completed
        match networkFee, truthy withdrawal.txHash with
        | some fee, some txHash => recordNetworkFee withdrawalId txHash fee nowIso
        | _, _ => pure ()
        announceWithdrawal rt completed withdrawalId nowIso
        return completed

def failWithdrawal (withdrawalId reason nowIso : String) : Op Withdrawal := do
  let withdrawal ← getMutableWithdrawal withdrawalId
  if withdrawal.status.isActive = false then
    throw (.domain 409 "INVALID_STATE" "withdrawal cannot be failed in current state")
  else
    let account ← getMutableAccount withdrawal.userId nowIso
    if account.lockedBalance < withdrawal.amount then
      throw (.domain 500 "STATE_CORRUPTED" "locked balance underflow")
    else
      setAccount withdrawal.userId
        { account with
          lockedBalance := account.lockedBalance - withdrawal.amount
          balance := account.balance + withdrawal.amount
          updatedAt := nowIso }
      match (← get).transactions.get? withdrawal.ledgerTxId with
      | none => throw (.domain 500 "STATE_CORRUPTED" "withdraw transaction missing")
      | some tx =>
        setTransaction withdrawal.ledgerTxId { tx with status := .failed }
        let failed :=
          { withdrawal with status := .failed, failedAt := some nowIso, failReason := some reason }
        setWithdrawal withdrawalId failed
        announceWithdrawal rt failed withdrawalId nowIso
        return failed

def getWithdrawal (s : InMemoryLedger) (withdrawalId : String) : Option Withdrawal :=
  s.withdrawals.get? withdrawalId

def listWithdrawalsByStatuses (s : InMemoryLedger) (statuses : List WithdrawalStatus) :
    List Withdrawal :=
  s.withdrawals.values.filter fun w => w.status ∈ statuses

/-! ## the outbox -/

def sortByCreatedAt (events : List OutboxEvent) : List OutboxEvent :=
  events.mergeSort fun left right => rt.localeLe left.createdAt right.createdAt

/-- apply `f` to the stored copies of `events` -/
def updateEvents (events : List OutboxEvent) (f : OutboxEvent → OutboxEvent) : Op Unit :=
  modify fun s =>
    { s with
      outboxEvents := s.outboxEvents.mapValues fun e =>
        if e.outboxEventId ∈ events.map (·.outboxEventId) then f e else e }

def updateEvent (outboxEventId : String) (f : OutboxEvent → OutboxEvent) : Op Unit := do
  match (← get).outboxEvents.get? outboxEventId with
  | none => pure ()
  | some event =>
    modify fun s => { s with outboxEvents := s.outboxEvents.set outboxEventId (f event) }

def claimPendingOutboxEvents (limit : Nat) (nowIso : String) : Op (List OutboxEvent) := do
  let pending := (← get).outboxEvents.values.filter fun e =>
    e.status = .pending ∧ e.availableAt ≤ nowIso
  let claimed := (sortByCreatedAt rt pending).take limit
  updateEvents claimed (OutboxEvent.claim nowIso)
  return claimed.map (OutboxEvent.claim nowIso)

def markOutboxEventPublished (outboxEventId nowIso : String) : Op Unit :=
  updateEvent outboxEventId (OutboxEvent.publish nowIso)

def rescheduleOutboxEvent (outboxEventId error availableAt : String) : Op Unit :=
  updateEvent outboxEventId fun e =>
    { e with
      status := .pending, availableAt := availableAt, processingStartedAt := none
      lastError := some error }

def deadLetterOutboxEvent (outboxEventId error deadLetteredAt : String) : Op Unit :=
  updateEvent outboxEventId (OutboxEvent.deadLetter error deadLetteredAt)

/-- `limit ?? (idSet?.size ?? 100)` -/
def batchLimit (limit : Option Nat) (ids : Option (List String)) : Nat :=
  limit.getD ((ids.map fun l => l.dedup.length).getD 100)

def replayOutboxEvents (input : ReplayInput) : Op Nat := do
  let matching := (← get).outboxEvents.values.filter fun e =>
    (∀ status ∈ input.status, e.status = status) ∧
      (∀ ids ∈ input.outboxEventIds, e.outboxEventId ∈ ids)
  let candidates := (sortByCreatedAt rt matching).take (batchLimit input.limit input.outboxEventIds)
  updateEvents candidates (OutboxEvent.replay input.nowIso)
  return candidates.length

/-- the claims from before `threshold`, the instant `timeoutSec` seconds before `nowIso` -/
def recoverStaleProcessingOutboxEvents (threshold nowIso : String) : Op Nat := do
  let candidates := (← get).outboxEvents.values.filter fun e =>
    e.status = .processing ∧ ∃ startedAt ∈ truthy e.processingStartedAt, startedAt ≤ threshold
  updateEvents candidates (OutboxEvent.recover nowIso)
  return candidates.length

def acknowledgeDeadLetterOutboxEvents (input : AcknowledgeInput) : Op Nat := do
  let matching := (← get).outboxEvents.values.filter fun e =>
    e.status = .deadLettered ∧ truthy e.deadLetterAcknowledgedAt = none ∧
      (∀ ids ∈ input.outboxEventIds, e.outboxEventId ∈ ids)
  let candidates := (sortByCreatedAt rt matching).take (batchLimit input.limit input.outboxEventIds)
  updateEvents candidates (OutboxEvent.acknowledge input)
  return candidates.length

end

end InMemoryLedger
