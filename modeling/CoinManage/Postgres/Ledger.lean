import CoinManage.Postgres.Repository

/-!
# Deposits, credits, transfers and withdrawals

The money operations of the Postgres repository outside offline pay.  Each runs in a transaction,
answers a key it knows from the recorded row, and otherwise checks, inserts its rows, appends its
journal, copies the projected balances and enqueues its event.
-/

namespace Postgres

open DoubleEntry

section
variable (pg : PgServer)

/-! ## rows of the operations -/

structure TransactionValues where
  txId : String
  userId : String
  type : TransactionType
  amount : String
  status : TransactionStatus
  blockTx : Option String := none
  idempotencyKey : Option String := none
  relatedUserId : Option String := none
  createdAt : String

def transactionRow (values : TransactionValues) : Except LedgerError TransactionRow := do
  let txId ← uuid pg values.txId
  let userId ← varchar 64 values.userId
  let amount ← Numeric.ofText values.amount
  let blockTx ← nullable (varchar 128) values.blockTx
  let idempotencyKey ← nullable (varchar 128) values.idempotencyKey
  let relatedUserId ← nullable (varchar 64) values.relatedUserId
  let createdAt ← timestamp pg values.createdAt
  return ⟨txId, userId, values.type, amount, values.status, blockTx, idempotencyKey, relatedUserId,
    createdAt⟩

def insertTransaction (values : TransactionValues) : Op Unit := do
  let row ← column (transactionRow pg values)
  Method.throwWhen (∃ other ∈ (← get).transactions, other.txId = row.txId) (.database "23505")
  modify fun s => { s with transactions := s.transactions ++ [row] }

/-- one statement inserts both rows of a transfer -/
def insertTransactionPair (out into : TransactionValues) : Op Unit := do
  let outRow ← column (transactionRow pg out)
  let inRow ← column (transactionRow pg into)
  Method.throwWhen (outRow.txId = inRow.txId ∨
    ∃ other ∈ (← get).transactions, other.txId = outRow.txId ∨ other.txId = inRow.txId)
    (.database "23505")
  modify fun s => { s with transactions := s.transactions ++ [outRow, inRow] }

def mapTransaction (row : TransactionRow) : Except LedgerError LedgerTransaction := do
  let amount ← parseStoredKoriAmount row.amount.text
  return {
    txId := row.txId
    userId := row.userId
    type := row.type
    amount := amount
    status := row.status
    blockTx := row.blockTx
    relatedUserId := row.relatedUserId
    idempotencyKey := row.idempotencyKey
    createdAt := row.createdAt }

/-- `update transactions set .. where tx_id = ..` -/
def updateTransaction (txId : String) (change : TransactionRow → TransactionRow) : Op Unit := do
  let id ← column (uuid pg txId)
  modify fun s =>
    { s with
      transactions := s.transactions.map fun row => if row.txId = id then change row else row }

/-! ## deposits -/

def depositRow (depositId : String) (input : DepositInput) : Except LedgerError DepositRow := do
  let depositId ← uuid pg depositId
  let userId ← varchar 64 input.userId
  let txHash ← varchar 128 input.txHash
  let amount ← Numeric.ofText (formatKoriAmount input.amount)
  let blockNumber ← integer 64 input.blockNumber
  let createdAt ← timestamp pg input.nowIso
  return ⟨depositId, userId, txHash, amount, .credited, blockNumber, createdAt⟩

def insertDeposit (depositId : String) (input : DepositInput) : Op Unit := do
  let row ← column (depositRow pg depositId input)
  Method.throwWhen (∃ other ∈ (← get).deposits,
    other.depositId = row.depositId ∨ other.txHash = row.txHash) (.database "23505")
  modify fun s => { s with deposits := s.deposits ++ [row] }

def mapDeposit (row : DepositRow) : Except LedgerError Deposit := do
  let amount ← parseStoredKoriAmount row.amount.text
  return {
    depositId := row.depositId
    userId := row.userId
    txHash := row.txHash
    amount := amount
    status := row.status
    blockNumber := .ofInt row.blockNumber
    createdAt := row.createdAt }

def depositJournal (depositId : String) (input : DepositInput) : JournalInput where
  journalType := "deposit_confirmed"
  referenceType := "deposit"
  referenceId := depositId
  description := some ("deposit " ++ input.txHash)
  nowIso := input.nowIso
  postings :=
    [LedgerAccount.depositClearing.posting .debit (formatKoriAmount input.amount),
     (LedgerAccount.user input.userId .available).posting .credit (formatKoriAmount input.amount)]

def applyNewDeposit (input : DepositInput) : Op DepositApplyResult := do
  ensureAccount pg input.userId input.nowIso
  let _ ← getAccountForUpdate input.userId
  let txId ← randomUUID pg
  let depositId ← randomUUID pg
  insertTransaction pg
    { txId := txId
      userId := input.userId
      type := .deposit
      amount := formatKoriAmount input.amount
      status := .confirmed
      blockTx := some input.txHash
      createdAt := input.nowIso }
  insertDeposit pg depositId input
  appendJournal pg (depositJournal depositId input)
  syncUserAccountProjection pg [input.userId] input.nowIso
  let contract ← Method.ofExcept (buildDepositStateChangedContract pg.toRuntime
    { depositId := depositId
      userId := input.userId
      walletAddress := orElse (input.walletAddress <|> input.toAddress) ""
      txHash := input.txHash
      toAddress := orElse input.toAddress ""
      status := .credited
      amount := input.amount
      blockNumber := input.blockNumber
      occurredAt := input.nowIso })
  enqueueOutboxEvent pg
    { eventType := "deposit.state.changed"
      aggregateType := "deposit"
      aggregateId := depositId
      payload := .deposit contract
      occurredAt := input.nowIso }
  return {
    deposit :=
      { depositId := depositId
        userId := input.userId
        txHash := input.txHash
        amount := input.amount
        status := .credited
        blockNumber := input.blockNumber
        createdAt := input.nowIso }
    duplicated := false }

def applyDeposit (input : DepositInput) : Op DepositApplyResult := withTransaction do
  lockKey ("deposit:" ++ input.txHash)
  match (← get).deposits.find? fun row => row.txHash = input.txHash with
  | some existing => return { deposit := ← Method.ofExcept (mapDeposit existing), duplicated := true }
  | none => applyNewDeposit pg input

/-- outside of a transaction -/
def completeDeposit (depositId : String) : Op Deposit := do
  let id ← column (uuid pg depositId)
  match (← get).deposits.find? fun row => row.depositId = id with
  | none => throw (.domain 404 "NOT_FOUND" "deposit not found")
  | some existing =>
    if existing.status = .completed then Method.ofExcept (mapDeposit existing)
    else
      modify fun s =>
        { s with
          deposits := s.deposits.map fun row =>
            if row.depositId = id then { row with status := .completed } else row }
      Method.ofExcept (mapDeposit { existing with status := .completed })

/-! ## external credits -/

/-- `code.trim().toUpperCase()` -/
def normalizeCode (code : String) : String := pg.toUpperCase (jsTrim code)

def externalCreditResult (input : ExternalCreditInput) (currencyCode : String) (duplicated : Bool)
    (createdAt : String) : ExternalCreditApplyResult where
  creditId := input.referenceId
  userId := input.userId
  amount := input.amount
  currencyCode := currencyCode
  journalType := input.journalType
  referenceType := input.referenceType
  referenceId := input.referenceId
  duplicated := duplicated
  createdAt := createdAt

def externalCreditJournal (input : ExternalCreditInput) (currencyCode : String) : JournalInput where
  journalType := input.journalType
  referenceType := input.referenceType
  referenceId := input.referenceId
  currencyCode := some currencyCode
  description := input.description
  nowIso := input.nowIso
  postings :=
    [LedgerAccount.balanceCreditSync.posting .debit (formatKoriAmount input.amount),
     (LedgerAccount.user input.userId .available).posting .credit (formatKoriAmount input.amount)]

def applyNewExternalCredit (input : ExternalCreditInput) (currencyCode : String) :
    Op ExternalCreditApplyResult := do
  ensureAccount pg input.userId input.nowIso
  lockUsers [input.userId]
  appendJournal pg (externalCreditJournal input currencyCode)
  syncUserAccountProjection pg [input.userId] input.nowIso
  return externalCreditResult input currencyCode false input.nowIso

def applyExternalCredit (input : ExternalCreditInput) : Op ExternalCreditApplyResult := do
  Method.throwWhen (input.amount ≤ 0)
    (.domain 400 "VALIDATION_ERROR" "external credit amount must be positive")
  Method.throwWhen (normalizeCode pg input.currencyCode ≠ "KORI")
    (.domain 400 "UNSUPPORTED_CURRENCY" "external credit ledger sync only supports KORI")
  withTransaction do
    lockKey ("external-credit:" ++ input.referenceType ++ ":" ++ input.referenceId)
    match (← get).findJournal input.referenceType input.referenceId with
    | some existing =>
      return externalCreditResult input (normalizeCode pg input.currencyCode) true existing.createdAt
    | none => applyNewExternalCredit pg input (normalizeCode pg input.currencyCode)

/-! ## transfers -/

def transferJournal (input : TransferInput) : JournalInput where
  journalType := "internal_transfer"
  referenceType := "transfer"
  referenceId := input.idempotencyKey
  description := some ("internal transfer " ++ input.fromUserId ++ " -> " ++ input.toUserId)
  nowIso := input.nowIso
  postings :=
    [(LedgerAccount.user input.fromUserId .available).posting .debit (formatKoriAmount input.amount),
     (LedgerAccount.user input.toUserId .available).posting .credit (formatKoriAmount input.amount)]

/-- the rows of a transfer with this key -/
def Db.transferRows (s : Db) (idempotencyKey : String) : List TransactionRow :=
  s.transactions.filter fun row => row.idempotencyKey = some idempotencyKey ∧
    (row.type = .internalTransferOut ∨ row.type = .internalTransferIn)

def transferNew (input : TransferInput) : Op TransferResult := do
  ensureAccount pg input.fromUserId input.nowIso
  ensureAccount pg input.toUserId input.nowIso
  let fromAccount ← getAccountForUpdate input.fromUserId
  let _ ← getAccountForUpdate input.toUserId
  let fromProjected ← getProjectedUserBalances pg input.fromUserId
  let fromAvailable ← availableBalanceOf fromAccount fromProjected
  Method.throwWhen (fromAvailable < input.amount)
    (.domain 400 "INSUFFICIENT_BALANCE" "insufficient balance for transfer")
  let fromTxId ← randomUUID pg
  let toTxId ← randomUUID pg
  insertTransactionPair pg
    { txId := fromTxId
      userId := input.fromUserId
      type := .internalTransferOut
      amount := formatKoriAmount input.amount
      status := .confirmed
      relatedUserId := some input.toUserId
      idempotencyKey := some input.idempotencyKey
      createdAt := input.nowIso }
    { txId := toTxId
      userId := input.toUserId
      type := .internalTransferIn
      amount := formatKoriAmount input.amount
      status := .confirmed
      relatedUserId := some input.fromUserId
      idempotencyKey := some input.idempotencyKey
      createdAt := input.nowIso }
  appendJournal pg (transferJournal input)
  syncUserAccountProjection pg [input.fromUserId, input.toUserId] input.nowIso
  return {
    fromTx :=
      { txId := fromTxId
        userId := input.fromUserId
        type := .internalTransferOut
        amount := input.amount
        status := .confirmed
        relatedUserId := some input.toUserId
        idempotencyKey := some input.idempotencyKey
        createdAt := input.nowIso }
    toTx :=
      { txId := toTxId
        userId := input.toUserId
        type := .internalTransferIn
        amount := input.amount
        status := .confirmed
        relatedUserId := some input.fromUserId
        idempotencyKey := some input.idempotencyKey
        createdAt := input.nowIso }
    duplicated := false }

def transfer (input : TransferInput) : Op TransferResult := do
  Method.throwWhen (input.fromUserId = input.toUserId)
    (.domain 400 "VALIDATION_ERROR" "fromUserId and toUserId must be different")
  withTransaction do
    lockKey ("transfer:" ++ input.idempotencyKey)
    lockUsers [input.fromUserId, input.toUserId]
    let existingRows := (← get).transferRows input.idempotencyKey
    if 2 ≤ existingRows.length then
      match existingRows.find? fun row => row.type = .internalTransferOut,
        existingRows.find? fun row => row.type = .internalTransferIn with
      | some fromTx, some toTx => return {
          fromTx := ← Method.ofExcept (mapTransaction fromTx)
          toTx := ← Method.ofExcept (mapTransaction toTx)
          duplicated := true }
      | _, _ => throw (.domain 500 "STATE_CORRUPTED" "transfer idempotency state is invalid")
    else transferNew pg input

/-! ## withdrawal requests -/

def withdrawalRow (withdrawalId ledgerTxId : String) (input : WithdrawalInput) :
    Except LedgerError WithdrawalRow := do
  let withdrawId ← uuid pg withdrawalId
  let userId ← varchar 64 input.userId
  let amount ← Numeric.ofText (formatKoriAmount input.amount)
  let toAddress ← varchar 128 input.toAddress
  let idempotencyKey ← varchar 128 input.idempotencyKey
  let ledgerTxId ← uuid pg ledgerTxId
  let createdAt ← timestamp pg input.nowIso
  let riskScore ← integer 32 (orElse input.riskScore 0)
  let riskFlags ← jsonb id (orElse input.riskFlags [])
  let requiredApprovals ← integer 32 (orElse input.requiredApprovals 1)
  let clientIp ← nullable (varchar 64) input.clientIp
  let deviceId ← nullable (varchar 128) input.deviceId
  return {
    withdrawId := withdrawId
    userId := userId
    amount := amount
    toAddress := toAddress
    status := .ledgerReserved
    txHash := none
    idempotencyKey := idempotencyKey
    ledgerTxId := ledgerTxId
    createdAt := createdAt
    approvedAt := none
    broadcastedAt := none
    confirmedAt := none
    failedAt := none
    failReason := none
    riskLevel := orElse input.riskLevel .low
    riskScore := riskScore
    riskFlags := riskFlags
    requiredApprovals := requiredApprovals
    clientIp := clientIp
    deviceId := deviceId
    reviewRequiredAt := none
    externalAuthProvider := none
    externalAuthRequestId := none
    externalAuthConfirmedAt := none }

def insertWithdrawal (withdrawalId ledgerTxId : String) (input : WithdrawalInput) : Op Unit := do
  let row ← column (withdrawalRow pg withdrawalId ledgerTxId input)
  Method.throwWhen (∃ other ∈ (← get).withdrawals,
    other.withdrawId = row.withdrawId ∨ other.idempotencyKey = row.idempotencyKey)
    (.database "23505")
  modify fun s => { s with withdrawals := s.withdrawals ++ [row] }

def getDailyRequestedWithdrawalAmount (userId nowIso : String) : Op ℤ := do
  let now ← column (timestamp pg nowIso)
  let rows := (← get).withdrawals.filter fun row =>
    row.userId = userId ∧ pg.sameDay row.createdAt now ∧ row.status.countsForDailyLimit
  Method.ofExcept (parseStoredKoriAmount (sumText (rows.map fun row => row.amount.units)))

def reserveJournal (withdrawalId : String) (input : WithdrawalInput) : JournalInput where
  journalType := "withdraw_reserved"
  referenceType := "withdrawal"
  referenceId := withdrawalId
  description := some ("withdraw reserve " ++ input.userId)
  nowIso := input.nowIso
  postings :=
    [(LedgerAccount.user input.userId .available).posting .debit (formatKoriAmount input.amount),
     (LedgerAccount.user input.userId .withdrawPending).posting .credit
       (formatKoriAmount input.amount)]

def requestNewWithdrawal (limits : WithdrawalLimitConfig) (input : WithdrawalInput) :
    Op WithdrawalRequestResult := do
  ensureAccount pg input.userId input.nowIso
  let account ← getAccountForUpdate input.userId
  let projected ← getProjectedUserBalances pg input.userId
  let availableBalance ← availableBalanceOf account projected
  Method.throwWhen (availableBalance < input.amount)
    (.domain 400 "INSUFFICIENT_BALANCE" "insufficient balance for withdrawal")
  let dailyRequested ← getDailyRequestedWithdrawalAmount pg input.userId input.nowIso
  Method.throwWhen (limits.dailyLimit < dailyRequested + input.amount)
    (.domain 400 "LIMIT_EXCEEDED" "daily withdrawal limit exceeded")
  let ledgerTxId ← randomUUID pg
  let withdrawalId ← randomUUID pg
  insertTransaction pg
    { txId := ledgerTxId
      userId := input.userId
      type := .withdraw
      amount := formatKoriAmount input.amount
      status := .pending
      idempotencyKey := some input.idempotencyKey
      createdAt := input.nowIso }
  insertWithdrawal pg withdrawalId ledgerTxId input
  appendJournal pg (reserveJournal withdrawalId input)
  syncUserAccountProjection pg [input.userId] input.nowIso
  let inserted ← getWithdrawalForUpdate pg withdrawalId
  let hydrated ← hydrateWithdrawal inserted
  announceWithdrawal pg hydrated withdrawalId hydrated.createdAt
  return { withdrawal := hydrated, duplicated := false }

def requestWithdrawal (limits : WithdrawalLimitConfig) (input : WithdrawalInput) :
    Op WithdrawalRequestResult := do
  Method.throwWhen (limits.singleLimit < input.amount)
    (.domain 400 "LIMIT_EXCEEDED" "single withdrawal limit exceeded")
  withTransaction do
    lockKey ("withdraw:" ++ input.idempotencyKey)
    lockUsers [input.userId]
    match (← get).withdrawals.find? fun row => row.idempotencyKey = input.idempotencyKey with
    | some existing => return { withdrawal := ← hydrateWithdrawal existing, duplicated := true }
    | none => requestNewWithdrawal pg limits input

/-! ## the withdrawal lifecycle -/

/-- read the withdrawal back as it now stands and announce it -/
def announceUpdated (withdrawalId nowIso : String) : Op Withdrawal := do
  let updated ← getWithdrawalForUpdate pg withdrawalId
  let hydrated ← hydrateWithdrawal updated
  announceWithdrawal pg hydrated withdrawalId nowIso
  return hydrated

def confirmWithdrawalExternalAuth (withdrawalId provider requestId nowIso : String) :
    Op Withdrawal := withTransaction do
  lockKey ("withdrawal-state:" ++ withdrawalId)
  let withdrawal ← getWithdrawalForUpdate pg withdrawalId
  if withdrawal.status = .ledgerReserved then
    let externalAuthProvider ← column (varchar 64 provider)
    let externalAuthRequestId ← column (varchar 128 requestId)
    let confirmedAt ← column (timestamp pg nowIso)
    updateWithdrawal pg withdrawalId fun row =>
      { row with
        status := .pendingAdmin
        externalAuthProvider := some externalAuthProvider
        externalAuthRequestId := some externalAuthRequestId
        externalAuthConfirmedAt := some confirmedAt }
    announceUpdated pg withdrawalId nowIso
  else if withdrawal.externalAuthProvider = some provider ∧
      withdrawal.externalAuthRequestId = some requestId ∧
      withdrawal.externalAuthConfirmedAt.isSome then
    hydrateWithdrawal withdrawal
  else
    throw (.domain 409 "INVALID_STATE" "withdrawal external auth cannot be confirmed in current state")

def markWithdrawalReviewRequired (withdrawalId nowIso : String) : Op Withdrawal := withTransaction do
  lockKey ("withdrawal-state:" ++ withdrawalId)
  let withdrawal ← getWithdrawalForUpdate pg withdrawalId
  if withdrawal.status ≠ .pendingAdmin then hydrateWithdrawal withdrawal
  else
    let reviewRequiredAt ← column (timestamp pg nowIso)
    updateWithdrawal pg withdrawalId fun row =>
      { row with reviewRequiredAt := some reviewRequiredAt }
    announceUpdated pg withdrawalId nowIso

def approvalRow (approvalId withdrawalId : String) (input : ApprovalInput) (nowIso : String) :
    Except LedgerError WithdrawalApprovalRow := do
  let approvalId ← uuid pg approvalId
  let withdrawId ← uuid pg withdrawalId
  let adminId ← varchar 64 input.adminId
  let note ← nullable text input.note
  let createdAt ← timestamp pg nowIso
  return ⟨approvalId, withdrawId, adminId, input.actorType,
    orElse input.reasonCode .manualReviewPassed, note, createdAt⟩

def insertApproval (approvalId withdrawalId : String) (input : ApprovalInput) (nowIso : String) :
    Op Unit := do
  let row ← column (approvalRow pg approvalId withdrawalId input nowIso)
  Method.throwWhen (∃ other ∈ (← get).withdrawalApprovals, other.approvalId = row.approvalId ∨
    (other.withdrawId = row.withdrawId ∧ other.adminId = row.adminId)) (.database "23505")
  modify fun s => { s with withdrawalApprovals := s.withdrawalApprovals ++ [row] }

/-- an admin's earlier approval of the withdrawal -/
def Db.findApproval (s : Db) (withdrawId adminId : String) : Option WithdrawalApprovalRow :=
  s.withdrawalApprovals.find? fun row => row.withdrawId = withdrawId ∧ row.adminId = adminId

def approveWithdrawal (withdrawalId : String) (input : ApprovalInput) (nowIso : String) :
    Op ApprovalDecisionResult := withTransaction do
  lockKey ("withdrawal-state:" ++ withdrawalId)
  let withdrawal ← getWithdrawalForUpdate pg withdrawalId
  Method.throwWhen (withdrawal.status ≠ .pendingAdmin)
    (.domain 409 "INVALID_STATE" "withdrawal must be pending admin approval")
  let _ ← column (text input.adminId)
  Method.throwWhen (((← get).findApproval withdrawal.withdrawId input.adminId).isSome)
    (.domain 409 "ALREADY_APPROVED" "admin already approved this withdrawal")
  let approvalId ← randomUUID pg
  insertApproval pg approvalId withdrawalId input nowIso
  let approvalCount := (← get).approvalCount withdrawal.withdrawId
  let finalized := decide (withdrawal.requiredApprovals ≤ approvalCount)
  if finalized then
    let approvedAt ← column (timestamp pg nowIso)
    updateWithdrawal pg withdrawalId fun row =>
      { row with status := .adminApproved, approvedAt := some approvedAt }
  else pure ()
  let hydrated ← announceUpdated pg withdrawalId nowIso
  return {
    withdrawal := hydrated
    approval :=
      { approvalId := approvalId
        withdrawalId := withdrawalId
        adminId := input.adminId
        actorType := input.actorType
        reasonCode := orElse input.reasonCode .manualReviewPassed
        note := input.note
        createdAt := nowIso }
    finalized := finalized }

def broadcastWithdrawal (withdrawalId txHash nowIso : String) : Op Withdrawal := withTransaction do
  lockKey ("withdrawal-state:" ++ withdrawalId)
  let withdrawal ← getWithdrawalForUpdate pg withdrawalId
  Method.throwWhen (withdrawal.status ≠ .adminApproved)
    (.domain 409 "INVALID_STATE" "withdrawal must be admin approved")
  let hash ← column (varchar 128 txHash)
  let broadcastedAt ← column (timestamp pg nowIso)
  updateWithdrawal pg withdrawalId fun row =>
    { row with
      status := .txBroadcasted, txHash := some hash, broadcastedAt := some broadcastedAt }
  announceUpdated pg withdrawalId nowIso

/-! ## settling a withdrawal -/

def formatTrxSunAmount (value : ℤ) : String :=
  String.ofList ((if value < 0 then ['-'] else []) ++ (Nat.toDigits 10 (value.natAbs / 1000000) ++
    '.' :: padStart 6 (Nat.toDigits 10 (value.natAbs % 1000000))))

theorem formatTrxSunAmount_eq (value : ℤ) : formatTrxSunAmount value = formatKoriAmount value := rfl

/-- `NUMERIC(36, 0)` -/
def wholeNumeric (n : ℤ) : Except LedgerError ℤ :=
  if n.natAbs < 10 ^ 36 then .ok n else .error (.database "22003")

def feeReceiptRow (feeReceiptId : String) (referenceType : FeeReferenceType) (referenceId : String)
    (fee : NetworkFee) (nowIso : String) : Except LedgerError NetworkFeeReceiptRow := do
  let feeReceiptId ← uuid pg feeReceiptId
  let referenceId ← varchar 64 referenceId
  let txHash ← varchar 128 fee.txHash
  let feeSun ← wholeNumeric fee.feeSun
  let energyUsed ← integer 32 fee.energyUsed
  let bandwidthUsed ← integer 32 fee.bandwidthUsed
  let confirmedAt ← timestamp pg nowIso
  return ⟨feeReceiptId, referenceType, referenceId, txHash, feeSun, energyUsed, bandwidthUsed,
    confirmedAt, confirmedAt⟩

/-- a second receipt for the same reference is dropped -/
def persistNetworkFeeReceipt (referenceType : FeeReferenceType) (referenceId : String)
    (fee : NetworkFee) (nowIso : String) : Op Unit := do
  let feeReceiptId ← randomUUID pg
  let row ← column (feeReceiptRow pg feeReceiptId referenceType referenceId fee nowIso)
  modify fun s =>
    if ∃ other ∈ s.networkFeeReceipts,
      other.referenceType = row.referenceType ∧ other.referenceId = row.referenceId then s
    else { s with networkFeeReceipts := s.networkFeeReceipts ++ [row] }

def withdrawalFeeJournal (withdrawalId txHash : String) (fee : NetworkFee) (nowIso : String) :
    JournalInput where
  journalType := "withdraw_network_fee"
  referenceType := "withdrawal"
  referenceId := withdrawalId
  currencyCode := some "TRX"
  description := some (jsTrim ("withdraw network fee " ++ txHash))
  nowIso := nowIso
  postings :=
    [LedgerAccount.withdrawNetworkFee.posting .debit (formatTrxSunAmount fee.feeSun),
     LedgerAccount.hotWalletTrx.posting .credit (formatTrxSunAmount fee.feeSun)]

def recordNetworkFee (withdrawalId : String) (txHash : Option String)
    (networkFee : Option NetworkFee) (nowIso : String) : Op Unit :=
  match networkFee, truthy txHash with
  | some fee, some txHash => do
    persistNetworkFeeReceipt pg .withdrawal withdrawalId fee nowIso
    appendJournal pg (withdrawalFeeJournal withdrawalId txHash fee nowIso)
  | _, _ => return ()

def completeJournal (withdrawalId : String) (mapped : Withdrawal) (nowIso : String) :
    JournalInput where
  journalType := "withdraw_completed"
  referenceType := "withdrawal"
  referenceId := withdrawalId
  currencyCode := some "KORI"
  description := some (jsTrim ("withdraw complete " ++ orElse mapped.txHash ""))
  nowIso := nowIso
  postings :=
    [(LedgerAccount.user mapped.userId .withdrawPending).posting .debit
       (formatKoriAmount mapped.amount),
     LedgerAccount.hotWallet.posting .credit (formatKoriAmount mapped.amount)]

/-- the reserve of a withdrawal about to be settled is there -/
def assertReserved (mapped : Withdrawal) : Op Unit := do
  lockUsers [mapped.userId]
  let account ← getAccountForUpdate mapped.userId
  let projected ← getProjectedUserBalances pg mapped.userId
  let lockedBalance ← lockedBalanceOf account projected
  Method.throwWhen (lockedBalance < mapped.amount)
    (.domain 500 "STATE_CORRUPTED" "locked balance underflow")

def confirmWithdrawal (withdrawalId : String) (networkFee : Option NetworkFee) (nowIso : String) :
    Op Withdrawal := withTransaction do
  lockKey ("withdrawal-state:" ++ withdrawalId)
  let withdrawal ← getWithdrawalForUpdate pg withdrawalId
  Method.throwWhen (withdrawal.status ≠ .txBroadcasted)
    (.domain 409 "INVALID_STATE" "withdrawal must be tx broadcasted")
  let mapped ← hydrateWithdrawal withdrawal
  assertReserved pg mapped
  updateTransaction pg mapped.ledgerTxId fun row =>
    { row with status := .confirmed, blockTx := mapped.txHash }
  let confirmedAt ← column (timestamp pg nowIso)
  updateWithdrawal pg withdrawalId fun row =>
    { row with status := .completed, confirmedAt := some confirmedAt }
  appendJournal pg (completeJournal withdrawalId mapped nowIso)
  recordNetworkFee pg withdrawalId mapped.txHash networkFee nowIso
  syncUserAccountProjection pg [mapped.userId] nowIso
  announceUpdated pg withdrawalId nowIso

def releaseJournal (withdrawalId reason : String) (mapped : Withdrawal) (nowIso : String) :
    JournalInput where
  journalType := "withdraw_released"
  referenceType := "withdrawal"
  referenceId := withdrawalId
  description := some reason
  nowIso := nowIso
  postings :=
    [(LedgerAccount.user mapped.userId .withdrawPending).posting .debit
       (formatKoriAmount mapped.amount),
     (LedgerAccount.user mapped.userId .available).posting .credit (formatKoriAmount mapped.amount)]

def failWithdrawal (withdrawalId reason nowIso : String) : Op Withdrawal := withTransaction do
  lockKey ("withdrawal-state:" ++ withdrawalId)
  let withdrawal ← getWithdrawalForUpdate pg withdrawalId
  Method.throwWhen (withdrawal.status.isActive = false)
    (.domain 409 "INVALID_STATE" "withdrawal cannot be failed in current state")
  let mapped ← hydrateWithdrawal withdrawal
  assertReserved pg mapped
  updateTransaction pg mapped.ledgerTxId fun row => { row with status := .failed }
  let failedAt ← column (timestamp pg nowIso)
  let failReason ← column (text reason)
  updateWithdrawal pg withdrawalId fun row =>
    { row with status := .failed, failedAt := some failedAt, failReason := some failReason }
  appendJournal pg (releaseJournal withdrawalId reason mapped nowIso)
  syncUserAccountProjection pg [mapped.userId] nowIso
  announceUpdated pg withdrawalId nowIso

/-! ## sweeps -/

structure SweepInput where
  sourceWalletCode : String
  sourceAddress : String
  targetAddress : String
  amount : ℤ
  externalRef : Option String
  note : Option String
  nowIso : String

def sweepRow (sweepId : String) (input : SweepInput) : Except LedgerError SweepRecordRow := do
  let sweepId ← uuid pg sweepId
  let sourceWalletCode ← varchar 32 input.sourceWalletCode
  let sourceAddress ← varchar 128 input.sourceAddress
  let targetAddress ← varchar 128 input.targetAddress
  let amount ← Numeric.ofText (formatKoriAmount input.amount)
  let externalRef ← nullable (varchar 255) input.externalRef
  let note ← nullable text input.note
  let createdAt ← timestamp pg input.nowIso
  return ⟨sweepId, sourceWalletCode, sourceAddress, targetAddress, amount, .planned, externalRef,
    none, note, createdAt, none, none, 0, none, none⟩

def insertSweep (sweepId : String) (input : SweepInput) : Op SweepRecordRow := do
  let row ← column (sweepRow pg sweepId input)
  Method.throwWhen (∃ other ∈ (← get).sweepRecords, other.sweepId = row.sweepId ∨
    (row.externalRef.isSome ∧ other.externalRef = row.externalRef)) (.database "23505")
  modify fun s => { s with sweepRecords := s.sweepRecords ++ [row] }
  return row

def createSweepRecord (input : SweepInput) : Op SweepRecordRow := withTransaction do
  lockKey ("sweep-source:" ++ input.sourceAddress)
  match truthy input.externalRef with
  | none =>
    let sweepId ← randomUUID pg
    insertSweep pg sweepId input
  | some externalRef =>
    lockKey ("sweep-external-ref:" ++ externalRef)
    match (← get).sweepRecords.find? fun row => row.externalRef = some externalRef with
    | some duplicated => return duplicated
    | none =>
      let sweepId ← randomUUID pg
      insertSweep pg sweepId input

/-- A step of a sweep, outside of a transaction: the record's status must be among `sources`. -/
def stepSweep (sweepId : String) (sources : List SweepStatus) (message : String)
    (change : SweepRecordRow → Except LedgerError SweepRecordRow) : Op SweepRecordRow := do
  let id ← column (uuid pg sweepId)
  match (← get).sweepRecords.find? fun row => row.sweepId = id with
  | none => throw (.domain 404 "NOT_FOUND" "sweep not found")
  | some existing =>
    Method.throwWhen (existing.status ∉ sources) (.domain 409 "INVALID_STATE" message)
    let updated ← column (change existing)
    modify fun s =>
      { s with
        sweepRecords := s.sweepRecords.map fun row => if row.sweepId = id then updated else row }
    return updated

def markSweepQueued (sweepId : String) (note : Option String) (nowIso : String) : Op SweepRecordRow :=
  stepSweep pg sweepId [.planned] "sweep must be planned" fun row => do
    let note ← nullable text note
    let queuedAt ← match row.queuedAt with
      | some queuedAt => .ok queuedAt
      | none => timestamp pg nowIso
    return { row with status := .queued, note := note <|> row.note, queuedAt := some queuedAt }

def recordSweepAttempt (sweepId : String) (note : Option String) (nowIso : String) :
    Op SweepRecordRow :=
  stepSweep pg sweepId [.queued] "sweep must be queued" fun row => do
    let note ← nullable text note
    let attemptCount ← integer 32 (.finite (row.attemptCount + 1 : ℤ))
    let lastAttemptAt ← timestamp pg nowIso
    return { row with
      note := note <|> row.note, attemptCount := attemptCount, lastAttemptAt := some lastAttemptAt }

def markSweepBroadcasted (sweepId txHash : String) (note : Option String) (nowIso : String) :
    Op SweepRecordRow :=
  stepSweep pg sweepId [.planned, .queued] "sweep must be planned or queued" fun row => do
    let hash ← varchar 128 txHash
    let note ← nullable text note
    let broadcastedAt ← timestamp pg nowIso
    return { row with
      status := .broadcasted, txHash := some hash, note := note <|> row.note
      broadcastedAt := some broadcastedAt }

def failSweep (sweepId reason nowIso : String) : Op SweepRecordRow :=
  stepSweep pg sweepId [.planned, .queued, .broadcasted]
    "sweep must be planned, queued or broadcasted" fun row => do
      let note ← text reason
      let confirmedAt ← timestamp pg nowIso
      return { row with status := .failed, note := some note, confirmedAt := some confirmedAt }

def sweepFeeJournal (sweepId txHash : String) (fee : NetworkFee) (nowIso : String) :
    JournalInput where
  journalType := "sweep_network_fee"
  referenceType := "sweep"
  referenceId := sweepId
  currencyCode := some "TRX"
  description := some (jsTrim ("sweep network fee " ++ txHash))
  nowIso := nowIso
  postings :=
    [LedgerAccount.sweepNetworkFee.posting .debit (formatTrxSunAmount fee.feeSun),
     LedgerAccount.sweepSourceTrx.posting .credit (formatTrxSunAmount fee.feeSun)]

def recordSweepFee (sweepId : String) (txHash : Option String) (networkFee : Option NetworkFee)
    (nowIso : String) : Op Unit :=
  match networkFee, truthy txHash with
  | some fee, some txHash => do
    persistNetworkFeeReceipt pg .sweep sweepId fee nowIso
    appendJournal pg (sweepFeeJournal sweepId txHash fee nowIso)
  | _, _ => return ()

/-- outside of a transaction: what was written before a throw stays -/
def confirmSweep (sweepId : String) (note : Option String) (networkFee : Option NetworkFee)
    (nowIso : String) : Op SweepRecordRow := do
  let row ← stepSweep pg sweepId [.planned, .broadcasted] "sweep must be planned or broadcasted"
    fun row => do
      let note ← nullable text note
      let confirmedAt ← timestamp pg nowIso
      return { row with
        status := .confirmed, note := note <|> row.note, confirmedAt := some confirmedAt }
  recordSweepFee pg sweepId row.txHash networkFee nowIso
  return row

end

end Postgres
