import CoinManage.Postgres.Ledger

/-!
# Offline pay

A user locks collateral (`available` to `offline_pay_pending`), settlements consume it into the
clearing account or give it back, a receiver may be credited out of clearing, and a settlement may
be compensated.  Every call is known by its own id: a repeated id is answered as a duplicate,
whatever else the request says.  The two reconciliations post the difference to a target.
-/

namespace Postgres

open DoubleEntry

/-! ## requests and answers -/

structure LockInput where
  userId : String
  amount : ℤ
  deviceId : String
  assetCode : String
  referenceId : String
  policyVersion : JsNumber
  nowIso : String

structure ReleaseInput where
  userId : String
  amount : ℤ
  deviceId : String
  collateralId : String
  assetCode : String
  referenceId : String
  nowIso : String

/-- the answer to a lock or a release -/
structure OfflinePayLockResult where
  id : String
  status : String
  duplicated : Bool
  deriving DecidableEq

inductive ReleaseAction where
  | release
  | adjust
  deriving DecidableEq, Repr

def ReleaseAction.text : ReleaseAction → String
  | .release => "RELEASE"
  | .adjust => "ADJUST"

structure FinalizeInput where
  settlementId : String
  batchId : String
  collateralId : String
  proofId : String
  proofFingerprint : String
  userId : String
  deviceId : String
  receiverUserId : Option String
  receiverDeviceId : Option String
  receiverWalletSettlementRequested : Option Bool
  assetCode : String
  amount : ℤ
  feeAmount : Option ℤ
  settlementStatus : String
  releaseAction : ReleaseAction
  conflictDetected : Bool
  financiallyHonored : Option Bool
  newStateHash : String
  previousHash : String
  monotonicCounter : JsNumber
  nonce : String
  signature : String
  nowIso : String

structure CompensateInput where
  settlementId : String
  batchId : String
  collateralId : String
  proofId : String
  proofFingerprint : String
  userId : String
  deviceId : String
  assetCode : String
  amount : ℤ
  releaseAction : ReleaseAction
  compensationReason : String
  nowIso : String

structure OfflinePaySettlementFinalizeResult where
  settlementId : String
  status : String := "FINALIZED"
  ledgerOutcome : String
  releaseAction : ReleaseAction
  duplicated : Bool
  feeAmount : ℤ
  accountingSide : String := "SENDER"
  receiverSettlementMode : String
  settlementModel : String
  reconciliationTrackingOwner : String := "OFFLINE_PAY_SAGA"
  postAvailableBalance : ℤ
  postLockedBalance : ℤ
  postOfflinePayPendingBalance : ℤ
  deriving DecidableEq

structure DeviceInput where
  userId : String
  deviceId : String
  status : DeviceStatus

structure ReconcileInput where
  userId : String
  /-- `targetLiabilityBalance`, `targetPendingBalance` -/
  target : ℤ
  canonicalBasis : String
  nowIso : String

structure ReconcileResult where
  userId : String
  previousBalance : ℤ
  target : ℤ
  deltaAmount : ℤ
  adjusted : Bool
  deriving DecidableEq

section
variable (pg : PgServer)

/-! ## collateral -/

def lockJournal (input : LockInput) : JournalInput where
  journalType := "offline_pay_locked"
  referenceType := "offline_pay_lock"
  referenceId := input.referenceId
  description := some (jsTrim ("offline pay collateral lock " ++ input.userId ++ " " ++ input.deviceId))
  nowIso := input.nowIso
  postings :=
    [(LedgerAccount.user input.userId .available).posting .debit (formatKoriAmount input.amount),
     (LedgerAccount.user input.userId .offlinePayPending).posting .credit
       (formatKoriAmount input.amount)]

def lockNewCollateral (input : LockInput) : Op OfflinePayLockResult := do
  ensureAccount pg input.userId input.nowIso
  let account ← getAccountForUpdate input.userId
  let projected ← getProjectedUserBalances pg input.userId
  let availableBalance ← availableBalanceOf account projected
  Method.throwWhen (availableBalance < input.amount)
    (.domain 400 "INSUFFICIENT_BALANCE" "insufficient balance for offline pay collateral")
  appendJournal pg (lockJournal input)
  syncUserAccountProjection pg [input.userId] input.nowIso
  enqueueOutboxEvent pg
    { eventType := "offline_pay.collateral.locked"
      aggregateType := "offline_pay_lock"
      aggregateId := input.referenceId
      payload := .offlinePay
        ⟨[("userId", .text input.userId), ("deviceId", .text input.deviceId),
          ("assetCode", .text input.assetCode), ("amount", .text (formatKoriAmount input.amount)),
          ("policyVersion", .number input.policyVersion), ("occurredAt", .text input.nowIso)]⟩
      occurredAt := input.nowIso }
  return ⟨input.referenceId, "LOCKED", false⟩

def lockOfflinePayCollateral (input : LockInput) : Op OfflinePayLockResult := withTransaction do
  lockKey ("offline-pay-lock:" ++ input.referenceId)
  match (← get).findJournal "offline_pay_lock" input.referenceId with
  | some _ => return ⟨input.referenceId, "LOCKED", true⟩
  | none => lockNewCollateral pg input

def releaseCollateralJournal (input : ReleaseInput) : JournalInput where
  journalType := "offline_pay_released"
  referenceType := "offline_pay_release"
  referenceId := input.referenceId
  description := some (jsTrim ("offline pay collateral release " ++ input.collateralId))
  nowIso := input.nowIso
  postings :=
    [(LedgerAccount.user input.userId .offlinePayPending).posting .debit
       (formatKoriAmount input.amount),
     (LedgerAccount.user input.userId .available).posting .credit (formatKoriAmount input.amount)]

def releaseNewCollateral (input : ReleaseInput) : Op OfflinePayLockResult := do
  ensureAccount pg input.userId input.nowIso
  lockUsers [input.userId]
  let pendingBalance ←
    getProjectedLedgerAccountBalance (LedgerAccount.user input.userId .offlinePayPending)
  Method.throwWhen (pendingBalance < input.amount)
    (.domain 409 "INSUFFICIENT_OFFLINE_PAY_PENDING" "offline pay pending balance underflow")
  appendJournal pg (releaseCollateralJournal input)
  syncUserAccountProjection pg [input.userId] input.nowIso
  enqueueOutboxEvent pg
    { eventType := "offline_pay.collateral.released"
      aggregateType := "offline_pay_release"
      aggregateId := input.referenceId
      payload := .offlinePay
        ⟨[("userId", .text input.userId), ("deviceId", .text input.deviceId),
          ("collateralId", .text input.collateralId), ("assetCode", .text input.assetCode),
          ("amount", .text (formatKoriAmount input.amount)), ("occurredAt", .text input.nowIso)]⟩
      occurredAt := input.nowIso }
  return ⟨input.referenceId, "RELEASED", false⟩

def releaseOfflinePayCollateral (input : ReleaseInput) : Op OfflinePayLockResult :=
  withTransaction do
    lockKey ("offline-pay-release:" ++ input.referenceId)
    match (← get).findJournal "offline_pay_release" input.referenceId with
    | some _ => return ⟨input.referenceId, "RELEASED", true⟩
    | none => releaseNewCollateral pg input

/-! ## the settlement fee -/

def BPS_DENOMINATOR : ℤ := 10000

/-- `OFFLINE_PAY_SETTLEMENT_FEE_BPS_BY_ASSET` -/
def getOfflinePaySettlementFeeBps (assetCode : String) : ℤ :=
  if normalizeCode pg assetCode = "KORI" then 10 else 0

def calculateOfflinePaySettlementFee (assetCode : String) (amount : ℤ) : ℤ :=
  let feeBps := getOfflinePaySettlementFeeBps pg assetCode
  if feeBps ≤ 0 ∨ amount ≤ 0 then 0
  else (amount * feeBps + BPS_DENOMINATOR / 2) / BPS_DENOMINATOR

/-- the fee of a settlement: only a release has one -/
def settlementFee (input : FinalizeInput) : ℤ :=
  match input.releaseAction with
  | .release => calculateOfflinePaySettlementFee pg input.assetCode input.amount
  | .adjust => 0

/-- `amount > fee ? amount - fee : 0` -/
def receiverCreditAmount (input : FinalizeInput) : ℤ :=
  if settlementFee pg input < input.amount then input.amount - settlementFee pg input else 0

/-- rounded to the nearest, the fee lies between zero and the amount -/
theorem settlementFee_bounds (input : FinalizeInput) (h : 0 ≤ input.amount) :
    0 ≤ settlementFee pg input ∧ settlementFee pg input ≤ input.amount := by
  unfold settlementFee calculateOfflinePaySettlementFee getOfflinePaySettlementFeeBps
  cases input.releaseAction with
  | adjust => exact ⟨le_refl 0, h⟩
  | release =>
    by_cases hcode : normalizeCode pg input.assetCode = "KORI"
    · simp only [hcode, if_true, BPS_DENOMINATOR]
      split
      · exact ⟨le_refl 0, h⟩
      · omega
    · simp only [hcode, if_false, le_refl, true_or, if_true]
      exact ⟨trivial, h⟩

/-- what is left of the amount when the fee is taken off -/
theorem receiverCreditAmount_eq (input : FinalizeInput) (h : 0 ≤ input.amount) :
    receiverCreditAmount pg input = input.amount - settlementFee pg input := by
  have hfee := settlementFee_bounds pg input h
  rw [receiverCreditAmount]
  split
  · rfl
  · omega

/-! ## the receiver of a settlement -/

def findOfflinePayReceiverUserId (s : Db) (senderUserId : String)
    (receiverDeviceId : Option String) : Except LedgerError (Option String) :=
  match truthy (receiverDeviceId.map jsTrim) with
  | none => return none
  | some normalizedDeviceId => do
    let deviceId ← text normalizedDeviceId
    match s.offlinePayDevices.find? fun row => row.deviceId = deviceId ∧ row.status = .active with
    | none => return none
    | some row =>
      if row.userId = "" ∨ row.userId = senderUserId then return none else return some row.userId

def resolveOfflinePayReceiverUserId (s : Db) (input : FinalizeInput) :
    Except LedgerError (Option String) :=
  match truthy (input.receiverUserId.map jsTrim) with
  | none => findOfflinePayReceiverUserId s input.userId input.receiverDeviceId
  | some normalized =>
    if normalized = input.userId then
      findOfflinePayReceiverUserId s input.userId input.receiverDeviceId
    else return some normalized

def FinalizeInput.requested (input : FinalizeInput) : Bool :=
  input.receiverWalletSettlementRequested == some true

def receiverJournal (input : FinalizeInput) (receiverUserId : String) (amountValue : String) :
    JournalInput where
  journalType := "offline_pay_receiver_settled"
  referenceType := "offline_pay_receiver_settlement"
  referenceId := input.settlementId
  description := some (jsTrim ("RECEIVER SETTLED " ++ input.settlementStatus))
  nowIso := input.nowIso
  postings :=
    [LedgerAccount.offlinePayClearing.posting .debit amountValue,
     (LedgerAccount.user receiverUserId .available).posting .credit amountValue]

/-- the conditions on a request under which its receiver is credited -/
def FinalizeInput.creditsReceiver (input : FinalizeInput) : Bool :=
  (input.settlementStatus == "SETTLED" || input.financiallyHonored == some true) &&
    input.releaseAction == .release && !input.conflictDetected

def appendOfflinePayReceiverSettlementIfNeeded (input : FinalizeInput)
    (receiverUserId : Option String) (receiverCreditAmount : ℤ) : Op Unit := do
  match truthy receiverUserId with
  | none => return ()
  | some receiverUserId =>
    if input.creditsReceiver = false then return ()
    else
      match (← get).findJournal "offline_pay_receiver_settlement" input.settlementId with
      | some _ => return ()
      | none =>
        appendJournal pg (receiverJournal input receiverUserId (formatKoriAmount receiverCreditAmount))

/-! ## finalizing a settlement -/

/-- the users whose balances a settlement may change -/
def affectedUserIds (input : FinalizeInput) (receiverUserId : Option String) : List String :=
  match truthy receiverUserId with
  | some receiver => if input.requested then [input.userId, receiver] else [input.userId]
  | none => [input.userId]

/-- the sender's leg of a settlement -/
def settlementPostings (input : FinalizeInput) : List LedgerPostingInput :=
  match input.releaseAction with
  | .release =>
    [(LedgerAccount.user input.userId .offlinePayPending).posting .debit
       (formatKoriAmount input.amount),
     LedgerAccount.offlinePayClearing.posting .credit
       (formatKoriAmount (receiverCreditAmount pg input))] ++
    (if 0 < settlementFee pg input then
      [LedgerAccount.offlinePayFee.posting .credit (formatKoriAmount (settlementFee pg input))]
    else [])
  | .adjust =>
    [(LedgerAccount.user input.userId .offlinePayPending).posting .debit
       (formatKoriAmount input.amount),
     (LedgerAccount.user input.userId .available).posting .credit (formatKoriAmount input.amount)]

def settlementJournal (input : FinalizeInput) : JournalInput where
  journalType := match input.releaseAction with
    | .release => "offline_pay_settled"
    | .adjust => "offline_pay_released"
  referenceType := "offline_pay_settlement"
  referenceId := input.settlementId
  description := some (jsTrim (input.releaseAction.text ++ " " ++ input.settlementStatus))
  nowIso := input.nowIso
  postings := settlementPostings pg input

/-- whether the answer names the receiver's ledger -/
def creditsLedger (input : FinalizeInput) (receiverUserId : Option String) : Bool :=
  (truthy receiverUserId).isSome && input.requested

def finalizeResult (input : FinalizeInput) (receiverUserId : Option String) (duplicated : Bool)
    (feeAmount : ℤ) (projected : ProjectedBalances) (pending : ℤ) :
    OfflinePaySettlementFinalizeResult where
  settlementId := input.settlementId
  ledgerOutcome := "FINALIZED"
  releaseAction := input.releaseAction
  duplicated := duplicated
  feeAmount := feeAmount
  receiverSettlementMode :=
    if creditsLedger input receiverUserId then "LEDGER_AND_EXTERNAL_HISTORY_SYNC"
    else "EXTERNAL_HISTORY_SYNC"
  settlementModel :=
    if creditsLedger input receiverUserId then "SENDER_LEDGER_PLUS_RECEIVER_LEDGER_AND_HISTORY"
    else "SENDER_LEDGER_PLUS_RECEIVER_HISTORY"
  postAvailableBalance := projected.balance
  postLockedBalance := projected.lockedBalance
  postOfflinePayPendingBalance := pending

/-- the receiver's leg where the request asks for one -/
def creditReceiver (input : FinalizeInput) (receiverUserId : Option String) : Op Unit :=
  if input.requested then
    appendOfflinePayReceiverSettlementIfNeeded pg input receiverUserId (receiverCreditAmount pg input)
  else return ()

/-- a settlement that is already recorded: a receiver's leg may still be appended -/
def finalizeReplay (input : FinalizeInput) (receiverUserId : Option String) :
    Op OfflinePaySettlementFinalizeResult := do
  creditReceiver pg input receiverUserId
  syncUserAccountProjection pg (affectedUserIds input receiverUserId) input.nowIso
  let projected ← getProjectedUserBalances pg input.userId
  let pending ←
    getProjectedLedgerAccountBalance (LedgerAccount.user input.userId .offlinePayPending)
  return finalizeResult input receiverUserId true (orElse input.feeAmount 0) projected pending

def finalizedPayload (input : FinalizeInput) : OfflinePayEventPayload :=
  ⟨[("settlementId", .text input.settlementId), ("batchId", .text input.batchId),
    ("collateralId", .text input.collateralId), ("proofId", .text input.proofId),
    ("proofFingerprint", .text input.proofFingerprint), ("newStateHash", .text input.newStateHash),
    ("previousHash", .text input.previousHash),
    ("monotonicCounter", .number input.monotonicCounter), ("nonce", .text input.nonce),
    ("signature", .text input.signature)] ++
    (input.receiverUserId.map fun u => ("receiverUserId", PayloadValue.text u)).toList ++
    (input.receiverDeviceId.map fun d => ("receiverDeviceId", PayloadValue.text d)).toList ++
    [("receiverWalletSettlementRequested", .flag input.requested), ("userId", .text input.userId),
    ("deviceId", .text input.deviceId), ("assetCode", .text input.assetCode),
    ("amount", .text (formatKoriAmount input.amount)),
    ("feeAmount", .text (formatKoriAmount (settlementFee pg input))),
    ("settlementStatus", .text input.settlementStatus),
    ("releaseAction", .text input.releaseAction.text),
    ("conflictDetected", .flag input.conflictDetected),
    ("financiallyHonored", .flag (input.financiallyHonored == some true)),
    ("occurredAt", .text input.nowIso)]⟩

def finalizeNew (input : FinalizeInput) (receiverUserId : Option String) :
    Op OfflinePaySettlementFinalizeResult := do
  Method.throwWhen (orElse input.feeAmount 0 < 0)
    (.domain 400 "INVALID_OFFLINE_PAY_FEE" "offline pay settlement fee must be non-negative")
  Method.throwWhen (input.releaseAction = .release ∧ input.feeAmount.isSome ∧
    input.feeAmount ≠ some (calculateOfflinePaySettlementFee pg input.assetCode input.amount))
    (.domain 409 "OFFLINE_PAY_FEE_MISMATCH" "offline pay settlement fee mismatch")
  let pendingBalance ←
    getProjectedLedgerAccountBalance (LedgerAccount.user input.userId .offlinePayPending)
  Method.throwWhen (pendingBalance < input.amount)
    (.domain 409 "INSUFFICIENT_OFFLINE_PAY_PENDING" "offline pay pending balance underflow")
  appendJournal pg (settlementJournal pg input)
  creditReceiver pg input receiverUserId
  syncUserAccountProjection pg (affectedUserIds input receiverUserId) input.nowIso
  let projected ← getProjectedUserBalances pg input.userId
  let pending ←
    getProjectedLedgerAccountBalance (LedgerAccount.user input.userId .offlinePayPending)
  enqueueOutboxEvent pg
    { eventType := "offline_pay.settlement.finalized"
      aggregateType := "offline_pay_settlement"
      aggregateId := input.settlementId
      payload := .offlinePay (finalizedPayload pg input)
      occurredAt := input.nowIso }
  return finalizeResult input receiverUserId false (settlementFee pg input) projected pending

/-- the accounts of the affected users -/
def ensureAccounts (nowIso : String) : List String → Op Unit
  | [] => return ()
  | userId :: userIds => do
    ensureAccount pg userId nowIso
    ensureAccounts nowIso userIds

def finalizeOfflinePaySettlement (input : FinalizeInput) :
    Op OfflinePaySettlementFinalizeResult := withTransaction do
  lockKey ("offline-pay-settlement:" ++ input.settlementId)
  let receiverUserId ← column (resolveOfflinePayReceiverUserId (← get) input)
  let existing := (← get).findJournal "offline_pay_settlement" input.settlementId
  ensureAccounts pg input.nowIso (affectedUserIds input receiverUserId)
  lockUsers (affectedUserIds input receiverUserId)
  if existing.isSome then finalizeReplay pg input receiverUserId
  else finalizeNew pg input receiverUserId

/-! ## compensating a settlement -/

/-- what a compensation posts; it does not look at what the settlement posted -/
def compensationPostings (input : CompensateInput) : List LedgerPostingInput :=
  match input.releaseAction with
  | .release =>
    [LedgerAccount.offlinePayClearing.posting .debit (formatKoriAmount input.amount),
     (LedgerAccount.user input.userId .offlinePayPending).posting .credit
       (formatKoriAmount input.amount)]
  | .adjust =>
    [(LedgerAccount.user input.userId .available).posting .debit (formatKoriAmount input.amount),
     (LedgerAccount.user input.userId .offlinePayPending).posting .credit
       (formatKoriAmount input.amount)]

def compensationJournal (input : CompensateInput) : JournalInput where
  journalType := match input.releaseAction with
    | .release => "offline_pay_settlement_compensated"
    | .adjust => "offline_pay_adjustment_compensated"
  referenceType := "offline_pay_settlement_compensation"
  referenceId := input.settlementId
  description := some (jsTrim ("COMPENSATE " ++ input.compensationReason))
  nowIso := input.nowIso
  postings := compensationPostings input

def compensateResult (input : CompensateInput) (duplicated : Bool) (projected : ProjectedBalances)
    (pending : ℤ) : OfflinePaySettlementFinalizeResult where
  settlementId := input.settlementId
  ledgerOutcome := "COMPENSATED"
  releaseAction := input.releaseAction
  duplicated := duplicated
  feeAmount := 0
  receiverSettlementMode := "EXTERNAL_HISTORY_SYNC"
  settlementModel := "SENDER_LEDGER_PLUS_RECEIVER_HISTORY"
  postAvailableBalance := projected.balance
  postLockedBalance := projected.lockedBalance
  postOfflinePayPendingBalance := pending

def compensateKnown (input : CompensateInput) : Op OfflinePaySettlementFinalizeResult := do
  let projected ← getProjectedUserBalances pg input.userId
  let pending ←
    getProjectedLedgerAccountBalance (LedgerAccount.user input.userId .offlinePayPending)
  return compensateResult input true projected pending

def compensateNew (input : CompensateInput) : Op OfflinePaySettlementFinalizeResult := do
  ensureAccount pg input.userId input.nowIso
  lockUsers [input.userId]
  appendJournal pg (compensationJournal input)
  syncUserAccountProjection pg [input.userId] input.nowIso
  let projected ← getProjectedUserBalances pg input.userId
  let pending ←
    getProjectedLedgerAccountBalance (LedgerAccount.user input.userId .offlinePayPending)
  enqueueOutboxEvent pg
    { eventType := "offline_pay.settlement.compensated"
      aggregateType := "offline_pay_settlement"
      aggregateId := input.settlementId
      payload := .offlinePay
        ⟨[("settlementId", .text input.settlementId), ("batchId", .text input.batchId),
          ("collateralId", .text input.collateralId), ("proofId", .text input.proofId),
          ("proofFingerprint", .text input.proofFingerprint), ("userId", .text input.userId),
          ("deviceId", .text input.deviceId), ("assetCode", .text input.assetCode),
          ("amount", .text (formatKoriAmount input.amount)),
          ("releaseAction", .text input.releaseAction.text),
          ("compensationReason", .text input.compensationReason),
          ("occurredAt", .text input.nowIso)]⟩
      occurredAt := input.nowIso }
  return compensateResult input false projected pending

def compensateOfflinePaySettlement (input : CompensateInput) :
    Op OfflinePaySettlementFinalizeResult := withTransaction do
  lockKey ("offline-pay-settlement:" ++ input.settlementId ++ ":compensation")
  match (← get).findJournal "offline_pay_settlement_compensation" input.settlementId with
  | some _ => compensateKnown pg input
  | none => compensateNew pg input

/-! ## devices -/

def upsertOfflinePayDevice (input : DeviceInput) : Op Unit := do
  let deviceId ← column (varchar 128 input.deviceId)
  let userId ← column (varchar 64 input.userId)
  let row : OfflinePayDeviceRow := ⟨deviceId, userId, input.status⟩
  modify fun s =>
    if ∃ other ∈ s.offlinePayDevices, other.deviceId = deviceId then
      { s with
        offlinePayDevices := s.offlinePayDevices.map fun other =>
          if other.deviceId = deviceId then row else other }
    else { s with offlinePayDevices := s.offlinePayDevices ++ [row] }

/-! ## reconciliations -/

/-- the pattern of `like`: `%` any text, `_` any character, a backslash takes the next literally -/
def likeMatch : List Char → List Char → Bool
  | [], t => t.isEmpty
  | ['\\'], _ => false
  | '\\' :: c :: p, t =>
    match t with
    | [] => false
    | d :: t => c == d && likeMatch p t
  | '%' :: p, t => t.tails.any (likeMatch p)
  | '_' :: p, t =>
    match t with
    | [] => false
    | _ :: t => likeMatch p t
  | c :: p, t =>
    match t with
    | [] => false
    | d :: t => c == d && likeMatch p t

/-- some ledger account's code is like the user's; the user id is part of the pattern -/
def hasOfflinePayLedgerFootprintIn (s : Db) (userId : String) : Bool :=
  s.ledgerAccounts.any fun row =>
    [Bucket.available, .offlinePayPending, .withdrawPending].any fun bucket =>
      likeMatch (LedgerAccount.user userId bucket).code.toList row.ledgerAccountCode.toList

/-- the postings that move an account by `deltaAmount` against the reconciliation account -/
def reconciliationPostings (account : LedgerAccount) (deltaAmount : ℤ) : List LedgerPostingInput :=
  let absoluteDelta := if deltaAmount < 0 then deltaAmount * -1 else deltaAmount
  if 0 < deltaAmount then
    [LedgerAccount.offlinePayReconciliation.posting .debit (formatKoriAmount absoluteDelta),
     account.posting .credit (formatKoriAmount absoluteDelta)]
  else
    [account.posting .debit (formatKoriAmount absoluteDelta),
     LedgerAccount.offlinePayReconciliation.posting .credit (formatKoriAmount absoluteDelta)]

def userReconciliationJournal (input : ReconcileInput) (deltaAmount : ℤ) : JournalInput where
  journalType := "offline_pay_wallet_reconciled"
  referenceType := "offline_pay_reconciliation"
  referenceId := input.userId ++ ":" ++ input.nowIso
  description := some (jsTrim ("offline pay wallet reconciliation " ++ input.userId))
  nowIso := input.nowIso
  postings := reconciliationPostings (LedgerAccount.user input.userId .available) deltaAmount

def reconcileOfflinePayUserBalance (input : ReconcileInput) : Op ReconcileResult :=
  withTransaction do
    ensureAccount pg input.userId input.nowIso
    let _ ← getAccountForUpdate input.userId
    let projected ← getProjectedUserBalances pg input.userId
    let previous := projected.balance + projected.lockedBalance
    let deltaAmount := input.target - previous
    if deltaAmount = 0 then return ⟨input.userId, previous, input.target, deltaAmount, false⟩
    else if 0 < deltaAmount ∧ hasOfflinePayLedgerFootprintIn (← get) input.userId then
      return ⟨input.userId, previous, input.target, deltaAmount, false⟩
    else
      appendJournal pg (userReconciliationJournal input deltaAmount)
      syncUserAccountProjection pg [input.userId] input.nowIso
      return ⟨input.userId, previous, input.target, deltaAmount, true⟩

def pendingReconciliationJournal (input : ReconcileInput) (deltaAmount : ℤ) : JournalInput where
  journalType := "offline_pay_pending_reconciled"
  referenceType := "offline_pay_pending_reconciliation"
  referenceId := input.userId ++ ":" ++ input.nowIso
  description := some (jsTrim
    ("offline pay pending reconciliation " ++ input.userId ++ " " ++ input.canonicalBasis))
  nowIso := input.nowIso
  postings := reconciliationPostings (LedgerAccount.user input.userId .offlinePayPending) deltaAmount

def reconcileOfflinePayPendingBalance (input : ReconcileInput) : Op ReconcileResult :=
  withTransaction do
    ensureAccount pg input.userId input.nowIso
    let _ ← getAccountForUpdate input.userId
    let previous ←
      getProjectedLedgerAccountBalance (LedgerAccount.user input.userId .offlinePayPending)
    let deltaAmount := input.target - previous
    if deltaAmount = 0 then return ⟨input.userId, previous, input.target, deltaAmount, false⟩
    else
      appendJournal pg (pendingReconciliationJournal input deltaAmount)
      syncUserAccountProjection pg [input.userId] input.nowIso
      return ⟨input.userId, previous, input.target, deltaAmount, true⟩

end

end Postgres
