import CoinManage.OfflinePay.Fingerprint
import CoinManage.OfflinePay.Reconciliation

/-!
# The offline pay service

`OfflinePayService` between the routes and the repository: it parses the amounts of the requests, lets
the ledger catch up with the wallet before collateral is locked, and writes an audit log for whatever is
not a repetition.  What a number is, and how an amount is parsed, is left open.

* `lockCollateral_only`, `releaseCollateral_only`, `finalizeSettlement_only`, `compensateSettlement_only`
  which amounts the repository is handed.
-/

set_option linter.unusedSectionVars false

namespace OfflinePayService
open Program OfflinePay
open OfflinePayLedgerReconciliationService (CanonicalWalletSnapshot UserBalanceSnapshot AuditLog)

/-! ## requests -/

structure LockRequest where
  userId : String
  deviceId : String
  assetCode : String
  amount : String
  referenceId : String
  policyVersion : JsNumber

structure ReleaseRequest where
  userId : String
  deviceId : String
  collateralId : String
  assetCode : String
  amount : String
  referenceId : String

structure CompensateRequest where
  settlementId : String
  batchId : String
  collateralId : String
  proofId : String
  userId : String
  deviceId : String
  assetCode : String
  amount : String
  releaseAction : Postgres.ReleaseAction
  proofFingerprint : String
  compensationReason : String

/-- what a settlement is answered -/
structure SettlementResponse where
  status : String := "OK"
  message : String
  settlementId : String
  ledgerOutcome : String
  releaseAction : Postgres.ReleaseAction
  duplicated : Bool
  feeAmount : String
  accountingSide : String
  receiverSettlementMode : String
  settlementModel : String
  reconciliationTrackingOwner : String
  postAvailableBalance : String
  postLockedBalance : String
  postOfflinePayPendingBalance : String

/-! ## calls -/

/-- A request to the repository is given up to the time the repository reads. -/
inductive Effect : Type → Type
  | getOfflinePayUserBalanceSnapshot (userId : String) : Effect UserBalanceSnapshot
  | getCanonicalWalletSnapshot (userId currencyCode : String) : Effect CanonicalWalletSnapshot
  | hasOfflinePayLedgerFootprint (userId : String) : Effect Bool
  | getOfflinePayPendingBalance (userId : String) : Effect ℤ
  | reconcileOfflinePayUserBalance (input : String → Postgres.ReconcileInput) : Effect Postgres.ReconcileResult
  | lockOfflinePayCollateral (input : String → Postgres.LockInput) : Effect Postgres.OfflinePayLockResult
  | releaseOfflinePayCollateral (input : String → Postgres.ReleaseInput) : Effect Postgres.OfflinePayLockResult
  | finalizeOfflinePaySettlement (input : String → Postgres.FinalizeInput) :
      Effect Postgres.OfflinePaySettlementFinalizeResult
  | compensateOfflinePaySettlement (input : String → Postgres.CompensateInput) :
      Effect Postgres.OfflinePaySettlementFinalizeResult
  | appendAuditLog (log : AuditLog) : Effect Unit

abbrev Async (α : Type) := Program Effect LedgerError α

/-- what the synchronous code throws -/
def ofExcept {α : Type} : Except LedgerError α → Async α
  | .ok a => pure a
  | .error e => throw e

/-- the audit log of a request that is not a repetition -/
def audit (entityId action : String) (metadata : List (String × String)) : Async Unit :=
  perform (.appendAuditLog
    { entityType := "system", entityId := entityId, action := action, actorType := "system"
      actorId := "offline_pay", metadata := metadata })

def boolText (b : Bool) : String := if b then "true" else "false"

/-- `String(n)` -/
def numberText (n : JsNumber) : String := String.ofList (Json.numberText n)

section
variable (parseAmount : JsNumber → Except LedgerError ℤ) (number : String → JsNumber)
  (sha256 : List Char → String)

/-! ## the wallet before a lock -/

def lazyLog (userId action : String) (metadata : List (String × String)) : AuditLog where
  entityType := "system"
  entityId := "offline-pay-reconciliation:" ++ userId
  action := action
  actorType := "system"
  actorId := "offline-pay-lock"
  metadata := metadata

/-- the ledger is below what the wallet holds: a credit, unless the user has a ledger history -/
def bootstrap (userId assetCode : String) (current : UserBalanceSnapshot) (snapshot : CanonicalWalletSnapshot)
    (targetLiabilityBalance : ℤ) : Async Unit := do
  if ← perform (.hasOfflinePayLedgerFootprint userId) then
    perform (.appendAuditLog (lazyLog userId "offline_pay.user_balance.reconcile.skipped"
      [("userId", userId), ("assetCode", assetCode), ("canonicalBasis", snapshot.canonicalBasis),
       ("currentLiabilityBalance", formatKoriAmount current.liabilityBalance),
       ("targetLiabilityBalance", formatKoriAmount targetLiabilityBalance),
       ("deltaAmount", formatKoriAmount (targetLiabilityBalance - current.liabilityBalance)),
       ("reason", "positive_delta_existing_offline_pay_ledger"),
       ("note", "lazy reconcile before offline pay collateral lock skipped")]))
  else
    let result ← perform (.reconcileOfflinePayUserBalance fun nowIso =>
      { userId := userId, target := targetLiabilityBalance, canonicalBasis := snapshot.canonicalBasis
        nowIso := nowIso })
    if result.adjusted then
      perform (.appendAuditLog (lazyLog userId "offline_pay.user_balance.reconciled"
        [("userId", userId), ("assetCode", assetCode), ("canonicalBasis", snapshot.canonicalBasis),
         ("previousLiabilityBalance", formatKoriAmount result.previousBalance),
         ("targetLiabilityBalance", formatKoriAmount result.target),
         ("deltaAmount", formatKoriAmount result.deltaAmount), ("adjusted", "true"),
         ("note", "lazy reconcile before offline pay collateral lock")]))
    else pure ()

/-- `hasWalletSource` tells whether the service was given the wallets -/
def reconcileUserBalanceBeforeCollateralLock (hasWalletSource : Bool) (userId assetCode : String)
    (requiredAmount : ℤ) : Async Unit :=
  if hasWalletSource = false then pure ()
  else do
    let current ← perform (.getOfflinePayUserBalanceSnapshot userId)
    if requiredAmount ≤ current.availableBalance then pure ()
    else
      let snapshot ← perform (.getCanonicalWalletSnapshot userId assetCode)
      let targetLiabilityBalance ← ofExcept (parseStoredKoriAmount snapshot.totalBalance)
      if targetLiabilityBalance ≤ current.liabilityBalance then pure ()
      else bootstrap userId assetCode current snapshot targetLiabilityBalance

/-! ## collateral -/

def lockCollateral (hasWalletSource : Bool) (input : LockRequest) : Async (String × String) := do
  let amount ← ofExcept (parseAmount (number input.amount))
  reconcileUserBalanceBeforeCollateralLock hasWalletSource input.userId input.assetCode amount
  let result ← perform (.lockOfflinePayCollateral fun nowIso =>
    { userId := input.userId, deviceId := input.deviceId, assetCode := input.assetCode, amount := amount
      referenceId := input.referenceId, policyVersion := input.policyVersion, nowIso := nowIso })
  if result.duplicated then pure (result.id, result.status)
  else
    audit result.id "offline_pay.collateral.locked"
      [("userId", input.userId), ("deviceId", input.deviceId), ("assetCode", input.assetCode),
       ("amount", formatKoriAmount amount), ("policyVersion", numberText input.policyVersion),
       ("referenceId", input.referenceId)]
    return (result.id, result.status)

def releaseCollateral (input : ReleaseRequest) : Async (String × String) := do
  let amount ← ofExcept (parseAmount (number input.amount))
  let result ← perform (.releaseOfflinePayCollateral fun nowIso =>
    { userId := input.userId, deviceId := input.deviceId, collateralId := input.collateralId
      assetCode := input.assetCode, amount := amount, referenceId := input.referenceId, nowIso := nowIso })
  if result.duplicated then pure (result.id, result.status)
  else
    audit result.id "offline_pay.collateral.released"
      [("userId", input.userId), ("deviceId", input.deviceId), ("collateralId", input.collateralId),
       ("assetCode", input.assetCode), ("amount", formatKoriAmount amount),
       ("referenceId", input.referenceId)]
    return (result.id, result.status)

/-! ## settlements -/

def parseOfflinePayFeeAmount (feeAmount : Option String) : Except LedgerError (Option ℤ) :=
  match feeAmount with
  | none => .ok none
  | some text =>
    match parseStoredKoriAmount text with
    | .error e => .error e
    | .ok parsed =>
      if parsed < 0 then .error (.domain 400 "VALIDATION_ERROR" "feeAmount must be a non-negative number")
      else .ok (some parsed)

def settlementResponse (message : String) (result : Postgres.OfflinePaySettlementFinalizeResult) :
    SettlementResponse where
  message := message
  settlementId := result.settlementId
  ledgerOutcome := result.ledgerOutcome
  releaseAction := result.releaseAction
  duplicated := result.duplicated
  feeAmount := formatKoriAmount result.feeAmount
  accountingSide := result.accountingSide
  receiverSettlementMode := result.receiverSettlementMode
  settlementModel := result.settlementModel
  reconciliationTrackingOwner := result.reconciliationTrackingOwner
  postAvailableBalance := formatKoriAmount result.postAvailableBalance
  postLockedBalance := formatKoriAmount result.postLockedBalance
  postOfflinePayPendingBalance := formatKoriAmount result.postOfflinePayPendingBalance

def finalizeResponse (result : Postgres.OfflinePaySettlementFinalizeResult) : SettlementResponse :=
  settlementResponse
    (if result.releaseAction = .release then "settlement finalized" else "settlement adjusted") result

def finalizeSettlement (input : FinalizeRequest) : Async SettlementResponse := do
  ofExcept (checkFingerprint sha256 input)
  let amount ← ofExcept (parseAmount (number input.amount))
  let feeAmount ← ofExcept (parseOfflinePayFeeAmount input.feeAmount)
  let result ← perform (.finalizeOfflinePaySettlement fun nowIso =>
    { settlementId := input.proof.settlementId, batchId := input.proof.batchId
      collateralId := input.proof.collateralId, proofId := input.proof.proofId
      proofFingerprint := input.proofFingerprint, userId := input.userId, deviceId := input.proof.deviceId
      receiverUserId := input.receiverUserId, receiverDeviceId := input.receiverDeviceId
      receiverWalletSettlementRequested := some input.receiverWalletSettlementRequested
      assetCode := input.assetCode, amount := amount, feeAmount := feeAmount
      settlementStatus := input.settlementStatus, releaseAction := input.releaseAction
      conflictDetected := input.conflictDetected, financiallyHonored := some input.financiallyHonored
      newStateHash := input.proof.newStateHash, previousHash := input.proof.previousHash
      monotonicCounter := input.proof.monotonicCounter, nonce := input.proof.nonce
      signature := input.proof.signature, nowIso := nowIso })
  if result.duplicated then pure (finalizeResponse result)
  else
    audit input.proof.settlementId "offline_pay.settlement.finalized"
      ([("batchId", input.proof.batchId), ("collateralId", input.proof.collateralId),
        ("proofId", input.proof.proofId), ("userId", input.userId), ("deviceId", input.proof.deviceId)] ++
       (input.receiverUserId.map fun userId => ("receiverUserId", userId)).toList ++
       (input.receiverDeviceId.map fun deviceId => ("receiverDeviceId", deviceId)).toList ++
       [("receiverWalletSettlementRequested", boolText input.receiverWalletSettlementRequested),
        ("assetCode", input.assetCode), ("amount", formatKoriAmount amount),
        ("feeAmount", formatKoriAmount result.feeAmount), ("settlementStatus", input.settlementStatus),
        ("releaseAction", input.releaseAction.text), ("conflictDetected", boolText input.conflictDetected),
        ("financiallyHonored", boolText input.financiallyHonored),
        ("proofFingerprint", input.proofFingerprint), ("newStateHash", input.proof.newStateHash),
        ("previousHash", input.proof.previousHash),
        ("monotonicCounter", numberText input.proof.monotonicCounter)])
    return finalizeResponse result

def isHistoryOnlyCompensationReason (toUpperCase : String → String) (reason : String) : Bool :=
  toUpperCase (jsTrim reason) ∈ ["HISTORY_SYNC_FAIL", "HISTORY_CIRCUIT_OPEN"]

def compensateSettlement (toUpperCase : String → String) (input : CompensateRequest) :
    Async SettlementResponse := do
  let amount ← ofExcept (parseAmount (number input.amount))
  if isHistoryOnlyCompensationReason toUpperCase input.compensationReason then
    let balanceSnapshot ← perform (.getOfflinePayUserBalanceSnapshot input.userId)
    let offlinePayPendingBalance ← perform (.getOfflinePayPendingBalance input.userId)
    return {
      message := "history sync compensation ignored"
      settlementId := input.settlementId
      ledgerOutcome := "COMPENSATED"
      releaseAction := input.releaseAction
      duplicated := true
      feeAmount := formatKoriAmount 0
      accountingSide := "SENDER"
      receiverSettlementMode := "EXTERNAL_HISTORY_SYNC"
      settlementModel := "SENDER_LEDGER_PLUS_RECEIVER_HISTORY"
      reconciliationTrackingOwner := "OFFLINE_PAY_SAGA"
      postAvailableBalance := formatKoriAmount balanceSnapshot.availableBalance
      postLockedBalance := formatKoriAmount balanceSnapshot.lockedBalance
      postOfflinePayPendingBalance := formatKoriAmount offlinePayPendingBalance }
  else
    let result ← perform (.compensateOfflinePaySettlement fun nowIso =>
      { settlementId := input.settlementId, batchId := input.batchId, collateralId := input.collateralId
        proofId := input.proofId, proofFingerprint := input.proofFingerprint, userId := input.userId
        deviceId := input.deviceId, assetCode := input.assetCode, amount := amount
        releaseAction := input.releaseAction, compensationReason := input.compensationReason
        nowIso := nowIso })
    if result.duplicated then pure (settlementResponse "settlement compensated" result)
    else
      audit input.settlementId "offline_pay.settlement.compensated"
        [("batchId", input.batchId), ("collateralId", input.collateralId), ("proofId", input.proofId),
         ("userId", input.userId), ("deviceId", input.deviceId), ("assetCode", input.assetCode),
         ("amount", formatKoriAmount amount), ("releaseAction", input.releaseAction.text),
         ("proofFingerprint", input.proofFingerprint), ("compensationReason", input.compensationReason)]
      return settlementResponse "settlement compensated" result

/-! ## the amounts handed to the repository -/

/-- the repository is asked to move amounts of this kind only -/
def Effect.Hands (P : ℤ → Prop) : ∀ ⦃β : Type⦄, Effect β → Prop
  | _, .lockOfflinePayCollateral input => ∀ nowIso, P (input nowIso).amount
  | _, .releaseOfflinePayCollateral input => ∀ nowIso, P (input nowIso).amount
  | _, .finalizeOfflinePaySettlement input => ∀ nowIso, P (input nowIso).amount
  | _, .compensateOfflinePaySettlement input => ∀ nowIso, P (input nowIso).amount
  | _, _ => True

variable {P : ℤ → Prop}

theorem only_ofExcept {α β : Type} {r : Except LedgerError α} {f : α → Async β}
    (h : ∀ a, r = .ok a → (f a).Only (Effect.Hands P)) : (ofExcept r >>= f).Only (Effect.Hands P) := by
  cases r with
  | error e => exact Only.throw e
  | ok a => exact h a rfl

theorem only_audit (entityId action : String) (metadata : List (String × String)) :
    (audit entityId action metadata).Only (Effect.Hands P) := Only.perform trivial

theorem only_bootstrap (userId assetCode : String) (current : UserBalanceSnapshot)
    (snapshot : CanonicalWalletSnapshot) (target : ℤ) :
    (bootstrap userId assetCode current snapshot target).Only (Effect.Hands P) := by
  refine (Only.perform trivial).bind fun exists_ => ?_
  split
  · exact Only.perform trivial
  · refine (Only.perform trivial).bind fun result => ?_
    split
    · exact Only.perform trivial
    · exact Only.pure _

theorem only_reconcile (hasWalletSource : Bool) (userId assetCode : String) (requiredAmount : ℤ) :
    (reconcileUserBalanceBeforeCollateralLock hasWalletSource userId assetCode requiredAmount).Only
      (Effect.Hands P) := by
  unfold reconcileUserBalanceBeforeCollateralLock
  split
  · exact Only.pure _
  · refine (Only.perform trivial).bind fun current => ?_
    split
    · exact Only.pure _
    · refine (Only.perform trivial).bind fun snapshot => only_ofExcept fun target _ => ?_
      split
      · exact Only.pure _
      · exact only_bootstrap userId assetCode current snapshot target

theorem lockCollateral_only (hasWalletSource : Bool) (input : LockRequest)
    (h : ∀ n, parseAmount (number input.amount) = .ok n → P n) :
    (lockCollateral parseAmount number hasWalletSource input).Only (Effect.Hands P) := by
  refine only_ofExcept fun n hn => ?_
  refine (only_reconcile hasWalletSource input.userId input.assetCode n).bind fun _ => ?_
  refine (Only.perform fun _ => h n hn).bind fun result => ?_
  split
  · exact Only.pure _
  · exact (only_audit _ _ _).bind fun _ => Only.pure _

theorem releaseCollateral_only (input : ReleaseRequest)
    (h : ∀ n, parseAmount (number input.amount) = .ok n → P n) :
    (releaseCollateral parseAmount number input).Only (Effect.Hands P) := by
  refine only_ofExcept fun n hn => ?_
  refine (Only.perform fun _ => h n hn).bind fun result => ?_
  split
  · exact Only.pure _
  · exact (only_audit _ _ _).bind fun _ => Only.pure _

theorem finalizeSettlement_only (input : FinalizeRequest)
    (h : ∀ n, parseAmount (number input.amount) = .ok n → P n) :
    (finalizeSettlement parseAmount number sha256 input).Only (Effect.Hands P) := by
  refine only_ofExcept fun _ _ => only_ofExcept fun n hn => only_ofExcept fun fee _ => ?_
  refine (Only.perform fun _ => h n hn).bind fun result => ?_
  split
  · exact Only.pure _
  · exact (only_audit _ _ _).bind fun _ => Only.pure _

theorem compensateSettlement_only (toUpperCase : String → String) (input : CompensateRequest)
    (h : ∀ n, parseAmount (number input.amount) = .ok n → P n) :
    (compensateSettlement parseAmount number toUpperCase input).Only (Effect.Hands P) := by
  refine only_ofExcept fun n hn => ?_
  split
  · exact (Only.perform trivial).bind fun _ => (Only.perform trivial).bind fun _ => Only.pure _
  · refine (Only.perform fun _ => h n hn).bind fun result => ?_
    split
    · exact Only.pure _
    · exact (only_audit _ _ _).bind fun _ => Only.pure _

end

end OfflinePayService
