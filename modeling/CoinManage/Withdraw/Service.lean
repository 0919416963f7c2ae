import CoinManage.InMemory.Lifecycle
import CoinManage.Lib.Interleaving

/-!
# The withdrawal service

`WithdrawService` and `WithdrawDispatchWorker` between the ledger, the chain and the queue, as
programs that call out: every repository call, every call of the chain and of the signer, every
read of the clock is one call (`Effect`), and any of them may fail.

`Job` lists the ways in: the operator's routes, the jobs of the queue and the scheduler.
-/

namespace WithdrawService

inductive GatewayMode where
  | mock
  | trc20
  deriving DecidableEq, Repr

inductive SignerMode where
  | hot
  | offlineStub
  | hybrid
  deriving DecidableEq, Repr

/-- The configuration of the guard and of the service.  `signerHealthy` is what the key library
says of the configured key; `checksAddressPolicy` and `checksNetwork` tell whether the two optional
policy services are there. -/
structure Options where
  tronGatewayMode : GatewayMode
  signerMode : SignerMode
  hotWalletAddress : String
  signerHealthy : Bool
  coldWithdrawMinAmount : ℤ
  minTrxSun : ℤ
  minBandwidth : ℤ
  minEnergy : ℤ
  restrictedDestinationAddresses : List String
  checksAddressPolicy : Bool
  checksNetwork : Bool

structure AccountResources where
  trxBalanceSun : ℤ
  bandwidthLimit : ℤ
  bandwidthUsed : ℤ
  energyLimit : ℤ
  energyUsed : ℤ

inductive ReceiptStatus where
  | pending
  | confirmed
  | failed
  deriving DecidableEq, Repr

structure ReceiptDetails where
  status : ReceiptStatus
  feeSun : ℤ
  energyUsed : JsNumber
  bandwidthUsed : JsNumber

structure HotWalletReadiness where
  ready : Bool
  failures : List String

/-! ## calls -/

structure AuditLog where
  entityId : String
  action : String
  actorType : String
  actorId : String

inductive Effect : Type → Type
  | now : Effect String
  | getWithdrawal (withdrawalId : String) : Effect (Option Withdrawal)
  | listWithdrawalsByStatuses (statuses : List WithdrawalStatus) : Effect (List Withdrawal)
  | approveWithdrawal (withdrawalId : String) (input : ApprovalInput) (nowIso : String) :
      Effect ApprovalDecisionResult
  | broadcastWithdrawal (withdrawalId txHash nowIso : String) : Effect Withdrawal
  | confirmWithdrawal (withdrawalId : String) (networkFee : Option NetworkFee) (nowIso : String) :
      Effect Withdrawal
  | failWithdrawal (withdrawalId reason nowIso : String) : Effect Withdrawal
  | appendAuditLog (log : AuditLog) : Effect Unit
  | isTestUser (userId : String) : Effect Bool
  | effectiveNetworkIsTestnet : Effect Bool
  | assertAddressAllowed (toAddress : String) : Effect Unit
  | getAccountResources (address : String) : Effect AccountResources
  /-- sign the transfer and send it -/
  | broadcastTransfer (withdrawalId toAddress : String) (amount : ℤ) : Effect String
  | getTransactionReceiptDetails (txHash : String) : Effect ReceiptDetails
  | publishStateChanged (contract : WithdrawalStateChangedContract) : Effect Unit
  | enqueueDispatch (withdrawalId : String) : Effect Unit
  | notifyWithdrawalApproved (withdrawalId adminId : String) (approvalCount : Nat) : Effect Unit
  | notifyWithdrawalResourceLow (withdrawalId : String) : Effect Unit
  | notifyWithdrawalDispatchRetry (withdrawalId : String) (retryCount : Nat) : Effect Unit
  | notifyWithdrawalDispatchFailed (withdrawalId : String) : Effect Unit

abbrev Async (α : Type) := Program Effect LedgerError α

open Program

section
variable (rt : Runtime) (opts : Options)

/-! ## the guard -/

def requiresOfflineSigning (amount : ℤ) : Bool :=
  opts.signerMode = .offlineStub ||
    (opts.signerMode = .hybrid && decide (opts.coldWithdrawMinAmount ≤ amount))

def readinessFailures (resources : AccountResources) : List String :=
  (if opts.signerHealthy then [] else ["signer_unhealthy"]) ++
  (if resources.trxBalanceSun < opts.minTrxSun then ["trx_low"] else []) ++
  (if max 0 (resources.bandwidthLimit - resources.bandwidthUsed) < opts.minBandwidth then
    ["bandwidth_low"] else []) ++
  (if max 0 (resources.energyLimit - resources.energyUsed) < opts.minEnergy then
    ["energy_low"] else [])

def getHotWalletReadiness : Async HotWalletReadiness :=
  if opts.tronGatewayMode ≠ .trc20 then pure ⟨true, []⟩
  else if opts.signerMode = .offlineStub then pure ⟨false, ["offline_signing_required"]⟩
  else do
    let resources ← perform (.getAccountResources opts.hotWalletAddress)
    let failures := readinessFailures opts resources
    return ⟨failures.isEmpty, failures⟩

def assertDestinationAllowed (toAddress : String) : Async Unit :=
  if toAddress ∈ opts.restrictedDestinationAddresses.filter fun a => a ≠ "" then
    throw (.domain 400 "WITHDRAW_DESTINATION_RESTRICTED"
      "withdraw destination is a managed system wallet")
  else pure ()

def assertHotWalletReady (code message : String) : Async Unit := do
  let readiness ← getHotWalletReadiness opts
  if readiness.ready then pure () else throw (.domain 503 code message)

def assertBroadcastAllowed (toAddress : String) (amount : ℤ) : Async Unit := do
  assertDestinationAllowed opts toAddress
  if opts.checksAddressPolicy then perform (.assertAddressAllowed toAddress) else pure ()
  if requiresOfflineSigning opts amount then
    throw (.domain 409 "WITHDRAW_OFFLINE_SIGN_REQUIRED" "withdrawal requires offline signing")
  else
    assertHotWalletReady opts "WITHDRAW_BROADCAST_BLOCKED" "hot wallet is not ready for broadcast"

/-- `withdrawNetworkPolicyService?.assertUserWithdrawalNetworkAllowed(userId)` -/
def assertUserWithdrawalNetworkAllowed (userId : String) : Async Unit :=
  if opts.checksNetwork then do
    let isTestUser ← perform (.isTestUser userId)
    if isTestUser then
      let isTestnet ← perform .effectiveNetworkIsTestnet
      if isTestnet then pure ()
      else throw (.domain 403 "TEST_USER_MAINNET_WITHDRAW_FORBIDDEN"
        "test users can only withdraw on testnet")
    else pure ()
  else pure ()

/-! ## the service -/

/-- build the contract at this moment, then hand it to the publisher -/
def publishWithdrawalStateChange (withdrawal : Withdrawal) (occurredAt : String) : Async Unit :=
  match buildWithdrawalStateChangedContract rt withdrawal occurredAt with
  | .ok contract => perform (.publishStateChanged contract)
  | .error e => throw e

def approve (withdrawalId : String) (adminId : Option String) (actorType : Option ActorType)
    (reasonCode : Option ApprovalReasonCode) (note : Option String) :
    Async ApprovalDecisionResult := do
  match ← perform (.getWithdrawal withdrawalId) with
  | none => throw (.domain 404 "WITHDRAW_NOT_FOUND" "withdrawal not found")
  | some current =>
    assertUserWithdrawalNetworkAllowed opts current.userId
    let nowIso ← perform .now
    let result ← perform (.approveWithdrawal withdrawalId
      { adminId := orElse adminId "admin-unknown"
        actorType := orElse actorType .admin
        reasonCode := some (orElse reasonCode .manualReviewPassed)
        note := note } nowIso)
    publishWithdrawalStateChange rt result.withdrawal result.approval.createdAt
    perform (.appendAuditLog
      { entityId := withdrawalId
        action := if result.finalized then "withdraw.approved.finalized" else "withdraw.approved.partial"
        actorType := if orElse actorType .admin = .admin then "admin" else "system"
        actorId := orElse adminId "admin-unknown" })
    if result.finalized then
      perform (.enqueueDispatch withdrawalId)
      perform (.notifyWithdrawalApproved withdrawalId (orElse adminId "admin-unknown")
        result.withdrawal.approvalCount)
    else pure ()
    return result

def broadcast (withdrawalId : String) : Async (Option Withdrawal) := do
  match ← perform (.getWithdrawal withdrawalId) with
  | none => return none
  | some current =>
    assertUserWithdrawalNetworkAllowed opts current.userId
    assertBroadcastAllowed opts current.toAddress current.amount
    let txHash ← perform (.broadcastTransfer withdrawalId current.toAddress current.amount)
    let nowIso ← perform .now
    let updated ← perform (.broadcastWithdrawal withdrawalId txHash nowIso)
    publishWithdrawalStateChange rt updated (← perform .now)
    perform (.appendAuditLog
      { entityId := withdrawalId, action := "withdraw.broadcast", actorType := "system"
        actorId := "tron-gateway" })
    return some updated

def confirm (withdrawalId : String) (networkFee : Option NetworkFee) : Async Withdrawal := do
  let nowIso ← perform .now
  let updated ← perform (.confirmWithdrawal withdrawalId networkFee nowIso)
  publishWithdrawalStateChange rt updated (← perform .now)
  perform (.appendAuditLog
    { entityId := withdrawalId, action := "withdraw.confirmed", actorType := "system"
      actorId := "reconciliation" })
  return updated

def fail (withdrawalId reason : String) : Async Withdrawal := do
  let nowIso ← perform .now
  let updated ← perform (.failWithdrawal withdrawalId reason nowIso)
  publishWithdrawalStateChange rt updated (← perform .now)
  perform (.appendAuditLog
    { entityId := withdrawalId, action := "withdraw.failed", actorType := "system"
      actorId := "withdraw-service" })
  return updated

def submitOfflineBroadcast (withdrawalId txHash : String) (actorId : Option String) :
    Async (Option Withdrawal) := do
  match ← perform (.getWithdrawal withdrawalId) with
  | none => return none
  | some current =>
    if current.status ≠ .adminApproved then
      throw (.domain 409 "WITHDRAW_INVALID_STATE"
        ("withdrawal is not dispatchable in state " ++ current.status.text))
    else if requiresOfflineSigning opts current.amount = false then
      throw (.domain 409 "WITHDRAW_OFFLINE_SIGN_NOT_REQUIRED"
        "withdrawal does not require offline signing")
    else
      let nowIso ← perform .now
      let updated ← perform (.broadcastWithdrawal withdrawalId txHash nowIso)
      publishWithdrawalStateChange rt updated (← perform .now)
      perform (.appendAuditLog
        { entityId := withdrawalId, action := "withdraw.broadcast.offline_submitted"
          actorType := "admin", actorId := orElse actorId "admin-unknown" })
      return some updated

structure ReconcileResult where
  confirmed : List String
  failed : List String
  pending : List String

/-- the loop of `reconcileBroadcasted` over the withdrawals listed -/
def reconcileEach : List Withdrawal → ReconcileResult → Async ReconcileResult
  | [], result => pure result
  | withdrawal :: rest, result =>
    match InMemoryLedger.truthy withdrawal.txHash with
    | none => reconcileEach rest result
    | some txHash => do
      let receipt ← perform (.getTransactionReceiptDetails txHash)
      match receipt.status with
      | .confirmed =>
        let _ ← confirm rt withdrawal.withdrawalId (some
          { txHash := txHash, feeSun := receipt.feeSun, energyUsed := receipt.energyUsed
            bandwidthUsed := receipt.bandwidthUsed })
        reconcileEach rest { result with confirmed := result.confirmed ++ [withdrawal.withdrawalId] }
      | .failed =>
        let _ ← fail rt withdrawal.withdrawalId "on-chain receipt reported failure"
        reconcileEach rest { result with failed := result.failed ++ [withdrawal.withdrawalId] }
      | .pending =>
        reconcileEach rest { result with pending := result.pending ++ [withdrawal.withdrawalId] }

def reconcileBroadcasted : Async ReconcileResult := do
  let broadcasted ← perform (.listWithdrawalsByStatuses [.txBroadcasted])
  reconcileEach rt broadcasted ⟨[], [], []⟩

/-! ## the dispatch worker -/

/-- `RetryableWithdrawDispatchError` is told apart by its name -/
def retryableDispatchError (message : String) : LedgerError :=
  .plain ("RetryableWithdrawDispatchError: " ++ message)

def isRetryable : LedgerError → Bool
  | .plain message => "RetryableWithdrawDispatchError: ".isPrefixOf message
  | _ => false

def handleAttemptFailure (withdrawalId : String) (attempt : Nat) (error : LedgerError) : Async Unit :=
  if isRetryable error then perform (.notifyWithdrawalDispatchRetry withdrawalId attempt)
  else perform (.notifyWithdrawalDispatchFailed withdrawalId)

def ensureHotWalletResources (withdrawalId : String) : Async Unit := do
  let readiness ← getHotWalletReadiness opts
  if readiness.ready then pure ()
  else if "offline_signing_required" ∈ readiness.failures then
    throw (.plain "ManualSigningRequiredError: withdrawal requires offline signing")
  else
    perform (.notifyWithdrawalResourceLow withdrawalId)
    throw (retryableDispatchError
      ("hot wallet is not ready: " ++ ",".intercalate readiness.failures))

def processDispatch (withdrawalId : String) (attempt : Nat) : Async Unit :=
  if withdrawalId = "" then throw (.plain "withdraw dispatch job requires withdrawalId")
  else do
  match ← perform (.getWithdrawal withdrawalId) with
  | none => throw (.plain "withdrawal not found")
  | some withdrawal =>
    if withdrawal.status = .completed ∨ withdrawal.status = .failed ∨
        withdrawal.status = .txBroadcasted then
      return ()
    else if withdrawal.status ≠ .adminApproved then
      throw (.plain ("withdrawal is not dispatchable in state " ++ withdrawal.status.text))
    else
      tryCatch
        (do
          ensureHotWalletResources opts withdrawalId
          let _ ← broadcast rt opts withdrawalId
          return ())
        (fun error => do
          handleAttemptFailure withdrawalId attempt error
          throw error)

/-- nothing is left to reconcile for the withdrawal of the job -/
def isSettled : Option String → Async Bool
  | none => pure false
  | some id => do
    match ← perform (.getWithdrawal id) with
    | none => return true
    | some withdrawal => return withdrawal.status = .completed || withdrawal.status = .failed

def processReconcile (withdrawalId : Option String) (attempt : Nat) : Async Unit :=
  tryCatch
    (do
      let settled ← isSettled (InMemoryLedger.truthy withdrawalId)
      if settled then return ()
      else
        let result ← reconcileBroadcasted rt
        if result.pending = [] then return ()
        else if ∃ id ∈ InMemoryLedger.truthy withdrawalId, id ∈ result.pending then
          throw (retryableDispatchError "broadcasted withdrawal still pending on-chain")
        else if InMemoryLedger.truthy withdrawalId = none ∧ result.confirmed = [] ∧ result.failed = [] then
          throw (retryableDispatchError "broadcasted withdrawals still pending on-chain")
        else return ())
    (fun error => do
      handleAttemptFailure (orElse withdrawalId "-") attempt error
      throw error)

/-! ## the ways in -/

inductive Job where
  | approve (withdrawalId : String) (adminId : Option String) (actorType : Option ActorType)
      (reasonCode : Option ApprovalReasonCode) (note : Option String)
  | broadcast (withdrawalId : String)
  | dispatch (withdrawalId : String) (attempt : Nat)
  | submitOfflineBroadcast (withdrawalId txHash : String) (actorId : Option String)
  | confirm (withdrawalId : String) (networkFee : Option NetworkFee)
  | reconcileBroadcasted
  | reconcile (withdrawalId : Option String) (attempt : Nat)
  | fail (withdrawalId reason : String)

def Job.program : Job → Async Unit
  | .approve withdrawalId adminId actorType reasonCode note => do
    let _ ← WithdrawService.approve rt opts withdrawalId adminId actorType reasonCode note
    return ()
  | .broadcast withdrawalId => do
    let _ ← WithdrawService.broadcast rt opts withdrawalId
    return ()
  | .dispatch withdrawalId attempt => processDispatch rt opts withdrawalId attempt
  | .submitOfflineBroadcast withdrawalId txHash actorId => do
    let _ ← WithdrawService.submitOfflineBroadcast rt opts withdrawalId txHash actorId
    return ()
  | .confirm withdrawalId networkFee => do
    let _ ← WithdrawService.confirm rt withdrawalId networkFee
    return ()
  | .reconcileBroadcasted => do
    let _ ← WithdrawService.reconcileBroadcasted rt
    return ()
  | .reconcile withdrawalId attempt => processReconcile rt withdrawalId attempt
  | .fail withdrawalId reason => do
    let _ ← WithdrawService.fail rt withdrawalId reason
    return ()

end

end WithdrawService
