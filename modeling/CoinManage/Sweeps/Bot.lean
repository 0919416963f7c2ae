import CoinManage.Deposits.Monitor
import CoinManage.Sweeps.InMemory
import CoinManage.Wallets.Activation

/-!
# The sweep bot

A cycle plans a sweep for the newest completed deposits, queues the newest planned sweeps, sends the transfers of the
newest queued ones and confirms the newest that are on their way.  Calls of the partner, of the chain and of the ledger
may fail, or be carried out while their answer is lost.

* `planEvent`, `queueSweep`, `executeSweep`, `confirmOne`   the bodies of the four loops;
* `runCycle`                                                the stages, one after the other;
* `parseDepositId_ref`                                      the deposit of a planned sweep is read back from it.
-/

namespace SweepBotService
open Method InMemorySweeps
open ActivationService (Fate deliver)
open Postgres (SweepStatus)

/-! ## the source -/

structure StoredDepositEvent extends ExternalDepositEvent where
  updatedAt : String
  deriving DecidableEq

/-- what the bot reads of a deposit -/
structure ExternalDepositRecord where
  sweepStatus : Option String
  sweepTxHash : Option String
  sweepErrorMessage : Option String
  deriving DecidableEq, Repr

structure WalletSigner where
  address : String
  privateKey : String
  deriving DecidableEq, Repr

structure TronAccountResources where
  trxBalanceSun : ℤ
  energyLimit : ℤ
  energyUsed : ℤ
  bandwidthLimit : ℤ
  bandwidthUsed : ℤ
  deriving DecidableEq, Repr

inductive TronReceiptStatus where
  | pending
  | confirmed
  | failed
  deriving DecidableEq, Repr

structure TronTransactionReceipt where
  status : TronReceiptStatus
  feeSun : ℤ
  energyUsed : JsNumber
  bandwidthUsed : JsNumber
  deriving DecidableEq

/-- a transfer as the chain has it, with the sweep it was sent for -/
structure SentSweep where
  sweepId : String
  depositId : String
  toAddress : String
  amount : ℤ
  network : TronNetwork
  fromAddress : String
  fromPrivateKey : String
  txHash : String
  deriving DecidableEq, Repr

/-- a write of the bot to the partner -/
inductive PartnerWrite where
  | submitSweep (depositId txHash : String)
  | failSweep (depositId errorMessage : String)
  deriving DecidableEq, Repr

/-- what happens between the bot and the others: the partner answers that it has the transaction of the sweep of a
deposit, the chain takes a transfer, the partner or the chain declares a sweep as failed -/
inductive Happening where
  | reported (depositId : String)
  | sent (transfer : SentSweep)
  | declared (sweepId : String)
  deriving DecidableEq, Repr

/-- The stored deposits, the ledger, the writes to the partner and the alert service; and what has happened. -/
structure BotWorld where
  events : List StoredDepositEvent
  ledger : InMemorySweeps
  partner : List PartnerWrite
  alerts : AlertService
  happened : List Happening

abbrev Op (α : Type) := Method BotWorld LedgerError α

def call {α : Type} (f : Fate) (op : Op α) : Op α := f.outcome.of f.error op

def onLedger {α : Type} (op : InMemorySweeps.Op α) : Op α :=
  Method.zoom (·.ledger) (fun ledger w => { w with ledger := ledger }) op

def tellPartner (f : Fate) (write : PartnerWrite) : Op Unit :=
  call f (modify fun w => { w with partner := w.partner ++ [write] })

def notify (o : Outcome) (nowMs : ℤ) (input : SendInput) : Op Unit :=
  modify fun w => { w with alerts := deliver o nowMs input w.alerts }

def happen (happening : Happening) : Op Unit := modify fun w => { w with happened := w.happened ++ [happening] }

def declareFailed (sweepId : String) : Op Unit := happen (.declared sweepId)

def networkText : TronNetwork → String
  | .mainnet => "mainnet"
  | .testnet => "testnet"

def sweepFailure (depositId sourceAddress message : String) : SendInput where
  title := "[KORION] Sweep Failed"
  body := "\n".intercalate ["depositId=" ++ depositId, "source=" ++ sourceAddress, "error=" ++ message]
  dedupeKey := some ("sweep-failed:" ++ depositId ++ ":" ++ message)

def sweepResourceLow (depositId sourceAddress : String) (network : TronNetwork) (trxBalance : String)
    (availableEnergy availableBandwidth : ℤ) (attemptCount : Nat) : SendInput where
  title := "[KORION] Sweep Resource Low"
  body := "\n".intercalate ["depositId=" ++ depositId, "source=" ++ sourceAddress, "network=" ++ networkText network,
    "trx=" ++ trxBalance, "availableEnergy=" ++ toString availableEnergy,
    "availableBandwidth=" ++ toString availableBandwidth, "attemptCount=" ++ toString attemptCount]
  dedupeKey := some ("sweep-resource-low:" ++ sourceAddress)

def sweepQueueTimeout (depositId sourceAddress : String) (queuedAt : Option String) (attemptCount : Nat)
    (timeoutSec : ℤ) : SendInput where
  title := "[KORION] Sweep Queue Timeout"
  body := "\n".intercalate ["depositId=" ++ depositId, "source=" ++ sourceAddress,
    "queuedAt=" ++ queuedAt.getD "unknown", "attemptCount=" ++ toString attemptCount,
    "timeoutSec=" ++ toString timeoutSec]
  dedupeKey := some ("sweep-queue-timeout:" ++ sourceAddress ++ ":" ++ depositId)

/-- how the calls for a deposit end when it is planned -/
structure PlanFates where
  getDeposit : Fate
  deposit : Option ExternalDepositRecord
  find : Fate
  failSweep : Fate
  createSweep : Fate
  markBroadcasted : Fate

structure QueueFates where
  markQueued : Fate
  enqueueJob : Fate

/-- how the calls for a sweep end when it is sent -/
structure ExecuteFates where
  getDeposit : Fate
  deposit : Option ExternalDepositRecord
  signer : Fate
  walletSigner : Option WalletSigner
  recordAttempt : Fate
  resources : Fate
  accountResources : TronAccountResources
  lowAlert : Outcome
  failLow : Fate
  partnerFailLow : Fate
  timeoutAlert : Outcome
  broadcast : Fate
  txHash : String
  submit : Fate
  markBroadcasted : Fate
  failSweep : Fate
  partnerFail : Fate
  alert : Outcome

structure ConfirmFates where
  receipt : Fate
  transactionReceipt : TronTransactionReceipt
  confirm : Fate
  failSweep : Fate
  partnerFail : Fate
  alert : Outcome

/-- A cycle: whether the bot runs, the options, the clock, how dates, numbers and errors read, and how the calls
end. -/
structure BotCycle where
  enabled : Bool
  configured : Bool
  cycleLimit : Nat
  hotWalletAddress : String
  sweepSourceMinTrx : ℚ
  sweepSourceMinEnergy : ℤ
  sweepQueueTimeoutSec : ℤ
  sweepMaxRetryCount : Nat
  now : String
  nowMs : ℤ
  timeMs : String → Option ℤ
  toFixed6 : ℚ → String
  messageOf : LedgerError → String
  listCompleted : Fate
  listPlanned : Fate
  listQueued : Fate
  listBroadcasted : Fate
  planFates : StoredDepositEvent → PlanFates
  queueFates : SweepRecord → QueueFates
  executeFates : SweepRecord → ExecuteFates
  confirmFates : SweepRecord → ConfirmFates

inductive SweepStageResult where
  | planned
  | queued
  | broadcasted
  | confirmed
  | failed
  | skipped
  deriving DecidableEq, Repr

def depositPrefix : String := "foxya-deposit:"

def depositRef (depositId : String) : String := depositPrefix ++ depositId

def parseDepositId (externalRef : Option String) : Option String :=
  externalRef.bind fun ref =>
    if depositPrefix.toList.isPrefixOf ref.toList then some (String.ofList (ref.toList.drop depositPrefix.toList.length))
    else none

/-- `network.toLowerCase() === 'testnet' ? 'testnet' : 'mainnet'`: no other letter has one of these as its lower case -/
def networkOf (network : String) : TronNetwork :=
  if network.toList.map Char.toLower = "testnet".toList then .testnet else .mainnet

section
variable (rt : Runtime)

/-- the partner has the transaction of a sweep -/
def Submitted (deposit : ExternalDepositRecord) : Option String :=
  if deposit.sweepStatus.map rt.toUpperCase = some "SUBMITTED" then InMemoryLedger.truthy deposit.sweepTxHash else none

def report (deposit : Option ExternalDepositRecord) (depositId : String) : Op Unit :=
  if (deposit.bind (Submitted rt)).isSome then happen (.reported depositId) else pure ()

/-- the answer of the partner -/
def getDeposit (f : Fate) (deposit : Option ExternalDepositRecord) (depositId : String) :
    Op (Option ExternalDepositRecord) := do
  let deposit ← call f (return deposit)
  report rt deposit depositId
  return deposit

/-- the newest completed deposits -/
def completedEvents (limit : Nat) (events : List StoredDepositEvent) : List StoredDepositEvent :=
  ((events.filter fun event => event.status = .completed).insertionSort fun left right =>
    right.blockTimestampMs < left.blockTimestampMs ∨
      right.blockTimestampMs = left.blockTimestampMs ∧ rt.localeLe right.updatedAt left.updatedAt).take limit

/-- the fields of a sweep of a deposit -/
def depositSweep (c : BotCycle) (event : StoredDepositEvent) (amount : ℤ) (note : String) : SweepRecordInput where
  sourceWalletCode := "foxya-user"
  sourceAddress := event.toAddress
  targetAddress := c.hotWalletAddress
  currencyId := some event.currencyId
  network := some (networkOf event.network)
  amount := amount
  externalRef := some (depositRef event.depositId)
  note := some note
  nowIso := c.now

/-- the two writes for a sweep the partner has submitted -/
def importSweep (c : BotCycle) (event : StoredDepositEvent) (txHash : String) : Op SweepStageResult := do
  let amount ← Method.ofExcept (parseStoredKoriAmount event.amountDecimal)
  let sweep ← call (c.planFates event).createSweep
    (onLedger (createSweepRecord rt (depositSweep c event amount "imported from foxya sweep submission")))
  let _ ← call (c.planFates event).markBroadcasted
    (onLedger (markSweepBroadcasted sweep.sweepId txHash (some "imported foxya tx hash") c.now))
  return .skipped

def planSweep (c : BotCycle) (event : StoredDepositEvent) : Op SweepStageResult := do
  let amount ← Method.ofExcept (parseStoredKoriAmount event.amountDecimal)
  let _ ← call (c.planFates event).createSweep
    (onLedger (createSweepRecord rt
      (depositSweep c event amount ("planned auto sweep for foxya deposit " ++ event.depositId))))
  return .planned

/-- the partner has marked the sweep as failed -/
def failDeclared (c : BotCycle) (event : StoredDepositEvent) (deposit : ExternalDepositRecord)
    (sweep : Option SweepRecord) : Op SweepStageResult :=
  match sweep with
  | none => return .failed
  | some sweep =>
    if sweep.status = .failed then return .failed
    else do
      declareFailed sweep.sweepId
      let _ ← call (c.planFates event).failSweep
        (onLedger (InMemorySweeps.failSweep sweep.sweepId
          (deposit.sweepErrorMessage.getD "foxya marked sweep failed") c.now))
      return .failed

def planEvent (c : BotCycle) (event : StoredDepositEvent) : Op SweepStageResult := do
  match ← getDeposit rt (c.planFates event).getDeposit (c.planFates event).deposit event.depositId with
  | none => return .skipped
  | some deposit => do
    let w ← get
    let sweep ← call (c.planFates event).find (return w.ledger.findSweepByExternalRef (depositRef event.depositId))
    if deposit.sweepStatus.map rt.toUpperCase = some "FAILED" then failDeclared c event deposit sweep
    else
      match sweep, Submitted rt deposit with
      | none, some txHash => importSweep rt c event txHash
      | some sweep, _ => return (if sweep.status = .failed then .failed else .skipped)
      | none, none => planSweep rt c event

/-- the body of the loop of `queuePlannedSweeps` -/
def queueSweep (c : BotCycle) (sweep : SweepRecord) : Op SweepStageResult :=
  match parseDepositId sweep.externalRef with
  | none => return .skipped
  | some _ => do
    let _ ← call (c.queueFates sweep).markQueued
      (onLedger (markSweepQueued sweep.sweepId (some "queued by sweep bot") c.now))
    call (c.queueFates sweep).enqueueJob
      (onLedger (enqueueJob rt "sweep_plan" [("sweepId", sweep.sweepId), ("stage", "executor")] c.now))
    return .queued

end

def TronAccountResources.availableEnergy (r : TronAccountResources) : ℤ := max (r.energyLimit - r.energyUsed) 0

def TronAccountResources.availableBandwidth (r : TronAccountResources) : ℤ := max (r.bandwidthLimit - r.bandwidthUsed) 0

/-- `Number(trxBalanceSun) / 1_000_000` -/
def TronAccountResources.trxBalance (r : TronAccountResources) : ℚ :=
  Binary64.round (Binary64.round r.trxBalanceSun / 1000000)

/-- the source wallet cannot pay for the transfer -/
def BotCycle.Low (c : BotCycle) (r : TronAccountResources) : Prop :=
  r.trxBalance < c.sweepSourceMinTrx ∨ r.availableEnergy < c.sweepSourceMinEnergy ∨ r.availableBandwidth ≤ 0

instance (c : BotCycle) (r : TronAccountResources) : Decidable (c.Low r) := inferInstanceAs (Decidable (_ ∨ _ ∨ _))

/-- seconds in the queue; a date that does not parse is not a number, and never too old -/
def BotCycle.queueAgeSec (c : BotCycle) (queuedAt : Option String) : Option ℤ :=
  match InMemoryLedger.truthy queuedAt with
  | none => some 0
  | some queuedAt => (c.timeMs queuedAt).map fun queuedMs => (c.nowMs - queuedMs).fdiv 1000

/-- the sweep has waited or been tried long enough -/
def BotCycle.GivesUp (c : BotCycle) (attempted : SweepRecord) : Prop :=
  (∃ age ∈ c.queueAgeSec attempted.queuedAt, c.sweepQueueTimeoutSec ≤ age) ∨
    c.sweepMaxRetryCount ≤ attempted.attemptCount

instance (c : BotCycle) (attempted : SweepRecord) : Decidable (c.GivesUp attempted) :=
  inferInstanceAs (Decidable (_ ∨ _))

/-- the branch for a source wallet that cannot pay -/
def resourcesLow (c : BotCycle) (f : ExecuteFates) (sweep attempted : SweepRecord) (depositId : String)
    (network : TronNetwork) (r : TronAccountResources) : Op SweepStageResult := do
  notify f.lowAlert c.nowMs (sweepResourceLow depositId sweep.sourceAddress network (c.toFixed6 r.trxBalance)
    r.availableEnergy r.availableBandwidth attempted.attemptCount)
  if c.GivesUp attempted then do
    let reason := "sweep resource low timeout: trx=" ++ c.toFixed6 r.trxBalance ++ ", energy=" ++
      toString r.availableEnergy ++ ", bandwidth=" ++ toString r.availableBandwidth
    let _ ← call f.failLow (onLedger (InMemorySweeps.failSweep sweep.sweepId reason c.now))
    tellPartner f.partnerFailLow (.failSweep depositId reason)
    notify f.timeoutAlert c.nowMs (sweepQueueTimeout depositId sweep.sourceAddress attempted.queuedAt
      attempted.attemptCount c.sweepQueueTimeoutSec)
    return .failed
  else return .skipped

/-- the transfer of a sweep -/
def sentSweep (f : ExecuteFates) (sweep : SweepRecord) (depositId : String) (signer : WalletSigner) : SentSweep where
  sweepId := sweep.sweepId
  depositId := depositId
  toAddress := sweep.targetAddress
  amount := sweep.amount
  network := sweep.network.getD .mainnet
  fromAddress := signer.address
  fromPrivateKey := signer.privateKey
  txHash := f.txHash

/-- the body of the `try` block -/
def sendSweep (c : BotCycle) (f : ExecuteFates) (sweep : SweepRecord) (depositId : String) (signer : WalletSigner) :
    Op SweepStageResult := do
  call f.broadcast (happen (.sent (sentSweep f sweep depositId signer)))
  tellPartner f.submit (.submitSweep depositId f.txHash)
  let _ ← call f.markBroadcasted
    (onLedger (markSweepBroadcasted sweep.sweepId f.txHash (some "broadcasted by sweep executor") c.now))
  return .broadcasted

/-- the body of the `catch` block -/
def sendFailed (c : BotCycle) (f : ExecuteFates) (sweep : SweepRecord) (depositId : String) (error : LedgerError) :
    Op SweepStageResult := do
  let _ ← call f.failSweep (onLedger (InMemorySweeps.failSweep sweep.sweepId (c.messageOf error) c.now))
  tellPartner f.partnerFail (.failSweep depositId (c.messageOf error))
  notify f.alert c.nowMs (sweepFailure depositId sweep.sourceAddress (c.messageOf error))
  return .failed

section
variable (rt : Runtime)

def executeSweep (c : BotCycle) (sweep : SweepRecord) : Op SweepStageResult := do
  let f := c.executeFates sweep
  match InMemoryLedger.truthy (parseDepositId sweep.externalRef) with
  | none => return .skipped
  | some depositId => do
    match ← getDeposit rt f.getDeposit f.deposit depositId with
    | none => return .skipped
    | some _ => do
      match (← call f.signer (return f.walletSigner)).filter (·.privateKey ≠ "") with
      | none => return .skipped
      | some signer => do
        let attempted ← call f.recordAttempt
          (onLedger (recordSweepAttempt sweep.sweepId (some "attempted by sweep executor") c.now))
        let r ← call f.resources (return f.accountResources)
        if c.Low r then resourcesLow c f sweep attempted depositId (sweep.network.getD .mainnet) r
        else tryCatch (sendSweep c f sweep depositId signer) (sendFailed c f sweep depositId)

/-- `SweepBotService.confirmSweep` -/
def confirmOne (c : BotCycle) (sweep : SweepRecord) : Op SweepStageResult := do
  let f := c.confirmFates sweep
  match InMemoryLedger.truthy sweep.txHash, InMemoryLedger.truthy (parseDepositId sweep.externalRef) with
  | some txHash, some depositId => do
    let receipt ← call f.receipt (return f.transactionReceipt)
    match receipt.status with
    | .confirmed => do
      let _ ← call f.confirm (onLedger (InMemorySweeps.confirmSweep sweep.sweepId (some "confirmed by sweep confirmer")
        (some ⟨txHash, receipt.feeSun, receipt.energyUsed, receipt.bandwidthUsed⟩) c.now))
      return .confirmed
    | .failed => do
      declareFailed sweep.sweepId
      let _ ← call f.failSweep
        (onLedger (InMemorySweeps.failSweep sweep.sweepId "on-chain receipt reported failure" c.now))
      tellPartner f.partnerFail (.failSweep depositId "on-chain receipt reported failure")
      notify f.alert c.nowMs (sweepFailure depositId sweep.sourceAddress "on-chain receipt reported failure")
      return .failed
    | .pending => return .skipped
  | _, _ => return .skipped

/-- a stage over the newest sweeps with a status -/
def sweepStage (f : Fate) (limit : Nat) (status : SweepStatus) (body : SweepRecord → Op SweepStageResult) :
    Op (List SweepStageResult) := do
  let w ← get
  let sweeps ← call f (return w.ledger.listSweepRecordsByStatuses rt [status] limit)
  each body sweeps

def planSweepsFromCompletedDeposits (c : BotCycle) : Op (List SweepStageResult) := do
  let w ← get
  let events ← call c.listCompleted (return completedEvents rt c.cycleLimit w.events)
  each (planEvent rt c) events

structure CycleCounts where
  scanned : Nat
  planned : Nat
  queued : Nat
  broadcasted : Nat
  confirmed : Nat
  failed : Nat
  skipped : Nat
  deriving DecidableEq, Repr

def runCycle (c : BotCycle) : Op (Option CycleCounts) :=
  if c.enabled ∧ c.configured then do
    let planResults ← planSweepsFromCompletedDeposits rt c
    let queueResults ← sweepStage rt c.listPlanned c.cycleLimit .planned (queueSweep rt c)
    let executeResults ← sweepStage rt c.listQueued c.cycleLimit .queued (executeSweep rt c)
    let confirmResults ← sweepStage rt c.listBroadcasted c.cycleLimit .broadcasted (confirmOne c)
    let all := planResults ++ queueResults ++ executeResults ++ confirmResults
    return some
      { scanned := planResults.length
        planned := planResults.count .planned
        queued := queueResults.count .queued
        broadcasted := executeResults.count .broadcasted
        confirmed := confirmResults.count .confirmed
        failed := all.count .failed
        skipped := all.count .skipped }
  else return none

def BotCycle.exec (c : BotCycle) (w : BotWorld) : BotWorld := (runCycle rt c w).2

end

/-! ## the deposit of a sweep -/

theorem parseDepositId_ref (depositId : String) : parseDepositId (some (depositRef depositId)) = some depositId := by
  have htext : (depositRef depositId).toList = depositPrefix.toList ++ depositId.toList := by
    rw [depositRef, String.toList_append]
  unfold parseDepositId
  rw [Option.bind_some, htext, if_pos (List.isPrefixOf_iff_prefix.mpr (List.prefix_append _ _)), List.drop_left,
    String.ofList_toList]

/-- a sweep of a deposit has the deposit's reference -/
theorem parseDepositId_eq_some {externalRef : Option String} {depositId : String}
    (h : parseDepositId externalRef = some depositId) : externalRef = some (depositRef depositId) := by
  unfold parseDepositId at h
  obtain ⟨ref, hsome, hparsed⟩ := Option.bind_eq_some_iff.mp h
  rw [hsome]
  split at hparsed
  · next hprefix =>
    obtain ⟨rest, hrest⟩ := List.isPrefixOf_iff_prefix.mp hprefix
    rw [← hrest, List.drop_left] at hparsed
    have htext : (depositRef depositId).toList = ref.toList := by
      rw [depositRef, String.toList_append, ← Option.some.inj hparsed, String.toList_ofList, hrest]
    rw [String.toList_injective htext]
  · cases hparsed

theorem depositRef_injective : Function.Injective depositRef := by
  intro depositId depositId' h
  have hparsed := congrArg (fun ref => parseDepositId (some ref)) h
  rw [parseDepositId_ref, parseDepositId_ref] at hparsed
  exact Option.some.inj hparsed

end SweepBotService
