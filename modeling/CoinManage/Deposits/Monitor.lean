import CoinManage.Numbers
import CoinManage.Lib.Loops
import CoinManage.InMemory.Calls

/-!
# The deposit monitor

`DepositMonitorService` reads the watched addresses from foxya and the transfer events of the KORI
contract from the chain, from a window that overlaps the last one, registers every event that
pays a watched address with foxya, and completes it once it has its confirmations and the
lifecycle gate of the wallet lets the deposit pass: the ledger is credited, then foxya and the
event's record are told.

One execution of `runCycleInternal` is a method of a `Scan`: the stores and the local variables
its `catch` block still sees.  What the other parties answer, what the clock reads and which calls
fail (`Outcome`, by the number of the call within the execution) are the fields of a `MonitorCycle`.
The `running` flag makes a call that arrives during an execution return at once, so executions
come one after the other.
-/

/-! ## records -/

inductive ExternalDepositEventStatus where
  | discovered
  | registered
  | completed
  deriving DecidableEq, Repr

structure DepositMonitorCursor where
  scannerKey : String
  network : String
  contractAddress : String
  cursorTimestampMs : ℤ
  lastScannedBlockNumber : Option ℤ
  lastSeenEventBlockNumber : Option ℤ
  lastSeenTxHash : Option String
  /-- the error whose message the cursor keeps -/
  lastError : Option LedgerError
  deriving DecidableEq

structure ExternalDepositEvent where
  eventKey : String
  depositId : String
  userId : String
  currencyId : Nat
  network : String
  fromAddress : Option String
  toAddress : String
  txHash : String
  eventIndex : Nat
  blockNumber : ℤ
  blockTimestampMs : ℤ
  amountRaw : RawAmount
  amountDecimal : String
  status : ExternalDepositEventStatus
  /-- milliseconds; the ISO text of an instant is never empty, so only its presence is tested -/
  foxyaRegisteredAt : Option ℤ
  foxyaCompletedAt : Option ℤ
  deriving DecidableEq

structure DepositWatchAddress where
  userId : String
  currencyId : Nat
  address : String
  network : String
  deriving DecidableEq, Repr

structure Trc20TransferEvent where
  txHash : String
  eventIndex : Nat
  blockNumber : ℤ
  blockTimestampMs : ℤ
  fromAddress : Option String
  toAddress : Option String
  amountRaw : RawAmount
  deriving DecidableEq

structure Trc20TransferPage where
  events : List Trc20TransferEvent
  nextFingerprint : Option String

structure DepositMonitorCycleResult where
  scannedEvents : Nat
  watchedAddresses : Nat
  matchedEvents : Nat
  registeredCount : Nat
  completedCount : Nat
  skippedCount : Nat
  currentBlockNumber : ℤ
  cursorTimestampMs : ℤ
  deriving DecidableEq, Repr

inductive CycleReply where
  | skipped (reason : String)
  | result (result : DepositMonitorCycleResult)
  deriving DecidableEq, Repr

/-! ## configuration and the outside -/

structure DepositMonitorEnv where
  depositMonitorEnabled : Bool
  foxyaConfigured : Bool
  depositMonitorNetwork : String
  contractAddress : String
  depositMonitorConfirmations : Nat
  depositMonitorStartTimestampMs : Option Nat
  depositMonitorLookbackMs : Nat
  depositMonitorCurrencyIds : List Nat

inductive CycleRequest where
  | runCycle
  | reconcile (lookbackMs : Option ℤ) (addresses txHashes : List String)
  deriving DecidableEq, Repr

structure CycleOptions where
  overrideStartTimestampMs : Option ℤ
  addressFilter : List String
  txHashFilter : List String
  persistCursor : Bool
  deriving DecidableEq, Repr

/-- One call of the service and everything it gets from outside.  The reader answers the pages one
after the other, and the empty page after the last of them. -/
structure MonitorCycle where
  request : CycleRequest
  /-- `Date.now()` where `reconcile` is entered -/
  reconcileNow : ℤ
  /-- `Date.now()` where the saved cursor is given its first value -/
  savedNow : ℤ
  /-- `Date.now()` where the window starts without a cursor -/
  startNow : ℤ
  /-- the clock at the `n`-th call of the execution -/
  nowMs : Nat → ℤ
  nowIso : Nat → String
  watchAddresses : List DepositWatchAddress
  currentBlockNumber : ℤ
  /-- the pages for a `minBlockTimestamp` -/
  pages : ℤ → List Trc20TransferPage
  /-- what `canCreditDeposit` answers for a user and a wallet -/
  depositAllowed : (userId walletAddress : String) → Bool
  outcome : Nat → Method.Outcome

def SCANNER_KEY : String := "tron-kori-monitor"

/-! ## the repository -/

structure InMemoryDepositMonitorRepository where
  cursors : OrderedMap String DepositMonitorCursor
  events : OrderedMap String ExternalDepositEvent

namespace InMemoryDepositMonitorRepository

abbrev Op (α : Type) := Method InMemoryDepositMonitorRepository LedgerError α

def empty : InMemoryDepositMonitorRepository := ⟨.empty, .empty⟩

def getCursor (scannerKey : String) : Op (Option DepositMonitorCursor) := do
  return (← get).cursors.get? scannerKey

def saveCursor (input : DepositMonitorCursor) : Op DepositMonitorCursor := do
  modify fun s => { s with cursors := s.cursors.set input.scannerKey input }
  return input

def recordDiscoveredEvent (input : ExternalDepositEvent) : Op ExternalDepositEvent := do
  match (← get).events.get? input.eventKey with
  | some existing => return existing
  | none =>
    modify fun s => { s with events := s.events.set input.eventKey input }
    return input

def markEventStatus (eventKey : String) (status : ExternalDepositEventStatus)
    (foxyaRegisteredAt foxyaCompletedAt : Option ℤ) : Op ExternalDepositEvent := do
  match (← get).events.get? eventKey with
  | none => throw (.plain ("deposit monitor event not found: " ++ eventKey))
  | some existing =>
    let updated :=
      { existing with
        status := status
        foxyaRegisteredAt := foxyaRegisteredAt <|> existing.foxyaRegisteredAt
        foxyaCompletedAt := foxyaCompletedAt <|> existing.foxyaCompletedAt }
    modify fun s => { s with events := s.events.set eventKey updated }
    return updated

end InMemoryDepositMonitorRepository

/-! ## the stores and one execution -/

/-- The stores the service writes.  `applications` is history: the events whose deposit the
service has asked the ledger to apply, in order. -/
structure DepositMonitor where
  repository : InMemoryDepositMonitorRepository
  ledger : InMemoryLedger
  applications : List ExternalDepositEvent

def DepositMonitor.new (ledger : InMemoryLedger) : DepositMonitor := ⟨.empty, ledger, []⟩

/-- `lastSeenTimestamp`, `lastSeenBlockNumber` and `lastSeenTxHash` -/
structure LastSeen where
  timestampMs : ℤ
  blockNumber : Option ℤ
  txHash : Option String
  deriving DecidableEq, Repr

def LastSeen.see (seen : LastSeen) (chainEvent : Trc20TransferEvent) : LastSeen where
  timestampMs := max seen.timestampMs chainEvent.blockTimestampMs
  blockNumber := some (max (seen.blockNumber.getD 0) chainEvent.blockNumber)
  txHash := some chainEvent.txHash

structure CycleCounts where
  scannedEvents : Nat
  matchedEvents : Nat
  registeredCount : Nat
  completedCount : Nat
  skippedCount : Nat
  deriving DecidableEq, Repr

structure Scan where
  monitor : DepositMonitor
  callsMade : Nat
  counts : CycleCounts
  lastSeen : LastSeen
  /-- `savedCursorTimestampMs`, `savedLastSeenBlockNumber` and `savedLastSeenTxHash` -/
  saved : LastSeen

namespace DepositMonitorService

abbrev Body (α : Type) := Method Scan LedgerError α

def callFailed : LedgerError := .plain "call failed"

/-- a call to another party: the next of the execution, with the outcome the cycle gives it -/
def calling {α : Type} (c : MonitorCycle) (m : Body α) : Body α := do
  let s ← get
  modify fun s => { s with callsMade := s.callsMade + 1 }
  (c.outcome s.callsMade).of callFailed m

def onRepository {α : Type} (m : InMemoryDepositMonitorRepository.Op α) : Body α :=
  Method.zoom (fun s => s.monitor.repository)
    (fun r s => { s with monitor := { s.monitor with repository := r } }) m

def onLedger {α : Type} (m : InMemoryLedger.Op α) : Body α :=
  Method.zoom (fun s => s.monitor.ledger)
    (fun l s => { s with monitor := { s.monitor with ledger := l } }) m

def count (f : CycleCounts → CycleCounts) : Body Unit :=
  modify fun s => { s with counts := f s.counts }

section
variable (rt : Runtime) (env : DepositMonitorEnv) (c : MonitorCycle)

/-! ## watched addresses -/

def filterWatchAddresses (addresses : List DepositWatchAddress) : List DepositWatchAddress :=
  ((addresses.filter fun item => rt.toUpperCase item.network == "TRON").filter fun item =>
      env.depositMonitorCurrencyIds.isEmpty || env.depositMonitorCurrencyIds.contains item.currencyId).map
    fun item => { item with address := jsTrim item.address }

def filterAdhocWatchAddresses (addresses : List DepositWatchAddress) (addressFilter : List String) :
    List DepositWatchAddress :=
  if addressFilter = [] then addresses
  else addresses.filter fun item => addressFilter.contains item.address

/-! ## one event -/

/-- `${network}:${target.currencyId}:${chainEvent.txHash}:${chainEvent.eventIndex}` -/
def eventKeyOf (chainEvent : Trc20TransferEvent) (target : DepositWatchAddress) : String :=
  env.depositMonitorNetwork ++ ":" ++ toString target.currencyId ++ ":" ++ chainEvent.txHash ++ ":" ++
    toString chainEvent.eventIndex

/-- the record of an event that is seen for the first time -/
def discovered (depositId toAddress : String) (chainEvent : Trc20TransferEvent)
    (target : DepositWatchAddress) : ExternalDepositEvent where
  eventKey := eventKeyOf env chainEvent target
  depositId := depositId
  userId := target.userId
  currencyId := target.currencyId
  network := target.network
  fromAddress := chainEvent.fromAddress
  toAddress := toAddress
  txHash := chainEvent.txHash
  eventIndex := chainEvent.eventIndex
  blockNumber := chainEvent.blockNumber
  blockTimestampMs := chainEvent.blockTimestampMs
  amountRaw := chainEvent.amountRaw
  amountDecimal := formatRawAmount chainEvent.amountRaw
  status := .discovered
  foxyaRegisteredAt := none
  foxyaCompletedAt := none

/-- `ledger.applyDeposit` for an event, with the history's entry -/
def applyDeposit (event : ExternalDepositEvent) (amount : ℤ) : Body DepositApplyResult := do
  let s ← get
  modify fun s =>
    { s with monitor := { s.monitor with applications := s.monitor.applications ++ [event] } }
  onLedger (InMemoryLedger.applyDeposit rt
    { userId := event.userId
      amount := amount
      txHash := event.txHash
      toAddress := some event.toAddress
      walletAddress := some event.toAddress
      blockNumber := .ofInt event.blockNumber
      nowIso := c.nowIso s.callsMade })

/-- too few confirmations, or completed before -/
def notDue (event : ExternalDepositEvent) (currentBlockNumber : ℤ) : Bool :=
  decide (currentBlockNumber - event.blockNumber + 1 < env.depositMonitorConfirmations) ||
    event.foxyaCompletedAt.isSome

def completeIfEligible (event : ExternalDepositEvent) (currentBlockNumber : ℤ) : Body Bool := do
  if notDue env event currentBlockNumber then return false
  else
    let depositAllowed ← calling c (pure (c.depositAllowed event.userId event.toAddress))
    if depositAllowed then
      let amount ← Method.ofExcept (parseKoriAmount (toNumber event.amountDecimal))
      let applied ← calling c (applyDeposit rt c event amount)
      let _ ← calling c (onLedger (InMemoryLedger.completeDeposit applied.deposit.depositId))
      -- `foxyaClient.completeDeposit`
      calling c (pure ())
      let s ← get
      let _ ← calling c (onRepository (InMemoryDepositMonitorRepository.markEventStatus event.eventKey
        .completed none (some (c.nowMs s.callsMade))))
      return true
    else
      -- `alertService.notifyWalletLifecycleGateBlocked`
      calling c (pure ())
      return false

/-- one turn of the loop over the targets of an event -/
def scanTarget (currentBlockNumber : ℤ) (chainEvent : Trc20TransferEvent) (toAddress : String)
    (target : DepositWatchAddress) : Body Unit := do
  let depositId ← onLedger (InMemoryLedger.randomUUID rt)
  let event ← calling c (onRepository (InMemoryDepositMonitorRepository.recordDiscoveredEvent
    (discovered env depositId toAddress chainEvent target)))
  if event.foxyaRegisteredAt.isSome then
    if ← completeIfEligible rt env c event currentBlockNumber then
      count fun n => { n with completedCount := n.completedCount + 1 }
  else
    -- `foxyaClient.registerDeposit`
    calling c (pure ())
    let s ← get
    let registeredAt := c.nowMs s.callsMade
    let _ ← calling c (onRepository (InMemoryDepositMonitorRepository.markEventStatus event.eventKey
      .registered (some registeredAt) none))
    count fun n => { n with registeredCount := n.registeredCount + 1 }
    if ← completeIfEligible rt env c { event with foxyaRegisteredAt := some registeredAt }
        currentBlockNumber then
      count fun n => { n with completedCount := n.completedCount + 1 }

def skip : Body Unit := count fun n => { n with skippedCount := n.skippedCount + 1 }

/-! ## one execution -/

def optionsOf : CycleOptions :=
  match c.request with
  | .runCycle => ⟨none, [], [], true⟩
  | .reconcile lookbackMs addresses txHashes =>
    { overrideStartTimestampMs := some (c.reconcileNow - lookbackMs.getD env.depositMonitorLookbackMs)
      addressFilter := (addresses.map jsTrim).filter (· ≠ "")
      txHashFilter := (txHashes.map jsTrim).filter (· ≠ "")
      persistCursor := false }

/-- the addresses this execution watches -/
def watched : List DepositWatchAddress :=
  filterAdhocWatchAddresses (filterWatchAddresses rt env c.watchAddresses) (optionsOf env c).addressFilter

/-- the event is left out by the transaction filter of a `reconcile` -/
def filteredOut (chainEvent : Trc20TransferEvent) : Bool :=
  !(optionsOf env c).txHashFilter.isEmpty && !(optionsOf env c).txHashFilter.contains chainEvent.txHash

/-- `watchAddressesByAddress.get(chainEvent.toAddress)`: the watched addresses, in their order -/
def targetsOf (toAddress : String) : List DepositWatchAddress :=
  (watched rt env c).filter fun item => item.address = toAddress

def scanEvent (currentBlockNumber : ℤ) (chainEvent : Trc20TransferEvent) : Body Unit := do
  if filteredOut env c chainEvent then skip
  else
    modify fun s => { s with lastSeen := s.lastSeen.see chainEvent, saved := s.lastSeen.see chainEvent }
    match InMemoryLedger.truthy chainEvent.toAddress with
    | none => skip
    | some toAddress =>
      let targets := targetsOf rt env c toAddress
      if targets = [] then skip
      else
        count fun n => { n with matchedEvents := n.matchedEvents + 1 }
        Method.forEach (scanTarget rt env c currentBlockNumber chainEvent toAddress) targets

/-- the `while (true)` loop over the pages -/
def scanPages (currentBlockNumber : ℤ) : List Trc20TransferPage → Body Unit
  | [] => calling c (pure ())
  | page :: pages => do
    calling c (pure ())
    if page.events = [] then pure ()
    else
      count fun n => { n with scannedEvents := n.scannedEvents + page.events.length }
      Method.forEach (scanEvent rt env c currentBlockNumber) page.events
      if InMemoryLedger.truthy page.nextFingerprint = none then pure ()
      else scanPages currentBlockNumber pages

/-- where the window of the execution starts, before the lookback -/
def startTimestamp (cursor : Option DepositMonitorCursor) : ℤ :=
  (optionsOf env c).overrideStartTimestampMs.getD
    ((cursor.map (·.cursorTimestampMs)).getD
      ((env.depositMonitorStartTimestampMs.map fun (ms : Nat) => (ms : ℤ)).getD
        (c.startNow - env.depositMonitorLookbackMs)))

def minBlockTimestamp (startTimestampMs : ℤ) : ℤ :=
  max 0 (startTimestampMs - env.depositMonitorLookbackMs)

def cursorOf (seen : LastSeen) (lastScannedBlockNumber : Option ℤ) (lastError : Option LedgerError) :
    DepositMonitorCursor where
  scannerKey := SCANNER_KEY
  network := env.depositMonitorNetwork
  contractAddress := env.contractAddress
  cursorTimestampMs := seen.timestampMs
  lastScannedBlockNumber := lastScannedBlockNumber
  lastSeenEventBlockNumber := seen.blockNumber
  lastSeenTxHash := seen.txHash
  lastError := lastError

def saveCursor (cursor : DepositMonitorCursor) : Body DepositMonitorCursor :=
  calling c (onRepository (InMemoryDepositMonitorRepository.saveCursor cursor))

/-- the window's first values, from the cursor that was read -/
def openWindow (cursor : Option DepositMonitorCursor) : Body Unit :=
  let seen : LastSeen :=
    { timestampMs := startTimestamp env c cursor
      blockNumber := cursor.bind (·.lastSeenEventBlockNumber)
      txHash := cursor.bind (·.lastSeenTxHash) }
  modify fun s => { s with lastSeen := seen, saved := seen }

/-- the `try` block from the open window on -/
def scanOpened (startTimestampMs : ℤ) : Body DepositMonitorCycleResult := do
  scanPages rt env c c.currentBlockNumber (c.pages (minBlockTimestamp env startTimestampMs))
  let s ← get
  let savedCursor := cursorOf env s.lastSeen (some c.currentBlockNumber) none
  if (optionsOf env c).persistCursor then
    let _ ← saveCursor c savedCursor
  return {
    scannedEvents := s.counts.scannedEvents
    watchedAddresses := (watched rt env c).length
    matchedEvents := s.counts.matchedEvents
    registeredCount := s.counts.registeredCount
    completedCount := s.counts.completedCount
    skippedCount := s.counts.skippedCount
    currentBlockNumber := c.currentBlockNumber
    cursorTimestampMs := savedCursor.cursorTimestampMs }

/-- the `try` block -/
def scanWindow : Body DepositMonitorCycleResult := do
  calling c (pure ())          -- `foxyaClient.listWatchAddresses`
  calling c (pure ())          -- `eventReader.getCurrentBlockNumber`
  let cursor ← calling c (onRepository (InMemoryDepositMonitorRepository.getCursor SCANNER_KEY))
  openWindow env c cursor
  scanOpened rt env c (startTimestamp env c cursor)

/-- the cursor a `catch` saves when nothing has been read yet -/
def fallbackTimestamp : ℤ :=
  (env.depositMonitorStartTimestampMs.map fun (ms : Nat) => (ms : ℤ)).getD
    (c.savedNow - env.depositMonitorLookbackMs)

/-- the local variables before the `try` block -/
def entering (monitor : DepositMonitor) : Scan where
  monitor := monitor
  callsMade := 0
  counts := ⟨0, 0, 0, 0, 0⟩
  lastSeen := ⟨fallbackTimestamp env c, none, none⟩
  saved := ⟨fallbackTimestamp env c, none, none⟩

/-- the `try` block with its `catch` block -/
def execution : Body DepositMonitorCycleResult :=
  tryCatch (scanWindow rt env c) fun error => do
    let s ← get
    let _ ← saveCursor c (cursorOf env s.saved none (some error))
    throw error

def runCycleInternal : Method DepositMonitor LedgerError CycleReply := fun monitor =>
  if env.depositMonitorEnabled = false then (.ok (.skipped "deposit monitor disabled"), monitor)
  else if env.foxyaConfigured = false then
    (.ok (.skipped "foxya internal api is not configured"), monitor)
  else
    ((execution rt env c (entering env c monitor)).1.map .result,
      (execution rt env c (entering env c monitor)).2.monitor)

/-- `runCycle` or `reconcile`, as the request says -/
def cycle (monitor : DepositMonitor) : DepositMonitor := (runCycleInternal rt env c monitor).2

end

/-- cycles one after the other -/
def run (rt : Runtime) (env : DepositMonitorEnv) (cycles : List MonitorCycle) (monitor : DepositMonitor) :
    DepositMonitor := runCalls (cycle rt env) cycles monitor

end DepositMonitorService
