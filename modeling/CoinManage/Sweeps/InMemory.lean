import CoinManage.Postgres.Schema
import CoinManage.Wallets.Repository
import Mathlib.Data.List.TakeWhile

/-!
# The sweep records of the in-memory ledger

The part of the in-memory ledger that keeps the sweep records, with the audit log and the job queue that its callers
write next to it.  Lists are pages: the newest records first, and no more than the limit.

* `listSweepRecords`, `listSweepRecordsByStatuses`   the pages;
* `createSweepRecord`, `stepSweep`                   a new record, and a step of an old one;
* `mem_page`                                         what is on a page is stored;
* `mem_page_of_short`                                everything is, while the page is not full;
* `Keyed`                                            every record is kept under its own id.
-/

/-! ## the source -/

structure SweepRecord where
  sweepId : String
  sourceWalletCode : String
  sourceAddress : String
  targetAddress : String
  currencyId : Option Nat := none
  network : Option TronNetwork := none
  amount : ℤ
  status : Postgres.SweepStatus
  externalRef : Option String := none
  txHash : Option String := none
  note : Option String := none
  attemptCount : Nat := 0
  createdAt : String
  queuedAt : Option String := none
  lastAttemptAt : Option String := none
  broadcastedAt : Option String := none
  confirmedAt : Option String := none
  deriving DecidableEq, Repr

structure SweepRecordInput where
  sourceWalletCode : String
  sourceAddress : String
  targetAddress : String
  currencyId : Option Nat := none
  network : Option TronNetwork := none
  amount : ℤ
  externalRef : Option String := none
  note : Option String := none
  nowIso : String

structure AuditLog where
  auditId : String
  entityType : String
  entityId : String
  action : String
  actorType : String
  actorId : String
  metadata : List (String × String)
  createdAt : String
  deriving DecidableEq, Repr

structure LedgerJob where
  jobId : String
  jobType : String
  payload : List (String × String)
  createdAt : String
  deriving DecidableEq, Repr

structure InMemorySweeps where
  sweepRecords : OrderedMap String SweepRecord
  networkFeeReceipts : OrderedMap String NetworkFeeReceipt
  networkFeeJournals : OrderedMap String NetworkFeeJournal
  auditLogs : List AuditLog
  jobs : List LedgerJob
  uuidsDrawn : Nat

namespace InMemorySweeps
open Postgres (SweepStatus)

def new : InMemorySweeps where
  sweepRecords := .empty
  networkFeeReceipts := .empty
  networkFeeJournals := .empty
  auditLogs := []
  jobs := []
  uuidsDrawn := 0

abbrev Op (α : Type) := Method InMemorySweeps LedgerError α

section
variable (rt : Runtime)

def randomUUID : Op String := fun s => (.ok (rt.uuid s.uuidsDrawn), { s with uuidsDrawn := s.uuidsDrawn + 1 })

/-- a new record -/
def plannedSweep (sweepId : String) (input : SweepRecordInput) : SweepRecord where
  sweepId := sweepId
  sourceWalletCode := input.sourceWalletCode
  sourceAddress := input.sourceAddress
  targetAddress := input.targetAddress
  currencyId := input.currencyId
  network := input.network
  amount := input.amount
  status := .planned
  externalRef := input.externalRef
  note := input.note
  createdAt := input.nowIso

def createSweepRecord (input : SweepRecordInput) : Op SweepRecord := do
  let sweepId ← randomUUID rt
  let sweep := plannedSweep sweepId input
  modify fun s => { s with sweepRecords := s.sweepRecords.set sweep.sweepId sweep }
  return sweep

/-- `.sort((left, right) => right.createdAt.localeCompare(left.createdAt)).slice(0, limit)` -/
def newest (limit : Nat) (sweeps : List SweepRecord) : List SweepRecord :=
  (sweeps.insertionSort fun left right => rt.localeLe right.createdAt left.createdAt).take limit

def listSweepRecords (s : InMemorySweeps) (limit : Nat) : List SweepRecord := newest rt limit s.sweepRecords.values

def listSweepRecordsByStatuses (s : InMemorySweeps) (statuses : List SweepStatus) (limit : Nat) : List SweepRecord :=
  newest rt limit (s.sweepRecords.values.filter fun sweep => sweep.status ∈ statuses)

def appendAuditLog (entityType entityId action actorType actorId : String) (metadata : List (String × String))
    (nowIso : String) : Op Unit := do
  let auditId ← randomUUID rt
  modify fun s =>
    { s with auditLogs := s.auditLogs ++ [⟨auditId, entityType, entityId, action, actorType, actorId, metadata, nowIso⟩] }

def enqueueJob (jobType : String) (payload : List (String × String)) (nowIso : String) : Op Unit := do
  let jobId ← randomUUID rt
  modify fun s => { s with jobs := s.jobs ++ [⟨jobId, jobType, payload, nowIso⟩] }

end

def findSweepByExternalRef (s : InMemorySweeps) (externalRef : String) : Option SweepRecord :=
  s.sweepRecords.values.find? fun sweep => sweep.externalRef = some externalRef

def getMutableSweep (sweepId : String) : Op SweepRecord := do
  match (← get).sweepRecords.get? sweepId with
  | some sweep => return sweep
  | none => throw (.domain 404 "NOT_FOUND" "sweep not found")

/-- A step of a sweep: where its status is one of `sources`, its fields are written. -/
def stepSweep (sweepId : String) (sources : List SweepStatus) (message : String) (f : SweepRecord → SweepRecord) :
    Op SweepRecord := do
  let sweep ← getMutableSweep sweepId
  if sweep.status ∉ sources then throw (.domain 409 "INVALID_STATE" message)
  else
    modify fun s => { s with sweepRecords := s.sweepRecords.set sweepId (f sweep) }
    return f sweep

/-- the fields of `markSweepQueued` -/
def queuedSweep (note : Option String) (nowIso : String) (sweep : SweepRecord) : SweepRecord :=
  { sweep with status := .queued, note := note <|> sweep.note, queuedAt := sweep.queuedAt <|> some nowIso }

def markSweepQueued (sweepId : String) (note : Option String) (nowIso : String) : Op SweepRecord :=
  stepSweep sweepId [.planned] "sweep must be planned" (queuedSweep note nowIso)

def attemptedSweep (note : Option String) (nowIso : String) (sweep : SweepRecord) : SweepRecord :=
  { sweep with
    attemptCount := sweep.attemptCount + 1, lastAttemptAt := some nowIso, note := note <|> sweep.note }

def recordSweepAttempt (sweepId : String) (note : Option String) (nowIso : String) : Op SweepRecord :=
  stepSweep sweepId [.queued] "sweep must be queued" (attemptedSweep note nowIso)

def broadcastedSweep (txHash : String) (note : Option String) (nowIso : String) (sweep : SweepRecord) : SweepRecord :=
  { sweep with
    status := .broadcasted, txHash := some txHash, note := note <|> sweep.note, broadcastedAt := some nowIso }

def markSweepBroadcasted (sweepId txHash : String) (note : Option String) (nowIso : String) : Op SweepRecord :=
  stepSweep sweepId [.planned, .queued] "sweep must be planned or queued" (broadcastedSweep txHash note nowIso)

def confirmedSweep (note : Option String) (nowIso : String) (sweep : SweepRecord) : SweepRecord :=
  { sweep with status := .confirmed, note := note <|> sweep.note, confirmedAt := some nowIso }

/-- the receipt and the fee journal of a confirmed sweep -/
def recordNetworkFee (sweepId txHash : String) (fee : NetworkFee) (nowIso : String) : Op Unit :=
  let feeReceiptId := sweepId ++ ":" ++ txHash
  modify fun s =>
    { s with
      networkFeeReceipts := s.networkFeeReceipts.set feeReceiptId
        { feeReceiptId := feeReceiptId
          referenceType := .sweep
          referenceId := sweepId
          txHash := fee.txHash
          feeSun := fee.feeSun
          energyUsed := fee.energyUsed
          bandwidthUsed := fee.bandwidthUsed
          confirmedAt := nowIso
          createdAt := nowIso }
      networkFeeJournals := s.networkFeeJournals.set feeReceiptId
        { snapshotDate := InMemoryLedger.dayOf nowIso
          referenceType := .sweep
          feeSun := fee.feeSun
          createdAt := nowIso } }

def confirmSweep (sweepId : String) (note : Option String) (networkFee : Option NetworkFee) (nowIso : String) :
    Op SweepRecord := do
  let sweep ← stepSweep sweepId [.planned, .broadcasted] "sweep must be planned or broadcasted"
    (confirmedSweep note nowIso)
  match networkFee, InMemoryLedger.truthy sweep.txHash with
  | some fee, some txHash => recordNetworkFee sweepId txHash fee nowIso
  | _, _ => pure ()
  return sweep

def failedSweep (reason nowIso : String) (sweep : SweepRecord) : SweepRecord :=
  { sweep with status := .failed, note := some reason, confirmedAt := some nowIso }

def failSweep (sweepId reason nowIso : String) : Op SweepRecord :=
  stepSweep sweepId [.planned, .queued, .broadcasted] "sweep must be planned, queued or broadcasted"
    (failedSweep reason nowIso)

/-! ## pages -/

section
variable {rt : Runtime} {s : InMemorySweeps} {limit : Nat} {sweep : SweepRecord}

theorem mem_newest {sweeps : List SweepRecord} (h : sweep ∈ newest rt limit sweeps) : sweep ∈ sweeps :=
  (List.mem_insertionSort _).mp (List.mem_of_mem_take h)

theorem mem_newest_of_short {sweeps : List SweepRecord} (h : sweep ∈ sweeps) (hshort : sweeps.length ≤ limit) :
    sweep ∈ newest rt limit sweeps := by
  unfold newest
  rw [List.take_of_length_le (by rwa [List.length_insertionSort])]
  exact (List.mem_insertionSort _).mpr h

theorem mem_page {statuses : List SweepStatus} (h : sweep ∈ s.listSweepRecordsByStatuses rt statuses limit) :
    sweep ∈ s.sweepRecords.values ∧ sweep.status ∈ statuses := by
  obtain ⟨hmem, hstatus⟩ := List.mem_filter.mp (mem_newest h)
  exact ⟨hmem, of_decide_eq_true hstatus⟩

theorem mem_page_of_short {statuses : List SweepStatus} (h : sweep ∈ s.sweepRecords.values)
    (hstatus : sweep.status ∈ statuses)
    (hshort : s.sweepRecords.values.countP (fun sweep => sweep.status ∈ statuses) ≤ limit) :
    sweep ∈ s.listSweepRecordsByStatuses rt statuses limit := by
  apply mem_newest_of_short (List.mem_filter.mpr ⟨h, decide_eq_true hstatus⟩)
  rwa [← List.countP_eq_length_filter]

end

/-! ## records by their id -/

/-- every record is kept under its own id, and the ids have been drawn -/
structure Keyed (rt : Runtime) (s : InMemorySweeps) : Prop where
  own : ∀ id sweep, s.sweepRecords.get? id = some sweep → sweep.sweepId = id
  drawn : ∀ id sweep, s.sweepRecords.get? id = some sweep → ∃ n < s.uuidsDrawn, id = rt.uuid n

section
variable {rt : Runtime} {s s' : InMemorySweeps}

/-- a record in the table is found by its id -/
theorem Keyed.get? (h : Keyed rt s) {sweep : SweepRecord} (hmem : sweep ∈ s.sweepRecords.values) :
    s.sweepRecords.get? sweep.sweepId = some sweep := by
  obtain ⟨id, hid⟩ := s.sweepRecords.mem_values.mp hmem
  rw [h.own id sweep hid]
  exact hid

/-- the id that is drawn next is new -/
theorem Keyed.fresh (huuid : Function.Injective rt.uuid) (h : Keyed rt s) :
    s.sweepRecords.get? (rt.uuid s.uuidsDrawn) = none := by
  rw [Option.eq_none_iff_forall_ne_some]
  intro sweep hsweep
  obtain ⟨n, hn, heq⟩ := h.drawn _ _ hsweep
  have hsame := huuid heq
  omega

theorem Keyed.set (h : Keyed rt s) {id : String} {sweep : SweepRecord} (hown : sweep.sweepId = id)
    (hdrawn : ∃ n < s'.uuidsDrawn, id = rt.uuid n) (hmore : s.uuidsDrawn ≤ s'.uuidsDrawn)
    (hset : s'.sweepRecords = s.sweepRecords.set id sweep) : Keyed rt s' where
  own := by
    intro id' sweep' hget
    rw [hset, OrderedMap.get?_set] at hget
    split at hget
    · next heq =>
      rw [← Option.some.inj hget, hown]
      exact heq
    · exact h.own id' sweep' hget
  drawn := by
    intro id' sweep' hget
    rw [hset, OrderedMap.get?_set] at hget
    split at hget
    · next heq => exact heq ▸ hdrawn
    · obtain ⟨n, hn, heq⟩ := h.drawn id' sweep' hget
      exact ⟨n, by omega, heq⟩

/-- a step that is refused changes nothing; one that is taken writes the record -/
theorem stepSweep_cases (sweepId : String) (sources : List SweepStatus) (message : String)
    (f : SweepRecord → SweepRecord) :
    (∃ e, stepSweep sweepId sources message f s = (.error e, s)) ∨
    ∃ sweep, s.sweepRecords.get? sweepId = some sweep ∧ sweep.status ∈ sources ∧
      stepSweep sweepId sources message f s =
        (.ok (f sweep), { s with sweepRecords := s.sweepRecords.set sweepId (f sweep) }) := by
  unfold stepSweep getMutableSweep
  rw [Method.bind_assoc, Method.get_bind]
  cases hget : s.sweepRecords.get? sweepId with
  | none => exact Or.inl ⟨_, rfl⟩
  | some sweep =>
    dsimp only
    rw [Method.pure_bind, Method.ite_apply]
    split
    · exact Or.inl ⟨_, rfl⟩
    · next hin => exact Or.inr ⟨sweep, rfl, by simpa using hin, rfl⟩

theorem stepSweep_taken {sweepId : String} {sources : List SweepStatus} (message : String)
    (f : SweepRecord → SweepRecord) {sweep : SweepRecord} (hget : s.sweepRecords.get? sweepId = some sweep)
    (hstatus : sweep.status ∈ sources) :
    stepSweep sweepId sources message f s =
      (.ok (f sweep), { s with sweepRecords := s.sweepRecords.set sweepId (f sweep) }) := by
  unfold stepSweep getMutableSweep
  rw [Method.bind_assoc, Method.get_bind, hget]
  dsimp only
  rw [Method.pure_bind, Method.ite_apply, if_neg (by simpa using hstatus)]
  rfl

/-- a confirmation writes the record as its step does -/
theorem confirmSweep_records (sweepId : String) (note : Option String) (networkFee : Option NetworkFee)
    (nowIso : String) :
    (confirmSweep sweepId note networkFee nowIso s).2.sweepRecords =
        (stepSweep sweepId [.planned, .broadcasted] "sweep must be planned or broadcasted"
          (confirmedSweep note nowIso) s).2.sweepRecords ∧
      (confirmSweep sweepId note networkFee nowIso s).2.uuidsDrawn =
        (stepSweep sweepId [.planned, .broadcasted] "sweep must be planned or broadcasted"
          (confirmedSweep note nowIso) s).2.uuidsDrawn := by
  unfold confirmSweep
  rw [Method.bind_apply]
  rcases stepSweep sweepId [.planned, .broadcasted] "sweep must be planned or broadcasted"
    (confirmedSweep note nowIso) s with ⟨e | sweep, s₁⟩
  · exact ⟨rfl, rfl⟩
  · dsimp only
    cases networkFee with
    | none => exact ⟨rfl, rfl⟩
    | some fee => cases InMemoryLedger.truthy sweep.txHash <;> exact ⟨rfl, rfl⟩

end

end InMemorySweeps
