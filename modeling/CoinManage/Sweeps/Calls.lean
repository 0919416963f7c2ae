import CoinManage.Lib.Interleaving
import CoinManage.Postgres.Ledger

/-!
# The steps of a sweep, statement by statement

Each step of a sweep reads its row, checks the status it read, and then updates the row by its
identifier, outside of a transaction; a confirmation goes on to record the network fee.  Here a step
is a program over the statements it sends, so that steps of other connections fall in between.

* `run_markSweepQueued` .. `run_confirmSweep`   alone, the programs are the repository's methods.
-/

namespace Sweeps
open Postgres Program

/-! ## statements -/

/-- a text or time in a statement: a new one, or one that was read from the row -/
inductive Sent where
  | new (s : String)
  | read (s : Option String)

def Sent.value (check : String → Except LedgerError String) :
    Sent → Except LedgerError (Option String)
  | .new s => do return some (← check s)
  | .read s => return s

/-- `value ?? existing` -/
def sendOr (value existing : Option String) : Sent :=
  match value with
  | some s => .new s
  | none => .read existing

/-- the columns an `UPDATE` sets -/
structure Assignments where
  status : Option SweepStatus := none
  txHash : Option String := none
  note : Sent
  attemptCount : Option ℤ := none
  queuedAt : Option Sent := none
  lastAttemptAt : Option String := none
  broadcastedAt : Option String := none
  confirmedAt : Option String := none

/-- what a connection sends; a statement is atomic -/
inductive Statement : Type → Type
  | selectSweep (sweepId : String) : Statement (Option SweepRecordRow)
  | updateSweep (sweepId : String) (set : Assignments) : Statement SweepRecordRow
  | insertFeeReceipt (sweepId : String) (fee : NetworkFee) (nowIso : String) : Statement Unit
  | insertJournal (input : JournalInput) : Statement String
  | ensureLedgerAccount (posting : LedgerPostingInput) (currencyCode nowIso : String) : Statement Unit
  | insertPostings (journalId nowIso : String) (postings : List LedgerPostingInput) : Statement Unit

section
variable (pg : PgServer)

def Assignments.apply (set : Assignments) (row : SweepRecordRow) : Except LedgerError SweepRecordRow := do
  let txHash ← nullable (varchar 128) set.txHash
  let note ← set.note.value text
  let attemptCount ← nullable (fun n : ℤ => integer 32 (.finite n)) set.attemptCount
  let queuedAt ← nullable (Sent.value (timestamp pg)) set.queuedAt
  let lastAttemptAt ← nullable (timestamp pg) set.lastAttemptAt
  let broadcastedAt ← nullable (timestamp pg) set.broadcastedAt
  let confirmedAt ← nullable (timestamp pg) set.confirmedAt
  return { row with
    status := set.status.getD row.status
    txHash := txHash <|> row.txHash
    note := note
    attemptCount := attemptCount.getD row.attemptCount
    queuedAt := queuedAt.getD row.queuedAt
    lastAttemptAt := lastAttemptAt <|> row.lastAttemptAt
    broadcastedAt := broadcastedAt <|> row.broadcastedAt
    confirmedAt := confirmedAt <|> row.confirmedAt }

def selectSweep (sweepId : String) : Op (Option SweepRecordRow) := do
  let id ← column (uuid pg sweepId)
  return (← get).sweepRecords.find? fun row => row.sweepId = id

/-- `update .. where sweep_id = .. returning *`, of exactly one row -/
def updateSweep (sweepId : String) (set : Assignments) : Op SweepRecordRow := do
  let id ← column (uuid pg sweepId)
  match (← get).sweepRecords.find? fun row => row.sweepId = id with
  | none => throw (.plain "no result")
  | some row =>
    let updated ← column (set.apply pg row)
    modify fun s =>
      { s with
        sweepRecords := s.sweepRecords.map fun row => if row.sweepId = id then updated else row }
    return updated

/-- the identifier is drawn as the statement is sent -/
def insertDrawnJournal (input : JournalInput) : Op String := do
  let journalId ← randomUUID pg
  insertJournal pg journalId input
  return journalId

def Statement.op : {β : Type} → Statement β → Op β
  | _, .selectSweep sweepId => Sweeps.selectSweep pg sweepId
  | _, .updateSweep sweepId set => Sweeps.updateSweep pg sweepId set
  | _, .insertFeeReceipt sweepId fee nowIso => persistNetworkFeeReceipt pg .sweep sweepId fee nowIso
  | _, .insertJournal input => insertDrawnJournal pg input
  | _, .ensureLedgerAccount posting currencyCode nowIso =>
    Postgres.ensureLedgerAccount pg posting currencyCode nowIso
  | _, .insertPostings journalId nowIso postings => Postgres.insertPostings pg journalId nowIso postings

end

/-! ## the steps -/

abbrev Async (α : Type) := Program Statement LedgerError α

/-- the statuses a step to this status starts from -/
def sources : SweepStatus → List SweepStatus
  | .queued => [.planned]
  | .broadcasted => [.planned, .queued]
  | .confirmed => [.planned, .broadcasted]
  | .failed => [.planned, .queued, .broadcasted]
  | .planned | .skipped => []

/-- the row as it is read, once its status is checked -/
def existing (sweepId : String) (expected : List SweepStatus) (message : String) :
    Async SweepRecordRow := do
  let row ← perform (.selectSweep sweepId)
  match row with
  | none => throw (.domain 404 "NOT_FOUND" "sweep not found")
  | some row =>
    if row.status ∉ expected then throw (.domain 409 "INVALID_STATE" message) else return row

def markSweepQueued (sweepId : String) (note : Option String) (nowIso : String) :
    Async SweepRecordRow := do
  let existing ← existing sweepId (sources .queued) "sweep must be planned"
  perform (.updateSweep sweepId
    { status := some .queued
      note := sendOr note existing.note
      queuedAt := some (match existing.queuedAt with
        | some queuedAt => .read (some queuedAt)
        | none => .new nowIso) })

def recordSweepAttempt (sweepId : String) (note : Option String) (nowIso : String) :
    Async SweepRecordRow := do
  let existing ← existing sweepId [.queued] "sweep must be queued"
  perform (.updateSweep sweepId
    { attemptCount := some (existing.attemptCount + 1)
      lastAttemptAt := some nowIso
      note := sendOr note existing.note })

def markSweepBroadcasted (sweepId txHash : String) (note : Option String) (nowIso : String) :
    Async SweepRecordRow := do
  let existing ← existing sweepId (sources .broadcasted) "sweep must be planned or queued"
  perform (.updateSweep sweepId
    { status := some .broadcasted
      txHash := some txHash
      note := sendOr note existing.note
      broadcastedAt := some nowIso })

def failSweep (sweepId reason nowIso : String) : Async SweepRecordRow := do
  let _ ← existing sweepId (sources .failed) "sweep must be planned, queued or broadcasted"
  perform (.updateSweep sweepId
    { status := some .failed
      note := .new reason
      confirmedAt := some nowIso })

def ensureLedgerAccounts (currencyCode nowIso : String) : List LedgerPostingInput → Async Unit
  | [] => return ()
  | posting :: postings => do
    perform (.ensureLedgerAccount posting currencyCode nowIso)
    ensureLedgerAccounts currencyCode nowIso postings

def appendJournal (input : JournalInput) : Async Unit := do
  let journalId ← perform (.insertJournal input)
  ensureLedgerAccounts input.currency input.nowIso input.postings
  perform (.insertPostings journalId input.nowIso input.postings)

def recordSweepFee (sweepId : String) (txHash : Option String) (networkFee : Option NetworkFee)
    (nowIso : String) : Async Unit :=
  match networkFee, truthy txHash with
  | some fee, some txHash => do
    perform (.insertFeeReceipt sweepId fee nowIso)
    appendJournal (sweepFeeJournal sweepId txHash fee nowIso)
  | _, _ => return ()

def confirmSweep (sweepId : String) (note : Option String) (networkFee : Option NetworkFee)
    (nowIso : String) : Async SweepRecordRow := do
  let existing ← existing sweepId (sources .confirmed) "sweep must be planned or broadcasted"
  let row ← perform (.updateSweep sweepId
    { status := some .confirmed
      note := sendOr note existing.note
      confirmedAt := some nowIso })
  recordSweepFee sweepId row.txHash networkFee nowIso
  return row

/-! ## alone -/

section
variable {pg : PgServer}

theorem run_existing (sweepId message : String) (expected : List SweepStatus) (s : Db) :
    (existing sweepId expected message).run (Statement.op pg) s =
      match uuid pg sweepId with
      | .error e => (.error e, s)
      | .ok id =>
        match s.sweepRecords.find? fun row => row.sweepId = id with
        | none => (.error (.domain 404 "NOT_FOUND" "sweep not found"), s)
        | some row =>
          if row.status ∉ expected then (.error (.domain 409 "INVALID_STATE" message), s)
          else (.ok row, s) := by
  rw [existing, run_bind, run_perform]
  show (selectSweep pg sweepId >>= _) s = _
  rw [selectSweep]
  cases h : uuid pg sweepId with
  | error e => rfl
  | ok id =>
    show Program.run _ (match s.sweepRecords.find? fun row => row.sweepId = id with
      | none => _
      | some row => _) s = _
    dsimp only
    cases s.sweepRecords.find? fun row => row.sweepId = id with
    | none => rfl
    | some row =>
      by_cases hst : row.status ∉ expected
      · simp only [if_pos hst]
        rfl
      · simp only [if_neg hst]
        rfl

/-- a read, a check and an update, with nothing in between -/
theorem run_step {sweepId message : String} {expected : List SweepStatus}
    {set : SweepRecordRow → Assignments}
    {change : SweepRecordRow → Except LedgerError SweepRecordRow}
    (h : ∀ row, (set row).apply pg row = change row) :
    (existing sweepId expected message >>= fun row =>
      perform (.updateSweep sweepId (set row))).run (Statement.op pg) =
      stepSweep pg sweepId expected message change := by
  funext s
  rw [run_bind, Method.bind_apply, run_existing, stepSweep]
  cases hid : uuid pg sweepId with
  | error e => rfl
  | ok id =>
    show _ = (match s.sweepRecords.find? fun row => row.sweepId = id with
      | none => _
      | some existing => _ : Op SweepRecordRow) s
    simp only
    cases hfind : s.sweepRecords.find? fun row => row.sweepId = id with
    | none => rfl
    | some row =>
      simp only [Method.throwWhen]
      by_cases hst : row.status ∉ expected
      · simp only [if_pos hst]
        rfl
      · simp only [if_neg hst]
        rw [run_perform]
        show updateSweep pg sweepId (set row) s = _
        rw [updateSweep, hid]
        show (match s.sweepRecords.find? fun row => row.sweepId = id with
          | none => _
          | some row => _ : Op SweepRecordRow) s = _
        rw [hfind]
        simp only [h]
        rfl

theorem value_sendOr {check : String → Except LedgerError String} (value existing : Option String) :
    (sendOr value existing).value check = (do
      let value ← nullable check value
      return value <|> existing) := by
  cases value with
  | none => rfl
  | some s =>
    show (do return some (← check s)) = _
    cases h : check s with
    | error e => simp [nullable, h, bind, Except.bind]
    | ok s' => simp [nullable, h, bind, Except.bind, pure, Except.pure]

theorem run_markSweepQueued (sweepId : String) (note : Option String) (nowIso : String) :
    (markSweepQueued sweepId note nowIso).run (Statement.op pg) =
      Postgres.markSweepQueued pg sweepId note nowIso := by
  refine run_step fun row => ?_
  simp only [Assignments.apply, value_sendOr]
  cases nullable text note with
  | error e => rfl
  | ok note' =>
    cases hq : row.queuedAt with
    | some queuedAt => rfl
    | none =>
      show (Except.bind (nullable (Sent.value (timestamp pg)) (some (.new nowIso))) _) = _
      cases ht : timestamp pg nowIso with
      | error e => simp [nullable, Sent.value, ht, bind, Except.bind]
      | ok t => simp [nullable, Sent.value, ht, bind, Except.bind, pure, Except.pure]

theorem nullable_some {α β : Type} (check : α → Except LedgerError β) (a : α) :
    nullable check (some a) = (check a).map some := by
  cases h : check a with
  | error e => simp [nullable, h, bind, Except.bind, Except.map]
  | ok b => simp [nullable, h, bind, Except.bind, Except.map, pure, Except.pure]

theorem run_recordSweepAttempt (sweepId : String) (note : Option String) (nowIso : String) :
    (recordSweepAttempt sweepId note nowIso).run (Statement.op pg) =
      Postgres.recordSweepAttempt pg sweepId note nowIso := by
  refine run_step fun row => ?_
  simp only [Assignments.apply, value_sendOr, nullable_some]
  cases nullable text note with
  | error e => rfl
  | ok note' =>
    cases integer 32 (.finite ((row.attemptCount + 1 : ℤ) : ℚ)) with
    | error e => rfl
    | ok n =>
      cases timestamp pg nowIso with
      | error e => rfl
      | ok t => rfl

theorem run_markSweepBroadcasted (sweepId txHash : String) (note : Option String) (nowIso : String) :
    (markSweepBroadcasted sweepId txHash note nowIso).run (Statement.op pg) =
      Postgres.markSweepBroadcasted pg sweepId txHash note nowIso := by
  refine run_step fun row => ?_
  simp only [Assignments.apply, value_sendOr, nullable_some]
  cases varchar 128 txHash with
  | error e => rfl
  | ok hash =>
    cases nullable text note with
    | error e => rfl
    | ok note' =>
      cases timestamp pg nowIso with
      | error e => rfl
      | ok t => rfl

theorem run_failSweep (sweepId reason nowIso : String) :
    (failSweep sweepId reason nowIso).run (Statement.op pg) =
      Postgres.failSweep pg sweepId reason nowIso := by
  refine @run_step pg sweepId _ _ (fun _ => _) _ fun row => ?_
  simp only [Assignments.apply, Sent.value, nullable_some]
  cases text reason with
  | error e => rfl
  | ok note =>
    cases timestamp pg nowIso with
    | error e => rfl
    | ok t => rfl

theorem run_ensureLedgerAccounts (currencyCode nowIso : String) (postings : List LedgerPostingInput) :
    (ensureLedgerAccounts currencyCode nowIso postings).run (Statement.op pg) =
      Postgres.ensureLedgerAccounts pg currencyCode nowIso postings := by
  induction postings with
  | nil => rfl
  | cons posting postings ih =>
    rw [ensureLedgerAccounts, Postgres.ensureLedgerAccounts, run_bind, run_perform]
    exact congrArg _ (funext fun _ => ih)

theorem run_appendJournal (input : JournalInput) :
    (appendJournal input).run (Statement.op pg) = Postgres.appendJournal pg input := by
  rw [appendJournal, run_bind, run_perform]
  show insertDrawnJournal pg input >>= _ = _
  rw [insertDrawnJournal, Postgres.appendJournal, Method.bind_assoc]
  refine congrArg _ (funext fun journalId => ?_)
  rw [Method.bind_assoc]
  refine congrArg _ (funext fun _ => ?_)
  show (ensureLedgerAccounts input.currency input.nowIso input.postings >>= fun _ =>
    perform (.insertPostings journalId input.nowIso input.postings)).run (Statement.op pg) = _
  rw [run_bind, run_ensureLedgerAccounts, run_perform]
  rfl

theorem run_recordSweepFee (sweepId : String) (txHash : Option String) (networkFee : Option NetworkFee)
    (nowIso : String) : (recordSweepFee sweepId txHash networkFee nowIso).run (Statement.op pg) =
      Postgres.recordSweepFee pg sweepId txHash networkFee nowIso := by
  unfold recordSweepFee Postgres.recordSweepFee
  cases networkFee with
  | none => rfl
  | some fee =>
    cases truthy txHash with
    | none => rfl
    | some hash =>
      dsimp only
      rw [run_bind, run_perform]
      exact congrArg _ (funext fun _ => run_appendJournal _)

theorem run_confirmSweep (sweepId : String) (note : Option String) (networkFee : Option NetworkFee)
    (nowIso : String) : (confirmSweep sweepId note networkFee nowIso).run (Statement.op pg) =
      Postgres.confirmSweep pg sweepId note networkFee nowIso := by
  have hassoc : confirmSweep sweepId note networkFee nowIso =
      (existing sweepId (sources .confirmed) "sweep must be planned or broadcasted" >>= fun existing =>
        perform (.updateSweep sweepId
          { status := some .confirmed, note := sendOr note existing.note, confirmedAt := some nowIso })) >>=
        fun row => recordSweepFee sweepId row.txHash networkFee nowIso >>= fun _ => pure row := by
    rw [bind_assoc]
    rfl
  rw [hassoc, run_bind, Postgres.confirmSweep]
  have hstep : ∀ row : SweepRecordRow, Assignments.apply pg
      { status := some .confirmed, note := sendOr note row.note, confirmedAt := some nowIso } row = (do
        let note ← nullable text note
        let confirmedAt ← timestamp pg nowIso
        return { row with
          status := .confirmed, note := note <|> row.note, confirmedAt := some confirmedAt }) := by
    intro row
    simp only [Assignments.apply, value_sendOr, nullable_some]
    cases nullable text note with
    | error e => rfl
    | ok note' =>
      cases timestamp pg nowIso with
      | error e => rfl
      | ok t => rfl
  rw [run_step hstep]
  refine congrArg _ (funext fun row => ?_)
  rw [run_bind, run_recordSweepFee]
  rfl

end

end Sweeps
