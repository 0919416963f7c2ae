import CoinManage.Postgres.Repository

/-!
# The outbox of the Postgres repository

The rows of `outbox_events` as the publisher and the operators change them.  A change of one event
is one `UPDATE` by its identifier and looks at nothing else of the row; claiming, recovering,
replaying and acknowledging first select rows, in a transaction.
-/

namespace Postgres

/-- the characters of `s.slice(0, n)`; a pair that is cut in two is sent as a replacement character -/
def sliceChars : Nat → List Char → List Char
  | 0, _ => []
  | _, [] => []
  | 1, c :: _ => if c.toNat < 0x10000 then [c] else [Char.ofNat 0xfffd]
  | n + 2, c :: cs => if c.toNat < 0x10000 then c :: sliceChars (n + 1) cs else c :: sliceChars n cs

/-- `error.slice(0, 1000)` -/
def sliceError (error : String) : String := String.ofList (sliceChars 1000 error.toList)

/-- `input.outboxEventIds?.length`: an empty list filters nothing -/
def filterIds : Option (List String) → Option (List String)
  | some [] => none
  | ids => ids

section
variable (pg : PgServer)

/-- `order by created_at` -/
def byCreatedAt (rows : List OutboxEvent) : List OutboxEvent :=
  rows.mergeSort fun left right => pg.timestampLe left.createdAt right.createdAt

/-- `update outbox_events set .. where outbox_event_id in ..` -/
def updateOutboxRows (ids : List String) (change : OutboxEvent → OutboxEvent) : Op Unit :=
  modify fun s =>
    { s with
      outboxEvents := s.outboxEvents.map fun row => if row.outboxEventId ∈ ids then change row else row }

def columns {α β : Type} (value : α → Except LedgerError β) : List α → Op (List β)
  | [] => return []
  | a :: rest => do
    let b ← column (value a)
    let bs ← columns value rest
    return b :: bs

/-- `where outbox_event_id in ..` of an optional list -/
def idsColumn (ids : Option (List String)) : Op (Option (List String)) := do
  match filterIds ids with
  | none => return none
  | some ids => do
    let ids ← columns (uuid pg) ids
    return some ids

/-- `input.limit ?? (input.outboxEventIds?.length ?? 100)` -/
def rowLimit (limit : Option Nat) (ids : Option (List String)) : Nat :=
  limit.getD ((ids.map fun l => l.length).getD 100)

def claimPendingOutboxEvents (limit : Nat) (nowIso : String) : Op (List OutboxEvent) :=
  withTransaction do
    let now ← column (timestamp pg nowIso)
    let pending := (← get).outboxEvents.filter fun row =>
      row.status = .pending ∧ pg.timestampLe row.availableAt now
    let rows := (byCreatedAt pg pending).take limit
    updateOutboxRows (rows.map (·.outboxEventId)) (OutboxEvent.claim now)
    return rows.map (OutboxEvent.claim now)

def markOutboxEventPublished (outboxEventId nowIso : String) : Op Unit := do
  let now ← column (timestamp pg nowIso)
  let id ← column (uuid pg outboxEventId)
  updateOutboxRows [id] (OutboxEvent.publish now)

def rescheduleOutboxEvent (outboxEventId error availableAt : String) : Op Unit := do
  let availableAt ← column (timestamp pg availableAt)
  let lastError ← column (text (sliceError error))
  let id ← column (uuid pg outboxEventId)
  updateOutboxRows [id] fun row => { row.waitAgain availableAt lastError with deadLetteredAt := none }

def deadLetterOutboxEvent (outboxEventId error deadLetteredAt : String) : Op Unit := do
  let deadLetteredAt ← column (timestamp pg deadLetteredAt)
  let lastError ← column (text (sliceError error))
  let id ← column (uuid pg outboxEventId)
  updateOutboxRows [id] (OutboxEvent.deadLetter lastError deadLetteredAt)

def replayOutboxEvents (input : ReplayInput) : Op Nat :=
  withTransaction do
    let ids ← idsColumn pg input.outboxEventIds
    let matching := (← get).outboxEvents.filter fun row =>
      (∀ status ∈ input.status, row.status = status) ∧ (∀ wanted ∈ ids, row.outboxEventId ∈ wanted)
    let rows := (byCreatedAt pg matching).take (rowLimit input.limit input.outboxEventIds)
    if rows = [] then return 0
    else
      let now ← column (timestamp pg input.nowIso)
      updateOutboxRows (rows.map (·.outboxEventId)) (OutboxEvent.replay now)
      return rows.length

/-- the input of an acknowledgement with its values as the columns take them -/
def acknowledgeRow (input : AcknowledgeInput) : Except LedgerError AcknowledgeInput := do
  let nowIso ← timestamp pg input.nowIso
  let actorId ← varchar 64 input.actorId
  let note ← nullable text input.note
  let incidentRef ← nullable (varchar 128) input.incidentRef
  return { input with nowIso := nowIso, actorId := actorId, note := note, incidentRef := incidentRef }

def acknowledgeDeadLetterOutboxEvents (input : AcknowledgeInput) : Op Nat :=
  withTransaction do
    let ids ← idsColumn pg input.outboxEventIds
    let matching := (← get).outboxEvents.filter fun row =>
      row.status = .deadLettered ∧ row.deadLetterAcknowledgedAt = none ∧
        (∀ wanted ∈ ids, row.outboxEventId ∈ wanted)
    let rows := (byCreatedAt pg matching).take (rowLimit input.limit input.outboxEventIds)
    if rows = [] then return 0
    else
      let values ← column (acknowledgeRow pg input)
      updateOutboxRows (rows.map (·.outboxEventId)) (OutboxEvent.acknowledge values)
      return rows.length

/-- the claims from before `threshold`, the instant `timeoutSec` seconds before `nowIso` -/
def recoverStaleProcessingOutboxEvents (threshold nowIso : String) : Op Nat :=
  withTransaction do
    let threshold ← column (timestamp pg threshold)
    let rows := (← get).outboxEvents.filter fun row =>
      row.status = .processing ∧ ∃ startedAt ∈ row.processingStartedAt, pg.timestampLe startedAt threshold
    if rows = [] then return 0
    else
      let now ← column (timestamp pg nowIso)
      updateOutboxRows (rows.map (·.outboxEventId)) (OutboxEvent.recover now)
      return rows.length

end

end Postgres
