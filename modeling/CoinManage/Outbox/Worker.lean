import CoinManage.InMemory.Ledger
import CoinManage.Lib.Interleaving
import CoinManage.Postgres.Outbox

/-!
# The outbox publisher

`OutboxPublisherWorker.runCycle` recovers stale claims, claims what is due, and publishes one
event after the other; an event it could not publish, or whose publication it could not record, is
put back with a delay or dead-lettered.  A claim carries no owner: the report on an event names
only the event.

The worker runs over either ledger repository (`Backend`); any number of workers, replays and
acknowledgements run side by side, a call at a time.
-/

namespace Outbox

/-- the outbox operations of a ledger repository with the store `S` -/
structure Repository (S : Type) where
  events : S → List OutboxEvent
  enqueue : EnqueueInput → Method S LedgerError Unit
  recoverStale : (threshold nowIso : String) → Method S LedgerError Nat
  claimPending : (limit : Nat) → (nowIso : String) → Method S LedgerError (List OutboxEvent)
  markPublished : (outboxEventId nowIso : String) → Method S LedgerError Unit
  reschedule : (outboxEventId error availableAt : String) → Method S LedgerError Unit
  deadLetter : (outboxEventId error deadLetteredAt : String) → Method S LedgerError Unit
  replay : ReplayInput → Method S LedgerError Nat
  acknowledge : AcknowledgeInput → Method S LedgerError Nat

inductive Backend where
  | inMemory
  | postgres
  deriving DecidableEq, Repr

@[reducible] def Backend.Store : Backend → Type
  | .inMemory => InMemoryLedger
  | .postgres => Postgres.Db

def Backend.repository (pg : PgServer) : (b : Backend) → Repository b.Store
  | .inMemory =>
    { events := fun s => s.outboxEvents.values
      enqueue := InMemoryLedger.enqueueOutboxEvent pg.toRuntime
      recoverStale := InMemoryLedger.recoverStaleProcessingOutboxEvents
      claimPending := InMemoryLedger.claimPendingOutboxEvents pg.toRuntime
      markPublished := InMemoryLedger.markOutboxEventPublished
      reschedule := InMemoryLedger.rescheduleOutboxEvent
      deadLetter := InMemoryLedger.deadLetterOutboxEvent
      replay := InMemoryLedger.replayOutboxEvents pg.toRuntime
      acknowledge := InMemoryLedger.acknowledgeDeadLetterOutboxEvents pg.toRuntime }
  | .postgres =>
    { events := fun s => s.outboxEvents
      enqueue := Postgres.enqueueOutboxEvent pg
      recoverStale := Postgres.recoverStaleProcessingOutboxEvents pg
      claimPending := Postgres.claimPendingOutboxEvents pg
      markPublished := Postgres.markOutboxEventPublished pg
      reschedule := Postgres.rescheduleOutboxEvent pg
      deadLetter := Postgres.deadLetterOutboxEvent pg
      replay := Postgres.replayOutboxEvents pg
      acknowledge := Postgres.acknowledgeDeadLetterOutboxEvents pg }

/-! ## the worker -/

/-- The calls of the worker and of the operators.  Where a method is called without `nowIso` it
reads the clock itself, so the clock is left to the call. -/
inductive Effect : Type → Type
  | enqueue (input : EnqueueInput) : Effect Unit
  | recoverStale (timeoutSec : Nat) : Effect Nat
  | claimPending (limit : Nat) : Effect (List OutboxEvent)
  | publish (eventType : String) (payload : OutboxPayload) : Effect Unit
  | markPublished (outboxEventId : String) : Effect Unit
  /-- `new Date(Date.now() + retryDelayMs).toISOString()` -/
  | availableAfter (retryDelayMs : Nat) : Effect String
  | reschedule (outboxEventId error availableAt : String) : Effect Unit
  | deadLetter (outboxEventId error : String) : Effect Unit
  | replay (input : ReplayInput) : Effect Nat
  | acknowledge (input : AcknowledgeInput) : Effect Nat

abbrev Async (α : Type) := Program Effect LedgerError α

/-- the worker's options, the configured timeout, and the text of an error -/
structure Options where
  batchSize : Nat
  retryBaseDelayMs : Nat
  retryMaxDelayMs : Nat
  maxAttempts : Nat
  processingStaleTimeoutSec : Nat
  message : LedgerError → String

section
variable (opts : Options)
open Program

def retryDelayMs (attempts : Nat) : Nat :=
  min opts.retryMaxDelayMs (opts.retryBaseDelayMs * 2 ^ (attempts - 1))

/-- one turn of the loop -/
def publishEvent (event : OutboxEvent) : Async Unit :=
  tryCatch
    (do
      perform (.publish event.eventType event.payload)
      perform (.markPublished event.outboxEventId))
    (fun error =>
      if opts.maxAttempts ≤ event.attempts then
        perform (.deadLetter event.outboxEventId (opts.message error))
      else do
        let nextAvailableAt ← perform (.availableAfter (retryDelayMs opts event.attempts))
        perform (.reschedule event.outboxEventId (opts.message error) nextAvailableAt))

def publishEach : List OutboxEvent → Async Unit
  | [] => pure ()
  | event :: events => do
    publishEvent opts event
    publishEach events

def runCycle : Async Unit :=
  tryCatch
    (do
      let _ ← perform (.recoverStale opts.processingStaleTimeoutSec)
      let events ← perform (.claimPending opts.batchSize)
      publishEach opts events)
    (fun _ => pure ())

/-- a program that only makes one call -/
def once {α : Type} (call : Effect α) : Async Unit := do
  let _ ← perform call
  return ()

/-- what is started: cycles of workers, replays, acknowledgements, and the operations that announce
events -/
inductive IsProgram : Async Unit → Prop
  | runCycle : IsProgram (runCycle opts)
  | replay (input : ReplayInput) : IsProgram (once (.replay input))
  | acknowledge (input : AcknowledgeInput) : IsProgram (once (.acknowledge input))
  | enqueue (input : EnqueueInput) : IsProgram (once (.enqueue input))

end

/-! ## the world -/

/-- The store, and the events whose publication has been recorded and that no replay has taken
since. -/
structure World (b : Backend) where
  store : b.Store
  recorded : List String

section
variable (pg : PgServer) {b : Backend}

/-- what the process's clock says where a call is made -/
structure Clock where
  nowIso : String
  threshold : String

/-- the repository's method behind a call -/
def Effect.method (R : Repository b.Store) (clock : Clock) :
    {β : Type} → Effect β → Option (Method b.Store LedgerError β)
  | _, .enqueue input => some (R.enqueue input)
  | _, .recoverStale _ => some (R.recoverStale clock.threshold clock.nowIso)
  | _, .claimPending limit => some (R.claimPending limit clock.nowIso)
  | _, .markPublished outboxEventId => some (R.markPublished outboxEventId clock.nowIso)
  | _, .reschedule outboxEventId error availableAt => some (R.reschedule outboxEventId error availableAt)
  | _, .deadLetter outboxEventId error => some (R.deadLetter outboxEventId error clock.nowIso)
  | _, .replay input => some (R.replay input)
  | _, .acknowledge input => some (R.acknowledge input)
  | _, .publish _ _ => none
  | _, .availableAfter _ => none

def Effect.isReplay {β : Type} : Effect β → Bool
  | .replay _ => true
  | _ => false

/-- the identifiers of the events that are published -/
def publishedIds (R : Repository b.Store) (s : b.Store) : List String :=
  ((R.events s).filter fun e => e.status = .published).map (·.outboxEventId)

/-- the world as a call leaves it -/
def World.after {β : Type} (R : Repository b.Store) (w : World b) (call : Effect β) (s : b.Store) :
    World b where
  store := s
  recorded :=
    (if call.isReplay then w.recorded.filter fun id => id ∈ publishedIds R s else w.recorded) ++
      publishedIds R s

/-- What may come of a call: a method of the repository is run; its answer may be lost; any call may
fail with nothing done; the publisher and the clock answer anything. -/
inductive Handles (b : Backend) (i : Nat) : ∀ {β : Type}, Effect β → World b → Except LedgerError β →
    World b → Prop
  | done {β : Type} {call : Effect β} {clock : Clock} {m : Method b.Store LedgerError β}
      (method : call.method (b.repository pg) clock = some m) (w : World b) :
      Handles b i call w (m w.store).1 (w.after (b.repository pg) call (m w.store).2)
  | unanswered {β : Type} {call : Effect β} {clock : Clock} {m : Method b.Store LedgerError β}
      (method : call.method (b.repository pg) clock = some m) (e : LedgerError) (w : World b) :
      Handles b i call w (.error e) (w.after (b.repository pg) call (m w.store).2)
  | outside {β : Type} {call : Effect β} (out : ∀ clock, call.method (b.repository pg) clock = none)
      (r : Except LedgerError β) (w : World b) : Handles b i call w r w
  | refused {β : Type} {call : Effect β} (e : LedgerError) (w : World b) :
      Handles b i call w (.error e) w

/-- the other operations of the ledger: the outbox stays, identifiers may be drawn -/
def Elsewhere : (b : Backend) → World b → World b → Prop
  | .inMemory, w, w' => w'.recorded = w.recorded ∧ w'.store.outboxEvents = w.store.outboxEvents ∧
      w.store.uuidsDrawn ≤ w'.store.uuidsDrawn
  | .postgres, w, w' => w'.recorded = w.recorded ∧ w'.store.outboxEvents = w.store.outboxEvents

/-- the world a run starts in -/
def World.initial (s : b.Store) : World b := ⟨s, publishedIds (b.repository pg) s⟩

end

end Outbox
