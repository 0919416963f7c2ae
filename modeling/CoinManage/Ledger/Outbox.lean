import CoinManage.Ledger.Contracts

/-!
# Outbox events

Events wait in the outbox until a worker claims and publishes them.  The changes an operation
makes to one event are the same in both ledgers and are named here; which events they are made
to is up to each ledger.
-/

inductive OutboxStatus where
  | pending
  | processing
  | published
  | deadLettered
  deriving DecidableEq, Repr

inductive DeadLetterCategory where
  | externalDependency
  | validation
  | stateConflict
  | network
  | unknown
  deriving DecidableEq, Repr

inductive PayloadValue where
  | text (s : String)
  | flag (b : Bool)
  | number (n : JsNumber)
  deriving DecidableEq

/-- what the offline-pay operations announce: the fields in order -/
structure OfflinePayEventPayload where
  fields : List (String × PayloadValue)
  deriving DecidableEq

inductive OutboxPayload where
  | deposit (contract : DepositStateChangedContract)
  | withdrawal (contract : WithdrawalStateChangedContract)
  | offlinePay (payload : OfflinePayEventPayload)
  deriving DecidableEq

structure OutboxEvent where
  outboxEventId : String
  eventType : String
  aggregateType : String
  aggregateId : String
  payload : OutboxPayload
  status : OutboxStatus
  attempts : Nat
  availableAt : String
  createdAt : String
  processingStartedAt : Option String := none
  publishedAt : Option String := none
  deadLetteredAt : Option String := none
  deadLetterAcknowledgedAt : Option String := none
  deadLetterAcknowledgedBy : Option String := none
  deadLetterNote : Option String := none
  deadLetterCategory : Option DeadLetterCategory := none
  incidentRef : Option String := none
  lastError : Option String := none
  deriving DecidableEq

structure EnqueueInput where
  eventType : String
  aggregateType : String
  aggregateId : String
  payload : OutboxPayload
  occurredAt : String
  deriving DecidableEq

/-- the row `enqueueOutboxEvent` writes -/
def EnqueueInput.toEvent (input : EnqueueInput) (outboxEventId : String) : OutboxEvent where
  outboxEventId := outboxEventId
  eventType := input.eventType
  aggregateType := input.aggregateType
  aggregateId := input.aggregateId
  payload := input.payload
  status := .pending
  attempts := 0
  availableAt := input.occurredAt
  createdAt := input.occurredAt

structure AcknowledgeInput where
  outboxEventIds : Option (List String)
  limit : Option Nat
  actorId : String
  note : Option String
  category : Option DeadLetterCategory
  incidentRef : Option String
  nowIso : String
  deriving DecidableEq, Repr

structure ReplayInput where
  outboxEventIds : Option (List String)
  status : Option OutboxStatus
  limit : Option Nat
  nowIso : String
  deriving DecidableEq, Repr

namespace OutboxEvent

def claim (nowIso : String) (e : OutboxEvent) : OutboxEvent :=
  { e with status := .processing, attempts := e.attempts + 1, processingStartedAt := some nowIso }

def publish (nowIso : String) (e : OutboxEvent) : OutboxEvent :=
  { e with
    status := .published, processingStartedAt := none, publishedAt := some nowIso
    deadLetteredAt := none, lastError := none }

def deadLetter (error deadLetteredAt : String) (e : OutboxEvent) : OutboxEvent :=
  { e with
    status := .deadLettered, processingStartedAt := none, deadLetteredAt := some deadLetteredAt
    deadLetterAcknowledgedAt := none, deadLetterAcknowledgedBy := none, deadLetterNote := none
    deadLetterCategory := none, incidentRef := none, lastError := some error }

/-- back to waiting, as a worker's failure and the recovery of a stale claim leave the event -/
def waitAgain (availableAt lastError : String) (e : OutboxEvent) : OutboxEvent :=
  { e with
    status := .pending, availableAt := availableAt, processingStartedAt := none
    lastError := some lastError }

/-- `event.lastError ?? 'processing timeout recovered'` -/
def recover (nowIso : String) (e : OutboxEvent) : OutboxEvent :=
  e.waitAgain nowIso (orElse e.lastError "processing timeout recovered")

def replay (nowIso : String) (e : OutboxEvent) : OutboxEvent :=
  { e with
    status := .pending, availableAt := nowIso, processingStartedAt := none
    deadLetteredAt := none, deadLetterAcknowledgedAt := none, deadLetterAcknowledgedBy := none
    deadLetterNote := none, deadLetterCategory := none, incidentRef := none }

def acknowledge (input : AcknowledgeInput) (e : OutboxEvent) : OutboxEvent :=
  { e with
    deadLetterAcknowledgedAt := some input.nowIso
    deadLetterAcknowledgedBy := some input.actorId, deadLetterNote := input.note
    deadLetterCategory := input.category, incidentRef := input.incidentRef }

end OutboxEvent
