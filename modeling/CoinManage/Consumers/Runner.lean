import CoinManage.Json.Value
import CoinManage.Lib.Interleaving
import CoinManage.Lib.OrderedMap
import CoinManage.Lib.Utf16

/-!
# The event consumer runner

`EventConsumerRunner.run` handles an event once for its consumer: the event's key is looked up among
the checkpoints, and if it has not succeeded yet the handler is tried up to `maxAttempts` times.
The bookkeeping of a success stands inside the `try`, so where it fails the handler runs again.

Any number of runs go on side by side over one store, a call at a time; a call may be refused, and
its answer may be lost.
-/

namespace Consumers
open Program

/-! ## the key of an event -/

/-- the payload of an event: an object that came from JSON or can go there -/
structure Payload where
  fields : List (String × Json)
  valid : Json.Valid (.object fields)

namespace Payload

def json (payload : Payload) : Json := .object payload.fields

/-- the payload up to the order of keys, at every level -/
def value (payload : Payload) : Json.Value := payload.json.value

/-- `Object.keys(payload)` -/
def keys (payload : Payload) : List String := Fields.names payload.fields

end Payload

section
variable (sha256 : List Char → String)

/-- `JSON.stringify(payload, Object.keys(payload).sort())` -/
def stable (payload : Payload) : List Char :=
  (payload.json.pick (payload.keys.mergeSort Utf16.le)).text

def buildEventKey (eventType : String) (payload : Payload) : String :=
  sha256 (eventType.toList ++ ':' :: stable payload)

end

/-! ## a run -/

/-- what `run` is called with -/
structure Input where
  consumerName : String
  eventType : String
  payload : Payload
  aggregateId : Option String
  maxAttempts : Nat
  retryBaseDelayMs : Nat
  retryMaxDelayMs : Nat

inductive AttemptStatus where
  | succeeded
  | failed
  deriving DecidableEq, Repr

inductive CheckpointStatus where
  | succeeded
  | deadLettered
  deriving DecidableEq, Repr

/-- The calls of a run: the repository's, the two functions `run` is given, and `sleep`.  The
durations that are recorded are left out. -/
inductive Effect : Type → Type
  | hasSucceeded (consumerName eventKey : String) : Effect Bool
  | handle (input : Input) : Effect Unit
  | appendAttempt (input : Input) (eventKey : String) (status : AttemptStatus) (attemptNumber : Nat)
      (errorMessage : Option String) : Effect Unit
  | appendDeadLetter (input : Input) (eventKey errorMessage : String) : Effect Unit
  | upsertCheckpoint (consumerName eventKey : String) (lastStatus : CheckpointStatus) : Effect Unit
  | onDeadLetter (input : Input) : Effect Unit
  | sleep (delayMs : Nat) : Effect Unit

abbrev Async (α : Type) := Program Effect LedgerError α

/-- the hash of a text in hexadecimal digits, and the first thousand characters of an error's text -/
structure Options where
  sha256 : List Char → String
  message : LedgerError → String

section
variable (opts : Options)

def retryDelayMs (input : Input) (attemptNumber : Nat) : Nat :=
  min input.retryMaxDelayMs (input.retryBaseDelayMs * 2 ^ (attemptNumber - 1))

/-- the body of the loop's `try` -/
def attempt (input : Input) (eventKey : String) (attemptNumber : Nat) : Async Unit := do
  perform (.handle input)
  perform (.appendAttempt input eventKey .succeeded attemptNumber none)
  perform (.upsertCheckpoint input.consumerName eventKey .succeeded)

/-- the last attempt has failed -/
def giveUp (input : Input) (eventKey message : String) : Async Unit := do
  perform (.appendDeadLetter input eventKey message)
  perform (.upsertCheckpoint input.consumerName eventKey .deadLettered)
  perform (.onDeadLetter input)

def pause (delayMs : Nat) : Async Unit :=
  if 0 < delayMs then perform (.sleep delayMs) else pure ()

/-- the loop, with the number of turns that are left -/
def attempts (input : Input) (eventKey : String) : (left attemptNumber : Nat) → Async Unit
  | 0, _ => pure ()
  | left + 1, attemptNumber =>
    tryCatch (attempt input eventKey attemptNumber)
      (fun error => do
        perform (.appendAttempt input eventKey .failed attemptNumber (some (opts.message error)))
        if input.maxAttempts ≤ attemptNumber then
          giveUp input eventKey (opts.message error)
        else do
          pause (retryDelayMs input attemptNumber)
          attempts input eventKey left (attemptNumber + 1))

def run (input : Input) : Async Unit := do
  let eventKey := buildEventKey opts.sha256 input.eventType input.payload
  if ← perform (.hasSucceeded input.consumerName eventKey) then return
  attempts opts input eventKey input.maxAttempts 1

end

/-! ## the world -/

/-- The checkpoints, by consumer and key, and the events whose handler has returned. -/
structure World where
  checkpoints : OrderedMap (String × String) CheckpointStatus
  handled : List Input

def World.empty : World := ⟨.empty, []⟩

/-- `hasSucceededEventConsumerCheckpoint` -/
def World.hasSucceeded (w : World) (consumerName eventKey : String) : Bool :=
  decide (w.checkpoints.get? (consumerName, eventKey) = some .succeeded)

/-- the world as a call that was carried out leaves it -/
def World.after {β : Type} (w : World) : Effect β → World
  | .handle input => { w with handled := w.handled ++ [input] }
  | .upsertCheckpoint consumerName eventKey lastStatus =>
    { w with checkpoints := w.checkpoints.set (consumerName, eventKey) lastStatus }
  | _ => w

/-- what a call that was carried out answers -/
def World.answer (w : World) : {β : Type} → Effect β → β
  | _, .hasSucceeded consumerName eventKey => w.hasSucceeded consumerName eventKey
  | _, .handle _ => ()
  | _, .appendAttempt .. => ()
  | _, .appendDeadLetter .. => ()
  | _, .upsertCheckpoint .. => ()
  | _, .onDeadLetter _ => ()
  | _, .sleep _ => ()

/-- What may come of a call: it is carried out; a write may be carried out and its answer be lost;
it may fail with nothing done. -/
inductive Handles (_ : Nat) : ∀ {β : Type}, Effect β → World → Except LedgerError β → World → Prop
  | done {β : Type} (call : Effect β) (w : World) : Handles _ call w (.ok (w.answer call)) (w.after call)
  | unanswered (consumerName eventKey : String) (lastStatus : CheckpointStatus) (e : LedgerError)
      (w : World) : Handles _ (.upsertCheckpoint consumerName eventKey lastStatus) w (.error e)
        (w.after (.upsertCheckpoint consumerName eventKey lastStatus))
  | refused {β : Type} (call : Effect β) (e : LedgerError) (w : World) : Handles _ call w (.error e) w

/-- what is started: runs for the events of the type their consumer subscribes to -/
inductive IsProgram (opts : Options) (eventTypeOf : String → String) : Async Unit → Prop
  | run (input : Input) (subscribed : input.eventType = eventTypeOf input.consumerName) :
      IsProgram opts eventTypeOf (run opts input)

/-- nothing else writes to the checkpoints -/
def Elsewhere (w w' : World) : Prop := w' = w

end Consumers
