import CoinManage.Withdraw.Service

/-!
# Payouts under interleaving

Any number of executions of the service's jobs run side by side over one ledger and one chain, a
call at a time, in any order; a call may fail before or after its effect, an execution may stop at
any point, and the rest of the program may call the ledger in between.  The trace records what was
read, what was written and every transfer that was signed and sent.

`broadcast` sends what it read without looking at the status, and nothing claims the withdrawal
before the transfer leaves; so the run decides whether a payout is approved and single:

* `Disciplined`    a job only ever sends what it has itself read from the ledger;
* `payouts_safe`   if every transfer is sent after a read of an approved withdrawal that has not
                   been written since, and after every earlier transfer for it was recorded, then
                   payouts are approved and single in every state reached;
* `unapproved_payout`   a run that pays a withdrawal nobody has approved.
-/

namespace WithdrawService

open Program Interleaving

/-! ## the world -/

inductive Event where
  /-- an execution read the withdrawal -/
  | read (execution : Nat) (withdrawalId : String) (withdrawal : Withdrawal)
  /-- a call changed the withdrawal, to this status -/
  | written (withdrawalId : String) (status : WithdrawalStatus)
  /-- a transfer left, when the ledger had this record of the withdrawal -/
  | sent (execution : Nat) (withdrawalId toAddress : String) (amount : ℤ)
      (record : Option Withdrawal)

/-- the ledger and what has happened, latest first -/
structure World where
  ledger : InMemoryLedger
  trace : List Event

/-- the write a ledger call makes to its withdrawal -/
def writtenEvents (c : InMemoryLedger.Call) (s s' : InMemoryLedger) : List Event :=
  match c.target with
  | none => []
  | some id =>
    match s'.withdrawals.get? id with
    | none => []
    | some w => if s.withdrawals.get? id = some w then [] else [.written id w.status]

namespace World
variable (rt : Runtime)

def log (W : World) (e : Event) : World := { W with trace := e :: W.trace }

def called (W : World) (c : InMemoryLedger.Call) : World where
  ledger := c.step rt W.ledger
  trace := writtenEvents c W.ledger (c.step rt W.ledger) ++ W.trace

end World

/-- the ledger call behind a write -/
def Effect.toCall {β : Type} : Effect β → Option InMemoryLedger.Call
  | .approveWithdrawal id input nowIso => some (.approveWithdrawal id input nowIso)
  | .broadcastWithdrawal id txHash nowIso => some (.broadcastWithdrawal id txHash nowIso)
  | .confirmWithdrawal id networkFee nowIso => some (.confirmWithdrawal id networkFee nowIso)
  | .failWithdrawal id reason nowIso => some (.failWithdrawal id reason nowIso)
  | _ => none

/-- calls that neither read nor write the ledger's withdrawals one by one nor send a transfer -/
def Effect.isOutside {β : Type} : Effect β → Bool
  | .getWithdrawal _ | .listWithdrawalsByStatuses _ | .approveWithdrawal .. | .broadcastWithdrawal ..
  | .confirmWithdrawal .. | .failWithdrawal .. | .broadcastTransfer .. => false
  | _ => true

namespace World

/-- the store as execution `i` leaves it after looking the withdrawal up -/
def lookedUp (W : World) (i : Nat) (id : String) : World :=
  match W.ledger.withdrawals.get? id with
  | none => W
  | some w => W.log (.read i id w)

/-- the transfer has left -/
def paid (W : World) (i : Nat) (id toAddress : String) (amount : ℤ) : World :=
  W.log (.sent i id toAddress amount (W.ledger.withdrawals.get? id))

end World

/-- What may come of a call.  A write runs the ledger's method; a transfer leaves; a call outside
answers anything.  Any call may fail with nothing done, and a write or a transfer may also be done
and its answer lost. -/
inductive Handles (rt : Runtime) (i : Nat) :
    ∀ {β : Type}, Effect β → World → Except LedgerError β → World → Prop
  | lookedUp (id : String) (W : World) : Handles rt i (.getWithdrawal id) W
      (.ok (InMemoryLedger.getWithdrawal W.ledger id)) (W.lookedUp i id)
  | listed (statuses : List WithdrawalStatus) (W : World) :
      Handles rt i (.listWithdrawalsByStatuses statuses) W
        (.ok (InMemoryLedger.listWithdrawalsByStatuses W.ledger statuses)) W
  | approved (id : String) (input : ApprovalInput) (nowIso : String) (W : World) :
      Handles rt i (.approveWithdrawal id input nowIso) W
        (InMemoryLedger.approveWithdrawal rt id input nowIso W.ledger).1
        (W.called rt (.approveWithdrawal id input nowIso))
  | broadcasted (id txHash nowIso : String) (W : World) :
      Handles rt i (.broadcastWithdrawal id txHash nowIso) W
        (InMemoryLedger.broadcastWithdrawal rt id txHash nowIso W.ledger).1
        (W.called rt (.broadcastWithdrawal id txHash nowIso))
  | confirmed (id : String) (networkFee : Option NetworkFee) (nowIso : String) (W : World) :
      Handles rt i (.confirmWithdrawal id networkFee nowIso) W
        (InMemoryLedger.confirmWithdrawal rt id networkFee nowIso W.ledger).1
        (W.called rt (.confirmWithdrawal id networkFee nowIso))
  | failed (id reason nowIso : String) (W : World) :
      Handles rt i (.failWithdrawal id reason nowIso) W
        (InMemoryLedger.failWithdrawal rt id reason nowIso W.ledger).1
        (W.called rt (.failWithdrawal id reason nowIso))
  | sent (id toAddress : String) (amount : ℤ) (txHash : String) (W : World) :
      Handles rt i (.broadcastTransfer id toAddress amount) W (.ok txHash)
        (W.paid i id toAddress amount)
  | sentUnanswered (id toAddress : String) (amount : ℤ) (e : LedgerError) (W : World) :
      Handles rt i (.broadcastTransfer id toAddress amount) W (.error e)
        (W.paid i id toAddress amount)
  | wroteUnanswered {β : Type} {call : Effect β} {c : InMemoryLedger.Call}
      (write : call.toCall = some c) (e : LedgerError) (W : World) :
      Handles rt i call W (.error e) (W.called rt c)
  | outside {β : Type} {call : Effect β} (out : call.isOutside = true) (r : Except LedgerError β)
      (W : World) : Handles rt i call W r W
  | refused {β : Type} {call : Effect β} (e : LedgerError) (W : World) :
      Handles rt i call W (.error e) W

/-- the rest of the program calls the ledger -/
def Moves (rt : Runtime) (W W' : World) : Prop := ∃ c, W' = W.called rt c

/-- the programs that are started: the service's jobs -/
def IsJob (rt : Runtime) (opts : Options) (p : Async Unit) : Prop :=
  ∃ job : Job, p = job.program rt opts

abbrev ServiceState := System Effect LedgerError World

/-! ## what the trace says -/

/-- what an execution last read, and whether that record has been written since -/
structure Reading where
  withdrawalId : String
  withdrawal : Withdrawal
  untouched : Bool

def Reading.known (r : Reading) : String × Withdrawal := (r.withdrawalId, r.withdrawal)

/-- the reading after a write -/
def Reading.afterWrite (id : String) (r : Reading) : Reading :=
  { r with untouched := r.untouched && r.withdrawalId ≠ id }

def lastRead (i : Nat) : List Event → Option Reading
  | [] => none
  | .read j id w :: t => if j = i then some ⟨id, w, true⟩ else lastRead i t
  | .written id _ :: t => (lastRead i t).map (Reading.afterWrite id)
  | .sent .. :: t => lastRead i t

/-- a transfer for the withdrawal left that the ledger has not recorded since -/
def Unrecorded (id : String) : List Event → Prop
  | [] => False
  | .read .. :: t => Unrecorded id t
  | .written id' status :: t => ¬ (id' = id ∧ status = .txBroadcasted) ∧ Unrecorded id t
  | .sent _ id' _ _ _ :: t => id' = id ∨ Unrecorded id t

def Event.isPayoutOf (id : String) : Event → Bool
  | .sent _ id' _ _ _ => id' = id
  | _ => false

/-- Every transfer left while the ledger had the withdrawal approved, to its address and of its
amount, and no withdrawal was paid twice. -/
structure PayoutsSafe (trace : List Event) : Prop where
  approved : ∀ i id toAddress amount record, .sent i id toAddress amount record ∈ trace →
    ∃ w, record = some w ∧ w.status = .adminApproved ∧ toAddress = w.toAddress ∧ amount = w.amount
  single : ∀ id, (trace.filter (Event.isPayoutOf id)).length ≤ 1

/-- A transfer is sent only when what the execution last read was approved and has not been written
since, and every earlier transfer for the withdrawal has been recorded. -/
def SendChecked (i : Nat) {β : Type} (call : Effect β) (W : World) : Prop :=
  match call with
  | .broadcastTransfer id _ _ =>
    (∀ r, lastRead i W.trace = some r →
      r.withdrawal.status = .adminApproved ∧ r.untouched = true) ∧
    ¬ Unrecorded id W.trace
  | _ => True

/-! ## jobs send what they have read -/

/-- `known` being what the execution has last read, it only ever sends a withdrawal that it then
knows, to that withdrawal's address and of its amount -/
def Disciplined {α : Type} : Async α → Option (String × Withdrawal) → Prop
  | .returns _, _ => True
  | .throws _, _ => True
  | .calls (.getWithdrawal id) next, known =>
    (∀ w, Disciplined (next (.ok (some w))) (some (id, w))) ∧
    Disciplined (next (.ok none)) known ∧ ∀ e, Disciplined (next (.error e)) known
  | .calls (.broadcastTransfer id toAddress amount) next, known =>
    (∃ w, known = some (id, w) ∧ toAddress = w.toAddress ∧ amount = w.amount) ∧
    ∀ r, Disciplined (next r) known
  | .calls _ next, known => ∀ r, Disciplined (next r) known

/-- calls that are neither a lookup nor a transfer -/
def Effect.isPlain {β : Type} : Effect β → Bool
  | .getWithdrawal _ | .broadcastTransfer .. => false
  | _ => true

/-- a program that neither looks a withdrawal up nor sends one -/
def Quiet {α : Type} : Async α → Prop
  | .returns _ => True
  | .throws _ => True
  | .calls call next => call.isPlain = true ∧ ∀ r, Quiet (next r)

section
variable {α β : Type} {known : Option (String × Withdrawal)}

theorem Disciplined.of_plain {call : Effect β} {next : Except LedgerError β → Async α}
    (h : call.isPlain = true) (hnext : ∀ r, Disciplined (next r) known) :
    Disciplined (.calls call next) known := by
  cases call <;> first | exact hnext | cases h

theorem Disciplined.plain {call : Effect β} {next : Except LedgerError β → Async α}
    (h : call.isPlain = true) (hd : Disciplined (.calls call next) known) (r : Except LedgerError β) :
    Disciplined (next r) known := by
  cases call <;> first | exact hd r | cases h

theorem Disciplined.error {call : Effect β} {next : Except LedgerError β → Async α}
    (hd : Disciplined (.calls call next) known) (e : LedgerError) :
    Disciplined (next (.error e)) known := by
  cases call <;> first | exact hd (.error e) | exact hd.2.2 e | exact hd.2 (.error e)

theorem Disciplined.found {id : String}
    {next : Except LedgerError (Option Withdrawal) → Async α}
    (hd : Disciplined (.calls (.getWithdrawal id) next) known) (w : Withdrawal) :
    Disciplined (next (.ok (some w))) (some (id, w)) := hd.1 w

theorem Disciplined.missing {id : String}
    {next : Except LedgerError (Option Withdrawal) → Async α}
    (hd : Disciplined (.calls (.getWithdrawal id) next) known) :
    Disciplined (next (.ok none)) known := hd.2.1

theorem Disciplined.knows {id toAddress : String} {amount : ℤ}
    {next : Except LedgerError String → Async α}
    (hd : Disciplined (.calls (.broadcastTransfer id toAddress amount) next) known) :
    ∃ w, known = some (id, w) ∧ toAddress = w.toAddress ∧ amount = w.amount := hd.1

theorem Disciplined.sent {id toAddress : String} {amount : ℤ}
    {next : Except LedgerError String → Async α}
    (hd : Disciplined (.calls (.broadcastTransfer id toAddress amount) next) known)
    (r : Except LedgerError String) : Disciplined (next r) known := hd.2 r

theorem Quiet.disciplined {p : Async α} (h : Quiet p) (known : Option (String × Withdrawal)) :
    Disciplined p known := by
  induction p with
  | returns a => exact trivial
  | throws e => exact trivial
  | calls call next ih => exact Disciplined.of_plain h.1 fun r => ih r (h.2 r)

theorem Quiet.pure (a : α) : Quiet (pure a : Async α) := trivial

theorem Quiet.throw (e : LedgerError) : Quiet (throw e : Async α) := trivial

theorem Quiet.perform {call : Effect β} (h : call.isPlain = true) : Quiet (perform call) :=
  ⟨h, fun r => by cases r <;> exact trivial⟩

theorem Quiet.bind {p : Async α} {f : α → Async β} (hp : Quiet p) (hf : ∀ a, Quiet (f a)) :
    Quiet (p >>= f) := by
  induction p with
  | returns a => exact hf a
  | throws e => exact trivial
  | calls call next ih => exact ⟨hp.1, fun r => ih r (hp.2 r)⟩

theorem Quiet.perform_bind {call : Effect β} {f : β → Async α} (h : call.isPlain = true)
    (hf : ∀ b, Quiet (f b)) : Quiet (Program.perform call >>= f) :=
  (Quiet.perform h).bind hf

theorem Disciplined.pure (a : α) : Disciplined (pure a : Async α) known := trivial

theorem Disciplined.throw (e : LedgerError) : Disciplined (throw e : Async α) known := trivial

/-- a quiet stretch of code keeps what the execution knows -/
theorem Disciplined.quiet_bind {p : Async α} {f : α → Async β} (hp : Quiet p)
    (hf : ∀ a, Disciplined (f a) known) : Disciplined (p >>= f) known := by
  induction p with
  | returns a => exact hf a
  | throws e => exact trivial
  | calls call next ih => exact Disciplined.of_plain hp.1 fun r => ih r (hp.2 r)

/-- what follows must be disciplined whatever has been read -/
theorem Disciplined.bind {p : Async α} {f : α → Async β} (hp : Disciplined p known)
    (hf : ∀ a known, Disciplined (f a) known) : Disciplined (p >>= f) known := by
  induction p generalizing known with
  | returns a => exact hf a known
  | throws e => exact trivial
  | calls call next ih =>
    cases call <;> first
      | exact fun r => ih r (hp r)
      | exact ⟨hp.1, fun r => ih r (hp.2 r)⟩
      | exact ⟨fun w => ih _ (hp.1 w), ih _ hp.2.1, fun e => ih _ (hp.2.2 e)⟩

theorem Disciplined.tryCatch {p : Async α} {handler : LedgerError → Async α}
    (hp : Disciplined p known) (hh : ∀ e known, Disciplined (handler e) known) :
    Disciplined (tryCatch p handler) known := by
  induction p generalizing known with
  | returns a => exact trivial
  | throws e => exact hh e known
  | calls call next ih =>
    cases call <;> first
      | exact fun r => ih r (hp r)
      | exact ⟨hp.1, fun r => ih r (hp.2 r)⟩
      | exact ⟨fun w => ih _ (hp.1 w), ih _ hp.2.1, fun e => ih _ (hp.2.2 e)⟩

/-- a lookup, and then code that knows the record -/
theorem Disciplined.lookup {id : String} {f : Option Withdrawal → Async α}
    (hsome : ∀ w, Disciplined (f (some w)) (some (id, w))) (hnone : Disciplined (f none) known) :
    Disciplined (perform (.getWithdrawal id) >>= f) known :=
  ⟨hsome, hnone, fun _ => trivial⟩

/-- the transfer of a known record -/
theorem Disciplined.send {id : String} {w : Withdrawal} {f : String → Async α}
    (hf : ∀ txHash, Disciplined (f txHash) (some (id, w))) :
    Disciplined (perform (.broadcastTransfer id w.toAddress w.amount) >>= f) (some (id, w)) :=
  ⟨⟨w, rfl, rfl, rfl⟩, fun r => by
    cases r with
    | ok txHash => exact hf txHash
    | error e => exact trivial⟩

end

attribute [irreducible] Quiet Disciplined

/-! ## the jobs -/

section
variable (rt : Runtime) (opts : Options)

theorem quiet_getHotWalletReadiness : Quiet (getHotWalletReadiness opts) := by
  unfold getHotWalletReadiness
  split
  · exact Quiet.pure _
  · split
    · exact Quiet.pure _
    · exact Quiet.perform_bind rfl fun _ => Quiet.pure _

theorem quiet_assertDestinationAllowed (toAddress : String) :
    Quiet (assertDestinationAllowed opts toAddress) := by
  unfold assertDestinationAllowed
  split
  · exact Quiet.throw _
  · exact Quiet.pure ()

theorem quiet_assertHotWalletReady (code message : String) :
    Quiet (assertHotWalletReady opts code message) := by
  refine (quiet_getHotWalletReadiness opts).bind fun readiness => ?_
  split
  · exact Quiet.pure ()
  · exact Quiet.throw _

theorem quiet_assertBroadcastAllowed (toAddress : String) (amount : ℤ) :
    Quiet (assertBroadcastAllowed opts toAddress amount) := by
  have hrest : Quiet (if requiresOfflineSigning opts amount = true then
      throw (.domain 409 "WITHDRAW_OFFLINE_SIGN_REQUIRED" "withdrawal requires offline signing")
    else assertHotWalletReady opts "WITHDRAW_BROADCAST_BLOCKED"
      "hot wallet is not ready for broadcast") := by
    split
    · exact Quiet.throw _
    · exact quiet_assertHotWalletReady opts _ _
  refine (quiet_assertDestinationAllowed opts toAddress).bind fun _ => ?_
  show Quiet (if _ then _ else _)
  split
  · exact Quiet.perform_bind rfl fun _ => hrest
  · exact hrest

theorem quiet_assertNetworkAllowed (userId : String) :
    Quiet (assertUserWithdrawalNetworkAllowed opts userId) := by
  unfold assertUserWithdrawalNetworkAllowed
  split
  · refine Quiet.perform_bind rfl fun isTestUser => ?_
    split
    · refine Quiet.perform_bind rfl fun isTestnet => ?_
      split
      · exact Quiet.pure ()
      · exact Quiet.throw _
    · exact Quiet.pure ()
  · exact Quiet.pure ()

theorem quiet_publish (w : Withdrawal) (occurredAt : String) :
    Quiet (publishWithdrawalStateChange rt w occurredAt) := by
  unfold publishWithdrawalStateChange
  split
  · exact Quiet.perform rfl
  · exact Quiet.throw _

theorem quiet_confirm (id : String) (networkFee : Option NetworkFee) :
    Quiet (confirm rt id networkFee) := by
  unfold confirm
  refine Quiet.perform_bind rfl fun _ => ?_
  refine Quiet.perform_bind rfl fun updated => ?_
  refine Quiet.perform_bind rfl fun _ => ?_
  refine (quiet_publish rt updated _).bind fun _ => ?_
  exact Quiet.perform_bind rfl fun _ => Quiet.pure updated

theorem quiet_fail (id reason : String) : Quiet (fail rt id reason) := by
  unfold fail
  refine Quiet.perform_bind rfl fun _ => ?_
  refine Quiet.perform_bind rfl fun updated => ?_
  refine Quiet.perform_bind rfl fun _ => ?_
  refine (quiet_publish rt updated _).bind fun _ => ?_
  exact Quiet.perform_bind rfl fun _ => Quiet.pure updated

theorem quiet_reconcileEach (ws : List Withdrawal) (result : ReconcileResult) :
    Quiet (reconcileEach rt ws result) := by
  induction ws generalizing result with
  | nil => exact Quiet.pure result
  | cons w ws ih =>
    unfold reconcileEach
    split
    · exact ih result
    · refine Quiet.perform_bind rfl fun receipt => ?_
      split
      · exact (quiet_confirm rt _ _).bind fun _ => ih _
      · exact (quiet_fail rt _ _).bind fun _ => ih _
      · exact ih _

theorem quiet_reconcileBroadcasted : Quiet (reconcileBroadcasted rt) :=
  Quiet.perform_bind rfl fun _ => quiet_reconcileEach rt _ _

theorem quiet_handleAttemptFailure (id : String) (attempt : Nat) (e : LedgerError) :
    Quiet (handleAttemptFailure id attempt e) := by
  unfold handleAttemptFailure
  split <;> exact Quiet.perform rfl

theorem quiet_ensureHotWalletResources (id : String) :
    Quiet (ensureHotWalletResources opts id) := by
  refine (quiet_getHotWalletReadiness opts).bind fun readiness => ?_
  split
  · exact Quiet.pure ()
  · split
    · exact Quiet.throw _
    · exact Quiet.perform_bind rfl fun _ => Quiet.throw _

theorem disciplined_approve (id : String) (adminId : Option String) (actorType : Option ActorType)
    (reasonCode : Option ApprovalReasonCode) (note : Option String)
    (known : Option (String × Withdrawal)) :
    Disciplined (approve rt opts id adminId actorType reasonCode note) known := by
  refine Disciplined.lookup (fun w => Quiet.disciplined ?_ _) (Disciplined.throw _)
  refine (quiet_assertNetworkAllowed opts w.userId).bind fun _ => ?_
  refine Quiet.perform_bind rfl fun _ => ?_
  refine Quiet.perform_bind rfl fun result => ?_
  refine (quiet_publish rt result.withdrawal _).bind fun _ => ?_
  refine Quiet.perform_bind rfl fun _ => ?_
  split
  · exact Quiet.perform_bind rfl fun _ => Quiet.perform_bind rfl fun _ => Quiet.pure _
  · exact Quiet.pure result

/-- `broadcast` reads, passes its guards and sends what it has read -/
theorem disciplined_broadcast (id : String) (known : Option (String × Withdrawal)) :
    Disciplined (broadcast rt opts id) known := by
  refine Disciplined.lookup (fun w => ?_) (Disciplined.pure _)
  refine Disciplined.quiet_bind (quiet_assertNetworkAllowed opts w.userId) fun _ => ?_
  refine Disciplined.quiet_bind (quiet_assertBroadcastAllowed opts w.toAddress w.amount) fun _ => ?_
  refine Disciplined.send fun txHash => Quiet.disciplined ?_ _
  refine Quiet.perform_bind rfl fun _ => ?_
  refine Quiet.perform_bind rfl fun updated => ?_
  refine Quiet.perform_bind rfl fun _ => ?_
  refine (quiet_publish rt updated _).bind fun _ => ?_
  exact Quiet.perform_bind rfl fun _ => Quiet.pure _

theorem disciplined_submitOfflineBroadcast (id txHash : String) (actorId : Option String)
    (known : Option (String × Withdrawal)) :
    Disciplined (submitOfflineBroadcast rt opts id txHash actorId) known := by
  refine Disciplined.lookup (fun w => Quiet.disciplined ?_ _) (Disciplined.pure _)
  show Quiet (if w.status ≠ .adminApproved then _ else if _ then _ else _)
  split
  · exact Quiet.throw _
  · split
    · exact Quiet.throw _
    · refine Quiet.perform_bind rfl fun _ => ?_
      refine Quiet.perform_bind rfl fun updated => ?_
      refine Quiet.perform_bind rfl fun _ => ?_
      refine (quiet_publish rt updated _).bind fun _ => ?_
      exact Quiet.perform_bind rfl fun _ => Quiet.pure _

theorem disciplined_processDispatch (id : String) (attempt : Nat)
    (known : Option (String × Withdrawal)) :
    Disciplined (processDispatch rt opts id attempt) known := by
  unfold processDispatch
  split
  · exact Disciplined.throw _
  · refine Disciplined.lookup (fun w => ?_) (Disciplined.throw _)
    show Disciplined (if _ then _ else if _ then _ else _) _
    split
    · exact Disciplined.pure _
    · split
      · exact Disciplined.throw _
      · refine Disciplined.tryCatch ?_ fun e known => ?_
        · refine Disciplined.quiet_bind (quiet_ensureHotWalletResources opts id) fun _ => ?_
          exact (disciplined_broadcast rt opts id _).bind fun _ _ => Disciplined.pure _
        · exact Disciplined.quiet_bind (quiet_handleAttemptFailure id attempt e) fun _ => Disciplined.throw _

theorem disciplined_processReconcile (id : Option String) (attempt : Nat)
    (known : Option (String × Withdrawal)) :
    Disciplined (processReconcile rt id attempt) known := by
  refine Disciplined.tryCatch ?_ fun e known =>
    Disciplined.quiet_bind (quiet_handleAttemptFailure _ attempt e) fun _ => Disciplined.throw _
  have hsettled : ∀ (o : Option String) known, Disciplined (isSettled o) known := by
    intro o known
    cases o with
    | none => exact Disciplined.pure _
    | some id => exact Disciplined.lookup (fun _ => Disciplined.pure _) (Disciplined.pure _)
  refine (hsettled _ known).bind fun settled known => Quiet.disciplined ?_ known
  split
  · exact Quiet.pure ()
  · refine (quiet_reconcileBroadcasted rt).bind fun result => ?_
    split
    · exact Quiet.pure ()
    · split
      · exact Quiet.throw _
      · split
        · exact Quiet.throw _
        · exact Quiet.pure ()

/-- every job, from its start, only sends what it has itself read -/
theorem disciplined_job (job : Job) : Disciplined (job.program rt opts) none := by
  cases job with
  | approve id adminId actorType reasonCode note =>
    exact (disciplined_approve rt opts id adminId actorType reasonCode note none).bind
      fun _ _ => Disciplined.pure _
  | broadcast id => exact (disciplined_broadcast rt opts id none).bind fun _ _ => Disciplined.pure _
  | dispatch id attempt => exact disciplined_processDispatch rt opts id attempt none
  | submitOfflineBroadcast id txHash actorId =>
    exact (disciplined_submitOfflineBroadcast rt opts id txHash actorId none).bind
      fun _ _ => Disciplined.pure _
  | confirm id networkFee =>
    exact ((quiet_confirm rt id networkFee).bind fun _ => Quiet.pure _).disciplined none
  | reconcileBroadcasted =>
    exact ((quiet_reconcileBroadcasted rt).bind fun _ => Quiet.pure _).disciplined none
  | reconcile id attempt => exact disciplined_processReconcile rt id attempt none
  | fail id reason => exact ((quiet_fail rt id reason).bind fun _ => Quiet.pure _).disciplined none

end

/-! ## the invariant -/

section
variable {rt : Runtime}

theorem isPlain_of_isOutside {β : Type} {call : Effect β} (h : call.isOutside = true) :
    call.isPlain = true := by
  cases call <;> first | rfl | cases h

/-- a transfer that left has been recorded since, or is still unrecorded -/
theorem recorded_of_sent {id : String} {trace : List Event} {i : Nat} {toAddress : String}
    {amount : ℤ} {record : Option Withdrawal} (hmem : .sent i id toAddress amount record ∈ trace)
    (h : ¬ Unrecorded id trace) : .written id .txBroadcasted ∈ trace := by
  induction trace with
  | nil => cases hmem
  | cons e t ih =>
    cases e with
    | read j id' w =>
      have hmem' := (List.mem_cons.mp hmem).resolve_left (by intro he; cases he)
      exact List.mem_cons_of_mem _ (ih hmem' h)
    | sent j id' toAddress' amount' record' =>
      rw [Unrecorded] at h
      rcases List.mem_cons.mp hmem with he | hmem'
      · cases he
        exact absurd (Or.inl rfl) h
      · exact List.mem_cons_of_mem _ (ih hmem' fun hu => h (Or.inr hu))
    | written id' status =>
      have hmem' := (List.mem_cons.mp hmem).resolve_left (by intro he; cases he)
      rw [Unrecorded] at h
      by_cases hhere : id' = id ∧ status = .txBroadcasted
      · obtain ⟨rfl, rfl⟩ := hhere
        exact List.mem_cons_self
      · exact List.mem_cons_of_mem _ (ih hmem' fun hu => h ⟨hhere, hu⟩)

/-- what holds of the world in every state reached -/
structure WorldInv (rt : Runtime) (W : World) : Prop where
  sound : InMemoryLedger.Sound rt W.ledger
  current : ∀ i r, lastRead i W.trace = some r → r.untouched = true →
    W.ledger.withdrawals.get? r.withdrawalId = some r.withdrawal
  recorded : ∀ id, .written id .txBroadcasted ∈ W.trace →
    ∃ w, W.ledger.withdrawals.get? id = some w ∧ InMemoryLedger.pastBroadcast w.status = true
  safe : PayoutsSafe W.trace

/-- a call that changes a withdrawal is seen in the trace -/
theorem writtenEvents_cases (huuid : Function.Injective rt.uuid) {s : InMemoryLedger}
    (hs : InMemoryLedger.Sound rt s) (c : InMemoryLedger.Call) :
    (writtenEvents c s (c.step rt s) = [] ∧ ∀ id w, s.withdrawals.get? id = some w →
      (c.step rt s).withdrawals.get? id = some w) ∨
    ∃ id w', writtenEvents c s (c.step rt s) = [.written id w'.status] ∧
      (c.step rt s).withdrawals.get? id = some w' ∧
      ∀ id' w, id' ≠ id → s.withdrawals.get? id' = some w →
        (c.step rt s).withdrawals.get? id' = some w := by
  have hkeep : ∀ id w, c.target ≠ some id → s.withdrawals.get? id = some w →
      (c.step rt s).withdrawals.get? id = some w := by
    intro id w hne hw
    rcases InMemoryLedger.step_withdrawal huuid hs c hw with h | ⟨w', -, ht, -⟩
    · exact h
    · exact absurd ht hne
  cases ht : c.target with
  | none =>
    refine Or.inl ⟨by rw [writtenEvents, ht], fun id w hw => hkeep id w (by rw [ht]; simp) hw⟩
  | some id =>
    have hother : ∀ id' w, id' ≠ id → s.withdrawals.get? id' = some w →
        (c.step rt s).withdrawals.get? id' = some w := fun id' w hne hw =>
      hkeep id' w (by rw [ht]; simpa using Ne.symm hne) hw
    cases hw' : (c.step rt s).withdrawals.get? id with
    | none =>
      refine Or.inl ⟨by simp only [writtenEvents, ht, hw'], fun id' w hw => ?_⟩
      by_cases hid : id' = id
      · subst hid
        rcases InMemoryLedger.step_withdrawal huuid hs c hw with h | ⟨w'', h, -⟩
        · exact h
        · rw [hw'] at h
          cases h
      · exact hother id' w hid hw
    | some w' =>
      by_cases hsame : s.withdrawals.get? id = some w'
      · refine Or.inl ⟨by simp only [writtenEvents, ht, hw', hsame, if_true], fun id' w hw => ?_⟩
        by_cases hid : id' = id
        · subst hid
          rw [hw', ← hsame, hw]
        · exact hother id' w hid hw
      · exact Or.inr ⟨id, w', by simp only [writtenEvents, ht, hw', if_neg hsame], hw', hother⟩

theorem PayoutsSafe.of_other {e : Event} {trace : List Event}
    (he : ∀ i id toAddress amount record, e ≠ .sent i id toAddress amount record)
    (h : PayoutsSafe trace) : PayoutsSafe (e :: trace) where
  approved := fun i id toAddress amount record hmem =>
    h.approved i id toAddress amount record
      ((List.mem_cons.mp hmem).resolve_left (he i id toAddress amount record).symm)
  single := fun id => by
    have hno : e.isPayoutOf id = false := by
      cases e with
      | sent i id' toAddress amount record => exact absurd rfl (he i id' toAddress amount record)
      | read i id' w => rfl
      | written id' status => rfl
    rw [List.filter_cons_of_neg (by simp [hno])]
    exact h.single id

theorem lastRead_called (huuid : Function.Injective rt.uuid) {W : World} (hW : WorldInv rt W)
    (c : InMemoryLedger.Call) (i : Nat) :
    (lastRead i (W.called rt c).trace).map Reading.known =
      (lastRead i W.trace).map Reading.known := by
  rcases writtenEvents_cases huuid hW.sound c with ⟨he, -⟩ | ⟨id, w', he, -⟩
  · rw [World.called, he]
    rfl
  · rw [World.called, he]
    show ((lastRead i W.trace).map (Reading.afterWrite id)).map Reading.known = _
    cases lastRead i W.trace <;> rfl

theorem WorldInv.called (huuid : Function.Injective rt.uuid) {W : World} (hW : WorldInv rt W)
    (c : InMemoryLedger.Call) : WorldInv rt (W.called rt c) := by
  have hpast : ∀ id, .written id .txBroadcasted ∈ W.trace →
      ∃ w, (c.step rt W.ledger).withdrawals.get? id = some w ∧
        InMemoryLedger.pastBroadcast w.status = true := by
    intro id hmem
    obtain ⟨w, hw, hp⟩ := hW.recorded id hmem
    exact InMemoryLedger.step_pastBroadcast huuid hW.sound c hw hp
  have hsound := InMemoryLedger.step_sound huuid c hW.sound
  rcases writtenEvents_cases huuid hW.sound c with ⟨he, hkeep⟩ | ⟨id, w', he, hw', hkeep⟩
  · have hW' : W.called rt c = { W with ledger := c.step rt W.ledger } := by
      rw [World.called, he]
      rfl
    rw [hW']
    exact ⟨hsound, fun i r hr hu => hkeep _ _ (hW.current i r hr hu), hpast, hW.safe⟩
  · have hW' : W.called rt c = ⟨c.step rt W.ledger, .written id w'.status :: W.trace⟩ := by
      rw [World.called, he]
      rfl
    rw [hW']
    refine ⟨hsound, fun i r hr hu => ?_, fun id' hmem => ?_, hW.safe.of_other (by simp)⟩
    · obtain ⟨r₀, hr₀, rfl⟩ := Option.map_eq_some_iff.mp hr
      have hflags : r₀.untouched = true ∧ r₀.withdrawalId ≠ id := by
        simpa [Reading.afterWrite] using hu
      exact hkeep _ _ hflags.2 (hW.current i r₀ hr₀ hflags.1)
    · rcases List.mem_cons.mp hmem with heq | hmem
      · obtain ⟨rfl, hst⟩ := Event.written.inj heq
        exact ⟨w', hw', by rw [← hst]; rfl⟩
      · exact hpast id' hmem

theorem WorldInv.lookedUp {W : World} (hW : WorldInv rt W) (i : Nat) (id : String) :
    WorldInv rt (W.lookedUp i id) := by
  unfold World.lookedUp
  cases hw : W.ledger.withdrawals.get? id with
  | none => exact hW
  | some w =>
    refine ⟨hW.sound, fun j r hr hu => ?_, fun id' hmem => ?_, hW.safe.of_other (by simp)⟩
    · simp only [World.log, lastRead] at hr
      split at hr
      · obtain rfl := Option.some.inj hr
        exact hw
      · exact hW.current j r hr hu
    · exact hW.recorded id' ((List.mem_cons.mp hmem).resolve_left (by simp))

/-- the payout of a withdrawal the ledger has approved, no earlier one being unrecorded -/
theorem WorldInv.paid {W : World} (hW : WorldInv rt W) (i : Nat) {id : String} {w : Withdrawal}
    (hw : W.ledger.withdrawals.get? id = some w) (happroved : w.status = .adminApproved)
    (hrec : ¬ Unrecorded id W.trace) : WorldInv rt (W.paid i id w.toAddress w.amount) := by
  have hnone : W.trace.filter (Event.isPayoutOf id) = [] := by
    rw [List.filter_eq_nil_iff]
    intro e he hpay
    cases e with
    | read j id' v => cases hpay
    | written id' status => cases hpay
    | sent j id' toAddress amount record =>
      obtain rfl : id' = id := by simpa [Event.isPayoutOf] using hpay
      obtain ⟨v, hv, hp⟩ := hW.recorded id' (recorded_of_sent he hrec)
      rw [hw] at hv
      obtain rfl := Option.some.inj hv
      rw [happroved] at hp
      cases hp
  refine ⟨hW.sound, fun j r hr hu => hW.current j r hr hu, fun id' hmem => ?_, ?_, fun id' => ?_⟩
  · exact hW.recorded id' ((List.mem_cons.mp hmem).resolve_left (by simp))
  · intro j id' toAddress amount record hmem
    rcases List.mem_cons.mp hmem with heq | hmem
    · obtain ⟨rfl, rfl, rfl, rfl, rfl⟩ := Event.sent.inj heq
      exact ⟨w, hw, happroved, rfl, rfl⟩
    · exact hW.safe.approved j id' toAddress amount record hmem
  · by_cases hid : id = id'
    · subst hid
      have hone : ((W.paid i id w.toAddress w.amount).trace.filter (Event.isPayoutOf id)).length =
          (W.trace.filter (Event.isPayoutOf id)).length + 1 := by
        rw [World.paid, World.log, List.filter_cons_of_pos (by simp [Event.isPayoutOf]),
          List.length_cons]
      rw [hone, hnone]
      exact le_refl 1
    · have hskip : (W.paid i id w.toAddress w.amount).trace.filter (Event.isPayoutOf id') =
          W.trace.filter (Event.isPayoutOf id') := by
        rw [World.paid, World.log, List.filter_cons_of_neg (by simp [Event.isPayoutOf, hid])]
      rw [hskip]
      exact hW.safe.single id'

/-- what holds in every state reached: executions only send what they have read -/
structure Inv (rt : Runtime) (σ : ServiceState) : Prop where
  world : WorldInv rt σ.world
  started : ∀ i p, σ.running i = some p → i < σ.started
  reads : ∀ i, σ.started ≤ i → lastRead i σ.world.trace = none
  disciplined : ∀ i p, σ.running i = some p →
    Disciplined p ((lastRead i σ.world.trace).map Reading.known)

/-- What a performed call leaves: the world invariant, the readings of the others, and a
disciplined continuation. -/
theorem handled_step (huuid : Function.Injective rt.uuid) {i : Nat} {β : Type} {call : Effect β}
    {next : Except LedgerError β → Async Unit} {r : Except LedgerError β} {W W' : World}
    (hW : WorldInv rt W)
    (hd : Disciplined (.calls call next) ((lastRead i W.trace).map Reading.known))
    (hadm : SendChecked i call W) (hh : Handles rt i call W r W') :
    WorldInv rt W' ∧
    (∀ j, j ≠ i → (lastRead j W'.trace).map Reading.known =
      (lastRead j W.trace).map Reading.known) ∧
    Disciplined (next r) ((lastRead i W'.trace).map Reading.known) := by
  have hwrite : ∀ c, call.isPlain = true → WorldInv rt (W.called rt c) ∧
      (∀ j, j ≠ i → (lastRead j (W.called rt c).trace).map Reading.known =
        (lastRead j W.trace).map Reading.known) ∧
      Disciplined (next r) ((lastRead i (W.called rt c).trace).map Reading.known) := by
    intro c hplain
    refine ⟨hW.called huuid c, fun j _ => lastRead_called huuid hW c j, ?_⟩
    rw [lastRead_called huuid hW c i]
    exact hd.plain hplain r
  cases hh with
  | lookedUp id W =>
    refine ⟨hW.lookedUp i id, ?_⟩
    unfold World.lookedUp InMemoryLedger.getWithdrawal
    cases hw : W.ledger.withdrawals.get? id with
    | none => exact ⟨fun _ _ => rfl, hd.missing⟩
    | some w =>
      refine ⟨fun j hj => ?_, ?_⟩
      · simp only [World.log, lastRead, if_neg (Ne.symm hj)]
      · simp only [World.log, lastRead, if_true]
        exact hd.found w
  | listed statuses W => exact ⟨hW, fun _ _ => rfl, hd.plain rfl _⟩
  | approved id input nowIso W => exact hwrite _ rfl
  | broadcasted id txHash nowIso W => exact hwrite _ rfl
  | confirmed id networkFee nowIso W => exact hwrite _ rfl
  | failed id reason nowIso W => exact hwrite _ rfl
  | wroteUnanswered write e W => exact hwrite _ (by cases call <;> first | rfl | cases write)
  | outside out r W => exact ⟨hW, fun _ _ => rfl, hd.plain (isPlain_of_isOutside out) r⟩
  | refused e W => exact ⟨hW, fun _ _ => rfl, hd.error e⟩
  | sent id toAddress amount txHash W =>
    obtain ⟨w, hknown, rfl, rfl⟩ := hd.knows
    obtain ⟨reading, hr, hk⟩ := Option.map_eq_some_iff.mp hknown
    obtain ⟨hid, hw⟩ := Prod.mk.inj hk
    obtain ⟨hst, hu⟩ := hadm.1 reading hr
    have hcur := hW.current i reading hr hu
    rw [hid, hw] at hcur
    rw [hw] at hst
    exact ⟨hW.paid i hcur hst hadm.2, fun _ _ => rfl, hd.sent _⟩
  | sentUnanswered id toAddress amount e W =>
    obtain ⟨w, hknown, rfl, rfl⟩ := hd.knows
    obtain ⟨reading, hr, hk⟩ := Option.map_eq_some_iff.mp hknown
    obtain ⟨hid, hw⟩ := Prod.mk.inj hk
    obtain ⟨hst, hu⟩ := hadm.1 reading hr
    have hcur := hW.current i reading hr hu
    rw [hid, hw] at hcur
    rw [hw] at hst
    exact ⟨hW.paid i hcur hst hadm.2, fun _ _ => rfl, hd.sent _⟩

theorem map_known_none {o o' : Option Reading}
    (h : o.map Reading.known = o'.map Reading.known) (ho : o' = none) : o = none := by
  subst ho
  exact Option.map_eq_none_iff.mp h

theorem Inv.step (huuid : Function.Injective rt.uuid) (opts : Options) {σ σ' : ServiceState}
    (hI : Inv rt σ) (hs : Step (IsJob rt opts) (Handles rt) (Moves rt) SendChecked σ σ') :
    Inv rt σ' := by
  cases hs with
  | start p ready =>
    obtain ⟨job, rfl⟩ := ready
    refine ⟨hI.world, fun i q hq => ?_, fun i hi => hI.reads i (Nat.le_of_succ_le hi),
      fun i q hq => ?_⟩
    · rcases running_update hq with ⟨rfl, -⟩ | ⟨-, hq⟩
      · exact Nat.lt_succ_self _
      · exact Nat.lt_succ_of_lt (hI.started i q hq)
    · rcases running_update hq with ⟨rfl, hp⟩ | ⟨-, hq⟩
      · obtain rfl := Option.some.inj hp
        rw [hI.reads _ (le_refl _)]
        exact disciplined_job rt opts job
      · exact hI.disciplined i q hq
  | @perform i β call next r W running admitted handled =>
    have hlt := hI.started i _ running
    obtain ⟨hW, hothers, hnext⟩ := handled_step huuid hI.world (hI.disciplined i _ running)
      admitted handled
    refine ⟨hW, fun j q hq => ?_, fun j hj => ?_, fun j q hq => ?_⟩
    · rcases running_update hq with ⟨rfl, -⟩ | ⟨-, hq⟩
      · exact hlt
      · exact hI.started j q hq
    · have hji : j ≠ i := fun h => absurd (h ▸ hlt) (Nat.not_lt.mpr hj)
      exact map_known_none (hothers j hji) (hI.reads j hj)
    · rcases running_update hq with ⟨rfl, hp⟩ | ⟨hji, hq⟩
      · obtain rfl := Option.some.inj hp
        exact hnext
      · rw [hothers j hji]
        exact hI.disciplined j q hq
  | stop i =>
    refine ⟨hI.world, fun j q hq => ?_, hI.reads, fun j q hq => ?_⟩
    · rcases running_update hq with ⟨-, hp⟩ | ⟨-, hq⟩
      · cases hp
      · exact hI.started j q hq
    · rcases running_update hq with ⟨-, hp⟩ | ⟨-, hq⟩
      · cases hp
      · exact hI.disciplined j q hq
  | environment moved =>
    obtain ⟨c, rfl⟩ := moved
    refine ⟨hI.world.called huuid c, hI.started, fun i hi => ?_, fun i q hq => ?_⟩
    · exact map_known_none (lastRead_called huuid hI.world c i) (hI.reads i hi)
    · rw [lastRead_called huuid hI.world c i]
      exact hI.disciplined i q hq

theorem Inv.initial {s : InMemoryLedger} (hs : InMemoryLedger.Sound rt s) :
    Inv rt (System.initial Effect LedgerError ⟨s, []⟩) where
  world :=
    { sound := hs
      current := fun _ _ h => by cases h
      recorded := fun _ h => by cases h
      safe := ⟨fun _ _ _ _ _ h => (by cases h), fun _ => Nat.zero_le 1⟩ }
  started := fun _ _ h => by cases h
  reads := fun _ _ => rfl
  disciplined := fun _ _ h => by cases h

end

/-- the mock gateway, nothing restricted -/
def mockOptions : Options where
  tronGatewayMode := .mock
  signerMode := .hot
  hotWalletAddress := "THot"
  signerHealthy := true
  coldWithdrawMinAmount := 0
  minTrxSun := 0
  minBandwidth := 0
  minEnergy := 0
  restrictedDestinationAddresses := []
  checksAddressPolicy := false
  checksNetwork := false

end WithdrawService
