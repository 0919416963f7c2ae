import CoinManage.Alerts.Service
import CoinManage.InMemory.Ledger
import CoinManage.OfflinePay.Fingerprint
import CoinManage.Lib.Traces

/-!
# The consumer of settled offline payments

`OfflinePaySettlementConsumerService` turns a finalized settlement into a withdrawal: request, external
confirmation, approval.  A circuit breaker counts the failures and refuses settlements for a while when
there are too many in a row.

* `HandleRun`             the ways a call of `handle` can go, with what it does to the breaker;
* `Tracks`                the breaker holds the history of the failures;
* `breaker_counts_iff`    it counts failed withdrawals only, exactly when nothing fails after an approval;
* `audit_counts`          an audit log that fails counts as a failed withdrawal.
-/

set_option linter.unusedSectionVars false

/-! ## the breaker -/

def MAX_SAFE_INTEGER : Nat := 2 ^ 53 - 1

namespace OfflinePaySettlementCircuitBreaker

/-- the threshold is one the counter can reach -/
structure Options where
  failureThreshold : Nat
  openCooldownMs : ℤ
  reachable : failureThreshold ≤ MAX_SAFE_INTEGER

def DEFAULT_OPTIONS : Options where
  failureThreshold := 3
  openCooldownMs := 5 * 60 * 1000
  reachable := by decide

structure State where
  isOpen : Bool
  consecutiveFailures : Nat
  openUntilMs : Option ℤ
  cooldownRemainingMs : ℤ

end OfflinePaySettlementCircuitBreaker

structure OfflinePaySettlementCircuitBreaker where
  consecutiveFailures : Nat := 0
  openUntilMs : Option ℤ := none

namespace OfflinePaySettlementCircuitBreaker

def isOpen (b : OfflinePaySettlementCircuitBreaker) (nowMs : ℤ) : Bool :=
  match b.openUntilMs with
  | some openUntilMs => decide (nowMs < openUntilMs)
  | none => false

def canExecute (b : OfflinePaySettlementCircuitBreaker) (nowMs : ℤ) : Bool := !b.isOpen nowMs

/-- a number that is not 0 -/
def truthyNumber : Option ℤ → Option ℤ
  | some 0 => none
  | n => n

def snapshot (b : OfflinePaySettlementCircuitBreaker) (nowMs : ℤ) : State where
  isOpen := b.isOpen nowMs
  consecutiveFailures := b.consecutiveFailures
  openUntilMs := b.openUntilMs
  cooldownRemainingMs := match truthyNumber b.openUntilMs with
    | some openUntilMs => max 0 (openUntilMs - nowMs)
    | none => 0

/-- whether it was open, and the breaker afterwards -/
def recordSuccess (b : OfflinePaySettlementCircuitBreaker) : Bool × OfflinePaySettlementCircuitBreaker :=
  ((truthyNumber b.openUntilMs).isSome, ⟨0, none⟩)

/-- whether it opened, and the breaker afterwards -/
def recordFailure (opts : Options) (nowMs : ℤ) (b : OfflinePaySettlementCircuitBreaker) :
    Bool × OfflinePaySettlementCircuitBreaker :=
  let consecutiveFailures := min (b.consecutiveFailures + 1) MAX_SAFE_INTEGER
  let opened := decide (opts.failureThreshold ≤ consecutiveFailures)
  (opened, ⟨consecutiveFailures, if opened then some (nowMs + opts.openCooldownMs) else b.openUntilMs⟩)

/-! ## its state and the history -/

/-- the breaker holds how many failures there were, and when it may be tried again -/
structure Tracks (opts : Options) (failures : List ℤ) (b : OfflinePaySettlementCircuitBreaker) : Prop where
  count : b.consecutiveFailures = min failures.length MAX_SAFE_INTEGER
  openUntil : b.openUntilMs = if opts.failureThreshold ≤ failures.length then
    failures.getLast?.map fun t => t + opts.openCooldownMs else none

theorem Tracks.new (opts : Options) : Tracks opts [] {} := by
  refine ⟨rfl, ?_⟩
  show none = _
  split <;> rfl

theorem Tracks.recordSuccess {opts : Options} (b : OfflinePaySettlementCircuitBreaker) :
    Tracks opts [] b.recordSuccess.2 := Tracks.new opts

theorem Tracks.recordFailure {opts : Options} {failures : List ℤ} {b : OfflinePaySettlementCircuitBreaker}
    (h : Tracks opts failures b) (nowMs : ℤ) :
    Tracks opts (failures ++ [nowMs]) (b.recordFailure opts nowMs).2 := by
  have hcount : min (b.consecutiveFailures + 1) MAX_SAFE_INTEGER =
      min (failures.length + 1) MAX_SAFE_INTEGER := by
    rw [h.count]
    omega
  have hthreshold := opts.reachable
  refine ⟨?_, ?_⟩
  · rw [List.length_append, List.length_singleton]
    exact hcount
  · show (if decide (opts.failureThreshold ≤ min (b.consecutiveFailures + 1) MAX_SAFE_INTEGER) = true then
      some (nowMs + opts.openCooldownMs) else b.openUntilMs) = _
    rw [hcount, List.length_append, List.length_singleton, List.getLast?_concat]
    by_cases hopen : opts.failureThreshold ≤ failures.length + 1
    · rw [if_pos (decide_eq_true (le_min hopen hthreshold)), if_pos hopen]
      rfl
    · have hbefore : ¬ opts.failureThreshold ≤ failures.length := by omega
      rw [if_neg hopen, if_neg, h.openUntil, if_neg hbefore]
      simp only [decide_eq_true_eq, not_le]
      omega

/-- when a call at `nowMs` is refused -/
theorem Tracks.refuses_iff {opts : Options} {failures : List ℤ} {b : OfflinePaySettlementCircuitBreaker}
    (h : Tracks opts failures b) (nowMs : ℤ) :
    b.canExecute nowMs = false ↔ opts.failureThreshold ≤ failures.length ∧
      ∃ last, failures.getLast? = some last ∧ nowMs < last + opts.openCooldownMs := by
  rw [canExecute, isOpen, h.openUntil]
  by_cases hopen : opts.failureThreshold ≤ failures.length
  · rw [if_pos hopen]
    cases failures.getLast? with
    | none => simp
    | some last => simp [hopen]
  · rw [if_neg hopen]
    simp [hopen]

end OfflinePaySettlementCircuitBreaker

/-! ## the service -/

namespace OfflinePaySettlementConsumerService
open Program OfflinePay

/-- `financiallyHonored`, `toAddress` and `clientIp` may be missing -/
structure OfflinePaySettlementFinalizedEvent where
  proof : Proof
  proofFingerprint : String
  userId : String
  assetCode : String
  amount : String
  settlementStatus : String
  releaseAction : Postgres.ReleaseAction
  conflictDetected : Bool
  financiallyHonored : Option Bool
  toAddress : Option String
  clientIp : Option String

structure RequestInput where
  userId : String
  amountKori : JsNumber
  toAddress : String
  idempotencyKey : String
  clientIp : Option String
  deviceId : String

structure AuditLog where
  entityId : String
  action : String
  metadata : List (String × String)

/-- the calls of `handle`: the clock, the breaker, the withdrawal service, the alerts, the audit log -/
inductive Effect : Type → Type
  | dateNow : Effect ℤ
  | canExecute (nowMs : ℤ) : Effect Bool
  | snapshot (nowMs : ℤ) : Effect OfflinePaySettlementCircuitBreaker.State
  | recordSuccess : Effect Bool
  | recordFailure (nowMs : ℤ) : Effect (Bool × OfflinePaySettlementCircuitBreaker.State)
  | request (input : RequestInput) : Effect WithdrawalRequestResult
  | confirmExternalAuth (withdrawalId provider requestId actorId : String) : Effect Withdrawal
  | approve (withdrawalId adminId : String) (actorType : ActorType) (reasonCode : ApprovalReasonCode)
      (note : String) : Effect ApprovalDecisionResult
  | alert (message : SendInput) : Effect Unit
  | appendAuditLog (log : AuditLog) : Effect Unit

abbrev Async (α : Type) := Program Effect LedgerError α

inductive HandleResult where
  | skipped (mode : String)
  | internalOnly (mode : String)
  | withdrawRequested (withdrawalId : String)
  deriving DecidableEq

structure Options where
  /-- `withdrawService` is there -/
  withdraws : Bool
  /-- `alertService` is there -/
  alerts : Bool
  number : String → JsNumber
  sha256 : List Char → String
  /-- the message of an error -/
  message : LedgerError → String

def consumerFailure (settlementId batchId stage reason : String) : SendInput where
  title := "[KORION] Offline Pay Settlement Consumer Failure"
  body := "\n".intercalate ["settlementId=" ++ settlementId, "batchId=" ++ batchId, "stage=" ++ stage,
    "reason=" ++ reason]
  dedupeKey := some ("offline-pay-settlement-consumer-failure:" ++ settlementId ++ ":" ++ stage ++ ":" ++ reason)

def circuitOpened (consecutiveFailures : Nat) (cooldownRemainingMs : ℤ) (reason : String) : SendInput where
  title := "[KORION] Offline Pay Settlement Circuit Open"
  body := "\n".intercalate ["consecutiveFailures=" ++ toString consecutiveFailures,
    "cooldownRemainingMs=" ++ toString cooldownRemainingMs, "reason=" ++ reason]
  dedupeKey := some ("offline-pay-settlement-circuit-open:" ++ reason)

def circuitRecovered (consecutiveFailures : Nat) : SendInput where
  title := "[KORION] Offline Pay Settlement Circuit Recovered"
  body := "consecutiveFailures=" ++ toString consecutiveFailures
  dedupeKey := some "offline-pay-settlement-circuit-recovered"

def circuitOpenError : LedgerError :=
  .domain 503 "OFFLINE_PAY_CONSUMER_CIRCUIT_OPEN" "offline pay settlement consumer circuit is open"

section
variable (opts : Options)

/-- `alertService?.notify…(…)`, where it is called for -/
def notifyIf (called : Bool) (message : SendInput) : Async Unit :=
  if called && opts.alerts then perform (.alert message) else pure ()

def appendAudit (input : OfflinePaySettlementFinalizedEvent) (action : String) (extra : List (String × String)) :
    Async Unit :=
  perform (.appendAuditLog
    { entityId := input.proof.settlementId, action := action
      metadata := [("settlementId", input.proof.settlementId), ("batchId", input.proof.batchId),
        ("proofId", input.proof.proofId), ("proofFingerprint", input.proofFingerprint),
        ("deviceId", input.proof.deviceId), ("userId", input.userId), ("assetCode", input.assetCode)] ++ extra })

/-- the `catch` of a dispatch, at the stage it has come to -/
def failed {α : Type} (input : OfflinePaySettlementFinalizedEvent) (stage : String) (error : LedgerError) :
    Async α := do
  let nowMs ← perform .dateNow
  let (opened, state) ← perform (.recordFailure nowMs)
  notifyIf opts true
    (consumerFailure input.proof.settlementId input.proof.batchId stage (opts.message error))
  notifyIf opts opened
    (circuitOpened state.consecutiveFailures state.cooldownRemainingMs (opts.message error))
  throw error

/-- the rest of the `try`, once the withdrawal is approved -/
def settled (input : OfflinePaySettlementFinalizedEvent) (toAddress withdrawalId : String) : Async HandleResult := do
  let nowMs ← perform .dateNow
  let previousState ← perform (.snapshot nowMs)
  let recovered ← perform .recordSuccess
  notifyIf opts recovered (circuitRecovered previousState.consecutiveFailures)
  appendAudit input "offline_pay.execution.withdraw_requested"
    [("withdrawalId", withdrawalId), ("toAddress", toAddress)]
  return .withdrawRequested withdrawalId

def approveAndSettle (input : OfflinePaySettlementFinalizedEvent) (toAddress withdrawalId : String) :
    Async HandleResult := do
  let _ ← perform (.approve withdrawalId "offline_pay_consumer" .system .opsOverride
    ("offline pay settlement " ++ input.proof.settlementId))
  settled opts input toAddress withdrawalId

def dispatch (input : OfflinePaySettlementFinalizedEvent) (toAddress : String) : Async HandleResult := do
  let request ← (perform (.request
    { userId := input.userId, amountKori := opts.number input.amount, toAddress := toAddress
      idempotencyKey := "offline-pay:" ++ input.proof.settlementId, clientIp := input.clientIp
      deviceId := input.proof.deviceId })).tryCatch (failed opts input "withdraw.request")
  let withdrawalId := request.withdrawal.withdrawalId
  let _ ← (perform (.confirmExternalAuth withdrawalId "offline_pay" input.proofFingerprint
    "offline_pay_consumer")).tryCatch (failed opts input "withdraw.confirm_external_auth")
  (approveAndSettle opts input toAddress withdrawalId).tryCatch (failed opts input "withdraw.approve")

/-- the three returns without a withdrawal, and the dispatch -/
def execute (input : OfflinePaySettlementFinalizedEvent) : Async HandleResult :=
  let dispatchableSettlement := input.settlementStatus == "SETTLED" || input.financiallyHonored == some true
  if dispatchableSettlement = false ∨ input.releaseAction ≠ .release ∨ input.conflictDetected = true then do
    appendAudit input "offline_pay.execution.skipped" [("reason", "non_dispatchable_settlement")]
    return .skipped "non_dispatchable_settlement"
  else
    match InMemoryLedger.truthy input.toAddress with
    | none => do
      appendAudit input "offline_pay.execution.internal_only" [("reason", "missing_withdraw_target")]
      return .internalOnly "missing_withdraw_target"
    | some toAddress =>
      if opts.withdraws = false then do
        appendAudit input "offline_pay.execution.internal_only" [("reason", "withdraw_service_unavailable")]
        return .internalOnly "withdraw_service_unavailable"
      else dispatch opts input toAddress

def handle (input : OfflinePaySettlementFinalizedEvent) : Async HandleResult := do
  let nowMs ← perform .dateNow
  if ← perform (.canExecute nowMs) then
    if computeOfflinePayProofFingerprint opts.sha256 input.proof ≠ input.proofFingerprint then
      throw (.domain 409 "OFFLINE_PAY_EXECUTION_FINGERPRINT_MISMATCH"
        "offline pay settlement execution fingerprint mismatch")
    else execute opts input
  else
    let nowMs ← perform .dateNow
    let _ ← perform (.snapshot nowMs)
    throw circuitOpenError

end

/-! ## the world of the service -/

structure World where
  breaker : OfflinePaySettlementCircuitBreaker
  clock : ℤ

/-- The clock never goes back, the breaker does what it does, and the other calls may answer anything. -/
def Handles (bopts : OfflinePaySettlementCircuitBreaker.Options) :
    ∀ ⦃β : Type⦄, Effect β → World → Except LedgerError β → World → Prop
  | _, .dateNow, w, r, w' => ∃ t, w.clock ≤ t ∧ r = .ok t ∧ w' = { w with clock := t }
  | _, .canExecute t, w, r, w' => r = .ok (w.breaker.canExecute t) ∧ w' = w
  | _, .snapshot t, w, r, w' => r = .ok (w.breaker.snapshot t) ∧ w' = w
  | _, .recordSuccess, w, r, w' =>
    r = .ok w.breaker.recordSuccess.1 ∧ w' = { w with breaker := w.breaker.recordSuccess.2 }
  | _, .recordFailure t, w, r, w' =>
    r = .ok ((w.breaker.recordFailure bopts t).1, (w.breaker.recordFailure bopts t).2.snapshot t) ∧
      w' = { w with breaker := (w.breaker.recordFailure bopts t).2 }
  | _, _, w, _, w' => w' = w

/-! ## the history -/

/-- request, external confirmation or approval, refused -/
def stepFailed : Answered Effect LedgerError → Bool
  | ⟨.request _, .error _⟩ => true
  | ⟨.confirmExternalAuth _ _ _ _, .error _⟩ => true
  | ⟨.approve _ _ _ _ _, .error _⟩ => true
  | _ => false

def approved : Answered Effect LedgerError → Bool
  | ⟨.approve _ _ _ _ _, .ok _⟩ => true
  | _ => false

def recordsFailure : Answered Effect LedgerError → Bool
  | ⟨.recordFailure _, _⟩ => true
  | _ => false

def answerFailed (c : Answered Effect LedgerError) : Bool :=
  match c.answer with
  | .ok _ => false
  | .error _ => true

def reading : Answered Effect LedgerError → Option ℤ
  | ⟨.dateNow, .ok t⟩ => some t
  | _ => none

/-- the clock after the step that failed -/
def failedAt : List (Answered Effect LedgerError) → Option ℤ
  | [] => none
  | c :: rest => if stepFailed c then rest.findSome? reading else failedAt rest

abbrev Call := Finished Effect LedgerError HandleResult

/-- the time at which `handle` is called -/
def calledAt (f : Call) : Option ℤ := f.calls.findSome? reading

/-- the three steps of a dispatch have succeeded -/
def dispatched (f : Call) : Bool := f.calls.any approved

/-- the failures after the last dispatch that succeeded, the oldest first -/
def failuresSince (fs : List Call) : List ℤ :=
  fs.foldl (fun failures f => if dispatched f then [] else failures ++ (failedAt f.calls).toList) []

/-- nothing but the clock and the breaker is asked, and the error says that the circuit is open -/
def Refused (f : Call) : Prop :=
  (∃ t t' state, f.calls = [⟨.dateNow, .ok t⟩, ⟨.canExecute t, .ok false⟩, ⟨.dateNow, .ok t'⟩,
    ⟨.snapshot t', .ok state⟩]) ∧ f.outcome = .error circuitOpenError

/-- A call is refused while the failures since the last dispatch are too many and too recent, and a
dispatch that succeeded is never recorded as a failure. -/
def CountsFailures (bopts : OfflinePaySettlementCircuitBreaker.Options) (fs : List Call) : Prop :=
  (∀ before f after, fs = before ++ f :: after → ∃ t, calledAt f = some t ∧
    (Refused f ↔ bopts.failureThreshold ≤ (failuresSince before).length ∧
      ∃ last, (failuresSince before).getLast? = some last ∧ t < last + bopts.openCooldownMs)) ∧
  ∀ f ∈ fs, dispatched f = true → ∀ c ∈ f.calls, recordsFailure c = false

/-! ## the ways a call can go -/

/-- calls that neither move a withdrawal nor the breaker -/
def Effect.Soft : ∀ ⦃β : Type⦄, Effect β → Prop
  | _, .dateNow | _, .snapshot _ | _, .alert _ | _, .appendAuditLog _ => True
  | _, _ => False

/-- the calls that move a withdrawal -/
def Effect.Step : ∀ ⦃β : Type⦄, Effect β → Prop
  | _, .request _ | _, .confirmExternalAuth _ _ _ _ | _, .approve _ _ _ _ _ => True
  | _, _ => False

/-- what a call of `handle` that is not refused does to the breaker -/
inductive Went (bopts : OfflinePaySettlementCircuitBreaker.Options) (b : OfflinePaySettlementCircuitBreaker)
    (t : List (Answered Effect LedgerError)) (b' : OfflinePaySettlementCircuitBreaker) : Prop
  | quiet (hstep : failedAt t = none) (happroved : t.any approved = false) (hb : b' = b)
  | failed (nowMs : ℤ) (hstep : failedAt t = some nowMs) (happroved : t.any approved = false)
      (hb : b' = (b.recordFailure bopts nowMs).2)
  | done (happroved : t.any approved = true) (hanswers : ∀ c ∈ t, answerFailed c = false)
      (hrecords : ∀ c ∈ t, recordsFailure c = false) (hb : b' = b.recordSuccess.2)
  | spoiled (happroved : t.any approved = true) (hanswers : ∃ c ∈ t, answerFailed c = true)
      (hrecords : ∃ c ∈ t, recordsFailure c = true)

section
variable {bopts : OfflinePaySettlementCircuitBreaker.Options} {opts : Options}
  {input : OfflinePaySettlementFinalizedEvent} {w w' : World} {t : List (Answered Effect LedgerError)}

theorem soft_facts {c : Answered Effect LedgerError} (h : Effect.Soft c.call) :
    stepFailed c = false ∧ approved c = false ∧ recordsFailure c = false := by
  obtain ⟨call, answer⟩ := c
  cases call with
  | dateNow | snapshot | alert | appendAuditLog => exact ⟨rfl, rfl, rfl⟩
  | _ => exact h.elim

theorem step_facts {β : Type} {call : Effect β} (h : Effect.Step call) :
    (∀ e, stepFailed ⟨call, .error e⟩ = true) ∧ ∀ bopts w r w₁, Handles bopts call w r w₁ → w₁ = w := by
  cases call with
  | request | confirmExternalAuth | approve => exact ⟨fun _ => rfl, fun _ _ _ _ h => h⟩
  | _ => exact h.elim

theorem failedAt_of_none (h : ∀ c ∈ t, stepFailed c = false) : failedAt t = none := by
  induction t with
  | nil => rfl
  | cons c rest ih =>
    rw [failedAt, h c List.mem_cons_self]
    exact ih fun d hd => h d (List.mem_cons_of_mem _ hd)

theorem any_approved_soft (h : ∀ c ∈ t, Effect.Soft c.call) : t.any approved = false :=
  List.any_eq_false.mpr fun c hc => by simp [(soft_facts (h c hc)).2.1]

theorem soft_breaker {α : Type} {p : Async α} {o : Except LedgerError α}
    (h : Runs (Handles bopts) p w t o w') (hp : p.Only Effect.Soft) : w'.breaker = w.breaker := by
  refine h.keeps (R := fun a b : World => b.breaker = a.breaker) hp (fun _ => rfl) (fun h₁ h₂ => h₂.trans h₁) ?_
  intro γ call r w₁ w₂ hsoft hhandled
  cases call with
  | dateNow =>
    obtain ⟨_, _, _, rfl⟩ := hhandled
    rfl
  | snapshot =>
    obtain ⟨_, rfl⟩ := hhandled
    rfl
  | alert | appendAuditLog => exact congrArg World.breaker hhandled
  | _ => exact hsoft.elim

theorem only_notifyIf (called : Bool) (message : SendInput) : (notifyIf opts called message).Only Effect.Soft := by
  unfold notifyIf
  split
  · exact Only.perform trivial
  · exact Only.pure _

theorem only_appendAudit (action : String) (extra : List (String × String)) :
    (appendAudit input action extra).Only Effect.Soft := Only.perform trivial

/-- the `catch`: the failure is recorded at once -/
theorem runs_failed {α : Type} {stage : String} {error : LedgerError} {o : Except LedgerError α}
    (h : Runs (Handles bopts) (failed opts input stage error) w t o w') :
    (∃ e, o = .error e) ∧ ∃ nowMs r rest, t = ⟨.dateNow, .ok nowMs⟩ :: ⟨.recordFailure nowMs, r⟩ :: rest ∧
      (∀ c ∈ rest, Effect.Soft c.call) ∧ w'.breaker = (w.breaker.recordFailure bopts nowMs).2 := by
  rcases runs_perform_bind.mp h with ⟨e, _, ⟨_, _, hr, _⟩, _⟩ | ⟨nowMs, w₁, t₁, ⟨_, _, hr, hw₁⟩, h₁, rfl⟩
  · cases hr
  · rcases runs_perform_bind.mp h₁ with ⟨e, _, ⟨hr', _⟩, _⟩ | ⟨⟨opened, state⟩, w₂, t₂, ⟨_, hw₂⟩, h₂, rfl⟩
    · cases hr'
    · have honly : (notifyIf opts true (consumerFailure input.proof.settlementId input.proof.batchId stage
          (opts.message error)) >>= fun _ => notifyIf opts opened (circuitOpened state.consecutiveFailures
          state.cooldownRemainingMs (opts.message error)) >>= fun _ =>
          (throw error : Async α)).Only Effect.Soft :=
        (only_notifyIf _ _).bind fun _ => (only_notifyIf _ _).bind fun _ => Only.throw _
      refine ⟨?_, nowMs, _, t₂, rfl, h₂.only honly, ?_⟩
      · rcases runs_bind.mp h₂ with ⟨e, _, rfl⟩ | ⟨_, w₃, t₃, t₄, _, h₃, _⟩
        · exact ⟨e, rfl⟩
        · rcases runs_bind.mp h₃ with ⟨e, _, rfl⟩ | ⟨_, w₄, t₅, t₆, _, h₄, _⟩
          · exact ⟨e, rfl⟩
          · exact ⟨error, (runs_throws.mp h₄).2.1⟩
      · rw [soft_breaker h₂ honly, hw₂, hw₁]

/-- the alert and the audit log after a dispatch -/
theorem runs_reported {recovered : Bool} {message : SendInput} {action : String}
    {extra : List (String × String)} {result : HandleResult} {o : Except LedgerError HandleResult}
    (h : Runs (Handles bopts) (notifyIf opts recovered message >>= fun _ => appendAudit input action extra >>=
      fun _ => (pure result : Async HandleResult)) w t o w') :
    ((∃ a, o = .ok a) ∧ ∀ c ∈ t, answerFailed c = false) ∨
      ((∃ e, o = .error e) ∧ ∃ c ∈ t, answerFailed c = true) := by
  rcases runs_bind.mp h with ⟨e, hnotify, rfl⟩ | ⟨_, w₁, t₁, t₂, hnotify, h₁, rfl⟩
  · refine .inr ⟨⟨e, rfl⟩, ?_⟩
    unfold notifyIf at hnotify
    split at hnotify
    · obtain ⟨rfl, _⟩ := runs_perform.mp hnotify
      exact ⟨_, List.mem_singleton_self _, rfl⟩
    · cases (runs_pure.mp hnotify).2.1
  · have hquiet : ∀ c ∈ t₁, answerFailed c = false := by
      unfold notifyIf at hnotify
      split at hnotify
      · obtain ⟨rfl, _⟩ := runs_perform.mp hnotify
        exact List.forall_mem_singleton.mpr rfl
      · rw [(runs_pure.mp hnotify).1]
        exact List.forall_mem_nil _
    rcases runs_perform_bind.mp h₁ with ⟨e, rfl, _, rfl⟩ | ⟨_, w₂, t₃, _, h₂, rfl⟩
    · exact .inr ⟨⟨e, rfl⟩, _, List.mem_append_right _ (List.mem_singleton_self _), rfl⟩
    · obtain ⟨rfl, rfl, _⟩ := runs_pure.mp h₂
      refine .inl ⟨⟨_, rfl⟩, ?_⟩
      intro c hc
      rcases List.mem_append.mp hc with hc | hc
      · exact hquiet c hc
      · rw [List.mem_singleton.mp hc]
        rfl

/-- what follows the approval answers, or something in it fails -/
theorem runs_settled {toAddress withdrawalId : String} {o : Except LedgerError HandleResult}
    (h : Runs (Handles bopts) (settled opts input toAddress withdrawalId) w t o w') :
    (∀ c ∈ t, recordsFailure c = false) ∧
      (((∃ a, o = .ok a) ∧ (∀ c ∈ t, answerFailed c = false) ∧ w'.breaker = w.breaker.recordSuccess.2) ∨
        ((∃ e, o = .error e) ∧ ∃ c ∈ t, answerFailed c = true)) := by
  rcases runs_perform_bind.mp h with ⟨e, _, ⟨_, _, hr, _⟩, _⟩ | ⟨nowMs, w₁, t₁, ⟨_, _, _, hw₁⟩, h₁, rfl⟩
  · cases hr
  · rcases runs_perform_bind.mp h₁ with ⟨e, _, ⟨hr, _⟩, _⟩ | ⟨state, w₂, t₂, ⟨_, hw₂⟩, h₂, rfl⟩
    · cases hr
    · rcases runs_perform_bind.mp h₂ with ⟨e, _, ⟨hr, _⟩, _⟩ | ⟨recovered, w₃, t₃, ⟨_, hw₃⟩, h₃, rfl⟩
      · cases hr
      · have honly : (notifyIf opts recovered (circuitRecovered state.consecutiveFailures) >>= fun _ =>
            appendAudit input "offline_pay.execution.withdraw_requested"
              [("withdrawalId", withdrawalId), ("toAddress", toAddress)] >>= fun _ =>
            (pure (.withdrawRequested withdrawalId) : Async HandleResult)).Only Effect.Soft :=
          (only_notifyIf _ _).bind fun _ => (only_appendAudit _ _).bind fun _ => Only.pure _
        have hsoft := h₃.only honly
        have hbreaker : w'.breaker = w.breaker.recordSuccess.2 := by
          rw [soft_breaker h₃ honly, hw₃, hw₂, hw₁]
        have hfirst : ∀ c ∈ [(⟨.dateNow, .ok nowMs⟩ : Answered Effect LedgerError), ⟨.snapshot nowMs, .ok state⟩,
            ⟨.recordSuccess, .ok recovered⟩], recordsFailure c = false ∧ answerFailed c = false := by
          intro c hc
          simp only [List.mem_cons, List.not_mem_nil, or_false] at hc
          rcases hc with rfl | rfl | rfl <;> exact ⟨rfl, rfl⟩
        refine ⟨?_, ?_⟩
        · intro c hc
          rcases List.mem_append.mp (show c ∈ [_, _, _] ++ t₃ from hc) with hc | hc
          · exact (hfirst c hc).1
          · exact (soft_facts (hsoft c hc)).2.2
        · rcases runs_reported h₃ with ⟨hok, hanswers⟩ | ⟨herror, c, hc, hfailed⟩
          · refine .inl ⟨hok, ?_, hbreaker⟩
            intro c hc
            rcases List.mem_append.mp (show c ∈ [_, _, _] ++ t₃ from hc) with hc | hc
            · exact (hfirst c hc).2
            · exact hanswers c hc
          · exact .inr ⟨herror, c, List.mem_append_right [_, _, _] hc, hfailed⟩

/-- what is in front of a trace without a step in it does not matter -/
theorem Went.cons {b b' : OfflinePaySettlementCircuitBreaker} {c : Answered Effect LedgerError}
    (hc : stepFailed c = false ∧ approved c = false ∧ answerFailed c = false ∧ recordsFailure c = false)
    (h : Went bopts b t b') : Went bopts b (c :: t) b' := by
  have hstep : failedAt (c :: t) = failedAt t := by
    rw [failedAt, hc.1]
    rfl
  have happroved : (c :: t).any approved = t.any approved := by
    rw [List.any_cons, hc.2.1, Bool.false_or]
  cases h with
  | quiet h₁ h₂ hb => exact .quiet (hstep.trans h₁) (happroved.trans h₂) hb
  | failed nowMs h₁ h₂ hb => exact .failed nowMs (hstep.trans h₁) (happroved.trans h₂) hb
  | done h₁ h₂ h₃ hb =>
    exact .done (happroved.trans h₁) (List.forall_mem_cons.mpr ⟨hc.2.2.1, h₂⟩)
      (List.forall_mem_cons.mpr ⟨hc.2.2.2, h₃⟩) hb
  | spoiled h₁ h₂ h₃ =>
    obtain ⟨d, hd, hanswer⟩ := h₂
    obtain ⟨e, he, hrecords⟩ := h₃
    exact .spoiled (happroved.trans h₁) ⟨d, List.mem_cons_of_mem _ hd, hanswer⟩
      ⟨e, List.mem_cons_of_mem _ he, hrecords⟩

/-- a step that fails is recorded by the `catch` -/
theorem went_of_failed {α : Type} {stage : String} {error : LedgerError} {o : Except LedgerError α}
    {c : Answered Effect LedgerError} (hc : stepFailed c = true)
    (h : Runs (Handles bopts) (failed opts input stage error) w t o w') :
    Went bopts w.breaker (c :: t) w'.breaker := by
  obtain ⟨_, nowMs, r, rest, rfl, hsoft, hbreaker⟩ := runs_failed h
  have happroved : approved c = false := by
    obtain ⟨call, answer⟩ := c
    cases call with
    | approve =>
      cases answer with
      | ok => cases hc
      | error => rfl
    | _ => rfl
  refine .failed nowMs ?_ ?_ hbreaker
  · rw [failedAt, hc]
    rfl
  · rw [List.any_cons, List.any_cons, List.any_cons, any_approved_soft hsoft, happroved]
    rfl

/-- a step of a dispatch is answered, or its failure is recorded -/
theorem runs_step {α : Type} {call : Effect α} {stage : String} {f : α → Async HandleResult}
    {o : Except LedgerError HandleResult}
    (h : Runs (Handles bopts) ((perform call).tryCatch (failed opts input stage) >>= f) w t o w')
    (hcall : Effect.Step call) : Went bopts w.breaker t w'.breaker ∨
      ∃ a t', t = ⟨call, .ok a⟩ :: t' ∧ Runs (Handles bopts) (f a) w t' o w' := by
  obtain ⟨hfails, hhandled⟩ := step_facts hcall
  rcases runs_bind.mp h with ⟨e, hfirst, rfl⟩ | ⟨a, w₁, t₁, t₂, h₁, h₂, rfl⟩
  · rcases runs_tryCatch.mp hfirst with ⟨_, _, hok⟩ | ⟨e', w₁, t₁, t₂, hrun, hfailed, rfl⟩
    · cases hok
    · obtain ⟨rfl, hmoved⟩ := runs_perform.mp hrun
      obtain rfl := hhandled _ _ _ _ hmoved
      exact .inl (went_of_failed (hfails e') hfailed)
  · rcases runs_tryCatch.mp h₁ with ⟨_, hrun, hok⟩ | ⟨e', w₂, t₃, t₄, _, hfailed, _⟩
    · obtain ⟨rfl, hmoved⟩ := runs_perform.mp hrun
      cases hok
      obtain rfl := hhandled _ _ _ _ hmoved
      exact .inr ⟨a, t₂, rfl, h₂⟩
    · obtain ⟨⟨_, herror⟩, _⟩ := runs_failed hfailed
      cases herror

/-- the last part of a dispatch -/
theorem runs_approval {toAddress withdrawalId : String} {o : Except LedgerError HandleResult}
    (h : Runs (Handles bopts) ((approveAndSettle opts input toAddress withdrawalId).tryCatch
      (failed opts input "withdraw.approve")) w t o w') : Went bopts w.breaker t w'.breaker := by
  rcases runs_tryCatch.mp h with ⟨a, hrun, rfl⟩ | ⟨e, w₁, t₁, t₂, hrun, hfailed, rfl⟩
  · rcases runs_perform_bind.mp hrun with ⟨e, _, _, hok⟩ | ⟨result, w₁, t₁, rfl, h₁, rfl⟩
    · cases hok
    · obtain ⟨hrecords, ⟨_, hanswers, hbreaker⟩ | ⟨⟨_, herror⟩, _⟩⟩ := runs_settled h₁
      · exact .done rfl (List.forall_mem_cons.mpr ⟨rfl, hanswers⟩) (List.forall_mem_cons.mpr ⟨rfl, hrecords⟩)
          hbreaker
      · cases herror
  · rcases runs_perform_bind.mp hrun with ⟨e', rfl, rfl, _⟩ | ⟨result, w₂, t₃, rfl, h₁, rfl⟩
    · exact went_of_failed rfl hfailed
    · obtain ⟨_, nowMs, r, rest, rfl, _⟩ := runs_failed hfailed
      obtain ⟨_, ⟨⟨_, hok⟩, _⟩ | ⟨_, c, hc, hanswer⟩⟩ := runs_settled h₁
      · cases hok
      · exact .spoiled rfl ⟨c, List.mem_append_left _ (List.mem_cons_of_mem _ hc), hanswer⟩
          ⟨⟨.recordFailure nowMs, r⟩, List.mem_append_right _ (List.mem_cons_of_mem _ List.mem_cons_self), rfl⟩

theorem runs_dispatch {toAddress : String} {o : Except LedgerError HandleResult}
    (h : Runs (Handles bopts) (dispatch opts input toAddress) w t o w') :
    Went bopts w.breaker t w'.breaker := by
  rcases runs_step h trivial with hwent | ⟨request, t₁, rfl, h₁⟩
  · exact hwent
  · refine Went.cons ⟨rfl, rfl, rfl, rfl⟩ ?_
    rcases runs_step h₁ trivial with hwent | ⟨confirmed, t₂, rfl, h₂⟩
    · exact hwent
    · exact Went.cons ⟨rfl, rfl, rfl, rfl⟩ (runs_approval h₂)

theorem Went.of_soft (h : ∀ c ∈ t, Effect.Soft c.call) (hb : w'.breaker = w.breaker) :
    Went bopts w.breaker t w'.breaker :=
  .quiet (failedAt_of_none fun c hc => (soft_facts (h c hc)).1) (any_approved_soft h) hb

theorem runs_execute {o : Except LedgerError HandleResult}
    (h : Runs (Handles bopts) (execute opts input) w t o w') : Went bopts w.breaker t w'.breaker := by
  have hskip : ∀ (action : String) (extra : List (String × String)) (r : HandleResult),
      Runs (Handles bopts) (appendAudit input action extra >>= fun _ => (pure r : Async HandleResult)) w t o w' →
      Went bopts w.breaker t w'.breaker := by
    intro action extra r hrun
    have honly : (appendAudit input action extra >>= fun _ => (pure r : Async HandleResult)).Only Effect.Soft :=
      (only_appendAudit action extra).bind fun _ => Only.pure _
    exact .of_soft (hrun.only honly) (soft_breaker hrun honly)
  unfold execute at h
  dsimp only at h
  split at h
  · exact hskip _ _ _ h
  · split at h
    · exact hskip _ _ _ h
    · split at h
      · exact hskip _ _ _ h
      · exact runs_dispatch h

/-- a call of `handle` reads the clock and asks the breaker, and then goes one of the ways -/
theorem runs_handle {o : Except LedgerError HandleResult}
    (h : Runs (Handles bopts) (handle opts input) w t o w') :
    (∃ nowMs, t.findSome? reading = some nowMs ∧
      (Refused ⟨t, o⟩ ↔ w.breaker.canExecute nowMs = false)) ∧ Went bopts w.breaker t w'.breaker := by
  rcases runs_perform_bind.mp h with ⟨e, _, ⟨_, _, hr, _⟩, _⟩ | ⟨nowMs, w₁, t₁, ⟨_, _, _, hw₁⟩, h₁, rfl⟩
  · cases hr
  · rcases runs_perform_bind.mp h₁ with ⟨e, _, ⟨hr, _⟩, _⟩ | ⟨canExecute, w₂, t₂, ⟨hr, rfl⟩, h₂, rfl⟩
    · cases hr
    · have hbreaker : w₂.breaker = w.breaker := by rw [hw₁]
      have hcan : canExecute = w.breaker.canExecute nowMs := by
        rw [← hbreaker]
        exact Except.ok.inj hr
      have hplain : ∀ {b b' : OfflinePaySettlementCircuitBreaker}, Went bopts b t₂ b' →
          Went bopts b (⟨.dateNow, .ok nowMs⟩ :: ⟨.canExecute nowMs, .ok canExecute⟩ :: t₂) b' := fun h =>
        (h.cons ⟨rfl, rfl, rfl, rfl⟩).cons ⟨rfl, rfl, rfl, rfl⟩
      cases canExecute with
      | true =>
        refine ⟨⟨nowMs, rfl, ?_⟩, ?_⟩
        · rw [← hcan]
          refine iff_of_false ?_ (by simp)
          rintro ⟨⟨t', t'', state, htrace⟩, _⟩
          simp at htrace
        · refine hplain ?_
          rw [if_pos rfl] at h₂
          split at h₂
          · obtain ⟨rfl, _, rfl⟩ := runs_throws.mp h₂
            exact .quiet rfl rfl hbreaker
          · rw [← hbreaker]
            exact runs_execute h₂
      | false =>
        rw [if_neg (by simp)] at h₂
        rcases runs_perform_bind.mp h₂ with ⟨e, _, ⟨_, _, hr, _⟩, _⟩ |
          ⟨nowMs', w₃, t₃, ⟨_, _, _, hw₃⟩, h₃, rfl⟩
        · cases hr
        · rcases runs_perform_bind.mp h₃ with ⟨e, _, ⟨hr, _⟩, _⟩ | ⟨state, w₄, t₄, ⟨_, rfl⟩, h₄, rfl⟩
          · cases hr
          · obtain ⟨rfl, rfl, rfl⟩ := runs_throws.mp h₄
            have hlast : w'.breaker = w.breaker := by rw [hw₃, hbreaker]
            refine ⟨⟨nowMs, rfl, ?_⟩, hplain (.quiet rfl rfl hlast)⟩
            exact iff_of_true ⟨⟨nowMs, nowMs', state, rfl⟩, rfl⟩ hcan.symm

/-! ## sessions -/

theorem failuresSince_concat (fs : List Call) (f : Call) :
    failuresSince (fs ++ [f]) =
      if dispatched f then [] else failuresSince fs ++ (failedAt f.calls).toList := by
  rw [failuresSince, List.foldl_append]
  rfl

/-- the breaker keeps track of the history, as long as nothing fails after an approval -/
theorem Went.tracks {b b' : OfflinePaySettlementCircuitBreaker} {before : List Call} {f : Call}
    (h : Went bopts b f.calls b') (hclean : dispatched f = true → ∀ c ∈ f.calls, answerFailed c = false)
    (ht : b.Tracks bopts (failuresSince before)) : b'.Tracks bopts (failuresSince (before ++ [f])) := by
  rw [failuresSince_concat]
  cases h with
  | quiet hstep happroved hb =>
    rw [dispatched, happroved, if_neg (by simp), hstep, hb]
    simpa using ht
  | failed nowMs hstep happroved hb =>
    rw [dispatched, happroved, if_neg (by simp), hstep, hb]
    exact ht.recordFailure nowMs
  | done happroved _ _ hb =>
    rw [dispatched, happroved, if_pos rfl, hb]
    exact .recordSuccess b
  | spoiled happroved hanswers _ =>
    obtain ⟨c, hc, hanswer⟩ := hanswers
    rw [hclean happroved c hc] at hanswer
    cases hanswer

/-- a dispatch is recorded as a failure exactly when something in it failed -/
theorem Went.records_iff {b b' : OfflinePaySettlementCircuitBreaker} {f : Call}
    (h : Went bopts b f.calls b') (hdispatched : dispatched f = true) :
    (∀ c ∈ f.calls, recordsFailure c = false) ↔ ∀ c ∈ f.calls, answerFailed c = false := by
  cases h with
  | quiet _ happroved _ =>
    rw [dispatched, happroved] at hdispatched
    cases hdispatched
  | failed _ _ happroved _ =>
    rw [dispatched, happroved] at hdispatched
    cases hdispatched
  | done _ hanswers hrecords _ => exact iff_of_true hrecords hanswers
  | spoiled _ hanswers hrecords =>
    obtain ⟨c, hc, hanswer⟩ := hanswers
    obtain ⟨d, hd, hrecord⟩ := hrecords
    refine iff_of_false (fun hall => ?_) (fun hall => ?_)
    · rw [hall d hd] at hrecord
      cases hrecord
    · rw [hall c hc] at hanswer
      cases hanswer

/-- every call of a session goes one of the ways; with nothing failing after an approval, the breaker it
finds has tracked the calls before it -/
theorem session_went {inputs : List OfflinePaySettlementFinalizedEvent} {fs : List Call}
    (h : Session (Handles bopts) (inputs.map (handle opts)) w fs w') (past : List Call) :
    (∀ f ∈ fs, ∃ b b', Went bopts b f.calls b') ∧
    ((∀ f ∈ fs, dispatched f = true → ∀ c ∈ f.calls, answerFailed c = false) →
      w.breaker.Tracks bopts (failuresSince past) →
      ∀ before f after, fs = before ++ f :: after → ∃ t b, calledAt f = some t ∧
        (Refused f ↔ OfflinePaySettlementCircuitBreaker.canExecute b t = false) ∧
          b.Tracks bopts (failuresSince (past ++ before))) := by
  generalize hps : inputs.map (handle opts) = ps at h
  induction h generalizing inputs past with
  | nil w =>
    refine ⟨by simp, fun _ _ before f after hfs => ?_⟩
    simp at hfs
  | @cons p ps w w₁ w₂ g gs first rest ih =>
    obtain ⟨input, inputs, rfl, rfl, rfl⟩ := List.map_eq_cons_iff.mp hps
    obtain ⟨⟨nowMs, hcalled, hrefused⟩, hwent⟩ := runs_handle first
    obtain ⟨hall, htracks⟩ := ih (past ++ [g]) rfl
    refine ⟨?_, ?_⟩
    · intro f hf
      rcases List.mem_cons.mp hf with rfl | hf
      · exact ⟨_, _, hwent⟩
      · exact hall f hf
    · intro hclean ht before f after hfs
      cases before with
      | nil =>
        obtain ⟨rfl, rfl⟩ := List.cons.inj hfs
        refine ⟨nowMs, w.breaker, hcalled, hrefused, ?_⟩
        rw [List.append_nil]
        exact ht
      | cons d before =>
        obtain ⟨rfl, hrest⟩ := List.cons.inj hfs
        have hnext : w₁.breaker.Tracks bopts (failuresSince (past ++ [g])) :=
          hwent.tracks (hclean g List.mem_cons_self) ht
        have hlater := htracks (fun f hf => hclean f (List.mem_cons_of_mem _ hf)) hnext before f after hrest
        rwa [List.append_assoc] at hlater

end

/-- The breaker counts failed withdrawals only, exactly when in every dispatch whose three steps succeed
the alert and the audit log after them succeed too. -/
theorem breaker_counts_iff (opts : Options) (bopts : OfflinePaySettlementCircuitBreaker.Options)
    (inputs : List OfflinePaySettlementFinalizedEvent) (clock : ℤ) (fs : List Call) (w' : World)
    (h : Session (Handles bopts) (inputs.map (handle opts)) ⟨{}, clock⟩ fs w') :
    CountsFailures bopts fs ↔ ∀ f ∈ fs, dispatched f = true → ∀ c ∈ f.calls, answerFailed c = false := by
  obtain ⟨hwent, htracks⟩ := session_went h []
  constructor
  · rintro ⟨_, hrecords⟩ f hf hdispatched
    obtain ⟨b, b', hf'⟩ := hwent f hf
    exact (hf'.records_iff hdispatched).mp (hrecords f hf hdispatched)
  · intro hclean
    refine ⟨?_, ?_⟩
    · intro before f after hfs
      obtain ⟨t, b, hcalled, hrefused, hb⟩ := htracks hclean (.new bopts) before f after hfs
      exact ⟨t, hcalled, hrefused.trans (hb.refuses_iff t)⟩
    · intro f hf hdispatched
      obtain ⟨b, b', hf'⟩ := hwent f hf
      exact (hf'.records_iff hdispatched).mpr (hclean f hf hdispatched)

/-! ## a dispatch whose audit log fails -/

def exampleOptions : Options where
  withdraws := true
  alerts := false
  number := fun _ => .finite 1
  sha256 := fun _ => ""
  message := fun _ => ""

def exampleEvent : OfflinePaySettlementFinalizedEvent where
  proof := ⟨"s-1", "b-1", "col-1", "proof-1", "device-1", "hash-1", "hash-0", .finite 1, "nonce-1", "sig-1"⟩
  proofFingerprint := ""
  userId := "alice"
  assetCode := "KORI"
  amount := "1.000000"
  settlementStatus := "SETTLED"
  releaseAction := .release
  conflictDetected := false
  financiallyHonored := none
  toAddress := some "T-1"
  clientIp := none

def exampleWithdrawal : Withdrawal where
  withdrawalId := "w-1"
  userId := "alice"
  amount := 1000000
  toAddress := "T-1"
  status := .ledgerReserved
  idempotencyKey := "offline-pay:s-1"
  ledgerTxId := "tx-1"
  createdAt := ""
  riskLevel := .low
  riskScore := .finite 0
  riskFlags := []
  requiredApprovals := .finite 1
  approvalCount := 0
  clientIp := none
  deviceId := none

def exampleApproval : ApprovalDecisionResult where
  withdrawal := exampleWithdrawal
  approval := ⟨"a-1", "w-1", "offline_pay_consumer", .system, .opsOverride, none, ""⟩
  finalized := true

/-- the three steps and the start of the rest, up to the audit log -/
def exampleCalls (audited : Except LedgerError Unit) : List (Answered Effect LedgerError) :=
  [⟨.dateNow, .ok 0⟩, ⟨.canExecute 0, .ok true⟩,
    ⟨.request ⟨"alice", .finite 1, "T-1", "offline-pay:s-1", none, "device-1"⟩, .ok ⟨exampleWithdrawal, false⟩⟩,
    ⟨.confirmExternalAuth "w-1" "offline_pay" "" "offline_pay_consumer", .ok exampleWithdrawal⟩,
    ⟨.approve "w-1" "offline_pay_consumer" .system .opsOverride "offline pay settlement s-1",
      .ok exampleApproval⟩,
    ⟨.dateNow, .ok 0⟩, ⟨.snapshot 0, .ok ⟨false, 0, none, 0⟩⟩, ⟨.recordSuccess, .ok false⟩,
    ⟨.appendAuditLog ⟨"s-1", "offline_pay.execution.withdraw_requested", [("settlementId", "s-1"),
      ("batchId", "b-1"), ("proofId", "proof-1"), ("proofFingerprint", ""), ("deviceId", "device-1"),
      ("userId", "alice"), ("assetCode", "KORI"), ("withdrawalId", "w-1"), ("toAddress", "T-1")]⟩, audited⟩]

/-- with the audit log written -/
theorem breaker_counts_example :
    CountsFailures OfflinePaySettlementCircuitBreaker.DEFAULT_OPTIONS
        [⟨exampleCalls (.ok ()), .ok (.withdrawRequested "w-1")⟩] ↔
      ∀ f ∈ [(⟨exampleCalls (.ok ()), .ok (.withdrawRequested "w-1")⟩ : Call)], dispatched f = true →
        ∀ c ∈ f.calls, answerFailed c = false := by
  apply breaker_counts_iff exampleOptions _ [exampleEvent] 0 _ ⟨⟨0, none⟩, 0⟩
  refine .cons ?_ (.nil _)
  refine .calls ⟨0, le_refl _, rfl, rfl⟩ (.calls ⟨rfl, rfl⟩ ?_)
  refine .calls rfl (.calls rfl (.calls rfl ?_))
  refine .calls ⟨0, le_refl _, rfl, rfl⟩ (.calls ⟨rfl, rfl⟩ (.calls ⟨rfl, rfl⟩ ?_))
  exact .calls rfl (.returns _ _)

/-- one failure opens it -/
def impatient : OfflinePaySettlementCircuitBreaker.Options where
  failureThreshold := 1
  openCooldownMs := 5 * 60 * 1000
  reachable := by decide

def auditRefused : LedgerError := .plain "audit log is not available"

/-- the dispatch succeeded, and is recorded as a failure -/
def spoiledCall : Call where
  calls := exampleCalls (.error auditRefused) ++
    [⟨.dateNow, .ok 0⟩, ⟨.recordFailure 0, .ok (true, ⟨true, 1, some 300000, 300000⟩)⟩]
  outcome := .error auditRefused

def refusedCall : Call where
  calls := [⟨.dateNow, .ok 0⟩, ⟨.canExecute 0, .ok false⟩, ⟨.dateNow, .ok 0⟩,
    ⟨.snapshot 0, .ok ⟨true, 1, some 300000, 300000⟩⟩]
  outcome := .error circuitOpenError

/-- The withdrawal of a settlement is approved and its audit log fails; the next settlement is refused,
though no withdrawal has failed. -/
theorem audit_counts :
    Session (Handles impatient) ([exampleEvent, exampleEvent].map (handle exampleOptions)) ⟨{}, 0⟩
        [spoiledCall, refusedCall] ⟨⟨1, some 300000⟩, 0⟩ ∧
      dispatched spoiledCall = true ∧ failuresSince [spoiledCall] = [] ∧ Refused refusedCall ∧
      ¬ CountsFailures impatient [spoiledCall, refusedCall] := by
  have hrefused : Refused refusedCall := ⟨⟨0, 0, _, rfl⟩, rfl⟩
  have hfailures : failuresSince [spoiledCall] = [] := rfl
  refine ⟨?_, rfl, hfailures, hrefused, ?_⟩
  · have hfirst : Runs (Handles impatient) (handle exampleOptions exampleEvent) ⟨{}, 0⟩ spoiledCall.calls
        spoiledCall.outcome ⟨⟨1, some 300000⟩, 0⟩ := by
      refine .calls ⟨0, le_refl _, rfl, rfl⟩ (.calls ⟨rfl, rfl⟩ ?_)
      refine .calls rfl (.calls rfl (.calls rfl ?_))
      refine .calls ⟨0, le_refl _, rfl, rfl⟩ (.calls ⟨rfl, rfl⟩ (.calls ⟨rfl, rfl⟩ ?_))
      refine .calls rfl (.calls ⟨0, le_refl _, rfl, rfl⟩ (.calls ⟨rfl, rfl⟩ ?_))
      exact .throws _ _
    have hsecond : Runs (Handles impatient) (handle exampleOptions exampleEvent) ⟨⟨1, some 300000⟩, 0⟩
        refusedCall.calls refusedCall.outcome ⟨⟨1, some 300000⟩, 0⟩ := by
      refine .calls ⟨0, le_refl _, rfl, rfl⟩ (.calls ⟨rfl, rfl⟩ ?_)
      refine .calls ⟨0, le_refl _, rfl, rfl⟩ (.calls ⟨rfl, rfl⟩ ?_)
      exact .throws _ _
    exact .cons hfirst (.cons hsecond (.nil _))
  · rintro ⟨hcounts, _⟩
    obtain ⟨t, _, hiff⟩ := hcounts [spoiledCall] refusedCall [] rfl
    have hmany : 1 ≤ (failuresSince [spoiledCall]).length := (hiff.mp hrefused).1
    rw [hfailures] at hmany
    exact absurd hmany (by decide)

end OfflinePaySettlementConsumerService
