import CoinManage.Lib.Traces
import CoinManage.Withdraw.Service

/-!
# Withdrawal requests

`WithdrawService.request`: the policies, the guard and the risk assessment come before the ledger is
asked for the withdrawal.  The amount is parsed twice, for the guard and for the ledger.  What a number
is, and how an amount is parsed, is left open.

* `request_only`   which amounts the ledger is handed.
-/

set_option linter.unusedSectionVars false

namespace WithdrawService
open Program

structure WithdrawRequest where
  userId : Option String
  walletAddress : Option String
  amountKori : JsNumber
  toAddress : String
  idempotencyKey : String
  clientIp : Option String
  deviceId : Option String

structure RiskAssessment where
  level : RiskLevel
  score : Nat
  flags : List String
  requiredApprovals : Nat

structure RequestOptions extends Options where
  /-- `withdrawSingleLimitKori * 0.8` -/
  largeAmountFrom : ℚ
  /-- `withdrawSingleLimitKori * 0.25` -/
  mediumAmountFrom : ℚ
  /-- whether the lifecycle policy of virtual wallets is there -/
  checksLifecycle : Bool
  /-- `new Date(ms).toISOString()` -/
  toISOString : ℤ → String

/-- the calls of a request itself -/
inductive RequestCall : Type → Type
  | resolveUserId (userId walletAddress : Option String) : RequestCall String
  | assertWithdrawalAllowed (userId : String) (walletAddress : Option String) : RequestCall Unit
  | dateNow : RequestCall ℤ
  | listWithdrawalsByUser (userId : String) (limit : Nat) : RequestCall (List Withdrawal)
  | requestWithdrawal (userId : String) (amount : ℤ) (toAddress idempotencyKey : String)
      (risk : RiskAssessment) (clientIp deviceId : Option String) : RequestCall WithdrawalRequestResult
  | notifyWithdrawalRequested (withdrawalId userId amount toAddress : String) (riskLevel : RiskLevel)
      (requiredApprovals : JsNumber) : RequestCall Unit

/-- those, and the calls of the guard, the policies and the publisher -/
inductive RequestEffect (β : Type) : Type
  | own (call : RequestCall β)
  | service (call : Effect β)

abbrev RequestAsync (α : Type) := Program RequestEffect LedgerError α

def own {β : Type} (call : RequestCall β) : RequestAsync β := perform (.own call)

section
variable (rt : Runtime) (opts : RequestOptions) (parseAmount : JsNumber → Except LedgerError ℤ)

/-- what is thrown by the synchronous code -/
def ofExcept {α : Type} : Except LedgerError α → RequestAsync α
  | .ok a => pure a
  | .error e => throw e

/-- `WithdrawGuardService.assertRequestAllowed` -/
def assertRequestAllowed (toAddress : String) (amount : ℤ) : Async Unit := do
  assertDestinationAllowed opts.toOptions toAddress
  if opts.checksAddressPolicy then perform (.assertAddressAllowed toAddress) else pure ()
  if requiresOfflineSigning opts.toOptions amount then pure ()
  else
    assertHotWalletReady opts.toOptions "WITHDRAW_CIRCUIT_OPEN" "withdraw request circuit is open"

/-- `virtualWalletLifecyclePolicy?.assertWithdrawalAllowed(…)` -/
def assertLifecycleAllowed (userId : String) (walletAddress : Option String) : RequestAsync Unit :=
  if opts.checksLifecycle then own (.assertWithdrawalAllowed userId walletAddress) else pure ()

/-- `amount >= bound` -/
def atLeast (amount : JsNumber) (bound : ℚ) : Bool :=
  match amount with
  | .nan => false
  | .infinity negative => !negative
  | .finite q => decide (bound ≤ q)

/-- `/^(127\.0\.0\.1|::1|10\.|192\.168\.|172\.(1[6-9]|2\d|3[0-1])\.)/` -/
def isPrivateIp (ip : String) : Bool :=
  ["127.0.0.1", "::1", "10.", "192.168."].any (fun start => start.toList.isPrefixOf ip.toList) ||
    match ip.toList with
    | '1' :: '7' :: '2' :: '.' :: '1' :: c :: '.' :: _ => decide ('6' ≤ c ∧ c ≤ '9')
    | '1' :: '7' :: '2' :: '.' :: '2' :: c :: '.' :: _ => c.isDigit
    | '1' :: '7' :: '2' :: '.' :: '3' :: c :: '.' :: _ => decide ('0' ≤ c ∧ c ≤ '1')
    | _ => false

/-- the flags and scores of `assessRisk`, in the order of its tests -/
def riskFlags (input : WithdrawRequest) (recent : List Withdrawal) (recentHourThreshold recentDayThreshold : String) :
    List (String × Nat) :=
  let prior := recent.filter fun w => w.toAddress == input.toAddress
  let failedSince (ws : List Withdrawal) := ws.countP fun w =>
    w.status == .failed && decide (recentDayThreshold ≤ w.createdAt)
  (if atLeast input.amountKori opts.largeAmountFrom then [("large_amount", 60)]
    else if atLeast input.amountKori opts.mediumAmountFrom then [("medium_amount", 30)] else []) ++
  (match InMemoryLedger.truthy input.clientIp with
    | none => [("missing_ip", 20)]
    | some ip => if isPrivateIp ip then [] else [("external_ip", 10)]) ++
  (if InMemoryLedger.truthy input.deviceId = none then [("missing_device", 20)] else []) ++
  (if prior = [] then [("new_destination", 15)] else []) ++
  (if 1 ≤ failedSince prior then [("failed_destination_retry", 40)] else []) ++
  (if 2 ≤ failedSince recent then [("repeated_recent_failures", 25)] else []) ++
  (if 3 ≤ recent.countP fun w => decide (recentHourThreshold ≤ w.createdAt) then [("withdrawal_burst", 25)] else [])

def assessRisk (userId : String) (input : WithdrawRequest) : RequestAsync RiskAssessment := do
  let now ← own .dateNow
  let recentWithdrawals ← own (.listWithdrawalsByUser userId 100)
  let found := riskFlags opts input recentWithdrawals (opts.toISOString (now - 60 * 60 * 1000))
    (opts.toISOString (now - 24 * 60 * 60 * 1000))
  let score := (found.map Prod.snd).sum
  let level : RiskLevel := if 80 ≤ score then .high else if 40 ≤ score then .medium else .low
  return { level := level, score := score, flags := found.map Prod.fst
           requiredApprovals := if level = .low then 1 else 2 }

def request (input : WithdrawRequest) : RequestAsync WithdrawalRequestResult := do
  let userId ← own (.resolveUserId input.userId input.walletAddress)
  assertLifecycleAllowed opts userId input.walletAddress
  (assertUserWithdrawalNetworkAllowed opts.toOptions userId).lift .service
  let guarded ← ofExcept (parseAmount input.amountKori)
  (assertRequestAllowed opts input.toAddress guarded).lift .service
  let risk ← assessRisk opts userId input
  let amount ← ofExcept (parseAmount input.amountKori)
  let result ← own (.requestWithdrawal userId amount input.toAddress input.idempotencyKey risk
    input.clientIp input.deviceId)
  if result.duplicated then pure result
  else
    (publishWithdrawalStateChange rt result.withdrawal result.withdrawal.createdAt).lift .service
    perform (.service (.appendAuditLog
      { entityId := result.withdrawal.withdrawalId, action := "withdraw.requested", actorType := "user"
        actorId := userId }))
    own (.notifyWithdrawalRequested result.withdrawal.withdrawalId userId
      (formatKoriAmount result.withdrawal.amount) result.withdrawal.toAddress result.withdrawal.riskLevel
      result.withdrawal.requiredApprovals)
    return result

/-- the ledger is asked for amounts of this kind only -/
def RequestEffect.Hands (P : ℤ → Prop) : ∀ ⦃β : Type⦄, RequestEffect β → Prop
  | _, .own (.requestWithdrawal _ amount _ _ _ _ _) => P amount
  | _, _ => True

theorem only_service {α : Type} {P : ℤ → Prop} (p : Async α) :
    (p.lift RequestEffect.service).Only (RequestEffect.Hands P) :=
  Only.lift (fun _ => trivial) p

/-- what the parser accepts, it makes of the amount of the request -/
theorem request_only {P : ℤ → Prop} (input : WithdrawRequest)
    (h : ∀ n, parseAmount input.amountKori = .ok n → P n) :
    (request rt opts parseAmount input).Only (RequestEffect.Hands P) := by
  unfold request
  refine (Only.perform trivial).bind fun userId => ?_
  refine Only.bind ?_ fun _ => ?_
  · rw [assertLifecycleAllowed]
    split
    · exact Only.perform trivial
    · exact Only.pure _
  refine (only_service _).bind fun _ => ?_
  cases hparse : parseAmount input.amountKori with
  | error e => exact Only.throw e
  | ok n =>
    refine (Only.pure n).bind fun guarded => ?_
    refine (only_service _).bind fun _ => ?_
    refine Only.bind ?_ fun risk => ?_
    · exact (Only.perform trivial).bind fun _ => (Only.perform trivial).bind fun _ => Only.pure _
    · show Program.Only _ (Program.bind (pure n) _)
      refine (Only.perform (h n hparse)).bind fun result => ?_
      split
      · exact Only.pure _
      · refine (only_service _).bind fun _ => ?_
        refine (Only.perform trivial).bind fun _ => ?_
        exact (Only.perform trivial).bind fun _ => Only.pure _

end

end WithdrawService
