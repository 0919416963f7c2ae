import CoinManage.ExactNumbers
import CoinManage.Ledger.Types
import CoinManage.OfflinePay.Service
import CoinManage.Withdraw.Request

/-!
# The amounts services hand to the ledger

`WalletService.transfer`, and with it every service that parses an amount and hands it to the ledger,
which does not check it again.  In exact arithmetic an amount is handed on as what it is, or refused,
unless the parser's tolerance rounds it.

* `transfer_only`        which amounts the ledger is handed;
* `handed_amounts_iff`   all services at once;
* `nothing_is_handed`    a transfer of 10^-13 moves nothing.
-/

set_option linter.unusedSectionVars false

namespace WalletService
open Program

structure TransferRequest where
  fromUserId : Option String
  fromWalletAddress : Option String
  toUserId : Option String
  toWalletAddress : Option String
  amountKori : JsNumber
  idempotencyKey : String

/-- `wallet.transfered` -/
structure TransferedEvent where
  fromUserId : String
  fromWalletAddress : Option String
  toUserId : String
  toWalletAddress : Option String
  amountKori : JsNumber
  idempotencyKey : String

inductive Effect : Type → Type
  | resolveUserId (userId walletAddress : Option String) : Effect String
  | transfer (fromUserId toUserId : String) (amount : ℤ) (idempotencyKey : String) : Effect TransferResult
  | publishTransfered (event : TransferedEvent) : Effect Unit

abbrev Async (α : Type) := Program Effect LedgerError α

section
variable (parseAmount : JsNumber → Except LedgerError ℤ)

def transfer (input : TransferRequest) : Async TransferResult := do
  let fromUserId ← perform (.resolveUserId input.fromUserId input.fromWalletAddress)
  let toUserId ← perform (.resolveUserId input.toUserId input.toWalletAddress)
  match parseAmount input.amountKori with
  | .error e => throw e
  | .ok amount =>
    let result ← perform (.transfer fromUserId toUserId amount input.idempotencyKey)
    if result.duplicated then pure result
    else
      perform (.publishTransfered
        { fromUserId := fromUserId, fromWalletAddress := input.fromWalletAddress, toUserId := toUserId
          toWalletAddress := input.toWalletAddress, amountKori := input.amountKori
          idempotencyKey := input.idempotencyKey })
      return result

/-- the ledger is asked for transfers of such amounts only -/
def Effect.Hands (P : ℤ → Prop) : ∀ ⦃β : Type⦄, Effect β → Prop
  | _, .transfer _ _ amount _ => P amount
  | _, _ => True

theorem transfer_only {P : ℤ → Prop} (input : TransferRequest)
    (h : ∀ n, parseAmount input.amountKori = .ok n → P n) :
    (transfer parseAmount input).Only (Effect.Hands P) := by
  refine (Only.perform trivial).bind fun fromUserId => (Only.perform trivial).bind fun toUserId => ?_
  cases hparse : parseAmount input.amountKori with
  | error e => exact Only.throw e
  | ok n =>
    refine (Only.perform (h n hparse)).bind fun result => ?_
    split
    · exact Only.pure _
    · exact (Only.perform trivial).bind fun _ => Only.pure _

/-- the users are found, and the ledger is asked for the transfer -/
theorem transfer_hands {P : ℤ → Prop} {input : TransferRequest} {n : ℤ}
    (h : (transfer parseAmount input).Only (Effect.Hands P)) (hparse : parseAmount input.amountKori = .ok n) :
    P n := by
  have hnext := (h.after "").after ""
  simp only [hparse] at hnext
  exact hnext.first

end

end WalletService

namespace Exact
open Program

/-- Every service, whatever it is asked and whatever its calls answer, hands the ledger what the amount
is worth. -/
structure HandsWorth (amount : JsNumber) : Prop where
  transfer : ∀ input : WalletService.TransferRequest, input.amountKori = amount →
    (WalletService.transfer parseKoriAmount input).Only (WalletService.Effect.Hands (Worth amount))
  request : ∀ (rt : Runtime) (opts : WithdrawService.RequestOptions) (input : WithdrawService.WithdrawRequest),
    input.amountKori = amount → (WithdrawService.request rt opts parseKoriAmount input).Only
      (WithdrawService.RequestEffect.Hands (Worth amount))
  lockCollateral : ∀ (hasWalletSource : Bool) (input : OfflinePayService.LockRequest),
    numberOf input.amount = amount →
    (OfflinePayService.lockCollateral parseKoriAmount numberOf hasWalletSource input).Only
      (OfflinePayService.Effect.Hands (Worth amount))
  releaseCollateral : ∀ input : OfflinePayService.ReleaseRequest, numberOf input.amount = amount →
    (OfflinePayService.releaseCollateral parseKoriAmount numberOf input).Only
      (OfflinePayService.Effect.Hands (Worth amount))
  finalizeSettlement : ∀ (sha256 : List Char → String) (input : OfflinePay.FinalizeRequest),
    numberOf input.amount = amount →
    (OfflinePayService.finalizeSettlement parseKoriAmount numberOf sha256 input).Only
      (OfflinePayService.Effect.Hands (Worth amount))
  compensateSettlement : ∀ (toUpperCase : String → String) (input : OfflinePayService.CompensateRequest),
    numberOf input.amount = amount →
    (OfflinePayService.compensateSettlement parseKoriAmount numberOf toUpperCase input).Only
      (OfflinePayService.Effect.Hands (Worth amount))

theorem handsWorth_of_unambiguous {amount : JsNumber} (h : Unambiguous amount) : HandsWorth amount := by
  have hworth : ∀ n, parseKoriAmount amount = .ok n → Worth amount n := (parse_exact_iff amount).mpr h
  constructor
  · rintro input rfl
    exact WalletService.transfer_only parseKoriAmount input hworth
  · rintro rt opts input rfl
    exact WithdrawService.request_only rt opts parseKoriAmount input hworth
  · rintro hasWalletSource input rfl
    exact OfflinePayService.lockCollateral_only parseKoriAmount numberOf hasWalletSource input hworth
  · rintro input rfl
    exact OfflinePayService.releaseCollateral_only parseKoriAmount numberOf input hworth
  · rintro sha256 input rfl
    exact OfflinePayService.finalizeSettlement_only parseKoriAmount numberOf sha256 input hworth
  · rintro toUpperCase input rfl
    exact OfflinePayService.compensateSettlement_only parseKoriAmount numberOf toUpperCase input hworth

/-- what the ledger is asked for by a transfer of this amount -/
theorem worth_of_handsWorth {amount : JsNumber} (h : HandsWorth amount) :
    ∀ n, parseKoriAmount amount = .ok n → Worth amount n := fun _ hn =>
  WalletService.transfer_hands parseKoriAmount
    (h.transfer
      { fromUserId := none, fromWalletAddress := none, toUserId := none, toWalletAddress := none
        amountKori := amount, idempotencyKey := "" } rfl) hn

/-- What the parser accepts is worth what was asked for exactly when the amount is unambiguous, and then
the services hand on what it is worth; otherwise they do not. -/
theorem handed_amounts_iff (amount : JsNumber) :
    ((∀ n, parseKoriAmount amount = .ok n → Worth amount n) ↔ Unambiguous amount) ∧
      (HandsWorth amount ↔ Unambiguous amount) := by
  refine ⟨parse_exact_iff amount, ?_, handsWorth_of_unambiguous⟩
  intro h
  exact (parse_exact_iff amount).mp (worth_of_handsWorth h)

def dust : JsNumber := .finite (1 / 10 ^ 13)

/-- an amount of 10^-13 is accepted as nothing, and the transfer is handed to the ledger -/
theorem nothing_is_handed :
    parseKoriAmount dust = .ok 0 ∧ ¬ Worth dust 0 ∧
      ¬ (WalletService.transfer parseKoriAmount
        { fromUserId := some "alice", fromWalletAddress := none, toUserId := some "bob"
          toWalletAddress := none, amountKori := dust, idempotencyKey := "k" }).Only
        (WalletService.Effect.Hands (Worth dust)) := by
  have hparse : parseKoriAmount dust = .ok 0 := by
    apply parse_ok_iff.mpr
    refine ⟨1 / 10 ^ 13, rfl, by norm_num, ?_⟩
    rw [abs_of_nonneg (by norm_num)]
    norm_num
  have hworth : ¬ Worth dust 0 := fun h => absurd h.1 (by norm_num)
  exact ⟨hparse, hworth, fun h => hworth (WalletService.transfer_hands parseKoriAmount h hparse)⟩

end Exact
