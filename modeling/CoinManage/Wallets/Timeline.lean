import CoinManage.Lib.StableSort
import CoinManage.Wallets.Bindings
import CoinManage.Ledger.SignedContracts

/-!
# The wallet timeline

`WalletService.getTimeline` asks the ledger for a user's newest deposits, withdrawals and internal
transfers, each sorted and cut by the ledger, turns them into entries, and sorts and cuts these again.

* `listDepositsByUser`, `listWithdrawalsByUser`, `listTransactionsByUser`   what the ledger answers;
* `WalletService.getTimeline`   the entries;
* `WalletService.history`       all entries of a user, nothing sorted or cut;
* `getTimeline_prefix`   the timeline is a prefix of the whole history, sorted once.
-/

namespace InMemoryLedger

section
variable (rt : Runtime) (s : InMemoryLedger)

def listWithdrawalsByUser (userId : String) (limit : Nat) : List Withdrawal :=
  ((s.withdrawals.values.filter fun withdrawal => withdrawal.userId = userId).insertionSort
    fun left right => rt.localeLe right.createdAt left.createdAt).take limit

def listDepositsByUser (userId : String) (limit : Nat) : List Deposit :=
  ((s.depositsByTxHash.values.filter fun deposit => deposit.userId = userId).insertionSort
    fun left right => rt.localeLe right.createdAt left.createdAt).take limit

def listTransactionsByUser (userId : String) (types : Option (List TransactionType))
    (limit : Option Nat) : List LedgerTransaction :=
  (((s.transactions.values.filter fun transaction => transaction.userId = userId).filter
    fun transaction => ∀ ts ∈ types, transaction.type ∈ ts).insertionSort
      fun left right => rt.localeLe right.createdAt left.createdAt).take (limit.getD 50)

end

end InMemoryLedger

inductive WithdrawalDisplayStatus where
  | submitted
  | underReview
  | approved
  | sending
  | completed
  | failed
  | rejected
  deriving DecidableEq, Repr

def mapWithdrawalDisplayStatus (withdrawal : Withdrawal) : WithdrawalDisplayStatus :=
  match withdrawal.status with
  | .ledgerReserved => .submitted
  | .pendingAdmin => if 0 < withdrawal.approvalCount then .underReview else .submitted
  | .adminApproved => .approved
  | .txBroadcasted => .sending
  | .completed => .completed
  | .failed => .failed
  | .rejected => .rejected

def TransactionStatus.text : TransactionStatus → String
  | .pending => "pending"
  | .confirmed => "confirmed"
  | .failed => "failed"

inductive WalletTimelineEntryType where
  | deposit
  | withdrawal
  | internalTransferIn
  | internalTransferOut
  deriving DecidableEq, Repr

structure WalletTimelineEntry where
  timelineId : String
  entryType : WalletTimelineEntryType
  amount : ℤ
  status : String
  createdAt : String
  txHash : Option String := none
  blockNumber : Option JsNumber := none
  counterpartyUserId : Option String := none
  toAddress : Option String := none
  depositId : Option String := none
  withdrawalId : Option String := none
  ledgerTxId : Option String := none
  displayStatus : Option WithdrawalDisplayStatus := none
  deriving DecidableEq

namespace WalletService
open InMemoryLedger

section
variable (rt : Runtime) (s : InMemoryLedger)

def ofDeposit (deposit : Deposit) : WalletTimelineEntry where
  timelineId := "deposit:" ++ deposit.depositId
  entryType := .deposit
  amount := deposit.amount
  status := deposit.status.text
  createdAt := deposit.createdAt
  txHash := some deposit.txHash
  blockNumber := some deposit.blockNumber
  depositId := some deposit.depositId

def ofWithdrawal (withdrawal : Withdrawal) : WalletTimelineEntry where
  timelineId := "withdrawal:" ++ withdrawal.withdrawalId
  entryType := .withdrawal
  amount := withdrawal.amount
  status := withdrawal.status.text
  createdAt := withdrawal.createdAt
  txHash := withdrawal.txHash
  toAddress := some withdrawal.toAddress
  withdrawalId := some withdrawal.withdrawalId
  ledgerTxId := some withdrawal.ledgerTxId
  displayStatus := some (mapWithdrawalDisplayStatus withdrawal)

def ofTransaction (transaction : LedgerTransaction) : WalletTimelineEntry where
  timelineId := "transaction:" ++ transaction.txId
  entryType :=
    if transaction.type = .internalTransferIn then .internalTransferIn else .internalTransferOut
  amount := transaction.amount
  status := transaction.status.text
  createdAt := transaction.createdAt
  txHash := transaction.blockTx
  counterpartyUserId := transaction.relatedUserId
  ledgerTxId := some transaction.txId

/-- `right.createdAt.localeCompare(left.createdAt) <= 0` -/
def newestFirst (left right : WalletTimelineEntry) : Prop :=
  rt.localeLe right.createdAt left.createdAt

instance : DecidableRel (newestFirst rt) := fun left right =>
  inferInstanceAs (Decidable (rt.localeLe right.createdAt left.createdAt = true))

def internalTransfers : List TransactionType := [.internalTransferIn, .internalTransferOut]

def getTimeline (userId walletAddress : Option String) (limit : Option Nat) :
    Except LedgerError (List WalletTimelineEntry) := do
  let userId ← s.resolveUserId userId walletAddress
  let limit := limit.getD 50
  let fetchLimit := min (limit * 2) 200
  let deposits := s.listDepositsByUser rt userId fetchLimit
  let withdrawals := s.listWithdrawalsByUser rt userId fetchLimit
  let transfers := s.listTransactionsByUser rt userId (some internalTransfers) (some fetchLimit)
  let entries :=
    deposits.map ofDeposit ++ (withdrawals.map ofWithdrawal ++ transfers.map ofTransaction)
  return (entries.insertionSort (newestFirst rt)).take limit

/-- `walletTimelineQuerySchema`: a whole number from 1 to 100, or none -/
def LimitAdmitted (limit : Option Nat) : Prop := ∀ l ∈ limit, 0 < l ∧ l ≤ 100

/-- everything the ledger has about a user: deposits, withdrawals and internal transfers, each in the
order the ledger recorded them -/
def history (userId : String) : List WalletTimelineEntry :=
  (s.depositsByTxHash.values.filter fun deposit => deposit.userId = userId).map ofDeposit ++
  ((s.withdrawals.values.filter fun withdrawal => withdrawal.userId = userId).map ofWithdrawal ++
  (s.transactions.values.filter fun transaction =>
    transaction.userId = userId ∧ transaction.type ∈ internalTransfers).map ofTransaction)

end

/-! ## what the ledger answers, as entries -/

section
variable {rt : Runtime} {s : InMemoryLedger}

/-- a source sorted by its own records is sorted by its entries -/
theorem map_newest {α : Type} (createdAt : α → String) (f : α → WalletTimelineEntry)
    (hf : ∀ a, (f a).createdAt = createdAt a) (l : List α) (n : Nat) :
    ((l.insertionSort fun left right => rt.localeLe (createdAt right) (createdAt left) = true).take
      n).map f = ((l.map f).insertionSort (newestFirst rt)).take n := by
  rw [List.map_take, List.map_insertionSort _ (newestFirst rt)]
  intro a _ b _
  rw [newestFirst, hf, hf]

theorem deposits_entries (userId : String) (n : Nat) :
    (s.listDepositsByUser rt userId n).map ofDeposit =
      (((s.depositsByTxHash.values.filter fun deposit => deposit.userId = userId).map
        ofDeposit).insertionSort (newestFirst rt)).take n := by
  rw [listDepositsByUser]
  exact map_newest (fun deposit : Deposit => deposit.createdAt) ofDeposit (fun _ => rfl) _ n

theorem withdrawals_entries (userId : String) (n : Nat) :
    (s.listWithdrawalsByUser rt userId n).map ofWithdrawal =
      (((s.withdrawals.values.filter fun withdrawal => withdrawal.userId = userId).map
        ofWithdrawal).insertionSort (newestFirst rt)).take n := by
  rw [listWithdrawalsByUser]
  exact map_newest (fun withdrawal : Withdrawal => withdrawal.createdAt) ofWithdrawal (fun _ => rfl) _ n

theorem transfers_entries (userId : String) (n : Nat) :
    (s.listTransactionsByUser rt userId (some internalTransfers) (some n)).map ofTransaction =
      (((s.transactions.values.filter fun transaction =>
        transaction.userId = userId ∧ transaction.type ∈ internalTransfers).map
          ofTransaction).insertionSort (newestFirst rt)).take n := by
  have hfilter : ((s.transactions.values.filter fun transaction => transaction.userId = userId).filter
      fun transaction => ∀ ts ∈ some internalTransfers, transaction.type ∈ ts) =
      s.transactions.values.filter fun transaction =>
        transaction.userId = userId ∧ transaction.type ∈ internalTransfers := by
    rw [List.filter_filter]
    apply List.filter_congr
    intro transaction _
    simp [Bool.and_comm]
  rw [listTransactionsByUser, hfilter]
  exact map_newest (fun transaction : LedgerTransaction => transaction.createdAt) ofTransaction
    (fun _ => rfl) _ n

end

/-- The timeline of a user is a prefix of their whole history, sorted once and stably by time, newest
first: no source is cut before an entry that belongs in it. -/
theorem getTimeline_prefix (rt : Runtime)
    (htrans : ∀ a b c, rt.localeLe a b → rt.localeLe b c → rt.localeLe a c)
    (htotal : ∀ a b, rt.localeLe a b ∨ rt.localeLe b a)
    (s : InMemoryLedger) (userId walletAddress : Option String) (limit : Option Nat)
    (hlimit : LimitAdmitted limit) :
    getTimeline rt s userId walletAddress limit =
      (s.resolveUserId userId walletAddress).map fun u =>
        ((history s u).insertionSort (newestFirst rt)).take (limit.getD 50) := by
  have htrans' : ∀ a b c, newestFirst rt a b → newestFirst rt b c → newestFirst rt a c :=
    fun a b c hab hbc => htrans _ _ _ hbc hab
  have htotal' : ∀ a b, newestFirst rt a b ∨ newestFirst rt b a := fun a b => htotal _ _
  -- every fetch is at least as long as the result
  have hfetch : limit.getD 50 ≤ min (limit.getD 50 * 2) 200 := by
    have hle : limit.getD 50 ≤ 100 := by
      cases limit with
      | none => show 50 ≤ 100; omega
      | some l => exact (hlimit l rfl).2
    omega
  rw [getTimeline]
  cases s.resolveUserId userId walletAddress with
  | error e => rfl
  | ok u =>
    apply congrArg Except.ok
    show _ = ((history s u).insertionSort (newestFirst rt)).take (limit.getD 50)
    rw [deposits_entries, withdrawals_entries, transfers_entries, history]
    apply List.take_insertionSort_cut htrans' htotal' hfetch
    apply List.take_insertionSort_cut htrans' htotal' hfetch
    rw [List.insertionSort_take_insertionSort htrans' htotal', List.take_take, min_eq_left hfetch]

/-- two deposits at one time and a withdrawal later, the timeline cut to two entries -/
def exampleLedger : InMemoryLedger :=
  runCalls (Call.step .numbered)
    [.applyDeposit
      { userId := "alice", amount := 5000000, txHash := "0xabc12345", toAddress := some "TAlice"
        walletAddress := none, blockNumber := 7, nowIso := "2026-01-01T00:00:00.000Z" },
     .applyDeposit
      { userId := "alice", amount := 1000000, txHash := "0xabc12346", toAddress := some "TAlice"
        walletAddress := none, blockNumber := 7, nowIso := "2026-01-01T00:00:00.000Z" },
     .requestWithdrawal
      { userId := "alice", amount := 2000000, toAddress := "TBob", idempotencyKey := "w-1"
        riskLevel := none, riskScore := none, riskFlags := none, requiredApprovals := none
        clientIp := none, deviceId := none, nowIso := "2026-01-01T00:00:01.000Z" }]
    (new ⟨10000000, 10000000⟩)

theorem getTimeline_prefix_example :
    getTimeline .numbered exampleLedger (some "alice") none (some 2) =
      .ok (((history exampleLedger "alice").insertionSort (newestFirst .numbered)).take 2) ∧
    (history exampleLedger "alice").length = 3 := by
  refine ⟨?_, by decide⟩
  have hlimit : LimitAdmitted (some 2) := by
    rintro l ⟨⟩
    omega
  have htotal : ∀ a b, Runtime.numbered.localeLe a b ∨ Runtime.numbered.localeLe b a := fun a b =>
    (Bool.or_eq_true _ _).mp (Contracts.numbered_total.total a b)
  exact getTimeline_prefix .numbered Contracts.numbered_total.trans htotal exampleLedger (some "alice") none
    (some 2) hlimit

end WalletService
