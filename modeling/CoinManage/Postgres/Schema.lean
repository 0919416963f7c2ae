import CoinManage.Lib.DoubleEntry
import CoinManage.Lib.Method
import CoinManage.Ledger.Outbox
import CoinManage.Postgres.Columns

/-!
# Tables

The tables the Postgres repository works on, each a list of rows in the order they were inserted.
Money is kept in `ledger_postings`; the balances in `accounts` are copies of what the postings
say.  A foreign key never fails here: every row is inserted after the row it refers to was
ensured or read in the same transaction.

* `LedgerAccount`   the ledger accounts the code posts to;
* `LedgerAccount.code_injective`   two of them never share a code, whatever the user ids are;
* `Db.balance`      what an account holds.
-/

namespace Postgres

open DoubleEntry

/-! ## ledger accounts -/

inductive Bucket where
  | available
  | withdrawPending
  | offlinePayPending
  deriving DecidableEq, Repr

def Bucket.text : Bucket → String
  | .available => "available"
  | .withdrawPending => "withdraw_pending"
  | .offlinePayPending => "offline_pay_pending"

inductive LedgerAccount where
  | user (userId : String) (bucket : Bucket)
  | depositClearing
  | balanceCreditSync
  | hotWallet
  | hotWalletTrx
  | withdrawNetworkFee
  | sweepNetworkFee
  | sweepSourceTrx
  | offlinePayClearing
  | offlinePayFee
  | offlinePayReconciliation
  deriving DecidableEq, Repr

/-- `ledger_account_code` -/
def LedgerAccount.code : LedgerAccount → String
  | .user userId bucket => "user:" ++ userId ++ ":" ++ bucket.text
  | .depositClearing => "system:asset:deposit_clearing"
  | .balanceCreditSync => "system:equity:foxya_balance_credit_sync"
  | .hotWallet => "system:asset:hot_wallet"
  | .hotWalletTrx => "system:asset:hot_wallet_trx"
  | .withdrawNetworkFee => "system:expense:withdraw_network_fee"
  | .sweepNetworkFee => "system:expense:sweep_network_fee"
  | .sweepSourceTrx => "system:asset:sweep_source_trx"
  | .offlinePayClearing => "system:asset:offline_pay_clearing"
  | .offlinePayFee => "system:revenue:offline_pay_fee"
  | .offlinePayReconciliation => "system:asset:offline_pay_reconciliation"

inductive AccountType where
  | asset
  | liability
  | equity
  | revenue
  | expense
  deriving DecidableEq, Repr

/-- the `account_type` an account is posted with -/
def LedgerAccount.type : LedgerAccount → AccountType
  | .user _ _ => .liability
  | .balanceCreditSync => .equity
  | .withdrawNetworkFee | .sweepNetworkFee => .expense
  | .offlinePayFee => .revenue
  | .depositClearing | .hotWallet | .hotWalletTrx | .sweepSourceTrx | .offlinePayClearing
  | .offlinePayReconciliation => .asset

def LedgerAccount.isUser : LedgerAccount → Bool
  | .user _ _ => true
  | _ => false

/-! ## codes tell accounts apart -/

theorem userCode_toList (userId : String) (bucket : Bucket) :
    (LedgerAccount.user userId bucket).code.toList =
      'u' :: 's' :: 'e' :: 'r' :: ':' :: (userId.toList ++ ':' :: bucket.text.toList) := by
  simp [LedgerAccount.code]

/-- the ninth character from the end -/
def ninthLast (s : String) : Option Char := s.toList.reverse[8]?

theorem ninthLast_userCode (userId : String) (bucket : Bucket) :
    ninthLast (LedgerAccount.user userId bucket).code = match bucket with
      | .available => some 'a'
      | .withdrawPending => some 'w'
      | .offlinePayPending => some 'y' := by
  rw [ninthLast, userCode_toList]
  cases bucket <;> simp [Bucket.text]

theorem userCode_injective {u v : String} {b c : Bucket}
    (h : (LedgerAccount.user u b).code = (LedgerAccount.user v c).code) : u = v ∧ b = c := by
  have hbucket : b = c := by
    have hlast := congrArg ninthLast h
    rw [ninthLast_userCode, ninthLast_userCode] at hlast
    cases b <;> cases c <;> first | rfl | exact absurd hlast (by decide)
  subst hbucket
  have hlist := congrArg String.toList h
  rw [userCode_toList, userCode_toList] at hlist
  simp only [List.cons.injEq, true_and] at hlist
  exact ⟨String.toList_injective (List.append_cancel_right hlist), rfl⟩

theorem userCode_head (u : String) (b : Bucket) :
    (LedgerAccount.user u b).code.toList.head? = some 'u' := by
  rw [userCode_toList]
  rfl

theorem LedgerAccount.code_injective : Function.Injective LedgerAccount.code := by
  intro a b h
  have hhead := congrArg (fun s => s.toList.head?) h
  cases a with
  | user u bu =>
    rw [userCode_head] at hhead
    cases b with
    | user v bv =>
      obtain ⟨rfl, rfl⟩ := userCode_injective h
      rfl
    | _ => exact absurd hhead (by decide)
  | _ =>
    cases b with
    | user v bv =>
      rw [userCode_head] at hhead
      exact absurd hhead (by decide)
    | _ => first | rfl | exact absurd h (by decide)

/-! ## rows -/

structure AccountRow where
  userId : String
  balance : Numeric
  lockedBalance : Numeric
  updatedAt : String
  deriving DecidableEq

structure WalletAddressBindingRow where
  userId : String
  walletAddress : String
  createdAt : String
  deriving DecidableEq

structure TransactionRow where
  txId : String
  userId : String
  type : TransactionType
  amount : Numeric
  status : TransactionStatus
  blockTx : Option String
  idempotencyKey : Option String
  relatedUserId : Option String
  createdAt : String
  deriving DecidableEq

structure DepositRow where
  depositId : String
  userId : String
  txHash : String
  amount : Numeric
  status : DepositStatus
  blockNumber : ℤ
  createdAt : String
  deriving DecidableEq

structure WithdrawalRow where
  withdrawId : String
  userId : String
  amount : Numeric
  toAddress : String
  status : WithdrawalStatus
  txHash : Option String
  idempotencyKey : String
  ledgerTxId : String
  createdAt : String
  approvedAt : Option String
  broadcastedAt : Option String
  confirmedAt : Option String
  failedAt : Option String
  failReason : Option String
  riskLevel : RiskLevel
  riskScore : ℤ
  riskFlags : List String
  requiredApprovals : ℤ
  clientIp : Option String
  deviceId : Option String
  reviewRequiredAt : Option String
  externalAuthProvider : Option String
  externalAuthRequestId : Option String
  externalAuthConfirmedAt : Option String
  deriving DecidableEq

structure WithdrawalApprovalRow where
  approvalId : String
  withdrawId : String
  adminId : String
  actorType : ActorType
  reasonCode : ApprovalReasonCode
  note : Option String
  createdAt : String
  deriving DecidableEq

structure LedgerAccountRow where
  ledgerAccountCode : String
  accountType : AccountType
  currencyCode : String
  createdAt : String
  deriving DecidableEq

structure LedgerJournalRow where
  journalId : String
  journalType : String
  referenceType : String
  referenceId : String
  currencyCode : String
  description : Option String
  createdAt : String
  deriving DecidableEq

structure LedgerPostingRow where
  postingId : String
  journalId : String
  ledgerAccountCode : String
  entrySide : Side
  amount : Numeric
  createdAt : String
  deriving DecidableEq

structure NetworkFeeReceiptRow where
  feeReceiptId : String
  referenceType : FeeReferenceType
  referenceId : String
  txHash : String
  feeSun : ℤ
  energyUsed : ℤ
  bandwidthUsed : ℤ
  confirmedAt : String
  createdAt : String
  deriving DecidableEq

inductive SweepStatus where
  | planned
  | queued
  | broadcasted
  | confirmed
  | failed
  | skipped
  deriving DecidableEq, Repr

structure SweepRecordRow where
  sweepId : String
  sourceWalletCode : String
  sourceAddress : String
  targetAddress : String
  amount : Numeric
  status : SweepStatus
  externalRef : Option String
  txHash : Option String
  note : Option String
  createdAt : String
  broadcastedAt : Option String
  confirmedAt : Option String
  attemptCount : ℤ
  queuedAt : Option String
  lastAttemptAt : Option String
  deriving DecidableEq

inductive DeviceStatus where
  | active
  | revoked
  deriving DecidableEq, Repr

structure OfflinePayDeviceRow where
  deviceId : String
  userId : String
  status : DeviceStatus
  deriving DecidableEq

/-- the tables, and how many identifiers the process has drawn -/
structure Db where
  accounts : List AccountRow
  walletAddressBindings : List WalletAddressBindingRow
  transactions : List TransactionRow
  deposits : List DepositRow
  withdrawals : List WithdrawalRow
  withdrawalApprovals : List WithdrawalApprovalRow
  ledgerAccounts : List LedgerAccountRow
  ledgerJournals : List LedgerJournalRow
  ledgerPostings : List LedgerPostingRow
  networkFeeReceipts : List NetworkFeeReceiptRow
  sweepRecords : List SweepRecordRow
  offlinePayDevices : List OfflinePayDeviceRow
  outboxEvents : List OutboxEvent
  uuidsDrawn : Nat

/-- the migrated database before its first row -/
def Db.empty : Db := ⟨[], [], [], [], [], [], [], [], [], [], [], [], [], 0⟩

/-! ## what accounts hold -/

def LedgerPostingRow.toPosting (row : LedgerPostingRow) : Posting String ℤ :=
  ⟨row.ledgerAccountCode, row.entrySide, row.amount.units⟩

def Db.postings (s : Db) : List (Posting String ℤ) := s.ledgerPostings.map LedgerPostingRow.toPosting

/-- credits minus debits of an account -/
def Db.balance (s : Db) (a : LedgerAccount) : ℤ := DoubleEntry.balance a.code s.postings

def Db.available (s : Db) (userId : String) : ℤ := s.balance (.user userId .available)

def Db.withdrawPending (s : Db) (userId : String) : ℤ := s.balance (.user userId .withdrawPending)

def Db.offlinePayPending (s : Db) (userId : String) : ℤ :=
  s.balance (.user userId .offlinePayPending)

end Postgres
