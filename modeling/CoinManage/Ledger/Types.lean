import CoinManage.Money

/-!
# Records of the ledger

The records both ledgers keep and return.  Amounts are integers of 10^-6 KORI; timestamps are
the texts the callers pass (`nowIso`).
-/

inductive TransactionType where
  | deposit
  | withdraw
  | payment
  | internalTransferIn
  | internalTransferOut
  deriving DecidableEq, Repr

inductive TransactionStatus where
  | pending
  | confirmed
  | failed
  deriving DecidableEq, Repr

structure Account where
  userId : String
  walletAddress : Option String
  balance : ℤ
  lockedBalance : ℤ
  updatedAt : String
  deriving DecidableEq, Repr

structure WalletBinding where
  userId : String
  walletAddress : String
  createdAt : String
  deriving DecidableEq, Repr

structure LedgerTransaction where
  txId : String
  userId : String
  type : TransactionType
  amount : ℤ
  status : TransactionStatus
  blockTx : Option String := none
  relatedUserId : Option String := none
  idempotencyKey : Option String := none
  createdAt : String
  deriving DecidableEq, Repr

inductive DepositStatus where
  | detected
  | confirmed
  | credited
  | completed
  deriving DecidableEq, Repr

structure Deposit where
  depositId : String
  userId : String
  txHash : String
  amount : ℤ
  status : DepositStatus
  blockNumber : JsNumber
  createdAt : String
  deriving DecidableEq

structure ExternalCreditApplyResult where
  creditId : String
  userId : String
  amount : ℤ
  currencyCode : String
  journalType : String
  referenceType : String
  referenceId : String
  duplicated : Bool
  createdAt : String
  deriving DecidableEq, Repr

inductive WithdrawalStatus where
  | ledgerReserved
  | pendingAdmin
  | adminApproved
  | txBroadcasted
  | completed
  | failed
  | rejected
  deriving DecidableEq, Repr

def WithdrawalStatus.text : WithdrawalStatus → String
  | .ledgerReserved => "LEDGER_RESERVED"
  | .pendingAdmin => "PENDING_ADMIN"
  | .adminApproved => "ADMIN_APPROVED"
  | .txBroadcasted => "TX_BROADCASTED"
  | .completed => "COMPLETED"
  | .failed => "FAILED"
  | .rejected => "REJECTED"

/-- `ACTIVE_WITHDRAWAL_STATUSES` -/
def WithdrawalStatus.isActive : WithdrawalStatus → Bool
  | .ledgerReserved | .pendingAdmin | .adminApproved | .txBroadcasted => true
  | .completed | .failed | .rejected => false

/-- `DAILY_LIMIT_WITHDRAWAL_STATUSES` -/
def WithdrawalStatus.countsForDailyLimit (status : WithdrawalStatus) : Bool :=
  status.isActive || status == .completed

inductive RiskLevel where
  | low
  | medium
  | high
  deriving DecidableEq, Repr

structure Withdrawal where
  withdrawalId : String
  userId : String
  amount : ℤ
  toAddress : String
  status : WithdrawalStatus
  txHash : Option String := none
  idempotencyKey : String
  ledgerTxId : String
  createdAt : String
  approvedAt : Option String := none
  broadcastedAt : Option String := none
  confirmedAt : Option String := none
  failedAt : Option String := none
  failReason : Option String := none
  riskLevel : RiskLevel
  riskScore : JsNumber
  riskFlags : List String
  requiredApprovals : JsNumber
  approvalCount : Nat
  clientIp : Option String
  deviceId : Option String
  reviewRequiredAt : Option String := none
  externalAuthProvider : Option String := none
  externalAuthRequestId : Option String := none
  externalAuthConfirmedAt : Option String := none
  deriving DecidableEq

inductive ActorType where
  | admin
  | system
  deriving DecidableEq, Repr

inductive ApprovalReasonCode where
  | manualReviewPassed
  | highValueVerified
  | trustedDestinationVerified
  | accountActivityVerified
  | opsOverride
  deriving DecidableEq, Repr

structure WithdrawalApproval where
  approvalId : String
  withdrawalId : String
  adminId : String
  actorType : ActorType
  reasonCode : ApprovalReasonCode
  note : Option String
  createdAt : String
  deriving DecidableEq, Repr

structure ApprovalDecisionResult where
  withdrawal : Withdrawal
  approval : WithdrawalApproval
  finalized : Bool
  deriving DecidableEq

inductive FeeReferenceType where
  | withdrawal
  | sweep
  deriving DecidableEq, Repr

/-- what a receipt lookup reports about the fee of a transaction -/
structure NetworkFee where
  txHash : String
  feeSun : ℤ
  energyUsed : JsNumber
  bandwidthUsed : JsNumber
  deriving DecidableEq

structure NetworkFeeReceipt where
  feeReceiptId : String
  referenceType : FeeReferenceType
  referenceId : String
  txHash : String
  feeSun : ℤ
  energyUsed : JsNumber
  bandwidthUsed : JsNumber
  confirmedAt : String
  createdAt : String
  deriving DecidableEq

structure NetworkFeeJournal where
  snapshotDate : String
  referenceType : FeeReferenceType
  feeSun : ℤ
  createdAt : String
  deriving DecidableEq, Repr

structure DepositApplyResult where
  deposit : Deposit
  duplicated : Bool
  deriving DecidableEq

structure TransferResult where
  fromTx : LedgerTransaction
  toTx : LedgerTransaction
  duplicated : Bool
  deriving DecidableEq, Repr

structure WithdrawalRequestResult where
  withdrawal : Withdrawal
  duplicated : Bool
  deriving DecidableEq

structure WithdrawalLimitConfig where
  singleLimit : ℤ
  dailyLimit : ℤ
  deriving DecidableEq, Repr

/-! ## inputs of the operations -/

structure DepositInput where
  userId : String
  amount : ℤ
  txHash : String
  toAddress : Option String
  walletAddress : Option String
  blockNumber : JsNumber
  /-- the caller's `nowIso`, or the clock's reading where the caller gives none -/
  nowIso : String
  deriving DecidableEq

structure ExternalCreditInput where
  userId : String
  amount : ℤ
  currencyCode : String
  journalType : String
  referenceType : String
  referenceId : String
  description : Option String
  nowIso : String
  deriving DecidableEq, Repr

structure TransferInput where
  fromUserId : String
  toUserId : String
  amount : ℤ
  idempotencyKey : String
  nowIso : String
  deriving DecidableEq, Repr

structure WithdrawalInput where
  userId : String
  amount : ℤ
  toAddress : String
  idempotencyKey : String
  riskLevel : Option RiskLevel
  riskScore : Option JsNumber
  riskFlags : Option (List String)
  requiredApprovals : Option JsNumber
  clientIp : Option String
  deviceId : Option String
  nowIso : String
  deriving DecidableEq

structure ApprovalInput where
  adminId : String
  actorType : ActorType
  reasonCode : Option ApprovalReasonCode
  note : Option String
  deriving DecidableEq, Repr
