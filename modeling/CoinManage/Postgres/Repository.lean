import CoinManage.Postgres.Schema

/-!
# The helpers of the Postgres repository

A method runs in one transaction, and runs are serial, so advisory locks and row locks do nothing
but refuse a text the server cannot take.  Every operation that moves money appends a journal and
then copies the projected balances of the users it concerns into `accounts`.

* `appendJournal`                 a journal and its postings;
* `getProjectedUserBalances`      a user's balances, from the postings;
* `syncUserAccountProjection`     their copy in `accounts`;
* `hydrateWithdrawal`             a withdrawal as callers see it.
-/

namespace Postgres

open DoubleEntry

abbrev Op (α : Type) := Method Db LedgerError α

def column {α : Type} (value : Except LedgerError α) : Op α := Method.ofExcept value

/-- a transaction that throws leaves the tables as they were; identifiers stay drawn -/
def withTransaction {α : Type} (work : Op α) : Op α :=
  Method.atomically (fun old new => { old with uuidsDrawn := new.uuidsDrawn }) work

/-- an `if (value)` on a text: absent and empty both count as false -/
def truthy : Option String → Option String
  | some "" => none
  | o => o

section
variable (pg : PgServer)

def randomUUID : Op String := fun s =>
  (.ok (pg.uuid s.uuidsDrawn), { s with uuidsDrawn := s.uuidsDrawn + 1 })

def randomUUIDs : Nat → Op (List String)
  | 0 => return []
  | n + 1 => do
    let id ← randomUUID pg
    let ids ← randomUUIDs n
    return id :: ids

/-- `pg_advisory_xact_lock(hashtext(key))` -/
def lockKey (key : String) : Op Unit := do
  let _ ← column (text key)
  return ()

def lockUsers : List String → Op Unit
  | [] => return ()
  | userId :: userIds => do
    lockKey ("account:" ++ userId)
    lockUsers userIds

/-! ## accounts -/

/-- the account's row, inserted with zero balances when there is none -/
def ensureAccount (userId nowIso : String) : Op Unit := do
  let id ← column (varchar 64 userId)
  let updatedAt ← column (timestamp pg nowIso)
  modify fun s =>
    if ∃ row ∈ s.accounts, row.userId = id then s
    else { s with accounts := s.accounts ++ [⟨id, .zero, .zero, updatedAt⟩] }

def getAccountForUpdate (userId : String) : Op AccountRow := do
  match (← get).accounts.find? fun row => row.userId = userId with
  | some row => return row
  | none => throw (.domain 500 "STATE_CORRUPTED" "account not found")

/-! ## projections -/

structure ProjectedBalances where
  balance : ℤ
  lockedBalance : ℤ
  updatedAt : Option String
  hasPostings : Bool

/-- `case when entry_side = 'credit' then amount when entry_side = 'debit' then -amount` -/
def LedgerPostingRow.signed (row : LedgerPostingRow) : ℤ :=
  match row.entrySide with
  | .debit => -row.amount.units
  | .credit => row.amount.units

/-- `max(created_at)` -/
def latest : List String → Option String
  | [] => none
  | time :: times =>
    match latest times with
    | none => some time
    | some other => if pg.timestampLe time other then some other else some time

def getProjectedUserBalances (userId : String) : Op ProjectedBalances := do
  let availableCode := (LedgerAccount.user userId .available).code
  let pendingCode := (LedgerAccount.user userId .withdrawPending).code
  let offlinePayPendingCode := (LedgerAccount.user userId .offlinePayPending).code
  let rows := (← get).ledgerPostings.filter fun row =>
    row.ledgerAccountCode ∈ [availableCode, pendingCode, offlinePayPendingCode]
  let balance ← Method.ofExcept (parseStoredKoriAmount (sumText (rows.map fun row =>
    if row.ledgerAccountCode = availableCode then row.signed else 0)))
  let lockedBalance ← Method.ofExcept (parseStoredKoriAmount (sumText (rows.map fun row =>
    if row.ledgerAccountCode = pendingCode then row.signed
    else if row.ledgerAccountCode = offlinePayPendingCode then row.signed
    else 0)))
  return ⟨balance, lockedBalance, latest pg (rows.map (·.createdAt)), decide (0 < rows.length)⟩

def getProjectedLedgerAccountBalance (account : LedgerAccount) : Op ℤ := do
  let rows := (← get).ledgerPostings.filter fun row => row.ledgerAccountCode = account.code
  Method.ofExcept (parseStoredKoriAmount (sumText (rows.map fun row =>
    if row.ledgerAccountCode = account.code then row.signed else 0)))

/-- `projected.hasPostings ? projected.balance : parseStoredKoriAmount(account.balance)` -/
def availableBalanceOf (account : AccountRow) (projected : ProjectedBalances) : Op ℤ :=
  if projected.hasPostings then return projected.balance
  else Method.ofExcept (parseStoredKoriAmount account.balance.text)

/-- the same of the locked balance -/
def lockedBalanceOf (account : AccountRow) (projected : ProjectedBalances) : Op ℤ :=
  if projected.hasPostings then return projected.lockedBalance
  else Method.ofExcept (parseStoredKoriAmount account.lockedBalance.text)

def syncUser (nowIso userId : String) : Op Unit := do
  let projected ← getProjectedUserBalances pg userId
  if projected.hasPostings then
    let balance ← column (Numeric.ofText (formatKoriAmount projected.balance))
    let lockedBalance ← column (Numeric.ofText (formatKoriAmount projected.lockedBalance))
    let updatedAt ← column (timestamp pg (projected.updatedAt.getD nowIso))
    modify fun s =>
      { s with
        accounts := s.accounts.map fun row =>
          if row.userId = userId then
            { row with balance := balance, lockedBalance := lockedBalance, updatedAt := updatedAt }
          else row }
  else return ()

def syncEach (nowIso : String) : List String → Op Unit
  | [] => return ()
  | userId :: userIds => do
    syncUser pg nowIso userId
    syncEach nowIso userIds

def syncUserAccountProjection (userIds : List String) (nowIso : String) : Op Unit :=
  syncEach pg nowIso userIds.dedup

/-! ## journals -/

structure LedgerPostingInput where
  ledgerAccountCode : String
  accountType : AccountType
  entrySide : Side
  amount : String

/-- a posting as the operations write it: the account, the side, the amount's text -/
def LedgerAccount.posting (account : LedgerAccount) (entrySide : Side) (amount : String) :
    LedgerPostingInput := ⟨account.code, account.type, entrySide, amount⟩

structure JournalInput where
  journalType : String
  referenceType : String
  referenceId : String
  currencyCode : Option String := none
  description : Option String
  nowIso : String
  postings : List LedgerPostingInput

def JournalInput.currency (input : JournalInput) : String := orElse input.currencyCode "KORI"

def journalRow (journalId : String) (input : JournalInput) : Except LedgerError LedgerJournalRow := do
  let journalId ← uuid pg journalId
  let journalType ← varchar 64 input.journalType
  let referenceType ← varchar 64 input.referenceType
  let referenceId ← varchar 64 input.referenceId
  let currencyCode ← varchar 16 input.currency
  let description ← nullable text input.description
  let createdAt ← timestamp pg input.nowIso
  return ⟨journalId, journalType, referenceType, referenceId, currencyCode, description, createdAt⟩

def postingRow (journalId nowIso postingId : String) (posting : LedgerPostingInput) :
    Except LedgerError LedgerPostingRow := do
  let postingId ← uuid pg postingId
  let journalId ← uuid pg journalId
  let ledgerAccountCode ← varchar 128 posting.ledgerAccountCode
  let amount ← Numeric.ofText posting.amount
  let createdAt ← timestamp pg nowIso
  return ⟨postingId, journalId, ledgerAccountCode, posting.entrySide, amount, createdAt⟩

def postingRows (journalId nowIso : String) :
    List String → List LedgerPostingInput → Except LedgerError (List LedgerPostingRow)
  | id :: ids, posting :: postings => do
    let row ← postingRow pg journalId nowIso id posting
    let rows ← postingRows journalId nowIso ids postings
    return row :: rows
  | _, _ => return []

def ensureLedgerAccount (posting : LedgerPostingInput) (currencyCode nowIso : String) : Op Unit := do
  let ledgerAccountCode ← column (varchar 128 posting.ledgerAccountCode)
  let currencyCode ← column (varchar 16 currencyCode)
  let createdAt ← column (timestamp pg nowIso)
  modify fun s =>
    if ∃ row ∈ s.ledgerAccounts, row.ledgerAccountCode = ledgerAccountCode then s
    else
      { s with
        ledgerAccounts :=
          s.ledgerAccounts ++ [⟨ledgerAccountCode, posting.accountType, currencyCode, createdAt⟩] }

def ensureLedgerAccounts (currencyCode nowIso : String) : List LedgerPostingInput → Op Unit
  | [] => return ()
  | posting :: postings => do
    ensureLedgerAccount pg posting currencyCode nowIso
    ensureLedgerAccounts currencyCode nowIso postings

def insertJournal (journalId : String) (input : JournalInput) : Op Unit := do
  let row ← column (journalRow pg journalId input)
  Method.throwWhen (∃ other ∈ (← get).ledgerJournals, other.journalId = row.journalId)
    (.database "23505")
  modify fun s => { s with ledgerJournals := s.ledgerJournals ++ [row] }

/-- one statement inserts all postings of a journal -/
def insertPostings (journalId nowIso : String) (postings : List LedgerPostingInput) : Op Unit := do
  let ids ← randomUUIDs pg postings.length
  let rows ← column (postingRows pg journalId nowIso ids postings)
  Method.throwWhen (¬ (((← get).ledgerPostings ++ rows).map (·.postingId)).Nodup) (.database "23505")
  modify fun s => { s with ledgerPostings := s.ledgerPostings ++ rows }

def appendJournal (input : JournalInput) : Op Unit := do
  let journalId ← randomUUID pg
  insertJournal pg journalId input
  ensureLedgerAccounts pg input.currency input.nowIso input.postings
  insertPostings pg journalId input.nowIso input.postings

/-- a journal with this reference -/
def Db.findJournal (s : Db) (referenceType referenceId : String) : Option LedgerJournalRow :=
  s.ledgerJournals.find? fun row =>
    row.referenceType = referenceType ∧ row.referenceId = referenceId

/-! ## events -/

/-- the texts of a payload -/
def payloadTexts : OutboxPayload → List String
  | .deposit c => [c.depositId, c.userId, c.walletAddress, c.txHash, c.toAddress, c.occurredAt]
  | .withdrawal c =>
    [c.withdrawalId, c.userId, c.toAddress, c.occurredAt] ++ c.txHash.toList ++
      c.externalAuthProvider.toList ++ c.externalAuthRequestId.toList
  | .offlinePay payload => payload.fields.flatMap fun field =>
    match field.2 with
    | .text s => [s]
    | _ => []

/-- `JSONB`: no null character in any of its texts -/
def jsonb {α : Type} (texts : α → List String) (value : α) : Except LedgerError α :=
  if ∃ s ∈ texts value, Char.ofNat 0 ∈ s.toList then .error (.database "22P05") else .ok value

def outboxRow (outboxEventId : String) (input : EnqueueInput) : Except LedgerError OutboxEvent := do
  let outboxEventId ← uuid pg outboxEventId
  let eventType ← varchar 100 input.eventType
  let aggregateType ← varchar 50 input.aggregateType
  let aggregateId ← varchar 64 input.aggregateId
  let payload ← jsonb payloadTexts input.payload
  let occurredAt ← timestamp pg input.occurredAt
  return EnqueueInput.toEvent ⟨eventType, aggregateType, aggregateId, payload, occurredAt⟩ outboxEventId

def enqueueOutboxEvent (input : EnqueueInput) : Op Unit := do
  let outboxEventId ← randomUUID pg
  let row ← column (outboxRow pg outboxEventId input)
  Method.throwWhen (∃ other ∈ (← get).outboxEvents, other.outboxEventId = row.outboxEventId)
    (.database "23505")
  modify fun s => { s with outboxEvents := s.outboxEvents ++ [row] }

/-! ## withdrawals as callers see them -/

def getWithdrawalForUpdate (withdrawalId : String) : Op WithdrawalRow := do
  let id ← column (uuid pg withdrawalId)
  match (← get).withdrawals.find? fun row => row.withdrawId = id with
  | some row => return row
  | none => throw (.domain 404 "NOT_FOUND" "withdrawal not found")

/-- `update withdrawals set .. where withdraw_id = ..` -/
def updateWithdrawal (withdrawalId : String) (change : WithdrawalRow → WithdrawalRow) : Op Unit := do
  let id ← column (uuid pg withdrawalId)
  modify fun s =>
    { s with
      withdrawals := s.withdrawals.map fun row => if row.withdrawId = id then change row else row }

def Db.approvalCount (s : Db) (withdrawId : String) : Nat :=
  (s.withdrawalApprovals.filter fun approval => approval.withdrawId = withdrawId).length

def mapWithdrawal (row : WithdrawalRow) (approvalCount : Nat) : Except LedgerError Withdrawal := do
  let amount ← parseStoredKoriAmount row.amount.text
  return {
    withdrawalId := row.withdrawId
    userId := row.userId
    amount := amount
    toAddress := row.toAddress
    status := row.status
    txHash := row.txHash
    idempotencyKey := row.idempotencyKey
    ledgerTxId := row.ledgerTxId
    createdAt := row.createdAt
    approvedAt := row.approvedAt
    broadcastedAt := row.broadcastedAt
    confirmedAt := row.confirmedAt
    failedAt := row.failedAt
    failReason := row.failReason
    riskLevel := row.riskLevel
    riskScore := .ofInt row.riskScore
    riskFlags := row.riskFlags
    requiredApprovals := .ofInt row.requiredApprovals
    approvalCount := approvalCount
    clientIp := row.clientIp
    deviceId := row.deviceId
    reviewRequiredAt := row.reviewRequiredAt
    externalAuthProvider := row.externalAuthProvider
    externalAuthRequestId := row.externalAuthRequestId
    externalAuthConfirmedAt := row.externalAuthConfirmedAt }

def hydrateWithdrawal (row : WithdrawalRow) : Op Withdrawal := do
  Method.ofExcept (mapWithdrawal row ((← get).approvalCount row.withdrawId))

/-- build the contract of the withdrawal as it now stands, then enqueue it -/
def announceWithdrawal (hydrated : Withdrawal) (aggregateId occurredAt : String) : Op Unit := do
  let contract ← Method.ofExcept
    (buildWithdrawalStateChangedContract pg.toRuntime hydrated occurredAt)
  enqueueOutboxEvent pg
    { eventType := "withdrawal.state.changed"
      aggregateType := "withdrawal"
      aggregateId := aggregateId
      payload := .withdrawal contract
      occurredAt := occurredAt }

end

end Postgres
