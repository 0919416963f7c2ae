import CoinManage.Postgres.Events

/-!
# Calls of the Postgres repository

A run is a list of calls, one transaction after the other, from the empty tables.

* `Does`               which events a call may make in a state;
* `Call.step_happened` every call makes such events, and the tables move as they say;
* `run_happened`       the same of a run, with `Db.Sound` kept throughout.
-/

namespace Postgres

open DoubleEntry

inductive Call where
  | applyDeposit (input : DepositInput)
  | completeDeposit (depositId : String)
  | applyExternalCredit (input : ExternalCreditInput)
  | transfer (input : TransferInput)
  | requestWithdrawal (input : WithdrawalInput)
  | confirmWithdrawalExternalAuth (withdrawalId provider requestId nowIso : String)
  | markWithdrawalReviewRequired (withdrawalId nowIso : String)
  | approveWithdrawal (withdrawalId : String) (input : ApprovalInput) (nowIso : String)
  | broadcastWithdrawal (withdrawalId txHash nowIso : String)
  | confirmWithdrawal (withdrawalId : String) (networkFee : Option NetworkFee) (nowIso : String)
  | failWithdrawal (withdrawalId reason nowIso : String)
  | createSweepRecord (input : SweepInput)
  | markSweepQueued (sweepId : String) (note : Option String) (nowIso : String)
  | recordSweepAttempt (sweepId : String) (note : Option String) (nowIso : String)
  | markSweepBroadcasted (sweepId txHash : String) (note : Option String) (nowIso : String)
  | failSweep (sweepId reason nowIso : String)
  | confirmSweep (sweepId : String) (note : Option String) (networkFee : Option NetworkFee)
      (nowIso : String)
  | lockOfflinePayCollateral (input : LockInput)
  | releaseOfflinePayCollateral (input : ReleaseInput)
  | finalizeOfflinePaySettlement (input : FinalizeInput)
  | compensateOfflinePaySettlement (input : CompensateInput)
  | upsertOfflinePayDevice (input : DeviceInput)
  | reconcileOfflinePayUserBalance (input : ReconcileInput)
  | reconcileOfflinePayPendingBalance (input : ReconcileInput)

/-- the tables after a call, whether it returned or threw -/
def Call.step (pg : PgServer) (limits : WithdrawalLimitConfig) : Call → Db → Db
  | .applyDeposit input, s => (Postgres.applyDeposit pg input s).2
  | .completeDeposit depositId, s => (Postgres.completeDeposit pg depositId s).2
  | .applyExternalCredit input, s => (Postgres.applyExternalCredit pg input s).2
  | .transfer input, s => (Postgres.transfer pg input s).2
  | .requestWithdrawal input, s => (Postgres.requestWithdrawal pg limits input s).2
  | .confirmWithdrawalExternalAuth withdrawalId provider requestId nowIso, s =>
    (Postgres.confirmWithdrawalExternalAuth pg withdrawalId provider requestId nowIso s).2
  | .markWithdrawalReviewRequired withdrawalId nowIso, s =>
    (Postgres.markWithdrawalReviewRequired pg withdrawalId nowIso s).2
  | .approveWithdrawal withdrawalId input nowIso, s =>
    (Postgres.approveWithdrawal pg withdrawalId input nowIso s).2
  | .broadcastWithdrawal withdrawalId txHash nowIso, s =>
    (Postgres.broadcastWithdrawal pg withdrawalId txHash nowIso s).2
  | .confirmWithdrawal withdrawalId networkFee nowIso, s =>
    (Postgres.confirmWithdrawal pg withdrawalId networkFee nowIso s).2
  | .failWithdrawal withdrawalId reason nowIso, s =>
    (Postgres.failWithdrawal pg withdrawalId reason nowIso s).2
  | .createSweepRecord input, s => (Postgres.createSweepRecord pg input s).2
  | .markSweepQueued sweepId note nowIso, s => (Postgres.markSweepQueued pg sweepId note nowIso s).2
  | .recordSweepAttempt sweepId note nowIso, s =>
    (Postgres.recordSweepAttempt pg sweepId note nowIso s).2
  | .markSweepBroadcasted sweepId txHash note nowIso, s =>
    (Postgres.markSweepBroadcasted pg sweepId txHash note nowIso s).2
  | .failSweep sweepId reason nowIso, s => (Postgres.failSweep pg sweepId reason nowIso s).2
  | .confirmSweep sweepId note networkFee nowIso, s =>
    (Postgres.confirmSweep pg sweepId note networkFee nowIso s).2
  | .lockOfflinePayCollateral input, s => (Postgres.lockOfflinePayCollateral pg input s).2
  | .releaseOfflinePayCollateral input, s => (Postgres.releaseOfflinePayCollateral pg input s).2
  | .finalizeOfflinePaySettlement input, s => (Postgres.finalizeOfflinePaySettlement pg input s).2
  | .compensateOfflinePaySettlement input, s =>
    (Postgres.compensateOfflinePaySettlement pg input s).2
  | .upsertOfflinePayDevice input, s => (Postgres.upsertOfflinePayDevice input s).2
  | .reconcileOfflinePayUserBalance input, s =>
    (Postgres.reconcileOfflinePayUserBalance pg input s).2
  | .reconcileOfflinePayPendingBalance input, s =>
    (Postgres.reconcileOfflinePayPendingBalance pg input s).2

/-- the amounts a call asks to move -/
def Call.amounts : Call → List ℤ
  | .applyDeposit input => [input.amount]
  | .applyExternalCredit input => [input.amount]
  | .transfer input => [input.amount]
  | .requestWithdrawal input => [input.amount]
  | .confirmWithdrawal _ networkFee _ | .confirmSweep _ _ networkFee _ =>
    (networkFee.map (·.feeSun)).toList
  | .lockOfflinePayCollateral input => [input.amount]
  | .releaseOfflinePayCollateral input => [input.amount]
  | .finalizeOfflinePaySettlement input => [input.amount]
  | .compensateOfflinePaySettlement input => [input.amount]
  | _ => []

/-- the events a call may make in a state, with what its checks have found -/
inductive Does (pg : PgServer) (s : Db) : Call → List Event → Prop
  | nothing (c : Call) : Does pg s c []
  | deposit (input : DepositInput) :
    Does pg s (.applyDeposit input) [.deposited input.userId input.amount]
  | credit (input : ExternalCreditInput) :
    Does pg s (.applyExternalCredit input) [.credited input.userId input.amount]
  | transfer (input : TransferInput) (h : input.amount ≤ s.available input.fromUserId) :
    Does pg s (.transfer input) [.transferred input.fromUserId input.toUserId input.amount]
  | reserve (input : WithdrawalInput) (h : input.amount ≤ s.available input.userId) :
    Does pg s (.requestWithdrawal input) [.reserved input.userId input.amount]
  | complete (withdrawalId : String) (networkFee : Option NetworkFee) (nowIso : String)
      (row : WithdrawalRow) (fees : List Event) (hid : uuid pg withdrawalId = .ok row.withdrawId)
      (hrow : row ∈ s.withdrawals) (hactive : row.status.isActive = true)
      (hfees : fees = [] ∨ ∃ fee, networkFee = some fee ∧ fees = [.withdrawFeePaid fee.feeSun]) :
    Does pg s (.confirmWithdrawal withdrawalId networkFee nowIso)
      (.completed row.userId row.amount.units :: fees)
  | fail (withdrawalId reason nowIso : String) (row : WithdrawalRow)
      (hid : uuid pg withdrawalId = .ok row.withdrawId) (hrow : row ∈ s.withdrawals)
      (hactive : row.status.isActive = true) :
    Does pg s (.failWithdrawal withdrawalId reason nowIso) [.failed row.userId row.amount.units]
  | sweepFee (sweepId : String) (note : Option String) (fee : NetworkFee) (nowIso : String) :
    Does pg s (.confirmSweep sweepId note (some fee) nowIso) [.sweepFeePaid fee.feeSun]
  | lock (input : LockInput) (h : input.amount ≤ s.available input.userId) :
    Does pg s (.lockOfflinePayCollateral input) [.locked input.userId input.amount]
  | release (input : ReleaseInput) (h : input.amount ≤ s.offlinePayPending input.userId) :
    Does pg s (.releaseOfflinePayCollateral input) [.released input.userId input.amount]
  | settle (input : FinalizeInput) (receiver : Option String)
      (haction : input.releaseAction = .release)
      (h : input.amount ≤ s.offlinePayPending input.userId) :
    Does pg s (.finalizeOfflinePaySettlement input)
      (.settled input.userId input.amount (settlementFee pg input) ::
        receiver.toList.map fun v => .receiverCredited v (receiverCreditAmount pg input))
  | adjust (input : FinalizeInput) (haction : input.releaseAction = .adjust)
      (h : input.amount ≤ s.offlinePayPending input.userId) :
    Does pg s (.finalizeOfflinePaySettlement input) [.released input.userId input.amount]
  | creditReceiver (input : FinalizeInput) (receiver : String) :
    Does pg s (.finalizeOfflinePaySettlement input)
      [.receiverCredited receiver (receiverCreditAmount pg input)]
  | compensate (input : CompensateInput) (haction : input.releaseAction = .release) :
    Does pg s (.compensateOfflinePaySettlement input) [.compensated input.userId input.amount]
  | relock (input : CompensateInput) (haction : input.releaseAction = .adjust)
      (hnew : ("offline_pay_settlement_compensation", input.settlementId) ∉ s.journalKeys) :
    Does pg s (.compensateOfflinePaySettlement input) [.relocked input.userId input.amount]
  | reconcile (input : ReconcileInput) :
    Does pg s (.reconcileOfflinePayUserBalance input) [.reconciled input.userId
      (input.target - (s.available input.userId +
        (s.withdrawPending input.userId + s.offlinePayPending input.userId)))]
  | reconcilePending (input : ReconcileInput) :
    Does pg s (.reconcileOfflinePayPendingBalance input) [.pendingReconciled input.userId
      (input.target - s.offlinePayPending input.userId)]

/-- what holds of the tables between calls -/
structure Db.Sound (s : Db) : Prop where
  copies : s.AccountsSound ∅
  distinct : (s.withdrawals.map (·.withdrawId)).Nodup
  amounts : ∀ row ∈ s.withdrawals, 0 ≤ row.amount.units
  holders : ∀ row ∈ s.withdrawals, row.userId.length ≤ 64 ∧ s.HasPostings row.userId

/-- the journals appended are those of the events; a journal without postings may stay behind -/
structure Journalled (s s' : Db) (es : List Event) (entries : List Entry) : Prop where
  wrote : Wrote s s' entries
  each : ∀ entry ∈ entries, entry.legs = [] ∨
    ∃ e ∈ es, entry.legs = mapAccounts LedgerAccount.code e.legs
  all : entries.flatMap Entry.legs = mapAccounts LedgerAccount.code (es.flatMap Event.legs)

/-- the tables moved as the events say -/
structure Happened (s s' : Db) (es : List Event) : Prop where
  journals : ∃ entries, Journalled s s' es entries
  standing : s'.standing = es.foldl Event.next s.standing
  sound : s'.Sound

section
variable {pg : PgServer} {limits : WithdrawalLimitConfig} {s s' : Db} {es : List Event}

/-! ## events one after the other -/

theorem foldl_next (es : List Event) (L : Standing) : es.foldl Event.next L =
    { balance := fun a => L.balance a + DoubleEntry.balance a (es.flatMap Event.legs)
      held := L.held + net (LedgerAccount.InBuckets allBuckets) (es.flatMap Event.legs)
      reserved := fun u => L.reserved u + (es.map (Event.reserves u)).sum
      deposited := L.deposited + (es.map Event.deposits).sum
      completed := L.completed + (es.map Event.completes).sum } := by
  induction es generalizing L with
  | nil => simp
  | cons e es ih =>
    rw [List.foldl_cons, ih]
    simp [Event.next, balance_append, net_append, add_assoc]

/-- events whose journals were appended and whose rows were written have happened -/
theorem Journalled.happened {entries : List Entry} (hj : Journalled s s' es entries) (hs : s.Sound)
    (hreserved : ∀ u, s'.reserved u = s.reserved u + (es.map (Event.reserves u)).sum)
    (hdeposited : s'.deposited = s.deposited + (es.map Event.deposits).sum)
    (hcompleted : s'.completed = s.completed + (es.map Event.completes).sum)
    (hdistinct : (s'.withdrawals.map (·.withdrawId)).Nodup)
    (hrows : ∀ row ∈ s'.withdrawals, 0 ≤ row.amount.units ∧ row.userId.length ≤ 64 ∧
      (s.HasPostings row.userId ∨ s'.HasPostings row.userId)) : Happened s s' es where
  journals := ⟨entries, hj⟩
  standing := by
    rw [foldl_next]
    have hbalance : s'.balance = fun a =>
        s.balance a + DoubleEntry.balance a (es.flatMap Event.legs) := by
      funext a
      exact hj.wrote.posted.balance hj.all a
    have hheld := hj.wrote.posted.heldIn hj.all allBuckets
    rw [Db.standing, hbalance, hheld, hdeposited, hcompleted, funext hreserved]
    rfl
  sound := {
    copies := hj.wrote.copies hs.copies
    distinct := hdistinct
    amounts := fun row hrow => (hrows row hrow).1
    holders := fun row hrow => by
      obtain ⟨-, hfits, hold | hnew⟩ := hrows row hrow
      · exact ⟨hfits, hj.wrote.posted.hasPostings hold⟩
      · exact ⟨hfits, hnew⟩ }

/-- the rows of the withdrawals as they were -/
theorem Db.Sound.rows (hs : s.Sound) : ∀ row ∈ s.withdrawals, 0 ≤ row.amount.units ∧
    row.userId.length ≤ 64 ∧ (s.HasPostings row.userId ∨ s'.HasPostings row.userId) := fun row hrow =>
  ⟨hs.amounts row hrow, (hs.holders row hrow).1, Or.inl (hs.holders row hrow).2⟩

/-- events that write neither withdrawals nor deposits -/
theorem Journalled.happened_quiet {entries : List Entry} (hj : Journalled s s' es entries)
    (hs : s.Sound) (hw : s'.withdrawals = s.withdrawals)
    (hd : s'.deposited = s.deposited)
    (hes : ∀ e ∈ es, (∀ u, e.reserves u = 0) ∧ e.deposits = 0 ∧ e.completes = 0) :
    Happened s s' es := by
  have hsum : ∀ f : Event → ℤ, (∀ e ∈ es, f e = 0) → (es.map f).sum = 0 := by
    intro f hf
    apply List.sum_eq_zero
    intro x hx
    obtain ⟨e, he, rfl⟩ := List.mem_map.mp hx
    exact hf e he
  apply hj.happened hs
  · intro u
    rw [Db.reserved, hw, hsum _ fun e he => (hes e he).1 u, add_zero]
    rfl
  · rw [hd, hsum _ fun e he => (hes e he).2.1, add_zero]
  · rw [Db.completed, hw, hsum _ fun e he => (hes e he).2.2, add_zero]
    rfl
  · rw [hw]
    exact hs.distinct
  · rw [hw]
    exact hs.rows

theorem Wrote.journalled_nothing (h : Wrote s s' []) : Journalled s s' [] [] where
  wrote := h
  each := fun _ h => (by cases h)
  all := rfl

/-- one journal, one event -/
theorem Wrote.journalled {input : JournalInput} {legs : List (Posting LedgerAccount ℤ)} {e : Event}
    (h : Wrote s s' [input.entry legs]) (hlegs : legs = e.legs) :
    Journalled s s' [e] [input.entry legs] where
  wrote := h
  each := by
    intro entry hentry
    rw [List.mem_singleton.mp hentry, hlegs]
    exact Or.inr ⟨e, List.mem_singleton_self _, rfl⟩
  all := by
    rw [List.flatMap_singleton, List.flatMap_singleton, hlegs]
    rfl

theorem happened_nothing (hs : s.Sound) (h : Wrote s s' []) (hw : s'.withdrawals = s.withdrawals)
    (hd : s'.deposited = s.deposited) : Happened s s' [] :=
  h.journalled_nothing.happened_quiet hs hw hd fun _ h => (by cases h)

/-! ## rows of withdrawals -/

/-- what a rewritten withdrawal does to a sum over withdrawals -/
theorem Db.Restated.sum {row : WithdrawalRow} {status : WithdrawalStatus}
    (h : s.Restated s' row status) (hdistinct : (s.withdrawals.map (·.withdrawId)).Nodup)
    {f : WithdrawalRow → ℤ} {x : ℤ}
    (hf : ∀ r : WithdrawalRow, r.userId = row.userId → r.amount = row.amount → r.status = status →
      f r = x) :
    (s'.withdrawals.map f).sum = (s.withdrawals.map f).sum - f row + x := by
  obtain ⟨hrow, change, hrows, hkeeps, hstatus⟩ := h
  rw [hrows, Rows.sum_update f hdistinct hrow, hf (change row) (hkeeps row).2.1 (hkeeps row).2.2.1 hstatus]

theorem Db.Restated.reserved {row : WithdrawalRow} {status : WithdrawalStatus}
    (h : s.Restated s' row status) (hdistinct : (s.withdrawals.map (·.withdrawId)).Nodup)
    (u : String) : s'.reserved u = s.reserved u -
      (if row.userId = u ∧ row.status.isActive = true then row.amount.units else 0) +
      (if row.userId = u ∧ status.isActive = true then row.amount.units else 0) := by
  rw [Db.reserved, Db.reserved, Rows.sum_filter, Rows.sum_filter, h.sum hdistinct]
  intro r hu ha hs
  rw [hu, ha, hs]

theorem Db.Restated.completed {row : WithdrawalRow} {status : WithdrawalStatus}
    (h : s.Restated s' row status) (hdistinct : (s.withdrawals.map (·.withdrawId)).Nodup) :
    s'.completed = s.completed - (if row.status = .completed then row.amount.units else 0) +
      (if status = .completed then row.amount.units else 0) := by
  rw [Db.completed, Db.completed, Rows.sum_filter, Rows.sum_filter, h.sum hdistinct]
  intro r _ ha hs
  rw [ha, hs]

theorem Db.Restated.distinct {row : WithdrawalRow} {status : WithdrawalStatus}
    (h : s.Restated s' row status) (hdistinct : (s.withdrawals.map (·.withdrawId)).Nodup) :
    (s'.withdrawals.map (·.withdrawId)).Nodup := by
  obtain ⟨-, change, hrows, hkeeps, -⟩ := h
  rw [hrows]
  exact Rows.nodup_update (fun r => (hkeeps r).1) hdistinct

theorem Db.Restated.rows {row : WithdrawalRow} {status : WithdrawalStatus}
    (h : s.Restated s' row status) (hs : s.Sound) : ∀ r ∈ s'.withdrawals, 0 ≤ r.amount.units ∧
      r.userId.length ≤ 64 ∧ (s.HasPostings r.userId ∨ s'.HasPostings r.userId) := by
  obtain ⟨-, change, hrows, hkeeps, -⟩ := h
  intro r hr
  rw [hrows] at hr
  obtain ⟨old, hold, rfl⟩ := List.mem_map.mp hr
  split
  · rw [(hkeeps old).2.2.1, (hkeeps old).2.1]
    exact hs.rows old hold
  · exact hs.rows old hold

theorem active_ne_completed {status : WithdrawalStatus} (h : status.isActive = true) :
    status ≠ .completed := by
  intro e
  rw [e] at h
  cases h

/-- a step of the lifecycle makes no event -/
theorem happened_advanced (hs : s.Sound) (h : Wrote s s' []) (hw : s.Advanced s')
    (hd : s'.deposits = s.deposits) : Happened s s' [] := by
  have hdeposited : s'.deposited = s.deposited := by rw [Db.deposited, hd, Db.deposited]
  rcases hw with hsame | ⟨row, status, hrestated, hactive, hactive'⟩
  · exact happened_nothing hs h hsame hdeposited
  · apply h.journalled_nothing.happened hs
    · intro u
      rw [hrestated.reserved hs.distinct, hactive, hactive']
      simp
    · simpa using hdeposited
    · rw [hrestated.completed hs.distinct, if_neg (active_ne_completed hactive),
        if_neg (active_ne_completed hactive')]
      simp
    · exact hrestated.distinct hs.distinct
    · exact hrestated.rows hs

/-! ## the calls -/

theorem happened_deposit {input : DepositInput} {r : DepositApplyResult}
    (hs : s.Sound) (h : applyDeposit pg input s = (.ok r, s')) :
    ∃ es, Does pg s (.applyDeposit input) es ∧ Happened s s' es := by
  rcases applyDeposit_ok h with ⟨-, -, -, -, -, rfl⟩ | h
  · exact ⟨[], .nothing _, happened_nothing hs (Wrote.refl _) rfl rfl⟩
  · obtain ⟨-, ⟨row, -, -, hamount, hdeposits⟩, hw, ⟨depositId, hwrote⟩, -⟩ := applyNewDeposit_ok h
    have hj := hwrote.journalled (e := .deposited input.userId input.amount) rfl
    refine ⟨_, .deposit input, hj.happened hs ?_ ?_ ?_ ?_ ?_⟩
    · intro u
      simp [Db.reserved, hw, Event.reserves]
    · simp [Db.deposited, hdeposits, hamount, Event.deposits]
    · simp [Db.completed, hw, Event.completes]
    · rw [hw]
      exact hs.distinct
    · rw [hw]
      exact hs.rows

theorem happened_completeDeposit (pg : PgServer) (depositId : String) (hs : s.Sound) :
    Happened s (completeDeposit pg depositId s).2 [] := by
  obtain ⟨rows, hrows, hamounts⟩ := completeDeposit_writes pg depositId s
  rw [hrows]
  refine happened_nothing hs (Wrote.of_eq rfl rfl rfl) rfl ?_
  have hmap := congrArg (fun xs => (xs.map Numeric.units).sum) hamounts
  simp only [List.map_map] at hmap
  exact hmap

theorem happened_credit {input : ExternalCreditInput} {r : ExternalCreditApplyResult}
    (hs : s.Sound) (h : applyExternalCredit pg input s = (.ok r, s')) :
    ∃ es, Does pg s (.applyExternalCredit input) es ∧ Happened s s' es := by
  obtain ⟨-, -, ⟨-, -, rfl⟩ | ⟨-, h⟩⟩ := applyExternalCredit_ok h
  · exact ⟨[], .nothing _, happened_nothing hs (Wrote.refl _) rfl rfl⟩
  · obtain ⟨-, hd, hw, hwrote⟩ := applyNewExternalCredit_ok h
    have hj := hwrote.journalled (e := .credited input.userId input.amount) rfl
    exact ⟨_, .credit input, hj.happened_quiet hs hw (by rw [Db.deposited, hd, Db.deposited])
      (by simp [Event.reserves, Event.deposits, Event.completes])⟩

theorem happened_transfer {input : TransferInput} {r : TransferResult}
    (hs : s.Sound) (h : transfer pg input s = (.ok r, s')) :
    ∃ es, Does pg s (.transfer input) es ∧ Happened s s' es := by
  obtain ⟨-, ⟨-, -, -, -, -, -, -, rfl⟩ | ⟨-, h⟩⟩ := transfer_ok h
  · exact ⟨[], .nothing _, happened_nothing hs (Wrote.refl _) rfl rfl⟩
  · obtain ⟨-, -, hd, hw, hwrote, hcover⟩ := transferNew_ok h
    have hj := hwrote.journalled (e := .transferred input.fromUserId input.toUserId input.amount) rfl
    exact ⟨_, .transfer input (hcover hs.copies).1, hj.happened_quiet hs hw
      (by rw [Db.deposited, hd, Db.deposited])
      (by simp [Event.reserves, Event.deposits, Event.completes])⟩

theorem happened_request {input : WithdrawalInput} {r : WithdrawalRequestResult}
    (hs : s.Sound) (hamount : 0 ≤ input.amount)
    (h : requestWithdrawal pg limits input s = (.ok r, s')) :
    ∃ es, Does pg s (.requestWithdrawal input) es ∧ Happened s s' es := by
  rcases requestWithdrawal_ok h with ⟨-, -, -, -, -, rfl⟩ | h
  · exact ⟨[], .nothing _, happened_nothing hs (Wrote.refl _) rfl rfl⟩
  · obtain ⟨-, ⟨row, huser, hunits, -, hstatus, hfresh, hw⟩, hd, ⟨withdrawalId, hwrote⟩, hcover⟩ :=
      requestNewWithdrawal_ok h
    obtain ⟨hcover, hfits⟩ := hcover hs.copies
    rw [cut_of_length_le hfits] at huser
    have hj := hwrote.journalled (e := .reserved input.userId input.amount) rfl
    have hactive : row.status.isActive = true := by
      rw [hstatus]
      rfl
    refine ⟨_, .reserve input hcover, hj.happened hs ?_ ?_ ?_ ?_ ?_⟩
    · intro u
      rw [Db.reserved, hw, Rows.sum_filter, Db.reserved, Rows.sum_filter]
      simp [huser, hactive, hunits, Event.reserves]
    · simp [Db.deposited, hd, Event.deposits]
    · rw [Db.completed, hw, Rows.sum_filter, Db.completed, Rows.sum_filter]
      simp [hstatus, Event.completes]
    · rw [hw]
      exact Rows.nodup_append hs.distinct hfresh
    · intro other hother
      rw [hw] at hother
      rcases List.mem_append.mp hother with hold | hnew
      · exact hs.rows other hold
      · rw [List.mem_singleton.mp hnew, hunits, huser]
        have hleg : (⟨.user input.userId .available, .debit, input.amount⟩ :
            Posting LedgerAccount ℤ) ∈ reserveLegs input := List.mem_cons_self
        exact ⟨hamount, hfits, Or.inr (hwrote.posted.hasPostings_of_leg rfl hleg rfl)⟩

/-- the events of a payout: the money leaves, and its network fee -/
theorem IsFee.journalled {withdrawalId nowIso : String} {networkFee : Option NetworkFee}
    {fees : List Entry} {entry : JournalInput} {legs : List (Posting LedgerAccount ℤ)} {e : Event}
    (hfee : IsFee withdrawalId nowIso networkFee fees) (h : Wrote s s' (entry.entry legs :: fees))
    (hlegs : legs = e.legs) :
    ∃ es, (es = [] ∨ ∃ fee, networkFee = some fee ∧ es = [.withdrawFeePaid fee.feeSun]) ∧
      Journalled s s' (e :: es) (entry.entry legs :: fees) := by
  rcases hfee with rfl | ⟨fee, hash, hnet, rfl⟩
  · exact ⟨[], Or.inl rfl, h.journalled hlegs⟩
  · refine ⟨_, Or.inr ⟨fee, hnet, rfl⟩, h, ?_, ?_⟩
    · intro other hother
      rcases List.mem_cons.mp hother with rfl | hother
      · exact Or.inr ⟨e, List.mem_cons_self, by rw [hlegs]; rfl⟩
      · rw [List.mem_singleton.mp hother]
        exact Or.inr ⟨_, List.mem_cons_of_mem _ (List.mem_singleton_self _), rfl⟩
    · have hentry : (entry.entry legs).legs = mapAccounts LedgerAccount.code e.legs := by
        rw [hlegs]
        rfl
      have hfeeEntry : ((withdrawalFeeJournal withdrawalId hash fee nowIso).entry
          (withdrawalFeeLegs fee)).legs =
          mapAccounts LedgerAccount.code (Event.withdrawFeePaid fee.feeSun).legs := rfl
      simp only [List.flatMap_cons, List.flatMap_nil, List.append_nil, mapAccounts_append, hentry,
        hfeeEntry]

theorem happened_confirm {withdrawalId nowIso : String} {networkFee : Option NetworkFee}
    {w : Withdrawal} (hs : s.Sound)
    (h : confirmWithdrawal pg withdrawalId networkFee nowIso s = (.ok w, s')) :
    ∃ es, Does pg s (.confirmWithdrawal withdrawalId networkFee nowIso) es ∧ Happened s s' es := by
  obtain ⟨row, mapped, fees, hid, hstatus, hrestated, huser, hunits, hfee, hd, hwrote, -⟩ :=
    confirmWithdrawal_ok h
  have hactive : row.status.isActive = true := by
    rw [hstatus]
    rfl
  have hlegs : completeLegs mapped = (Event.completed row.userId row.amount.units).legs := by
    rw [completeLegs, huser, hunits]
    rfl
  obtain ⟨es, hes, hj⟩ := hfee.journalled hwrote hlegs
  have hquiet : (∀ u, (es.map (Event.reserves u)).sum = 0) ∧ (es.map Event.deposits).sum = 0 ∧
      (es.map Event.completes).sum = 0 := by
    rcases hes with rfl | ⟨fee, -, rfl⟩
    · exact ⟨fun _ => rfl, rfl, rfl⟩
    · exact ⟨fun _ => rfl, rfl, rfl⟩
  refine ⟨_, .complete _ _ _ row es hid hrestated.1 hactive hes, hj.happened hs ?_ ?_ ?_
    (hrestated.distinct hs.distinct) (hrestated.rows hs)⟩
  · intro u
    rw [hrestated.reserved hs.distinct, List.map_cons, List.sum_cons, hquiet.1, hactive]
    simp [Event.reserves, WithdrawalStatus.isActive]
    ring
  · rw [List.map_cons, List.sum_cons, hquiet.2.1, Db.deposited, hd]
    simp [Event.deposits, Db.deposited]
  · rw [hrestated.completed hs.distinct, List.map_cons, List.sum_cons, hquiet.2.2,
      if_neg (active_ne_completed hactive)]
    simp [Event.completes]

theorem happened_fail {withdrawalId reason nowIso : String} {w : Withdrawal} (hs : s.Sound)
    (h : failWithdrawal pg withdrawalId reason nowIso s = (.ok w, s')) :
    ∃ es, Does pg s (.failWithdrawal withdrawalId reason nowIso) es ∧ Happened s s' es := by
  obtain ⟨row, mapped, hid, hactive, hrestated, huser, hunits, hd, hwrote, -⟩ := failWithdrawal_ok h
  have hlegs : releaseLegs mapped = (Event.failed row.userId row.amount.units).legs := by
    rw [releaseLegs, huser, hunits]
    rfl
  have hj := hwrote.journalled hlegs
  refine ⟨_, .fail _ _ _ row hid hrestated.1 hactive, hj.happened hs ?_ ?_ ?_
    (hrestated.distinct hs.distinct) (hrestated.rows hs)⟩
  · intro u
    rw [hrestated.reserved hs.distinct, hactive]
    simp [Event.reserves, WithdrawalStatus.isActive]
    ring
  · simp [Db.deposited, hd, Event.deposits]
  · rw [hrestated.completed hs.distinct, if_neg (active_ne_completed hactive)]
    simp [Event.completes]

theorem happened_sweep (pg : PgServer) (sweepId : String) (note : Option String)
    (networkFee : Option NetworkFee) (nowIso : String) (hs : s.Sound) :
    ∃ es, Does pg s (.confirmSweep sweepId note networkFee nowIso) es ∧
      Happened s (confirmSweep pg sweepId note networkFee nowIso s).2 es := by
  obtain ⟨hd, hw, entries, hwrote, hentries⟩ :=
    confirmSweep_writes pg sweepId note networkFee nowIso s
  have hdeposited : (confirmSweep pg sweepId note networkFee nowIso s).2.deposited = s.deposited := by
    rw [Db.deposited, hd, Db.deposited]
  rcases hentries with ⟨fee, hash, rfl, rfl⟩ | hnone
  · have hj := hwrote.journalled (e := .sweepFeePaid fee.feeSun) rfl
    exact ⟨_, .sweepFee _ _ fee _, hj.happened_quiet hs hw hdeposited
      (by simp [Event.reserves, Event.deposits, Event.completes])⟩
  · have hj : Journalled s (confirmSweep pg sweepId note networkFee nowIso s).2 [] entries :=
      ⟨hwrote, fun entry h => Or.inl (hnone entry h), List.flatMap_eq_nil_iff.mpr hnone⟩
    exact ⟨[], .nothing _, hj.happened_quiet hs hw hdeposited fun _ h => (by cases h)⟩

theorem happened_lock {input : LockInput} {r : OfflinePayLockResult} (hs : s.Sound)
    (h : lockOfflinePayCollateral pg input s = (.ok r, s')) :
    ∃ es, Does pg s (.lockOfflinePayCollateral input) es ∧ Happened s s' es := by
  rcases lockOfflinePayCollateral_ok h with ⟨-, -, rfl⟩ | ⟨-, h⟩
  · exact ⟨[], .nothing _, happened_nothing hs (Wrote.refl _) rfl rfl⟩
  · obtain ⟨-, hd, hw, hwrote, hcover⟩ := lockNewCollateral_ok h
    have hj := hwrote.journalled (e := .locked input.userId input.amount) rfl
    exact ⟨_, .lock input (hcover hs.copies), hj.happened_quiet hs hw
      (by rw [Db.deposited, hd, Db.deposited])
      (by simp [Event.reserves, Event.deposits, Event.completes])⟩

theorem happened_release {input : ReleaseInput} {r : OfflinePayLockResult} (hs : s.Sound)
    (h : releaseOfflinePayCollateral pg input s = (.ok r, s')) :
    ∃ es, Does pg s (.releaseOfflinePayCollateral input) es ∧ Happened s s' es := by
  rcases releaseOfflinePayCollateral_ok h with ⟨-, -, rfl⟩ | ⟨-, h⟩
  · exact ⟨[], .nothing _, happened_nothing hs (Wrote.refl _) rfl rfl⟩
  · obtain ⟨-, hd, hw, hwrote, hcover⟩ := releaseNewCollateral_ok h
    have hj := hwrote.journalled (e := .released input.userId input.amount) rfl
    exact ⟨_, .release input hcover, hj.happened_quiet hs hw
      (by rw [Db.deposited, hd, Db.deposited])
      (by simp [Event.reserves, Event.deposits, Event.completes])⟩

/-- entries that are, one by one, the journals of events -/
theorem Journalled.of_map {entries : List Entry} (h : Wrote s s' entries)
    (hmap : entries.map Entry.legs = es.map fun e => mapAccounts LedgerAccount.code e.legs) :
    Journalled s s' es entries where
  wrote := h
  each entry hentry := by
    have hmem : entry.legs ∈ es.map fun e => mapAccounts LedgerAccount.code e.legs := by
      rw [← hmap]
      exact List.mem_map_of_mem hentry
    obtain ⟨e, he, heq⟩ := List.mem_map.mp hmem
    exact Or.inr ⟨e, he, heq.symm⟩
  all := by
    rw [List.flatMap_def, hmap, mapAccounts_flatMap, ← List.flatMap_def]

/-- the receiver's journals are the receiver's events -/
theorem receiverEntries_map (pg : PgServer) (input : FinalizeInput) (receiver : Option String) :
    (receiver.toList.map (receiverEntry pg input)).map Entry.legs =
      (receiver.toList.map fun v => Event.receiverCredited v (receiverCreditAmount pg input)).map
        fun e => mapAccounts LedgerAccount.code e.legs := by
  cases receiver with
  | none => rfl
  | some v => rfl

theorem happened_finalize {input : FinalizeInput} {r : OfflinePaySettlementFinalizeResult}
    (hs : s.Sound) (hamount : 0 ≤ input.amount)
    (h : finalizeOfflinePaySettlement pg input s = (.ok r, s')) :
    ∃ es, Does pg s (.finalizeOfflinePaySettlement input) es ∧ Happened s s' es := by
  obtain ⟨hd, hw, receiverUserId, -, hcases⟩ := finalizeOfflinePaySettlement_ok h
  have hdeposited : s'.deposited = s.deposited := by rw [Db.deposited, hd, Db.deposited]
  rcases hcases with ⟨-, -, hwrote⟩ | ⟨-, -, hcover, hwrote⟩
  · have hj := Journalled.of_map hwrote (receiverEntries_map pg input _)
    cases hcredited : creditedReceiver s input receiverUserId with
    | none =>
      rw [hcredited] at hj
      exact ⟨[], .nothing _, hj.happened_quiet hs hw hdeposited fun _ h => (by cases h)⟩
    | some v =>
      rw [hcredited] at hj
      exact ⟨_, .creditReceiver input v, hj.happened_quiet hs hw hdeposited
        (by simp [Event.reserves, Event.deposits, Event.completes])⟩
  · cases haction : input.releaseAction with
    | adjust =>
      have hlegs : settlementLegs pg input = (Event.released input.userId input.amount).legs := by
        rw [settlementLegs, haction]
        rfl
      rw [receiverEntries, creditedReceiver_adjust haction] at hwrote
      have hj := Wrote.journalled hwrote hlegs
      exact ⟨_, .adjust input haction hcover, hj.happened_quiet hs hw hdeposited
        (by simp [Event.reserves, Event.deposits, Event.completes])⟩
    | release =>
      have hlegs : settlementLegs pg input =
          (Event.settled input.userId input.amount (settlementFee pg input)).legs := by
        rw [settlementLegs, haction, receiverCreditAmount_eq pg input hamount]
        rfl
      have hj : Journalled s s' (.settled input.userId input.amount (settlementFee pg input) :: _) _ :=
        Journalled.of_map hwrote (by
          rw [List.map_cons, receiverEntries, receiverEntries_map, hlegs, List.map_cons]
          rfl)
      refine ⟨_, .settle input (creditedReceiver s input receiverUserId) haction hcover,
        hj.happened_quiet hs hw hdeposited ?_⟩
      cases creditedReceiver s input receiverUserId with
      | none => simp [Event.reserves, Event.deposits, Event.completes]
      | some v => simp [Event.reserves, Event.deposits, Event.completes]

theorem happened_compensate {input : CompensateInput} {r : OfflinePaySettlementFinalizeResult}
    (hs : s.Sound) (h : compensateOfflinePaySettlement pg input s = (.ok r, s')) :
    ∃ es, Does pg s (.compensateOfflinePaySettlement input) es ∧ Happened s s' es := by
  rcases compensateOfflinePaySettlement_ok h with ⟨-, -, rfl⟩ | ⟨hnew, h⟩
  · exact ⟨[], .nothing _, happened_nothing hs (Wrote.refl _) rfl rfl⟩
  · obtain ⟨-, hd, hw, hwrote⟩ := compensateNew_ok h
    have hdeposited : s'.deposited = s.deposited := by rw [Db.deposited, hd, Db.deposited]
    cases haction : input.releaseAction with
    | release =>
      have hlegs : compensationLegs input = (Event.compensated input.userId input.amount).legs := by
        rw [compensationLegs, haction]
        rfl
      have hj := hwrote.journalled hlegs
      exact ⟨_, .compensate input haction, hj.happened_quiet hs hw hdeposited
        (by simp [Event.reserves, Event.deposits, Event.completes])⟩
    | adjust =>
      have hlegs : compensationLegs input = (Event.relocked input.userId input.amount).legs := by
        rw [compensationLegs, haction]
        rfl
      have hj := hwrote.journalled hlegs
      exact ⟨_, .relock input haction hnew, hj.happened_quiet hs hw hdeposited
        (by simp [Event.reserves, Event.deposits, Event.completes])⟩

theorem happened_reconcile {input : ReconcileInput} {r : ReconcileResult} (hs : s.Sound)
    (h : reconcileOfflinePayUserBalance pg input s = (.ok r, s')) :
    ∃ es, Does pg s (.reconcileOfflinePayUserBalance input) es ∧ Happened s s' es := by
  obtain ⟨hd, hw, hquiet | ⟨delta, rfl, hwrote⟩⟩ := reconcileOfflinePayUserBalance_ok h
  · exact ⟨[], .nothing _, happened_nothing hs hquiet hw (by rw [Db.deposited, hd, Db.deposited])⟩
  · have hj := hwrote.journalled (e := .reconciled input.userId _) rfl
    exact ⟨_, .reconcile input, hj.happened_quiet hs hw (by rw [Db.deposited, hd, Db.deposited])
      (by simp [Event.reserves, Event.deposits, Event.completes])⟩

theorem happened_reconcilePending {input : ReconcileInput} {r : ReconcileResult} (hs : s.Sound)
    (h : reconcileOfflinePayPendingBalance pg input s = (.ok r, s')) :
    ∃ es, Does pg s (.reconcileOfflinePayPendingBalance input) es ∧ Happened s s' es := by
  obtain ⟨hd, hw, hquiet | ⟨delta, rfl, hwrote⟩⟩ := reconcileOfflinePayPendingBalance_ok h
  · exact ⟨[], .nothing _, happened_nothing hs hquiet hw (by rw [Db.deposited, hd, Db.deposited])⟩
  · have hj := hwrote.journalled (e := .pendingReconciled input.userId _) rfl
    exact ⟨_, .reconcilePending input, hj.happened_quiet hs hw
      (by rw [Db.deposited, hd, Db.deposited])
      (by simp [Event.reserves, Event.deposits, Event.completes])⟩

/-- a throw leaves the tables as they were -/
def RollsBack {α : Type} (m : Op α) : Prop :=
  ∀ {s e s'}, m s = (.error e, s') → ∃ n, s' = { s with uuidsDrawn := n }

theorem withTransaction_rollsBack {α : Type} (work : Op α) : RollsBack (withTransaction work) :=
  fun h => withTransaction_throws h

theorem rollsBack_after_check {α : Type} {m : Op α} {c : Prop} [Decidable c] {e : LedgerError}
    (hm : RollsBack m) : RollsBack (Method.throwWhen c e >>= fun _ => m) := by
  intro s e' s' h
  rcases Method.throws_bind.mp h with hthrow | ⟨_, s₁, hpass, hm'⟩
  · rw [Method.throwWhen] at hthrow
    split at hthrow
    · obtain ⟨-, rfl⟩ := Prod.mk.inj hthrow
      exact ⟨s.uuidsDrawn, rfl⟩
    · cases (Prod.mk.inj hthrow).1
  · obtain ⟨-, rfl⟩ := Method.throwWhen_returns.mp hpass
    exact hm hm'

/-- what a call does when it returns, and nothing when it throws -/
theorem happened_of_returns {α : Type} {m : Op α} {c : Call} (hs : s.Sound) (hm : RollsBack m)
    (hreturns : ∀ a s', m s = (.ok a, s') → ∃ es, Does pg s c es ∧ Happened s s' es) :
    ∃ es, Does pg s c es ∧ Happened s (m s).2 es := by
  rcases hrun : m s with ⟨e | a, s'⟩
  · obtain ⟨n, rfl⟩ := hm hrun
    exact ⟨[], .nothing c, happened_nothing hs (Wrote.of_eq rfl rfl rfl) rfl rfl⟩
  · exact hreturns a s' hrun

theorem happened_of_transaction {α : Type} {work : Op α} {c : Call} (hs : s.Sound)
    (hreturns : ∀ a s', withTransaction work s = (.ok a, s') → ∃ es, Does pg s c es ∧ Happened s s' es) :
    ∃ es, Does pg s c es ∧ Happened s (withTransaction work s).2 es :=
  happened_of_returns hs (withTransaction_rollsBack work) hreturns

/-- a step of a sweep makes no event -/
theorem happened_stepSweep (pg : PgServer) (sweepId : String) (sources : List SweepStatus)
    (message : String) (change : SweepRecordRow → Except LedgerError SweepRecordRow) (hs : s.Sound) :
    Happened s (stepSweep pg sweepId sources message change s).2 [] := by
  obtain ⟨rows, hrows⟩ := stepSweep_writes pg sweepId sources message change s
  rw [hrows]
  exact happened_nothing hs (Wrote.of_eq rfl rfl rfl) rfl rfl

variable (pg limits) in
/-- **every call makes events, and the tables move as they say** -/
theorem Call.step_happened (hs : s.Sound) {c : Call} (hc : ∀ x ∈ c.amounts, 0 ≤ x) :
    ∃ es, Does pg s c es ∧ Happened s (c.step pg limits s) es := by
  cases c with
  | applyDeposit input => exact happened_of_transaction hs fun _ _ h => happened_deposit hs h
  | completeDeposit depositId => exact ⟨[], .nothing _, happened_completeDeposit pg depositId hs⟩
  | applyExternalCredit input =>
    exact happened_of_returns hs
      (rollsBack_after_check (rollsBack_after_check (withTransaction_rollsBack _)))
      fun _ _ h => happened_credit hs h
  | transfer input =>
    exact happened_of_returns hs (rollsBack_after_check (withTransaction_rollsBack _))
      fun _ _ h => happened_transfer hs h
  | requestWithdrawal input =>
    exact happened_of_returns hs (rollsBack_after_check (withTransaction_rollsBack _))
      fun _ _ h => happened_request hs (hc _ (by simp [Call.amounts])) h
  | confirmWithdrawalExternalAuth withdrawalId provider requestId nowIso =>
    refine happened_of_transaction hs fun _ _ h => ⟨[], .nothing _, ?_⟩
    obtain ⟨hw, hd, hwrote⟩ := confirmWithdrawalExternalAuth_ok h
    exact happened_advanced hs hwrote hw hd
  | markWithdrawalReviewRequired withdrawalId nowIso =>
    refine happened_of_transaction hs fun _ _ h => ⟨[], .nothing _, ?_⟩
    obtain ⟨hw, hd, hwrote⟩ := markWithdrawalReviewRequired_ok h
    exact happened_advanced hs hwrote hw hd
  | approveWithdrawal withdrawalId input nowIso =>
    refine happened_of_transaction hs fun _ _ h => ⟨[], .nothing _, ?_⟩
    obtain ⟨hw, hd, hwrote⟩ := approveWithdrawal_ok h
    exact happened_advanced hs hwrote hw hd
  | broadcastWithdrawal withdrawalId txHash nowIso =>
    refine happened_of_transaction hs fun _ _ h => ⟨[], .nothing _, ?_⟩
    obtain ⟨hw, hd, hwrote⟩ := broadcastWithdrawal_ok h
    exact happened_advanced hs hwrote hw hd
  | confirmWithdrawal withdrawalId networkFee nowIso =>
    exact happened_of_transaction hs fun _ _ h => happened_confirm hs h
  | failWithdrawal withdrawalId reason nowIso =>
    exact happened_of_transaction hs fun _ _ h => happened_fail hs h
  | createSweepRecord input =>
    refine happened_of_transaction hs fun _ _ h => ⟨[], .nothing _, ?_⟩
    obtain ⟨rows, n, rfl⟩ := createSweepRecord_ok h
    exact happened_nothing hs (Wrote.of_eq rfl rfl rfl) rfl rfl
  | markSweepQueued sweepId note nowIso => exact ⟨[], .nothing _, happened_stepSweep pg _ _ _ _ hs⟩
  | recordSweepAttempt sweepId note nowIso => exact ⟨[], .nothing _, happened_stepSweep pg _ _ _ _ hs⟩
  | markSweepBroadcasted sweepId txHash note nowIso =>
    exact ⟨[], .nothing _, happened_stepSweep pg _ _ _ _ hs⟩
  | failSweep sweepId reason nowIso => exact ⟨[], .nothing _, happened_stepSweep pg _ _ _ _ hs⟩
  | confirmSweep sweepId note networkFee nowIso =>
    exact happened_sweep pg sweepId note networkFee nowIso hs
  | lockOfflinePayCollateral input => exact happened_of_transaction hs fun _ _ h => happened_lock hs h
  | releaseOfflinePayCollateral input =>
    exact happened_of_transaction hs fun _ _ h => happened_release hs h
  | finalizeOfflinePaySettlement input =>
    exact happened_of_transaction hs fun _ _ h => happened_finalize hs (hc _ (by simp [Call.amounts])) h
  | compensateOfflinePaySettlement input =>
    exact happened_of_transaction hs fun _ _ h => happened_compensate hs h
  | upsertOfflinePayDevice input =>
    refine ⟨[], .nothing _, ?_⟩
    show Happened s (Postgres.upsertOfflinePayDevice input s).2 []
    obtain ⟨devices, hdevices⟩ := upsertOfflinePayDevice_writes input s
    rw [hdevices]
    exact happened_nothing hs (Wrote.of_eq rfl rfl rfl) rfl rfl
  | reconcileOfflinePayUserBalance input =>
    exact happened_of_transaction hs fun _ _ h => happened_reconcile hs h
  | reconcileOfflinePayPendingBalance input =>
    exact happened_of_transaction hs fun _ _ h => happened_reconcilePending hs h

/-- the events of a call are well formed when its amounts are not negative -/
theorem Does.wellFormed {c : Call} (h : Does pg s c es) (hs : s.Sound)
    (hc : ∀ x ∈ c.amounts, 0 ≤ x) : ∀ e ∈ es, e.WellFormed := by
  have hone : ∀ {e : Event}, e.WellFormed → ∀ e' ∈ [e], e'.WellFormed := by
    intro e he e' hmem
    rw [List.mem_singleton.mp hmem]
    exact he
  cases h with
  | nothing => exact fun _ h => (by cases h)
  | complete _ _ _ row fees _ hrow _ hfees =>
    intro e he
    rcases List.mem_cons.mp he with rfl | he
    · exact hs.amounts row hrow
    · rcases hfees with rfl | ⟨fee, rfl, rfl⟩
      · cases he
      · rw [List.mem_singleton.mp he]
        exact hc _ (by simp [Call.amounts])
  | fail _ _ _ row _ hrow => exact hone (hs.amounts row hrow)
  | settle input receiver =>
    have hamount : 0 ≤ input.amount := hc _ (by simp [Call.amounts])
    have hfee := settlementFee_bounds pg input hamount
    intro e he
    rcases List.mem_cons.mp he with rfl | he
    · exact hfee
    · obtain ⟨v, -, rfl⟩ := List.mem_map.mp he
      show 0 ≤ receiverCreditAmount pg input
      rw [receiverCreditAmount_eq pg input hamount]
      omega
  | creditReceiver input receiver =>
    have hamount : 0 ≤ input.amount := hc _ (by simp [Call.amounts])
    have hfee := settlementFee_bounds pg input hamount
    apply hone
    show 0 ≤ receiverCreditAmount pg input
    rw [receiverCreditAmount_eq pg input hamount]
    omega
  | reconcile => exact hone trivial
  | reconcilePending => exact hone trivial
  | _ => exact hone (hc _ (by simp [Call.amounts]))

end

end Postgres
