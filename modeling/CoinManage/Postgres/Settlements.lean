import CoinManage.Postgres.Operations

/-!
# What the offline-pay operations write

The same for collateral, settlements, compensations and reconciliations.

* `finalizeOfflinePaySettlement_ok`   a known settlement may still credit its receiver, a new one
                                      posts the sender's side as well;
* `compensateOfflinePaySettlement_ok` a compensation posts its own request, whatever was settled;
* `reconcileOfflinePayUserBalance_ok`, `reconcileOfflinePayPendingBalance_ok`
                                      the difference to the target.
-/

namespace Postgres

open DoubleEntry

section
variable {pg : PgServer} {s s' s₁ : Db}

/-! ## collateral -/

def lockLegs (input : LockInput) : List (Posting LedgerAccount ℤ) :=
  move (.user input.userId .available) (.user input.userId .offlinePayPending) input.amount

theorem lockNewCollateral_ok {input : LockInput} {r : OfflinePayLockResult}
    (h : lockNewCollateral pg input s = (.ok r, s')) :
    r.duplicated = false ∧ s'.deposits = s.deposits ∧ s'.withdrawals = s.withdrawals ∧
    Wrote s s' [(lockJournal input).entry (lockLegs input)] ∧
    (s.AccountsSound ∅ → input.amount ≤ s.available input.userId) := by
  obtain ⟨_, s₁, hens, h⟩ := Method.returns_bind.mp h
  have hwrote := ensureAccount_wrote hens
  obtain ⟨⟨rows, rfl⟩, -, hrow, -⟩ := ensureAccount_ok hens
  obtain ⟨account, s₁, hacc, h⟩ := Method.returns_bind.mp h
  obtain ⟨rfl, hmem⟩ := getAccountForUpdate_ok hacc
  obtain ⟨p, s₁, hp, h⟩ := Method.returns_bind.mp h
  obtain ⟨rfl, hbal, -, -⟩ := projected_ok hp
  obtain ⟨available, s₁, hb, h⟩ := Method.returns_bind.mp h
  obtain ⟨rfl, hspend⟩ := spendable_ok hmem hbal hb
  obtain ⟨_, s₁, hc, h⟩ := Method.returns_bind.mp h
  obtain ⟨hcover, rfl⟩ := Method.throwWhen_returns.mp hc
  obtain ⟨_, s₁, hj, h⟩ := Method.returns_bind.mp h
  obtain ⟨_, s₂, hs, h⟩ := Method.returns_bind.mp h
  obtain ⟨⟨ac, la, js, ps, n, rfl⟩, hsynced⟩ := journal_synced (lockLegs input) rfl hj hs
    (by simp [lockLegs, move]) (by simpa using known_of_cut hrow)
  obtain ⟨_, s₁, he, h⟩ := Method.returns_bind.mp h
  obtain ⟨events, m, rfl⟩ := enqueueOutboxEvent_ok he
  obtain ⟨rfl, rfl⟩ := Method.pure_returns.mp h
  refine ⟨rfl, rfl, rfl, hsynced.around hwrote (Wrote.of_eq rfl rfl rfl), fun hs => ?_⟩
  have hspend' : available = s.available input.userId := hspend (hwrote.copies hs)
  rw [← hspend']
  exact not_lt.mp hcover

theorem lockOfflinePayCollateral_ok {input : LockInput} {r : OfflinePayLockResult}
    (h : lockOfflinePayCollateral pg input s = (.ok r, s')) :
    (("offline_pay_lock", input.referenceId) ∈ s.journalKeys ∧ r.duplicated = true ∧ s' = s) ∨
    (("offline_pay_lock", input.referenceId) ∉ s.journalKeys ∧
      lockNewCollateral pg input s = (.ok r, s')) := by
  obtain ⟨_, s₁, hk, h⟩ := Method.returns_bind.mp (withTransaction_ok h)
  obtain rfl := lockKey_ok hk
  obtain ⟨_, s₁, hg, h⟩ := Method.returns_bind.mp h
  obtain ⟨rfl, rfl⟩ := Method.get_returns.mp hg
  rw [← findJournal_isSome]
  cases hfind : s.findJournal "offline_pay_lock" input.referenceId with
  | none =>
    rw [hfind] at h
    exact Or.inr ⟨by simp, h⟩
  | some existing =>
    rw [hfind] at h
    obtain ⟨rfl, rfl⟩ := Method.pure_returns.mp h
    exact Or.inl ⟨rfl, rfl, rfl⟩

def releaseCollateralLegs (input : ReleaseInput) : List (Posting LedgerAccount ℤ) :=
  move (.user input.userId .offlinePayPending) (.user input.userId .available) input.amount

theorem releaseNewCollateral_ok {input : ReleaseInput} {r : OfflinePayLockResult}
    (h : releaseNewCollateral pg input s = (.ok r, s')) :
    r.duplicated = false ∧ s'.deposits = s.deposits ∧ s'.withdrawals = s.withdrawals ∧
    Wrote s s' [(releaseCollateralJournal input).entry (releaseCollateralLegs input)] ∧
    input.amount ≤ s.offlinePayPending input.userId := by
  obtain ⟨_, s₁, hens, h⟩ := Method.returns_bind.mp h
  have hwrote := ensureAccount_wrote hens
  obtain ⟨⟨rows, rfl⟩, -, hrow, -⟩ := ensureAccount_ok hens
  obtain ⟨_, s₁, hl, h⟩ := Method.returns_bind.mp h
  obtain rfl := lockUsers_ok hl
  obtain ⟨pending, s₁, hp, h⟩ := Method.returns_bind.mp h
  obtain ⟨rfl, hpending⟩ := projectedAccount_ok hp
  obtain ⟨_, s₁, hc, h⟩ := Method.returns_bind.mp h
  obtain ⟨hcover, rfl⟩ := Method.throwWhen_returns.mp hc
  obtain ⟨_, s₁, hj, h⟩ := Method.returns_bind.mp h
  obtain ⟨_, s₂, hs, h⟩ := Method.returns_bind.mp h
  obtain ⟨⟨ac, la, js, ps, n, rfl⟩, hsynced⟩ := journal_synced (releaseCollateralLegs input) rfl hj hs
    (by simp [releaseCollateralLegs, move]) (by simpa using known_of_cut hrow)
  obtain ⟨_, s₁, he, h⟩ := Method.returns_bind.mp h
  obtain ⟨events, m, rfl⟩ := enqueueOutboxEvent_ok he
  obtain ⟨rfl, rfl⟩ := Method.pure_returns.mp h
  refine ⟨rfl, rfl, rfl, hsynced.around hwrote (Wrote.of_eq rfl rfl rfl), ?_⟩
  have hpending' : pending = s.offlinePayPending input.userId := hpending
  rw [← hpending']
  exact not_lt.mp hcover

theorem releaseOfflinePayCollateral_ok {input : ReleaseInput} {r : OfflinePayLockResult}
    (h : releaseOfflinePayCollateral pg input s = (.ok r, s')) :
    (("offline_pay_release", input.referenceId) ∈ s.journalKeys ∧ r.duplicated = true ∧ s' = s) ∨
    (("offline_pay_release", input.referenceId) ∉ s.journalKeys ∧
      releaseNewCollateral pg input s = (.ok r, s')) := by
  obtain ⟨_, s₁, hk, h⟩ := Method.returns_bind.mp (withTransaction_ok h)
  obtain rfl := lockKey_ok hk
  obtain ⟨_, s₁, hg, h⟩ := Method.returns_bind.mp h
  obtain ⟨rfl, rfl⟩ := Method.get_returns.mp hg
  rw [← findJournal_isSome]
  cases hfind : s.findJournal "offline_pay_release" input.referenceId with
  | none =>
    rw [hfind] at h
    exact Or.inr ⟨by simp, h⟩
  | some existing =>
    rw [hfind] at h
    obtain ⟨rfl, rfl⟩ := Method.pure_returns.mp h
    exact Or.inl ⟨rfl, rfl, rfl⟩

/-! ## settlements -/

/-- the sender's side of a settlement -/
def settlementLegs (pg : PgServer) (input : FinalizeInput) : List (Posting LedgerAccount ℤ) :=
  match input.releaseAction with
  | .release =>
    [⟨.user input.userId .offlinePayPending, .debit, input.amount⟩,
     ⟨.offlinePayClearing, .credit, receiverCreditAmount pg input⟩] ++
    (if 0 < settlementFee pg input then [⟨.offlinePayFee, .credit, settlementFee pg input⟩] else [])
  | .adjust =>
    move (.user input.userId .offlinePayPending) (.user input.userId .available) input.amount

theorem settlementPostings_eq (pg : PgServer) (input : FinalizeInput) :
    (settlementJournal pg input).postings = writeLegs (settlementLegs pg input) := by
  show settlementPostings pg input = _
  unfold settlementPostings settlementLegs
  cases input.releaseAction with
  | adjust => rfl
  | release =>
    simp only
    split
    · rfl
    · rfl

theorem settlementLegs_users (pg : PgServer) (input : FinalizeInput) :
    ∀ leg ∈ settlementLegs pg input, ∀ u b, leg.account = .user u b → u = input.userId := by
  intro leg hleg u b hu
  unfold settlementLegs at hleg
  cases haction : input.releaseAction with
  | adjust =>
    rw [haction] at hleg
    rcases List.mem_cons.mp hleg with rfl | hleg
    · exact (LedgerAccount.user.inj hu).1.symm
    · rw [List.mem_singleton.mp hleg] at hu
      exact (LedgerAccount.user.inj hu).1.symm
  | release =>
    rw [haction] at hleg
    rcases List.mem_append.mp hleg with hleg | hleg
    · rcases List.mem_cons.mp hleg with rfl | hleg
      · exact (LedgerAccount.user.inj hu).1.symm
      · rw [List.mem_singleton.mp hleg] at hu
        cases hu
    · split at hleg
      · rw [List.mem_singleton.mp hleg] at hu
        cases hu
      · cases hleg

/-- the receiver a settlement credits: at most once for each settlement id -/
def creditedReceiver (s : Db) (input : FinalizeInput) (receiverUserId : Option String) :
    Option String :=
  if input.requested ∧ input.creditsReceiver ∧
    ("offline_pay_receiver_settlement", input.settlementId) ∉ s.journalKeys then truthy receiverUserId
  else none

/-- an adjustment credits no receiver -/
theorem creditedReceiver_adjust {input : FinalizeInput} {receiverUserId : Option String}
    (haction : input.releaseAction = .adjust) : creditedReceiver s input receiverUserId = none := by
  have hno : input.creditsReceiver = false := by
    rw [FinalizeInput.creditsReceiver, haction]
    simp
  simp [creditedReceiver, hno]

def receiverLegs (pg : PgServer) (input : FinalizeInput) (receiver : String) :
    List (Posting LedgerAccount ℤ) :=
  move .offlinePayClearing (.user receiver .available) (receiverCreditAmount pg input)

/-- the receiver's side of a settlement -/
def receiverEntry (pg : PgServer) (input : FinalizeInput) (receiver : String) : Entry :=
  (receiverJournal input receiver (formatKoriAmount (receiverCreditAmount pg input))).entry
    (receiverLegs pg input receiver)

def receiverEntries (pg : PgServer) (s : Db) (input : FinalizeInput)
    (receiverUserId : Option String) : List Entry :=
  (creditedReceiver s input receiverUserId).toList.map (receiverEntry pg input)

theorem creditReceiver_ok {input : FinalizeInput} {receiverUserId : Option String} {v : Unit}
    (h : creditReceiver pg input receiverUserId s = (.ok v, s')) :
    (∃ la js ps n, s' = { s with
      ledgerAccounts := la, ledgerJournals := js, ledgerPostings := ps, uuidsDrawn := n }) ∧
    Posted s s' (receiverEntries pg s input receiverUserId) := by
  have hquiet : creditedReceiver s input receiverUserId = none →
      (pure () : Op Unit) s = (.ok v, s') →
      (∃ la js ps n, s' = { s with
        ledgerAccounts := la, ledgerJournals := js, ledgerPostings := ps, uuidsDrawn := n }) ∧
      Posted s s' (receiverEntries pg s input receiverUserId) := by
    intro hnone h
    obtain ⟨-, rfl⟩ := Method.pure_returns.mp h
    rw [receiverEntries, hnone]
    exact ⟨⟨_, _, _, _, rfl⟩, Posted.refl s⟩
  unfold creditReceiver appendOfflinePayReceiverSettlementIfNeeded at h
  by_cases hreq : input.requested = true
  · rw [if_pos hreq] at h
    cases htruthy : truthy receiverUserId with
    | none =>
      rw [htruthy] at h
      exact hquiet (by simp [creditedReceiver, htruthy]) h
    | some receiver =>
      rw [htruthy] at h
      simp only at h
      by_cases hcredits : input.creditsReceiver = false
      · rw [if_pos hcredits] at h
        exact hquiet (by simp [creditedReceiver, hcredits]) h
      · rw [if_neg hcredits] at h
        obtain ⟨_, s₁, hg, h⟩ := Method.returns_bind.mp h
        obtain ⟨rfl, rfl⟩ := Method.get_returns.mp hg
        cases hfind : s.findJournal "offline_pay_receiver_settlement" input.settlementId with
        | some existing =>
          rw [hfind] at h
          have hkey : ("offline_pay_receiver_settlement", input.settlementId) ∈ s.journalKeys := by
            rw [← findJournal_isSome, hfind]
            rfl
          exact hquiet (by simp [creditedReceiver, hkey]) h
        | none =>
          rw [hfind] at h
          have hkey : ("offline_pay_receiver_settlement", input.settlementId) ∉ s.journalKeys := by
            rw [← findJournal_isSome, hfind]
            simp
          have hcredits' : input.creditsReceiver = true := by simpa using hcredits
          have hcredited : creditedReceiver s input receiverUserId = some receiver := by
            rw [creditedReceiver, if_pos ⟨hreq, hcredits', hkey⟩, htruthy]
          rw [receiverEntries, hcredited]
          have hlegs : (receiverJournal input receiver
              (formatKoriAmount (receiverCreditAmount pg input))).postings =
              writeLegs (receiverLegs pg input receiver) := rfl
          exact appendJournal_ok hlegs h
  · rw [if_neg hreq] at h
    exact hquiet (by simp [creditedReceiver, hreq]) h

/-- the legs of the receiver's side, and whose they are -/
theorem receiverEntries_legs (pg : PgServer) (s : Db) (input : FinalizeInput)
    (receiverUserId : Option String) :
    ∃ legs, (receiverEntries pg s input receiverUserId).flatMap Entry.legs =
        mapAccounts LedgerAccount.code legs ∧
      ∀ leg ∈ legs, ∀ u b, leg.account = .user u b → u ∈ affectedUserIds input receiverUserId := by
  unfold receiverEntries
  cases hcredited : creditedReceiver s input receiverUserId with
  | none => exact ⟨[], rfl, fun _ h => (by cases h)⟩
  | some receiver =>
    refine ⟨receiverLegs pg input receiver, List.flatMap_singleton _ _, ?_⟩
    unfold creditedReceiver at hcredited
    split at hcredited
    · next hcond =>
      have hmem : receiver ∈ affectedUserIds input receiverUserId := by
        simp [affectedUserIds, hcredited, hcond.1]
      intro leg hleg u b hu
      rcases List.mem_cons.mp hleg with rfl | hleg
      · cases hu
      · rw [List.mem_singleton.mp hleg] at hu
        rw [← (LedgerAccount.user.inj hu).1]
        exact hmem
    · cases hcredited

theorem mem_affectedUserIds (input : FinalizeInput) (receiverUserId : Option String) :
    input.userId ∈ affectedUserIds input receiverUserId := by
  unfold affectedUserIds
  split
  · split
    · exact List.mem_cons_self
    · exact List.mem_cons_self
  · exact List.mem_cons_self

theorem finalizeReplay_ok {input : FinalizeInput} {receiverUserId : Option String}
    {r : OfflinePaySettlementFinalizeResult}
    (hrows : ∀ u ∈ affectedUserIds input receiverUserId, u.length ≤ 64 →
      ∃ row ∈ s.accounts, row.userId = u)
    (h : finalizeReplay pg input receiverUserId s = (.ok r, s')) :
    r.duplicated = true ∧ s'.deposits = s.deposits ∧ s'.withdrawals = s.withdrawals ∧
    Wrote s s' (receiverEntries pg s input receiverUserId) := by
  obtain ⟨_, s₁, hr, h⟩ := Method.returns_bind.mp h
  obtain ⟨⟨la, js, ps, n, rfl⟩, hposted⟩ := creditReceiver_ok hr
  obtain ⟨_, s₂, hs, h⟩ := Method.returns_bind.mp h
  obtain ⟨legs, hflat, husers⟩ := receiverEntries_legs pg s input receiverUserId
  obtain ⟨⟨rows, rfl⟩, hwrote⟩ := hposted.synced hflat rfl (knows_of_rows husers hrows) hs
  obtain ⟨projected, s₁, hp, h⟩ := Method.returns_bind.mp h
  obtain ⟨rfl, -⟩ := projected_ok hp
  obtain ⟨pending, s₁, hp', h⟩ := Method.returns_bind.mp h
  obtain ⟨rfl, -⟩ := projectedAccount_ok hp'
  obtain ⟨rfl, rfl⟩ := Method.pure_returns.mp h
  exact ⟨rfl, rfl, rfl, hwrote⟩

/-- a journal under another reference does not count as the receiver's -/
theorem creditedReceiver_posted {input : FinalizeInput} {receiverUserId : Option String}
    {es : List Entry} (hposted : Posted s s' es)
    (hes : ∀ e ∈ es, e.referenceType ≠ "offline_pay_receiver_settlement") :
    creditedReceiver s' input receiverUserId = creditedReceiver s input receiverUserId := by
  have hkey : ("offline_pay_receiver_settlement", input.settlementId) ∈ s'.journalKeys ↔
      ("offline_pay_receiver_settlement", input.settlementId) ∈ s.journalKeys := by
    rw [hposted.keys, List.mem_append]
    constructor
    · rintro (hold | hnew)
      · exact hold
      · obtain ⟨e, he, heq⟩ := List.mem_map.mp hnew
        exact absurd (congrArg Prod.fst heq) (hes e he)
    · exact Or.inl
  simp only [creditedReceiver, hkey]

theorem finalizeNew_ok {input : FinalizeInput} {receiverUserId : Option String}
    {r : OfflinePaySettlementFinalizeResult}
    (hrows : ∀ u ∈ affectedUserIds input receiverUserId, u.length ≤ 64 →
      ∃ row ∈ s.accounts, row.userId = u)
    (h : finalizeNew pg input receiverUserId s = (.ok r, s')) :
    r.duplicated = false ∧ s'.deposits = s.deposits ∧ s'.withdrawals = s.withdrawals ∧
    input.amount ≤ s.offlinePayPending input.userId ∧
    Wrote s s' ((settlementJournal pg input).entry (settlementLegs pg input) ::
      receiverEntries pg s input receiverUserId) := by
  obtain ⟨_, s₁, hc, h⟩ := Method.returns_bind.mp h
  obtain ⟨-, rfl⟩ := Method.throwWhen_returns.mp hc
  obtain ⟨_, s₁, hc', h⟩ := Method.returns_bind.mp h
  obtain ⟨-, rfl⟩ := Method.throwWhen_returns.mp hc'
  obtain ⟨pending, s₁, hp, h⟩ := Method.returns_bind.mp h
  obtain ⟨rfl, rfl⟩ := projectedAccount_ok hp
  obtain ⟨_, s₁, hc'', h⟩ := Method.returns_bind.mp h
  obtain ⟨hcover, rfl⟩ := Method.throwWhen_returns.mp hc''
  obtain ⟨_, s₁, hj, h⟩ := Method.returns_bind.mp h
  obtain ⟨⟨la, js, ps, n, rfl⟩, hposted⟩ := appendJournal_ok (settlementPostings_eq pg input) hj
  obtain ⟨_, s₁, hr, h⟩ := Method.returns_bind.mp h
  obtain ⟨⟨la', js', ps', n', rfl⟩, hposted'⟩ := creditReceiver_ok hr
  have hsame := @creditedReceiver_posted _ _ input receiverUserId _ hposted (by
    intro e he
    rw [List.mem_singleton.mp he]
    show cut 64 "offline_pay_settlement" ≠ _
    decide)
  rw [receiverEntries, hsame] at hposted'
  replace hposted' := hposted.trans hposted'
  obtain ⟨_, s₂, hs, h⟩ := Method.returns_bind.mp h
  obtain ⟨legs, hflat, husers⟩ := receiverEntries_legs pg s input receiverUserId
  have hall : ((settlementJournal pg input).entry (settlementLegs pg input) ::
      receiverEntries pg s input receiverUserId).flatMap Entry.legs =
      mapAccounts LedgerAccount.code (settlementLegs pg input ++ legs) := by
    rw [List.flatMap_cons, hflat, mapAccounts_append]
    rfl
  have husers' : ∀ leg ∈ settlementLegs pg input ++ legs, ∀ u b, leg.account = .user u b →
      u ∈ affectedUserIds input receiverUserId := by
    intro leg hleg u b hu
    rcases List.mem_append.mp hleg with hleg | hleg
    · rw [settlementLegs_users pg input leg hleg u b hu]
      exact mem_affectedUserIds input receiverUserId
    · exact husers leg hleg u b hu
  obtain ⟨⟨rows, rfl⟩, hwrote⟩ := Posted.synced hposted' hall rfl (knows_of_rows husers' hrows) hs
  obtain ⟨projected, s₁, hp, h⟩ := Method.returns_bind.mp h
  obtain ⟨rfl, -⟩ := projected_ok hp
  obtain ⟨pending, s₁, hp', h⟩ := Method.returns_bind.mp h
  obtain ⟨rfl, -⟩ := projectedAccount_ok hp'
  obtain ⟨_, s₁, he, h⟩ := Method.returns_bind.mp h
  obtain ⟨events, m, rfl⟩ := enqueueOutboxEvent_ok he
  obtain ⟨rfl, rfl⟩ := Method.pure_returns.mp h
  exact ⟨rfl, rfl, rfl, not_lt.mp hcover, hwrote.around (Wrote.refl s) (Wrote.of_eq rfl rfl rfl)⟩

theorem finalizeOfflinePaySettlement_ok {input : FinalizeInput}
    {r : OfflinePaySettlementFinalizeResult}
    (h : finalizeOfflinePaySettlement pg input s = (.ok r, s')) :
    s'.deposits = s.deposits ∧ s'.withdrawals = s.withdrawals ∧
    ∃ receiverUserId, resolveOfflinePayReceiverUserId s input = .ok receiverUserId ∧
      (("offline_pay_settlement", input.settlementId) ∈ s.journalKeys ∧ r.duplicated = true ∧
        Wrote s s' (receiverEntries pg s input receiverUserId) ∨
      ("offline_pay_settlement", input.settlementId) ∉ s.journalKeys ∧ r.duplicated = false ∧
        input.amount ≤ s.offlinePayPending input.userId ∧
        Wrote s s' ((settlementJournal pg input).entry (settlementLegs pg input) ::
          receiverEntries pg s input receiverUserId)) := by
  obtain ⟨_, s₁, hk, h⟩ := Method.returns_bind.mp (withTransaction_ok h)
  obtain rfl := lockKey_ok hk
  obtain ⟨_, s₁, hg, h⟩ := Method.returns_bind.mp h
  obtain ⟨rfl, rfl⟩ := Method.get_returns.mp hg
  obtain ⟨receiverUserId, s₁, hc, h⟩ := Method.returns_bind.mp h
  obtain ⟨hreceiver, rfl⟩ := column_ok hc
  obtain ⟨_, s₁, hg', h⟩ := Method.returns_bind.mp h
  obtain ⟨rfl, rfl⟩ := Method.get_returns.mp hg'
  obtain ⟨_, s₁, hens, h⟩ := Method.returns_bind.mp h
  obtain ⟨⟨rows, rfl⟩, -, hall, hwrote⟩ := ensureAccounts_ok hens
  obtain ⟨_, s₁, hl, h⟩ := Method.returns_bind.mp h
  obtain rfl := lockUsers_ok hl
  have hrows : ∀ u ∈ affectedUserIds input receiverUserId, u.length ≤ 64 →
      ∃ row ∈ rows, row.userId = u := fun u hu => known_of_cut (hall u hu)
  rw [← findJournal_isSome]
  by_cases hknown : (s.findJournal "offline_pay_settlement" input.settlementId).isSome = true
  · rw [if_pos hknown] at h
    obtain ⟨hdup, hdeposits, hwithdrawals, hw⟩ := finalizeReplay_ok hrows h
    exact ⟨hdeposits, hwithdrawals, receiverUserId, hreceiver,
      Or.inl ⟨hknown, hdup, hw.around hwrote (Wrote.refl _)⟩⟩
  · rw [if_neg hknown] at h
    obtain ⟨hdup, hdeposits, hwithdrawals, hcover, hw⟩ := finalizeNew_ok hrows h
    exact ⟨hdeposits, hwithdrawals, receiverUserId, hreceiver,
      Or.inr ⟨hknown, hdup, hcover, hw.around hwrote (Wrote.refl _)⟩⟩

/-! ## compensations -/

def compensationLegs (input : CompensateInput) : List (Posting LedgerAccount ℤ) :=
  match input.releaseAction with
  | .release => move .offlinePayClearing (.user input.userId .offlinePayPending) input.amount
  | .adjust =>
    move (.user input.userId .available) (.user input.userId .offlinePayPending) input.amount

theorem compensationPostings_eq (input : CompensateInput) :
    (compensationJournal input).postings = writeLegs (compensationLegs input) := by
  show compensationPostings input = _
  unfold compensationPostings compensationLegs
  cases input.releaseAction with
  | release => rfl
  | adjust => rfl

theorem compensateNew_ok {input : CompensateInput} {r : OfflinePaySettlementFinalizeResult}
    (h : compensateNew pg input s = (.ok r, s')) :
    r.duplicated = false ∧ s'.deposits = s.deposits ∧ s'.withdrawals = s.withdrawals ∧
    Wrote s s' [(compensationJournal input).entry (compensationLegs input)] := by
  obtain ⟨_, s₁, hens, h⟩ := Method.returns_bind.mp h
  have hwrote := ensureAccount_wrote hens
  obtain ⟨⟨rows, rfl⟩, -, hrow, -⟩ := ensureAccount_ok hens
  obtain ⟨_, s₁, hl, h⟩ := Method.returns_bind.mp h
  obtain rfl := lockUsers_ok hl
  obtain ⟨_, s₁, hj, h⟩ := Method.returns_bind.mp h
  obtain ⟨_, s₂, hs, h⟩ := Method.returns_bind.mp h
  have husers : ∀ leg ∈ compensationLegs input, ∀ u b, leg.account = .user u b →
      u ∈ [input.userId] := by
    unfold compensationLegs
    cases input.releaseAction with
    | release => simp [move]
    | adjust => simp [move]
  obtain ⟨⟨ac, la, js, ps, n, rfl⟩, hsynced⟩ := journal_synced (compensationLegs input)
    (compensationPostings_eq input) hj hs husers (by simpa using known_of_cut hrow)
  obtain ⟨projected, s₁, hp, h⟩ := Method.returns_bind.mp h
  obtain ⟨rfl, -⟩ := projected_ok hp
  obtain ⟨pending, s₁, hp', h⟩ := Method.returns_bind.mp h
  obtain ⟨rfl, -⟩ := projectedAccount_ok hp'
  obtain ⟨_, s₁, he, h⟩ := Method.returns_bind.mp h
  obtain ⟨events, m, rfl⟩ := enqueueOutboxEvent_ok he
  obtain ⟨rfl, rfl⟩ := Method.pure_returns.mp h
  exact ⟨rfl, rfl, rfl, hsynced.around hwrote (Wrote.of_eq rfl rfl rfl)⟩

theorem compensateOfflinePaySettlement_ok {input : CompensateInput}
    {r : OfflinePaySettlementFinalizeResult}
    (h : compensateOfflinePaySettlement pg input s = (.ok r, s')) :
    (("offline_pay_settlement_compensation", input.settlementId) ∈ s.journalKeys ∧
      r.duplicated = true ∧ s' = s) ∨
    (("offline_pay_settlement_compensation", input.settlementId) ∉ s.journalKeys ∧
      compensateNew pg input s = (.ok r, s')) := by
  obtain ⟨_, s₁, hk, h⟩ := Method.returns_bind.mp (withTransaction_ok h)
  obtain rfl := lockKey_ok hk
  obtain ⟨_, s₁, hg, h⟩ := Method.returns_bind.mp h
  obtain ⟨rfl, rfl⟩ := Method.get_returns.mp hg
  rw [← findJournal_isSome]
  cases hfind : s.findJournal "offline_pay_settlement_compensation" input.settlementId with
  | none =>
    rw [hfind] at h
    exact Or.inr ⟨by simp, h⟩
  | some existing =>
    rw [hfind] at h
    obtain ⟨projected, s₁, hp, h⟩ := Method.returns_bind.mp h
    obtain ⟨rfl, -⟩ := projected_ok hp
    obtain ⟨pending, s₁, hp', h⟩ := Method.returns_bind.mp h
    obtain ⟨rfl, -⟩ := projectedAccount_ok hp'
    obtain ⟨rfl, rfl⟩ := Method.pure_returns.mp h
    exact Or.inl ⟨rfl, rfl, rfl⟩

/-! ## devices -/

theorem upsertOfflinePayDevice_writes (input : DeviceInput) (s : Db) :
    ∃ devices, (upsertOfflinePayDevice input s).2 = { s with offlinePayDevices := devices } := by
  unfold upsertOfflinePayDevice column
  rw [Method.ofExcept_bind]
  cases varchar 128 input.deviceId with
  | error e => exact ⟨s.offlinePayDevices, rfl⟩
  | ok deviceId =>
    simp only
    rw [Method.ofExcept_bind]
    cases varchar 64 input.userId with
    | error e => exact ⟨s.offlinePayDevices, rfl⟩
    | ok userId =>
      simp only [Method.modify_apply]
      split
      · exact ⟨_, rfl⟩
      · exact ⟨_, rfl⟩

/-! ## reconciliations -/

/-- an account moved by `delta` against the reconciliation account -/
def reconciliationLegs (account : LedgerAccount) (delta : ℤ) : List (Posting LedgerAccount ℤ) :=
  if 0 < delta then move .offlinePayReconciliation account |delta|
  else move account .offlinePayReconciliation |delta|

theorem reconciliationPostings_eq (account : LedgerAccount) (delta : ℤ) :
    reconciliationPostings account delta = writeLegs (reconciliationLegs account delta) := by
  have habs : (if delta < 0 then delta * -1 else delta) = |delta| := by
    split
    · next h => rw [abs_of_neg h, mul_neg_one]
    · next h => rw [abs_of_nonneg (not_lt.mp h)]
  unfold reconciliationPostings reconciliationLegs
  simp only [habs]
  split
  · rfl
  · rfl

theorem reconciliationLegs_users (userId : String) (b : Bucket) (delta : ℤ) :
    ∀ leg ∈ reconciliationLegs (.user userId b) delta, ∀ u c, leg.account = .user u c →
      u ∈ [userId] := by
  unfold reconciliationLegs
  split
  · simp [move]
  · simp [move]

theorem reconcileOfflinePayUserBalance_ok {input : ReconcileInput} {r : ReconcileResult}
    (h : reconcileOfflinePayUserBalance pg input s = (.ok r, s')) :
    s'.deposits = s.deposits ∧ s'.withdrawals = s.withdrawals ∧
    (Wrote s s' [] ∨ ∃ delta, delta = input.target -
        (s.available input.userId + (s.withdrawPending input.userId + s.offlinePayPending input.userId)) ∧
      Wrote s s' [(userReconciliationJournal input delta).entry
        (reconciliationLegs (.user input.userId .available) delta)]) := by
  obtain ⟨_, s₁, hens, h⟩ := Method.returns_bind.mp (withTransaction_ok h)
  have hwrote := ensureAccount_wrote hens
  obtain ⟨⟨rows, rfl⟩, -, hrow, -⟩ := ensureAccount_ok hens
  obtain ⟨account, s₁, hacc, h⟩ := Method.returns_bind.mp h
  obtain ⟨rfl, -⟩ := getAccountForUpdate_ok hacc
  obtain ⟨p, s₁, hp, h⟩ := Method.returns_bind.mp h
  obtain ⟨rfl, hbal, hlock, -⟩ := projected_ok hp
  split at h
  · obtain ⟨-, rfl⟩ := Method.pure_returns.mp h
    exact ⟨rfl, rfl, Or.inl hwrote⟩
  · obtain ⟨_, s₁, hg, h⟩ := Method.returns_bind.mp h
    obtain ⟨rfl, rfl⟩ := Method.get_returns.mp hg
    split at h
    · obtain ⟨-, rfl⟩ := Method.pure_returns.mp h
      exact ⟨rfl, rfl, Or.inl hwrote⟩
    · obtain ⟨_, s₁, hj, h⟩ := Method.returns_bind.mp h
      obtain ⟨_, s₂, hs, h⟩ := Method.returns_bind.mp h
      obtain ⟨⟨ac, la, js, ps, n, rfl⟩, hsynced⟩ := journal_synced
        (reconciliationLegs (.user input.userId .available) _) (reconciliationPostings_eq _ _) hj hs
        (reconciliationLegs_users _ _ _) (by simpa using known_of_cut hrow)
      obtain ⟨-, rfl⟩ := Method.pure_returns.mp h
      refine ⟨rfl, rfl, Or.inr ⟨_, ?_, hsynced.around hwrote (Wrote.refl _)⟩⟩
      rw [hbal, hlock]
      rfl

theorem reconcileOfflinePayPendingBalance_ok {input : ReconcileInput} {r : ReconcileResult}
    (h : reconcileOfflinePayPendingBalance pg input s = (.ok r, s')) :
    s'.deposits = s.deposits ∧ s'.withdrawals = s.withdrawals ∧
    (Wrote s s' [] ∨ ∃ delta, delta = input.target - s.offlinePayPending input.userId ∧
      Wrote s s' [(pendingReconciliationJournal input delta).entry
        (reconciliationLegs (.user input.userId .offlinePayPending) delta)]) := by
  obtain ⟨_, s₁, hens, h⟩ := Method.returns_bind.mp (withTransaction_ok h)
  have hwrote := ensureAccount_wrote hens
  obtain ⟨⟨rows, rfl⟩, -, hrow, -⟩ := ensureAccount_ok hens
  obtain ⟨account, s₁, hacc, h⟩ := Method.returns_bind.mp h
  obtain ⟨rfl, -⟩ := getAccountForUpdate_ok hacc
  obtain ⟨previous, s₁, hp, h⟩ := Method.returns_bind.mp h
  obtain ⟨rfl, rfl⟩ := projectedAccount_ok hp
  split at h
  · obtain ⟨-, rfl⟩ := Method.pure_returns.mp h
    exact ⟨rfl, rfl, Or.inl hwrote⟩
  · obtain ⟨_, s₁, hj, h⟩ := Method.returns_bind.mp h
    obtain ⟨_, s₂, hs, h⟩ := Method.returns_bind.mp h
    obtain ⟨⟨ac, la, js, ps, n, rfl⟩, hsynced⟩ := journal_synced
      (reconciliationLegs (.user input.userId .offlinePayPending) _) (reconciliationPostings_eq _ _) hj
      hs (reconciliationLegs_users _ _ _) (by simpa using known_of_cut hrow)
    obtain ⟨-, rfl⟩ := Method.pure_returns.mp h
    exact ⟨rfl, rfl, Or.inr ⟨_, rfl, hsynced.around hwrote (Wrote.refl _)⟩⟩

end

end Postgres
