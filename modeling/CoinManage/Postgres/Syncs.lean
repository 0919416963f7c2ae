import CoinManage.Postgres.Calls

/-!
# What the projections of a user depend on

The copy of a user's balances in `accounts` is written from the user's own postings.  Whether that can
be done, because the sums fit the columns, is said of these rows alone, and a call that appends to them
has rewritten the copy in the same transaction.

* `Syncable`          the copy of a user can be written from the postings there are;
* `Rest`              a step that leaves the rows of a user alone, unless it is one of a list;
* `Settles`           a block that posts to some users and then rewrites the copies of all of them;
* `Call.step_minds`   every call keeps every user syncable, and every journal.
-/

namespace Postgres

open Method

/-! ## the rows of a user -/

def ownCodes (userId : String) : List String :=
  [(LedgerAccount.user userId .available).code, (LedgerAccount.user userId .withdrawPending).code,
   (LedgerAccount.user userId .offlinePayPending).code]

def Db.rowsOf (s : Db) (userId : String) : List LedgerPostingRow :=
  s.ledgerPostings.filter fun row => row.ledgerAccountCode ∈ ownCodes userId

/-- what `getProjectedUserBalances` makes of the user's rows -/
def projectionOf (pg : PgServer) (userId : String) (rows : List LedgerPostingRow) : ProjectedBalances where
  balance := (rows.map fun row =>
    if row.ledgerAccountCode = (LedgerAccount.user userId .available).code then row.signed else 0).sum
  lockedBalance := (rows.map fun row =>
    if row.ledgerAccountCode = (LedgerAccount.user userId .withdrawPending).code then row.signed
    else if row.ledgerAccountCode = (LedgerAccount.user userId .offlinePayPending).code then row.signed
    else 0).sum
  updatedAt := latest pg (rows.map (·.createdAt))
  hasPostings := decide (0 < rows.length)

/-- the copy in `accounts` can be written from these rows -/
def Copyable (pg : PgServer) (userId : String) (rows : List LedgerPostingRow) : Prop :=
  0 < rows.length → ∃ balance lockedBalance updatedAt,
    Numeric.ofText (formatKoriAmount (projectionOf pg userId rows).balance) = .ok balance ∧
    Numeric.ofText (formatKoriAmount (projectionOf pg userId rows).lockedBalance) = .ok lockedBalance ∧
    ∀ nowIso, timestamp pg ((projectionOf pg userId rows).updatedAt.getD nowIso) = .ok updatedAt

def Syncable (pg : PgServer) (s : Db) (userId : String) : Prop := Copyable pg userId (s.rowsOf userId)

section
variable {pg : PgServer} {s s' : Db} {u : String} {U : List String} {α β : Type}

theorem projected_eq (pg : PgServer) (userId : String) (s : Db) :
    getProjectedUserBalances pg userId s = (.ok (projectionOf pg userId (s.rowsOf userId)), s) := by
  rw [getProjectedUserBalances, Method.get_bind]
  simp only [parse_sumText, Method.ofExcept_bind]
  rfl

theorem latest_isSome {times : List String} (h : 0 < times.length) : (latest pg times).isSome = true := by
  cases times with
  | nil => cases h
  | cons time times =>
    rw [latest]
    cases latest pg times with
    | none => rfl
    | some other =>
      simp only
      split
      · rfl
      · rfl

theorem Syncable.of_rows (h : Syncable pg s u) (hrows : s'.rowsOf u = s.rowsOf u) : Syncable pg s' u := by
  rw [Syncable, hrows]
  exact h

/-- where a user is syncable the copy is written, and nothing else -/
theorem syncUser_of_syncable (h : Syncable pg s u) (nowIso : String) :
    ∃ rows, syncUser pg nowIso u s = (.ok (), { s with accounts := rows }) := by
  rw [syncUser, Method.bind_apply, projected_eq]
  simp only
  by_cases hrows : 0 < (s.rowsOf u).length
  · obtain ⟨balance, lockedBalance, updatedAt, hbalance, hlocked, htime⟩ := h hrows
    have hhas : (projectionOf pg u (s.rowsOf u)).hasPostings = true := decide_eq_true hrows
    rw [if_pos hhas]
    simp only [column, hbalance, hlocked, htime, Method.ofExcept_bind]
    exact ⟨_, rfl⟩
  · have hhas : ¬ (projectionOf pg u (s.rowsOf u)).hasPostings = true := by
      intro h
      exact hrows (of_decide_eq_true h)
    rw [if_neg hhas]
    exact ⟨s.accounts, rfl⟩

/-- a copy that was written can be written again -/
theorem syncable_of_syncUser {nowIso : String} {v : Unit} (h : syncUser pg nowIso u s = (.ok v, s')) :
    Syncable pg s' u := by
  obtain ⟨⟨accounts, rfl⟩, -⟩ := syncUser_ok h
  intro hrows
  replace hrows : 0 < (s.rowsOf u).length := hrows
  obtain ⟨p, s₁, hp, h⟩ := Method.returns_bind.mp h
  rw [projected_eq] at hp
  obtain ⟨hq, rfl⟩ := Prod.mk.inj hp
  obtain rfl := Except.ok.inj hq
  have hhas : (projectionOf pg u (s.rowsOf u)).hasPostings = true := decide_eq_true hrows
  rw [if_pos hhas] at h
  obtain ⟨balance, s₁, hbc, h⟩ := Method.returns_bind.mp h
  obtain ⟨hb, rfl⟩ := column_ok hbc
  obtain ⟨locked, s₁, hlc, h⟩ := Method.returns_bind.mp h
  obtain ⟨hl, rfl⟩ := column_ok hlc
  obtain ⟨updatedAt, s₁, ht, h⟩ := Method.returns_bind.mp h
  obtain ⟨htime, rfl⟩ := column_ok ht
  refine ⟨balance, locked, updatedAt, hb, hl, fun other => ?_⟩
  have hsome : (projectionOf pg u (s.rowsOf u)).updatedAt.isSome = true :=
    latest_isSome (by rwa [List.length_map])
  obtain ⟨time, htimes⟩ := Option.isSome_iff_exists.mp hsome
  show timestamp pg ((projectionOf pg u (s.rowsOf u)).updatedAt.getD other) = .ok updatedAt
  rw [htimes] at htime ⊢
  exact htime

/-! ## steps that leave the rows alone -/

/-- the journals stay, and so do the rows of a user who is not one of `U` -/
structure Rest (U : List String) (u : String) (s s' : Db) : Prop where
  journals : ∀ journal ∈ s.ledgerJournals, journal ∈ s'.ledgerJournals
  rows : u ∉ U → s'.rowsOf u = s.rowsOf u

theorem Rest.refl (s : Db) : Rest U u s s := ⟨fun _ h => h, fun _ => rfl⟩

theorem Rest.trans {s₁ s₂ s₃ : Db} (h : Rest U u s₁ s₂) (h' : Rest U u s₂ s₃) : Rest U u s₁ s₃ :=
  ⟨fun journal hj => h'.journals journal (h.journals journal hj),
   fun hu => (h'.rows hu).trans (h.rows hu)⟩

/-- other tables -/
theorem Rest.of_eq (hj : s'.ledgerJournals = s.ledgerJournals) (hp : s'.ledgerPostings = s.ledgerPostings) :
    Rest U u s s' := by
  constructor
  · rw [hj]
    exact fun _ h => h
  · intro _
    rw [Db.rowsOf, Db.rowsOf, hp]

theorem rests_pure (a : α) : Keeps (Rest U u) (pure a : Op α) := Keeps.pure Rest.refl a

theorem rests_throw (e : LedgerError) : Keeps (Rest U u) (throw e : Op α) := Keeps.throw Rest.refl e

theorem rests_get : Keeps (Rest U u) (get : Op Db) := Keeps.get Rest.refl

theorem rests_bind {m : Op α} {f : α → Op β} (hm : Keeps (Rest U u) m) (hf : ∀ a, Keeps (Rest U u) (f a)) :
    Keeps (Rest U u) (m >>= f) := Keeps.bind (R := Rest U u) Rest.trans hm hf

theorem rests_of_same {m : Op α} (h : ∀ s, (m s).2 = s) : Keeps (Rest U u) m := by
  intro s
  rw [h s]
  exact Rest.refl s

theorem rests_ofExcept (r : Except LedgerError α) : Keeps (Rest U u) (Method.ofExcept r : Op α) :=
  rests_of_same fun _ => rfl

theorem rests_column (r : Except LedgerError α) : Keeps (Rest U u) (column r) := rests_ofExcept r

theorem rests_throwWhen (c : Prop) [Decidable c] (e : LedgerError) :
    Keeps (Rest U u) (Method.throwWhen c e : Op Unit) := by
  rw [Method.throwWhen]
  exact Keeps.ite (rests_throw e) (rests_pure _)

theorem rests_lockKey (key : String) : Keeps (Rest U u) (lockKey key) :=
  rests_bind (rests_column _) fun _ => rests_pure _

theorem rests_lockUsers (userIds : List String) : Keeps (Rest U u) (lockUsers userIds) := by
  induction userIds with
  | nil => exact rests_pure _
  | cons userId userIds ih => exact rests_bind (rests_lockKey _) fun _ => ih

theorem rests_randomUUID : Keeps (Rest U u) (randomUUID pg) := fun _ => Rest.of_eq rfl rfl

theorem rests_ensureAccount (userId nowIso : String) : Keeps (Rest U u) (ensureAccount pg userId nowIso) := by
  refine rests_bind (rests_column _) fun _ => rests_bind (rests_column _) fun _ => ?_
  apply Keeps.modify
  intro s
  split
  · exact Rest.refl s
  · exact Rest.of_eq rfl rfl

theorem rests_ensureAccounts (nowIso : String) (userIds : List String) :
    Keeps (Rest U u) (ensureAccounts pg nowIso userIds) := by
  induction userIds with
  | nil => exact rests_pure _
  | cons userId userIds ih => exact rests_bind (rests_ensureAccount _ _) fun _ => ih

theorem rests_getAccountForUpdate (userId : String) : Keeps (Rest U u) (getAccountForUpdate userId) := by
  refine rests_bind rests_get fun s => ?_
  split
  · exact rests_pure _
  · exact rests_throw _

theorem rests_projected (userId : String) : Keeps (Rest U u) (getProjectedUserBalances pg userId) := by
  apply rests_of_same
  intro s
  rw [projected_eq]

theorem rests_projectedAccount (account : LedgerAccount) :
    Keeps (Rest U u) (getProjectedLedgerAccountBalance account) := by
  apply rests_of_same
  intro s
  rw [projectedAccount_apply]

theorem rests_availableBalanceOf (account : AccountRow) (projected : ProjectedBalances) :
    Keeps (Rest U u) (availableBalanceOf account projected) :=
  Keeps.ite (rests_pure _) (rests_ofExcept _)

theorem rests_lockedBalanceOf (account : AccountRow) (projected : ProjectedBalances) :
    Keeps (Rest U u) (lockedBalanceOf account projected) :=
  Keeps.ite (rests_pure _) (rests_ofExcept _)

theorem rests_syncEach (nowIso : String) (userIds : List String) :
    Keeps (Rest U u) (syncEach pg nowIso userIds) := by
  induction userIds with
  | nil => exact rests_pure _
  | cons userId userIds ih =>
    refine rests_bind ?_ fun _ => ih
    refine rests_bind (rests_projected _) fun projected => Keeps.ite ?_ (rests_pure _)
    refine rests_bind (rests_column _) fun _ => rests_bind (rests_column _) fun _ =>
      rests_bind (rests_column _) fun _ => ?_
    exact Keeps.modify fun _ => Rest.of_eq rfl rfl

theorem rests_enqueueOutboxEvent (input : EnqueueInput) : Keeps (Rest U u) (enqueueOutboxEvent pg input) := by
  refine rests_bind rests_randomUUID fun _ => rests_bind (rests_column _) fun _ =>
    rests_bind rests_get fun _ => rests_bind (rests_throwWhen _ _) fun _ => ?_
  exact Keeps.modify fun _ => Rest.of_eq rfl rfl

theorem rests_insertTransaction (values : TransactionValues) :
    Keeps (Rest U u) (insertTransaction pg values) :=
  rests_bind (rests_column _) fun _ => rests_bind rests_get fun _ => rests_bind (rests_throwWhen _ _) fun _ =>
    Keeps.modify fun _ => Rest.of_eq rfl rfl

theorem rests_insertTransactionPair (out into : TransactionValues) :
    Keeps (Rest U u) (insertTransactionPair pg out into) :=
  rests_bind (rests_column _) fun _ => rests_bind (rests_column _) fun _ => rests_bind rests_get fun _ =>
    rests_bind (rests_throwWhen _ _) fun _ => Keeps.modify fun _ => Rest.of_eq rfl rfl

theorem rests_insertDeposit (depositId : String) (input : DepositInput) :
    Keeps (Rest U u) (insertDeposit pg depositId input) :=
  rests_bind (rests_column _) fun _ => rests_bind rests_get fun _ => rests_bind (rests_throwWhen _ _) fun _ =>
    Keeps.modify fun _ => Rest.of_eq rfl rfl

theorem rests_insertWithdrawal (withdrawalId ledgerTxId : String) (input : WithdrawalInput) :
    Keeps (Rest U u) (insertWithdrawal pg withdrawalId ledgerTxId input) :=
  rests_bind (rests_column _) fun _ => rests_bind rests_get fun _ => rests_bind (rests_throwWhen _ _) fun _ =>
    Keeps.modify fun _ => Rest.of_eq rfl rfl

theorem rests_insertApproval (approvalId withdrawalId : String) (input : ApprovalInput) (nowIso : String) :
    Keeps (Rest U u) (insertApproval pg approvalId withdrawalId input nowIso) :=
  rests_bind (rests_column _) fun _ => rests_bind rests_get fun _ => rests_bind (rests_throwWhen _ _) fun _ =>
    Keeps.modify fun _ => Rest.of_eq rfl rfl

theorem rests_insertSweep (sweepId : String) (input : SweepInput) :
    Keeps (Rest U u) (insertSweep pg sweepId input) :=
  rests_bind (rests_column _) fun _ => rests_bind rests_get fun _ => rests_bind (rests_throwWhen _ _) fun _ =>
    rests_bind (Keeps.modify fun _ => Rest.of_eq rfl rfl) fun _ => rests_pure _

theorem rests_getWithdrawalForUpdate (withdrawalId : String) :
    Keeps (Rest U u) (getWithdrawalForUpdate pg withdrawalId) := by
  refine rests_bind (rests_column _) fun _ => rests_bind rests_get fun s => ?_
  split
  · exact rests_pure _
  · exact rests_throw _

theorem rests_updateWithdrawal (withdrawalId : String) (change : WithdrawalRow → WithdrawalRow) :
    Keeps (Rest U u) (updateWithdrawal pg withdrawalId change) :=
  rests_bind (rests_column _) fun _ => Keeps.modify fun _ => Rest.of_eq rfl rfl

theorem rests_updateTransaction (txId : String) (change : TransactionRow → TransactionRow) :
    Keeps (Rest U u) (updateTransaction pg txId change) :=
  rests_bind (rests_column _) fun _ => Keeps.modify fun _ => Rest.of_eq rfl rfl

theorem rests_hydrateWithdrawal (row : WithdrawalRow) : Keeps (Rest U u) (hydrateWithdrawal row) :=
  rests_bind rests_get fun _ => rests_ofExcept _

theorem rests_announceWithdrawal (hydrated : Withdrawal) (aggregateId occurredAt : String) :
    Keeps (Rest U u) (announceWithdrawal pg hydrated aggregateId occurredAt) :=
  rests_bind (rests_ofExcept _) fun _ => rests_enqueueOutboxEvent _

theorem rests_announceUpdated (withdrawalId nowIso : String) :
    Keeps (Rest U u) (announceUpdated pg withdrawalId nowIso) :=
  rests_bind (rests_getWithdrawalForUpdate _) fun _ => rests_bind (rests_hydrateWithdrawal _) fun _ =>
    rests_bind (rests_announceWithdrawal _ _ _) fun _ => rests_pure _

theorem rests_assertReserved (mapped : Withdrawal) : Keeps (Rest U u) (assertReserved pg mapped) :=
  rests_bind (rests_lockUsers _) fun _ => rests_bind (rests_getAccountForUpdate _) fun _ =>
    rests_bind (rests_projected _) fun _ => rests_bind (rests_lockedBalanceOf _ _) fun _ =>
      rests_throwWhen _ _

theorem rests_getDailyRequested (userId nowIso : String) :
    Keeps (Rest U u) (getDailyRequestedWithdrawalAmount pg userId nowIso) :=
  rests_bind (rests_column _) fun _ => rests_bind rests_get fun _ => rests_ofExcept _

theorem rests_persistReceipt (referenceType : FeeReferenceType) (referenceId : String) (fee : NetworkFee)
    (nowIso : String) : Keeps (Rest U u) (persistNetworkFeeReceipt pg referenceType referenceId fee nowIso) := by
  refine rests_bind rests_randomUUID fun _ => rests_bind (rests_column _) fun _ => ?_
  apply Keeps.modify
  intro s
  split
  · exact Rest.refl s
  · exact Rest.of_eq rfl rfl

/-! ## journals -/

theorem rests_ensureLedgerAccounts (currencyCode nowIso : String) (postings : List LedgerPostingInput) :
    Keeps (Rest U u) (ensureLedgerAccounts pg currencyCode nowIso postings) := by
  induction postings with
  | nil => exact rests_pure _
  | cons posting postings ih =>
    refine rests_bind ?_ fun _ => ih
    refine rests_bind (rests_column _) fun _ => rests_bind (rests_column _) fun _ =>
      rests_bind (rests_column _) fun _ => ?_
    apply Keeps.modify
    intro s
    split
    · exact Rest.refl s
    · exact Rest.of_eq rfl rfl

/-- the legs touch no account of `u`, unless `u` is one of `U` -/
def LegsIn (U : List String) (u : String) (legs : List (DoubleEntry.Posting LedgerAccount ℤ)) : Prop :=
  u ∉ U → ∀ leg ∈ legs, ∀ b, leg.account ≠ .user u b

theorem mem_ownCodes {code : String} : code ∈ ownCodes u ↔ ∃ b, code = (LedgerAccount.user u b).code := by
  simp only [ownCodes, List.mem_cons, List.not_mem_nil, or_false]
  constructor
  · rintro (h | h | h)
    · exact ⟨.available, h⟩
    · exact ⟨.withdrawPending, h⟩
    · exact ⟨.offlinePayPending, h⟩
  · rintro ⟨b, h⟩
    cases b with
    | available => exact Or.inl h
    | withdrawPending => exact Or.inr (Or.inl h)
    | offlinePayPending => exact Or.inr (Or.inr h)

theorem rests_insertPostings (journalId nowIso : String) {legs : List (DoubleEntry.Posting LedgerAccount ℤ)}
    (hlegs : LegsIn U u legs) : Keeps (Rest U u) (insertPostings pg journalId nowIso (writeLegs legs)) := by
  intro s
  rcases insertPostings_cases pg journalId nowIso legs s with ⟨e, n, h⟩ | ⟨rows, n, -, hrows, h⟩
  · rw [h]
    exact Rest.of_eq rfl rfl
  · rw [h]
    refine ⟨fun _ hj => hj, fun hu => ?_⟩
    have hnone : rows.filter (fun row => row.ledgerAccountCode ∈ ownCodes u) = [] := by
      rw [List.filter_eq_nil_iff]
      intro row hrow hcode
      obtain ⟨b, hb⟩ := mem_ownCodes.mp (of_decide_eq_true hcode)
      have hmem : row.toPosting ∈ DoubleEntry.mapAccounts LedgerAccount.code legs := by
        rw [← hrows]
        exact List.mem_map_of_mem hrow
      obtain ⟨leg, hleg, heq⟩ := List.mem_map.mp hmem
      have haccount : leg.account.code = row.ledgerAccountCode :=
        congrArg DoubleEntry.Posting.account heq
      rw [hb] at haccount
      exact hlegs hu leg hleg b (LedgerAccount.code_injective haccount)
    show (s.ledgerPostings ++ rows).filter _ = s.ledgerPostings.filter _
    rw [List.filter_append, hnone, List.append_nil]

theorem rests_appendJournal (input : JournalInput) {legs : List (DoubleEntry.Posting LedgerAccount ℤ)}
    (heq : input.postings = writeLegs legs) (hlegs : LegsIn U u legs) :
    Keeps (Rest U u) (appendJournal pg input) := by
  refine rests_bind rests_randomUUID fun journalId => rests_bind ?_ fun _ =>
    rests_bind (rests_ensureLedgerAccounts _ _ _) fun _ => ?_
  · refine rests_bind (rests_column _) fun row => rests_bind rests_get fun _ =>
      rests_bind (rests_throwWhen _ _) fun _ => ?_
    apply Keeps.modify
    intro s
    exact ⟨fun _ hj => List.mem_append_left _ hj, fun _ => rfl⟩
  · rw [heq]
    exact rests_insertPostings journalId input.nowIso hlegs

/-! ## blocks that end with the copies -/

/-- what holds when the method returns: the users of `U` have been copied, the others left alone -/
def Settles (pg : PgServer) (U : List String) (u : String) (m : Op α) : Prop :=
  ∀ s a s', m s = (.ok a, s') →
    (∀ journal ∈ s.ledgerJournals, journal ∈ s'.ledgerJournals) ∧
    (u ∈ U → Syncable pg s' u) ∧ (u ∉ U → s'.rowsOf u = s.rowsOf u)

/-- what a call must keep -/
def Minds (pg : PgServer) (u : String) (s s' : Db) : Prop :=
  (∀ journal ∈ s.ledgerJournals, journal ∈ s'.ledgerJournals) ∧ (Syncable pg s u → Syncable pg s' u)

theorem Rest.minds (h : Rest [] u s s') : Minds pg u s s' :=
  ⟨h.journals, fun hs => hs.of_rows (h.rows List.not_mem_nil)⟩

theorem keeps_returns {R : Db → Db → Prop} {m : Op α} (h : Keeps R m) {a : α} (hm : m s = (.ok a, s')) :
    R s s' := by
  have hs := h s
  rwa [hm] at hs

theorem Settles.after {m : Op α} {f : α → Op β} (hm : Keeps (Rest U u) m) (hf : ∀ a, Settles pg U u (f a)) :
    Settles pg U u (m >>= f) := by
  intro s b s' h
  obtain ⟨a, s₁, h₁, h₂⟩ := Method.returns_bind.mp h
  have hrest := keeps_returns hm h₁
  obtain ⟨hjournals, hin, hout⟩ := hf a s₁ b s' h₂
  exact ⟨fun journal hj => hjournals journal (hrest.journals journal hj), hin,
    fun hu => (hout hu).trans (hrest.rows hu)⟩

theorem syncable_of_syncEach {nowIso : String} {userIds : List String} {v : Unit}
    (h : syncEach pg nowIso userIds s = (.ok v, s')) (hu : u ∈ userIds) : Syncable pg s' u := by
  induction userIds generalizing s with
  | nil => cases hu
  | cons userId userIds ih =>
    obtain ⟨_, s₁, hfirst, hrest⟩ := Method.returns_bind.mp h
    rcases List.mem_cons.mp hu with rfl | hu
    · have hkept : Rest [] u s₁ s' := keeps_returns (rests_syncEach nowIso userIds) hrest
      exact (syncable_of_syncUser hfirst).of_rows (hkept.rows List.not_mem_nil)
    · exact ih hrest hu

/-- the copies, and what comes after them -/
theorem settles_sync {nowIso : String} {f : Unit → Op β} (hf : ∀ a, Keeps (Rest [] u) (f a)) :
    Settles pg U u (syncUserAccountProjection pg U nowIso >>= f) := by
  intro s b s' h
  obtain ⟨_, s₁, hsync, h₂⟩ := Method.returns_bind.mp h
  have hfirst : Rest [] u s s₁ := keeps_returns (rests_syncEach nowIso U.dedup) hsync
  have hlast := keeps_returns (hf _) h₂
  refine ⟨(hfirst.trans hlast).journals, fun hu => ?_, fun _ => (hfirst.trans hlast).rows List.not_mem_nil⟩
  exact (syncable_of_syncEach hsync (List.mem_dedup.mpr hu)).of_rows (hlast.rows List.not_mem_nil)

theorem Settles.minds {m : Op α} (h : Settles pg U u m) {a : α} (hm : m s = (.ok a, s')) :
    Minds pg u s s' := by
  obtain ⟨hjournals, hin, hout⟩ := h s a s' hm
  refine ⟨hjournals, fun hs => ?_⟩
  by_cases hu : u ∈ U
  · exact hin hu
  · exact hs.of_rows (hout hu)

/-! ## calls -/

/-- what the method keeps when it returns -/
def MindsRun (pg : PgServer) (u : String) (m : Op α) : Prop :=
  ∀ s a s', m s = (.ok a, s') → Minds pg u s s'

theorem Minds.trans {s₁ s₂ s₃ : Db} (h : Minds pg u s₁ s₂) (h' : Minds pg u s₂ s₃) : Minds pg u s₁ s₃ :=
  ⟨fun journal hj => h'.1 journal (h.1 journal hj), fun hs => h'.2 (h.2 hs)⟩

theorem minds_of_rests {m : Op α} (h : Keeps (Rest [] u) m) : MindsRun pg u m :=
  fun _ _ _ hm => (keeps_returns h hm).minds

theorem minds_after {m : Op α} {f : α → Op β} (hm : Keeps (Rest [] u) m) (hf : ∀ a, MindsRun pg u (f a)) :
    MindsRun pg u (m >>= f) := by
  intro s b s' h
  obtain ⟨a, s₁, h₁, h₂⟩ := Method.returns_bind.mp h
  exact (keeps_returns hm h₁).minds.trans (hf a s₁ b s' h₂)

theorem minds_of_settles (U : List String) {m : Op α} (h : Settles pg U u m) : MindsRun pg u m :=
  fun _ _ _ hm => h.minds hm

theorem minds_ite {c : Prop} [Decidable c] {m n : Op α} (hm : MindsRun pg u m) (hn : MindsRun pg u n) :
    MindsRun pg u (if c then m else n) := by
  split
  · exact hm
  · exact hn

theorem minds_transaction {work : Op α} (h : MindsRun pg u work) : MindsRun pg u (withTransaction work) :=
  fun s a s' hm => h s a s' (withTransaction_ok hm)

/-- legs to users of the list only -/
theorem legsIn_of {legs : List (DoubleEntry.Posting LedgerAccount ℤ)}
    (h : ∀ leg ∈ legs, ∀ v b, leg.account = .user v b → v ∈ U) : LegsIn U u legs :=
  fun hu leg hleg b heq => hu (h leg hleg u b heq)

theorem settles_deposit (input : DepositInput) : Settles pg [input.userId] u (applyNewDeposit pg input) := by
  have hlegs : LegsIn [input.userId] u (depositLegs input) :=
    legsIn_of (by simp [depositLegs, DoubleEntry.move])
  refine Settles.after (rests_ensureAccount _ _) fun _ => Settles.after (rests_getAccountForUpdate _) fun _ =>
    Settles.after rests_randomUUID fun _ => Settles.after rests_randomUUID fun _ =>
    Settles.after (rests_insertTransaction _) fun _ => Settles.after (rests_insertDeposit _ _) fun _ =>
    Settles.after (rests_appendJournal (depositJournal _ input) rfl hlegs) fun _ => settles_sync fun _ => ?_
  exact rests_bind (rests_ofExcept _) fun _ => rests_bind (rests_enqueueOutboxEvent _) fun _ => rests_pure _

theorem settles_credit (input : ExternalCreditInput) (currencyCode : String) :
    Settles pg [input.userId] u (applyNewExternalCredit pg input currencyCode) := by
  have hlegs : LegsIn [input.userId] u (creditLegs input) :=
    legsIn_of (by simp [creditLegs, DoubleEntry.move])
  refine Settles.after (rests_ensureAccount _ _) fun _ => Settles.after (rests_lockUsers _) fun _ =>
    Settles.after (rests_appendJournal (externalCreditJournal input _) rfl hlegs) fun _ => settles_sync fun _ => ?_
  exact rests_pure _

theorem settles_transfer (input : TransferInput) :
    Settles pg [input.fromUserId, input.toUserId] u (transferNew pg input) := by
  have hlegs : LegsIn [input.fromUserId, input.toUserId] u (transferLegs input) :=
    legsIn_of (by simp [transferLegs, DoubleEntry.move])
  refine Settles.after (rests_ensureAccount _ _) fun _ => Settles.after (rests_ensureAccount _ _) fun _ =>
    Settles.after (rests_getAccountForUpdate _) fun _ => Settles.after (rests_getAccountForUpdate _) fun _ =>
    Settles.after (rests_projected _) fun _ => Settles.after (rests_availableBalanceOf _ _) fun _ =>
    Settles.after (rests_throwWhen _ _) fun _ => Settles.after rests_randomUUID fun _ =>
    Settles.after rests_randomUUID fun _ => Settles.after (rests_insertTransactionPair _ _) fun _ =>
    Settles.after (rests_appendJournal (transferJournal input) rfl hlegs) fun _ => settles_sync fun _ => ?_
  exact rests_pure _

theorem settles_request (limits : WithdrawalLimitConfig) (input : WithdrawalInput) :
    Settles pg [input.userId] u (requestNewWithdrawal pg limits input) := by
  have hlegs : LegsIn [input.userId] u (reserveLegs input) :=
    legsIn_of (by simp [reserveLegs, DoubleEntry.move])
  refine Settles.after (rests_ensureAccount _ _) fun _ => Settles.after (rests_getAccountForUpdate _) fun _ =>
    Settles.after (rests_projected _) fun _ => Settles.after (rests_availableBalanceOf _ _) fun _ =>
    Settles.after (rests_throwWhen _ _) fun _ => Settles.after (rests_getDailyRequested _ _) fun _ =>
    Settles.after (rests_throwWhen _ _) fun _ => Settles.after rests_randomUUID fun _ =>
    Settles.after rests_randomUUID fun _ => Settles.after (rests_insertTransaction _) fun _ =>
    Settles.after (rests_insertWithdrawal _ _ _) fun _ =>
    Settles.after (rests_appendJournal (reserveJournal _ input) rfl hlegs) fun _ => settles_sync fun _ => ?_
  exact rests_bind (rests_getWithdrawalForUpdate _) fun _ => rests_bind (rests_hydrateWithdrawal _) fun _ =>
    rests_bind (rests_announceWithdrawal _ _ _) fun _ => rests_pure _

theorem rests_recordNetworkFee (withdrawalId : String) (txHash : Option String) (networkFee : Option NetworkFee)
    (nowIso : String) : Keeps (Rest U u) (recordNetworkFee pg withdrawalId txHash networkFee nowIso) := by
  unfold recordNetworkFee
  split
  · next fee hash _ =>
    have hlegs : LegsIn U u (withdrawalFeeLegs fee) := legsIn_of (by simp [withdrawalFeeLegs, DoubleEntry.move])
    exact rests_bind (rests_persistReceipt _ _ _ _) fun _ =>
      rests_appendJournal (withdrawalFeeJournal _ _ fee _) rfl hlegs
  · exact rests_pure _

theorem minds_confirmWithdrawal (withdrawalId : String) (networkFee : Option NetworkFee) (nowIso : String) :
    MindsRun pg u (confirmWithdrawal pg withdrawalId networkFee nowIso) := by
  refine minds_transaction (minds_after (rests_lockKey _) fun _ =>
    minds_after (rests_getWithdrawalForUpdate _) fun _ => minds_after (rests_throwWhen _ _) fun _ =>
    minds_after (rests_hydrateWithdrawal _) fun mapped => minds_of_settles [mapped.userId] ?_)
  have hlegs : LegsIn [mapped.userId] u (completeLegs mapped) :=
    legsIn_of (by simp [completeLegs, DoubleEntry.move])
  exact Settles.after (rests_assertReserved _) fun _ => Settles.after (rests_updateTransaction _ _) fun _ =>
    Settles.after (rests_column _) fun _ => Settles.after (rests_updateWithdrawal _ _) fun _ =>
    Settles.after (rests_appendJournal (completeJournal _ mapped _) rfl hlegs) fun _ =>
    Settles.after (rests_recordNetworkFee _ _ _ _) fun _ => settles_sync fun _ => rests_announceUpdated _ _

theorem minds_failWithdrawal (withdrawalId reason nowIso : String) :
    MindsRun pg u (failWithdrawal pg withdrawalId reason nowIso) := by
  refine minds_transaction (minds_after (rests_lockKey _) fun _ =>
    minds_after (rests_getWithdrawalForUpdate _) fun _ => minds_after (rests_throwWhen _ _) fun _ =>
    minds_after (rests_hydrateWithdrawal _) fun mapped => minds_of_settles [mapped.userId] ?_)
  have hlegs : LegsIn [mapped.userId] u (releaseLegs mapped) :=
    legsIn_of (by simp [releaseLegs, DoubleEntry.move])
  exact Settles.after (rests_assertReserved _) fun _ => Settles.after (rests_updateTransaction _ _) fun _ =>
    Settles.after (rests_column _) fun _ => Settles.after (rests_column _) fun _ =>
    Settles.after (rests_updateWithdrawal _ _) fun _ =>
    Settles.after (rests_appendJournal (releaseJournal _ _ mapped _) rfl hlegs) fun _ =>
    settles_sync fun _ => rests_announceUpdated _ _

theorem settles_lock (input : LockInput) : Settles pg [input.userId] u (lockNewCollateral pg input) := by
  have hlegs : LegsIn [input.userId] u (lockLegs input) := legsIn_of (by simp [lockLegs, DoubleEntry.move])
  refine Settles.after (rests_ensureAccount _ _) fun _ => Settles.after (rests_getAccountForUpdate _) fun _ =>
    Settles.after (rests_projected _) fun _ => Settles.after (rests_availableBalanceOf _ _) fun _ =>
    Settles.after (rests_throwWhen _ _) fun _ =>
    Settles.after (rests_appendJournal (lockJournal input) rfl hlegs) fun _ => settles_sync fun _ => ?_
  exact rests_bind (rests_enqueueOutboxEvent _) fun _ => rests_pure _

theorem settles_release (input : ReleaseInput) : Settles pg [input.userId] u (releaseNewCollateral pg input) := by
  have hlegs : LegsIn [input.userId] u (releaseCollateralLegs input) :=
    legsIn_of (by simp [releaseCollateralLegs, DoubleEntry.move])
  refine Settles.after (rests_ensureAccount _ _) fun _ => Settles.after (rests_lockUsers _) fun _ =>
    Settles.after (rests_projectedAccount _) fun _ => Settles.after (rests_throwWhen _ _) fun _ =>
    Settles.after (rests_appendJournal (releaseCollateralJournal input) rfl hlegs) fun _ =>
    settles_sync fun _ => ?_
  exact rests_bind (rests_enqueueOutboxEvent _) fun _ => rests_pure _

/-- the receiver of a settlement is one of the affected users -/
theorem rests_creditReceiver (input : FinalizeInput) (receiverUserId : Option String) :
    Keeps (Rest (affectedUserIds input receiverUserId) u) (creditReceiver pg input receiverUserId) := by
  unfold creditReceiver appendOfflinePayReceiverSettlementIfNeeded
  by_cases hrequested : input.requested = true
  · rw [if_pos hrequested]
    cases htruthy : truthy receiverUserId with
    | none => exact rests_pure _
    | some receiver =>
      have hmem : receiver ∈ affectedUserIds input receiverUserId := by
        simp [affectedUserIds, htruthy, hrequested]
      have hlegs : LegsIn (affectedUserIds input receiverUserId) u (receiverLegs pg input receiver) := by
        apply legsIn_of
        intro leg hleg v b hv
        rcases List.mem_cons.mp hleg with rfl | hleg
        · cases hv
        · rw [List.mem_singleton.mp hleg] at hv
          rw [← (LedgerAccount.user.inj hv).1]
          exact hmem
      refine Keeps.ite (rests_pure _) (rests_bind rests_get fun s => ?_)
      split
      · exact rests_pure _
      · exact rests_appendJournal (receiverJournal input receiver _) rfl hlegs
  · rw [if_neg hrequested]
    exact rests_pure _

theorem settles_finalizeReplay (input : FinalizeInput) (receiverUserId : Option String) :
    Settles pg (affectedUserIds input receiverUserId) u (finalizeReplay pg input receiverUserId) := by
  refine Settles.after (rests_creditReceiver input receiverUserId) fun _ => settles_sync fun _ => ?_
  exact rests_bind (rests_projected _) fun _ => rests_bind (rests_projectedAccount _) fun _ => rests_pure _

theorem settles_finalizeNew (input : FinalizeInput) (receiverUserId : Option String) :
    Settles pg (affectedUserIds input receiverUserId) u (finalizeNew pg input receiverUserId) := by
  have hlegs : LegsIn (affectedUserIds input receiverUserId) u (settlementLegs pg input) := by
    apply legsIn_of
    intro leg hleg v b hv
    rw [settlementLegs_users pg input leg hleg v b hv]
    exact mem_affectedUserIds input receiverUserId
  refine Settles.after (rests_throwWhen _ _) fun _ => Settles.after (rests_throwWhen _ _) fun _ =>
    Settles.after (rests_projectedAccount _) fun _ => Settles.after (rests_throwWhen _ _) fun _ =>
    Settles.after (rests_appendJournal (settlementJournal pg input) (settlementPostings_eq pg input) hlegs) fun _ =>
    Settles.after (rests_creditReceiver input receiverUserId) fun _ => settles_sync fun _ => ?_
  exact rests_bind (rests_projected _) fun _ => rests_bind (rests_projectedAccount _) fun _ =>
    rests_bind (rests_enqueueOutboxEvent _) fun _ => rests_pure _

theorem minds_finalize (input : FinalizeInput) : MindsRun pg u (finalizeOfflinePaySettlement pg input) :=
  minds_transaction (minds_after (rests_lockKey _) fun _ => minds_after rests_get fun _ =>
    minds_after (rests_column _) fun receiverUserId => minds_after rests_get fun _ =>
    minds_after (rests_ensureAccounts _ _) fun _ => minds_after (rests_lockUsers _) fun _ =>
    minds_ite (minds_of_settles _ (settles_finalizeReplay input receiverUserId))
      (minds_of_settles _ (settles_finalizeNew input receiverUserId)))

theorem settles_compensate (input : CompensateInput) :
    Settles pg [input.userId] u (compensateNew pg input) := by
  have hlegs : LegsIn [input.userId] u (compensationLegs input) := by
    apply legsIn_of
    unfold compensationLegs
    cases input.releaseAction with
    | release => simp [DoubleEntry.move]
    | adjust => simp [DoubleEntry.move]
  refine Settles.after (rests_ensureAccount _ _) fun _ => Settles.after (rests_lockUsers _) fun _ =>
    Settles.after (rests_appendJournal (compensationJournal input) (compensationPostings_eq input) hlegs) fun _ => settles_sync fun _ => ?_
  exact rests_bind (rests_projected _) fun _ => rests_bind (rests_projectedAccount _) fun _ =>
    rests_bind (rests_enqueueOutboxEvent _) fun _ => rests_pure _

theorem minds_compensate (input : CompensateInput) :
    MindsRun pg u (compensateOfflinePaySettlement pg input) := by
  refine minds_transaction (minds_after (rests_lockKey _) fun _ => minds_after rests_get fun s => ?_)
  split
  · exact minds_of_rests (rests_bind (rests_projected _) fun _ =>
      rests_bind (rests_projectedAccount _) fun _ => rests_pure _)
  · exact minds_of_settles _ (settles_compensate input)

/-- a reconciliation of one bucket -/
theorem settles_reconciliation {userId nowIso : String} {b : Bucket} {delta : ℤ} {input : JournalInput}
    (heq : input.postings = writeLegs (reconciliationLegs (.user userId b) delta)) (r : ReconcileResult) :
    Settles pg [userId] u (do
      appendJournal pg input
      syncUserAccountProjection pg [userId] nowIso
      return r) := by
  have hlegs : LegsIn [userId] u (reconciliationLegs (.user userId b) delta) :=
    legsIn_of (reconciliationLegs_users userId b delta)
  exact Settles.after (rests_appendJournal _ heq hlegs) fun _ => settles_sync fun _ => rests_pure _

theorem minds_reconcile (input : ReconcileInput) :
    MindsRun pg u (reconcileOfflinePayUserBalance pg input) := by
  refine minds_transaction (minds_after (rests_ensureAccount _ _) fun _ =>
    minds_after (rests_getAccountForUpdate _) fun _ => minds_after (rests_projected _) fun _ =>
    minds_ite (minds_of_rests (rests_pure _)) (minds_after rests_get fun _ =>
      minds_ite (minds_of_rests (rests_pure _)) (minds_of_settles [input.userId] ?_)))
  exact settles_reconciliation (reconciliationPostings_eq _ _) _

theorem minds_reconcilePending (input : ReconcileInput) :
    MindsRun pg u (reconcileOfflinePayPendingBalance pg input) := by
  refine minds_transaction (minds_after (rests_ensureAccount _ _) fun _ =>
    minds_after (rests_getAccountForUpdate _) fun _ => minds_after (rests_projectedAccount _) fun _ =>
    minds_ite (minds_of_rests (rests_pure _)) (minds_of_settles [input.userId] ?_))
  exact settles_reconciliation (reconciliationPostings_eq _ _) _

/-- a call that throws has been rolled back -/
theorem minds_of_run {m : Op α} (hm : RollsBack m) (h : MindsRun pg u m) (s : Db) : Minds pg u s (m s).2 := by
  rcases hrun : m s with ⟨e | a, s'⟩
  · obtain ⟨n, rfl⟩ := hm hrun
    exact (Rest.of_eq rfl rfl).minds
  · exact h s a s' hrun

theorem rests_stepSweep (sweepId : String) (sources : List SweepStatus) (message : String)
    (change : SweepRecordRow → Except LedgerError SweepRecordRow) :
    Keeps (Rest U u) (stepSweep pg sweepId sources message change) := by
  intro s
  obtain ⟨rows, hrows⟩ := stepSweep_writes pg sweepId sources message change s
  rw [hrows]
  exact Rest.of_eq rfl rfl

theorem rests_confirmSweep (sweepId : String) (note : Option String) (networkFee : Option NetworkFee)
    (nowIso : String) : Keeps (Rest U u) (confirmSweep pg sweepId note networkFee nowIso) := by
  refine rests_bind (rests_stepSweep _ _ _ _) fun row => rests_bind ?_ fun _ => rests_pure _
  unfold recordSweepFee
  split
  · next fee hash _ =>
    have hlegs : LegsIn U u (sweepFeeLegs fee) := legsIn_of (by simp [sweepFeeLegs, DoubleEntry.move])
    exact rests_bind (rests_persistReceipt _ _ _ _) fun _ =>
      rests_appendJournal (sweepFeeJournal _ _ fee _) rfl hlegs
  · exact rests_pure _

variable (pg u) in
/-- every call keeps the journals, and every user syncable -/
theorem Call.step_minds (limits : WithdrawalLimitConfig) (c : Call) (s : Db) :
    Minds pg u s (c.step pg limits s) := by
  cases c with
  | applyDeposit input =>
    refine minds_of_run (withTransaction_rollsBack _) (minds_transaction (minds_after (rests_lockKey _)
      fun _ => minds_after rests_get fun s => ?_)) s
    split
    · exact minds_of_rests (rests_bind (rests_ofExcept _) fun _ => rests_pure _)
    · exact minds_of_settles _ (settles_deposit input)
  | completeDeposit depositId =>
    obtain ⟨rows, hrows, -⟩ := completeDeposit_writes pg depositId s
    show Minds pg u s (Postgres.completeDeposit pg depositId s).2
    rw [hrows]
    exact (Rest.of_eq rfl rfl).minds
  | applyExternalCredit input =>
    refine minds_of_run (rollsBack_after_check (rollsBack_after_check (withTransaction_rollsBack _)))
      (minds_after (rests_throwWhen _ _) fun _ => minds_after (rests_throwWhen _ _) fun _ =>
      minds_transaction (minds_after (rests_lockKey _) fun _ => minds_after rests_get fun s => ?_)) s
    split
    · exact minds_of_rests (rests_pure _)
    · exact minds_of_settles _ (settles_credit input _)
  | transfer input =>
    refine minds_of_run (rollsBack_after_check (withTransaction_rollsBack _))
      (minds_after (rests_throwWhen _ _) fun _ => minds_transaction (minds_after (rests_lockKey _) fun _ =>
      minds_after (rests_lockUsers _) fun _ => minds_after rests_get fun s => minds_ite ?_
        (minds_of_settles _ (settles_transfer input)))) s
    split
    · exact minds_of_rests (rests_bind (rests_ofExcept _) fun _ => rests_bind (rests_ofExcept _) fun _ =>
        rests_pure _)
    · exact minds_of_rests (rests_throw _)
  | requestWithdrawal input =>
    refine minds_of_run (rollsBack_after_check (withTransaction_rollsBack _))
      (minds_after (rests_throwWhen _ _) fun _ => minds_transaction (minds_after (rests_lockKey _) fun _ =>
      minds_after (rests_lockUsers _) fun _ => minds_after rests_get fun s => ?_)) s
    split
    · exact minds_of_rests (rests_bind (rests_hydrateWithdrawal _) fun _ => rests_pure _)
    · exact minds_of_settles _ (settles_request limits input)
  | confirmWithdrawalExternalAuth withdrawalId provider requestId nowIso =>
    refine minds_of_run (withTransaction_rollsBack _) (minds_transaction (minds_of_rests ?_)) s
    refine rests_bind (rests_lockKey _) fun _ => rests_bind (rests_getWithdrawalForUpdate _) fun row =>
      Keeps.ite ?_ (Keeps.ite (rests_hydrateWithdrawal _) (rests_throw _))
    exact rests_bind (rests_column _) fun _ => rests_bind (rests_column _) fun _ =>
      rests_bind (rests_column _) fun _ => rests_bind (rests_updateWithdrawal _ _) fun _ =>
      rests_announceUpdated _ _
  | markWithdrawalReviewRequired withdrawalId nowIso =>
    refine minds_of_run (withTransaction_rollsBack _) (minds_transaction (minds_of_rests ?_)) s
    refine rests_bind (rests_lockKey _) fun _ => rests_bind (rests_getWithdrawalForUpdate _) fun row =>
      Keeps.ite (rests_hydrateWithdrawal _) ?_
    exact rests_bind (rests_column _) fun _ => rests_bind (rests_updateWithdrawal _ _) fun _ =>
      rests_announceUpdated _ _
  | approveWithdrawal withdrawalId input nowIso =>
    refine minds_of_run (withTransaction_rollsBack _) (minds_transaction (minds_of_rests ?_)) s
    refine rests_bind (rests_lockKey _) fun _ => rests_bind (rests_getWithdrawalForUpdate _) fun row =>
      rests_bind (rests_throwWhen _ _) fun _ => rests_bind (rests_column _) fun _ =>
      rests_bind rests_get fun _ => rests_bind (rests_throwWhen _ _) fun _ =>
      rests_bind rests_randomUUID fun _ => rests_bind (rests_insertApproval _ _ _ _) fun _ =>
      rests_bind rests_get fun _ => ?_
    refine Keeps.ite (rests_bind (rests_column _) fun _ => rests_bind (rests_updateWithdrawal _ _) fun _ =>
      rests_bind (rests_announceUpdated _ _) fun _ => rests_pure _) ?_
    exact rests_bind (rests_announceUpdated _ _) fun _ => rests_pure _
  | broadcastWithdrawal withdrawalId txHash nowIso =>
    refine minds_of_run (withTransaction_rollsBack _) (minds_transaction (minds_of_rests ?_)) s
    exact rests_bind (rests_lockKey _) fun _ => rests_bind (rests_getWithdrawalForUpdate _) fun row =>
      rests_bind (rests_throwWhen _ _) fun _ => rests_bind (rests_column _) fun _ =>
      rests_bind (rests_column _) fun _ => rests_bind (rests_updateWithdrawal _ _) fun _ =>
      rests_announceUpdated _ _
  | confirmWithdrawal withdrawalId networkFee nowIso =>
    exact minds_of_run (withTransaction_rollsBack _) (minds_confirmWithdrawal _ _ _) s
  | failWithdrawal withdrawalId reason nowIso =>
    exact minds_of_run (withTransaction_rollsBack _) (minds_failWithdrawal _ _ _) s
  | createSweepRecord input =>
    refine minds_of_run (withTransaction_rollsBack _) (minds_transaction (minds_of_rests ?_)) s
    refine rests_bind (rests_lockKey _) fun _ => ?_
    split
    · exact rests_bind rests_randomUUID fun _ => rests_insertSweep _ _
    · refine rests_bind (rests_lockKey _) fun _ => rests_bind rests_get fun s => ?_
      split
      · exact rests_pure _
      · exact rests_bind rests_randomUUID fun _ => rests_insertSweep _ _
  | markSweepQueued sweepId note nowIso => exact (rests_stepSweep _ _ _ _ s).minds
  | recordSweepAttempt sweepId note nowIso => exact (rests_stepSweep _ _ _ _ s).minds
  | markSweepBroadcasted sweepId txHash note nowIso => exact (rests_stepSweep _ _ _ _ s).minds
  | failSweep sweepId reason nowIso => exact (rests_stepSweep _ _ _ _ s).minds
  | confirmSweep sweepId note networkFee nowIso => exact (rests_confirmSweep _ _ _ _ s).minds
  | lockOfflinePayCollateral input =>
    refine minds_of_run (withTransaction_rollsBack _) (minds_transaction (minds_after (rests_lockKey _)
      fun _ => minds_after rests_get fun s => ?_)) s
    split
    · exact minds_of_rests (rests_pure _)
    · exact minds_of_settles _ (settles_lock input)
  | releaseOfflinePayCollateral input =>
    refine minds_of_run (withTransaction_rollsBack _) (minds_transaction (minds_after (rests_lockKey _)
      fun _ => minds_after rests_get fun s => ?_)) s
    split
    · exact minds_of_rests (rests_pure _)
    · exact minds_of_settles _ (settles_release input)
  | finalizeOfflinePaySettlement input =>
    exact minds_of_run (withTransaction_rollsBack _) (minds_finalize input) s
  | compensateOfflinePaySettlement input =>
    exact minds_of_run (withTransaction_rollsBack _) (minds_compensate input) s
  | upsertOfflinePayDevice input =>
    obtain ⟨devices, hdevices⟩ := upsertOfflinePayDevice_writes input s
    show Minds pg u s (Postgres.upsertOfflinePayDevice input s).2
    rw [hdevices]
    exact (Rest.of_eq rfl rfl).minds
  | reconcileOfflinePayUserBalance input =>
    exact minds_of_run (withTransaction_rollsBack _) (minds_reconcile input) s
  | reconcileOfflinePayPendingBalance input =>
    exact minds_of_run (withTransaction_rollsBack _) (minds_reconcilePending input) s

/-- the same of a run -/
theorem run_minds (limits : WithdrawalLimitConfig) (calls : List Call) (s : Db) :
    Minds pg u s (runCalls (Call.step pg limits) calls s) := by
  induction calls generalizing s with
  | nil => exact (Rest.refl s).minds
  | cons c calls ih =>
    rw [runCalls_cons]
    exact (Call.step_minds pg u limits c s).trans (ih _)

end

end Postgres
