import CoinManage.InMemory.Runs

/-!
# Failed calls of the in-memory ledger

A method makes its own checks before it writes anything but a new account with zero balances.
Its event contract, though, is built and validated after the writes: when the schema refuses a
field, the method throws with the writes in place.

* `Unchanged`      nothing recorded has changed; an account with zero balances may be new;
* `AnnouncementFits`   the call is stopped before it announces anything, or what it would announce
                   is within the schema's bounds;
* `failed_call_unchanged_iff`   a call that throws changes nothing, exactly when it is so.
-/

namespace InMemoryLedger

structure Unchanged (s s' : InMemoryLedger) : Prop where
  deposits : s'.depositsByTxHash = s.depositsByTxHash
  credits : s'.externalCreditsByReference = s.externalCreditsByReference
  transactions : s'.transactions = s.transactions
  withdrawals : s'.withdrawals = s.withdrawals
  requests : s'.withdrawalByIdempotencyKey = s.withdrawalByIdempotencyKey
  transfers : s'.transferByIdempotencyKey = s.transferByIdempotencyKey
  approvals : s'.approvalsByWithdrawalId = s.approvalsByWithdrawalId
  outbox : s'.outboxEvents = s.outboxEvents
  accounts : ∀ u, s'.accounts.get? u = s.accounts.get? u ∨ s.accounts.get? u = none ∧
    ∃ a, s'.accounts.get? u = some a ∧ a.balance = 0 ∧ a.lockedBalance = 0

section
variable (rt : Runtime) (s : InMemoryLedger)

/-- The call is refused by its own checks, answers from a record that exists, or the contract of
the record it would write is within its schema's bounds. -/
def Call.AnnouncementFits : Call → Prop
  | .applyDeposit input =>
    s.depositsByTxHash.get? input.txHash = none → (s.depositChange rt input).Fits rt
  | .requestWithdrawal input =>
    truthy (s.withdrawalByIdempotencyKey.get? input.idempotencyKey) = none →
    input.amount ≤ s.limits.singleLimit →
    s.getDailyRequestedWithdrawalAmount input.userId input.nowIso + input.amount ≤
      s.limits.dailyLimit →
    input.amount ≤ s.balanceOf input.userId →
    (s.requestedWithdrawal rt input).Fits rt input.nowIso
  | .confirmWithdrawalExternalAuth id provider requestId nowIso =>
    ∀ w, s.withdrawals.get? id = some w → w.status = .ledgerReserved →
    (authenticated w provider requestId nowIso).Fits rt nowIso
  | .approveWithdrawal id input nowIso =>
    ∀ w, s.withdrawals.get? id = some w → w.status = .pendingAdmin →
    ((s.approvalsOf id).any fun approval => approval.adminId = input.adminId) = false →
    (approvedBy w ((s.approvalsOf id).length + 1) nowIso).Fits rt nowIso
  | .broadcastWithdrawal id txHash nowIso =>
    ∀ w, s.withdrawals.get? id = some w → w.status = .adminApproved →
    (broadcasted w txHash nowIso).Fits rt nowIso
  | .confirmWithdrawal id _ nowIso =>
    ∀ w, s.withdrawals.get? id = some w → w.status = .txBroadcasted →
    w.amount ≤ s.lockedOf w.userId → (completed w nowIso).Fits rt nowIso
  | .failWithdrawal id reason nowIso =>
    ∀ w, s.withdrawals.get? id = some w → w.status.isActive = true →
    w.amount ≤ s.lockedOf w.userId → (failed w reason nowIso).Fits rt nowIso
  | _ => True

end

/-- whenever the method throws at `s`, it has changed nothing -/
def FailsClean {α : Type} (s : InMemoryLedger) (r : Except LedgerError α × InMemoryLedger) : Prop :=
  ∀ e, r.1 = .error e → Unchanged s r.2

section
variable {rt : Runtime} {s s' : InMemoryLedger}

theorem Unchanged.refl (s : InMemoryLedger) : Unchanged s s :=
  ⟨rfl, rfl, rfl, rfl, rfl, rfl, rfl, rfl, fun _ => Or.inl rfl⟩

theorem Unchanged.opened (h : Unchanged s s') (userId nowIso : String) :
    Unchanged s (s'.opened userId nowIso) := by
  rw [opened_eq]
  refine ⟨h.deposits, h.credits, h.transactions, h.withdrawals, h.requests, h.transfers,
    h.approvals, h.outbox, fun u => ?_⟩
  show (s'.opened userId nowIso).accounts.get? u = _ ∨ _ ∧ ∃ a, (s'.opened userId nowIso).accounts.get? u = _ ∧ _
  unfold InMemoryLedger.opened
  cases ha : s'.accounts.get? userId with
  | some a => exact h.accounts u
  | none =>
    simp only [OrderedMap.get?_set]
    split
    · next hu =>
      subst hu
      rcases h.accounts userId with hs | ⟨hs, a, ha', -⟩
      · exact Or.inr ⟨hs ▸ ha, _, rfl, rfl, rfl⟩
      · rw [ha] at ha'
        cases ha'
    · exact h.accounts u

theorem FailsClean.of_ok {α : Type} (a : α) : FailsClean s (Except.ok a, s') := by
  intro e h
  cases h

theorem FailsClean.of_unchanged {α : Type} {r : Except LedgerError α} (h : Unchanged s s') :
    FailsClean s (r, s') := fun _ _ => h

/-- Writing first and announcing then: clean exactly when the contract fits. -/
theorem failsClean_announced_iff {α : Type} (hwritten : ¬ Unchanged s s') (w : Withdrawal)
    (id occurredAt : String) (reply : α) :
    FailsClean s (s'.announced rt w id occurredAt reply) ↔ w.Fits rt occurredAt := by
  rw [← buildWithdrawalStateChangedContract_ok_iff, announced]
  cases buildWithdrawalStateChangedContract rt w occurredAt with
  | ok contract => exact ⟨fun _ => ⟨contract, rfl⟩, fun _ => FailsClean.of_ok _⟩
  | error e => exact ⟨fun h => absurd (h e rfl) hwritten, by rintro ⟨c, hc⟩; cases hc⟩

/-- a withdrawal written back with another status is a change -/
theorem changed_of_status {id : String} {w : Withdrawal} (hw : s.withdrawals.get? id = some w)
    {w' : Withdrawal} (hw' : s'.withdrawals.get? id = some w') (hne : w'.status ≠ w.status) : ¬ Unchanged s s' := by
  intro h
  rw [h.withdrawals, hw] at hw'
  exact hne (congrArg Withdrawal.status (Option.some.inj hw')).symm

/-! ## the methods -/

theorem applyDeposit_clean_iff (input : DepositInput) :
    FailsClean s (applyDeposit rt input s) ↔ Call.AnnouncementFits rt s (.applyDeposit input) := by
  rw [Call.AnnouncementFits]
  cases h : s.depositsByTxHash.get? input.txHash with
  | some existing =>
    rw [applyDeposit_duplicated rt s h]
    exact ⟨fun _ h' => (by cases h'), fun _ => FailsClean.of_ok _⟩
  | none =>
    rw [applyDeposit_new rt s h, ← buildDepositStateChangedContract_ok_iff]
    cases buildDepositStateChangedContract rt (s.depositChange rt input) with
    | ok contract => exact ⟨fun _ _ => ⟨contract, rfl⟩, fun _ => FailsClean.of_ok _⟩
    | error e =>
      constructor
      · intro hclean
        have hget := congrArg (fun m => m.get? input.txHash) (hclean e rfl).deposits
        simp only [deposited, OrderedMap.get?_set_self, h] at hget
        cases hget
      · intro hfits
        obtain ⟨c, hc⟩ := hfits rfl
        cases hc

theorem applyExternalCredit_clean (input : ExternalCreditInput) :
    FailsClean s (applyExternalCredit rt input s) := by
  rw [applyExternalCredit_apply]
  split
  · exact FailsClean.of_unchanged (Unchanged.refl s)
  · split
    · exact FailsClean.of_ok _
    · exact FailsClean.of_ok _

theorem transfer_clean (input : TransferInput) : FailsClean s (transfer rt input s) := by
  rw [transfer_apply]
  cases s.transferByIdempotencyKey.get? input.idempotencyKey with
  | some existing =>
    simp only
    split
    · exact FailsClean.of_ok _
    · exact FailsClean.of_unchanged (Unchanged.refl s)
  | none =>
    simp only
    split
    · exact FailsClean.of_unchanged (Unchanged.refl s)
    · split
      · exact FailsClean.of_unchanged (((Unchanged.refl s).opened _ _).opened _ _)
      · exact FailsClean.of_ok _

theorem requestWithdrawal_clean_iff (huuid : Function.Injective rt.uuid) (hs : Sound rt s)
    (input : WithdrawalInput) :
    FailsClean s (requestWithdrawal rt input s) ↔
      Call.AnnouncementFits rt s (.requestWithdrawal input) := by
  rw [Call.AnnouncementFits, requestWithdrawal_apply]
  cases truthy (s.withdrawalByIdempotencyKey.get? input.idempotencyKey) with
  | some existingId =>
    simp only
    refine ⟨fun _ h => (by cases h), fun _ => ?_⟩
    split
    · exact FailsClean.of_ok _
    · exact FailsClean.of_unchanged (Unchanged.refl s)
  | none =>
    have hwritten : ¬ Unchanged s (s.reserved rt input) := by
      intro h
      have hget := congrArg (fun m => m.get? (rt.uuid (s.uuidsDrawn + 1))) h.withdrawals
      simp only [reserved, OrderedMap.get?_set_self,
        hs.fresh huuid (Nat.le_add_right s.uuidsDrawn 1)] at hget
      cases hget
    simp only [true_implies]
    split
    · next h => exact ⟨fun _ h' => absurd h' (not_le.mpr h), fun _ =>
        FailsClean.of_unchanged (Unchanged.refl s)⟩
    · next hsingle =>
      split
      · next h => exact ⟨fun _ _ h' => absurd h' (not_le.mpr h), fun _ =>
          FailsClean.of_unchanged (Unchanged.refl s)⟩
      · next hdaily =>
        rw [accountOf_balance]
        split
        · next h => exact ⟨fun _ _ _ h' => absurd h' (not_le.mpr h), fun _ =>
            FailsClean.of_unchanged ((Unchanged.refl s).opened _ _)⟩
        · next hfunds =>
          rw [failsClean_announced_iff hwritten]
          exact ⟨fun h _ _ _ => h, fun h => h (not_lt.mp hsingle) (not_lt.mp hdaily) (not_lt.mp hfunds)⟩

theorem confirmWithdrawalExternalAuth_clean_iff (id provider requestId nowIso : String) :
    FailsClean s (confirmWithdrawalExternalAuth rt id provider requestId nowIso s) ↔
      Call.AnnouncementFits rt s (.confirmWithdrawalExternalAuth id provider requestId nowIso) := by
  rw [Call.AnnouncementFits, confirmWithdrawalExternalAuth_apply]
  cases hw : s.withdrawals.get? id with
  | none => exact ⟨fun _ w h => (by cases h), fun _ => FailsClean.of_unchanged (Unchanged.refl s)⟩
  | some w =>
    simp only
    split
    · next hst =>
      have hwritten : ¬ Unchanged s (s.withWithdrawal id (authenticated w provider requestId nowIso)) :=
        changed_of_status hw (OrderedMap.get?_set_self _ _ _) (by simp [authenticated, hst])
      rw [failsClean_announced_iff hwritten]
      exact ⟨fun h v hv _ => Option.some.inj hv ▸ h, fun h => h w rfl hst⟩
    · next hst =>
      refine ⟨fun _ v hv hv' => absurd (Option.some.inj hv ▸ hv') hst, fun _ => ?_⟩
      split
      · exact FailsClean.of_ok _
      · exact FailsClean.of_unchanged (Unchanged.refl s)

theorem markWithdrawalReviewRequired_clean (id nowIso : String) :
    FailsClean s (markWithdrawalReviewRequired id nowIso s) := by
  rw [markWithdrawalReviewRequired_apply]
  split
  · exact FailsClean.of_unchanged (Unchanged.refl s)
  · split <;> exact FailsClean.of_ok _

theorem approveWithdrawal_clean_iff (id : String) (input : ApprovalInput) (nowIso : String) :
    FailsClean s (approveWithdrawal rt id input nowIso s) ↔
      Call.AnnouncementFits rt s (.approveWithdrawal id input nowIso) := by
  rw [Call.AnnouncementFits, approveWithdrawal_apply]
  cases hw : s.withdrawals.get? id with
  | none => exact ⟨fun _ w h => (by cases h), fun _ => FailsClean.of_unchanged (Unchanged.refl s)⟩
  | some w =>
    simp only
    split
    · next hst =>
      exact ⟨fun _ v hv hv' => absurd (Option.some.inj hv ▸ hv') hst,
        fun _ => FailsClean.of_unchanged (Unchanged.refl s)⟩
    · next hst =>
      split
      · next hany =>
        exact ⟨fun _ v _ _ h => absurd (hany.symm.trans h) (by decide),
          fun _ => FailsClean.of_unchanged (Unchanged.refl s)⟩
      · next hany =>
        have hwritten : ¬ Unchanged s (s.approved rt id w input nowIso) := by
          intro h
          have hlen := congrArg (fun m => (orElse (m.get? id) []).length) h.approvals
          simp only [approved, OrderedMap.get?_set_self, orElse, Option.getD_some, List.length_append,
            List.length_singleton, approvalsOf] at hlen
          omega
        rw [failsClean_announced_iff hwritten]
        exact ⟨fun h v hv _ _ => Option.some.inj hv ▸ h,
          fun h => h w rfl (not_not.mp hst) (Bool.of_not_eq_true hany)⟩

theorem broadcastWithdrawal_clean_iff (id txHash nowIso : String) :
    FailsClean s (broadcastWithdrawal rt id txHash nowIso s) ↔
      Call.AnnouncementFits rt s (.broadcastWithdrawal id txHash nowIso) := by
  rw [Call.AnnouncementFits, broadcastWithdrawal_apply]
  cases hw : s.withdrawals.get? id with
  | none => exact ⟨fun _ w h => (by cases h), fun _ => FailsClean.of_unchanged (Unchanged.refl s)⟩
  | some w =>
    simp only
    split
    · next hst =>
      exact ⟨fun _ v hv hv' => absurd (Option.some.inj hv ▸ hv') hst,
        fun _ => FailsClean.of_unchanged (Unchanged.refl s)⟩
    · next hst =>
      have hwritten : ¬ Unchanged s (s.withWithdrawal id (broadcasted w txHash nowIso)) :=
        changed_of_status hw (OrderedMap.get?_set_self _ _ _)
          (by simp [broadcasted, not_not.mp hst])
      rw [failsClean_announced_iff hwritten]
      exact ⟨fun h v hv _ => Option.some.inj hv ▸ h, fun h => h w rfl (not_not.mp hst)⟩

theorem withNetworkFee_withdrawals (id : String) (txHash : Option String)
    (networkFee : Option NetworkFee) (nowIso : String) :
    (s.withNetworkFee id txHash networkFee nowIso).withdrawals = s.withdrawals :=
  (SameBooks.of_networkFee id txHash networkFee nowIso).withdrawals

theorem confirmWithdrawal_clean_iff (hs : Sound rt s) (id : String) (networkFee : Option NetworkFee)
    (nowIso : String) :
    FailsClean s (confirmWithdrawal rt id networkFee nowIso s) ↔
      Call.AnnouncementFits rt s (.confirmWithdrawal id networkFee nowIso) := by
  rw [Call.AnnouncementFits, confirmWithdrawal_apply]
  cases hw : s.withdrawals.get? id with
  | none => exact ⟨fun _ w h => (by cases h), fun _ => FailsClean.of_unchanged (Unchanged.refl s)⟩
  | some w =>
    obtain ⟨tx, htx⟩ := Option.isSome_iff_exists.mp (hs.recorded id w hw).2
    simp only [htx]
    split
    · next hst =>
      exact ⟨fun _ v hv hv' => absurd (Option.some.inj hv ▸ hv') hst,
        fun _ => FailsClean.of_unchanged (Unchanged.refl s)⟩
    · next hst =>
      rw [accountOf_locked]
      split
      · next hlow =>
        exact ⟨fun _ v hv _ h => absurd (Option.some.inj hv ▸ h) (not_le.mpr hlow),
          fun _ => FailsClean.of_unchanged ((Unchanged.refl s).opened _ _)⟩
      · next hlow =>
        have hwritten : ¬ Unchanged s ((s.settled id w tx nowIso).withNetworkFee id w.txHash
            networkFee nowIso) := by
          have hget : ((s.settled id w tx nowIso).withNetworkFee id w.txHash networkFee
              nowIso).withdrawals.get? id = some (completed w nowIso) := by
            rw [withNetworkFee_withdrawals]
            exact OrderedMap.get?_set_self _ _ _
          exact changed_of_status hw hget (by simp [completed, not_not.mp hst])
        rw [failsClean_announced_iff hwritten]
        exact ⟨fun h v hv _ _ => Option.some.inj hv ▸ h,
          fun h => h w rfl (not_not.mp hst) (not_lt.mp hlow)⟩

theorem failWithdrawal_clean_iff (hs : Sound rt s) (id reason nowIso : String) :
    FailsClean s (failWithdrawal rt id reason nowIso s) ↔
      Call.AnnouncementFits rt s (.failWithdrawal id reason nowIso) := by
  rw [Call.AnnouncementFits, failWithdrawal_apply]
  cases hw : s.withdrawals.get? id with
  | none => exact ⟨fun _ w h => (by cases h), fun _ => FailsClean.of_unchanged (Unchanged.refl s)⟩
  | some w =>
    obtain ⟨tx, htx⟩ := Option.isSome_iff_exists.mp (hs.recorded id w hw).2
    simp only [htx]
    split
    · next hst =>
      exact ⟨fun _ v hv hv' => absurd (hst.symm.trans (Option.some.inj hv ▸ hv')) (by decide),
        fun _ => FailsClean.of_unchanged (Unchanged.refl s)⟩
    · next hst =>
      have hactive := Bool.of_not_eq_false hst
      rw [accountOf_locked]
      split
      · next hlow =>
        exact ⟨fun _ v hv _ h => absurd (Option.some.inj hv ▸ h) (not_le.mpr hlow),
          fun _ => FailsClean.of_unchanged ((Unchanged.refl s).opened _ _)⟩
      · next hlow =>
        have hwritten : ¬ Unchanged s (s.released id w tx reason nowIso) := by
          have hget : (s.released id w tx reason nowIso).withdrawals.get? id =
              some (failed w reason nowIso) := OrderedMap.get?_set_self _ _ _
          refine changed_of_status hw hget fun h => ?_
          rw [← h] at hactive
          cases hactive
        rw [failsClean_announced_iff hwritten]
        exact ⟨fun h v hv _ _ => Option.some.inj hv ▸ h, fun h => h w rfl hactive (not_lt.mp hlow)⟩

theorem getAccount_clean (userId nowIso : String) : FailsClean s (getAccount userId nowIso s) := by
  rw [getAccount, Method.bind_ok _ (getMutableAccount_apply s _ _)]
  exact FailsClean.of_ok _

theorem setAccountWalletAddress_ok (userId walletAddress : String) :
    ∃ s', setAccountWalletAddress userId walletAddress s = (.ok (), s') := by
  simp only [setAccountWalletAddress, Method.get_bind]
  cases s.accounts.get? userId with
  | none => exact ⟨s, rfl⟩
  | some account => exact ⟨_, rfl⟩

theorem forgetPreviousAddress_ok (previous : Option WalletBinding) (walletAddress : String) :
    ∃ s', forgetPreviousAddress previous walletAddress s = (.ok (), s') := by
  cases previous with
  | none => exact ⟨s, rfl⟩
  | some previous =>
    rw [forgetPreviousAddress, Method.ite_apply]
    split
    · exact ⟨_, rfl⟩
    · exact ⟨s, rfl⟩

theorem bindWalletAddress_clean (userId walletAddress nowIso : String) :
    FailsClean s (bindWalletAddress userId walletAddress nowIso s) := by
  simp only [bindWalletAddress, Method.get_bind, Method.ite_apply]
  split
  · exact FailsClean.of_unchanged (Unchanged.refl s)
  · obtain ⟨s₁, h₁⟩ := forgetPreviousAddress_ok (s := s) (s.walletBindingsByUserId.get? userId)
      walletAddress
    rw [Method.bind_ok _ h₁, Method.modify_bind]
    obtain ⟨s₂, h₂⟩ := setAccountWalletAddress_ok (s :=
      { s₁ with
        walletBindingsByUserId := s₁.walletBindingsByUserId.set userId
          { userId := userId, walletAddress := walletAddress
            createdAt := ((s.walletBindingsByUserId.get? userId).map (·.createdAt)).getD nowIso }
        userIdByWalletAddress := s₁.userIdByWalletAddress.set walletAddress userId }) userId
      walletAddress
    rw [Method.bind_ok _ h₂]
    exact FailsClean.of_ok _

theorem completeDeposit_clean (depositId : String) : FailsClean s (completeDeposit depositId s) := by
  simp only [completeDeposit, Method.get_bind]
  cases s.depositsByTxHash.entries.find? fun entry => entry.2.depositId = depositId with
  | none => exact FailsClean.of_unchanged (Unchanged.refl s)
  | some entry =>
    simp only [Method.ite_apply]
    split <;> exact FailsClean.of_ok _

theorem updateEvent_clean (outboxEventId : String) (f : OutboxEvent → OutboxEvent) :
    FailsClean s (updateEvent outboxEventId f s) := by
  simp only [updateEvent, Method.get_bind]
  cases s.outboxEvents.get? outboxEventId with
  | none => exact FailsClean.of_ok _
  | some event => exact FailsClean.of_ok _

/-- a call is its method, the answer wrapped -/
theorem failsClean_replying {α : Type} (m : Op α) (f : α → Reply) :
    FailsClean s ((m >>= fun a => pure (f a) : Op Reply) s) ↔ FailsClean s (m s) := by
  rw [Method.bind_apply]
  rcases m s with ⟨e | a, s'⟩
  · exact ⟨fun h e' he => h e' (by rw [Except.error.inj he]), fun h e' he => h e' (by rw [Except.error.inj he])⟩
  · exact ⟨fun _ => FailsClean.of_ok a, fun _ => FailsClean.of_ok (f a)⟩

/-- In a sound store, a call that throws changes nothing exactly when what it would announce is
within the schema's bounds. -/
theorem exec_clean_iff (huuid : Function.Injective rt.uuid) (hs : Sound rt s) (c : Call) :
    FailsClean s (c.exec rt s) ↔ c.AnnouncementFits rt s := by
  cases c with
  | getAccount userId nowIso =>
    exact (failsClean_replying _ _).trans (iff_of_true (getAccount_clean userId nowIso) trivial)
  | bindWalletAddress userId walletAddress nowIso =>
    exact (failsClean_replying _ _).trans
      (iff_of_true (bindWalletAddress_clean userId walletAddress nowIso) trivial)
  | applyDeposit input => exact (failsClean_replying _ _).trans (applyDeposit_clean_iff input)
  | completeDeposit depositId =>
    exact (failsClean_replying _ _).trans (iff_of_true (completeDeposit_clean depositId) trivial)
  | applyExternalCredit input =>
    exact (failsClean_replying _ _).trans (iff_of_true (applyExternalCredit_clean input) trivial)
  | transfer input =>
    exact (failsClean_replying _ _).trans (iff_of_true (transfer_clean input) trivial)
  | requestWithdrawal input =>
    exact (failsClean_replying _ _).trans (requestWithdrawal_clean_iff huuid hs input)
  | confirmWithdrawalExternalAuth id provider requestId nowIso =>
    exact (failsClean_replying _ _).trans
      (confirmWithdrawalExternalAuth_clean_iff id provider requestId nowIso)
  | markWithdrawalReviewRequired id nowIso =>
    exact (failsClean_replying _ _).trans
      (iff_of_true (markWithdrawalReviewRequired_clean id nowIso) trivial)
  | approveWithdrawal id input nowIso =>
    exact (failsClean_replying _ _).trans (approveWithdrawal_clean_iff id input nowIso)
  | broadcastWithdrawal id txHash nowIso =>
    exact (failsClean_replying _ _).trans (broadcastWithdrawal_clean_iff id txHash nowIso)
  | confirmWithdrawal id networkFee nowIso =>
    exact (failsClean_replying _ _).trans (confirmWithdrawal_clean_iff hs id networkFee nowIso)
  | failWithdrawal id reason nowIso =>
    exact (failsClean_replying _ _).trans (failWithdrawal_clean_iff hs id reason nowIso)
  | claimPendingOutboxEvents limit nowIso => exact iff_of_true (FailsClean.of_ok _) trivial
  | markOutboxEventPublished id nowIso =>
    exact (failsClean_replying _ _).trans (iff_of_true (updateEvent_clean id _) trivial)
  | rescheduleOutboxEvent id error availableAt =>
    exact (failsClean_replying _ _).trans (iff_of_true (updateEvent_clean id _) trivial)
  | deadLetterOutboxEvent id error deadLetteredAt =>
    exact (failsClean_replying _ _).trans (iff_of_true (updateEvent_clean id _) trivial)
  | replayOutboxEvents input => exact iff_of_true (FailsClean.of_ok _) trivial
  | acknowledgeDeadLetterOutboxEvents input => exact iff_of_true (FailsClean.of_ok _) trivial

end

/-- After every run on an empty ledger, whatever the amounts: a call that throws changes nothing
exactly when what it would announce is within the schema's bounds. -/
theorem failed_call_unchanged_iff (rt : Runtime) (huuid : Function.Injective rt.uuid)
    (limits : WithdrawalLimitConfig) (calls : List Call) (c : Call) :
    let s := runCalls (Call.step rt) calls (new limits)
    FailsClean s (c.exec rt s) ↔ c.AnnouncementFits rt s :=
  exec_clean_iff huuid (run_sound huuid limits calls) c

/-- a deposit for a user id of 65 characters -/
def longUserDeposit : DepositInput where
  userId := String.ofList (List.replicate 65 'a')
  amount := 5000000
  txHash := "0xabc12345"
  toAddress := some "TJRabPrwbZy45sbavfcjinPJC18kjpRTv8"
  walletAddress := none
  blockNumber := 7
  nowIso := "2026-01-01T00:00:00.000Z"

theorem failed_call_unchanged_iff_example :
    ¬ Call.AnnouncementFits .numbered (new ⟨10000000, 10000000⟩) (.applyDeposit longUserDeposit) ∧
    ¬ FailsClean (new ⟨10000000, 10000000⟩)
      (Call.exec .numbered (.applyDeposit longUserDeposit) (new ⟨10000000, 10000000⟩)) := by
  have hfits : ¬ Call.AnnouncementFits .numbered (new ⟨10000000, 10000000⟩)
      (.applyDeposit longUserDeposit) := fun h => absurd (h rfl).2.2.1 (by decide)
  have h := failed_call_unchanged_iff .numbered Runtime.numbered_uuid_injective
    ⟨10000000, 10000000⟩ [] (.applyDeposit longUserDeposit)
  exact ⟨hfits, fun hclean => hfits (h.mp hclean)⟩

/-- The schema refuses the long user id after the deposit has been credited and recorded: the call
throws, the money is there, no event is, and a retry is answered as a duplicate. -/
theorem failed_deposit_is_credited :
    let s := new ⟨10000000, 10000000⟩
    let c := Call.applyDeposit longUserDeposit
    let s' := c.step .numbered s
    (c.exec .numbered s).1 = .error (.zod [⟨"userId", "too_big"⟩]) ∧
    s.balanceOf longUserDeposit.userId = 0 ∧ s'.balanceOf longUserDeposit.userId = 5000000 ∧
    ¬ Unchanged s s' ∧ s'.outboxEvents.values = [] ∧
    (∃ d, (c.exec .numbered s').1 = .ok (.depositApplied ⟨d, true⟩)) := by
  intro s c s'
  have hchanged : ¬ Unchanged s s' := by
    intro h
    have hget := congrArg (fun m => (m.get? longUserDeposit.txHash).isSome) h.deposits
    revert hget
    decide
  exact ⟨by decide, by decide, by decide, hchanged, by decide, ⟨s.depositRecord .numbered longUserDeposit, by decide⟩⟩

end InMemoryLedger
