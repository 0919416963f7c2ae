import CoinManage.InMemory.Books

/-!
# Runs of the in-memory ledger

Every method, whether it returns or throws, leaves a store that is reached by moves of the books.
So the two invariants of the books hold after every run, and with them the checks that guard
against a corrupted store never fire.

* `exec_moves`     what a call leaves behind is reached by moves;
* `run_sound`, `run_solvent`   the invariants of the books after a run;
* `run_money_invariant`   balances, reserves and totals after a run of positive amounts.
-/

namespace InMemoryLedger

section
variable {rt : Runtime} {admits : ℤ → Prop} {s s' : InMemoryLedger}

/-! ## every method is a sequence of moves -/

theorem SameBooks.of_announced (w : Withdrawal) (id occurredAt : String) {α : Type} (reply : α) :
    SameBooks s (s.announced rt w id occurredAt reply).2 := by
  rw [announced]
  cases buildWithdrawalStateChangedContract rt w occurredAt with
  | ok contract => exact ⟨rfl, rfl, rfl, rfl, rfl, rfl, rfl, Nat.le_succ _⟩
  | error e => exact SameBooks.refl s

/-- what a method leaves behind is reached by moves -/
def Moves (rt : Runtime) (admits : ℤ → Prop) (s s' : InMemoryLedger) : Prop :=
  Relation.ReflTransGen (Move rt admits) s s'

theorem Moves.refl (s : InMemoryLedger) : Moves rt admits s s := Relation.ReflTransGen.refl

theorem Moves.trans {s₁ s₂ s₃ : InMemoryLedger} (h : Moves rt admits s₁ s₂)
    (h' : Moves rt admits s₂ s₃) : Moves rt admits s₁ s₃ :=
  Relation.ReflTransGen.trans h h'

theorem Move.single (h : Move rt admits s s') : Moves rt admits s s' :=
  Relation.ReflTransGen.single h

theorem Moves.frame {s'' : InMemoryLedger} (h : Moves rt admits s s') (same : SameBooks s' s'') :
    Moves rt admits s s'' :=
  Relation.ReflTransGen.tail h (Move.frame same)

theorem Move.announced (h : Move rt admits s s') (w : Withdrawal) (id occurredAt : String)
    {α : Type} (reply : α) : Moves rt admits s (s'.announced rt w id occurredAt reply).2 :=
  h.single.frame (SameBooks.of_announced w id occurredAt reply)

theorem getAccount_moves (userId nowIso : String) :
    Moves rt admits s (InMemoryLedger.getAccount userId nowIso s).2 := by
  rw [InMemoryLedger.getAccount, Method.bind_ok _ (getMutableAccount_apply s _ _)]
  exact (Move.opened userId nowIso).single

theorem forgetPreviousAddress_moves (previous : Option WalletBinding) (walletAddress : String) :
    Method.Keeps (Moves rt admits) (forgetPreviousAddress previous walletAddress) := by
  cases previous with
  | none => exact Method.Keeps.pure Moves.refl ()
  | some previous =>
    exact Method.Keeps.ite
      (Method.Keeps.modify fun s =>
        (Moves.refl s).frame ⟨rfl, rfl, rfl, rfl, rfl, rfl, rfl, le_refl _⟩)
      (Method.Keeps.pure Moves.refl ())

theorem setAccountWalletAddress_moves (userId walletAddress : String) :
    Method.Keeps (Moves rt admits) (setAccountWalletAddress userId walletAddress) := by
  intro s
  simp only [setAccountWalletAddress, Method.get_bind]
  cases h : s.accounts.get? userId with
  | none => exact Moves.refl s
  | some account =>
    exact (Move.accountTouched h { account with walletAddress := some walletAddress } rfl rfl).single

theorem bindWalletAddress_moves (userId walletAddress nowIso : String) :
    Method.Keeps (Moves rt admits)
      (InMemoryLedger.bindWalletAddress userId walletAddress nowIso) := by
  refine Method.Keeps.bind (R := Moves rt admits) Moves.trans
    (Method.Keeps.get Moves.refl) fun s => ?_
  refine Method.Keeps.ite (Method.Keeps.throw Moves.refl _) ?_
  refine Method.Keeps.bind (R := Moves rt admits) Moves.trans (forgetPreviousAddress_moves _ _) fun _ => ?_
  refine Method.Keeps.bind (R := Moves rt admits) Moves.trans (Method.Keeps.modify fun s =>
    (Moves.refl s).frame ⟨rfl, rfl, rfl, rfl, rfl, rfl, rfl, le_refl _⟩) fun _ => ?_
  exact Method.Keeps.bind (R := Moves rt admits) Moves.trans (setAccountWalletAddress_moves _ _) fun _ =>
    Method.Keeps.pure Moves.refl _

theorem applyDeposit_moves (input : DepositInput) (hadm : admits input.amount) :
    Moves rt admits s (InMemoryLedger.applyDeposit rt input s).2 := by
  cases h : s.depositsByTxHash.get? input.txHash with
  | some existing =>
    rw [applyDeposit_duplicated rt s h]
    exact Moves.refl s
  | none =>
    have hm : Move rt admits s (s.deposited rt input) := Move.deposited h hadm
    rw [applyDeposit_new rt s h]
    cases buildDepositStateChangedContract rt (s.depositChange rt input) with
    | ok contract => exact hm.single.frame ⟨rfl, rfl, rfl, rfl, rfl, rfl, rfl, Nat.le_succ _⟩
    | error e => exact hm.single

theorem completeDeposit_moves (depositId : String) :
    Moves rt admits s (InMemoryLedger.completeDeposit depositId s).2 := by
  simp only [InMemoryLedger.completeDeposit, Method.get_bind]
  cases h : s.depositsByTxHash.entries.find? fun entry => entry.2.depositId = depositId with
  | none => exact Moves.refl s
  | some entry =>
    have hget := s.depositsByTxHash.mem_entries_iff.mp (List.mem_of_find?_eq_some h)
    simp only [Method.ite_apply]
    split
    · exact Moves.refl s
    · exact (Move.depositTouched hget { entry.2 with status := .completed } rfl).single

theorem applyExternalCredit_moves (input : ExternalCreditInput) (hadm : admits input.amount) :
    Moves rt admits s (InMemoryLedger.applyExternalCredit rt input s).2 := by
  rw [applyExternalCredit_apply]
  split
  · exact Moves.refl s
  · cases h : s.externalCreditsByReference.get?
      (referenceKey input.referenceType input.referenceId) with
    | some existing => exact Moves.refl s
    | none => exact (Move.credited h hadm).single

theorem transfer_moves (input : TransferInput) (hadm : admits input.amount) :
    Moves rt admits s (InMemoryLedger.transfer rt input s).2 := by
  rw [transfer_apply]
  cases s.transferByIdempotencyKey.get? input.idempotencyKey with
  | some existing =>
    simp only
    split <;> exact Moves.refl s
  | none =>
    simp only
    split
    · exact Moves.refl s
    · next hne =>
      split
      · exact Relation.ReflTransGen.tail (Move.opened _ _).single (Move.opened _ _)
      · next hfunds =>
        rw [accountOf_balance] at hfunds
        exact (Move.transferred hne (not_lt.mp hfunds) hadm).single

theorem requestWithdrawal_moves (input : WithdrawalInput) (hadm : admits input.amount) :
    Moves rt admits s (InMemoryLedger.requestWithdrawal rt input s).2 := by
  rw [requestWithdrawal_apply]
  cases truthy (s.withdrawalByIdempotencyKey.get? input.idempotencyKey) with
  | some existingId =>
    simp only
    split <;> exact Moves.refl s
  | none =>
    simp only
    split
    · exact Moves.refl s
    · split
      · exact Moves.refl s
      · split
        · exact (Move.opened _ _).single
        · next hfunds =>
          rw [accountOf_balance] at hfunds
          exact (Move.reserved (not_lt.mp hfunds) hadm).announced _ _ _ _

theorem confirmWithdrawalExternalAuth_moves (id provider requestId nowIso : String) :
    Moves rt admits s
      (InMemoryLedger.confirmWithdrawalExternalAuth rt id provider requestId nowIso s).2 := by
  rw [confirmWithdrawalExternalAuth_apply]
  cases hw : s.withdrawals.get? id with
  | none => exact Moves.refl s
  | some w =>
    simp only
    split
    · next hst =>
      refine (Move.touched hw (authenticated w provider requestId nowIso)
        ⟨rfl, rfl, rfl, rfl, ?_, ?_⟩).announced _ _ _ _
      · rw [hst]; rfl
      · rw [hst]; simp [authenticated]
    · split <;> exact Moves.refl s

theorem markWithdrawalReviewRequired_moves (id nowIso : String) :
    Moves rt admits s (InMemoryLedger.markWithdrawalReviewRequired id nowIso s).2 := by
  rw [markWithdrawalReviewRequired_apply]
  cases hw : s.withdrawals.get? id with
  | none => exact Moves.refl s
  | some w =>
    simp only
    split
    · exact Moves.refl s
    · exact (Move.touched hw { w with reviewRequiredAt := some nowIso }
        ⟨rfl, rfl, rfl, rfl, rfl, Iff.rfl⟩).single

/-- an approval changes the notes of a withdrawal, and its status only between active ones -/
theorem sameMoney_approvedBy {w : Withdrawal} (h : w.status = .pendingAdmin) (count : Nat)
    (nowIso : String) : SameMoney w (approvedBy w count nowIso) := by
  rw [approvedBy]
  split
  · exact ⟨rfl, rfl, rfl, rfl, by rw [h]; rfl, by rw [h]; simp⟩
  · exact ⟨rfl, rfl, rfl, rfl, rfl, Iff.rfl⟩

theorem approveWithdrawal_moves (id : String) (input : ApprovalInput) (nowIso : String) :
    Moves rt admits s (InMemoryLedger.approveWithdrawal rt id input nowIso s).2 := by
  rw [approveWithdrawal_apply]
  cases hw : s.withdrawals.get? id with
  | none => exact Moves.refl s
  | some w =>
    simp only
    split
    · exact Moves.refl s
    · next hst =>
      split
      · exact Moves.refl s
      · have hm : Move rt admits s (s.withWithdrawal id _) := Move.touched hw _
          (sameMoney_approvedBy (not_not.mp hst) ((s.approvalsOf id).length + 1) nowIso)
        have hap : Moves rt admits s (s.approved rt id w input nowIso) :=
          hm.single.frame ⟨rfl, rfl, rfl, rfl, rfl, rfl, rfl, Nat.le_succ _⟩
        exact hap.frame (SameBooks.of_announced _ _ _ _)

theorem broadcastWithdrawal_moves (id txHash nowIso : String) :
    Moves rt admits s (InMemoryLedger.broadcastWithdrawal rt id txHash nowIso s).2 := by
  rw [broadcastWithdrawal_apply]
  cases hw : s.withdrawals.get? id with
  | none => exact Moves.refl s
  | some w =>
    simp only
    split
    · exact Moves.refl s
    · next hst =>
      refine (Move.touched hw (broadcasted w txHash nowIso)
        ⟨rfl, rfl, rfl, rfl, ?_, ?_⟩).announced _ _ _ _
      · rw [not_not.mp hst]; rfl
      · rw [not_not.mp hst]; simp [broadcasted]

theorem SameBooks.of_networkFee (id : String) (txHash : Option String)
    (networkFee : Option NetworkFee) (nowIso : String) :
    SameBooks s (s.withNetworkFee id txHash networkFee nowIso) := by
  unfold withNetworkFee
  cases networkFee with
  | none => exact SameBooks.refl s
  | some fee =>
    cases truthy txHash with
    | none => exact SameBooks.refl s
    | some txHash => exact ⟨rfl, rfl, rfl, rfl, rfl, rfl, rfl, le_refl _⟩

theorem confirmWithdrawal_moves (hs : Sound rt s) (id : String) (networkFee : Option NetworkFee)
    (nowIso : String) :
    Moves rt admits s (InMemoryLedger.confirmWithdrawal rt id networkFee nowIso s).2 := by
  rw [confirmWithdrawal_apply]
  cases hw : s.withdrawals.get? id with
  | none => exact Moves.refl s
  | some w =>
    obtain ⟨tx, htx⟩ := Option.isSome_iff_exists.mp (hs.recorded id w hw).2
    simp only [htx]
    split
    · exact Moves.refl s
    · next hst =>
      split
      · exact (Move.opened _ _).single
      · exact ((Move.settled hw (not_not.mp hst)).single.frame
          (SameBooks.of_networkFee _ _ _ _)).frame (SameBooks.of_announced _ _ _ _)

theorem failWithdrawal_moves (hs : Sound rt s) (id reason nowIso : String) :
    Moves rt admits s (InMemoryLedger.failWithdrawal rt id reason nowIso s).2 := by
  rw [failWithdrawal_apply]
  cases hw : s.withdrawals.get? id with
  | none => exact Moves.refl s
  | some w =>
    obtain ⟨tx, htx⟩ := Option.isSome_iff_exists.mp (hs.recorded id w hw).2
    simp only [htx]
    split
    · exact Moves.refl s
    · next hst =>
      split
      · exact (Move.opened _ _).single
      · exact (Move.released hw (Bool.of_not_eq_false hst)).announced _ _ _ _

/-! ## the outbox leaves the books alone -/

theorem updateEvents_moves (events : List OutboxEvent) (f : OutboxEvent → OutboxEvent) :
    Method.Keeps (Moves rt admits) (updateEvents events f) :=
  Method.Keeps.modify fun s => (Moves.refl s).frame ⟨rfl, rfl, rfl, rfl, rfl, rfl, rfl, le_refl _⟩

theorem updateEvent_moves (outboxEventId : String) (f : OutboxEvent → OutboxEvent) :
    Method.Keeps (Moves rt admits) (updateEvent outboxEventId f) := by
  intro s
  simp only [updateEvent, Method.get_bind]
  cases s.outboxEvents.get? outboxEventId with
  | none => exact Moves.refl s
  | some event => exact (Moves.refl s).frame ⟨rfl, rfl, rfl, rfl, rfl, rfl, rfl, le_refl _⟩

theorem Moves.replying {α β : Type} {m : Op α} (h : Moves rt admits s (m s).2) (f : α → β) :
    Moves rt admits s ((m >>= fun a => pure (f a) : Op β) s).2 := by
  rw [Method.bind_pure_store]
  exact h

theorem claimPendingOutboxEvents_moves (limit : Nat) (nowIso : String) :
    Moves rt admits s (InMemoryLedger.claimPendingOutboxEvents rt limit nowIso s).2 :=
  updateEvents_moves _ (OutboxEvent.claim nowIso) s

theorem replayOutboxEvents_moves (input : ReplayInput) :
    Moves rt admits s (InMemoryLedger.replayOutboxEvents rt input s).2 :=
  updateEvents_moves _ (OutboxEvent.replay input.nowIso) s

theorem acknowledgeDeadLetterOutboxEvents_moves (input : AcknowledgeInput) :
    Moves rt admits s (InMemoryLedger.acknowledgeDeadLetterOutboxEvents rt input s).2 :=
  updateEvents_moves _ (OutboxEvent.acknowledge input) s

/-! ## every call -/

/-- the store a call leaves behind is reached by moves -/
theorem exec_moves (hs : Sound rt s) (c : Call) (hadm : c.AmountSatisfies admits) :
    Moves rt admits s (c.step rt s) := by
  cases c with
  | getAccount userId nowIso => exact (getAccount_moves userId nowIso).replying _
  | bindWalletAddress userId walletAddress nowIso =>
    exact (bindWalletAddress_moves userId walletAddress nowIso s).replying _
  | applyDeposit input => exact (applyDeposit_moves input hadm).replying _
  | completeDeposit depositId => exact (completeDeposit_moves depositId).replying _
  | applyExternalCredit input => exact (applyExternalCredit_moves input hadm).replying _
  | transfer input => exact (transfer_moves input hadm).replying _
  | requestWithdrawal input => exact (requestWithdrawal_moves input hadm).replying _
  | confirmWithdrawalExternalAuth id provider requestId nowIso =>
    exact (confirmWithdrawalExternalAuth_moves id provider requestId nowIso).replying _
  | markWithdrawalReviewRequired id nowIso =>
    exact (markWithdrawalReviewRequired_moves id nowIso).replying _
  | approveWithdrawal id input nowIso =>
    exact (approveWithdrawal_moves id input nowIso).replying _
  | broadcastWithdrawal id txHash nowIso =>
    exact (broadcastWithdrawal_moves id txHash nowIso).replying _
  | confirmWithdrawal id networkFee nowIso =>
    exact (confirmWithdrawal_moves hs id networkFee nowIso).replying _
  | failWithdrawal id reason nowIso =>
    exact (failWithdrawal_moves hs id reason nowIso).replying _
  | claimPendingOutboxEvents limit nowIso =>
    exact (claimPendingOutboxEvents_moves limit nowIso).replying _
  | markOutboxEventPublished id nowIso =>
    exact (updateEvent_moves id (OutboxEvent.publish nowIso) s).replying _
  | rescheduleOutboxEvent id error availableAt =>
    exact (updateEvent_moves id _ s).replying _
  | deadLetterOutboxEvent id error deadLetteredAt =>
    exact (updateEvent_moves id (OutboxEvent.deadLetter error deadLetteredAt) s).replying _
  | replayOutboxEvents input =>
    exact (replayOutboxEvents_moves input).replying _
  | acknowledgeDeadLetterOutboxEvents input =>
    exact (acknowledgeDeadLetterOutboxEvents_moves input).replying _

/-! ## runs -/

theorem Moves.sound (huuid : Function.Injective rt.uuid) (h : Moves rt admits s s')
    (hs : Sound rt s) : Sound rt s' := by
  induction h with
  | refl => exact hs
  | tail _ hm ih => exact hm.sound huuid ih

theorem Moves.solvent (h : Moves rt (0 < ·) s s') (hp : Solvent s) : Solvent s' := by
  induction h with
  | refl => exact hp
  | tail _ hm ih => exact hm.solvent ih

theorem step_sound (huuid : Function.Injective rt.uuid) (c : Call) (hs : Sound rt s) :
    Sound rt (c.step rt s) := by
  have hadm : c.AmountSatisfies fun _ => True := by cases c <;> trivial
  exact (exec_moves hs c hadm).sound huuid hs

theorem run_sound (huuid : Function.Injective rt.uuid) (limits : WithdrawalLimitConfig)
    (calls : List Call) : Sound rt (runCalls (Call.step rt) calls (new limits)) :=
  run_invariant (fun c _ (_ : True) hs => step_sound huuid c hs) (fun _ _ => trivial)
    (Sound.new limits)

theorem run_solvent (huuid : Function.Injective rt.uuid) (limits : WithdrawalLimitConfig)
    {calls : List Call} (hpos : ∀ c ∈ calls, c.AmountSatisfies (0 < ·)) :
    Solvent (runCalls (Call.step rt) calls (new limits)) := by
  have hstep : ∀ c s, Call.AmountSatisfies (0 < ·) c → (Sound rt s ∧ Solvent s) →
      (Sound rt (c.step rt s) ∧ Solvent (c.step rt s)) := fun c s hc h =>
    ⟨step_sound huuid c h.1, (exec_moves h.1 c hc).solvent h.2⟩
  exact (run_invariant hstep hpos ⟨Sound.new limits, Solvent.new limits⟩).2

/-! ## the checks against a corrupted store -/

/-- a method threw `STATE_CORRUPTED` -/
def ThrowsCorrupted {α : Type} (r : Except LedgerError α × InMemoryLedger) : Prop :=
  ∃ message, r.1 = .error (.domain 500 "STATE_CORRUPTED" message)

theorem not_corrupted_ok {α : Type} (a : α) : ¬ ThrowsCorrupted (Except.ok a, s) := by
  rintro ⟨message, h⟩
  cases h

theorem not_corrupted_announced {α : Type} (w : Withdrawal) (id occurredAt : String) (reply : α) :
    ¬ ThrowsCorrupted (s.announced rt w id occurredAt reply) := by
  rintro ⟨message, h⟩
  rw [announced] at h
  cases hc : buildWithdrawalStateChangedContract rt w occurredAt with
  | ok contract => rw [hc] at h; cases h
  | error e =>
    rw [hc] at h
    obtain ⟨issues, rfl⟩ := buildWithdrawalStateChangedContract_error hc
    cases h

theorem transfer_not_corrupted (hs : Sound rt s) (input : TransferInput) :
    ¬ ThrowsCorrupted (InMemoryLedger.transfer rt input s) := by
  rw [transfer_apply]
  cases h : s.transferByIdempotencyKey.get? input.idempotencyKey with
  | some existing =>
    obtain ⟨hfrom, hto⟩ := hs.transfers _ _ h
    obtain ⟨fromTx, hfrom⟩ := Option.isSome_iff_exists.mp hfrom
    obtain ⟨toTx, hto⟩ := Option.isSome_iff_exists.mp hto
    simp only [hfrom, hto]
    exact not_corrupted_ok _
  | none =>
    simp only
    split
    · rintro ⟨message, h⟩
      simp at h
    · split
      · rintro ⟨message, h⟩
        simp at h
      · exact not_corrupted_ok _

theorem truthy_eq_some {o : Option String} {v : String} (h : truthy o = some v) : o = some v := by
  unfold truthy at h
  split at h
  · cases h
  · exact h

theorem requestWithdrawal_not_corrupted (hs : Sound rt s) (input : WithdrawalInput) :
    ¬ ThrowsCorrupted (InMemoryLedger.requestWithdrawal rt input s) := by
  rw [requestWithdrawal_apply]
  cases h : truthy (s.withdrawalByIdempotencyKey.get? input.idempotencyKey) with
  | some existingId =>
    obtain ⟨existing, he⟩ := Option.isSome_iff_exists.mp (hs.requested _ _ (truthy_eq_some h))
    simp only [he]
    exact not_corrupted_ok _
  | none =>
    simp only
    split
    · rintro ⟨message, h⟩
      simp at h
    · split
      · rintro ⟨message, h⟩
        simp at h
      · split
        · rintro ⟨message, h⟩
          simp at h
        · exact not_corrupted_announced _ _ _ _

theorem confirmWithdrawal_not_corrupted (hs : Sound rt s) (hp : Solvent s) (id : String)
    (networkFee : Option NetworkFee) (nowIso : String) :
    ¬ ThrowsCorrupted (InMemoryLedger.confirmWithdrawal rt id networkFee nowIso s) := by
  rw [confirmWithdrawal_apply]
  cases hw : s.withdrawals.get? id with
  | none =>
    rintro ⟨message, h⟩
    simp [withdrawalNotFound] at h
  | some w =>
    obtain ⟨tx, htx⟩ := Option.isSome_iff_exists.mp (hs.recorded id w hw).2
    simp only [htx]
    split
    · rintro ⟨message, h⟩
      simp at h
    · next hst =>
      have hcov := hp.covered hs hw (by rw [not_not.mp hst]; rfl)
      rw [lockedOf] at hcov
      rw [accountOf_locked, if_neg (not_lt.mpr hcov)]
      exact not_corrupted_announced _ _ _ _

theorem failWithdrawal_not_corrupted (hs : Sound rt s) (hp : Solvent s) (id reason nowIso : String) :
    ¬ ThrowsCorrupted (InMemoryLedger.failWithdrawal rt id reason nowIso s) := by
  rw [failWithdrawal_apply]
  cases hw : s.withdrawals.get? id with
  | none =>
    rintro ⟨message, h⟩
    simp [withdrawalNotFound] at h
  | some w =>
    obtain ⟨tx, htx⟩ := Option.isSome_iff_exists.mp (hs.recorded id w hw).2
    simp only [htx]
    split
    · rintro ⟨message, h⟩
      simp at h
    · next hst =>
      have hcov := hp.covered hs hw (Bool.of_not_eq_false hst)
      rw [lockedOf] at hcov
      rw [accountOf_locked, if_neg (not_lt.mpr hcov)]
      exact not_corrupted_announced _ _ _ _

end

/-- After every run of positive amounts on an empty ledger: no balance is negative and what a
user has locked is what their active withdrawals reserve; what the users hold is what came in
less what was paid out; and the store is never found corrupted. -/
theorem run_money_invariant (rt : Runtime) (huuid : Function.Injective rt.uuid)
    (limits : WithdrawalLimitConfig) (calls : List Call)
    (hpos : ∀ c ∈ calls, c.AmountSatisfies (0 < ·)) :
    let s := runCalls (Call.step rt) calls (new limits)
    (∀ u, 0 ≤ s.balanceOf u ∧ s.lockedOf u = s.reservedOf u) ∧
    s.holdings = s.recordedDeposits + s.recordedCredits - s.paidOut ∧
    (∀ input, ¬ ThrowsCorrupted (transfer rt input s)) ∧
    (∀ input, ¬ ThrowsCorrupted (requestWithdrawal rt input s)) ∧
    (∀ id networkFee nowIso, ¬ ThrowsCorrupted (confirmWithdrawal rt id networkFee nowIso s)) ∧
    (∀ id reason nowIso, ¬ ThrowsCorrupted (failWithdrawal rt id reason nowIso s)) := by
  intro s
  have hs : Sound rt s := run_sound huuid limits calls
  have hp : Solvent s := run_solvent huuid limits hpos
  exact ⟨fun u => ⟨hp.balance_nonneg u, hs.locked u⟩, hs.balanced,
    fun input => transfer_not_corrupted hs input,
    fun input => requestWithdrawal_not_corrupted hs input,
    fun id networkFee nowIso => confirmWithdrawal_not_corrupted hs hp id networkFee nowIso,
    fun id reason nowIso => failWithdrawal_not_corrupted hs hp id reason nowIso⟩

/-- a deposit and a withdrawal request from it -/
def exampleCalls : List Call :=
  [.applyDeposit
    { userId := "alice", amount := 5000000, txHash := "0xabc12345", toAddress := some "TAlice"
      walletAddress := none, blockNumber := 7, nowIso := "2026-01-01T00:00:00.000Z" },
   .requestWithdrawal
    { userId := "alice", amount := 2000000, toAddress := "TBob", idempotencyKey := "w-1"
      riskLevel := none, riskScore := none, riskFlags := none, requiredApprovals := none
      clientIp := none, deviceId := none, nowIso := "2026-01-01T00:00:01.000Z" }]

theorem run_money_invariant_example :
    let s := runCalls (Call.step .numbered) exampleCalls (new ⟨10000000, 10000000⟩)
    (∀ u, 0 ≤ s.balanceOf u ∧ s.lockedOf u = s.reservedOf u) ∧
    s.holdings = s.recordedDeposits + s.recordedCredits - s.paidOut := by
  have hpos : ∀ c ∈ exampleCalls, c.AmountSatisfies (0 < ·) := by
    simp [exampleCalls, Call.AmountSatisfies]
  have h := run_money_invariant .numbered Runtime.numbered_uuid_injective ⟨10000000, 10000000⟩
    exampleCalls hpos
  exact ⟨h.1, h.2.1⟩

example : (runCalls (Call.step .numbered) exampleCalls
    (new ⟨10000000, 10000000⟩)).lockedOf "alice" = 2000000 := by decide

end InMemoryLedger
