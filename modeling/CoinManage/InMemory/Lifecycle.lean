import CoinManage.InMemory.Runs

/-!
# The life of a withdrawal

What one call can do to the records of withdrawals: nothing, open the record of a new withdrawal,
or make the one transition of the call's own method, from the status that the method asks for
(`step_files`).  A record is the withdrawal with its approvals and its ledger transaction.

* `step_withdrawal`     one call, one withdrawal;
* `step_pastBroadcast`  a withdrawal that has been broadcasted is never approved again.
-/

namespace InMemoryLedger

/-- the withdrawal a call is about -/
def Call.target : Call → Option String
  | .confirmWithdrawalExternalAuth withdrawalId _ _ _ => some withdrawalId
  | .markWithdrawalReviewRequired withdrawalId _ => some withdrawalId
  | .approveWithdrawal withdrawalId _ _ => some withdrawalId
  | .broadcastWithdrawal withdrawalId _ _ => some withdrawalId
  | .confirmWithdrawal withdrawalId _ _ => some withdrawalId
  | .failWithdrawal withdrawalId _ _ => some withdrawalId
  | _ => none

/-- the transition of a call's method -/
inductive Advances : Call → Withdrawal → Withdrawal → Prop
  | authenticated {id provider requestId nowIso : String} {w : Withdrawal}
      (status : w.status = .ledgerReserved) :
      Advances (.confirmWithdrawalExternalAuth id provider requestId nowIso) w
        (authenticated w provider requestId nowIso)
  | reviewed {id nowIso : String} {w : Withdrawal} (status : w.status = .pendingAdmin) :
      Advances (.markWithdrawalReviewRequired id nowIso) w
        { w with reviewRequiredAt := some nowIso }
  | approved {id nowIso : String} {input : ApprovalInput} {w : Withdrawal}
      (status : w.status = .pendingAdmin) (count : Nat) :
      Advances (.approveWithdrawal id input nowIso) w (approvedBy w count nowIso)
  | broadcasted {id txHash nowIso : String} {w : Withdrawal} (status : w.status = .adminApproved) :
      Advances (.broadcastWithdrawal id txHash nowIso) w (broadcasted w txHash nowIso)
  | completed {id nowIso : String} {networkFee : Option NetworkFee} {w : Withdrawal}
      (status : w.status = .txBroadcasted) :
      Advances (.confirmWithdrawal id networkFee nowIso) w (completed w nowIso)
  | failed {id reason nowIso : String} {w : Withdrawal} (active : w.status.isActive = true) :
      Advances (.failWithdrawal id reason nowIso) w (failed w reason nowIso)

/-- the records kept about one withdrawal -/
structure WithdrawalFile where
  withdrawal : Withdrawal
  approvals : List WithdrawalApproval
  transaction : LedgerTransaction

/-- the transition of a call's method on the records it keeps -/
inductive Refiles : Call → WithdrawalFile → WithdrawalFile → Prop
  | authenticated {id provider requestId nowIso : String} {f : WithdrawalFile}
      (status : f.withdrawal.status = .ledgerReserved) :
      Refiles (.confirmWithdrawalExternalAuth id provider requestId nowIso) f
        { f with withdrawal := authenticated f.withdrawal provider requestId nowIso }
  | reviewed {id nowIso : String} {f : WithdrawalFile} (status : f.withdrawal.status = .pendingAdmin) :
      Refiles (.markWithdrawalReviewRequired id nowIso) f
        { f with withdrawal := { f.withdrawal with reviewRequiredAt := some nowIso } }
  | approved {id nowIso : String} {input : ApprovalInput} {f : WithdrawalFile}
      (status : f.withdrawal.status = .pendingAdmin)
      (new : ∀ a ∈ f.approvals, a.adminId ≠ input.adminId) (approval : WithdrawalApproval)
      (given : approval.adminId = input.adminId) :
      Refiles (.approveWithdrawal id input nowIso) f
        { f with
          withdrawal := approvedBy f.withdrawal (f.approvals.length + 1) nowIso
          approvals := f.approvals ++ [approval] }
  | broadcasted {id txHash nowIso : String} {f : WithdrawalFile}
      (status : f.withdrawal.status = .adminApproved) :
      Refiles (.broadcastWithdrawal id txHash nowIso) f
        { f with withdrawal := broadcasted f.withdrawal txHash nowIso }
  | completed {id nowIso : String} {networkFee : Option NetworkFee} {f : WithdrawalFile}
      (status : f.withdrawal.status = .txBroadcasted) :
      Refiles (.confirmWithdrawal id networkFee nowIso) f
        { f with
          withdrawal := completed f.withdrawal nowIso
          transaction :=
            { f.transaction with status := .confirmed, blockTx := f.withdrawal.txHash } }
  | failed {id reason nowIso : String} {f : WithdrawalFile}
      (active : f.withdrawal.status.isActive = true) :
      Refiles (.failWithdrawal id reason nowIso) f
        { f with
          withdrawal := failed f.withdrawal reason nowIso
          transaction := { f.transaction with status := .failed } }

theorem Refiles.advances {c : Call} {f f' : WithdrawalFile} (h : Refiles c f f') :
    Advances c f.withdrawal f'.withdrawal := by
  cases h with
  | authenticated status => exact .authenticated status
  | reviewed status => exact .reviewed status
  | approved status => exact .approved status _
  | broadcasted status => exact .broadcasted status
  | completed status => exact .completed status
  | failed active => exact .failed active

theorem Refiles.ledgerTxId {c : Call} {f f' : WithdrawalFile} (h : Refiles c f f') :
    f'.withdrawal.ledgerTxId = f.withdrawal.ledgerTxId := by
  cases h with
  | approved =>
    simp only [approvedBy]
    split <;> rfl
  | _ => rfl

/-- Withdrawals, approvals and limits are the same, and so is every transaction whose id has been
drawn. -/
structure SameFiles (rt : Runtime) (s s' : InMemoryLedger) : Prop where
  limits : s'.limits = s.limits
  withdrawals : s'.withdrawals = s.withdrawals
  approvals : s'.approvalsByWithdrawalId = s.approvalsByWithdrawalId
  transactions : ∀ k < s.uuidsDrawn,
    s'.transactions.get? (rt.uuid k) = s.transactions.get? (rt.uuid k)
  drawn : s.uuidsDrawn ≤ s'.uuidsDrawn

/-- the record of a new withdrawal, within the limits -/
structure Requested (rt : Runtime) (input : WithdrawalInput) (s s' : InMemoryLedger) : Prop where
  limits : s'.limits = s.limits
  withdrawals : s'.withdrawals =
    s.withdrawals.set (rt.uuid (s.uuidsDrawn + 1)) (s.requestedWithdrawal rt input)
  approvals : s'.approvalsByWithdrawalId =
    s.approvalsByWithdrawalId.set (rt.uuid (s.uuidsDrawn + 1)) []
  transactions : ∀ k < s.uuidsDrawn,
    s'.transactions.get? (rt.uuid k) = s.transactions.get? (rt.uuid k)
  transaction : ∃ tx, s'.transactions.get? (rt.uuid s.uuidsDrawn) = some tx ∧ tx.status = .pending
  drawn : s.uuidsDrawn + 2 ≤ s'.uuidsDrawn
  single : input.amount ≤ s.limits.singleLimit
  daily : getDailyRequestedWithdrawalAmount s input.userId input.nowIso + input.amount ≤
    s.limits.dailyLimit

/-- one record of `s` rewritten as `f'` -/
structure Rewritten (c : Call) (id : String) (f f' : WithdrawalFile) (s s' : InMemoryLedger) :
    Prop where
  target : c.target = some id
  found : s.withdrawals.get? id = some f.withdrawal
  approved : s.approvalsOf id = f.approvals
  recorded : s.transactions.get? f.withdrawal.ledgerTxId = some f.transaction
  refiles : Refiles c f f'
  limits : s'.limits = s.limits
  withdrawals : s'.withdrawals = s.withdrawals.set id f'.withdrawal
  approvals : ∀ other, s'.approvalsOf other = if id = other then f'.approvals else s.approvalsOf other
  transactions : ∀ key, s'.transactions.get? key =
    if f.withdrawal.ledgerTxId = key then some f'.transaction else s.transactions.get? key
  drawn : s.uuidsDrawn ≤ s'.uuidsDrawn

/-- what a call does to the records of withdrawals -/
inductive FileStep (rt : Runtime) (c : Call) (s s' : InMemoryLedger) : Prop
  | same (h : SameFiles rt s s')
  | requested {input : WithdrawalInput} (call : c = .requestWithdrawal input)
      (h : Requested rt input s s')
  | rewritten {id : String} {f f' : WithdrawalFile} (h : Rewritten c id f f' s s')

section
variable {rt : Runtime} {s s' : InMemoryLedger}

theorem SameFiles.refl (s : InMemoryLedger) : SameFiles rt s s :=
  ⟨rfl, rfl, rfl, fun _ _ => rfl, le_refl _⟩

theorem SameFiles.trans {s₁ s₂ s₃ : InMemoryLedger} (h : SameFiles rt s₁ s₂)
    (h' : SameFiles rt s₂ s₃) : SameFiles rt s₁ s₃ where
  limits := h'.limits.trans h.limits
  withdrawals := h'.withdrawals.trans h.withdrawals
  approvals := h'.approvals.trans h.approvals
  transactions k hk := (h'.transactions k (lt_of_lt_of_le hk h.drawn)).trans (h.transactions k hk)
  drawn := h.drawn.trans h'.drawn

/-- answering writes nothing -/
theorem replying_store {α : Type} (m : Op α) (f : α → Reply) :
    ((m >>= fun a => pure (f a) : Op Reply) s).2 = (m s).2 := by
  rw [Method.bind_apply]
  rcases m s with ⟨e | a, s'⟩ <;> rfl

/-! ## methods that leave the records alone -/

theorem sameFiles_opened (userId nowIso : String) : SameFiles rt s (s.opened userId nowIso) := by
  rw [opened_eq]
  exact ⟨rfl, rfl, rfl, fun _ _ => rfl, le_refl _⟩

theorem sameFiles_getAccount (userId nowIso : String) :
    SameFiles rt s (getAccount userId nowIso s).2 := by
  rw [getAccount, Method.bind_ok _ (getMutableAccount_apply s _ _)]
  exact sameFiles_opened userId nowIso

theorem sameFiles_bind (userId walletAddress nowIso : String) :
    Method.Keeps (SameFiles rt) (bindWalletAddress userId walletAddress nowIso) := by
  have hrefl : ∀ s, SameFiles rt s s := SameFiles.refl
  refine Method.Keeps.bind (R := SameFiles rt) SameFiles.trans (Method.Keeps.get hrefl) fun s => ?_
  refine Method.Keeps.ite (Method.Keeps.throw hrefl _) ?_
  refine Method.Keeps.bind (R := SameFiles rt) SameFiles.trans ?_ fun _ => ?_
  · cases s.walletBindingsByUserId.get? userId with
    | none => exact Method.Keeps.pure hrefl ()
    | some previous =>
      refine Method.Keeps.ite (Method.Keeps.modify fun _ => ?_) (Method.Keeps.pure hrefl ())
      exact ⟨rfl, rfl, rfl, fun _ _ => rfl, le_refl _⟩
  refine Method.Keeps.bind (R := SameFiles rt) SameFiles.trans (Method.Keeps.modify fun _ => ?_) fun _ => ?_
  · exact ⟨rfl, rfl, rfl, fun _ _ => rfl, le_refl _⟩
  refine Method.Keeps.bind (R := SameFiles rt) SameFiles.trans ?_ fun _ => Method.Keeps.pure hrefl _
  intro s
  simp only [setAccountWalletAddress, Method.get_bind]
  cases s.accounts.get? userId with
  | none => exact hrefl s
  | some account => exact ⟨rfl, rfl, rfl, fun _ _ => rfl, le_refl _⟩

/-- a transaction written under a fresh id is none of those drawn before -/
theorem get?_set_fresh (huuid : Function.Injective rt.uuid) (m : OrderedMap String LedgerTransaction)
    {k n : Nat} (h : k < n) (tx : LedgerTransaction) :
    (m.set (rt.uuid n) tx).get? (rt.uuid k) = m.get? (rt.uuid k) := by
  apply OrderedMap.get?_set_of_ne
  intro he
  have hk := huuid he
  omega

theorem sameFiles_applyDeposit (huuid : Function.Injective rt.uuid) (input : DepositInput) :
    SameFiles rt s (applyDeposit rt input s).2 := by
  cases h : s.depositsByTxHash.get? input.txHash with
  | some existing =>
    rw [applyDeposit_duplicated rt s h]
    exact SameFiles.refl s
  | none =>
    have hwritten : SameFiles rt s (s.deposited rt input) :=
      ⟨rfl, rfl, rfl, fun k hk => get?_set_fresh huuid _ hk _, Nat.le_add_right _ _⟩
    rw [applyDeposit_new rt s h]
    cases buildDepositStateChangedContract rt (s.depositChange rt input) with
    | ok contract =>
      exact hwritten.trans ⟨rfl, rfl, rfl, fun _ _ => rfl, Nat.le_succ _⟩
    | error e => exact hwritten

theorem sameFiles_completeDeposit (depositId : String) :
    SameFiles rt s (completeDeposit depositId s).2 := by
  simp only [completeDeposit, Method.get_bind]
  cases s.depositsByTxHash.entries.find? fun entry => entry.2.depositId = depositId with
  | none => exact SameFiles.refl s
  | some entry =>
    simp only [Method.ite_apply]
    split
    · exact SameFiles.refl s
    · exact ⟨rfl, rfl, rfl, fun _ _ => rfl, le_refl _⟩

theorem sameFiles_applyExternalCredit (input : ExternalCreditInput) :
    SameFiles rt s (applyExternalCredit rt input s).2 := by
  rw [applyExternalCredit_apply]
  split
  · exact SameFiles.refl s
  · split
    · exact SameFiles.refl s
    · exact ⟨rfl, rfl, rfl, fun _ _ => rfl, le_refl _⟩

theorem sameFiles_transfer (huuid : Function.Injective rt.uuid) (input : TransferInput) :
    SameFiles rt s (transfer rt input s).2 := by
  rw [transfer_apply]
  cases s.transferByIdempotencyKey.get? input.idempotencyKey with
  | some existing =>
    simp only
    split <;> exact SameFiles.refl s
  | none =>
    simp only
    split
    · exact SameFiles.refl s
    · split
      · exact (sameFiles_opened _ _).trans (sameFiles_opened _ _)
      · refine ⟨rfl, rfl, rfl, fun k hk => ?_, Nat.le_add_right _ _⟩
        rw [transferred, get?_set_fresh huuid _ (Nat.lt_succ_of_lt hk), get?_set_fresh huuid _ hk]

theorem sameFiles_updateEvent (outboxEventId : String) (f : OutboxEvent → OutboxEvent) :
    SameFiles rt s (updateEvent outboxEventId f s).2 := by
  simp only [updateEvent, Method.get_bind]
  cases s.outboxEvents.get? outboxEventId with
  | none => exact SameFiles.refl s
  | some event => exact ⟨rfl, rfl, rfl, fun _ _ => rfl, le_refl _⟩

/-! ## methods of the lifecycle -/

/-- announcing writes to the outbox only -/
theorem announced_eq (s : InMemoryLedger) (rt : Runtime) {α : Type} (w : Withdrawal)
    (id occurredAt : String) (reply : α) :
    ∃ events n, s.uuidsDrawn ≤ n ∧ (s.announced rt w id occurredAt reply).2 =
      { s with outboxEvents := events, uuidsDrawn := n } := by
  rw [announced]
  cases buildWithdrawalStateChangedContract rt w occurredAt with
  | ok contract => exact ⟨_, _, Nat.le_succ _, rfl⟩
  | error e => exact ⟨_, _, le_refl _, rfl⟩

theorem withNetworkFee_eq (id : String) (txHash : Option String) (networkFee : Option NetworkFee)
    (nowIso : String) : ∃ receipts journals, s.withNetworkFee id txHash networkFee nowIso =
      { s with networkFeeReceipts := receipts, networkFeeJournals := journals } := by
  unfold withNetworkFee
  split
  · exact ⟨_, _, rfl⟩
  · exact ⟨_, _, rfl⟩

theorem requestWithdrawal_files (huuid : Function.Injective rt.uuid) (input : WithdrawalInput) :
    SameFiles rt s (requestWithdrawal rt input s).2 ∨
      Requested rt input s (requestWithdrawal rt input s).2 := by
  rw [requestWithdrawal_apply]
  cases truthy (s.withdrawalByIdempotencyKey.get? input.idempotencyKey) with
  | some existingId =>
    simp only
    split <;> exact Or.inl (SameFiles.refl s)
  | none =>
    simp only
    split
    · exact Or.inl (SameFiles.refl s)
    · next hsingle =>
      split
      · exact Or.inl (SameFiles.refl s)
      · next hdaily =>
        split
        · exact Or.inl (sameFiles_opened _ _)
        · refine Or.inr ?_
          obtain ⟨events, n, hn, he⟩ := announced_eq (s.reserved rt input) rt
            (s.requestedWithdrawal rt input) (rt.uuid (s.uuidsDrawn + 1)) input.nowIso
            ({ withdrawal := s.requestedWithdrawal rt input, duplicated := false } :
              WithdrawalRequestResult)
          rw [he]
          exact {
            limits := rfl
            withdrawals := rfl
            approvals := rfl
            transactions := fun k hk => get?_set_fresh huuid _ hk _
            transaction := ⟨_, OrderedMap.get?_set_self _ _ _, rfl⟩
            drawn := hn
            single := not_lt.mp hsingle
            daily := not_lt.mp hdaily }

theorem ite_self_of_eq {α : Type} {f : String → α} {id : String} {a : α} (h : f id = a)
    (other : String) : f other = if id = other then a else f other := by
  split
  · next he => rw [← he, h]
  · rfl

/-- a withdrawal rewritten, its approvals and its transaction as they were -/
theorem rewritten_withdrawal {c : Call} {id : String} {w w' : Withdrawal} {tx : LedgerTransaction}
    (target : c.target = some id) (hw : s.withdrawals.get? id = some w)
    (htx : s.transactions.get? w.ledgerTxId = some tx)
    (hre : Refiles c ⟨w, s.approvalsOf id, tx⟩ ⟨w', s.approvalsOf id, tx⟩)
    (occurredAt : String) {α : Type} (reply : α) :
    Rewritten c id ⟨w, s.approvalsOf id, tx⟩ ⟨w', s.approvalsOf id, tx⟩ s
      ((s.withWithdrawal id w').announced rt w' id occurredAt reply).2 := by
  obtain ⟨events, n, hn, he⟩ := announced_eq (s.withWithdrawal id w') rt w' id occurredAt reply
  rw [he]
  exact {
    target := target
    found := hw
    approved := rfl
    recorded := htx
    refiles := hre
    limits := rfl
    withdrawals := rfl
    approvals := fun other => ite_self_of_eq (f := s.approvalsOf) rfl other
    transactions := fun key => ite_self_of_eq (f := s.transactions.get?) htx key
    drawn := hn }

/-- One call, the records of all withdrawals. -/
theorem step_files (huuid : Function.Injective rt.uuid) (hs : Sound rt s) (c : Call) :
    FileStep rt c s (c.step rt s) := by
  cases c with
  | getAccount userId nowIso =>
    rw [show Call.step rt (.getAccount userId nowIso) s = _ from replying_store _ _]
    exact .same (sameFiles_getAccount userId nowIso)
  | bindWalletAddress userId walletAddress nowIso =>
    rw [show Call.step rt (.bindWalletAddress userId walletAddress nowIso) s = _ from
      replying_store _ _]
    exact .same (sameFiles_bind userId walletAddress nowIso s)
  | applyDeposit input =>
    rw [show Call.step rt (.applyDeposit input) s = _ from replying_store _ _]
    exact .same (sameFiles_applyDeposit huuid input)
  | completeDeposit depositId =>
    rw [show Call.step rt (.completeDeposit depositId) s = _ from replying_store _ _]
    exact .same (sameFiles_completeDeposit depositId)
  | applyExternalCredit input =>
    rw [show Call.step rt (.applyExternalCredit input) s = _ from replying_store _ _]
    exact .same (sameFiles_applyExternalCredit input)
  | transfer input =>
    rw [show Call.step rt (.transfer input) s = _ from replying_store _ _]
    exact .same (sameFiles_transfer huuid input)
  | requestWithdrawal input =>
    rw [show Call.step rt (.requestWithdrawal input) s = _ from replying_store _ _]
    rcases requestWithdrawal_files (s := s) huuid input with h | h
    · exact .same h
    · exact .requested rfl h
  | confirmWithdrawalExternalAuth id provider requestId nowIso =>
    rw [show Call.step rt (.confirmWithdrawalExternalAuth id provider requestId nowIso) s = _ from
      replying_store _ _, confirmWithdrawalExternalAuth_apply]
    cases hw : s.withdrawals.get? id with
    | none => exact .same (SameFiles.refl s)
    | some w =>
      obtain ⟨tx, htx⟩ := Option.isSome_iff_exists.mp (hs.recorded id w hw).2
      simp only
      split
      · next hst =>
        exact .rewritten (rewritten_withdrawal rfl hw htx
          (Refiles.authenticated (f := ⟨w, s.approvalsOf id, tx⟩) hst) nowIso _)
      · split <;> exact .same (SameFiles.refl s)
  | markWithdrawalReviewRequired id nowIso =>
    rw [show Call.step rt (.markWithdrawalReviewRequired id nowIso) s = _ from
      replying_store _ _, markWithdrawalReviewRequired_apply]
    cases hw : s.withdrawals.get? id with
    | none => exact .same (SameFiles.refl s)
    | some w =>
      obtain ⟨tx, htx⟩ := Option.isSome_iff_exists.mp (hs.recorded id w hw).2
      simp only
      split
      · exact .same (SameFiles.refl s)
      · next hst =>
        exact .rewritten {
          target := rfl
          found := hw
          approved := rfl
          recorded := htx
          refiles := Refiles.reviewed (f := ⟨w, s.approvalsOf id, tx⟩) (not_not.mp hst)
          limits := rfl
          withdrawals := rfl
          approvals := fun other => ite_self_of_eq (f := s.approvalsOf) rfl other
          transactions := fun key => ite_self_of_eq (f := s.transactions.get?) htx key
          drawn := le_refl _ }
  | approveWithdrawal id input nowIso =>
    rw [show Call.step rt (.approveWithdrawal id input nowIso) s = _ from
      replying_store _ _, approveWithdrawal_apply]
    cases hw : s.withdrawals.get? id with
    | none => exact .same (SameFiles.refl s)
    | some w =>
      obtain ⟨tx, htx⟩ := Option.isSome_iff_exists.mp (hs.recorded id w hw).2
      simp only
      split
      · exact .same (SameFiles.refl s)
      · next hst =>
        split
        · exact .same (SameFiles.refl s)
        · next hnew =>
          obtain ⟨events, n, hn, he⟩ := announced_eq (s.approved rt id w input nowIso) rt
            (approvedBy w ((s.approvalsOf id).length + 1) nowIso) id nowIso
            ({ withdrawal := approvedBy w ((s.approvalsOf id).length + 1) nowIso
               approval := s.approvalRecord rt id input nowIso
               finalized := JsNumber.natGe ((s.approvalsOf id).length + 1) w.requiredApprovals } :
              ApprovalDecisionResult)
          rw [he]
          refine .rewritten {
            target := rfl
            found := hw
            approved := rfl
            recorded := htx
            refiles := Refiles.approved (f := ⟨w, s.approvalsOf id, tx⟩) (not_not.mp hst) ?_
              (s.approvalRecord rt id input nowIso) rfl
            limits := rfl
            withdrawals := rfl
            approvals := fun other => ?_
            transactions := fun key => ite_self_of_eq (f := s.transactions.get?) htx key
            drawn := (Nat.le_succ _).trans hn }
          · intro a ha hsame
            exact hnew (List.any_eq_true.mpr ⟨a, ha, decide_eq_true hsame⟩)
          · show orElse ((s.approvalsByWithdrawalId.set id _).get? other) [] = _
            rw [OrderedMap.get?_set]
            split <;> rfl
  | broadcastWithdrawal id txHash nowIso =>
    rw [show Call.step rt (.broadcastWithdrawal id txHash nowIso) s = _ from
      replying_store _ _, broadcastWithdrawal_apply]
    cases hw : s.withdrawals.get? id with
    | none => exact .same (SameFiles.refl s)
    | some w =>
      obtain ⟨tx, htx⟩ := Option.isSome_iff_exists.mp (hs.recorded id w hw).2
      simp only
      split
      · exact .same (SameFiles.refl s)
      · next hst =>
        exact .rewritten (rewritten_withdrawal rfl hw htx
          (Refiles.broadcasted (f := ⟨w, s.approvalsOf id, tx⟩) (not_not.mp hst)) nowIso _)
  | confirmWithdrawal id networkFee nowIso =>
    rw [show Call.step rt (.confirmWithdrawal id networkFee nowIso) s = _ from
      replying_store _ _, confirmWithdrawal_apply]
    cases hw : s.withdrawals.get? id with
    | none => exact .same (SameFiles.refl s)
    | some w =>
      obtain ⟨tx, htx⟩ := Option.isSome_iff_exists.mp (hs.recorded id w hw).2
      simp only [htx]
      split
      · exact .same (SameFiles.refl s)
      · next hst =>
        split
        · exact .same (sameFiles_opened _ _)
        · obtain ⟨receipts, journals, hfee⟩ := withNetworkFee_eq (s := s.settled id w tx nowIso) id
            w.txHash networkFee nowIso
          rw [hfee]
          obtain ⟨events, n, hn, he⟩ := announced_eq
            { s.settled id w tx nowIso with
              networkFeeReceipts := receipts, networkFeeJournals := journals } rt
            (completed w nowIso) id nowIso (completed w nowIso)
          rw [he]
          exact .rewritten {
            target := rfl
            found := hw
            approved := rfl
            recorded := htx
            refiles := Refiles.completed (f := ⟨w, s.approvalsOf id, tx⟩) (not_not.mp hst)
            limits := rfl
            withdrawals := rfl
            approvals := fun other => ite_self_of_eq (f := s.approvalsOf) rfl other
            transactions := fun key => OrderedMap.get?_set _ _ _ _
            drawn := hn }
  | failWithdrawal id reason nowIso =>
    rw [show Call.step rt (.failWithdrawal id reason nowIso) s = _ from
      replying_store _ _, failWithdrawal_apply]
    cases hw : s.withdrawals.get? id with
    | none => exact .same (SameFiles.refl s)
    | some w =>
      obtain ⟨tx, htx⟩ := Option.isSome_iff_exists.mp (hs.recorded id w hw).2
      simp only [htx]
      split
      · exact .same (SameFiles.refl s)
      · next hst =>
        split
        · exact .same (sameFiles_opened _ _)
        · obtain ⟨events, n, hn, he⟩ := announced_eq (s.released id w tx reason nowIso) rt
            (failed w reason nowIso) id nowIso (failed w reason nowIso)
          rw [he]
          exact .rewritten {
            target := rfl
            found := hw
            approved := rfl
            recorded := htx
            refiles := Refiles.failed (f := ⟨w, s.approvalsOf id, tx⟩) (Bool.of_not_eq_false hst)
            limits := rfl
            withdrawals := rfl
            approvals := fun other => ite_self_of_eq (f := s.approvalsOf) rfl other
            transactions := fun key => OrderedMap.get?_set _ _ _ _
            drawn := hn }
  | claimPendingOutboxEvents limit nowIso => exact .same ⟨rfl, rfl, rfl, fun _ _ => rfl, le_refl _⟩
  | markOutboxEventPublished id nowIso =>
    rw [show Call.step rt (.markOutboxEventPublished id nowIso) s = _ from replying_store _ _]
    exact .same (sameFiles_updateEvent id _)
  | rescheduleOutboxEvent id error availableAt =>
    rw [show Call.step rt (.rescheduleOutboxEvent id error availableAt) s = _ from
      replying_store _ _]
    exact .same (sameFiles_updateEvent id _)
  | deadLetterOutboxEvent id error deadLetteredAt =>
    rw [show Call.step rt (.deadLetterOutboxEvent id error deadLetteredAt) s = _ from
      replying_store _ _]
    exact .same (sameFiles_updateEvent id _)
  | replayOutboxEvents input => exact .same ⟨rfl, rfl, rfl, fun _ _ => rfl, le_refl _⟩
  | acknowledgeDeadLetterOutboxEvents input =>
    exact .same ⟨rfl, rfl, rfl, fun _ _ => rfl, le_refl _⟩

/-- One call, one withdrawal: it is left alone, or it makes the transition of the call. -/
theorem step_withdrawal (huuid : Function.Injective rt.uuid) (hs : Sound rt s) (c : Call)
    {id : String} {w : Withdrawal} (hw : s.withdrawals.get? id = some w) :
    (c.step rt s).withdrawals.get? id = some w ∨
      ∃ w', (c.step rt s).withdrawals.get? id = some w' ∧ c.target = some id ∧ Advances c w w' := by
  cases step_files huuid hs c with
  | same h =>
    left
    rw [h.withdrawals]
    exact hw
  | requested call h =>
    left
    have hfresh := hs.fresh huuid (Nat.le_add_right s.uuidsDrawn 1)
    have hne : rt.uuid (s.uuidsDrawn + 1) ≠ id := by
      intro he
      rw [he, hw] at hfresh
      cases hfresh
    rw [h.withdrawals, OrderedMap.get?_set_of_ne _ hne]
    exact hw
  | @rewritten id' f f' h =>
    rw [h.withdrawals]
    by_cases hid : id' = id
    · subst hid
      right
      obtain rfl := Option.some.inj (h.found.symm.trans hw)
      exact ⟨f'.withdrawal, OrderedMap.get?_set_self _ _ _, h.target, h.refiles.advances⟩
    · left
      rw [OrderedMap.get?_set_of_ne _ hid]
      exact hw

/-! ## the transfer has been recorded -/

/-- the transfer has been recorded, or the withdrawal given up -/
def pastBroadcast : WithdrawalStatus → Bool
  | .txBroadcasted | .completed | .failed => true
  | _ => false

theorem Advances.pastBroadcast {c : Call} {w w' : Withdrawal} (h : Advances c w w')
    (hw : pastBroadcast w.status = true) : pastBroadcast w'.status = true := by
  cases h with
  | authenticated status => rw [status] at hw; cases hw
  | reviewed status => exact hw
  | approved status count => rw [status] at hw; cases hw
  | broadcasted status => rfl
  | completed status => rfl
  | failed active => rfl

/-- once past its broadcast, a withdrawal stays there whatever is called -/
theorem step_pastBroadcast (huuid : Function.Injective rt.uuid) (hs : Sound rt s) (c : Call) {id : String}
    {w : Withdrawal} (hw : s.withdrawals.get? id = some w)
    (hp : pastBroadcast w.status = true) :
    ∃ w', (c.step rt s).withdrawals.get? id = some w' ∧
      pastBroadcast w'.status = true := by
  rcases step_withdrawal huuid hs c hw with h | ⟨w', h, -, hadv⟩
  · exact ⟨w, h, hp⟩
  · exact ⟨w', h, hadv.pastBroadcast hp⟩

end
end InMemoryLedger
