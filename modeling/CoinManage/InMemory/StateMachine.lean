import CoinManage.InMemory.Lifecycle

/-!
# The withdrawal state machine

A withdrawal is opened as reserved and moves forward one status at a time, or is given up while it
is active (`Follows`).  What its record shows (`WithdrawalFile.Sound`) is kept by every call:

* `approvals`     as many as counted, from different admins, and enough of them once approved;
* `external auth` recorded once the withdrawal has left its first status, and for ever once approved;
* `transaction`   pending, confirmed or failed as the withdrawal is.

`withdrawal_lifecycle` puts the steps and the records of a whole run together.
-/

namespace InMemoryLedger

/-- the moves of a status: one step forward, or given up while active -/
inductive Follows : WithdrawalStatus → WithdrawalStatus → Prop
  | stays (status : WithdrawalStatus) : Follows status status
  | authenticated : Follows .ledgerReserved .pendingAdmin
  | approved : Follows .pendingAdmin .adminApproved
  | broadcasted : Follows .adminApproved .txBroadcasted
  | completed : Follows .txBroadcasted .completed
  | failed {status : WithdrawalStatus} (active : status.isActive = true) : Follows status .failed

/-- the withdrawal has been approved and not given up -/
def isApproved : WithdrawalStatus → Bool
  | .adminApproved | .txBroadcasted | .completed => true
  | _ => false

/-- the transfer of the withdrawal has left -/
def isSent : WithdrawalStatus → Bool
  | .txBroadcasted | .completed => true
  | _ => false

/-- the ledger transaction stands as its withdrawal does -/
structure TransactionAgrees (w : Withdrawal) (tx : LedgerTransaction) : Prop where
  pending : tx.status = .pending ↔ w.status.isActive = true
  confirmed : tx.status = .confirmed ↔ w.status = .completed
  failed : tx.status = .failed ↔ w.status = .failed
  hash : w.status = .completed → tx.blockTx = w.txHash

/-- external auth is on record, and so are enough approvals -/
structure WithdrawalFile.Decided (f : WithdrawalFile) : Prop where
  authenticated : f.withdrawal.externalAuthConfirmedAt.isSome = true
  enough : JsNumber.natGe f.approvals.length f.withdrawal.requiredApprovals = true

structure WithdrawalFile.Sound (f : WithdrawalFile) : Prop where
  counted : f.withdrawal.approvalCount = f.approvals.length
  distinct : (f.approvals.map (·.adminId)).Nodup
  authenticated : f.withdrawal.status = .pendingAdmin →
    f.withdrawal.externalAuthConfirmedAt.isSome = true
  undecided : f.withdrawal.status = .ledgerReserved ∨ f.withdrawal.status = .pendingAdmin →
    f.withdrawal.approvedAt = none
  approved : isApproved f.withdrawal.status = true → f.withdrawal.approvedAt.isSome = true
  decided : f.withdrawal.approvedAt.isSome = true → f.Decided
  sent : isSent f.withdrawal.status = true → f.withdrawal.txHash.isSome = true
  transaction : TransactionAgrees f.withdrawal f.transaction

section
variable {rt : Runtime} {s s' : InMemoryLedger} {c : Call} {f f' : WithdrawalFile}

/-! ## one transition -/

theorem Advances.follows {w w' : Withdrawal} (h : Advances c w w') : Follows w.status w'.status := by
  cases h with
  | authenticated status => rw [status]; exact .authenticated
  | reviewed status => exact .stays _
  | approved status count =>
    rw [approvedBy]
    split
    · rw [status]
      exact .approved
    · exact .stays _
  | broadcasted status => rw [status]; exact .broadcasted
  | completed status => rw [status]; exact .completed
  | failed active => exact .failed active

/-- closed withdrawals stay closed -/
theorem Follows.closed {a b : WithdrawalStatus} (h : Follows a b) (ha : a = .completed ∨ a = .failed) :
    b = a := by
  cases h with
  | stays => rfl
  | failed active => rcases ha with rfl | rfl <;> cases active
  | _ => rcases ha with h | h <;> cases h

/-- the withdrawal after one more approval, decided or not -/
theorem approvedBy_eq (w : Withdrawal) (n : Nat) (nowIso : String) :
    (JsNumber.natGe n w.requiredApprovals = true ∧ approvedBy w n nowIso =
      { w with approvalCount := n, status := .adminApproved, approvedAt := some nowIso }) ∨
    approvedBy w n nowIso = { w with approvalCount := n } := by
  rw [approvedBy]
  split
  · next h => exact Or.inl ⟨h, rfl⟩
  · exact Or.inr rfl

theorem TransactionAgrees.of_active {w : Withdrawal} {tx : LedgerTransaction}
    (hactive : w.status.isActive = true) (htx : tx.status = .pending) : TransactionAgrees w tx where
  pending := ⟨fun _ => hactive, fun _ => htx⟩
  confirmed := ⟨fun h => (by rw [htx] at h; cases h), fun h => (by rw [h] at hactive; cases hactive)⟩
  failed := ⟨fun h => (by rw [htx] at h; cases h), fun h => (by rw [h] at hactive; cases hactive)⟩
  hash h := by rw [h] at hactive; cases hactive

/-- nothing is claimed of a decision that was not taken -/
theorem decided_of_none (h : f.withdrawal.approvedAt = none)
    (hsome : f.withdrawal.approvedAt.isSome = true) : f.Decided := by
  rw [h] at hsome
  cases hsome

theorem Refiles.sound (h : Refiles c f f') (hf : f.Sound) : f'.Sound := by
  have hpending : f.withdrawal.status.isActive = true → f.transaction.status = .pending :=
    hf.transaction.pending.mpr
  cases h with
  | authenticated status =>
    have hnone := hf.undecided (Or.inl status)
    exact {
      counted := hf.counted
      distinct := hf.distinct
      authenticated := fun _ => rfl
      undecided := fun _ => hnone
      approved := fun h => (by cases h)
      decided := decided_of_none hnone
      sent := fun h => (by cases h)
      transaction := .of_active rfl (hpending (by rw [status]; rfl)) }
  | reviewed status =>
    exact ⟨hf.counted, hf.distinct, hf.authenticated, hf.undecided, hf.approved,
      fun h => ⟨(hf.decided h).authenticated, (hf.decided h).enough⟩, hf.sent,
      .of_active (by show f.withdrawal.status.isActive = true; rw [status]; rfl)
        (hpending (by rw [status]; rfl))⟩
  | @approved id nowIso input _ status new approval given =>
    have hauth := hf.authenticated status
    have hnone := hf.undecided (Or.inr status)
    have hdistinct : ((f.approvals ++ [approval]).map (·.adminId)).Nodup := by
      rw [List.map_append, List.map_singleton]
      refine List.nodup_append.mpr ⟨hf.distinct, List.nodup_singleton _, ?_⟩
      intro a ha b hb
      obtain ⟨old, hold, rfl⟩ := List.mem_map.mp ha
      rw [List.mem_singleton.mp hb, given]
      exact new old hold
    have hcount : (f.approvals ++ [approval]).length = f.approvals.length + 1 := by simp
    have htx := hpending (by rw [status]; rfl)
    rcases approvedBy_eq f.withdrawal (f.approvals.length + 1) nowIso with ⟨henough, he⟩ | he
    · rw [he]
      exact {
        counted := hcount.symm
        distinct := hdistinct
        authenticated := fun h => (by cases h)
        undecided := fun h => (by rcases h with h | h <;> cases h)
        approved := fun _ => rfl
        decided := fun _ => ⟨hauth, by rw [hcount]; exact henough⟩
        sent := fun h => (by cases h)
        transaction := .of_active rfl htx }
    · rw [he]
      exact {
        counted := hcount.symm
        distinct := hdistinct
        authenticated := fun _ => hauth
        undecided := fun _ => hnone
        approved := fun h => (by rw [show _ = WithdrawalStatus.pendingAdmin from status] at h; cases h)
        decided := decided_of_none hnone
        sent := fun h => (by rw [show _ = WithdrawalStatus.pendingAdmin from status] at h; cases h)
        transaction := .of_active (by show f.withdrawal.status.isActive = true; rw [status]; rfl) htx }
  | broadcasted status =>
    have happroved := hf.approved (by rw [status]; rfl)
    have hdecided := hf.decided happroved
    exact {
      counted := hf.counted
      distinct := hf.distinct
      authenticated := fun h => (by cases h)
      undecided := fun h => (by rcases h with h | h <;> cases h)
      approved := fun _ => happroved
      decided := fun _ => ⟨hdecided.authenticated, hdecided.enough⟩
      sent := fun _ => rfl
      transaction := .of_active rfl (hpending (by rw [status]; rfl)) }
  | completed status =>
    have happroved := hf.approved (by rw [status]; rfl)
    have hdecided := hf.decided happroved
    exact {
      counted := hf.counted
      distinct := hf.distinct
      authenticated := fun h => (by cases h)
      undecided := fun h => (by rcases h with h | h <;> cases h)
      approved := fun _ => happroved
      decided := fun _ => ⟨hdecided.authenticated, hdecided.enough⟩
      sent := fun _ => hf.sent (by rw [status]; rfl)
      transaction := ⟨⟨fun h => (by cases h), fun h => (by cases h)⟩, ⟨fun _ => rfl, fun _ => rfl⟩,
        ⟨fun h => (by cases h), fun h => (by cases h)⟩, fun _ => rfl⟩ }
  | failed active =>
    exact {
      counted := hf.counted
      distinct := hf.distinct
      authenticated := fun h => (by cases h)
      undecided := fun h => (by rcases h with h | h <;> cases h)
      approved := fun h => (by cases h)
      decided := fun h => ⟨(hf.decided h).authenticated, (hf.decided h).enough⟩
      sent := fun h => (by cases h)
      transaction := ⟨⟨fun h => (by cases h), fun h => (by cases h)⟩,
        ⟨fun h => (by cases h), fun h => (by cases h)⟩, ⟨fun _ => rfl, fun _ => rfl⟩,
        fun h => (by cases h)⟩ }

/-- a decision is never taken back -/
theorem Advances.approvedAt {w w' : Withdrawal} (h : Advances c w w')
    (hw : w.approvedAt.isSome = true) : w'.approvedAt.isSome = true := by
  cases h with
  | approved status count =>
    rw [approvedBy]
    split
    · rfl
    · exact hw
  | _ => exact hw

/-- the hash of a sent withdrawal is not rewritten -/
theorem Advances.txHash {w w' : Withdrawal} (h : Advances c w w') (hsent : isSent w.status = true) :
    w'.txHash = w.txHash := by
  cases h with
  | broadcasted status => rw [status] at hsent; cases hsent
  | approved status count => rw [status] at hsent; cases hsent
  | _ => rfl

/-- a transfer leaves by a broadcast of an approved withdrawal, with the hash of the call -/
theorem Advances.sent {w w' : Withdrawal} (h : Advances c w w') (hw : isSent w.status = false)
    (hw' : isSent w'.status = true) : ∃ id txHash nowIso, c = .broadcastWithdrawal id txHash nowIso ∧
      w.status = .adminApproved ∧ w'.txHash = some txHash := by
  cases h with
  | @broadcasted id txHash nowIso _ status => exact ⟨id, txHash, nowIso, rfl, status, rfl⟩
  | completed status => rw [status] at hw; cases hw
  | reviewed status => rw [show isSent _ = false from hw] at hw'; cases hw'
  | approved status count =>
    rw [approvedBy] at hw'
    split at hw'
    · cases hw'
    · rw [show isSent _ = false from hw] at hw'
      cases hw'
  | _ => cases hw'

/-! ## the records of all withdrawals -/

/-- every withdrawal has a sound record and a transaction of its own -/
structure Filed (rt : Runtime) (s : InMemoryLedger) : Prop where
  sound : ∀ id w, s.withdrawals.get? id = some w →
    ∃ tx, s.transactions.get? w.ledgerTxId = some tx ∧
      (WithdrawalFile.mk w (s.approvalsOf id) tx).Sound
  drawn : ∀ id w, s.withdrawals.get? id = some w → ∃ k < s.uuidsDrawn, w.ledgerTxId = rt.uuid k
  own : ∀ id id' w w', s.withdrawals.get? id = some w → s.withdrawals.get? id' = some w' →
    w.ledgerTxId = w'.ledgerTxId → id = id'

theorem Filed.new (limits : WithdrawalLimitConfig) : Filed rt (new limits) where
  sound _ _ h := by cases h
  drawn _ _ h := by cases h
  own _ _ _ _ h := by cases h

theorem SameFiles.filed (h : SameFiles rt s s') (hf : Filed rt s) : Filed rt s' where
  sound id w hw := by
    rw [h.withdrawals] at hw
    obtain ⟨tx, htx, hsound⟩ := hf.sound id w hw
    obtain ⟨k, hk, he⟩ := hf.drawn id w hw
    refine ⟨tx, ?_, ?_⟩
    · rw [he, h.transactions k hk, ← he]
      exact htx
    · rw [show s'.approvalsOf id = s.approvalsOf id by rw [approvalsOf, approvalsOf, h.approvals]]
      exact hsound
  drawn id w hw := by
    rw [h.withdrawals] at hw
    obtain ⟨k, hk, he⟩ := hf.drawn id w hw
    exact ⟨k, lt_of_lt_of_le hk h.drawn, he⟩
  own id id' w w' hw hw' := by
    rw [h.withdrawals] at hw hw'
    exact hf.own id id' w w' hw hw'

theorem requestedWithdrawal_sound (input : WithdrawalInput) {tx : LedgerTransaction}
    (htx : tx.status = .pending) : (WithdrawalFile.mk (s.requestedWithdrawal rt input) [] tx).Sound where
  counted := rfl
  distinct := List.nodup_nil
  authenticated h := by cases h
  undecided _ := rfl
  approved h := by cases h
  decided h := by cases h
  sent h := by cases h
  transaction := .of_active rfl htx

theorem Requested.filed {input : WithdrawalInput} (h : Requested rt input s s')
    (huuid : Function.Injective rt.uuid) (hf : Filed rt s) : Filed rt s' := by
  -- a lookup finds the new withdrawal, or one of the old ones under another id
  have hcases : ∀ {id w}, s'.withdrawals.get? id = some w →
      (id = rt.uuid (s.uuidsDrawn + 1) ∧ w = s.requestedWithdrawal rt input) ∨
      (id ≠ rt.uuid (s.uuidsDrawn + 1) ∧ s.withdrawals.get? id = some w) := by
    intro id w hw
    rw [h.withdrawals, OrderedMap.get?_set] at hw
    split at hw
    · next he => exact Or.inl ⟨he.symm, (Option.some.inj hw).symm⟩
    · next hne => exact Or.inr ⟨fun he => hne he.symm, hw⟩
  have hapart : ∀ {id w}, s.withdrawals.get? id = some w →
      w.ledgerTxId ≠ rt.uuid s.uuidsDrawn := by
    intro id w hw he
    obtain ⟨k, hk, he'⟩ := hf.drawn id w hw
    have := huuid (he'.symm.trans he)
    omega
  refine ⟨fun id w hw => ?_, fun id w hw => ?_, fun id id' w w' hw hw' he => ?_⟩
  · rcases hcases hw with ⟨rfl, rfl⟩ | ⟨hne, hold⟩
    · obtain ⟨tx, htx, hstatus⟩ := h.transaction
      refine ⟨tx, htx, ?_⟩
      have hnone : s'.approvalsOf (rt.uuid (s.uuidsDrawn + 1)) = [] := by
        rw [approvalsOf, h.approvals, OrderedMap.get?_set_self]
        rfl
      rw [hnone]
      exact requestedWithdrawal_sound input hstatus
    · obtain ⟨tx, htx, hsound⟩ := hf.sound id w hold
      obtain ⟨k, hk, hk'⟩ := hf.drawn id w hold
      refine ⟨tx, ?_, ?_⟩
      · rw [hk', h.transactions k hk, ← hk']
        exact htx
      · have hsame : s'.approvalsOf id = s.approvalsOf id := by
          rw [approvalsOf, approvalsOf, h.approvals, OrderedMap.get?_set_of_ne _ (Ne.symm hne)]
        rw [hsame]
        exact hsound
  · have hdrawn := h.drawn
    rcases hcases hw with ⟨rfl, rfl⟩ | ⟨-, hold⟩
    · exact ⟨s.uuidsDrawn, by omega, rfl⟩
    · obtain ⟨k, hk, hk'⟩ := hf.drawn id w hold
      exact ⟨k, by omega, hk'⟩
  · rcases hcases hw with ⟨rfl, rfl⟩ | ⟨-, hold⟩
    · rcases hcases hw' with ⟨rfl, rfl⟩ | ⟨-, hold'⟩
      · rfl
      · exact absurd he.symm (hapart hold')
    · rcases hcases hw' with ⟨rfl, rfl⟩ | ⟨-, hold'⟩
      · exact absurd he (hapart hold)
      · exact hf.own id id' w w' hold hold' he

theorem Rewritten.filed {id : String} (h : Rewritten c id f f' s s') (hf : Filed rt s) :
    Filed rt s' := by
  have hcases : ∀ {other w}, s'.withdrawals.get? other = some w →
      (other = id ∧ w = f'.withdrawal) ∨ (id ≠ other ∧ s.withdrawals.get? other = some w) := by
    intro other w hw
    rw [h.withdrawals, OrderedMap.get?_set] at hw
    split at hw
    · next he => exact Or.inl ⟨he.symm, (Option.some.inj hw).symm⟩
    · next hne => exact Or.inr ⟨hne, hw⟩
  have hid := h.refiles.ledgerTxId
  refine ⟨fun other w hw => ?_, fun other w hw => ?_, fun a b w w' hw hw' he => ?_⟩
  · rcases hcases hw with ⟨rfl, rfl⟩ | ⟨hne, hold⟩
    · obtain ⟨tx, htx, hsound⟩ := hf.sound other f.withdrawal h.found
      obtain rfl := Option.some.inj (htx.symm.trans h.recorded)
      rw [h.approved] at hsound
      refine ⟨f'.transaction, ?_, ?_⟩
      · rw [hid, h.transactions, if_pos rfl]
      · rw [h.approvals, if_pos rfl]
        exact h.refiles.sound hsound
    · obtain ⟨tx, htx, hsound⟩ := hf.sound other w hold
      refine ⟨tx, ?_, ?_⟩
      · rw [h.transactions, if_neg]
        · exact htx
        · exact fun he => hne (hf.own id other f.withdrawal w h.found hold he)
      · rw [h.approvals, if_neg hne]
        exact hsound
  · rcases hcases hw with ⟨rfl, rfl⟩ | ⟨-, hold⟩
    · obtain ⟨k, hk, hk'⟩ := hf.drawn other f.withdrawal h.found
      exact ⟨k, lt_of_lt_of_le hk h.drawn, by rw [hid, hk']⟩
    · obtain ⟨k, hk, hk'⟩ := hf.drawn other w hold
      exact ⟨k, lt_of_lt_of_le hk h.drawn, hk'⟩
  · rcases hcases hw with ⟨rfl, rfl⟩ | ⟨-, hold⟩
    · rcases hcases hw' with ⟨rfl, rfl⟩ | ⟨-, hold'⟩
      · rfl
      · rw [hid] at he
        exact hf.own a b f.withdrawal w' h.found hold' he
    · rcases hcases hw' with ⟨rfl, rfl⟩ | ⟨-, hold'⟩
      · rw [hid] at he
        exact hf.own a b w f.withdrawal hold h.found he
      · exact hf.own a b w w' hold hold' he

theorem step_filed (huuid : Function.Injective rt.uuid) (hs : InMemoryLedger.Sound rt s)
    (hf : Filed rt s) (c : Call) : Filed rt (c.step rt s) := by
  cases step_files huuid hs c with
  | same h => exact h.filed hf
  | requested call h => exact h.filed huuid hf
  | rewritten h => exact h.filed hf

/-- a withdrawal that was not there before is reserved -/
theorem step_opened (huuid : Function.Injective rt.uuid) (hs : InMemoryLedger.Sound rt s) (c : Call)
    {id : String} {w : Withdrawal} (hnone : s.withdrawals.get? id = none)
    (hw : (c.step rt s).withdrawals.get? id = some w) : w.status = .ledgerReserved := by
  cases step_files huuid hs c with
  | same h =>
    rw [h.withdrawals, hnone] at hw
    cases hw
  | requested call h =>
    rw [h.withdrawals, OrderedMap.get?_set] at hw
    split at hw
    · rw [← Option.some.inj hw]
      rfl
    · rw [hnone] at hw
      cases hw
  | @rewritten id' f f' h =>
    have hne : id' ≠ id := by
      rintro rfl
      rw [h.found] at hnone
      cases hnone
    rw [h.withdrawals, OrderedMap.get?_set_of_ne _ hne, hnone] at hw
    cases hw

/-! ## runs -/

/-- the store after a run on an empty ledger -/
def run (rt : Runtime) (limits : WithdrawalLimitConfig) (calls : List Call) : InMemoryLedger :=
  runCalls (Call.step rt) calls (new limits)

variable {limits : WithdrawalLimitConfig}

theorem run_concat (calls : List Call) (c : Call) :
    run rt limits (calls ++ [c]) = c.step rt (run rt limits calls) := runCalls_append _ _ _ _

theorem run_filed (huuid : Function.Injective rt.uuid) (calls : List Call) :
    InMemoryLedger.Sound rt (run rt limits calls) ∧ Filed rt (run rt limits calls) := by
  induction calls using List.reverseRecOn with
  | nil => exact ⟨run_sound huuid limits [], Filed.new limits⟩
  | append_singleton calls c ih =>
    rw [run_concat]
    exact ⟨step_sound huuid c ih.1, step_filed huuid ih.1 ih.2 c⟩

/-- once there and decided on, a withdrawal stays so for the rest of the run -/
theorem run_approvedAt (huuid : Function.Injective rt.uuid) (before after : List Call) {id : String}
    {w₀ : Withdrawal} (hw : (run rt limits before).withdrawals.get? id = some w₀)
    (hdecided : w₀.approvedAt.isSome = true) :
    ∃ w, (run rt limits (before ++ after)).withdrawals.get? id = some w ∧
      w.approvedAt.isSome = true := by
  induction after using List.reverseRecOn with
  | nil => exact ⟨w₀, by rw [List.append_nil]; exact hw, hdecided⟩
  | append_singleton after c ih =>
    obtain ⟨w, hw', hdecided'⟩ := ih
    rw [← List.append_assoc, run_concat]
    rcases step_withdrawal huuid (run_filed huuid _).1 c hw' with h | ⟨w', h, -, hadv⟩
    · exact ⟨w, h, hdecided'⟩
    · exact ⟨w', h, hadv.approvedAt hdecided'⟩

/-- a call of the run broadcast the approved withdrawal, with the hash it has -/
def BroadcastIn (rt : Runtime) (limits : WithdrawalLimitConfig) (calls : List Call) (id : String)
    (w : Withdrawal) : Prop :=
  ∃ before txHash nowIso after w₀,
    calls = before ++ .broadcastWithdrawal id txHash nowIso :: after ∧
    (run rt limits before).withdrawals.get? id = some w₀ ∧ w₀.status = .adminApproved ∧
    w.txHash = some txHash

theorem BroadcastIn.concat {calls : List Call} {id : String} {v w : Withdrawal}
    (h : BroadcastIn rt limits calls id v) (c : Call) (hsame : w.txHash = v.txHash) :
    BroadcastIn rt limits (calls ++ [c]) id w := by
  obtain ⟨before, txHash, nowIso, after, w₀, hcalls, hw₀, hstatus, hhash⟩ := h
  refine ⟨before, txHash, nowIso, after ++ [c], w₀, ?_, hw₀, hstatus, hsame.trans hhash⟩
  rw [hcalls, List.append_assoc]
  rfl

/-- The hash of a sent withdrawal is the one of the call that broadcast it. -/
theorem run_sent (huuid : Function.Injective rt.uuid) (calls : List Call) {id : String} {w : Withdrawal}
    (hw : (run rt limits calls).withdrawals.get? id = some w) (hsent : isSent w.status = true) :
    BroadcastIn rt limits calls id w := by
  induction calls using List.reverseRecOn generalizing w with
  | nil => cases hw
  | append_singleton calls c ih =>
    have hsound := (@run_filed rt limits huuid calls).1
    rw [run_concat] at hw
    cases hold : (run rt limits calls).withdrawals.get? id with
    | none =>
      rw [step_opened huuid hsound c hold hw] at hsent
      cases hsent
    | some v =>
      rcases step_withdrawal huuid hsound c hold with h | ⟨w', h, htarget, hadv⟩
      · obtain rfl := Option.some.inj (h.symm.trans hw)
        exact (ih hold hsent).concat c rfl
      · obtain rfl := Option.some.inj (h.symm.trans hw)
        cases hv : isSent v.status with
        | true => exact (ih hold hv).concat c (hadv.txHash hv)
        | false =>
          obtain ⟨id', txHash, nowIso, rfl, hstatus, hhash⟩ := hadv.sent hv hsent
          obtain rfl : id' = id := Option.some.inj htarget
          exact ⟨calls, txHash, nowIso, [], v, rfl, hold, hstatus, hhash⟩

end

/-- Along every run on an empty ledger: each call moves each withdrawal along the state machine, or
leaves it alone, and opens new ones as reserved; completed and failed ones never change status
again.  In every state a withdrawal that is or has been approved has its external auth and enough
approvals on record; its approvals are from different admins, and as many as counted; a sent one has
the hash of the call that broadcast it; and its ledger transaction stands as it does. -/
theorem withdrawal_lifecycle (rt : Runtime) (huuid : Function.Injective rt.uuid)
    (limits : WithdrawalLimitConfig) (calls : List Call) :
    (∀ before c after, calls = before ++ c :: after → ∀ id,
      (∀ w, (run rt limits before).withdrawals.get? id = some w →
        ∃ w', (run rt limits (before ++ [c])).withdrawals.get? id = some w' ∧
          Follows w.status w'.status ∧
          (w.status = .completed ∨ w.status = .failed → w'.status = w.status)) ∧
      (∀ w', (run rt limits before).withdrawals.get? id = none →
        (run rt limits (before ++ [c])).withdrawals.get? id = some w' → w'.status = .ledgerReserved)) ∧
    (∀ id w, (run rt limits calls).withdrawals.get? id = some w →
      ((∃ before after w₀, calls = before ++ after ∧
          (run rt limits before).withdrawals.get? id = some w₀ ∧ isApproved w₀.status = true) →
        w.externalAuthConfirmedAt.isSome = true ∧
        JsNumber.natGe ((run rt limits calls).approvalsOf id).length w.requiredApprovals = true) ∧
      w.approvalCount = ((run rt limits calls).approvalsOf id).length ∧
      (((run rt limits calls).approvalsOf id).map (·.adminId)).Nodup ∧
      (isSent w.status = true → BroadcastIn rt limits calls id w) ∧
      ∃ tx, (run rt limits calls).transactions.get? w.ledgerTxId = some tx ∧
        TransactionAgrees w tx) := by
  refine ⟨fun before c after _ id => ⟨fun w hw => ?_, fun w' hnone hw' => ?_⟩, fun id w hw => ?_⟩
  · rw [run_concat]
    rcases step_withdrawal huuid (run_filed huuid before).1 c hw with h | ⟨w', h, -, hadv⟩
    · exact ⟨w, h, .stays _, fun _ => rfl⟩
    · exact ⟨w', h, hadv.follows, hadv.follows.closed⟩
  · rw [run_concat] at hw'
    exact step_opened huuid (run_filed huuid before).1 c hnone hw'
  · obtain ⟨tx, htx, hsound⟩ := (run_filed huuid calls).2.sound id w hw
    refine ⟨?_, hsound.counted, hsound.distinct, run_sent huuid calls hw, tx, htx, hsound.transaction⟩
    rintro ⟨before, after, w₀, rfl, hw₀, happroved⟩
    obtain ⟨tx₀, -, hsound₀⟩ := (run_filed huuid before).2.sound id w₀ hw₀
    obtain ⟨w', hw', hdecided⟩ := run_approvedAt huuid before after hw₀ (hsound₀.approved happroved)
    obtain rfl := Option.some.inj (hw'.symm.trans hw)
    exact ⟨(hsound.decided hdecided).authenticated, (hsound.decided hdecided).enough⟩

/-- the withdrawal of `exampleCalls` authenticated, approved, broadcast and given up -/
def lifecycleCalls : List Call :=
  exampleCalls ++
    [.confirmWithdrawalExternalAuth (Runtime.numbered.uuid 4) "foxya" "req-1"
      "2026-01-01T00:00:02.000Z",
     .approveWithdrawal (Runtime.numbered.uuid 4) ⟨"admin-1", .admin, none, none⟩
      "2026-01-01T00:00:03.000Z",
     .broadcastWithdrawal (Runtime.numbered.uuid 4) "0xdef67890" "2026-01-01T00:00:04.000Z"]

theorem withdrawal_lifecycle_example :
    ∃ w tx, (run .numbered ⟨10000000, 10000000⟩ lifecycleCalls).withdrawals.get?
        (Runtime.numbered.uuid 4) = some w ∧ w.status = .txBroadcasted ∧
      (run .numbered ⟨10000000, 10000000⟩ lifecycleCalls).transactions.get? w.ledgerTxId = some tx ∧
      TransactionAgrees w tx := by
  have hstatus : ((run .numbered ⟨10000000, 10000000⟩ lifecycleCalls).withdrawals.get?
      (Runtime.numbered.uuid 4)).map (·.status) = some .txBroadcasted := by decide +kernel
  obtain ⟨w, hw, hsent⟩ := Option.map_eq_some_iff.mp hstatus
  obtain ⟨-, -, -, -, tx, htx, hagrees⟩ := (withdrawal_lifecycle .numbered
    Runtime.numbered_uuid_injective ⟨10000000, 10000000⟩ lifecycleCalls).2 _ w hw
  exact ⟨w, tx, hw, hsent, htx, hagrees⟩

end InMemoryLedger
