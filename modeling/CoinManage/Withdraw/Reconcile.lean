import CoinManage.InMemory.StateMachine
import CoinManage.Lib.Traces
import CoinManage.Withdraw.Hashes

/-!
# The settlement of broadcasted withdrawals

`reconcileBroadcasted` goes through the broadcasted withdrawals one by one and settles each by its
receipt.  The chain answers a lookup always in the same way; before every call the rest of the program,
other such runs among it, may have called the ledger any number of times.  Whatever throws ends the loop.

* `Acts`         what other calls of the ledger do, and that they keep what is settled;
* `confirm_runs`, `fail_runs`   one withdrawal, when its transition is admissible;
* `settles_independently`   a run in which nothing throws settles all that has a final receipt;
* `lookup_aborts`   a lookup that throws, with another withdrawal behind it.
-/

set_option linter.unusedSectionVars false

namespace WithdrawService
open Program InMemoryLedger

/-! ## the rest of the program -/

/-- any number of calls of the ledger, with positive amounts -/
def Acts (rt : Runtime) : InMemoryLedger → InMemoryLedger → Prop :=
  Relation.ReflTransGen fun s s' => ∃ c : Call, c.AmountSatisfies (0 < ·) ∧ s' = c.step rt s

/-- what holds of every ledger that was reached by such calls -/
structure Good (rt : Runtime) (s : InMemoryLedger) : Prop where
  sound : Sound rt s
  solvent : Solvent s

/-- the withdrawal is recorded with this status -/
def Recorded (s : InMemoryLedger) (id : String) (status : WithdrawalStatus) : Prop :=
  ∃ w, s.withdrawals.get? id = some w ∧ w.status = status

section
variable {rt : Runtime} {s s' : InMemoryLedger}

theorem good_step (huuid : Function.Injective rt.uuid) {c : Call} (hc : c.AmountSatisfies (0 < ·))
    (hs : Good rt s) : Good rt (c.step rt s) := by
  have hmoves := exec_moves hs.sound c hc
  exact ⟨step_sound huuid c hs.sound, hmoves.solvent hs.solvent⟩

theorem Acts.good (huuid : Function.Injective rt.uuid) (h : Acts rt s s') (hs : Good rt s) : Good rt s' := by
  induction h with
  | refl => exact hs
  | tail _ hstep ih =>
    obtain ⟨c, hc, rfl⟩ := hstep
    exact good_step huuid hc ih

/-- what is settled stays settled -/
theorem Acts.recorded (huuid : Function.Injective rt.uuid) (h : Acts rt s s') (hs : Good rt s) {id : String}
    {status : WithdrawalStatus} (hclosed : status = .completed ∨ status = .failed) (hrec : Recorded s id status) :
    Recorded s' id status := by
  induction h with
  | refl => exact hrec
  | @tail s₁ s₂ hacts hstep ih =>
    obtain ⟨c, hc, rfl⟩ := hstep
    obtain ⟨w, hw, rfl⟩ := ih
    have hgood : Good rt s₁ := Acts.good huuid hacts hs
    rcases step_withdrawal huuid hgood.sound c hw with hsame | ⟨w', hw', -, hadvances⟩
    · exact ⟨w, hsame, rfl⟩
    · exact ⟨w', hw', hadvances.follows.closed hclosed⟩

theorem Acts.trans {s₁ : InMemoryLedger} (h : Acts rt s s₁) (h' : Acts rt s₁ s') : Acts rt s s' :=
  Relation.ReflTransGen.trans h h'

theorem Acts.call {c : Call} (h : c.AmountSatisfies (0 < ·)) : Acts rt s (c.step rt s) :=
  Relation.ReflTransGen.single ⟨c, h, rfl⟩

end

/-! ## the calls of a reconciliation -/

section
variable (rt : Runtime) (receipts : String → Except LedgerError ReceiptDetails)

/-- what comes of a call: the ledger runs its method, the chain answers the receipt, and the clock, the
publisher and the audit log answer -/
def Answers ⦃β : Type⦄ : Effect β → InMemoryLedger → Except LedgerError β → InMemoryLedger → Prop
  | .now, s, r, s' => (∃ nowIso, r = .ok nowIso ∧ rt.isDatetime nowIso = true) ∧ s' = s
  | .listWithdrawalsByStatuses statuses, s, r, s' =>
    r = .ok (InMemoryLedger.listWithdrawalsByStatuses s statuses) ∧ s' = s
  | .getTransactionReceiptDetails txHash, s, r, s' => r = receipts txHash ∧ s' = s
  | .confirmWithdrawal id networkFee nowIso, s, r, s' =>
    (r, s') = InMemoryLedger.confirmWithdrawal rt id networkFee nowIso s
  | .failWithdrawal id reason nowIso, s, r, s' => (r, s') = InMemoryLedger.failWithdrawal rt id reason nowIso s
  | .publishStateChanged _, s, r, s' => r = .ok () ∧ s' = s
  | .appendAuditLog _, s, r, s' => r = .ok () ∧ s' = s
  | _, s, _, s' => s' = s

/-- a call that is admitted in the state that others have brought about -/
def ReconcileHandles (admits : ∀ ⦃β : Type⦄, Effect β → InMemoryLedger → Prop) ⦃β : Type⦄ (call : Effect β)
    (s : InMemoryLedger) (r : Except LedgerError β) (s' : InMemoryLedger) : Prop :=
  ∃ s₁, Acts rt s s₁ ∧ admits call s₁ ∧ Answers rt receipts call s₁ r s'

/-- A receipt is found; a withdrawal is still broadcasted when it is settled, and what is announced of it
fits the schema. -/
def Untroubled ⦃β : Type⦄ : Effect β → InMemoryLedger → Prop
  | .getTransactionReceiptDetails txHash, _ => ∃ details, receipts txHash = .ok details
  | .confirmWithdrawal id _ nowIso, s => ∃ w, s.withdrawals.get? id = some w ∧ w.status = .txBroadcasted ∧
    ∀ t, rt.isDatetime t = true → (completed w nowIso).Fits rt t
  | .failWithdrawal id reason nowIso, s => ∃ w, s.withdrawals.get? id = some w ∧ w.status = .txBroadcasted ∧
    ∀ t, rt.isDatetime t = true → (failed w reason nowIso).Fits rt t
  | _, _ => True

end

section
variable {rt : Runtime} {receipts : String → Except LedgerError ReceiptDetails} {s s' : InMemoryLedger}
  {t : List (Answered Effect LedgerError)} {admits : ∀ ⦃β : Type⦄, Effect β → InMemoryLedger → Prop}

theorem answers_acts {β : Type} {call : Effect β} {r : Except LedgerError β}
    (h : Answers rt receipts call s r s') : Acts rt s s' := by
  cases call with
  | now | listWithdrawalsByStatuses | getTransactionReceiptDetails | publishStateChanged | appendAuditLog =>
    obtain ⟨-, rfl⟩ := h
    exact .refl
  | confirmWithdrawal id networkFee nowIso =>
    have hs' : s' = (Call.confirmWithdrawal id networkFee nowIso).step rt s := by
      rw [Call.step, Call.exec, replying_store]
      exact (Prod.mk.inj h).2
    rw [hs']
    exact .call trivial
  | failWithdrawal id reason nowIso =>
    have hs' : s' = (Call.failWithdrawal id reason nowIso).step rt s := by
      rw [Call.step, Call.exec, replying_store]
      exact (Prod.mk.inj h).2
    rw [hs']
    exact .call trivial
  | _ =>
    obtain rfl : s' = s := h
    exact .refl

/-- a run is calls of the ledger, its own and others -/
theorem runs_acts {α : Type} {p : Async α} {o : Except LedgerError α}
    (h : Runs (ReconcileHandles rt receipts admits) p s t o s') : Acts rt s s' :=
  h.always (fun _ => .refl) Acts.trans fun ⟨_, hacts, _, hanswers⟩ => hacts.trans (answers_acts hanswers)

/-! ## one withdrawal -/

theorem announced_ok {α : Type} {w : Withdrawal} {id occurredAt : String} {reply : α}
    (h : w.Fits rt occurredAt) : (s.announced rt w id occurredAt reply).1 = .ok reply ∧
      (s.announced rt w id occurredAt reply).2.withdrawals = s.withdrawals := by
  obtain ⟨contract, hcontract⟩ := (buildWithdrawalStateChangedContract_ok_iff rt w occurredAt).mpr h
  rw [announced, hcontract]
  exact ⟨rfl, rfl⟩

theorem confirmWithdrawal_ok (hs : Good rt s) {id nowIso : String} {networkFee : Option NetworkFee} {w : Withdrawal}
    (hw : s.withdrawals.get? id = some w) (hstatus : w.status = .txBroadcasted)
    (hfits : (completed w nowIso).Fits rt nowIso) :
    (InMemoryLedger.confirmWithdrawal rt id networkFee nowIso s).1 = .ok (completed w nowIso) ∧
    (InMemoryLedger.confirmWithdrawal rt id networkFee nowIso s).2.withdrawals.get? id = some (completed w nowIso) := by
  obtain ⟨tx, htx⟩ := Option.isSome_iff_exists.mp (hs.sound.recorded id w hw).2
  have hcovered := hs.solvent.covered hs.sound hw (by rw [hstatus]; rfl)
  rw [lockedOf] at hcovered
  rw [confirmWithdrawal_apply, hw]
  simp only [htx]
  rw [if_neg (not_not.mpr hstatus), accountOf_locked, if_neg (not_lt.mpr hcovered)]
  obtain ⟨hok, hkept⟩ := @announced_ok rt _ _ _ id nowIso (completed w nowIso) hfits
  refine ⟨hok, ?_⟩
  rw [hkept, (SameBooks.of_networkFee id w.txHash networkFee nowIso).withdrawals]
  exact OrderedMap.get?_set_self _ _ _

theorem failWithdrawal_ok (hs : Good rt s) {id reason nowIso : String} {w : Withdrawal}
    (hw : s.withdrawals.get? id = some w) (hstatus : w.status = .txBroadcasted)
    (hfits : (failed w reason nowIso).Fits rt nowIso) :
    (InMemoryLedger.failWithdrawal rt id reason nowIso s).1 = .ok (failed w reason nowIso) ∧
    (InMemoryLedger.failWithdrawal rt id reason nowIso s).2.withdrawals.get? id = some (failed w reason nowIso) := by
  obtain ⟨tx, htx⟩ := Option.isSome_iff_exists.mp (hs.sound.recorded id w hw).2
  have hactive : w.status.isActive = true := by rw [hstatus]; rfl
  have hcovered := hs.solvent.covered hs.sound hw hactive
  rw [lockedOf] at hcovered
  rw [failWithdrawal_apply, hw]
  simp only [htx]
  rw [if_neg (by rw [hactive]; decide), accountOf_locked, if_neg (not_lt.mpr hcovered)]
  obtain ⟨hok, hkept⟩ := @announced_ok rt _ _ _ id nowIso (failed w reason nowIso) hfits
  refine ⟨hok, ?_⟩
  rw [hkept]
  exact OrderedMap.get?_set_self _ _ _

theorem handled_now {r : Except LedgerError String}
    (h : ReconcileHandles rt receipts admits .now s r s') : ∃ nowIso, r = .ok nowIso ∧ rt.isDatetime nowIso = true ∧
      Acts rt s s' := by
  obtain ⟨s₁, hacts, -, ⟨nowIso, hr, hdatetime⟩, rfl⟩ := h
  exact ⟨nowIso, hr, hdatetime, hacts⟩

/-- announcing and auditing a settled withdrawal -/
theorem announce_runs {w : Withdrawal} {log : AuditLog} {o : Except LedgerError Withdrawal}
    (hfits : ∀ t, rt.isDatetime t = true → w.Fits rt t)
    (h : Runs (ReconcileHandles rt receipts admits) (do
      publishWithdrawalStateChange rt w (← perform .now)
      perform (.appendAuditLog log)
      return w) s t o s') : o = .ok w := by
  rcases runs_perform_bind.mp h with ⟨e, -, hnow, -⟩ | ⟨now, s₁, t₁, hnow, h₁, -⟩
  · obtain ⟨_, hr, -⟩ := handled_now hnow
    cases hr
  obtain ⟨_, hr, hdatetime, -⟩ := handled_now hnow
  rw [← Except.ok.inj hr] at hdatetime
  obtain ⟨contract, hcontract⟩ := (buildWithdrawalStateChangedContract_ok_iff rt w now).mpr (hfits now hdatetime)
  rw [publishWithdrawalStateChange, hcontract] at h₁
  rcases runs_perform_bind.mp h₁ with ⟨e, -, ⟨_, -, -, hr, -⟩, -⟩ | ⟨_, s₂, t₂, -, h₂, -⟩
  · cases hr
  rcases runs_perform_bind.mp h₂ with ⟨e, -, ⟨_, -, -, hr, -⟩, -⟩ | ⟨_, s₃, t₃, -, h₃, -⟩
  · cases hr
  exact (runs_pure.mp h₃).2.1

variable (huuid : Function.Injective rt.uuid)
include huuid

/-- A transition at the time it reads, then what is announced and audited of it.  `settled` is the withdrawal
that the transition leaves. -/
theorem settle_runs {id : String} {call : String → Effect Withdrawal} {settled : Withdrawal → String → Withdrawal}
    {status : WithdrawalStatus} {log : AuditLog} {o : Except LedgerError Withdrawal} (hs : Good rt s)
    (hclosed : status = .completed ∨ status = .failed) (hsettled : ∀ w nowIso, (settled w nowIso).status = status)
    (hdone : ∀ {nowIso : String} {s₁ s₂ : InMemoryLedger} {r : Except LedgerError Withdrawal}, Good rt s₁ →
      rt.isDatetime nowIso = true → Untroubled rt receipts (call nowIso) s₁ →
      Answers rt receipts (call nowIso) s₁ r s₂ → ∃ w, r = .ok (settled w nowIso) ∧
        s₂.withdrawals.get? id = some (settled w nowIso) ∧
        ∀ t, rt.isDatetime t = true → (settled w nowIso).Fits rt t)
    (h : Runs (ReconcileHandles rt receipts (Untroubled rt receipts)) (do
      let nowIso ← perform .now
      let updated ← perform (call nowIso)
      publishWithdrawalStateChange rt updated (← perform .now)
      perform (.appendAuditLog log)
      return updated) s t o s') :
    (∃ w, o = .ok w) ∧ Recorded s' id status := by
  rcases runs_perform_bind.mp h with ⟨e, -, hnow, -⟩ | ⟨nowIso, s₁, t₁, hnow, h₁, -⟩
  · obtain ⟨_, hr, -⟩ := handled_now hnow
    cases hr
  obtain ⟨_, hr, hdatetime, hacts₁⟩ := handled_now hnow
  obtain rfl := Except.ok.inj hr
  have hone : ∀ {r : Except LedgerError Withdrawal} {s₂ : InMemoryLedger},
      ReconcileHandles rt receipts (Untroubled rt receipts) (call nowIso) s₁ r s₂ →
      ∃ w, r = .ok (settled w nowIso) ∧ s₂.withdrawals.get? id = some (settled w nowIso) ∧ Acts rt s₁ s₂ ∧
        ∀ t, rt.isDatetime t = true → (settled w nowIso).Fits rt t := by
    rintro r s₂ ⟨s₃, hacts, huntroubled, hanswers⟩
    have hgood : Good rt s₃ := (hacts₁.trans hacts).good huuid hs
    obtain ⟨w, hr, hget, hfits⟩ := hdone hgood hdatetime huntroubled hanswers
    exact ⟨w, hr, hget, hacts.trans (answers_acts hanswers), hfits⟩
  rcases runs_perform_bind.mp h₁ with ⟨e, -, hcall, -⟩ | ⟨updated, s₂, t₂, hcall, h₂, -⟩
  · obtain ⟨w, hr, -⟩ := hone hcall
    cases hr
  obtain ⟨w, hr, hget, hacts₂, hfits⟩ := hone hcall
  obtain rfl := Except.ok.inj hr
  have hgood : Good rt s₂ := (hacts₁.trans hacts₂).good huuid hs
  refine ⟨⟨_, announce_runs hfits h₂⟩, ?_⟩
  exact (runs_acts h₂).recorded huuid hgood hclosed ⟨_, hget, hsettled _ _⟩

/-- a withdrawal that is confirmed on chain is completed -/
theorem confirm_runs {id : String} {networkFee : Option NetworkFee} {o : Except LedgerError Withdrawal}
    (hs : Good rt s) (h : Runs (ReconcileHandles rt receipts (Untroubled rt receipts)) (confirm rt id networkFee) s t o s') :
    (∃ w, o = .ok w) ∧ Recorded s' id .completed := by
  refine @settle_runs _ _ _ _ _ huuid id (.confirmWithdrawal id networkFee) completed _ _ _ hs (Or.inl rfl)
    (fun _ _ => rfl) ?_ h
  rintro nowIso s₁ s₂ r hgood hdatetime ⟨w, hw, hstatus, hfits⟩ hanswers
  obtain ⟨hok, hget⟩ := @confirmWithdrawal_ok _ _ hgood _ _ networkFee _ hw hstatus (hfits _ hdatetime)
  obtain ⟨hr, hs₂⟩ := Prod.mk.inj hanswers
  exact ⟨w, hr.trans hok, hs₂ ▸ hget, hfits⟩

/-- a withdrawal that failed on chain is failed -/
theorem fail_runs {id reason : String} {o : Except LedgerError Withdrawal}
    (hs : Good rt s) (h : Runs (ReconcileHandles rt receipts (Untroubled rt receipts)) (fail rt id reason) s t o s') :
    (∃ w, o = .ok w) ∧ Recorded s' id .failed := by
  refine @settle_runs _ _ _ _ _ huuid id (.failWithdrawal id reason) (fun w nowIso => failed w reason nowIso) _ _ _ hs
    (Or.inr rfl) (fun _ _ => rfl) ?_ h
  rintro nowIso s₁ s₂ r hgood hdatetime ⟨w, hw, hstatus, hfits⟩ hanswers
  obtain ⟨hok, hget⟩ := failWithdrawal_ok hgood hw hstatus (hfits _ hdatetime)
  obtain ⟨hr, hs₂⟩ := Prod.mk.inj hanswers
  exact ⟨w, hr.trans hok, hs₂ ▸ hget, hfits⟩

/-! ## the loop -/

omit huuid in
theorem handled_receipt {txHash : String} {r : Except LedgerError ReceiptDetails}
    (h : ReconcileHandles rt receipts (Untroubled rt receipts) (.getTransactionReceiptDetails txHash) s r s') :
    ∃ details, r = .ok details ∧ receipts txHash = .ok details ∧ Acts rt s s' := by
  obtain ⟨s₁, hacts, ⟨details, hdetails⟩, hr, rfl⟩ := h
  exact ⟨details, hr.trans hdetails, hdetails, hacts⟩

end

/-- what the chain says of a withdrawal that has a hash -/
def receiptOf (receipts : String → Except LedgerError ReceiptDetails) (w : Withdrawal) : Option ReceiptStatus :=
  match truthy w.txHash with
  | none => none
  | some txHash =>
    match receipts txHash with
    | .ok details => some details.status
    | .error _ => none

/-- the withdrawals with this receipt -/
def idsWith (receipts : String → Except LedgerError ReceiptDetails) (status : ReceiptStatus) (ws : List Withdrawal) :
    List String :=
  (ws.filter fun w => receiptOf receipts w = some status).map (·.withdrawalId)

section
variable {rt : Runtime} {receipts : String → Except LedgerError ReceiptDetails} {s s' : InMemoryLedger}
  {t : List (Answered Effect LedgerError)}

/-- the loop returns, and has settled what it has gone through -/
structure Settles (receipts : String → Except LedgerError ReceiptDetails) (ws : List Withdrawal)
    (before : ReconcileResult) (o : Except LedgerError ReconcileResult) (s' : InMemoryLedger) : Prop where
  returned : o = .ok
    { confirmed := before.confirmed ++ idsWith receipts .confirmed ws
      failed := before.failed ++ idsWith receipts .failed ws
      pending := before.pending ++ idsWith receipts .pending ws }
  completed : ∀ w ∈ ws, receiptOf receipts w = some .confirmed → Recorded s' w.withdrawalId .completed
  failed : ∀ w ∈ ws, receiptOf receipts w = some .failed → Recorded s' w.withdrawalId .failed

/-- the first withdrawal of the list, and those after it -/
theorem Settles.cons {w : Withdrawal} {ws : List Withdrawal} {before after : ReconcileResult}
    {o : Except LedgerError ReconcileResult} (h : Settles receipts ws after o s')
    (hconfirmed : after.confirmed = before.confirmed ++ idsWith receipts .confirmed [w])
    (hfailed : after.failed = before.failed ++ idsWith receipts .failed [w])
    (hpending : after.pending = before.pending ++ idsWith receipts .pending [w])
    (hcompleted : receiptOf receipts w = some .confirmed → Recorded s' w.withdrawalId .completed)
    (hrefunded : receiptOf receipts w = some .failed → Recorded s' w.withdrawalId .failed) :
    Settles receipts (w :: ws) before o s' := by
  have happend : ∀ status, idsWith receipts status [w] ++ idsWith receipts status ws =
      idsWith receipts status (w :: ws) := by
    intro status
    rw [idsWith, idsWith, ← List.map_append, ← List.filter_append]
    rfl
  refine ⟨?_, ?_, ?_⟩
  · rw [h.returned, hconfirmed, hfailed, hpending, List.append_assoc, List.append_assoc, List.append_assoc,
      happend, happend, happend]
  · intro v hv hr
    rcases List.mem_cons.mp hv with rfl | hv
    · exact hcompleted hr
    · exact h.completed v hv hr
  · intro v hv hr
    rcases List.mem_cons.mp hv with rfl | hv
    · exact hrefunded hr
    · exact h.failed v hv hr

theorem idsWith_single {w : Withdrawal} {o : Option ReceiptStatus} (h : receiptOf receipts w = o)
    (status : ReceiptStatus) : idsWith receipts status [w] = if o = some status then [w.withdrawalId] else [] := by
  unfold idsWith
  by_cases hs : o = some status
  · simp [h, hs]
  · simp [h, hs]

theorem reconcileEach_runs (huuid : Function.Injective rt.uuid) {ws : List Withdrawal} {result : ReconcileResult}
    {o : Except LedgerError ReconcileResult} (hs : Good rt s)
    (h : Runs (ReconcileHandles rt receipts (Untroubled rt receipts)) (reconcileEach rt ws result) s t o s') :
    Settles receipts ws result o s' := by
  induction ws generalizing result s t with
  | nil =>
    obtain ⟨-, ho, -⟩ := runs_pure.mp h
    refine ⟨?_, fun _ hw => absurd hw List.not_mem_nil, fun _ hw => absurd hw List.not_mem_nil⟩
    rw [ho]
    simp [idsWith]
  | cons w ws ih =>
    rw [reconcileEach] at h
    cases hhash : truthy w.txHash with
    | none =>
      rw [hhash] at h
      have hnone : receiptOf receipts w = none := by rw [receiptOf, hhash]
      have hids := idsWith_single hnone
      refine (ih hs h).cons ?_ ?_ ?_ (fun hr => ?_) (fun hr => ?_)
      · rw [hids, if_neg (by decide), List.append_nil]
      · rw [hids, if_neg (by decide), List.append_nil]
      · rw [hids, if_neg (by decide), List.append_nil]
      · exact absurd (hnone.symm.trans hr) (by decide)
      · exact absurd (hnone.symm.trans hr) (by decide)
    | some txHash =>
      rw [hhash] at h
      rcases runs_perform_bind.mp h with ⟨e, -, hlookup, -⟩ | ⟨receipt, s₁, t₁, hlookup, h₁, -⟩
      · obtain ⟨_, hr, -⟩ := handled_receipt hlookup
        cases hr
      obtain ⟨_, hr, hreceipt, hacts⟩ := handled_receipt hlookup
      rw [← Except.ok.inj hr] at hreceipt
      have hgood := hacts.good huuid hs
      have hsome : receiptOf receipts w = some receipt.status := by
        rw [receiptOf, hhash]
        simp only [hreceipt]
      cases hstatus : receipt.status with
      | pending =>
        rw [hstatus] at h₁ hsome
        have hids := idsWith_single hsome
        refine (ih hgood h₁).cons ?_ ?_ ?_ (fun hr => ?_) (fun hr => ?_)
        · rw [hids, if_neg (by decide), List.append_nil]
        · rw [hids, if_neg (by decide), List.append_nil]
        · rw [hids, if_pos rfl]
        · exact absurd (hsome.symm.trans hr) (by decide)
        · exact absurd (hsome.symm.trans hr) (by decide)
      | confirmed =>
        rw [hstatus] at h₁ hsome
        have hids := idsWith_single hsome
        rcases runs_bind.mp h₁ with ⟨e, hone, -⟩ | ⟨_, s₂, t₂, t₃, hone, h₂, -⟩
        · obtain ⟨⟨_, ho⟩, -⟩ := confirm_runs huuid hgood hone
          cases ho
        obtain ⟨-, hrecorded⟩ := confirm_runs huuid hgood hone
        have hgood₂ := (runs_acts hone).good huuid hgood
        refine (ih hgood₂ h₂).cons ?_ ?_ ?_ (fun _ => ?_) (fun hr => ?_)
        · rw [hids, if_pos rfl]
        · rw [hids, if_neg (by decide), List.append_nil]
        · rw [hids, if_neg (by decide), List.append_nil]
        · exact (runs_acts h₂).recorded huuid hgood₂ (Or.inl rfl) hrecorded
        · exact absurd (hsome.symm.trans hr) (by decide)
      | failed =>
        rw [hstatus] at h₁ hsome
        have hids := idsWith_single hsome
        rcases runs_bind.mp h₁ with ⟨e, hone, -⟩ | ⟨_, s₂, t₂, t₃, hone, h₂, -⟩
        · obtain ⟨⟨_, ho⟩, -⟩ := fail_runs huuid hgood hone
          cases ho
        obtain ⟨-, hrecorded⟩ := fail_runs huuid hgood hone
        have hgood₂ := (runs_acts hone).good huuid hgood
        refine (ih hgood₂ h₂).cons ?_ ?_ ?_ (fun hr => ?_) (fun _ => ?_)
        · rw [hids, if_neg (by decide), List.append_nil]
        · rw [hids, if_pos rfl]
        · rw [hids, if_neg (by decide), List.append_nil]
        · exact absurd (hsome.symm.trans hr) (by decide)
        · exact (runs_acts h₂).recorded huuid hgood₂ (Or.inr rfl) hrecorded

end

/-- **One call settles what it lists.**  In a run in which every receipt is found, and every withdrawal is still
broadcasted and fits its schema when it is settled, the call returns; the lists are the withdrawals with each
receipt, no two of them share one, and what was confirmed or failed on chain is completed or failed. -/
theorem settles_independently (rt : Runtime) (huuid : Function.Injective rt.uuid)
    (receipts : String → Except LedgerError ReceiptDetails) (s : InMemoryLedger) (hs : Good rt s)
    (t : List (Answered Effect LedgerError)) (o : Except LedgerError ReconcileResult) (s' : InMemoryLedger)
    (h : Runs (ReconcileHandles rt receipts (Untroubled rt receipts)) (reconcileBroadcasted rt) s t o s') :
    ∃ listed t' result, t = ⟨.listWithdrawalsByStatuses [.txBroadcasted], .ok listed⟩ :: t' ∧ o = .ok result ∧
      result.confirmed = idsWith receipts .confirmed listed ∧ result.failed = idsWith receipts .failed listed ∧
      result.pending = idsWith receipts .pending listed ∧
      (∀ a b, a ≠ b → ∀ id ∈ idsWith receipts a listed, id ∉ idsWith receipts b listed) ∧
      ∀ w ∈ listed, (receiptOf receipts w = some .confirmed → Recorded s' w.withdrawalId .completed) ∧
        (receiptOf receipts w = some .failed → Recorded s' w.withdrawalId .failed) := by
  have hlist : ∀ {r : Except LedgerError (List Withdrawal)} {s₁ : InMemoryLedger},
      ReconcileHandles rt receipts (Untroubled rt receipts) (.listWithdrawalsByStatuses [.txBroadcasted]) s r s₁ →
      r = .ok (InMemoryLedger.listWithdrawalsByStatuses s₁ [.txBroadcasted]) ∧ Good rt s₁ := by
    rintro r s₁ ⟨s₂, hacts, -, hr, rfl⟩
    exact ⟨hr, hacts.good huuid hs⟩
  rcases runs_perform_bind.mp h with ⟨e, -, hlisted, -⟩ | ⟨listed, s₁, t₁, hlisted, h₁, ht⟩
  · obtain ⟨hr, -⟩ := hlist hlisted
    cases hr
  obtain ⟨hr, hgood⟩ := hlist hlisted
  obtain rfl := Except.ok.inj hr
  have hsettles := reconcileEach_runs huuid hgood h₁
  have hfound : ∀ w ∈ InMemoryLedger.listWithdrawalsByStatuses s₁ [.txBroadcasted],
      s₁.withdrawals.get? w.withdrawalId = some w := by
    intro w hw
    obtain ⟨id, hid⟩ := (OrderedMap.mem_values _).mp (List.mem_filter.mp hw).1
    rwa [(hgood.sound.recorded id w hid).1]
  refine ⟨_, t₁, _, ht, hsettles.returned, rfl, rfl, rfl, fun a b hab id ha hb => ?_,
    fun w hw => ⟨hsettles.completed w hw, hsettles.failed w hw⟩⟩
  obtain ⟨v, hv, rfl⟩ := List.mem_map.mp ha
  obtain ⟨w, hw, hsame⟩ := List.mem_map.mp hb
  obtain ⟨hv, hva⟩ := List.mem_filter.mp hv
  obtain ⟨hw, hwb⟩ := List.mem_filter.mp hw
  have hvw : v = w := by
    have hget := hfound w hw
    rw [hsame, hfound v hv] at hget
    exact Option.some.inj hget
  subst hvw
  exact hab (Option.some.inj ((of_decide_eq_true hva).symm.trans (of_decide_eq_true hwb)))

/-! ## two withdrawals -/

/-- a call answered at once -/
def answer (receipts : String → Except LedgerError ReceiptDetails) {β : Type} :
    Effect β → Method InMemoryLedger LedgerError β
  | .now => fun s => (.ok "2026-01-01T00:00:09.000Z", s)
  | .listWithdrawalsByStatuses statuses => fun s => (.ok (InMemoryLedger.listWithdrawalsByStatuses s statuses), s)
  | .getTransactionReceiptDetails txHash => fun s => (receipts txHash, s)
  | .confirmWithdrawal id networkFee nowIso => InMemoryLedger.confirmWithdrawal .numbered id networkFee nowIso
  | .failWithdrawal id reason nowIso => InMemoryLedger.failWithdrawal .numbered id reason nowIso
  | .publishStateChanged _ => fun s => (.ok (), s)
  | .appendAuditLog _ => fun s => (.ok (), s)
  | _ => fun s => (.error (.plain "not called"), s)

theorem answer_answers (receipts : String → Except LedgerError ReceiptDetails) {β : Type} (call : Effect β)
    (s : InMemoryLedger) : Answers .numbered receipts call s (answer receipts call s).1 (answer receipts call s).2 := by
  cases call with
  | now => exact ⟨⟨_, rfl, by decide⟩, rfl⟩
  | listWithdrawalsByStatuses | getTransactionReceiptDetails | publishStateChanged | appendAuditLog => exact ⟨rfl, rfl⟩
  | _ => rfl

/-- the withdrawals of alice and bob, both sent -/
def twoBroadcasted : InMemoryLedger :=
  runCalls (InMemoryLedger.Call.step .numbered)
    [.broadcastWithdrawal (Runtime.numbered.uuid 7) "0xfeedbee1" "2026-01-01T00:00:04.000Z",
     .broadcastWithdrawal (Runtime.numbered.uuid 10) "0xfeedbee2" "2026-01-01T00:00:05.000Z"]
    twoApprovedLedger

/-- bob's transfer is confirmed; alice's is answered by `first` -/
def exampleReceipts (first : Except LedgerError ReceiptDetails) (txHash : String) : Except LedgerError ReceiptDetails :=
  if txHash = "0xfeedbee1" then first else .ok ⟨.confirmed, 1000, .ofInt 0, .ofInt 345⟩

/-- the receipt is found, and the withdrawal is broadcasted and fits when it is confirmed -/
def untroubled (receipts : String → Except LedgerError ReceiptDetails) {β : Type} :
    Effect β → InMemoryLedger → Bool
  | .getTransactionReceiptDetails txHash, _ => (receipts txHash).isOk
  | .confirmWithdrawal id _ nowIso, s => (s.withdrawals.get? id).any fun w =>
    w.status = .txBroadcasted ∧ (completed w nowIso).Fits .numbered nowIso
  | .failWithdrawal .., _ => false
  | _, _ => true

/-- the numbered process signs everything alike -/
theorem fits_numbered {w : Withdrawal} {nowIso : String} (h : w.Fits .numbered nowIso) (t : String)
    (ht : Runtime.numbered.isDatetime t = true) : w.Fits .numbered t := by
  obtain ⟨hsigns, hid, huser, haddress, hhash, hrequired, hprovider, hrequest, -⟩ := h
  exact ⟨hsigns, hid, huser, haddress, hhash, hrequired, hprovider, hrequest, ht⟩

theorem untroubled_handles (receipts : String → Except LedgerError ReceiptDetails) {β : Type} (call : Effect β)
    (s : InMemoryLedger) (h : untroubled receipts call s = true) :
    ReconcileHandles .numbered receipts (Untroubled .numbered receipts) call s (answer receipts call s).1
      (answer receipts call s).2 := by
  refine ⟨s, .refl, ?_, answer_answers receipts call s⟩
  cases call with
  | getTransactionReceiptDetails txHash =>
    replace h : (receipts txHash).isOk = true := h
    show ∃ details, receipts txHash = .ok details
    cases hr : receipts txHash with
    | ok details => exact ⟨details, rfl⟩
    | error e =>
      rw [hr] at h
      cases h
  | confirmWithdrawal id networkFee nowIso =>
    obtain ⟨w, hw, htest⟩ := Option.any_eq_true _ _ |>.mp h
    obtain ⟨hstatus, hfits⟩ := of_decide_eq_true htest
    exact ⟨w, hw, hstatus, fits_numbered hfits⟩
  | failWithdrawal => cases h
  | _ => trivial

theorem good_twoBroadcasted : Good .numbered twoBroadcasted := by
  have hgood : ∀ calls : List Call, (∀ c ∈ calls, c.AmountSatisfies (0 < ·)) → ∀ s, Good .numbered s →
      Good .numbered (runCalls (Call.step .numbered) calls s) := by
    intro calls hpos s hs
    have hstep : ∀ c s, Call.AmountSatisfies (0 < ·) c → Good .numbered s → Good .numbered (Call.step .numbered c s) :=
      fun c s hc hs => good_step Runtime.numbered_uuid_injective hc hs
    exact run_invariant hstep hpos hs
  refine hgood _ (by simp [Call.AmountSatisfies]) _ (hgood _ ?_ _ ⟨Sound.new _, Solvent.new _⟩)
  simp [twoApproved, Call.AmountSatisfies]

/-- a call with a pending and a confirmed receipt -/
theorem settles_independently_example : ∃ receipts listed result,
    (Except.ok result : Except LedgerError ReconcileResult) =
      ((reconcileBroadcasted .numbered).run (answer receipts) twoBroadcasted).1 ∧
    result.confirmed = [Runtime.numbered.uuid 10] ∧ result.confirmed = idsWith receipts .confirmed listed := by
  let receipts := exampleReceipts (.ok ⟨.pending, 0, .ofInt 0, .ofInt 0⟩)
  let op : ∀ {β : Type}, Effect β → Method InMemoryLedger LedgerError β := fun call => answer receipts call
  have hop : ∀ {β : Type} (call : Effect β) (s : InMemoryLedger), untroubled receipts call s = true →
      ReconcileHandles .numbered receipts (Untroubled .numbered receipts) call s (op call s).1 (op call s).2 :=
    untroubled_handles receipts
  obtain ⟨t, ht⟩ := (reconcileBroadcasted .numbered).passes_runs hop twoBroadcasted (by decide +kernel)
  have hids : ((reconcileBroadcasted .numbered).run op twoBroadcasted).1.toOption.map (·.confirmed) =
      some [Runtime.numbered.uuid 10] := by decide +kernel
  obtain ⟨listed, t', result, -, ho, hconfirmed, -⟩ := settles_independently .numbered
    Runtime.numbered_uuid_injective receipts twoBroadcasted good_twoBroadcasted t _ _ ht
  rw [ho] at hids
  exact ⟨receipts, listed, result, ho.symm, Option.some.inj hids, hconfirmed⟩

/-- **A lookup that throws.**  The receipt of alice's transfer cannot be had; the call throws, and bob's
withdrawal, confirmed on chain and still broadcasted in the ledger, is left as it is. -/
theorem lookup_aborts : ∃ receipts t e s',
    Runs (ReconcileHandles .numbered receipts fun _ _ _ => True) (reconcileBroadcasted .numbered) twoBroadcasted t
      (.error e) s' ∧
    receipts "0xfeedbee2" = .ok ⟨.confirmed, 1000, .ofInt 0, .ofInt 345⟩ ∧
    shownOf s' (Runtime.numbered.uuid 10) = some (.txBroadcasted, some "0xfeedbee2") := by
  let receipts := exampleReceipts (.error (.plain "timeout"))
  let op : ∀ {β : Type}, Effect β → Method InMemoryLedger LedgerError β := fun call => answer receipts call
  have hop : ∀ {β : Type} (call : Effect β) (s : InMemoryLedger),
      ReconcileHandles .numbered receipts (fun _ _ _ => True) call s (op call s).1 (op call s).2 := fun call s =>
    ⟨s, .refl, trivial, answer_answers receipts call s⟩
  obtain ⟨t, ht⟩ := (reconcileBroadcasted .numbered).run_runs hop twoBroadcasted
  have hleft : shownOf ((reconcileBroadcasted .numbered).run op twoBroadcasted).2
      (Runtime.numbered.uuid 10) = some (.txBroadcasted, some "0xfeedbee2") := by decide +kernel
  have hthrown : ((reconcileBroadcasted .numbered).run op twoBroadcasted).1.toOption.isNone = true := by
    decide +kernel
  cases ho : ((reconcileBroadcasted .numbered).run op twoBroadcasted).1 with
  | ok result =>
    rw [ho] at hthrown
    cases hthrown
  | error e =>
    rw [ho] at ht
    exact ⟨receipts, t, e, _, ht, rfl, hleft⟩

end WithdrawService
