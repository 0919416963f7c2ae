import CoinManage.Postgres.Settlements

/-!
# Whether a compensation takes a settlement back

A settlement posts up to four kinds of legs: the payer's collateral, the clearing account, the fee
and the receiver's credit.  A compensation does not read them: it posts one move of the whole
amount.

* `undone_adjust`, `undone_release`  where the move is the inverse of what was posted;
* `fee_kept`, `clearing_left`        what is left otherwise: the fee, and the receiver's credit;
* `compensation_undoes_settlement`   the balances come back in exactly these cases.
-/

namespace Postgres

open DoubleEntry

/-- the compensation of a settlement: the same settlement, user, amount and release action -/
structure CompensateInput.Reverses (y : CompensateInput) (x : FinalizeInput) : Prop where
  settlementId : y.settlementId = x.settlementId
  userId : y.userId = x.userId
  amount : y.amount = x.amount
  releaseAction : y.releaseAction = x.releaseAction

/-- every account holds what it held -/
def Restored (s s' : Db) : Prop := ∀ account, s'.balance account = s.balance account

/-- a receiver this settlement would credit -/
def CreditsReceiver (s : Db) (x : FinalizeInput) : Prop :=
  ∃ receiverUserId receiver, resolveOfflinePayReceiverUserId s x = .ok receiverUserId ∧
    creditedReceiver s x receiverUserId = some receiver

/-- the amounts on which a release has no fee -/
def FeeFree (pg : PgServer) (x : FinalizeInput) : Prop :=
  normalizeCode pg x.assetCode ≠ "KORI" ∨ x.amount < 500

/-- the settlements a compensation takes back: an adjustment, or a release without fee and without
receiver.  A negative amount credits a receiver with nothing. -/
def Compensable (pg : PgServer) (s : Db) (x : FinalizeInput) : Prop :=
  x.amount = 0 ∨
  (("offline_pay_settlement", x.settlementId) ∉ s.journalKeys ∧
    ("offline_pay_settlement_compensation", x.settlementId) ∉ s.journalKeys ∧
    (x.releaseAction = .adjust ∨ 0 < x.amount ∧ FeeFree pg x ∧ ¬ CreditsReceiver s x)) ∨
  (("offline_pay_settlement", x.settlementId) ∈ s.journalKeys ∧
    ("offline_pay_settlement_compensation", x.settlementId) ∈ s.journalKeys ∧ x.amount < 0)

section
variable {pg : PgServer} {s s' s₁ s₂ : Db} {x : FinalizeInput} {y : CompensateInput}

/-! ## fees -/

theorem settlementFee_release (haction : x.releaseAction = .release) :
    settlementFee pg x = calculateOfflinePaySettlementFee pg x.assetCode x.amount := by
  unfold settlementFee
  rw [haction]

/-- the fee of one tenth of a percent, rounded to the nearest -/
theorem settlementFee_eq_zero (haction : x.releaseAction = .release) (hpos : 0 < x.amount) :
    settlementFee pg x = 0 ↔ FeeFree pg x := by
  rw [settlementFee_release haction]
  unfold calculateOfflinePaySettlementFee getOfflinePaySettlementFeeBps FeeFree BPS_DENOMINATOR
  by_cases hcode : normalizeCode pg x.assetCode = "KORI"
  · simp only [hcode, if_true]
    rw [if_neg (by omega)]
    constructor
    · intro h
      right
      omega
    · rintro (h | h)
      · exact absurd rfl h
      · omega
  · simp [hcode]

theorem settlementFee_nonpos (h : x.amount ≤ 0) : settlementFee pg x = 0 := by
  unfold settlementFee calculateOfflinePaySettlementFee
  cases x.releaseAction with
  | adjust => rfl
  | release =>
    simp only
    rw [if_pos (Or.inr h)]

variable (pg) in
/-- a fee never takes the whole of a positive amount -/
theorem receiverCreditAmount_pos (h : 0 < x.amount) :
    receiverCreditAmount pg x = x.amount - settlementFee pg x ∧ 0 < receiverCreditAmount pg x := by
  have hless : settlementFee pg x < x.amount := by
    unfold settlementFee calculateOfflinePaySettlementFee getOfflinePaySettlementFeeBps BPS_DENOMINATOR
    cases x.releaseAction with
    | adjust => exact h
    | release =>
      by_cases hcode : normalizeCode pg x.assetCode = "KORI"
      · simp only [hcode, if_true]
        rw [if_neg (by omega)]
        omega
      · simp only [hcode, if_false, le_refl, true_or, if_true]
        exact h
  unfold receiverCreditAmount
  rw [if_pos hless]
  exact ⟨rfl, by omega⟩

theorem receiverCreditAmount_nonpos (h : x.amount ≤ 0) : receiverCreditAmount pg x = 0 := by
  unfold receiverCreditAmount
  rw [settlementFee_nonpos h, if_neg (by omega)]

/-! ## the legs of both, account by account -/

/-- the receiver's side as legs -/
def receiverCreditLegs (pg : PgServer) (s : Db) (x : FinalizeInput) (receiverUserId : Option String) :
    List (Posting LedgerAccount ℤ) :=
  (creditedReceiver s x receiverUserId).toList.flatMap (receiverLegs pg x)

theorem receiverEntries_creditLegs (receiverUserId : Option String) :
    (receiverEntries pg s x receiverUserId).flatMap Entry.legs =
      mapAccounts LedgerAccount.code (receiverCreditLegs pg s x receiverUserId) := by
  unfold receiverEntries receiverCreditLegs
  cases creditedReceiver s x receiverUserId with
  | none => rfl
  | some receiver =>
    show _ = mapAccounts _ (receiverLegs pg x receiver ++ [])
    rw [List.append_nil]
    exact List.flatMap_singleton _ _

theorem receiverCreditLegs_none {receiverUserId : Option String} (h : creditedReceiver s x receiverUserId = none) :
    receiverCreditLegs pg s x receiverUserId = [] := by
  unfold receiverCreditLegs
  rw [h]
  rfl

theorem receiverCreditLegs_some {receiverUserId : Option String} {receiver : String}
    (h : creditedReceiver s x receiverUserId = some receiver) :
    receiverCreditLegs pg s x receiverUserId = receiverLegs pg x receiver := by
  unfold receiverCreditLegs
  rw [h]
  exact List.append_nil _

theorem compensationLegs_adjust (hy : y.Reverses x) (haction : x.releaseAction = .adjust) :
    compensationLegs y =
      move (.user x.userId .available) (.user x.userId .offlinePayPending) x.amount := by
  unfold compensationLegs
  rw [hy.releaseAction, haction, hy.userId, hy.amount]

theorem compensationLegs_release (hy : y.Reverses x) (haction : x.releaseAction = .release) :
    compensationLegs y = move .offlinePayClearing (.user x.userId .offlinePayPending) x.amount := by
  unfold compensationLegs
  rw [hy.releaseAction, haction, hy.userId, hy.amount]

theorem settlementLegs_adjust (haction : x.releaseAction = .adjust) :
    settlementLegs pg x =
      move (.user x.userId .offlinePayPending) (.user x.userId .available) x.amount := by
  unfold settlementLegs
  rw [haction]

/-- a release without a fee moves the whole amount -/
theorem settlementLegs_free (haction : x.releaseAction = .release) (hpos : 0 < x.amount)
    (hfee : settlementFee pg x = 0) :
    settlementLegs pg x = move (.user x.userId .offlinePayPending) .offlinePayClearing x.amount := by
  have hcredit : receiverCreditAmount pg x = x.amount := by
    rw [(receiverCreditAmount_pos pg hpos).1, hfee, sub_zero]
  unfold settlementLegs
  rw [haction]
  simp only
  rw [hcredit, hfee, if_neg (lt_irrefl 0)]
  rfl

/-- a move and the move back -/
theorem balance_moveBack (c a b : LedgerAccount) (amount : ℤ) :
    balance c (move a b amount) + balance c (move b a amount) = 0 := by
  rw [balance_move, balance_move]
  omega

theorem undone_adjust (hy : y.Reverses x) (haction : x.releaseAction = .adjust) (c : LedgerAccount) :
    balance c (settlementLegs pg x) + balance c (compensationLegs y) = 0 := by
  rw [settlementLegs_adjust haction, compensationLegs_adjust hy haction]
  exact balance_moveBack _ _ _ _

theorem undone_release (hy : y.Reverses x) (haction : x.releaseAction = .release) (hpos : 0 < x.amount)
    (hfee : settlementFee pg x = 0) (c : LedgerAccount) :
    balance c (settlementLegs pg x) + balance c (compensationLegs y) = 0 := by
  rw [settlementLegs_free haction hpos hfee, compensationLegs_release hy haction]
  exact balance_moveBack _ _ _ _

/-- nothing of amount zero leaves a trace -/
theorem settlementLegs_zero (h : x.amount = 0) (c : LedgerAccount) :
    balance c (settlementLegs pg x) = 0 := by
  have hfee : settlementFee pg x = 0 := settlementFee_nonpos (le_of_eq h)
  have hcredit : receiverCreditAmount pg x = 0 := receiverCreditAmount_nonpos (le_of_eq h)
  unfold settlementLegs
  cases x.releaseAction with
  | adjust =>
    simp only
    rw [h, balance_move]
    simp
  | release =>
    simp only
    rw [hfee, hcredit, if_neg (lt_irrefl 0), List.append_nil, h]
    exact (balance_move c _ _ 0).trans (by simp)

theorem compensationLegs_zero (hy : y.Reverses x) (h : x.amount = 0) (c : LedgerAccount) :
    balance c (compensationLegs y) = 0 := by
  unfold compensationLegs
  rw [hy.amount, h]
  cases y.releaseAction with
  | adjust => exact (balance_move c _ _ 0).trans (by simp)
  | release => exact (balance_move c _ _ 0).trans (by simp)

theorem receiverCreditLegs_nonpos (h : x.amount ≤ 0) (receiverUserId : Option String) (c : LedgerAccount) :
    balance c (receiverCreditLegs pg s x receiverUserId) = 0 := by
  cases hcredited : creditedReceiver s x receiverUserId with
  | none => rw [receiverCreditLegs_none hcredited, balance_nil]
  | some receiver =>
    rw [receiverCreditLegs_some hcredited, receiverLegs, receiverCreditAmount_nonpos h, balance_move]
    simp

/-- the payer's collateral after a settlement alone -/
theorem collateral_taken : balance (.user x.userId .offlinePayPending) (settlementLegs pg x) = -x.amount := by
  unfold settlementLegs
  cases x.releaseAction with
  | adjust =>
    simp only
    rw [balance_move, if_neg (by simp), if_pos rfl, zero_sub]
  | release =>
    simp only
    split
    · simp [balance, Posting.signed]
    · simp [balance, Posting.signed]

/-- a receiver's credit does not touch any collateral -/
theorem receiverCreditLegs_collateral (receiverUserId : Option String) (u : String) :
    balance (.user u .offlinePayPending) (receiverCreditLegs pg s x receiverUserId) = 0 := by
  cases hcredited : creditedReceiver s x receiverUserId with
  | none => rw [receiverCreditLegs_none hcredited, balance_nil]
  | some receiver =>
    rw [receiverCreditLegs_some hcredited, receiverLegs, balance_move]
    simp

/-- the fee of a release stays where it is -/
theorem fee_kept (hy : y.Reverses x) (haction : x.releaseAction = .release) (receiverUserId : Option String)
    (hfee : 0 ≤ settlementFee pg x) :
    balance .offlinePayFee (settlementLegs pg x) + balance .offlinePayFee (receiverCreditLegs pg s x receiverUserId) +
      balance .offlinePayFee (compensationLegs y) = settlementFee pg x := by
  have hcredit : balance .offlinePayFee (receiverCreditLegs pg s x receiverUserId) = 0 := by
    cases hcredited : creditedReceiver s x receiverUserId with
    | none => rw [receiverCreditLegs_none hcredited, balance_nil]
    | some receiver =>
      rw [receiverCreditLegs_some hcredited, receiverLegs, balance_move]
      simp
  have hsettled : balance .offlinePayFee (settlementLegs pg x) = settlementFee pg x := by
    unfold settlementLegs
    rw [haction]
    simp only
    split
    · simp [balance, Posting.signed]
    · have hnone : settlementFee pg x = 0 := by omega
      simp [balance, hnone]
  rw [hcredit, hsettled, compensationLegs_release hy haction, balance_move]
  simp

variable (pg) in
/-- what the clearing account of a release is left with -/
theorem clearing_left (hy : y.Reverses x) (haction : x.releaseAction = .release)
    (receiverUserId : Option String) :
    balance .offlinePayClearing (settlementLegs pg x) +
        balance .offlinePayClearing (receiverCreditLegs pg s x receiverUserId) +
        balance .offlinePayClearing (compensationLegs y) =
      (if (creditedReceiver s x receiverUserId).isSome then 0 else receiverCreditAmount pg x) - x.amount := by
  have hsettled : balance .offlinePayClearing (settlementLegs pg x) = receiverCreditAmount pg x := by
    unfold settlementLegs
    rw [haction]
    simp only
    split
    · simp [balance, Posting.signed]
    · simp [balance, Posting.signed]
  have hcompensated : balance .offlinePayClearing (compensationLegs y) = -x.amount := by
    rw [compensationLegs_release hy haction, balance_move]
    simp
  rw [hsettled, hcompensated]
  cases hcredited : creditedReceiver s x receiverUserId with
  | none =>
    rw [receiverCreditLegs_none hcredited, balance_nil]
    simp [sub_eq_add_neg]
  | some receiver =>
    have hcredit : balance .offlinePayClearing (receiverLegs pg x receiver) = -receiverCreditAmount pg x := by
      rw [receiverLegs, balance_move]
      simp
    rw [receiverCreditLegs_some hcredited, hcredit]
    simp

/-! ## both calls, one after the other -/

/-- a settlement that posts something new, in legs -/
theorem finalize_legs {r : OfflinePaySettlementFinalizeResult}
    (h : finalizeOfflinePaySettlement pg x s = (.ok r, s')) :
    ∃ receiverUserId, resolveOfflinePayReceiverUserId s x = .ok receiverUserId ∧
      (∀ compensated, ("offline_pay_settlement_compensation", compensated) ∈ s'.journalKeys ↔
        ("offline_pay_settlement_compensation", compensated) ∈ s.journalKeys) ∧
      (("offline_pay_settlement", x.settlementId) ∈ s.journalKeys ∧
        s'.postings = s.postings ++ mapAccounts LedgerAccount.code (receiverCreditLegs pg s x receiverUserId) ∧
        (∀ c, s'.balance c = s.balance c + balance c (receiverCreditLegs pg s x receiverUserId)) ∨
      ("offline_pay_settlement", x.settlementId) ∉ s.journalKeys ∧
        ∀ c, s'.balance c = s.balance c + balance c (settlementLegs pg x) +
          balance c (receiverCreditLegs pg s x receiverUserId)) := by
  obtain ⟨-, -, receiverUserId, hreceiver, hcase⟩ := finalizeOfflinePaySettlement_ok h
  have hforeign : ∀ e ∈ receiverEntries pg s x receiverUserId,
      e.referenceType ≠ "offline_pay_settlement_compensation" := by
    intro e he
    obtain ⟨receiver, -, rfl⟩ := List.mem_map.mp he
    show cut 64 "offline_pay_receiver_settlement" ≠ _
    decide
  have hkeys : ∀ es : List Entry, (∀ e ∈ es, e.referenceType ≠ "offline_pay_settlement_compensation") →
      s'.journalKeys = s.journalKeys ++ es.map Entry.key →
      ∀ compensated, ("offline_pay_settlement_compensation", compensated) ∈ s'.journalKeys ↔
        ("offline_pay_settlement_compensation", compensated) ∈ s.journalKeys := by
    intro es hes hkeys compensated
    rw [hkeys, List.mem_append]
    constructor
    · rintro (hold | hnew)
      · exact hold
      · obtain ⟨e, he, heq⟩ := List.mem_map.mp hnew
        exact absurd (congrArg Prod.fst heq) (hes e he)
    · exact Or.inl
  refine ⟨receiverUserId, hreceiver, ?_⟩
  rcases hcase with ⟨hknown, -, hwrote⟩ | ⟨hknown, -, -, hwrote⟩
  · refine ⟨hkeys _ hforeign hwrote.posted.keys, Or.inl ⟨hknown, ?_, ?_⟩⟩
    · rw [hwrote.posted.postings, receiverEntries_creditLegs]
    · exact hwrote.posted.balance (receiverEntries_creditLegs receiverUserId)
  · refine ⟨hkeys _ ?_ hwrote.posted.keys, Or.inr ⟨hknown, ?_⟩⟩
    · intro e he
      rcases List.mem_cons.mp he with rfl | he
      · show cut 64 "offline_pay_settlement" ≠ _
        decide
      · exact hforeign e he
    · intro c
      have hlegs : ((settlementJournal pg x).entry (settlementLegs pg x) ::
          receiverEntries pg s x receiverUserId).flatMap Entry.legs =
          mapAccounts LedgerAccount.code (settlementLegs pg x ++ receiverCreditLegs pg s x receiverUserId) := by
        rw [List.flatMap_cons, receiverEntries_creditLegs, mapAccounts_append]
        rfl
      rw [hwrote.posted.balance hlegs c, balance_append, add_assoc]

theorem compensate_legs {r : OfflinePaySettlementFinalizeResult}
    (h : compensateOfflinePaySettlement pg y s = (.ok r, s')) :
    (("offline_pay_settlement_compensation", y.settlementId) ∈ s.journalKeys ∧
      ∀ c, s'.balance c = s.balance c) ∨
    (("offline_pay_settlement_compensation", y.settlementId) ∉ s.journalKeys ∧
      ∀ c, s'.balance c = s.balance c + balance c (compensationLegs y)) := by
  rcases compensateOfflinePaySettlement_ok h with ⟨hknown, -, rfl⟩ | ⟨hknown, h⟩
  · exact Or.inl ⟨hknown, fun _ => rfl⟩
  · obtain ⟨-, -, -, hwrote⟩ := compensateNew_ok h
    have hlegs : [(compensationJournal y).entry (compensationLegs y)].flatMap Entry.legs =
        mapAccounts LedgerAccount.code (compensationLegs y) := List.flatMap_singleton _ _
    exact Or.inr ⟨hknown, hwrote.posted.balance hlegs⟩

/-- a new settlement with a new compensation -/
theorem restored_new {receiverUserId : Option String} (hy : y.Reverses x)
    (hreceiver : resolveOfflinePayReceiverUserId s x = .ok receiverUserId) :
    (∀ c, balance c (settlementLegs pg x) + balance c (receiverCreditLegs pg s x receiverUserId) +
      balance c (compensationLegs y) = 0) ↔
    x.amount = 0 ∨ x.releaseAction = .adjust ∨ 0 < x.amount ∧ FeeFree pg x ∧ ¬ CreditsReceiver s x := by
  have hcredits : CreditsReceiver s x ↔ (creditedReceiver s x receiverUserId).isSome = true := by
    constructor
    · rintro ⟨resolved, receiver, hresolved, hcredited⟩
      rw [hreceiver] at hresolved
      rw [Except.ok.inj hresolved, hcredited]
      rfl
    · intro h
      obtain ⟨receiver, hcredited⟩ := Option.isSome_iff_exists.mp h
      exact ⟨receiverUserId, receiver, hreceiver, hcredited⟩
  cases haction : x.releaseAction with
  | adjust =>
    refine iff_of_true (fun c => ?_) (Or.inr (Or.inl rfl))
    rw [receiverCreditLegs_none (creditedReceiver_adjust haction), balance_nil, add_zero]
    exact undone_adjust hy haction c
  | release =>
    constructor
    · intro h
      by_cases hzero : x.amount = 0
      · exact Or.inl hzero
      have hclearing := clearing_left pg (s := s) hy haction receiverUserId
      rw [h .offlinePayClearing] at hclearing
      have hnone : ¬ (creditedReceiver s x receiverUserId).isSome = true := by
        intro hsome
        rw [if_pos hsome] at hclearing
        omega
      rw [if_neg hnone] at hclearing
      have hpos : 0 < x.amount := by
        by_contra hneg
        rw [receiverCreditAmount_nonpos (by omega)] at hclearing
        omega
      have hkept := fee_kept (s := s) hy haction receiverUserId
        (settlementFee_bounds pg x (by omega)).1
      rw [h .offlinePayFee] at hkept
      refine Or.inr (Or.inr ⟨hpos, ?_, fun hcredit => hnone (hcredits.mp hcredit)⟩)
      exact (settlementFee_eq_zero haction hpos).mp hkept.symm
    · rintro (hzero | hadjust | ⟨hpos, hfree, hnone⟩) c
      · rw [settlementLegs_zero hzero, receiverCreditLegs_nonpos (le_of_eq hzero), compensationLegs_zero hy hzero]
        rfl
      · cases hadjust
      · have hcredited : creditedReceiver s x receiverUserId = none := by
          rw [← Option.not_isSome_iff_eq_none, ← hcredits]
          exact hnone
        rw [receiverCreditLegs_none hcredited, balance_nil, add_zero]
        exact undone_release hy haction hpos ((settlementFee_eq_zero haction hpos).mpr hfree) c

/-- a new settlement that is not compensated -/
theorem restored_uncompensated (receiverUserId : Option String) :
    (∀ c, balance c (settlementLegs pg x) + balance c (receiverCreditLegs pg s x receiverUserId) = 0) ↔
      x.amount = 0 := by
  constructor
  · intro h
    have hpending := h (.user x.userId .offlinePayPending)
    rw [collateral_taken, receiverCreditLegs_collateral] at hpending
    omega
  · intro hzero c
    rw [settlementLegs_zero hzero, receiverCreditLegs_nonpos (le_of_eq hzero)]
    rfl

/-- a known settlement that credits its receiver late, and is compensated now -/
theorem restored_late (hy : y.Reverses x) (receiverUserId : Option String) :
    (∀ c, balance c (receiverCreditLegs pg s x receiverUserId) + balance c (compensationLegs y) = 0) ↔
      x.amount = 0 := by
  constructor
  · intro h
    have hpending := h (.user x.userId .offlinePayPending)
    have hcompensated : balance (.user x.userId .offlinePayPending) (compensationLegs y) = x.amount := by
      cases haction : x.releaseAction with
      | adjust =>
        rw [compensationLegs_adjust hy haction, balance_move]
        simp
      | release =>
        rw [compensationLegs_release hy haction, balance_move]
        simp
    rw [receiverCreditLegs_collateral, hcompensated] at hpending
    omega
  · intro hzero c
    rw [receiverCreditLegs_nonpos (le_of_eq hzero), compensationLegs_zero hy hzero]
    rfl

/-- a known settlement that credits its receiver late, after its compensation -/
theorem restored_afterwards {receiverUserId : Option String} {receiver : String}
    (hcredited : creditedReceiver s x receiverUserId = some receiver) :
    (∀ c, balance c (receiverCreditLegs pg s x receiverUserId) = 0) ↔ x.amount ≤ 0 := by
  constructor
  · intro h
    by_contra hpos
    have hclearing := h .offlinePayClearing
    rw [receiverCreditLegs_some hcredited, receiverLegs, balance_move] at hclearing
    have hcredit := (receiverCreditAmount_pos pg (x := x) (by omega)).2
    simp at hclearing
    omega
  · intro hneg c
    exact receiverCreditLegs_nonpos hneg receiverUserId c

/-- A settlement that appends postings, and its compensation right afterwards: the balances of all
accounts are those before the settlement exactly for the settlements that are `Compensable`.  A
compensation that throws leaves the settlement as it is. -/
theorem compensation_undoes_settlement {r : OfflinePaySettlementFinalizeResult}
    {outcome : Except LedgerError OfflinePaySettlementFinalizeResult}
    (hsettled : finalizeOfflinePaySettlement pg x s = (.ok r, s₁)) (hposted : s₁.postings ≠ s.postings)
    (hy : y.Reverses x) (hcompensated : compensateOfflinePaySettlement pg y s₁ = (outcome, s₂)) :
    (∀ r', outcome = .ok r' → (Restored s s₂ ↔ Compensable pg s x)) ∧
    (∀ e, outcome = .error e → Restored s₁ s₂) := by
  refine ⟨?_, ?_⟩
  · rintro r' rfl
    obtain ⟨receiverUserId, hreceiver, hkeys, hfinalized⟩ := finalize_legs hsettled
    have hdone := compensate_legs hcompensated
    rw [hy.settlementId, hkeys] at hdone
    unfold Restored Compensable
    rcases hfinalized with ⟨hknown, hpostings, hfirst⟩ | ⟨hnew, hfirst⟩
    · -- only the receiver's credit was appended
      have hcredited : ∃ receiver, creditedReceiver s x receiverUserId = some receiver := by
        rw [← Option.isSome_iff_exists]
        by_contra hnone
        apply hposted
        rw [hpostings, receiverCreditLegs_none (Option.not_isSome_iff_eq_none.mp hnone)]
        exact List.append_nil _
      obtain ⟨receiver, hcredited⟩ := hcredited
      rcases hdone with ⟨hdup, hsecond⟩ | ⟨hfresh, hsecond⟩
      · have hsum : (∀ c, s₂.balance c = s.balance c) ↔
            ∀ c, balance c (receiverCreditLegs pg s x receiverUserId) = 0 := by
          apply forall_congr'
          intro c
          rw [hsecond, hfirst]
          omega
        rw [hsum, restored_afterwards hcredited]
        simp only [hknown, hdup, not_true_eq_false, false_and, true_and, false_or]
        omega
      · have hsum : (∀ c, s₂.balance c = s.balance c) ↔
            ∀ c, balance c (receiverCreditLegs pg s x receiverUserId) + balance c (compensationLegs y) = 0 := by
          apply forall_congr'
          intro c
          rw [hsecond, hfirst]
          omega
        rw [hsum, restored_late hy]
        simp only [hknown, hfresh, not_true_eq_false, false_and, and_false, or_false]
    · rcases hdone with ⟨hdup, hsecond⟩ | ⟨hfresh, hsecond⟩
      · have hsum : (∀ c, s₂.balance c = s.balance c) ↔
            ∀ c, balance c (settlementLegs pg x) +
              balance c (receiverCreditLegs pg s x receiverUserId) = 0 := by
          apply forall_congr'
          intro c
          rw [hsecond, hfirst]
          omega
        rw [hsum, restored_uncompensated]
        simp only [hnew, hdup, not_true_eq_false, false_and, and_false, or_false]
      · have hsum : (∀ c, s₂.balance c = s.balance c) ↔
            ∀ c, balance c (settlementLegs pg x) +
              balance c (receiverCreditLegs pg s x receiverUserId) + balance c (compensationLegs y) = 0 := by
          apply forall_congr'
          intro c
          rw [hsecond, hfirst]
          omega
        rw [hsum, restored_new hy hreceiver]
        simp only [hnew, hfresh, not_false_eq_true, true_and, false_and, or_false]
  · rintro e rfl c
    obtain ⟨n, rfl⟩ := withTransaction_throws hcompensated
    rfl

end

/-! ## one settlement with a fee, and one without -/

/-- alice has deposited five units and locked one -/
def lockedDb : Db :=
  (lockOfflinePayCollateral .numbered
    { userId := "alice", amount := 1000000, deviceId := "device-1", assetCode := "KORI"
      referenceId := "lock-1", policyVersion := 1, nowIso := "2026-01-01T00:00:02.000Z" }
    (applyDeposit .numbered
      { userId := "alice", amount := 5000000, txHash := "0xabc12345", toAddress := some "TAlice"
        walletAddress := none, blockNumber := 7, nowIso := "2026-01-01T00:00:00.000Z" } Db.empty).2).2

def settlementOf (releaseAction : ReleaseAction) : FinalizeInput where
  settlementId := "settlement-1"
  batchId := "batch-1"
  collateralId := "collateral-1"
  proofId := "proof-1"
  proofFingerprint := "print-1"
  userId := "alice"
  deviceId := "device-1"
  receiverUserId := none
  receiverDeviceId := none
  receiverWalletSettlementRequested := none
  assetCode := "KORI"
  amount := 1000000
  feeAmount := none
  settlementStatus := "SETTLED"
  releaseAction := releaseAction
  conflictDetected := false
  financiallyHonored := none
  newStateHash := "hash-1"
  previousHash := "hash-0"
  monotonicCounter := 1
  nonce := "nonce-1"
  signature := "sig-1"
  nowIso := "2026-01-01T00:00:03.000Z"

def compensationOf (releaseAction : ReleaseAction) : CompensateInput where
  settlementId := "settlement-1"
  batchId := "batch-1"
  collateralId := "collateral-1"
  proofId := "proof-1"
  proofFingerprint := "print-1"
  userId := "alice"
  deviceId := "device-1"
  assetCode := "KORI"
  amount := 1000000
  releaseAction := releaseAction
  compensationReason := "operator"
  nowIso := "2026-01-01T00:00:04.000Z"

theorem compensationOf_reverses (releaseAction : ReleaseAction) :
    (compensationOf releaseAction).Reverses (settlementOf releaseAction) := ⟨rfl, rfl, rfl, rfl⟩

/-- the two calls on `lockedDb` -/
def settledDb (releaseAction : ReleaseAction) : Except LedgerError OfflinePaySettlementFinalizeResult × Db :=
  finalizeOfflinePaySettlement .numbered (settlementOf releaseAction) lockedDb

def compensatedDb (releaseAction : ReleaseAction) : Except LedgerError OfflinePaySettlementFinalizeResult × Db :=
  compensateOfflinePaySettlement .numbered (compensationOf releaseAction) (settledDb releaseAction).2

/-- both calls go through, and the settlement posts -/
theorem example_calls (releaseAction : ReleaseAction) :
    ∃ r r', settledDb releaseAction = (.ok r, (settledDb releaseAction).2) ∧
      (settledDb releaseAction).2.postings ≠ lockedDb.postings ∧
      compensatedDb releaseAction = (.ok r', (compensatedDb releaseAction).2) := by
  have hrun : (settledDb releaseAction).1.toBool = true ∧
      (settledDb releaseAction).2.postings ≠ lockedDb.postings ∧
      (compensatedDb releaseAction).1.toBool = true := by
    cases releaseAction with
    | release => decide +kernel
    | adjust => decide +kernel
  obtain ⟨hsettled, hposted, hcompensated⟩ := hrun
  cases hs : (settledDb releaseAction).1 with
  | error e =>
    rw [hs] at hsettled
    cases hsettled
  | ok r =>
    cases hc : (compensatedDb releaseAction).1 with
    | error e =>
      rw [hc] at hcompensated
      cases hcompensated
    | ok r' => exact ⟨r, r', Prod.ext hs rfl, hposted, Prod.ext hc rfl⟩

theorem compensation_undoes_settlement_example :
    (Restored lockedDb (compensatedDb .adjust).2 ↔
      Compensable .numbered lockedDb (settlementOf .adjust)) ∧
    Compensable .numbered lockedDb (settlementOf .adjust) := by
  obtain ⟨r, r', hsettled, hposted, hcompensated⟩ := example_calls .adjust
  refine ⟨(compensation_undoes_settlement hsettled hposted (compensationOf_reverses .adjust)
    hcompensated).1 r' rfl, ?_⟩
  exact Or.inr (Or.inl ⟨by decide +kernel, by decide +kernel, Or.inl rfl⟩)

/-- after a release and its compensation the platform keeps the fee, out of the clearing account -/
theorem compensation_keeps_fee :
    ∃ r r', finalizeOfflinePaySettlement .numbered (settlementOf .release) lockedDb =
        (.ok r, (settledDb .release).2) ∧
      (settledDb .release).2.postings ≠ lockedDb.postings ∧
      compensateOfflinePaySettlement .numbered (compensationOf .release) (settledDb .release).2 =
        (.ok r', (compensatedDb .release).2) ∧
      (compensatedDb .release).2.balance .offlinePayFee = lockedDb.balance .offlinePayFee + 1000 ∧
      (compensatedDb .release).2.balance .offlinePayClearing =
        lockedDb.balance .offlinePayClearing - 1000 ∧
      ¬ Restored lockedDb (compensatedDb .release).2 := by
  obtain ⟨r, r', hsettled, hposted, hcompensated⟩ := example_calls .release
  have hfee : (compensatedDb .release).2.balance .offlinePayFee =
      lockedDb.balance .offlinePayFee + 1000 := by decide +kernel
  refine ⟨r, r', hsettled, hposted, hcompensated, hfee, by decide +kernel, fun h => ?_⟩
  rw [h .offlinePayFee] at hfee
  omega

end Postgres
