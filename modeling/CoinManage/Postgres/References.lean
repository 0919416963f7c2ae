import CoinManage.Postgres.Calls

/-!
# What the journals are known by

Every journal carries a reference, its type and an id.  The ledger's own operations write fixed types, an
external credit the type its caller names; so the journals under a type belong to one kind of call.

* `Call.referenceTypes`     the types a call may write;
* `Call.step_posts`         a call writes no journal of another type, whether it returns or throws;
* `Call.step_books_under`   the journals of another type stay as they are;
* `applyExternalCredit_under`   an external credit is journalled once under its reference.
-/

namespace Postgres

open DoubleEntry

/-- the types of the references a call may write -/
def Call.referenceTypes : Call → List String
  | .applyDeposit _ => ["deposit"]
  | .applyExternalCredit input => [cut 64 input.referenceType]
  | .transfer _ => ["transfer"]
  | .requestWithdrawal _ | .confirmWithdrawal _ _ _ | .failWithdrawal _ _ _ => ["withdrawal"]
  | .confirmSweep _ _ _ _ => ["sweep"]
  | .lockOfflinePayCollateral _ => ["offline_pay_lock"]
  | .releaseOfflinePayCollateral _ => ["offline_pay_release"]
  | .finalizeOfflinePaySettlement _ => ["offline_pay_settlement", "offline_pay_receiver_settlement"]
  | .compensateOfflinePaySettlement _ => ["offline_pay_settlement_compensation"]
  | .reconcileOfflinePayUserBalance _ => ["offline_pay_reconciliation"]
  | .reconcileOfflinePayPendingBalance _ => ["offline_pay_pending_reconciliation"]
  | .completeDeposit _ | .confirmWithdrawalExternalAuth _ _ _ _ | .markWithdrawalReviewRequired _ _
  | .approveWithdrawal _ _ _ | .broadcastWithdrawal _ _ _ | .createSweepRecord _ | .markSweepQueued _ _ _
  | .recordSweepAttempt _ _ _ | .markSweepBroadcasted _ _ _ _ | .failSweep _ _ _ | .upsertOfflinePayDevice _ => []

/-- journals were appended under these types at most -/
def Posts (types : List String) (s s' : Db) : Prop :=
  ∃ es, Posted s s' es ∧ ∀ e ∈ es, e.referenceType ∈ types

section
variable {pg : PgServer} {types : List String} {s s' : Db}

theorem Posts.refl (s : Db) : Posts types s s := ⟨[], Posted.refl s, fun _ h => by cases h⟩

theorem Posts.of_eq (hj : s'.ledgerJournals = s.ledgerJournals) (hp : s'.ledgerPostings = s.ledgerPostings) :
    Posts types s s' := ⟨[], Posted.of_eq hj hp, fun _ h => by cases h⟩

theorem Wrote.posts {es : List Entry} (h : Wrote s s' es) (hes : ∀ e ∈ es, e.referenceType ∈ types) :
    Posts types s s' := ⟨es, h.posted, hes⟩

theorem Wrote.posts_nothing (h : Wrote s s' []) : Posts types s s' := h.posts fun _ h => by cases h

theorem Wrote.posts_one {e : Entry} (h : Wrote s s' [e]) (he : e.referenceType ∈ types) : Posts types s s' := by
  apply h.posts
  intro e' he'
  rwa [List.mem_singleton.mp he']

/-- a call that throws has written no journal -/
theorem posts_of_returns {α : Type} {m : Op α} (hm : RollsBack m)
    (hreturns : ∀ a s', m s = (.ok a, s') → Posts types s s') : Posts types s (m s).2 := by
  rcases hrun : m s with ⟨e | a, s'⟩
  · obtain ⟨n, rfl⟩ := hm hrun
    exact Posts.of_eq rfl rfl
  · exact hreturns a s' hrun

theorem posts_of_transaction {α : Type} {work : Op α}
    (hreturns : ∀ a s', withTransaction work s = (.ok a, s') → Posts types s s') :
    Posts types s (withTransaction work s).2 := posts_of_returns (withTransaction_rollsBack work) hreturns

/-! ## outside of a transaction -/

/-- A journal that was begun stands under its reference, even when the call threw before its postings. -/
theorem appendJournal_keys (pg : PgServer) {input : JournalInput} {legs : List (Posting LedgerAccount ℤ)}
    (hlegs : input.postings = writeLegs legs) (s : Db) :
    (appendJournal pg input s).2.journalKeys = s.journalKeys ∨
    (appendJournal pg input s).2.journalKeys =
      s.journalKeys ++ [(cut 64 input.referenceType, cut 64 input.referenceId)] := by
  have hid : randomUUID pg s = (.ok (pg.uuid s.uuidsDrawn), { s with uuidsDrawn := s.uuidsDrawn + 1 }) := rfl
  rw [appendJournal, Method.bind_ok _ hid]
  rcases insertJournal_cases pg (pg.uuid s.uuidsDrawn) input { s with uuidsDrawn := s.uuidsDrawn + 1 } with
    ⟨e, he⟩ | ⟨row, hrow, -, hok⟩
  · rw [Method.bind_error _ he]
    exact Or.inl rfl
  · obtain ⟨-, htype, href, -⟩ := journalRow_ok hrow
    rw [Method.bind_ok _ hok]
    right
    have hkeys : ∀ {la : List LedgerAccountRow} {ps : List LedgerPostingRow} {n : Nat},
        ({ s with ledgerAccounts := la, ledgerJournals := s.ledgerJournals ++ [row], ledgerPostings := ps
                  uuidsDrawn := n } : Db).journalKeys =
          s.journalKeys ++ [(cut 64 input.referenceType, cut 64 input.referenceId)] := by
      intro la ps n
      show (s.ledgerJournals ++ [row]).map (fun row => (row.referenceType, row.referenceId)) = _
      rw [List.map_append, List.map_singleton, htype, href]
      rfl
    obtain ⟨la, hla⟩ := ensureLedgerAccounts_apply pg input.currency input.nowIso input.postings
      { s with uuidsDrawn := s.uuidsDrawn + 1, ledgerJournals := s.ledgerJournals ++ [row] }
    rcases hens : ensureLedgerAccounts pg input.currency input.nowIso input.postings
      { s with uuidsDrawn := s.uuidsDrawn + 1, ledgerJournals := s.ledgerJournals ++ [row] } with ⟨e | u, s₂⟩
    · rw [hens] at hla
      replace hla : s₂ = _ := hla
      rw [Method.bind_error _ hens, hla]
      exact hkeys
    · rw [hens] at hla
      replace hla : s₂ = _ := hla
      subst hla
      rw [Method.bind_ok _ hens, hlegs]
      rcases insertPostings_cases pg (pg.uuid s.uuidsDrawn) input.nowIso legs
        { s with uuidsDrawn := s.uuidsDrawn + 1, ledgerJournals := s.ledgerJournals ++ [row], ledgerAccounts := la }
        with ⟨e, n, he⟩ | ⟨rows, n, -, -, hok'⟩
      · rw [he]
        exact hkeys
      · rw [hok']
        exact hkeys

theorem recordSweepFee_keys (pg : PgServer) (sweepId : String) (txHash : Option String)
    (networkFee : Option NetworkFee) (nowIso : String) (s : Db) :
    ∃ ks, (recordSweepFee pg sweepId txHash networkFee nowIso s).2.journalKeys = s.journalKeys ++ ks ∧
      ∀ k ∈ ks, k.1 = "sweep" := by
  have hquiet : ∀ s' : Db, s'.ledgerJournals = s.ledgerJournals →
      ∃ ks, s'.journalKeys = s.journalKeys ++ ks ∧ ∀ k ∈ ks, k.1 = "sweep" := by
    intro s' hs'
    refine ⟨[], ?_, fun _ h => by cases h⟩
    rw [Db.journalKeys, hs', List.append_nil, Db.journalKeys]
  unfold recordSweepFee
  cases networkFee with
  | none => exact hquiet s rfl
  | some fee =>
    cases truthy txHash with
    | none => exact hquiet s rfl
    | some hash =>
      simp only
      have hpersist := persistNetworkFeeReceipt_writes pg .sweep sweepId fee nowIso s
      rcases hp : persistNetworkFeeReceipt pg .sweep sweepId fee nowIso s with ⟨e | u, s₁⟩
      · rw [hp] at hpersist
        obtain ⟨receipts, n, hs₁⟩ := hpersist
        replace hs₁ : s₁ = _ := hs₁
        rw [Method.bind_error _ hp]
        exact hquiet s₁ (by rw [hs₁])
      · rw [hp] at hpersist
        obtain ⟨receipts, n, hs₁⟩ := hpersist
        replace hs₁ : s₁ = _ := hs₁
        have hsame : s₁.journalKeys = s.journalKeys := by
          rw [hs₁]
          rfl
        rw [Method.bind_ok _ hp, ← hsame]
        have hlegs : (sweepFeeJournal sweepId hash fee nowIso).postings = writeLegs (sweepFeeLegs fee) := rfl
        rcases appendJournal_keys pg hlegs s₁ with hkeys | hkeys
        · exact ⟨[], by rw [hkeys, List.append_nil], fun _ h => by cases h⟩
        · refine ⟨_, hkeys, fun k hk => ?_⟩
          rw [List.mem_singleton.mp hk]
          show cut 64 "sweep" = "sweep"
          exact cut_of_length_le (by decide)

theorem confirmSweep_keys (pg : PgServer) (sweepId : String) (note : Option String)
    (networkFee : Option NetworkFee) (nowIso : String) (s : Db) :
    ∃ ks, (confirmSweep pg sweepId note networkFee nowIso s).2.journalKeys = s.journalKeys ++ ks ∧
      ∀ k ∈ ks, k.1 = "sweep" := by
  unfold confirmSweep
  generalize hchange : (fun row : SweepRecordRow => _) = change
  have hstep := stepSweep_writes pg sweepId [.planned, .broadcasted] "sweep must be planned or broadcasted"
    change s
  rcases hp : stepSweep pg sweepId [.planned, .broadcasted] "sweep must be planned or broadcasted"
    change s with ⟨e | row, s₁⟩
  · rw [hp] at hstep
    obtain ⟨rows, hs₁⟩ := hstep
    replace hs₁ : s₁ = _ := hs₁
    have hsame : s₁.journalKeys = s.journalKeys := by
      rw [hs₁]
      rfl
    rw [Method.bind_error _ hp]
    exact ⟨[], by rw [hsame, List.append_nil], fun _ h => by cases h⟩
  · rw [hp] at hstep
    obtain ⟨rows, hs₁⟩ := hstep
    replace hs₁ : s₁ = _ := hs₁
    have hsame : s₁.journalKeys = s.journalKeys := by
      rw [hs₁]
      rfl
    have hresult : ((recordSweepFee pg sweepId row.txHash networkFee nowIso >>= fun _ => pure row) s₁).2 =
        (recordSweepFee pg sweepId row.txHash networkFee nowIso s₁).2 := by
      rw [Method.bind_apply]
      rcases recordSweepFee pg sweepId row.txHash networkFee nowIso s₁ with ⟨e | u, s₂⟩
      · rfl
      · rfl
    rw [Method.bind_ok _ hp, hresult, ← hsame]
    exact recordSweepFee_keys pg sweepId row.txHash networkFee nowIso s₁

/-- what is known of the keys is known of the journals -/
theorem Posted.typed {es : List Entry} {ks : List (String × String)} {t : String} (h : Posted s s' es)
    (hkeys : s'.journalKeys = s.journalKeys ++ ks) (hks : ∀ k ∈ ks, k.1 = t) : ∀ e ∈ es, e.referenceType = t := by
  rw [h.keys] at hkeys
  have hsame : es.map Entry.key = ks := List.append_cancel_left hkeys
  intro e he
  have hmem : e.key ∈ ks := by
    rw [← hsame]
    exact List.mem_map_of_mem he
  exact hks e.key hmem

/-! ## calls -/

theorem posts_stepSweep (pg : PgServer) (sweepId : String) (sources : List SweepStatus) (message : String)
    (change : SweepRecordRow → Except LedgerError SweepRecordRow) :
    Posts types s (stepSweep pg sweepId sources message change s).2 := by
  obtain ⟨rows, hrows⟩ := stepSweep_writes pg sweepId sources message change s
  rw [hrows]
  exact Posts.of_eq rfl rfl

theorem receiverEntries_types (pg : PgServer) (s : Db) (input : FinalizeInput) (receiver : Option String) :
    ∀ e ∈ receiverEntries pg s input receiver, e.referenceType = "offline_pay_receiver_settlement" := by
  intro e he
  unfold receiverEntries at he
  obtain ⟨v, -, rfl⟩ := List.mem_map.mp he
  show cut 64 "offline_pay_receiver_settlement" = _
  exact cut_of_length_le (by decide)

/-- **a call writes no journal of another type** -/
theorem Call.step_posts (pg : PgServer) (limits : WithdrawalLimitConfig) (c : Call) (s : Db) :
    Posts c.referenceTypes s (c.step pg limits s) := by
  cases c with
  | applyDeposit input =>
    refine posts_of_transaction fun r s' h => ?_
    rcases applyDeposit_ok h with ⟨-, -, -, -, -, rfl⟩ | h
    · exact Posts.refl _
    · obtain ⟨-, -, -, ⟨depositId, hwrote⟩, -⟩ := applyNewDeposit_ok h
      exact hwrote.posts_one (show cut 64 "deposit" ∈ ["deposit"] by decide)
  | completeDeposit depositId =>
    obtain ⟨rows, hrows, -⟩ := completeDeposit_writes pg depositId s
    show Posts _ s (Postgres.completeDeposit pg depositId s).2
    rw [hrows]
    exact Posts.of_eq rfl rfl
  | applyExternalCredit input =>
    refine posts_of_returns (rollsBack_after_check (rollsBack_after_check (withTransaction_rollsBack _))) ?_
    intro r s' h
    obtain ⟨-, -, ⟨-, -, rfl⟩ | ⟨-, h⟩⟩ := applyExternalCredit_ok h
    · exact Posts.refl _
    · obtain ⟨-, -, -, hwrote⟩ := applyNewExternalCredit_ok h
      exact hwrote.posts_one List.mem_cons_self
  | transfer input =>
    refine posts_of_returns (rollsBack_after_check (withTransaction_rollsBack _)) fun r s' h => ?_
    obtain ⟨-, ⟨-, -, -, -, -, -, -, rfl⟩ | ⟨-, h⟩⟩ := transfer_ok h
    · exact Posts.refl _
    · obtain ⟨-, -, -, -, hwrote, -⟩ := transferNew_ok h
      exact hwrote.posts_one (show cut 64 "transfer" ∈ ["transfer"] by decide)
  | requestWithdrawal input =>
    refine posts_of_returns (rollsBack_after_check (withTransaction_rollsBack _)) fun r s' h => ?_
    rcases requestWithdrawal_ok h with ⟨-, -, -, -, -, rfl⟩ | h
    · exact Posts.refl _
    · obtain ⟨-, -, -, ⟨withdrawalId, hwrote⟩, -⟩ := requestNewWithdrawal_ok h
      exact hwrote.posts_one (show cut 64 "withdrawal" ∈ ["withdrawal"] by decide)
  | confirmWithdrawalExternalAuth withdrawalId provider requestId nowIso =>
    refine posts_of_transaction fun _ _ h => ?_
    obtain ⟨-, -, hwrote⟩ := confirmWithdrawalExternalAuth_ok h
    exact hwrote.posts_nothing
  | markWithdrawalReviewRequired withdrawalId nowIso =>
    refine posts_of_transaction fun _ _ h => ?_
    obtain ⟨-, -, hwrote⟩ := markWithdrawalReviewRequired_ok h
    exact hwrote.posts_nothing
  | approveWithdrawal withdrawalId input nowIso =>
    refine posts_of_transaction fun _ _ h => ?_
    obtain ⟨-, -, hwrote⟩ := approveWithdrawal_ok h
    exact hwrote.posts_nothing
  | broadcastWithdrawal withdrawalId txHash nowIso =>
    refine posts_of_transaction fun _ _ h => ?_
    obtain ⟨-, -, hwrote⟩ := broadcastWithdrawal_ok h
    exact hwrote.posts_nothing
  | confirmWithdrawal withdrawalId networkFee nowIso =>
    refine posts_of_transaction fun _ _ h => ?_
    obtain ⟨row, mapped, fees, -, -, -, -, -, hfee, -, hwrote, -⟩ := confirmWithdrawal_ok h
    apply hwrote.posts
    intro e he
    rcases List.mem_cons.mp he with rfl | he
    · show cut 64 "withdrawal" ∈ ["withdrawal"]
      decide
    · rcases hfee with rfl | ⟨fee, hash, -, rfl⟩
      · cases he
      · rw [List.mem_singleton.mp he]
        show cut 64 "withdrawal" ∈ ["withdrawal"]
        decide
  | failWithdrawal withdrawalId reason nowIso =>
    refine posts_of_transaction fun _ _ h => ?_
    obtain ⟨row, mapped, -, -, -, -, -, -, hwrote, -⟩ := failWithdrawal_ok h
    exact hwrote.posts_one (show cut 64 "withdrawal" ∈ ["withdrawal"] by decide)
  | createSweepRecord input =>
    refine posts_of_transaction fun _ _ h => ?_
    obtain ⟨rows, n, rfl⟩ := createSweepRecord_ok h
    exact Posts.of_eq rfl rfl
  | markSweepQueued => exact posts_stepSweep pg _ _ _ _
  | recordSweepAttempt => exact posts_stepSweep pg _ _ _ _
  | markSweepBroadcasted => exact posts_stepSweep pg _ _ _ _
  | failSweep => exact posts_stepSweep pg _ _ _ _
  | confirmSweep sweepId note networkFee nowIso =>
    obtain ⟨-, -, es, hwrote, -⟩ := confirmSweep_writes pg sweepId note networkFee nowIso s
    obtain ⟨ks, hkeys, hks⟩ := confirmSweep_keys pg sweepId note networkFee nowIso s
    refine hwrote.posts fun e he => ?_
    rw [hwrote.posted.typed hkeys hks e he]
    exact List.mem_cons_self
  | lockOfflinePayCollateral input =>
    refine posts_of_transaction fun _ _ h => ?_
    rcases lockOfflinePayCollateral_ok h with ⟨-, -, rfl⟩ | ⟨-, h⟩
    · exact Posts.refl _
    · obtain ⟨-, -, -, hwrote, -⟩ := lockNewCollateral_ok h
      exact hwrote.posts_one (show cut 64 "offline_pay_lock" ∈ ["offline_pay_lock"] by decide)
  | releaseOfflinePayCollateral input =>
    refine posts_of_transaction fun _ _ h => ?_
    rcases releaseOfflinePayCollateral_ok h with ⟨-, -, rfl⟩ | ⟨-, h⟩
    · exact Posts.refl _
    · obtain ⟨-, -, -, hwrote, -⟩ := releaseNewCollateral_ok h
      exact hwrote.posts_one (show cut 64 "offline_pay_release" ∈ ["offline_pay_release"] by decide)
  | finalizeOfflinePaySettlement input =>
    refine posts_of_transaction fun _ _ h => ?_
    obtain ⟨-, -, receiver, -, ⟨-, -, hwrote⟩ | ⟨-, -, -, hwrote⟩⟩ := finalizeOfflinePaySettlement_ok h
    · refine hwrote.posts fun e he => ?_
      rw [receiverEntries_types pg s input receiver e he]
      exact List.mem_cons_of_mem _ List.mem_cons_self
    · refine hwrote.posts fun e he => ?_
      rcases List.mem_cons.mp he with rfl | he
      · show cut 64 "offline_pay_settlement" ∈ ["offline_pay_settlement", "offline_pay_receiver_settlement"]
        decide
      · rw [receiverEntries_types pg s input receiver e he]
        exact List.mem_cons_of_mem _ List.mem_cons_self
  | compensateOfflinePaySettlement input =>
    refine posts_of_transaction fun _ _ h => ?_
    rcases compensateOfflinePaySettlement_ok h with ⟨-, -, rfl⟩ | ⟨-, h⟩
    · exact Posts.refl _
    · obtain ⟨-, -, -, hwrote⟩ := compensateNew_ok h
      exact hwrote.posts_one (show cut 64 "offline_pay_settlement_compensation" ∈ ["offline_pay_settlement_compensation"] by decide)
  | upsertOfflinePayDevice input =>
    obtain ⟨devices, hdevices⟩ := upsertOfflinePayDevice_writes input s
    show Posts _ s (Postgres.upsertOfflinePayDevice input s).2
    rw [hdevices]
    exact Posts.of_eq rfl rfl
  | reconcileOfflinePayUserBalance input =>
    refine posts_of_transaction fun _ _ h => ?_
    obtain ⟨-, -, hquiet | ⟨delta, -, hwrote⟩⟩ := reconcileOfflinePayUserBalance_ok h
    · exact hquiet.posts_nothing
    · exact hwrote.posts_one (show cut 64 "offline_pay_reconciliation" ∈ ["offline_pay_reconciliation"] by decide)
  | reconcileOfflinePayPendingBalance input =>
    refine posts_of_transaction fun _ _ h => ?_
    obtain ⟨-, -, hquiet | ⟨delta, -, hwrote⟩⟩ := reconcileOfflinePayPendingBalance_ok h
    · exact hquiet.posts_nothing
    · exact hwrote.posts_one (show cut 64 "offline_pay_pending_reconciliation" ∈ ["offline_pay_pending_reconciliation"] by decide)

/-- the journals under a reference -/
def Db.under (s : Db) (reference : String × String) : List Entry := s.books.filter fun e => e.key = reference

theorem Posted.under {es : List Entry} (h : Posted s s' es) (hs : s.JournalsSound) (reference : String × String) :
    s'.under reference = s.under reference ++ es.filter fun e => e.key = reference := by
  rw [Db.under, h.books hs, List.filter_append]
  rfl

theorem mem_journalKeys_iff {reference : String × String} : reference ∈ s.journalKeys ↔ s.under reference ≠ [] := by
  have hkeys : s.journalKeys = s.books.map Entry.key := by
    rw [Db.journalKeys, Db.books, List.map_map]
    rfl
  rw [hkeys]
  constructor
  · intro h
    obtain ⟨e, he, hkey⟩ := List.mem_map.mp h
    exact List.ne_nil_of_mem (List.mem_filter.mpr ⟨he, decide_eq_true hkey⟩)
  · intro h
    obtain ⟨e, he⟩ := List.exists_mem_of_ne_nil _ h
    obtain ⟨hmem, hkey⟩ := List.mem_filter.mp he
    exact List.mem_map.mpr ⟨e, hmem, of_decide_eq_true hkey⟩

/-- the journals of another type stay as they are -/
theorem Call.step_books_under (pg : PgServer) (limits : WithdrawalLimitConfig) {c : Call} (hs : s.JournalsSound)
    {reference : String × String} (htype : reference.1 ∉ c.referenceTypes) :
    (c.step pg limits s).JournalsSound ∧ (c.step pg limits s).under reference = s.under reference := by
  obtain ⟨es, hposted, htypes⟩ := c.step_posts pg limits s
  refine ⟨hposted.sound hs, ?_⟩
  rw [hposted.under hs, List.filter_eq_nil_iff.mpr, List.append_nil]
  intro e he hkey
  have hkey' : e.key = reference := of_decide_eq_true hkey
  rw [← hkey'] at htype
  exact htype (htypes e he)

/-- the journal of an external credit -/
def externalCreditEntry (input : ExternalCreditInput) : Entry where
  referenceType := input.referenceType
  referenceId := input.referenceId
  currencyCode := "KORI"
  legs := mapAccounts LedgerAccount.code (creditLegs input)

/-- What an external credit does to the journals: it adds its own when its reference is free, and when it returns
there is one. -/
theorem applyExternalCredit_under (pg : PgServer) {input : ExternalCreditInput} (hs : s.JournalsSound)
    (htype : input.referenceType.length ≤ 64) (hid : input.referenceId.length ≤ 64) :
    (applyExternalCredit pg input s).2.JournalsSound ∧
    (∀ reference, reference ≠ (input.referenceType, input.referenceId) →
      (applyExternalCredit pg input s).2.under reference = s.under reference) ∧
    ((applyExternalCredit pg input s).2.under (input.referenceType, input.referenceId) =
        s.under (input.referenceType, input.referenceId) ∨
      s.under (input.referenceType, input.referenceId) = [] ∧
        (applyExternalCredit pg input s).2.under (input.referenceType, input.referenceId) =
          [externalCreditEntry input]) ∧
    ∀ r, (applyExternalCredit pg input s).1 = .ok r → 0 < input.amount ∧
      (applyExternalCredit pg input s).2.under (input.referenceType, input.referenceId) ≠ [] := by
  rcases hrun : applyExternalCredit pg input s with ⟨e | r, s'⟩
  · obtain ⟨n, rfl⟩ := rollsBack_after_check (rollsBack_after_check (withTransaction_rollsBack _)) hrun
    refine ⟨⟨hs.distinct, hs.owned⟩, fun _ _ => rfl, Or.inl rfl, ?_⟩
    intro r h
    cases h
  · obtain ⟨hamount, -, hcases⟩ := applyExternalCredit_ok hrun
    rcases hcases with ⟨hkey, -, rfl⟩ | ⟨hfree, hnew⟩
    · exact ⟨hs, fun _ _ => rfl, Or.inl rfl, fun _ _ => ⟨hamount, mem_journalKeys_iff.mp hkey⟩⟩
    · obtain ⟨-, -, -, hwrote⟩ := applyNewExternalCredit_ok hnew
      have hentry : (externalCreditJournal input "KORI").entry (creditLegs input) = externalCreditEntry input := by
        show (⟨cut 64 input.referenceType, cut 64 input.referenceId, cut 16 "KORI", _⟩ : Entry) = _
        rw [cut_of_length_le htype, cut_of_length_le hid, cut_of_length_le (by decide)]
        rfl
      rw [hentry] at hwrote
      have hunder := fun reference => hwrote.posted.under hs reference
      have hnone : s.under (input.referenceType, input.referenceId) = [] :=
        not_not.mp fun hne => hfree (mem_journalKeys_iff.mpr hne)
      have hself : (externalCreditEntry input).key = (input.referenceType, input.referenceId) := rfl
      have hown : s'.under (input.referenceType, input.referenceId) = [externalCreditEntry input] := by
        have hkept : ∀ e ∈ [externalCreditEntry input],
            decide (e.key = (input.referenceType, input.referenceId)) = true := by
          intro e he
          rw [List.mem_singleton.mp he, hself]
          exact decide_eq_true rfl
        rw [hunder, hnone, List.nil_append, List.filter_eq_self.mpr hkept]
      refine ⟨hwrote.posted.sound hs, ?_, Or.inr ⟨hnone, hown⟩, fun _ _ => ⟨hamount, ?_⟩⟩
      · intro reference hne
        rw [hunder, List.filter_eq_nil_iff.mpr, List.append_nil]
        intro e he heq
        rw [List.mem_singleton.mp he] at heq
        exact hne ((of_decide_eq_true heq).symm.trans hself)
      · rw [hown]
        exact List.cons_ne_nil _ _

end

end Postgres
