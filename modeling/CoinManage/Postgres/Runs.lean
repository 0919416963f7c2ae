import CoinManage.Postgres.Calls

/-!
# Runs of the Postgres repository

Runs start from the empty tables and mix calls that return with calls that roll back.

* `run_journals_balance`      every journal balances, with the amounts the operations were given;
* `run_standing`              reserves, deposits, payouts and the money of all users agree with the
                              postings;
* `run_nonNegativeIn`         a bucket stays non-negative along calls that are covered in it.
-/

namespace Postgres

open DoubleEntry

section
variable {pg : PgServer} {limits : WithdrawalLimitConfig} {s s' : Db} {es : List Event}

/-! ## what holds after every run -/

theorem sound_empty : Db.empty.Sound where
  copies := ⟨fun _ h => (by cases h), List.nodup_nil, fun _ h => (by cases h), fun u _ ⟨p, hp, _⟩ => (by cases hp), fun _ h => (by cases h)⟩
  distinct := List.nodup_nil
  amounts _ h := by cases h
  holders _ h := by cases h

theorem journalsSound_empty : Db.empty.JournalsSound := ⟨List.nodup_nil, fun _ h => (by cases h)⟩

theorem run_sound {calls : List Call} (h : ∀ c ∈ calls, ∀ x ∈ c.amounts, 0 ≤ x) :
    (runCalls (Call.step pg limits) calls Db.empty).Sound := by
  refine @run_invariant _ _ (Call.step pg limits) (fun c => ∀ x ∈ c.amounts, 0 ≤ x) Db.Sound ?_ _ h _
    sound_empty
  intro c s hc hs
  obtain ⟨es, -, hhappened⟩ := Call.step_happened pg limits hs hc
  exact hhappened.sound

/-! ## every journal balances -/

/-- the integer amounts a call posts -/
def Call.postedAmounts (pg : PgServer) (s : Db) : Call → List ℤ
  | .confirmWithdrawal withdrawalId networkFee _ =>
    ((s.withdrawals.filter fun row => uuid pg withdrawalId = .ok row.withdrawId).map
      (·.amount.units)) ++ (networkFee.map (·.feeSun)).toList
  | .failWithdrawal withdrawalId _ _ =>
    (s.withdrawals.filter fun row => uuid pg withdrawalId = .ok row.withdrawId).map (·.amount.units)
  | .finalizeOfflinePaySettlement input =>
    [input.amount, settlementFee pg input, input.amount - settlementFee pg input]
  | .reconcileOfflinePayUserBalance input =>
    [|input.target - (s.available input.userId +
      (s.withdrawPending input.userId + s.offlinePayPending input.userId))|]
  | .reconcileOfflinePayPendingBalance input => [|input.target - s.offlinePayPending input.userId|]
  | c => c.amounts

theorem mem_move {a b : LedgerAccount} {x : ℤ} {leg : Posting LedgerAccount ℤ}
    (h : leg ∈ move a b x) : leg.amount = x := by
  rcases List.mem_cons.mp h with rfl | h
  · rfl
  · rw [List.mem_singleton.mp h]

theorem mem_reconciliationLegs {a : LedgerAccount} {delta : ℤ} {leg : Posting LedgerAccount ℤ}
    (h : leg ∈ reconciliationLegs a delta) : leg.amount = |delta| := by
  unfold reconciliationLegs at h
  split at h
  · exact mem_move h
  · exact mem_move h

theorem mem_settled {u : String} {x fee : ℤ} {leg : Posting LedgerAccount ℤ}
    (h : leg ∈ (Event.settled u x fee).legs) :
    leg.amount = x ∨ leg.amount = x - fee ∨ leg.amount = fee := by
  rcases List.mem_append.mp h with h | h
  · rcases List.mem_cons.mp h with rfl | h
    · exact Or.inl rfl
    · rw [List.mem_singleton.mp h]
      exact Or.inr (Or.inl rfl)
  · split at h
    · rw [List.mem_singleton.mp h]
      exact Or.inr (Or.inr rfl)
    · cases h

/-- amounts of a well-formed event's journal are not negative -/
theorem Event.legs_nonneg {e : Event} (he : e.WellFormed) : ∀ leg ∈ e.legs, 0 ≤ leg.amount := by
  intro leg hleg
  cases e with
  | settled u x fee =>
    obtain ⟨hfee, hle⟩ := he
    rcases mem_settled hleg with h | h | h
    · rw [h]
      omega
    · rw [h]
      omega
    · rw [h]
      exact hfee
  | reconciled u delta =>
    rw [mem_reconciliationLegs hleg]
    exact abs_nonneg delta
  | pendingReconciled u delta =>
    rw [mem_reconciliationLegs hleg]
    exact abs_nonneg delta
  | _ =>
    rw [mem_move hleg]
    exact he

/-- what the events of a call post are the call's amounts -/
theorem Does.postedAmounts {c : Call} (h : Does pg s c es) (hc : ∀ x ∈ c.amounts, 0 ≤ x) :
    ∀ e ∈ es, ∀ leg ∈ e.legs, leg.amount ∈ c.postedAmounts pg s := by
  cases h with
  | nothing => exact fun _ h => (by cases h)
  | complete withdrawalId networkFee nowIso row fees hid hrow _ hfees =>
    have hmem : row.amount.units ∈ (s.withdrawals.filter fun row =>
        uuid pg withdrawalId = .ok row.withdrawId).map (·.amount.units) :=
      List.mem_map_of_mem (List.mem_filter.mpr ⟨hrow, decide_eq_true hid⟩)
    intro e he leg hleg
    rcases List.mem_cons.mp he with rfl | he
    · rw [mem_move hleg]
      exact List.mem_append_left _ hmem
    · rcases hfees with rfl | ⟨fee, rfl, rfl⟩
      · cases he
      · rw [List.mem_singleton.mp he] at hleg
        rw [mem_move hleg]
        exact List.mem_append_right _ (List.mem_singleton_self _)
  | fail withdrawalId reason nowIso row hid hrow =>
    have hmem : row.amount.units ∈ (s.withdrawals.filter fun row =>
        uuid pg withdrawalId = .ok row.withdrawId).map (·.amount.units) :=
      List.mem_map_of_mem (List.mem_filter.mpr ⟨hrow, decide_eq_true hid⟩)
    intro e he leg hleg
    rw [List.mem_singleton.mp he] at hleg
    rw [mem_move hleg]
    exact hmem
  | settle input receiver =>
    have hcredit := receiverCreditAmount_eq pg input (hc _ (by simp [Call.amounts]))
    intro e he leg hleg
    rcases List.mem_cons.mp he with rfl | he
    · rcases mem_settled hleg with h | h | h
      · simp [Call.postedAmounts, h]
      · simp [Call.postedAmounts, h]
      · simp [Call.postedAmounts, h]
    · obtain ⟨v, -, rfl⟩ := List.mem_map.mp he
      rw [mem_move hleg, hcredit]
      simp [Call.postedAmounts]
  | adjust input =>
    intro e he leg hleg
    rw [List.mem_singleton.mp he] at hleg
    rw [mem_move hleg]
    simp [Call.postedAmounts]
  | creditReceiver input receiver =>
    have hcredit := receiverCreditAmount_eq pg input (hc _ (by simp [Call.amounts]))
    intro e he leg hleg
    rw [List.mem_singleton.mp he] at hleg
    rw [mem_move hleg, hcredit]
    simp [Call.postedAmounts]
  | reconcile input =>
    intro e he leg hleg
    rw [List.mem_singleton.mp he] at hleg
    rw [mem_reconciliationLegs hleg]
    exact List.mem_singleton_self _
  | reconcilePending input =>
    intro e he leg hleg
    rw [List.mem_singleton.mp he] at hleg
    rw [mem_reconciliationLegs hleg]
    exact List.mem_singleton_self _
  | _ =>
    intro e he leg hleg
    rw [List.mem_singleton.mp he] at hleg
    rw [mem_move hleg]
    exact List.mem_singleton_self _

/-- A journal is right: it balances, and no amount is negative. -/
def Entry.Right (entry : Entry) : Prop :=
  DoubleEntry.Balanced entry.legs ∧ ∀ p ∈ entry.legs, 0 ≤ p.amount

variable (pg limits) in
/-- the journals a call appends are right and post its amounts -/
theorem Call.step_balances {c : Call} (hs : s.Sound) (hj : s.JournalsSound)
    (hc : ∀ x ∈ c.amounts, 0 ≤ x) :
    (c.step pg limits s).JournalsSound ∧
    ∃ entries, (c.step pg limits s).books = s.books ++ entries ∧
      (c.step pg limits s).postings = s.postings ++ entries.flatMap Entry.legs ∧
      ∀ entry ∈ entries, entry.Right ∧ ∀ p ∈ entry.legs, p.amount ∈ c.postedAmounts pg s := by
  obtain ⟨es, hdoes, ⟨entries, hwrote, heach, -⟩, -, -⟩ :=
    Call.step_happened pg limits hs hc
  have hwell := hdoes.wellFormed hs hc
  have hposted := hdoes.postedAmounts hc
  refine ⟨hwrote.posted.sound hj, entries, hwrote.posted.books hj, hwrote.posted.postings, ?_⟩
  intro entry hentry
  rcases heach entry hentry with hnone | ⟨e, he, hlegs⟩
  · rw [Entry.Right, hnone]
    exact ⟨⟨Balanced.nil, fun _ h => (by cases h)⟩, fun _ h => (by cases h)⟩
  · rw [Entry.Right, hlegs, balanced_mapAccounts]
    refine ⟨⟨Event.legs_balanced (hwell e he), fun p hp => ?_⟩, fun p hp => ?_⟩
    · obtain ⟨leg, hleg, rfl⟩ := List.mem_map.mp hp
      exact Event.legs_nonneg (hwell e he) leg hleg
    · obtain ⟨leg, hleg, rfl⟩ := List.mem_map.mp hp
      exact hposted e he leg hleg

variable (pg limits) in
theorem run_books {calls : List Call} (h : ∀ c ∈ calls, ∀ x ∈ c.amounts, 0 ≤ x) :
    let s := runCalls (Call.step pg limits) calls Db.empty
    s.JournalsSound ∧ ∀ entry ∈ s.books, entry.Right := by
  have hrun := @run_invariant _ _ (Call.step pg limits) (fun c => ∀ x ∈ c.amounts, 0 ≤ x)
    (fun s => s.Sound ∧ s.JournalsSound ∧ ∀ entry ∈ s.books, entry.Right) ?_ _ h Db.empty
    ⟨sound_empty, journalsSound_empty, fun _ h => (by cases h)⟩
  · exact hrun.2
  · rintro c s hc ⟨hs, hj, hright⟩
    obtain ⟨es, -, hhappened⟩ := Call.step_happened pg limits hs hc
    obtain ⟨hj', entries, hbooks, -, hentries⟩ := Call.step_balances pg limits hs hj hc
    refine ⟨hhappened.sound, hj', ?_⟩
    intro entry hentry
    rw [hbooks] at hentry
    rcases List.mem_append.mp hentry with hold | hnew
    · exact hright entry hold
    · exact (hentries entry hnew).1

/-- everything posted in one currency -/
def Db.postingsIn (s : Db) (currencyCode : String) : List (Posting String ℤ) :=
  (s.books.filter fun entry => entry.currencyCode = currencyCode).flatMap Entry.legs

/-- the rows of postings a call has inserted -/
def newPostings (s s' : Db) : List LedgerPostingRow := s'.ledgerPostings.drop s.ledgerPostings.length

/-- After every run: each journal's debits are its credits and no amount is negative; in each
currency the debits are the credits; and every posting a call of the run inserts holds, when its
text is read back, one of the amounts the call was given.  The fee of a settlement lies between
zero and its amount. -/
theorem run_journals_balance (pg : PgServer) (limits : WithdrawalLimitConfig) (calls : List Call)
    (h : ∀ c ∈ calls, ∀ x ∈ c.amounts, 0 ≤ x) :
    let run := fun calls => runCalls (Call.step pg limits) calls Db.empty
    (∀ entry ∈ (run calls).books, total .debit entry.legs = total .credit entry.legs ∧
      ∀ p ∈ entry.legs, 0 ≤ p.amount) ∧
    (∀ currencyCode, total .debit ((run calls).postingsIn currencyCode) =
      total .credit ((run calls).postingsIn currencyCode)) ∧
    (∀ before c after, calls = before ++ c :: after →
      ∀ row ∈ newPostings (run before) (run (before ++ [c])),
        ∃ x ∈ c.postedAmounts pg (run before), 0 ≤ x ∧
          parseStoredKoriAmount row.amount.text = .ok x) ∧
    (∀ input, .finalizeOfflinePaySettlement input ∈ calls →
      0 ≤ settlementFee pg input ∧ settlementFee pg input ≤ input.amount) := by
  intro run
  obtain ⟨hj, hright⟩ := run_books pg limits h
  refine ⟨hright, fun currencyCode => ?_, ?_, fun input hmem => ?_⟩
  · refine Balanced.flatMap fun entry hentry => ?_
    exact (hright entry (List.mem_of_mem_filter hentry)).1
  · intro before c after hcalls row hrow
    subst hcalls
    have hbefore : ∀ c ∈ before, ∀ x ∈ c.amounts, 0 ≤ x := fun c hc =>
      h c (List.mem_append_left _ hc)
    have hc : ∀ x ∈ c.amounts, 0 ≤ x := h c (List.mem_append_right _ List.mem_cons_self)
    have hs : (run before).Sound := run_sound hbefore
    obtain ⟨-, entries, -, hpostings, hentries⟩ := Call.step_balances pg limits hs
      (run_books pg limits hbefore).1 hc
    have hstep : run (before ++ [c]) = c.step pg limits (run before) := runCalls_append _ _ _ _
    rw [hstep] at hrow
    have hnew : row.toPosting ∈ entries.flatMap Entry.legs := by
      have hmem := List.mem_map_of_mem (f := LedgerPostingRow.toPosting) hrow
      have hlen : (run before).ledgerPostings.length = (run before).postings.length :=
        (List.length_map _).symm
      rw [newPostings, List.map_drop, hlen] at hmem
      have hdrop : (c.step pg limits (run before)).postings.drop (run before).postings.length =
          entries.flatMap Entry.legs := by
        rw [hpostings, List.drop_left]
      rwa [← hdrop]
    obtain ⟨entry, hentry, hp⟩ := List.mem_flatMap.mp hnew
    obtain ⟨⟨-, hpos⟩, hamounts⟩ := hentries entry hentry
    exact ⟨row.amount.units, hamounts _ hp, hpos _ hp, parse_text row.amount⟩
  · exact settlementFee_bounds pg input (h _ hmem _ (by simp [Call.amounts]))

/-- alice deposits, reserves a withdrawal, and pays bob out of collateral she locked -/
def exampleCalls : List Call :=
  [.applyDeposit
    { userId := "alice", amount := 5000000, txHash := "0xabc12345", toAddress := some "TAlice"
      walletAddress := none, blockNumber := 7, nowIso := "2026-01-01T00:00:00.000Z" },
   .requestWithdrawal
    { userId := "alice", amount := 2000000, toAddress := "TBob", idempotencyKey := "w-1"
      riskLevel := none, riskScore := none, riskFlags := none, requiredApprovals := none
      clientIp := none, deviceId := none, nowIso := "2026-01-01T00:00:01.000Z" },
   .lockOfflinePayCollateral
    { userId := "alice", amount := 1000000, deviceId := "device-1", assetCode := "KORI"
      referenceId := "lock-1", policyVersion := 1, nowIso := "2026-01-01T00:00:02.000Z" },
   .finalizeOfflinePaySettlement
    { settlementId := "settlement-1", batchId := "batch-1", collateralId := "collateral-1"
      proofId := "proof-1", proofFingerprint := "print-1", userId := "alice"
      deviceId := "device-1", receiverUserId := some "bob", receiverDeviceId := none
      receiverWalletSettlementRequested := some true, assetCode := "KORI", amount := 1000000
      feeAmount := none, settlementStatus := "SETTLED", releaseAction := .release
      conflictDetected := false, financiallyHonored := none, newStateHash := "hash-1"
      previousHash := "hash-0", monotonicCounter := 1, nonce := "nonce-1", signature := "sig-1"
      nowIso := "2026-01-01T00:00:03.000Z" }]

theorem exampleCalls_amounts : ∀ c ∈ exampleCalls, ∀ x ∈ c.amounts, 0 ≤ x := by
  simp [exampleCalls, Call.amounts]

/-- the run up to its settlement -/
def exampleDb : Db := runCalls (Call.step .numbered ⟨10000000, 10000000⟩) exampleCalls Db.empty

theorem run_journals_balance_example : exampleDb.books.length = 5 ∧
    total .debit (exampleDb.postingsIn "KORI") = total .credit (exampleDb.postingsIn "KORI") :=
  ⟨by decide +kernel, (run_journals_balance .numbered ⟨10000000, 10000000⟩ exampleCalls
    exampleCalls_amounts).2.1 "KORI"⟩

/-! ## no bucket below zero -/

/-- What a call takes from a bucket is there.  The operations check it themselves, except for a
first compensation of an adjustment and for the targets of the reconciliations. -/
def Call.CoveredIn (b : Bucket) (c : Call) (s : Db) : Prop :=
  match c with
  | .compensateOfflinePaySettlement input =>
    b = .available → input.releaseAction = .adjust →
      ("offline_pay_settlement_compensation", input.settlementId) ∉ s.journalKeys →
      input.amount ≤ s.available input.userId
  | .reconcileOfflinePayUserBalance input =>
    b = .available → s.withdrawPending input.userId + s.offlinePayPending input.userId ≤ input.target
  | .reconcileOfflinePayPendingBalance input => b = .offlinePayPending → 0 ≤ input.target
  | _ => True

/-- the reserve of a user covers each of their active withdrawals -/
theorem le_reserved (hs : s.Sound) {row : WithdrawalRow} (hrow : row ∈ s.withdrawals)
    (hactive : row.status.isActive = true) : row.amount.units ≤ s.reserved row.userId := by
  have hmem : row.amount.units ∈ (s.withdrawals.filter fun r =>
      r.userId = row.userId ∧ r.status.isActive = true).map (·.amount.units) :=
    List.mem_map_of_mem (List.mem_filter.mpr ⟨hrow, by simp [hactive]⟩)
  refine List.single_le_sum ?_ _ hmem
  intro x hx
  obtain ⟨r, hr, rfl⟩ := List.mem_map.mp hx
  exact hs.amounts r (List.mem_of_mem_filter hr)

theorem coveredIn_of_takes {L : Standing} {b : Bucket} {e : Event} {u : String} {c : Bucket} {x : ℤ}
    (htakes : e.takes = some (u, c, x)) (h : b = c → x ≤ L.balance (.user u c)) : e.CoveredIn L b := by
  intro v y hy
  rw [htakes] at hy
  obtain ⟨rfl, rfl, rfl⟩ : u = v ∧ c = b ∧ x = y := by simpa using hy
  exact h rfl

theorem coveredIn_of_none {L : Standing} {b : Bucket} {e : Event} (htakes : e.takes = none) :
    e.CoveredIn L b := by
  intro v y hy
  rw [htakes] at hy
  cases hy

/-- the first event of a covered call takes what is there, and the others take nothing -/
theorem Does.coveredIn {b : Bucket} {c : Call} (h : Does pg s c es) (hs : s.Sound)
    (hsound : s.standing.Sound) (hc : c.CoveredIn b s) :
    (∀ e ∈ es.head?, e.CoveredIn s.standing b) ∧ ∀ e ∈ es.tail, e.takes = none := by
  have hone : ∀ {e : Event}, e.CoveredIn s.standing b →
      (∀ e' ∈ [e].head?, e'.CoveredIn s.standing b) ∧ ∀ e' ∈ [e].tail, e'.takes = none := by
    intro e he
    refine ⟨fun e' hmem => ?_, fun e' hmem => (by cases hmem)⟩
    obtain rfl : e = e' := by simpa using hmem
    exact he
  have hreserve : ∀ {row : WithdrawalRow}, row ∈ s.withdrawals → row.status.isActive = true →
      row.amount.units ≤ s.standing.balance (.user row.userId .withdrawPending) := by
    intro row hrow hactive
    rw [hsound.reserves]
    exact le_reserved hs hrow hactive
  cases h with
  | nothing => exact ⟨fun _ h => (by cases h), fun _ h => (by cases h)⟩
  | deposit input => exact hone (coveredIn_of_none rfl)
  | credit input => exact hone (coveredIn_of_none rfl)
  | transfer input h => exact hone (coveredIn_of_takes rfl fun _ => h)
  | reserve input h => exact hone (coveredIn_of_takes rfl fun _ => h)
  | complete _ _ _ row fees _ hrow hactive hfees =>
    refine ⟨(hone (coveredIn_of_takes rfl fun _ => hreserve hrow hactive)).1, fun e he => ?_⟩
    rcases hfees with rfl | ⟨fee, -, rfl⟩
    · cases he
    · rw [List.mem_singleton.mp he]
      rfl
  | fail _ _ _ row _ hrow hactive =>
    exact hone (coveredIn_of_takes rfl fun _ => hreserve hrow hactive)
  | sweepFee => exact hone (coveredIn_of_none rfl)
  | lock input h => exact hone (coveredIn_of_takes rfl fun _ => h)
  | release input h => exact hone (coveredIn_of_takes rfl fun _ => h)
  | settle input receiver _ h =>
    refine ⟨(hone (coveredIn_of_takes rfl fun _ => h)).1, fun e he => ?_⟩
    obtain ⟨v, -, rfl⟩ := List.mem_map.mp he
    rfl
  | adjust input _ h => exact hone (coveredIn_of_takes rfl fun _ => h)
  | creditReceiver => exact hone (coveredIn_of_none rfl)
  | compensate => exact hone (coveredIn_of_none rfl)
  | relock input haction hnew =>
    exact hone (coveredIn_of_takes rfl fun hb => hc hb haction hnew)
  | reconcile input =>
    refine hone (coveredIn_of_takes rfl fun hb => ?_)
    have htarget : s.withdrawPending input.userId + s.offlinePayPending input.userId ≤ input.target :=
      hc hb
    show _ ≤ s.available input.userId
    omega
  | reconcilePending input =>
    refine hone (coveredIn_of_takes rfl fun hb => ?_)
    have htarget : 0 ≤ input.target := hc hb
    show _ ≤ s.offlinePayPending input.userId
    omega

theorem Standing.Sound.foldl {L : Standing} (h : L.Sound) (hwell : ∀ e ∈ es, e.WellFormed) :
    (es.foldl Event.next L).Sound := by
  induction es generalizing L with
  | nil => exact h
  | cons e es ih =>
    exact ih (h.next (hwell e List.mem_cons_self)) fun e' he' => hwell e' (List.mem_cons_of_mem _ he')

theorem Standing.NonNegativeIn.foldl {L : Standing} {b : Bucket} (h : L.NonNegativeIn b)
    (hwell : ∀ e ∈ es, e.WellFormed) (hfirst : ∀ e ∈ es.head?, e.CoveredIn L b)
    (hrest : ∀ e ∈ es.tail, e.takes = none) : (es.foldl Event.next L).NonNegativeIn b := by
  induction es generalizing L with
  | nil => exact h
  | cons e es ih =>
    have hnext := h.next (hwell e List.mem_cons_self) (hfirst e rfl)
    apply ih hnext
    · exact fun e' he' => hwell e' (List.mem_cons_of_mem _ he')
    · exact fun e' he' => coveredIn_of_none (hrest e' (List.mem_of_mem_head? he'))
    · exact fun e' he' => hrest e' (List.mem_of_mem_tail he')

theorem standing_empty : Db.empty.standing.Sound where
  reserves _ := rfl
  deposits := rfl
  payouts := rfl
  held := by
    show Db.empty.heldIn allBuckets = _
    rw [Db.heldIn_eq_sum allBuckets ∅ fun u ⟨p, hp, _⟩ => (by cases hp)]
    rfl

/-- a bucket stays non-negative along calls that are covered in it -/
theorem run_nonNegativeIn (b : Bucket) {calls : List Call}
    (h : ∀ c ∈ calls, ∀ x ∈ c.amounts, 0 ≤ x)
    (hcovered : Along (Call.step pg limits) (Call.CoveredIn b) calls Db.empty) :
    (runCalls (Call.step pg limits) calls Db.empty).standing.NonNegativeIn b := by
  have hboth : Along (Call.step pg limits)
      (fun c s => (∀ x ∈ c.amounts, 0 ≤ x) ∧ c.CoveredIn b s) calls Db.empty :=
    hcovered.mono fun c hc s hcov => ⟨h c hc, hcov⟩
  have hrun := @run_invariant_along _ _ (Call.step pg limits) _
    (fun s => s.Sound ∧ s.standing.Sound ∧ s.standing.NonNegativeIn b) ?_ _ _ hboth
    ⟨sound_empty, standing_empty, fun _ => le_refl 0⟩
  · exact hrun.2.2
  · rintro c s ⟨hc, hcov⟩ ⟨hs, hstanding, hnn⟩
    obtain ⟨es, hdoes, -, hnext, hs'⟩ := Call.step_happened pg limits hs hc
    have hwell := hdoes.wellFormed hs hc
    obtain ⟨hfirst, hrest⟩ := hdoes.coveredIn hs hstanding hcov
    rw [hnext]
    exact ⟨hs', hstanding.foldl hwell, hnn.foldl hwell hfirst hrest⟩

end

end Postgres
