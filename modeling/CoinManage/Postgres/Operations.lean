import CoinManage.Postgres.Accounts

/-!
# What the operations write

One lemma for each operation: when it returns, which journals it has appended, which rows it has
inserted or changed, and what it checked first.  Everything later is read off these lemmas.

* `Wrote s s' es`      exactly the journals `es` were appended, and no copy in `accounts` is stale;
* `Posted.synced`      journals followed by the sync of the users concerned;
* `applyDeposit_ok`, `transfer_ok`, ...   the operations.
-/

namespace Postgres

open DoubleEntry

/-- the journals appended, with the copies in `accounts` up to date again -/
structure Wrote (s s' : Db) (es : List Entry) : Prop where
  posted : Posted s s' es
  copies : s.AccountsSound ∅ → s'.AccountsSound ∅

section
variable {pg : PgServer} {s s' s₁ s₂ s₃ : Db}

theorem Wrote.trans {es fs : List Entry} (h : Wrote s₁ s₂ es) (h' : Wrote s₂ s₃ fs) :
    Wrote s₁ s₃ (es ++ fs) where
  posted := h.posted.trans h'.posted
  copies hs := h'.copies (h.copies hs)

theorem Wrote.of_eq (ha : s'.accounts = s.accounts) (hj : s'.ledgerJournals = s.ledgerJournals)
    (hp : s'.ledgerPostings = s.ledgerPostings) : Wrote s s' [] where
  posted := Posted.of_eq hj hp
  copies hs := hs.of_eq ha hp

theorem Wrote.refl (s : Db) : Wrote s s [] := Wrote.of_eq rfl rfl rfl

/-- rows written elsewhere before and after the journals -/
theorem Wrote.around {es : List Entry} (h : Wrote s₁ s₂ es) (hl : Wrote s s₁ []) (hr : Wrote s₂ s' []) :
    Wrote s s' es := by
  have h' := (hl.trans h).trans hr
  rwa [List.nil_append, List.append_nil] at h'

theorem ensureAccount_wrote {userId nowIso : String} {v : Unit}
    (h : ensureAccount pg userId nowIso s = (.ok v, s')) : Wrote s s' [] := by
  obtain ⟨⟨rows, rfl⟩, -, -, hsound⟩ := ensureAccount_ok h
  exact ⟨Posted.of_eq rfl rfl, hsound ∅⟩

theorem ensureAccounts_ok {userIds : List String} {nowIso : String} {v : Unit}
    (h : ensureAccounts pg nowIso userIds s = (.ok v, s')) :
    (∃ rows, s' = { s with accounts := rows }) ∧ (∀ row ∈ s.accounts, row ∈ s'.accounts) ∧
    (∀ u ∈ userIds, ∃ row ∈ s'.accounts, row.userId = cut 64 u) ∧ Wrote s s' [] := by
  induction userIds generalizing s with
  | nil =>
    obtain ⟨-, rfl⟩ := Method.pure_returns.mp h
    exact ⟨⟨s.accounts, rfl⟩, fun _ h => h, fun _ h => (by cases h), Wrote.refl s⟩
  | cons userId userIds ih =>
    obtain ⟨_, s₁, hu, h⟩ := Method.returns_bind.mp h
    obtain ⟨⟨rows, rfl⟩, hold, ⟨row, hrow, he⟩, -⟩ := ensureAccount_ok hu
    obtain ⟨⟨rows', rfl⟩, hold', hall, hwrote⟩ := ih h
    refine ⟨⟨rows', rfl⟩, fun row h => hold' row (hold row h), fun u hmem => ?_,
      (ensureAccount_wrote hu).trans hwrote⟩
    rcases List.mem_cons.mp hmem with rfl | hmem
    · exact ⟨row, hold' row hrow, he⟩
    · exact hall u hmem

/-! ## journals and the sync -/

/-- a row whose id is the user's, cut to the column, is the user's when the id fits -/
theorem known_of_cut {u : String} (h : ∃ row ∈ s.accounts, row.userId = cut 64 u) :
    u.length ≤ 64 → ∃ row ∈ s.accounts, row.userId = u := by
  intro hlen
  rwa [cut_of_length_le hlen] at h

/-- the users of these legs all have a row -/
theorem knows_of_rows {legs : List (Posting LedgerAccount ℤ)} {userIds : List String}
    (husers : ∀ leg ∈ legs, ∀ u b, leg.account = .user u b → u ∈ userIds)
    (hrows : ∀ u ∈ userIds, u.length ≤ 64 → ∃ row ∈ s.accounts, row.userId = u) :
    s.Knows {u | u ∈ userIds} legs := by
  intro leg hleg u b hu
  have hmem := husers leg hleg u b hu
  exact ⟨hmem, hrows u hmem⟩

theorem account_fits {stale : Set String} {row : AccountRow} {u : String}
    (hs : s.AccountsSound stale) (hrow : row ∈ s.accounts ∧ row.userId = u) : u.length ≤ 64 := by
  rw [← hrow.2]
  exact hs.fits row hrow.1

/-- journals followed by the sync of the users they concern -/
theorem Posted.synced {es : List Entry} {legs : List (Posting LedgerAccount ℤ)}
    {userIds : List String} {nowIso : String} {v : Unit} (hposted : Posted s s₁ es)
    (hlegs : es.flatMap Entry.legs = mapAccounts LedgerAccount.code legs)
    (ha : s₁.accounts = s.accounts) (hknown : s.Knows {u | u ∈ userIds} legs)
    (h : syncUserAccountProjection pg userIds nowIso s₁ = (.ok v, s')) :
    (∃ rows, s' = { s₁ with accounts := rows }) ∧ Wrote s s' es := by
  obtain ⟨⟨rows, rfl⟩, -, hsound⟩ := sync_ok h
  refine ⟨⟨rows, rfl⟩, hposted.congr rfl rfl, fun hs => ?_⟩
  exact hsound (hs.posted (Set.empty_subset _) hposted hlegs ha hknown)

/-- one journal and the sync of users who all have a row -/
theorem journal_synced (legs : List (Posting LedgerAccount ℤ)) {input : JournalInput}
    {userIds : List String} {nowIso : String} {u v : Unit} (hlegs : input.postings = writeLegs legs)
    (hj : appendJournal pg input s = (.ok u, s₁))
    (h : syncUserAccountProjection pg userIds nowIso s₁ = (.ok v, s'))
    (husers : ∀ leg ∈ legs, ∀ u b, leg.account = .user u b → u ∈ userIds)
    (hrows : ∀ u ∈ userIds, u.length ≤ 64 → ∃ row ∈ s.accounts, row.userId = u) :
    (∃ ac la js ps n, s' = { s with
      accounts := ac, ledgerAccounts := la, ledgerJournals := js, ledgerPostings := ps
      uuidsDrawn := n }) ∧
    Wrote s s' [input.entry legs] := by
  obtain ⟨⟨la, js, ps, n, rfl⟩, hposted⟩ := appendJournal_ok hlegs hj
  have hflat : [input.entry legs].flatMap Entry.legs = mapAccounts LedgerAccount.code legs :=
    List.flatMap_singleton _ _
  obtain ⟨⟨rows, rfl⟩, hwrote⟩ := hposted.synced hflat rfl (knows_of_rows husers hrows) h
  exact ⟨⟨rows, la, js, ps, n, rfl⟩, hwrote⟩

/-! ## rows -/

theorem insertTransaction_ok {values : TransactionValues} {v : Unit}
    (h : insertTransaction pg values s = (.ok v, s')) :
    ∃ row, transactionRow pg values = .ok row ∧
      s' = { s with transactions := s.transactions ++ [row] } := by
  obtain ⟨row, s₁, hrow, h⟩ := Method.returns_bind.mp h
  obtain ⟨hrow', rfl⟩ := column_ok hrow
  obtain ⟨_, s₁, hg, h⟩ := Method.returns_bind.mp h
  obtain ⟨rfl, rfl⟩ := Method.get_returns.mp hg
  obtain ⟨_, s₁, hd, h⟩ := Method.returns_bind.mp h
  obtain ⟨-, rfl⟩ := Method.throwWhen_returns.mp hd
  exact ⟨row, hrow', (Method.modify_returns.mp h).symm⟩

theorem nullable_ok {α β : Type} {col : α → Except LedgerError β} {f : α → β}
    (hcol : ∀ {a b}, col a = .ok b → b = f a) {o : Option α} {r : Option β}
    (h : nullable col o = .ok r) : r = o.map f := by
  cases o with
  | none => exact (Except.ok.inj h).symm
  | some a =>
    obtain ⟨b, hb, h⟩ := Except.bind_ok h
    rw [← Except.ok.inj h, hcol hb]
    rfl

theorem transactionRow_ok {values : TransactionValues} {row : TransactionRow}
    (h : transactionRow pg values = .ok row) :
    row.userId = cut 64 values.userId ∧ row.type = values.type ∧
      Numeric.ofText values.amount = .ok row.amount ∧
      row.idempotencyKey = values.idempotencyKey.map (cut 128) ∧
      row.relatedUserId = values.relatedUserId.map (cut 64) := by
  obtain ⟨_, -, h⟩ := Except.bind_ok h
  obtain ⟨_, hu, h⟩ := Except.bind_ok h
  obtain ⟨_, ha, h⟩ := Except.bind_ok h
  obtain ⟨_, -, h⟩ := Except.bind_ok h
  obtain ⟨_, hk, h⟩ := Except.bind_ok h
  obtain ⟨_, hr, h⟩ := Except.bind_ok h
  obtain ⟨_, -, h⟩ := Except.bind_ok h
  obtain rfl := Except.ok.inj h
  exact ⟨varchar_ok hu, rfl, ha, nullable_ok varchar_ok hk, nullable_ok varchar_ok hr⟩

theorem insertTransactionPair_ok {out into : TransactionValues} {v : Unit}
    (h : insertTransactionPair pg out into s = (.ok v, s')) :
    ∃ outRow inRow, transactionRow pg out = .ok outRow ∧ transactionRow pg into = .ok inRow ∧
      s' = { s with transactions := s.transactions ++ [outRow, inRow] } := by
  obtain ⟨outRow, s₁, hc, h⟩ := Method.returns_bind.mp h
  obtain ⟨hout, rfl⟩ := column_ok hc
  obtain ⟨inRow, s₁, hc', h⟩ := Method.returns_bind.mp h
  obtain ⟨hin, rfl⟩ := column_ok hc'
  obtain ⟨_, s₁, hg, h⟩ := Method.returns_bind.mp h
  obtain ⟨rfl, rfl⟩ := Method.get_returns.mp hg
  obtain ⟨_, s₁, hd, h⟩ := Method.returns_bind.mp h
  obtain ⟨-, rfl⟩ := Method.throwWhen_returns.mp hd
  exact ⟨outRow, inRow, hout, hin, (Method.modify_returns.mp h).symm⟩

theorem updateTransaction_ok {txId : String} {change : TransactionRow → TransactionRow} {v : Unit}
    (h : updateTransaction pg txId change s = (.ok v, s')) :
    ∃ rows, s' = { s with transactions := rows } := by
  obtain ⟨id, s₁, hc, h⟩ := Method.returns_bind.mp h
  obtain ⟨-, rfl⟩ := column_ok hc
  exact ⟨_, (Method.modify_returns.mp h).symm⟩

theorem insertDeposit_ok {depositId : String} {input : DepositInput} {v : Unit}
    (h : insertDeposit pg depositId input s = (.ok v, s')) :
    ∃ row, row.txHash = cut 128 input.txHash ∧ row.userId = cut 64 input.userId ∧
      row.amount.units = input.amount ∧ s' = { s with deposits := s.deposits ++ [row] } := by
  obtain ⟨row, s₁, hc, h⟩ := Method.returns_bind.mp h
  obtain ⟨hrow, rfl⟩ := column_ok hc
  obtain ⟨_, s₁, hg, h⟩ := Method.returns_bind.mp h
  obtain ⟨rfl, rfl⟩ := Method.get_returns.mp hg
  obtain ⟨_, s₁, hd, h⟩ := Method.returns_bind.mp h
  obtain ⟨-, rfl⟩ := Method.throwWhen_returns.mp hd
  obtain ⟨_, -, hrow⟩ := Except.bind_ok hrow
  obtain ⟨_, hu, hrow⟩ := Except.bind_ok hrow
  obtain ⟨_, ht, hrow⟩ := Except.bind_ok hrow
  obtain ⟨_, ha, hrow⟩ := Except.bind_ok hrow
  obtain ⟨_, -, hrow⟩ := Except.bind_ok hrow
  obtain ⟨_, -, hrow⟩ := Except.bind_ok hrow
  obtain rfl := Except.ok.inj hrow
  exact ⟨_, varchar_ok ht, varchar_ok hu, ofText_format ha, (Method.modify_returns.mp h).symm⟩

/-! ## deposits -/

theorem mapDeposit_ok {row : DepositRow} {d : Deposit} (h : mapDeposit row = .ok d) :
    d.depositId = row.depositId ∧ d.userId = row.userId ∧ d.txHash = row.txHash ∧
      d.amount = row.amount.units := by
  obtain ⟨amount, ha, h⟩ := Except.bind_ok h
  rw [parse_text] at ha
  obtain rfl := Except.ok.inj ha
  obtain rfl := Except.ok.inj h
  exact ⟨rfl, rfl, rfl, rfl⟩

/-- the money of a deposit -/
def depositLegs (input : DepositInput) : List (Posting LedgerAccount ℤ) :=
  move .depositClearing (.user input.userId .available) input.amount

theorem applyNewDeposit_ok {input : DepositInput} {r : DepositApplyResult}
    (h : applyNewDeposit pg input s = (.ok r, s')) :
    r.duplicated = false ∧
    (∃ row, row.txHash = cut 128 input.txHash ∧ row.userId = cut 64 input.userId ∧
      row.amount.units = input.amount ∧ s'.deposits = s.deposits ++ [row]) ∧
    s'.withdrawals = s.withdrawals ∧
    (∃ depositId, Wrote s s' [(depositJournal depositId input).entry (depositLegs input)]) ∧
    (s.AccountsSound ∅ → input.userId.length ≤ 64) := by
  obtain ⟨_, s₁, hens, h⟩ := Method.returns_bind.mp h
  have hwrote := ensureAccount_wrote hens
  obtain ⟨⟨rows, rfl⟩, -, hrow, -⟩ := ensureAccount_ok hens
  obtain ⟨account, s₁, hacc, h⟩ := Method.returns_bind.mp h
  obtain ⟨rfl, hmem, hid⟩ := getAccountForUpdate_ok hacc
  obtain ⟨txId, s₁, hu, h⟩ := Method.returns_bind.mp h
  obtain rfl := randomUUID_ok hu
  obtain ⟨depositId, s₁, hu', h⟩ := Method.returns_bind.mp h
  obtain rfl := randomUUID_ok hu'
  obtain ⟨_, s₁, ht, h⟩ := Method.returns_bind.mp h
  obtain ⟨txRow, -, rfl⟩ := insertTransaction_ok ht
  obtain ⟨_, s₁, hd, h⟩ := Method.returns_bind.mp h
  obtain ⟨depositRow, htx, huser, hamount, rfl⟩ := insertDeposit_ok hd
  obtain ⟨_, s₁, hj, h⟩ := Method.returns_bind.mp h
  obtain ⟨_, s₂, hs, h⟩ := Method.returns_bind.mp h
  obtain ⟨⟨ac, la, js, ps, n, rfl⟩, hsynced⟩ := journal_synced (depositLegs input) rfl hj hs
    (by simp [depositLegs, move]) (by simpa using known_of_cut hrow)
  obtain ⟨_, s₁, hc, h⟩ := Method.returns_bind.mp h
  obtain ⟨-, rfl⟩ := Method.ofExcept_returns.mp hc
  obtain ⟨_, s₁, he, h⟩ := Method.returns_bind.mp h
  obtain ⟨events, m, rfl⟩ := enqueueOutboxEvent_ok he
  obtain ⟨rfl, rfl⟩ := Method.pure_returns.mp h
  refine ⟨rfl, ⟨depositRow, htx, huser, hamount, rfl⟩, rfl, ⟨depositId, ?_⟩, ?_⟩
  · exact hsynced.around (hwrote.trans (Wrote.of_eq rfl rfl rfl)) (Wrote.of_eq rfl rfl rfl)
  · intro hs
    exact account_fits (hwrote.copies hs) ⟨hmem, hid⟩

theorem applyDeposit_ok {input : DepositInput} {r : DepositApplyResult}
    (h : applyDeposit pg input s = (.ok r, s')) :
    (∃ row ∈ s.deposits, row.txHash = input.txHash ∧ mapDeposit row = .ok r.deposit ∧
      r.duplicated = true ∧ s' = s) ∨ applyNewDeposit pg input s = (.ok r, s') := by
  obtain ⟨_, s₁, hk, h⟩ := Method.returns_bind.mp (withTransaction_ok h)
  obtain rfl := lockKey_ok hk
  obtain ⟨_, s₁, hg, h⟩ := Method.returns_bind.mp h
  obtain ⟨rfl, rfl⟩ := Method.get_returns.mp hg
  cases hfind : s.deposits.find? fun row => row.txHash = input.txHash with
  | none =>
    rw [hfind] at h
    exact Or.inr h
  | some existing =>
    rw [hfind] at h
    obtain ⟨d, s₁, hd, h⟩ := Method.returns_bind.mp h
    obtain ⟨hmap, rfl⟩ := Method.ofExcept_returns.mp hd
    obtain ⟨rfl, rfl⟩ := Method.pure_returns.mp h
    have hhash : existing.txHash = input.txHash := by simpa using List.find?_some hfind
    exact Or.inl ⟨existing, List.mem_of_find?_eq_some hfind, hhash, hmap, rfl, rfl⟩

/-- completing a deposit changes a status, whatever it answers -/
theorem completeDeposit_writes (pg : PgServer) (depositId : String) (s : Db) :
    ∃ rows, (completeDeposit pg depositId s).2 = { s with deposits := rows } ∧
      rows.map (·.amount) = s.deposits.map (·.amount) := by
  unfold completeDeposit column
  rw [Method.ofExcept_bind]
  cases uuid pg depositId with
  | error e => exact ⟨s.deposits, rfl, rfl⟩
  | ok id =>
    simp only [Method.get_bind]
    cases s.deposits.find? fun row => row.depositId = id with
    | none => exact ⟨s.deposits, rfl, rfl⟩
    | some existing =>
      by_cases hstatus : existing.status = .completed
      · simp only [hstatus, if_true]
        exact ⟨s.deposits, rfl, rfl⟩
      · simp only [hstatus, if_false, Method.modify_bind, Method.ofExcept_apply]
        refine ⟨_, rfl, ?_⟩
        rw [List.map_map]
        refine List.map_congr_left fun row _ => ?_
        show (if row.depositId = id then { row with status := .completed } else row).amount = row.amount
        split <;> rfl

/-! ## external credits -/

def creditLegs (input : ExternalCreditInput) : List (Posting LedgerAccount ℤ) :=
  move .balanceCreditSync (.user input.userId .available) input.amount

theorem applyNewExternalCredit_ok {input : ExternalCreditInput} {currencyCode : String}
    {r : ExternalCreditApplyResult}
    (h : applyNewExternalCredit pg input currencyCode s = (.ok r, s')) :
    r = externalCreditResult input currencyCode false input.nowIso ∧
    s'.deposits = s.deposits ∧ s'.withdrawals = s.withdrawals ∧
    Wrote s s' [(externalCreditJournal input currencyCode).entry (creditLegs input)] := by
  obtain ⟨_, s₁, hens, h⟩ := Method.returns_bind.mp h
  have hwrote := ensureAccount_wrote hens
  obtain ⟨⟨rows, rfl⟩, -, hrow, -⟩ := ensureAccount_ok hens
  obtain ⟨_, s₁, hl, h⟩ := Method.returns_bind.mp h
  obtain rfl := lockUsers_ok hl
  obtain ⟨_, s₁, hj, h⟩ := Method.returns_bind.mp h
  obtain ⟨_, s₂, hs, h⟩ := Method.returns_bind.mp h
  obtain ⟨⟨ac, la, js, ps, n, rfl⟩, hsynced⟩ := journal_synced (creditLegs input) rfl hj hs
    (by simp [creditLegs, move]) (by simpa using known_of_cut hrow)
  obtain ⟨rfl, rfl⟩ := Method.pure_returns.mp h
  exact ⟨rfl, rfl, rfl, hsynced.around hwrote (Wrote.refl _)⟩

theorem applyExternalCredit_ok {input : ExternalCreditInput} {r : ExternalCreditApplyResult}
    (h : applyExternalCredit pg input s = (.ok r, s')) :
    0 < input.amount ∧ normalizeCode pg input.currencyCode = "KORI" ∧
    ((input.referenceType, input.referenceId) ∈ s.journalKeys ∧ r.duplicated = true ∧ s' = s ∨
      (input.referenceType, input.referenceId) ∉ s.journalKeys ∧
        applyNewExternalCredit pg input "KORI" s = (.ok r, s')) := by
  obtain ⟨_, s₁, ha, h⟩ := Method.returns_bind.mp h
  obtain ⟨hamount, rfl⟩ := Method.throwWhen_returns.mp ha
  obtain ⟨_, s₁, hc, h⟩ := Method.returns_bind.mp h
  obtain ⟨hcode, rfl⟩ := Method.throwWhen_returns.mp hc
  have hkori : normalizeCode pg input.currencyCode = "KORI" := not_not.mp hcode
  obtain ⟨_, s₁, hk, h⟩ := Method.returns_bind.mp (withTransaction_ok h)
  obtain rfl := lockKey_ok hk
  obtain ⟨_, s₁, hg, h⟩ := Method.returns_bind.mp h
  obtain ⟨rfl, rfl⟩ := Method.get_returns.mp hg
  refine ⟨not_le.mp hamount, hkori, ?_⟩
  rw [← findJournal_isSome]
  cases hfind : s.findJournal input.referenceType input.referenceId with
  | none =>
    rw [hfind, hkori] at h
    exact Or.inr ⟨by simp, h⟩
  | some existing =>
    rw [hfind] at h
    obtain ⟨rfl, rfl⟩ := Method.pure_returns.mp h
    exact Or.inl ⟨rfl, rfl, rfl⟩

/-! ## transfers -/

def transferLegs (input : TransferInput) : List (Posting LedgerAccount ℤ) :=
  move (.user input.fromUserId .available) (.user input.toUserId .available) input.amount

theorem transferNew_ok {input : TransferInput} {r : TransferResult}
    (h : transferNew pg input s = (.ok r, s')) :
    r.duplicated = false ∧
    (∃ outRow inRow, s'.transactions = s.transactions ++ [outRow, inRow] ∧
      (outRow.userId = cut 64 input.fromUserId ∧ outRow.type = .internalTransferOut ∧
        outRow.amount.units = input.amount ∧
        outRow.idempotencyKey = some (cut 128 input.idempotencyKey) ∧
        outRow.relatedUserId = some (cut 64 input.toUserId)) ∧
      (inRow.userId = cut 64 input.toUserId ∧ inRow.type = .internalTransferIn ∧
        inRow.amount.units = input.amount ∧
        inRow.idempotencyKey = some (cut 128 input.idempotencyKey) ∧
        inRow.relatedUserId = some (cut 64 input.fromUserId))) ∧
    s'.deposits = s.deposits ∧ s'.withdrawals = s.withdrawals ∧
    Wrote s s' [(transferJournal input).entry (transferLegs input)] ∧
    (s.AccountsSound ∅ → input.amount ≤ s.available input.fromUserId ∧
      input.fromUserId.length ≤ 64 ∧ input.toUserId.length ≤ 64) := by
  obtain ⟨_, s₁, hens, h⟩ := Method.returns_bind.mp h
  have hwrote₁ := ensureAccount_wrote hens
  obtain ⟨⟨rows, rfl⟩, -, ⟨fromRow, hfrom, hfromId⟩, -⟩ := ensureAccount_ok hens
  obtain ⟨_, s₁, hens', h⟩ := Method.returns_bind.mp h
  have hwrote := hwrote₁.trans (ensureAccount_wrote hens')
  obtain ⟨⟨rows', rfl⟩, hold, hto, -⟩ := ensureAccount_ok hens'
  obtain ⟨fromAccount, s₁, hacc, h⟩ := Method.returns_bind.mp h
  obtain ⟨rfl, hmem⟩ := getAccountForUpdate_ok hacc
  obtain ⟨toAccount, s₁, hacc', h⟩ := Method.returns_bind.mp h
  obtain ⟨rfl, hmem'⟩ := getAccountForUpdate_ok hacc'
  obtain ⟨p, s₁, hp, h⟩ := Method.returns_bind.mp h
  obtain ⟨rfl, hbal, -, -⟩ := projected_ok hp
  obtain ⟨fromAvailable, s₁, hb, h⟩ := Method.returns_bind.mp h
  obtain ⟨rfl, hspend⟩ := spendable_ok hmem hbal hb
  obtain ⟨_, s₁, hc, h⟩ := Method.returns_bind.mp h
  obtain ⟨hcover, rfl⟩ := Method.throwWhen_returns.mp hc
  obtain ⟨fromTxId, s₁, hu, h⟩ := Method.returns_bind.mp h
  obtain rfl := randomUUID_ok hu
  obtain ⟨toTxId, s₁, hu', h⟩ := Method.returns_bind.mp h
  obtain rfl := randomUUID_ok hu'
  obtain ⟨_, s₁, ht, h⟩ := Method.returns_bind.mp h
  obtain ⟨outRow, inRow, hout, hin, rfl⟩ := insertTransactionPair_ok ht
  obtain ⟨houtUser, houtType, houtAmount, houtKey, houtRelated⟩ := transactionRow_ok hout
  obtain ⟨hinUser, hinType, hinAmount, hinKey, hinRelated⟩ := transactionRow_ok hin
  obtain ⟨_, s₁, hj, h⟩ := Method.returns_bind.mp h
  obtain ⟨_, s₂, hs, h⟩ := Method.returns_bind.mp h
  obtain ⟨⟨ac, la, js, ps, n, rfl⟩, hsynced⟩ := journal_synced (transferLegs input) rfl hj hs
    (by simp [transferLegs, move]) (by simpa using ⟨known_of_cut ⟨fromRow, hold _ hfrom, hfromId⟩, known_of_cut hto⟩)
  obtain ⟨rfl, rfl⟩ := Method.pure_returns.mp h
  refine ⟨rfl, ⟨outRow, inRow, rfl, ⟨houtUser, houtType, ofText_format houtAmount, houtKey,
    houtRelated⟩, hinUser, hinType, ofText_format hinAmount, hinKey, hinRelated⟩, rfl, rfl,
    hsynced.around (hwrote.trans (Wrote.of_eq rfl rfl rfl)) (Wrote.refl _), fun hs => ?_⟩
  have hsound := hwrote.copies hs
  refine ⟨?_, account_fits hsound hmem, account_fits hsound hmem'⟩
  have hspend' : fromAvailable = s.available input.fromUserId := hspend hsound
  rw [← hspend']
  exact not_lt.mp hcover

theorem mapTransaction_ok {row : TransactionRow} {t : LedgerTransaction}
    (h : mapTransaction row = .ok t) :
    t.userId = row.userId ∧ t.amount = row.amount.units ∧ t.idempotencyKey = row.idempotencyKey := by
  obtain ⟨amount, ha, h⟩ := Except.bind_ok h
  rw [parse_text] at ha
  obtain rfl := Except.ok.inj ha
  obtain rfl := Except.ok.inj h
  exact ⟨rfl, rfl, rfl⟩

theorem transfer_ok {input : TransferInput} {r : TransferResult}
    (h : transfer pg input s = (.ok r, s')) :
    input.fromUserId ≠ input.toUserId ∧
    ((∃ fromTx ∈ s.transferRows input.idempotencyKey, ∃ toTx ∈ s.transferRows input.idempotencyKey,
        mapTransaction fromTx = .ok r.fromTx ∧ mapTransaction toTx = .ok r.toTx ∧
        r.duplicated = true ∧ s' = s) ∨
      (s.transferRows input.idempotencyKey).length < 2 ∧ transferNew pg input s = (.ok r, s')) := by
  obtain ⟨_, s₁, hc, h⟩ := Method.returns_bind.mp h
  obtain ⟨hne, rfl⟩ := Method.throwWhen_returns.mp hc
  refine ⟨hne, ?_⟩
  obtain ⟨_, s₁, hk, h⟩ := Method.returns_bind.mp (withTransaction_ok h)
  obtain rfl := lockKey_ok hk
  obtain ⟨_, s₁, hl, h⟩ := Method.returns_bind.mp h
  obtain rfl := lockUsers_ok hl
  obtain ⟨_, s₁, hg, h⟩ := Method.returns_bind.mp h
  obtain ⟨rfl, rfl⟩ := Method.get_returns.mp hg
  by_cases hlen : 2 ≤ (s.transferRows input.idempotencyKey).length
  · simp only [if_pos hlen] at h
    cases hf : (s.transferRows input.idempotencyKey).find? fun row => row.type = .internalTransferOut with
    | none =>
      rw [hf] at h
      exact (Method.throw_returns.mp h).elim
    | some fromTx =>
      rw [hf] at h
      cases ht : (s.transferRows input.idempotencyKey).find? fun row => row.type = .internalTransferIn with
      | none =>
        rw [ht] at h
        exact (Method.throw_returns.mp h).elim
      | some toTx =>
        rw [ht] at h
        obtain ⟨from', s₁, hfm, h⟩ := Method.returns_bind.mp h
        obtain ⟨hfmap, rfl⟩ := Method.ofExcept_returns.mp hfm
        obtain ⟨to', s₁, htm, h⟩ := Method.returns_bind.mp h
        obtain ⟨htmap, rfl⟩ := Method.ofExcept_returns.mp htm
        obtain ⟨rfl, rfl⟩ := Method.pure_returns.mp h
        exact Or.inl ⟨fromTx, List.mem_of_find?_eq_some hf, toTx, List.mem_of_find?_eq_some ht, hfmap,
          htmap, rfl, rfl⟩
  · simp only [if_neg hlen] at h
    exact Or.inr ⟨not_le.mp hlen, h⟩

/-! ## withdrawal requests -/

theorem insertWithdrawal_ok {withdrawalId ledgerTxId : String} {input : WithdrawalInput} {v : Unit}
    (h : insertWithdrawal pg withdrawalId ledgerTxId input s = (.ok v, s')) :
    ∃ row, uuid pg withdrawalId = .ok row.withdrawId ∧ row.userId = cut 64 input.userId ∧
      row.amount.units = input.amount ∧ row.idempotencyKey = cut 128 input.idempotencyKey ∧
      row.status = .ledgerReserved ∧
      (¬ ∃ other ∈ s.withdrawals, other.withdrawId = row.withdrawId) ∧
      s' = { s with withdrawals := s.withdrawals ++ [row] } := by
  obtain ⟨row, s₁, hc, h⟩ := Method.returns_bind.mp h
  obtain ⟨hrow, rfl⟩ := column_ok hc
  obtain ⟨_, s₁, hg, h⟩ := Method.returns_bind.mp h
  obtain ⟨rfl, rfl⟩ := Method.get_returns.mp hg
  obtain ⟨_, s₁, hd, h⟩ := Method.returns_bind.mp h
  obtain ⟨hfresh, rfl⟩ := Method.throwWhen_returns.mp hd
  obtain ⟨_, hid, hrow⟩ := Except.bind_ok hrow
  obtain ⟨_, hu, hrow⟩ := Except.bind_ok hrow
  obtain ⟨_, ha, hrow⟩ := Except.bind_ok hrow
  obtain ⟨_, -, hrow⟩ := Except.bind_ok hrow
  obtain ⟨_, hk, hrow⟩ := Except.bind_ok hrow
  obtain ⟨_, -, hrow⟩ := Except.bind_ok hrow
  obtain ⟨_, -, hrow⟩ := Except.bind_ok hrow
  obtain ⟨_, -, hrow⟩ := Except.bind_ok hrow
  obtain ⟨_, -, hrow⟩ := Except.bind_ok hrow
  obtain ⟨_, -, hrow⟩ := Except.bind_ok hrow
  obtain ⟨_, -, hrow⟩ := Except.bind_ok hrow
  obtain ⟨_, -, hrow⟩ := Except.bind_ok hrow
  obtain rfl := Except.ok.inj hrow
  refine ⟨_, hid, varchar_ok hu, ofText_format ha, varchar_ok hk, rfl, ?_,
    (Method.modify_returns.mp h).symm⟩
  rintro ⟨other, hother, he⟩
  exact hfresh ⟨other, hother, Or.inl he⟩

def reserveLegs (input : WithdrawalInput) : List (Posting LedgerAccount ℤ) :=
  move (.user input.userId .available) (.user input.userId .withdrawPending) input.amount

theorem dailyRequested_ok {userId nowIso : String} {x : ℤ}
    (h : getDailyRequestedWithdrawalAmount pg userId nowIso s = (.ok x, s')) : s = s' := by
  obtain ⟨_, s₁, hc, h⟩ := Method.returns_bind.mp h
  obtain ⟨-, rfl⟩ := column_ok hc
  obtain ⟨_, s₁, hg, h⟩ := Method.returns_bind.mp h
  obtain ⟨rfl, rfl⟩ := Method.get_returns.mp hg
  exact (Method.ofExcept_returns.mp h).2

theorem requestNewWithdrawal_ok {limits : WithdrawalLimitConfig} {input : WithdrawalInput}
    {r : WithdrawalRequestResult} (h : requestNewWithdrawal pg limits input s = (.ok r, s')) :
    r.duplicated = false ∧
    (∃ row, row.userId = cut 64 input.userId ∧ row.amount.units = input.amount ∧
      row.idempotencyKey = cut 128 input.idempotencyKey ∧ row.status = .ledgerReserved ∧
      (¬ ∃ other ∈ s.withdrawals, other.withdrawId = row.withdrawId) ∧
      s'.withdrawals = s.withdrawals ++ [row]) ∧
    s'.deposits = s.deposits ∧
    (∃ withdrawalId, Wrote s s' [(reserveJournal withdrawalId input).entry (reserveLegs input)]) ∧
    (s.AccountsSound ∅ → input.amount ≤ s.available input.userId ∧ input.userId.length ≤ 64) := by
  obtain ⟨_, s₁, hens, h⟩ := Method.returns_bind.mp h
  have hwrote := ensureAccount_wrote hens
  obtain ⟨⟨rows, rfl⟩, -, hrow, -⟩ := ensureAccount_ok hens
  obtain ⟨account, s₁, hacc, h⟩ := Method.returns_bind.mp h
  obtain ⟨rfl, hmem⟩ := getAccountForUpdate_ok hacc
  obtain ⟨p, s₁, hp, h⟩ := Method.returns_bind.mp h
  obtain ⟨rfl, hbal, -, -⟩ := projected_ok hp
  obtain ⟨available, s₁, hb, h⟩ := Method.returns_bind.mp h
  obtain ⟨rfl, hspend⟩ := spendable_ok hmem hbal hb
  obtain ⟨_, s₁, hc, h⟩ := Method.returns_bind.mp h
  obtain ⟨hcover, rfl⟩ := Method.throwWhen_returns.mp hc
  obtain ⟨_, s₁, hday, h⟩ := Method.returns_bind.mp h
  obtain rfl := dailyRequested_ok hday
  obtain ⟨_, s₁, hlim, h⟩ := Method.returns_bind.mp h
  obtain ⟨-, rfl⟩ := Method.throwWhen_returns.mp hlim
  obtain ⟨ledgerTxId, s₁, hu, h⟩ := Method.returns_bind.mp h
  obtain rfl := randomUUID_ok hu
  obtain ⟨withdrawalId, s₁, hu', h⟩ := Method.returns_bind.mp h
  obtain rfl := randomUUID_ok hu'
  obtain ⟨_, s₁, ht, h⟩ := Method.returns_bind.mp h
  obtain ⟨txRow, -, rfl⟩ := insertTransaction_ok ht
  obtain ⟨_, s₁, hw, h⟩ := Method.returns_bind.mp h
  obtain ⟨row, -, huser, hamount, hkey, hstatus, hfresh, rfl⟩ := insertWithdrawal_ok hw
  obtain ⟨_, s₁, hj, h⟩ := Method.returns_bind.mp h
  obtain ⟨_, s₂, hs, h⟩ := Method.returns_bind.mp h
  obtain ⟨⟨ac, la, js, ps, n, rfl⟩, hsynced⟩ := journal_synced (reserveLegs input) rfl hj hs
    (by simp [reserveLegs, move]) (by simpa using known_of_cut hrow)
  obtain ⟨inserted, s₁, hg, h⟩ := Method.returns_bind.mp h
  obtain ⟨rfl, -, -⟩ := getWithdrawalForUpdate_ok hg
  obtain ⟨hydrated, s₁, hh, h⟩ := Method.returns_bind.mp h
  obtain ⟨rfl, -⟩ := hydrateWithdrawal_ok hh
  obtain ⟨_, s₁, he, h⟩ := Method.returns_bind.mp h
  obtain ⟨events, m, rfl⟩ := announceWithdrawal_ok he
  obtain ⟨rfl, rfl⟩ := Method.pure_returns.mp h
  refine ⟨rfl, ⟨row, huser, hamount, hkey, hstatus, hfresh, rfl⟩, rfl, ⟨withdrawalId,
    hsynced.around (hwrote.trans (Wrote.of_eq rfl rfl rfl)) (Wrote.of_eq rfl rfl rfl)⟩, fun hs => ?_⟩
  have hsound := hwrote.copies hs
  refine ⟨?_, account_fits hsound hmem⟩
  have hspend' : available = s.available input.userId := hspend hsound
  rw [← hspend']
  exact not_lt.mp hcover

theorem requestWithdrawal_ok {limits : WithdrawalLimitConfig} {input : WithdrawalInput}
    {r : WithdrawalRequestResult} (h : requestWithdrawal pg limits input s = (.ok r, s')) :
    (∃ row ∈ s.withdrawals, row.idempotencyKey = input.idempotencyKey ∧
      hydrateWithdrawal row s = (.ok r.withdrawal, s) ∧ r.duplicated = true ∧ s' = s) ∨
    requestNewWithdrawal pg limits input s = (.ok r, s') := by
  obtain ⟨_, s₁, hc, h⟩ := Method.returns_bind.mp h
  obtain ⟨-, rfl⟩ := Method.throwWhen_returns.mp hc
  obtain ⟨_, s₁, hk, h⟩ := Method.returns_bind.mp (withTransaction_ok h)
  obtain rfl := lockKey_ok hk
  obtain ⟨_, s₁, hl, h⟩ := Method.returns_bind.mp h
  obtain rfl := lockUsers_ok hl
  obtain ⟨_, s₁, hg, h⟩ := Method.returns_bind.mp h
  obtain ⟨rfl, rfl⟩ := Method.get_returns.mp hg
  cases hfind : s.withdrawals.find? fun row => row.idempotencyKey = input.idempotencyKey with
  | none =>
    rw [hfind] at h
    exact Or.inr h
  | some existing =>
    rw [hfind] at h
    obtain ⟨w, s₁, hh, h⟩ := Method.returns_bind.mp h
    obtain ⟨rfl, -⟩ := hydrateWithdrawal_ok hh
    obtain ⟨rfl, rfl⟩ := Method.pure_returns.mp h
    have hkey : existing.idempotencyKey = input.idempotencyKey := by
      simpa using List.find?_some hfind
    exact Or.inl ⟨existing, List.mem_of_find?_eq_some hfind, hkey, hh, rfl, rfl⟩

/-! ## the withdrawal lifecycle -/

/-- the row of one withdrawal was rewritten, to this status -/
def Db.Restated (s s' : Db) (row : WithdrawalRow) (status : WithdrawalStatus) : Prop :=
  row ∈ s.withdrawals ∧ ∃ change : WithdrawalRow → WithdrawalRow,
    s'.withdrawals = Rows.update (·.withdrawId) row.withdrawId change s.withdrawals ∧
    (∀ r, (change r).withdrawId = r.withdrawId ∧ (change r).userId = r.userId ∧
      (change r).amount = r.amount ∧ (change r).idempotencyKey = r.idempotencyKey) ∧
    (change row).status = status

/-- a step of the lifecycle that posts nothing: the status moves, or stays -/
def Db.Advanced (s s' : Db) : Prop :=
  s'.withdrawals = s.withdrawals ∨
  ∃ row status, s.Restated s' row status ∧ row.status.isActive = true ∧ status.isActive = true

theorem Db.Restated.congr {row : WithdrawalRow} {status : WithdrawalStatus}
    (h : s.Restated s' row status) (hw : s₁.withdrawals = s'.withdrawals) :
    s.Restated s₁ row status := by
  rw [Db.Restated, hw]
  exact h

theorem updateWithdrawal_restated {withdrawalId : String} {row : WithdrawalRow}
    {change : WithdrawalRow → WithdrawalRow} {v : Unit}
    (hid : uuid pg withdrawalId = .ok row.withdrawId) (hrow : row ∈ s.withdrawals)
    (h : updateWithdrawal pg withdrawalId change s₁ = (.ok v, s'))
    (hsame : s₁.withdrawals = s.withdrawals)
    (hchange : ∀ r, (change r).withdrawId = r.withdrawId ∧ (change r).userId = r.userId ∧
      (change r).amount = r.amount ∧ (change r).idempotencyKey = r.idempotencyKey) :
    (∃ rows, s' = { s₁ with withdrawals := rows }) ∧ s.Restated s' row (change row).status := by
  obtain rfl := updateWithdrawal_ok hid h
  refine ⟨⟨_, rfl⟩, hrow, change, ?_, hchange, rfl⟩
  rw [← hsame]

theorem confirmWithdrawalExternalAuth_ok {withdrawalId provider requestId nowIso : String}
    {w : Withdrawal}
    (h : confirmWithdrawalExternalAuth pg withdrawalId provider requestId nowIso s = (.ok w, s')) :
    s.Advanced s' ∧ s'.deposits = s.deposits ∧ Wrote s s' [] := by
  obtain ⟨_, s₁, hk, h⟩ := Method.returns_bind.mp (withTransaction_ok h)
  obtain rfl := lockKey_ok hk
  obtain ⟨row, s₁, hg, h⟩ := Method.returns_bind.mp h
  obtain ⟨rfl, hid, hrow⟩ := getWithdrawalForUpdate_ok hg
  by_cases hstatus : row.status = .ledgerReserved
  · rw [if_pos hstatus] at h
    obtain ⟨_, s₁, hp, h⟩ := Method.returns_bind.mp h
    obtain ⟨-, rfl⟩ := column_ok hp
    obtain ⟨_, s₁, hr, h⟩ := Method.returns_bind.mp h
    obtain ⟨-, rfl⟩ := column_ok hr
    obtain ⟨_, s₁, ht, h⟩ := Method.returns_bind.mp h
    obtain ⟨-, rfl⟩ := column_ok ht
    obtain ⟨_, s₁, hw, h⟩ := Method.returns_bind.mp h
    obtain ⟨⟨rows, rfl⟩, hrestated⟩ :=
      updateWithdrawal_restated hid hrow hw rfl (fun _ => ⟨rfl, rfl, rfl, rfl⟩)
    obtain ⟨events, n, rfl⟩ := announceUpdated_ok h
    refine ⟨Or.inr ⟨row, _, hrestated.congr rfl, ?_, rfl⟩, rfl, Wrote.of_eq rfl rfl rfl⟩
    rw [hstatus]
    rfl
  · rw [if_neg hstatus] at h
    split at h
    · obtain ⟨rfl, -⟩ := hydrateWithdrawal_ok h
      exact ⟨Or.inl rfl, rfl, Wrote.refl _⟩
    · exact (Method.throw_returns.mp h).elim

theorem markWithdrawalReviewRequired_ok {withdrawalId nowIso : String} {w : Withdrawal}
    (h : markWithdrawalReviewRequired pg withdrawalId nowIso s = (.ok w, s')) :
    s.Advanced s' ∧ s'.deposits = s.deposits ∧ Wrote s s' [] := by
  obtain ⟨_, s₁, hk, h⟩ := Method.returns_bind.mp (withTransaction_ok h)
  obtain rfl := lockKey_ok hk
  obtain ⟨row, s₁, hg, h⟩ := Method.returns_bind.mp h
  obtain ⟨rfl, hid, hrow⟩ := getWithdrawalForUpdate_ok hg
  by_cases hstatus : row.status = .pendingAdmin
  · rw [if_neg (not_not.mpr hstatus)] at h
    obtain ⟨_, s₁, ht, h⟩ := Method.returns_bind.mp h
    obtain ⟨-, rfl⟩ := column_ok ht
    obtain ⟨_, s₁, hw, h⟩ := Method.returns_bind.mp h
    obtain ⟨⟨rows, rfl⟩, hrestated⟩ :=
      updateWithdrawal_restated hid hrow hw rfl (fun _ => ⟨rfl, rfl, rfl, rfl⟩)
    obtain ⟨events, n, rfl⟩ := announceUpdated_ok h
    have hactive : row.status.isActive = true := by
      rw [hstatus]
      rfl
    exact ⟨Or.inr ⟨row, row.status, hrestated.congr rfl, hactive, hactive⟩, rfl,
      Wrote.of_eq rfl rfl rfl⟩
  · rw [if_pos hstatus] at h
    obtain ⟨rfl, -⟩ := hydrateWithdrawal_ok h
    exact ⟨Or.inl rfl, rfl, Wrote.refl _⟩

theorem insertApproval_ok {approvalId withdrawalId nowIso : String} {input : ApprovalInput} {v : Unit}
    (h : insertApproval pg approvalId withdrawalId input nowIso s = (.ok v, s')) :
    ∃ rows, s' = { s with withdrawalApprovals := rows } := by
  obtain ⟨row, s₁, hc, h⟩ := Method.returns_bind.mp h
  obtain ⟨-, rfl⟩ := column_ok hc
  obtain ⟨_, s₁, hg, h⟩ := Method.returns_bind.mp h
  obtain ⟨rfl, rfl⟩ := Method.get_returns.mp hg
  obtain ⟨_, s₁, hd, h⟩ := Method.returns_bind.mp h
  obtain ⟨-, rfl⟩ := Method.throwWhen_returns.mp hd
  exact ⟨_, (Method.modify_returns.mp h).symm⟩

theorem approveWithdrawal_ok {withdrawalId nowIso : String} {input : ApprovalInput}
    {r : ApprovalDecisionResult}
    (h : approveWithdrawal pg withdrawalId input nowIso s = (.ok r, s')) :
    s.Advanced s' ∧ s'.deposits = s.deposits ∧ Wrote s s' [] := by
  obtain ⟨_, s₁, hk, h⟩ := Method.returns_bind.mp (withTransaction_ok h)
  obtain rfl := lockKey_ok hk
  obtain ⟨row, s₁, hg, h⟩ := Method.returns_bind.mp h
  obtain ⟨rfl, hid, hrow⟩ := getWithdrawalForUpdate_ok hg
  obtain ⟨_, s₁, hc, h⟩ := Method.returns_bind.mp h
  obtain ⟨hstatus, rfl⟩ := Method.throwWhen_returns.mp hc
  obtain ⟨_, s₁, ha, h⟩ := Method.returns_bind.mp h
  obtain ⟨-, rfl⟩ := column_ok ha
  obtain ⟨_, s₁, hg', h⟩ := Method.returns_bind.mp h
  obtain ⟨rfl, rfl⟩ := Method.get_returns.mp hg'
  obtain ⟨_, s₁, hd, h⟩ := Method.returns_bind.mp h
  obtain ⟨-, rfl⟩ := Method.throwWhen_returns.mp hd
  obtain ⟨approvalId, s₁, hu, h⟩ := Method.returns_bind.mp h
  obtain rfl := randomUUID_ok hu
  obtain ⟨_, s₁, hi, h⟩ := Method.returns_bind.mp h
  obtain ⟨approvals, rfl⟩ := insertApproval_ok hi
  obtain ⟨_, s₁, hg'', h⟩ := Method.returns_bind.mp h
  obtain ⟨rfl, rfl⟩ := Method.get_returns.mp hg''
  have hactive : row.status.isActive = true := by
    rw [not_not.mp hstatus]
    rfl
  simp only at h
  split at h
  · obtain ⟨_, s₁, ht, h⟩ := Method.returns_bind.mp h
    obtain ⟨-, rfl⟩ := column_ok ht
    obtain ⟨_, s₁, hw, h⟩ := Method.returns_bind.mp h
    obtain ⟨⟨rows, rfl⟩, hrestated⟩ :=
      updateWithdrawal_restated hid hrow hw rfl (fun _ => ⟨rfl, rfl, rfl, rfl⟩)
    obtain ⟨hydrated, s₁, hann, h⟩ := Method.returns_bind.mp h
    obtain ⟨events, n, rfl⟩ := announceUpdated_ok hann
    obtain ⟨-, rfl⟩ := Method.pure_returns.mp h
    exact ⟨Or.inr ⟨row, _, hrestated.congr rfl, hactive, rfl⟩, rfl, Wrote.of_eq rfl rfl rfl⟩
  · obtain ⟨hydrated, s₁, hann, h⟩ := Method.returns_bind.mp h
    obtain ⟨events, n, rfl⟩ := announceUpdated_ok hann
    obtain ⟨-, rfl⟩ := Method.pure_returns.mp h
    exact ⟨Or.inl rfl, rfl, Wrote.of_eq rfl rfl rfl⟩

theorem broadcastWithdrawal_ok {withdrawalId txHash nowIso : String} {w : Withdrawal}
    (h : broadcastWithdrawal pg withdrawalId txHash nowIso s = (.ok w, s')) :
    s.Advanced s' ∧ s'.deposits = s.deposits ∧ Wrote s s' [] := by
  obtain ⟨_, s₁, hk, h⟩ := Method.returns_bind.mp (withTransaction_ok h)
  obtain rfl := lockKey_ok hk
  obtain ⟨row, s₁, hg, h⟩ := Method.returns_bind.mp h
  obtain ⟨rfl, hid, hrow⟩ := getWithdrawalForUpdate_ok hg
  obtain ⟨_, s₁, hc, h⟩ := Method.returns_bind.mp h
  obtain ⟨hstatus, rfl⟩ := Method.throwWhen_returns.mp hc
  obtain ⟨_, s₁, hh, h⟩ := Method.returns_bind.mp h
  obtain ⟨-, rfl⟩ := column_ok hh
  obtain ⟨_, s₁, ht, h⟩ := Method.returns_bind.mp h
  obtain ⟨-, rfl⟩ := column_ok ht
  obtain ⟨_, s₁, hw, h⟩ := Method.returns_bind.mp h
  obtain ⟨⟨rows, rfl⟩, hrestated⟩ :=
    updateWithdrawal_restated hid hrow hw rfl (fun _ => ⟨rfl, rfl, rfl, rfl⟩)
  obtain ⟨events, n, rfl⟩ := announceUpdated_ok h
  refine ⟨Or.inr ⟨row, _, hrestated.congr rfl, ?_, rfl⟩, rfl, Wrote.of_eq rfl rfl rfl⟩
  rw [not_not.mp hstatus]
  rfl

/-! ## settling a withdrawal -/

theorem assertReserved_ok {mapped : Withdrawal} {v : Unit}
    (h : assertReserved pg mapped s = (.ok v, s')) :
    s = s' ∧ (∃ row ∈ s.accounts, row.userId = mapped.userId) ∧
    (s.AccountsSound ∅ →
      mapped.amount ≤ s.withdrawPending mapped.userId + s.offlinePayPending mapped.userId) := by
  obtain ⟨_, s₁, hl, h⟩ := Method.returns_bind.mp h
  obtain rfl := lockUsers_ok hl
  obtain ⟨account, s₁, hacc, h⟩ := Method.returns_bind.mp h
  obtain ⟨rfl, hmem⟩ := getAccountForUpdate_ok hacc
  obtain ⟨p, s₁, hp, h⟩ := Method.returns_bind.mp h
  obtain ⟨rfl, -, hlock, -⟩ := projected_ok hp
  obtain ⟨locked, s₁, hb, h⟩ := Method.returns_bind.mp h
  obtain ⟨rfl, hlocked⟩ := locked_ok hmem hlock hb
  obtain ⟨hcover, rfl⟩ := Method.throwWhen_returns.mp h
  refine ⟨rfl, ⟨account, hmem.1, hmem.2⟩, fun hs => ?_⟩
  rw [← hlocked hs]
  exact not_lt.mp hcover

/-- recording a receipt writes receipts only, whatever it answers -/
theorem persistNetworkFeeReceipt_writes (pg : PgServer) (referenceType : FeeReferenceType)
    (referenceId : String) (fee : NetworkFee) (nowIso : String) (s : Db) :
    ∃ receipts n, (persistNetworkFeeReceipt pg referenceType referenceId fee nowIso s).2 =
      { s with networkFeeReceipts := receipts, uuidsDrawn := n } := by
  have hid : randomUUID pg s = (.ok (pg.uuid s.uuidsDrawn), { s with uuidsDrawn := s.uuidsDrawn + 1 }) :=
    rfl
  unfold persistNetworkFeeReceipt column
  rw [Method.bind_ok _ hid, Method.ofExcept_bind]
  cases feeReceiptRow pg (pg.uuid s.uuidsDrawn) referenceType referenceId fee nowIso with
  | error e => exact ⟨_, _, rfl⟩
  | ok row =>
    simp only [Method.modify_apply]
    split
    · exact ⟨_, _, rfl⟩
    · exact ⟨_, _, rfl⟩

def withdrawalFeeLegs (fee : NetworkFee) : List (Posting LedgerAccount ℤ) :=
  move .withdrawNetworkFee .hotWalletTrx fee.feeSun

/-- the fee journal of a withdrawal, or nothing -/
def IsFee (withdrawalId nowIso : String) (networkFee : Option NetworkFee) (es : List Entry) : Prop :=
  es = [] ∨ ∃ fee hash, networkFee = some fee ∧
    es = [(withdrawalFeeJournal withdrawalId hash fee nowIso).entry (withdrawalFeeLegs fee)]

/-- a fee journal posts to no user's account -/
theorem IsFee.legs {withdrawalId nowIso : String} {networkFee : Option NetworkFee} {es : List Entry}
    (h : IsFee withdrawalId nowIso networkFee es) :
    ∃ legs, es.flatMap Entry.legs = mapAccounts LedgerAccount.code legs ∧
      ∀ leg ∈ legs, ∀ u b, leg.account ≠ .user u b := by
  rcases h with rfl | ⟨fee, hash, -, rfl⟩
  · exact ⟨[], rfl, fun _ h => (by cases h)⟩
  · exact ⟨withdrawalFeeLegs fee, List.flatMap_singleton _ _, by simp [withdrawalFeeLegs, move]⟩

theorem recordNetworkFee_ok {withdrawalId nowIso : String} {txHash : Option String}
    {networkFee : Option NetworkFee} {v : Unit}
    (h : recordNetworkFee pg withdrawalId txHash networkFee nowIso s = (.ok v, s')) :
    (∃ receipts la js ps n, s' = { s with
      networkFeeReceipts := receipts, ledgerAccounts := la, ledgerJournals := js
      ledgerPostings := ps, uuidsDrawn := n }) ∧
    ∃ es, Posted s s' es ∧ IsFee withdrawalId nowIso networkFee es := by
  have hquiet : (pure () : Op Unit) s = (.ok v, s') →
      (∃ receipts la js ps n, s' = { s with
        networkFeeReceipts := receipts, ledgerAccounts := la, ledgerJournals := js
        ledgerPostings := ps, uuidsDrawn := n }) ∧
      ∃ es, Posted s s' es ∧ IsFee withdrawalId nowIso networkFee es := by
    intro h
    obtain ⟨-, rfl⟩ := Method.pure_returns.mp h
    exact ⟨⟨_, _, _, _, _, rfl⟩, [], Posted.refl s, Or.inl rfl⟩
  unfold recordNetworkFee at h
  cases networkFee with
  | none => exact hquiet h
  | some fee =>
    cases htx : truthy txHash with
    | none =>
      rw [htx] at h
      exact hquiet h
    | some hash =>
      rw [htx] at h
      obtain ⟨_, s₁, hp, h⟩ := Method.returns_bind.mp h
      obtain ⟨receipts, n, hs₁⟩ := persistNetworkFeeReceipt_writes pg .withdrawal withdrawalId fee nowIso s
      rw [hp] at hs₁
      replace hs₁ : s₁ = _ := hs₁
      subst hs₁
      have hlegs : (withdrawalFeeJournal withdrawalId hash fee nowIso).postings =
          writeLegs (withdrawalFeeLegs fee) := rfl
      obtain ⟨⟨la, js, ps, m, rfl⟩, hposted⟩ := appendJournal_ok hlegs h
      exact ⟨⟨receipts, la, js, ps, m, rfl⟩, _, hposted.congr_left rfl rfl,
        Or.inr ⟨fee, hash, rfl, rfl⟩⟩

def completeLegs (mapped : Withdrawal) : List (Posting LedgerAccount ℤ) :=
  move (.user mapped.userId .withdrawPending) .hotWallet mapped.amount

theorem confirmWithdrawal_ok {withdrawalId nowIso : String} {networkFee : Option NetworkFee}
    {w : Withdrawal} (h : confirmWithdrawal pg withdrawalId networkFee nowIso s = (.ok w, s')) :
    ∃ row mapped fees, uuid pg withdrawalId = .ok row.withdrawId ∧ row.status = .txBroadcasted ∧
      s.Restated s' row .completed ∧
      mapped.userId = row.userId ∧ mapped.amount = row.amount.units ∧
      IsFee withdrawalId nowIso networkFee fees ∧ s'.deposits = s.deposits ∧
      Wrote s s' ((completeJournal withdrawalId mapped nowIso).entry (completeLegs mapped) :: fees) ∧
      (s.AccountsSound ∅ →
        mapped.amount ≤ s.withdrawPending mapped.userId + s.offlinePayPending mapped.userId) := by
  obtain ⟨_, s₁, hk, h⟩ := Method.returns_bind.mp (withTransaction_ok h)
  obtain rfl := lockKey_ok hk
  obtain ⟨row, s₁, hg, h⟩ := Method.returns_bind.mp h
  obtain ⟨rfl, hid, hrow⟩ := getWithdrawalForUpdate_ok hg
  obtain ⟨_, s₁, hc, h⟩ := Method.returns_bind.mp h
  obtain ⟨hstatus, rfl⟩ := Method.throwWhen_returns.mp hc
  obtain ⟨mapped, s₁, hh, h⟩ := Method.returns_bind.mp h
  obtain ⟨rfl, huser, hamount, -⟩ := hydrateWithdrawal_ok hh
  obtain ⟨_, s₁, hr, h⟩ := Method.returns_bind.mp h
  obtain ⟨rfl, hacc, hreserved⟩ := assertReserved_ok hr
  obtain ⟨_, s₁, ht, h⟩ := Method.returns_bind.mp h
  obtain ⟨txs, rfl⟩ := updateTransaction_ok ht
  obtain ⟨_, s₁, hc', h⟩ := Method.returns_bind.mp h
  obtain ⟨-, rfl⟩ := column_ok hc'
  obtain ⟨_, s₁, hw, h⟩ := Method.returns_bind.mp h
  obtain ⟨⟨rows, rfl⟩, hrestated⟩ :=
    updateWithdrawal_restated hid hrow hw rfl (fun _ => ⟨rfl, rfl, rfl, rfl⟩)
  obtain ⟨_, s₁, hj, h⟩ := Method.returns_bind.mp h
  have hlegs : (completeJournal withdrawalId mapped nowIso).postings =
      writeLegs (completeLegs mapped) := rfl
  obtain ⟨⟨la, js, ps, n, rfl⟩, hposted⟩ := appendJournal_ok hlegs hj
  obtain ⟨_, s₁, hf, h⟩ := Method.returns_bind.mp h
  obtain ⟨⟨receipts, la, js, ps, n, rfl⟩, fees, hfees, hfee⟩ := recordNetworkFee_ok hf
  obtain ⟨_, s₁, hs, h⟩ := Method.returns_bind.mp h
  obtain ⟨feeLegs, hfeeLegs, hfeeUser⟩ := hfee.legs
  have hflat : ((completeJournal withdrawalId mapped nowIso).entry (completeLegs mapped) ::
      fees).flatMap Entry.legs = mapAccounts LedgerAccount.code (completeLegs mapped ++ feeLegs) := by
    rw [List.flatMap_cons, hfeeLegs, mapAccounts_append]
    rfl
  have husers : ∀ leg ∈ completeLegs mapped ++ feeLegs, ∀ u b, leg.account = .user u b →
      u ∈ [mapped.userId] := by
    have hown : ∀ leg ∈ completeLegs mapped, ∀ u b, leg.account = .user u b → u ∈ [mapped.userId] := by
      simp [completeLegs, move]
    intro leg hleg u b hu
    rcases List.mem_append.mp hleg with hleg | hleg
    · exact hown leg hleg u b hu
    · exact absurd hu (hfeeUser leg hleg u b)
  have hposted' := @Posted.congr_left s _ _ _ (hposted.trans hfees) rfl rfl
  obtain ⟨⟨ac, rfl⟩, hwrote⟩ := hposted'.synced hflat rfl
    (knows_of_rows husers (by simpa using fun _ => hacc)) hs
  obtain ⟨events, m, rfl⟩ := announceUpdated_ok h
  exact ⟨row, mapped, fees, hid, not_not.mp hstatus, hrestated.congr rfl, huser, hamount, hfee, rfl,
    hwrote.around (Wrote.refl s) (Wrote.of_eq rfl rfl rfl), hreserved⟩

def releaseLegs (mapped : Withdrawal) : List (Posting LedgerAccount ℤ) :=
  move (.user mapped.userId .withdrawPending) (.user mapped.userId .available) mapped.amount

theorem failWithdrawal_ok {withdrawalId reason nowIso : String} {w : Withdrawal}
    (h : failWithdrawal pg withdrawalId reason nowIso s = (.ok w, s')) :
    ∃ row mapped, uuid pg withdrawalId = .ok row.withdrawId ∧ row.status.isActive = true ∧
      s.Restated s' row .failed ∧ mapped.userId = row.userId ∧ mapped.amount = row.amount.units ∧
      s'.deposits = s.deposits ∧
      Wrote s s' [(releaseJournal withdrawalId reason mapped nowIso).entry (releaseLegs mapped)] ∧
      (s.AccountsSound ∅ →
        mapped.amount ≤ s.withdrawPending mapped.userId + s.offlinePayPending mapped.userId) := by
  obtain ⟨_, s₁, hk, h⟩ := Method.returns_bind.mp (withTransaction_ok h)
  obtain rfl := lockKey_ok hk
  obtain ⟨row, s₁, hg, h⟩ := Method.returns_bind.mp h
  obtain ⟨rfl, hid, hrow⟩ := getWithdrawalForUpdate_ok hg
  obtain ⟨_, s₁, hc, h⟩ := Method.returns_bind.mp h
  obtain ⟨hstatus, rfl⟩ := Method.throwWhen_returns.mp hc
  obtain ⟨mapped, s₁, hh, h⟩ := Method.returns_bind.mp h
  obtain ⟨rfl, huser, hamount, -⟩ := hydrateWithdrawal_ok hh
  obtain ⟨_, s₁, hr, h⟩ := Method.returns_bind.mp h
  obtain ⟨rfl, hacc, hreserved⟩ := assertReserved_ok hr
  obtain ⟨_, s₁, ht, h⟩ := Method.returns_bind.mp h
  obtain ⟨txs, rfl⟩ := updateTransaction_ok ht
  obtain ⟨_, s₁, hc', h⟩ := Method.returns_bind.mp h
  obtain ⟨-, rfl⟩ := column_ok hc'
  obtain ⟨_, s₁, hc'', h⟩ := Method.returns_bind.mp h
  obtain ⟨-, rfl⟩ := column_ok hc''
  obtain ⟨_, s₁, hw, h⟩ := Method.returns_bind.mp h
  obtain ⟨⟨rows, rfl⟩, hrestated⟩ :=
    updateWithdrawal_restated hid hrow hw rfl (fun _ => ⟨rfl, rfl, rfl, rfl⟩)
  obtain ⟨_, s₁, hj, h⟩ := Method.returns_bind.mp h
  obtain ⟨_, s₂, hs, h⟩ := Method.returns_bind.mp h
  obtain ⟨⟨ac, la, js, ps, n, rfl⟩, hsynced⟩ := journal_synced (releaseLegs mapped) rfl hj hs
    (by simp [releaseLegs, move]) (by simpa using fun _ => hacc)
  obtain ⟨events, m, rfl⟩ := announceUpdated_ok h
  have hactive : row.status.isActive = true := by simpa using hstatus
  exact ⟨row, mapped, hid, hactive, hrestated.congr rfl, huser, hamount, rfl,
    hsynced.around (Wrote.of_eq rfl rfl rfl) (Wrote.of_eq rfl rfl rfl), hreserved⟩

/-! ## sweeps -/

theorem insertSweep_ok {sweepId : String} {input : SweepInput} {row : SweepRecordRow}
    (h : insertSweep pg sweepId input s = (.ok row, s')) :
    ∃ rows, s' = { s with sweepRecords := rows } := by
  obtain ⟨row', s₁, hc, h⟩ := Method.returns_bind.mp h
  obtain ⟨-, rfl⟩ := column_ok hc
  obtain ⟨_, s₁, hg, h⟩ := Method.returns_bind.mp h
  obtain ⟨rfl, rfl⟩ := Method.get_returns.mp hg
  obtain ⟨_, s₁, hd, h⟩ := Method.returns_bind.mp h
  obtain ⟨-, rfl⟩ := Method.throwWhen_returns.mp hd
  obtain ⟨_, s₁, hm, h⟩ := Method.returns_bind.mp h
  obtain rfl := Method.modify_returns.mp hm
  obtain ⟨-, rfl⟩ := Method.pure_returns.mp h
  exact ⟨_, rfl⟩

theorem createSweepRecord_ok {input : SweepInput} {row : SweepRecordRow}
    (h : createSweepRecord pg input s = (.ok row, s')) :
    ∃ rows n, s' = { s with sweepRecords := rows, uuidsDrawn := n } := by
  obtain ⟨_, s₁, hk, h⟩ := Method.returns_bind.mp (withTransaction_ok h)
  obtain rfl := lockKey_ok hk
  have hinsert : ∀ {s' : Db}, (randomUUID pg >>= fun sweepId => insertSweep pg sweepId input) s =
      (.ok row, s') → ∃ rows n, s' = { s with sweepRecords := rows, uuidsDrawn := n } := by
    intro s' h
    obtain ⟨_, s₁, hu, h⟩ := Method.returns_bind.mp h
    obtain rfl := randomUUID_ok hu
    obtain ⟨rows, rfl⟩ := insertSweep_ok h
    exact ⟨rows, _, rfl⟩
  cases href : truthy input.externalRef with
  | none =>
    rw [href] at h
    exact hinsert h
  | some externalRef =>
    rw [href] at h
    obtain ⟨_, s₁, hk', h⟩ := Method.returns_bind.mp h
    obtain rfl := lockKey_ok hk'
    obtain ⟨_, s₁, hg, h⟩ := Method.returns_bind.mp h
    obtain ⟨rfl, rfl⟩ := Method.get_returns.mp hg
    cases hfind : s.sweepRecords.find? fun row => row.externalRef = some externalRef with
    | none =>
      rw [hfind] at h
      exact hinsert h
    | some duplicated =>
      rw [hfind] at h
      obtain ⟨-, rfl⟩ := Method.pure_returns.mp h
      exact ⟨s.sweepRecords, s.uuidsDrawn, rfl⟩

/-- a step of a sweep writes its record, whatever it answers -/
theorem stepSweep_writes (pg : PgServer) (sweepId : String) (sources : List SweepStatus)
    (message : String) (change : SweepRecordRow → Except LedgerError SweepRecordRow) (s : Db) :
    ∃ rows, (stepSweep pg sweepId sources message change s).2 = { s with sweepRecords := rows } := by
  unfold stepSweep column
  rw [Method.ofExcept_bind]
  cases uuid pg sweepId with
  | error e => exact ⟨s.sweepRecords, rfl⟩
  | ok id =>
    simp only [Method.get_bind]
    cases s.sweepRecords.find? fun row => row.sweepId = id with
    | none => exact ⟨s.sweepRecords, rfl⟩
    | some existing =>
      by_cases hstatus : existing.status ∉ sources
      · simp only [Method.throwWhen, if_pos hstatus]
        exact ⟨s.sweepRecords, rfl⟩
      · simp only [Method.throwWhen, if_neg hstatus, Method.pure_bind]
        rw [Method.ofExcept_bind]
        cases change existing with
        | error e => exact ⟨s.sweepRecords, rfl⟩
        | ok updated => exact ⟨_, rfl⟩

def sweepFeeLegs (fee : NetworkFee) : List (Posting LedgerAccount ℤ) :=
  move .sweepNetworkFee .sweepSourceTrx fee.feeSun

/-- Outside of a transaction: the fee of a sweep is posted whole, or a throw leaves at most a
journal without postings. -/
theorem recordSweepFee_writes (pg : PgServer) (sweepId : String) (txHash : Option String)
    (networkFee : Option NetworkFee) (nowIso : String) (s : Db) :
    ∃ receipts la js ps n, (recordSweepFee pg sweepId txHash networkFee nowIso s).2 = { s with
        networkFeeReceipts := receipts, ledgerAccounts := la, ledgerJournals := js
        ledgerPostings := ps, uuidsDrawn := n } ∧
      ∃ es, Posted s (recordSweepFee pg sweepId txHash networkFee nowIso s).2 es ∧
        ((∃ fee hash, networkFee = some fee ∧
          es = [(sweepFeeJournal sweepId hash fee nowIso).entry (sweepFeeLegs fee)]) ∨
          ∀ e ∈ es, e.legs = []) := by
  have hquiet : ∀ s' : Db, (∃ receipts n, s' = { s with
      networkFeeReceipts := receipts, uuidsDrawn := n }) →
      ∃ receipts la js ps n, s' = { s with
        networkFeeReceipts := receipts, ledgerAccounts := la, ledgerJournals := js
        ledgerPostings := ps, uuidsDrawn := n } ∧
      ∃ es, Posted s s' es ∧
        ((∃ fee hash, networkFee = some fee ∧
          es = [(sweepFeeJournal sweepId hash fee nowIso).entry (sweepFeeLegs fee)]) ∨
          ∀ e ∈ es, e.legs = []) := by
    rintro s' ⟨receipts, n, rfl⟩
    exact ⟨receipts, _, _, _, n, rfl, [], Posted.of_eq rfl rfl, Or.inr fun _ h => (by cases h)⟩
  unfold recordSweepFee
  cases networkFee with
  | none => exact hquiet s ⟨_, _, rfl⟩
  | some fee =>
    cases truthy txHash with
    | none => exact hquiet s ⟨_, _, rfl⟩
    | some hash =>
      simp only
      have hpersist := persistNetworkFeeReceipt_writes pg .sweep sweepId fee nowIso s
      rw [Method.bind_apply]
      rcases hp : persistNetworkFeeReceipt pg .sweep sweepId fee nowIso s with ⟨e | u, s₁⟩
      · rw [hp] at hpersist
        exact hquiet s₁ hpersist
      · rw [hp] at hpersist
        obtain ⟨receipts, n, hs₁⟩ := hpersist
        replace hs₁ : s₁ = _ := hs₁
        subst hs₁
        have hlegs : (sweepFeeJournal sweepId hash fee nowIso).postings =
            writeLegs (sweepFeeLegs fee) := rfl
        obtain ⟨r, la, js, ps, m, happ, es, hposted, hr⟩ := appendJournal_cases pg hlegs
          { s with networkFeeReceipts := receipts, uuidsDrawn := n }
        simp only [happ]
        refine ⟨receipts, la, js, ps, m, rfl, es, hposted.congr_left rfl rfl, ?_⟩
        rcases hr with ⟨-, hes⟩ | ⟨-, hes⟩
        · exact Or.inl ⟨fee, hash, rfl, hes⟩
        · exact Or.inr hes

/-- journals that post to no user's account leave the copies right -/
theorem Posted.wrote_of_system {es : List Entry} {legs : List (Posting LedgerAccount ℤ)}
    (hposted : Posted s s' es) (hlegs : es.flatMap Entry.legs = mapAccounts LedgerAccount.code legs)
    (hsystem : ∀ leg ∈ legs, ∀ u b, leg.account ≠ .user u b) (ha : s'.accounts = s.accounts) :
    Wrote s s' es where
  posted := hposted
  copies hs := hs.posted (le_refl _) hposted hlegs ha fun leg hleg u b hu =>
    absurd hu (hsystem leg hleg u b)

theorem confirmSweep_writes (pg : PgServer) (sweepId : String) (note : Option String)
    (networkFee : Option NetworkFee) (nowIso : String) (s : Db) :
    (confirmSweep pg sweepId note networkFee nowIso s).2.deposits = s.deposits ∧
    (confirmSweep pg sweepId note networkFee nowIso s).2.withdrawals = s.withdrawals ∧
    ∃ es, Wrote s (confirmSweep pg sweepId note networkFee nowIso s).2 es ∧
      ((∃ fee hash, networkFee = some fee ∧
        es = [(sweepFeeJournal sweepId hash fee nowIso).entry (sweepFeeLegs fee)]) ∨
        ∀ e ∈ es, e.legs = []) := by
  unfold confirmSweep
  rw [Method.bind_apply]
  generalize hchange : (fun row : SweepRecordRow => _) = change
  have hstep := stepSweep_writes pg sweepId [.planned, .broadcasted] "sweep must be planned or broadcasted"
    change s
  rcases hp : stepSweep pg sweepId [.planned, .broadcasted] "sweep must be planned or broadcasted"
    change s with ⟨e | row, s₁⟩
  · rw [hp] at hstep
    obtain ⟨rows, hs₁⟩ := hstep
    replace hs₁ : s₁ = _ := hs₁
    subst hs₁
    exact ⟨rfl, rfl, [], Wrote.of_eq rfl rfl rfl, Or.inr fun _ h => (by cases h)⟩
  · rw [hp] at hstep
    obtain ⟨rows, hs₁⟩ := hstep
    replace hs₁ : s₁ = _ := hs₁
    subst hs₁
    obtain ⟨receipts, la, js, ps, n, hstate, es, hposted, hes⟩ :=
      recordSweepFee_writes pg sweepId row.txHash networkFee nowIso { s with sweepRecords := rows }
    have hresult : ((recordSweepFee pg sweepId row.txHash networkFee nowIso >>= fun _ => pure row)
        { s with sweepRecords := rows }).2 =
        (recordSweepFee pg sweepId row.txHash networkFee nowIso { s with sweepRecords := rows }).2 := by
      rw [Method.bind_apply]
      rcases recordSweepFee pg sweepId row.txHash networkFee nowIso { s with sweepRecords := rows }
        with ⟨e | u, s₂⟩
      · rfl
      · rfl
    simp only
    rw [hresult, hstate]
    rw [hstate] at hposted
    have hbase : Posted s _ es := hposted.congr_left rfl rfl
    refine ⟨rfl, rfl, es, ?_, hes⟩
    rcases hes with ⟨fee, hash, -, rfl⟩ | hnone
    · exact hbase.wrote_of_system (List.flatMap_singleton _ _)
        (by simp [sweepFeeLegs, move]) rfl
    · have hflat : es.flatMap Entry.legs = mapAccounts LedgerAccount.code [] := by
        rw [List.flatMap_eq_nil_iff.mpr hnone]
        rfl
      exact hbase.wrote_of_system hflat (fun _ h => (by cases h)) rfl

end

end Postgres
