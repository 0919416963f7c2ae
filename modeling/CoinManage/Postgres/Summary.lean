import CoinManage.Postgres.Runs

/-!
# The ledger summary

`getLedgerSummary` adds up the postings whose account code is like a user's; `getAccount` reads the
accounts of one user by their exact codes.

* `like_user`          which codes a pattern of the summary matches;
* `Access`             the calls that write accounts or postings, with the reads that do;
* `ledger_summary`     the totals are the sums over all rows of `accounts`, when the ids posted to fit
                       their column;
* `summary_exceeds`    an id that fits only without its trailing blanks.
-/

namespace Postgres

open DoubleEntry

/-! ## reads -/

section
variable (pg : PgServer)

def findWalletBindingByUserId (userId : String) : Op (Option WalletAddressBindingRow) := do
  let userId ← column (text userId)
  return (← get).walletAddressBindings.find? fun row => row.userId = userId

def findWalletBindingByWalletAddress (walletAddress : String) : Op (Option WalletAddressBindingRow) := do
  let walletAddress ← column (text walletAddress)
  return (← get).walletAddressBindings.find? fun row => row.walletAddress = walletAddress

def mapAccount (row : AccountRow) (binding : Option WalletAddressBindingRow)
    (projected : ProjectedBalances) : Op Account := do
  let balance ← availableBalanceOf row projected
  let lockedBalance ← lockedBalanceOf row projected
  return {
    userId := row.userId
    walletAddress := binding.map (·.walletAddress)
    balance := balance
    lockedBalance := lockedBalance
    updatedAt := if projected.hasPostings then projected.updatedAt.getD row.updatedAt else row.updatedAt }

def getAccount (userId nowIso : String) : Op Account := do
  ensureAccount pg userId nowIso
  let row := (← get).accounts.find? fun row => row.userId = userId
  let binding ← findWalletBindingByUserId userId
  let projected ← getProjectedUserBalances pg userId
  match row with
  | none => throw (.domain 500 "STATE_CORRUPTED" "account not found")
  | some row => mapAccount row binding projected

/-- the binding of a user, inserted or with its address replaced -/
def upsertWalletBinding (userId walletAddress nowIso : String) : Op Unit := do
  let userId ← column (varchar 64 userId)
  let walletAddress ← column (varchar 128 walletAddress)
  let createdAt ← column (timestamp pg nowIso)
  Method.throwWhen (∃ other ∈ (← get).walletAddressBindings,
    other.walletAddress = walletAddress ∧ other.userId ≠ userId) (.database "23505")
  modify fun s =>
    if ∃ row ∈ s.walletAddressBindings, row.userId = userId then
      { s with
        walletAddressBindings := s.walletAddressBindings.map fun row =>
          if row.userId = userId then { row with walletAddress := walletAddress } else row }
    else
      { s with
        walletAddressBindings := s.walletAddressBindings ++ [⟨userId, walletAddress, createdAt⟩] }

def bindWalletAddress (userId walletAddress nowIso : String) : Op WalletBinding :=
  withTransaction do
    ensureAccount pg userId nowIso
    lockUsers [userId]
    lockKey ("wallet-address:" ++ walletAddress)
    let existingBinding ← findWalletBindingByWalletAddress walletAddress
    Method.throwWhen (∃ binding, existingBinding = some binding ∧ binding.userId ≠ userId)
      (.domain 409 "WALLET_ADDRESS_IN_USE" "wallet address is already bound to another user")
    upsertWalletBinding pg userId walletAddress nowIso
    match ← findWalletBindingByUserId userId with
    | none => throw (.domain 500 "STATE_CORRUPTED" "wallet binding not found after upsert")
    | some bound => return ⟨bound.userId, bound.walletAddress, bound.createdAt⟩

def rebuildEach (nowIso : String) : List String → Op Unit
  | [] => return ()
  | userId :: userIds => do
    syncUserAccountProjection pg [userId] nowIso
    rebuildEach nowIso userIds

def rebuildAccountProjections (nowIso : String) : Op Nat := do
  let rows := (← get).accounts
  withTransaction (rebuildEach pg nowIso (rows.map (·.userId)))
  return rows.length

end

/-! ## the summary -/

/-- `'user:%:available'` and the two others -/
def bucketPattern (bucket : Bucket) : String := "user:%:" ++ bucket.text

def LedgerPostingRow.isLike (row : LedgerPostingRow) (bucket : Bucket) : Bool :=
  likeMatch (bucketPattern bucket).toList row.ledgerAccountCode.toList

structure ProjectedSummary where
  availableBalance : ℤ
  lockedBalance : ℤ
  hasPostings : Bool

def getProjectedLedgerSummary : Op ProjectedSummary := do
  let rows := (← get).ledgerPostings
  let availableBalance ← Method.ofExcept (parseStoredKoriAmount (sumText (rows.map fun row =>
    if row.isLike .available then row.signed else 0)))
  let lockedBalance ← Method.ofExcept (parseStoredKoriAmount (sumText (rows.map fun row =>
    if row.isLike .withdrawPending then row.signed
    else if row.isLike .offlinePayPending then row.signed
    else 0)))
  return ⟨availableBalance, lockedBalance, decide (0 < rows.length)⟩

structure LedgerSummary where
  accountCount : Nat
  availableBalance : ℤ
  lockedBalance : ℤ
  liabilityBalance : ℤ
  confirmedDepositCount : Nat
  activeWithdrawalCount : Nat
  deriving DecidableEq

def getLedgerSummary : Op LedgerSummary := do
  let accounts := (← get).accounts
  let projectedSummary ← getProjectedLedgerSummary
  let deposits := (← get).deposits.filter fun row => row.status = .credited ∨ row.status = .completed
  let active := (← get).withdrawals.filter fun row => row.status.isActive = true
  let availableBalance ←
    if projectedSummary.hasPostings then pure projectedSummary.availableBalance
    else Method.ofExcept (parseStoredKoriAmount (sumText (accounts.map (·.balance.units))))
  let lockedBalance ←
    if projectedSummary.hasPostings then pure projectedSummary.lockedBalance
    else Method.ofExcept (parseStoredKoriAmount (sumText (accounts.map (·.lockedBalance.units))))
  return {
    accountCount := accounts.length
    availableBalance := availableBalance
    lockedBalance := lockedBalance
    liabilityBalance := availableBalance + lockedBalance
    confirmedDepositCount := deposits.length
    activeWithdrawalCount := active.length }

/-! ## patterns -/

/-- characters that `like` takes literally -/
def Literal (p : List Char) : Prop := ∀ c ∈ p, c ≠ '%' ∧ c ≠ '_' ∧ c ≠ '\\'

theorem literal_of_all {p : List Char} (h : p.all (fun c => decide (c ≠ '%' ∧ c ≠ '_' ∧ c ≠ '\\')) = true) :
    Literal p := fun c hc => of_decide_eq_true (List.all_eq_true.mp h c hc)

theorem likeMatch_literal {p rest : List Char} (hp : Literal p) (t : List Char) :
    likeMatch (p ++ rest) t = true ↔ ∃ t', t = p ++ t' ∧ likeMatch rest t' = true := by
  induction p generalizing t with
  | nil => simp
  | cons c p ih =>
    obtain ⟨h₁, h₂, h₃⟩ := hp c List.mem_cons_self
    have hrest : Literal p := fun d hd => hp d (List.mem_cons_of_mem _ hd)
    cases t with
    | nil => simp [likeMatch, h₃]
    | cons d t =>
      have hstep : likeMatch (c :: (p ++ rest)) (d :: t) = (c == d && likeMatch (p ++ rest) t) := by
        simp [likeMatch, h₃]
      rw [List.cons_append, hstep, Bool.and_eq_true, ih hrest t, beq_iff_eq]
      constructor
      · rintro ⟨rfl, t', rfl, h⟩
        exact ⟨t', rfl, h⟩
      · rintro ⟨t', heq, h⟩
        obtain ⟨rfl, rfl⟩ := List.cons.inj heq
        exact ⟨rfl, t', rfl, h⟩

theorem likeMatch_any {rest : List Char} (t : List Char) :
    likeMatch ('%' :: rest) t = true ↔ ∃ a b, t = a ++ b ∧ likeMatch rest b = true := by
  rw [likeMatch, List.any_eq_true]
  constructor
  · rintro ⟨b, hb, h⟩
    obtain ⟨a, rfl⟩ := (List.mem_tails _ _).mp hb
    exact ⟨a, b, rfl, h⟩
  · rintro ⟨a, b, rfl, h⟩
    exact ⟨b, (List.mem_tails _ _).mpr (List.suffix_append a b), h⟩

theorem likeMatch_one {rest : List Char} (t : List Char) :
    likeMatch ('_' :: rest) t = true ↔ ∃ c t', t = c :: t' ∧ likeMatch rest t' = true := by
  cases t with
  | nil => simp [likeMatch]
  | cons d t => simp [likeMatch]

/-- the end of a pattern of the summary leaves the ninth last character in place -/
theorem ninthLast_of_like {bucket : Bucket} {t : List Char}
    (h : likeMatch (":" ++ bucket.text).toList t = true) :
    t.reverse[8]? = match bucket with
      | .available => some 'a'
      | .withdrawPending => some 'w'
      | .offlinePayPending => some 'y' := by
  cases bucket with
  | available =>
    have hp : Literal ":available".toList := literal_of_all (by decide)
    obtain ⟨t', rfl, ht⟩ := (@likeMatch_literal _ [] hp t).mp h
    rw [List.isEmpty_iff.mp ht]
    rfl
  | withdrawPending =>
    have hp : Literal ":withdraw".toList := literal_of_all (by decide)
    have hq : Literal "pending".toList := literal_of_all (by decide)
    obtain ⟨t₁, rfl, h₁⟩ := (@likeMatch_literal _ ('_' :: "pending".toList) hp t).mp h
    obtain ⟨c, t₂, rfl, h₂⟩ := (likeMatch_one t₁).mp h₁
    obtain ⟨t₃, rfl, h₃⟩ := (@likeMatch_literal _ [] hq t₂).mp h₂
    rw [List.isEmpty_iff.mp h₃]
    rfl
  | offlinePayPending =>
    have hp : Literal ":offline".toList := literal_of_all (by decide)
    have hm : Literal "pay".toList := literal_of_all (by decide)
    have hq : Literal "pending".toList := literal_of_all (by decide)
    obtain ⟨t₁, rfl, h₁⟩ :=
      (@likeMatch_literal _ ('_' :: "pay".toList ++ '_' :: "pending".toList) hp t).mp h
    obtain ⟨c, t₂, rfl, h₂⟩ := (likeMatch_one t₁).mp h₁
    obtain ⟨t₃, rfl, h₃⟩ := (@likeMatch_literal _ ('_' :: "pending".toList) hm t₂).mp h₂
    obtain ⟨d, t₄, rfl, h₄⟩ := (likeMatch_one t₃).mp h₃
    obtain ⟨t₅, rfl, h₅⟩ := (@likeMatch_literal _ [] hq t₄).mp h₄
    rw [List.isEmpty_iff.mp h₅]
    rfl

/-- a pattern of the summary matches the accounts of its bucket, of all users, and no others -/
theorem like_user (bucket : Bucket) (a : LedgerAccount) :
    likeMatch (bucketPattern bucket).toList a.code.toList = true ↔ ∃ u, a = .user u bucket := by
  have huser : Literal "user:".toList := literal_of_all (by decide)
  have hpattern : (bucketPattern bucket).toList =
      "user:".toList ++ '%' :: (":" ++ bucket.text).toList := by
    cases bucket <;> rfl
  rw [hpattern, likeMatch_literal huser]
  constructor
  · rintro ⟨t, hcode, h⟩
    obtain ⟨x, y, rfl, hend⟩ := (likeMatch_any t).mp h
    have hhead : a.code.toList.head? = some 'u' := by
      rw [hcode]
      rfl
    cases a with
    | user u b =>
      refine ⟨u, ?_⟩
      have hninth := ninthLast_of_like hend
      have hlength : 8 < y.length := by
        by_contra hshort
        rw [List.getElem?_eq_none (by simpa using not_lt.mp hshort)] at hninth
        cases bucket <;> cases hninth
      have hsame : ninthLast (LedgerAccount.user u b).code = y.reverse[8]? := by
        rw [ninthLast, hcode, ← List.append_assoc, List.reverse_append,
          List.getElem?_append_left (by simpa using hlength)]
      rw [ninthLast_userCode, hninth] at hsame
      cases b <;> cases bucket <;> first | rfl | exact absurd hsame (by decide)
    | _ => exact absurd hhead (by decide)
  · rintro ⟨u, rfl⟩
    have hself : likeMatch (":" ++ bucket.text).toList (":" ++ bucket.text).toList = true := by
      cases bucket <;> decide
    refine ⟨u.toList ++ (":" ++ bucket.text).toList, ?_, (likeMatch_any _).mpr ⟨_, _, rfl, hself⟩⟩
    rw [LedgerAccount.code, String.toList_append, String.toList_append, String.toList_append,
      String.toList_append]
    simp

/-! ## what the totals come to -/

/-- what holds between calls: rows copy the postings, and the users posted to have ids that fit -/
structure Db.Summable (s : Db) : Prop where
  copies : s.AccountsSound ∅
  holders : ∀ row ∈ s.withdrawals, row.userId.length ≤ 64
  coded : ∀ p ∈ s.postings, ∃ a : LedgerAccount, p.account = a.code ∧ ∀ u b, a = .user u b → u.length ≤ 64

section
variable {pg : PgServer} {limits : WithdrawalLimitConfig} {s s' : Db}

theorem Db.Summable.known (hs : s.Summable) {u : String} (h : s.HasPostings u) :
    u ∈ (s.accounts.map (·.userId)).toFinset := by
  obtain ⟨p, hp, b, hcode⟩ := h
  obtain ⟨a, ha, hfits⟩ := hs.coded p hp
  have huser : a = .user u b := LedgerAccount.code_injective (ha.symm.trans hcode)
  obtain ⟨row, hrow, rfl⟩ := hs.copies.known u (hfits u b huser) ⟨p, hp, b, hcode⟩
  exact List.mem_toFinset.mpr (List.mem_map_of_mem hrow)

/-- what all users hold in these buckets, row by row -/
theorem Db.Summable.heldIn (hs : s.Summable) (B : Finset Bucket) :
    s.heldIn B = (s.accounts.map fun row => ∑ b ∈ B, s.balance (.user row.userId b)).sum := by
  rw [Db.heldIn_eq_sum B _ fun u hu => hs.known hu, List.sum_toFinset _ hs.copies.unique, List.map_map]
  rfl

/-- the rows of a bucket are those its pattern selects -/
theorem Db.Summable.isLike (hs : s.Summable) {row : LedgerPostingRow} (hrow : row ∈ s.ledgerPostings)
    (bucket : Bucket) : row.isLike bucket = true ↔ UserCode {bucket} row.ledgerAccountCode := by
  obtain ⟨a, ha, -⟩ := hs.coded row.toPosting (List.mem_map_of_mem hrow)
  have hcode : row.ledgerAccountCode = a.code := ha
  rw [LedgerPostingRow.isLike, hcode, like_user]
  constructor
  · rintro ⟨u, rfl⟩
    exact ⟨u, bucket, Finset.mem_singleton_self _, rfl⟩
  · rintro ⟨u, b, hb, h⟩
    rw [Finset.mem_singleton.mp hb] at h
    exact ⟨u, LedgerAccount.code_injective h⟩

theorem heldIn_rows (B : Finset Bucket) [DecidablePred (UserCode B)] : s.heldIn B =
    (s.ledgerPostings.map fun row => if UserCode B row.ledgerAccountCode then row.signed else 0).sum := by
  rw [Db.heldIn, net, Db.postings, List.map_map]
  congr 1
  refine List.map_congr_left fun row _ => ?_
  have hsigned : row.toPosting.signed = row.signed := rfl
  by_cases h : UserCode B row.ledgerAccountCode
  · have h' : UserCode B row.toPosting.account := h
    simp only [Function.comp, if_pos h, if_pos h', hsigned]
  · have h' : ¬ UserCode B row.toPosting.account := h
    simp only [Function.comp, if_neg h, if_neg h']

theorem Db.Summable.projectedSummary (hs : s.Summable) : getProjectedLedgerSummary s =
    (.ok ⟨s.heldIn {.available}, s.heldIn {.withdrawPending, .offlinePayPending},
      decide (0 < s.ledgerPostings.length)⟩, s) := by
  classical
  have havailable : (s.ledgerPostings.map fun row => if row.isLike .available then row.signed else 0).sum =
      s.heldIn {.available} := by
    rw [heldIn_rows]
    congr 1
    refine List.map_congr_left fun row hrow => ?_
    simp only [hs.isLike hrow]
  have hlocked : (s.ledgerPostings.map fun row =>
      if row.isLike .withdrawPending then row.signed
      else if row.isLike .offlinePayPending then row.signed else 0).sum =
      s.heldIn {.withdrawPending, .offlinePayPending} := by
    rw [heldIn_rows]
    congr 1
    refine List.map_congr_left fun row hrow => ?_
    have hboth : UserCode {.withdrawPending, .offlinePayPending} row.ledgerAccountCode ↔
        UserCode {.withdrawPending} row.ledgerAccountCode ∨
          UserCode {.offlinePayPending} row.ledgerAccountCode := by
      simp [UserCode, exists_or]
    simp only [hs.isLike hrow, hboth]
    by_cases hw : UserCode {.withdrawPending} row.ledgerAccountCode
    · rw [if_pos hw, if_pos (Or.inl hw)]
    · rw [if_neg hw]
      by_cases ho : UserCode {.offlinePayPending} row.ledgerAccountCode
      · rw [if_pos ho, if_pos (Or.inr ho)]
      · rw [if_neg ho, if_neg fun h => h.elim hw ho]
  rw [getProjectedLedgerSummary, Method.get_bind]
  simp only [parse_sumText, Method.ofExcept_bind]
  rw [havailable, hlocked]
  rfl

/-- what `getAccount` answers for a row of `accounts` -/
theorem Db.Summable.getAccount (hs : s.Summable) {row : AccountRow} (hrow : row ∈ s.accounts) {now time : String}
    (hnow : timestamp pg now = .ok time) : ∃ account, getAccount pg row.userId now s = (.ok account, s) ∧
      account.balance = s.available row.userId ∧
      account.lockedBalance = s.withdrawPending row.userId + s.offlinePayPending row.userId := by
  have hid : varchar 64 row.userId = .ok row.userId := by
    rw [varchar, hs.copies.plain row hrow]
    show (if row.userId.length ≤ 64 then _ else _) = _
    rw [if_pos (hs.copies.fits row hrow)]
    rfl
  have hensure : ensureAccount pg row.userId now s = (.ok ⟨⟩, s) := by
    simp only [ensureAccount, column, hid, hnow, Method.ofExcept_bind, Method.modify_apply]
    rw [if_pos ⟨row, hrow, rfl⟩]
  have hfind : s.accounts.find? (fun r => r.userId = row.userId) = some row := by
    cases hf : s.accounts.find? fun r => r.userId = row.userId with
    | none => exact absurd (decide_eq_true rfl) (List.find?_eq_none.mp hf row hrow)
    | some other =>
      have hother : other.userId = row.userId := by simpa using List.find?_some hf
      rw [Rows.eq_of_key hs.copies.unique (List.mem_of_find?_eq_some hf) hrow hother]
  obtain ⟨p, hp, hbalance, hlocked, -⟩ := projected_apply pg row.userId s
  have hcopy := hs.copies.copied row hrow fun h => h.elim
  have havailable : availableBalanceOf row p s = (.ok (s.available row.userId), s) := by
    rw [availableBalanceOf]
    split
    · rw [hbalance]
      rfl
    · rw [parse_text, hcopy.1]
      rfl
  have hpending : lockedBalanceOf row p s =
      (.ok (s.withdrawPending row.userId + s.offlinePayPending row.userId), s) := by
    rw [lockedBalanceOf]
    split
    · rw [hlocked]
      rfl
    · rw [parse_text, hcopy.2]
      rfl
  have hbinding : findWalletBindingByUserId row.userId s =
      (.ok (s.walletAddressBindings.find? fun r => r.userId = row.userId), s) := by
    simp only [findWalletBindingByUserId, column, hs.copies.plain row hrow, Method.ofExcept_bind]
    rfl
  refine ⟨{
    userId := row.userId
    walletAddress := (s.walletAddressBindings.find? fun r => r.userId = row.userId).map (·.walletAddress)
    balance := s.available row.userId
    lockedBalance := s.withdrawPending row.userId + s.offlinePayPending row.userId
    updatedAt := if p.hasPostings then p.updatedAt.getD row.updatedAt else row.updatedAt }, ?_, rfl, rfl⟩
  rw [Postgres.getAccount, Method.bind_ok _ hensure, Method.get_bind, Method.bind_ok _ hbinding,
    Method.bind_ok _ hp, hfind]
  dsimp only
  rw [mapAccount, Method.bind_ok _ havailable, Method.bind_ok _ hpending]
  rfl

variable (pg) in
/-- the totals of the summary are the sums over all rows of what `getAccount` reports, and each posting
is in the class of its account and in no other -/
def Db.Summarised (now : String) (s : Db) : Prop :=
  ∃ summary accounts, getLedgerSummary s = (.ok summary, s) ∧
    List.Forall₂ (fun row account => Postgres.getAccount pg row.userId now s = (.ok account, s)) s.accounts
      accounts ∧
    summary.accountCount = accounts.length ∧
    summary.availableBalance = (accounts.map (·.balance)).sum ∧
    summary.lockedBalance = (accounts.map (·.lockedBalance)).sum ∧
    summary.liabilityBalance = (accounts.map fun account => account.balance + account.lockedBalance).sum ∧
    ∀ row ∈ s.ledgerPostings, ∃ a : LedgerAccount, row.ledgerAccountCode = a.code ∧
      ∀ bucket, row.isLike bucket = true ↔ ∃ u, a = .user u bucket

theorem Db.Summable.summary (hs : s.Summable) : ∃ summary, getLedgerSummary s = (.ok summary, s) ∧
    summary.accountCount = s.accounts.length ∧
    summary.availableBalance = (s.accounts.map fun row => s.available row.userId).sum ∧
    summary.lockedBalance =
      (s.accounts.map fun row => s.withdrawPending row.userId + s.offlinePayPending row.userId).sum ∧
    summary.liabilityBalance = summary.availableBalance + summary.lockedBalance := by
  have havailable : s.heldIn {.available} = (s.accounts.map fun row => s.available row.userId).sum := by
    rw [hs.heldIn]
    simp only [Finset.sum_singleton]
    rfl
  have hlocked : s.heldIn {.withdrawPending, .offlinePayPending} =
      (s.accounts.map fun row => s.withdrawPending row.userId + s.offlinePayPending row.userId).sum := by
    rw [hs.heldIn]
    simp only [Finset.sum_pair (show Bucket.withdrawPending ≠ .offlinePayPending by decide)]
    rfl
  rw [getLedgerSummary, Method.get_bind, Method.bind_ok _ hs.projectedSummary, Method.get_bind, Method.get_bind]
  dsimp only
  by_cases hpostings : 0 < s.ledgerPostings.length
  · simp only [hpostings, decide_true, if_true]
    exact ⟨_, rfl, rfl, havailable, hlocked, rfl⟩
  · have hcopied : ∀ row ∈ s.accounts, row.balance.units = s.available row.userId ∧
        row.lockedBalance.units = s.withdrawPending row.userId + s.offlinePayPending row.userId :=
      fun row hrow => hs.copies.copied row hrow fun h => h.elim
    simp only [hpostings, decide_false, Bool.false_eq_true, if_false, parse_sumText, Method.ofExcept_bind]
    refine ⟨_, rfl, rfl, ?_, ?_, rfl⟩
    · exact congrArg List.sum (List.map_congr_left fun row hrow => (hcopied row hrow).1)
    · exact congrArg List.sum (List.map_congr_left fun row hrow => (hcopied row hrow).2)

theorem Db.Summable.summarised (hs : s.Summable) {now time : String} (hnow : timestamp pg now = .ok time) :
    s.Summarised pg now := by
  have haccount : ∀ row : AccountRow, ∃ account, row ∈ s.accounts →
      Postgres.getAccount pg row.userId now s = (.ok account, s) ∧
      account.balance = s.available row.userId ∧
      account.lockedBalance = s.withdrawPending row.userId + s.offlinePayPending row.userId := by
    intro row
    by_cases hrow : row ∈ s.accounts
    · obtain ⟨account, h⟩ := hs.getAccount hrow hnow
      exact ⟨account, fun _ => h⟩
    · exact ⟨⟨"", none, 0, 0, ""⟩, fun h => absurd h hrow⟩
  choose account haccount using haccount
  obtain ⟨summary, hsummary, hcount, havailable, hlocked, hliability⟩ := hs.summary
  have hbalances : ((s.accounts.map account).map (·.balance)).sum =
      (s.accounts.map fun row => s.available row.userId).sum := by
    rw [List.map_map]
    exact congrArg List.sum (List.map_congr_left fun row hrow => (haccount row hrow).2.1)
  have hlockeds : ((s.accounts.map account).map (·.lockedBalance)).sum =
      (s.accounts.map fun row => s.withdrawPending row.userId + s.offlinePayPending row.userId).sum := by
    rw [List.map_map]
    exact congrArg List.sum (List.map_congr_left fun row hrow => (haccount row hrow).2.2)
  refine ⟨summary, s.accounts.map account, hsummary, ?_, ?_, ?_, ?_, ?_, ?_⟩
  · rw [List.forall₂_map_right_iff, List.forall₂_same]
    exact fun row hrow => (haccount row hrow).1
  · rw [hcount, List.length_map]
  · rw [havailable, hbalances]
  · rw [hlocked, hlockeds]
  · rw [hliability, havailable, hlocked, ← hbalances, ← hlockeds, ← List.sum_map_add]
  · intro row hrow
    obtain ⟨a, ha, -⟩ := hs.coded row.toPosting (List.mem_map_of_mem hrow)
    have hcode : row.ledgerAccountCode = a.code := ha
    refine ⟨a, hcode, fun bucket => ?_⟩
    rw [LedgerPostingRow.isLike, hcode, like_user]

/-! ## runs -/

theorem summable_empty : Db.empty.Summable := ⟨sound_empty.copies, fun _ h => (by cases h), fun _ h => (by cases h)⟩

/-- tables that differ elsewhere -/
theorem Db.Summable.of_eq (hs : s.Summable) (ha : s'.accounts = s.accounts)
    (hp : s'.ledgerPostings = s.ledgerPostings) (hw : s'.withdrawals = s.withdrawals) : s'.Summable where
  copies := hs.copies.of_eq ha hp
  holders := by
    rw [hw]
    exact hs.holders
  coded := by
    rw [Db.postings, hp]
    exact hs.coded

/-- journals of users whose ids fit -/
theorem Db.Summable.wrote (hs : s.Summable) {entries : List Entry} (hwrote : Wrote s s' entries)
    (legs : List (Posting LedgerAccount ℤ))
    (hlegs : entries.flatMap Entry.legs = mapAccounts LedgerAccount.code legs)
    (hfits : ∀ leg ∈ legs, ∀ u b, leg.account = .user u b → u.length ≤ 64)
    (hrows : ∀ row ∈ s'.withdrawals, row.userId.length ≤ 64) : s'.Summable where
  copies := hwrote.copies hs.copies
  holders := hrows
  coded p hp := by
    rw [hwrote.posted.postings, hlegs] at hp
    rcases List.mem_append.mp hp with hold | hnew
    · exact hs.coded p hold
    · obtain ⟨leg, hleg, rfl⟩ := List.mem_map.mp hnew
      exact ⟨leg.account, rfl, hfits leg hleg⟩

theorem Db.Summable.wrote_nothing (hs : s.Summable) (hwrote : Wrote s s' [])
    (hrows : ∀ row ∈ s'.withdrawals, row.userId.length ≤ 64) : s'.Summable :=
  hs.wrote hwrote [] rfl (fun _ h => (by cases h)) hrows

/-- one journal -/
theorem Db.Summable.journal (hs : s.Summable) {input : JournalInput} {legs : List (Posting LedgerAccount ℤ)}
    (hwrote : Wrote s s' [input.entry legs])
    (hfits : ∀ leg ∈ legs, ∀ u b, leg.account = .user u b → u.length ≤ 64)
    (hrows : ∀ row ∈ s'.withdrawals, row.userId.length ≤ 64) : s'.Summable :=
  hs.wrote hwrote legs (List.flatMap_singleton _ _) hfits hrows

theorem move_fits {a b : LedgerAccount} {x : ℤ} (ha : ∀ u c, a = .user u c → u.length ≤ 64)
    (hb : ∀ u c, b = .user u c → u.length ≤ 64) :
    ∀ leg ∈ move a b x, ∀ u c, leg.account = .user u c → u.length ≤ 64 := by
  intro leg hleg u c hu
  rcases List.mem_cons.mp hleg with rfl | hleg
  · exact ha u c hu
  · rw [List.mem_singleton.mp hleg] at hu
    exact hb u c hu

theorem user_fits {u : String} {b : Bucket} (h : u.length ≤ 64) :
    ∀ v c, LedgerAccount.user u b = .user v c → v.length ≤ 64 := by
  intro v c hv
  rw [← (LedgerAccount.user.inj hv).1]
  exact h

theorem Db.Restated.fits {row : WithdrawalRow} {status : WithdrawalStatus} (h : s.Restated s' row status)
    (hs : s.Summable) : ∀ r ∈ s'.withdrawals, r.userId.length ≤ 64 := by
  obtain ⟨-, change, hrows, hkeeps, -⟩ := h
  intro r hr
  rw [hrows] at hr
  obtain ⟨old, hold, rfl⟩ := List.mem_map.mp hr
  split
  · rw [(hkeeps old).2.1]
    exact hs.holders old hold
  · exact hs.holders old hold

theorem Db.Advanced.fits (h : s.Advanced s') (hs : s.Summable) : ∀ r ∈ s'.withdrawals, r.userId.length ≤ 64 := by
  rcases h with hsame | ⟨row, status, hrestated, -, -⟩
  · rw [hsame]
    exact hs.holders
  · exact hrestated.fits hs

/-- a method that reads the row of the user whole: there is one only when the id fits -/
theorem fits_of_read {α : Type} {userId nowIso : String} {k : AccountRow → Op α} {a : α}
    (hs : s.Summable) (h : (do
      ensureAccount pg userId nowIso
      let row ← getAccountForUpdate userId
      k row : Op α) s = (.ok a, s')) : userId.length ≤ 64 := by
  obtain ⟨_, s₁, hens, h⟩ := Method.returns_bind.mp h
  obtain ⟨-, -, -, hsound⟩ := ensureAccount_ok hens
  obtain ⟨row, s₂, hrow, -⟩ := Method.returns_bind.mp h
  obtain ⟨-, hmem, rfl⟩ := getAccountForUpdate_ok hrow
  exact (hsound ∅ hs.copies).fits row hmem

/-- the receiver a settlement resolves to -/
def FinalizeInput.receivers (s : Db) (input : FinalizeInput) : List String :=
  match resolveOfflinePayReceiverUserId s input with
  | .ok (some receiver) => [receiver]
  | _ => []

/-- the users a call may post to without having read their row -/
def Call.unread (s : Db) : Call → List String
  | .applyExternalCredit input => [input.userId]
  | .releaseOfflinePayCollateral input => [input.userId]
  | .finalizeOfflinePaySettlement input => input.userId :: input.receivers s
  | .compensateOfflinePaySettlement input => [input.userId]
  | _ => []

/-- the tables after a call that returns, or as they were -/
theorem summable_of_returns {α : Type} {m : Op α} (hs : s.Summable) (hm : RollsBack m)
    (hreturns : ∀ a s', m s = (.ok a, s') → s'.Summable) : (m s).2.Summable := by
  rcases hrun : m s with ⟨e | a, s'⟩
  · obtain ⟨n, rfl⟩ := hm hrun
    exact hs.of_eq rfl rfl rfl
  · exact hreturns a s' hrun

theorem summable_finalize {input : FinalizeInput} {r : OfflinePaySettlementFinalizeResult} (hs : s.Summable)
    (hfits : ∀ u ∈ (Call.finalizeOfflinePaySettlement input).unread s, u.length ≤ 64)
    (h : finalizeOfflinePaySettlement pg input s = (.ok r, s')) : s'.Summable := by
  obtain ⟨-, hw, receiverUserId, hreceiver, hcases⟩ := finalizeOfflinePaySettlement_ok h
  have hrows : ∀ row ∈ s'.withdrawals, row.userId.length ≤ 64 := by
    rw [hw]
    exact hs.holders
  have huser : input.userId.length ≤ 64 := hfits _ List.mem_cons_self
  have haffected : ∀ u ∈ affectedUserIds input receiverUserId, u.length ≤ 64 := by
    intro u hu
    cases htruthy : truthy receiverUserId with
    | none =>
      rw [affectedUserIds, htruthy] at hu
      rw [List.mem_singleton.mp hu]
      exact huser
    | some receiver =>
      have hsome : receiverUserId = some receiver := by
        unfold truthy at htruthy
        split at htruthy
        · cases htruthy
        · exact htruthy
      have hmem : receiver ∈ input.receivers s := by
        rw [FinalizeInput.receivers, hreceiver, hsome]
        exact List.mem_singleton_self _
      rw [affectedUserIds, htruthy] at hu
      dsimp only at hu
      split at hu
      · rcases List.mem_cons.mp hu with rfl | hu
        · exact huser
        · rw [List.mem_singleton.mp hu]
          exact hfits _ (List.mem_cons_of_mem _ hmem)
      · rw [List.mem_singleton.mp hu]
        exact huser
  obtain ⟨legs, hflat, husers⟩ := receiverEntries_legs pg s input receiverUserId
  have hreceiverFits : ∀ leg ∈ legs, ∀ u b, leg.account = .user u b → u.length ≤ 64 :=
    fun leg hleg u b hu => haffected u (husers leg hleg u b hu)
  rcases hcases with ⟨-, -, hwrote⟩ | ⟨-, -, -, hwrote⟩
  · exact hs.wrote hwrote legs hflat hreceiverFits hrows
  · refine hs.wrote hwrote (settlementLegs pg input ++ legs) ?_ ?_ hrows
    · rw [List.flatMap_cons, hflat, mapAccounts_append]
      rfl
    · intro leg hleg u b hu
      rcases List.mem_append.mp hleg with hleg | hleg
      · rw [settlementLegs_users pg input leg hleg u b hu]
        exact huser
      · exact hreceiverFits leg hleg u b hu

theorem compensationLegs_fits {input : CompensateInput} (h : input.userId.length ≤ 64) :
    ∀ leg ∈ compensationLegs input, ∀ u b, leg.account = .user u b → u.length ≤ 64 := by
  unfold compensationLegs
  cases input.releaseAction with
  | release => exact move_fits (fun _ _ h => (by cases h)) (user_fits h)
  | adjust => exact move_fits (user_fits h) (user_fits h)

theorem reconciliationLegs_fits {u : String} {b : Bucket} {delta : ℤ} (h : u.length ≤ 64) :
    ∀ leg ∈ reconciliationLegs (.user u b) delta, ∀ v c, leg.account = .user v c → v.length ≤ 64 := by
  unfold reconciliationLegs
  split
  · exact move_fits (fun _ _ h => (by cases h)) (user_fits h)
  · exact move_fits (user_fits h) (fun _ _ h => (by cases h))

theorem summable_confirm {withdrawalId nowIso : String} {networkFee : Option NetworkFee} {w : Withdrawal}
    (hs : s.Summable) (h : confirmWithdrawal pg withdrawalId networkFee nowIso s = (.ok w, s')) :
    s'.Summable := by
  obtain ⟨row, mapped, fees, -, -, hrestated, huser, -, hfee, -, hwrote, -⟩ := confirmWithdrawal_ok h
  have hrow : mapped.userId.length ≤ 64 := by
    rw [huser]
    exact hs.holders row hrestated.1
  have hcomplete : ∀ leg ∈ completeLegs mapped, ∀ u b, leg.account = .user u b → u.length ≤ 64 :=
    move_fits (user_fits hrow) (fun _ _ h => (by cases h))
  rcases hfee with rfl | ⟨fee, hash, -, rfl⟩
  · exact hs.journal hwrote hcomplete (hrestated.fits hs)
  · refine hs.wrote hwrote (completeLegs mapped ++ withdrawalFeeLegs fee) ?_ ?_ (hrestated.fits hs)
    · rw [List.flatMap_cons, List.flatMap_singleton, mapAccounts_append]
      rfl
    · intro leg hleg
      rcases List.mem_append.mp hleg with hleg | hleg
      · exact hcomplete leg hleg
      · exact move_fits (fun _ _ h => (by cases h)) (fun _ _ h => (by cases h)) leg hleg

variable (pg limits) in
/-- the users a call posts to have ids that fit, when those it does not look up do -/
theorem Call.step_summable (hs : s.Summable) {c : Call} (hc : ∀ u ∈ c.unread s, u.length ≤ 64) :
    (c.step pg limits s).Summable := by
  have hone : ∀ {u : String}, c.unread s = [u] → u.length ≤ 64 := by
    intro u hu
    apply hc
    rw [hu]
    exact List.mem_singleton_self _
  have hsame : ∀ {s' : Db}, s'.withdrawals = s.withdrawals → ∀ row ∈ s'.withdrawals, row.userId.length ≤ 64 := by
    intro s' hw
    rw [hw]
    exact hs.holders
  cases c with
  | applyDeposit input =>
    refine summable_of_returns hs (withTransaction_rollsBack _) fun r s' h => ?_
    rcases applyDeposit_ok h with ⟨-, -, -, -, -, rfl⟩ | h
    · exact hs
    · obtain ⟨-, -, hw, ⟨depositId, hwrote⟩, hfits⟩ := applyNewDeposit_ok h
      exact hs.journal hwrote (move_fits (fun _ _ h => (by cases h)) (user_fits (hfits hs.copies))) (hsame hw)
  | completeDeposit depositId =>
    obtain ⟨rows, hrows, -⟩ := completeDeposit_writes pg depositId s
    show (Postgres.completeDeposit pg depositId s).2.Summable
    rw [hrows]
    exact hs.of_eq rfl rfl rfl
  | applyExternalCredit input =>
    refine summable_of_returns hs
      (rollsBack_after_check (rollsBack_after_check (withTransaction_rollsBack _))) fun r s' h => ?_
    obtain ⟨-, -, ⟨-, -, rfl⟩ | ⟨-, h⟩⟩ := applyExternalCredit_ok h
    · exact hs
    · obtain ⟨-, -, hw, hwrote⟩ := applyNewExternalCredit_ok h
      exact hs.journal hwrote (move_fits (fun _ _ h => (by cases h)) (user_fits (hone rfl))) (hsame hw)
  | transfer input =>
    refine summable_of_returns hs (rollsBack_after_check (withTransaction_rollsBack _)) fun r s' h => ?_
    obtain ⟨-, ⟨-, -, -, -, -, -, -, rfl⟩ | ⟨-, h⟩⟩ := transfer_ok h
    · exact hs
    · obtain ⟨-, -, -, hw, hwrote, hcover⟩ := transferNew_ok h
      obtain ⟨-, hfrom, hto⟩ := hcover hs.copies
      exact hs.journal hwrote (move_fits (user_fits hfrom) (user_fits hto)) (hsame hw)
  | requestWithdrawal input =>
    refine summable_of_returns hs (rollsBack_after_check (withTransaction_rollsBack _)) fun r s' h => ?_
    rcases requestWithdrawal_ok h with ⟨-, -, -, -, -, rfl⟩ | h
    · exact hs
    · obtain ⟨-, ⟨row, huser, -, -, -, -, hw⟩, -, ⟨withdrawalId, hwrote⟩, hcover⟩ := requestNewWithdrawal_ok h
      obtain ⟨-, hfits⟩ := hcover hs.copies
      refine hs.journal hwrote (move_fits (user_fits hfits) (user_fits hfits)) fun other hother => ?_
      rw [hw] at hother
      rcases List.mem_append.mp hother with hold | hnew
      · exact hs.holders other hold
      · rw [List.mem_singleton.mp hnew, huser]
        exact length_cut_le 64 _
  | confirmWithdrawalExternalAuth withdrawalId provider requestId nowIso =>
    refine summable_of_returns hs (withTransaction_rollsBack _) fun r s' h => ?_
    obtain ⟨hw, -, hwrote⟩ := confirmWithdrawalExternalAuth_ok h
    exact hs.wrote_nothing hwrote (hw.fits hs)
  | markWithdrawalReviewRequired withdrawalId nowIso =>
    refine summable_of_returns hs (withTransaction_rollsBack _) fun r s' h => ?_
    obtain ⟨hw, -, hwrote⟩ := markWithdrawalReviewRequired_ok h
    exact hs.wrote_nothing hwrote (hw.fits hs)
  | approveWithdrawal withdrawalId input nowIso =>
    refine summable_of_returns hs (withTransaction_rollsBack _) fun r s' h => ?_
    obtain ⟨hw, -, hwrote⟩ := approveWithdrawal_ok h
    exact hs.wrote_nothing hwrote (hw.fits hs)
  | broadcastWithdrawal withdrawalId txHash nowIso =>
    refine summable_of_returns hs (withTransaction_rollsBack _) fun r s' h => ?_
    obtain ⟨hw, -, hwrote⟩ := broadcastWithdrawal_ok h
    exact hs.wrote_nothing hwrote (hw.fits hs)
  | confirmWithdrawal withdrawalId networkFee nowIso =>
    exact summable_of_returns hs (withTransaction_rollsBack _) fun r s' h => summable_confirm hs h
  | failWithdrawal withdrawalId reason nowIso =>
    refine summable_of_returns hs (withTransaction_rollsBack _) fun r s' h => ?_
    obtain ⟨row, mapped, -, -, hrestated, huser, -, -, hwrote, -⟩ := failWithdrawal_ok h
    have hrow : mapped.userId.length ≤ 64 := by
      rw [huser]
      exact hs.holders row hrestated.1
    exact hs.journal hwrote (move_fits (user_fits hrow) (user_fits hrow)) (hrestated.fits hs)
  | createSweepRecord input =>
    refine summable_of_returns hs (withTransaction_rollsBack _) fun r s' h => ?_
    obtain ⟨rows, n, rfl⟩ := createSweepRecord_ok h
    exact hs.of_eq rfl rfl rfl
  | confirmSweep sweepId note networkFee nowIso =>
    obtain ⟨-, hw, entries, hwrote, hentries⟩ := confirmSweep_writes pg sweepId note networkFee nowIso s
    rcases hentries with ⟨fee, hash, rfl, rfl⟩ | hnone
    · exact hs.journal hwrote (move_fits (fun _ _ h => (by cases h)) (fun _ _ h => (by cases h))) (hsame hw)
    · exact hs.wrote hwrote [] (List.flatMap_eq_nil_iff.mpr hnone) (fun _ h => (by cases h)) (hsame hw)
  | lockOfflinePayCollateral input =>
    refine summable_of_returns hs (withTransaction_rollsBack _) fun r s' h => ?_
    rcases lockOfflinePayCollateral_ok h with ⟨-, -, rfl⟩ | ⟨-, h⟩
    · exact hs
    · obtain ⟨-, -, hw, hwrote, -⟩ := lockNewCollateral_ok h
      have hfits : input.userId.length ≤ 64 := fits_of_read hs h
      exact hs.journal hwrote (move_fits (user_fits hfits) (user_fits hfits)) (hsame hw)
  | releaseOfflinePayCollateral input =>
    refine summable_of_returns hs (withTransaction_rollsBack _) fun r s' h => ?_
    rcases releaseOfflinePayCollateral_ok h with ⟨-, -, rfl⟩ | ⟨-, h⟩
    · exact hs
    · obtain ⟨-, -, hw, hwrote, -⟩ := releaseNewCollateral_ok h
      exact hs.journal hwrote (move_fits (user_fits (hone rfl)) (user_fits (hone rfl))) (hsame hw)
  | finalizeOfflinePaySettlement input =>
    exact summable_of_returns hs (withTransaction_rollsBack _) fun r s' h => summable_finalize hs hc h
  | compensateOfflinePaySettlement input =>
    refine summable_of_returns hs (withTransaction_rollsBack _) fun r s' h => ?_
    rcases compensateOfflinePaySettlement_ok h with ⟨-, -, rfl⟩ | ⟨-, h⟩
    · exact hs
    · obtain ⟨-, -, hw, hwrote⟩ := compensateNew_ok h
      exact hs.journal hwrote (compensationLegs_fits (hone rfl)) (hsame hw)
  | upsertOfflinePayDevice input =>
    obtain ⟨devices, hdevices⟩ := upsertOfflinePayDevice_writes input s
    show (Postgres.upsertOfflinePayDevice input s).2.Summable
    rw [hdevices]
    exact hs.of_eq rfl rfl rfl
  | reconcileOfflinePayUserBalance input =>
    refine summable_of_returns hs (withTransaction_rollsBack _) fun r s' h => ?_
    have hfits : input.userId.length ≤ 64 := fits_of_read hs (withTransaction_ok h)
    obtain ⟨-, hw, hquiet | ⟨delta, -, hwrote⟩⟩ := reconcileOfflinePayUserBalance_ok h
    · exact hs.wrote_nothing hquiet (hsame hw)
    · exact hs.journal hwrote (reconciliationLegs_fits hfits) (hsame hw)
  | reconcileOfflinePayPendingBalance input =>
    refine summable_of_returns hs (withTransaction_rollsBack _) fun r s' h => ?_
    have hfits : input.userId.length ≤ 64 := fits_of_read hs (withTransaction_ok h)
    obtain ⟨-, hw, hquiet | ⟨delta, -, hwrote⟩⟩ := reconcileOfflinePayPendingBalance_ok h
    · exact hs.wrote_nothing hquiet (hsame hw)
    · exact hs.journal hwrote (reconciliationLegs_fits hfits) (hsame hw)
  | _ =>
    -- the remaining steps of a sweep
    obtain ⟨rows, hrows⟩ := stepSweep_writes pg _ _ _ _ s
    exact (congrArg Db.Summable hrows).mpr (hs.of_eq rfl rfl rfl)

/-! ## the reads that write -/

theorem summable_ensureAccount {userId nowIso : String} {v : Unit} (hs : s.Summable)
    (h : ensureAccount pg userId nowIso s = (.ok v, s')) : s'.Summable := by
  have hwrote := ensureAccount_wrote h
  obtain ⟨⟨rows, rfl⟩, -⟩ := ensureAccount_ok h
  exact hs.wrote_nothing hwrote hs.holders

/-- a method that keeps what the summary needs, whatever its outcome -/
def KeepsSummable {α : Type} (m : Op α) : Prop := Method.Keeps (fun s s' : Db => s.Summable → s'.Summable) m

theorem keeps_bind {α β : Type} {m : Op α} {f : α → Op β} (hm : KeepsSummable m)
    (hf : ∀ a, KeepsSummable (f a)) : KeepsSummable (m >>= f) :=
  Method.Keeps.bind (fun h h' hs => h' (h hs)) hm hf

/-- a method that writes nothing -/
theorem keeps_of_same {α : Type} {m : Op α} (h : ∀ s, (m s).2 = s) : KeepsSummable m := by
  intro s hs
  rw [h s]
  exact hs

theorem keeps_column {α : Type} (value : Except LedgerError α) : KeepsSummable (column value) :=
  keeps_of_same fun _ => rfl

theorem keeps_throwWhen (c : Prop) [Decidable c] (e : LedgerError) :
    KeepsSummable (Method.throwWhen c e : Op PUnit) := by
  rw [Method.throwWhen]
  split
  · exact keeps_of_same fun _ => rfl
  · exact keeps_of_same fun _ => rfl

theorem keeps_transaction {α : Type} {work : Op α} (h : ∀ {s a s'}, s.Summable → work s = (.ok a, s') → s'.Summable) :
    KeepsSummable (withTransaction work) := fun _ hs =>
  summable_of_returns hs (withTransaction_rollsBack work) fun _ _ hrun => h hs (withTransaction_ok hrun)

theorem KeepsSummable.returns {α : Type} {m : Op α} (h : KeepsSummable m) {a : α} (hs : s.Summable)
    (hrun : m s = (.ok a, s')) : s'.Summable := by
  have hkept := h s hs
  rwa [hrun] at hkept

theorem keeps_ensureAccount (userId nowIso : String) : KeepsSummable (ensureAccount pg userId nowIso) := by
  intro s hs
  rcases hrun : ensureAccount pg userId nowIso s with ⟨e | v, s'⟩
  · have hsame : (ensureAccount pg userId nowIso s).2 = s := by
      rcases Method.throws_bind.mp hrun with h | ⟨id, s₁, hid, h⟩
      · rw [hrun]
        exact (Prod.mk.inj h).2.symm
      · obtain ⟨-, rfl⟩ := column_ok hid
        rcases Method.throws_bind.mp h with h | ⟨time, s₁, ht, h⟩
        · rw [hrun]
          exact (Prod.mk.inj h).2.symm
        · cases (Prod.mk.inj h).1
    rw [hrun] at hsame
    show s'.Summable
    rw [show s' = s from hsame]
    exact hs
  · exact summable_ensureAccount hs hrun

theorem keeps_findWalletBindingByUserId (userId : String) : KeepsSummable (findWalletBindingByUserId userId) :=
  keeps_bind (keeps_column _) fun _ => keeps_of_same fun _ => rfl

theorem keeps_mapAccount (row : AccountRow) (binding : Option WalletAddressBindingRow) (p : ProjectedBalances) :
    KeepsSummable (mapAccount row binding p) := by
  refine keeps_of_same fun s => ?_
  unfold mapAccount availableBalanceOf lockedBalanceOf
  rw [parse_text, parse_text]
  cases p.hasPostings
  · rfl
  · rfl

theorem keeps_getAccount (userId nowIso : String) : KeepsSummable (getAccount pg userId nowIso) := by
  refine keeps_bind (keeps_ensureAccount userId nowIso) fun _ => ?_
  refine keeps_bind (keeps_of_same fun _ => rfl) fun s => ?_
  refine keeps_bind (keeps_findWalletBindingByUserId userId) fun binding => ?_
  refine keeps_bind (keeps_of_same fun s => ?_) fun p => ?_
  · obtain ⟨p, hp, -⟩ := projected_apply pg userId s
    rw [hp]
  · cases s.accounts.find? fun row => row.userId = userId with
    | none => exact keeps_of_same fun _ => rfl
    | some row => exact keeps_mapAccount row binding p

theorem keeps_upsertWalletBinding (userId walletAddress nowIso : String) :
    KeepsSummable (upsertWalletBinding pg userId walletAddress nowIso) := by
  refine keeps_bind (keeps_column _) fun id => keeps_bind (keeps_column _) fun address =>
    keeps_bind (keeps_column _) fun createdAt => keeps_bind (keeps_of_same fun _ => rfl) fun _ =>
    keeps_bind (keeps_throwWhen _ _) fun _ => ?_
  intro s hs
  rw [Method.modify_apply]
  split
  · exact hs.of_eq rfl rfl rfl
  · exact hs.of_eq rfl rfl rfl

theorem keeps_bindWalletAddress (userId walletAddress nowIso : String) :
    KeepsSummable (bindWalletAddress pg userId walletAddress nowIso) := by
  refine keeps_transaction fun hs hrun => ?_
  refine KeepsSummable.returns ?_ hs hrun
  refine keeps_bind (keeps_ensureAccount userId nowIso) fun _ => ?_
  refine keeps_bind (keeps_bind (keeps_bind (keeps_column _) fun _ => keeps_of_same fun _ => rfl)
    fun _ => keeps_of_same fun _ => rfl) fun _ => ?_
  refine keeps_bind (keeps_bind (keeps_column _) fun _ => keeps_of_same fun _ => rfl) fun _ => ?_
  refine keeps_bind (keeps_bind (keeps_column _) fun _ => keeps_of_same fun _ => rfl) fun existing => ?_
  refine keeps_bind (keeps_throwWhen _ _) fun _ => ?_
  refine keeps_bind (keeps_upsertWalletBinding userId walletAddress nowIso) fun _ => ?_
  refine keeps_bind (keeps_findWalletBindingByUserId userId) fun bound => ?_
  cases bound with
  | none => exact keeps_of_same fun _ => rfl
  | some row => exact keeps_of_same fun _ => rfl

theorem rebuildEach_ok {nowIso : String} {userIds : List String} {v : Unit} (hs : s.Summable)
    (h : rebuildEach pg nowIso userIds s = (.ok v, s')) : s'.Summable := by
  induction userIds generalizing s with
  | nil =>
    obtain ⟨-, rfl⟩ := Method.pure_returns.mp h
    exact hs
  | cons userId userIds ih =>
    obtain ⟨_, s₁, hsync, h⟩ := Method.returns_bind.mp h
    obtain ⟨⟨rows, rfl⟩, -, hsound⟩ := sync_ok hsync
    exact ih ⟨hsound (hs.copies.mono (Set.empty_subset _)), hs.holders, hs.coded⟩ h

theorem keeps_rebuild (nowIso : String) : KeepsSummable (rebuildAccountProjections pg nowIso) := by
  refine keeps_bind (keeps_of_same fun _ => rfl) fun s => keeps_bind ?_ fun _ => keeps_of_same fun _ => rfl
  exact keeps_transaction fun hs hrun => rebuildEach_ok hs hrun

end

/-! ## serial runs of all that writes accounts or postings -/

inductive Access where
  | call (c : Call)
  | getAccount (userId nowIso : String)
  | bindWalletAddress (userId walletAddress nowIso : String)
  | rebuildAccountProjections (nowIso : String)

def Access.step (pg : PgServer) (limits : WithdrawalLimitConfig) : Access → Db → Db
  | .call c, s => c.step pg limits s
  | .getAccount userId nowIso, s => (Postgres.getAccount pg userId nowIso s).2
  | .bindWalletAddress userId walletAddress nowIso, s =>
    (Postgres.bindWalletAddress pg userId walletAddress nowIso s).2
  | .rebuildAccountProjections nowIso, s => (Postgres.rebuildAccountProjections pg nowIso s).2

/-- the users that are posted to without their row being read have ids that fit the row -/
def Access.Fits : Access → Db → Prop
  | .call c, s => ∀ u ∈ c.unread s, u.length ≤ 64
  | _, _ => True

theorem Access.step_summable (pg : PgServer) (limits : WithdrawalLimitConfig) (a : Access) (s : Db)
    (ha : a.Fits s) (hs : s.Summable) : (a.step pg limits s).Summable := by
  cases a with
  | call c => exact Call.step_summable pg limits hs ha
  | getAccount userId nowIso => exact keeps_getAccount userId nowIso s hs
  | bindWalletAddress userId walletAddress nowIso => exact keeps_bindWalletAddress userId walletAddress nowIso s hs
  | rebuildAccountProjections nowIso => exact keeps_rebuild nowIso s hs

/-- **after every serial run the totals are those of the accounts, when the ids posted to fit** -/
theorem ledger_summary (pg : PgServer) (limits : WithdrawalLimitConfig) (calls : List Access)
    (h : Along (Access.step pg limits) Access.Fits calls Db.empty) {now time : String}
    (hnow : timestamp pg now = .ok time) :
    (runCalls (Access.step pg limits) calls Db.empty).Summarised pg now :=
  (run_invariant_along (Access.step_summable pg limits) h summable_empty).summarised hnow

/-- the calls of the example, with the reads and a rebuild -/
def exampleAccesses : List Access :=
  .bindWalletAddress "alice" "TWalletOfAlice" "2026-01-01T00:00:00.000Z" :: exampleCalls.map .call ++
    [.getAccount "carol" "2026-01-02T00:00:00.000Z", .rebuildAccountProjections "2026-01-02T00:00:00.000Z"]

theorem exampleAccesses_fit : ∀ a ∈ exampleAccesses, ∀ s, a.Fits s := by
  have hreceivers : ∀ (s : Db) (input : FinalizeInput), input.receiverUserId = some "bob" →
      input.userId = "alice" → input.receivers s = ["bob"] := by
    intro s input hreceiver huser
    have htrim : truthy (some (jsTrim "bob")) = some "bob" := by decide
    rw [FinalizeInput.receivers, resolveOfflinePayReceiverUserId, hreceiver, huser, Option.map_some, htrim]
    rfl
  intro a ha s
  simp only [exampleAccesses, exampleCalls, List.map_cons, List.map_nil, List.cons_append, List.nil_append,
    List.mem_cons, List.not_mem_nil, or_false] at ha
  rcases ha with rfl | rfl | rfl | rfl | rfl | rfl | rfl
  · trivial
  · exact fun u hu => absurd hu List.not_mem_nil
  · exact fun u hu => absurd hu List.not_mem_nil
  · exact fun u hu => absurd hu List.not_mem_nil
  · intro u hu
    rcases List.mem_cons.mp hu with rfl | hu
    · decide
    · rw [hreceivers s _ rfl rfl] at hu
      rw [List.mem_singleton.mp hu]
      decide
  · trivial
  · trivial

theorem ledger_summary_example :
    (runCalls (Access.step .numbered ⟨10000000, 10000000⟩) exampleAccesses Db.empty).Summarised .numbered
      "2026-01-03T00:00:00.000Z" :=
  ledger_summary .numbered _ _ (Along.of_forall exampleAccesses_fit _)
    (show timestamp .numbered _ = .ok "2026-01-03T00:00:00.000Z" by decide)

/-- a credit for an id of 64 characters and a blank -/
def paddedCredit : ExternalCreditInput where
  userId := "0123456789012345678901234567890123456789012345678901234567890123 "
  amount := 5000000
  currencyCode := "KORI"
  journalType := "foxya_balance_credit"
  referenceType := "foxya_balance_credit"
  referenceId := "1"
  description := none
  nowIso := "2026-01-01T00:00:00.000Z"

/-- its row is made for the id without the blank, and its posting is on the account of the id with it -/
theorem summary_exceeds :
    ∃ s, s = runCalls (Access.step .numbered ⟨10000000, 10000000⟩) [.call (.applyExternalCredit paddedCredit)]
        Db.empty ∧
      (getLedgerSummary s).1.toOption.map (·.availableBalance) = some 5000000 ∧
      (s.accounts.map fun row => (getAccount .numbered row.userId "2026-01-03T00:00:00.000Z" s).1.toOption.map
        (·.balance)) = [some 0] ∧
      ¬ s.Summarised .numbered "2026-01-03T00:00:00.000Z" := by
  refine ⟨_, rfl, ?_⟩
  generalize hs : runCalls (Access.step .numbered ⟨10000000, 10000000⟩)
    [.call (.applyExternalCredit paddedCredit)] Db.empty = s
  have htotal : (getLedgerSummary s).1.toOption.map (·.availableBalance) = some 5000000 := by
    rw [← hs]
    decide +kernel
  have hread : (s.accounts.map fun row => (getAccount .numbered row.userId "2026-01-03T00:00:00.000Z"
      s).1.toOption.map (·.balance)) = [some 0] := by
    rw [← hs]
    decide +kernel
  refine ⟨htotal, hread, ?_⟩
  rintro ⟨summary, accounts, hsummary, haccounts, -, havailable, -⟩
  have hsums : ∀ (rows : List AccountRow) (accounts : List Account),
      List.Forall₂ (fun row account => getAccount .numbered row.userId "2026-01-03T00:00:00.000Z" s =
        (.ok account, s)) rows accounts →
      (rows.map fun row => (getAccount .numbered row.userId "2026-01-03T00:00:00.000Z" s).1.toOption.map
        (·.balance)) = accounts.map fun account => some account.balance := by
    intro rows accounts h
    induction h with
    | nil => rfl
    | cons hrow _ ih =>
      rw [List.map_cons, List.map_cons, ih, hrow]
      rfl
  rw [hsummary] at htotal
  rw [hsums _ _ haccounts] at hread
  cases accounts with
  | nil => cases hread
  | cons account accounts =>
    obtain ⟨hzero, hnone⟩ := List.cons.inj hread
    rw [List.map_eq_nil_iff.mp hnone] at havailable
    have hfive : summary.availableBalance = 5000000 := Option.some.inj htotal
    have hbalance : account.balance = 0 := Option.some.inj hzero
    rw [hfive] at havailable
    simp [hbalance] at havailable

end Postgres
