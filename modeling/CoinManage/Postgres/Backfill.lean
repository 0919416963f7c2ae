import CoinManage.Lib.Collect
import CoinManage.Lib.Removal
import CoinManage.Postgres.Accounts

/-!
# The opening balances

V13 gives every account with money but without postings a journal that debits the opening balance and
credits the user's accounts.  The journal is linked to its account by a reference, `account:` and the
user's id in a `VARCHAR(64)`, and the codes of the credited accounts are made from the reference again
by removing every `account:` in it.

* `backfill_ok`        what a migration that goes through has written;
* `backfill_returns`   what it writes when the ids survive the way into the reference and back;
* `opening_balances`   every balance is preserved exactly when the ids with money do, and the sums fit;
* `misattributed`      an id that contains `account:`.
-/

set_option linter.unusedSectionVars false

namespace Postgres
open DoubleEntry

/-! ## inserts -/

/-- `on conflict (key) do nothing`: the rows that are inserted -/
def newRows {ρ : Type} (key : ρ → String) : (seen : List String) → List ρ → List ρ
  | _, [] => []
  | seen, row :: rows =>
    if key row ∈ seen then newRows key seen rows else row :: newRows key (key row :: seen) rows

def insertNew {ρ : Type} (key : ρ → String) (rows table : List ρ) : List ρ :=
  table ++ newRows key (table.map key) rows

/-! ## the migration -/

/-- the column of `accounts` that is posted to a bucket -/
def AccountRow.amount (row : AccountRow) : Bucket → Numeric
  | .available => row.balance
  | .withdrawPending => row.lockedBalance
  | .offlinePayPending => .zero

/-- the rows with money that have no postings yet -/
def Db.pendingBackfill (s : Db) : List AccountRow :=
  s.accounts.filter fun row =>
    ((row.amount .available).units ≠ 0 ∨ (row.amount .withdrawPending).units ≠ 0) ∧
    ¬ ∃ posting ∈ s.ledgerPostings,
      posting.ledgerAccountCode = (LedgerAccount.user row.userId .available).code ∨
      posting.ledgerAccountCode = (LedgerAccount.user row.userId .withdrawPending).code

def openingBalanceCode : String := "system:equity:opening_balance"

def userAccountRow (bucket : Bucket) (row : AccountRow) : Except LedgerError LedgerAccountRow := do
  let code ← varchar 128 (LedgerAccount.user row.userId bucket).code
  return ⟨code, .liability, "KORI", row.updatedAt⟩

/-- `replace(reference_id, 'account:', '')` -/
def withoutAccount (referenceId : String) : String :=
  String.ofList (Removal.removeAll "account:".toList referenceId.toList)

/-- the sum of two amounts, in a `NUMERIC(36, 6)` -/
def Numeric.add (a b : Numeric) : Except LedgerError Numeric :=
  if h : (a.units + b.units).natAbs < 10 ^ 36 then .ok ⟨a.units + b.units, h⟩
  else .error (.database "22003")

section
variable (md5 : String → String)

/-- the journal of a row; its id is the digits of an MD5 as a UUID -/
def openingJournal (row : AccountRow) : Except LedgerError LedgerJournalRow := do
  let referenceId ← varchar 64 ("account:" ++ row.userId)
  return {
    journalId := md5 ("opening-balance:" ++ row.userId)
    journalType := "opening_balance"
    referenceType := "opening_balance"
    referenceId := referenceId
    currencyCode := "KORI"
    description := some ("opening balance backfill for " ++ row.userId)
    createdAt := row.updatedAt }

/-- `where 'account:' || pb.user_id = insert_journals.reference_id` -/
def openingOf (pending : List AccountRow) (journal : LedgerJournalRow) : Option AccountRow :=
  pending.find? fun row => "account:" ++ row.userId = journal.referenceId

def equityRow (pending : List AccountRow) (journal : LedgerJournalRow) :
    Except LedgerError LedgerPostingRow :=
  match openingOf pending journal with
  | none => .error (.database "23502")
  | some row => do
    let amount ← row.balance.add row.lockedBalance
    return ⟨md5 (journal.referenceId ++ ":equity"), journal.journalId, openingBalanceCode, .debit, amount,
      journal.createdAt⟩

def userRows (pending : List AccountRow) (bucket : Bucket) (journal : LedgerJournalRow) :
    Except LedgerError (List LedgerPostingRow) :=
  match openingOf pending journal with
  | none => return []
  | some row =>
    if (row.amount bucket).units ≠ 0 then do
      let code ← varchar 128 (LedgerAccount.user (withoutAccount journal.referenceId) bucket).code
      return [⟨md5 (journal.referenceId ++ ":" ++ bucket.text), journal.journalId, code, .credit,
        row.amount bucket, journal.createdAt⟩]
    else return []

/-- V13: its two statements, the second with all its parts over one snapshot; the foreign key of the
postings is checked at the end -/
def backfill (now : String) (s : Db) : Except LedgerError Db := do
  let pending := s.pendingBackfill
  let availables ← (pending.filter fun row => (row.amount .available).units ≠ 0).mapM
    (userAccountRow .available)
  let withdrawPendings ← (pending.filter fun row => (row.amount .withdrawPending).units ≠ 0).mapM
    (userAccountRow .withdrawPending)
  let ledgerAccounts := insertNew LedgerAccountRow.ledgerAccountCode (availables ++ withdrawPendings)
    (insertNew LedgerAccountRow.ledgerAccountCode [⟨openingBalanceCode, .equity, "KORI", now⟩]
      s.ledgerAccounts)
  let journals ← pending.mapM (openingJournal md5)
  let inserted := newRows LedgerJournalRow.journalId (s.ledgerJournals.map (·.journalId)) journals
  let equity ← inserted.mapM (equityRow md5 pending)
  let available ← inserted.mapM (userRows md5 pending .available)
  let withdrawPending ← inserted.mapM (userRows md5 pending .withdrawPending)
  let postings := newRows LedgerPostingRow.postingId (s.ledgerPostings.map (·.postingId))
    (equity ++ available.flatten ++ withdrawPending.flatten)
  if ∀ posting ∈ postings, posting.ledgerAccountCode ∈ ledgerAccounts.map (·.ledgerAccountCode) then
    return { s with
      ledgerAccounts := ledgerAccounts
      ledgerJournals := s.ledgerJournals ++ inserted
      ledgerPostings := s.ledgerPostings ++ postings }
  else throw (.database "23503")

/-! ## what is claimed of it -/

/-- Tables without postings of the users in `accounts`.  Ids and references are as the columns store
them, and no other row has an id made from an MD5. -/
structure Unposted (s : Db) : Prop where
  distinct : (s.accounts.map (·.userId)).Nodup
  stored : ∀ row ∈ s.accounts, varchar 64 row.userId = .ok row.userId
  unposted : ∀ row ∈ s.accounts, ∀ bucket, ∀ posting ∈ s.ledgerPostings,
    posting.ledgerAccountCode ≠ (LedgerAccount.user row.userId bucket).code
  owned : ∀ posting ∈ s.ledgerPostings, posting.journalId ∈ s.ledgerJournals.map (·.journalId)
  newJournals : ∀ text, md5 text ∉ s.ledgerJournals.map (·.journalId)
  newPostings : ∀ text, md5 text ∉ s.ledgerPostings.map (·.postingId)

/-- the journals that were inserted are balanced, the projected balances are those of `accounts`, and
a posting on a user's account belongs to the user's journal -/
structure Preserves (pg : PgServer) (s s' : Db) : Prop where
  balanced : ∀ journal ∈ s'.ledgerJournals, journal ∉ s.ledgerJournals →
    Balanced (s'.legsOf journal.journalId)
  projected : ∀ row ∈ s.accounts, ∃ p, getProjectedUserBalances pg row.userId s' = (.ok p, s') ∧
    p.balance = row.balance.units ∧ p.lockedBalance = row.lockedBalance.units
  attributed : ∀ posting ∈ s'.ledgerPostings, posting ∉ s.ledgerPostings → ∀ userId bucket,
    posting.ledgerAccountCode = (LedgerAccount.user userId bucket).code →
    ∃ journal ∈ s'.ledgerJournals, journal.journalId = posting.journalId ∧
      journal.referenceId = "account:" ++ userId

end

/-- the id survives, and the sum of the amounts fits its column -/
structure AccountRow.Fits (row : AccountRow) : Prop where
  plain : ¬ "account:".toList <:+: row.userId.toList
  short : row.userId.length ≤ 56
  sum : (row.balance.units + row.lockedBalance.units).natAbs < 10 ^ 36

/-! ## lists of rows -/

section
variable {ρ : Type} {key : ρ → String} {seen : List String} {rows : List ρ}

theorem newRows_subset : newRows key seen rows ⊆ rows := by
  induction rows generalizing seen with
  | nil => exact List.Subset.refl _
  | cons row rows ih =>
    rw [newRows]
    split
    · exact fun r hr => List.mem_cons_of_mem _ (ih hr)
    · intro r hr
      rcases List.mem_cons.mp hr with rfl | hr
      · exact List.mem_cons_self
      · exact List.mem_cons_of_mem _ (ih hr)

/-- rows with distinct new keys are all inserted -/
theorem newRows_eq (hnd : (rows.map key).Nodup) (hnew : ∀ row ∈ rows, key row ∉ seen) :
    newRows key seen rows = rows := by
  induction rows generalizing seen with
  | nil => rfl
  | cons row rows ih =>
    obtain ⟨hfresh, hrest⟩ := List.nodup_cons.mp hnd
    rw [newRows, if_neg (hnew row List.mem_cons_self)]
    congr 1
    apply ih hrest
    intro r hr hmem
    rcases List.mem_cons.mp hmem with heq | hmem
    · exact hfresh (heq ▸ List.mem_map_of_mem hr)
    · exact hnew r (List.mem_cons_of_mem _ hr) hmem

/-- the key of every row is there in the end -/
theorem mem_insertNew {table : List ρ} {row : ρ} (h : row ∈ rows) :
    key row ∈ (insertNew key rows table).map key := by
  have hall : ∀ (rows : List ρ) (seen : List String), row ∈ rows →
      key row ∈ seen ++ (newRows key seen rows).map key := by
    intro rows
    induction rows with
    | nil => exact fun _ h => absurd h List.not_mem_nil
    | cons r rows ih =>
      intro seen hr
      rw [newRows]
      split
      · next hseen =>
        rcases List.mem_cons.mp hr with rfl | hr
        · exact List.mem_append_left _ hseen
        · exact ih seen hr
      · rw [List.map_cons]
        rcases List.mem_cons.mp hr with rfl | hr
        · exact List.mem_append_right _ List.mem_cons_self
        · rcases List.mem_append.mp (ih (key r :: seen) hr) with hmem | hmem
          · rcases List.mem_cons.mp hmem with heq | hmem
            · rw [heq]
              exact List.mem_append_right _ List.mem_cons_self
            · exact List.mem_append_left _ hmem
          · exact List.mem_append_right _ (List.mem_cons_of_mem _ hmem)
  rw [insertNew, List.map_append]
  exact hall rows _ h

theorem mem_insertNew_of_table {table : List ρ} {k : String} (h : k ∈ table.map key) :
    k ∈ (insertNew key rows table).map key := by
  rw [insertNew, List.map_append]
  exact List.mem_append_left _ h

end

/-! ## what a migration that goes through has written -/

theorem toList_account (userId : String) :
    ("account:" ++ userId).toList = "account:".toList ++ userId.toList := String.toList_append

/-- the reference's id is the user's without any `account:` -/
theorem withoutAccount_reference (userId : String) : withoutAccount ("account:" ++ userId) =
    String.ofList (Removal.removeAll "account:".toList userId.toList) := by
  rw [withoutAccount, toList_account, Removal.removeAll_append (by decide)]

theorem withoutAccount_eq_iff (userId : String) :
    withoutAccount ("account:" ++ userId) = userId ↔ ¬ "account:".toList <:+: userId.toList := by
  rw [withoutAccount_reference, ← Removal.removeAll_eq_self_iff (by decide)]
  constructor
  · intro h
    have hlist := congrArg String.toList h
    rwa [String.toList_ofList] at hlist
  · intro h
    rw [h, String.ofList_toList]

theorem length_withoutAccount_lt {userId : String} (h : "account:".toList <:+: userId.toList) :
    (withoutAccount ("account:" ++ userId)).length < userId.length := by
  rw [withoutAccount_reference, String.length_ofList, ← String.length_toList]
  exact Removal.length_removeAll_lt (by decide) h

section
variable {md5 : String → String} {now : String} {s s' : Db}

/-- what a migration that goes through has written -/
theorem backfill_ok (h : backfill md5 now s = .ok s') :
    ∃ journals inserted equity available withdrawPending,
      s.pendingBackfill.mapM (openingJournal md5) = .ok journals ∧
      inserted = newRows LedgerJournalRow.journalId (s.ledgerJournals.map (·.journalId)) journals ∧
      inserted.mapM (equityRow md5 s.pendingBackfill) = .ok equity ∧
      inserted.mapM (userRows md5 s.pendingBackfill .available) = .ok available ∧
      inserted.mapM (userRows md5 s.pendingBackfill .withdrawPending) = .ok withdrawPending ∧
      s'.ledgerPostings = s.ledgerPostings ++ newRows LedgerPostingRow.postingId
        (s.ledgerPostings.map (·.postingId)) (equity ++ available.flatten ++ withdrawPending.flatten) := by
  obtain ⟨_, -, h⟩ := Except.bind_ok h
  obtain ⟨_, -, h⟩ := Except.bind_ok h
  obtain ⟨journals, hjournals, h⟩ := Except.bind_ok h
  obtain ⟨equity, hequity, h⟩ := Except.bind_ok h
  obtain ⟨available, havailable, h⟩ := Except.bind_ok h
  obtain ⟨withdrawPending, hpending, h⟩ := Except.bind_ok h
  refine ⟨journals, _, equity, available, withdrawPending, hjournals, rfl, hequity, havailable, hpending, ?_⟩
  dsimp only at h
  split at h
  · obtain rfl := Except.ok.inj h
    rfl
  · cases h

theorem openingJournal_ok {row : AccountRow} {journal : LedgerJournalRow}
    (h : openingJournal md5 row = .ok journal) :
    journal.journalId = md5 ("opening-balance:" ++ row.userId) ∧ journal.referenceId.length ≤ 64 := by
  obtain ⟨referenceId, href, h⟩ := Except.bind_ok h
  obtain rfl := Except.ok.inj h
  refine ⟨rfl, ?_⟩
  rw [show referenceId = cut 64 ("account:" ++ row.userId) from varchar_ok href]
  exact length_cut_le _ _

theorem openingOf_some {pending : List AccountRow} {journal : LedgerJournalRow} {row : AccountRow}
    (h : openingOf pending journal = some row) :
    row ∈ pending ∧ "account:" ++ row.userId = journal.referenceId := by
  have hfound := List.find?_some h
  exact ⟨List.mem_of_find?_eq_some h, of_decide_eq_true hfound⟩

theorem userRows_ok {pending : List AccountRow} {bucket : Bucket} {journal : LedgerJournalRow}
    {rows : List LedgerPostingRow} (h : userRows md5 pending bucket journal = .ok rows)
    {posting : LedgerPostingRow} (hmem : posting ∈ rows) :
    ∃ row ∈ pending, "account:" ++ row.userId = journal.referenceId ∧
      posting.ledgerAccountCode = (LedgerAccount.user (withoutAccount journal.referenceId) bucket).code := by
  unfold userRows at h
  cases hof : openingOf pending journal with
  | none =>
    rw [hof] at h
    obtain rfl := Except.ok.inj h
    cases hmem
  | some row =>
    rw [hof] at h
    dsimp only at h
    obtain ⟨hrow, href⟩ := openingOf_some hof
    split at h
    · obtain ⟨code, hcode, h⟩ := Except.bind_ok h
      obtain rfl := Except.ok.inj h
      rw [List.mem_singleton.mp hmem]
      exact ⟨row, hrow, href, varchar_exact hcode (code_getLast (LedgerAccount.user _ bucket))⟩
    · obtain rfl := Except.ok.inj h
      cases hmem

/-- a posting on a user's account comes from a pending row, and the id is what is left of the row's -/
theorem posting_source (h : backfill md5 now s = .ok s') {posting : LedgerPostingRow}
    (hposting : posting ∈ s'.ledgerPostings) (hnew : posting ∉ s.ledgerPostings) {userId : String}
    {bucket : Bucket} (hcode : posting.ledgerAccountCode = (LedgerAccount.user userId bucket).code) :
    ∃ row ∈ s.pendingBackfill, ("account:" ++ row.userId).length ≤ 64 ∧
      userId = withoutAccount ("account:" ++ row.userId) := by
  obtain ⟨journals, inserted, equity, available, withdrawPending, hjournals, rfl, hequity, havailable, hpending,
    hpostings⟩ := backfill_ok h
  have huser : ∀ {b : Bucket} {lists : List (List LedgerPostingRow)},
      (newRows LedgerJournalRow.journalId (s.ledgerJournals.map (·.journalId)) journals).mapM
        (userRows md5 s.pendingBackfill b) = .ok lists → posting ∈ lists.flatten →
      ∃ row ∈ s.pendingBackfill, ("account:" ++ row.userId).length ≤ 64 ∧
        userId = withoutAccount ("account:" ++ row.userId) := by
    intro b lists hlists hmem
    obtain ⟨rows, hrows, hmem⟩ := List.mem_flatten.mp hmem
    obtain ⟨journal, hjournal, hok⟩ := Collect.mapM_source hlists hrows
    obtain ⟨row, hrow, href, hcode'⟩ := userRows_ok hok hmem
    obtain ⟨source, -, hsource⟩ := Collect.mapM_source hjournals (newRows_subset hjournal)
    rw [hcode] at hcode'
    refine ⟨row, hrow, ?_, ?_⟩
    · rw [href]
      exact (openingJournal_ok hsource).2
    · rw [href]
      exact (userCode_injective hcode').1
  rw [hpostings] at hposting
  rcases List.mem_append.mp hposting with hold | hmem
  · exact absurd hold hnew
  · rcases List.mem_append.mp (newRows_subset hmem) with hmem | hmem
    · rcases List.mem_append.mp hmem with hmem | hmem
      · -- the opening balance is no user's account
        obtain ⟨journal, -, hok⟩ := Collect.mapM_source hequity hmem
        have hopening : posting.ledgerAccountCode = openingBalanceCode := by
          unfold equityRow at hok
          split at hok
          · cases hok
          · obtain ⟨amount, -, hok⟩ := Except.bind_ok hok
            obtain rfl := Except.ok.inj hok
            rfl
        have hhead := congrArg (fun code => code.toList.head?) (hopening.symm.trans hcode)
        simp only [userCode_head] at hhead
        exact absurd hhead (by decide)
      · exact huser havailable hmem
    · exact huser hpending hmem

/-! ## balances that are preserved -/

theorem pending_of_money (hs : Unposted md5 s) {row : AccountRow} (hrow : row ∈ s.accounts)
    (hmoney : row.balance.units ≠ 0 ∨ row.lockedBalance.units ≠ 0) : row ∈ s.pendingBackfill := by
  refine List.mem_filter.mpr ⟨hrow, decide_eq_true ⟨hmoney, ?_⟩⟩
  rintro ⟨posting, hposting, hcode | hcode⟩
  · exact hs.unposted row hrow _ posting hposting hcode
  · exact hs.unposted row hrow _ posting hposting hcode

/-- money that is projected was posted -/
theorem posted_of_projected {pg : PgServer} {row : AccountRow}
    (hp : ∃ p, getProjectedUserBalances pg row.userId s' = (.ok p, s') ∧
      p.balance = row.balance.units ∧ p.lockedBalance = row.lockedBalance.units)
    (hmoney : row.balance.units ≠ 0 ∨ row.lockedBalance.units ≠ 0) :
    ∃ posting ∈ s'.ledgerPostings, ∃ bucket,
      posting.ledgerAccountCode = (LedgerAccount.user row.userId bucket).code := by
  by_contra hno
  have hnone : ¬ s'.HasPostings row.userId := by
    rintro ⟨p, hp, bucket, hcode⟩
    obtain ⟨posting, hposting, rfl⟩ := List.mem_map.mp hp
    exact hno ⟨posting, hposting, bucket, hcode⟩
  obtain ⟨p, hp, hbalance, hlocked⟩ := hp
  obtain ⟨p', hp', hbalance', hlocked', -⟩ := projected_apply pg row.userId s'
  rw [hp] at hp'
  obtain rfl : p = p' := Except.ok.inj (Prod.mk.inj hp').1
  rw [hbalance, Db.available, balance_of_untouched hnone] at hbalance'
  rw [hlocked, Db.withdrawPending, Db.offlinePayPending, balance_of_untouched hnone,
    balance_of_untouched hnone, add_zero] at hlocked'
  rcases hmoney with hmoney | hmoney
  · exact hmoney hbalance'
  · exact hmoney hlocked'

theorem length_withoutAccount_le (userId : String) :
    (withoutAccount ("account:" ++ userId)).length ≤ userId.length := by
  rw [withoutAccount_reference, String.length_ofList, ← String.length_toList]
  exact Removal.length_removeAll_le _ _

theorem length_reference (userId : String) : ("account:" ++ userId).length = 8 + userId.length := by
  rw [String.length_append]
  rfl

/-- where every balance is preserved, the ids with money survive -/
theorem survives {pg : PgServer} (hs : Unposted md5 s) (h : backfill md5 now s = .ok s')
    (hp : Preserves pg s s') : ∀ row ∈ s.pendingBackfill,
      ¬ "account:".toList <:+: row.userId.toList ∧ row.userId.length ≤ 56 := by
  -- each id with money is what is left of another
  have hsource : ∀ row ∈ s.pendingBackfill, ∃ other ∈ s.pendingBackfill, other.userId.length ≤ 56 ∧
      row.userId = withoutAccount ("account:" ++ other.userId) := by
    intro row hrow
    obtain ⟨hmem, hcond⟩ := List.mem_filter.mp hrow
    obtain ⟨posting, hposting, bucket, hcode⟩ :=
      posted_of_projected (hp.projected row hmem) (of_decide_eq_true hcond).1
    have hnew : posting ∉ s.ledgerPostings := fun hold => hs.unposted row hmem bucket posting hold hcode
    obtain ⟨other, hother, hlength, hleft⟩ := posting_source h hposting hnew hcode
    rw [length_reference] at hlength
    exact ⟨other, hother, by omega, hleft⟩
  have hlonger : ∀ row ∈ s.pendingBackfill, "account:".toList <:+: row.userId.toList →
      ∃ other ∈ s.pendingBackfill, "account:".toList <:+: other.userId.toList ∧
        row.userId.length < other.userId.length ∧ other.userId.length ≤ 56 := by
    intro row hrow hbad
    obtain ⟨other, hother, hshort, hleft⟩ := hsource row hrow
    by_cases hother' : "account:".toList <:+: other.userId.toList
    · refine ⟨other, hother, hother', ?_, hshort⟩
      rw [hleft]
      exact length_withoutAccount_lt hother'
    · rw [(withoutAccount_eq_iff other.userId).mpr hother'] at hleft
      rw [hleft] at hbad
      exact absurd hbad hother'
  intro row hrow
  constructor
  · intro hbad
    -- ids that contain the text grow without bound
    have hgrow : ∀ n, ∃ row ∈ s.pendingBackfill, "account:".toList <:+: row.userId.toList ∧
        n ≤ row.userId.length := by
      intro n
      induction n with
      | zero => exact ⟨row, hrow, hbad, Nat.zero_le _⟩
      | succ n ih =>
        obtain ⟨r, hr, hb, hn⟩ := ih
        obtain ⟨other, hother, hb', hlt, -⟩ := hlonger r hr hb
        exact ⟨other, hother, hb', by omega⟩
    obtain ⟨r, hr, hb, hn⟩ := hgrow 57
    obtain ⟨other, -, -, hlt, hle⟩ := hlonger r hr hb
    omega
  · obtain ⟨other, -, hshort, hleft⟩ := hsource row hrow
    have hle := length_withoutAccount_le other.userId
    rw [hleft]
    omega

/-! ## what it writes when the ids survive -/

/-- the sum of a row's amounts, where it fits -/
def AccountRow.total (row : AccountRow) : Numeric :=
  if h : (row.balance.units + row.lockedBalance.units).natAbs < 10 ^ 36 then
    ⟨row.balance.units + row.lockedBalance.units, h⟩
  else .zero

section
variable (md5 : String → String)

def opening (row : AccountRow) : LedgerJournalRow where
  journalId := md5 ("opening-balance:" ++ row.userId)
  journalType := "opening_balance"
  referenceType := "opening_balance"
  referenceId := "account:" ++ row.userId
  currencyCode := "KORI"
  description := some ("opening balance backfill for " ++ row.userId)
  createdAt := row.updatedAt

/-- the debit of the opening balance, or the credit of a bucket -/
def legText : Option Bucket → String
  | none => "equity"
  | some bucket => bucket.text

def legId (leg : String × Option Bucket) : String := md5 ("account:" ++ leg.1 ++ ":" ++ legText leg.2)

def legRow (leg : AccountRow × Option Bucket) : LedgerPostingRow :=
  match leg.2 with
  | none => ⟨legId md5 (leg.1.userId, none), (opening md5 leg.1).journalId, openingBalanceCode, .debit,
      leg.1.total, leg.1.updatedAt⟩
  | some bucket => ⟨legId md5 (leg.1.userId, some bucket), (opening md5 leg.1).journalId,
      (LedgerAccount.user leg.1.userId bucket).code, .credit, leg.1.amount bucket, leg.1.updatedAt⟩

end

/-- the rows whose amount is credited to the bucket -/
def credited (rows : List AccountRow) (bucket : Bucket) : List AccountRow :=
  rows.filter fun row => (row.amount bucket).units ≠ 0

/-- all that is posted for these rows -/
def legs (rows : List AccountRow) : List (AccountRow × Option Bucket) :=
  rows.map (·, none) ++ (credited rows .available).map (·, some .available) ++
    (credited rows .withdrawPending).map (·, some .withdrawPending)

theorem legText_injective : Function.Injective fun leg : String × Option Bucket =>
    "account:" ++ leg.1 ++ ":" ++ legText leg.2 := by
  rintro ⟨u, k⟩ ⟨v, l⟩ h
  have hlist := congrArg String.toList h
  simp only [String.toList_append] at hlist
  have hlast : (legText k).toList.getLast? = (legText l).toList.getLast? := by
    have hend := congrArg List.getLast? hlist
    have hne : ∀ k : Option Bucket, (legText k).toList ≠ [] := by
      intro k
      rcases k with _ | b
      · decide
      · cases b <;> decide
    rwa [List.getLast?_append_of_ne_nil _ (hne k), List.getLast?_append_of_ne_nil _ (hne l)] at hend
  have hkind : k = l := by
    rcases k with _ | b <;> rcases l with _ | c
    · rfl
    · cases c <;> revert hlast <;> decide
    · cases b <;> revert hlast <;> decide
    · have hninth := congrArg (fun l => l.reverse[8]?) hlist
      cases b <;> cases c <;> first | rfl | exact absurd hlast (by decide) | simp [legText, Bucket.text] at hninth
  subst hkind
  have hid : u.toList = v.toList := by
    have h₁ := List.append_cancel_right (List.append_cancel_right hlist)
    exact List.append_cancel_left h₁
  rw [String.toList_injective hid]

theorem legs_nodup {rows : List AccountRow} (hnd : (rows.map (·.userId)).Nodup) :
    ((legs rows).map fun leg => (leg.1.userId, leg.2)).Nodup := by
  have hpart : ∀ {part : List AccountRow} (k : Option Bucket), part.Sublist rows →
      ((part.map (·, k)).map fun leg => (leg.1.userId, leg.2)).Nodup := by
    intro part k hpart
    rw [List.map_map]
    have hids : (part.map (·.userId)).Nodup := hnd.sublist (hpart.map _)
    have hpairs := hids.map (f := fun u => (u, k)) fun _ _ h => (Prod.mk.inj h).1
    rwa [List.map_map] at hpairs
  have hkind : ∀ {part : List AccountRow} {k : Option Bucket} {x : String × Option Bucket},
      x ∈ (part.map (·, k)).map (fun leg => (leg.1.userId, leg.2)) → x.2 = k := by
    intro part k x hx
    obtain ⟨leg, hleg, rfl⟩ := List.mem_map.mp hx
    obtain ⟨row, -, rfl⟩ := List.mem_map.mp hleg
    rfl
  rw [legs, List.map_append, List.map_append]
  refine List.Nodup.append (List.Nodup.append (hpart _ (List.Sublist.refl _))
    (hpart _ List.filter_sublist) ?_) (hpart _ List.filter_sublist) ?_
  · intro x hx hx'
    have h := (hkind hx).symm.trans (hkind hx')
    cases h
  · intro x hx hx'
    rcases List.mem_append.mp hx with hx | hx
    · have h := (hkind hx).symm.trans (hkind hx')
      cases h
    · have h := (hkind hx).symm.trans (hkind hx')
      cases h

theorem text_append {a b : String} (ha : text a = .ok a) (hb : text b = .ok b) :
    text (a ++ b) = .ok (a ++ b) := by
  have hno : ∀ {s : String}, text s = .ok s → Char.ofNat 0 ∉ s.toList := by
    intro s h hmem
    rw [text, if_pos hmem] at h
    cases h
  rw [text, String.toList_append, if_neg]
  intro hmem
  rcases List.mem_append.mp hmem with hmem | hmem
  · exact hno ha hmem
  · exact hno hb hmem

theorem varchar_of_length {n : Nat} {a : String} (ha : text a = .ok a) (hlength : a.length ≤ n) :
    varchar n a = .ok a := by
  rw [varchar, ha]
  show (if a.length ≤ n then _ else _) = _
  rw [if_pos hlength]
  rfl

/-- an id that is stored -/
theorem stored_id {userId : String} (h : varchar 64 userId = .ok userId) :
    text userId = .ok userId ∧ userId.length ≤ 64 := by
  constructor
  · rw [varchar] at h
    obtain ⟨t, ht, -⟩ := Except.bind_ok h
    rw [ht, text_ok ht]
  · rw [varchar_ok h]
    exact length_cut_le 64 userId

theorem length_userCode (userId : String) (bucket : Bucket) :
    (LedgerAccount.user userId bucket).code.length ≤ userId.length + 25 := by
  have huser : "user:".length = 5 := rfl
  have hcolon : ":".length = 1 := rfl
  have hbucket : bucket.text.length ≤ 19 := by cases bucket <;> decide
  show ("user:" ++ userId ++ ":" ++ bucket.text).length ≤ _
  rw [String.length_append, String.length_append, String.length_append]
  omega

theorem userCode_stored {userId : String} (h : varchar 64 userId = .ok userId) (bucket : Bucket) :
    varchar 128 (LedgerAccount.user userId bucket).code = .ok (LedgerAccount.user userId bucket).code := by
  obtain ⟨htext, hlength⟩ := stored_id h
  have hcode := length_userCode userId bucket
  refine varchar_of_length ?_ (by omega)
  have hbucket : text (":" ++ bucket.text) = .ok (":" ++ bucket.text) := by cases bucket <;> rfl
  have hprefix : text "user:" = .ok "user:" := rfl
  have hwhole := text_append (text_append hprefix htext) hbucket
  rw [show (LedgerAccount.user userId bucket).code = "user:" ++ userId ++ (":" ++ bucket.text) from by
    rw [← String.append_assoc]; rfl]
  exact hwhole

section
variable {pending : List AccountRow}

theorem openingJournal_eq {row : AccountRow} (hstored : varchar 64 row.userId = .ok row.userId)
    (hshort : row.userId.length ≤ 56) : openingJournal md5 row = .ok (opening md5 row) := by
  have hprefix : text "account:" = .ok "account:" := rfl
  have href : varchar 64 ("account:" ++ row.userId) = .ok ("account:" ++ row.userId) := by
    refine varchar_of_length (text_append hprefix (stored_id hstored).1) ?_
    rw [length_reference]
    omega
  rw [openingJournal, href]
  rfl

theorem openingOf_eq (hnd : (pending.map (·.userId)).Nodup) {row : AccountRow} (hrow : row ∈ pending) :
    openingOf pending (opening md5 row) = some row := by
  cases hof : openingOf pending (opening md5 row) with
  | none =>
    have hno := List.find?_eq_none.mp hof row hrow
    exact absurd (decide_eq_true rfl) hno
  | some other =>
    obtain ⟨hother, href⟩ := openingOf_some hof
    have hlist := congrArg String.toList href
    have hid : other.userId = row.userId := by
      rw [show (opening md5 row).referenceId = "account:" ++ row.userId from rfl, toList_account,
        toList_account] at hlist
      exact String.toList_injective (List.append_cancel_left hlist)
    rw [Rows.eq_of_key hnd hother hrow hid]

theorem equityRow_eq (hnd : (pending.map (·.userId)).Nodup) {row : AccountRow} (hrow : row ∈ pending)
    (hsum : (row.balance.units + row.lockedBalance.units).natAbs < 10 ^ 36) :
    equityRow md5 pending (opening md5 row) = .ok (legRow md5 (row, none)) := by
  have htotal : row.balance.add row.lockedBalance = .ok row.total := by
    rw [Numeric.add, dif_pos hsum, AccountRow.total, dif_pos hsum]
  have hid : (opening md5 row).referenceId ++ ":equity" = "account:" ++ row.userId ++ ":" ++ "equity" := by
    rw [String.append_assoc]
    rfl
  rw [equityRow, openingOf_eq hnd hrow]
  dsimp only
  rw [htotal, hid]
  rfl

theorem userRows_eq (hnd : (pending.map (·.userId)).Nodup) {row : AccountRow} (hrow : row ∈ pending)
    (hstored : varchar 64 row.userId = .ok row.userId) (hplain : ¬ "account:".toList <:+: row.userId.toList)
    (bucket : Bucket) : userRows md5 pending bucket (opening md5 row) =
      .ok (if (row.amount bucket).units ≠ 0 then [legRow md5 (row, some bucket)] else []) := by
  have hid : withoutAccount (opening md5 row).referenceId = row.userId :=
    (withoutAccount_eq_iff row.userId).mpr hplain
  rw [userRows, openingOf_eq hnd hrow]
  dsimp only
  rw [hid, userCode_stored hstored]
  split <;> rfl

theorem flatten_credited (bucket : Bucket) (rows : List AccountRow) :
    (rows.map fun row => if (row.amount bucket).units ≠ 0 then [legRow md5 (row, some bucket)]
      else []).flatten = ((credited rows bucket).map (·, some bucket)).map (legRow md5) := by
  induction rows with
  | nil => rfl
  | cons row rows ih =>
    rw [List.map_cons, List.flatten_cons, ih, credited, credited, List.filter_cons]
    by_cases h : (row.amount bucket).units ≠ 0
    · rw [if_pos h, if_pos (decide_eq_true h)]
      rfl
    · rw [if_neg h, if_neg (by simpa using h)]
      rfl

end

/-! ## the migration goes through -/

theorem pending_sublist (s : Db) : s.pendingBackfill.Sublist s.accounts := List.filter_sublist

theorem pending_nodup (hs : Unposted md5 s) : (s.pendingBackfill.map (·.userId)).Nodup :=
  hs.distinct.sublist ((pending_sublist s).map _)

theorem opening_inj (hmd5 : Function.Injective md5) {row other : AccountRow}
    (h : (opening md5 row).journalId = (opening md5 other).journalId) : row.userId = other.userId := by
  have htext : "opening-balance:" ++ row.userId = "opening-balance:" ++ other.userId := hmd5 h
  have hlist := congrArg String.toList htext
  rw [String.toList_append, String.toList_append] at hlist
  exact String.toList_injective (List.append_cancel_left hlist)

theorem legRow_id (leg : AccountRow × Option Bucket) :
    (legRow md5 leg).postingId = legId md5 (leg.1.userId, leg.2) := by
  rcases leg with ⟨row, _ | bucket⟩ <;> rfl

/-- the ids of the postings are new, and distinct -/
theorem legRows_new (hmd5 : Function.Injective md5) (hs : Unposted md5 s) :
    newRows LedgerPostingRow.postingId (s.ledgerPostings.map (·.postingId))
      ((legs s.pendingBackfill).map (legRow md5)) = (legs s.pendingBackfill).map (legRow md5) := by
  have hids : ((legs s.pendingBackfill).map (legRow md5)).map (·.postingId) =
      ((legs s.pendingBackfill).map fun leg => (leg.1.userId, leg.2)).map (legId md5) := by
    rw [List.map_map, List.map_map]
    exact List.map_congr_left fun leg _ => legRow_id leg
  apply newRows_eq
  · rw [show (((legs s.pendingBackfill).map (legRow md5)).map LedgerPostingRow.postingId) = _ from hids]
    exact (legs_nodup (pending_nodup hs)).map fun a b h => legText_injective (hmd5 h)
  · intro posting hposting
    obtain ⟨leg, -, rfl⟩ := List.mem_map.mp hposting
    rw [show LedgerPostingRow.postingId (legRow md5 leg) = _ from legRow_id leg]
    exact hs.newPostings _

theorem openings_new (hmd5 : Function.Injective md5) (hs : Unposted md5 s) :
    newRows LedgerJournalRow.journalId (s.ledgerJournals.map (·.journalId))
      (s.pendingBackfill.map (opening md5)) = s.pendingBackfill.map (opening md5) := by
  apply newRows_eq
  · rw [List.map_map]
    have hnd := pending_nodup hs
    rw [List.nodup_map_iff_inj_on (List.Nodup.of_map _ hnd)]
    intro row hrow other hother h
    exact Rows.eq_of_key hnd hrow hother (opening_inj hmd5 h)
  · intro journal hjournal
    obtain ⟨row, -, rfl⟩ := List.mem_map.mp hjournal
    exact hs.newJournals _

/-- the ledger accounts of the credits -/
def openedUsers (rows : List AccountRow) (bucket : Bucket) : List LedgerAccountRow :=
  (credited rows bucket).map fun row =>
    ⟨(LedgerAccount.user row.userId bucket).code, .liability, "KORI", row.updatedAt⟩

def openedAccounts (now : String) (s : Db) : List LedgerAccountRow :=
  insertNew LedgerAccountRow.ledgerAccountCode
    (openedUsers s.pendingBackfill .available ++ openedUsers s.pendingBackfill .withdrawPending)
    (insertNew LedgerAccountRow.ledgerAccountCode [⟨openingBalanceCode, .equity, "KORI", now⟩]
      s.ledgerAccounts)

/-- every code that is posted to is there -/
theorem mem_openedAccounts (now : String) {leg : AccountRow × Option Bucket}
    (hleg : leg ∈ legs s.pendingBackfill) :
    (legRow md5 leg).ledgerAccountCode ∈ (openedAccounts now s).map (·.ledgerAccountCode) := by
  have huser : ∀ {bucket : Bucket} {row : AccountRow}, row ∈ credited s.pendingBackfill bucket →
      (⟨(LedgerAccount.user row.userId bucket).code, .liability, "KORI", row.updatedAt⟩ : LedgerAccountRow) ∈
        openedUsers s.pendingBackfill bucket :=
    fun hrow => List.mem_map.mpr ⟨_, hrow, rfl⟩
  rcases List.mem_append.mp hleg with hleg | hleg
  · rcases List.mem_append.mp hleg with hleg | hleg
    · obtain ⟨row, -, rfl⟩ := List.mem_map.mp hleg
      have hequity : openingBalanceCode ∈ (insertNew LedgerAccountRow.ledgerAccountCode
          [(⟨openingBalanceCode, .equity, "KORI", now⟩ : LedgerAccountRow)] s.ledgerAccounts).map
          LedgerAccountRow.ledgerAccountCode :=
        mem_insertNew (List.mem_singleton_self _)
      exact mem_insertNew_of_table hequity
    · obtain ⟨row, hrow, rfl⟩ := List.mem_map.mp hleg
      exact mem_insertNew (List.mem_append_left _ (huser hrow))
  · obtain ⟨row, hrow, rfl⟩ := List.mem_map.mp hleg
    exact mem_insertNew (List.mem_append_right _ (huser hrow))

/-- what is written when the ids survive and the sums fit -/
theorem backfill_returns (now : String) (hmd5 : Function.Injective md5) (hs : Unposted md5 s)
    (hfits : ∀ row ∈ s.pendingBackfill, row.Fits) :
    backfill md5 now s = .ok { s with
      ledgerAccounts := openedAccounts now s
      ledgerJournals := s.ledgerJournals ++ s.pendingBackfill.map (opening md5)
      ledgerPostings := s.ledgerPostings ++ (legs s.pendingBackfill).map (legRow md5) } := by
  have hnd := pending_nodup hs
  have hstored : ∀ row ∈ s.pendingBackfill, varchar 64 row.userId = .ok row.userId :=
    fun row hrow => hs.stored row ((pending_sublist s).subset hrow)
  have haccounts : ∀ bucket, (credited s.pendingBackfill bucket).mapM (userAccountRow bucket) =
      .ok (openedUsers s.pendingBackfill bucket) := by
    intro bucket
    apply Collect.mapM_of_ok
    intro row hrow
    rw [userAccountRow, userCode_stored (hstored row (List.mem_of_mem_filter hrow)) bucket]
    rfl
  have hjournals : s.pendingBackfill.mapM (openingJournal md5) = .ok (s.pendingBackfill.map (opening md5)) :=
    Collect.mapM_of_ok fun row hrow => openingJournal_eq (hstored row hrow) (hfits row hrow).short
  have hequity : (s.pendingBackfill.map (opening md5)).mapM (equityRow md5 s.pendingBackfill) =
      .ok (s.pendingBackfill.map fun row => legRow md5 (row, none)) :=
    Collect.mapM_map_of_ok fun row hrow => equityRow_eq hnd hrow (hfits row hrow).sum
  have husers : ∀ bucket, (s.pendingBackfill.map (opening md5)).mapM (userRows md5 s.pendingBackfill bucket) =
      .ok (s.pendingBackfill.map fun row =>
        if (row.amount bucket).units ≠ 0 then [legRow md5 (row, some bucket)] else []) := fun bucket =>
    Collect.mapM_map_of_ok fun row hrow => userRows_eq hnd hrow (hstored row hrow) (hfits row hrow).plain bucket
  have hpostings : (s.pendingBackfill.map fun row => legRow md5 (row, none)) ++
      (s.pendingBackfill.map fun row =>
        if (row.amount .available).units ≠ 0 then [legRow md5 (row, some .available)] else []).flatten ++
      (s.pendingBackfill.map fun row =>
        if (row.amount .withdrawPending).units ≠ 0 then [legRow md5 (row, some .withdrawPending)] else []).flatten =
      (legs s.pendingBackfill).map (legRow md5) := by
    rw [flatten_credited, flatten_credited, legs, List.map_append, List.map_append]
    congr 2
    rw [List.map_map]
    rfl
  have hcodes : ∀ posting ∈ (legs s.pendingBackfill).map (legRow md5),
      posting.ledgerAccountCode ∈ (openedAccounts now s).map (·.ledgerAccountCode) := by
    intro posting hposting
    obtain ⟨⟨row, part⟩, hleg, rfl⟩ := List.mem_map.mp hposting
    exact mem_openedAccounts now hleg
  have hrows : newRows LedgerPostingRow.postingId (s.ledgerPostings.map (·.postingId))
      ((s.pendingBackfill.map fun row => legRow md5 (row, none)) ++
        (s.pendingBackfill.map fun row =>
          if (row.amount .available).units ≠ 0 then [legRow md5 (row, some .available)] else []).flatten ++
        (s.pendingBackfill.map fun row =>
          if (row.amount .withdrawPending).units ≠ 0 then [legRow md5 (row, some .withdrawPending)]
          else []).flatten) = (legs s.pendingBackfill).map (legRow md5) := by
    rw [hpostings, legRows_new hmd5 hs]
  unfold backfill
  dsimp only
  rw [show (s.pendingBackfill.filter fun row => (row.amount .available).units ≠ 0) =
      credited s.pendingBackfill .available from rfl,
    show (s.pendingBackfill.filter fun row => (row.amount .withdrawPending).units ≠ 0) =
      credited s.pendingBackfill .withdrawPending from rfl, haccounts, haccounts, hjournals]
  simp only [bind, Except.bind]
  rw [openings_new hmd5 hs, hequity, husers, husers]
  simp only
  rw [hrows]
  exact if_pos hcodes

/-! ## what the postings add up to -/

/-- the part of a row in a sum over all that is posted -/
def partOf (g : AccountRow × Option Bucket → ℤ) (row : AccountRow) : ℤ :=
  g (row, none) + (if (row.amount .available).units ≠ 0 then g (row, some .available) else 0) +
    (if (row.amount .withdrawPending).units ≠ 0 then g (row, some .withdrawPending) else 0)

theorem sum_legs (g : AccountRow × Option Bucket → ℤ) (rows : List AccountRow) :
    ((legs rows).map g).sum = (rows.map (partOf g)).sum := by
  have hcredited : ∀ bucket, (((credited rows bucket).map (·, some bucket)).map g).sum =
      (rows.map fun row => if (row.amount bucket).units ≠ 0 then g (row, some bucket) else 0).sum := by
    intro bucket
    rw [List.map_map]
    exact Rows.sum_filter (fun row : AccountRow => (row.amount bucket).units ≠ 0)
      (fun row => g (row, some bucket)) rows
  rw [legs, List.map_append, List.map_append, List.sum_append, List.sum_append, hcredited, hcredited,
    List.map_map, ← List.sum_map_add, ← List.sum_map_add]
  rfl

/-- only the postings of one user count -/
theorem sum_legs_at {g : AccountRow × Option Bucket → ℤ} {rows : List AccountRow}
    (hnd : (rows.map (·.userId)).Nodup) {row : AccountRow} (hrow : row ∈ rows)
    (hg : ∀ leg, leg.1.userId ≠ row.userId → g leg = 0) : ((legs rows).map g).sum = partOf g row := by
  have hpart : ∀ r, partOf g r = if r.userId = row.userId then partOf g r else 0 := by
    intro r
    split
    · rfl
    · next hne => simp [partOf, hg (r, _) hne]
  rw [sum_legs, List.map_congr_left fun r _ => hpart r]
  exact Rows.sum_at (partOf g) hnd hrow

theorem sum_legs_of_zero {g : AccountRow × Option Bucket → ℤ} {rows : List AccountRow}
    (hg : ∀ leg, leg.1 ∈ rows → g leg = 0) : ((legs rows).map g).sum = 0 := by
  have hpart : ∀ r ∈ rows, partOf g r = 0 := by
    intro r hr
    simp [partOf, hg (r, _) hr]
  rw [sum_legs, List.map_congr_left hpart]
  simp

/-! ## every balance is preserved -/

theorem total_units {row : AccountRow} (h : row.Fits) :
    row.total.units = row.balance.units + row.lockedBalance.units := by
  rw [AccountRow.total, dif_pos h.sum]

/-- the tables after the migration -/
def opened (md5 : String → String) (now : String) (s : Db) : Db :=
  { s with
    ledgerAccounts := openedAccounts now s
    ledgerJournals := s.ledgerJournals ++ s.pendingBackfill.map (opening md5)
    ledgerPostings := s.ledgerPostings ++ (legs s.pendingBackfill).map (legRow md5) }

theorem opened_balanced (now : String) (hmd5 : Function.Injective md5) (hs : Unposted md5 s) {row : AccountRow}
    (hrow : row ∈ s.pendingBackfill) (hfits : row.Fits) :
    Balanced ((opened md5 now s).legsOf (opening md5 row).journalId) := by
  have hnd := pending_nodup hs
  have hold : (s.ledgerPostings.filter fun p => p.journalId = (opening md5 row).journalId) = [] := by
    refine List.filter_eq_nil_iff.mpr fun p hp => ?_
    intro h
    exact hs.newJournals _ ((of_decide_eq_true h) ▸ hs.owned p hp)
  have htotal : ∀ side, total side ((opened md5 now s).legsOf (opening md5 row).journalId) =
      partOf (fun leg => if (legRow md5 leg).journalId = (opening md5 row).journalId then
        (if (legRow md5 leg).entrySide = side then (legRow md5 leg).amount.units else 0) else 0) row := by
    intro side
    rw [← sum_legs_at hnd hrow, total, Db.legsOf, opened, List.filter_append, hold, List.nil_append,
      List.map_map, Rows.sum_filter, List.map_map]
    · rfl
    · intro leg hne
      refine if_neg fun h => hne (opening_inj hmd5 (Eq.trans ?_ h))
      rcases leg with ⟨r, _ | bucket⟩ <;> rfl
  show total .debit _ = total .credit _
  rw [htotal, htotal]
  simp only [partOf, legRow, total_units hfits, AccountRow.amount]
  by_cases hbalance : row.balance.units = 0
  · by_cases hlocked : row.lockedBalance.units = 0
    · simp [hbalance, hlocked]
    · simp [hbalance, hlocked]
  · by_cases hlocked : row.lockedBalance.units = 0
    · simp [hbalance, hlocked]
    · simp [hbalance, hlocked]

/-- the opening balance is no user's account -/
theorem openingBalanceCode_ne (userId : String) (bucket : Bucket) :
    openingBalanceCode ≠ (LedgerAccount.user userId bucket).code := by
  intro hcode
  have hhead := congrArg (fun code => code.toList.head?) hcode
  simp only [userCode_head] at hhead
  exact absurd hhead (by decide)

/-- what is posted on a user's account -/
theorem opened_balance (now : String) (hs : Unposted md5 s) {row : AccountRow} (hrow : row ∈ s.accounts)
    (bucket : Bucket) : (opened md5 now s).balance (.user row.userId bucket) =
      match bucket with
      | .available => row.balance.units
      | .withdrawPending => row.lockedBalance.units
      | .offlinePayPending => 0 := by
  have hold : balance (LedgerAccount.user row.userId bucket).code s.postings = 0 := by
    refine net_untouched fun p hp hcode => ?_
    obtain ⟨posting, hposting, rfl⟩ := List.mem_map.mp hp
    exact hs.unposted row hrow bucket posting hposting hcode
  have hnew : (opened md5 now s).balance (.user row.userId bucket) =
      ((legs s.pendingBackfill).map fun leg =>
        if (legRow md5 leg).ledgerAccountCode = (LedgerAccount.user row.userId bucket).code then
          (legRow md5 leg).toPosting.signed else 0).sum := by
    rw [Db.balance, Db.postings, opened, List.map_append, balance, net_append,
      show net _ (s.ledgerPostings.map LedgerPostingRow.toPosting) = 0 from hold, zero_add, net, List.map_map,
      List.map_map]
    rfl
  have hother : ∀ leg : AccountRow × Option Bucket, leg.1.userId ≠ row.userId →
      (if (legRow md5 leg).ledgerAccountCode = (LedgerAccount.user row.userId bucket).code then
        (legRow md5 leg).toPosting.signed else 0) = 0 := by
    intro leg hne
    refine if_neg fun hcode => ?_
    rcases leg with ⟨r, _ | b⟩
    · exact openingBalanceCode_ne _ _ hcode
    · exact hne (userCode_injective hcode).1
  rw [hnew]
  by_cases hpending : row ∈ s.pendingBackfill
  · rw [sum_legs_at (pending_nodup hs) hpending hother]
    have hequity := openingBalanceCode_ne row.userId bucket
    have hbucket : ∀ b, (LedgerAccount.user row.userId b).code = (LedgerAccount.user row.userId bucket).code ↔
        b = bucket := fun b => ⟨fun h => (userCode_injective h).2, fun h => h ▸ rfl⟩
    cases bucket with
    | available =>
      by_cases hzero : row.balance.units = 0 <;>
        simp [partOf, legRow, hequity, hbucket, LedgerPostingRow.toPosting, Posting.signed, AccountRow.amount, hzero]
    | withdrawPending =>
      by_cases hzero : row.lockedBalance.units = 0 <;>
        simp [partOf, legRow, hequity, hbucket, LedgerPostingRow.toPosting, Posting.signed, AccountRow.amount, hzero]
    | offlinePayPending => simp [partOf, legRow, hequity, hbucket]
  · have hmoney : ¬ (row.balance.units ≠ 0 ∨ row.lockedBalance.units ≠ 0) := fun h =>
      hpending (pending_of_money hs hrow h)
    rw [sum_legs_of_zero]
    · cases bucket with
      | available => exact (not_not.mp fun h => hmoney (Or.inl h)).symm
      | withdrawPending => exact (not_not.mp fun h => hmoney (Or.inr h)).symm
      | offlinePayPending => rfl
    · intro leg hleg
      refine hother leg fun h => hpending ?_
      rwa [← Rows.eq_of_key hs.distinct ((pending_sublist s).subset hleg) hrow h]

theorem opened_preserves (pg : PgServer) (now : String) (hmd5 : Function.Injective md5) (hs : Unposted md5 s)
    (hfits : ∀ row ∈ s.pendingBackfill, row.Fits) : Preserves pg s (opened md5 now s) where
  balanced journal hjournal hnew := by
    rcases List.mem_append.mp hjournal with hold | hjournal
    · exact absurd hold hnew
    · obtain ⟨row, hrow, rfl⟩ := List.mem_map.mp hjournal
      exact opened_balanced now hmd5 hs hrow (hfits row hrow)
  projected row hrow := by
    obtain ⟨p, hp, hbalance, hlocked, -⟩ := projected_apply pg row.userId (opened md5 now s)
    refine ⟨p, hp, ?_, ?_⟩
    · rw [hbalance]
      exact opened_balance now hs hrow .available
    · have hpending := opened_balance now hs hrow .withdrawPending
      have hoffline := opened_balance now hs hrow .offlinePayPending
      rw [hlocked, Db.withdrawPending, Db.offlinePayPending, hpending, hoffline, add_zero]
  attributed posting hposting hnew userId bucket hcode := by
    rcases List.mem_append.mp hposting with hold | hposting
    · exact absurd hold hnew
    · obtain ⟨⟨row, part⟩, hleg, rfl⟩ := List.mem_map.mp hposting
      have hrow : row ∈ s.pendingBackfill := by
        rcases List.mem_append.mp hleg with hleg | hleg
        · rcases List.mem_append.mp hleg with hleg | hleg
          · obtain ⟨r, hr, heq⟩ := List.mem_map.mp hleg
            cases heq
            exact hr
          · obtain ⟨r, hr, heq⟩ := List.mem_map.mp hleg
            cases heq
            exact List.mem_of_mem_filter hr
        · obtain ⟨r, hr, heq⟩ := List.mem_map.mp hleg
          cases heq
          exact List.mem_of_mem_filter hr
      refine ⟨opening md5 row, List.mem_append_right _ (List.mem_map_of_mem hrow), ?_, ?_⟩
      · cases part <;> rfl
      · cases part with
        | none => exact absurd hcode (openingBalanceCode_ne _ _)
        | some b =>
          rw [show userId = row.userId from (userCode_injective hcode).1.symm]
          rfl

/-- where the migration goes through and the ids survive, the sums fit -/
theorem sums_fit (hmd5 : Function.Injective md5) (hs : Unposted md5 s) (h : backfill md5 now s = .ok s')
    (hshort : ∀ row ∈ s.pendingBackfill, row.userId.length ≤ 56) :
    ∀ row ∈ s.pendingBackfill, (row.balance.units + row.lockedBalance.units).natAbs < 10 ^ 36 := by
  obtain ⟨journals, inserted, equity, available, withdrawPending, hjournals, rfl, hequity, -, -, -⟩ :=
    backfill_ok h
  have hall : s.pendingBackfill.mapM (openingJournal md5) = .ok (s.pendingBackfill.map (opening md5)) :=
    Collect.mapM_of_ok fun row hrow =>
      openingJournal_eq (hs.stored row ((pending_sublist s).subset hrow)) (hshort row hrow)
  obtain rfl := Except.ok.inj (hall.symm.trans hjournals)
  rw [openings_new hmd5 hs] at hequity
  intro row hrow
  obtain ⟨posting, -, hok⟩ := Collect.mapM_target hequity (List.mem_map_of_mem hrow)
  rw [equityRow, openingOf_eq (pending_nodup hs) hrow] at hok
  obtain ⟨amount, hamount, -⟩ := Except.bind_ok hok
  by_contra hbig
  rw [Numeric.add, dif_neg hbig] at hamount
  cases hamount

end

/-- every balance is preserved, by journals that balance and are the users' own, exactly when the ids
with money survive the way into the reference and back, and their sums fit -/
theorem opening_balances (pg : PgServer) {md5 : String → String} (hmd5 : Function.Injective md5) (now : String)
    {s : Db} (hs : Unposted md5 s) :
    (∃ s', backfill md5 now s = .ok s' ∧ Preserves pg s s') ↔
      ∀ row ∈ s.accounts, row.balance.units ≠ 0 ∨ row.lockedBalance.units ≠ 0 → row.Fits := by
  constructor
  · rintro ⟨s', h, hp⟩ row hrow hmoney
    have hpending := pending_of_money hs hrow hmoney
    have hsurvives := survives hs h hp
    have hsum := sums_fit hmd5 hs h fun r hr => (hsurvives r hr).2
    exact ⟨(hsurvives row hpending).1, (hsurvives row hpending).2, hsum row hpending⟩
  · intro hfits
    have hpending : ∀ row ∈ s.pendingBackfill, row.Fits := by
      intro row hrow
      obtain ⟨hmem, hcond⟩ := List.mem_filter.mp hrow
      exact hfits row hmem (of_decide_eq_true hcond).1
    exact ⟨_, backfill_returns now hmd5 hs hpending, opened_preserves pg now hmd5 hs hpending⟩

def exampleDigests : List (String × String) :=
  [("opening-balance:alice", "69045825-2304-84db-eb23-d25ca9f2b90e"),
    ("account:alice:equity", "26d8be69-ecd9-802a-c4d0-10c581f4df12"),
    ("account:alice:available", "89d98897-0f42-c307-e4b4-9acf88c6864e"),
    ("account:alice:withdraw_pending", "4fc62353-01c9-f6bc-44f7-661727c7a4b1"),
    ("opening-balance:account:bob", "ee3df3b8-5090-ecae-57c7-21154ebb1d12"),
    ("account:account:bob:equity", "fc7ce37a-4a19-4900-352d-84351f343115"),
    ("account:account:bob:available", "488aa905-b170-4dec-0eb7-f2fce1ee6e12"),
    ("opening-balance:bob", "620b1a79-809b-58fa-9e9f-fdfb249ac078"),
    ("account:bob:equity", "c1289312-f390-dc2a-7982-4e970836663f"),
    ("account:bob:available", "28da2d4e-2640-d5f9-2d3f-e33444ec78be")]

/-- MD5 on the texts of the examples, and no digest for any other text -/
def exampleMd5 (text : String) : String := (exampleDigests.lookup text).getD ("md5:" ++ text)

theorem exampleMd5_injective : Function.Injective exampleMd5 := by
  have hdistinct : ∀ p ∈ exampleDigests, ∀ q ∈ exampleDigests, p.2 = q.2 → p.1 = q.1 := by decide
  have hhead : ∀ p ∈ exampleDigests, p.2.toList.head? ≠ some 'm' := by decide
  have hmem : ∀ {text digest : String}, exampleDigests.lookup text = some digest →
      (text, digest) ∈ exampleDigests := by
    intro text digest h
    obtain ⟨before, after, hsplit, -⟩ := List.lookup_eq_some_iff.mp h
    rw [hsplit]
    exact List.mem_append_right _ List.mem_cons_self
  have hother : ∀ text : String, ("md5:" ++ text).toList.head? = some 'm' := by
    intro text
    rw [String.toList_append]
    rfl
  intro a b h
  unfold exampleMd5 at h
  cases ha : exampleDigests.lookup a with
  | some x =>
    cases hb : exampleDigests.lookup b with
    | some y =>
      rw [ha, hb] at h
      exact hdistinct _ (hmem ha) _ (hmem hb) h
    | none =>
      rw [ha, hb] at h
      exact absurd (hother b) ((show x = "md5:" ++ b from h) ▸ hhead _ (hmem ha))
  | none =>
    cases hb : exampleDigests.lookup b with
    | some y =>
      rw [ha, hb] at h
      exact absurd (hother a) ((show "md5:" ++ a = y from h) ▸ hhead _ (hmem hb))
    | none =>
      rw [ha, hb] at h
      have hlist := congrArg String.toList (show "md5:" ++ a = "md5:" ++ b from h)
      rw [String.toList_append, String.toList_append] at hlist
      exact String.toList_injective (List.append_cancel_left hlist)

/-- one user with both parts -/
def openingDb : Db :=
  { Db.empty with accounts := [⟨"alice", ⟨7000000, by decide⟩, ⟨500000, by decide⟩, "2026-01-01T00:00:00.000Z"⟩] }

theorem openingDb_unposted : Unposted exampleMd5 openingDb where
  distinct := by decide
  stored := by decide
  unposted := by
    intro row _ bucket posting hposting
    cases hposting
  owned := by
    intro posting hposting
    cases hposting
  newJournals := fun _ => List.not_mem_nil
  newPostings := fun _ => List.not_mem_nil

theorem opening_balances_example :
    ∃ s', backfill exampleMd5 "2026-02-01T00:00:00.000Z" openingDb = .ok s' ∧
      Preserves PgServer.numbered openingDb s' := by
  apply (opening_balances PgServer.numbered exampleMd5_injective _ openingDb_unposted).mpr
  intro row hrow _
  rw [show row = _ from List.mem_singleton.mp hrow]
  exact ⟨by decide, by decide, by decide⟩

/-- an id that contains `account:`, next to what is left of it -/
def prefixedDb : Db :=
  { Db.empty with accounts := [
      ⟨"account:bob", ⟨7000000, by decide⟩, .zero, "2026-01-01T00:00:00.000Z"⟩,
      ⟨"bob", ⟨1000000, by decide⟩, .zero, "2026-01-01T00:00:00.000Z"⟩] }

/-- the money of `account:bob` is posted to `bob` -/
theorem misattributed :
    ∃ s', backfill exampleMd5 "2026-02-01T00:00:00.000Z" prefixedDb = .ok s' ∧
      s'.available "account:bob" = 0 ∧ s'.available "bob" = 8000000 ∧
      ¬ Preserves PgServer.numbered prefixedDb s' := by
  have hrun : (match backfill exampleMd5 "2026-02-01T00:00:00.000Z" prefixedDb with
      | .ok s' => decide (s'.available "account:bob" = 0 ∧ s'.available "bob" = 8000000)
      | .error _ => false) = true := by decide +kernel
  cases h : backfill exampleMd5 "2026-02-01T00:00:00.000Z" prefixedDb with
  | error e =>
    rw [h] at hrun
    cases hrun
  | ok s' =>
  rw [h] at hrun
  obtain ⟨hghost, hother⟩ := of_decide_eq_true hrun
  refine ⟨s', rfl, hghost, hother, fun hp => ?_⟩
  obtain ⟨p, hp, hbalance, -⟩ := hp.projected _ List.mem_cons_self
  obtain ⟨p', hp', hbalance', -⟩ := projected_apply PgServer.numbered "account:bob" s'
  rw [hp] at hp'
  obtain rfl : p = p' := Except.ok.inj (Prod.mk.inj hp').1
  rw [hbalance, hghost] at hbalance'
  exact absurd hbalance' (by decide)

end Postgres
