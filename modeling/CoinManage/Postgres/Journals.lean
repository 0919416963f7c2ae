import CoinManage.Lib.Rows
import CoinManage.Postgres.OfflinePay

/-!
# Journals and projections

Journals are read back as `Db.books`, each with the postings that belong to it.  `Posted s s' es`
says that exactly the journals `es` were appended between two states.

* `appendJournal_ok`     the books and the postings grow by the journal that was asked for;
* `appendJournal_cases`  a throw halfway, outside of a transaction, leaves at most a journal
                         without postings;
* `projected_apply`, `projectedAccount_apply`   the projections are what the accounts hold.
-/

namespace Postgres

open DoubleEntry

/-! ## the books -/

/-- a journal with the postings that belong to it -/
structure Entry where
  referenceType : String
  referenceId : String
  currencyCode : String
  legs : List (Posting String ℤ)

def Entry.key (e : Entry) : String × String := (e.referenceType, e.referenceId)

def Db.legsOf (s : Db) (journalId : String) : List (Posting String ℤ) :=
  (s.ledgerPostings.filter fun row => row.journalId = journalId).map LedgerPostingRow.toPosting

def Db.entryOf (s : Db) (row : LedgerJournalRow) : Entry :=
  ⟨row.referenceType, row.referenceId, row.currencyCode, s.legsOf row.journalId⟩

def Db.books (s : Db) : List Entry := s.ledgerJournals.map s.entryOf

/-- the references of the journals -/
def Db.journalKeys (s : Db) : List (String × String) :=
  s.ledgerJournals.map fun row => (row.referenceType, row.referenceId)

/-- journals have distinct ids, and every posting belongs to one -/
structure Db.JournalsSound (s : Db) : Prop where
  distinct : (s.ledgerJournals.map (·.journalId)).Nodup
  owned : ∀ row ∈ s.ledgerPostings, row.journalId ∈ s.ledgerJournals.map (·.journalId)

/-- from `s` to `s'`, exactly these journals were appended -/
structure Posted (s s' : Db) (es : List Entry) : Prop where
  sound : s.JournalsSound → s'.JournalsSound
  books : s.JournalsSound → s'.books = s.books ++ es
  postings : s'.postings = s.postings ++ es.flatMap Entry.legs
  keys : s'.journalKeys = s.journalKeys ++ es.map Entry.key

/-- postings as the operations write them, from the accounts and the integer amounts they mean -/
def writeLegs (legs : List (Posting LedgerAccount ℤ)) : List LedgerPostingInput :=
  legs.map fun leg => leg.account.posting leg.side (formatKoriAmount leg.amount)

/-- the journal an operation asks for -/
def JournalInput.entry (input : JournalInput) (legs : List (Posting LedgerAccount ℤ)) : Entry :=
  ⟨cut 64 input.referenceType, cut 64 input.referenceId, cut 16 input.currency,
    mapAccounts LedgerAccount.code legs⟩

section
variable {pg : PgServer}

/-! ## what was posted -/

theorem Posted.of_eq {s s' : Db} (hj : s'.ledgerJournals = s.ledgerJournals)
    (hp : s'.ledgerPostings = s.ledgerPostings) : Posted s s' [] := by
  have hlegs : s'.legsOf = s.legsOf := by
    funext id
    rw [Db.legsOf, Db.legsOf, hp]
  have hentry : s'.entryOf = s.entryOf := by
    funext row
    rw [Db.entryOf, Db.entryOf, hlegs]
  constructor
  · intro h
    constructor
    · rw [hj]
      exact h.distinct
    · rw [hj, hp]
      exact h.owned
  · intro _
    rw [Db.books, Db.books, hentry, hj, List.append_nil]
  · rw [Db.postings, Db.postings, hp, List.flatMap_nil, List.append_nil]
  · rw [Db.journalKeys, Db.journalKeys, hj, List.map_nil, List.append_nil]

theorem Posted.refl (s : Db) : Posted s s [] := Posted.of_eq rfl rfl

theorem Posted.trans {s₁ s₂ s₃ : Db} {es fs : List Entry} (h : Posted s₁ s₂ es)
    (h' : Posted s₂ s₃ fs) : Posted s₁ s₃ (es ++ fs) where
  sound hs := h'.sound (h.sound hs)
  books hs := by rw [h'.books (h.sound hs), h.books hs, List.append_assoc]
  postings := by rw [h'.postings, h.postings, List.flatMap_append, List.append_assoc]
  keys := by rw [h'.keys, h.keys, List.map_append, List.append_assoc]

/-- tables that agree on journals and postings have the same ones posted -/
theorem Posted.congr {s₁ s₂ s₃ : Db} {es : List Entry} (h : Posted s₁ s₂ es)
    (hj : s₃.ledgerJournals = s₂.ledgerJournals) (hp : s₃.ledgerPostings = s₂.ledgerPostings) :
    Posted s₁ s₃ es := by
  have h' := h.trans (Posted.of_eq hj hp)
  rwa [List.append_nil] at h'

theorem Posted.congr_left {s₁ s₂ s₃ : Db} {es : List Entry} (h : Posted s₂ s₃ es)
    (hj : s₂.ledgerJournals = s₁.ledgerJournals) (hp : s₂.ledgerPostings = s₁.ledgerPostings) :
    Posted s₁ s₃ es := (Posted.of_eq hj hp).trans h

/-- a new journal row together with its postings -/
theorem Posted.of_append {s s' : Db} {row : LedgerJournalRow} {rows : List LedgerPostingRow}
    (hfresh : ¬ ∃ other ∈ s.ledgerJournals, other.journalId = row.journalId)
    (hown : ∀ r ∈ rows, r.journalId = row.journalId)
    (hj : s'.ledgerJournals = s.ledgerJournals ++ [row])
    (hp : s'.ledgerPostings = s.ledgerPostings ++ rows) :
    Posted s s' [⟨row.referenceType, row.referenceId, row.currencyCode,
      rows.map LedgerPostingRow.toPosting⟩] := by
  have hlegs : ∀ id, s'.legsOf id = s.legsOf id ++
      (rows.filter fun r => r.journalId = id).map LedgerPostingRow.toPosting := by
    intro id
    rw [Db.legsOf, hp, List.filter_append, List.map_append]
    rfl
  constructor
  · intro h
    constructor
    · rw [hj]
      exact Rows.nodup_append h.distinct hfresh
    · intro r hr
      rw [hp] at hr
      rw [hj, List.map_append]
      rcases List.mem_append.mp hr with hold | hnew
      · exact List.mem_append_left _ (h.owned r hold)
      · rw [hown r hnew]
        exact List.mem_append_right _ (List.mem_singleton_self _)
  · intro h
    have hold : ∀ other ∈ s.ledgerJournals, s'.entryOf other = s.entryOf other := by
      intro other hother
      have hne : ∀ r ∈ rows, ¬ r.journalId = other.journalId := by
        intro r hr e
        exact hfresh ⟨other, hother, by rw [← e, hown r hr]⟩
      have hnil : (rows.filter fun r => r.journalId = other.journalId) = [] := by
        rw [List.filter_eq_nil_iff]
        intro r hr
        simpa using hne r hr
      rw [Db.entryOf, Db.entryOf, hlegs, hnil, List.map_nil, List.append_nil]
    have hnew : s'.entryOf row = ⟨row.referenceType, row.referenceId, row.currencyCode,
        rows.map LedgerPostingRow.toPosting⟩ := by
      have hnone : s.legsOf row.journalId = [] := by
        rw [Db.legsOf, List.map_eq_nil_iff, List.filter_eq_nil_iff]
        intro r hr
        obtain ⟨other, hother, he⟩ := List.mem_map.mp (h.owned r hr)
        have hne : ¬ r.journalId = row.journalId := fun e => hfresh ⟨other, hother, he.trans e⟩
        simpa using hne
      have hall : (rows.filter fun r => r.journalId = row.journalId) = rows := by
        rw [List.filter_eq_self]
        intro r hr
        simpa using hown r hr
      rw [Db.entryOf, hlegs, hnone, hall, List.nil_append]
    rw [Db.books, hj, List.map_append, List.map_congr_left hold, List.map_singleton, hnew]
    rfl
  · rw [Db.postings, hp, List.map_append, List.flatMap_singleton]
    rfl
  · rw [Db.journalKeys, hj, List.map_append]
    rfl

/-- what an account holds after the journals were posted -/
theorem Posted.balance {s s' : Db} {es : List Entry} {legs : List (Posting LedgerAccount ℤ)}
    (h : Posted s s' es) (hlegs : es.flatMap Entry.legs = mapAccounts LedgerAccount.code legs)
    (a : LedgerAccount) : s'.balance a = s.balance a + DoubleEntry.balance a legs := by
  rw [Db.balance, h.postings, hlegs, balance_append,
    balance_mapAccounts LedgerAccount.code_injective]
  rfl

theorem findJournal_isSome {s : Db} {referenceType referenceId : String} :
    (s.findJournal referenceType referenceId).isSome = true ↔
      (referenceType, referenceId) ∈ s.journalKeys := by
  rw [Db.findJournal, List.find?_isSome, Db.journalKeys, List.mem_map]
  constructor
  · rintro ⟨row, hrow, h⟩
    obtain ⟨rfl, rfl⟩ := of_decide_eq_true h
    exact ⟨row, hrow, rfl⟩
  · rintro ⟨row, hrow, h⟩
    obtain ⟨rfl, rfl⟩ := Prod.mk.inj h
    exact ⟨row, hrow, by simp⟩

/-! ## columns of the journals -/

theorem code_getLast (account : LedgerAccount) : account.code.toList.getLast? ≠ some ' ' := by
  cases account with
  | user u b =>
    have hb : b.text.toList ≠ [] := by cases b <;> decide
    rw [userCode_toList]
    have hlast : ('u' :: 's' :: 'e' :: 'r' :: ':' :: (u.toList ++ ':' :: b.text.toList)).getLast? =
        b.text.toList.getLast? := by
      rw [show 'u' :: 's' :: 'e' :: 'r' :: ':' :: (u.toList ++ ':' :: b.text.toList) =
        ('u' :: 's' :: 'e' :: 'r' :: ':' :: u.toList ++ [':']) ++ b.text.toList by simp]
      exact List.getLast?_append_of_ne_nil _ hb
    rw [hlast]
    cases b <;> decide
  | _ => decide

/-- a text that does not end in a blank is stored as it is -/
theorem varchar_exact {n : Nat} {s t : String} (h : varchar n s = .ok t)
    (hlast : s.toList.getLast? ≠ some ' ') : t = s := by
  rw [varchar] at h
  cases hs : text s with
  | error e =>
    rw [hs] at h
    cases h
  | ok s' =>
    obtain rfl := text_ok hs
    rw [hs] at h
    replace h : (if s.length ≤ n then .ok s else if (s.toList.drop n).all (· = ' ') then
      .ok (cut n s) else .error (.database "22001") : Except LedgerError String) = .ok t := h
    split at h
    · exact (Except.ok.inj h).symm
    · next hlong =>
      split at h
      · next hblank =>
        have hne : s.toList.drop n ≠ [] := by
          intro e
          have hle := List.drop_eq_nil_iff.mp e
          rw [String.length_toList] at hle
          exact hlong hle
        have hget : s.toList.getLast? = (s.toList.drop n).getLast? := by
          conv_lhs => rw [← List.take_append_drop n s.toList]
          exact List.getLast?_append_of_ne_nil _ hne
        have hmem := List.getLast_mem hne
        have hblank' := of_decide_eq_true (List.all_eq_true.mp hblank _ hmem)
        rw [hget, List.getLast?_eq_getLast_of_ne_nil hne, hblank'] at hlast
        exact absurd rfl hlast
      · cases h

theorem Except.bind_ok {ε α β : Type} {x : Except ε α} {f : α → Except ε β} {b : β}
    (h : (x >>= f) = .ok b) : ∃ a, x = .ok a ∧ f a = .ok b := by
  cases x with
  | error e => cases h
  | ok a => exact ⟨a, rfl, h⟩

theorem postingRow_ok {journalId nowIso postingId : String} {leg : Posting LedgerAccount ℤ}
    {row : LedgerPostingRow} (h : postingRow pg journalId nowIso postingId
      (leg.account.posting leg.side (formatKoriAmount leg.amount)) = .ok row) :
    uuid pg journalId = .ok row.journalId ∧
      row.toPosting = ⟨leg.account.code, leg.side, leg.amount⟩ := by
  obtain ⟨_, -, h⟩ := Except.bind_ok h
  obtain ⟨id, hid, h⟩ := Except.bind_ok h
  obtain ⟨code, hc, h⟩ := Except.bind_ok h
  obtain ⟨amount, ha, h⟩ := Except.bind_ok h
  obtain ⟨_, -, h⟩ := Except.bind_ok h
  obtain rfl := Except.ok.inj h
  have hexact : code = leg.account.code := varchar_exact hc (code_getLast leg.account)
  have hunits : amount.units = leg.amount := ofText_format ha
  refine ⟨hid, ?_⟩
  rw [LedgerPostingRow.toPosting, hexact, hunits]
  rfl

theorem postingRows_ok {journalId nowIso : String} {ids : List String}
    {legs : List (Posting LedgerAccount ℤ)} {rows : List LedgerPostingRow}
    (h : postingRows pg journalId nowIso ids (writeLegs legs) = .ok rows)
    (hlen : ids.length = legs.length) :
    (∀ row ∈ rows, uuid pg journalId = .ok row.journalId) ∧
    rows.map LedgerPostingRow.toPosting = mapAccounts LedgerAccount.code legs := by
  induction legs generalizing ids rows with
  | nil =>
    have hnil : ids = [] := List.length_eq_zero_iff.mp hlen
    subst hnil
    obtain rfl := Except.ok.inj h
    exact ⟨fun _ h => (by cases h), rfl⟩
  | cons leg legs ih =>
    cases ids with
    | nil => cases hlen
    | cons id ids =>
      obtain ⟨row, hrow, h⟩ := Except.bind_ok h
      obtain ⟨rest, hrest, h⟩ := Except.bind_ok h
      obtain rfl := Except.ok.inj h
      obtain ⟨hid, hleg⟩ := postingRow_ok hrow
      obtain ⟨hids, hlegs⟩ := ih hrest (Nat.succ.inj hlen)
      refine ⟨fun r hr => ?_, ?_⟩
      · rcases List.mem_cons.mp hr with rfl | hr
        · exact hid
        · exact hids r hr
      · rw [List.map_cons, hleg, hlegs]
        rfl

theorem journalRow_ok {journalId : String} {input : JournalInput} {row : LedgerJournalRow}
    (h : journalRow pg journalId input = .ok row) :
    uuid pg journalId = .ok row.journalId ∧ row.referenceType = cut 64 input.referenceType ∧
    row.referenceId = cut 64 input.referenceId ∧ row.currencyCode = cut 16 input.currency := by
  obtain ⟨_, hid, h⟩ := Except.bind_ok h
  obtain ⟨_, -, h⟩ := Except.bind_ok h
  obtain ⟨_, ht, h⟩ := Except.bind_ok h
  obtain ⟨_, hr, h⟩ := Except.bind_ok h
  obtain ⟨_, hc, h⟩ := Except.bind_ok h
  obtain ⟨_, -, h⟩ := Except.bind_ok h
  obtain ⟨_, -, h⟩ := Except.bind_ok h
  obtain rfl := Except.ok.inj h
  exact ⟨hid, varchar_ok ht, varchar_ok hr, varchar_ok hc⟩

/-! ## appending a journal -/

theorem withTransaction_ok {α : Type} {work : Op α} {a : α} {s s' : Db}
    (h : withTransaction work s = (.ok a, s')) : work s = (.ok a, s') :=
  Method.atomically_returns.mp h

theorem withTransaction_throws {α : Type} {work : Op α} {e : LedgerError} {s s' : Db}
    (h : withTransaction work s = (.error e, s')) : ∃ n, s' = { s with uuidsDrawn := n } := by
  obtain ⟨s₁, -, rfl⟩ := Method.atomically_throws.mp h
  exact ⟨s₁.uuidsDrawn, rfl⟩

theorem column_ok {α : Type} {value : Except LedgerError α} {a : α} {s s' : Db}
    (h : column value s = (.ok a, s')) : value = .ok a ∧ s = s' := Method.ofExcept_returns.mp h

theorem lockKey_ok {key : String} {u : Unit} {s s' : Db} (h : lockKey key s = (.ok u, s')) :
    s = s' := by
  obtain ⟨_, s₁, hc, h⟩ := Method.returns_bind.mp h
  obtain ⟨-, rfl⟩ := column_ok hc
  exact (Method.pure_returns.mp h).2

theorem lockUsers_ok {userIds : List String} {u : Unit} {s s' : Db}
    (h : lockUsers userIds s = (.ok u, s')) : s = s' := by
  induction userIds generalizing s with
  | nil => exact (Method.pure_returns.mp h).2
  | cons userId userIds ih =>
    obtain ⟨_, s₁, hk, h⟩ := Method.returns_bind.mp h
    obtain rfl := lockKey_ok hk
    exact ih h

theorem randomUUIDs_apply (pg : PgServer) (n : Nat) (s : Db) :
    ∃ ids, randomUUIDs pg n s = (.ok ids, { s with uuidsDrawn := s.uuidsDrawn + n }) ∧
      ids.length = n := by
  induction n generalizing s with
  | zero => exact ⟨[], rfl, rfl⟩
  | succ n ih =>
    obtain ⟨ids, hids, hlen⟩ := ih { s with uuidsDrawn := s.uuidsDrawn + 1 }
    refine ⟨pg.uuid s.uuidsDrawn :: ids, ?_, by rw [List.length_cons, hlen]⟩
    have hstep : randomUUID pg s =
        (.ok (pg.uuid s.uuidsDrawn), { s with uuidsDrawn := s.uuidsDrawn + 1 }) := rfl
    rw [randomUUIDs, Method.bind_ok _ hstep, Method.bind_ok _ hids, Nat.add_assoc s.uuidsDrawn 1 n,
      Nat.add_comm 1 n]
    rfl

theorem ensureLedgerAccount_apply (pg : PgServer) (posting : LedgerPostingInput) (currencyCode nowIso : String)
    (s : Db) : ∃ la, (ensureLedgerAccount pg posting currencyCode nowIso s).2 =
      { s with ledgerAccounts := la } := by
  unfold ensureLedgerAccount column
  rw [Method.ofExcept_bind]
  cases varchar 128 posting.ledgerAccountCode with
  | error e => exact ⟨s.ledgerAccounts, rfl⟩
  | ok code =>
    simp only
    rw [Method.ofExcept_bind]
    cases varchar 16 currencyCode with
    | error e => exact ⟨s.ledgerAccounts, rfl⟩
    | ok currency =>
      simp only
      rw [Method.ofExcept_bind]
      cases timestamp pg nowIso with
      | error e => exact ⟨s.ledgerAccounts, rfl⟩
      | ok createdAt =>
        simp only [Method.modify_apply]
        split
        · exact ⟨s.ledgerAccounts, rfl⟩
        · exact ⟨_, rfl⟩

theorem ensureLedgerAccounts_apply (pg : PgServer) (currencyCode nowIso : String)
    (postings : List LedgerPostingInput) (s : Db) :
    ∃ la, (ensureLedgerAccounts pg currencyCode nowIso postings s).2 =
      { s with ledgerAccounts := la } := by
  induction postings generalizing s with
  | nil => exact ⟨s.ledgerAccounts, rfl⟩
  | cons posting postings ih =>
    obtain ⟨la, hla⟩ := ensureLedgerAccount_apply pg posting currencyCode nowIso s
    rw [ensureLedgerAccounts, Method.bind_apply]
    rcases hres : ensureLedgerAccount pg posting currencyCode nowIso s with ⟨e | u, s₁⟩
    · rw [hres] at hla
      exact ⟨la, hla⟩
    · rw [hres] at hla
      obtain ⟨la', hla'⟩ := ih s₁
      refine ⟨la', ?_⟩
      rw [hla']
      rw [show s₁ = { s with ledgerAccounts := la } from hla]

theorem insertJournal_cases (pg : PgServer) (journalId : String) (input : JournalInput) (s : Db) :
    (∃ e, insertJournal pg journalId input s = (.error e, s)) ∨
    ∃ row, journalRow pg journalId input = .ok row ∧
      (¬ ∃ other ∈ s.ledgerJournals, other.journalId = row.journalId) ∧
      insertJournal pg journalId input s =
        (.ok (), { s with ledgerJournals := s.ledgerJournals ++ [row] }) := by
  unfold insertJournal column
  rw [Method.ofExcept_bind]
  cases hrow : journalRow pg journalId input with
  | error e => exact Or.inl ⟨e, rfl⟩
  | ok row =>
    simp only [Method.get_bind]
    by_cases hdup : ∃ other ∈ s.ledgerJournals, other.journalId = row.journalId
    · refine Or.inl ⟨.database "23505", ?_⟩
      rw [Method.throwWhen, if_pos hdup]
      rfl
    · refine Or.inr ⟨row, rfl, hdup, ?_⟩
      rw [Method.throwWhen, if_neg hdup]
      rfl

theorem insertPostings_cases (pg : PgServer) (journalId nowIso : String) (legs : List (Posting LedgerAccount ℤ))
    (s : Db) :
    (∃ e n, insertPostings pg journalId nowIso (writeLegs legs) s =
      (.error e, { s with uuidsDrawn := n })) ∨
    ∃ rows n, (∀ row ∈ rows, uuid pg journalId = .ok row.journalId) ∧
      rows.map LedgerPostingRow.toPosting = mapAccounts LedgerAccount.code legs ∧
      insertPostings pg journalId nowIso (writeLegs legs) s =
        (.ok (), { s with ledgerPostings := s.ledgerPostings ++ rows, uuidsDrawn := n }) := by
  have hlegs : (writeLegs legs).length = legs.length := List.length_map _
  obtain ⟨ids, hids, hlen⟩ := randomUUIDs_apply pg (writeLegs legs).length s
  unfold insertPostings column
  rw [Method.bind_ok _ hids, Method.ofExcept_bind]
  cases hrows : postingRows pg journalId nowIso ids (writeLegs legs) with
  | error e => exact Or.inl ⟨e, s.uuidsDrawn + (writeLegs legs).length, rfl⟩
  | ok rows =>
    obtain ⟨hown, hlegs⟩ := postingRows_ok hrows (hlen.trans hlegs)
    simp only [Method.get_bind]
    by_cases hdup : ¬ ((s.ledgerPostings ++ rows).map (·.postingId)).Nodup
    · refine Or.inl ⟨.database "23505", s.uuidsDrawn + (writeLegs legs).length, ?_⟩
      rw [Method.throwWhen, if_pos hdup]
      rfl
    · refine Or.inr ⟨rows, s.uuidsDrawn + (writeLegs legs).length, hown, hlegs, ?_⟩
      rw [Method.throwWhen, if_neg hdup]
      rfl

/-- What `appendJournal` may do: it returns with the whole journal posted, or throws with the
journal missing or without postings.  Nothing else but new ledger accounts is written. -/
theorem appendJournal_cases (pg : PgServer) {input : JournalInput} {legs : List (Posting LedgerAccount ℤ)}
    (hlegs : input.postings = writeLegs legs) (s : Db) :
    ∃ r la js ps n, appendJournal pg input s =
        (r, { s with
          ledgerAccounts := la, ledgerJournals := js, ledgerPostings := ps, uuidsDrawn := n }) ∧
      ∃ es, Posted s { s with
          ledgerAccounts := la, ledgerJournals := js, ledgerPostings := ps, uuidsDrawn := n } es ∧
        (r = .ok () ∧ es = [input.entry legs] ∨ (∃ e, r = .error e) ∧ ∀ e ∈ es, e.legs = []) := by
  obtain ⟨id, n₁, hid, -⟩ : ∃ id n, randomUUID pg s = (.ok id, { s with uuidsDrawn := n }) ∧ True :=
    ⟨_, _, rfl, trivial⟩
  rw [appendJournal, Method.bind_ok _ hid]
  rcases insertJournal_cases pg id input { s with uuidsDrawn := n₁ } with
    ⟨e, he⟩ | ⟨row, hrow, hfresh, hok⟩
  · refine ⟨.error e, s.ledgerAccounts, s.ledgerJournals, s.ledgerPostings, n₁,
      Method.bind_error _ he, [], Posted.of_eq rfl rfl, Or.inr ⟨⟨e, rfl⟩, ?_⟩⟩
    intro _ h
    cases h
  · obtain ⟨hjid, htype, href, hcur⟩ := journalRow_ok hrow
    rw [Method.bind_ok _ hok]
    -- the row of a journal whose postings are still to come, or never come
    have hempty : ∀ la n, Posted s { s with
        ledgerAccounts := la, ledgerJournals := s.ledgerJournals ++ [row], uuidsDrawn := n }
        [⟨row.referenceType, row.referenceId, row.currencyCode, []⟩] := fun la n =>
      @Posted.of_append s _ row [] hfresh (fun r hr => by cases hr) rfl
        (List.append_nil _).symm
    obtain ⟨la, hla⟩ := ensureLedgerAccounts_apply pg input.currency input.nowIso
      input.postings { s with uuidsDrawn := n₁, ledgerJournals := s.ledgerJournals ++ [row] }
    rcases hens : ensureLedgerAccounts pg input.currency input.nowIso input.postings
      { s with uuidsDrawn := n₁, ledgerJournals := s.ledgerJournals ++ [row] } with ⟨e | u, s₂⟩
    · rw [hens] at hla
      replace hla : s₂ = _ := hla
      subst hla
      refine ⟨.error e, la, s.ledgerJournals ++ [row], s.ledgerPostings, n₁,
        Method.bind_error _ hens, _, hempty la n₁, Or.inr ⟨⟨e, rfl⟩, ?_⟩⟩
      intro entry hentry
      rw [List.mem_singleton.mp hentry]
    · rw [hens] at hla
      replace hla : s₂ = _ := hla
      subst hla
      rw [Method.bind_ok _ hens]
      rw [hlegs]
      rcases insertPostings_cases pg id input.nowIso legs
        { s with
          uuidsDrawn := n₁, ledgerJournals := s.ledgerJournals ++ [row], ledgerAccounts := la }
        with ⟨e, n, he⟩ | ⟨rows, n, hown, hrows, hok⟩
      · refine ⟨.error e, la, s.ledgerJournals ++ [row], s.ledgerPostings, n, he, _, hempty la n,
          Or.inr ⟨⟨e, rfl⟩, ?_⟩⟩
        intro entry hentry
        rw [List.mem_singleton.mp hentry]
      · refine ⟨.ok (), la, s.ledgerJournals ++ [row], s.ledgerPostings ++ rows, n, hok, _,
          @Posted.of_append s _ row rows hfresh (fun r hr => ?_) rfl rfl, Or.inl ⟨rfl, ?_⟩⟩
        · exact Except.ok.inj ((hown r hr).symm.trans hjid)
        · rw [JournalInput.entry, htype, href, hcur, hrows]

theorem appendJournal_ok {input : JournalInput} {u : Unit} {s s' : Db}
    {legs : List (Posting LedgerAccount ℤ)} (hlegs : input.postings = writeLegs legs) (h : appendJournal pg input s = (.ok u, s')) :
    (∃ la js ps n, s' = { s with
      ledgerAccounts := la, ledgerJournals := js, ledgerPostings := ps, uuidsDrawn := n }) ∧
    Posted s s' [input.entry legs] := by
  obtain ⟨r, la, js, ps, n, happ, es, hposted, hr⟩ := appendJournal_cases pg hlegs s
  rw [happ] at h
  obtain ⟨hr', rfl⟩ := Prod.mk.inj h
  rcases hr with ⟨-, rfl⟩ | ⟨⟨e, he⟩, -⟩
  · exact ⟨⟨la, js, ps, n, rfl⟩, hposted⟩
  · rw [he] at hr'
    cases hr'

/-! ## projections -/

/-- some posting is to one of the user's accounts -/
def Db.HasPostings (s : Db) (userId : String) : Prop :=
  ∃ p ∈ s.postings, ∃ bucket, p.account = (LedgerAccount.user userId bucket).code

theorem Posted.hasPostings {s s' : Db} {es : List Entry} {u : String} (h : Posted s s' es)
    (hu : s.HasPostings u) : s'.HasPostings u := by
  obtain ⟨p, hp, bucket, hcode⟩ := hu
  refine ⟨p, ?_, bucket, hcode⟩
  rw [h.postings]
  exact List.mem_append_left _ hp

/-- the user of a leg that was posted -/
theorem Posted.hasPostings_of_leg {s s' : Db} {entry : Entry}
    {legs : List (Posting LedgerAccount ℤ)} {leg : Posting LedgerAccount ℤ} {u : String} {b : Bucket}
    (h : Posted s s' [entry]) (hlegs : entry.legs = mapAccounts LedgerAccount.code legs)
    (hleg : leg ∈ legs) (hu : leg.account = .user u b) : s'.HasPostings u := by
  refine ⟨⟨leg.account.code, leg.side, leg.amount⟩, ?_, b, by rw [hu]⟩
  rw [h.postings, List.flatMap_singleton, hlegs]
  exact List.mem_append_right _ (List.mem_map.mpr ⟨leg, hleg, rfl⟩)

theorem balance_eq_sum (s : Db) (a : LedgerAccount) :
    s.balance a =
      (s.ledgerPostings.map fun row => if row.ledgerAccountCode = a.code then row.signed else 0).sum := by
  rw [Db.balance, Db.postings, DoubleEntry.balance, DoubleEntry.net, List.map_map]
  rfl

/-- a sum over the rows of some accounts -/
theorem sum_filter_codes (codes : List String) (f : LedgerPostingRow → ℤ)
    (rows : List LedgerPostingRow) :
    ((rows.filter fun row => row.ledgerAccountCode ∈ codes).map f).sum =
      (rows.map fun row => if row.ledgerAccountCode ∈ codes then f row else 0).sum :=
  Rows.sum_filter _ _ _

theorem sum_filter_code (code : String) (f : LedgerPostingRow → ℤ)
    (rows : List LedgerPostingRow) :
    ((rows.filter fun row => row.ledgerAccountCode = code).map f).sum =
      (rows.map fun row => if row.ledgerAccountCode = code then f row else 0).sum :=
  Rows.sum_filter _ _ _

theorem projectedAccount_apply (account : LedgerAccount) (s : Db) :
    getProjectedLedgerAccountBalance account s = (.ok (s.balance account), s) := by
  rw [getProjectedLedgerAccountBalance, Method.get_bind]
  simp only [parse_sumText, Method.ofExcept_apply]
  congr 2
  rw [sum_filter_code, balance_eq_sum]
  congr 1
  refine List.map_congr_left fun row _ => ?_
  split <;> rfl

theorem projected_apply (pg : PgServer) (userId : String) (s : Db) :
    ∃ p, getProjectedUserBalances pg userId s = (.ok p, s) ∧ p.balance = s.available userId ∧
      p.lockedBalance = s.withdrawPending userId + s.offlinePayPending userId ∧
      (p.hasPostings = true ↔ s.HasPostings userId) := by
  have hne : ∀ {b c : Bucket}, b ≠ c →
      (LedgerAccount.user userId b).code ≠ (LedgerAccount.user userId c).code := by
    intro b c hbc h
    exact hbc (userCode_injective h).2
  refine ⟨_, by
    rw [getProjectedUserBalances, Method.get_bind]
    simp only [parse_sumText, Method.ofExcept_bind]
    rfl, ?_, ?_, ?_⟩
  · show List.sum _ = _
    rw [sum_filter_codes, Db.available, balance_eq_sum]
    congr 1
    refine List.map_congr_left fun row _ => ?_
    by_cases h : row.ledgerAccountCode = (LedgerAccount.user userId .available).code
    · simp [h]
    · simp [h]
  · show List.sum _ = _
    rw [sum_filter_codes, Db.withdrawPending, Db.offlinePayPending, balance_eq_sum, balance_eq_sum,
      ← List.sum_map_add]
    congr 1
    refine List.map_congr_left fun row _ => ?_
    by_cases hw : row.ledgerAccountCode = (LedgerAccount.user userId .withdrawPending).code
    · have hwo := hne (b := .withdrawPending) (c := .offlinePayPending) (by decide)
      simp [hw, hwo]
    · by_cases ho : row.ledgerAccountCode = (LedgerAccount.user userId .offlinePayPending).code
      · have how := hne (b := .offlinePayPending) (c := .withdrawPending) (by decide)
        simp [ho, how]
      · simp [hw, ho]
  · show decide (0 < _) = true ↔ _
    rw [decide_eq_true_iff, List.length_pos_iff_exists_mem]
    constructor
    · rintro ⟨row, hrow⟩
      obtain ⟨hmem, hcode⟩ := List.mem_filter.mp hrow
      refine ⟨row.toPosting, List.mem_map_of_mem hmem, ?_⟩
      rcases List.mem_cons.mp (of_decide_eq_true hcode) with h | h
      · exact ⟨.available, h⟩
      · rcases List.mem_cons.mp h with h | h
        · exact ⟨.withdrawPending, h⟩
        · exact ⟨.offlinePayPending, List.mem_singleton.mp h⟩
    · rintro ⟨p, hp, bucket, hcode⟩
      obtain ⟨row, hrow, rfl⟩ := List.mem_map.mp hp
      refine ⟨row, List.mem_filter.mpr ⟨hrow, decide_eq_true ?_⟩⟩
      have hrowcode : row.ledgerAccountCode = (LedgerAccount.user userId bucket).code := hcode
      rw [hrowcode]
      cases bucket <;> simp

end

end Postgres
