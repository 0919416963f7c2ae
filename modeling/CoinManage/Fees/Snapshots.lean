import CoinManage.InMemory.Ledger
import CoinManage.Lib.Collect
import CoinManage.Postgres.Operations

/-!
# Network fees by day

For each day, `listNetworkFeeDailySnapshots` sets the fees of the recorded receipts against the fees
of the ledger's journals.  In memory both are integers of sun.  In the database a journal's fee is a
`NUMERIC(36, 6)` of TRX: its sum is printed with six decimals, and `BigInt` does not read a point.

* `bigInt_sumText`    no sum of postings is read;
* `confirmFees_posts` a confirmation with a fee leaves a posting that is summed;
* `fee_snapshots`     the two implementations agree, and the fees are exact, only without any fee;
* `fee_throws`        the confirmation of one withdrawal with a fee.
-/

set_option linter.unusedSectionVars false

/-! ## snapshots -/

/-- the fees of one reference type -/
structure FeeTotals where
  ledgerFeeSun : ℤ
  actualFeeSun : ℤ
  ledgerFeeCount : Nat
  actualFeeCount : Nat
  deriving DecidableEq, Repr

structure NetworkFeeDailySnapshot where
  snapshotDate : String
  ledgerFeeSun : ℤ
  actualFeeSun : ℤ
  gapFeeSun : ℤ
  ledgerFeeCount : Nat
  actualFeeCount : Nat
  withdrawal : FeeTotals
  sweep : FeeTotals
  deriving DecidableEq, Repr

/-- fees of one day and type that are added to the snapshot of the day -/
structure FeeLine where
  snapshotDate : String
  referenceType : FeeReferenceType
  feeSun : ℤ
  feeCount : Nat
  deriving DecidableEq, Repr

namespace NetworkFeeDailySnapshot

def byReferenceType (snapshot : NetworkFeeDailySnapshot) : FeeReferenceType → FeeTotals
  | .withdrawal => snapshot.withdrawal
  | .sweep => snapshot.sweep

def updateReferenceType (snapshot : NetworkFeeDailySnapshot) (change : FeeTotals → FeeTotals) :
    FeeReferenceType → NetworkFeeDailySnapshot
  | .withdrawal => { snapshot with withdrawal := change snapshot.withdrawal }
  | .sweep => { snapshot with sweep := change snapshot.sweep }

def created (snapshotDate : String) : NetworkFeeDailySnapshot :=
  ⟨snapshotDate, 0, 0, 0, 0, 0, ⟨0, 0, 0, 0⟩, ⟨0, 0, 0, 0⟩⟩

def addActual (line : FeeLine) (snapshot : NetworkFeeDailySnapshot) : NetworkFeeDailySnapshot :=
  updateReferenceType
    { snapshot with
      actualFeeSun := snapshot.actualFeeSun + line.feeSun
      actualFeeCount := snapshot.actualFeeCount + line.feeCount }
    (fun totals =>
      { totals with
        actualFeeSun := totals.actualFeeSun + line.feeSun
        actualFeeCount := totals.actualFeeCount + line.feeCount })
    line.referenceType

def addLedger (line : FeeLine) (snapshot : NetworkFeeDailySnapshot) : NetworkFeeDailySnapshot :=
  updateReferenceType
    { snapshot with
      ledgerFeeSun := snapshot.ledgerFeeSun + line.feeSun
      ledgerFeeCount := snapshot.ledgerFeeCount + line.feeCount }
    (fun totals =>
      { totals with
        ledgerFeeSun := totals.ledgerFeeSun + line.feeSun
        ledgerFeeCount := totals.ledgerFeeCount + line.feeCount })
    line.referenceType

/-- the snapshot of the line's day, created where it is missing, and changed -/
def ensured (add : FeeLine → NetworkFeeDailySnapshot → NetworkFeeDailySnapshot)
    (snapshots : OrderedMap String NetworkFeeDailySnapshot) (line : FeeLine) :
    OrderedMap String NetworkFeeDailySnapshot :=
  snapshots.set line.snapshotDate
    (add line ((snapshots.get? line.snapshotDate).getD (created line.snapshotDate)))

end NetworkFeeDailySnapshot

/-- what both implementations make of their lines -/
def dailySnapshots (rt : Runtime) (days : Nat) (actual ledger : List FeeLine) :
    List NetworkFeeDailySnapshot :=
  let withActual := actual.foldl (NetworkFeeDailySnapshot.ensured .addActual) .empty
  let snapshots := ledger.foldl (NetworkFeeDailySnapshot.ensured .addLedger) withActual
  ((snapshots.values.map fun item =>
      { item with gapFeeSun := item.actualFeeSun - item.ledgerFeeSun }).mergeSort
    fun left right => rt.localeLe right.snapshotDate left.snapshotDate).take days

/-- a recorded fee: its day, its reference type and its sun -/
abbrev RecordedFee := String × FeeReferenceType × ℤ

/-- Every day with a fee has its snapshot, whose gap is zero and whose ledger fees are, for each
reference type, the sum of the recorded ones. -/
def Exact (fees : List RecordedFee) (snapshots : List NetworkFeeDailySnapshot) : Prop :=
  (∀ fee ∈ fees, ∃ snapshot ∈ snapshots, snapshot.snapshotDate = fee.1) ∧
  ∀ snapshot ∈ snapshots, snapshot.gapFeeSun = 0 ∧
    ∀ referenceType, (snapshot.byReferenceType referenceType).ledgerFeeSun =
      ((fees.filter fun fee => fee.1 = snapshot.snapshotDate ∧ fee.2.1 = referenceType).map
        fun fee => fee.2.2).sum

/-! ## fees that are confirmed -/

/-- a confirmation that comes with a network fee, of a withdrawal or sweep with a transaction -/
structure FeeConfirmation where
  referenceType : FeeReferenceType
  referenceId : String
  txHash : String
  hasTx : txHash ≠ ""
  networkFee : NetworkFee
  nowIso : String

namespace InMemoryLedger

/-- the receipt and the fee journal of a confirmed sweep -/
def recordSweepFee (sweepId txHash : String) (fee : NetworkFee) (nowIso : String) : Op Unit :=
  let feeReceiptId := sweepId ++ ":" ++ txHash
  modify fun s =>
    { s with
      networkFeeReceipts := s.networkFeeReceipts.set feeReceiptId
        { feeReceiptId := feeReceiptId
          referenceType := .sweep
          referenceId := sweepId
          txHash := fee.txHash
          feeSun := fee.feeSun
          energyUsed := fee.energyUsed
          bandwidthUsed := fee.bandwidthUsed
          confirmedAt := nowIso
          createdAt := nowIso }
      networkFeeJournals := s.networkFeeJournals.set feeReceiptId
        { snapshotDate := dayOf nowIso
          referenceType := .sweep
          feeSun := fee.feeSun
          createdAt := nowIso } }

def confirmFee (c : FeeConfirmation) : Op Unit :=
  match c.referenceType with
  | .withdrawal => recordNetworkFee c.referenceId c.txHash c.networkFee c.nowIso
  | .sweep => recordSweepFee c.referenceId c.txHash c.networkFee c.nowIso

def confirmFees : List FeeConfirmation → Op Unit
  | [] => return ()
  | c :: history => do
    confirmFee c
    confirmFees history

def listNetworkFeeDailySnapshots (rt : Runtime) (days : Nat) (s : InMemoryLedger) :
    List NetworkFeeDailySnapshot :=
  dailySnapshots rt days
    (s.networkFeeReceipts.values.map fun receipt =>
      ⟨dayOf receipt.confirmedAt, receipt.referenceType, receipt.feeSun, 1⟩)
    (s.networkFeeJournals.values.map fun journal =>
      ⟨journal.snapshotDate, journal.referenceType, journal.feeSun, 1⟩)

end InMemoryLedger

namespace Postgres
open DoubleEntry

def confirmFee (pg : PgServer) (c : FeeConfirmation) : Op Unit :=
  match c.referenceType with
  | .withdrawal => recordNetworkFee pg c.referenceId (some c.txHash) (some c.networkFee) c.nowIso
  | .sweep => recordSweepFee pg c.referenceId (some c.txHash) (some c.networkFee) c.nowIso

def confirmFees (pg : PgServer) : List FeeConfirmation → Op Unit
  | [] => return ()
  | c :: history => do
    confirmFee pg c
    confirmFees pg history

/-! ## the queries -/

/-- `BigInt(text)` of a text the queries print -/
def bigInt (s : String) : Except LedgerError ℤ :=
  let negative := s.toList.head? == some '-'
  let digits := if negative then s.toList.drop 1 else s.toList
  if digits ≠ [] ∧ digits.all Char.isDigit then
    .ok (if negative then -(Nat.ofDigitChars 10 digits 0 : ℤ) else Nat.ofDigitChars 10 digits 0)
  else .error (.plain ("Cannot convert " ++ s ++ " to a BigInt"))

/-- a row of one of the two queries -/
structure FeeRow where
  snapshotDate : String
  referenceType : FeeReferenceType
  feeSun : String
  feeCount : Nat
  deriving DecidableEq, Repr

/-- `group by`: the keys of the rows, each with its rows -/
def groupBy {α κ : Type} [DecidableEq κ] (key : α → κ) (rows : List α) : List (κ × List α) :=
  (rows.map key).dedup.map fun k => (k, rows.filter fun row => key row = k)

/-- `order by .. desc limit ..` over groups by day and type -/
def latestGroups {α : Type} (limit : Nat) (groups : List ((String × FeeReferenceType) × List α)) :
    List ((String × FeeReferenceType) × List α) :=
  (groups.mergeSort fun a b => decide (b.1.1 ≤ a.1.1)).take limit

section
variable (day : String → String)

/-- the receipts by the day (`to_char(date_trunc('day', ..), 'YYYY-MM-DD')`) they were confirmed -/
def actualFeeRows (s : Db) (limit : Nat) : List FeeRow :=
  (latestGroups limit (groupBy (fun row => (day row.confirmedAt, row.referenceType)) s.networkFeeReceipts)).map
    fun group =>
      ⟨group.1.1, group.1.2, toString ((group.2.map NetworkFeeReceiptRow.feeSun).sum), group.2.length⟩

/-- the debits of the fee expense accounts, with their journals -/
def feePostings (s : Db) : List (LedgerJournalRow × LedgerPostingRow) :=
  s.ledgerJournals.flatMap fun journal =>
    (s.ledgerPostings.filter fun posting =>
      posting.journalId = journal.journalId ∧ journal.currencyCode = "TRX" ∧
      (journal.journalType = "withdraw_network_fee" ∨ journal.journalType = "sweep_network_fee") ∧
      posting.entrySide = .debit ∧
      (posting.ledgerAccountCode = LedgerAccount.withdrawNetworkFee.code ∨
        posting.ledgerAccountCode = LedgerAccount.sweepNetworkFee.code)).map fun posting => (journal, posting)

/-- the reference type that the `case` makes of a journal's type -/
def feeReferenceType (journalType : String) : FeeReferenceType :=
  if journalType = "withdraw_network_fee" then .withdrawal else .sweep

def ledgerFeeRows (s : Db) (limit : Nat) : List FeeRow :=
  (latestGroups limit (groupBy (fun row => (day row.1.createdAt, feeReferenceType row.1.journalType))
    (feePostings s))).map fun group =>
      ⟨group.1.1, group.1.2, sumText (group.2.map fun row => row.2.amount.units),
        (group.2.map fun row => row.1.journalId).dedup.length⟩

def FeeRow.line (row : FeeRow) : Except LedgerError FeeLine := do
  let feeSun ← bigInt row.feeSun
  return ⟨row.snapshotDate, row.referenceType, feeSun, row.feeCount⟩

def listNetworkFeeDailySnapshots (rt : Runtime) (days : Nat) (s : Db) :
    Except LedgerError (List NetworkFeeDailySnapshot) := do
  let actual ← (actualFeeRows day s (days * 2)).mapM FeeRow.line
  let ledger ← (ledgerFeeRows day s (days * 2)).mapM FeeRow.line
  return dailySnapshots rt days actual ledger

/-- the fees of the receipts -/
def Db.recordedFees (s : Db) : List RecordedFee :=
  s.networkFeeReceipts.map fun row => (day row.confirmedAt, row.referenceType, row.feeSun)

/-- the query returns, its fees are exact, and the other implementation gives the same -/
def Reconciles (pg : PgServer) (days : Nat) (s : Db) (m : InMemoryLedger) : Prop :=
  ∃ snapshots, listNetworkFeeDailySnapshots day pg.toRuntime days s = .ok snapshots ∧
    Exact (s.recordedFees day) snapshots ∧ m.listNetworkFeeDailySnapshots pg.toRuntime days = snapshots

end

/-! ## sums are printed with a point -/

theorem bigInt_error {s : String} (h : '.' ∈ s.toList) : ∃ e, bigInt s = .error e := by
  unfold bigInt
  dsimp only
  refine ⟨_, if_neg ?_⟩
  rintro ⟨-, hall⟩
  have hpoint : '.' ∈ (if (s.toList.head? == some '-') = true then s.toList.drop 1 else s.toList) := by
    split
    · next hminus =>
      -- the first character is the sign
      cases hs : s.toList with
      | nil =>
        rw [hs] at h
        cases h
      | cons c rest =>
        rw [hs] at h hminus
        rcases List.mem_cons.mp h with rfl | h
        · exact absurd hminus (by simp)
        · exact h
    · exact h
  have hdigit := List.all_eq_true.mp hall _ hpoint
  revert hdigit
  decide

/-- no sum of postings is read -/
theorem bigInt_sumText {units : List ℤ} (h : units ≠ []) : ∃ e, bigInt (sumText units) = .error e := by
  rw [sumText, if_neg h]
  apply bigInt_error
  rw [formatKoriAmount, String.toList_ofList, formatUnits]
  exact List.mem_append_right _ (List.mem_append_right _ List.mem_cons_self)

theorem mem_groupBy {α κ : Type} [DecidableEq κ] {key : α → κ} {rows : List α}
    {group : κ × List α} (h : group ∈ groupBy key rows) : group.2 ≠ [] := by
  obtain ⟨k, hk, rfl⟩ := List.mem_map.mp h
  obtain ⟨row, hrow, rfl⟩ := List.mem_map.mp (List.mem_dedup.mp hk)
  exact List.ne_nil_of_mem (List.mem_filter.mpr ⟨hrow, decide_eq_true rfl⟩)

section
variable {day : String → String} {s s' : Db} {days : Nat}

/-- a posting of a fee makes the query throw -/
theorem posted_throws (rt : Runtime) (hdays : 0 < days) (h : feePostings s ≠ []) :
    ∃ e, listNetworkFeeDailySnapshots day rt days s = .error e := by
  obtain ⟨row, hrow⟩ := List.exists_mem_of_ne_nil _ h
  have hgroups : groupBy (fun row : LedgerJournalRow × LedgerPostingRow =>
      (day row.1.createdAt, feeReferenceType row.1.journalType)) (feePostings s) ≠ [] := by
    have hkey := List.mem_dedup.mpr (List.mem_map_of_mem (f := fun row : LedgerJournalRow ×
      LedgerPostingRow => (day row.1.createdAt, feeReferenceType row.1.journalType)) hrow)
    exact List.ne_nil_of_mem (List.mem_map_of_mem hkey)
  obtain ⟨group, hgroup⟩ : ∃ group, group ∈ latestGroups (days * 2) (groupBy
      (fun row : LedgerJournalRow × LedgerPostingRow =>
        (day row.1.createdAt, feeReferenceType row.1.journalType)) (feePostings s)) := by
    apply List.exists_mem_of_ne_nil
    rw [latestGroups, Ne, List.take_eq_nil_iff]
    rintro (hzero | hnil)
    · omega
    · have hlen := (List.mergeSort_perm (groupBy
          (fun row : LedgerJournalRow × LedgerPostingRow =>
            (day row.1.createdAt, feeReferenceType row.1.journalType)) (feePostings s))
        (fun a b : (String × FeeReferenceType) × List (LedgerJournalRow × LedgerPostingRow) =>
          decide (b.1.1 ≤ a.1.1))).length_eq
      rw [hnil] at hlen
      exact hgroups (List.length_eq_zero_iff.mp hlen.symm)
  have hfull : group.2 ≠ [] := mem_groupBy (List.mem_mergeSort.mp (List.mem_of_mem_take hgroup))
  obtain ⟨e₁, he₁⟩ : ∃ e, bigInt (sumText (group.2.map fun row => row.2.amount.units)) = .error e :=
    bigInt_sumText fun hnil => hfull (List.map_eq_nil_iff.mp hnil)
  obtain ⟨e₂, he₂⟩ : ∃ e, (ledgerFeeRows day s (days * 2)).mapM FeeRow.line = .error e := by
    refine Collect.mapM_error (List.mem_map_of_mem hgroup) ⟨e₁, ?_⟩
    unfold FeeRow.line
    dsimp only
    rw [he₁]
    rfl
  unfold listNetworkFeeDailySnapshots
  cases (actualFeeRows day s (days * 2)).mapM FeeRow.line with
  | error e => exact ⟨e, rfl⟩
  | ok actual =>
    refine ⟨e₂, ?_⟩
    show ((ledgerFeeRows day s (days * 2)).mapM FeeRow.line >>= _) = _
    rw [he₂]
    rfl

end

/-! ## a confirmation posts its fee -/

section
variable {pg : PgServer} {s s' : Db}

theorem journalRow_type {journalId : String} {input : JournalInput} {row : LedgerJournalRow}
    (h : journalRow pg journalId input = .ok row) : row.journalType = cut 64 input.journalType := by
  obtain ⟨_, -, h⟩ := Except.bind_ok h
  obtain ⟨_, ht, h⟩ := Except.bind_ok h
  obtain ⟨_, -, h⟩ := Except.bind_ok h
  obtain ⟨_, -, h⟩ := Except.bind_ok h
  obtain ⟨_, -, h⟩ := Except.bind_ok h
  obtain ⟨_, -, h⟩ := Except.bind_ok h
  obtain ⟨_, -, h⟩ := Except.bind_ok h
  obtain rfl := Except.ok.inj h
  exact varchar_ok ht

/-- the rows that `appendJournal` writes -/
theorem appendJournal_rows {input : JournalInput} {u : Unit} {legs : List (Posting LedgerAccount ℤ)}
    (hlegs : input.postings = writeLegs legs) (h : appendJournal pg input s = (.ok u, s')) :
    ∃ journal rows, s'.ledgerJournals = s.ledgerJournals ++ [journal] ∧
      s'.ledgerPostings = s.ledgerPostings ++ rows ∧
      journal.journalType = cut 64 input.journalType ∧ journal.currencyCode = cut 16 input.currency ∧
      (∀ row ∈ rows, row.journalId = journal.journalId) ∧
      rows.map LedgerPostingRow.toPosting = mapAccounts LedgerAccount.code legs := by
  obtain ⟨id, s₁, hid, h⟩ := Method.returns_bind.mp h
  obtain ⟨u₁, s₂, hins, h⟩ := Method.returns_bind.mp h
  obtain ⟨u₂, s₃, hens, h⟩ := Method.returns_bind.mp h
  rcases insertJournal_cases pg id input s₁ with ⟨e, he⟩ | ⟨journal, hjournal, -, hok⟩
  · rw [he] at hins
    cases hins
  · rw [hok] at hins
    obtain ⟨-, rfl⟩ := Prod.mk.inj hins
    obtain ⟨la, hla⟩ := ensureLedgerAccounts_apply pg input.currency input.nowIso input.postings
      { s₁ with ledgerJournals := s₁.ledgerJournals ++ [journal] }
    rw [hens] at hla
    obtain rfl : s₃ = _ := hla
    rw [hlegs] at h
    rcases insertPostings_cases pg id input.nowIso legs { s₁ with
        ledgerJournals := s₁.ledgerJournals ++ [journal], ledgerAccounts := la } with
      ⟨e, n, he⟩ | ⟨rows, n, hown, hrows, hok⟩
    · rw [he] at h
      cases h
    · rw [hok] at h
      obtain ⟨-, rfl⟩ := Prod.mk.inj h
      obtain ⟨hjid, -, -, hcurrency⟩ := journalRow_ok hjournal
      have hs₁ : s₁ = { s with uuidsDrawn := s.uuidsDrawn + 1 } := (Prod.mk.inj hid).2.symm
      subst hs₁
      exact ⟨journal, rows, rfl, rfl, journalRow_type hjournal, hcurrency,
        fun row hrow => Except.ok.inj ((hown row hrow).symm.trans hjid), hrows⟩

/-- the debit and the credit of a fee -/
def feeLegs (referenceType : FeeReferenceType) (feeSun : ℤ) : List (Posting LedgerAccount ℤ) :=
  match referenceType with
  | .withdrawal => [⟨.withdrawNetworkFee, .debit, feeSun⟩, ⟨.hotWalletTrx, .credit, feeSun⟩]
  | .sweep => [⟨.sweepNetworkFee, .debit, feeSun⟩, ⟨.sweepSourceTrx, .credit, feeSun⟩]

/-- journals and postings are only added -/
structure Grows (s s' : Db) : Prop where
  journals : s.ledgerJournals ⊆ s'.ledgerJournals
  postings : s.ledgerPostings ⊆ s'.ledgerPostings

theorem Grows.trans {s₁ s₂ s₃ : Db} (h : Grows s₁ s₂) (h' : Grows s₂ s₃) : Grows s₁ s₃ :=
  ⟨fun _ hrow => h'.journals (h.journals hrow), fun _ hrow => h'.postings (h.postings hrow)⟩

theorem mem_feePostings {row : LedgerJournalRow × LedgerPostingRow} : row ∈ feePostings s ↔
    row.1 ∈ s.ledgerJournals ∧ row.2 ∈ s.ledgerPostings ∧ row.2.journalId = row.1.journalId ∧
    row.1.currencyCode = "TRX" ∧
    (row.1.journalType = "withdraw_network_fee" ∨ row.1.journalType = "sweep_network_fee") ∧
    row.2.entrySide = .debit ∧ (row.2.ledgerAccountCode = LedgerAccount.withdrawNetworkFee.code ∨
      row.2.ledgerAccountCode = LedgerAccount.sweepNetworkFee.code) := by
  rw [feePostings, List.mem_flatMap]
  constructor
  · rintro ⟨journal, hjournal, hrow⟩
    obtain ⟨posting, hposting, rfl⟩ := List.mem_map.mp hrow
    obtain ⟨hmem, hof⟩ := List.mem_filter.mp hposting
    exact ⟨hjournal, hmem, of_decide_eq_true hof⟩
  · rintro ⟨hjournal, hmem, hof⟩
    exact ⟨row.1, hjournal, List.mem_map.mpr ⟨row.2, List.mem_filter.mpr ⟨hmem, decide_eq_true hof⟩, rfl⟩⟩

theorem Grows.feePostings (h : Grows s s') (hne : feePostings s ≠ []) : feePostings s' ≠ [] := by
  obtain ⟨row, hrow⟩ := List.exists_mem_of_ne_nil _ hne
  obtain ⟨hjournal, hposting, hof⟩ := mem_feePostings.mp hrow
  exact List.ne_nil_of_mem (mem_feePostings.mpr ⟨h.journals hjournal, h.postings hposting, hof⟩)

/-- the fee journal of a confirmation -/
theorem fee_posted {input : JournalInput} {u : Unit} {referenceType : FeeReferenceType} {feeSun : ℤ}
    (hlegs : input.postings = writeLegs (feeLegs referenceType feeSun))
    (htype : input.journalType = "withdraw_network_fee" ∨ input.journalType = "sweep_network_fee")
    (hcurrency : input.currencyCode = some "TRX") (h : appendJournal pg input s = (.ok u, s')) :
    Grows s s' ∧ feePostings s' ≠ [] := by
  obtain ⟨journal, rows, hjournals, hpostings, hjtype, hjcurrency, hown, hrows⟩ := appendJournal_rows hlegs h
  refine ⟨⟨?_, ?_⟩, ?_⟩
  · rw [hjournals]
    exact List.subset_append_left _ _
  · rw [hpostings]
    exact List.subset_append_left _ _
  · -- the debit is the first of the rows
    obtain ⟨row, hrow, hdebit, hcode⟩ : ∃ row ∈ rows, row.entrySide = .debit ∧
        (row.ledgerAccountCode = LedgerAccount.withdrawNetworkFee.code ∨
          row.ledgerAccountCode = LedgerAccount.sweepNetworkFee.code) := by
      cases rows with
      | nil => cases referenceType <;> cases hrows
      | cons row rows =>
        refine ⟨row, List.mem_cons_self, ?_⟩
        cases referenceType with
        | withdrawal =>
          have hfirst := (List.cons.inj hrows).1
          exact ⟨congrArg Posting.side hfirst, Or.inl (congrArg Posting.account hfirst)⟩
        | sweep =>
          have hfirst := (List.cons.inj hrows).1
          exact ⟨congrArg Posting.side hfirst, Or.inr (congrArg Posting.account hfirst)⟩
    apply List.ne_nil_of_mem (a := (journal, row))
    rw [mem_feePostings]
    have hcut : journal.currencyCode = "TRX" := by
      rw [hjcurrency, JournalInput.currency, hcurrency]
      decide
    have hkind : journal.journalType = "withdraw_network_fee" ∨ journal.journalType = "sweep_network_fee" := by
      rw [hjtype]
      rcases htype with h | h
      · exact Or.inl (by rw [h]; decide)
      · exact Or.inr (by rw [h]; decide)
    refine ⟨?_, ?_, hown row hrow, hcut, hkind, hdebit, hcode⟩
    · rw [hjournals]
      exact List.mem_append_right _ (List.mem_singleton_self _)
    · rw [hpostings]
      exact List.mem_append_right _ hrow

theorem truthy_some {txHash : String} (h : txHash ≠ "") : truthy (some txHash) = some txHash := by
  rw [truthy]
  simp [h]

/-- a confirmation with a fee leaves a posting that is summed -/
theorem confirmFee_posts {c : FeeConfirmation} {u : Unit} (h : confirmFee pg c s = (.ok u, s')) :
    Grows s s' ∧ feePostings s' ≠ [] := by
  have hreceipt : ∀ {referenceType referenceId s₁} {u₁ : Unit}, persistNetworkFeeReceipt pg referenceType
      referenceId c.networkFee c.nowIso s = (.ok u₁, s₁) → Grows s s₁ := by
    intro referenceType referenceId s₁ u₁ hp
    obtain ⟨receipts, n, hs₁⟩ :=
      persistNetworkFeeReceipt_writes pg referenceType referenceId c.networkFee c.nowIso s
    rw [hp] at hs₁
    obtain rfl : s₁ = _ := hs₁
    exact ⟨List.Subset.refl _, List.Subset.refl _⟩
  unfold confirmFee at h
  cases hkind : c.referenceType with
  | withdrawal =>
    rw [hkind] at h
    dsimp only at h
    unfold recordNetworkFee at h
    rw [truthy_some c.hasTx] at h
    obtain ⟨u₁, s₁, hp, h⟩ := Method.returns_bind.mp h
    have hlegs : writeLegs (feeLegs .withdrawal c.networkFee.feeSun) = writeLegs (feeLegs .withdrawal c.networkFee.feeSun) := rfl
    obtain ⟨hgrows, hposted⟩ := fee_posted hlegs (Or.inl rfl) rfl h
    exact ⟨(hreceipt hp).trans hgrows, hposted⟩
  | sweep =>
    rw [hkind] at h
    dsimp only at h
    unfold recordSweepFee at h
    rw [truthy_some c.hasTx] at h
    obtain ⟨u₁, s₁, hp, h⟩ := Method.returns_bind.mp h
    have hlegs : writeLegs (feeLegs .sweep c.networkFee.feeSun) = writeLegs (feeLegs .sweep c.networkFee.feeSun) := rfl
    obtain ⟨hgrows, hposted⟩ := fee_posted hlegs (Or.inr rfl) rfl h
    exact ⟨(hreceipt hp).trans hgrows, hposted⟩

theorem confirmFees_posts {history : List FeeConfirmation} {u : Unit}
    (h : confirmFees pg history s = (.ok u, s')) :
    Grows s s' ∧ (history ≠ [] → feePostings s' ≠ []) := by
  induction history generalizing s with
  | nil =>
    obtain rfl : s = s' := (Prod.mk.inj h).2
    exact ⟨⟨List.Subset.refl _, List.Subset.refl _⟩, fun hne => absurd rfl hne⟩
  | cons c history ih =>
    obtain ⟨u₁, s₁, hfirst, h⟩ := Method.returns_bind.mp h
    obtain ⟨hgrows, hposted⟩ := confirmFee_posts hfirst
    obtain ⟨hgrows', -⟩ := ih h
    exact ⟨hgrows.trans hgrows', fun _ => hgrows'.feePostings hposted⟩

end

/-! ## the two implementations -/

/-- tables without receipts and without fee journals -/
def NoFees (s : Db) (m : InMemoryLedger) : Prop :=
  s.networkFeeReceipts = [] ∧ feePostings s = [] ∧ m.networkFeeReceipts = .empty ∧
    m.networkFeeJournals = .empty

theorem reconciles_noFees {pg : PgServer} {day : String → String} {days : Nat} {s : Db}
    {m : InMemoryLedger} (h : NoFees s m) : Reconciles day pg days s m := by
  obtain ⟨hreceipts, hpostings, hm₁, hm₂⟩ := h
  have hnone : ([] : List ((String × FeeReferenceType) × List (LedgerJournalRow × LedgerPostingRow))).mergeSort
      (fun a b => decide (b.1.1 ≤ a.1.1)) = [] := List.mergeSort_nil
  have hnone' : ([] : List ((String × FeeReferenceType) × List NetworkFeeReceiptRow)).mergeSort
      (fun a b => decide (b.1.1 ≤ a.1.1)) = [] := List.mergeSort_nil
  have hempty : dailySnapshots pg.toRuntime days [] [] = [] := by
    show (([] : List NetworkFeeDailySnapshot).mergeSort _).take days = []
    rw [List.mergeSort_nil, List.take_nil]
  refine ⟨[], ?_, ⟨fun fee hfee => ?_, nofun⟩, ?_⟩
  · have hactual : actualFeeRows day s (days * 2) = [] := by
      rw [actualFeeRows, hreceipts]
      show ((([] : List _).mergeSort _).take (days * 2)).map _ = []
      rw [hnone', List.take_nil, List.map_nil]
    have hledger : ledgerFeeRows day s (days * 2) = [] := by
      rw [ledgerFeeRows, hpostings]
      show ((([] : List _).mergeSort _).take (days * 2)).map _ = []
      rw [hnone, List.take_nil, List.map_nil]
    rw [listNetworkFeeDailySnapshots, hactual, hledger]
    show Except.ok (dailySnapshots pg.toRuntime days [] []) = _
    rw [hempty]
  · rw [Db.recordedFees, hreceipts] at hfee
    cases hfee
  · rw [InMemoryLedger.listNetworkFeeDailySnapshots, hm₁, hm₂]
    exact hempty

/-- **Network fees by day.**  When withdrawals and sweeps are confirmed with their fees, from tables
without fees and in both implementations, the query over a window that covers their days returns, is
exact and gives what the in-memory ledger gives, exactly when there was no such confirmation. -/
theorem fee_snapshots (pg : PgServer) (day : String → String) (days : Nat)
    (history : List FeeConfirmation) (s₀ s : Db) (m₀ m : InMemoryLedger) (hnew : NoFees s₀ m₀)
    (hdays : (history.map fun c => InMemoryLedger.dayOf c.nowIso).dedup.length ≤ days)
    (hs : confirmFees pg history s₀ = (.ok (), s))
    (hm : InMemoryLedger.confirmFees history m₀ = (.ok (), m)) :
    Reconciles day pg days s m ↔ history = [] := by
  constructor
  · rintro ⟨snapshots, hok, -, -⟩
    by_contra hne
    have hpos : 0 < days := by
      obtain ⟨c, hc⟩ := List.exists_mem_of_ne_nil _ hne
      have hmem := List.mem_dedup.mpr (List.mem_map_of_mem (f := fun c : FeeConfirmation =>
        InMemoryLedger.dayOf c.nowIso) hc)
      have hlen := List.length_pos_of_mem hmem
      omega
    obtain ⟨e, he⟩ := posted_throws pg.toRuntime hpos ((confirmFees_posts hs).2 hne)
    rw [he] at hok
    cases hok
  · rintro rfl
    obtain rfl : s₀ = s := (Prod.mk.inj hs).2
    obtain rfl : m₀ = m := (Prod.mk.inj hm).2
    exact reconciles_noFees hnew

/-! ## one withdrawal -/

/-- a withdrawal that is confirmed with a fee of 1.1 TRX -/
def exampleConfirmation : FeeConfirmation where
  referenceType := .withdrawal
  referenceId := "5a3b0c4e-0000-4000-8000-000000000001"
  txHash := "0xpayout"
  hasTx := by decide
  networkFee := ⟨"0xpayout", 1100000, 0, 345⟩
  nowIso := "2026-03-01T10:00:00.000Z"

/-- the tables after it -/
def exampleConfirmed : Db := (confirmFees .numbered [exampleConfirmation] Db.empty).2

theorem pair_of_fst {α β : Type} {p : α × β} {a : α} (h : p.1 = a) : p = (a, p.2) := by
  rw [← h]

theorem exampleConfirmed_ok :
    confirmFees .numbered [exampleConfirmation] Db.empty = (.ok (), exampleConfirmed) := by
  have hok : (confirmFees .numbered [exampleConfirmation] Db.empty).1 = .ok () := by decide +kernel
  exact pair_of_fst hok

theorem noFees_empty (limits : WithdrawalLimitConfig) : NoFees Db.empty (.new limits) :=
  ⟨rfl, rfl, rfl, rfl⟩

theorem fee_snapshots_example :
    Reconciles InMemoryLedger.dayOf .numbered 7 exampleConfirmed
        (InMemoryLedger.confirmFees [exampleConfirmation] (.new ⟨10000000, 10000000⟩)).2 ↔
      [exampleConfirmation] = [] :=
  fee_snapshots .numbered InMemoryLedger.dayOf 7 [exampleConfirmation] Db.empty exampleConfirmed (.new ⟨10000000, 10000000⟩) _
    (noFees_empty _) (by decide) exampleConfirmed_ok rfl

/-- the query after it throws -/
theorem fee_throws : exampleConfirmed.networkFeeReceipts.length = 1 ∧
    ∃ e, listNetworkFeeDailySnapshots InMemoryLedger.dayOf PgServer.numbered.toRuntime 7 exampleConfirmed = .error e := by
  refine ⟨by decide +kernel, posted_throws _ (by decide) ?_⟩
  exact (confirmFees_posts exampleConfirmed_ok).2 (List.cons_ne_nil _ _)

end Postgres
