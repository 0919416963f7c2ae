import CoinManage.Postgres.Operations
import CoinManage.Sweeps.Calls

/-!
# Sweeps under concurrency

Any number of connections take steps on sweeps, a statement at a time in any order; a statement may
be refused, and a step may be cut off anywhere.  The status an `UPDATE` overwrites is not the one
that was checked, so the run decides:

* `sweep_laws`      if every `UPDATE` finds a status that its step starts from, or the one it sets,
                    and an attempt finds the count it read, then statuses move along the edges, the
                    count is right and fees are booked once;
* `failed_confirmed`   a sweep that has failed is confirmed after all.
-/

set_option linter.unusedSectionVars false

namespace Sweeps
open Postgres Program Interleaving DoubleEntry

/-! ## the world -/

inductive Event where
  /-- an execution has updated a sweep's row -/
  | updated (execution : Nat) (before after : SweepRecordRow)
  deriving DecidableEq

/-- the tables, the updates so far, latest first, and how many attempts of a sweep have been
recorded and have returned -/
structure World where
  db : Db
  trace : List Event
  returned : String → ℤ

/-- the world as a statement leaves it: an update is the last statement of an attempt -/
def World.after {β : Type} (w : World) (i : Nat) (call : Statement β) (r : Except LedgerError β)
    (db : Db) : World :=
  match call, r with
  | .updateSweep _ set, .ok after =>
    { db := db
      trace := (w.db.sweepRecords.filter fun row => row.sweepId = after.sweepId).map
        (fun before => .updated i before after) ++ w.trace
      returned := if set.attemptCount.isSome then
          Function.update w.returned after.sweepId (w.returned after.sweepId + 1)
        else w.returned }
  | _, _ => { w with db := db }

section
variable (pg : PgServer)

/-- What may come of a statement: it is carried out, or refused with nothing done. -/
inductive Handles (i : Nat) : ∀ {β : Type}, Statement β → World → Except LedgerError β → World → Prop
  | done {β : Type} (call : Statement β) (w : World) : Handles i call w (call.op pg w.db).1
      (w.after i call (call.op pg w.db).1 (call.op pg w.db).2)
  | refused {β : Type} (call : Statement β) (e : LedgerError) (w : World) :
      Handles i call w (.error e) w

/-- the journals of a sweep's network fee -/
def feeJournals (s : Db) (sweepId : String) : List LedgerJournalRow :=
  s.ledgerJournals.filter fun row => row.referenceType = "sweep" ∧ uuid pg row.referenceId = .ok sweepId

def feeReceipts (s : Db) (sweepId : String) : List NetworkFeeReceiptRow :=
  s.networkFeeReceipts.filter fun row => row.referenceType = .sweep ∧ uuid pg row.referenceId = .ok sweepId

/-- fees of the sweep are as they were -/
structure SameFees (s s' : Db) (sweepId : String) : Prop where
  journals : feeJournals pg s' sweepId = feeJournals pg s sweepId
  receipts : feeReceipts pg s' sweepId = feeReceipts pg s sweepId
  legs : ∀ journal ∈ feeJournals pg s sweepId, s'.legsOf journal.journalId = s.legsOf journal.journalId

/-- the rest of the program: sweeps may be planned, their fees are left alone -/
structure Elsewhere (w w' : World) : Prop where
  trace : w'.trace = w.trace
  returned : w'.returned = w.returned
  planned : ∃ rows, w'.db.sweepRecords = w.db.sweepRecords ++ rows ∧
    ∀ row ∈ rows, row.status = .planned ∧ row.attemptCount = 0
  distinct : (w'.db.sweepRecords.map (·.sweepId)).Nodup
  journals : w.db.JournalsSound → w'.db.JournalsSound
  fees : ∀ sweepId, SameFees pg w.db w'.db sweepId

/-- a step whose answer nobody reads -/
def discard {α : Type} (p : Async α) : Async Unit := do
  let _ ← p
  return ()

/-- what connections run -/
inductive IsStep : Async Unit → Prop
  | markSweepQueued (sweepId : String) (note : Option String) (nowIso : String) :
      IsStep (discard (markSweepQueued sweepId note nowIso))
  | recordSweepAttempt (sweepId : String) (note : Option String) (nowIso : String) :
      IsStep (discard (recordSweepAttempt sweepId note nowIso))
  | markSweepBroadcasted (sweepId txHash : String) (note : Option String) (nowIso : String) :
      IsStep (discard (markSweepBroadcasted sweepId txHash note nowIso))
  | confirmSweep (sweepId : String) (note : Option String) (networkFee : Option NetworkFee)
      (nowIso : String) : IsStep (discard (confirmSweep sweepId note networkFee nowIso))
  | failSweep (sweepId reason nowIso : String) : IsStep (discard (failSweep sweepId reason nowIso))

/-! ## the laws -/

/-- the status changes that are allowed -/
inductive Edge : SweepStatus → SweepStatus → Prop
  | queue : Edge .planned .queued
  | broadcast : Edge .planned .broadcasted
  | broadcastQueued : Edge .queued .broadcasted
  | confirm : Edge .planned .confirmed
  | confirmBroadcasted : Edge .broadcasted .confirmed
  | fail : Edge .planned .failed
  | failQueued : Edge .queued .failed
  | failBroadcasted : Edge .broadcasted .failed

/-- At most one fee journal and one receipt of its amount.  A journal is inserted before its
postings, which are still to come when there are none. -/
structure FeesBooked (s : Db) (sweepId : String) : Prop where
  single : (feeJournals pg s sweepId).length ≤ 1
  receipt : (feeReceipts pg s sweepId).length ≤ 1
  amount : ∀ journal ∈ feeJournals pg s sweepId, s.legsOf journal.journalId = [] ∨
    ∃ receipt ∈ feeReceipts pg s sweepId, s.legsOf journal.journalId =
      mapAccounts LedgerAccount.code (move .sweepNetworkFee .sweepSourceTrx receipt.feeSun)

/-- An update finds a status that its step starts from, or (but for a confirmation) the status it
sets; an attempt finds the count it has read. -/
def Unraced (_ : Nat) {β : Type} (call : Statement β) (w : World) : Prop :=
  match call with
  | .updateSweep sweepId set => ∀ row ∈ w.db.sweepRecords, uuid pg sweepId = .ok row.sweepId →
      (∀ status ∈ set.status, row.status ∈ sources status ∨ row.status = status ∧ status ≠ .confirmed) ∧
      ∀ count ∈ set.attemptCount, count = row.attemptCount + 1
  | _ => True

/-- tables a run may start from: fees were booked for confirmed sweeps only -/
structure DbSound (s : Db) : Prop where
  distinct : (s.sweepRecords.map (·.sweepId)).Nodup
  journals : s.JournalsSound
  unpaid : ∀ sweepId, (∀ row ∈ s.sweepRecords, row.sweepId = sweepId → row.status ≠ .confirmed) →
    feeJournals pg s sweepId = [] ∧ feeReceipts pg s sweepId = []
  fees : ∀ sweepId, FeesBooked pg s sweepId

/-- the world a run starts in: the counts are taken as they stand -/
def World.initial (s : Db) : World where
  db := s
  trace := []
  returned sweepId :=
    match s.sweepRecords.find? fun row => row.sweepId = sweepId with
    | some row => row.attemptCount
    | none => 0

end

/-! ## what a step has done so far -/

/-- how far a confirmation has come -/
inductive Phase where
  | idle
  | confirmed (sweepId : String)
  | receipted (sweepId : String) (fee : NetworkFee)
  | journaled (sweepId : String) (fee : NetworkFee) (journalId : String)

/-- the phase after an update -/
def Phase.updated (sweepId : String) (set : Assignments) : Phase :=
  if set.status = some .confirmed then .confirmed sweepId else .idle

/-- Only what has confirmed a sweep itself books its fee: the receipt, the journal and the postings,
once and in this order. -/
def Obeys {α : Type} : Async α → Phase → Prop
  | .returns _, _ => True
  | .throws _, _ => True
  | .calls (.selectSweep _) next, phase => ∀ r, Obeys (next r) phase
  | .calls (.updateSweep sweepId set) next, _ =>
    (∀ row, Obeys (next (.ok row)) (Phase.updated sweepId set)) ∧ ∀ e, Obeys (next (.error e)) .idle
  | .calls (.insertFeeReceipt sweepId fee _) next, phase =>
    phase = .confirmed sweepId ∧ Obeys (next (.ok ())) (.receipted sweepId fee) ∧
      ∀ e, Obeys (next (.error e)) .idle
  | .calls (.insertJournal input) next, phase =>
    (∃ sweepId txHash fee nowIso, phase = .receipted sweepId fee ∧
      input = sweepFeeJournal sweepId txHash fee nowIso ∧
      ∀ journalId, Obeys (next (.ok journalId)) (.journaled sweepId fee journalId)) ∧
    ∀ e, Obeys (next (.error e)) .idle
  | .calls (.ensureLedgerAccount ..) next, phase => ∀ r, Obeys (next r) phase
  | .calls (.insertPostings journalId _ postings) next, phase =>
    (∃ sweepId fee, phase = .journaled sweepId fee journalId ∧ postings = writeLegs (sweepFeeLegs fee)) ∧
    ∀ r, Obeys (next r) .idle

section
variable {α β : Type} {phase : Phase}

end

/-! ## what statements do -/

section
variable {pg : PgServer} {s : Db}

theorem integer_ok {bits : Nat} {n m : ℤ} (h : integer bits (.finite n) = .ok m) : m = n := by
  unfold integer at h
  rcases ite_eq_iff.mp h with ⟨-, h⟩ | ⟨-, h⟩
  · rcases ite_eq_iff.mp h with ⟨-, h⟩ | ⟨-, h⟩
    · rw [← Except.ok.inj h, Rat.num_intCast]
    · cases h
  · cases h

theorem nullable_getD {α β : Type} {check : α → Except LedgerError β} {o : Option α} {r : Option β}
    {f : α → β} (h : nullable check o = .ok r) (hcheck : ∀ a b, check a = .ok b → b = f a) (d : β) :
    r.getD d = (o.map f).getD d := by
  cases o with
  | none =>
    obtain rfl := Except.ok.inj h
    rfl
  | some a =>
    obtain ⟨b, hb, h⟩ := Except.bind_ok h
    obtain rfl := Except.ok.inj h
    exact hcheck a b hb

theorem apply_ok {set : Assignments} {before after : SweepRecordRow}
    (h : set.apply pg before = .ok after) : after.sweepId = before.sweepId ∧
      after.status = set.status.getD before.status ∧
      after.attemptCount = set.attemptCount.getD before.attemptCount := by
  obtain ⟨_, -, h⟩ := Except.bind_ok h
  obtain ⟨_, -, h⟩ := Except.bind_ok h
  obtain ⟨count, hcount, h⟩ := Except.bind_ok h
  obtain ⟨_, -, h⟩ := Except.bind_ok h
  obtain ⟨_, -, h⟩ := Except.bind_ok h
  obtain ⟨_, -, h⟩ := Except.bind_ok h
  obtain ⟨_, -, h⟩ := Except.bind_ok h
  obtain rfl := Except.ok.inj h
  refine ⟨rfl, rfl, ?_⟩
  have hgetD := nullable_getD (f := id) hcount (fun n m hm => integer_ok hm) before.attemptCount
  rw [Option.map_id_fun] at hgetD
  exact hgetD

theorem persistNetworkFeeReceipt_cases (pg : PgServer) (referenceType : FeeReferenceType)
    (referenceId : String) (fee : NetworkFee) (nowIso : String) (s : Db) :
    (∃ e n, persistNetworkFeeReceipt pg referenceType referenceId fee nowIso s =
      (.error e, { s with uuidsDrawn := n })) ∨
    ∃ row n, row.referenceType = referenceType ∧ row.referenceId = cut 64 referenceId ∧
      row.feeSun = fee.feeSun ∧
      persistNetworkFeeReceipt pg referenceType referenceId fee nowIso s = (.ok (),
        if ∃ other ∈ s.networkFeeReceipts,
          other.referenceType = row.referenceType ∧ other.referenceId = row.referenceId then
          { s with uuidsDrawn := n }
        else { s with networkFeeReceipts := s.networkFeeReceipts ++ [row], uuidsDrawn := n }) := by
  have hid : randomUUID pg s = (.ok (pg.uuid s.uuidsDrawn), { s with uuidsDrawn := s.uuidsDrawn + 1 }) :=
    rfl
  unfold persistNetworkFeeReceipt column
  rw [Method.bind_ok _ hid, Method.ofExcept_bind]
  cases hrow : feeReceiptRow pg (pg.uuid s.uuidsDrawn) referenceType referenceId fee nowIso with
  | error e => exact Or.inl ⟨e, _, rfl⟩
  | ok row =>
    obtain ⟨_, -, hrow⟩ := Except.bind_ok hrow
    obtain ⟨_, href, hrow⟩ := Except.bind_ok hrow
    obtain ⟨_, -, hrow⟩ := Except.bind_ok hrow
    obtain ⟨feeSun, hfee, hrow⟩ := Except.bind_ok hrow
    obtain ⟨_, -, hrow⟩ := Except.bind_ok hrow
    obtain ⟨_, -, hrow⟩ := Except.bind_ok hrow
    obtain ⟨_, -, hrow⟩ := Except.bind_ok hrow
    obtain rfl := Except.ok.inj hrow
    have hsun : feeSun = fee.feeSun := by
      unfold wholeNumeric at hfee
      split at hfee
      · exact (Except.ok.inj hfee).symm
      · cases hfee
    exact Or.inr ⟨_, s.uuidsDrawn + 1, rfl, varchar_ok href, hsun, rfl⟩

end

/-! ## fees that stay -/

section
variable {pg : PgServer} {s s' : Db} {sweepId : String}

theorem SameFees.of_eq (hj : s'.ledgerJournals = s.ledgerJournals)
    (hp : s'.ledgerPostings = s.ledgerPostings) (hr : s'.networkFeeReceipts = s.networkFeeReceipts) :
    SameFees pg s s' sweepId where
  journals := by rw [feeJournals, feeJournals, hj]
  receipts := by rw [feeReceipts, feeReceipts, hr]
  legs journal _ := by rw [Db.legsOf, Db.legsOf, hp]

theorem FeesBooked.same (hb : FeesBooked pg s sweepId) (h : SameFees pg s s' sweepId) :
    FeesBooked pg s' sweepId where
  single := by
    rw [h.journals]
    exact hb.single
  receipt := by
    rw [h.receipts]
    exact hb.receipt
  amount journal hmem := by
    rw [h.journals] at hmem
    rw [h.receipts, h.legs journal hmem]
    exact hb.amount journal hmem

theorem mem_feeJournals {row : LedgerJournalRow} : row ∈ feeJournals pg s sweepId ↔
    row ∈ s.ledgerJournals ∧ row.referenceType = "sweep" ∧ uuid pg row.referenceId = .ok sweepId := by
  rw [feeJournals, List.mem_filter, decide_eq_true_eq]

theorem mem_feeReceipts {row : NetworkFeeReceiptRow} : row ∈ feeReceipts pg s sweepId ↔
    row ∈ s.networkFeeReceipts ∧ row.referenceType = .sweep ∧ uuid pg row.referenceId = .ok sweepId := by
  rw [feeReceipts, List.mem_filter, decide_eq_true_eq]

end

/-! ## the invariant -/

/-- the execution has moved the sweep to being confirmed -/
def ConfirmedBy (i : Nat) (sweepId : String) (trace : List Event) : Prop :=
  ∃ before after, .updated i before after ∈ trace ∧ before.status ≠ .confirmed ∧
    after.status = .confirmed ∧ after.sweepId = sweepId

theorem ConfirmedBy.mono {i : Nat} {sweepId : String} {trace trace' : List Event}
    (h : ConfirmedBy i sweepId trace) (hsub : trace ⊆ trace') : ConfirmedBy i sweepId trace' := by
  obtain ⟨before, after, hmem, hrest⟩ := h
  exact ⟨before, after, hsub hmem, hrest⟩

section
variable (pg : PgServer)

structure Invariant (w : World) : Prop where
  db : DbSound pg w.db
  edges : ∀ i before after, .updated i before after ∈ w.trace →
    after.status = before.status ∨ Edge before.status after.status
  attempts : ∀ row ∈ w.db.sweepRecords, row.attemptCount = w.returned row.sweepId
  unknown : ∀ sweepId, sweepId ∉ w.db.sweepRecords.map (·.sweepId) → w.returned sweepId = 0
  confirmed : ∀ i sweepId, ConfirmedBy i sweepId w.trace →
    ∃ row ∈ w.db.sweepRecords, row.sweepId = sweepId ∧ row.status = .confirmed
  alone : ∀ i j sweepId, ConfirmedBy i sweepId w.trace → ConfirmedBy j sweepId w.trace → i = j

/-- what is in the tables when the execution is in the phase -/
def Holds (w : World) (i : Nat) : Phase → Prop
  | .idle => True
  | .confirmed sweepId => ∃ id, uuid pg sweepId = .ok id ∧ ConfirmedBy i id w.trace ∧
      feeReceipts pg w.db id = [] ∧ feeJournals pg w.db id = []
  | .receipted sweepId fee => ∃ id receipt, uuid pg sweepId = .ok id ∧ ConfirmedBy i id w.trace ∧
      feeReceipts pg w.db id = [receipt] ∧ receipt.feeSun = fee.feeSun ∧ feeJournals pg w.db id = []
  | .journaled sweepId fee journalId => ∃ id receipt row, uuid pg sweepId = .ok id ∧
      ConfirmedBy i id w.trace ∧ feeReceipts pg w.db id = [receipt] ∧ receipt.feeSun = fee.feeSun ∧
      feeJournals pg w.db id = [row] ∧ uuid pg journalId = .ok row.journalId ∧
      w.db.legsOf row.journalId = []

end

section
variable {pg : PgServer} {w w' : World} {i : Nat}

/-- the tables of a phase, when the fees of the execution's sweeps stay -/
theorem Holds.frame {phase : Phase} (h : Holds pg w i phase) (hsub : w.trace ⊆ w'.trace)
    (hsame : ∀ id, ConfirmedBy i id w.trace → SameFees pg w.db w'.db id) : Holds pg w' i phase := by
  cases phase with
  | idle => trivial
  | confirmed sweepId =>
    obtain ⟨id, hid, hby, hreceipts, hjournals⟩ := h
    have hfees := hsame id hby
    exact ⟨id, hid, hby.mono hsub, by rw [hfees.receipts, hreceipts], by rw [hfees.journals, hjournals]⟩
  | receipted sweepId fee =>
    obtain ⟨id, receipt, hid, hby, hreceipts, hfee, hjournals⟩ := h
    have hfees := hsame id hby
    exact ⟨id, receipt, hid, hby.mono hsub, by rw [hfees.receipts, hreceipts], hfee,
      by rw [hfees.journals, hjournals]⟩
  | journaled sweepId fee journalId =>
    obtain ⟨id, receipt, row, hid, hby, hreceipts, hfee, hjournals, hjid, hlegs⟩ := h
    have hfees := hsame id hby
    have hmem : row ∈ feeJournals pg w.db id := by rw [hjournals]; exact List.mem_singleton_self _
    exact ⟨id, receipt, row, hid, hby.mono hsub, by rw [hfees.receipts, hreceipts], hfee,
      by rw [hfees.journals, hjournals], hjid, by rw [hfees.legs row hmem, hlegs]⟩

/-- sound tables, when only fees of confirmed sweeps change -/
theorem DbSound.change {s s' : Db} (hs : DbSound pg s) (hrecords : s'.sweepRecords = s.sweepRecords)
    (hjournals : s'.JournalsSound)
    (hfees : ∀ id, SameFees pg s s' id ∨
      (∃ row ∈ s.sweepRecords, row.sweepId = id ∧ row.status = .confirmed) ∧ FeesBooked pg s' id) :
    DbSound pg s' where
  distinct := by
    rw [hrecords]
    exact hs.distinct
  journals := hjournals
  unpaid id hnot := by
    rw [hrecords] at hnot
    rcases hfees id with hsame | ⟨⟨row, hrow, hid, hst⟩, -⟩
    · rw [hsame.journals, hsame.receipts]
      exact hs.unpaid id hnot
    · exact absurd hst (hnot row hrow hid)
  fees id := by
    rcases hfees id with hsame | ⟨-, hbooked⟩
    · exact (hs.fees id).same hsame
    · exact hbooked

/-- the invariant, when only the tables of fees change -/
theorem Invariant.change {db : Db} (hw : Invariant pg w)
    (hrecords : db.sweepRecords = w.db.sweepRecords) (hdb : DbSound pg db) :
    Invariant pg { w with db := db } where
  db := hdb
  edges := hw.edges
  attempts := by
    show ∀ row ∈ db.sweepRecords, _
    rw [hrecords]
    exact hw.attempts
  unknown := by
    show ∀ id, id ∉ db.sweepRecords.map _ → _
    rw [hrecords]
    exact hw.unknown
  confirmed := by
    show ∀ i id, _ → ∃ row ∈ db.sweepRecords, _
    rw [hrecords]
    exact hw.confirmed
  alone := hw.alone

end

/-! ## one statement -/

/-- what a statement of the execution keeps, when the execution goes on with `p` -/
structure Preserves (pg : PgServer) (w w' : World) (i : Nat) (p : Async Unit) : Prop where
  next : ∃ phase, Obeys p phase ∧ Holds pg w' i phase
  invariant : Invariant pg w'
  trace : w.trace ⊆ w'.trace
  others : ∀ j ≠ i, ∀ id, ConfirmedBy j id w.trace → SameFees pg w.db w'.db id

section
variable {pg : PgServer} {w : World} {i : Nat} {p : Async Unit} {phase : Phase}

theorem Preserves.refl (hw : Invariant pg w) (hnext : Obeys p phase) (hphase : Holds pg w i phase) :
    Preserves pg w w i p where
  next := ⟨phase, hnext, hphase⟩
  invariant := hw
  trace := List.Subset.refl _
  others _ _ _ _ := SameFees.of_eq rfl rfl rfl

/-- the statement has written none of the tables of sweeps and fees -/
theorem Preserves.quiet {db : Db} (hw : Invariant pg w) (hnext : Obeys p phase)
    (hphase : Holds pg w i phase) (hs : db.sweepRecords = w.db.sweepRecords)
    (hj : db.ledgerJournals = w.db.ledgerJournals) (hp : db.ledgerPostings = w.db.ledgerPostings)
    (hr : db.networkFeeReceipts = w.db.networkFeeReceipts) :
    Preserves pg w { w with db := db } i p := by
  have hsame : ∀ id, SameFees pg w.db db id := fun id => SameFees.of_eq hj hp hr
  have hsound : db.JournalsSound := (Posted.of_eq hj hp).sound hw.db.journals
  refine ⟨⟨phase, hnext, ?_⟩, ?_, List.Subset.refl _, fun _ _ id _ => hsame id⟩
  · exact hphase.frame (List.Subset.refl _) fun id _ => hsame id
  · exact hw.change hs (hw.db.change hs hsound fun id => Or.inl (hsame id))

theorem sources_edge {source target : SweepStatus} (h : source ∈ sources target) : Edge source target := by
  cases target <;> simp only [sources, List.mem_cons, List.not_mem_nil, or_false] at h
  · obtain rfl := h
    exact .queue
  · rcases h with rfl | rfl
    · exact .broadcast
    · exact .broadcastQueued
  · rcases h with rfl | rfl
    · exact .confirm
    · exact .confirmBroadcasted
  · rcases h with rfl | rfl | rfl
    · exact .fail
    · exact .failQueued
    · exact .failBroadcasted

theorem Edge.source {source target : SweepStatus} (h : Edge source target) :
    source ≠ .confirmed ∧ source ≠ .failed := by
  cases h <;> exact ⟨nofun, nofun⟩

end

/-! ## an update -/

section
variable {rows : List SweepRecordRow} {before after : SweepRecordRow}

/-- the rows after an update -/
def replaced (before after : SweepRecordRow) (rows : List SweepRecordRow) : List SweepRecordRow :=
  rows.map fun row => if row.sweepId = before.sweepId then after else row

theorem mem_replaced (hbefore : before ∈ rows) {row : SweepRecordRow} :
    row ∈ replaced before after rows ↔ row = after ∨ row ∈ rows ∧ row.sweepId ≠ before.sweepId := by
  rw [replaced, List.mem_map]
  constructor
  · rintro ⟨row', hrow', rfl⟩
    split
    · exact Or.inl rfl
    · next hne => exact Or.inr ⟨hrow', hne⟩
  · rintro (rfl | ⟨hrow, hne⟩)
    · exact ⟨before, hbefore, if_pos rfl⟩
    · exact ⟨row, hrow, if_neg hne⟩

theorem ids_replaced (hsame : after.sweepId = before.sweepId) :
    (replaced before after rows).map (·.sweepId) = rows.map (·.sweepId) := by
  rw [replaced, List.map_map]
  apply List.map_congr_left
  intro row hrow
  show (if row.sweepId = before.sweepId then after else row).sweepId = row.sweepId
  split
  · next heq => rw [hsame, heq]
  · rfl

theorem eq_before (hdistinct : (rows.map (·.sweepId)).Nodup) (hbefore : before ∈ rows)
    {row : SweepRecordRow} (hrow : row ∈ rows) (hid : row.sweepId = before.sweepId) : row = before :=
  List.inj_on_of_nodup_map hdistinct hrow hbefore hid

/-- a confirmed sweep is still confirmed -/
theorem confirmed_replaced (hdistinct : (rows.map (·.sweepId)).Nodup) (hbefore : before ∈ rows)
    (hsame : after.sweepId = before.sweepId)
    (hstays : before.status = .confirmed → after.status = .confirmed) {id : String}
    (h : ∃ row ∈ rows, row.sweepId = id ∧ row.status = .confirmed) :
    ∃ row ∈ replaced before after rows, row.sweepId = id ∧ row.status = .confirmed := by
  obtain ⟨row, hrow, hid, hconf⟩ := h
  by_cases hb : row.sweepId = before.sweepId
  · rw [eq_before hdistinct hbefore hrow hb] at hconf hid
    exact ⟨after, (mem_replaced hbefore).mpr (Or.inl rfl), hsame.trans hid, hstays hconf⟩
  · exact ⟨row, (mem_replaced hbefore).mpr (Or.inr ⟨hrow, hb⟩), hid, hconf⟩

end

section
variable {pg : PgServer} {w : World} {i : Nat} {sweepId : String} {set : Assignments}
  {before after : SweepRecordRow}

/-- the tables after an update -/
def updatedDb (w : World) (before after : SweepRecordRow) : Db :=
  { w.db with sweepRecords := replaced before after w.db.sweepRecords }

/-- the world after an update -/
def updatedWorld (w : World) (i : Nat) (sweepId : String) (set : Assignments)
    (before after : SweepRecordRow) : World :=
  w.after i (.updateSweep sweepId set) (.ok after) (updatedDb w before after)

/-- an update of the row that the identifier names, which is not raced -/
structure Updates (pg : PgServer) (w : World) (i : Nat) (sweepId : String) (set : Assignments)
    (before after : SweepRecordRow) : Prop where
  mem : before ∈ w.db.sweepRecords
  id : uuid pg sweepId = .ok before.sweepId
  applied : set.apply pg before = .ok after
  unraced : Unraced pg i (.updateSweep sweepId set) w

theorem Updates.edge (h : Updates pg w i sweepId set before after) :
    after.status = before.status ∨ Edge before.status after.status := by
  obtain ⟨-, hstatus, -⟩ := apply_ok h.applied
  obtain ⟨hsources, -⟩ := h.unraced before h.mem h.id
  cases hset : set.status with
  | none =>
    rw [hset] at hstatus
    exact Or.inl hstatus
  | some status =>
    rw [hset] at hstatus
    rcases hsources status hset with hsource | ⟨heq, -⟩
    · rw [hstatus]
      exact Or.inr (sources_edge hsource)
    · exact Or.inl (hstatus.trans heq.symm)

theorem Updates.stays (h : Updates pg w i sweepId set before after)
    (hconf : before.status = .confirmed) : after.status = .confirmed := by
  rcases h.edge with heq | hedge
  · rw [heq, hconf]
  · exact absurd hconf hedge.source.1

/-- a confirmation finds the sweep not confirmed -/
theorem Updates.confirms (h : Updates pg w i sweepId set before after)
    (hset : set.status = some .confirmed) : before.status ≠ .confirmed ∧ after.status = .confirmed := by
  obtain ⟨-, hstatus, -⟩ := apply_ok h.applied
  obtain ⟨hsources, -⟩ := h.unraced before h.mem h.id
  refine ⟨?_, by rw [hstatus, hset]; rfl⟩
  rcases hsources .confirmed hset with hsource | ⟨-, hne⟩
  · exact (sources_edge hsource).source.1
  · exact absurd rfl hne

theorem Updates.mem_trace (h : Updates pg w i sweepId set before after) (hw : Invariant pg w)
    {e : Event} : e ∈ (updatedWorld w i sweepId set before after).trace ↔
      e = .updated i before after ∨ e ∈ w.trace := by
  obtain ⟨hsame, -, -⟩ := apply_ok h.applied
  show e ∈ (w.db.sweepRecords.filter fun row => row.sweepId = after.sweepId).map
    (fun before => Event.updated i before after) ++ w.trace ↔ _
  rw [List.mem_append, List.mem_map]
  constructor
  · rintro (⟨row, hrow, rfl⟩ | hold)
    · obtain ⟨hrow, hrowId⟩ := List.mem_filter.mp hrow
      rw [decide_eq_true_eq, hsame] at hrowId
      rw [eq_before hw.db.distinct h.mem hrow hrowId]
      exact Or.inl rfl
    · exact Or.inr hold
  · rintro (rfl | hold)
    · refine Or.inl ⟨before, List.mem_filter.mpr ⟨h.mem, ?_⟩, rfl⟩
      rw [decide_eq_true_eq]
      exact hsame.symm
    · exact Or.inr hold

/-- who has confirmed a sweep after the update -/
theorem Updates.confirmedBy (h : Updates pg w i sweepId set before after) (hw : Invariant pg w)
    {j : Nat} {id : String} (hby : ConfirmedBy j id (updatedWorld w i sweepId set before after).trace) :
    (j = i ∧ id = before.sweepId ∧ before.status ≠ .confirmed ∧ after.status = .confirmed) ∨
      ConfirmedBy j id w.trace := by
  obtain ⟨hsame, -, -⟩ := apply_ok h.applied
  obtain ⟨b, a, hmem, hb, ha, haid⟩ := hby
  rcases (h.mem_trace hw).mp hmem with heq | hold
  · obtain ⟨rfl, rfl, rfl⟩ := Event.updated.inj heq
    exact Or.inl ⟨rfl, haid.symm.trans hsame, hb, ha⟩
  · exact Or.inr ⟨b, a, hold, hb, ha, haid⟩

theorem sameFees_updated (id : String) : SameFees pg w.db (updatedDb w before after) id :=
  SameFees.of_eq rfl rfl rfl

theorem Updates.dbSound (h : Updates pg w i sweepId set before after) (hw : Invariant pg w) :
    DbSound pg (updatedDb w before after) := by
  obtain ⟨hsame, -, -⟩ := apply_ok h.applied
  refine ⟨?_, ?_, fun id hnot => ?_, fun id => (hw.db.fees id).same (sameFees_updated id)⟩
  · show ((replaced before after w.db.sweepRecords).map (·.sweepId)).Nodup
    rw [ids_replaced hsame]
    exact hw.db.distinct
  · exact (@Posted.of_eq w.db (updatedDb w before after) rfl rfl).sound hw.db.journals
  · have hunpaid := hw.db.unpaid id fun row hrow hid hconf => by
      obtain ⟨row', hrow', hid', hconf'⟩ :=
        confirmed_replaced hw.db.distinct h.mem hsame h.stays ⟨row, hrow, hid, hconf⟩
      exact hnot row' hrow' hid' hconf'
    have hfees : SameFees pg w.db (updatedDb w before after) id := sameFees_updated id
    rw [hfees.journals, hfees.receipts]
    exact hunpaid

/-- the count of a row, and how many attempts have returned -/
theorem Updates.attempts (h : Updates pg w i sweepId set before after) (hw : Invariant pg w)
    {row : SweepRecordRow} (hrow : row ∈ replaced before after w.db.sweepRecords) :
    row.attemptCount = (updatedWorld w i sweepId set before after).returned row.sweepId := by
  obtain ⟨hsame, -, hcount⟩ := apply_ok h.applied
  obtain ⟨-, hread⟩ := h.unraced before h.mem h.id
  show row.attemptCount = (if set.attemptCount.isSome then Function.update w.returned after.sweepId
    (w.returned after.sweepId + 1) else w.returned) row.sweepId
  rcases (mem_replaced h.mem).mp hrow with rfl | ⟨hold, hne⟩
  · have hcounted := hw.attempts before h.mem
    cases hset : set.attemptCount with
    | none =>
      rw [hcount, hset, hsame]
      exact hcounted
    | some count =>
      have hisSome : (some count).isSome = true := rfl
      rw [hcount, hset, if_pos hisSome, Function.update_self, hsame, ← hcounted]
      exact hread count hset
  · have hother : row.sweepId ≠ after.sweepId := by
      rw [hsame]
      exact hne
    split
    · rw [Function.update_of_ne hother]
      exact hw.attempts row hold
    · exact hw.attempts row hold

theorem Updates.unknown (h : Updates pg w i sweepId set before after) (hw : Invariant pg w)
    {id : String} (hnot : id ∉ w.db.sweepRecords.map (·.sweepId)) :
    (updatedWorld w i sweepId set before after).returned id = 0 := by
  obtain ⟨hsame, -, -⟩ := apply_ok h.applied
  have hother : id ≠ after.sweepId := by
    rintro rfl
    rw [hsame] at hnot
    exact hnot (List.mem_map_of_mem h.mem)
  show (if set.attemptCount.isSome then Function.update w.returned after.sweepId
    (w.returned after.sweepId + 1) else w.returned) id = 0
  split
  · rw [Function.update_of_ne hother]
    exact hw.unknown id hnot
  · exact hw.unknown id hnot

theorem Updates.alone (h : Updates pg w i sweepId set before after) (hw : Invariant pg w)
    {j k : Nat} {id : String}
    (hj : ConfirmedBy j id (updatedWorld w i sweepId set before after).trace)
    (hk : ConfirmedBy k id (updatedWorld w i sweepId set before after).trace) : j = k := by
  -- a sweep that was confirmed before is not confirmed again
  have hnever : ∀ j, before.status ≠ .confirmed → ¬ ConfirmedBy j before.sweepId w.trace := by
    intro j hne hby
    obtain ⟨row, hrow, hrowId, hconf⟩ := hw.confirmed j _ hby
    rw [eq_before hw.db.distinct h.mem hrow hrowId] at hconf
    exact hne hconf
  rcases h.confirmedBy hw hj with ⟨hji, hid, hne, -⟩ | hj'
  · rcases h.confirmedBy hw hk with ⟨hki, -⟩ | hk'
    · rw [hji, hki]
    · rw [hid] at hk'
      exact absurd hk' (hnever k hne)
  · rcases h.confirmedBy hw hk with ⟨-, hid, hne, -⟩ | hk'
    · rw [hid] at hj'
      exact absurd hj' (hnever j hne)
    · exact hw.alone j k id hj' hk'

theorem Updates.invariant (h : Updates pg w i sweepId set before after) (hw : Invariant pg w) :
    Invariant pg (updatedWorld w i sweepId set before after) where
  db := h.dbSound hw
  edges j b a hmem := by
    rcases (h.mem_trace hw).mp hmem with heq | hold
    · obtain ⟨rfl, rfl, rfl⟩ := Event.updated.inj heq
      exact h.edge
    · exact hw.edges j b a hold
  attempts row hrow := h.attempts hw hrow
  unknown id hnot := by
    obtain ⟨hsame, -, -⟩ := apply_ok h.applied
    have hnot' : id ∉ (replaced before after w.db.sweepRecords).map (·.sweepId) := hnot
    rw [ids_replaced hsame] at hnot'
    exact h.unknown hw hnot'
  confirmed j id hby := by
    obtain ⟨hsame, -, -⟩ := apply_ok h.applied
    rcases h.confirmedBy hw hby with ⟨-, rfl, -, hafter⟩ | hold
    · exact ⟨after, (mem_replaced h.mem).mpr (Or.inl rfl), hsame, hafter⟩
    · exact confirmed_replaced hw.db.distinct h.mem hsame h.stays (hw.confirmed j id hold)
  alone j k id hj hk := h.alone hw hj hk

theorem Updates.holds (h : Updates pg w i sweepId set before after) (hw : Invariant pg w) :
    Holds pg (updatedWorld w i sweepId set before after) i (Phase.updated sweepId set) := by
  obtain ⟨hsame, -, -⟩ := apply_ok h.applied
  rw [Phase.updated]
  split
  · next hset =>
    obtain ⟨hnew, hafter⟩ := h.confirms hset
    have hunpaid := hw.db.unpaid before.sweepId fun row hrow hid => by
      rw [eq_before hw.db.distinct h.mem hrow hid]
      exact hnew
    have hfees : SameFees pg w.db (updatedDb w before after) before.sweepId := sameFees_updated _
    exact ⟨before.sweepId, h.id,
      ⟨before, after, (h.mem_trace hw).mpr (Or.inl rfl), hnew, hafter, hsame⟩,
      hfees.receipts.trans hunpaid.2, hfees.journals.trans hunpaid.1⟩
  · trivial

end

/-! ## the fee -/

section
variable {pg : PgServer} {w : World} {i : Nat} {p : Async Unit}

/-- other executions have confirmed other sweeps -/
theorem Invariant.other (hw : Invariant pg w) {j : Nat} {id id' : String}
    (hi : ConfirmedBy i id w.trace) (hj : ConfirmedBy j id' w.trace) (hne : j ≠ i) : id' ≠ id := by
  rintro rfl
  exact hne (hw.alone j i id' hj hi)

/-- The fees of one sweep change, by the execution that has confirmed it. -/
theorem Preserves.fee {db : Db} {id : String} {phase : Phase} (hw : Invariant pg w)
    (hby : ConfirmedBy i id w.trace) (hnext : Obeys p phase) (hphase : Holds pg { w with db := db } i phase)
    (hrecords : db.sweepRecords = w.db.sweepRecords) (hjournals : db.JournalsSound)
    (hbooked : FeesBooked pg db id) (hothers : ∀ id' ≠ id, SameFees pg w.db db id') :
    Preserves pg w { w with db := db } i p where
  next := ⟨phase, hnext, hphase⟩
  invariant := by
    refine hw.change hrecords (hw.db.change hrecords hjournals fun id' => ?_)
    by_cases hid : id' = id
    · subst hid
      exact Or.inr ⟨hw.confirmed i id' hby, hbooked⟩
    · exact Or.inl (hothers id' hid)
  trace := List.Subset.refl _
  others j hne id' hj := hothers id' (hw.other hby hj hne)

/-- identifiers are short, so that references hold them whole -/
def ShortIds (pg : PgServer) : Prop := ∀ s id, pg.uuidLiteral s = some id → s.length ≤ 64

theorem ShortIds.cut (hshort : ShortIds pg) {s id : String} (h : uuid pg s = .ok id) :
    Postgres.cut 64 s = s := by
  refine cut_of_length_le (hshort s id ?_)
  unfold uuid at h
  split at h
  · next u hu =>
    rw [hu, Except.ok.inj h]
  · cases h

/-- the receipt is there -/
theorem Preserves.receipted {db : Db} {row : NetworkFeeReceiptRow} {sweepId id : String} {fee : NetworkFee}
    (hw : Invariant pg w) (hid : uuid pg sweepId = .ok id) (hby : ConfirmedBy i id w.trace)
    (hreceipts : feeReceipts pg w.db id = []) (hjournals : feeJournals pg w.db id = [])
    (htype : row.referenceType = .sweep) (href : uuid pg row.referenceId = .ok id)
    (hsun : row.feeSun = fee.feeSun) (hnext : Obeys p (.receipted sweepId fee))
    (hs : db.sweepRecords = w.db.sweepRecords) (hj : db.ledgerJournals = w.db.ledgerJournals)
    (hp : db.ledgerPostings = w.db.ledgerPostings)
    (hr : db.networkFeeReceipts = w.db.networkFeeReceipts ++ [row]) :
    Preserves pg w { w with db := db } i p := by
  have hnone : feeJournals pg db id = [] := by
    rw [feeJournals, hj]
    exact hjournals
  have hone : feeReceipts pg db id = [row] := by
    rw [feeReceipts, hr, List.filter_append]
    show feeReceipts pg w.db id ++ _ = _
    rw [hreceipts, List.filter_cons_of_pos (by rw [decide_eq_true_eq]; exact ⟨htype, href⟩)]
    rfl
  have hothers : ∀ id' ≠ id, SameFees pg w.db db id' := by
    intro id' hne
    refine ⟨?_, ?_, fun journal _ => ?_⟩
    · rw [feeJournals, feeJournals, hj]
    · rw [feeReceipts, hr, List.filter_append, List.filter_cons_of_neg]
      · exact List.append_nil _
      · rw [decide_eq_true_eq, href]
        rintro ⟨-, heq⟩
        exact hne (Except.ok.inj heq).symm
    · rw [Db.legsOf, Db.legsOf, hp]
  refine Preserves.fee hw hby hnext ⟨id, row, hid, hby, hone, hsun, hnone⟩ hs
    ((Posted.of_eq hj hp).sound hw.db.journals) ⟨?_, ?_, ?_⟩ hothers
  · rw [hnone]
    exact Nat.zero_le _
  · rw [hone]
    exact Nat.le_refl _
  · rw [hnone]
    exact fun _ hmem => absurd hmem List.not_mem_nil

theorem Preserves.receipt (hshort : ShortIds pg) {sweepId nowIso : String} {fee : NetworkFee}
    (hw : Invariant pg w) (hphase : Holds pg w i (.confirmed sweepId))
    {next : Except LedgerError Unit → Async Unit} (hok : Obeys (next (.ok ())) (.receipted sweepId fee))
    (herror : ∀ e, Obeys (next (.error e)) .idle) :
    Preserves pg w { w with db := (persistNetworkFeeReceipt pg .sweep sweepId fee nowIso w.db).2 } i
      (next (persistNetworkFeeReceipt pg .sweep sweepId fee nowIso w.db).1) := by
  obtain ⟨id, hid, hby, hreceipts, hjournals⟩ := hphase
  rcases persistNetworkFeeReceipt_cases pg .sweep sweepId fee nowIso w.db with
    ⟨e, n, heq⟩ | ⟨row, n, htype, href, hsun, heq⟩
  · rw [heq]
    exact Preserves.quiet hw (herror e) trivial rfl rfl rfl rfl
  · have hrefId : uuid pg row.referenceId = .ok id := by rw [href, hshort.cut hid, hid]
    -- there is no receipt yet, so the row is not dropped
    have hfresh : ¬ ∃ other ∈ w.db.networkFeeReceipts,
        other.referenceType = row.referenceType ∧ other.referenceId = row.referenceId := by
      rintro ⟨other, hother, hotherType, hotherRef⟩
      have hmem : other ∈ feeReceipts pg w.db id :=
        mem_feeReceipts.mpr ⟨hother, hotherType.trans htype, by rw [hotherRef, hrefId]⟩
      rw [hreceipts] at hmem
      cases hmem
    rw [heq, if_neg hfresh]
    exact Preserves.receipted hw hid hby hreceipts hjournals htype hrefId hsun hok rfl rfl rfl rfl

/-- the journal is there, without postings -/
theorem Preserves.journaled {db : Db} {row : LedgerJournalRow} {receipt : NetworkFeeReceiptRow}
    {sweepId id journalId : String} {fee : NetworkFee} (hw : Invariant pg w)
    (hid : uuid pg sweepId = .ok id) (hby : ConfirmedBy i id w.trace)
    (hreceipts : feeReceipts pg w.db id = [receipt]) (hsun : receipt.feeSun = fee.feeSun)
    (hjournals : feeJournals pg w.db id = []) (htype : row.referenceType = "sweep")
    (href : uuid pg row.referenceId = .ok id) (hjid : uuid pg journalId = .ok row.journalId)
    (hfresh : ¬ ∃ other ∈ w.db.ledgerJournals, other.journalId = row.journalId)
    (hnext : Obeys p (.journaled sweepId fee journalId))
    (hs : db.sweepRecords = w.db.sweepRecords) (hj : db.ledgerJournals = w.db.ledgerJournals ++ [row])
    (hp : db.ledgerPostings = w.db.ledgerPostings)
    (hr : db.networkFeeReceipts = w.db.networkFeeReceipts) :
    Preserves pg w { w with db := db } i p := by
  have hposted : Posted w.db db [⟨row.referenceType, row.referenceId, row.currencyCode, []⟩] :=
    @Posted.of_append w.db db row [] hfresh (fun r hr => by cases hr) hj
      (hp.trans (List.append_nil _).symm)
  have hone : feeJournals pg db id = [row] := by
    rw [feeJournals, hj, List.filter_append]
    show feeJournals pg w.db id ++ _ = _
    rw [hjournals, List.filter_cons_of_pos (by rw [decide_eq_true_eq]; exact ⟨htype, href⟩)]
    rfl
  have hreceipt : feeReceipts pg db id = [receipt] := by
    rw [feeReceipts, hr]
    exact hreceipts
  have hothers : ∀ id' ≠ id, SameFees pg w.db db id' := by
    intro id' hne
    refine ⟨?_, ?_, fun journal _ => ?_⟩
    · rw [feeJournals, hj, List.filter_append, List.filter_cons_of_neg]
      · exact List.append_nil _
      · rw [decide_eq_true_eq, href]
        rintro ⟨-, heq⟩
        exact hne (Except.ok.inj heq).symm
    · rw [feeReceipts, feeReceipts, hr]
    · rw [Db.legsOf, Db.legsOf, hp]
  -- postings belong to journals, so the new one has none
  have hlegs : db.legsOf row.journalId = [] := by
    rw [Db.legsOf, hp, List.map_eq_nil_iff, List.filter_eq_nil_iff]
    intro posting hposting
    rw [decide_eq_true_eq]
    intro hown
    obtain ⟨other, hother, hotherId⟩ := List.mem_map.mp (hw.db.journals.owned posting hposting)
    exact hfresh ⟨other, hother, hotherId.trans hown⟩
  refine Preserves.fee hw hby hnext ⟨id, receipt, row, hid, hby, hreceipt, hsun, hone, hjid, hlegs⟩ hs
    (hposted.sound hw.db.journals) ⟨?_, ?_, ?_⟩ hothers
  · rw [hone]
    exact Nat.le_refl _
  · rw [hreceipt]
    exact Nat.le_refl _
  · rw [hone]
    intro journal hmem
    rw [List.mem_singleton.mp hmem]
    exact Or.inl hlegs

theorem Preserves.journal (hshort : ShortIds pg) {sweepId txHash nowIso : String} {fee : NetworkFee}
    (hw : Invariant pg w) (hphase : Holds pg w i (.receipted sweepId fee))
    {next : Except LedgerError String → Async Unit}
    (hok : ∀ journalId, Obeys (next (.ok journalId)) (.journaled sweepId fee journalId))
    (herror : ∀ e, Obeys (next (.error e)) .idle) :
    Preserves pg w { w with
        db := (insertDrawnJournal pg (sweepFeeJournal sweepId txHash fee nowIso) w.db).2 } i
      (next (insertDrawnJournal pg (sweepFeeJournal sweepId txHash fee nowIso) w.db).1) := by
  obtain ⟨id, receipt, hid, hby, hreceipts, hsun, hjournals⟩ := hphase
  have hdrawn : randomUUID pg w.db =
      (.ok (pg.uuid w.db.uuidsDrawn), { w.db with uuidsDrawn := w.db.uuidsDrawn + 1 }) := rfl
  rw [insertDrawnJournal, Method.bind_ok _ hdrawn]
  rcases insertJournal_cases pg (pg.uuid w.db.uuidsDrawn) (sweepFeeJournal sweepId txHash fee nowIso)
    { w.db with uuidsDrawn := w.db.uuidsDrawn + 1 } with ⟨e, heq⟩ | ⟨row, hrow, hfresh, heq⟩
  · rw [Method.bind_error _ heq]
    exact Preserves.quiet hw (herror e) trivial rfl rfl rfl rfl
  · rw [Method.bind_ok _ heq, Method.pure_apply]
    obtain ⟨hjid, htype, href, -⟩ := journalRow_ok hrow
    have hrefId : uuid pg row.referenceId = .ok id := by
      rw [href]
      show uuid pg (cut 64 sweepId) = _
      rw [hshort.cut hid, hid]
    have hrefType : row.referenceType = "sweep" := by
      rw [htype]
      show cut 64 "sweep" = "sweep"
      decide
    exact Preserves.journaled hw hid hby hreceipts hsun hjournals hrefType hrefId hjid hfresh (hok _)
      rfl rfl rfl rfl

/-- the postings are there -/
theorem Preserves.posted {db : Db} {rows : List LedgerPostingRow} {row : LedgerJournalRow}
    {receipt : NetworkFeeReceiptRow} {id : String} {fee : NetworkFee} (hw : Invariant pg w)
    (hby : ConfirmedBy i id w.trace) (hreceipts : feeReceipts pg w.db id = [receipt])
    (hsun : receipt.feeSun = fee.feeSun) (hjournals : feeJournals pg w.db id = [row])
    (hlegs : w.db.legsOf row.journalId = []) (howned : ∀ posting ∈ rows, posting.journalId = row.journalId)
    (hmap : rows.map LedgerPostingRow.toPosting = mapAccounts LedgerAccount.code (sweepFeeLegs fee))
    (hnext : Obeys p .idle)
    (hs : db.sweepRecords = w.db.sweepRecords) (hj : db.ledgerJournals = w.db.ledgerJournals)
    (hp : db.ledgerPostings = w.db.ledgerPostings ++ rows)
    (hr : db.networkFeeReceipts = w.db.networkFeeReceipts) :
    Preserves pg w { w with db := db } i p := by
  have hmem : row ∈ feeJournals pg w.db id := by
    rw [hjournals]
    exact List.mem_singleton_self _
  obtain ⟨hrow, -, hrowRef⟩ := mem_feeJournals.mp hmem
  have hlegsOf : ∀ other, db.legsOf other = w.db.legsOf other ++
      (rows.filter fun posting => posting.journalId = other).map LedgerPostingRow.toPosting := by
    intro other
    rw [Db.legsOf, hp, List.filter_append, List.map_append]
    rfl
  have hsound : db.JournalsSound := by
    refine ⟨by rw [hj]; exact hw.db.journals.distinct, fun posting hposting => ?_⟩
    rw [hp] at hposting
    rw [hj]
    rcases List.mem_append.mp hposting with hold | hnew
    · exact hw.db.journals.owned posting hold
    · rw [howned posting hnew]
      exact List.mem_map_of_mem hrow
  have hothers : ∀ id' ≠ id, SameFees pg w.db db id' := by
    intro id' hne
    refine ⟨by rw [feeJournals, feeJournals, hj], by rw [feeReceipts, feeReceipts, hr],
      fun journal hjournal => ?_⟩
    have hother : journal.journalId ≠ row.journalId := by
      intro heq
      obtain ⟨hjournal, -, hjref⟩ := mem_feeJournals.mp hjournal
      obtain rfl := List.inj_on_of_nodup_map hw.db.journals.distinct hjournal hrow heq
      rw [hrowRef] at hjref
      exact hne (Except.ok.inj hjref).symm
    have hnil : (rows.filter fun posting => posting.journalId = journal.journalId) = [] := by
      rw [List.filter_eq_nil_iff]
      intro posting hposting
      rw [decide_eq_true_eq, howned posting hposting]
      exact hother.symm
    rw [hlegsOf, hnil, List.map_nil, List.append_nil]
  have hall : (rows.filter fun posting => posting.journalId = row.journalId) = rows := by
    rw [List.filter_eq_self]
    intro posting hposting
    rw [decide_eq_true_eq]
    exact howned posting hposting
  have hreceipt : feeReceipts pg db id = [receipt] := by
    rw [feeReceipts, hr]
    exact hreceipts
  have hone : feeJournals pg db id = [row] := by
    rw [feeJournals, hj]
    exact hjournals
  refine Preserves.fee hw hby hnext trivial hs hsound ⟨?_, ?_, ?_⟩ hothers
  · rw [hone]
    exact Nat.le_refl _
  · rw [hreceipt]
    exact Nat.le_refl _
  · rw [hone, hreceipt]
    intro journal hjournal
    rw [List.mem_singleton.mp hjournal]
    refine Or.inr ⟨receipt, List.mem_singleton_self _, ?_⟩
    rw [hlegsOf, hlegs, hall, hmap, hsun]
    rfl

theorem Preserves.postings {sweepId journalId nowIso : String} {fee : NetworkFee} (hw : Invariant pg w)
    (hphase : Holds pg w i (.journaled sweepId fee journalId))
    {next : Except LedgerError Unit → Async Unit} (hnext : ∀ r, Obeys (next r) .idle) :
    Preserves pg w { w with
        db := (insertPostings pg journalId nowIso (writeLegs (sweepFeeLegs fee)) w.db).2 } i
      (next (insertPostings pg journalId nowIso (writeLegs (sweepFeeLegs fee)) w.db).1) := by
  obtain ⟨id, receipt, row, hid, hby, hreceipts, hsun, hjournals, hjid, hlegs⟩ := hphase
  rcases insertPostings_cases pg journalId nowIso (sweepFeeLegs fee) w.db with
    ⟨e, n, heq⟩ | ⟨rows, n, hown, hmap, heq⟩
  · rw [heq]
    exact Preserves.quiet hw (hnext _) trivial rfl rfl rfl rfl
  · rw [heq]
    have howned : ∀ posting ∈ rows, posting.journalId = row.journalId := by
      intro posting hposting
      have hsame := hown posting hposting
      rw [hjid] at hsame
      exact (Except.ok.inj hsame).symm
    exact Preserves.posted hw hby hreceipts hsun hjournals hlegs howned hmap (hnext _) rfl rfl rfl rfl

end

/-! ## the run -/

section
variable {pg : PgServer}

/-- after a refused statement -/
theorem Obeys.refused {β : Type} {call : Statement β} {next : Except LedgerError β → Async Unit}
    {phase : Phase} (h : Obeys (.calls call next) phase) (e : LedgerError) :
    Obeys (next (.error e)) phase ∨ Obeys (next (.error e)) .idle := by
  cases call with
  | selectSweep => exact Or.inl (h _)
  | updateSweep => exact Or.inr (h.2 e)
  | insertFeeReceipt => exact Or.inr (h.2.2 e)
  | insertJournal => exact Or.inr (h.2 e)
  | ensureLedgerAccount => exact Or.inl (h _)
  | insertPostings => exact Or.inr (h.2 _)

theorem Elsewhere.invariant {w w' : World} (h : Elsewhere pg w w') (hw : Invariant pg w) :
    Invariant pg w' := by
  obtain ⟨rows, hrecords, hplanned⟩ := h.planned
  have hold : ∀ row ∈ w.db.sweepRecords, row ∈ w'.db.sweepRecords := by
    intro row hrow
    rw [hrecords]
    exact List.mem_append_left _ hrow
  refine ⟨⟨h.distinct, h.journals hw.db.journals, fun id hnot => ?_, fun id => ?_⟩, ?_, fun row hrow => ?_,
    fun id hnot => ?_, fun i id hby => ?_, ?_⟩
  · rw [(h.fees id).journals, (h.fees id).receipts]
    exact hw.db.unpaid id fun row hrow hid => hnot row (hold row hrow) hid
  · exact (hw.db.fees id).same (h.fees id)
  · rw [h.trace]
    exact hw.edges
  · rw [h.returned]
    rw [hrecords] at hrow
    rcases List.mem_append.mp hrow with hrow | hrow
    · exact hw.attempts row hrow
    · rw [(hplanned row hrow).2]
      refine (hw.unknown row.sweepId fun hmem => ?_).symm
      have hdistinct := h.distinct
      rw [hrecords, List.map_append, List.nodup_append] at hdistinct
      exact hdistinct.2.2 _ hmem _ (List.mem_map_of_mem hrow) rfl
  · rw [h.returned]
    refine hw.unknown id fun hmem => hnot ?_
    rw [hrecords, List.map_append]
    exact List.mem_append_left _ hmem
  · rw [h.trace] at hby
    obtain ⟨row, hrow, hrest⟩ := hw.confirmed i id hby
    exact ⟨row, hold row hrow, hrest⟩
  · rw [h.trace]
    exact hw.alone

theorem initial_invariant {s : Db} (hs : DbSound pg s) : Invariant pg (World.initial s) where
  db := hs
  edges _ _ _ hmem := absurd hmem List.not_mem_nil
  attempts row hrow := by
    show row.attemptCount = match s.sweepRecords.find? fun other => other.sweepId = row.sweepId with
      | some row => row.attemptCount
      | none => 0
    cases hfind : s.sweepRecords.find? fun other => other.sweepId = row.sweepId with
    | none =>
      have hnone := List.find?_eq_none.mp hfind row hrow
      exact absurd (decide_eq_true rfl) hnone
    | some other =>
      have hother := List.find?_some hfind
      rw [decide_eq_true_eq] at hother
      rw [List.inj_on_of_nodup_map hs.distinct (List.mem_of_find?_eq_some hfind) hrow hother]
  unknown id hnot := by
    show (match s.sweepRecords.find? fun row => row.sweepId = id with
      | some row => row.attemptCount
      | none => 0) = 0
    cases hfind : s.sweepRecords.find? fun row => row.sweepId = id with
    | none => rfl
    | some other =>
      have hother := List.find?_some hfind
      rw [decide_eq_true_eq] at hother
      rw [← hother] at hnot
      exact absurd (List.mem_map_of_mem (List.mem_of_find?_eq_some hfind)) hnot
  confirmed _ _ hby := by
    obtain ⟨_, _, hmem, -⟩ := hby
    cases hmem
  alone _ _ _ hby := by
    obtain ⟨_, _, hmem, -⟩ := hby
    cases hmem

end

/-! ## two runs -/

section
variable {pg : PgServer} {admits : Nat → ∀ {β : Type}, Statement β → World → Prop}
  {σ₀ σ : System Statement LedgerError World}

/-- a statement is carried out, with the answer `r` -/
theorem turn (h : Reachable IsStep (Handles pg) (Elsewhere pg) admits σ₀ σ) (i : Nat) {β : Type}
    (call : Statement β) (r : Except LedgerError β) {next : Except LedgerError β → Async Unit}
    (running : σ.running i = some (.calls call next)) (admitted : admits i call σ.world)
    (hr : (call.op pg σ.world.db).1 = r) : Reachable IsStep (Handles pg) (Elsewhere pg) admits σ₀
      ⟨σ.world.after i call r (call.op pg σ.world.db).2, Function.update σ.running i (some (next r)),
        σ.started⟩ := by
  subst hr
  exact h.tail (Step.perform running admitted (Handles.done call σ.world))

end

def exampleInput : SweepInput where
  sourceWalletCode := "deposit"
  sourceAddress := "TAlice"
  targetAddress := "THot"
  amount := 5000000
  externalRef := none
  note := none
  nowIso := "2026-01-01T00:00:00.000Z"

end Sweeps
