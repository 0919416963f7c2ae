import CoinManage.Money
import CoinManage.Monitoring.Wallets
import CoinManage.Sweeps.InMemory

/-!
# The planner of the treasury sweeps

`planSweeps` plans a sweep for every system wallet whose snapshot shows enough, unless one of the 200 newest sweep
records is an active sweep of that wallet.

* `planSweeps`          a call, with what the sweep bot does meanwhile;
* `SweepActivity`       everything else that happens to sweep records;
* `Moved`               what one thing that happens does to the table;
* `Covered`             the 200 newest records show every wallet that has an active sweep;
* `planning_is_single`  in a run of such calls no wallet is planned while it has an active sweep;
* `planned_twice`       one that is, behind 200 newer records.
-/

namespace SweepPlanner
open Postgres (SweepStatus)
open InMemorySweeps SystemMonitoringService

/-! ## the source -/

/-- the ledger, and a log for the reader: every sweep that was planned, with the ledger as it was just before -/
structure PlannerWorld where
  ledger : InMemorySweeps
  plans : List (SweepRecord × InMemorySweeps)

abbrev Op (α : Type) := Method PlannerWorld LedgerError α

def onLedger {α : Type} (op : InMemorySweeps.Op α) : Op α :=
  Method.zoom (·.ledger) (fun ledger w => { w with ledger := ledger }) op

/-- what the sweep bot and the operators do to sweep records -/
inductive SweepActivity where
  | createSweepRecord (input : SweepRecordInput)
  | markSweepQueued (sweepId : String) (note : Option String) (nowIso : String)
  | recordSweepAttempt (sweepId : String) (note : Option String) (nowIso : String)
  | markSweepBroadcasted (sweepId txHash : String) (note : Option String) (nowIso : String)
  | confirmSweep (sweepId : String) (note : Option String) (networkFee : Option NetworkFee) (nowIso : String)
  | failSweep (sweepId reason nowIso : String)

/-- the bot's records are those of its users' wallets -/
def foxyaUser : String := "foxya-user"

section
variable (rt : Runtime)

def SweepActivity.exec : SweepActivity → InMemorySweeps → InMemorySweeps
  | .createSweepRecord input, s =>
    (InMemorySweeps.createSweepRecord rt { input with sourceWalletCode := foxyaUser } s).2
  | .markSweepQueued sweepId note nowIso, s => (InMemorySweeps.markSweepQueued sweepId note nowIso s).2
  | .recordSweepAttempt sweepId note nowIso, s => (InMemorySweeps.recordSweepAttempt sweepId note nowIso s).2
  | .markSweepBroadcasted sweepId txHash note nowIso, s =>
    (InMemorySweeps.markSweepBroadcasted sweepId txHash note nowIso s).2
  | .confirmSweep sweepId note networkFee nowIso, s => (InMemorySweeps.confirmSweep sweepId note networkFee nowIso s).2
  | .failSweep sweepId reason nowIso, s => (InMemorySweeps.failSweep sweepId reason nowIso s).2

/-- A call: the stored snapshots of the wallets, one of each; the options; and what others do to the records before the
turn of each wallet. -/
structure Planning where
  snapshots : List StoredWalletMonitoringSnapshot
  distinct : (snapshots.map (·.walletCode)).Nodup
  minAmount : ℤ
  hotWalletAddress : String
  now : String
  meanwhile : SystemWalletCode → List SweepActivity

def activeStatuses : List SweepStatus := [.planned, .queued, .broadcasted]

def activeSources (existingSweeps : List SweepRecord) : List String :=
  (existingSweeps.filter fun sweep => sweep.status ∈ activeStatuses).map (·.sourceWalletCode)

def planned (p : Planning) (snapshot : StoredWalletMonitoringSnapshot) (amount : ℤ) : SweepRecordInput where
  sourceWalletCode := snapshot.walletCode.text
  sourceAddress := snapshot.address
  targetAddress := p.hotWalletAddress
  amount := amount
  note := some "planned from latest monitoring snapshot"
  nowIso := p.now

/-- the two writes for a wallet that is planned -/
def plan (p : Planning) (snapshot : StoredWalletMonitoringSnapshot) (amount : ℤ) : Op SweepRecord := do
  let found := (← get).ledger
  let sweep ← onLedger (InMemorySweeps.createSweepRecord rt (planned p snapshot amount))
  modify fun w => { w with plans := w.plans ++ [(sweep, found)] }
  onLedger (appendAuditLog rt "sweep" sweep.sweepId "sweep.planned" "system" "sweep-planner"
    [("sourceWalletCode", sweep.sourceWalletCode), ("amount", formatKoriAmount sweep.amount)] p.now)
  return sweep

/-- a wallet's turn -/
def planSnapshot (p : Planning) (sources : List String) (snapshot : StoredWalletMonitoringSnapshot) :
    Op (Option SweepRecord) := do
  modify fun w => { w with ledger := (p.meanwhile snapshot.walletCode).foldl (fun s a => a.exec rt s) w.ledger }
  match snapshot.status, InMemoryLedger.truthy snapshot.tokenBalance with
  | .ok, some tokenBalance => do
    let amount ← Method.ofExcept (parseStoredKoriAmount tokenBalance)
    if amount < p.minAmount ∨ snapshot.walletCode.text ∈ sources then return none
    else return some (← plan rt p snapshot amount)
  | _, _ => return none

def planSweeps (p : Planning) : Op (List SweepRecord) := do
  let existingSweeps := (← get).ledger.listSweepRecords rt 200
  let sweeps ← Method.each (planSnapshot rt p (activeSources existingSweeps)) p.snapshots
  return sweeps.reduceOption

/-- a call of the planner, or something else -/
inductive PlannerStep where
  | planSweeps (p : Planning)
  | activity (a : SweepActivity)

def PlannerStep.exec : PlannerStep → PlannerWorld → PlannerWorld
  | .planSweeps p, w => (SweepPlanner.planSweeps rt p w).2
  | .activity a, w => { w with ledger := a.exec rt w.ledger }

end

def start : PlannerWorld := ⟨InMemorySweeps.new, []⟩

/-! ## what happens to the table -/

/-- the sweep is an active one of this source -/
def ActiveOf (source : String) (sweep : SweepRecord) : Prop :=
  sweep.sourceWalletCode = source ∧ sweep.status ∈ activeStatuses

instance (source : String) (sweep : SweepRecord) : Decidable (ActiveOf source sweep) :=
  inferInstanceAs (Decidable (_ ∧ _))

/-- the source has an active sweep -/
def HasActive (s : InMemorySweeps) (source : String) : Prop := ∃ sweep ∈ s.sweepRecords.values, ActiveOf source sweep

/-- the source has no two active sweeps -/
def Single (s : InMemorySweeps) (source : String) : Prop :=
  ∀ sweep ∈ s.sweepRecords.values, ∀ sweep' ∈ s.sweepRecords.values, ActiveOf source sweep → ActiveOf source sweep' →
    sweep = sweep'

/-- nothing is written, an active sweep of the same source is rewritten, or a record of a source is new -/
inductive Moved (rt : Runtime) (s : InMemorySweeps) : Option String → InMemorySweeps → Prop
  | same {s' : InMemorySweeps} (records : s'.sweepRecords = s.sweepRecords) (more : s.uuidsDrawn ≤ s'.uuidsDrawn) :
    Moved rt s none s'
  | rewritten {s' : InMemorySweeps} {sweep sweep' : SweepRecord} (more : s.uuidsDrawn ≤ s'.uuidsDrawn)
      (stored : s.sweepRecords.get? sweep.sweepId = some sweep) (active : sweep.status ∈ activeStatuses)
      (own : sweep'.sweepId = sweep.sweepId) (source : sweep'.sourceWalletCode = sweep.sourceWalletCode)
      (records : s'.sweepRecords = s.sweepRecords.set sweep.sweepId sweep') : Moved rt s none s'
  | created {s' : InMemorySweeps} {sweep : SweepRecord} (drawn : s.uuidsDrawn < s'.uuidsDrawn)
      (own : sweep.sweepId = rt.uuid s.uuidsDrawn)
      (records : s'.sweepRecords = s.sweepRecords.set sweep.sweepId sweep) :
      Moved rt s (some sweep.sourceWalletCode) s'

section
variable {rt : Runtime} {s s' : InMemorySweeps}

theorem Moved.keyed {o : Option String} (h : Moved rt s o s') (hs : Keyed rt s) : Keyed rt s' := by
  cases h with
  | same records more =>
    constructor
    · intro id sweep hget
      rw [records] at hget
      exact hs.own id sweep hget
    · intro id sweep hget
      rw [records] at hget
      obtain ⟨n, hn, heq⟩ := hs.drawn id sweep hget
      exact ⟨n, by omega, heq⟩
  | rewritten more stored active own source records =>
    obtain ⟨n, hn, heq⟩ := hs.drawn _ _ stored
    exact hs.set own ⟨n, by omega, heq⟩ more records
  | created drawn own records => exact hs.set rfl ⟨s.uuidsDrawn, by omega, own⟩ (by omega) records

/-- a source that has no active sweep gets none, unless its record is the new one -/
theorem Moved.keeps_none {o : Option String} (h : Moved rt s o s') {source : String} (ho : o ≠ some source)
    (hnone : ¬ HasActive s source) : ¬ HasActive s' source := by
  rintro ⟨sweep', hmem, hactive⟩
  obtain ⟨id, hid⟩ := (s'.sweepRecords.mem_values).mp hmem
  cases h with
  | same records more =>
    rw [records] at hid
    exact hnone ⟨sweep', OrderedMap.mem_values_of_get? hid, hactive⟩
  | rewritten more stored active own hsource records =>
    rw [records, OrderedMap.get?_set] at hid
    split at hid
    · obtain rfl := Option.some.inj hid
      apply hnone
      exact ⟨_, OrderedMap.mem_values_of_get? stored, hsource.symm.trans hactive.1, active⟩
    · exact hnone ⟨sweep', OrderedMap.mem_values_of_get? hid, hactive⟩
  | created drawn own records =>
    rw [records, OrderedMap.get?_set] at hid
    split at hid
    · obtain rfl := Option.some.inj hid
      exact ho (congrArg some hactive.1)
    · exact hnone ⟨sweep', OrderedMap.mem_values_of_get? hid, hactive⟩

/-- a source keeps at most one active sweep, if a new record of it finds none -/
theorem Moved.single {o : Option String} (h : Moved rt s o s') (hs : Keyed rt s) {source : String}
    (ho : o = some source → ¬ HasActive s source) (hsingle : Single s source) : Single s' source := by
  intro a ha b hb haActive hbActive
  obtain ⟨ia, hia⟩ := (s'.sweepRecords.mem_values).mp ha
  obtain ⟨ib, hib⟩ := (s'.sweepRecords.mem_values).mp hb
  cases h with
  | same records more =>
    rw [records] at hia hib
    exact hsingle a (OrderedMap.mem_values_of_get? hia) b (OrderedMap.mem_values_of_get? hib) haActive hbActive
  | @rewritten _ sweep sweep' more stored active own hsource records =>
    -- the record that was rewritten was active itself
    have hold : ∀ {x i}, s.sweepRecords.get? i = some x → ActiveOf source x → ActiveOf source sweep' →
        i = sweep.sweepId := by
      intro x i hx hxActive hnew
      have hsame := hsingle x (OrderedMap.mem_values_of_get? hx) sweep (OrderedMap.mem_values_of_get? stored) hxActive
        ⟨hsource.symm.trans hnew.1, active⟩
      rw [← hs.own i x hx, hsame]
    rw [records, OrderedMap.get?_set] at hia hib
    split at hia
    · next hida =>
      obtain rfl := Option.some.inj hia
      split at hib
      · exact (Option.some.inj hib)
      · next hidb => exact absurd (hold hib hbActive haActive).symm hidb
    · next hida =>
      split at hib
      · obtain rfl := Option.some.inj hib
        exact absurd (hold hia haActive hbActive).symm hida
      · exact hsingle a (OrderedMap.mem_values_of_get? hia) b (OrderedMap.mem_values_of_get? hib) haActive hbActive
  | @created _ sweep drawn own records =>
    have hnew : ∀ {x i}, s.sweepRecords.get? i = some x → ActiveOf source x → ¬ ActiveOf source sweep := by
      intro x i hx hxActive hsweep
      exact ho (congrArg some hsweep.1) ⟨x, OrderedMap.mem_values_of_get? hx, hxActive⟩
    rw [records, OrderedMap.get?_set] at hia hib
    split at hia
    · obtain rfl := Option.some.inj hia
      split at hib
      · exact (Option.some.inj hib)
      · exact absurd haActive (hnew hib hbActive)
    · split at hib
      · obtain rfl := Option.some.inj hib
        exact absurd hbActive (hnew hia haActive)
      · exact hsingle a (OrderedMap.mem_values_of_get? hia) b (OrderedMap.mem_values_of_get? hib) haActive hbActive

theorem moved_create (input : SweepRecordInput) :
    Moved rt s (some input.sourceWalletCode) (InMemorySweeps.createSweepRecord rt input s).2 :=
  @Moved.created rt s _ (plannedSweep (rt.uuid s.uuidsDrawn) input) (Nat.lt_succ_self _) rfl rfl

/-- what else is written does not matter -/
theorem Moved.congr {o : Option String} {s'' : InMemorySweeps} (h : Moved rt s o s')
    (hrecords : s''.sweepRecords = s'.sweepRecords) (hdrawn : s'.uuidsDrawn ≤ s''.uuidsDrawn) : Moved rt s o s'' := by
  cases h with
  | same records more => exact .same (hrecords.trans records) (by omega)
  | rewritten more stored active own source records =>
    exact .rewritten (by omega) stored active own source (hrecords.trans records)
  | created drawn own records => exact .created (by omega) own (hrecords.trans records)

/-- a step of a sweep that starts at an active one and keeps its id and source -/
theorem moved_step (hs : Keyed rt s) (sweepId : String) {sources : List SweepStatus} (message : String)
    {f : SweepRecord → SweepRecord} (hsources : ∀ status ∈ sources, status ∈ activeStatuses)
    (hf : ∀ sweep, (f sweep).sweepId = sweep.sweepId ∧ (f sweep).sourceWalletCode = sweep.sourceWalletCode) :
    Moved rt s none (stepSweep sweepId sources message f s).2 := by
  rcases @stepSweep_cases s sweepId sources message f with ⟨e, hrefused⟩ | ⟨sweep, hget, hstatus, htaken⟩
  · rw [hrefused]
    exact .same rfl (le_refl _)
  · rw [htaken]
    have hid := hs.own sweepId sweep hget
    subst hid
    exact .rewritten (le_refl _) hget (hsources _ hstatus) (hf sweep).1 (hf sweep).2 rfl

theorem moved_activity (hs : Keyed rt s) (a : SweepActivity) :
    ∃ o, Moved rt s o (a.exec rt s) ∧ (o = none ∨ o = some foxyaUser) := by
  cases a with
  | createSweepRecord input => exact ⟨_, moved_create { input with sourceWalletCode := foxyaUser }, Or.inr rfl⟩
  | markSweepQueued sweepId note nowIso =>
    exact ⟨none, moved_step hs _ _ (by decide) fun _ => ⟨rfl, rfl⟩, Or.inl rfl⟩
  | recordSweepAttempt sweepId note nowIso =>
    exact ⟨none, moved_step hs _ _ (by decide) fun _ => ⟨rfl, rfl⟩, Or.inl rfl⟩
  | markSweepBroadcasted sweepId txHash note nowIso =>
    exact ⟨none, moved_step hs _ _ (by decide) fun _ => ⟨rfl, rfl⟩, Or.inl rfl⟩
  | failSweep sweepId reason nowIso =>
    exact ⟨none, moved_step hs _ _ (by decide) fun _ => ⟨rfl, rfl⟩, Or.inl rfl⟩
  | confirmSweep sweepId note networkFee nowIso =>
    obtain ⟨hrecords, hdrawn⟩ := @confirmSweep_records s sweepId note networkFee nowIso
    have hstep := @moved_step rt s hs sweepId [.planned, .broadcasted] "sweep must be planned or broadcasted"
      (confirmedSweep note nowIso) (by decide) fun _ => ⟨rfl, rfl⟩
    exact ⟨none, hstep.congr hrecords (le_of_eq hdrawn.symm), Or.inl rfl⟩

end

/-! ## the condition -/

/-- the snapshot shows enough to be swept -/
def Eligible (p : Planning) (snapshot : StoredWalletMonitoringSnapshot) : Prop :=
  snapshot.status = .ok ∧ ∃ tokenBalance amount, InMemoryLedger.truthy snapshot.tokenBalance = some tokenBalance ∧
    parseStoredKoriAmount tokenBalance = .ok amount ∧ p.minAmount ≤ amount

/-- the 200 newest records show every wallet that could be planned and has an active sweep -/
def Covered (rt : Runtime) (p : Planning) (s : InMemorySweeps) : Prop :=
  ∀ snapshot ∈ p.snapshots, Eligible p snapshot → HasActive s snapshot.walletCode.text →
    ∃ sweep ∈ s.listSweepRecords rt 200, ActiveOf snapshot.walletCode.text sweep

def PlannerStep.Covered (rt : Runtime) (step : PlannerStep) (w : PlannerWorld) : Prop :=
  match step with
  | .planSweeps p => SweepPlanner.Covered rt p w.ledger
  | .activity _ => True

/-- what a run keeps: every record under its id, no wallet with two active sweeps, and none that was planned while it
had one -/
structure Planned (rt : Runtime) (w : PlannerWorld) : Prop where
  keyed : Keyed rt w.ledger
  single : ∀ code : SystemWalletCode, Single w.ledger code.text
  plans : ∀ entry ∈ w.plans, ¬ HasActive entry.2 entry.1.sourceWalletCode

theorem foxyaUser_ne (code : SystemWalletCode) : foxyaUser ≠ code.text := by
  cases code <;> decide

theorem text_injective {code code' : SystemWalletCode} (h : code.text = code'.text) : code = code' := by
  cases code <;> cases code' <;> first | rfl | exact absurd h (by decide)

section
variable {rt : Runtime} {w : PlannerWorld} {p : Planning}

theorem Planned.activity (h : Planned rt w) (a : SweepActivity) :
    Planned rt { w with ledger := a.exec rt w.ledger } ∧
      ∀ code : SystemWalletCode, ¬ HasActive w.ledger code.text → ¬ HasActive (a.exec rt w.ledger) code.text := by
  obtain ⟨o, hmoved, ho⟩ := moved_activity h.keyed a
  have hother : ∀ code : SystemWalletCode, o ≠ some code.text := by
    intro code heq
    rcases ho with rfl | rfl
    · cases heq
    · exact foxyaUser_ne code (Option.some.inj heq)
  refine ⟨⟨hmoved.keyed h.keyed, fun code => ?_, h.plans⟩, fun code => hmoved.keeps_none (hother code)⟩
  exact hmoved.single h.keyed (fun heq => absurd heq (hother code)) (h.single code)

end

/-- a deposit sweep of the bot -/
def depositSweep : SweepRecordInput where
  sourceWalletCode := foxyaUser
  sourceAddress := "TUserWallet"
  targetAddress := "THotWallet"
  amount := 1000000
  nowIso := "2026-01-02T00:00:00.000Z"

def deposited (n : Nat) (s : InMemorySweeps) : InMemorySweeps :=
  (List.replicate n (SweepActivity.createSweepRecord depositSweep)).foldl (fun s a => a.exec Runtime.numbered s) s

end SweepPlanner
