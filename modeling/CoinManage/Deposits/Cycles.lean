import CoinManage.Deposits.Scans

/-!
# How a cycle ends

* `runCycleInternal_ends`   every way a cycle ends: idle, thrown before its window is open, the
                     window read (`Complete`), or broken off inside the window (`Broken`);
* `cycle_cases`, `cycle_moves`   the same for the stores alone;
* `timeAfter`        the time the cursor is given: the window's start, or an event's time.
-/

set_option linter.unusedSectionVars false

namespace DepositMonitorService
open Method DepositMonitor

variable {rt : Runtime} {env : DepositMonitorEnv} {c : MonitorCycle} {D : ExternalDepositEvent → Prop}

/-! ## the time a cursor is given -/

theorem seeing_timestamp (seen : LastSeen) (chainEvent : Trc20TransferEvent) :
    (seeing env c seen chainEvent).timestampMs = if filteredOut env c chainEvent then seen.timestampMs
      else max seen.timestampMs chainEvent.blockTimestampMs := by
  rw [seeing]
  split <;> rfl

theorem le_foldl_seeing (events : List Trc20TransferEvent) : ∀ seen : LastSeen,
    seen.timestampMs ≤ (events.foldl (seeing env c) seen).timestampMs := by
  induction events with
  | nil => exact fun _ => le_refl _
  | cons e events ih =>
    intro seen
    have hstep : seen.timestampMs ≤ (seeing env c seen e).timestampMs := by
      rw [seeing_timestamp]
      split
      · exact le_refl _
      · exact le_max_left _ _
    exact hstep.trans (ih _)

/-- the time is the one the window started with, or the time of an event that was seen -/
theorem foldl_seeing_cases (events : List Trc20TransferEvent) : ∀ seen : LastSeen,
    (events.foldl (seeing env c) seen).timestampMs = seen.timestampMs ∨
      ∃ e ∈ events, filteredOut env c e = false ∧
        (events.foldl (seeing env c) seen).timestampMs = e.blockTimestampMs := by
  induction events with
  | nil => exact fun _ => Or.inl rfl
  | cons e events ih =>
    intro seen
    rw [List.foldl_cons]
    rcases ih (seeing env c seen e) with h | ⟨e', he', hin, h⟩
    · rw [h, seeing_timestamp]
      cases hout : filteredOut env c e with
      | true => exact Or.inl rfl
      | false =>
        rw [if_neg Bool.false_ne_true]
        rcases max_choice seen.timestampMs e.blockTimestampMs with hmax | hmax
        · exact Or.inl hmax
        · exact Or.inr ⟨e, List.mem_cons_self, hout, hmax⟩
    · exact Or.inr ⟨e', List.mem_cons_of_mem _ he', hin, h⟩

/-! ## one cycle -/

/-- the cycle gets to open its window: the addresses, the block number and the cursor are read -/
def Opens (env : DepositMonitorEnv) (c : MonitorCycle) : Prop :=
  env.depositMonitorEnabled = true ∧ env.foxyaConfigured = true ∧
    c.outcome 0 = .answered ∧ c.outcome 1 = .answered ∧ c.outcome 2 = .answered

instance : Decidable (Opens env c) := inferInstanceAs (Decidable (_ ∧ _))

def windowStart (env : DepositMonitorEnv) (c : MonitorCycle) (m : DepositMonitor) : ℤ :=
  startTimestamp env c m.cursor?

/-- the events of the window the cycle opens -/
def windowEvents (env : DepositMonitorEnv) (c : MonitorCycle) (m : DepositMonitor) :
    List Trc20TransferEvent :=
  readEvents (c.pages (minBlockTimestamp env (windowStart env c m)))

/-- the execution as it opens its window -/
def opened (env : DepositMonitorEnv) (c : MonitorCycle) (m : DepositMonitor) : Scan :=
  let seen : LastSeen :=
    { timestampMs := windowStart env c m
      blockNumber := m.cursor?.bind (·.lastSeenEventBlockNumber)
      txHash := m.cursor?.bind (·.lastSeenTxHash) }
  { entering env c m with callsMade := 3, lastSeen := seen, saved := seen }

theorem calling_apply {α : Type} (m : Body α) (s : Scan) :
    calling c m s = (c.outcome s.callsMade).of callFailed m (called s) := rfl

theorem calling_answered {α : Type} {m : Body α} {s : Scan} (h : c.outcome s.callsMade = .answered) :
    calling c m s = m (called s) := by
  rw [calling_apply, h]
  rfl

/-- a call that only reads, and fails -/
theorem calling_failed {α : Type} {m : Body α} {s : Scan} {a : α}
    (hm : m (called s) = (.ok a, called s)) (h : c.outcome s.callsMade ≠ .answered) :
    calling c m s = (.error callFailed, called s) := by
  rw [calling_apply]
  cases ho : c.outcome s.callsMade with
  | answered => exact absurd ho h
  | refused => rfl
  | lost => exact bind_ok _ hm

/-- a call that reads and is answered -/
theorem calling_read {α : Type} {m : Body α} {s : Scan} {a : α}
    (hm : m (called s) = (.ok a, called s)) (h : c.outcome s.callsMade = .answered) :
    calling c m s = (.ok a, called s) := (calling_answered h).trans hm

theorem scanWindow_opens {m : DepositMonitor} (h : Opens env c) :
    scanWindow rt env c (entering env c m) =
      scanOpened rt env c (windowStart env c m) (opened env c m) := by
  obtain ⟨-, -, h0, h1, h2⟩ := h
  have e0 : calling c (pure () : Body Unit) (entering env c m) = (.ok (), called (entering env c m)) :=
    calling_read rfl h0
  have e1 : calling c (pure () : Body Unit) (called (entering env c m)) =
      (.ok (), called (called (entering env c m))) := calling_read rfl h1
  have e2 : calling c (onRepository (InMemoryDepositMonitorRepository.getCursor SCANNER_KEY))
        (called (called (entering env c m))) =
      (.ok m.cursor?, called (called (called (entering env c m)))) := calling_read rfl h2
  exact (bind_ok _ e0).trans ((bind_ok _ e1).trans ((bind_ok _ e2).trans rfl))

/-- before the window is open nothing is read, and the saved time is the fallback -/
theorem scanWindow_closed {m : DepositMonitor} (h0 : env.depositMonitorEnabled = true)
    (h1 : env.foxyaConfigured = true) (h : ¬ Opens env c) :
    ∃ n, scanWindow rt env c (entering env c m) =
      (.error callFailed, { entering env c m with callsMade := n }) := by
  have hthree : c.outcome 0 = .answered → c.outcome 1 = .answered → c.outcome 2 ≠ .answered :=
    fun ho₀ ho₁ ho₂ => h ⟨h0, h1, ho₀, ho₁, ho₂⟩
  by_cases ho₀ : c.outcome 0 = .answered
  · have e0 : calling c (pure () : Body Unit) (entering env c m) =
        (.ok (), called (entering env c m)) := calling_read rfl ho₀
    by_cases ho₁ : c.outcome 1 = .answered
    · have e1 : calling c (pure () : Body Unit) (called (entering env c m)) =
          (.ok (), called (called (entering env c m))) := calling_read rfl ho₁
      have e2 : calling c (onRepository (InMemoryDepositMonitorRepository.getCursor SCANNER_KEY))
            (called (called (entering env c m))) =
          (.error callFailed, called (called (called (entering env c m)))) :=
        calling_failed rfl (hthree ho₀ ho₁)
      exact ⟨3, (bind_ok _ e0).trans ((bind_ok _ e1).trans (bind_error _ e2))⟩
    · have e1 : calling c (pure () : Body Unit) (called (entering env c m)) =
          (.error callFailed, called (called (entering env c m))) := calling_failed rfl ho₁
      exact ⟨2, (bind_ok _ e0).trans (bind_error _ e1)⟩
  · have e0 : calling c (pure () : Body Unit) (entering env c m) =
        (.error callFailed, called (entering env c m)) := calling_failed rfl ho₀
    exact ⟨1, bind_error _ e0⟩

/-! ## the cursor -/

/-- nothing but the cursor has changed, and where it has, it carries the time `t` -/
structure SavedAt (t : ℤ) (m m' : DepositMonitor) : Prop where
  events : m'.repository.events = m.repository.events
  ledger : m'.ledger = m.ledger
  applications : m'.applications = m.applications
  cursor : m'.cursor? = m.cursor? ∨ ∃ cur, m'.cursor? = some cur ∧ cur.cursorTimestampMs = t

theorem SavedAt.refl (t : ℤ) (m : DepositMonitor) : SavedAt t m m := ⟨rfl, rfl, rfl, Or.inl rfl⟩

theorem SavedAt.trans {t : ℤ} {m₁ m₂ m₃ : DepositMonitor} (h : SavedAt t m₁ m₂)
    (h' : SavedAt t m₂ m₃) : SavedAt t m₁ m₃ where
  events := h'.events.trans h.events
  ledger := h'.ledger.trans h.ledger
  applications := h'.applications.trans h.applications
  cursor := by
    rcases h'.cursor with hc | hc
    · rw [hc]
      exact h.cursor
    · exact Or.inr hc

theorem SavedAt.event? {t : ℤ} {m m' : DepositMonitor} (h : SavedAt t m m') (key : String) :
    m'.event? key = m.event? key := congrArg (OrderedMap.get? · key) h.events

theorem SavedAt.sound {t : ℤ} {m m' : DepositMonitor} (h : SavedAt t m m') (hs : m.Sound) :
    m'.Sound :=
  ⟨fun he => hs.keyed (by rw [← h.event?]; exact he), fun he => hs.completed (by rw [← h.event?]; exact he)⟩

theorem saveCursor_ends {s : Scan} {cursor : DepositMonitorCursor}
    (hkey : cursor.scannerKey = SCANNER_KEY) :
    Ends (saveCursor c cursor) s
      (fun _ s' => SavedAt cursor.cursorTimestampMs s.monitor s'.monitor ∧ s'.saved = s.saved)
      (fun _ s' => SavedAt cursor.cursorTimestampMs s.monitor s'.monitor ∧ s'.saved = s.saved ∧
        ¬ Answers c) := by
  have hset : ({ s.monitor with repository := { s.monitor.repository with
      cursors := s.monitor.repository.cursors.set cursor.scannerKey cursor } } : DepositMonitor).cursor? =
      some cursor := by
    rw [cursor?, ← hkey]
    exact OrderedMap.get?_set_self _ _ _
  have hsaved : SavedAt cursor.cursorTimestampMs s.monitor
      { s.monitor with repository := { s.monitor.repository with
        cursors := s.monitor.repository.cursors.set cursor.scannerKey cursor } } :=
    ⟨rfl, rfl, rfl, Or.inr ⟨cursor, hset, rfl⟩⟩
  refine ends_calling ?_ fun hans => ⟨SavedAt.refl _ _, rfl, hans⟩
  rw [onRepository, ends_zoom]
  exact ⟨⟨hsaved, rfl⟩, fun hans => ⟨hsaved, rfl, hans⟩⟩

/-! ## how a cycle ends -/

/-- the time the cursor is given once `events` have been seen -/
def timeAfter (env : DepositMonitorEnv) (c : MonitorCycle) (m : DepositMonitor)
    (events : List Trc20TransferEvent) : ℤ :=
  (events.foldl (seeing env c) (opened env c m).lastSeen).timestampMs

/-- what a cycle may discover: its window's payments to watched addresses -/
def Discovers (rt : Runtime) (env : DepositMonitorEnv) (c : MonitorCycle) (m : DepositMonitor)
    (e : ExternalDepositEvent) : Prop :=
  ∃ chainEvent ∈ windowEvents env c m, ∃ toAddress target id,
    Matches rt env c chainEvent toAddress target ∧ e = discovered env id toAddress chainEvent target

/-- the whole window was read, and the cursor may have been saved -/
def Complete (rt : Runtime) (env : DepositMonitorEnv) (c : MonitorCycle) (m m' : DepositMonitor) : Prop :=
  ∃ m₁, Moves rt env c (Discovers rt env c m) m m₁ ∧ AllSettled rt env c (windowEvents env c m) m₁ ∧
    SavedAt (timeAfter env c m (windowEvents env c m)) m₁ m'

/-- the cycle was broken off inside its window, and the cursor may have been saved -/
def Broken (rt : Runtime) (env : DepositMonitorEnv) (c : MonitorCycle) (m m' : DepositMonitor) : Prop :=
  ∃ m₁ done begun rest, windowEvents env c m = done ++ begun ++ rest ∧ begun.length ≤ 1 ∧
    Moves rt env c (Discovers rt env c m) m m₁ ∧ AllSettled rt env c done m₁ ∧
    SavedAt (timeAfter env c m (done ++ begun)) m₁ m' ∧
    (Answers c → ∃ chainEvent, begun = [chainEvent] ∧ StoppedIn rt env c chainEvent m m₁)

/-- the `try` block from the open window on; the `catch` block will save the time it leaves -/
theorem scanOpened_ends {m : DepositMonitor} (hs : m.Sound) :
    Ends (scanOpened rt env c (windowStart env c m)) (opened env c m)
      (fun _ s' => Complete rt env c m s'.monitor ∧
        ((optionsOf env c).persistCursor = false → s'.monitor.cursor? = m.cursor?))
      (fun _ s' =>
        (¬ Answers c ∧ Complete rt env c m s'.monitor ∧
          s'.saved.timestampMs = timeAfter env c m (windowEvents env c m)) ∨
        ∃ done begun rest, windowEvents env c m = done ++ begun ++ rest ∧ begun.length ≤ 1 ∧
          Moves rt env c (Discovers rt env c m) m s'.monitor ∧ AllSettled rt env c done s'.monitor ∧
          s'.saved.timestampMs = timeAfter env c m (done ++ begun) ∧
          (Answers c → ∃ chainEvent, begun = [chainEvent] ∧
            StoppedIn rt env c chainEvent m s'.monitor)) := by
  rw [scanOpened, ends_bind]
  refine (scanPages_ends (D := Discovers rt env c m) _ hs ?_).imp (fun _ s₁ h => ?_) fun _ s₁ h => ?_
  · exact fun e he a t hmatch id => ⟨e, he, a, t, id, hmatch, rfl⟩
  · obtain ⟨hseen, hsettled⟩ := h
    have htime : s₁.lastSeen.timestampMs = timeAfter env c m (windowEvents env c m) :=
      congrArg LastSeen.timestampMs hseen.lastSeen
    have hsaved : s₁.saved.timestampMs = timeAfter env c m (windowEvents env c m) := by
      rw [hseen.saved rfl, htime]
    rw [ends_bind, ends_get]
    dsimp only
    rw [ends_ite]
    refine ⟨fun hpersist => ?_, fun hnot => ?_⟩
    · rw [ends_bind]
      refine (saveCursor_ends rfl).imp (fun _ s₂ h => ?_) fun _ s₂ h => ?_
      · refine ⟨⟨s₁.monitor, hseen.moves, hsettled, ?_⟩, fun hno => by rw [hpersist] at hno; cases hno⟩
        rw [← htime]
        exact h.1
      · obtain ⟨hat, hsame, hans⟩ := h
        refine Or.inl ⟨hans, ⟨s₁.monitor, hseen.moves, hsettled, ?_⟩, ?_⟩
        · rw [← htime]
          exact hat
        · rw [hsame, hsaved]
    · refine ⟨⟨s₁.monitor, hseen.moves, hsettled, SavedAt.refl _ _⟩, fun _ => ?_⟩
      exact congrArg (OrderedMap.get? · SCANNER_KEY) hseen.moves.cursors
  · obtain ⟨done, begun, rest, heq, hlen, hseen, hdone, hstop⟩ := h
    refine Or.inr ⟨done, begun, rest, heq, hlen, hseen.moves, hdone, ?_, hstop⟩
    rw [hseen.saved rfl, hseen.lastSeen]
    rfl

/-- the `catch` block: the saved time goes into the cursor, or the cursor stays -/
theorem execution_throws {m : DepositMonitor} {e : LedgerError} {s : Scan}
    (h : scanWindow rt env c (entering env c m) = (.error e, s)) :
    ∃ e' s', execution rt env c (entering env c m) = (.error e', s') ∧
      SavedAt s.saved.timestampMs s.monitor s'.monitor := by
  have hcatch : execution rt env c (entering env c m) =
      (do
        let s ← get
        let _ ← saveCursor c (cursorOf env s.saved none (some e))
        throw e : Body DepositMonitorCycleResult) s := by
    show Method.tryCatch _ _ _ = _
    rw [Method.tryCatch, h]
  have hends : Ends (do
        let s ← get
        let _ ← saveCursor c (cursorOf env s.saved none (some e))
        throw e : Body DepositMonitorCycleResult) s (fun _ _ => False)
      (fun _ s' => SavedAt s.saved.timestampMs s.monitor s'.monitor) := by
    rw [ends_bind, ends_get, ends_bind]
    exact (saveCursor_ends rfl).imp (fun _ _ h => h.1) fun _ _ h => h.1
  rw [hcatch]
  rw [Ends] at hends
  revert hends
  generalize (do
        let s ← get
        let _ ← saveCursor c (cursorOf env s.saved none (some e))
        throw e : Body DepositMonitorCycleResult) s = r
  rcases r with ⟨e' | a, s'⟩
  · exact fun h => ⟨e', s', rfl, h⟩
  · exact fun h => h.elim

theorem execution_returns {m : DepositMonitor} {r : DepositMonitorCycleResult} {s : Scan}
    (h : scanWindow rt env c (entering env c m) = (.ok r, s)) :
    execution rt env c (entering env c m) = (.ok r, s) := by
  show Method.tryCatch _ _ _ = _
  rw [Method.tryCatch, h]

/-- the service does nothing -/
def Idle (env : DepositMonitorEnv) : Prop :=
  env.depositMonitorEnabled = false ∨ env.foxyaConfigured = false

/-- Every way a cycle ends.  It returns without doing anything, or with its whole window read; it
throws before its window is open, inside the window, or where the cursor could not be saved. -/
theorem runCycleInternal_ends {m : DepositMonitor} (hs : m.Sound) :
    Ends (runCycleInternal rt env c) m
      (fun _ m' => (Idle env ∧ m' = m) ∨ (Opens env c ∧ Complete rt env c m m' ∧
        ((optionsOf env c).persistCursor = false → m'.cursor? = m.cursor?)))
      (fun _ m' => (¬ Idle env ∧ ¬ Opens env c ∧ SavedAt (fallbackTimestamp env c) m m') ∨
        (Opens env c ∧ ¬ Answers c ∧ Complete rt env c m m') ∨
        (Opens env c ∧ Broken rt env c m m')) := by
  by_cases h0 : env.depositMonitorEnabled = false
  · rw [Ends, runCycleInternal, if_pos h0]
    exact Or.inl ⟨Or.inl h0, rfl⟩
  by_cases h1 : env.foxyaConfigured = false
  · rw [Ends, runCycleInternal, if_neg h0, if_pos h1]
    exact Or.inl ⟨Or.inr h1, rfl⟩
  have hnot : ¬ Idle env := fun h => h.elim h0 h1
  have happly : runCycleInternal rt env c m =
      ((execution rt env c (entering env c m)).1.map .result,
        (execution rt env c (entering env c m)).2.monitor) := by
    rw [runCycleInternal, if_neg h0, if_neg h1]
  by_cases hopen : Opens env c
  · have hends := @scanOpened_ends rt env c m hs
    have hwindow := @scanWindow_opens rt env c m hopen
    rcases hw : scanWindow rt env c (entering env c m) with ⟨e | r, s⟩
    · obtain ⟨e', s', hexec, hsaved⟩ := execution_throws hw
      rw [Ends, happly, hexec]
      rcases hends.throws (hwindow.symm.trans hw) with ⟨hans, hcomplete, htime⟩ | h
      · obtain ⟨m₁, hmoves, hsettled, hat⟩ := hcomplete
        rw [htime] at hsaved
        exact Or.inr (Or.inl ⟨hopen, hans, m₁, hmoves, hsettled, hat.trans hsaved⟩)
      · obtain ⟨done, begun, rest, heq, hlen, hmoves, hdone, htime, hstop⟩ := h
        rw [htime] at hsaved
        exact Or.inr (Or.inr ⟨hopen, s.monitor, done, begun, rest, heq, hlen, hmoves, hdone, hsaved,
          hstop⟩)
    · rw [Ends, happly, execution_returns hw]
      exact Or.inr ⟨hopen, hends.returns (hwindow.symm.trans hw)⟩
  · obtain ⟨n, hn⟩ := @scanWindow_closed rt env c m (by simpa using h0) (by simpa using h1) hopen
    obtain ⟨e', s', hexec, hsaved⟩ := execution_throws hn
    rw [Ends, happly, hexec]
    exact Or.inl ⟨hnot, hopen, hsaved⟩

/-- the store after a cycle, whatever it answered -/
theorem cycle_cases {m : DepositMonitor} (hs : m.Sound) :
    (Idle env ∧ cycle rt env c m = m) ∨
      (¬ Idle env ∧ ¬ Opens env c ∧ SavedAt (fallbackTimestamp env c) m (cycle rt env c m)) ∨
      (Opens env c ∧ Complete rt env c m (cycle rt env c m)) ∨
      (Opens env c ∧ Broken rt env c m (cycle rt env c m)) := by
  have h := @runCycleInternal_ends rt env c m hs
  rw [Ends] at h
  rw [cycle]
  rcases hr : runCycleInternal rt env c m with ⟨e | r, m'⟩
  · rw [hr] at h
    rcases h with h | ⟨ho, -, h⟩ | h
    · exact Or.inr (Or.inl h)
    · exact Or.inr (Or.inr (Or.inl ⟨ho, h⟩))
    · exact Or.inr (Or.inr (Or.inr h))
  · rw [hr] at h
    rcases h with h | ⟨ho, h, -⟩
    · exact Or.inl h
    · exact Or.inr (Or.inr (Or.inl ⟨ho, h⟩))

/-- a cycle is moves and at most one change of the cursor -/
theorem cycle_moves {m : DepositMonitor} (hs : m.Sound) :
    ∃ m₁ t, Moves rt env c (Discovers rt env c m) m m₁ ∧ SavedAt t m₁ (cycle rt env c m) := by
  rcases @cycle_cases rt env c m hs with ⟨-, h⟩ | ⟨-, -, h⟩ | ⟨-, m₁, hm, -, hat⟩ |
    ⟨-, m₁, done, begun, rest, -, -, hm, -, hat, -⟩
  · rw [h]
    exact ⟨m, 0, Moves.refl m, SavedAt.refl 0 m⟩
  · exact ⟨m, _, Moves.refl m, h⟩
  · exact ⟨m₁, _, hm, hat⟩
  · exact ⟨m₁, _, hm, hat⟩

theorem cycle_sound {m : DepositMonitor} (hs : m.Sound) : (cycle rt env c m).Sound := by
  obtain ⟨m₁, t, hm, hat⟩ := @cycle_moves rt env c m hs
  exact hat.sound (hm.sound hs)

theorem run_sound (cycles : List MonitorCycle) {m : DepositMonitor} (hs : m.Sound) :
    (run rt env cycles m).Sound :=
  run_invariant (fun _ _ (_ : True) h => cycle_sound h) (fun _ _ => trivial) hs

/-- an event that is recorded stays recorded, with its progress -/
theorem cycle_event {m : DepositMonitor} (hs : m.Sound) {key : String} {e : ExternalDepositEvent}
    (he : m.event? key = some e) :
    ∃ e', (cycle rt env c m).event? key = some e' ∧ e'.asDiscovered = e.asDiscovered ∧
      (e.foxyaRegisteredAt.isSome → e'.foxyaRegisteredAt.isSome) ∧
      (e.foxyaCompletedAt.isSome → e'.foxyaCompletedAt.isSome) := by
  obtain ⟨m₁, t, hm, hat⟩ := @cycle_moves rt env c m hs
  obtain ⟨e', he', h⟩ := hm.event he
  exact ⟨e', by rw [hat.event?, he'], h⟩

theorem cycle_registered {m : DepositMonitor} (hs : m.Sound) {key : String}
    (h : m.Registered key) : (cycle rt env c m).Registered key := by
  obtain ⟨e, he, hreg⟩ := h
  obtain ⟨e', he', -, hreg', -⟩ := @cycle_event rt env c m hs key e he
  exact ⟨e', he', hreg' hreg⟩

/-! ## the chain the reader lists -/

/-- the reader answers events of the chain -/
def ReadsOnly (chain : List Trc20TransferEvent) (c : MonitorCycle) : Prop :=
  ∀ lo, ∀ e ∈ readEvents (c.pages lo), e ∈ chain

/-- the events of the chain are told apart by transaction and index -/
def Distinct (chain : List Trc20TransferEvent) : Prop :=
  ∀ a ∈ chain, ∀ b ∈ chain, a.txHash = b.txHash → a.eventIndex = b.eventIndex → a = b

/-- every record is of an event of the chain -/
def FromChain (env : DepositMonitorEnv) (chain : List Trc20TransferEvent) (m : DepositMonitor) : Prop :=
  ∀ key r, m.event? key = some r → ∃ e ∈ chain, ∃ toAddress target id,
    key = eventKeyOf env e target ∧ r.asDiscovered = discovered env id toAddress e target

section
variable {chain : List Trc20TransferEvent} {m : DepositMonitor}

theorem cycle_fromChain (hs : m.Sound) (hreads : ReadsOnly chain c) (h : FromChain env chain m) :
    FromChain env chain (cycle rt env c m) := by
  intro key r hr
  obtain ⟨m₁, t, hm, hat⟩ := @cycle_moves rt env c m hs
  rw [hat.event?] at hr
  rcases hm.from hr with ⟨r₀, hr₀, hsame⟩ | ⟨-, d, ⟨e, he, a, target, id, -, rfl⟩, hkey, hsame⟩
  · obtain ⟨e, he, a, target, id, hkey, hsame₀⟩ := h key r₀ hr₀
    exact ⟨e, he, a, target, id, hkey, hsame.trans hsame₀⟩
  · exact ⟨e, hreads _ e he, a, target, id, hkey.symm, hsame⟩

theorem FromChain.new (ledger : InMemoryLedger) : FromChain env chain (.new ledger) := by
  intro key r hr
  have hnone : (DepositMonitor.new ledger).event? key = none := rfl
  rw [hnone] at hr
  cases hr

theorem run_fromChain {cycles : List MonitorCycle} (hreads : ∀ c ∈ cycles, ReadsOnly chain c)
    (hs : m.Sound) (h : FromChain env chain m) : FromChain env chain (run rt env cycles m) := by
  have hstep : ∀ c' m', ReadsOnly chain c' → m'.Sound ∧ FromChain env chain m' →
      (cycle rt env c' m').Sound ∧ FromChain env chain (cycle rt env c' m') :=
    fun c' m' hc h' => ⟨cycle_sound h'.1, cycle_fromChain h'.1 hc h'.2⟩
  exact (run_invariant hstep hreads ⟨hs, h⟩).2

end

/-- the reader answers the events of the chain it sees from the asked time on, in their order -/
def ReadsFrom (chain : List Trc20TransferEvent) (c : MonitorCycle) : Prop :=
  ∃ n, ∀ lo, readEvents (c.pages lo) =
    (chain.take n).filter fun e => decide (lo ≤ e.blockTimestampMs)

/-- the cycle is told of the address the event pays -/
structure Watches (rt : Runtime) (env : DepositMonitorEnv) (chainEvent : Trc20TransferEvent)
    (target : DepositWatchAddress) (c : MonitorCycle) : Prop where
  listed : target ∈ filterWatchAddresses rt env c.watchAddresses
  pays : InMemoryLedger.truthy chainEvent.toAddress = some target.address

/-- the environment of the examples: a lookback of five minutes, 20 confirmations -/
def exampleEnv : DepositMonitorEnv where
  depositMonitorEnabled := true
  foxyaConfigured := true
  depositMonitorNetwork := "mainnet"
  contractAddress := "TBJZD8RwQ1JcQvEP9BTbPbgBCGxUjxSXnn"
  depositMonitorConfirmations := 20
  depositMonitorStartTimestampMs := none
  depositMonitorLookbackMs := 300000
  depositMonitorCurrencyIds := [3]

def exampleWatch : DepositWatchAddress := ⟨"alice", 3, "TAliceWallet", "TRON"⟩

/-- a transfer to the watched wallet, in block 100 -/
def exampleTransfer (txHash : String) (eventIndex : Nat) (blockTimestampMs : ℤ) (units : Nat) :
    Trc20TransferEvent where
  txHash := txHash
  eventIndex := eventIndex
  blockNumber := 100
  blockTimestampMs := blockTimestampMs
  fromAddress := some "TSender"
  toAddress := some "TAliceWallet"
  amountRaw := .ofNat units

/-- a `runCycle` at a time, that sees `chain`; every call is answered and the gate is open -/
def exampleCycle (chain : List Trc20TransferEvent) (now : ℤ) : MonitorCycle where
  request := .runCycle
  reconcileNow := now
  savedNow := now
  startNow := now
  nowMs := fun _ => now
  nowIso := fun _ => "2026-01-01T00:00:00.000Z"
  watchAddresses := [exampleWatch]
  currentBlockNumber := 200
  pages := fun lo => [⟨chain.filter fun e => decide (lo ≤ e.blockTimestampMs), none⟩]
  depositAllowed := fun _ _ => true
  outcome := fun _ => .answered

theorem readEvents_page (events : List Trc20TransferEvent) : readEvents [⟨events, none⟩] = events := by
  simp only [readEvents]
  split
  · next h => exact h.symm
  · rfl

theorem readsFrom_take {chain : List Trc20TransferEvent} (n : Nat) {c : MonitorCycle}
    (h : c.pages = fun lo => [⟨(chain.take n).filter fun e => decide (lo ≤ e.blockTimestampMs), none⟩]) :
    ReadsFrom chain c := ⟨n, fun lo => by rw [h, readEvents_page]⟩

end DepositMonitorService
