import CoinManage.Deposits.Cursor

/-!
# Events that wait to be completed

An event that is registered and waits, for confirmations or for the gate of its wallet, is
examined again only while the next window still holds it.  The cursor follows the newest event, so
that is the case until a cycle has met a time more than the lookback later than the event; after
that it takes a `reconcile`.

* `waiting_in_window`   the next window holds the event as long as no such time was met;
* `waiting_left_behind` one newer event of another wallet is enough.
-/

namespace DepositMonitorService
open Method DepositMonitor

variable {rt : Runtime} {env : DepositMonitorEnv} {c : MonitorCycle}
  {chain : List Trc20TransferEvent} {m : DepositMonitor}

/-- the reader answers events of the chain, none before the asked time -/
def ListsFrom (chain : List Trc20TransferEvent) (c : MonitorCycle) : Prop :=
  ∀ lo, ∀ e ∈ readEvents (c.pages lo), e ∈ chain ∧ lo ≤ e.blockTimestampMs

/-- every time the cycle may give the cursor is at most `t`: the fallback where it cannot read the
cursor, the start where there is none, the times of the events it reads -/
structure MeetsNothingPast (env : DepositMonitorEnv) (t : ℤ) (c : MonitorCycle) (m : DepositMonitor) :
    Prop where
  early : ¬ Opens env c → fallbackTimestamp env c ≤ t
  start : Opens env c → m.cursor? = none → windowStart env c m ≤ t
  events : Opens env c → ∀ e ∈ windowEvents env c m, e.blockTimestampMs ≤ t

/-- the persisted cursor is at most `t` -/
def CursorWithin (t : ℤ) (m : DepositMonitor) : Prop :=
  ∀ cur, m.cursor? = some cur → cur.cursorTimestampMs ≤ t

theorem ListsFrom.readsOnly (h : ListsFrom chain c) : ReadsOnly chain c := fun lo e he => (h lo e he).1

theorem ListsFrom.window (h : ListsFrom chain c) {e : Trc20TransferEvent}
    (he : e ∈ windowEvents env c m) :
    e ∈ chain ∧ windowStart env c m - env.depositMonitorLookbackMs ≤ e.blockTimestampMs := by
  obtain ⟨hchain, hlo⟩ := h _ e he
  exact ⟨hchain, (le_max_right _ _).trans hlo⟩

/-! ## the cursor against one event -/

theorem timeAfter_le {t : ℤ} {events : List Trc20TransferEvent} (hstart : windowStart env c m ≤ t)
    (hevents : ∀ e ∈ events, e.blockTimestampMs ≤ t) : timeAfter env c m events ≤ t := by
  rcases @foldl_seeing_cases env c events (opened env c m).lastSeen with htime | ⟨e, he, -, htime⟩
  · rw [timeAfter, htime]
    exact hstart
  · rw [timeAfter, htime]
    exact hevents e he

/-- a cycle whose window starts by `t`, or that does not open one, leaves the cursor within `t` -/
theorem cycle_cursorWithin {t : ℤ} (hs : m.Sound) (hold : CursorWithin t m)
    (hstart : Opens env c → windowStart env c m ≤ t) (hmeets : MeetsNothingPast env t c m) :
    CursorWithin t (cycle rt env c m) := by
  have hsaved : ∀ {m₁ : DepositMonitor} {t' : ℤ}, m₁.repository.cursors = m.repository.cursors →
      t' ≤ t → SavedAt t' m₁ (cycle rt env c m) → CursorWithin t (cycle rt env c m) := by
    intro m₁ t' hcursors ht' hat cur hcur
    rcases hat.cursor with hsame | ⟨cur', hcur', htime⟩
    · refine hold cur ?_
      rw [← hcur, hsame]
      exact (congrArg (OrderedMap.get? · SCANNER_KEY) hcursors).symm
    · rw [hcur'] at hcur
      cases hcur
      rw [htime]
      exact ht'
  rcases @cycle_cases rt env c m hs with ⟨-, h⟩ | ⟨-, hclosed, hat⟩ | ⟨hopen, hcomplete⟩ | ⟨hopen, hbroken⟩
  · rw [h]
    exact hold
  · exact hsaved rfl (hmeets.early hclosed) hat
  · obtain ⟨m₁, done, begun, rest, hevents, -, hm, -, hat⟩ := hcomplete.part
    refine hsaved hm.cursors (timeAfter_le (hstart hopen) fun e he => ?_) hat
    exact hmeets.events hopen e (by rw [hevents]; exact List.mem_append_left _ he)
  · obtain ⟨m₁, done, begun, rest, hevents, -, hm, -, hat⟩ := hbroken.part
    refine hsaved hm.cursors (timeAfter_le (hstart hopen) fun e he => ?_) hat
    exact hmeets.events hopen e (by rw [hevents]; exact List.mem_append_left _ he)

theorem windowStart_runCycle {t : ℤ} (hrun : c.request = .runCycle) (hold : CursorWithin t m)
    (hmeets : MeetsNothingPast env t c m) (hopen : Opens env c) : windowStart env c m ≤ t := by
  cases hcur : m.cursor? with
  | none => exact hmeets.start hopen hcur
  | some cur =>
    have hstart : windowStart env c m = cur.cursorTimestampMs := by
      rw [windowStart, startTimestamp, optionsOf_runCycle hrun, hcur]
      rfl
    rw [hstart]
    exact hold cur hcur

/-- the cycle that registers an event has it in its window -/
theorem cycle_registers {key : String} (hs : m.Sound) (hlists : ListsFrom chain c)
    (hdistinct : Distinct chain) (hchain : FromChain env chain (cycle rt env c m))
    (hold : ¬ m.Registered key) {e : ExternalDepositEvent}
    (he : (cycle rt env c m).event? key = some e) (hreg : e.foxyaRegisteredAt.isSome) :
    Opens env c ∧ windowStart env c m - env.depositMonitorLookbackMs ≤ e.blockTimestampMs := by
  have hnew : ∀ {m₁ : DepositMonitor} {t : ℤ}, Moves rt env c (Discovers rt env c m) m m₁ →
      SavedAt t m₁ (cycle rt env c m) →
      windowStart env c m - env.depositMonitorLookbackMs ≤ e.blockTimestampMs := by
    intro m₁ t hm hat
    have hreg₁ : m₁.Registered key := ⟨e, by rw [← hat.event?]; exact he, hreg⟩
    obtain ⟨d, ⟨ev, hev, a, target, id, -, rfl⟩, hkey⟩ := hm.newly_registered hold hreg₁
    obtain ⟨hmem, hlo⟩ := hlists.window hev
    obtain ⟨ev', hev', a', target', id', hkey', hsame⟩ := hchain key e he
    obtain ⟨-, htx, hidx⟩ := eventKeyOf_injective (hkey.trans hkey')
    have heq : ev = ev' := hdistinct ev hmem ev' hev' htx hidx
    have htime : e.blockTimestampMs = ev'.blockTimestampMs :=
      (congrArg ExternalDepositEvent.blockTimestampMs hsame : e.asDiscovered.blockTimestampMs = _)
    rw [htime, ← heq]
    exact hlo
  have hquiet : ∀ {t : ℤ}, ¬ SavedAt t m (cycle rt env c m) := fun hat =>
    hold ⟨e, by rw [← hat.event?]; exact he, hreg⟩
  rcases @cycle_cases rt env c m hs with ⟨-, h⟩ | ⟨-, -, hat⟩ | ⟨hopen, hcomplete⟩ | ⟨hopen, hbroken⟩
  · rw [h] at he
    exact absurd ⟨e, he, hreg⟩ hold
  · exact absurd hat hquiet
  · obtain ⟨m₁, _, _, _, -, -, hm, -, hat⟩ := hcomplete.part
    exact ⟨hopen, hnew hm hat⟩
  · obtain ⟨m₁, _, _, _, -, -, hm, -, hat⟩ := hbroken.part
    exact ⟨hopen, hnew hm hat⟩

/-- **A waiting event stays in the window as long as nothing much newer was met.**  From the cycle
`c` on that registers an event, as long as the cycles meet no time more than the lookback later
than the event's, the event is not before the start of the next window. -/
theorem waiting_in_window (ledger : InMemoryLedger) (before after : List MonitorCycle)
    (hrun : ∀ c' ∈ before ++ c :: after, c'.request = .runCycle) (hdistinct : Distinct chain)
    (hlists : ∀ c' ∈ before ++ c :: after, ListsFrom chain c') {key : String}
    {e : ExternalDepositEvent} (hfirst : ¬ (run rt env before (.new ledger)).Registered key)
    (hregisters : (cycle rt env c (run rt env before (.new ledger))).Registered key)
    (hmeets : Along (cycle rt env)
      (MeetsNothingPast env (e.blockTimestampMs + env.depositMonitorLookbackMs)) (c :: after)
      (run rt env before (.new ledger)))
    (hwaits : (run rt env (before ++ c :: after) (.new ledger)).event? key = some e ∧
      e.foxyaRegisteredAt.isSome ∧ e.foxyaCompletedAt = none) :
    ∀ cur, (run rt env (before ++ c :: after) (.new ledger)).cursor? = some cur →
      cur.cursorTimestampMs - env.depositMonitorLookbackMs ≤ e.blockTimestampMs := by
  set m₀ := run rt env before (.new ledger) with hm₀
  set t := e.blockTimestampMs + env.depositMonitorLookbackMs with ht
  have hs₀ : m₀.Sound := run_sound before (Sound.new ledger)
  have hsplit : run rt env (before ++ c :: after) (.new ledger) =
      runCalls (cycle rt env) after (cycle rt env c m₀) := by
    rw [run, runCalls_append, runCalls_cons]
    rfl
  have hlistsBefore : ∀ c' ∈ before, ReadsOnly chain c' :=
    fun c' h => (hlists c' (List.mem_append_left _ h)).readsOnly
  have hlistsC : ListsFrom chain c := hlists c (List.mem_append_right _ List.mem_cons_self)
  have hchain : FromChain env chain (cycle rt env c m₀) :=
    cycle_fromChain hs₀ hlistsC.readsOnly
      (run_fromChain hlistsBefore (Sound.new ledger) (FromChain.new ledger))
  -- the record the cycle registered is the one that waits now, at its own time
  obtain ⟨r, hr, hreg⟩ := hregisters
  have hlater : ∀ (calls : List MonitorCycle) {m : DepositMonitor} {r : ExternalDepositEvent},
      m.Sound → m.event? key = some r → ∃ r', (runCalls (cycle rt env) calls m).event? key = some r' ∧
        r'.asDiscovered = r.asDiscovered := by
    intro calls
    induction calls with
    | nil => exact fun _ hr => ⟨_, hr, rfl⟩
    | cons c' calls ih =>
      intro m r hs hr
      obtain ⟨r₁, hr₁, hsame₁, -, -⟩ := @cycle_event rt env c' m hs key r hr
      obtain ⟨r₂, hr₂, hsame₂⟩ := ih (cycle_sound hs) hr₁
      exact ⟨r₂, hr₂, hsame₂.trans hsame₁⟩
  obtain ⟨r', hr', hsame⟩ := hlater after (cycle_sound hs₀) hr
  have hwaiting := hwaits.1
  rw [hsplit, hr'] at hwaiting
  cases hwaiting
  have htime : r.blockTimestampMs = e.blockTimestampMs :=
    (ExternalDepositEvent.blockTimestampMs_eq hsame).symm
  obtain ⟨hopen, hlo⟩ := cycle_registers hs₀ hlistsC hdistinct hchain hfirst hr hreg
  have hstart : windowStart env c m₀ ≤ t := by omega
  have hrunC : c.request = .runCycle := hrun c (List.mem_append_right _ List.mem_cons_self)
  have hold : CursorWithin t m₀ := by
    intro cur hcur
    have heq : windowStart env c m₀ = cur.cursorTimestampMs := by
      rw [windowStart, startTimestamp, optionsOf_runCycle hrunC, hcur]
      rfl
    omega
  have hmeetsAfter : Along (cycle rt env) (fun c' m => c'.request = .runCycle ∧
      MeetsNothingPast env t c' m) after (cycle rt env c m₀) :=
    hmeets.2.mono fun c' h m hm =>
      ⟨hrun c' (List.mem_append_right _ (List.mem_cons_of_mem _ h)), hm⟩
  have hend : (runCalls (cycle rt env) after (cycle rt env c m₀)).Sound ∧
      CursorWithin t (runCalls (cycle rt env) after (cycle rt env c m₀)) :=
    run_invariant_along (I := fun m => m.Sound ∧ CursorWithin t m)
      (fun c' m hc h => ⟨cycle_sound h.1, cycle_cursorWithin h.1 h.2
        (windowStart_runCycle hc.1 h.2 hc.2) hc.2⟩) hmeetsAfter
      ⟨cycle_sound hs₀, cycle_cursorWithin hs₀ hold (fun _ => hstart) hmeets.1⟩
  intro cur hcur
  rw [hsplit] at hcur
  have hle := hend.2 cur hcur
  omega

/-- a cycle at which the gate is closed for every wallet -/
def closedCycle (chain : List Trc20TransferEvent) (now : ℤ) : MonitorCycle :=
  { exampleCycle chain now with depositAllowed := fun _ _ => false }

/-- two deposits, four minutes apart -/
def nearDeposits : List Trc20TransferEvent :=
  [exampleTransfer "0xfirstdeposit" 0 1000000 5000000, exampleTransfer "0xseconddeposit" 0 1240000 7000000]

theorem listsFrom_filter {n : Nat} {now : ℤ} :
    ListsFrom chain (closedCycle (chain.take n) now) := by
  intro lo e he
  have hread : readEvents ((closedCycle (chain.take n) now).pages lo) =
      (chain.take n).filter fun e => decide (lo ≤ e.blockTimestampMs) := readEvents_page _
  rw [hread] at he
  obtain ⟨hmem, hlo⟩ := List.mem_filter.mp he
  exact ⟨List.mem_of_mem_take hmem, by simpa using hlo⟩

theorem waiting_in_window_example :
    let m := run .numbered exampleEnv
      [closedCycle (nearDeposits.take 1) 1200000, closedCycle (nearDeposits.take 2) 1300000]
      (.new (.new ⟨10000000, 10000000⟩))
    ∃ e cur, m.event? "mainnet:3:0xfirstdeposit:0" = some e ∧ m.cursor? = some cur ∧
      cur.cursorTimestampMs - exampleEnv.depositMonitorLookbackMs ≤ e.blockTimestampMs := by
  intro m
  have hevent : (m.event? "mainnet:3:0xfirstdeposit:0").isSome = true := by decide +kernel
  have hend : m.cursor?.isSome = true := by decide +kernel
  obtain ⟨e, he⟩ := Option.isSome_iff_exists.mp hevent
  obtain ⟨cur, hcur⟩ := Option.isSome_iff_exists.mp hend
  refine ⟨e, cur, he, hcur, ?_⟩
  have hdata : (m.event? "mainnet:3:0xfirstdeposit:0").map
      (fun e => (e.blockTimestampMs, e.foxyaRegisteredAt.isSome, e.foxyaCompletedAt)) =
      some (1000000, true, none) := by decide +kernel
  rw [he] at hdata
  obtain ⟨htime, hreg, hwait⟩ := by simpa using hdata
  have hdistinct : Distinct nearDeposits := by
    unfold Distinct
    decide +kernel
  have hnone : (run .numbered exampleEnv [] (.new (.new ⟨10000000, 10000000⟩))).event?
      "mainnet:3:0xfirstdeposit:0" = none := by decide +kernel
  have hfirst : ¬ (run .numbered exampleEnv [] (.new (.new ⟨10000000, 10000000⟩))).Registered
      "mainnet:3:0xfirstdeposit:0" := by
    rintro ⟨r, hr, -⟩
    rw [hnone] at hr
    cases hr
  have hsome : ((cycle .numbered exampleEnv (closedCycle (nearDeposits.take 1) 1200000)
      (.new (.new ⟨10000000, 10000000⟩))).event? "mainnet:3:0xfirstdeposit:0").map
      (·.foxyaRegisteredAt.isSome) = some true := by decide +kernel
  obtain ⟨r, hr, hr'⟩ := Option.map_eq_some_iff.mp hsome
  have hcursor : (cycle .numbered exampleEnv (closedCycle (nearDeposits.take 1) 1200000)
      (.new (.new ⟨10000000, 10000000⟩))).cursor? ≠ none := by decide +kernel
  refine waiting_in_window (.new ⟨10000000, 10000000⟩) [] [closedCycle (nearDeposits.take 2) 1300000]
    (c := closedCycle (nearDeposits.take 1) 1200000) ?_ hdistinct ?_ hfirst ⟨r, hr, hr'⟩
    ⟨⟨?_, ?_, ?_⟩, ⟨?_, ?_, ?_⟩, trivial⟩ ⟨he, hreg, hwait⟩ cur hcur
  · intro c hc
    rcases List.mem_pair.mp hc with rfl | rfl <;> rfl
  · intro c hc
    rcases List.mem_pair.mp hc with rfl | rfl
    · exact listsFrom_filter
    · exact listsFrom_filter
  · exact fun h => absurd (by decide) h
  · intro _ _
    rw [htime]
    decide +kernel
  · intro _
    rw [htime]
    decide +kernel
  · exact fun h => absurd (by decide) h
  · exact fun _ h => absurd h hcursor
  · intro _
    rw [htime]
    decide +kernel

/-- The gate is closed for the wallet of the first deposit; a second deposit, a thousand seconds
later, takes the cursor past the lookback: the next window starts after the first deposit, which
is registered and not completed. -/
theorem waiting_left_behind :
    let cycles := [closedCycle (twoDeposits.take 1) 1200000, closedCycle (twoDeposits.take 2) 2100000]
    let m := run .numbered exampleEnv cycles (.new (.new ⟨10000000, 10000000⟩))
    (∀ c ∈ cycles, c.request = .runCycle ∧ Answers c ∧ ListsFrom twoDeposits c) ∧
      Distinct twoDeposits ∧
      (m.event? "mainnet:3:0xfirstdeposit:0").map
        (fun e => (e.blockTimestampMs, e.foxyaRegisteredAt.isSome, e.foxyaCompletedAt)) =
        some (1000000, true, none) ∧
      m.cursor?.map (fun cur => (cur.lastError, cur.cursorTimestampMs - 300000)) =
        some (none, 1700000) := by
  intro cycles m
  refine ⟨?_, by unfold Distinct; decide +kernel, by decide +kernel, by decide +kernel⟩
  intro c hc
  rcases List.mem_pair.mp hc with rfl | rfl
  · exact ⟨rfl, fun _ => rfl, listsFrom_filter⟩
  · exact ⟨rfl, fun _ => rfl, listsFrom_filter⟩

end DepositMonitorService
