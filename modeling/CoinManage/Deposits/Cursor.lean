import CoinManage.Lib.Watermark
import CoinManage.Deposits.Cycles

/-!
# The cursor never skips unscanned time

The reader lists the transfers of the chain in the order of their times.  Every event to a
watched address from the first window on and before the persisted cursor less the lookback has
been registered, in every run in which no `catch` block saves a time that is past what has been
scanned: one that was entered before the cursor was read, or by a `reconcile`.

* `cycle_covers`       one cycle keeps the part of the chain before the cursor covered;
* `nothing_skipped`    the run;
* `skipped_deposit`    a cycle that fails before it has read the cursor moves it to the clock.
-/

namespace DepositMonitorService
open Method DepositMonitor

variable {rt : Runtime} {env : DepositMonitorEnv} {c : MonitorCycle}

/-- the time `t` is within what has been scanned: it is no later than the persisted cursor, or its
window starts no later than the first one, `w` -/
def NotPast (env : DepositMonitorEnv) (w : ℤ) (m : DepositMonitor) (t : ℤ) : Prop :=
  t - env.depositMonitorLookbackMs ≤ w ∨ ∃ cur, m.cursor? = some cur ∧ t ≤ cur.cursorTimestampMs

def Unfiltered (env : DepositMonitorEnv) (c : MonitorCycle) : Prop :=
  (optionsOf env c).addressFilter = [] ∧ (optionsOf env c).txHashFilter = []

/-- the cycle ends in its `catch` block -/
def Throws (rt : Runtime) (env : DepositMonitorEnv) (c : MonitorCycle) (m : DepositMonitor) : Prop :=
  ∃ e, (runCycleInternal rt env c m).1 = .error e

/-- What a `catch` block may save: before the cursor is read a time within what has been scanned;
in a `reconcile` a window that starts within it and, under its filters, the times of no later
events.  A window that opens without a cursor, since none could be saved, starts within it too. -/
structure CatchSafe (rt : Runtime) (env : DepositMonitorEnv) (w : ℤ) (c : MonitorCycle)
    (m : DepositMonitor) : Prop where
  early : ¬ Opens env c → NotPast env w m (fallbackTimestamp env c)
  unsaved : c.request = .runCycle → Opens env c → m.cursor? = none →
    NotPast env w m (windowStart env c m)
  reconcile : c.request ≠ .runCycle → Opens env c → Throws rt env c m →
    NotPast env w m (windowStart env c m) ∧ (Unfiltered env c ∨
      ∀ chainEvent ∈ windowEvents env c m, filteredOut env c chainEvent = false →
        NotPast env w m chainEvent.blockTimestampMs)

/-! ## what is covered -/

/-- every payment of the event to an address that all the cycles watch is registered -/
def RegisteredFor (rt : Runtime) (env : DepositMonitorEnv) (cycles : List MonitorCycle)
    (m : DepositMonitor) (chainEvent : Trc20TransferEvent) : Prop :=
  ∀ target, (∀ c ∈ cycles, Watches rt env chainEvent target c) →
    m.Registered (eventKeyOf env chainEvent target)

variable {cycles : List MonitorCycle} {chain : List Trc20TransferEvent} {w : ℤ} {m : DepositMonitor}

/-- the chain is covered from `w` on to the persisted cursor less the lookback -/
def Covered (rt : Runtime) (env : DepositMonitorEnv) (cycles : List MonitorCycle)
    (chain : List Trc20TransferEvent) (w : ℤ) (m : DepositMonitor) : Prop :=
  ∀ cur, m.cursor? = some cur →
    CoveredTo Trc20TransferEvent.blockTimestampMs chain w
      (cur.cursorTimestampMs - env.depositMonitorLookbackMs) (RegisteredFor rt env cycles m)

/-- a time within what has been scanned is covered, less the lookback -/
theorem Covered.notPast (h : Covered rt env cycles chain w m) {t : ℤ} (ht : NotPast env w m t) :
    CoveredTo Trc20TransferEvent.blockTimestampMs chain w (t - env.depositMonitorLookbackMs)
      (RegisteredFor rt env cycles m) := by
  rcases ht with ht | ⟨cur, hcur, hle⟩
  · exact coveredTo_start ht
  · exact (h cur hcur).before (by omega)

theorem RegisteredFor.moves {m m' : DepositMonitor} {D : ExternalDepositEvent → Prop}
    {chainEvent : Trc20TransferEvent} (h : RegisteredFor rt env cycles m chainEvent)
    (hm : Moves rt env c D m m') : RegisteredFor rt env cycles m' chainEvent :=
  fun target hwatch => hm.registered (h target hwatch)

theorem SavedAt.registeredFor {t : ℤ} {m m' : DepositMonitor} {chainEvent : Trc20TransferEvent}
    (h : SavedAt t m m') (hr : RegisteredFor rt env cycles m chainEvent) :
    RegisteredFor rt env cycles m' chainEvent := by
  intro target hwatch
  obtain ⟨e, he, hreg⟩ := hr target hwatch
  exact ⟨e, by rw [h.event?, he], hreg⟩

/-- the stores move and a time is saved: covered is what was, and what the time asks for -/
theorem Covered.saved {D : ExternalDepositEvent → Prop} {m₁ m' : DepositMonitor} {t : ℤ}
    (h : Covered rt env cycles chain w m) (hm : Moves rt env c D m m₁) (hat : SavedAt t m₁ m')
    (ht : CoveredTo Trc20TransferEvent.blockTimestampMs chain w (t - env.depositMonitorLookbackMs)
      (RegisteredFor rt env cycles m₁)) : Covered rt env cycles chain w m' := by
  intro cur hcur
  rcases hat.cursor with hsame | ⟨cur', hcur', htime⟩
  · have hold : m.cursor? = some cur := by
      rw [← hcur, hsame]
      exact (congrArg (OrderedMap.get? · SCANNER_KEY) hm.cursors).symm
    exact ((h cur hold).mono fun _ hr => hr.moves hm).mono fun _ hr => hat.registeredFor hr
  · rw [hcur'] at hcur
    cases hcur
    rw [htime]
    exact ht.mono fun _ hr => hat.registeredFor hr

theorem optionsOf_runCycle (h : c.request = .runCycle) : optionsOf env c = ⟨none, [], [], true⟩ := by
  rw [optionsOf, h]

theorem unfiltered_runCycle (h : c.request = .runCycle) : Unfiltered env c := by
  rw [Unfiltered, optionsOf_runCycle h]
  exact ⟨rfl, rfl⟩

theorem Unfiltered.filteredOut (h : Unfiltered env c) (chainEvent : Trc20TransferEvent) :
    filteredOut env c chainEvent = false := by
  rw [DepositMonitorService.filteredOut, h.2]
  rfl

/-- without filters a watched payment matches -/
theorem Unfiltered.matches (h : Unfiltered env c) {chainEvent : Trc20TransferEvent}
    {target : DepositWatchAddress} (hw : Watches rt env chainEvent target c) :
    Matches rt env c chainEvent target.address target where
  admitted := h.filteredOut chainEvent
  pays := hw.pays
  target := by
    rw [targetsOf, watched, h.1, filterAdhocWatchAddresses, if_pos rfl]
    exact List.mem_filter.mpr ⟨hw.listed, by simp⟩

/-- A scan without filters that starts inside the covered part covers up to the time it saves. -/
theorem covered_scan (hsorted : chain.Pairwise fun a b => a.blockTimestampMs ≤ b.blockTimestampMs)
    (hc : c ∈ cycles) (hreads : ReadsFrom chain c) (hunf : Unfiltered env c) (hw : 0 ≤ w)
    {m m₁ : DepositMonitor} {D : ExternalDepositEvent → Prop} (hm : Moves rt env c D m m₁)
    (hstart : CoveredTo Trc20TransferEvent.blockTimestampMs chain w
      (windowStart env c m - env.depositMonitorLookbackMs) (RegisteredFor rt env cycles m))
    {done begun rest : List Trc20TransferEvent} (hevents : windowEvents env c m = done ++ begun ++ rest)
    (hlen : begun.length ≤ 1) (hdone : AllSettled rt env c done m₁) :
    CoveredTo Trc20TransferEvent.blockTimestampMs chain w
      (timeAfter env c m (done ++ begun) - env.depositMonitorLookbackMs)
      (RegisteredFor rt env cycles m₁) := by
  have hstart₁ : CoveredTo Trc20TransferEvent.blockTimestampMs chain w
      (windowStart env c m - env.depositMonitorLookbackMs) (RegisteredFor rt env cycles m₁) :=
    hstart.mono fun _ hr => hr.moves hm
  rcases @foldl_seeing_cases env c (done ++ begun) (opened env c m).lastSeen with
    htime | ⟨y, hy, -, htime⟩
  · rw [timeAfter, htime]
    exact hstart₁
  · -- the time saved is that of an event of the scan
    obtain ⟨n, hn⟩ := hreads
    have hread := hevents
    rw [windowEvents, hn] at hread
    have hlo : CoveredTo Trc20TransferEvent.blockTimestampMs chain w
        (minBlockTimestamp env (windowStart env c m)) (RegisteredFor rt env cycles m₁) := by
      intro x hx hwx hlt
      refine hstart₁ x hx hwx ?_
      rw [minBlockTimestamp] at hlt
      omega
    have hregistered : ∀ x ∈ done, RegisteredFor rt env cycles m₁ x := fun x hx target hwatch =>
      (hdone x hx _ target (hunf.matches (hwatch c hc))).registered
    rw [timeAfter, htime]
    exact (CoveredTo.scan hsorted hread hlen hlo hregistered hy).before (by omega)

/-- a complete scan or a part of one -/
theorem Complete.part {m m' : DepositMonitor} (h : Complete rt env c m m') :
    ∃ m₁ done begun rest, windowEvents env c m = done ++ begun ++ rest ∧ begun.length ≤ 1 ∧
      Moves rt env c (Discovers rt env c m) m m₁ ∧ AllSettled rt env c done m₁ ∧
      SavedAt (timeAfter env c m (done ++ begun)) m₁ m' := by
  obtain ⟨m₁, hm, hsettled, hat⟩ := h
  refine ⟨m₁, windowEvents env c m, [], [], by rw [List.append_nil, List.append_nil], Nat.zero_le 1,
    hm, hsettled, ?_⟩
  rw [List.append_nil]
  exact hat

theorem Broken.part {m m' : DepositMonitor} (h : Broken rt env c m m') :
    ∃ m₁ done begun rest, windowEvents env c m = done ++ begun ++ rest ∧ begun.length ≤ 1 ∧
      Moves rt env c (Discovers rt env c m) m m₁ ∧ AllSettled rt env c done m₁ ∧
      SavedAt (timeAfter env c m (done ++ begun)) m₁ m' := by
  obtain ⟨m₁, done, begun, rest, hevents, hlen, hm, hdone, hat, -⟩ := h
  exact ⟨m₁, done, begun, rest, hevents, hlen, hm, hdone, hat⟩

/-- where a `runCycle` starts is covered, less the lookback -/
theorem Covered.start (h : Covered rt env cycles chain w m) (hrun : c.request = .runCycle)
    (hsafe : m.cursor? = none → NotPast env w m (windowStart env c m)) :
    CoveredTo Trc20TransferEvent.blockTimestampMs chain w
      (windowStart env c m - env.depositMonitorLookbackMs) (RegisteredFor rt env cycles m) := by
  cases hcur : m.cursor? with
  | none => exact h.notPast (hsafe hcur)
  | some cur =>
    have hstart : windowStart env c m = cur.cursorTimestampMs := by
      rw [windowStart, startTimestamp, optionsOf_runCycle hrun, hcur]
      rfl
    rw [hstart]
    exact h cur hcur

/-- one cycle keeps the chain covered up to the cursor -/
theorem cycle_covers (hsorted : chain.Pairwise fun a b => a.blockTimestampMs ≤ b.blockTimestampMs)
    (hc : c ∈ cycles) (hreads : ReadsFrom chain c) (hw : 0 ≤ w) (hs : m.Sound)
    (hsafe : CatchSafe rt env w c m) (h : Covered rt env cycles chain w m) :
    Covered rt env cycles chain w (cycle rt env c m) := by
  -- a scan without filters, whole or in part
  have hscan : Unfiltered env c →
      CoveredTo Trc20TransferEvent.blockTimestampMs chain w
        (windowStart env c m - env.depositMonitorLookbackMs) (RegisteredFor rt env cycles m) →
      ∀ {m'}, (∃ m₁ done begun rest, windowEvents env c m = done ++ begun ++ rest ∧
        begun.length ≤ 1 ∧ Moves rt env c (Discovers rt env c m) m m₁ ∧ AllSettled rt env c done m₁ ∧
        SavedAt (timeAfter env c m (done ++ begun)) m₁ m') → Covered rt env cycles chain w m' := by
    rintro hunf hstart m' ⟨m₁, done, begun, rest, hevents, hlen, hm, hdone, hat⟩
    exact h.saved hm hat (covered_scan hsorted hc hreads hunf hw hm hstart hevents hlen hdone)
  have hends := @runCycleInternal_ends rt env c m hs
  rw [Ends] at hends
  rw [cycle]
  rcases hr : runCycleInternal rt env c m with ⟨e | r, m'⟩
  · rw [hr] at hends
    have hpart : Opens env c → (∃ m₁ done begun rest, windowEvents env c m = done ++ begun ++ rest ∧
        begun.length ≤ 1 ∧ Moves rt env c (Discovers rt env c m) m m₁ ∧ AllSettled rt env c done m₁ ∧
        SavedAt (timeAfter env c m (done ++ begun)) m₁ m') → Covered rt env cycles chain w m' := by
      intro hopen hpart
      by_cases hrun : c.request = .runCycle
      · exact hscan (unfiltered_runCycle hrun) (h.start hrun (hsafe.unsaved hrun hopen)) hpart
      · obtain ⟨hstart, hunf | htimes⟩ := hsafe.reconcile hrun hopen ⟨e, by rw [hr]⟩
        · exact hscan hunf (h.notPast hstart) hpart
        · obtain ⟨m₁, done, begun, rest, hevents, -, hm, -, hat⟩ := hpart
          refine h.saved hm hat ((h.notPast ?_).mono fun _ hreg => hreg.moves hm)
          rcases @foldl_seeing_cases env c (done ++ begun) (opened env c m).lastSeen with
            htime | ⟨y, hy, hin, htime⟩
          · rw [timeAfter, htime]
            exact hstart
          · rw [timeAfter, htime]
            refine htimes y ?_ hin
            rw [hevents]
            exact List.mem_append_left _ hy
    rcases hends with ⟨-, hclosed, hat⟩ | ⟨hopen, -, hcomplete⟩ | ⟨hopen, hbroken⟩
    · exact h.saved (c := c) (D := fun _ => False) (Moves.refl m) hat (h.notPast (hsafe.early hclosed))
    · exact hpart hopen hcomplete.part
    · exact hpart hopen hbroken.part
  · rw [hr] at hends
    rcases hends with ⟨-, hsame⟩ | ⟨hopen, hcomplete, hkept⟩
    · exact hsame ▸ h
    · by_cases hrun : c.request = .runCycle
      · exact hscan (unfiltered_runCycle hrun) (h.start hrun (hsafe.unsaved hrun hopen))
          hcomplete.part
      · -- a `reconcile` that returns leaves the cursor alone
        obtain ⟨m₁, hm, -, hat⟩ := hcomplete
        have hoptions : (optionsOf env c).persistCursor = false := by
          rw [optionsOf]
          cases hq : c.request with
          | runCycle => exact absurd hq hrun
          | reconcile lookbackMs addresses txHashes => rfl
        intro cur hcur
        rw [hkept hoptions] at hcur
        exact ((h cur hcur).mono fun _ hreg => hreg.moves hm).mono fun _ hreg =>
          hat.registeredFor hreg

/-- **No unscanned time is skipped.**  Whatever ran before, once a `runCycle` has opened its window
and no later cycle saves a time past what has been scanned, every event of the chain from that
window on and before the persisted cursor less the lookback is registered for every address that
these cycles watch. -/
theorem nothing_skipped (ledger : InMemoryLedger) (before after : List MonitorCycle)
    (first : MonitorCycle) {chain : List Trc20TransferEvent}
    (hsorted : chain.Pairwise fun a b => a.blockTimestampMs ≤ b.blockTimestampMs)
    (hrun : first.request = .runCycle) (hopen : Opens env first)
    (hreads : ∀ c ∈ first :: after, ReadsFrom chain c)
    (hsafe : Along (cycle rt env)
      (CatchSafe rt env (minBlockTimestamp env (windowStart env first (run rt env before (.new ledger)))))
      after (cycle rt env first (run rt env before (.new ledger)))) :
    ∀ chainEvent ∈ chain, ∀ target, (∀ c ∈ first :: after, Watches rt env chainEvent target c) →
      minBlockTimestamp env (windowStart env first (run rt env before (.new ledger))) ≤
        chainEvent.blockTimestampMs →
      ∀ cur, (run rt env (before ++ first :: after) (.new ledger)).cursor? = some cur →
        chainEvent.blockTimestampMs < cur.cursorTimestampMs - env.depositMonitorLookbackMs →
        (run rt env (before ++ first :: after) (.new ledger)).Registered
          (eventKeyOf env chainEvent target) := by
  set m₀ := run rt env before (.new ledger) with hm₀
  set w := minBlockTimestamp env (windowStart env first m₀) with hw
  have hs₀ : m₀.Sound := run_sound before (Sound.new ledger)
  have hw0 : 0 ≤ w := le_max_left _ _
  have hstart : windowStart env first m₀ - env.depositMonitorLookbackMs ≤ w := le_max_right _ _
  have hcov₀ : Covered rt env (first :: after) chain w m₀ := by
    intro cur hcur
    refine coveredTo_start (le_trans ?_ hstart)
    rw [windowStart, startTimestamp, optionsOf_runCycle hrun, hcur]
    exact le_refl _
  have hsafe₀ : CatchSafe rt env w first m₀ :=
    ⟨fun h => absurd hopen h, fun _ _ _ => Or.inl hstart, fun h => absurd hrun h⟩
  have hfirst : first ∈ first :: after := List.mem_cons_self
  -- the invariant of the run: sound, and covered up to the cursor
  have hrunInv : (runCalls (cycle rt env) after (cycle rt env first m₀)).Sound ∧
      Covered rt env (first :: after) chain w
        (runCalls (cycle rt env) after (cycle rt env first m₀)) := by
    refine run_invariant_along
      (I := fun m => m.Sound ∧ Covered rt env (first :: after) chain w m) (fun c m hc hI => ?_)
      (hsafe.mono fun c hc m h => (⟨List.mem_cons_of_mem _ hc, h⟩ :
        c ∈ first :: after ∧ CatchSafe rt env w c m)) ⟨cycle_sound hs₀, ?_⟩
    · exact ⟨cycle_sound hI.1,
        cycle_covers hsorted hc.1 (hreads c hc.1) hw0 hI.1 hc.2 hI.2⟩
    · exact cycle_covers hsorted hfirst (hreads first hfirst) hw0 hs₀ hsafe₀ hcov₀
  have hsplit : run rt env (before ++ first :: after) (.new ledger) =
      runCalls (cycle rt env) after (cycle rt env first m₀) := by
    rw [run, runCalls_append, runCalls_cons]
    rfl
  intro chainEvent hmem target hwatch hle cur hcur hlt
  rw [hsplit] at hcur ⊢
  exact hrunInv.2 cur hcur chainEvent hmem hle hlt target hwatch

/-- two deposits, a thousand seconds apart -/
def twoDeposits : List Trc20TransferEvent :=
  [exampleTransfer "0xfirstdeposit" 0 1000000 5000000, exampleTransfer "0xseconddeposit" 0 2000000 7000000]

theorem nothing_skipped_example :
    (run .numbered exampleEnv [exampleCycle (twoDeposits.take 1) 1200000, exampleCycle twoDeposits 2100000]
      (.new (.new ⟨10000000, 10000000⟩))).Registered "mainnet:3:0xfirstdeposit:0" := by
  have hsorted : twoDeposits.Pairwise fun a b => a.blockTimestampMs ≤ b.blockTimestampMs := by
    decide +kernel
  have hcursor : (run .numbered exampleEnv
      [exampleCycle (twoDeposits.take 1) 1200000, exampleCycle twoDeposits 2100000]
      (.new (.new ⟨10000000, 10000000⟩))).cursor?.map (·.cursorTimestampMs) = some 2000000 := by
    decide +kernel
  have hsome : (cycle .numbered exampleEnv (exampleCycle (twoDeposits.take 1) 1200000)
      (.new (.new ⟨10000000, 10000000⟩))).cursor? ≠ none := by decide +kernel
  have hwindow : minBlockTimestamp exampleEnv (windowStart exampleEnv
      (exampleCycle (twoDeposits.take 1) 1200000) (.new (.new ⟨10000000, 10000000⟩))) ≤ 1000000 := by
    decide +kernel
  have hwatch : ∀ c ∈ [exampleCycle (twoDeposits.take 1) 1200000, exampleCycle twoDeposits 2100000],
      Watches .numbered exampleEnv (exampleTransfer "0xfirstdeposit" 0 1000000 5000000) exampleWatch c := by
    intro c hc
    rcases List.mem_pair.mp hc with rfl | rfl
    · exact ⟨by decide +kernel, by decide +kernel⟩
    · exact ⟨by decide +kernel, by decide +kernel⟩
  have hreads : ∀ c ∈ [exampleCycle (twoDeposits.take 1) 1200000, exampleCycle twoDeposits 2100000],
      ReadsFrom twoDeposits c := by
    intro c hc
    rcases List.mem_pair.mp hc with rfl | rfl
    · exact readsFrom_take 1 rfl
    · exact readsFrom_take 2 rfl
  obtain ⟨cur, hcur, htime⟩ := Option.map_eq_some_iff.mp hcursor
  refine nothing_skipped (.new ⟨10000000, 10000000⟩) [] [exampleCycle twoDeposits 2100000]
    (exampleCycle (twoDeposits.take 1) 1200000) hsorted rfl (by decide) hreads ⟨⟨?_, ?_, ?_⟩, trivial⟩
    (exampleTransfer "0xfirstdeposit" 0 1000000 5000000) (by decide +kernel) exampleWatch hwatch hwindow
    cur hcur ?_
  · exact fun h => absurd (by decide) h
  · exact fun _ _ h => absurd h hsome
  · exact fun h => absurd rfl h
  · rw [htime]
    decide

/-- a cycle whose first call, for the watched addresses, is refused -/
def refusedCycle (now : ℤ) : MonitorCycle :=
  { exampleCycle [] now with outcome := fun n => if n = 0 then .refused else .answered }

/-- The listing of the addresses fails once, long after the first deposit was scanned: the cursor
jumps to the clock, and the second deposit, within the time of the chain that was never read, is
not registered by any later cycle. -/
theorem skipped_deposit :
    let cycles := [exampleCycle (twoDeposits.take 1) 1200000, refusedCycle 10000000,
      exampleCycle twoDeposits 10000000]
    let m := run .numbered exampleEnv cycles (.new (.new ⟨10000000, 10000000⟩))
    (twoDeposits.Pairwise fun a b => a.blockTimestampMs ≤ b.blockTimestampMs) ∧
      exampleTransfer "0xseconddeposit" 0 2000000 7000000 ∈ twoDeposits ∧
      (∀ c ∈ cycles, ReadsFrom twoDeposits c ∧ Watches .numbered exampleEnv
        (exampleTransfer "0xseconddeposit" 0 2000000 7000000) exampleWatch c) ∧
      minBlockTimestamp exampleEnv (windowStart exampleEnv (exampleCycle (twoDeposits.take 1) 1200000)
        (.new (.new ⟨10000000, 10000000⟩))) ≤ 2000000 ∧
      (m.cursor?.map fun cur => cur.cursorTimestampMs - 300000) = some 9400000 ∧
      ¬ m.Registered "mainnet:3:0xseconddeposit:0" := by
  intro cycles m
  have hnone : m.event? "mainnet:3:0xseconddeposit:0" = none := by decide +kernel
  have hcycles : ∀ c ∈ cycles, ReadsFrom twoDeposits c ∧ Watches .numbered exampleEnv
      (exampleTransfer "0xseconddeposit" 0 2000000 7000000) exampleWatch c := by
    intro c hc
    simp only [cycles, List.mem_cons, List.not_mem_nil, or_false] at hc
    rcases hc with rfl | rfl | rfl
    · exact ⟨readsFrom_take 1 rfl, by decide +kernel, by decide +kernel⟩
    · exact ⟨readsFrom_take 0 rfl, by decide +kernel, by decide +kernel⟩
    · exact ⟨readsFrom_take 2 rfl, by decide +kernel, by decide +kernel⟩
  refine ⟨by decide +kernel, by decide +kernel, hcycles, by decide +kernel, by decide +kernel,
    fun ⟨e, he, _⟩ => ?_⟩
  rw [hnone] at he
  cases he

end DepositMonitorService
