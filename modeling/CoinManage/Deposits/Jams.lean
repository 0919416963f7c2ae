import CoinManage.Deposits.Waiting

/-!
# Events that stop a cycle

A cycle all of whose calls are answered stops at an event only when the parser refuses its amount,
or once, when the ledger has written the deposit and its event contract refuses it.  Where the
amounts are parsed, every transaction stops at most one cycle, and a cycle that is not stopped
settles its whole window.

* `cycle_passes`     one cycle passes, or a transaction of the chain gets its deposit;
* `never_jammed`     among more cycles than the chain has events, one passes;
* `zero_jams`        a transfer of nothing to a watched wallet stops every cycle.
-/

namespace DepositMonitorService
open Method DepositMonitor

variable {rt : Runtime} {env : DepositMonitorEnv} {c : MonitorCycle}
  {chain : List Trc20TransferEvent} {m : DepositMonitor}

/-- the parser accepts the amount of every event the cycle may credit -/
def ParsesDue (rt : Runtime) (env : DepositMonitorEnv) (c : MonitorCycle) (m : DepositMonitor) : Prop :=
  ∀ d, MayCredit env c (Discovers rt env c m) m d → Parses d

/-- the cycle returns, with every event of its window settled -/
def Passes (rt : Runtime) (env : DepositMonitorEnv) (c : MonitorCycle) (m : DepositMonitor) : Prop :=
  (∃ r, (runCycleInternal rt env c m).1 = .ok r) ∧
    AllSettled rt env c (windowEvents env c m) (cycle rt env c m)

/-- a transaction of the chain gets its deposit in the cycle -/
def Deposits (rt : Runtime) (env : DepositMonitorEnv) (chain : List Trc20TransferEvent)
    (c : MonitorCycle) (m : DepositMonitor) : Prop :=
  ∃ e ∈ chain, ¬ HasDeposit m e.txHash ∧ HasDeposit (cycle rt env c m) e.txHash

theorem SavedAt.settled {t : ℤ} {m m' : DepositMonitor} (hat : SavedAt t m m')
    {events : List Trc20TransferEvent} (h : AllSettled rt env c events m) :
    AllSettled rt env c events m' := by
  intro e he a target hmatch
  obtain ⟨r, hr, hrest⟩ := h e he a target hmatch
  exact ⟨r, by rw [hat.event?, hr], hrest⟩

theorem opens_of_answers (hactive : ¬ Idle env) (hans : Answers c) : Opens env c := by
  rw [Idle, not_or] at hactive
  exact ⟨by simpa using hactive.1, by simpa using hactive.2, hans 0, hans 1, hans 2⟩

/-- where a cycle stops, the event is one it may credit -/
theorem stopped_mayCredit {m₁ : DepositMonitor} (hm : Moves rt env c (Discovers rt env c m) m m₁)
    {e : Trc20TransferEvent} (he : e ∈ windowEvents env c m) {a : String} {target : DepositWatchAddress}
    (hmatch : Matches rt env c e a target) {r : ExternalDepositEvent}
    (hs : m₁.Sound) (hr : m₁.event? (eventKeyOf env e target) = some r) (hlets : Lets env c r)
    (hdue : r.foxyaCompletedAt = none) :
    MayCredit env c (Discovers rt env c m) m r.asDiscovered := by
  have hkey : r.eventKey = eventKeyOf env e target := hs.keyed hr
  have hadm : Discovers rt env c m (discovered env "" a e target) := ⟨e, he, a, target, "", hmatch, rfl⟩
  have hkey' : r.asDiscovered.eventKey = eventKeyOf env e target := hkey
  refine ⟨⟨⟨_, hadm, hkey.symm⟩, ?_⟩, hlets.same rfl, fun hcomp => ?_⟩
  · rw [hkey']
    rcases hm.from hr with ⟨r₀, hr₀, hsame⟩ | ⟨hnone, d, hd, -, hsame⟩
    · exact Or.inl ⟨r₀, hr₀, hsame.symm⟩
    · exact Or.inr ⟨hnone, hsame ▸ hd⟩
  · obtain ⟨r₁, hr₁, hcomp₁⟩ := hm.completed hcomp
    rw [hkey', hr] at hr₁
    cases hr₁
    rw [hdue] at hcomp₁
    cases hcomp₁

/-- a record has the transaction of its event -/
theorem FromChain.txHash (h : FromChain env chain m) {e : Trc20TransferEvent}
    {target : DepositWatchAddress} {r : ExternalDepositEvent}
    (hr : m.event? (eventKeyOf env e target) = some r) : r.txHash = e.txHash := by
  obtain ⟨e', -, a, target', id, hkey, hsame⟩ := h _ _ hr
  have htx : r.asDiscovered.txHash = e'.txHash := congrArg ExternalDepositEvent.txHash hsame
  exact htx.trans (eventKeyOf_injective hkey).2.1.symm

/-- **One cycle.**  Its calls are answered and the amounts it may credit are parsed: it passes, or it
is stopped by the ledger and a transaction has got its deposit. -/
theorem cycle_passes (hs : m.Sound) (hactive : ¬ Idle env) (hans : Answers c)
    (hreads : ReadsOnly chain c) (hchain : FromChain env chain m) (hparse : ParsesDue rt env c m) :
    Passes rt env c m ∨ Deposits rt env chain c m := by
  have hopen : Opens env c := opens_of_answers hactive hans
  have hends := @runCycleInternal_ends rt env c m hs
  have hfrom : FromChain env chain (cycle rt env c m) := cycle_fromChain hs hreads hchain
  rw [Ends] at hends
  rw [Passes, Deposits]
  rw [cycle] at hfrom ⊢
  rcases hr : runCycleInternal rt env c m with ⟨e | r, m'⟩
  · rw [hr] at hends hfrom
    rcases hends with ⟨-, hclosed, -⟩ | ⟨-, hnot, -⟩ | ⟨-, m₁, done, begun, rest, hevents, -, hm, -, hat, hstop⟩
    · exact absurd hopen hclosed
    · exact absurd hans hnot
    obtain ⟨e, hbegun, a, target, hmatch, r, hr, hlets, hdue, hstopped⟩ := hstop hans
    have he : e ∈ windowEvents env c m := by
      rw [hevents, hbegun]
      exact List.mem_append_left _ (List.mem_append_right _ List.mem_cons_self)
    have hmay := stopped_mayCredit hm he hmatch (hm.sound hs) hr hlets hdue
    have htx : r.txHash = e.txHash := hfrom.txHash (by rw [hat.event?]; exact hr)
    rcases hstopped with hbad | ⟨hno, hhas⟩
    · exact absurd (hparse _ hmay) hbad
    · refine Or.inr ⟨e, hreads _ e he, ?_, ?_⟩
      · rw [← htx]
        exact hno
      · show (m'.ledger.depositsByTxHash.get? e.txHash).isSome
        rw [← htx, hat.ledger]
        exact hhas
  · rw [hr] at hends
    rcases hends with ⟨hidle, -⟩ | ⟨-, ⟨m₁, -, hsettled, hat⟩, -⟩
    · exact absurd hidle hactive
    · exact Or.inl ⟨⟨r, rfl⟩, hat.settled hsettled⟩

/-! ## how often cycles are stopped -/

instance (m : DepositMonitor) (hash : String) : Decidable (HasDeposit m hash) :=
  inferInstanceAs (Decidable (_ = true))

/-- the transactions of the chain without a deposit -/
def undeposited (chain : List Trc20TransferEvent) (m : DepositMonitor) : Finset String :=
  (chain.map (·.txHash)).toFinset.filter fun hash => ¬ HasDeposit m hash

theorem cycle_hasDeposit (hs : m.Sound) {hash : String} (h : HasDeposit m hash) :
    HasDeposit (cycle rt env c m) hash := by
  obtain ⟨m₁, t, hm, hat⟩ := @cycle_moves rt env c m hs
  have h₁ : HasDeposit m₁ hash := h.moves hm
  rw [HasDeposit, hat.ledger]
  exact h₁

theorem undeposited_lt (hs : m.Sound) (h : Deposits rt env chain c m) :
    (undeposited chain (cycle rt env c m)).card < (undeposited chain m).card := by
  obtain ⟨e, he, hno, hhas⟩ := h
  have hmem : e.txHash ∈ (chain.map (·.txHash)).toFinset :=
    List.mem_toFinset.mpr (List.mem_map.mpr ⟨e, he, rfl⟩)
  apply Finset.card_lt_card
  rw [Finset.ssubset_iff_of_subset]
  · exact ⟨e.txHash, Finset.mem_filter.mpr ⟨hmem, hno⟩, fun hin => (Finset.mem_filter.mp hin).2 hhas⟩
  · intro hash hin
    obtain ⟨hhash, hnone⟩ := Finset.mem_filter.mp hin
    exact Finset.mem_filter.mpr ⟨hhash, fun hold => hnone (cycle_hasDeposit hs hold)⟩

theorem undeposited_le (chain : List Trc20TransferEvent) (m : DepositMonitor) :
    (undeposited chain m).card ≤ chain.length := by
  have hsub : (undeposited chain m).card ≤ (chain.map (·.txHash)).toFinset.card :=
    Finset.card_le_card (Finset.filter_subset _ _)
  have hlen := List.toFinset_card_le (chain.map (·.txHash))
  rw [List.length_map] at hlen
  omega

/-- among more cycles than there are transactions without a deposit, one passes -/
theorem passes_within (hactive : ¬ Idle env) (cycles : List MonitorCycle) :
    ∀ {m : DepositMonitor}, m.Sound → FromChain env chain m → (∀ c ∈ cycles, Answers c ∧ ReadsOnly chain c) →
      Along (cycle rt env) (ParsesDue rt env) cycles m → (undeposited chain m).card < cycles.length →
      ∃ first c rest, cycles = first ++ c :: rest ∧ Passes rt env c (run rt env first m) := by
  induction cycles with
  | nil => exact fun _ _ _ _ hlen => absurd hlen (Nat.not_lt_zero _)
  | cons c cycles ih =>
    intro m hs hchain hcycles hparse hlen
    obtain ⟨hans, hreads⟩ := hcycles c List.mem_cons_self
    rcases cycle_passes hs hactive hans hreads hchain hparse.1 with hpass | hdeposit
    · exact ⟨[], c, cycles, rfl, hpass⟩
    · have hless := undeposited_lt hs hdeposit
      have hlen' : (undeposited chain (cycle rt env c m)).card < cycles.length := by
        rw [List.length_cons] at hlen
        omega
      obtain ⟨first, c', rest, heq, hpass⟩ := ih (cycle_sound hs) (cycle_fromChain hs hreads hchain)
        (fun c' hc' => hcycles c' (List.mem_cons_of_mem _ hc')) hparse.2 hlen'
      exact ⟨c :: first, c', rest, by rw [heq]; rfl, hpass⟩

/-- **No event jams the monitor.**  After any cycles at all, when the calls are answered and the
parser accepts the amounts the cycles may credit: a cycle that does not pass has given a transaction
of the chain its deposit, so it is not stopped there again, and among more cycles than the chain has
events one passes. -/
theorem never_jammed (ledger : InMemoryLedger) (before after : List MonitorCycle)
    (hactive : ¬ Idle env) (hreads : ∀ c ∈ before ++ after, ReadsOnly chain c)
    (hans : ∀ c ∈ after, Answers c)
    (hparse : Along (cycle rt env) (ParsesDue rt env) after (run rt env before (.new ledger))) :
    (∀ first c rest, after = first ++ c :: rest →
      Passes rt env c (run rt env (before ++ first) (.new ledger)) ∨
        Deposits rt env chain c (run rt env (before ++ first) (.new ledger))) ∧
    (chain.length < after.length → ∃ first c rest, after = first ++ c :: rest ∧
      Passes rt env c (run rt env (before ++ first) (.new ledger))) := by
  have happend : ∀ first, run rt env (before ++ first) (.new ledger) =
      run rt env first (run rt env before (.new ledger)) := fun first => runCalls_append _ _ _ _
  have hs₀ : (run rt env before (.new ledger)).Sound := run_sound before (Sound.new ledger)
  have hchain₀ : FromChain env chain (run rt env before (.new ledger)) :=
    run_fromChain (fun c hc => hreads c (List.mem_append_left _ hc)) (Sound.new ledger)
      (FromChain.new ledger)
  have hafter : ∀ c ∈ after, Answers c ∧ ReadsOnly chain c := fun c hc =>
    ⟨hans c hc, hreads c (List.mem_append_right _ hc)⟩
  refine ⟨fun first c rest hsplit => ?_, fun hlen => ?_⟩
  · rw [happend]
    subst hsplit
    obtain ⟨hans', hreads'⟩ := hafter c (List.mem_append_right _ List.mem_cons_self)
    refine cycle_passes (run_sound first hs₀) hactive hans' hreads' (run_fromChain (fun c' hc' => ?_) hs₀ hchain₀) ?_
    · exact (hafter c' (List.mem_append_left _ hc')).2
    · exact hparse.holds
  · obtain ⟨first, c, rest, hsplit, hpass⟩ := passes_within hactive after hs₀ hchain₀ hafter hparse
      (lt_of_le_of_lt (undeposited_le chain _) hlen)
    exact ⟨first, c, rest, hsplit, by rw [happend]; exact hpass⟩

/-- what a cycle may credit is an event of the chain -/
theorem mayCredit_fromChain (hreads : ReadsOnly chain c) (hchain : FromChain env chain m)
    {d : ExternalDepositEvent} (h : MayCredit env c (Discovers rt env c m) m d) :
    ∃ e ∈ chain, ∃ toAddress target id, d = discovered env id toAddress e target := by
  obtain ⟨⟨-, ⟨r, hr, rfl⟩ | ⟨-, e, he, a, target, id, -, rfl⟩⟩, -, -⟩ := h
  · obtain ⟨e, he, a, target, id, -, hsame⟩ := hchain _ r hr
    exact ⟨e, he, a, target, id, hsame⟩
  · exact ⟨e, hreads _ e he, a, target, id, rfl⟩

/-- positive amounts below 2^33 units are parsed in every run -/
theorem along_parsesDue (hsmall : ∀ e ∈ chain, 0 < e.amountRaw.units ∧ e.amountRaw.units < 2 ^ 33)
    (cycles : List MonitorCycle) : ∀ {m : DepositMonitor}, m.Sound → FromChain env chain m →
      (∀ c ∈ cycles, ReadsOnly chain c) → Along (cycle rt env) (ParsesDue rt env) cycles m := by
  induction cycles with
  | nil => exact fun _ _ _ => trivial
  | cons c cycles ih =>
    intro m hs hchain hreads
    have hreadsC : ReadsOnly chain c := hreads c List.mem_cons_self
    refine ⟨fun d hd => ?_, ih (cycle_sound hs) (cycle_fromChain hs hreadsC hchain) fun c' hc' =>
      hreads c' (List.mem_cons_of_mem _ hc')⟩
    obtain ⟨e, he, a, target, id, rfl⟩ := mayCredit_fromChain hreadsC hchain hd
    obtain ⟨hpos, hlt⟩ := hsmall e he
    exact ⟨_, parseKoriAmount_raw hpos hlt⟩

theorem readsOnly_example {now : ℤ} : ReadsOnly chain (exampleCycle chain now) := by
  intro lo e he
  have hread : readEvents ((exampleCycle chain now).pages lo) =
      chain.filter fun e => decide (lo ≤ e.blockTimestampMs) := readEvents_page _
  rw [hread] at he
  exact List.mem_of_mem_filter he

theorem never_jammed_example :
    ∃ first c rest, List.replicate 2 (exampleCycle (twoDeposits.take 1) 1200000) = first ++ c :: rest ∧
      Passes .numbered exampleEnv c
        (run .numbered exampleEnv ([] ++ first) (.new (.new ⟨10000000, 10000000⟩))) := by
  have hcycles : ∀ c ∈ List.replicate 2 (exampleCycle (twoDeposits.take 1) 1200000),
      ReadsOnly (twoDeposits.take 1) c := fun c hc => by
    rw [List.eq_of_mem_replicate hc]
    exact readsOnly_example
  have hsmall : ∀ e ∈ twoDeposits.take 1, 0 < e.amountRaw.units ∧ e.amountRaw.units < 2 ^ 33 := by
    intro e he
    obtain rfl : e = exampleTransfer "0xfirstdeposit" 0 1000000 5000000 := by simpa [twoDeposits] using he
    show 0 < (RawAmount.ofNat 5000000).units ∧ (RawAmount.ofNat 5000000).units < 2 ^ 33
    rw [RawAmount.units_ofNat]
    omega
  refine (@never_jammed .numbered exampleEnv (twoDeposits.take 1) (.new ⟨10000000, 10000000⟩) []
    (List.replicate 2 (exampleCycle (twoDeposits.take 1) 1200000)) (by unfold Idle; decide) hcycles
    (fun c hc => ?_) ?_).2 (by decide)
  · rw [List.eq_of_mem_replicate hc]
    exact fun _ => rfl
  · exact along_parsesDue hsmall _ (Sound.new _) (FromChain.new _) hcycles

/-! ## an amount that is refused -/

/-- what was asked for and what is completed has been parsed -/
structure Parsed (m : DepositMonitor) : Prop where
  asked : ∀ a ∈ m.applications, Parses a
  completed : ∀ key e, m.event? key = some e → e.foxyaCompletedAt.isSome → Parses e

theorem Parses.same {e e' : ExternalDepositEvent} (h : Parses e)
    (hsame : e.asDiscovered = e'.asDiscovered) : Parses e' := by
  rw [Parses, ← ExternalDepositEvent.amountDecimal_eq hsame]
  exact h

theorem Parsed.withEvent (h : Parsed m) {key : String} {r : ExternalDepositEvent}
    (hr : r.foxyaCompletedAt.isSome → Parses r) : Parsed (m.withEvent key r) := by
  refine ⟨h.asked, fun k e he hcomp => ?_⟩
  by_cases hk : key = k
  · subst hk
    rw [event?_withEvent_self] at he
    cases he
    exact hr hcomp
  · rw [event?_withEvent_of_ne hk] at he
    exact h.completed k e he hcomp

theorem Parsed.move {m' : DepositMonitor} {D : ExternalDepositEvent → Prop} (h : Parsed m)
    (hm : Move rt env c D m m') : Parsed m' := by
  cases hm with
  | drawn => exact ⟨h.asked, h.completed⟩
  | @discovered e new first admitted =>
    refine h.withEvent fun hcomp => ?_
    rw [← first] at hcomp
    cases hcomp
  | @registered key e found first admitted at_ =>
    refine h.withEvent fun hcomp => ?_
    exact (h.completed key e found hcomp).same (by rfl)
  | @applied r e found same due admitted lets amount parsed input user hash units =>
    refine ⟨fun a ha => ?_, h.completed⟩
    rcases List.mem_append.mp ha with ha | ha
    · exact h.asked a ha
    · rw [List.mem_singleton.mp ha]
      exact ⟨amount, parsed⟩
  | settled depositId => exact ⟨h.asked, h.completed⟩
  | @completed r e found same registered applied at_ =>
    refine h.withEvent fun _ => ?_
    exact (h.asked e applied).same same.symm

theorem Parsed.moves {m' : DepositMonitor} {D : ExternalDepositEvent → Prop} (h : Parsed m)
    (hm : Moves rt env c D m m') : Parsed m' :=
  hm.invariant (fun hmove hp => hp.move hmove) h

theorem Parsed.saved {t : ℤ} {m' : DepositMonitor} (h : Parsed m) (hat : SavedAt t m m') : Parsed m' := by
  refine ⟨fun a ha => ?_, fun key e he => ?_⟩
  · rw [hat.applications] at ha
    exact h.asked a ha
  · rw [hat.event?] at he
    exact h.completed key e he

theorem Parsed.cycle (h : Parsed m) (hs : m.Sound) : Parsed (cycle rt env c m) := by
  obtain ⟨m₁, t, hm, hat⟩ := @cycle_moves rt env c m hs
  exact (h.moves hm).saved hat

theorem Parsed.new (ledger : InMemoryLedger) : Parsed (.new ledger) :=
  ⟨fun _ ha => (by cases ha), fun _ _ he => (by cases he)⟩

/-- the amount of the event is refused -/
def Refused (e : Trc20TransferEvent) : Prop :=
  ∀ amount, parseKoriAmount (toNumber (formatRawAmount e.amountRaw)) ≠ .ok amount

/-- the event pays a watched wallet, is confirmed, let by the gate, and its amount is refused -/
structure Jamming (rt : Runtime) (env : DepositMonitorEnv) (c : MonitorCycle) (e : Trc20TransferEvent) :
    Prop where
  paid : ∃ toAddress target, Matches rt env c e toAddress target
  confirmed : (env.depositMonitorConfirmations : ℤ) ≤ c.currentBlockNumber - e.blockNumber + 1
  gate : ∀ userId walletAddress, c.depositAllowed userId walletAddress = true
  refused : Refused e

/-- an event whose amount is refused is never settled -/
theorem Jamming.unsettled {m₁ : DepositMonitor} {e : Trc20TransferEvent} (h : Jamming rt env c e)
    (hdistinct : Distinct chain) (he : e ∈ chain) (hp : Parsed m₁) (hchain : FromChain env chain m₁)
    {events : List Trc20TransferEvent} (hsettled : AllSettled rt env c events m₁) : e ∉ events := by
  intro hin
  obtain ⟨a, target, hmatch⟩ := h.paid
  obtain ⟨r, hr, -, hcomp⟩ := hsettled e hin a target hmatch
  obtain ⟨e', he', a', target', id, hkey, hsame⟩ := hchain _ r hr
  obtain ⟨-, htx, hidx⟩ := eventKeyOf_injective hkey
  obtain rfl : e = e' := hdistinct e he e' he' htx hidx
  have hblock : r.blockNumber = e.blockNumber :=
    (congrArg ExternalDepositEvent.blockNumber hsame : r.asDiscovered.blockNumber = _)
  have hdecimal : r.amountDecimal = formatRawAmount e.amountRaw :=
    (congrArg ExternalDepositEvent.amountDecimal hsame : r.asDiscovered.amountDecimal = _)
  have hlets : Lets env c r := ⟨by rw [hblock]; exact h.confirmed, h.gate _ _⟩
  obtain ⟨amount, hamount⟩ := hp.completed _ r hr (hcomp hlets)
  rw [hdecimal] at hamount
  exact h.refused amount hamount

/-- **A refused amount stops the cycle**, and the cursor stays at its event when the event is the
first of the window. -/
theorem jammed_cycle (hs : m.Sound) (hp : Parsed m) (hactive : ¬ Idle env) (hans : Answers c)
    (hdistinct : Distinct chain) (hreads : ReadsOnly chain c) (hchain : FromChain env chain m)
    {e : Trc20TransferEvent} (h : Jamming rt env c e) {later : List Trc20TransferEvent}
    (hwindow : windowEvents env c m = e :: later) :
    Throws rt env c m ∧ ∀ t, windowStart env c m ≤ t → e.blockTimestampMs ≤ t → CursorWithin t m →
      CursorWithin t (cycle rt env c m) := by
  have hopen : Opens env c := opens_of_answers hactive hans
  have hmem : e ∈ windowEvents env c m := by
    rw [hwindow]
    exact List.mem_cons_self
  have hunsettled : ∀ {m₁ : DepositMonitor} {events : List Trc20TransferEvent},
      Moves rt env c (Discovers rt env c m) m m₁ → FromChain env chain m₁ →
      AllSettled rt env c events m₁ → e ∉ events := fun hm hfrom hsettled =>
    h.unsettled hdistinct (hreads _ e hmem) (hp.moves hm) hfrom hsettled
  have hfrom : ∀ {m₁ m' : DepositMonitor} {t : ℤ}, SavedAt t m₁ m' → FromChain env chain m' →
      FromChain env chain m₁ := by
    intro m₁ m' t hat hfrom key r hr
    exact hfrom key r (by rw [hat.event?]; exact hr)
  have hends := @runCycleInternal_ends rt env c m hs
  have hfrom' : FromChain env chain (cycle rt env c m) := cycle_fromChain hs hreads hchain
  rw [Ends] at hends
  rw [Throws, cycle] at *
  rcases hr : runCycleInternal rt env c m with ⟨err | r, m'⟩
  · rw [hr] at hends hfrom'
    rcases hends with ⟨-, hclosed, -⟩ | ⟨-, hnot, -⟩ | ⟨-, m₁, done, begun, rest, hevents, hlen, hm, hdone, hat, -⟩
    · exact absurd hopen hclosed
    · exact absurd hans hnot
    refine ⟨⟨err, rfl⟩, fun t hstart htime hold cur hcur => ?_⟩
    -- nothing was settled before the event, so it is the only one that was begun
    have hdone₀ : done = [] := by
      cases done with
      | nil => rfl
      | cons x done =>
        rw [hwindow] at hevents
        have hx : e = x := (List.cons.inj hevents).1
        exact absurd (hx ▸ List.mem_cons_self) (hunsettled hm (hfrom hat hfrom') hdone)
    have hbegun : ∀ x ∈ begun, x = e := by
      intro x hx
      rw [hwindow, hdone₀, List.nil_append] at hevents
      cases begun with
      | nil => cases hx
      | cons y begun =>
        obtain rfl : begun = [] := List.length_eq_zero_iff.mp (by simpa using hlen)
        rw [List.mem_singleton.mp hx]
        exact (List.cons.inj hevents).1.symm
    rcases hat.cursor with hsame | ⟨cur', hcur', hsaved⟩
    · refine hold cur ?_
      rw [← hcur, hsame]
      exact (congrArg (OrderedMap.get? · SCANNER_KEY) hm.cursors).symm
    · rw [hcur'] at hcur
      cases hcur
      rw [hsaved]
      refine timeAfter_le hstart fun x hx => ?_
      rw [hdone₀, List.nil_append] at hx
      rw [hbegun x hx]
      exact htime
  · rw [hr] at hends hfrom'
    rcases hends with ⟨hidle, -⟩ | ⟨-, ⟨m₁, hm, hsettled, hat⟩, -⟩
    · exact absurd hidle hactive
    · exact absurd hmem (hunsettled hm (hfrom hat hfrom') hsettled)

/-- a transfer of nothing to the watched wallet, and a deposit after it -/
def nothingFirst : List Trc20TransferEvent :=
  [exampleTransfer "0xnothingmoved" 0 1000000 0, exampleTransfer "0xseconddeposit" 0 2000000 7000000]

/-- the window of every cycle begins with the transfer of nothing -/
theorem nothingFirst_window {m : DepositMonitor} (hcursor : CursorWithin 1000000 m) :
    windowEvents exampleEnv (exampleCycle nothingFirst 1200000) m =
      exampleTransfer "0xnothingmoved" 0 1000000 0 ::
        [exampleTransfer "0xseconddeposit" 0 2000000 7000000] := by
  have hstart : windowStart exampleEnv (exampleCycle nothingFirst 1200000) m ≤ 1000000 := by
    cases hcur : m.cursor? with
    | none =>
      rw [windowStart, hcur]
      decide
    | some cur =>
      rw [windowStart, hcur]
      exact hcursor cur hcur
  have hlow : minBlockTimestamp exampleEnv
      (windowStart exampleEnv (exampleCycle nothingFirst 1200000) m) ≤ 1000000 := by
    rw [minBlockTimestamp]
    omega
  have hread : windowEvents exampleEnv (exampleCycle nothingFirst 1200000) m = nothingFirst.filter fun e =>
      decide (minBlockTimestamp exampleEnv (windowStart exampleEnv (exampleCycle nothingFirst 1200000) m) ≤
        e.blockTimestampMs) := readEvents_page _
  rw [hread, List.filter_eq_self.mpr]
  · rfl
  · intro e he
    rcases List.mem_pair.mp he with rfl | rfl
    · exact decide_eq_true hlow
    · exact decide_eq_true (hlow.trans (by decide))

/-- Somebody transfers nothing to a watched wallet: however many cycles run, the next one throws, the
cursor stays at that transfer, and the deposit after it is not even recorded. -/
theorem zero_jams :
    let c := exampleCycle nothingFirst 1200000
    (Answers c ∧ ReadsOnly nothingFirst c ∧ Distinct nothingFirst ∧ ¬ Idle exampleEnv) ∧
      (∀ n, Throws .numbered exampleEnv c
          (run .numbered exampleEnv (List.replicate n c) (.new (.new ⟨10000000, 10000000⟩))) ∧
        CursorWithin 1000000
          (run .numbered exampleEnv (List.replicate n c) (.new (.new ⟨10000000, 10000000⟩)))) ∧
      (run .numbered exampleEnv (List.replicate 3 c) (.new (.new ⟨10000000, 10000000⟩))).event?
        "mainnet:3:0xseconddeposit:0" = none := by
  intro c
  have hans : Answers c := fun _ => rfl
  have hreads : ReadsOnly nothingFirst c := readsOnly_example
  have hdistinct : Distinct nothingFirst := by
    unfold Distinct
    decide +kernel
  have hactive : ¬ Idle exampleEnv := by
    unfold Idle
    decide
  have hjam : Jamming .numbered exampleEnv c (exampleTransfer "0xnothingmoved" 0 1000000 0) := by
    refine ⟨⟨"TAliceWallet", exampleWatch, by decide +kernel, by decide +kernel, by decide +kernel⟩,
      by decide, fun _ _ => rfl, fun amount hamount => ?_⟩
    have hzero : (exampleTransfer "0xnothingmoved" 0 1000000 0).amountRaw.units = 0 :=
      RawAmount.units_ofNat 0
    rw [parseKoriAmount_raw_zero hzero] at hamount
    cases hamount
  -- the invariant: the cursor has not passed the transfer
  have hcycle : ∀ m : DepositMonitor, m.Sound → Parsed m → FromChain exampleEnv nothingFirst m →
      CursorWithin 1000000 m → Throws .numbered exampleEnv c m ∧
        CursorWithin 1000000 (cycle .numbered exampleEnv c m) := by
    intro m hs hp hchain hcursor
    have hwindow := nothingFirst_window hcursor
    obtain ⟨hthrows, hstays⟩ := jammed_cycle hs hp hactive hans hdistinct hreads hchain hjam hwindow
    refine ⟨hthrows, hstays 1000000 ?_ (le_refl _) hcursor⟩
    cases hcur : m.cursor? with
    | none =>
      rw [windowStart, hcur]
      decide
    | some cur =>
      rw [windowStart, hcur]
      exact hcursor cur hcur
  have hrun : ∀ n, (run .numbered exampleEnv (List.replicate n c) (.new (.new ⟨10000000, 10000000⟩))).Sound ∧
      Parsed (run .numbered exampleEnv (List.replicate n c) (.new (.new ⟨10000000, 10000000⟩))) ∧
      FromChain exampleEnv nothingFirst
        (run .numbered exampleEnv (List.replicate n c) (.new (.new ⟨10000000, 10000000⟩))) ∧
      CursorWithin 1000000
        (run .numbered exampleEnv (List.replicate n c) (.new (.new ⟨10000000, 10000000⟩))) := by
    intro n
    have hstep : ∀ c' m, c' = c → (m.Sound ∧ Parsed m ∧ FromChain exampleEnv nothingFirst m ∧
        CursorWithin 1000000 m) → (cycle .numbered exampleEnv c' m).Sound ∧
        Parsed (cycle .numbered exampleEnv c' m) ∧
        FromChain exampleEnv nothingFirst (cycle .numbered exampleEnv c' m) ∧
        CursorWithin 1000000 (cycle .numbered exampleEnv c' m) := by
      rintro c' m rfl ⟨hs, hp, hchain, hcursor⟩
      exact ⟨cycle_sound hs, hp.cycle hs, cycle_fromChain hs hreads hchain,
        (hcycle m hs hp hchain hcursor).2⟩
    exact run_invariant hstep (fun c' hc' => List.eq_of_mem_replicate hc')
      ⟨Sound.new _, Parsed.new _, FromChain.new _, fun cur hcur => by cases hcur⟩
  refine ⟨⟨hans, hreads, hdistinct, hactive⟩, fun n => ?_, by decide +kernel⟩
  obtain ⟨hs, hp, hchain, hcursor⟩ := hrun n
  exact ⟨(hcycle _ hs hp hchain hcursor).1, hcursor⟩

end DepositMonitorService
