import CoinManage.Deposits.Moves

/-!
# The loops of a cycle

A turn over a target that returns leaves the event registered, and completed where the cycle lets
it (`SettledBy`).  Where every call is answered, a turn stops only at an event the cycle lets
pass, because the amount is not parsed or because the ledger throws once, after it has written
the deposit (`StoppedAt`).

* `scanTarget_ends`, `scanEvent_ends`   one target, one event of the chain;
* `scanPages_ends`   a scan turns over the events of its pages in order; when it is broken off
                     (`BrokenOff`), a part of them is done and at most one was begun.
-/

set_option linter.unusedSectionVars false

namespace DepositMonitorService
open Method DepositMonitor

variable {rt : Runtime} {env : DepositMonitorEnv} {c : MonitorCycle} {D : ExternalDepositEvent → Prop}

/-! ## calls -/

/-- no call of the cycle fails -/
def Answers (c : MonitorCycle) : Prop := ∀ n, c.outcome n = .answered

def called (s : Scan) : Scan := { s with callsMade := s.callsMade + 1 }

@[simp] theorem called_monitor (s : Scan) : (called s).monitor = s.monitor := rfl
@[simp] theorem called_lastSeen (s : Scan) : (called s).lastSeen = s.lastSeen := rfl
@[simp] theorem called_saved (s : Scan) : (called s).saved = s.saved := rfl

/-- the stores moved, the times of the cursor did not -/
structure Quiet (rt : Runtime) (env : DepositMonitorEnv) (c : MonitorCycle)
    (D : ExternalDepositEvent → Prop) (s s' : Scan) : Prop where
  moves : Moves rt env c D s.monitor s'.monitor
  lastSeen : s'.lastSeen = s.lastSeen
  saved : s'.saved = s.saved

theorem Quiet.refl (s : Scan) : Quiet rt env c D s s := ⟨Moves.refl _, rfl, rfl⟩

theorem Quiet.trans {s₁ s₂ s₃ : Scan} (h : Quiet rt env c D s₁ s₂) (h' : Quiet rt env c D s₂ s₃) : Quiet rt env c D s₁ s₃ :=
  ⟨h.moves.trans h'.moves, h'.lastSeen.trans h.lastSeen, h'.saved.trans h.saved⟩

theorem Quiet.called (s : Scan) : Quiet rt env c D s (called s) := ⟨Moves.refl _, rfl, rfl⟩

/-- A call: from what its work does when it is done, and from nothing having happened when the
call fails.  Where the answer is lost the work is done and the caller sees a failure. -/
theorem ends_calling {α : Type} {m : Body α} {s : Scan} {Q : α → Scan → Prop}
    {E : LedgerError → Scan → Prop}
    (hm : Ends m (called s) (fun a s' => Q a s' ∧ (¬ Answers c → E callFailed s')) E)
    (hr : ¬ Answers c → E callFailed (called s)) : Ends (calling c m) s Q E := by
  have hnot : ∀ {o}, c.outcome s.callsMade = o → o ≠ .answered → ¬ Answers c :=
    fun h hne hall => hne (h.symm.trans (hall _))
  rw [calling, ends_bind, ends_get, ends_bind, ends_modify]
  refine ends_outcome (hm.imp (fun a s' h => ⟨fun _ => h.1, fun ho => h.2 ?_⟩) fun _ _ h => h) ?_
  · exact hnot ho (by decide)
  · exact fun ho => hr (hnot ho (by decide))

theorem ends_calling_pure {α : Type} {a : α} {s : Scan} {Q : α → Scan → Prop}
    {E : LedgerError → Scan → Prop} (hq : Q a (called s)) (he : ¬ Answers c → E callFailed (called s)) :
    Ends (calling c (pure a)) s Q E := ends_calling (ends_pure.mpr ⟨hq, he⟩) he

/-! ## the ledger -/

theorem applyDeposit_ends (input : DepositInput) (l : InMemoryLedger) :
    Ends (InMemoryLedger.applyDeposit rt input) l
      (fun r l' => l' = (InMemoryLedger.applyDeposit rt input l).2 ∧
        l'.depositsByTxHash.get? input.txHash = some r.deposit)
      (fun _ l' => l' = (InMemoryLedger.applyDeposit rt input l).2 ∧
        l.depositsByTxHash.get? input.txHash = none ∧
        (l'.depositsByTxHash.get? input.txHash).isSome) := by
  rw [Ends]
  cases h : l.depositsByTxHash.get? input.txHash with
  | some d =>
    rw [InMemoryLedger.applyDeposit_duplicated rt l h]
    exact ⟨rfl, h⟩
  | none =>
    have hdeposit : (l.deposited rt input).depositsByTxHash.get? input.txHash =
        some (l.depositRecord rt input) := OrderedMap.get?_set_self _ _ _
    rw [InMemoryLedger.applyDeposit_new rt l h]
    cases buildDepositStateChangedContract rt (l.depositChange rt input) with
    | ok contract => exact ⟨rfl, hdeposit⟩
    | error e => exact ⟨rfl, rfl, by rw [hdeposit]; rfl⟩

/-- the ledger completes a deposit that it holds -/
theorem completeDeposit_ends {l : InMemoryLedger} {hash : String} {d : Deposit}
    (h : l.depositsByTxHash.get? hash = some d) :
    Ends (InMemoryLedger.completeDeposit d.depositId) l
      (fun _ l' => l' = (InMemoryLedger.completeDeposit d.depositId l).2) (fun _ _ => False) := by
  have hfound : (l.depositsByTxHash.entries.find? fun entry =>
      entry.2.depositId = d.depositId).isSome := by
    rw [List.find?_isSome]
    exact ⟨(hash, d), (OrderedMap.mem_entries_iff _).mpr h, by simp⟩
  refine ends_of (fun _ _ hm => by rw [hm]) fun e s' hm => ?_
  simp only [InMemoryLedger.completeDeposit, get_bind] at hm
  revert hm hfound
  cases l.depositsByTxHash.entries.find? fun entry => entry.2.depositId = d.depositId with
  | none => exact fun h => by cases h
  | some entry =>
    intro _ hm
    simp only at hm
    split at hm
    · cases (Prod.mk.inj hm).1
    · cases (Prod.mk.inj hm).1

/-! ## one event -/

/-- the record of the event stands in the store, registered -/
def Standing (m : DepositMonitor) (event : ExternalDepositEvent) : Prop :=
  ∃ r, m.event? event.eventKey = some r ∧ r.asDiscovered = event.asDiscovered ∧
    r.foxyaRegisteredAt.isSome ∧ r.foxyaCompletedAt = event.foxyaCompletedAt

/-- the parser accepts the amount of the event -/
def Parses (event : ExternalDepositEvent) : Prop :=
  ∃ amount, parseKoriAmount (toNumber event.amountDecimal) = .ok amount

def HasDeposit (m : DepositMonitor) (hash : String) : Prop :=
  (m.ledger.depositsByTxHash.get? hash).isSome

/-- why a cycle whose calls are answered stops at an event: its amount is not parsed, or the
ledger throws once, after it has written the deposit -/
def Stopped (event : ExternalDepositEvent) (m m' : DepositMonitor) : Prop :=
  ¬ Parses event ∨ (¬ HasDeposit m event.txHash ∧ HasDeposit m' event.txHash)

theorem notDue_eq_true (event : ExternalDepositEvent) :
    notDue env event c.currentBlockNumber = true ↔
      (¬ (env.depositMonitorConfirmations : ℤ) ≤ c.currentBlockNumber - event.blockNumber + 1) ∨
        event.foxyaCompletedAt.isSome = true := by
  rw [notDue, Bool.or_eq_true, decide_eq_true_eq, not_le]

theorem markEventStatus_ends {r : InMemoryDepositMonitorRepository} {key : String}
    {e : ExternalDepositEvent} (h : r.events.get? key = some e)
    (status : ExternalDepositEventStatus) (registeredAt completedAt : Option ℤ) :
    Ends (InMemoryDepositMonitorRepository.markEventStatus key status registeredAt completedAt) r
      (fun _ r' => r' = ⟨r.cursors, r.events.set key
        { e with
          status := status
          foxyaRegisteredAt := registeredAt <|> e.foxyaRegisteredAt
          foxyaCompletedAt := completedAt <|> e.foxyaCompletedAt }⟩) (fun _ _ => False) := by
  rw [InMemoryDepositMonitorRepository.markEventStatus, ends_bind, ends_get]
  simp only [h]
  rfl

/-- crediting asks the ledger and keeps the event in the history -/
theorem applied_ends {event : ExternalDepositEvent} {s : Scan} (hrec : Standing s.monitor event)
    (hadm : ∃ d, D d ∧ d.eventKey = event.eventKey) (hlets : Lets env c event)
    (hdue : event.foxyaCompletedAt = none) {amount : ℤ} (hamount : parseKoriAmount (toNumber event.amountDecimal) = .ok amount) :
    Ends (DepositMonitorService.applyDeposit rt c event amount) s
      (fun applied s' => Quiet rt env c D s s' ∧ s'.monitor.repository = s.monitor.repository ∧
        event ∈ s'.monitor.applications ∧
        s'.monitor.ledger.depositsByTxHash.get? event.txHash = some applied.deposit)
      (fun _ s' => Quiet rt env c D s s' ∧ s'.monitor.repository = s.monitor.repository ∧
        ¬ HasDeposit s.monitor event.txHash ∧ HasDeposit s'.monitor event.txHash) := by
  obtain ⟨r, hr, hsame, -, hcomp⟩ := hrec
  have hmove : ∀ input : DepositInput, input.userId = event.userId → input.txHash = event.txHash →
      input.amount = amount → Moves rt env c D s.monitor
        { s.monitor with
          applications := s.monitor.applications ++ [event]
          ledger := (InMemoryLedger.applyDeposit rt input s.monitor.ledger).2 } :=
    fun input hu hh ha =>
      (Move.applied hr hsame (hcomp.trans hdue) hadm hlets hamount hu hh ha).moves
  rw [DepositMonitorService.applyDeposit, ends_bind, ends_get, ends_bind, ends_modify, onLedger,
    ends_zoom]
  refine (applyDeposit_ends _ _).imp (fun applied l h => ?_) (fun e l h => ?_)
  · obtain ⟨rfl, hd⟩ := h
    exact ⟨⟨hmove _ rfl rfl rfl, rfl, rfl⟩, rfl, List.mem_append_right _ List.mem_cons_self, hd⟩
  · obtain ⟨rfl, hnone, hsome⟩ := h
    refine ⟨⟨hmove _ rfl rfl rfl, rfl, rfl⟩, rfl, ?_, hsome⟩
    rw [HasDeposit, hnone]
    exact Bool.false_ne_true

/-- from the ledger's deposit to the completed record -/
theorem settled_ends {event : ExternalDepositEvent} {s : Scan} {d : Deposit}
    (hrec : Standing s.monitor event) (happ : event ∈ s.monitor.applications)
    (hdep : s.monitor.ledger.depositsByTxHash.get? event.txHash = some d) :
    Ends (do
        let _ ← calling c (onLedger (InMemoryLedger.completeDeposit d.depositId))
        calling c (pure ())
        let s ← get
        let _ ← calling c (onRepository (InMemoryDepositMonitorRepository.markEventStatus
          event.eventKey .completed none (some (c.nowMs s.callsMade))))
        return true : Body Bool) s
      (fun _ s' => Quiet rt env c D s s' ∧ s'.monitor.Completed event.eventKey)
      (fun _ s' => Quiet rt env c D s s' ∧ ¬ Answers c) := by
  obtain ⟨r, hr, hsame, hreg, -⟩ := hrec
  have hquiet := @Quiet.called rt env c D s
  rw [ends_bind]
  refine ends_calling ?_ fun hans => ⟨hquiet, hans⟩
  rw [onLedger, ends_zoom]
  refine (completeDeposit_ends hdep).imp (fun _ l hl => ?_) fun _ _ h => h.elim
  subst hl
  set s₂ : Scan :=
    { called s with
      monitor := s.monitor.withLedger
        (InMemoryLedger.completeDeposit d.depositId s.monitor.ledger).2 } with hs₂
  have hq₂ : Quiet rt env c D s s₂ := ⟨(Move.settled _).moves, rfl, rfl⟩
  refine ⟨?_, fun hans => ⟨hq₂, hans⟩⟩
  rw [ends_bind]
  have hq₃ : Quiet rt env c D s (called s₂) := hq₂.trans (Quiet.called _)
  refine ends_calling_pure ?_ fun hans => ⟨hq₃, hans⟩
  rw [ends_bind, ends_get, ends_bind]
  have hq₄ : Quiet rt env c D s (called (called s₂)) := hq₃.trans (Quiet.called _)
  refine ends_calling ?_ fun hans => ⟨hq₄, hans⟩
  rw [onRepository, ends_zoom]
  refine (markEventStatus_ends hr _ _ _).imp (fun _ rep hrep => ?_) fun _ _ h => h.elim
  subst hrep
  have hfound : s₂.monitor.event? event.eventKey = some r := hr
  have hmark := (@Move.completed rt env c D _ _ _ hfound hsame hreg happ (c.nowMs (called s₂).callsMade)).moves
  have hlast : Quiet rt env c D s
      { called (called s₂) with
        monitor := s₂.monitor.withEvent event.eventKey
          { r with
            status := .completed
            foxyaCompletedAt := some (c.nowMs (called s₂).callsMade) } } :=
    hq₄.trans ⟨hmark, rfl, rfl⟩
  exact ⟨⟨hlast, _, event?_withEvent_self _ _ _, rfl⟩, fun hans => ⟨hlast, hans⟩⟩

/-- An event that is registered: it is completed where the cycle lets it, and what stops the
cycle is a call that fails, an amount that is not parsed or the ledger's one refusal. -/
theorem completeIfEligible_ends {event : ExternalDepositEvent} {s : Scan}
    (hrec : Standing s.monitor event) (hadm : ∃ d, D d ∧ d.eventKey = event.eventKey) :
    Ends (completeIfEligible rt env c event c.currentBlockNumber) s
      (fun _ s' => Quiet rt env c D s s' ∧ (Lets env c event → s'.monitor.Completed event.eventKey) ∧
        (Lets env c event → event.foxyaCompletedAt = none → Parses event))
      (fun _ s' => Quiet rt env c D s s' ∧ (Answers c → Lets env c event ∧ event.foxyaCompletedAt = none ∧
        s'.monitor.repository = s.monitor.repository ∧ Stopped event s.monitor s'.monitor)) := by
  rw [completeIfEligible, ends_ite]
  refine ⟨fun hnot => ?_, fun hdue => ?_⟩
  · -- too few confirmations, or completed before
    rw [ends_pure]
    rcases (notDue_eq_true event).mp hnot with h | h
    · exact ⟨Quiet.refl s, fun hl => absurd hl.1 h, fun hl => absurd hl.1 h⟩
    · obtain ⟨r, hr, -, -, hcomp⟩ := hrec
      exact ⟨Quiet.refl s, fun _ => ⟨r, hr, by rw [hcomp]; exact h⟩, fun _ hnone => by
        rw [hnone] at h
        cases h⟩
  rw [notDue_eq_true, not_or, not_not] at hdue
  obtain ⟨hconf, hopen⟩ := hdue
  have hnone : event.foxyaCompletedAt = none := by simpa using hopen
  have hquiet := @Quiet.called rt env c D s
  rw [ends_bind]
  refine ends_calling_pure ?_ fun hans => ⟨hquiet, fun h => absurd h hans⟩
  rw [ends_ite]
  refine ⟨fun hallowed => ?_, fun hclosed => ?_⟩
  · have hlets : Lets env c event := ⟨hconf, hallowed⟩
    rw [ends_bind, ends_ofExcept]
    refine ⟨fun amount hamount => ?_, fun e he => ?_⟩
    · rw [ends_bind]
      refine ends_calling ((applied_ends (s := called (called s)) hrec hadm hlets hnone hamount).imp
        (fun applied s₁ h₁ => ?_) fun e s₁ h₁ => ?_) fun hans => ?_
      · obtain ⟨hq₁, hrep₁, happ₁, hdep₁⟩ := h₁
        have hq := (hquiet.trans (Quiet.called _)).trans hq₁
        have hrec₁ : Standing s₁.monitor event := by
          obtain ⟨r, hr, h⟩ := hrec
          exact ⟨r, by rw [event?, hrep₁]; exact hr, h⟩
        refine ⟨?_, fun hans => ⟨hq, fun h => absurd h hans⟩⟩
        have hsettled := @settled_ends rt env c D _ _ _ hrec₁ happ₁ hdep₁
        refine hsettled.imp (fun _ s₂ h₂ => ?_) fun _ s₂ h₂ => ?_
        · exact ⟨hq.trans h₂.1, fun _ => h₂.2, fun _ _ => ⟨amount, hamount⟩⟩
        · exact ⟨hq.trans h₂.1, fun h => absurd h h₂.2⟩
      · obtain ⟨hq₁, hrep, hno, hhas⟩ := h₁
        exact ⟨(hquiet.trans (Quiet.called _)).trans hq₁,
          fun _ => ⟨hlets, hnone, hrep, Or.inr ⟨hno, hhas⟩⟩⟩
      · exact ⟨hquiet.trans (Quiet.called _), fun h => absurd h hans⟩
    · exact ⟨hquiet, fun _ => ⟨hlets, hnone, rfl, Or.inl fun ⟨a, ha⟩ => by rw [he] at ha; cases ha⟩⟩
  · -- the gate is closed
    have hquiet₂ := hquiet.trans (Quiet.called (called s))
    rw [ends_bind]
    refine ends_calling_pure ?_ fun hans => ⟨hquiet₂, fun h => absurd h hans⟩
    exact ⟨hquiet₂, fun hl => absurd hl.2 hclosed, fun hl => absurd hl.2 hclosed⟩

theorem recordDiscoveredEvent_ends (r : InMemoryDepositMonitorRepository) (e : ExternalDepositEvent) :
    Ends (InMemoryDepositMonitorRepository.recordDiscoveredEvent e) r
      (fun a r' => (r.events.get? e.eventKey = some a ∧ r' = r) ∨
        (r.events.get? e.eventKey = none ∧ a = e ∧ r' = ⟨r.cursors, r.events.set e.eventKey e⟩))
      (fun _ _ => False) := by
  rw [InMemoryDepositMonitorRepository.recordDiscoveredEvent, ends_bind, ends_get]
  cases h : r.events.get? e.eventKey with
  | none => exact Or.inr ⟨rfl, rfl, rfl⟩
  | some existing => exact Or.inl ⟨rfl, rfl⟩

/-- the event is registered, and completed where the cycle lets it -/
def SettledBy (env : DepositMonitorEnv) (c : MonitorCycle) (m : DepositMonitor) (key : String) : Prop :=
  ∃ r, m.event? key = some r ∧ r.foxyaRegisteredAt.isSome ∧
    (Lets env c r → r.foxyaCompletedAt.isSome)

/-- what stops a cycle whose calls are answered at the event under a key -/
def StoppedAt (env : DepositMonitorEnv) (c : MonitorCycle) (m m' : DepositMonitor) (key : String) :
    Prop :=
  ∃ r, m'.event? key = some r ∧ Lets env c r ∧ r.foxyaCompletedAt = none ∧ Stopped r m m'

/-- the tail of a turn: completing a registered event and counting it -/
theorem completing_ends {event : ExternalDepositEvent} {s : Scan} (hrec : Standing s.monitor event)
    (hadm : ∃ d, D d ∧ d.eventKey = event.eventKey) :
    Ends (do
        if ← completeIfEligible rt env c event c.currentBlockNumber then
          count fun n => { n with completedCount := n.completedCount + 1 } : Body Unit) s
      (fun _ s' => Quiet rt env c D s s' ∧ SettledBy env c s'.monitor event.eventKey)
      (fun _ s' => Quiet rt env c D s s' ∧
        (Answers c → StoppedAt env c s.monitor s'.monitor event.eventKey)) := by
  obtain ⟨r, hr, hsame, hreg, hcomp⟩ := hrec
  rw [ends_bind]
  refine (completeIfEligible_ends ⟨r, hr, hsame, hreg, hcomp⟩ hadm).imp (fun b s' h => ?_)
    fun _ s' h => ?_
  · obtain ⟨hq, hdone, -⟩ := h
    have hsettled : SettledBy env c s'.monitor event.eventKey := by
      obtain ⟨r', hr', hsame', hreg', -⟩ := hq.moves.event hr
      refine ⟨r', hr', hreg' hreg, fun hl => ?_⟩
      obtain ⟨r'', hr'', hcomp''⟩ := hdone (hl.same (hsame'.trans hsame))
      rw [hr'] at hr''
      cases hr''
      exact hcomp''
    rw [ends_ite]
    exact ⟨fun _ => ⟨⟨hq.moves, hq.lastSeen, hq.saved⟩, hsettled⟩, fun _ => ⟨hq, hsettled⟩⟩
  · refine ⟨h.1, fun hans => ?_⟩
    obtain ⟨hl, hnone, hrep, hstop⟩ := h.2 hans
    refine ⟨r, by rw [event?, hrep]; exact hr, hl.same hsame.symm, hcomp.trans hnone, ?_⟩
    rw [Stopped, Parses, ExternalDepositEvent.amountDecimal_eq hsame,
      ExternalDepositEvent.txHash_eq hsame]
    exact hstop

theorem Ends.after {α : Type} {m : Body α} {s₀ s : Scan} {key : String} (hq : Quiet rt env c D s₀ s)
    (hledger : s.monitor.ledger.depositsByTxHash = s₀.monitor.ledger.depositsByTxHash)
    (h : Ends m s (fun _ s' => Quiet rt env c D s s' ∧ SettledBy env c s'.monitor key)
      (fun _ s' => Quiet rt env c D s s' ∧ (Answers c → StoppedAt env c s.monitor s'.monitor key))) :
    Ends m s (fun _ s' => Quiet rt env c D s₀ s' ∧ SettledBy env c s'.monitor key)
      (fun _ s' => Quiet rt env c D s₀ s' ∧ (Answers c → StoppedAt env c s₀.monitor s'.monitor key)) := by
  refine h.imp (fun _ s' h => ⟨hq.trans h.1, h.2⟩) fun _ s' h => ⟨hq.trans h.1, fun hans => ?_⟩
  obtain ⟨r, hr, hl, hnone, hstop⟩ := h.2 hans
  refine ⟨r, hr, hl, hnone, ?_⟩
  rw [Stopped, HasDeposit, ← hledger]
  exact hstop

/-- what a turn does once the record of the event stands -/
theorem turn_ends {event : ExternalDepositEvent} {key : String} {s : Scan}
    (hkey : event.eventKey = key) (hevent : s.monitor.event? key = some event)
    (hD : ∃ d, D d ∧ d.eventKey = key) :
    Ends (if event.foxyaRegisteredAt.isSome then do
        if ← completeIfEligible rt env c event c.currentBlockNumber then
          count fun n => { n with completedCount := n.completedCount + 1 }
      else do
        calling c (pure ())
        let s ← get
        let registeredAt := c.nowMs s.callsMade
        let _ ← calling c (onRepository (InMemoryDepositMonitorRepository.markEventStatus event.eventKey
          .registered (some registeredAt) none))
        count fun n => { n with registeredCount := n.registeredCount + 1 }
        if ← completeIfEligible rt env c { event with foxyaRegisteredAt := some registeredAt }
            c.currentBlockNumber then
          count fun n => { n with completedCount := n.completedCount + 1 } : Body Unit) s
      (fun _ s' => Quiet rt env c D s s' ∧ SettledBy env c s'.monitor key)
      (fun _ s' => Quiet rt env c D s s' ∧ (Answers c → StoppedAt env c s.monitor s'.monitor key)) := by
  subst hkey
  rw [ends_ite]
  refine ⟨fun hreg => completing_ends ⟨event, hevent, rfl, hreg, rfl⟩ hD, fun hunreg => ?_⟩
  have hnone : event.foxyaRegisteredAt = none := by simpa using hunreg
  have hq₁ := @Quiet.called rt env c D s
  rw [ends_bind]
  refine ends_calling_pure ?_ fun hans => ⟨hq₁, fun h => absurd h hans⟩
  rw [ends_bind, ends_get, ends_bind]
  have hq₂ := hq₁.trans (Quiet.called (called s))
  refine ends_calling ?_ fun hans => ⟨hq₂, fun h => absurd h hans⟩
  rw [onRepository, ends_zoom]
  refine (markEventStatus_ends hevent _ _ _).imp (fun _ rep hrep => ?_) fun _ _ h => h.elim
  subst hrep
  have hmove := @Move.registered rt env c D _ _ _ hevent hnone hD (c.nowMs (called s).callsMade)
  set marked : ExternalDepositEvent :=
    { event with status := .registered, foxyaRegisteredAt := some (c.nowMs (called s).callsMade) }
  have hq₃ : Quiet rt env c D s { called (called s) with monitor := s.monitor.withEvent event.eventKey marked } :=
    hq₂.trans ⟨hmove.moves, rfl, rfl⟩
  refine ⟨?_, fun hans => ⟨hq₃, fun h => absurd h hans⟩⟩
  rw [ends_bind, count, ends_modify]
  refine Ends.after (s := { called (called s) with
      monitor := s.monitor.withEvent event.eventKey marked
      counts := _ }) ⟨hq₃.moves, rfl, rfl⟩ rfl
    (completing_ends ⟨marked, event?_withEvent_self _ _ _, rfl, rfl, rfl⟩ hD)

/-- a turn over one target of an event -/
theorem scanTarget_ends {chainEvent : Trc20TransferEvent} {toAddress : String}
    {target : DepositWatchAddress} {s : Scan} (hs : s.monitor.Sound)
    (hD : ∀ id, D (discovered env id toAddress chainEvent target)) :
    Ends (scanTarget rt env c c.currentBlockNumber chainEvent toAddress target) s
      (fun _ s' => Quiet rt env c D s s' ∧ SettledBy env c s'.monitor (eventKeyOf env chainEvent target))
      (fun _ s' => Quiet rt env c D s s' ∧
        (Answers c → StoppedAt env c s.monitor s'.monitor (eventKeyOf env chainEvent target))) := by
  rw [scanTarget, ends_bind, onLedger, ends_zoom]
  set id := rt.uuid s.monitor.ledger.uuidsDrawn with hid
  set s₁ : Scan :=
    { s with
      monitor := s.monitor.withLedger
        { s.monitor.ledger with uuidsDrawn := s.monitor.ledger.uuidsDrawn + 1 } } with hs₁
  show Ends _ s₁ _ _
  have hq₁ : Quiet rt env c D s s₁ := ⟨(Move.drawn _).moves, rfl, rfl⟩
  rw [ends_bind]
  refine ends_calling ?_ fun hans => ⟨hq₁.trans (Quiet.called _), fun h => absurd h hans⟩
  rw [onRepository, ends_zoom]
  refine (recordDiscoveredEvent_ends _ _).imp (fun event rep h => ?_) fun _ _ h => h.elim
  set key := eventKeyOf env chainEvent target with hkey
  have hq₂ : Quiet rt env c D s { called s₁ with monitor := { s₁.monitor with repository := rep } } := by
    rcases h with ⟨hfound, rfl⟩ | ⟨hnew, rfl, rfl⟩
    · exact hq₁.trans (Quiet.called _)
    · have hmove : Move rt env c D s₁.monitor (s₁.monitor.withEvent key
          (discovered env id toAddress chainEvent target)) := Move.discovered hnew rfl (hD id)
      exact hq₁.trans ⟨hmove.moves, rfl, rfl⟩
  have hevent : rep.events.get? key = some event := by
    rcases h with ⟨hfound, rfl⟩ | ⟨hnew, rfl, rfl⟩
    · exact hfound
    · exact OrderedMap.get?_set_self _ _ _
  refine ⟨Ends.after hq₂ rfl (turn_ends ?_ hevent ⟨_, hD id, rfl⟩), fun hans => ⟨hq₂, fun h => absurd h hans⟩⟩
  exact (hq₂.moves.sound hs).keyed hevent

/-! ## progress along moves -/

theorem SettledBy.moves {m m' : DepositMonitor} {key : String} (h : SettledBy env c m key)
    (hm : Moves rt env c D m m') : SettledBy env c m' key := by
  obtain ⟨r, hr, hreg, hcomp⟩ := h
  obtain ⟨r', hr', hsame, hreg', hcomp'⟩ := hm.event hr
  exact ⟨r', hr', hreg' hreg, fun hl => hcomp' (hcomp (hl.same hsame))⟩

theorem SettledBy.registered {m : DepositMonitor} {key : String} (h : SettledBy env c m key) :
    m.Registered key := by
  obtain ⟨r, hr, hreg, -⟩ := h
  exact ⟨r, hr, hreg⟩

theorem hasDeposit_applyDeposit (input : DepositInput) {l : InMemoryLedger} {hash : String}
    (h : (l.depositsByTxHash.get? hash).isSome) :
    (((InMemoryLedger.applyDeposit rt input l).2).depositsByTxHash.get? hash).isSome := by
  cases hd : l.depositsByTxHash.get? input.txHash with
  | some d =>
    rw [InMemoryLedger.applyDeposit_duplicated rt l hd]
    exact h
  | none =>
    have hset : ((l.deposited rt input).depositsByTxHash.get? hash).isSome :=
      OrderedMap.isSome_get?_set h _ _
    rw [InMemoryLedger.applyDeposit_new rt l hd]
    cases buildDepositStateChangedContract rt (l.depositChange rt input) with
    | ok contract => exact hset
    | error e => exact hset

theorem hasDeposit_completeDeposit (depositId : String) {l : InMemoryLedger} {hash : String}
    (h : (l.depositsByTxHash.get? hash).isSome) :
    (((InMemoryLedger.completeDeposit depositId l).2).depositsByTxHash.get? hash).isSome := by
  simp only [InMemoryLedger.completeDeposit, get_bind]
  cases l.depositsByTxHash.entries.find? fun entry => entry.2.depositId = depositId with
  | none => exact h
  | some entry =>
    simp only
    split
    · exact h
    · exact OrderedMap.isSome_get?_set h _ _

theorem HasDeposit.move {m m' : DepositMonitor} {hash : String} (h : HasDeposit m hash)
    (hm : Move rt env c D m m') : HasDeposit m' hash := by
  cases hm with
  | drawn => exact h
  | discovered new first admitted => exact h
  | registered found first admitted at_ => exact h
  | applied found same due admitted lets parsed user hash units => exact hasDeposit_applyDeposit _ h
  | settled depositId => exact hasDeposit_completeDeposit _ h
  | completed found same registered applied at_ => exact h

theorem HasDeposit.moves {m m' : DepositMonitor} {hash : String} (h : HasDeposit m hash)
    (hm : Moves rt env c D m m') : HasDeposit m' hash :=
  hm.invariant (I := fun m => HasDeposit m hash) (fun hmove hd => HasDeposit.move hd hmove) h

theorem StoppedAt.before {m₀ m m' : DepositMonitor} {key : String} (h : StoppedAt env c m m' key)
    (hm : Moves rt env c D m₀ m) : StoppedAt env c m₀ m' key := by
  obtain ⟨r, hr, hl, hnone, hstop⟩ := h
  exact ⟨r, hr, hl, hnone, hstop.imp id fun h => ⟨fun h₀ => h.1 (h₀.moves hm), h.2⟩⟩

/-! ## one event of the chain -/

/-- the event of the chain pays a watched address, and no filter leaves it out -/
structure Matches (rt : Runtime) (env : DepositMonitorEnv) (c : MonitorCycle)
    (chainEvent : Trc20TransferEvent) (toAddress : String) (target : DepositWatchAddress) : Prop where
  admitted : filteredOut env c chainEvent = false
  pays : InMemoryLedger.truthy chainEvent.toAddress = some toAddress
  target : target ∈ targetsOf rt env c toAddress

/-- the times a cursor is given, after one more event -/
def seeing (env : DepositMonitorEnv) (c : MonitorCycle) (seen : LastSeen)
    (chainEvent : Trc20TransferEvent) : LastSeen :=
  if filteredOut env c chainEvent then seen else seen.see chainEvent

/-- how far a cycle has come from `s`: the stores moved, `events` seen -/
structure Seen (rt : Runtime) (env : DepositMonitorEnv) (c : MonitorCycle)
    (D : ExternalDepositEvent → Prop) (events : List Trc20TransferEvent) (s s' : Scan) : Prop where
  moves : Moves rt env c D s.monitor s'.monitor
  lastSeen : s'.lastSeen = events.foldl (seeing env c) s.lastSeen
  saved : s.saved = s.lastSeen → s'.saved = s'.lastSeen

/-- every event of the list that pays a watched address is settled -/
def AllSettled (rt : Runtime) (env : DepositMonitorEnv) (c : MonitorCycle)
    (events : List Trc20TransferEvent) (m : DepositMonitor) : Prop :=
  ∀ chainEvent ∈ events, ∀ toAddress target, Matches rt env c chainEvent toAddress target →
    SettledBy env c m (eventKeyOf env chainEvent target)

/-- the cycle has stopped at an event of the list -/
def StoppedIn (rt : Runtime) (env : DepositMonitorEnv) (c : MonitorCycle)
    (chainEvent : Trc20TransferEvent) (m m' : DepositMonitor) : Prop :=
  ∃ toAddress target, Matches rt env c chainEvent toAddress target ∧
    StoppedAt env c m m' (eventKeyOf env chainEvent target)

theorem scanEvent_ends {chainEvent : Trc20TransferEvent} {s : Scan} (hs : s.monitor.Sound)
    (hD : ∀ toAddress target, Matches rt env c chainEvent toAddress target →
      ∀ id, D (discovered env id toAddress chainEvent target)) :
    Ends (scanEvent rt env c c.currentBlockNumber chainEvent) s
      (fun _ s' => Seen rt env c D [chainEvent] s s' ∧ AllSettled rt env c [chainEvent] s'.monitor)
      (fun _ s' => Seen rt env c D [chainEvent] s s' ∧
        (Answers c → StoppedIn rt env c chainEvent s.monitor s'.monitor)) := by
  -- the turns that do nothing but count
  have hidle : ∀ {s' : Scan}, s'.monitor = s.monitor → s'.lastSeen = seeing env c s.lastSeen chainEvent →
      (s.saved = s.lastSeen → s'.saved = s'.lastSeen) →
      (∀ toAddress target, ¬ Matches rt env c chainEvent toAddress target) →
      Seen rt env c D [chainEvent] s s' ∧ AllSettled rt env c [chainEvent] s'.monitor := by
    intro s' hm hl hsaved hno
    refine ⟨⟨by rw [hm]; exact Moves.refl _, hl, hsaved⟩, fun e he toAddress target hmatch => ?_⟩
    rw [List.mem_singleton.mp he] at hmatch
    exact absurd hmatch (hno _ _)
  rw [scanEvent, ends_ite]
  refine ⟨fun hout => ?_, fun hin => ?_⟩
  · refine hidle rfl ?_ id fun _ _ h => by rw [h.admitted] at hout; cases hout
    rw [seeing, if_pos hout]
  have hin' : filteredOut env c chainEvent = false := by simpa using hin
  have hsee : seeing env c s.lastSeen chainEvent = s.lastSeen.see chainEvent := by
    rw [seeing, hin', if_neg Bool.false_ne_true]
  rw [ends_bind, ends_modify]
  cases hto : InMemoryLedger.truthy chainEvent.toAddress with
  | none =>
    refine hidle rfl hsee.symm (fun _ => rfl) fun _ _ h => ?_
    have hpays := h.pays
    rw [hto] at hpays
    cases hpays
  | some toAddress =>
    simp only
    rw [ends_ite]
    refine ⟨fun hnone => ?_, fun hsome => ?_⟩
    · refine hidle rfl hsee.symm (fun _ => rfl) fun _ _ h => ?_
      have hpays := h.pays
      rw [hto] at hpays
      cases hpays
      have htarget := h.target
      rw [hnone] at htarget
      cases htarget
    · rw [ends_bind, count, ends_modify]
      have hmatch : ∀ target ∈ targetsOf rt env c toAddress,
          Matches rt env c chainEvent toAddress target := fun target h => ⟨hin', hto, h⟩
      -- the targets done are settled; the stores have only moved
      refine (ends_forEach (I := fun done s' => Quiet rt env c D
          { s with
            lastSeen := s.lastSeen.see chainEvent
            saved := s.lastSeen.see chainEvent
            counts := { s.counts with matchedEvents := s.counts.matchedEvents + 1 } } s' ∧
          ∀ target ∈ done, SettledBy env c s'.monitor (eventKeyOf env chainEvent target))
        (E := fun _ s' => Seen rt env c D [chainEvent] s s' ∧
          (Answers c → StoppedIn rt env c chainEvent s.monitor s'.monitor)) ?_
        ⟨Quiet.refl _, fun _ h => by cases h⟩).imp (fun _ s' h => ?_) fun _ _ h => h
      · intro before target rest s₁ hsplit hI
        obtain ⟨hq, hdone⟩ := hI
        have htarget : target ∈ targetsOf rt env c toAddress := by
          rw [hsplit]
          exact List.mem_append_right _ List.mem_cons_self
        have hs₁ : s₁.monitor.Sound := hq.moves.sound hs
        refine (scanTarget_ends hs₁ fun id => hD _ _ (hmatch target htarget) id).imp
          (fun _ s₂ h => ?_) fun _ s₂ h => ?_
        · refine ⟨hq.trans h.1, fun t ht => ?_⟩
          rcases List.mem_append.mp ht with ht | ht
          · exact (hdone t ht).moves h.1.moves
          · rw [List.mem_singleton.mp ht]
            exact h.2
        · have hq' := hq.trans h.1
          refine ⟨⟨hq'.moves, hq'.lastSeen.trans hsee.symm, fun _ => ?_⟩, fun hans => ?_⟩
          · rw [hq'.saved, hq'.lastSeen]
          · exact ⟨toAddress, target, hmatch target htarget, (h.2 hans).before hq.moves⟩
      · obtain ⟨hq, hdone⟩ := h
        refine ⟨⟨hq.moves, hq.lastSeen.trans hsee.symm, fun _ => ?_⟩, ?_⟩
        · rw [hq.saved, hq.lastSeen]
        · intro e he a target hm
          rw [List.mem_singleton.mp he] at hm ⊢
          have hpays := hm.pays
          rw [hto] at hpays
          cases hpays
          exact hdone target hm.target

/-! ## the pages of a scan -/

/-- the events the loop over the pages turns over, when nothing stops it -/
def readEvents : List Trc20TransferPage → List Trc20TransferEvent
  | [] => []
  | page :: pages =>
    if page.events = [] then []
    else if InMemoryLedger.truthy page.nextFingerprint = none then page.events
    else page.events ++ readEvents pages

section
variable {s s₁ s₂ : Scan} {xs ys : List Trc20TransferEvent}

theorem Seen.nil (s : Scan) : Seen rt env c D [] s s := ⟨Moves.refl _, rfl, id⟩

theorem Seen.trans (h : Seen rt env c D xs s s₁) (h' : Seen rt env c D ys s₁ s₂) :
    Seen rt env c D (xs ++ ys) s s₂ where
  moves := h.moves.trans h'.moves
  lastSeen := by rw [h'.lastSeen, h.lastSeen, List.foldl_append]
  saved := fun hs => h'.saved (h.saved hs)

theorem AllSettled.nil (m : DepositMonitor) : AllSettled rt env c [] m := fun _ h => by cases h

theorem AllSettled.moves {m m' : DepositMonitor} (h : AllSettled rt env c xs m)
    (hm : Moves rt env c D m m') : AllSettled rt env c xs m' :=
  fun e he a t hmatch => (h e he a t hmatch).moves hm

theorem AllSettled.append {m : DepositMonitor} (h : AllSettled rt env c xs m)
    (h' : AllSettled rt env c ys m) : AllSettled rt env c (xs ++ ys) m := by
  intro e he a t hmatch
  rcases List.mem_append.mp he with he | he
  · exact h e he a t hmatch
  · exact h' e he a t hmatch

/-- a scan of `events` that was broken off: some are done, and at most one was begun -/
def BrokenOff (rt : Runtime) (env : DepositMonitorEnv) (c : MonitorCycle)
    (D : ExternalDepositEvent → Prop) (events : List Trc20TransferEvent) (s s' : Scan) : Prop :=
  ∃ done begun rest, events = done ++ begun ++ rest ∧ begun.length ≤ 1 ∧
    Seen rt env c D (done ++ begun) s s' ∧ AllSettled rt env c done s'.monitor ∧
    (Answers c → ∃ chainEvent, begun = [chainEvent] ∧
      StoppedIn rt env c chainEvent s.monitor s'.monitor)

theorem BrokenOff.append (h : BrokenOff rt env c D xs s s₁) (more : List Trc20TransferEvent) :
    BrokenOff rt env c D (xs ++ more) s s₁ := by
  obtain ⟨done, begun, rest, heq, h⟩ := h
  exact ⟨done, begun, rest ++ more, by rw [heq, List.append_assoc], h⟩

theorem StoppedIn.before {m₀ m m' : DepositMonitor} {chainEvent : Trc20TransferEvent}
    (h : StoppedIn rt env c chainEvent m m') (hm : Moves rt env c D m₀ m) :
    StoppedIn rt env c chainEvent m₀ m' := by
  obtain ⟨a, t, hmatch, hstop⟩ := h
  exact ⟨a, t, hmatch, hstop.before hm⟩

theorem BrokenOff.after (hseen : Seen rt env c D xs s s₁) (hdone : AllSettled rt env c xs s₁.monitor)
    (h : BrokenOff rt env c D ys s₁ s₂) : BrokenOff rt env c D (xs ++ ys) s s₂ := by
  obtain ⟨done, begun, rest, heq, hlen, hseen', hdone', hstop⟩ := h
  refine ⟨xs ++ done, begun, rest, ?_, hlen, ?_, ?_, fun hans => ?_⟩
  · rw [heq]
    simp only [List.append_assoc]
  · rw [List.append_assoc]
    exact hseen.trans hseen'
  · exact (hdone.moves hseen'.moves).append hdone'
  · obtain ⟨e, he, hs⟩ := hstop hans
    exact ⟨e, he, hs.before hseen.moves⟩

/-- the events of one page -/
theorem scanEvents_ends {events : List Trc20TransferEvent} (hs : s.monitor.Sound)
    (hD : ∀ chainEvent ∈ events, ∀ toAddress target, Matches rt env c chainEvent toAddress target →
      ∀ id, D (discovered env id toAddress chainEvent target)) :
    Ends (forEach (scanEvent rt env c c.currentBlockNumber) events) s
      (fun _ s' => Seen rt env c D events s s' ∧ AllSettled rt env c events s'.monitor)
      (fun _ s' => BrokenOff rt env c D events s s') := by
  refine ends_forEach (I := fun done s' => Seen rt env c D done s s' ∧
    AllSettled rt env c done s'.monitor) ?_ ⟨Seen.nil s, AllSettled.nil _⟩
  intro before chainEvent rest s₁ hsplit hI
  obtain ⟨hseen, hdone⟩ := hI
  have hmem : chainEvent ∈ events := by
    rw [hsplit]
    exact List.mem_append_right _ List.mem_cons_self
  refine (scanEvent_ends (hseen.moves.sound hs) (hD chainEvent hmem)).imp (fun _ s₂ h => ?_)
    fun _ s₂ h => ?_
  · exact ⟨hseen.trans h.1, (hdone.moves h.1.moves).append h.2⟩
  · refine ⟨before, [chainEvent], rest, ?_, le_refl 1, hseen.trans h.1, hdone.moves h.1.moves,
      fun hans => ⟨chainEvent, rfl, (h.2 hans).before hseen.moves⟩⟩
    rw [hsplit, List.append_assoc]
    rfl

/-- a call that was answered or not changes nothing a scan is about -/
theorem seen_called (s : Scan) : Seen rt env c D [] s (called s) := ⟨Moves.refl _, rfl, id⟩

theorem brokenOff_called (s : Scan) (hans : ¬ Answers c) (events : List Trc20TransferEvent) :
    BrokenOff rt env c D events s (called s) :=
  ⟨[], [], events, rfl, Nat.zero_le 1, seen_called s, AllSettled.nil _, fun h => absurd h hans⟩

/-- A scan turns over the events of its pages in order; when it is broken off, a part of them is
done. -/
theorem scanPages_ends (pages : List Trc20TransferPage) : ∀ {s : Scan}, s.monitor.Sound →
    (∀ chainEvent ∈ readEvents pages, ∀ toAddress target,
      Matches rt env c chainEvent toAddress target →
      ∀ id, D (discovered env id toAddress chainEvent target)) →
    Ends (scanPages rt env c c.currentBlockNumber pages) s
      (fun _ s' => Seen rt env c D (readEvents pages) s s' ∧
        AllSettled rt env c (readEvents pages) s'.monitor)
      (fun _ s' => BrokenOff rt env c D (readEvents pages) s s') := by
  induction pages with
  | nil =>
    intro s _ _
    exact ends_calling_pure ⟨seen_called s, AllSettled.nil _⟩ fun hans => brokenOff_called s hans _
  | cons page pages ih =>
    intro s hs hD
    rw [scanPages, ends_bind]
    refine ends_calling_pure ?_ fun hans => brokenOff_called s hans _
    rw [ends_ite]
    refine ⟨fun hempty => ?_, fun hevents => ?_⟩
    · rw [readEvents, if_pos hempty]
      exact ⟨seen_called s, AllSettled.nil _⟩
    rw [ends_bind, count, ends_modify, ends_bind]
    set s₁ : Scan := { called s with
      counts := { (called s).counts with
        scannedEvents := (called s).counts.scannedEvents + page.events.length } } with hs₁
    have hs₁' : s₁.monitor.Sound := hs
    have hstart : Seen rt env c D [] s s₁ := ⟨Moves.refl _, rfl, id⟩
    have hpage : ∀ chainEvent ∈ page.events, ∀ toAddress target,
        Matches rt env c chainEvent toAddress target →
        ∀ id, D (discovered env id toAddress chainEvent target) := fun e he => hD e (by
      rw [readEvents, if_neg hevents]
      split
      · exact he
      · exact List.mem_append_left _ he)
    by_cases hlast : InMemoryLedger.truthy page.nextFingerprint = none
    · simp only [readEvents, if_neg hevents, if_pos hlast]
      refine (scanEvents_ends hs₁' hpage).imp (fun _ s₂ h => ?_) fun _ s₂ h => ?_
      · exact ⟨hstart.trans h.1, h.2⟩
      · exact BrokenOff.after hstart (AllSettled.nil _) h
    · simp only [readEvents, if_neg hevents, if_neg hlast] at hD ⊢
      refine (scanEvents_ends hs₁' hpage).imp (fun _ s₂ h => ?_) fun _ s₂ h => ?_
      · have hseen := hstart.trans h.1
        refine (ih (h.1.moves.sound hs) fun e he => hD e (List.mem_append_right _ he)).imp
          (fun _ s₃ h' => ?_) fun _ s₃ h' => ?_
        · exact ⟨hseen.trans h'.1, (h.2.moves h'.1.moves).append h'.2⟩
        · exact BrokenOff.after hseen h.2 h'
      · exact (BrokenOff.after hstart (AllSettled.nil _) h).append _

end

end DepositMonitorService
