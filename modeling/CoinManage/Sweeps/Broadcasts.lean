import CoinManage.Sweeps.Starvation

/-!
# Transfers of the sweep bot

A transfer cannot be taken back.  What is sent is sent once as long as the calls after a transfer are
answered, and as long as the partner does not report a sweep that the bot has already planned.

* `NoneLost`         what is claimed of a run: one transfer for a deposit, and its hash in the record;
* `Tracked`          the invariant: what has been sent or reported is not open any more;
* `PlanTurn`, `ExecuteTurn`   the turns of the two loops that lose nothing;
* `run_broadcasts`   cycles of such turns lose nothing.
-/

namespace SweepBotService
open Method InMemorySweeps
open ActivationService (Fate deliver)
open Postgres (SweepStatus)

/-! ## transfers and their records -/

/-- no transfer has been sent for the deposit, and the partner has not reported one -/
def Fresh (happened : List Happening) (depositId : String) : Prop :=
  .reported depositId ∉ happened ∧ ∀ t : SentSweep, .sent t ∈ happened → t.depositId ≠ depositId

/-- one transfer for a deposit at most, and none after a report -/
def SentOnce (happened : List Happening) : Prop :=
  ∀ before t after, happened = before ++ .sent t :: after → Fresh before t.depositId

/-- the record of a transfer has its hash, and is failed only if it has been declared so -/
def Recorded (w : BotWorld) (t : SentSweep) : Prop :=
  ∃ sweep, w.ledger.sweepRecords.get? t.sweepId = some sweep ∧ sweep.txHash = some t.txHash ∧
    (sweep.status = .failed → .declared t.sweepId ∈ w.happened)

def NoneLost (w : BotWorld) : Prop := SentOnce w.happened ∧ ∀ t, .sent t ∈ w.happened → Recorded w t

/-- a sweep of the deposit waits to be sent -/
def Open (s : InMemorySweeps) (depositId : String) : Prop :=
  ∃ id sweep, s.sweepRecords.get? id = some sweep ∧ sweep.externalRef = some (depositRef depositId) ∧
    rank sweep.status < 3

structure Tracked (rt : Runtime) (w : BotWorld) : Prop where
  keyed : Keyed rt w.ledger
  single : ∀ depositId, Single w.ledger depositId
  once : SentOnce w.happened
  closed : ∀ depositId, .reported depositId ∈ w.happened → ¬ Open w.ledger depositId
  sent : ∀ t, .sent t ∈ w.happened → ∃ sweep, w.ledger.sweepRecords.get? t.sweepId = some sweep ∧
    sweep.externalRef = some (depositRef t.depositId) ∧ 3 ≤ rank sweep.status ∧ sweep.txHash = some t.txHash ∧
    (sweep.status = .failed → .declared t.sweepId ∈ w.happened)

section
variable {rt : Runtime} {w w' : BotWorld}

theorem Tracked.noneLost (h : Tracked rt w) : NoneLost w := by
  refine ⟨h.once, fun t ht => ?_⟩
  obtain ⟨sweep, hget, -, -, hhash, hfailed⟩ := h.sent t ht
  exact ⟨sweep, hget, hhash, hfailed⟩

/-- a deposit whose sweep waits has no transfer, and has not been reported -/
theorem Tracked.fresh (h : Tracked rt w) {depositId : String} (hopen : Open w.ledger depositId) :
    Fresh w.happened depositId := by
  refine ⟨fun hreported => h.closed depositId hreported hopen, ?_⟩
  rintro t ht rfl
  obtain ⟨id, sweep, hget, href, hrank⟩ := hopen
  obtain ⟨sent, hsent, hsentRef, hsentRank, -⟩ := h.sent t ht
  obtain rfl := h.single t.depositId id t.sweepId sweep sent hget hsent href hsentRef
  obtain rfl := Option.some.inj (hget.symm.trans hsent)
  omega

/-- a list that ends with something else than a transfer -/
theorem SentOnce.concat {happened : List Happening} (h : SentOnce happened) {x : Happening}
    (hx : ∀ t, x = .sent t → Fresh happened t.depositId) : SentOnce (happened ++ [x]) := by
  intro before t after heq
  rcases List.eq_nil_or_concat after with rfl | ⟨after', y, rfl⟩
  · obtain ⟨rfl, hlast⟩ := List.append_inj' heq rfl
    exact hx t (List.cons.inj hlast).1
  · have hsplit : happened ++ [x] = (before ++ .sent t :: after') ++ [y] := by
      rw [heq, List.append_assoc, List.cons_append, List.concat_eq_append]
    exact h before t after' (List.append_inj' hsplit rfl).1

/-- a write of other tables -/
theorem Tracked.frame (h : Tracked rt w) (hrecords : w'.ledger.sweepRecords = w.ledger.sweepRecords)
    (hdrawn : w.ledger.uuidsDrawn ≤ w'.ledger.uuidsDrawn) (hhappened : w'.happened = w.happened) : Tracked rt w' := by
  have hgrows : LedgerGrows rt w.ledger w'.ledger := LedgerGrows.frame hrecords hdrawn
  obtain ⟨hkeyed, hsingle, -⟩ := hgrows h.keyed
  refine ⟨hkeyed, fun depositId => hsingle depositId (h.single depositId), ?_, ?_, ?_⟩
  · rw [hhappened]
    exact h.once
  · rw [hhappened]
    intro depositId hreported hopen
    refine h.closed depositId hreported ?_
    rwa [Open, hrecords] at hopen
  · rw [hhappened, hrecords]
    exact h.sent

/-- a step of a sweep; where it has been sent, its hash stays, and it fails only if it has been declared so -/
theorem Tracked.step (h : Tracked rt w) (sweepId : String) (sources : List SweepStatus) (message : String)
    (f : SweepRecord → SweepRecord) (hid : ∀ sweep, (f sweep).sweepId = sweep.sweepId)
    (href : ∀ sweep, (f sweep).externalRef = sweep.externalRef)
    (hrank : ∀ sweep, sweep.status ∈ sources → rank sweep.status ≤ rank (f sweep).status)
    (hsent : ∀ sweep, w.ledger.sweepRecords.get? sweepId = some sweep → sweep.status ∈ sources →
      3 ≤ rank sweep.status → (f sweep).txHash = sweep.txHash ∧
        ((f sweep).status = .failed → .declared sweepId ∈ w.happened)) :
    Tracked rt (onLedger (stepSweep sweepId sources message f) w).2 := by
  obtain ⟨hkeyed, hsingle, -⟩ :=
    LedgerGrows.step rt (s := w.ledger) sweepId sources message f hid href hrank h.keyed
  rcases stepSweep_cases (s := w.ledger) sweepId sources message f with ⟨e, herror⟩ | ⟨old, hget, hstatus, htaken⟩
  · have hsame : (onLedger (stepSweep sweepId sources message f) w).2 = w := by
      show ({ w with ledger := (stepSweep sweepId sources message f w.ledger).2 } : BotWorld) = w
      rw [herror]
    rw [hsame]
    exact h
  · rw [htaken] at hkeyed hsingle
    have hstate : (onLedger (stepSweep sweepId sources message f) w).2 =
        { w with ledger := { w.ledger with sweepRecords := w.ledger.sweepRecords.set sweepId (f old) } } := by
      show ({ w with ledger := (stepSweep sweepId sources message f w.ledger).2 } : BotWorld) = _
      rw [htaken]
    rw [hstate]
    refine ⟨hkeyed, fun depositId => hsingle depositId (h.single depositId), h.once, ?_, ?_⟩
    · rintro depositId hreported ⟨id, sweep, hget', href', hrank'⟩
      refine h.closed depositId hreported ?_
      have hset : (if sweepId = id then some (f old) else w.ledger.sweepRecords.get? id) = some sweep := by
        rw [← OrderedMap.get?_set]
        exact hget'
      split at hset
      · next heq =>
        obtain rfl := Option.some.inj hset
        have hle := hrank old hstatus
        exact ⟨sweepId, old, hget, (href old).symm.trans href', by omega⟩
      · exact ⟨id, sweep, hset, href', hrank'⟩
    · intro t ht
      obtain ⟨sweep, hget', href', hrank', hhash, hfailed⟩ := h.sent t ht
      by_cases heq : sweepId = t.sweepId
      · rw [← heq] at hget' hfailed ⊢
        obtain rfl := Option.some.inj (hget.symm.trans hget')
        obtain ⟨hsame, hdeclared⟩ := hsent old hget hstatus hrank'
        refine ⟨f old, OrderedMap.get?_set_self _ _ _, (href old).trans href', ?_, hsame.trans hhash, hdeclared⟩
        have hle := hrank old hstatus
        omega
      · exact ⟨sweep, (OrderedMap.get?_set_of_ne _ heq _).trans hget', href', hrank', hhash, hfailed⟩

/-- a new record, of a deposit that has not been reported or with a transfer that is on its way -/
theorem Tracked.added (huuid : Function.Injective rt.uuid) (h : Tracked rt w) (new : SweepRecord)
    (hgrows : LedgerGrows rt w.ledger w'.ledger) (hhappened : w'.happened = w.happened)
    (hget : ∀ id, w'.ledger.sweepRecords.get? id =
      if rt.uuid w.ledger.uuidsDrawn = id then some new else w.ledger.sweepRecords.get? id)
    (hnew : ∀ depositId, new.externalRef = some (depositRef depositId) → rank new.status < 3 →
      .reported depositId ∉ w.happened) : Tracked rt w' := by
  obtain ⟨hkeyed, hsingle, -⟩ := hgrows h.keyed
  refine ⟨hkeyed, fun d => hsingle d (h.single d), ?_, ?_, ?_⟩
  · rw [hhappened]
    exact h.once
  · rw [hhappened]
    rintro d hd ⟨id, sweep, hsweep, href, hrank⟩
    rw [hget] at hsweep
    split at hsweep
    · obtain rfl := Option.some.inj hsweep
      exact hnew d href hrank hd
    · exact h.closed d hd ⟨id, sweep, hsweep, href, hrank⟩
  · rw [hhappened]
    intro t ht
    obtain ⟨sweep, hsweep, hrest⟩ := h.sent t ht
    have hne : rt.uuid w.ledger.uuidsDrawn ≠ t.sweepId := by
      intro heq
      have hfresh := h.keyed.fresh huuid
      rw [heq, hsweep] at hfresh
      cases hfresh
    exact ⟨sweep, by rw [hget, if_neg hne]; exact hsweep, hrest⟩

theorem Tracked.create (huuid : Function.Injective rt.uuid) (h : Tracked rt w) {depositId : String}
    {input : SweepRecordInput} (href : input.externalRef = some (depositRef depositId))
    (hnone : w.ledger.findSweepByExternalRef (depositRef depositId) = none)
    (hreported : .reported depositId ∉ w.happened) : Tracked rt (onLedger (createSweepRecord rt input) w).2 := by
  refine h.added huuid (plannedSweep (rt.uuid w.ledger.uuidsDrawn) input) (ledger_create huuid href hnone) rfl
    (fun id => OrderedMap.get?_set _ _ _ _) ?_
  intro d hd _
  have hsame : d = depositId := depositRef_injective (Option.some.inj (hd.symm.trans href))
  rw [hsame]
  exact hreported

/-- the world after a sweep the partner has submitted is imported -/
def imported (rt : Runtime) (input : SweepRecordInput) (txHash : String) (note : Option String) (nowIso : String)
    (w : BotWorld) : BotWorld :=
  (onLedger (markSweepBroadcasted (rt.uuid w.ledger.uuidsDrawn) txHash note nowIso)
    (onLedger (createSweepRecord rt input) w).2).2

theorem Tracked.imported (huuid : Function.Injective rt.uuid) (h : Tracked rt w) {depositId : String}
    (input : SweepRecordInput) (href : input.externalRef = some (depositRef depositId))
    (hnone : w.ledger.findSweepByExternalRef (depositRef depositId) = none) (txHash : String) (note : Option String)
    (nowIso : String) : Tracked rt (imported rt input txHash note nowIso w) := by
  let id := rt.uuid w.ledger.uuidsDrawn
  let w₁ := (onLedger (createSweepRecord rt input) w).2
  have hget₁ : w₁.ledger.sweepRecords.get? id = some (plannedSweep id input) := OrderedMap.get?_set_self _ _ _
  have hmarked := onLedger_step "sweep must be planned or queued" (broadcastedSweep txHash note nowIso) hget₁
    (show SweepStatus.planned ∈ [SweepStatus.planned, SweepStatus.queued] from List.mem_cons_self)
  have hstate : SweepBotService.imported rt input txHash note nowIso w = _ := congrArg Prod.snd hmarked
  have hgrows : LedgerGrows rt w.ledger (SweepBotService.imported rt input txHash note nowIso w).ledger :=
    (ledger_create huuid href hnone).trans (ledger_markBroadcasted id txHash note nowIso w₁.ledger)
  refine h.added huuid (broadcastedSweep txHash note nowIso (plannedSweep id input)) hgrows ?_ ?_ ?_
  · rw [hstate]
    rfl
  · intro j
    rw [hstate]
    show ((w.ledger.sweepRecords.set id (plannedSweep id input)).set id _).get? j = _
    rw [OrderedMap.get?_set, OrderedMap.get?_set]
    by_cases hj : id = j
    · rw [if_pos hj, if_pos hj]
    · rw [if_neg hj, if_neg hj, if_neg hj]
  · intro d _ hrank
    exact absurd hrank (by decide : ¬ rank SweepStatus.broadcasted < 3)

/-- what may happen: a report of a deposit whose sweeps do not wait, a transfer whose record has its hash -/
theorem Tracked.happen (h : Tracked rt w) (x : Happening)
    (hreported : ∀ depositId, x = .reported depositId → ¬ Open w.ledger depositId)
    (hsent : ∀ t, x = .sent t → Fresh w.happened t.depositId ∧
      ∃ sweep, w.ledger.sweepRecords.get? t.sweepId = some sweep ∧
        sweep.externalRef = some (depositRef t.depositId) ∧ sweep.status = .broadcasted ∧
        sweep.txHash = some t.txHash) : Tracked rt (happen x w).2 := by
  refine ⟨h.keyed, h.single, h.once.concat fun t ht => (hsent t ht).1, ?_, ?_⟩
  · intro d hd
    rcases List.mem_append.mp hd with hd | hlast
    · exact h.closed d hd
    · exact hreported d (List.mem_singleton.mp hlast).symm
  · intro t ht
    rcases List.mem_append.mp ht with ht | hlast
    · obtain ⟨sweep, hget, href, hrank, hhash, hfailed⟩ := h.sent t ht
      exact ⟨sweep, hget, href, hrank, hhash, fun hf => List.mem_append_left _ (hfailed hf)⟩
    · obtain ⟨-, sweep, hget, href, hstatus, hhash⟩ := hsent t (List.mem_singleton.mp hlast).symm
      refine ⟨sweep, hget, href, ?_, hhash, ?_⟩
      · rw [hstatus]
        decide
      · rw [hstatus]
        rintro ⟨⟩

theorem rank_waiting {status : SweepStatus} (h : status ∈ [SweepStatus.planned, SweepStatus.queued]) :
    rank status < 3 := by
  rcases List.mem_cons.mp h with rfl | h
  · decide
  · rw [List.mem_singleton.mp h]
    decide

/-- a transfer whose record is marked in the same breath -/
theorem Tracked.send (h : Tracked rt w) {t : SentSweep} {current : SweepRecord}
    (hget : w.ledger.sweepRecords.get? t.sweepId = some current)
    (href : current.externalRef = some (depositRef t.depositId)) (hqueued : current.status = .queued)
    (note : Option String) (nowIso : String) :
    Tracked rt (SweepBotService.happen (.sent t) (onLedger (markSweepBroadcasted t.sweepId t.txHash note nowIso) w).2).2 := by
  have hsource : current.status ∈ [SweepStatus.planned, SweepStatus.queued] := by
    rw [hqueued]
    decide
  have hmarked := onLedger_step "sweep must be planned or queued" (broadcastedSweep t.txHash note nowIso) hget hsource
  have hstep : Tracked rt (onLedger (markSweepBroadcasted t.sweepId t.txHash note nowIso) w).2 := by
    refine h.step _ _ _ _ (fun _ => rfl) (fun _ => rfl) (fun sweep hstatus => (rank_waiting hstatus).le) ?_
    intro sweep _ hstatus hrank
    have hwaiting := rank_waiting hstatus
    omega
  refine hstep.happen (.sent t) (by rintro d ⟨⟩) ?_
  rintro t' ⟨⟩
  have hopen : Open w.ledger t.depositId := ⟨t.sweepId, current, hget, href, by rw [hqueued]; decide⟩
  refine ⟨?_, broadcastedSweep t.txHash note nowIso current, ?_, href, rfl, rfl⟩
  · exact h.fresh hopen
  · rw [markSweepBroadcasted, hmarked]
    exact OrderedMap.get?_set_self _ _ _

/-! ## the calls of a cycle -/

/-- what a method does to a world in which nothing is lost -/
def Stays (rt : Runtime) (w w' : BotWorld) : Prop := Tracked rt w → Tracked rt w'

theorem stays_pure {α : Type} (a : α) : Keeps (Stays rt) (pure a : Op α) := Keeps.pure (fun _ h => h) a

theorem stays_bind {α β : Type} {m : Op α} {f : α → Op β} (hm : Keeps (Stays rt) m)
    (hf : ∀ a, Keeps (Stays rt) (f a)) : Keeps (Stays rt) (m >>= f) :=
  Keeps.bind (R := Stays rt) (fun h h' hw => h' (h hw)) hm hf

theorem stays_call {α : Type} {op : Op α} (h : Keeps (Stays rt) op) (f : Fate) : Keeps (Stays rt) (call f op) :=
  Keeps.outcome (R := Stays rt) (fun _ h => h) (fun h h' hw => h' (h hw)) h f.outcome f.error

theorem stays_frame {α : Type} {op : Op α} (hrecords : ∀ w, (op w).2.ledger.sweepRecords = w.ledger.sweepRecords)
    (hdrawn : ∀ w, w.ledger.uuidsDrawn ≤ (op w).2.ledger.uuidsDrawn)
    (hhappened : ∀ w, (op w).2.happened = w.happened) : Keeps (Stays rt) op :=
  fun w h => h.frame (hrecords w) (hdrawn w) (hhappened w)

theorem stays_tellPartner (f : Fate) (write : PartnerWrite) : Keeps (Stays rt) (tellPartner f write) :=
  stays_call (stays_frame (fun _ => rfl) (fun _ => le_refl _) fun _ => rfl) f

theorem stays_notify (o : Outcome) (nowMs : ℤ) (input : SendInput) : Keeps (Stays rt) (notify o nowMs input) :=
  stays_frame (fun _ => rfl) (fun _ => le_refl _) fun _ => rfl

/-- a step from a status in which nothing has been sent -/
theorem stays_step (sweepId : String) {sources : List SweepStatus} (message : String) (f : SweepRecord → SweepRecord)
    (hid : ∀ sweep, (f sweep).sweepId = sweep.sweepId) (href : ∀ sweep, (f sweep).externalRef = sweep.externalRef)
    (hrank : ∀ sweep, sweep.status ∈ sources → rank sweep.status ≤ rank (f sweep).status)
    (hsent : ∀ sweep, sweep.status ∈ sources → 3 ≤ rank sweep.status →
      (f sweep).txHash = sweep.txHash ∧ (f sweep).status ≠ .failed) :
    Keeps (Stays rt) (onLedger (stepSweep sweepId sources message f)) := by
  intro w h
  refine h.step sweepId sources message f hid href hrank fun sweep _ hstatus hsweep => ?_
  obtain ⟨hhash, hnot⟩ := hsent sweep hstatus hsweep
  exact ⟨hhash, fun hfailed => absurd hfailed hnot⟩

theorem stays_markQueued (sweepId : String) (note : Option String) (nowIso : String) :
    Keeps (Stays rt) (onLedger (markSweepQueued sweepId note nowIso)) := by
  refine stays_step _ _ _ (fun _ => rfl) (fun _ => rfl) ?_ ?_
  · intro sweep hstatus
    rw [List.mem_singleton.mp hstatus]
    show 1 ≤ 2
    omega
  · intro sweep hstatus hrank
    rw [List.mem_singleton.mp hstatus] at hrank
    exact absurd hrank (by decide)

theorem stays_recordAttempt (sweepId : String) (note : Option String) (nowIso : String) :
    Keeps (Stays rt) (onLedger (recordSweepAttempt sweepId note nowIso)) := by
  refine stays_step _ _ _ (fun _ => rfl) (fun _ => rfl) (fun _ _ => le_refl _) ?_
  intro sweep hstatus hrank
  rw [List.mem_singleton.mp hstatus] at hrank
  exact absurd hrank (by decide)

theorem stays_confirmSweep (sweepId : String) (note : Option String) (networkFee : Option NetworkFee)
    (nowIso : String) : Keeps (Stays rt) (onLedger (InMemorySweeps.confirmSweep sweepId note networkFee nowIso)) := by
  intro w h
  obtain ⟨hrecords, hdrawn⟩ := confirmSweep_records (s := w.ledger) sweepId note networkFee nowIso
  have hstep : Tracked rt (onLedger (stepSweep sweepId [.planned, .broadcasted] "sweep must be planned or broadcasted"
      (confirmedSweep note nowIso)) w).2 :=
    stays_step _ _ (confirmedSweep note nowIso) (fun _ => rfl) (fun _ => rfl) (fun _ _ => rank_le_four _)
      (fun _ _ _ => ⟨rfl, (by decide : SweepStatus.confirmed ≠ .failed)⟩) w h
  exact hstep.frame hrecords (le_of_eq hdrawn.symm) rfl

/-- a call that is not refused is carried out -/
theorem call_state {α : Type} {f : Fate} (h : f.outcome ≠ .refused) (op : Op α) (w : BotWorld) :
    (call f op w).2 = (op w).2 := by
  unfold call
  cases hf : f.outcome with
  | answered => rfl
  | refused => exact absurd hf h
  | lost =>
    show ((op >>= fun _ => throw f.error : Op α) w).2 = (op w).2
    rw [Method.bind_apply]
    rcases op w with ⟨e | a, w'⟩ <;> rfl

theorem call_lost {α : Type} {f : Fate} (h : f.outcome = .lost) {op : Op α} {a : α} (hop : op w = (.ok a, w')) :
    call f op w = (.error f.error, w') := by
  unfold call
  rw [h]
  show (op >>= fun _ => throw f.error : Op α) w = _
  rw [Method.bind_ok _ hop]
  rfl

theorem call_refused {α : Type} {f : Fate} (h : f.outcome = .refused) (op : Op α) (w : BotWorld) :
    call f op w = (.error f.error, w) := by
  unfold call
  rw [h]
  rfl

/-- a failure of a sweep that has not been sent, or has been declared as failed -/
theorem Tracked.fail (h : Tracked rt w) (f : Fate) {sweepId : String} (reason nowIso : String)
    (hsent : ∀ sweep, w.ledger.sweepRecords.get? sweepId = some sweep → 3 ≤ rank sweep.status →
      .declared sweepId ∈ w.happened) :
    Tracked rt (call f (onLedger (InMemorySweeps.failSweep sweepId reason nowIso)) w).2 := by
  have hfailed : Tracked rt (onLedger (InMemorySweeps.failSweep sweepId reason nowIso) w).2 :=
    h.step _ _ _ _ (fun _ => rfl) (fun _ => rfl) (fun _ _ => rank_le_four _)
      fun sweep hget _ hrank => ⟨rfl, fun _ => hsent sweep hget hrank⟩
  by_cases hrefused : f.outcome = .refused
  · rw [call_refused hrefused]
    exact h
  · rw [call_state hrefused]
    exact hfailed

/-- a method, and another one from where it returns -/
theorem tracked_bind {α β : Type} {m : Op α} {f : α → Op β} (hm : Tracked rt (m w).2)
    (hf : ∀ a w', m w = (.ok a, w') → Tracked rt w' → Tracked rt (f a w').2) : Tracked rt ((m >>= f) w).2 := by
  rw [Method.bind_apply]
  rcases hmw : m w with ⟨e | a, w'⟩
  · rw [hmw] at hm
    exact hm
  · rw [hmw] at hm
    exact hf a w' hmw hm

/-- a call returns only where it is answered -/
theorem call_returns {α : Type} {f : Fate} {op : Op α} {a : α} (h : call f op w = (.ok a, w')) :
    f.outcome = .answered ∧ op w = (.ok a, w') := by
  unfold call at h
  cases hf : f.outcome with
  | answered =>
    rw [hf] at h
    exact ⟨rfl, h⟩
  | refused =>
    rw [hf] at h
    cases h
  | lost =>
    rw [hf, Outcome.of, Method.returns_bind] at h
    obtain ⟨b, w₁, -, hthrow⟩ := h
    cases hthrow

/-- a question, and what is done with the answer -/
theorem tracked_asks {α β : Type} {f : Fate} {a : α} {g : α → Op β} (h : Tracked rt w)
    (hg : f.outcome = .answered → Tracked rt (g a w).2) : Tracked rt ((call f (return a) >>= g) w).2 := by
  refine tracked_bind (stays_call (stays_pure a) f w h) fun b w' hcall _ => ?_
  obtain ⟨hf, hpure⟩ := call_returns hcall
  obtain ⟨rfl, rfl⟩ := Method.pure_returns.mp hpure
  exact hg hf

/-- the answer of the partner, and what is done with it -/
theorem tracked_getDeposit {β : Type} {f : Fate} {deposit : Option ExternalDepositRecord} {depositId : String}
    {g : Option ExternalDepositRecord → Op β} (h : Tracked rt w)
    (hreport : f.outcome = .answered → (deposit.bind (Submitted rt)).isSome → ¬ Open w.ledger depositId)
    (hg : ∀ w', f.outcome = .answered → Tracked rt w' → w'.ledger = w.ledger →
      (deposit.bind (Submitted rt) = none → w'.happened = w.happened) → Tracked rt (g deposit w').2) :
    Tracked rt ((getDeposit rt f deposit depositId >>= g) w).2 := by
  unfold getDeposit report
  rw [Method.bind_assoc]
  refine tracked_asks h fun hf => ?_
  rw [Method.bind_assoc]
  by_cases hsubmitted : (deposit.bind (Submitted rt)).isSome
  · rw [if_pos hsubmitted]
    have hhappen := h.happen (.reported depositId)
      (by rintro d ⟨⟩; exact hreport hf hsubmitted) (by rintro t ⟨⟩)
    refine hg _ hf hhappen rfl fun hnone => ?_
    rw [hnone] at hsubmitted
    cases hsubmitted
  · rw [if_neg hsubmitted]
    exact hg w hf h rfl fun _ => rfl

/-! ### planning -/

/-- the turn makes a sweep for the event -/
def Creates (rt : Runtime) (c : BotCycle) (event : StoredDepositEvent) (deposit : ExternalDepositRecord)
    (w : BotWorld) : Prop :=
  (c.planFates event).find.outcome = .answered ∧ Unswept w.ledger event ∧
    deposit.sweepStatus.map rt.toUpperCase ≠ some "FAILED" ∧
    (∃ amount, parseStoredKoriAmount event.amountDecimal = .ok amount) ∧
    (c.planFates event).createSweep.outcome ≠ .refused

/-- A turn of the first loop that loses nothing.  What the partner reports as submitted does not wait, and if it is
imported then with both writes; and what the partner has reported before, it still reports. -/
def PlanTurn (rt : Runtime) (c : BotCycle) (event : StoredDepositEvent) (w : BotWorld) : Prop :=
  ∀ deposit, (c.planFates event).getDeposit.outcome = .answered → (c.planFates event).deposit = some deposit →
    ((Submitted rt deposit).isSome → ¬ Open w.ledger event.depositId ∧
      (Creates rt c event deposit w →
        (c.planFates event).createSweep.outcome = .answered ∧ (c.planFates event).markBroadcasted.outcome ≠ .refused)) ∧
    (Submitted rt deposit = none → Creates rt c event deposit w → .reported event.depositId ∉ w.happened)

theorem tracked_failDeclared (h : Tracked rt w) (c : BotCycle) (event : StoredDepositEvent)
    (deposit : ExternalDepositRecord) (sweep : Option SweepRecord) :
    Tracked rt (failDeclared c event deposit sweep w).2 := by
  unfold failDeclared
  cases sweep with
  | none => exact h
  | some sweep =>
    dsimp only
    rw [Method.ite_apply]
    split
    · exact h
    · have hdeclared : Tracked rt (declareFailed sweep.sweepId w).2 :=
        h.happen (.declared sweep.sweepId) (by rintro d ⟨⟩) (by rintro t ⟨⟩)
      refine tracked_bind hdeclared fun _ w' hw' h' => ?_
      obtain rfl : (declareFailed sweep.sweepId w).2 = w' := congrArg Prod.snd hw'
      have hin : .declared sweep.sweepId ∈ (declareFailed sweep.sweepId w).2.happened :=
        List.mem_append_right _ (List.mem_singleton_self _)
      exact tracked_bind (h'.fail _ _ _ fun _ _ _ => hin) fun _ w'' _ h'' => h''

theorem tracked_importSweep (huuid : Function.Injective rt.uuid) (h : Tracked rt w) (c : BotCycle)
    (event : StoredDepositEvent) (txHash : String)
    (hnone : w.ledger.findSweepByExternalRef (depositRef event.depositId) = none)
    (hwrites : ∀ amount, parseStoredKoriAmount event.amountDecimal = .ok amount →
      (c.planFates event).createSweep.outcome ≠ .refused → (c.planFates event).createSweep.outcome = .answered ∧
        (c.planFates event).markBroadcasted.outcome ≠ .refused) :
    Tracked rt (importSweep rt c event txHash w).2 := by
  unfold importSweep
  refine tracked_bind (w := w) h fun amount w' hamount _ => ?_
  obtain ⟨hparsed, rfl⟩ := Method.ofExcept_returns.mp hamount
  by_cases hrefused : (c.planFates event).createSweep.outcome = .refused
  · rw [Method.bind_apply, call_refused hrefused]
    exact h
  · obtain ⟨hcreate, hmark⟩ := hwrites amount hparsed hrefused
    rw [call_answered hcreate]
    have himported := h.imported huuid (depositSweep c event amount "imported from foxya sweep submission")
      rfl hnone txHash (some "imported foxya tx hash") c.now
    have hcreated : onLedger (createSweepRecord rt
        (depositSweep c event amount "imported from foxya sweep submission")) w = (.ok _, _) := rfl
    rw [Method.bind_ok _ hcreated, Method.bind_pure_store, call_state hmark]
    exact himported

theorem tracked_planSweep (huuid : Function.Injective rt.uuid) (h : Tracked rt w) (c : BotCycle)
    (event : StoredDepositEvent) (hnone : w.ledger.findSweepByExternalRef (depositRef event.depositId) = none)
    (hnew : ∀ amount, parseStoredKoriAmount event.amountDecimal = .ok amount →
      (c.planFates event).createSweep.outcome ≠ .refused → .reported event.depositId ∉ w.happened) :
    Tracked rt (planSweep rt c event w).2 := by
  unfold planSweep
  refine tracked_bind (w := w) h fun amount w' hamount _ => ?_
  obtain ⟨hparsed, rfl⟩ := Method.ofExcept_returns.mp hamount
  rw [Method.bind_pure_store]
  by_cases hrefused : (c.planFates event).createSweep.outcome = .refused
  · rw [call_refused hrefused]
    exact h
  · rw [call_state hrefused]
    exact h.create huuid rfl hnone (hnew amount hparsed hrefused)

theorem tracked_planEvent (huuid : Function.Injective rt.uuid) (h : Tracked rt w) {c : BotCycle}
    {event : StoredDepositEvent} (hturn : PlanTurn rt c event w) : Tracked rt (planEvent rt c event w).2 := by
  unfold planEvent
  refine tracked_getDeposit h ?_ fun w' hanswered h' hledger hhappened => ?_
  · intro hanswered hsubmitted
    cases hd : (c.planFates event).deposit with
    | none =>
      rw [hd] at hsubmitted
      cases hsubmitted
    | some deposit =>
      rw [hd] at hsubmitted
      exact ((hturn deposit hanswered hd).1 hsubmitted).1
  · cases hd : (c.planFates event).deposit with
    | none => exact h'
    | some deposit =>
      obtain ⟨hsubmitted, hnot⟩ := hturn deposit hanswered hd
      rw [hd] at hhappened
      dsimp only
      rw [Method.get_bind]
      refine tracked_asks h' fun hfind => ?_
      rw [Method.ite_apply]
      split
      · exact tracked_failDeclared h' c event deposit _
      · next hstatus =>
        cases hsweep : w'.ledger.findSweepByExternalRef (depositRef event.depositId) with
        | some sweep => exact h'
        | none =>
          have hunswept : Unswept w.ledger event := by
            rw [unswept_iff, ← hledger]
            exact hsweep
          cases hs : Submitted rt deposit with
          | some txHash =>
            refine tracked_importSweep huuid h' c event txHash hsweep fun amount hparsed hrefused => ?_
            exact (hsubmitted (by rw [hs]; rfl)).2 ⟨hfind, hunswept, hstatus, ⟨amount, hparsed⟩, hrefused⟩
          | none =>
            refine tracked_planSweep huuid h' c event hsweep fun amount hparsed hrefused => ?_
            rw [hhappened hs]
            exact hnot hs ⟨hfind, hunswept, hstatus, ⟨amount, hparsed⟩, hrefused⟩

/-! ### queueing and confirming -/

theorem stays_queueSweep (c : BotCycle) (sweep : SweepRecord) : Keeps (Stays rt) (queueSweep rt c sweep) := by
  unfold queueSweep
  split
  · exact stays_pure _
  · refine stays_bind (stays_call (stays_markQueued _ _ _) _) fun _ => ?_
    have hjob : Keeps (Stays rt) (onLedger (enqueueJob rt "sweep_plan"
        [("sweepId", sweep.sweepId), ("stage", "executor")] c.now)) :=
      stays_frame (fun _ => rfl) (fun _ => Nat.le_succ _) fun _ => rfl
    exact stays_bind (stays_call hjob _) fun _ => stays_pure _

theorem stays_confirmOne (c : BotCycle) (sweep : SweepRecord) : Keeps (Stays rt) (confirmOne c sweep) := by
  unfold confirmOne
  dsimp only
  split
  · refine stays_bind (stays_call (stays_pure _) _) fun receipt => ?_
    split
    · exact stays_bind (stays_call (stays_confirmSweep _ _ _ _) _) fun _ => stays_pure _
    · intro w h
      have hdeclared : Tracked rt (declareFailed sweep.sweepId w).2 :=
        h.happen (.declared sweep.sweepId) (by rintro d ⟨⟩) (by rintro t ⟨⟩)
      refine tracked_bind hdeclared fun _ w' hw' h' => ?_
      obtain rfl : (declareFailed sweep.sweepId w).2 = w' := congrArg Prod.snd hw'
      have hin : .declared sweep.sweepId ∈ (declareFailed sweep.sweepId w).2.happened :=
        List.mem_append_right _ (List.mem_singleton_self _)
      refine tracked_bind (h'.fail _ _ _ fun _ _ _ => hin) fun _ w'' _ h'' => ?_
      exact stays_bind (stays_tellPartner _ _) (fun _ => stays_bind (stays_notify _ _ _) fun _ => stays_pure _) w'' h''
    · exact stays_pure _
  · exact stays_pure _

/-! ### sending -/

/-- the turn gets to the transfer -/
def Reaches (c : BotCycle) (sweep : SweepRecord) (w : BotWorld) : Prop :=
  (c.executeFates sweep).signer.outcome = .answered ∧
    (∃ signer, (c.executeFates sweep).walletSigner = some signer ∧ signer.privateKey ≠ "") ∧
    (c.executeFates sweep).recordAttempt.outcome = .answered ∧
    (∃ current, w.ledger.sweepRecords.get? sweep.sweepId = some current ∧ current.status = .queued) ∧
    (c.executeFates sweep).resources.outcome = .answered ∧ ¬ c.Low (c.executeFates sweep).accountResources

/-- A turn of the third loop that loses nothing.  The partner does not report what waits, and after a transfer the calls
that record it are answered, or the failure of the last one is not recorded. -/
def ExecuteTurn (rt : Runtime) (c : BotCycle) (sweep : SweepRecord) (w : BotWorld) : Prop :=
  ∀ depositId deposit, InMemoryLedger.truthy (parseDepositId sweep.externalRef) = some depositId →
    (c.executeFates sweep).getDeposit.outcome = .answered → (c.executeFates sweep).deposit = some deposit →
    ((Submitted rt deposit).isSome → ¬ Open w.ledger depositId) ∧
    (Reaches c sweep w → (c.executeFates sweep).broadcast.outcome ≠ .refused →
      (c.executeFates sweep).broadcast.outcome = .answered ∧ (c.executeFates sweep).submit.outcome = .answered ∧
        ((c.executeFates sweep).markBroadcasted.outcome = .answered ∨
          (c.executeFates sweep).markBroadcasted.outcome = .lost ∧ (c.executeFates sweep).failSweep.outcome = .refused))

theorem tracked_resourcesLow (h : Tracked rt w) (c : BotCycle) (f : ExecuteFates) (sweep attempted : SweepRecord)
    (depositId : String) (network : TronNetwork) (r : TronAccountResources) {current : SweepRecord}
    (hget : w.ledger.sweepRecords.get? sweep.sweepId = some current) (hqueued : current.status = .queued) :
    Tracked rt (resourcesLow c f sweep attempted depositId network r w).2 := by
  unfold resourcesLow
  have hnotified : Tracked rt (notify f.lowAlert c.nowMs (sweepResourceLow depositId sweep.sourceAddress network
      (c.toFixed6 r.trxBalance) r.availableEnergy r.availableBandwidth attempted.attemptCount) w).2 :=
    stays_notify _ _ _ w h
  refine tracked_bind hnotified fun _ w' hw' h' => ?_
  rw [Method.ite_apply]
  split
  · have hledger : w'.ledger = w.ledger := congrArg (fun p => BotWorld.ledger p.2) hw'.symm
    refine tracked_bind (h'.fail _ _ _ fun sweep' hget' hrank => ?_) fun _ w'' _ h'' => ?_
    · rw [hledger, hget] at hget'
      rw [← Option.some.inj hget', hqueued] at hrank
      exact absurd hrank (by decide)
    · exact stays_bind (stays_tellPartner _ _) (fun _ => stays_bind (stays_notify _ _ _) fun _ => stays_pure _) w'' h''
  · exact h'

theorem tracked_sendFailed (h : Tracked rt w) (c : BotCycle) (f : ExecuteFates) (sweep : SweepRecord)
    (depositId : String) (error : LedgerError) {current : SweepRecord}
    (hget : w.ledger.sweepRecords.get? sweep.sweepId = some current) (hqueued : current.status = .queued) :
    Tracked rt (sendFailed c f sweep depositId error w).2 := by
  unfold sendFailed
  refine tracked_bind (h.fail _ _ _ fun sweep' hget' hrank => ?_) fun _ w' _ h' => ?_
  · rw [hget] at hget'
    rw [← Option.some.inj hget', hqueued] at hrank
    exact absurd hrank (by decide)
  · exact stays_bind (stays_tellPartner _ _) (fun _ => stays_bind (stays_notify _ _ _) fun _ => stays_pure _) w' h'

/-- the transfer and what is done where a call throws -/
theorem tracked_send (h : Tracked rt w) (c : BotCycle) (f : ExecuteFates) (sweep : SweepRecord) (depositId : String)
    (signer : WalletSigner) {current : SweepRecord}
    (hget : w.ledger.sweepRecords.get? sweep.sweepId = some current) (hqueued : current.status = .queued)
    (href : current.externalRef = some (depositRef depositId))
    (hturn : f.broadcast.outcome ≠ .refused → f.broadcast.outcome = .answered ∧ f.submit.outcome = .answered ∧
      (f.markBroadcasted.outcome = .answered ∨
        f.markBroadcasted.outcome = .lost ∧ f.failSweep.outcome = .refused)) :
    Tracked rt (tryCatch (sendSweep c f sweep depositId signer) (sendFailed c f sweep depositId) w).2 := by
  show Tracked rt (Method.tryCatch _ _ w).2
  by_cases hrefused : f.broadcast.outcome = .refused
  · have hsend : sendSweep c f sweep depositId signer w = (.error f.broadcast.error, w) := by
      unfold sendSweep
      rw [Method.bind_apply, call_refused hrefused]
    rw [Method.tryCatch, hsend]
    exact tracked_sendFailed h c f sweep depositId _ hget hqueued
  · obtain ⟨hbroadcast, hsubmit, hmark⟩ := hturn hrefused
    let t := sentSweep f sweep depositId signer
    let mark : Op SweepRecord :=
      onLedger (markSweepBroadcasted sweep.sweepId f.txHash (some "broadcasted by sweep executor") c.now)
    let w₁ : BotWorld :=
      { w with happened := w.happened ++ [.sent t], partner := w.partner ++ [.submitSweep depositId f.txHash] }
    have htracked : Tracked rt (mark w₁).2 :=
      (h.send (t := t) hget href hqueued (some "broadcasted by sweep executor") c.now).frame rfl (le_refl _) rfl
    have hbody : sendSweep c f sweep depositId signer w = (call f.markBroadcasted mark >>= fun _ =>
        (pure .broadcasted : Op SweepStageResult)) w₁ := by
      unfold sendSweep tellPartner SweepBotService.happen
      rw [call_answered hbroadcast, call_answered hsubmit]
      simp only [Method.modify_bind]
      rfl
    have hsource : current.status ∈ [SweepStatus.planned, SweepStatus.queued] := by
      rw [hqueued]
      decide
    have hmarked : mark w₁ = (.ok _, _) :=
      onLedger_step (w := w₁) "sweep must be planned or queued" _ hget hsource
    rcases hmark with hmark | ⟨hmark, hfail⟩
    · have hsend : sendSweep c f sweep depositId signer w = (.ok .broadcasted, (mark w₁).2) := by
        rw [hbody, call_answered hmark, Method.bind_apply, hmarked]
        rfl
      rw [Method.tryCatch, hsend]
      exact htracked
    · have hsend : sendSweep c f sweep depositId signer w = (.error f.markBroadcasted.error, (mark w₁).2) := by
        rw [hbody, Method.bind_apply, call_lost hmark hmarked, hmarked]
      rw [Method.tryCatch, hsend]
      show Tracked rt (sendFailed c f sweep depositId _ (mark w₁).2).2
      rw [sendFailed, Method.bind_apply, call_refused hfail]
      exact htracked

theorem recordAttempt_returns {sweepId : String} {note : Option String} {nowIso : String} {attempted : SweepRecord}
    (h : onLedger (recordSweepAttempt sweepId note nowIso) w = (.ok attempted, w')) :
    ∃ current, w.ledger.sweepRecords.get? sweepId = some current ∧ current.status = .queued ∧
      w'.ledger.sweepRecords.get? sweepId = some (attemptedSweep note nowIso current) := by
  have hresult : (recordSweepAttempt sweepId note nowIso w.ledger).1 = .ok attempted := congrArg Prod.fst h
  have hledger : (recordSweepAttempt sweepId note nowIso w.ledger).2 = w'.ledger :=
    congrArg (fun p => BotWorld.ledger p.2) h
  unfold recordSweepAttempt at hresult hledger
  rcases stepSweep_cases (s := w.ledger) sweepId [.queued] "sweep must be queued" (attemptedSweep note nowIso) with
    ⟨e, herror⟩ | ⟨current, hget, hstatus, htaken⟩
  · rw [herror] at hresult
    cases hresult
  · rw [htaken] at hledger
    refine ⟨current, hget, List.mem_singleton.mp hstatus, ?_⟩
    rw [← hledger]
    exact OrderedMap.get?_set_self _ _ _

theorem tracked_executeSweep (h : Tracked rt w) {c : BotCycle} {sweep : SweepRecord}
    (hkept : ∀ current, w.ledger.sweepRecords.get? sweep.sweepId = some current →
      current.externalRef = sweep.externalRef) (hturn : ExecuteTurn rt c sweep w) :
    Tracked rt (executeSweep rt c sweep w).2 := by
  unfold executeSweep
  cases hparsed : InMemoryLedger.truthy (parseDepositId sweep.externalRef) with
  | none => exact h
  | some depositId =>
    have href : sweep.externalRef = some (depositRef depositId) :=
      parseDepositId_eq_some (InMemoryLedger.truthy_eq_some hparsed)
    refine tracked_getDeposit h ?_ fun w' hanswered h' hledger _ => ?_
    · intro hanswered hsubmitted
      cases hd : (c.executeFates sweep).deposit with
      | none =>
        rw [hd] at hsubmitted
        cases hsubmitted
      | some deposit =>
        rw [hd] at hsubmitted
        exact (hturn depositId deposit hparsed hanswered hd).1 hsubmitted
    · cases hd : (c.executeFates sweep).deposit with
      | none => exact h'
      | some deposit =>
        have hsends := (hturn depositId deposit hparsed hanswered hd).2
        refine tracked_asks h' fun hsigner => ?_
        cases hs : (c.executeFates sweep).walletSigner.filter (·.privateKey ≠ "") with
        | none => exact h'
        | some signer =>
          obtain ⟨hsome, hkey⟩ := Option.filter_eq_some_iff.mp hs
          have hattempted : Tracked rt (call (c.executeFates sweep).recordAttempt
              (onLedger (recordSweepAttempt sweep.sweepId (some "attempted by sweep executor") c.now)) w').2 :=
            stays_call (stays_recordAttempt _ _ _) _ w' h'
          refine tracked_bind hattempted fun attempted w₂ hattempt h₂ => ?_
          obtain ⟨hanswer, hreturned⟩ := call_returns hattempt
          obtain ⟨current, hget', hqueued, hget₂⟩ := recordAttempt_returns hreturned
          rw [hledger] at hget'
          refine tracked_asks h₂ fun hresources => ?_
          rw [Method.ite_apply]
          split
          · exact tracked_resourcesLow h₂ c _ sweep attempted depositId _ _ hget₂ hqueued
          · next hlow =>
            refine tracked_send h₂ c _ sweep depositId signer hget₂ hqueued ((hkept current hget').trans href) ?_
            exact hsends ⟨hsigner, ⟨signer, hsome, of_decide_eq_true hkey⟩, hanswer, ⟨current, hget', hqueued⟩,
              hresources, hlow⟩

/-! ## cycles -/

/-- the turns of the first loop lose nothing -/
def MeetsPlan (rt : Runtime) (c : BotCycle) (w : BotWorld) : Prop :=
  Throughout (planEvent rt c) (PlanTurn rt c) (completedEvents rt c.cycleLimit w.events) w

/-- nor do the turns of the third one, from where the second one has ended -/
def MeetsExecute (rt : Runtime) (c : BotCycle) (w : BotWorld) : Prop :=
  ∀ plans queues w₁ w₂, planSweepsFromCompletedDeposits rt c w = (.ok plans, w₁) →
    sweepStage rt c.listPlanned c.cycleLimit .planned (queueSweep rt c) w₁ = (.ok queues, w₂) →
    Throughout (executeSweep rt c) (ExecuteTurn rt c)
      (w₂.ledger.listSweepRecordsByStatuses rt [.queued] c.cycleLimit) w₂

/-- a cycle that loses nothing -/
def Careful (rt : Runtime) (c : BotCycle) (w : BotWorld) : Prop :=
  c.enabled = true ∧ c.configured = true → MeetsPlan rt c w ∧ MeetsExecute rt c w

theorem stays_each {α β : Type} {body : α → Op β} (h : ∀ x, Keeps (Stays rt) (body x)) (xs : List α) :
    Keeps (Stays rt) (each body xs) := by
  induction xs with
  | nil => exact stays_pure _
  | cons x xs ih => exact stays_bind (h x) fun _ => stays_bind ih fun _ => stays_pure _

theorem stays_sweepStage {body : SweepRecord → Op SweepStageResult} (h : ∀ x, Keeps (Stays rt) (body x)) (f : Fate)
    (limit : Nat) (status : SweepStatus) : Keeps (Stays rt) (sweepStage rt f limit status body) := by
  refine stays_bind (Keeps.get fun _ h => h) fun w => ?_
  exact stays_bind (stays_call (stays_pure _) f) fun sweeps => stays_each h sweeps

/-- a method that ends in a world in which nothing is lost -/
theorem ends_tracked {α : Type} {m : Op α} {P : BotWorld → Prop} (h : Tracked rt (m w).2) (hp : P (m w).2) :
    Ends m w (fun _ w' => Tracked rt w' ∧ P w') fun _ w' => Tracked rt w' :=
  ends_of (fun _ _ hm => by rw [hm] at h hp; exact ⟨h, hp⟩) fun _ _ hm => by rw [hm] at h; exact h

theorem tracked_plan (huuid : Function.Injective rt.uuid) (h : Tracked rt w) {c : BotCycle}
    (hturns : MeetsPlan rt c w) : Tracked rt (planSweepsFromCompletedDeposits rt c w).2 := by
  unfold planSweepsFromCompletedDeposits
  rw [Method.get_bind]
  refine tracked_asks h fun _ => ?_
  have hloop := ends_each_throughout (I := fun _ w => Tracked rt w ∧ True)
    (E := fun _ w => Tracked rt w)
    (fun event _ w' _ hturn h' => ends_tracked (tracked_planEvent huuid h'.1 hturn) trivial) hturns ⟨h, trivial⟩
  exact (hloop.imp (fun _ _ h' => h'.1) fun _ _ h' => h').state

/-- the records of a page are in the ledger, for the same deposits -/
def SamePage (w : BotWorld) (sweeps : List SweepRecord) : Prop :=
  ∀ sweep ∈ sweeps, ∃ current, w.ledger.sweepRecords.get? sweep.sweepId = some current ∧
    current.externalRef = sweep.externalRef

theorem tracked_execute (h : Tracked rt w) {c : BotCycle} (hturns : Throughout (executeSweep rt c) (ExecuteTurn rt c)
      (w.ledger.listSweepRecordsByStatuses rt [.queued] c.cycleLimit) w) :
    Tracked rt (sweepStage rt c.listQueued c.cycleLimit .queued (executeSweep rt c) w).2 := by
  unfold sweepStage
  rw [Method.get_bind]
  refine tracked_asks h fun _ => ?_
  have hpage : SamePage w (w.ledger.listSweepRecordsByStatuses rt [.queued] c.cycleLimit) :=
    fun sweep hsweep => ⟨sweep, h.keyed.get? (mem_page hsweep).1, rfl⟩
  have hloop := ends_each_throughout (I := fun sweeps w => Tracked rt w ∧ SamePage w sweeps)
    (E := fun _ w => Tracked rt w) ?_ hturns ⟨h, hpage⟩
  · exact (hloop.imp (fun _ _ h' => h'.1) fun _ _ h' => h').state
  · rintro sweep rest w' - hturn ⟨h', hsame⟩
    refine ends_tracked (P := fun w => SamePage w rest) (tracked_executeSweep h' ?_ hturn) ?_
    · intro current hget
      obtain ⟨stored, hstored, href⟩ := hsame sweep List.mem_cons_self
      rw [hget] at hstored
      rw [Option.some.inj hstored]
      exact href
    · intro other hother
      obtain ⟨stored, hstored, href⟩ := hsame other (List.mem_cons_of_mem _ hother)
      obtain ⟨later, hlater, hlaterRef⟩ :=
        ((show Grows rt w' _ from keeps_executeSweep c sweep w').2 h'.keyed).2.2.2 other.sweepId stored hstored
      exact ⟨later, hlater, hlaterRef.trans href⟩

theorem tracked_exec (huuid : Function.Injective rt.uuid) (h : Tracked rt w) {c : BotCycle} (hc : Careful rt c w) :
    Tracked rt (c.exec rt w) := by
  unfold BotCycle.exec runCycle
  by_cases hruns : c.enabled = true ∧ c.configured = true
  · rw [if_pos hruns]
    obtain ⟨hplan, hexecute⟩ := hc hruns
    refine tracked_bind (tracked_plan huuid h hplan) fun plans w₁ hw₁ h₁ => ?_
    refine tracked_bind (stays_sweepStage (stays_queueSweep c) _ _ _ w₁ h₁) fun queues w₂ hw₂ h₂ => ?_
    refine tracked_bind (tracked_execute h₂ (hexecute plans queues w₁ w₂ hw₁ hw₂)) fun _ w₃ _ h₃ => ?_
    exact stays_bind (stays_sweepStage (stays_confirmOne c) _ _ _) (fun _ => stays_pure _) w₃ h₃
  · rw [if_neg hruns]
    exact h

/-! ## runs -/

/-- a cycle, and the deposits as they are stored when it starts -/
structure Visit where
  events : List StoredDepositEvent
  cycle : BotCycle

def Visit.exec (rt : Runtime) (v : Visit) (w : BotWorld) : BotWorld := v.cycle.exec rt { w with events := v.events }

end

/-- Where every turn loses nothing, a run of cycles sends one transfer for a deposit at most and none that the partner
had reported before, and every transfer has a record with its hash that is failed only if it has been declared so. -/
theorem run_broadcasts {rt : Runtime} (huuid : Function.Injective rt.uuid) {start : BotWorld}
    (hk : Keyed rt start.ledger) (hs : ∀ depositId, Single start.ledger depositId) (hnone : start.happened = [])
    {visits : List Visit}
    (h : Along (Visit.exec rt) (fun v w => Careful rt v.cycle { w with events := v.events }) visits start) :
    NoneLost (runCalls (Visit.exec rt) visits start) := by
  have hstart : Tracked rt start := by
    refine ⟨hk, hs, ?_, ?_, ?_⟩
    · intro before t after heq
      rw [hnone] at heq
      exact absurd heq.symm (by simp)
    · intro depositId hd
      rw [hnone] at hd
      cases hd
    · intro t ht
      rw [hnone] at ht
      cases ht
  refine (run_invariant_along (I := Tracked rt) ?_ h hstart).noneLost
  intro v w hv hw
  exact tracked_exec (w := { w with events := v.events }) huuid (hw.frame rfl (le_refl _) rfl) hv

/-! ## one transfer -/

/-- a turn whose calls are answered and whose partner reports nothing -/
theorem onePage_executeTurn (sweep : SweepRecord) (w : BotWorld) :
    ExecuteTurn Runtime.numbered onePage sweep w := by
  intro depositId deposit _ _ hdeposit
  refine ⟨fun hsubmitted => ?_, fun _ _ => ⟨rfl, rfl, Or.inl rfl⟩⟩
  have hnone : deposit = ⟨none, none, none⟩ := (Option.some.inj hdeposit).symm
  rw [hnone] at hsubmitted
  cases hsubmitted

theorem onePage_careful : Careful Runtime.numbered onePage twoDeposits := by
  refine fun _ => ⟨?_, fun _ _ _ w₂ _ _ => Throughout.of_forall (fun sweep _ w => onePage_executeTurn sweep w) w₂⟩
  rw [MeetsPlan, show onePage.cycleLimit = 1 from rfl, completed_page]
  refine ⟨?_, fun _ _ _ => trivial⟩
  intro deposit _ hdeposit
  have hnone : deposit = ⟨none, none, none⟩ := (Option.some.inj hdeposit).symm
  refine ⟨fun hsubmitted => ?_, fun _ _ hreported => ?_⟩
  · rw [hnone] at hsubmitted
    cases hsubmitted
  · cases hreported

theorem run_broadcasts_example :
    NoneLost (runCalls (Visit.exec Runtime.numbered) [⟨twoDeposits.events, onePage⟩] twoDeposits) ∧
    (runCalls (Visit.exec Runtime.numbered) [⟨twoDeposits.events, onePage⟩] twoDeposits).happened =
      [.sent ⟨Runtime.numbered.uuid 0, "new", "THot", 1000000, .mainnet, "TSource", "key", "tx"⟩] := by
  refine ⟨run_broadcasts Runtime.numbered_uuid_injective twoDeposits_keyed ?_ rfl ⟨onePage_careful, trivial⟩, ?_⟩
  · rintro depositId id id' sweep sweep' ⟨⟩
  · decide +kernel

/-- a cycle in which the partner does not take the hash of the transfer -/
def submitRefused : BotCycle :=
  { onePage with
    executeFates := fun sweep => { onePage.executeFates sweep with submit := ⟨.refused, .plain "HTTP 502"⟩ } }

/-- the transfer is on the chain, and its sweep has failed, without the hash -/
theorem submitRefused_loses :
    ¬ NoneLost (runCalls (Visit.exec Runtime.numbered) [⟨twoDeposits.events, submitRefused⟩] twoDeposits) := by
  have hhappened : (runCalls (Visit.exec Runtime.numbered) [⟨twoDeposits.events, submitRefused⟩] twoDeposits).happened =
      [.sent ⟨Runtime.numbered.uuid 0, "new", "THot", 1000000, .mainnet, "TSource", "key", "tx"⟩] := by
    decide +kernel
  have hrecord : ((runCalls (Visit.exec Runtime.numbered) [⟨twoDeposits.events, submitRefused⟩]
      twoDeposits).ledger.sweepRecords.get? (Runtime.numbered.uuid 0)).bind (·.txHash) = none := by
    decide +kernel
  rintro ⟨-, hrecorded⟩
  obtain ⟨sweep, hget, hhash, -⟩ := hrecorded _ (by rw [hhappened]; exact List.mem_singleton_self _)
  rw [hget, Option.bind_some, hhash] at hrecord
  cases hrecord

end SweepBotService
