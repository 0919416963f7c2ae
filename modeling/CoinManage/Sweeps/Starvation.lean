import CoinManage.AmountText
import CoinManage.Sweeps.Bot

/-!
# Sweeps that are starved

Each stage of a cycle of the sweep bot reads one page, the newest first, and passes over what it cannot
advance.  With every call answered positively, a cycle changes something exactly when one of the four
pages has something on it that its stage can advance: what is older than a full page of things that
cannot be advanced waits for ever.

* `Grows`              what every cycle does to the sweeps: none is lost and none goes back;
* `Positive`           the cycles in which every call is answered positively;
* `Advances`           a page of the cycle has something to advance;
* `changed_iff`        a positive cycle changes the sweeps exactly when it does;
* `advances_of_room`   while the pages are not full, whatever is pending is on one of them;
* `run_starvation`     the same in every state that cycles reach, with no deposit in two sweeps.
-/

namespace SweepBotService
open Method InMemorySweeps
open ActivationService (Fate deliver)
open Postgres (SweepStatus)

/-! ## how far a sweep has come -/

def rank : SweepStatus → Nat
  | .planned => 1
  | .queued => 2
  | .broadcasted => 3
  | .confirmed | .failed | .skipped => 4

/-- the rank of the sweep of this id, where there is one -/
def rankIn (s : InMemorySweeps) (id : String) : Nat := (s.sweepRecords.get? id).elim 0 fun sweep => rank sweep.status

/-- at most one sweep of the deposit -/
def Single (s : InMemorySweeps) (depositId : String) : Prop :=
  ∀ id id' sweep sweep', s.sweepRecords.get? id = some sweep → s.sweepRecords.get? id' = some sweep' →
    sweep.externalRef = some (depositRef depositId) → sweep'.externalRef = some (depositRef depositId) → id = id'

/-- the sweeps are still there, for the same deposits -/
def SameRefs (s s' : InMemorySweeps) : Prop :=
  ∀ id sweep, s.sweepRecords.get? id = some sweep →
    ∃ sweep', s'.sweepRecords.get? id = some sweep' ∧ sweep'.externalRef = sweep.externalRef

/-- what a write may do to the table: no deposit gets a second sweep, and no sweep goes back -/
def LedgerGrows (rt : Runtime) (s s' : InMemorySweeps) : Prop :=
  Keyed rt s → Keyed rt s' ∧ (∀ depositId, Single s depositId → Single s' depositId) ∧
    (∀ id, rankIn s id ≤ rankIn s' id) ∧ SameRefs s s'

/-- what the calls of a cycle may do -/
def Grows (rt : Runtime) (w w' : BotWorld) : Prop := w'.events = w.events ∧ LedgerGrows rt w.ledger w'.ledger

section
variable {rt : Runtime} {s s' : InMemorySweeps} {w : BotWorld}

theorem LedgerGrows.refl (s : InMemorySweeps) : LedgerGrows rt s s :=
  fun hk => ⟨hk, fun _ hs => hs, fun _ => le_refl _, fun _ sweep hget => ⟨sweep, hget, rfl⟩⟩

theorem LedgerGrows.trans {s₁ s₂ s₃ : InMemorySweeps} (h : LedgerGrows rt s₁ s₂) (h' : LedgerGrows rt s₂ s₃) :
    LedgerGrows rt s₁ s₃ := by
  intro hk
  obtain ⟨hk₂, hs₂, hle, hrefs⟩ := h hk
  obtain ⟨hk₃, hs₃, hle', hrefs'⟩ := h' hk₂
  refine ⟨hk₃, fun depositId hs => hs₃ depositId (hs₂ depositId hs), fun id => (hle id).trans (hle' id), ?_⟩
  intro id sweep hget
  obtain ⟨sweep₂, hget₂, href₂⟩ := hrefs id sweep hget
  obtain ⟨sweep₃, hget₃, href₃⟩ := hrefs' id sweep₂ hget₂
  exact ⟨sweep₃, hget₃, href₃.trans href₂⟩

theorem Grows.refl (w : BotWorld) : Grows rt w w := ⟨rfl, LedgerGrows.refl _⟩

theorem Grows.trans {w₁ w₂ w₃ : BotWorld} (h : Grows rt w₁ w₂) (h' : Grows rt w₂ w₃) : Grows rt w₁ w₃ :=
  ⟨h'.1.trans h.1, h.2.trans h'.2⟩

/-- a write of other tables -/
theorem LedgerGrows.frame (hrecords : s'.sweepRecords = s.sweepRecords) (hdrawn : s.uuidsDrawn ≤ s'.uuidsDrawn) :
    LedgerGrows rt s s' := by
  intro hk
  refine ⟨⟨?_, ?_⟩, ?_, ?_, ?_⟩
  · rw [hrecords]
    exact hk.own
  · rw [hrecords]
    intro id sweep hget
    obtain ⟨n, hn, hid⟩ := hk.drawn id sweep hget
    exact ⟨n, by omega, hid⟩
  · intro depositId hs
    rwa [Single, hrecords]
  · intro id
    rw [rankIn, rankIn, hrecords]
  · intro id sweep hget
    exact ⟨sweep, by rw [hrecords]; exact hget, rfl⟩

variable (rt) in
/-- a step that takes a sweep further -/
theorem LedgerGrows.step (sweepId : String) (sources : List SweepStatus) (message : String)
    (f : SweepRecord → SweepRecord) (hid : ∀ sweep, (f sweep).sweepId = sweep.sweepId)
    (href : ∀ sweep, (f sweep).externalRef = sweep.externalRef)
    (hrank : ∀ sweep, sweep.status ∈ sources → rank sweep.status ≤ rank (f sweep).status) :
    LedgerGrows rt s (stepSweep sweepId sources message f s).2 := by
  rcases stepSweep_cases sweepId sources message f with ⟨e, herror⟩ | ⟨sweep, hget, hstatus, htaken⟩
  · rw [herror]
    exact LedgerGrows.refl s
  · rw [htaken]
    intro hk
    have hset : ∀ id sweep', (s.sweepRecords.set sweepId (f sweep)).get? id = some sweep' →
        ∃ old, s.sweepRecords.get? id = some old ∧ sweep'.externalRef = old.externalRef := by
      intro id sweep' hget'
      rw [OrderedMap.get?_set] at hget'
      split at hget'
      · next heq =>
        obtain rfl := Option.some.inj hget'
        exact ⟨sweep, heq ▸ hget, href sweep⟩
      · exact ⟨sweep', hget', rfl⟩
    refine ⟨hk.set ?_ (hk.drawn sweepId sweep hget) (le_refl _) rfl, ?_, ?_, ?_⟩
    · rw [hid]
      exact hk.own sweepId sweep hget
    · intro depositId hs id id' sweep₁ sweep₂ h₁ h₂ hr₁ hr₂
      obtain ⟨old₁, hold₁, heq₁⟩ := hset id sweep₁ h₁
      obtain ⟨old₂, hold₂, heq₂⟩ := hset id' sweep₂ h₂
      exact hs id id' old₁ old₂ hold₁ hold₂ (heq₁ ▸ hr₁) (heq₂ ▸ hr₂)
    · intro id
      rw [rankIn, rankIn, OrderedMap.get?_set]
      split
      · next heq =>
        rw [← heq, hget]
        exact hrank sweep hstatus
      · exact le_refl _
    · intro id old hold
      rw [OrderedMap.get?_set]
      split
      · next heq =>
        obtain rfl := Option.some.inj (hget.symm.trans (heq ▸ hold))
        exact ⟨_, rfl, href sweep⟩
      · exact ⟨old, hold, rfl⟩

theorem ledger_markQueued (sweepId : String) (note : Option String) (nowIso : String) :
    Keeps (LedgerGrows rt) (markSweepQueued sweepId note nowIso) := by
  intro s
  refine LedgerGrows.step rt _ _ _ _ (fun _ => rfl) (fun _ => rfl) ?_
  intro sweep hstatus
  rw [List.mem_singleton.mp hstatus]
  show 1 ≤ 2
  omega

theorem ledger_recordAttempt (sweepId : String) (note : Option String) (nowIso : String) :
    Keeps (LedgerGrows rt) (recordSweepAttempt sweepId note nowIso) := by
  intro s
  exact LedgerGrows.step rt _ _ _ _ (fun _ => rfl) (fun _ => rfl) fun sweep _ => le_refl _

theorem ledger_markBroadcasted (sweepId txHash : String) (note : Option String) (nowIso : String) :
    Keeps (LedgerGrows rt) (markSweepBroadcasted sweepId txHash note nowIso) := by
  intro s
  refine LedgerGrows.step rt _ _ _ _ (fun _ => rfl) (fun _ => rfl) ?_
  intro sweep hstatus
  show rank sweep.status ≤ 3
  rcases List.mem_cons.mp hstatus with h | h
  · rw [h]
    decide
  · rw [List.mem_singleton.mp h]
    decide

theorem rank_le_four (status : SweepStatus) : rank status ≤ 4 := by cases status <;> decide

theorem ledger_failSweep (sweepId reason nowIso : String) :
    Keeps (LedgerGrows rt) (failSweep sweepId reason nowIso) := by
  intro s
  exact LedgerGrows.step rt _ _ _ _ (fun _ => rfl) (fun _ => rfl) fun sweep _ => rank_le_four _

theorem ledger_confirmSweep (sweepId : String) (note : Option String) (networkFee : Option NetworkFee)
    (nowIso : String) : Keeps (LedgerGrows rt) (confirmSweep sweepId note networkFee nowIso) := by
  intro s
  obtain ⟨hrecords, hdrawn⟩ := confirmSweep_records (s := s) sweepId note networkFee nowIso
  have hstep : LedgerGrows rt s (stepSweep sweepId [.planned, .broadcasted] "sweep must be planned or broadcasted"
      (confirmedSweep note nowIso) s).2 :=
    LedgerGrows.step rt _ _ _ _ (fun _ => rfl) (fun _ => rfl) fun sweep _ => rank_le_four _
  exact hstep.trans (LedgerGrows.frame hrecords (le_of_eq hdrawn.symm))

theorem ledger_enqueueJob (jobType : String) (payload : List (String × String)) (nowIso : String) :
    Keeps (LedgerGrows rt) (enqueueJob rt jobType payload nowIso) := by
  intro s
  show LedgerGrows rt s (enqueueJob rt jobType payload nowIso s).2
  exact LedgerGrows.frame rfl (Nat.le_succ _)

/-- the store after a sweep is created -/
theorem createSweepRecord_apply (input : SweepRecordInput) :
    createSweepRecord rt input s = (.ok (plannedSweep (rt.uuid s.uuidsDrawn) input),
      { s with
        uuidsDrawn := s.uuidsDrawn + 1
        sweepRecords := s.sweepRecords.set (rt.uuid s.uuidsDrawn) (plannedSweep (rt.uuid s.uuidsDrawn) input) }) := rfl

/-- a sweep of a deposit that has none -/
theorem ledger_create (huuid : Function.Injective rt.uuid) {depositId : String} {input : SweepRecordInput}
    (href : input.externalRef = some (depositRef depositId))
    (hnone : s.findSweepByExternalRef (depositRef depositId) = none) :
    LedgerGrows rt s (createSweepRecord rt input s).2 := by
  intro hk
  have hfresh := hk.fresh huuid
  have hother : ∀ id sweep, s.sweepRecords.get? id = some sweep → sweep.externalRef ≠ some (depositRef depositId) := by
    intro id sweep hget
    have hmem := OrderedMap.mem_values_of_get? hget
    simpa using List.find?_eq_none.mp hnone sweep hmem
  rw [createSweepRecord_apply]
  have hown : (plannedSweep (rt.uuid s.uuidsDrawn) input).sweepId = rt.uuid s.uuidsDrawn := rfl
  refine ⟨hk.set hown ⟨s.uuidsDrawn, Nat.lt_succ_self _, rfl⟩ (Nat.le_succ _) rfl, ?_, ?_, ?_⟩
  · intro d hs id id' sweep sweep' h h' hr hr'
    simp only [OrderedMap.get?_set] at h h'
    split at h
    · next heq =>
      obtain rfl := Option.some.inj h
      have hd : d = depositId := depositRef_injective (Option.some.inj (hr.symm.trans href))
      subst hd
      split at h'
      · next heq' => exact heq.symm.trans heq'
      · exact absurd hr' (hother id' sweep' h')
    · split at h'
      · next heq' =>
        obtain rfl := Option.some.inj h'
        have hd : d = depositId := depositRef_injective (Option.some.inj (hr'.symm.trans href))
        subst hd
        exact absurd hr (hother id sweep h)
      · exact hs id id' sweep sweep' h h' hr hr'
  · intro id
    rw [rankIn, rankIn, OrderedMap.get?_set]
    split
    · next heq =>
      rw [← heq, hfresh]
      exact Nat.zero_le _
    · exact le_refl _
  · intro id old hold
    have hne : rt.uuid s.uuidsDrawn ≠ id := by
      intro heq
      rw [heq, hold] at hfresh
      cases hfresh
    exact ⟨old, (OrderedMap.get?_set_of_ne _ hne _).trans hold, rfl⟩

/-! ## every call of a cycle -/

theorem keeps_onLedger {α : Type} {op : InMemorySweeps.Op α} (h : Keeps (LedgerGrows rt) op) :
    Keeps (Grows rt) (onLedger op) := fun w => ⟨rfl, h w.ledger⟩

theorem keeps_call {α : Type} {op : Op α} (h : Keeps (Grows rt) op) (f : Fate) : Keeps (Grows rt) (call f op) :=
  Keeps.outcome (R := Grows rt) Grows.refl Grows.trans h f.outcome f.error

theorem keeps_pure {α : Type} (a : α) : Keeps (Grows rt) (pure a : Op α) := Keeps.pure Grows.refl a

theorem keeps_bind {α β : Type} {m : Op α} {f : α → Op β} (hm : Keeps (Grows rt) m)
    (hf : ∀ a, Keeps (Grows rt) (f a)) : Keeps (Grows rt) (m >>= f) :=
  Keeps.bind (R := Grows rt) Grows.trans hm hf

theorem keeps_tryCatch {α : Type} {m : Op α} {h : LedgerError → Op α} (hm : Keeps (Grows rt) m)
    (hh : ∀ e, Keeps (Grows rt) (h e)) : Keeps (Grows rt) (tryCatch m h) := by
  intro w
  have hw := hm w
  show Grows rt w (Method.tryCatch m h w).2
  unfold Method.tryCatch
  rcases hmw : m w with ⟨e | a, w₁⟩
  · rw [hmw] at hw
    exact hw.trans (hh e w₁)
  · rw [hmw] at hw
    exact hw

theorem keeps_tellPartner (f : Fate) (write : PartnerWrite) : Keeps (Grows rt) (tellPartner f write) :=
  keeps_call (fun w => ⟨rfl, LedgerGrows.refl w.ledger⟩) f

theorem keeps_notify (o : Outcome) (nowMs : ℤ) (input : SendInput) : Keeps (Grows rt) (notify o nowMs input) :=
  fun w => ⟨rfl, LedgerGrows.refl w.ledger⟩

theorem keeps_happen (happening : Happening) : Keeps (Grows rt) (happen happening) :=
  fun w => ⟨rfl, LedgerGrows.refl w.ledger⟩

theorem keeps_getDeposit (f : Fate) (deposit : Option ExternalDepositRecord) (depositId : String) :
    Keeps (Grows rt) (getDeposit rt f deposit depositId) := by
  refine keeps_bind (keeps_call (keeps_pure _) f) fun deposit => ?_
  have hreport : Keeps (Grows rt) (report rt deposit depositId) := Keeps.ite (keeps_happen _) (keeps_pure _)
  exact keeps_bind hreport fun _ => keeps_pure _

theorem keeps_queueSweep (c : BotCycle) (sweep : SweepRecord) : Keeps (Grows rt) (queueSweep rt c sweep) := by
  unfold queueSweep
  split
  · exact keeps_pure _
  · refine keeps_bind (keeps_call (keeps_onLedger (ledger_markQueued _ _ _)) _) fun _ => ?_
    exact keeps_bind (keeps_call (keeps_onLedger (ledger_enqueueJob _ _ _)) _) fun _ => keeps_pure _

theorem keeps_resourcesLow (c : BotCycle) (f : ExecuteFates) (sweep attempted : SweepRecord) (depositId : String)
    (network : TronNetwork) (r : TronAccountResources) :
    Keeps (Grows rt) (resourcesLow c f sweep attempted depositId network r) := by
  refine keeps_bind (keeps_notify _ _ _) fun _ => Keeps.ite ?_ (keeps_pure _)
  refine keeps_bind (keeps_call (keeps_onLedger (ledger_failSweep _ _ _)) _) fun _ => ?_
  refine keeps_bind (keeps_tellPartner _ _) fun _ => ?_
  exact keeps_bind (keeps_notify _ _ _) fun _ => keeps_pure _

theorem keeps_sendSweep (c : BotCycle) (f : ExecuteFates) (sweep : SweepRecord) (depositId : String)
    (signer : WalletSigner) : Keeps (Grows rt) (sendSweep c f sweep depositId signer) := by
  refine keeps_bind (keeps_call (keeps_happen _) _) fun _ => ?_
  refine keeps_bind (keeps_tellPartner _ _) fun _ => ?_
  exact keeps_bind (keeps_call (keeps_onLedger (ledger_markBroadcasted _ _ _ _)) _) fun _ => keeps_pure _

theorem keeps_sendFailed (c : BotCycle) (f : ExecuteFates) (sweep : SweepRecord) (depositId : String)
    (error : LedgerError) : Keeps (Grows rt) (sendFailed c f sweep depositId error) := by
  refine keeps_bind (keeps_call (keeps_onLedger (ledger_failSweep _ _ _)) _) fun _ => ?_
  refine keeps_bind (keeps_tellPartner _ _) fun _ => ?_
  exact keeps_bind (keeps_notify _ _ _) fun _ => keeps_pure _

theorem keeps_executeSweep (c : BotCycle) (sweep : SweepRecord) : Keeps (Grows rt) (executeSweep rt c sweep) := by
  unfold executeSweep
  dsimp only
  split
  · exact keeps_pure _
  · refine keeps_bind (keeps_getDeposit _ _ _) fun deposit => ?_
    split
    · exact keeps_pure _
    · refine keeps_bind (keeps_call (keeps_pure _) _) fun signer => ?_
      split
      · exact keeps_pure _
      · refine keeps_bind (keeps_call (keeps_onLedger (ledger_recordAttempt _ _ _)) _) fun attempted => ?_
        refine keeps_bind (keeps_call (keeps_pure _) _) fun r => Keeps.ite (keeps_resourcesLow _ _ _ _ _ _ _) ?_
        exact keeps_tryCatch (keeps_sendSweep _ _ _ _ _) fun e => keeps_sendFailed _ _ _ _ _

theorem keeps_confirmOne (c : BotCycle) (sweep : SweepRecord) : Keeps (Grows rt) (confirmOne c sweep) := by
  unfold confirmOne
  dsimp only
  split
  · refine keeps_bind (keeps_call (keeps_pure _) _) fun receipt => ?_
    split
    · exact keeps_bind (keeps_call (keeps_onLedger (ledger_confirmSweep _ _ _ _)) _) fun _ => keeps_pure _
    · refine keeps_bind (keeps_happen _) fun _ => ?_
      refine keeps_bind (keeps_call (keeps_onLedger (ledger_failSweep _ _ _)) _) fun _ => ?_
      refine keeps_bind (keeps_tellPartner _ _) fun _ => ?_
      exact keeps_bind (keeps_notify _ _ _) fun _ => keeps_pure _
    · exact keeps_pure _
  · exact keeps_pure _

/-- the creation of a sweep of a deposit that has none, answered or not -/
theorem grows_create (huuid : Function.Injective rt.uuid) {depositId : String} {input : SweepRecordInput} (f : Fate)
    (href : input.externalRef = some (depositRef depositId))
    (hnone : w.ledger.findSweepByExternalRef (depositRef depositId) = none) :
    Grows rt w (call f (onLedger (createSweepRecord rt input)) w).2 := by
  have hcreated : Grows rt w (onLedger (createSweepRecord rt input) w).2 := ⟨rfl, ledger_create huuid href hnone⟩
  unfold call
  cases f.outcome with
  | answered => exact hcreated
  | refused => exact Grows.refl w
  | lost => exact hcreated

/-- what a method does and then another one -/
theorem grows_bind {α β : Type} {m : Op α} {f : α → Op β} (hm : Grows rt w (m w).2)
    (hf : ∀ a w', m w = (.ok a, w') → Grows rt w' (f a w').2) : Grows rt w ((m >>= f) w).2 := by
  rw [Method.bind_apply]
  rcases hmw : m w with ⟨e | a, w'⟩
  · rw [hmw] at hm
    exact hm
  · rw [hmw] at hm
    exact hm.trans (hf a w' hmw)

theorem grows_importSweep (huuid : Function.Injective rt.uuid) (c : BotCycle) (event : StoredDepositEvent)
    (txHash : String) (hnone : w.ledger.findSweepByExternalRef (depositRef event.depositId) = none) :
    Grows rt w (importSweep rt c event txHash w).2 := by
  refine grows_bind (Grows.refl w) fun amount w' hparsed => ?_
  obtain rfl : w = w' := (Method.ofExcept_returns.mp hparsed).2
  refine grows_bind (grows_create huuid _ rfl hnone) fun sweep w₁ _ => ?_
  exact keeps_bind (keeps_call (keeps_onLedger (ledger_markBroadcasted _ _ _ _)) _) (fun _ => keeps_pure _) w₁

theorem grows_planSweep (huuid : Function.Injective rt.uuid) (c : BotCycle) (event : StoredDepositEvent)
    (hnone : w.ledger.findSweepByExternalRef (depositRef event.depositId) = none) :
    Grows rt w (planSweep rt c event w).2 := by
  refine grows_bind (Grows.refl w) fun amount w' hparsed => ?_
  obtain rfl : w = w' := (Method.ofExcept_returns.mp hparsed).2
  refine grows_bind (grows_create huuid _ rfl hnone) fun sweep w₁ _ => ?_
  exact keeps_pure _ w₁

theorem keeps_failDeclared (c : BotCycle) (event : StoredDepositEvent) (deposit : ExternalDepositRecord)
    (sweep : Option SweepRecord) : Keeps (Grows rt) (failDeclared c event deposit sweep) := by
  unfold failDeclared
  split
  · exact keeps_pure _
  · refine Keeps.ite (keeps_pure _) ?_
    refine keeps_bind (keeps_happen _) fun _ => ?_
    exact keeps_bind (keeps_call (keeps_onLedger (ledger_failSweep _ _ _)) _) fun _ => keeps_pure _

theorem keeps_planEvent (huuid : Function.Injective rt.uuid) (c : BotCycle) (event : StoredDepositEvent) :
    Keeps (Grows rt) (planEvent rt c event) := by
  intro w
  refine grows_bind (keeps_getDeposit _ _ _ w) fun deposit w₁ _ => ?_
  cases deposit with
  | none => exact Grows.refl w₁
  | some deposit =>
    simp only [Method.get_bind]
    refine grows_bind (keeps_call (keeps_pure _) _ w₁) fun sweep w₂ hfound => ?_
    -- what was looked up is what the ledger has: the look-up changes nothing
    have hfind : sweep = w₁.ledger.findSweepByExternalRef (depositRef event.depositId) ∧ w₂ = w₁ := by
      unfold call at hfound
      cases hf : (c.planFates event).find.outcome with
      | answered =>
        rw [hf] at hfound
        obtain ⟨h, h'⟩ := Method.pure_returns.mp hfound
        exact ⟨h.symm, h'.symm⟩
      | refused =>
        rw [hf] at hfound
        cases hfound
      | lost =>
        rw [hf] at hfound
        cases hfound
    obtain ⟨hsweep, rfl⟩ := hfind
    rw [Method.ite_apply]
    split
    · exact keeps_failDeclared c event deposit sweep w₂
    · cases sweep with
      | some sweep => exact Grows.refl w₂
      | none =>
        cases Submitted rt deposit with
        | some txHash => exact grows_importSweep huuid c event txHash hsweep.symm
        | none => exact grows_planSweep huuid c event hsweep.symm

/-! ## a whole cycle -/

theorem keeps_each {α β : Type} {body : α → Op β} (h : ∀ x, Keeps (Grows rt) (body x)) (xs : List α) :
    Keeps (Grows rt) (each body xs) := by
  induction xs with
  | nil => exact keeps_pure _
  | cons x xs ih => exact keeps_bind (h x) fun _ => keeps_bind ih fun _ => keeps_pure _

theorem keeps_sweepStage {body : SweepRecord → Op SweepStageResult} (h : ∀ x, Keeps (Grows rt) (body x)) (f : Fate)
    (limit : Nat) (status : SweepStatus) : Keeps (Grows rt) (sweepStage rt f limit status body) := by
  refine keeps_bind (Keeps.get Grows.refl) fun w => ?_
  exact keeps_bind (keeps_call (keeps_pure _) f) fun sweeps => keeps_each h sweeps

theorem keeps_plan (huuid : Function.Injective rt.uuid) (c : BotCycle) :
    Keeps (Grows rt) (planSweepsFromCompletedDeposits rt c) := by
  refine keeps_bind (Keeps.get Grows.refl) fun w => ?_
  exact keeps_bind (keeps_call (keeps_pure _) _) fun events => keeps_each (keeps_planEvent huuid c) events

theorem keeps_runCycle (huuid : Function.Injective rt.uuid) (c : BotCycle) : Keeps (Grows rt) (runCycle rt c) := by
  refine Keeps.ite ?_ (keeps_pure _)
  refine keeps_bind (keeps_plan huuid c) fun _ => ?_
  refine keeps_bind (keeps_sweepStage (keeps_queueSweep c) _ _ _) fun _ => ?_
  refine keeps_bind (keeps_sweepStage (keeps_executeSweep c) _ _ _) fun _ => ?_
  exact keeps_bind (keeps_sweepStage (keeps_confirmOne c) _ _ _) fun _ => keeps_pure _

/-! ## methods that leave the sweeps alone, and methods that move them -/

/-- the method returns, and the ledger and the events are as before -/
def Idle {α : Type} (m : Op α) (w : BotWorld) : Prop :=
  ∃ a w', m w = (.ok a, w') ∧ w'.ledger = w.ledger ∧ w'.events = w.events

/-- some sweep has come further, whether the method returned or not -/
def Moves {α : Type} (m : Op α) (w : BotWorld) : Prop :=
  ∃ id, rankIn w.ledger id < rankIn (m w).2.ledger id

theorem Idle.pure {α : Type} (a : α) (w : BotWorld) : Idle (pure a : Op α) w := ⟨a, w, rfl, rfl, rfl⟩

theorem Idle.state {α : Type} {m : Op α} (h : Idle m w) : (m w).2.ledger = w.ledger := by
  obtain ⟨a, w', hm, hledger, -⟩ := h
  rw [hm]
  exact hledger

theorem Idle.bind_idle {α β : Type} {m : Op α} {f : α → Op β} (h : Idle m w)
    (hf : ∀ a w', m w = (.ok a, w') → w'.ledger = w.ledger → w'.events = w.events → Idle (f a) w') :
    Idle (m >>= f) w := by
  obtain ⟨a, w', hm, hledger, hevents⟩ := h
  obtain ⟨b, w₂, hb, hledger₂, hevents₂⟩ := hf a w' hm hledger hevents
  refine ⟨b, w₂, ?_, hledger₂.trans hledger, hevents₂.trans hevents⟩
  rw [Method.bind_apply, hm]
  exact hb

theorem Idle.bind_moves {α β : Type} {m : Op α} {f : α → Op β} (h : Idle m w)
    (hf : ∀ a w', m w = (.ok a, w') → w'.ledger = w.ledger → w'.events = w.events → Moves (f a) w') :
    Moves (m >>= f) w := by
  obtain ⟨a, w', hm, hledger, hevents⟩ := h
  obtain ⟨id, hid⟩ := hf a w' hm hledger hevents
  refine ⟨id, ?_⟩
  rw [Method.bind_apply, hm]
  rwa [hledger] at hid

/-- what has moved stays moved -/
theorem Moves.bind {α β : Type} {m : Op α} {f : α → Op β} (h : Moves m w) (hgood : Keyed rt w.ledger)
    (hm : Grows rt w (m w).2) (hf : ∀ a, Keeps (Grows rt) (f a)) : Moves (m >>= f) w := by
  obtain ⟨id, hid⟩ := h
  refine ⟨id, ?_⟩
  have hw₁ := (hm.2 hgood).1
  rw [Method.bind_apply]
  rcases hmw : m w with ⟨e | a, w₁⟩
  · rw [hmw] at hid
    exact hid
  · rw [hmw] at hid hw₁
    exact lt_of_lt_of_le hid (((hf a w₁).2 hw₁).2.2.1 id)

theorem call_answered {α : Type} {f : Fate} (h : f.outcome = .answered) (op : Op α) : call f op = op := by
  rw [call, h]
  rfl

/-- an answer that changes nothing -/
theorem idle_answer {α : Type} {f : Fate} (h : f.outcome = .answered) (a : α) (w : BotWorld) :
    Idle (call f (return a)) w := by
  rw [call_answered h]
  exact Idle.pure a w

variable (rt) in
theorem idle_getDeposit {f : Fate} (h : f.outcome = .answered) (deposit : Option ExternalDepositRecord)
    (depositId : String) (w : BotWorld) :
    ∃ w', getDeposit rt f deposit depositId w = (.ok deposit, w') ∧ w'.ledger = w.ledger ∧ w'.events = w.events := by
  unfold getDeposit report
  rw [call_answered h]
  simp only [Method.pure_bind]
  by_cases hreport : (deposit.bind (Submitted rt)).isSome = true
  · rw [if_pos hreport]
    exact ⟨_, rfl, rfl, rfl⟩
  · rw [if_neg hreport]
    exact ⟨_, rfl, rfl, rfl⟩

/-- a step that is taken -/
theorem onLedger_step {sweepId : String} {sources : List SweepStatus} (message : String)
    (g : SweepRecord → SweepRecord) {sweep : SweepRecord} (hget : w.ledger.sweepRecords.get? sweepId = some sweep)
    (hstatus : sweep.status ∈ sources) :
    (onLedger (stepSweep sweepId sources message g) : Op SweepRecord) w = (.ok (g sweep),
      { w with ledger := { w.ledger with sweepRecords := w.ledger.sweepRecords.set sweepId (g sweep) } }) := by
  show ((stepSweep sweepId sources message g w.ledger).1,
    { w with ledger := (stepSweep sweepId sources message g w.ledger).2 }) = _
  rw [stepSweep_taken message g hget hstatus]

/-- a step of a sweep that takes it further -/
theorem moves_step {f : Fate} (h : f.outcome = .answered) {sweepId : String} {sources : List SweepStatus}
    (message : String) {g : SweepRecord → SweepRecord} {sweep : SweepRecord}
    (hget : w.ledger.sweepRecords.get? sweepId = some sweep) (hstatus : sweep.status ∈ sources)
    (hrank : rank sweep.status < rank (g sweep).status) :
    Moves (call f (onLedger (stepSweep sweepId sources message g))) w := by
  rw [call_answered h]
  refine ⟨sweepId, ?_⟩
  rw [onLedger_step message g hget hstatus, rankIn, rankIn, hget, OrderedMap.get?_set_self]
  exact hrank

/-! ## cycles in which every call is answered positively -/

structure Positive (rt : Runtime) (c : BotCycle) : Prop where
  runs : c.enabled = true ∧ c.configured = true
  lists : c.listCompleted.outcome = .answered ∧ c.listPlanned.outcome = .answered ∧
    c.listQueued.outcome = .answered ∧ c.listBroadcasted.outcome = .answered
  plan : ∀ event, (c.planFates event).getDeposit.outcome = .answered ∧
    (c.planFates event).find.outcome = .answered ∧ (c.planFates event).createSweep.outcome = .answered ∧
    (c.planFates event).markBroadcasted.outcome = .answered ∧
    ∃ deposit, (c.planFates event).deposit = some deposit ∧
      deposit.sweepStatus.map rt.toUpperCase ≠ some "FAILED"
  queue : ∀ sweep, (c.queueFates sweep).markQueued.outcome = .answered ∧
    (c.queueFates sweep).enqueueJob.outcome = .answered
  execute : ∀ sweep, (c.executeFates sweep).getDeposit.outcome = .answered ∧
    (c.executeFates sweep).signer.outcome = .answered ∧
    (c.executeFates sweep).recordAttempt.outcome = .answered ∧
    (c.executeFates sweep).resources.outcome = .answered ∧
    (c.executeFates sweep).broadcast.outcome = .answered ∧
    (c.executeFates sweep).submit.outcome = .answered ∧
    (c.executeFates sweep).markBroadcasted.outcome = .answered ∧
    (∃ deposit, (c.executeFates sweep).deposit = some deposit) ∧
    (∃ signer, (c.executeFates sweep).walletSigner = some signer ∧ signer.privateKey ≠ "") ∧
    ¬ c.Low (c.executeFates sweep).accountResources
  confirm : ∀ sweep, (c.confirmFates sweep).receipt.outcome = .answered ∧
    (c.confirmFates sweep).transactionReceipt.status = .confirmed ∧
    (c.confirmFates sweep).confirm.outcome = .answered

/-- no sweep refers to the deposit of this event -/
def Unswept (s : InMemorySweeps) (event : StoredDepositEvent) : Prop :=
  ∀ sweep ∈ s.sweepRecords.values, sweep.externalRef ≠ some (depositRef event.depositId)

theorem unswept_iff {event : StoredDepositEvent} :
    Unswept s event ↔ s.findSweepByExternalRef (depositRef event.depositId) = none := by
  rw [findSweepByExternalRef, List.find?_eq_none]
  simp [Unswept]

variable {c : BotCycle}

/-! ### the first stage -/

/-- what is done for an event whose deposit the partner has not declared as failed -/
def planBy (rt : Runtime) (c : BotCycle) (event : StoredDepositEvent) (deposit : ExternalDepositRecord)
    (sweep : Option SweepRecord) : Op SweepStageResult :=
  match sweep, Submitted rt deposit with
  | none, some txHash => importSweep rt c event txHash
  | some sweep, _ => return (if sweep.status = SweepStatus.failed then .failed else .skipped)
  | none, none => planSweep rt c event

theorem planEvent_positive (h : Positive rt c) (event : StoredDepositEvent) (w : BotWorld) :
    ∃ (deposit : ExternalDepositRecord) (w₁ : BotWorld), w₁.ledger = w.ledger ∧ w₁.events = w.events ∧
      planEvent rt c event w =
        planBy rt c event deposit (w.ledger.findSweepByExternalRef (depositRef event.depositId)) w₁ := by
  obtain ⟨hget, hfind, -, -, deposit, hdeposit, hstatus⟩ := h.plan event
  obtain ⟨w₁, hw₁, hledger, hevents⟩ := idle_getDeposit rt hget (some deposit) event.depositId w
  refine ⟨deposit, w₁, hledger, hevents, ?_⟩
  unfold planEvent
  rw [hdeposit, Method.bind_ok _ hw₁]
  simp only [Method.get_bind, call_answered hfind, Method.pure_bind, if_neg hstatus]
  rw [hledger]
  rfl

/-- an event that has a sweep is passed over -/
theorem idle_planEvent (h : Positive rt c) {event : StoredDepositEvent} (hswept : ¬ Unswept w.ledger event) :
    Idle (planEvent rt c event) w := by
  rw [unswept_iff, ← ne_eq, Option.ne_none_iff_exists'] at hswept
  obtain ⟨sweep, hsweep⟩ := hswept
  obtain ⟨deposit, w₁, hledger, hevents, hplan⟩ := planEvent_positive h event w
  rw [hsweep] at hplan
  exact ⟨_, w₁, hplan, hledger, hevents⟩

theorem moves_create (huuid : Function.Injective rt.uuid) {f : Fate} (hf : f.outcome = .answered) (hgood : Keyed rt w.ledger)
    (input : SweepRecordInput) : Moves (call f (onLedger (createSweepRecord rt input))) w := by
  rw [call_answered hf]
  refine ⟨rt.uuid w.ledger.uuidsDrawn, ?_⟩
  show rankIn w.ledger _ < rankIn (createSweepRecord rt input w.ledger).2 _
  rw [createSweepRecord_apply, rankIn, rankIn, hgood.fresh huuid, OrderedMap.get?_set_self]
  exact Nat.one_pos

/-- an event without a sweep gets one -/
theorem moves_planEvent (huuid : Function.Injective rt.uuid) (h : Positive rt c) {event : StoredDepositEvent}
    (hgood : Keyed rt w.ledger) (hamount : event.amountDecimal = formatRawAmount event.amountRaw)
    (hunswept : Unswept w.ledger event) : Moves (planEvent rt c event) w := by
  have hnone := unswept_iff.mp hunswept
  obtain ⟨-, -, hcreate, hmark, -⟩ := h.plan event
  obtain ⟨deposit, w₁, hledger, hevents, hplan⟩ := planEvent_positive h event w
  have hgood₁ : Keyed rt w₁.ledger := by
    rw [hledger]
    exact hgood
  have hnone₁ : w₁.ledger.findSweepByExternalRef (depositRef event.depositId) = none := by
    rw [hledger]
    exact hnone
  have hamount₁ : Idle (Method.ofExcept (parseStoredKoriAmount event.amountDecimal) : Op ℤ) w₁ := by
    rw [hamount, parse_formatRawAmount]
    exact ⟨_, w₁, rfl, rfl, rfl⟩
  suffices hmoves : Moves (planBy rt c event deposit none) w₁ by
    obtain ⟨id, hid⟩ := hmoves
    refine ⟨id, ?_⟩
    rw [hplan, hnone]
    rwa [hledger] at hid
  unfold planBy
  cases Submitted rt deposit with
  | some txHash =>
    refine hamount₁.bind_moves fun amount w₂ hw₂ _ _ => ?_
    obtain rfl : w₁ = w₂ := (Method.ofExcept_returns.mp hw₂).2
    refine (moves_create huuid hcreate hgood₁ _).bind hgood₁ (grows_create huuid _ rfl hnone₁) fun sweep => ?_
    exact keeps_bind (keeps_call (keeps_onLedger (ledger_markBroadcasted _ _ _ _)) _) fun _ => keeps_pure _
  | none =>
    refine hamount₁.bind_moves fun amount w₂ hw₂ _ _ => ?_
    obtain rfl : w₁ = w₂ := (Method.ofExcept_returns.mp hw₂).2
    exact (moves_create huuid hcreate hgood₁ _).bind hgood₁ (grows_create huuid _ rfl hnone₁) fun sweep => keeps_pure _

/-! ### the other stages -/

theorem idle_queueSweep {sweep : SweepRecord} (hpass : ¬ (parseDepositId sweep.externalRef).isSome) :
    Idle (queueSweep rt c sweep) w := by
  unfold queueSweep
  rw [Option.not_isSome_iff_eq_none.mp hpass]
  exact Idle.pure _ w

theorem moves_queueSweep (h : Positive rt c) (hgood : Keyed rt w.ledger) {sweep : SweepRecord}
    (hget : w.ledger.sweepRecords.get? sweep.sweepId = some sweep) (hstatus : sweep.status = .planned)
    (hdeposit : (parseDepositId sweep.externalRef).isSome) : Moves (queueSweep rt c sweep) w := by
  obtain ⟨depositId, hparsed⟩ := Option.isSome_iff_exists.mp hdeposit
  unfold queueSweep
  rw [hparsed]
  have hmark : Moves (call (c.queueFates sweep).markQueued
      (onLedger (markSweepQueued sweep.sweepId (some "queued by sweep bot") c.now))) w := by
    refine moves_step (h.queue sweep).1 _ hget (by rw [hstatus]; decide) ?_
    rw [hstatus]
    show 1 < 2
    omega
  refine hmark.bind hgood (keeps_call (keeps_onLedger (ledger_markQueued _ _ _)) _ w) fun _ => ?_
  exact keeps_bind (keeps_call (keeps_onLedger (ledger_enqueueJob _ _ _)) _) fun _ => keeps_pure _

theorem idle_executeSweep {sweep : SweepRecord}
    (hpass : ¬ (InMemoryLedger.truthy (parseDepositId sweep.externalRef)).isSome) :
    Idle (executeSweep rt c sweep) w := by
  unfold executeSweep
  dsimp only
  rw [Option.not_isSome_iff_eq_none.mp hpass]
  exact Idle.pure _ w

/-- the transfer of a sweep is sent, submitted and recorded -/
theorem sendSweep_positive (h : Positive rt c) {sweep current : SweepRecord} (depositId : String)
    (signer : WalletSigner) (hget : w.ledger.sweepRecords.get? sweep.sweepId = some current)
    (hstatus : current.status = .queued) :
    ∃ w', sendSweep c (c.executeFates sweep) sweep depositId signer w = (.ok .broadcasted, w') ∧
      w'.ledger.sweepRecords = w.ledger.sweepRecords.set sweep.sweepId
        (broadcastedSweep (c.executeFates sweep).txHash (some "broadcasted by sweep executor") c.now current) := by
  obtain ⟨-, -, -, -, hbroadcast, hsubmit, hmark, -⟩ := h.execute sweep
  unfold sendSweep tellPartner happen
  rw [call_answered hbroadcast, call_answered hsubmit, call_answered hmark]
  simp only [Method.modify_bind]
  let w₁ : BotWorld :=
    { w with
      happened := w.happened ++ [.sent (sentSweep (c.executeFates sweep) sweep depositId signer)]
      partner := w.partner ++ [.submitSweep depositId (c.executeFates sweep).txHash] }
  have hget₁ : w₁.ledger.sweepRecords.get? sweep.sweepId = some current := hget
  have hsource : current.status ∈ [SweepStatus.planned, SweepStatus.queued] := by
    rw [hstatus]
    decide
  have hmarked := onLedger_step "sweep must be planned or queued"
    (broadcastedSweep (c.executeFates sweep).txHash (some "broadcasted by sweep executor") c.now) hget₁ hsource
  rw [markSweepBroadcasted, Method.bind_ok _ hmarked]
  exact ⟨_, rfl, rfl⟩

theorem sent_rank (h : Positive rt c) {sweep current : SweepRecord} (depositId : String) (signer : WalletSigner)
    (hget : w.ledger.sweepRecords.get? sweep.sweepId = some current) (hstatus : current.status = .queued) :
    rankIn (tryCatch (sendSweep c (c.executeFates sweep) sweep depositId signer)
      (sendFailed c (c.executeFates sweep) sweep depositId) w).2.ledger sweep.sweepId = 3 := by
  obtain ⟨w', hsent, hrecords⟩ := sendSweep_positive h depositId signer hget hstatus
  show rankIn (Method.tryCatch _ _ w).2.ledger _ = 3
  rw [Method.tryCatch, hsent, rankIn, hrecords, OrderedMap.get?_set_self]
  rfl

theorem moves_executeSweep (h : Positive rt c) {sweep : SweepRecord}
    (hget : w.ledger.sweepRecords.get? sweep.sweepId = some sweep) (hstatus : sweep.status = .queued)
    (hdeposit : (InMemoryLedger.truthy (parseDepositId sweep.externalRef)).isSome) :
    Moves (executeSweep rt c sweep) w := by
  obtain ⟨depositId, hparsed⟩ := Option.isSome_iff_exists.mp hdeposit
  obtain ⟨hdep, hsigner, hattempt, hresources, -, -, -, ⟨deposit, hd⟩, ⟨signer, hs, hkey⟩, hlow⟩ := h.execute sweep
  obtain ⟨w₁, hw₁, hledger, -⟩ := idle_getDeposit rt hdep (some deposit) depositId w
  have hget₁ : w₁.ledger.sweepRecords.get? sweep.sweepId = some sweep := by
    rw [hledger]
    exact hget
  -- the attempt is recorded, and the sweep is still queued
  have hsource : sweep.status ∈ [SweepStatus.queued] := by
    rw [hstatus]
    decide
  have hattempted := onLedger_step "sweep must be queued"
    (attemptedSweep (some "attempted by sweep executor") c.now) hget₁ hsource
  unfold executeSweep
  dsimp only
  rw [hparsed, hd, hs]
  refine ⟨sweep.sweepId, ?_⟩
  dsimp only
  rw [Method.bind_ok _ hw₁]
  simp only [call_answered hsigner, Method.pure_bind, Option.filter_some, hkey, ne_eq, not_false_eq_true, decide_true,
    if_true, call_answered hattempt, recordSweepAttempt, Method.bind_ok _ hattempted, call_answered hresources,
    Method.ite_apply, if_neg hlow]
  let w₂ : BotWorld :=
    { w₁ with
      ledger :=
        { w₁.ledger with
          sweepRecords := w₁.ledger.sweepRecords.set sweep.sweepId
            (attemptedSweep (some "attempted by sweep executor") c.now sweep) } }
  have hget₂ : w₂.ledger.sweepRecords.get? sweep.sweepId =
      some (attemptedSweep (some "attempted by sweep executor") c.now sweep) := OrderedMap.get?_set_self _ _ _
  have hsent := sent_rank h depositId signer hget₂ hstatus
  show _ < rankIn (tryCatch (sendSweep c (c.executeFates sweep) sweep depositId signer)
    (sendFailed c (c.executeFates sweep) sweep depositId) w₂).2.ledger sweep.sweepId
  rw [hsent, rankIn, hget]
  show rank sweep.status < 3
  rw [hstatus]
  decide

theorem idle_confirmOne {sweep : SweepRecord} (hpass : ¬ ((InMemoryLedger.truthy sweep.txHash).isSome ∧
      (InMemoryLedger.truthy (parseDepositId sweep.externalRef)).isSome)) : Idle (confirmOne c sweep) w := by
  unfold confirmOne
  dsimp only
  cases htx : InMemoryLedger.truthy sweep.txHash with
  | none => exact Idle.pure _ w
  | some txHash =>
    cases hparsed : InMemoryLedger.truthy (parseDepositId sweep.externalRef) with
    | none => exact Idle.pure _ w
    | some depositId =>
      rw [htx, hparsed] at hpass
      exact absurd ⟨rfl, rfl⟩ hpass

theorem moves_confirmOne (h : Positive rt c) (hgood : Keyed rt w.ledger) {sweep : SweepRecord}
    (hget : w.ledger.sweepRecords.get? sweep.sweepId = some sweep) (hstatus : sweep.status = .broadcasted)
    (htx : (InMemoryLedger.truthy sweep.txHash).isSome)
    (hdeposit : (InMemoryLedger.truthy (parseDepositId sweep.externalRef)).isSome) :
    Moves (confirmOne c sweep) w := by
  obtain ⟨txHash, htx⟩ := Option.isSome_iff_exists.mp htx
  obtain ⟨depositId, hparsed⟩ := Option.isSome_iff_exists.mp hdeposit
  obtain ⟨hreceipt, hconfirmed, hconfirm⟩ := h.confirm sweep
  unfold confirmOne
  dsimp only
  rw [htx, hparsed]
  refine (idle_answer hreceipt _ w).bind_moves fun receipt w₁ hw₁ hledger _ => ?_
  rw [call_answered hreceipt] at hw₁
  obtain ⟨hr, rfl⟩ := Method.pure_returns.mp hw₁
  rw [← hr, hconfirmed]
  dsimp only
  have hmoves : Moves (call (c.confirmFates sweep).confirm
      (onLedger (InMemorySweeps.confirmSweep sweep.sweepId (some "confirmed by sweep confirmer")
        (some ⟨txHash, (c.confirmFates sweep).transactionReceipt.feeSun,
          (c.confirmFates sweep).transactionReceipt.energyUsed,
          (c.confirmFates sweep).transactionReceipt.bandwidthUsed⟩) c.now))) w := by
    rw [call_answered hconfirm]
    refine ⟨sweep.sweepId, ?_⟩
    show rankIn w.ledger sweep.sweepId < rankIn (InMemorySweeps.confirmSweep _ _ _ _ w.ledger).2 sweep.sweepId
    rw [rankIn, rankIn, (confirmSweep_records _ _ _ _).1, stepSweep_taken _ _ hget (by rw [hstatus]; decide), hget,
      OrderedMap.get?_set_self]
    show rank sweep.status < 4
    rw [hstatus]
    decide
  refine hmoves.bind hgood (keeps_call (keeps_onLedger (ledger_confirmSweep _ _ _ _)) _ w) fun _ => keeps_pure _

/-! ### a stage -/

/-- a loop moves the sweeps exactly when one of its turns does: the turns before the first one that does leave
everything as it is -/
theorem each_moves {α : Type} {body : α → Op SweepStageResult} {P : α → Prop} {xs : List α} (hgood : Keyed rt w.ledger)
    (hgrows : ∀ x, Keeps (Grows rt) (body x))
    (hidle : ∀ x ∈ xs, ¬ P x → ∀ w', w'.ledger = w.ledger → w'.events = w.events → Idle (body x) w')
    (hmoves : ∀ x ∈ xs, P x → ∀ w', w'.ledger = w.ledger → w'.events = w.events → Moves (body x) w') :
    ((∃ x ∈ xs, P x) → Moves (each body xs) w) ∧ ((∀ x ∈ xs, ¬ P x) → Idle (each body xs) w) := by
  induction xs generalizing w with
  | nil =>
    refine ⟨?_, fun _ => Idle.pure [] w⟩
    rintro ⟨x, hx, -⟩
    cases hx
  | cons x xs ih =>
    have hrest : ∀ w' : BotWorld, w'.ledger = w.ledger → w'.events = w.events →
        ((∃ y ∈ xs, P y) → Moves (each body xs) w') ∧ ((∀ y ∈ xs, ¬ P y) → Idle (each body xs) w') := by
      intro w' hledger hevents
      refine ih ?_ ?_ ?_
      · rw [hledger]
        exact hgood
      · intro y hy hnot w'' hl he
        exact hidle y (List.mem_cons_of_mem _ hy) hnot w'' (hl.trans hledger) (he.trans hevents)
      · intro y hy hyes w'' hl he
        exact hmoves y (List.mem_cons_of_mem _ hy) hyes w'' (hl.trans hledger) (he.trans hevents)
    have htail : ∀ b, Keeps (Grows rt) (each body xs >>= fun bs => pure (b :: bs)) := fun b =>
      keeps_bind (keeps_each hgrows xs) fun _ => keeps_pure _
    constructor
    · rintro ⟨y, hy, hyes⟩
      by_cases hx : P x
      · exact (hmoves x List.mem_cons_self hx w rfl rfl).bind hgood (hgrows x w) htail
      · have hy' : y ∈ xs := by
          rcases List.mem_cons.mp hy with rfl | hy
          · exact absurd hyes hx
          · exact hy
        refine (hidle x List.mem_cons_self hx w rfl rfl).bind_moves fun b w' hw' hledger hevents => ?_
        have hgood' : Keyed rt w'.ledger := by
          rw [hledger]
          exact hgood
        exact ((hrest w' hledger hevents).1 ⟨y, hy', hyes⟩).bind hgood' (keeps_each hgrows xs w') fun _ => keeps_pure _
    · intro hnone
      refine (hidle x List.mem_cons_self (hnone x List.mem_cons_self) w rfl rfl).bind_idle
        fun b w' hw' hledger hevents => ?_
      refine ((hrest w' hledger hevents).2 fun y hy => hnone y (List.mem_cons_of_mem _ hy)).bind_idle
        fun bs w'' _ _ _ => Idle.pure _ w''

/-- the amounts the deposit monitor has stored read as it writes them -/
def Amounts (w : BotWorld) : Prop := ∀ event ∈ w.events, event.amountDecimal = formatRawAmount event.amountRaw

/-- a stage moves the sweeps when `P` holds, and leaves everything as it is when it does not -/
structure Stage {α : Type} (rt : Runtime) (m : Op α) (P : BotWorld → Prop) : Prop where
  grows : Keeps (Grows rt) m
  same : ∀ w w' : BotWorld, w'.ledger = w.ledger → w'.events = w.events → (P w' ↔ P w)
  moves : ∀ w, Keyed rt w.ledger → Amounts w → P w → Moves m w
  idle : ∀ w, Keyed rt w.ledger → Amounts w → ¬ P w → Idle m w

/-- a stage over a page of sweeps, each of which is on the page as the ledger has it -/
theorem page_stage {f : Fate} (limit : Nat) (hf : f.outcome = .answered) {status : SweepStatus}
    {body : SweepRecord → Op SweepStageResult} {P : SweepRecord → Prop} (hgrows : ∀ x, Keeps (Grows rt) (body x))
    (hidle : ∀ (x : SweepRecord) (w' : BotWorld), ¬ P x → Idle (body x) w')
    (hmoves : ∀ (x : SweepRecord) (w' : BotWorld), Keyed rt w'.ledger →
      w'.ledger.sweepRecords.get? x.sweepId = some x → x.status = status → P x → Moves (body x) w') :
    Stage rt (sweepStage rt f limit status body)
      fun w => ∃ x ∈ w.ledger.listSweepRecordsByStatuses rt [status] limit, P x := by
  have hloop : ∀ w, Keyed rt w.ledger →
      ((∃ x ∈ w.ledger.listSweepRecordsByStatuses rt [status] limit, P x) →
        Moves (sweepStage rt f limit status body) w) ∧
      ((∀ x ∈ w.ledger.listSweepRecordsByStatuses rt [status] limit, ¬ P x) →
        Idle (sweepStage rt f limit status body) w) := by
    intro w hgood
    have hpage : sweepStage rt f limit status body w =
        each body (w.ledger.listSweepRecordsByStatuses rt [status] limit) w := by
      unfold sweepStage
      simp only [call_answered hf, Method.get_bind, Method.pure_bind]
    rw [Moves, Idle, hpage]
    refine each_moves (P := P) hgood hgrows (fun x _ hnot w' _ _ => hidle x w' hnot) fun x hx hyes w' hledger _ => ?_
    obtain ⟨hmem, hstatus⟩ := mem_page hx
    refine hmoves x w' ?_ ?_ (List.mem_singleton.mp hstatus) hyes
    · rw [hledger]
      exact hgood
    · rw [hledger]
      exact hgood.get? hmem
  exact
    { grows := keeps_sweepStage hgrows f limit status
      same := fun w w' hledger _ => by rw [hledger]
      moves := fun w hgood _ => (hloop w hgood).1
      idle := fun w hgood _ hnot => (hloop w hgood).2 fun x hx hyes => hnot ⟨x, hx, hyes⟩ }

/-! ### the whole cycle -/

/-- what each stage can advance -/
def Advances (rt : Runtime) (c : BotCycle) (w : BotWorld) : Prop :=
  (∃ event ∈ completedEvents rt c.cycleLimit w.events, Unswept w.ledger event) ∨
  (∃ sweep ∈ w.ledger.listSweepRecordsByStatuses rt [.planned] c.cycleLimit,
    (parseDepositId sweep.externalRef).isSome) ∨
  (∃ sweep ∈ w.ledger.listSweepRecordsByStatuses rt [.queued] c.cycleLimit,
    (InMemoryLedger.truthy (parseDepositId sweep.externalRef)).isSome) ∨
  ∃ sweep ∈ w.ledger.listSweepRecordsByStatuses rt [.broadcasted] c.cycleLimit,
    (InMemoryLedger.truthy sweep.txHash).isSome ∧ (InMemoryLedger.truthy (parseDepositId sweep.externalRef)).isSome

theorem mem_completedEvents {limit : Nat} {events : List StoredDepositEvent} {event : StoredDepositEvent}
    (h : event ∈ completedEvents rt limit events) : event ∈ events ∧ event.status = .completed := by
  have hmem := (List.mem_insertionSort _).mp (List.mem_of_mem_take h)
  obtain ⟨hevent, hstatus⟩ := List.mem_filter.mp hmem
  exact ⟨hevent, of_decide_eq_true hstatus⟩

theorem plan_stage (huuid : Function.Injective rt.uuid) (h : Positive rt c) :
    Stage rt (planSweepsFromCompletedDeposits rt c)
      fun w => ∃ event ∈ completedEvents rt c.cycleLimit w.events, Unswept w.ledger event := by
  have hloop : ∀ w, Keyed rt w.ledger → Amounts w →
      ((∃ event ∈ completedEvents rt c.cycleLimit w.events, Unswept w.ledger event) →
        Moves (planSweepsFromCompletedDeposits rt c) w) ∧
      ((∀ event ∈ completedEvents rt c.cycleLimit w.events, ¬ Unswept w.ledger event) →
        Idle (planSweepsFromCompletedDeposits rt c) w) := by
    intro w hgood ha
    have hpage : planSweepsFromCompletedDeposits rt c w =
        each (planEvent rt c) (completedEvents rt c.cycleLimit w.events) w := by
      unfold planSweepsFromCompletedDeposits
      simp only [call_answered h.lists.1, Method.get_bind, Method.pure_bind]
    rw [Moves, Idle, hpage]
    refine each_moves (P := Unswept w.ledger) hgood (keeps_planEvent huuid c)
      (fun event _ hnot w' hledger _ => idle_planEvent h (by rw [hledger]; exact hnot))
      fun event hevent hyes w' hledger _ => ?_
    have hgood' : Keyed rt w'.ledger := by
      rw [hledger]
      exact hgood
    refine moves_planEvent huuid h hgood' (ha event (mem_completedEvents hevent).1) ?_
    rw [hledger]
    exact hyes
  exact
    { grows := keeps_plan huuid c
      same := fun w w' hledger hevents => by rw [hledger, hevents]
      moves := fun w hgood ha => (hloop w hgood ha).1
      idle := fun w hgood ha hnot => (hloop w hgood ha).2 fun x hx hyes => hnot ⟨x, hx, hyes⟩ }

/-- two stages, one after the other: what the second one finds is what the first one has left as it was -/
theorem Stage.bind {α β : Type} [Nonempty α] {m : Op α} {f : α → Op β} {P Q : BotWorld → Prop} (hm : Stage rt m P)
    (hf : ∀ a, Stage rt (f a) Q) : Stage rt (m >>= f) fun w => P w ∨ Q w := by
  have hsame := (hf (Classical.arbitrary α)).same
  have hfound : ∀ w w' : BotWorld, w'.ledger = w.ledger → w'.events = w.events → Keyed rt w.ledger → Amounts w →
      Keyed rt w'.ledger ∧ Amounts w' := by
    intro w w' hledger hevents hgood ha
    rw [hledger, Amounts, hevents]
    exact ⟨hgood, ha⟩
  refine ⟨keeps_bind hm.grows fun a => (hf a).grows, ?_, ?_, ?_⟩
  · intro w w' hledger hevents
    rw [hm.same w w' hledger hevents, hsame w w' hledger hevents]
  · intro w hgood ha hor
    by_cases hP : P w
    · exact (hm.moves w hgood ha hP).bind hgood (hm.grows w) fun a => (hf a).grows
    · refine (hm.idle w hgood ha hP).bind_moves fun a w' _ hledger hevents => ?_
      obtain ⟨hgood', ha'⟩ := hfound w w' hledger hevents hgood ha
      exact (hf a).moves w' hgood' ha' ((hsame w w' hledger hevents).mpr (hor.resolve_left hP))
  · intro w hgood ha hnot
    refine (hm.idle w hgood ha fun hP => hnot (Or.inl hP)).bind_idle fun a w' _ hledger hevents => ?_
    obtain ⟨hgood', ha'⟩ := hfound w w' hledger hevents hgood ha
    exact (hf a).idle w' hgood' ha' fun hQ => hnot (Or.inr ((hsame w w' hledger hevents).mp hQ))

theorem Stage.map {α β : Type} {m : Op α} {P : BotWorld → Prop} (hm : Stage rt m P) (g : α → β) :
    Stage rt (m >>= fun a => pure (g a)) P where
  grows := keeps_bind hm.grows fun _ => keeps_pure _
  same := hm.same
  moves := fun w hgood ha hP => (hm.moves w hgood ha hP).bind hgood (hm.grows w) fun _ => keeps_pure _
  idle := fun w hgood ha hP => (hm.idle w hgood ha hP).bind_idle fun _ w' _ _ _ => Idle.pure _ w'

/-- a positive cycle moves the sweeps when one of its pages has something to advance, and leaves everything as it is
when none has -/
theorem runCycle_stage (huuid : Function.Injective rt.uuid) (h : Positive rt c) :
    Stage rt (runCycle rt c) (Advances rt c) := by
  obtain ⟨-, hplanned, hqueued, hbroadcasted⟩ := h.lists
  have hqueue := page_stage c.cycleLimit hplanned (keeps_queueSweep c)
    (P := fun sweep => (parseDepositId sweep.externalRef).isSome) (fun _ _ => idle_queueSweep)
    fun _ _ hgood hget hstatus hyes => moves_queueSweep h hgood hget hstatus hyes
  have hexecute := page_stage c.cycleLimit hqueued (keeps_executeSweep c)
    (P := fun sweep => (InMemoryLedger.truthy (parseDepositId sweep.externalRef)).isSome)
    (fun _ _ => idle_executeSweep) fun _ _ _ hget hstatus hyes => moves_executeSweep h hget hstatus hyes
  have hconfirm := page_stage c.cycleLimit hbroadcasted (keeps_confirmOne c)
    (P := fun sweep => (InMemoryLedger.truthy sweep.txHash).isSome ∧
      (InMemoryLedger.truthy (parseDepositId sweep.externalRef)).isSome) (fun _ _ => idle_confirmOne)
    fun _ _ hgood hget hstatus hyes => moves_confirmOne h hgood hget hstatus hyes.1 hyes.2
  unfold runCycle
  rw [if_pos h.runs]
  exact (plan_stage huuid h).bind fun _ => hqueue.bind fun _ => hexecute.bind fun _ => hconfirm.map _

/-! ## runs -/

/-- a completed deposit has no sweep, or a sweep of a deposit has not been sent -/
def Pending (w : BotWorld) : Prop :=
  (∃ event ∈ w.events, event.status = .completed ∧ Unswept w.ledger event) ∨
    ∃ sweep ∈ w.ledger.sweepRecords.values, (sweep.status = .planned ∨ sweep.status = .queued) ∧
      (parseDepositId sweep.externalRef).isSome

/-- the sweeps, or the status of one of them, are not the same -/
def Changed (s s' : InMemorySweeps) : Prop :=
  ∃ id, (s.sweepRecords.get? id).map (·.status) ≠ (s'.sweepRecords.get? id).map (·.status)

theorem changed_iff (huuid : Function.Injective rt.uuid) (h : Positive rt c) (hk : Keyed rt w.ledger)
    (ha : Amounts w) : Changed w.ledger (c.exec rt w).ledger ↔ Advances rt c w := by
  have hstage := runCycle_stage huuid h
  constructor
  · rintro ⟨id, hid⟩
    by_contra hnot
    exact hid (by rw [BotCycle.exec, (hstage.idle w hk ha hnot).state])
  · intro hadvances
    obtain ⟨id, hid⟩ := hstage.moves w hk ha hadvances
    refine ⟨id, fun heq => absurd hid ?_⟩
    have hrank : ∀ s : InMemorySweeps, rankIn s id = ((s.sweepRecords.get? id).map (·.status)).elim 0 rank := by
      intro s
      rw [rankIn]
      cases s.sweepRecords.get? id <;> rfl
    rw [hrank, hrank, heq]
    exact lt_irrefl _

theorem mem_completedEvents_of_short {limit : Nat} {event : StoredDepositEvent} (h : event ∈ w.events)
    (hstatus : event.status = .completed) (hshort : w.events.countP (fun event => event.status = .completed) ≤ limit) :
    event ∈ completedEvents rt limit w.events := by
  unfold completedEvents
  rw [List.take_of_length_le]
  · exact (List.mem_insertionSort _).mpr (List.mem_filter.mpr ⟨h, decide_eq_true hstatus⟩)
  · rwa [List.length_insertionSort, ← List.countP_eq_length_filter]

/-- nothing starves while the pages are not full -/
theorem advances_of_room (hnamed : ∀ sweep ∈ w.ledger.sweepRecords.values, parseDepositId sweep.externalRef ≠ some "")
    (hcompleted : w.events.countP (fun event => event.status = .completed) ≤ c.cycleLimit)
    (hplanned : w.ledger.sweepRecords.values.countP (fun sweep => sweep.status ∈ [SweepStatus.planned]) ≤ c.cycleLimit)
    (hqueued : w.ledger.sweepRecords.values.countP (fun sweep => sweep.status ∈ [SweepStatus.queued]) ≤ c.cycleLimit)
    (h : Pending w) : Advances rt c w := by
  rcases h with ⟨event, hevent, hstatus, hunswept⟩ | ⟨sweep, hsweep, hstatus | hstatus, hdeposit⟩
  · exact Or.inl ⟨event, mem_completedEvents_of_short hevent hstatus hcompleted, hunswept⟩
  · exact Or.inr (Or.inl ⟨sweep, mem_page_of_short hsweep (List.mem_singleton.mpr hstatus) hplanned, hdeposit⟩)
  · refine Or.inr (Or.inr (Or.inl ⟨sweep, mem_page_of_short hsweep (List.mem_singleton.mpr hstatus) hqueued, ?_⟩))
    rw [InMemoryLedger.truthy]
    · exact hdeposit
    · exact hnamed sweep hsweep

theorem reached_stored (huuid : Function.Injective rt.uuid) (cycles : List BotCycle) (hk : Keyed rt w.ledger)
    (ha : Amounts w) : Grows rt w (runCalls (fun c => c.exec rt) cycles w) ∧
      Keyed rt (runCalls (fun c => c.exec rt) cycles w).ledger ∧ Amounts (runCalls (fun c => c.exec rt) cycles w) := by
  have hgrows : Grows rt w (runCalls (fun c => c.exec rt) cycles w) :=
    run_invariant (I := Grows rt w)
      (fun c w' (_ : True) hw' => hw'.trans (keeps_runCycle huuid c w')) (fun _ _ => trivial) (Grows.refl w)
  refine ⟨hgrows, (hgrows.2 hk).1, ?_⟩
  rw [Amounts, hgrows.1]
  exact ha

end

/-- No cycle gives a deposit a second sweep; and in every state that cycles reach, a positive cycle that finds
something pending changes the sweeps, provided that one of its four pages has something to advance, and only then. -/
theorem run_starvation {rt : Runtime} (huuid : Function.Injective rt.uuid) {start : BotWorld}
    (hk : Keyed rt start.ledger) (ha : Amounts start) (cycles : List BotCycle) :
    (∀ depositId, Single start.ledger depositId →
      Single (runCalls (fun c => c.exec rt) cycles start).ledger depositId) ∧
    ∀ c, Positive rt c →
      ((Pending (runCalls (fun c => c.exec rt) cycles start) →
          Changed (runCalls (fun c => c.exec rt) cycles start).ledger
            (c.exec rt (runCalls (fun c => c.exec rt) cycles start)).ledger) ↔
        (Pending (runCalls (fun c => c.exec rt) cycles start) →
          Advances rt c (runCalls (fun c => c.exec rt) cycles start))) := by
  obtain ⟨hgrows, hk', ha'⟩ := reached_stored huuid cycles hk ha
  refine ⟨(hgrows.2 hk).2.1, fun c hc => ?_⟩
  rw [changed_iff huuid hc hk' ha']

/-! ## a page of one -/

def answered : Fate := ⟨.answered, .plain "connection lost"⟩

/-- a cycle with pages of one, in which every call is answered positively -/
def onePage : BotCycle where
  enabled := true
  configured := true
  cycleLimit := 1
  hotWalletAddress := "THot"
  sweepSourceMinTrx := 0
  sweepSourceMinEnergy := 0
  sweepQueueTimeoutSec := 600
  sweepMaxRetryCount := 3
  now := "2024-05-01T00:00:00.000Z"
  nowMs := 1714521600000
  timeMs _ := none
  toFixed6 _ := "0.000000"
  messageOf _ := "error"
  listCompleted := answered
  listPlanned := answered
  listQueued := answered
  listBroadcasted := answered
  planFates _ := ⟨answered, some ⟨none, none, none⟩, answered, answered, answered, answered⟩
  queueFates _ := ⟨answered, answered⟩
  executeFates _ :=
    { getDeposit := answered
      deposit := some ⟨none, none, none⟩
      signer := answered
      walletSigner := some ⟨"TSource", "key"⟩
      recordAttempt := answered
      resources := answered
      accountResources := ⟨5000000, 1000, 0, 1000, 0⟩
      lowAlert := .answered
      failLow := answered
      partnerFailLow := answered
      timeoutAlert := .answered
      broadcast := answered
      txHash := "tx"
      submit := answered
      markBroadcasted := answered
      failSweep := answered
      partnerFail := answered
      alert := .answered }
  confirmFates _ := ⟨answered, ⟨.confirmed, 0, 0, 0⟩, answered, answered, answered, .answered⟩

theorem onePage_positive : Positive Runtime.numbered onePage where
  runs := ⟨rfl, rfl⟩
  lists := ⟨rfl, rfl, rfl, rfl⟩
  plan _ := ⟨rfl, rfl, rfl, rfl, ⟨none, none, none⟩, rfl, by decide⟩
  queue _ := ⟨rfl, rfl⟩
  execute _ := ⟨rfl, rfl, rfl, rfl, rfl, rfl, rfl, ⟨⟨none, none, none⟩, rfl⟩, ⟨⟨"TSource", "key"⟩, rfl, by decide⟩,
    by show ¬ onePage.Low ⟨5000000, 1000, 0, 1000, 0⟩; decide +kernel⟩
  confirm _ := ⟨rfl, rfl, rfl⟩

def completedDeposit (depositId : String) (blockTimestampMs : ℤ) : StoredDepositEvent where
  eventKey := depositId
  depositId := depositId
  userId := "alice"
  currencyId := 1
  network := "mainnet"
  fromAddress := none
  toAddress := "TSource"
  txHash := "tx"
  eventIndex := 0
  blockNumber := 1
  blockTimestampMs := blockTimestampMs
  amountRaw := .ofNat 1000000
  amountDecimal := formatRawAmount (.ofNat 1000000)
  status := .completed
  foxyaRegisteredAt := some 0
  foxyaCompletedAt := some 0
  updatedAt := "2024-05-01T00:00:00.000Z"

/-- two completed deposits, and no sweep yet -/
def twoDeposits : BotWorld where
  events := [completedDeposit "old" 1, completedDeposit "new" 2]
  ledger := ⟨.empty, .empty, .empty, [], [], 0⟩
  partner := []
  alerts := .new
  happened := []

theorem completed_page : completedEvents Runtime.numbered 1 twoDeposits.events = [completedDeposit "new" 2] := rfl

theorem twoDeposits_keyed : Keyed Runtime.numbered twoDeposits.ledger where
  own := by rintro id sweep ⟨⟩
  drawn := by rintro id sweep ⟨⟩

theorem twoDeposits_amounts : Amounts twoDeposits := by
  intro event hevent
  rcases List.mem_cons.mp hevent with rfl | hevent
  · rfl
  · rw [List.mem_singleton.mp hevent]
    rfl

theorem run_starvation_example : Pending twoDeposits ∧
    Changed twoDeposits.ledger (onePage.exec Runtime.numbered twoDeposits).ledger := by
  have hpending : Pending twoDeposits :=
    Or.inl ⟨completedDeposit "old" 1, List.mem_cons_self, rfl, by rintro sweep ⟨⟩⟩
  have hrun := run_starvation Runtime.numbered_uuid_injective twoDeposits_keyed twoDeposits_amounts []
  refine ⟨hpending, ((hrun.2 onePage onePage_positive).mpr fun _ => ?_) hpending⟩
  refine Or.inl ⟨completedDeposit "new" 2, ?_, by rintro sweep ⟨⟩⟩
  show _ ∈ completedEvents Runtime.numbered 1 twoDeposits.events
  rw [completed_page]
  exact List.mem_singleton_self _

/-- the first cycle sweeps the newer deposit -/
theorem newer_swept : (onePage.exec Runtime.numbered twoDeposits).ledger.sweepRecords.values.map
    (fun sweep => (sweep.externalRef, sweep.status)) = [(some "foxya-deposit:new", .confirmed)] := by decide +kernel

theorem newer_swept_only (sweep : SweepRecord)
    (h : sweep ∈ (onePage.exec Runtime.numbered twoDeposits).ledger.sweepRecords.values) :
    sweep.externalRef = some "foxya-deposit:new" ∧ sweep.status = .confirmed := by
  have hmem := List.mem_map_of_mem (f := fun sweep : SweepRecord => (sweep.externalRef, sweep.status)) h
  rw [newer_swept, List.mem_singleton] at hmem
  exact Prod.mk.inj hmem

/-- it stays on the page, and the older deposit is never swept -/
theorem older_starves : ¬ (Pending (runCalls (fun c => c.exec Runtime.numbered) [onePage] twoDeposits) →
    Changed (runCalls (fun c => c.exec Runtime.numbered) [onePage] twoDeposits).ledger
      (onePage.exec Runtime.numbered (runCalls (fun c => c.exec Runtime.numbered) [onePage] twoDeposits)).ledger) := by
  obtain ⟨hgrows, hk, ha⟩ := reached_stored Runtime.numbered_uuid_injective [onePage] twoDeposits_keyed
    twoDeposits_amounts
  rw [changed_iff Runtime.numbered_uuid_injective onePage_positive hk ha]
  have hswept := newer_swept_only
  have hempty : ∀ status, status ≠ .confirmed → ∀ sweep, sweep ∉ listSweepRecordsByStatuses Runtime.numbered
      (onePage.exec Runtime.numbered twoDeposits).ledger [status] onePage.cycleLimit := by
    intro status hstatus sweep hsweep
    obtain ⟨hmem, hof⟩ := mem_page hsweep
    rw [(hswept sweep hmem).2, List.mem_singleton] at hof
    exact hstatus hof.symm
  intro h
  have hpending : Pending (runCalls (fun c => c.exec Runtime.numbered) [onePage] twoDeposits) := by
    refine Or.inl ⟨completedDeposit "old" 1, ?_, rfl, ?_⟩
    · rw [hgrows.1]
      exact List.mem_cons_self
    · intro sweep hsweep
      rw [(hswept sweep hsweep).1]
      decide
  rcases h hpending with ⟨event, hevent, hunswept⟩ | ⟨sweep, hsweep, -⟩ | ⟨sweep, hsweep, -⟩ | ⟨sweep, hsweep, -⟩
  · rw [hgrows.1] at hevent
    have hnew : event = completedDeposit "new" 2 := by
      have hpage : event ∈ completedEvents Runtime.numbered 1 twoDeposits.events := hevent
      rw [completed_page] at hpage
      exact List.mem_singleton.mp hpage
    have hlen : (onePage.exec Runtime.numbered twoDeposits).ledger.sweepRecords.values ≠ [] := by
      intro hnil
      have hmap := newer_swept
      rw [hnil] at hmap
      cases hmap
    obtain ⟨sweep, hsweep⟩ := List.exists_mem_of_ne_nil _ hlen
    refine hunswept sweep hsweep ?_
    rw [(hswept sweep hsweep).1, hnew]
    decide
  · exact hempty .planned (by decide) sweep hsweep
  · exact hempty .queued (by decide) sweep hsweep
  · exact hempty .broadcasted (by decide) sweep hsweep

end SweepBotService
