import CoinManage.Alerts.Service
import Mathlib.Data.List.ReduceOption

/-!
# Health alerts

Every cycle asks each health target how it is and keeps, under the target's key, the number of failures in a
row and the status it reported last.  What a target is due to report follows from its results alone; whether it
is delivered, the memory of the alert service decides too.

* `checkHealthTarget`     one target of a cycle;
* `dueNotices`            the notices that are due, given the results of a target;
* `Separate`              no other target has its key or its name and address;
* `timeline_due`          the notices are delivered when and as they are due, if no two are the same and none
                          is about a failure without a text; and only then.
-/

namespace ExternalAlertMonitorService

/-! ## targets and their states -/

structure HealthTarget where
  key : String
  name : String
  url : String
  deriving DecidableEq

inductive HealthCheckStatus where
  | healthy
  | unhealthy
  deriving DecidableEq, Repr

structure HealthCheckState where
  targetKey : String
  targetName : String
  targetUrl : String
  lastStatus : HealthCheckStatus
  consecutiveFailures : Nat
  lastCheckedAt : String
  lastFailureAt : Option String
  lastError : Option String
  deriving DecidableEq

/-- a request: its status with the `status` field of the body, in lower case, or what it threw -/
inductive FetchResult where
  | response (status : Nat) (statusField : Option String)
  | threw (message : String)

/-- the health states of the state repository, and the alert service -/
structure Monitor where
  healthStates : OrderedMap String HealthCheckState
  alerts : AlertService

def Monitor.new : Monitor := ⟨.empty, .new⟩

/-! ## a check -/

/-- `if (statusField)` -/
def present : Option String → Option String
  | some statusField => if statusField = "" then none else some statusField
  | none => none

/-- what a request says about the target: nothing is wrong, or an error text -/
def FetchResult.failure : FetchResult → Option String
  | .response status statusField =>
    if (200 ≤ status ∧ status ≤ 299) ∧ present statusField ∈ [none, some "ok", some "up"] then none
    else some ("status=" ++ toString status ++ match present statusField with
      | some statusField => ", bodyStatus=" ++ statusField
      | none => "")
  | .threw message => some message

def buildUnhealthyState (target : HealthTarget) (previous : Option HealthCheckState) (now errorMessage : String) :
    HealthCheckState where
  targetKey := target.key
  targetName := target.name
  targetUrl := target.url
  lastStatus := if previous.map (·.lastStatus) = some .unhealthy then .unhealthy else .healthy
  consecutiveFailures := orElse (previous.map (·.consecutiveFailures)) 0 + 1
  lastCheckedAt := now
  lastFailureAt := some now
  lastError := some errorMessage

def fetchTargetHealth (target : HealthTarget) (previous : Option HealthCheckState) (now : String)
    (result : FetchResult) : HealthCheckState :=
  match result.failure with
  | some message => buildUnhealthyState target previous now message
  | none =>
    { targetKey := target.key
      targetName := target.name
      targetUrl := target.url
      lastStatus := .healthy
      consecutiveFailures := 0
      lastCheckedAt := now
      lastFailureAt := previous.bind (·.lastFailureAt)
      lastError := none }

/-- the state to save, and the alerts sent -/
def handleHealthTransition (healthFailureThreshold : Nat) (nowMs : ℤ) (target : HealthTarget)
    (previous : Option HealthCheckState) (current : HealthCheckState) (alerts : AlertService) :
    HealthCheckState × AlertService :=
  if healthFailureThreshold ≤ current.consecutiveFailures ∧ previous.map (·.lastStatus) ≠ some .unhealthy ∧
      (present current.lastError).isSome then
    ({ current with lastStatus := .unhealthy },
      AlertService.notifyHealthCheckUnhealthy nowMs target.name target.url
        (orElse current.lastError "health target reported unhealthy") current.consecutiveFailures alerts)
  else if previous.map (·.lastStatus) = some .unhealthy ∧ current.lastStatus = .healthy then
    (current, AlertService.notifyHealthCheckRecovered nowMs target.name target.url alerts)
  else (current, alerts)

/-- the clock of a cycle, and what the requests come back with -/
structure HealthCycle where
  now : String
  nowMs : ℤ
  result : HealthTarget → FetchResult

def checkHealthTarget (healthFailureThreshold : Nat) (cycle : HealthCycle) (m : Monitor) (target : HealthTarget) :
    Monitor :=
  let previous := m.healthStates.get? target.key
  let current := fetchTargetHealth target previous cycle.now (cycle.result target)
  let handled := handleHealthTransition healthFailureThreshold cycle.nowMs target previous current m.alerts
  ⟨m.healthStates.set handled.1.targetKey handled.1, handled.2⟩

def checkHealthTargets (healthFailureThreshold : Nat) (healthTargets : List HealthTarget) (cycle : HealthCycle)
    (m : Monitor) : Monitor := healthTargets.foldl (checkHealthTarget healthFailureThreshold cycle) m

/-! ## what is due -/

inductive HealthNotice where
  | unhealthy (detail : String)
  | recovered
  deriving DecidableEq

/-- the notice due at a result (`none`: nothing is wrong), after some failures in a row -/
def due (threshold failures : Nat) : Option String → Option HealthNotice
  | none => if threshold ≤ failures then some .recovered else none
  | some detail => if failures + 1 = threshold then some (.unhealthy detail) else none

theorem due_healthy (threshold failures : Nat) :
    due threshold failures none = if threshold ≤ failures then some .recovered else none := rfl
theorem due_failure (threshold failures : Nat) (detail : String) :
    due threshold failures (some detail) = if failures + 1 = threshold then some (.unhealthy detail) else none := rfl

def countFailures (failures : Nat) : Option String → Nat
  | none => 0
  | some _ => failures + 1

@[simp] theorem countFailures_none (failures : Nat) : countFailures failures none = 0 := rfl
@[simp] theorem countFailures_some (failures : Nat) (detail : String) :
    countFailures failures (some detail) = failures + 1 := rfl

/-- result by result, the notice that is due -/
def dueNotices (threshold : Nat) : Nat → List (Option String) → List (Option HealthNotice)
  | _, [] => []
  | failures, r :: rs => due threshold failures r :: dueNotices threshold (countFailures failures r) rs

namespace HealthNotice

/-- the message of a notice -/
def input (threshold : Nat) (target : HealthTarget) : HealthNotice → SendInput
  | .unhealthy detail => AlertService.healthCheckUnhealthy target.name target.url detail threshold
  | .recovered => AlertService.healthCheckRecovered target.name target.url

def message (threshold : Nat) (target : HealthTarget) (n : HealthNotice) : AlertMessage :=
  (n.input threshold target).toAlertMessage

/-- the text under which the alert service remembers it -/
def text (threshold : Nat) (target : HealthTarget) (n : HealthNotice) : String :=
  AlertService.signature (n.message threshold target)

def isUnhealthy : HealthNotice → Bool
  | .unhealthy _ => true
  | .recovered => false

/-- the notice is not about a failure without a text -/
def HasText (n : HealthNotice) : Prop := n ≠ .unhealthy ""

end HealthNotice

/-- unhealthy and recovered by turns; `down`: the next one is a recovery -/
def AlternatesFrom : Bool → List HealthNotice → Prop
  | _, [] => True
  | down, n :: ns => n.isUnhealthy = !down ∧ AlternatesFrom (!down) ns

/-- what is due alternates -/
theorem dueNotices_alternate {threshold : Nat} (h : 1 ≤ threshold) (failures : Nat) (rs : List (Option String)) :
    AlternatesFrom (decide (threshold ≤ failures)) (dueNotices threshold failures rs).reduceOption := by
  induction rs generalizing failures with
  | nil => exact trivial
  | cons r rs ih =>
    have hrest := ih (countFailures failures r)
    unfold dueNotices
    cases r with
    | none =>
      rw [countFailures_none] at hrest ⊢
      rw [decide_eq_false (show ¬threshold ≤ 0 by omega)] at hrest
      by_cases hdown : threshold ≤ failures
      · rw [due, if_pos hdown, List.reduceOption_cons_of_some, decide_eq_true hdown]
        exact ⟨rfl, hrest⟩
      · rw [due, if_neg hdown, List.reduceOption_cons_of_none, decide_eq_false hdown]
        exact hrest
    | some detail =>
      rw [countFailures_some] at hrest ⊢
      by_cases hreached : failures + 1 = threshold
      · rw [decide_eq_true (show threshold ≤ failures + 1 by omega)] at hrest
        rw [due, if_pos hreached, List.reduceOption_cons_of_some,
          decide_eq_false (show ¬threshold ≤ failures by omega)]
        exact ⟨rfl, hrest⟩
      · rw [due, if_neg hreached, List.reduceOption_cons_of_none]
        have hsame : decide (threshold ≤ failures) = decide (threshold ≤ failures + 1) := by
          rw [decide_eq_decide]
          omega
        rw [hsame]
        exact hrest

/-! ## what a check does -/

/-- the keys under which the alert service remembers a target -/
def downKey (target : HealthTarget) : String := "health-unhealthy:" ++ target.name ++ ":" ++ target.url
def upKey (target : HealthTarget) : String := "health-recovered:" ++ target.name ++ ":" ++ target.url

def HealthNotice.key (target : HealthTarget) : HealthNotice → String
  | .unhealthy _ => downKey target
  | .recovered => upKey target

theorem input_key (threshold : Nat) (target : HealthTarget) (n : HealthNotice) :
    (n.input threshold target).dedupeKey = some (n.key target) := by
  cases n with
  | unhealthy detail =>
    unfold HealthNotice.key downKey
    rfl
  | recovered =>
    unfold HealthNotice.key upKey
    rfl

theorem input_cooldown (threshold : Nat) (target : HealthTarget) (n : HealthNotice) :
    (n.input threshold target).cooldownSec = none := by
  cases n <;> rfl

theorem downKey_ne_upKey (target other : HealthTarget) : downKey target ≠ upKey other := by
  intro h
  have hdown : "health-unhealthy:".toList = "health-".toList ++ 'u' :: "nhealthy:".toList := by decide +kernel
  have hup : "health-recovered:".toList = "health-".toList ++ 'r' :: "ecovered:".toList := by decide +kernel
  have hlist := congrArg String.toList h
  unfold downKey upKey at hlist
  rw [String.toList_append, String.toList_append, String.toList_append, String.toList_append,
    String.toList_append, String.toList_append, hdown, hup, List.append_assoc, List.append_assoc,
    List.append_assoc, List.append_assoc, List.append_assoc, List.append_assoc] at hlist
  have htail := List.append_cancel_left hlist
  rw [List.cons_append, List.cons_append] at htail
  exact absurd (List.cons.inj htail).1 (by decide)

/-- the stored state of a target after some failures in a row -/
def Counted (threshold : Nat) (target : HealthTarget) (m : Monitor) (failures : Nat) : Prop :=
  match m.healthStates.get? target.key with
  | none => failures = 0
  | some state => state.consecutiveFailures = failures ∧ (state.lastStatus = .unhealthy ↔ threshold ≤ failures)

/-- the notice that a check hands to the alert service -/
def said (threshold failures : Nat) (r : Option String) : Option HealthNotice :=
  match due threshold failures r with
  | some n => if n = .unhealthy "" then none else some n
  | none => none

theorem present_isSome (detail : String) : (present (some detail)).isSome = true ↔ detail ≠ "" := by
  unfold present
  by_cases h : detail = ""
  · simp [h]
  · simp [h]

/-- the flags of a check, in terms of the failures counted -/
theorem Counted.flags {threshold : Nat} (h : 1 ≤ threshold) {m : Monitor} {target : HealthTarget} {failures : Nat}
    (hcount : Counted threshold target m failures) :
    ((m.healthStates.get? target.key).map (·.lastStatus) = some .unhealthy ↔ threshold ≤ failures) ∧
    orElse ((m.healthStates.get? target.key).map (·.consecutiveFailures)) 0 = failures := by
  unfold Counted at hcount
  split at hcount
  · next hnone =>
    rw [hnone]
    subst hcount
    exact ⟨⟨fun he => (by cases he), fun hle => absurd hle (by omega)⟩, rfl⟩
  · next state hsome =>
    rw [hsome]
    obtain ⟨hfailures, hstatus⟩ := hcount
    refine ⟨?_, hfailures⟩
    rw [← hstatus]
    exact ⟨fun he => Option.some.inj he, fun he => congrArg some he⟩

theorem counted_set {threshold : Nat} {target : HealthTarget} {m : Monitor} {state : HealthCheckState}
    {alerts : AlertService} {failures : Nat} (hfailures : state.consecutiveFailures = failures)
    (hstatus : state.lastStatus = .unhealthy ↔ threshold ≤ failures) :
    Counted threshold target ⟨m.healthStates.set target.key state, alerts⟩ failures := by
  unfold Counted
  rw [OrderedMap.get?_set_self]
  exact ⟨hfailures, hstatus⟩

/-- A check counts, and says what is due, unless it has no text. -/
theorem checkHealthTarget_said {threshold : Nat} (h : 1 ≤ threshold) (cycle : HealthCycle) {m : Monitor}
    {target : HealthTarget} {failures : Nat} (hcount : Counted threshold target m failures) :
    let r := (cycle.result target).failure
    (checkHealthTarget threshold cycle m target).alerts = (match said threshold failures r with
      | some n => AlertService.send cycle.nowMs (n.input threshold target) m.alerts
      | none => m.alerts) ∧
    (said threshold failures r = due threshold failures r →
      Counted threshold target (checkHealthTarget threshold cycle m target) (countFailures failures r)) := by
  intro r
  obtain ⟨hdown, hfailures⟩ := hcount.flags h
  unfold checkHealthTarget fetchTargetHealth handleHealthTransition
  cases hr : (cycle.result target).failure with
  | none =>
    have hr' : r = none := hr
    simp only [hr', said, due, countFailures_none]
    have hquiet : (present (none : Option String)).isSome = false := rfl
    simp only [hquiet, and_false, if_false, Bool.false_eq_true, hdown, and_true]
    by_cases hle : threshold ≤ failures
    · simp only [hle, if_true]
      refine ⟨rfl, fun _ => counted_set rfl ?_⟩
      exact ⟨fun he => (by cases he), fun hz => absurd hz (by omega)⟩
    · simp only [hle, if_false]
      refine ⟨trivial, fun _ => counted_set rfl ?_⟩
      exact ⟨fun he => (by cases he), fun hz => absurd hz (by omega)⟩
  | some detail =>
    have hr' : r = some detail := hr
    simp only [hr', said, due, countFailures_some, buildUnhealthyState, hfailures, present_isSome, ne_eq]
    by_cases hle : threshold ≤ failures
    · -- the outage has been reported
      have hreported := hdown.mpr hle
      have hnot : ¬failures + 1 = threshold := by omega
      simp only [hreported, hnot, not_true_eq_false, false_and, and_false, if_false, if_true, reduceCtorEq]
      refine ⟨trivial, fun _ => counted_set rfl ?_⟩
      exact ⟨fun _ => by omega, fun _ => rfl⟩
    · have hunreported := mt hdown.mp hle
      simp only [hunreported, not_false_eq_true, true_and, if_false, false_and]
      by_cases hreached : failures + 1 = threshold
      · by_cases hdetail : detail = ""
        · subst hdetail
          simp only [hreached, not_true_eq_false, and_false, if_false, if_true]
          refine ⟨trivial, fun he => ?_⟩
          cases he
        · have hne : HealthNotice.unhealthy detail ≠ .unhealthy "" := fun he => by
            cases he
            exact hdetail rfl
          simp only [hreached, hdetail, le_refl, not_false_eq_true, and_self, if_true, hne, if_false]
          refine ⟨?_, fun _ => counted_set rfl ?_⟩
          · rfl
          · exact ⟨fun _ => le_refl _, fun _ => rfl⟩
      · have hbelow : ¬threshold ≤ failures + 1 := by omega
        simp only [hreached, hbelow, false_and, if_false]
        refine ⟨trivial, fun _ => counted_set rfl ?_⟩
        exact ⟨fun he => (by cases he), fun hz => absurd hz hbelow⟩

/-! ## one target among others -/

/-- the other target has another key, and another name or address -/
def Separate (target other : HealthTarget) : Prop :=
  other.key ≠ target.key ∧ downKey other ≠ downKey target ∧ upKey other ≠ upKey target

def IsAbout (target : HealthTarget) (message : AlertMessage) : Prop :=
  message.dedupeKey = some (downKey target) ∨ message.dedupeKey = some (upKey target)

instance (target : HealthTarget) (message : AlertMessage) : Decidable (IsAbout target message) :=
  inferInstanceAs (Decidable (_ ∨ _))

/-- what has happened in between is not about the target -/
structure Elsewhere (target : HealthTarget) (m m' : Monitor) : Prop where
  state : m'.healthStates.get? target.key = m.healthStates.get? target.key
  down : m'.alerts.lastText (downKey target) = m.alerts.lastText (downKey target)
  up : m'.alerts.lastText (upKey target) = m.alerts.lastText (upKey target)
  delivered : ∃ others, m'.alerts.delivered = m.alerts.delivered ++ others ∧ ∀ message ∈ others, ¬IsAbout target message

theorem Elsewhere.refl (target : HealthTarget) (m : Monitor) : Elsewhere target m m where
  state := rfl
  down := rfl
  up := rfl
  delivered := ⟨[], (List.append_nil _).symm, fun _ h => absurd h List.not_mem_nil⟩

theorem Elsewhere.trans {target : HealthTarget} {m m' m'' : Monitor} (h : Elsewhere target m m')
    (h' : Elsewhere target m' m'') : Elsewhere target m m'' where
  state := h'.state.trans h.state
  down := h'.down.trans h.down
  up := h'.up.trans h.up
  delivered := by
    obtain ⟨others, heq, hothers⟩ := h.delivered
    obtain ⟨others', heq', hothers'⟩ := h'.delivered
    refine ⟨others ++ others', by rw [heq', heq, List.append_assoc], ?_⟩
    intro message hmessage
    rcases List.mem_append.mp hmessage with hm | hm
    · exact hothers message hm
    · exact hothers' message hm

/-- whatever a check hands to the alert service is under a key of its target -/
theorem checkHealthTarget_alerts (threshold : Nat) (cycle : HealthCycle) (m : Monitor) (other : HealthTarget) :
    (checkHealthTarget threshold cycle m other).alerts = m.alerts ∨ ∃ input key, input.dedupeKey = some key ∧
      input.cooldownSec = none ∧ (key = downKey other ∨ key = upKey other) ∧
      (checkHealthTarget threshold cycle m other).alerts = AlertService.send cycle.nowMs input m.alerts := by
  unfold checkHealthTarget handleHealthTransition
  simp only
  split
  · right
    refine ⟨_, downKey other, ?_, rfl, Or.inl rfl, rfl⟩
    unfold downKey
    rfl
  · split
    · right
      refine ⟨_, upKey other, ?_, rfl, Or.inr rfl, rfl⟩
      unfold upKey
      rfl
    · exact Or.inl rfl

theorem checkHealthTarget_states (threshold : Nat) (cycle : HealthCycle) (m : Monitor) (other : HealthTarget) :
    ∃ state, (checkHealthTarget threshold cycle m other).healthStates = m.healthStates.set other.key state := by
  let previous := m.healthStates.get? other.key
  let current := fetchTargetHealth other previous cycle.now (cycle.result other)
  have hfetched : current.targetKey = other.key := by
    show (fetchTargetHealth other previous cycle.now (cycle.result other)).targetKey = other.key
    unfold fetchTargetHealth
    split <;> rfl
  have hhandled : (handleHealthTransition threshold cycle.nowMs other previous current m.alerts).1.targetKey =
      other.key := by
    unfold handleHealthTransition
    split
    · exact hfetched
    · split <;> exact hfetched
  exact ⟨_, congrArg (fun key => m.healthStates.set key _) hhandled⟩

theorem checkHealthTarget_other {target other : HealthTarget} (h : Separate target other) (threshold : Nat)
    (cycle : HealthCycle) (m : Monitor) : Elsewhere target m (checkHealthTarget threshold cycle m other) := by
  obtain ⟨hkey, hdown, hup⟩ := h
  have hstate : (checkHealthTarget threshold cycle m other).healthStates.get? target.key =
      m.healthStates.get? target.key := by
    obtain ⟨state, hset⟩ := checkHealthTarget_states threshold cycle m other
    rw [hset, OrderedMap.get?_set_of_ne _ hkey]
  rcases checkHealthTarget_alerts threshold cycle m other with hsame | ⟨input, key, hinput, hcool, hwhich, hsent⟩
  · exact ⟨hstate, by rw [hsame], by rw [hsame],
      ⟨[], by rw [hsame, List.append_nil], fun _ hm => absurd hm List.not_mem_nil⟩⟩
  · have hkeys : key ≠ downKey target ∧ key ≠ upKey target := by
      rcases hwhich with rfl | rfl
      · exact ⟨hdown, downKey_ne_upKey other target⟩
      · exact ⟨(downKey_ne_upKey target other).symm, hup⟩
    refine ⟨hstate, ?_, ?_, ?_⟩
    · rw [hsent, AlertService.send_other _ hinput hkeys.1]
    · rw [hsent, AlertService.send_other _ hinput hkeys.2]
    · refine ⟨_, by rw [hsent, AlertService.send_delivered _ hinput hcool], ?_⟩
      intro message hmessage habout
      split at hmessage
      · exact absurd hmessage List.not_mem_nil
      · rw [List.mem_singleton.mp hmessage] at habout
        rcases habout with hk | hk
        · rw [hinput] at hk
          exact hkeys.1 (Option.some.inj hk)
        · rw [hinput] at hk
          exact hkeys.2 (Option.some.inj hk)

theorem foldl_elsewhere {target : HealthTarget} {others : List HealthTarget}
    (h : ∀ other ∈ others, Separate target other) (threshold : Nat) (cycle : HealthCycle) (m : Monitor) :
    Elsewhere target m (others.foldl (checkHealthTarget threshold cycle) m) := by
  induction others generalizing m with
  | nil => exact .refl target m
  | cons other others ih =>
    have hone := checkHealthTarget_other (h other List.mem_cons_self) threshold cycle m
    exact hone.trans (ih (fun o ho => h o (List.mem_cons_of_mem _ ho)) _)

/-! ## what is delivered -/

/-- the text of the last unhealthy notice -/
def lastDetail (sent : List HealthNotice) : Option String :=
  (sent.filterMap fun
    | .unhealthy detail => some detail
    | .recovered => none).getLast?

/-- the notices of a target so far, none of them twice, after some failures in a row -/
inductive SoFar (threshold failures : Nat) : List HealthNotice → Prop
  | nothing (h : failures < threshold) : SoFar threshold failures []
  | down (h : threshold ≤ failures) (detail : String) : SoFar threshold failures [.unhealthy detail]
  | upAgain (h : failures < threshold) (detail : String) : SoFar threshold failures [.unhealthy detail, .recovered]
  | downAgain (h : threshold ≤ failures) (detail detail' : String) :
    SoFar threshold failures [.unhealthy detail, .recovered, .unhealthy detail']

/-- the monitor has counted the failures of the target, and sent these notices -/
structure Tracks (threshold : Nat) (target : HealthTarget) (m : Monitor) (failures : Nat) (sent : List HealthNotice) :
    Prop where
  counted : Counted threshold target m failures
  up : m.alerts.lastText (upKey target) = some (HealthNotice.recovered.text threshold target) ↔ .recovered ∈ sent
  down : ∀ detail, m.alerts.lastText (downKey target) = some ((HealthNotice.unhealthy detail).text threshold target) ↔
    lastDetail sent = some detail
  soFar : SoFar threshold failures sent

theorem Tracks.elsewhere {threshold : Nat} {target : HealthTarget} {m m' : Monitor} {failures : Nat}
    {sent : List HealthNotice} (h : Tracks threshold target m failures sent) (he : Elsewhere target m m') :
    Tracks threshold target m' failures sent where
  counted := by
    have hcounted := h.counted
    unfold Counted at hcounted ⊢
    rw [he.state]
    exact hcounted
  up := by
    rw [he.up]
    exact h.up
  down := fun detail => by
    rw [he.down]
    exact h.down detail
  soFar := h.soFar

theorem tracks_new {threshold : Nat} (h : 1 ≤ threshold) (target : HealthTarget) :
    Tracks threshold target .new 0 [] where
  counted := rfl
  up := ⟨fun he => (by cases he), fun hm => absurd hm List.not_mem_nil⟩
  down := fun _ => ⟨fun he => (by cases he), fun he => (by cases he)⟩
  soFar := .nothing (by omega)

/-- unhealthy notices with two texts are two messages -/
theorem text_injective {threshold : Nat} {target : HealthTarget} {detail detail' : String}
    (h : (HealthNotice.unhealthy detail).text threshold target = (HealthNotice.unhealthy detail').text threshold target) :
    detail = detail' := by
  have hbody : ∀ d, (HealthNotice.unhealthy d).text threshold target =
      "[KORION] Health Down - " ++ target.name ++ "\n" ++ ("url=" ++ target.url ++ "\n" ++ ("detail=" ++ d ++ "\n" ++
        ("consecutiveFailures=" ++ toString threshold))) := fun d => by
    unfold HealthNotice.text HealthNotice.message HealthNotice.input AlertService.healthCheckUnhealthy
      AlertService.signature
    simp only [String.intercalate_cons_of_ne_nil, ne_eq, reduceCtorEq, not_false_eq_true, List.cons_ne_self,
      String.intercalate_singleton]
  rw [hbody, hbody] at h
  have hlist := congrArg String.toList h
  simp only [String.toList_append, List.append_assoc, List.append_cancel_left_eq, List.append_cancel_right_eq] at hlist
  exact String.toList_injective hlist

/-- what a notice that is due says about the failures before and after -/
theorem due_some {threshold failures : Nat} (h : 1 ≤ threshold) {r : Option String} {n : HealthNotice}
    (hdue : due threshold failures r = some n) :
    (∃ detail, n = .unhealthy detail ∧ failures < threshold ∧ threshold ≤ countFailures failures r) ∨
    (n = .recovered ∧ threshold ≤ failures ∧ countFailures failures r < threshold) := by
  cases r with
  | none =>
    rw [due_healthy] at hdue
    split at hdue
    · next hle => exact Or.inr ⟨(Option.some.inj hdue).symm, hle, h⟩
    · cases hdue
  | some detail =>
    rw [due_failure] at hdue
    split at hdue
    · next hreached =>
      rw [countFailures_some]
      exact Or.inl ⟨detail, (Option.some.inj hdue).symm, by omega, by omega⟩
    · cases hdue

/-- without one, the failures stay on their side of the threshold -/
theorem due_none {threshold failures : Nat} (h : 1 ≤ threshold) {r : Option String}
    (hdue : due threshold failures r = none) : threshold ≤ countFailures failures r ↔ threshold ≤ failures := by
  cases r with
  | none =>
    rw [due_healthy] at hdue
    split at hdue
    · cases hdue
    · rw [countFailures_none]
      omega
  | some detail =>
    rw [due_failure] at hdue
    split at hdue
    · cases hdue
    · rw [countFailures_some]
      omega

theorem SoFar.congr {threshold failures failures' : Nat} {sent : List HealthNotice} (h : SoFar threshold failures sent)
    (hiff : threshold ≤ failures' ↔ threshold ≤ failures) : SoFar threshold failures' sent := by
  cases h with
  | nothing h => exact .nothing (by omega)
  | down h detail => exact .down (by omega) detail
  | upAgain h detail => exact .upAgain (by omega) detail
  | downAgain h detail detail' => exact .downAgain (by omega) detail detail'

theorem SoFar.next {threshold failures : Nat} (h1 : 1 ≤ threshold) {sent : List HealthNotice}
    (h : SoFar threshold failures sent) {r : Option String} {n : HealthNotice}
    (hdue : due threshold failures r = some n) (hnew : n ∉ sent) :
    SoFar threshold (countFailures failures r) (sent ++ [n]) := by
  rcases due_some h1 hdue with ⟨detail, rfl, hbefore, hafter⟩ | ⟨rfl, hbefore, hafter⟩
  · cases h with
    | nothing => exact .down hafter detail
    | upAgain _ first => exact .downAgain hafter first detail
    | down hle => omega
    | downAgain hle => omega
  · cases h with
    | down _ detail => exact .upAgain hafter detail
    | downAgain => simp at hnew
    | nothing hlt => omega
    | upAgain hlt => omega

/-- as long as none was sent twice, the alert service suppresses exactly the notices that were sent -/
theorem Tracks.suppressed {threshold : Nat} {target : HealthTarget} {m : Monitor} {failures : Nat}
    {sent : List HealthNotice} (h : Tracks threshold target m failures sent) (h1 : 1 ≤ threshold) {r : Option String}
    {n : HealthNotice} (hdue : due threshold failures r = some n) :
    m.alerts.lastText (n.key target) = some (n.text threshold target) ↔ n ∈ sent := by
  rcases due_some h1 hdue with ⟨detail, rfl, hbefore, -⟩ | ⟨rfl, -, -⟩
  · show m.alerts.lastText (downKey target) = _ ↔ _
    rw [h.down]
    cases h.soFar with
    | nothing => simp [lastDetail]
    | upAgain _ first => simp [lastDetail, eq_comm]
    | down hle => omega
    | downAgain hle => omega
  · exact h.up

/-- the memory after a notice was sent -/
theorem Tracks.sent {threshold : Nat} {target : HealthTarget} {m m' : Monitor} {failures : Nat}
    {sent : List HealthNotice} (h : Tracks threshold target m failures sent) (h1 : 1 ≤ threshold) {nowMs : ℤ}
    {r : Option String} {n : HealthNotice} (hdue : due threshold failures r = some n) (hnew : n ∉ sent)
    (hcounted : Counted threshold target m' (countFailures failures r))
    (halerts : m'.alerts = AlertService.send nowMs (n.input threshold target) m.alerts) :
    Tracks threshold target m' (countFailures failures r) (sent ++ [n]) := by
  have hown := @AlertService.send_memory nowMs _ _ m.alerts (input_key threshold target n)
    (input_cooldown threshold target n)
  cases n with
  | unhealthy detail =>
    have hother := @AlertService.send_other nowMs _ _ m.alerts
      (input_key threshold target (.unhealthy detail)) _ (downKey_ne_upKey target target)
    refine ⟨hcounted, ?_, fun detail' => ?_, h.soFar.next h1 hdue hnew⟩
    · rw [halerts, hother, h.up]
      simp
    · rw [halerts]
      show (AlertService.send nowMs _ m.alerts).lastText ((HealthNotice.unhealthy detail).key target) = _ ↔ _
      rw [hown]
      constructor
      · intro he
        have hsame := text_injective (Option.some.inj he)
        simp [lastDetail, hsame]
      · intro he
        obtain rfl : detail = detail' := by simpa [lastDetail] using he
        rfl
  | recovered =>
    have hother := @AlertService.send_other nowMs _ _ m.alerts
      (input_key threshold target .recovered) _ (downKey_ne_upKey target target).symm
    refine ⟨hcounted, ?_, fun detail' => ?_, h.soFar.next h1 hdue hnew⟩
    · rw [halerts]
      show (AlertService.send nowMs _ m.alerts).lastText (HealthNotice.recovered.key target) = _ ↔ _
      rw [hown]
      simp [HealthNotice.text, HealthNotice.message]
    · rw [halerts, hother, h.down]
      simp [lastDetail]

section
variable {threshold : Nat} {target : HealthTarget} {m : Monitor} {failures : Nat} {sent : List HealthNotice}
  {cycle : HealthCycle}

/-- nothing is due, nothing is sent -/
theorem Tracks.quiet (h : Tracks threshold target m failures sent) (h1 : 1 ≤ threshold)
    (hdue : due threshold failures (cycle.result target).failure = none) :
    (checkHealthTarget threshold cycle m target).alerts.delivered = m.alerts.delivered ∧
    Tracks threshold target (checkHealthTarget threshold cycle m target)
      (countFailures failures (cycle.result target).failure) sent := by
  obtain ⟨halerts, hcounted⟩ := checkHealthTarget_said h1 cycle h.counted
  have hsaid : said threshold failures (cycle.result target).failure = none := by
    unfold said
    rw [hdue]
  rw [hsaid] at halerts hcounted
  have hsame : (checkHealthTarget threshold cycle m target).alerts = m.alerts := halerts
  refine ⟨by rw [hsame], hcounted hdue.symm, ?_, fun detail => ?_, h.soFar.congr (due_none h1 hdue)⟩
  · rw [hsame]
    exact h.up
  · rw [hsame]
    exact h.down detail

/-- a new notice with a text is sent -/
theorem Tracks.spoken (h : Tracks threshold target m failures sent) (h1 : 1 ≤ threshold) {n : HealthNotice}
    (hdue : due threshold failures (cycle.result target).failure = some n) (htext : n.HasText) (hnew : n ∉ sent) :
    (checkHealthTarget threshold cycle m target).alerts.delivered =
      m.alerts.delivered ++ [n.message threshold target] ∧
    Tracks threshold target (checkHealthTarget threshold cycle m target)
      (countFailures failures (cycle.result target).failure) (sent ++ [n]) := by
  obtain ⟨halerts, hcounted⟩ := checkHealthTarget_said h1 cycle h.counted
  have hsaid : said threshold failures (cycle.result target).failure = some n := by
    unfold said
    rw [hdue]
    exact if_neg htext
  rw [hsaid] at halerts hcounted
  have hsend : (checkHealthTarget threshold cycle m target).alerts =
      AlertService.send cycle.nowMs (n.input threshold target) m.alerts := halerts
  have hfresh : m.alerts.lastText (n.key target) ≠ some (n.text threshold target) := fun he =>
    hnew ((h.suppressed h1 hdue).mp he)
  constructor
  · rw [hsend, AlertService.send_delivered _ (input_key threshold target n) (input_cooldown threshold target n)]
    exact congrArg (m.alerts.delivered ++ ·) (if_neg hfresh)
  · exact h.sent h1 hdue hnew (hcounted hdue.symm) hsend

/-- a notice that has no text, or was sent before, is not sent -/
theorem Tracks.silent (h : Tracks threshold target m failures sent) (h1 : 1 ≤ threshold) {n : HealthNotice}
    (hdue : due threshold failures (cycle.result target).failure = some n) (hnot : ¬(n.HasText ∧ n ∉ sent)) :
    (checkHealthTarget threshold cycle m target).alerts.delivered = m.alerts.delivered := by
  obtain ⟨halerts, -⟩ := checkHealthTarget_said h1 cycle h.counted
  unfold said at halerts
  rw [hdue] at halerts
  by_cases htext : n = .unhealthy ""
  · simp only [htext, if_true] at halerts
    rw [halerts]
  · have hold : n ∈ sent := by
      by_contra hnew
      exact hnot ⟨htext, hnew⟩
    simp only [htext, if_false] at halerts
    rw [halerts, AlertService.send_delivered _ (input_key threshold target n) (input_cooldown threshold target n)]
    have hlast : m.alerts.lastText (n.key target) =
        some (AlertService.signature (n.input threshold target).toAlertMessage) := (h.suppressed h1 hdue).mpr hold
    rw [if_pos hlast, List.append_nil]

/-! ## a target in the cycles -/

/-- the messages about the target that were delivered in between -/
def deliveredAbout (target : HealthTarget) (m m' : Monitor) : List AlertMessage :=
  (m'.alerts.delivered.drop m.alerts.delivered.length).filter (IsAbout target)

/-- cycle by cycle, the messages about the target -/
def timeline (threshold : Nat) (healthTargets : List HealthTarget) (target : HealthTarget) :
    List HealthCycle → Monitor → List (List AlertMessage)
  | [], _ => []
  | cycle :: cycles, m =>
    let m' := checkHealthTargets threshold healthTargets cycle m
    deliveredAbout target m m' :: timeline threshold healthTargets target cycles m'

/-- the target is in the list once, and the others are separate from it -/
def Among (target : HealthTarget) (healthTargets : List HealthTarget) : Prop :=
  ∃ before after, healthTargets = before ++ target :: after ∧ ∀ other ∈ before ++ after, Separate target other

theorem message_isAbout (n : HealthNotice) : IsAbout target (n.message threshold target) := by
  unfold IsAbout
  rw [HealthNotice.message, input_key]
  cases n with
  | unhealthy => exact Or.inl rfl
  | recovered => exact Or.inr rfl

/-- what a cycle does to a target is what its own check does -/
theorem cycle_cases {healthTargets : List HealthTarget} (h : Among target healthTargets) (threshold : Nat)
    (cycle : HealthCycle) (m : Monitor) : ∃ m₁, Elsewhere target m m₁ ∧
      Elsewhere target (checkHealthTarget threshold cycle m₁ target)
        (checkHealthTargets threshold healthTargets cycle m) := by
  obtain ⟨before, after, rfl, hothers⟩ := h
  refine ⟨before.foldl (checkHealthTarget threshold cycle) m,
    foldl_elsewhere (fun o ho => hothers o (List.mem_append_left _ ho)) threshold cycle m, ?_⟩
  rw [checkHealthTargets, List.foldl_append, List.foldl_cons]
  exact foldl_elsewhere (fun o ho => hothers o (List.mem_append_right _ ho)) threshold cycle _

theorem deliveredAbout_eq {m₁ m₂ m' : Monitor} {own : List AlertMessage} (hbefore : Elsewhere target m m₁)
    (hown : m₂.alerts.delivered = m₁.alerts.delivered ++ own) (hafter : Elsewhere target m₂ m')
    (habout : ∀ message ∈ own, IsAbout target message) : deliveredAbout target m m' = own := by
  obtain ⟨before, hb, hbnot⟩ := hbefore.delivered
  obtain ⟨after, ha, hanot⟩ := hafter.delivered
  have hall : m'.alerts.delivered = m.alerts.delivered ++ (before ++ (own ++ after)) := by
    rw [ha, hown, hb, List.append_assoc, List.append_assoc]
  have hnone : ∀ others : List AlertMessage, (∀ message ∈ others, ¬IsAbout target message) →
      others.filter (IsAbout target) = [] := fun others hothers =>
    List.filter_eq_nil_iff.mpr fun message hm => by simpa using hothers message hm
  have hself : own.filter (IsAbout target) = own :=
    List.filter_eq_self.mpr fun message hm => by simpa using habout message hm
  unfold deliveredAbout
  rw [hall, List.drop_left, List.filter_append, List.filter_append, hnone before hbnot, hnone after hanot, hself,
    List.nil_append, List.append_nil]

/-- the messages of the notices -/
def messages (threshold : Nat) (target : HealthTarget) (notices : List (Option HealthNotice)) :
    List (List AlertMessage) := notices.map fun n => (n.map (HealthNotice.message threshold target)).toList

/-- the results of a target, cycle by cycle -/
def resultsOf (target : HealthTarget) (cycles : List HealthCycle) : List (Option String) :=
  cycles.map fun cycle => (cycle.result target).failure

/-- What is delivered is what is due, exactly when no notice is due twice or without a text. -/
theorem timeline_due {healthTargets : List HealthTarget} (hamong : Among target healthTargets) (h1 : 1 ≤ threshold)
    (cycles : List HealthCycle) (h : Tracks threshold target m failures sent) (hnodup : sent.Nodup) :
    timeline threshold healthTargets target cycles m =
        messages threshold target (dueNotices threshold failures (resultsOf target cycles)) ↔
      (sent ++ (dueNotices threshold failures (resultsOf target cycles)).reduceOption).Nodup ∧
        ∀ n ∈ (dueNotices threshold failures (resultsOf target cycles)).reduceOption, n.HasText := by
  induction cycles generalizing m failures sent with
  | nil => simp [timeline, resultsOf, dueNotices, messages, hnodup]
  | cons cycle cycles ih =>
    obtain ⟨m₁, hbefore, hafter⟩ := cycle_cases hamong threshold cycle m
    have h₁ := h.elsewhere hbefore
    have hresults : resultsOf target (cycle :: cycles) = (cycle.result target).failure :: resultsOf target cycles := rfl
    rw [hresults, timeline, dueNotices, messages, List.map_cons, List.cons.injEq]
    cases hdue : due threshold failures (cycle.result target).failure with
    | none =>
      obtain ⟨hquiet, htracks⟩ := h₁.quiet h1 hdue
      have hnone := deliveredAbout_eq hbefore (by rw [hquiet, List.append_nil]) hafter
        (fun _ hm => absurd hm List.not_mem_nil)
      rw [hnone, List.reduceOption_cons_of_none]
      simp only [Option.map_none, Option.toList_none, true_and]
      exact ih (htracks.elsewhere hafter) hnodup
    | some n =>
      rw [List.reduceOption_cons_of_some]
      simp only [Option.map_some, Option.toList_some, List.forall_mem_cons]
      by_cases hsay : n.HasText ∧ n ∉ sent
      · obtain ⟨hspoken, htracks⟩ := h₁.spoken h1 hdue hsay.1 hsay.2
        have hone := deliveredAbout_eq hbefore hspoken hafter (by
          intro message hmessage
          rw [List.mem_singleton.mp hmessage]
          exact message_isAbout n)
        have hnext : (sent ++ [n]).Nodup := hnodup.append (List.nodup_singleton n) (by simpa using hsay.2)
        have hrest := ih (htracks.elsewhere hafter) hnext
        rw [List.append_assoc] at hrest
        rw [hone]
        simp only [true_and, hsay.1]
        exact hrest
      · have hnone := deliveredAbout_eq hbefore (by rw [h₁.silent h1 hdue hsay, List.append_nil]) hafter
          (fun _ hm => absurd hm List.not_mem_nil)
        rw [hnone]
        constructor
        · rintro ⟨hfirst, -⟩
          cases hfirst
        · rintro ⟨htwice, htext, -⟩
          have hnew : n ∉ sent := fun hold => (List.nodup_append.mp htwice).2.2 n hold n List.mem_cons_self rfl
          exact absurd ⟨htext, hnew⟩ hsay

end

/-- **Health alerts.**  In every sequence of cycles the notices of a target are delivered when they are due,
unhealthy and recovered by turns, exactly when no two of them are the same and none is without a text. -/
theorem health_alerts {threshold : Nat} (h1 : 1 ≤ threshold) {healthTargets : List HealthTarget}
    {target : HealthTarget} (hamong : Among target healthTargets) (cycles : List HealthCycle) :
    let notices := dueNotices threshold 0 (resultsOf target cycles)
    (timeline threshold healthTargets target cycles .new = messages threshold target notices ∧
      AlternatesFrom false notices.reduceOption) ↔
    notices.reduceOption.Nodup ∧ ∀ n ∈ notices.reduceOption, n ≠ .unhealthy "" := by
  intro notices
  have halternate := dueNotices_alternate h1 0 (resultsOf target cycles)
  rw [decide_eq_false (show ¬threshold ≤ 0 by omega)] at halternate
  have hiff := timeline_due hamong h1 cycles (tracks_new h1 target) List.nodup_nil
  rw [List.nil_append] at hiff
  constructor
  · rintro ⟨htimeline, -⟩
    exact hiff.mp htimeline
  · intro hfine
    exact ⟨hiff.mpr hfine, halternate⟩

/-! ## an outage like an earlier one -/

def exchangeApi : HealthTarget := ⟨"exchange-api", "exchange api", "https://exchange.example/health"⟩

def answering (r : FetchResult) : HealthCycle := ⟨"2026-03-01T00:00:00.000Z", 1772323200000, fun _ => r⟩

/-- two failed checks, and one that succeeds -/
def outage : List HealthCycle :=
  [answering (.threw "fetch failed"), answering (.threw "fetch failed"), answering (.response 200 (some "ok"))]

theorem among_single (target : HealthTarget) : Among target [target] :=
  ⟨[], [], rfl, fun _ h => absurd h List.not_mem_nil⟩

theorem health_alerts_example :
    timeline 2 [exchangeApi] exchangeApi outage .new =
      messages 2 exchangeApi [none, some (.unhealthy "fetch failed"), some .recovered] := by
  have hfine : (dueNotices 2 0 (resultsOf exchangeApi outage)).reduceOption =
      [.unhealthy "fetch failed", .recovered] := by decide +kernel
  exact ((health_alerts (by decide) (among_single exchangeApi) outage).mpr
    (by rw [hfine]; decide +kernel)).1

/-- **A second outage.**  It fails as the first one did, reaches the threshold and ends; neither is reported. -/
theorem second_outage :
    dueNotices 2 0 (resultsOf exchangeApi (outage ++ outage)) =
      [none, some (.unhealthy "fetch failed"), some .recovered, none, some (.unhealthy "fetch failed"),
        some .recovered] ∧
    timeline 2 [exchangeApi] exchangeApi (outage ++ outage) .new ≠
      messages 2 exchangeApi (dueNotices 2 0 (resultsOf exchangeApi (outage ++ outage))) := by
  have hdue : dueNotices 2 0 (resultsOf exchangeApi (outage ++ outage)) =
      [none, some (.unhealthy "fetch failed"), some .recovered, none, some (.unhealthy "fetch failed"),
        some .recovered] := by decide +kernel
  refine ⟨hdue, fun heq => ?_⟩
  have hsent : (timeline 2 [exchangeApi] exchangeApi (outage ++ outage) .new).map List.length =
      [0, 1, 1, 0, 0, 0] := by decide +kernel
  rw [heq, hdue] at hsent
  cases hsent

end ExternalAlertMonitorService
