import CoinManage.Consumers.Runner

/-!
# Which events are taken for duplicates

The key of an event is printed with the names of its top-level fields as the property list, and
`JSON.stringify` applies that list at every level: of a nested object only the fields are printed
whose names also stand at the top.

* `stable_eq_iff`     two payloads print the same exactly when they agree in what is kept;
* `flat_stable`       payloads without nested objects or arrays print differently;
* `distinct_events`   keys, and runs: an event is skipped only if an equal one was handled, or one
                      that differs in fields that are not printed;
* `nested_collision`  two such events.
-/

set_option linter.unusedSectionVars false

namespace Consumers
open Json Fields Interleaving

/-! ## keys -/

/-- the payload without the nested fields whose names are no field of its own, at every level -/
def Payload.printed (p : Payload) : Value := (p.json.keep p.keys).value

/-- two payloads that differ, but not in the fields that are printed -/
def Collide (p q : Payload) : Prop := p.value ≠ q.value ∧ p.printed = q.printed

namespace Payload
variable {p q : Payload}

theorem keys_nodup (p : Payload) : p.keys.Nodup := p.valid.1

theorem printed_eq (p : Payload) : p.printed =
    .object fun key => if key ∈ p.keys then
      (((p.fields.lookup key).map (keep p.keys)).or (inherited key)).map Json.value else none :=
  value_keep_object _ _

/-- what is printed has the payload's own fields -/
theorem mem_keys_iff (h : p.printed = q.printed) (key : String) : key ∈ p.keys ↔ key ∈ q.keys := by
  rw [printed_eq, printed_eq] at h
  have hfield := congrFun (Value.object.inj h) key
  have hown : ∀ r : Payload, key ∈ r.keys ↔ ((if key ∈ r.keys then
      (((r.fields.lookup key).map (keep r.keys)).or (inherited key)).map Json.value else none).isSome) := by
    intro r
    by_cases hmem : key ∈ r.keys
    · obtain ⟨v, hv⟩ := Option.isSome_iff_exists.mp (lookup_isSome.mpr hmem)
      rw [if_pos hmem, hv]
      exact ⟨fun _ => rfl, fun _ => hmem⟩
    · rw [if_neg hmem]
      exact ⟨fun h => absurd h hmem, nofun⟩
  rw [hown p, hown q, hfield]

theorem keys_perm (h : p.printed = q.printed) : p.keys.Perm q.keys := by
  rw [List.perm_ext_iff_of_nodup p.keys_nodup q.keys_nodup]
  exact mem_keys_iff h

theorem mem_sorted (p : Payload) (key : String) : key ∈ p.keys.mergeSort Utf16.le ↔ key ∈ p.keys :=
  List.mem_mergeSort

theorem sorted_nodup (p : Payload) : (p.keys.mergeSort Utf16.le).Nodup :=
  (List.mergeSort_perm _ _).nodup_iff.mpr p.keys_nodup

theorem keep_sorted (p : Payload) : (p.json.keep (p.keys.mergeSort Utf16.le)).value = p.printed := by
  rw [keep_of_mem_iff _ p.mem_sorted]
  rfl

/-- equal payloads are printed the same -/
theorem printed_congr (h : p.value = q.value) : p.printed = q.printed := by
  have hmem : ∀ key, key ∈ p.keys ↔ key ∈ q.keys := by
    intro key
    have hfield := value_object_inj.mp h key
    rw [keys, keys, ← lookup_isSome, ← lookup_isSome, ← Option.isSome_map (f := Json.value), hfield,
      Option.isSome_map]
  unfold printed
  rw [keep_of_mem_iff _ hmem]
  exact keep_congr _ h

end Payload

theorem stable_eq_iff {p q : Payload} : stable p = stable q ↔ p.printed = q.printed := by
  constructor
  · intro h
    have hpick : p.json.pick _ = q.json.pick _ := text_inj (valid_pick _ p.sorted_nodup p.valid)
      (valid_pick _ q.sorted_nodup q.valid) h
    rw [← p.keep_sorted, ← q.keep_sorted, ← value_pick, ← value_pick, hpick]
  · intro h
    have hsorted := sort_perm Utf16.total (Payload.keys_perm h)
    unfold stable
    rw [hsorted]
    congr 1
    apply pick_eq _ q.sorted_nodup
    rw [← hsorted, p.keep_sorted, hsorted, q.keep_sorted, h]

/-- payloads without nested objects or arrays print differently -/
theorem flat_stable {p q : Payload} (hp : ∀ field ∈ p.fields, field.2.isScalar)
    (hq : ∀ field ∈ q.fields, field.2.isScalar) : stable p = stable q ↔ p.value = q.value := by
  have hflat : ∀ r : Payload, (∀ field ∈ r.fields, field.2.isScalar) → r.printed = r.value := by
    intro r hr
    rw [r.printed_eq, Payload.value, Payload.json, value_object]
    congr 1
    funext key
    by_cases hmem : key ∈ r.keys
    · obtain ⟨v, hv⟩ := Option.isSome_iff_exists.mp (lookup_isSome.mpr hmem)
      rw [if_pos hmem, hv]
      show some (keep r.keys v).value = some v.value
      rw [keep_scalar _ (hr _ (mem_of_lookup hv))]
    · rw [if_neg hmem, lookup_eq_none.mpr hmem]
      rfl
  rw [stable_eq_iff, hflat p hp, hflat q hq]

section
variable {sha256 : List Char → String} (hsha : Function.Injective sha256)
include hsha

theorem buildEventKey_eq_iff (eventType : String) (p q : Payload) :
    buildEventKey sha256 eventType p = buildEventKey sha256 eventType q ↔ p.printed = q.printed := by
  rw [← stable_eq_iff]
  constructor
  · intro h
    have htext := List.append_cancel_left (hsha h)
    exact (List.cons.inj htext).2
  · intro h
    rw [buildEventKey, buildEventKey, h]

theorem buildEventKey_law (eventType : String) (p q : Payload) :
    (buildEventKey sha256 eventType p = buildEventKey sha256 eventType q ↔ p.value = q.value) ↔
      ¬Collide p q := by
  rw [buildEventKey_eq_iff hsha]
  constructor
  · rintro hiff ⟨hne, hprinted⟩
    exact hne (hiff.mp hprinted)
  · intro hno
    constructor
    · intro hprinted
      by_contra hne
      exact hno ⟨hne, hprinted⟩
    · exact Payload.printed_congr

end

/-! ## runs -/

/-- a call that was answered with a value -/
def Returned {β : Type} (r : Except LedgerError β) : Prop := ∃ b, r = .ok b

/-- a call that may stand in a run for `input`: a success is only recorded once it was handled -/
def Licensed (key : Input → String) (input : Input) (handled : Prop) {β : Type} : Effect β → Prop
  | .handle input' => input' = input
  | .upsertCheckpoint consumerName eventKey .succeeded =>
    handled ∧ consumerName = input.consumerName ∧ eventKey = key input
  | _ => True

def IsHandle {β : Type} : Effect β → Prop
  | .handle _ => True
  | _ => False

/-- all further calls are licensed -/
def Earned (key : Input → String) (input : Input) : Prop → Async Unit → Prop
  | _, .returns _ => True
  | _, .throws _ => True
  | handled, .calls call next => Licensed key input handled call ∧
    ∀ r, Earned key input (handled ∨ (IsHandle call ∧ Returned r)) (next r)

section
variable {key : Input → String} {input : Input} {handled handled' : Prop}

theorem Licensed.mono (h : handled → handled') {β : Type} {call : Effect β}
    (hcall : Licensed key input handled call) : Licensed key input handled' call := by
  cases call with
  | upsertCheckpoint consumerName eventKey lastStatus =>
    cases lastStatus with
    | succeeded => exact ⟨h hcall.1, hcall.2⟩
    | deadLettered => trivial
  | _ => exact hcall

theorem Earned.mono (h : handled → handled') {p : Async Unit} (hp : Earned key input handled p) :
    Earned key input handled' p := by
  induction p generalizing handled handled' with
  | returns => trivial
  | throws => trivial
  | calls call next ih => exact ⟨hp.1.mono h, fun r => ih r (Or.imp_left h) (hp.2 r)⟩

/-- a call that records no success and does not handle -/
def Plain {β : Type} : Effect β → Prop
  | .handle _ => False
  | .upsertCheckpoint _ _ .succeeded => False
  | _ => True

theorem earned_plain {β : Type} {call : Effect β} (h : Plain call)
    {next : Except LedgerError β → Async Unit} (hnext : ∀ r, Earned key input handled (next r)) :
    Earned key input handled (.calls call next) := by
  refine ⟨?_, fun r => (hnext r).mono Or.inl⟩
  cases call with
  | handle => exact h.elim
  | upsertCheckpoint consumerName eventKey lastStatus =>
    cases lastStatus with
    | succeeded => exact h.elim
    | deadLettered => trivial
  | _ => trivial

/-- one plain call, then the rest -/
theorem earned_perform {β : Type} {call : Effect β} (h : Plain call) {f : β → Async Unit}
    (hf : ∀ b, Earned key input handled (f b)) :
    Earned key input handled (Program.perform call >>= f) := by
  rw [Program.perform_bind]
  apply earned_plain h
  intro r
  cases r with
  | ok b => exact hf b
  | error e => trivial

theorem Earned.tryCatch {p : Async Unit} {g : LedgerError → Async Unit}
    (hp : Earned key input handled p) (hg : ∀ e, Earned key input handled (g e)) :
    Earned key input handled (p.tryCatch g) := by
  induction p generalizing handled with
  | returns => trivial
  | throws e => exact hg e
  | calls call next ih =>
    exact ⟨hp.1, fun r => ih r (hp.2 r) fun e => (hg e).mono Or.inl⟩

theorem earned_attempt (attemptNumber : Nat) :
    Earned key input handled (attempt input (key input) attemptNumber) := by
  refine ⟨rfl, fun r => ?_⟩
  cases r with
  | error e => trivial
  | ok u =>
    suffices h : Earned key input True (do
        Program.perform (.appendAttempt input (key input) .succeeded attemptNumber none)
        Program.perform (.upsertCheckpoint input.consumerName (key input) .succeeded)) from
      h.mono fun _ => Or.inr ⟨trivial, u, rfl⟩
    refine earned_perform (by trivial) fun _ => ?_
    refine ⟨⟨trivial, rfl, rfl⟩, fun r => ?_⟩
    cases r <;> trivial

theorem earned_giveUp (eventKey message : String) :
    Earned key input handled (giveUp input eventKey message) := by
  refine earned_perform (by trivial) fun _ => ?_
  refine earned_perform (by trivial) fun _ => ?_
  refine earned_plain (by trivial) fun r => ?_
  cases r <;> trivial

theorem earned_attempts (opts : Options) (left attemptNumber : Nat) :
    Earned key input handled (attempts opts input (key input) left attemptNumber) := by
  induction left generalizing attemptNumber with
  | zero => trivial
  | succ left ih =>
    apply (earned_attempt attemptNumber).tryCatch
    intro e
    refine earned_perform (by trivial) fun _ => ?_
    split
    · exact earned_giveUp _ _
    · unfold pause
      split
      · exact earned_perform (by trivial) fun _ => ih _
      · exact ih _

end

/-- the key of an input's event -/
def Options.key (opts : Options) (input : Input) : String :=
  buildEventKey opts.sha256 input.eventType input.payload

theorem earned_run (opts : Options) (input : Input) :
    Earned opts.key input False (run opts input) := by
  refine earned_perform (by trivial) fun found => ?_
  split
  · trivial
  · exact earned_attempts opts _ _

section
variable {opts : Options} {eventTypeOf : String → String}

/-- what every step keeps -/
structure Invariant (opts : Options) (eventTypeOf : String → String)
    (σ : System Effect LedgerError World) : Prop where
  checkpoints : ∀ consumerName eventKey, σ.world.hasSucceeded consumerName eventKey →
    ∃ input ∈ σ.world.handled, input.consumerName = consumerName ∧ opts.key input = eventKey
  subscribed : ∀ input ∈ σ.world.handled, input.eventType = eventTypeOf input.consumerName
  running : ∀ i p, σ.running i = some p → ∃ input : Input,
    input.eventType = eventTypeOf input.consumerName ∧ Earned opts.key input (input ∈ σ.world.handled) p

theorem handled_after {β : Type} (w : World) (call : Effect β) {input : Input}
    (h : input ∈ w.handled) : input ∈ (w.after call).handled := by
  cases call with
  | handle => exact List.mem_append_left _ h
  | _ => exact h

theorem hasSucceeded_upsert (w : World) (consumerName eventKey c k : String) (s : CheckpointStatus)
    (h : (w.after (.upsertCheckpoint consumerName eventKey s)).hasSucceeded c k) :
    w.hasSucceeded c k ∨ s = .succeeded ∧ c = consumerName ∧ k = eventKey := by
  have hget : (w.checkpoints.set (consumerName, eventKey) s).get? (c, k) = some .succeeded :=
    of_decide_eq_true h
  rw [OrderedMap.get?_set] at hget
  split at hget
  · next heq =>
    obtain ⟨rfl, rfl⟩ := Prod.mk.inj heq
    exact Or.inr ⟨Option.some.inj hget, rfl, rfl⟩
  · exact Or.inl (decide_eq_true hget)

theorem Invariant.perform {σ : System Effect LedgerError World} (h : Invariant opts eventTypeOf σ)
    {i : Nat} {β : Type} {call : Effect β} {next : Except LedgerError β → Async Unit}
    {r : Except LedgerError β} {w : World} (running : σ.running i = some (.calls call next))
    (handled : Handles i call σ.world r w) : Invariant opts eventTypeOf
      { σ with world := w, running := Function.update σ.running i (some (next r)) } := by
  obtain ⟨input, hsubscribed, hlicensed, hnext⟩ := h.running i _ running
  have hgrows : ∀ input' ∈ σ.world.handled, input' ∈ w.handled := by
    intro input' hmem
    cases handled with
    | done => exact handled_after _ _ hmem
    | unanswered => exact hmem
    | refused => exact hmem
  have hwritten : w = σ.world ∨ w = σ.world.after call := by
    cases handled with
    | done => exact Or.inr rfl
    | unanswered => exact Or.inr rfl
    | refused => exact Or.inl rfl
  refine ⟨fun c k hc => ?_, fun input' hmem => ?_, fun j p hj => ?_⟩
  · -- a new success is recorded by a run that has handled its event
    have hold : σ.world.hasSucceeded c k → ∃ input ∈ w.handled, input.consumerName = c ∧ opts.key input = k := by
      intro hsucceeded
      obtain ⟨input', hmem, heq⟩ := h.checkpoints c k hsucceeded
      exact ⟨input', hgrows _ hmem, heq⟩
    rcases hwritten with rfl | rfl
    · exact hold hc
    · cases call with
      | upsertCheckpoint consumerName eventKey lastStatus =>
        rcases hasSucceeded_upsert _ _ _ _ _ _ hc with hc | ⟨rfl, rfl, rfl⟩
        · exact hold hc
        · obtain ⟨hhandled, rfl, rfl⟩ := hlicensed
          exact ⟨input, hgrows _ hhandled, rfl, rfl⟩
      | _ => exact hold hc
  · rcases hwritten with rfl | rfl
    · exact h.subscribed input' hmem
    · cases call with
      | handle handledInput =>
        obtain rfl : handledInput = input := hlicensed
        rcases List.mem_append.mp hmem with hmem | hmem
        · exact h.subscribed input' hmem
        · obtain rfl := List.mem_singleton.mp hmem
          exact hsubscribed
      | _ => exact h.subscribed input' hmem
  · rcases running_update hj with ⟨rfl, hp⟩ | ⟨-, hp⟩
    · cases hp
      refine ⟨input, hsubscribed, (hnext r).mono ?_⟩
      rintro (hmem | ⟨hhandle, b, rfl⟩)
      · exact hgrows _ hmem
      · cases call with
        | handle handledInput =>
          obtain rfl : handledInput = input := hlicensed
          cases handled with
          | done => exact List.mem_append_right _ (List.mem_singleton_self _)
        | _ => exact hhandle.elim
    · obtain ⟨input', hsubscribed', hearned⟩ := h.running j p hp
      exact ⟨input', hsubscribed', hearned.mono (hgrows _)⟩

theorem invariant_step {σ σ' : System Effect LedgerError World} (h : Invariant opts eventTypeOf σ)
    (hstep : Step (IsProgram opts eventTypeOf) Handles Elsewhere always σ σ') :
    Invariant opts eventTypeOf σ' := by
  cases hstep with
  | start p ready =>
    refine ⟨h.checkpoints, h.subscribed, fun j q hj => ?_⟩
    rcases running_update hj with ⟨-, hq⟩ | ⟨-, hq⟩
    · cases hq
      cases ready with
      | run input subscribed =>
        exact ⟨input, subscribed, (earned_run opts input).mono False.elim⟩
    · exact h.running j q hq
  | perform running _ handled => exact h.perform running handled
  | stop i =>
    refine ⟨h.checkpoints, h.subscribed, fun j q hj => ?_⟩
    rcases running_update hj with ⟨-, hq⟩ | ⟨-, hq⟩
    · cases hq
    · exact h.running j q hq
  | environment moved =>
    obtain rfl := moved
    exact h

theorem invariant_initial : Invariant opts eventTypeOf (System.initial _ _ World.empty) := by
  refine ⟨fun c k hc => ?_, nofun, nofun⟩
  have hget : (OrderedMap.empty : OrderedMap (String × String) CheckpointStatus).get? (c, k) =
      some .succeeded := of_decide_eq_true hc
  cases hget

end

/-- Two payloads of one event type have one key exactly when they are equal up to key order, unless
they differ in unprinted fields only; and an event that is skipped as already succeeded is equal to
one its consumer has handled, unless it differs from such an event in unprinted fields only. -/
theorem distinct_events (opts : Options) (hsha : Function.Injective opts.sha256)
    (eventTypeOf : String → String) :
    (∀ eventType p q, (buildEventKey opts.sha256 eventType p = buildEventKey opts.sha256 eventType q ↔
        p.value = q.value) ↔ ¬Collide p q) ∧
    ∀ σ, Reachable (IsProgram opts eventTypeOf) Handles Elsewhere always
        (System.initial _ _ World.empty) σ →
      ∀ input : Input, input.eventType = eventTypeOf input.consumerName →
        σ.world.hasSucceeded input.consumerName (opts.key input) →
        (∀ done ∈ σ.world.handled, done.consumerName = input.consumerName →
          ¬Collide done.payload input.payload) →
        ∃ done ∈ σ.world.handled, done.consumerName = input.consumerName ∧
          done.eventType = input.eventType ∧ done.payload.value = input.payload.value := by
  refine ⟨buildEventKey_law hsha, fun σ hrun input hsubscribed hsucceeded hno => ?_⟩
  have hinv : Invariant opts eventTypeOf σ :=
    hrun.invariant (fun σ σ' h hstep => invariant_step h hstep) invariant_initial
  obtain ⟨done, hmem, hconsumer, hkey⟩ := hinv.checkpoints _ _ hsucceeded
  have htype : done.eventType = input.eventType := by
    rw [hinv.subscribed done hmem, hsubscribed, hconsumer]
  refine ⟨done, hmem, hconsumer, htype, ?_⟩
  unfold Options.key at hkey
  rw [htype] at hkey
  exact ((buildEventKey_law hsha _ _ _).mpr (hno done hmem hconsumer)).mp hkey

/-! ## two events -/

/-- an object around an object with the field `x` -/
def nestedPayload (x : String) : Payload where
  fields := [("a", .object [("x", .string x)])]
  valid := by simp [Valid, ValidFields]

theorem nestedPayload_value {x y : String} (h : (nestedPayload x).value = (nestedPayload y).value) :
    x = y := by
  have houter := value_object_inj.mp h "a"
  have hinner : Json.value (.object [("x", .string x)]) = Json.value (.object [("x", .string y)]) :=
    Option.some.inj houter
  have hfield := value_object_inj.mp hinner "x"
  exact Value.string.inj (Option.some.inj hfield)

def exampleOptions : Options := ⟨String.ofList, fun _ => "failed"⟩

def exampleInput (x : String) : Input where
  consumerName := "foxya_withdrawal_sync"
  eventType := "withdrawal.state.changed"
  payload := nestedPayload x
  aggregateId := none
  maxAttempts := 3
  retryBaseDelayMs := 200
  retryMaxDelayMs := 1000

/-- a call that is carried out -/
theorem turn {opts : Options} {eventTypeOf : String → String} {σ₀ σ : System Effect LedgerError World}
    (h : Reachable (IsProgram opts eventTypeOf) Handles Elsewhere always σ₀ σ) (i : Nat) {β : Type}
    (call : Effect β) {next : Except LedgerError β → Async Unit}
    (running : σ.running i = some (.calls call next)) :
    Reachable (IsProgram opts eventTypeOf) Handles Elsewhere always σ₀
      ⟨σ.world.after call, Function.update σ.running i (some (next (.ok (σ.world.answer call)))),
        σ.started⟩ :=
  h.tail (Step.perform running trivial (Handles.done call σ.world))

/-- the event `x` is handled -/
theorem handled_run (x : String) :
    ∃ σ, Reachable (IsProgram exampleOptions fun _ => "withdrawal.state.changed") Handles Elsewhere
        always (System.initial _ _ World.empty) σ ∧ σ.world.handled = [exampleInput x] ∧
      σ.world.hasSucceeded "foxya_withdrawal_sync" (exampleOptions.key (exampleInput x)) := by
  have h₀ : Reachable (IsProgram exampleOptions fun _ => "withdrawal.state.changed") Handles Elsewhere
      always (System.initial _ _ World.empty) _ := .refl
  have h₁ := h₀.tail (Step.start _ (IsProgram.run (exampleInput x) rfl))
  have h₂ := turn h₁ 0 (.hasSucceeded "foxya_withdrawal_sync" (exampleOptions.key (exampleInput x))) rfl
  have h₃ := turn h₂ 0 (.handle (exampleInput x)) rfl
  have h₄ := turn h₃ 0 (.appendAttempt (exampleInput x) (exampleOptions.key (exampleInput x)) .succeeded
    1 none) rfl
  have h₅ := turn h₄ 0 (.upsertCheckpoint "foxya_withdrawal_sync"
    (exampleOptions.key (exampleInput x)) .succeeded) rfl
  exact ⟨_, h₅, rfl, decide_eq_true (OrderedMap.get?_set_self _ _ _)⟩

/-- an event and its repetition -/
theorem distinct_events_example :
    ¬Collide (nestedPayload "1") (nestedPayload "1") ∧
    ∃ σ : System Effect LedgerError World, ∃ done ∈ σ.world.handled,
      done.payload.value = (nestedPayload "1").value := by
  have hlaw := distinct_events exampleOptions (fun _ _ => String.ofList_injective) fun _ => "withdrawal.state.changed"
  have hsame : ¬Collide (nestedPayload "1") (nestedPayload "1") := fun h => h.1 rfl
  obtain ⟨σ, hrun, hhandled, hsucceeded⟩ := handled_run "1"
  obtain ⟨done, hmem, -, -, hvalue⟩ := hlaw.2 σ hrun (exampleInput "1") rfl hsucceeded (by
    intro done hmem _
    rw [hhandled] at hmem
    rw [List.mem_singleton.mp hmem]
    exact hsame)
  exact ⟨(hlaw.1 "withdrawal.state.changed" _ _).mp ⟨fun _ => rfl, fun _ => rfl⟩, σ, done, hmem, hvalue⟩

/-- Two payloads that differ in a nested field: they have one key, and once the first is handled the
second is skipped, though no event equal to it was handled. -/
theorem nested_collision :
    (nestedPayload "1").value ≠ (nestedPayload "2").value ∧
    exampleOptions.key (exampleInput "1") = exampleOptions.key (exampleInput "2") ∧
    ∃ σ, Reachable (IsProgram exampleOptions fun _ => "withdrawal.state.changed") Handles Elsewhere
        always (System.initial _ _ World.empty) σ ∧
      σ.world.hasSucceeded "foxya_withdrawal_sync" (exampleOptions.key (exampleInput "2")) ∧
      ∀ done ∈ σ.world.handled, done.payload.value ≠ (nestedPayload "2").value := by
  have hkey : exampleOptions.key (exampleInput "1") = exampleOptions.key (exampleInput "2") := by
    decide +kernel
  have hne : (nestedPayload "1").value ≠ (nestedPayload "2").value := by
    intro h
    have heq := nestedPayload_value h
    revert heq
    decide
  obtain ⟨σ, hrun, hhandled, hsucceeded⟩ := handled_run "1"
  rw [hkey] at hsucceeded
  refine ⟨hne, hkey, σ, hrun, hsucceeded, fun done hmem => ?_⟩
  rw [hhandled] at hmem
  rw [List.mem_singleton.mp hmem]
  exact hne

end Consumers
