import CoinManage.Consumers.Keys
import CoinManage.Lib.Traces

/-!
# Deliveries of one event

One consumer is given the same event any number of times.  The handler and the records of its success
stand in one `try`, so a record that fails there counts as a failure of the handler.

* `invocations_le`        a run calls the handler at most `maxAttempts` times;
* `attempts_runs`         what the loop does when the records of a success are written;
* `succeeds_once`         then nothing follows a success, and a run that returns leaves the checkpoint
                          in agreement with the handler's last outcome;
* `handled_twice`         a success whose record fails.
-/

set_option linter.unusedSectionVars false

namespace Consumers

/-! ## calls of interest -/

/-- what became of the handler, if the call is one of it -/
def outcome? {β : Type} : Effect β → Except LedgerError β → Option Bool
  | .handle _, .ok _ => some true
  | .handle _, .error _ => some false
  | _, _ => none

/-- the outcomes of the handler, in order -/
def invocations (t : List (Answered Effect LedgerError)) : List Bool :=
  t.filterMap fun c => outcome? c.call c.answer

/-- a call that records that the event is given up -/
def DeadLetters {β : Type} : Effect β → Prop
  | .appendDeadLetter .. => True
  | .upsertCheckpoint _ _ .deadLettered => True
  | _ => False

/-- a call that records that the handler succeeded -/
def RecordsSuccess {β : Type} : Effect β → Prop
  | .appendAttempt _ _ .succeeded _ _ => True
  | .upsertCheckpoint _ _ .succeeded => True
  | _ => False

/-- the records of a success are written -/
def Recorded (t : List (Answered Effect LedgerError)) : Prop :=
  ∀ c ∈ t, RecordsSuccess c.call → Returned c.answer

/-- no call here gives the event up -/
def Undead (t : List (Answered Effect LedgerError)) : Prop := ∀ c ∈ t, ¬DeadLetters c.call

/-- after a success the handler is not called and the event is not given up -/
def Once (t : List (Answered Effect LedgerError)) : Prop :=
  ∀ before c after, t = before ++ c :: after → outcome? c.call c.answer = some true →
    invocations after = [] ∧ Undead after

section
variable {t t' : List (Answered Effect LedgerError)} {c : Answered Effect LedgerError}

@[simp] theorem invocations_nil : invocations [] = [] := rfl

@[simp] theorem invocations_append (t t' : List (Answered Effect LedgerError)) :
    invocations (t ++ t') = invocations t ++ invocations t' := List.filterMap_append

theorem invocations_cons_none (h : outcome? c.call c.answer = none) :
    invocations (c :: t) = invocations t := List.filterMap_cons_none h

theorem invocations_cons_some {b : Bool} (h : outcome? c.call c.answer = some b) :
    invocations (c :: t) = b :: invocations t := List.filterMap_cons_some h

theorem mem_invocations {b : Bool} : b ∈ invocations t ↔ ∃ c ∈ t, outcome? c.call c.answer = some b :=
  List.mem_filterMap

/-- the last outcome of the handler -/
def lastOutcome (t : List (Answered Effect LedgerError)) : Option Bool := (invocations t).getLast?

theorem lastOutcome_append (t t' : List (Answered Effect LedgerError)) :
    lastOutcome (t ++ t') = (lastOutcome t').or (lastOutcome t) := by
  unfold lastOutcome
  rw [invocations_append, List.getLast?_append]

theorem Recorded.append : Recorded (t ++ t') ↔ Recorded t ∧ Recorded t' := List.forall_mem_append

theorem Undead.append : Undead (t ++ t') ↔ Undead t ∧ Undead t' := List.forall_mem_append

theorem once_nil : Once [] := by
  rintro before c after heq -
  cases before <;> cases heq

theorem once_cons : Once (c :: t) ↔
    (outcome? c.call c.answer = some true → invocations t = [] ∧ Undead t) ∧ Once t := by
  constructor
  · intro h
    refine ⟨h [] c t rfl, ?_⟩
    rintro before d after rfl hd
    exact h (c :: before) d after rfl hd
  · rintro ⟨hc, ht⟩ before d after heq hd
    cases before with
    | nil =>
      obtain ⟨rfl, rfl⟩ := List.cons.inj heq
      exact hc hd
    | cons b before =>
      have htail : t = before ++ d :: after := (List.cons.inj heq).2
      exact ht before d after htail hd

/-- a trace without a success -/
theorem once_of_not_mem (h : true ∉ invocations t) : Once t := by
  rintro before c after rfl hc
  exfalso
  apply h
  rw [mem_invocations]
  exact ⟨c, List.mem_append_right _ List.mem_cons_self, hc⟩

/-- calls that follow a trace and do not concern the handler -/
theorem Once.append (h : Once t) (hinv : invocations t' = []) (hundead : Undead t') : Once (t ++ t') := by
  induction t with
  | nil =>
    apply once_of_not_mem
    rw [List.nil_append, hinv]
    exact List.not_mem_nil
  | cons c t ih =>
    obtain ⟨hc, ht⟩ := once_cons.mp h
    apply once_cons.mpr
    refine ⟨fun hsuccess => ?_, ih ht⟩
    obtain ⟨h₁, h₂⟩ := hc hsuccess
    refine ⟨?_, Undead.append.mpr ⟨h₂, hundead⟩⟩
    show invocations (t ++ t') = []
    rw [invocations_append, h₁, hinv]
    rfl

/-- calls that come before a trace and hold no success -/
theorem Once.prepend (h : Once t') (hinv : true ∉ invocations t) : Once (t ++ t') := by
  induction t with
  | nil => exact h
  | cons c t ih =>
    apply once_cons.mpr
    refine ⟨fun hc => ?_, ih fun hmem => hinv ?_⟩
    · exact absurd (mem_invocations.mpr ⟨c, List.mem_cons_self, hc⟩) hinv
    · obtain ⟨d, hd, hsuccess⟩ := mem_invocations.mp hmem
      exact mem_invocations.mpr ⟨d, List.mem_cons_of_mem _ hd, hsuccess⟩

end

/-! ## the calls of a run -/

/-- the runs of a program over the checkpoints: each call is carried out, or fails -/
abbrev Performs {α : Type} (p : Async α) (w : World) (t : List (Answered Effect LedgerError))
    (o : Except LedgerError α) (w' : World) : Prop :=
  Runs (fun _ => Handles 0) p w t o w'

/-- what the checkpoint of a consumer says -/
def World.checkpoint? (w : World) (input : Input) (eventKey : String) : Option CheckpointStatus :=
  w.checkpoints.get? (input.consumerName, eventKey)

/-- a call that writes a checkpoint -/
def WritesCheckpoint {β : Type} : Effect β → Prop
  | .upsertCheckpoint .. => True
  | _ => False

section
variable {opts : Options} {input : Input} {eventKey message : String} {w w' : World}
  {t : List (Answered Effect LedgerError)} {o : Except LedgerError Unit} {attemptNumber left : Nat}

/-- the ways a call can go -/
theorem handled_cases {β : Type} {call : Effect β} {r : Except LedgerError β}
    (h : Handles 0 call w r w') :
    (r = .ok (w.answer call) ∧ w' = w.after call) ∨
    (¬Returned r ∧ (w' = w ∨ (WritesCheckpoint call ∧ w' = w.after call))) := by
  cases h with
  | done => exact Or.inl ⟨rfl, rfl⟩
  | unanswered => exact Or.inr ⟨nofun, Or.inr ⟨trivial, rfl⟩⟩
  | refused => exact Or.inr ⟨nofun, Or.inl rfl⟩

theorem handled_checkpoints {β : Type} {call : Effect β} {r : Except LedgerError β}
    (h : Handles 0 call w r w') (hcall : ¬WritesCheckpoint call) : w'.checkpoints = w.checkpoints := by
  cases h with
  | done =>
    cases call with
    | upsertCheckpoint => exact (hcall trivial).elim
    | _ => rfl
  | unanswered => exact (hcall trivial).elim
  | refused => rfl

theorem checkpoint?_congr (h : w'.checkpoints = w.checkpoints) :
    w'.checkpoint? input eventKey = w.checkpoint? input eventKey := by
  unfold World.checkpoint?
  rw [h]

theorem checkpoint?_upsert (w : World) (status : CheckpointStatus) :
    (w.after (.upsertCheckpoint input.consumerName eventKey status)).checkpoint? input eventKey =
      some status := OrderedMap.get?_set_self _ _ _

/-- a checkpoint that is written, or is not -/
theorem handled_upsert {status : CheckpointStatus} {r : Except LedgerError Unit}
    (h : Handles 0 (.upsertCheckpoint input.consumerName eventKey status) w r w') :
    w'.checkpoint? input eventKey = some status ∨ (w' = w ∧ ¬Returned r) := by
  cases h with
  | done => exact Or.inl (checkpoint?_upsert w status)
  | unanswered => exact Or.inl (checkpoint?_upsert w status)
  | refused => exact Or.inr ⟨rfl, nofun⟩

/-- the body of the `try`, when the records of a success are written -/
theorem attempt_runs (h : Performs (attempt input eventKey attemptNumber) w t o w')
    (hrec : Recorded t) :
    (∃ e, t = [⟨.handle input, .error e⟩] ∧ o = .error e ∧ w'.checkpoints = w.checkpoints) ∨
    (o = .ok () ∧ invocations t = [true] ∧ Once t ∧ w'.checkpoint? input eventKey = some .succeeded) := by
  rcases runs_perform_bind.mp h with ⟨e, rfl, handled, rfl⟩ | ⟨u, w₁, t₁, handled, rest, rfl⟩
  · exact Or.inl ⟨e, rfl, rfl, handled_checkpoints handled id⟩
  · right
    rcases runs_perform_bind.mp rest with ⟨e, rfl, -, -⟩ | ⟨u', w₂, t₂, -, rest', rfl⟩
    · obtain ⟨b, hb⟩ := hrec _ (List.mem_cons_of_mem _ (List.mem_singleton_self _)) trivial
      cases hb
    · obtain ⟨rfl, written⟩ := runs_perform.mp rest'
      obtain ⟨b, hb⟩ : Returned o :=
        hrec ⟨_, o⟩ (List.mem_cons_of_mem _ (List.mem_cons_of_mem _ (List.mem_singleton_self _))) trivial
      refine ⟨hb, rfl, ?_, ?_⟩
      · apply once_cons.mpr
        refine ⟨fun _ => ⟨rfl, ?_⟩, once_of_not_mem ?_⟩
        · intro c hc
          rcases List.mem_cons.mp hc with rfl | hc
          · exact id
          · rw [List.mem_singleton.mp hc]
            exact id
        · exact List.not_mem_nil
      · rcases handled_upsert written with hstatus | ⟨-, hno⟩
        · exact hstatus
        · exact absurd ⟨b, hb⟩ hno

/-- giving up: the handler is not called, and a checkpoint that is there in the end is a dead
letter's or was there -/
theorem giveUp_runs (h : Performs (giveUp input eventKey message) w t o w') :
    invocations t = [] ∧ (o = .ok () → w'.checkpoint? input eventKey = some .deadLettered) ∧
    (w'.checkpoint? input eventKey = some .succeeded → w.checkpoint? input eventKey = some .succeeded) := by
  rcases runs_perform_bind.mp h with ⟨e, rfl, handled, rfl⟩ | ⟨u, w₁, t₁, handled, rest, rfl⟩
  · refine ⟨rfl, nofun, fun hs => ?_⟩
    rwa [checkpoint?_congr (handled_checkpoints handled id)] at hs
  · have h₁ : w₁.checkpoint? input eventKey = w.checkpoint? input eventKey :=
      checkpoint?_congr (handled_checkpoints handled id)
    rcases runs_perform_bind.mp rest with ⟨e, rfl, written, rfl⟩ | ⟨u', w₂, t₂, written, rest', rfl⟩
    · refine ⟨rfl, nofun, fun hs => ?_⟩
      rcases handled_upsert written with hd | ⟨rfl, -⟩
      · rw [hd] at hs
        cases hs
      · rwa [h₁] at hs
    · obtain ⟨rfl, called⟩ := runs_perform.mp rest'
      have h₂ : w'.checkpoint? input eventKey = w₂.checkpoint? input eventKey :=
        checkpoint?_congr (handled_checkpoints called id)
      have hd : w₂.checkpoint? input eventKey = some .deadLettered := by
        rcases handled_upsert written with hd | ⟨-, hno⟩
        · exact hd
        · exact absurd ⟨u', rfl⟩ hno
      refine ⟨?_, fun _ => h₂.trans hd, fun hs => ?_⟩
      · cases o <;> rfl
      · rw [h₂, hd] at hs
        cases hs

theorem pause_runs {delayMs : Nat} (h : Performs (pause delayMs) w t o w') :
    invocations t = [] ∧ w'.checkpoints = w.checkpoints := by
  unfold pause at h
  split at h
  · obtain ⟨rfl, handled⟩ := runs_perform.mp h
    refine ⟨?_, handled_checkpoints handled id⟩
    cases o <;> rfl
  · obtain ⟨rfl, -, rfl⟩ := runs_pure.mp h
    exact ⟨rfl, rfl⟩

/-- what the loop leaves when the handler has not succeeded -/
structure Failed (input : Input) (eventKey : String) (w : World) (t : List (Answered Effect LedgerError))
    (o : Except LedgerError Unit) (w' : World) : Prop where
  noSuccess : true ∉ invocations t
  gaveUp : o = .ok () → w'.checkpoint? input eventKey = some .deadLettered ∧ lastOutcome t = some false
  unmarked : w'.checkpoint? input eventKey = some .succeeded → w.checkpoint? input eventKey = some .succeeded

/-- what it leaves when the handler has -/
structure Succeeded (input : Input) (eventKey : String) (t : List (Answered Effect LedgerError))
    (o : Except LedgerError Unit) (w' : World) : Prop where
  returned : o = .ok ()
  once : Once t
  last : lastOutcome t = some true
  marked : w'.checkpoint? input eventKey = some .succeeded

/-- the loop, when the records of a success are written -/
theorem attempts_runs (hleft : left + attemptNumber = input.maxAttempts + 1) (hpos : 0 < left)
    (h : Performs (attempts opts input eventKey left attemptNumber) w t o w') (hrec : Recorded t) :
    Failed input eventKey w t o w' ∨ Succeeded input eventKey t o w' := by
  induction left generalizing attemptNumber w t with
  | zero => omega
  | succ left ih =>
    rcases runs_tryCatch.mp h with ⟨u, tried, rfl⟩ | ⟨e, w₁, t₁, t₂, tried, handler, rfl⟩
    · -- the attempt has succeeded
      rcases attempt_runs tried hrec with ⟨e, -, ho, -⟩ | ⟨-, hinv, honce, hmark⟩
      · cases ho
      · exact Or.inr ⟨rfl, honce, by rw [lastOutcome, hinv]; rfl, hmark⟩
    · obtain ⟨hrec₁, hrec₂⟩ := Recorded.append.mp hrec
      rcases attempt_runs tried hrec₁ with ⟨e', rfl, -, h₁⟩ | ⟨ho, -⟩
      · -- the handler has failed
        have hkept₁ : w₁.checkpoint? input eventKey = w.checkpoint? input eventKey := checkpoint?_congr h₁
        rcases runs_perform_bind.mp handler with ⟨e₂, rfl, appended, rfl⟩ | ⟨u, w₂, t₃, appended, rest, rfl⟩
        · refine Or.inl ⟨?_, nofun, fun hs => ?_⟩
          · show true ∉ [false]
            decide
          · rwa [checkpoint?_congr (handled_checkpoints appended id), hkept₁] at hs
        · have hkept₂ : w₂.checkpoint? input eventKey = w.checkpoint? input eventKey :=
            (checkpoint?_congr (handled_checkpoints appended id)).trans hkept₁
          have hrec₃ : Recorded t₃ := fun c hc => hrec₂ c (List.mem_cons_of_mem _ hc)
          split at rest
          · -- it was the last attempt
            obtain ⟨hinv, hdead, hs⟩ := giveUp_runs rest
            refine Or.inl ⟨?_, fun ho => ⟨hdead ho, ?_⟩, fun hmark => ?_⟩
            · show true ∉ false :: invocations t₃
              rw [hinv]
              decide
            · show (false :: invocations t₃).getLast? = some false
              rw [hinv]
              rfl
            · rw [← hkept₂]
              exact hs hmark
          · next hmore =>
            rcases runs_bind.mp rest with ⟨e₃, paused, rfl⟩ | ⟨u', w₃, t₄, t₅, paused, rest', rfl⟩
            · obtain ⟨hinv, hck⟩ := pause_runs paused
              refine Or.inl ⟨?_, nofun, fun hs => ?_⟩
              · show true ∉ false :: invocations t₃
                rw [hinv]
                decide
              · rwa [checkpoint?_congr hck, hkept₂] at hs
            · obtain ⟨hinv, hck⟩ := pause_runs paused
              have hkept₃ : w₃.checkpoint? input eventKey = w.checkpoint? input eventKey :=
                (checkpoint?_congr hck).trans hkept₂
              suffices hall : ∀ first, invocations first = [false] →
                  Failed input eventKey w (first ++ t₅) o w' ∨ Succeeded input eventKey (first ++ t₅) o w' by
                refine hall (⟨_, .error e'⟩ :: ⟨_, .ok u⟩ :: t₄) ?_
                show false :: invocations t₄ = [false]
                rw [hinv]
              intro first hfirst
              rcases ih (by omega) (by omega) rest' (Recorded.append.mp hrec₃).2 with hf | hs
              · refine Or.inl ⟨?_, fun ho => ?_, fun hmark => ?_⟩
                · rw [invocations_append, hfirst]
                  intro hmem
                  rcases List.mem_append.mp hmem with hmem | hmem
                  · revert hmem
                    decide
                  · exact hf.noSuccess hmem
                · obtain ⟨hdead, hlast⟩ := hf.gaveUp ho
                  refine ⟨hdead, ?_⟩
                  rw [lastOutcome_append, hlast]
                  rfl
                · rw [← hkept₃]
                  exact hf.unmarked hmark
              · refine Or.inr ⟨hs.returned, hs.once.prepend ?_, ?_, hs.marked⟩
                · rw [hfirst]
                  decide
                · rw [lastOutcome_append, hs.last]
                  rfl
      · cases ho

theorem attempt_invocations_le (h : Performs (attempt input eventKey attemptNumber) w t o w') :
    (invocations t).length ≤ 1 := by
  rcases runs_perform_bind.mp h with ⟨e, rfl, -, rfl⟩ | ⟨u, w₁, t₁, -, rest, rfl⟩
  · exact le_refl 1
  · have hnone : invocations t₁ = [] := by
      rcases runs_perform_bind.mp rest with ⟨e, rfl, -, -⟩ | ⟨u', w₂, t₂, -, rest', rfl⟩
      · rfl
      · obtain ⟨rfl, -⟩ := runs_perform.mp rest'
        cases o <;> rfl
    show (true :: invocations t₁).length ≤ 1
    rw [hnone]
    exact le_refl 1

/-- the handler is called once a turn at most -/
theorem attempts_invocations_le (h : Performs (attempts opts input eventKey left attemptNumber) w t o w') :
    (invocations t).length ≤ left := by
  induction left generalizing attemptNumber w t with
  | zero =>
    obtain ⟨rfl, -, -⟩ := runs_pure.mp h
    exact le_refl 0
  | succ left ih =>
    rcases runs_tryCatch.mp h with ⟨u, tried, rfl⟩ | ⟨e, w₁, t₁, t₂, tried, handler, rfl⟩
    · have h₁ := attempt_invocations_le tried
      omega
    · have h₁ := attempt_invocations_le tried
      have h₂ : (invocations t₂).length ≤ left := by
        rcases runs_perform_bind.mp handler with ⟨e₂, rfl, -, rfl⟩ | ⟨u, w₂, t₃, -, rest, rfl⟩
        · exact Nat.zero_le left
        · show (invocations t₃).length ≤ left
          split at rest
          · obtain ⟨hinv, -⟩ := giveUp_runs rest
            rw [hinv]
            exact Nat.zero_le left
          · rcases runs_bind.mp rest with ⟨e₃, paused, rfl⟩ | ⟨u', w₃, t₄, t₅, paused, rest', rfl⟩
            · rw [(pause_runs paused).1]
              exact Nat.zero_le left
            · rw [invocations_append, (pause_runs paused).1]
              exact ih rest'
      rw [invocations_append, List.length_append]
      omega

end

/-! ## deliveries -/

/-- the checkpoint and the handler's last outcome agree -/
def Agrees (w : World) (consumerName eventKey : String) (t : List (Answered Effect LedgerError)) : Prop :=
  (w.checkpoints.get? (consumerName, eventKey) = some .succeeded ∧ lastOutcome t = some true) ∨
  (w.checkpoints.get? (consumerName, eventKey) = some .deadLettered ∧ lastOutcome t = some false)

/-- what deliveries whose successes are recorded keep -/
structure Delivered (consumerName eventKey : String) (t : List (Answered Effect LedgerError))
    (w : World) : Prop where
  once : Once t
  marked : true ∈ invocations t → w.checkpoints.get? (consumerName, eventKey) = some .succeeded
  last : w.checkpoints.get? (consumerName, eventKey) = some .succeeded → lastOutcome t = some true

section
variable {opts : Options} {input : Input} {w w' : World} {before t : List (Answered Effect LedgerError)}
  {o : Except LedgerError Unit}

theorem run_delivers (hpos : 1 ≤ input.maxAttempts) (hrec : Recorded t)
    (hi : Delivered input.consumerName (opts.key input) before w)
    (h : Performs (run opts input) w t o w') :
    Delivered input.consumerName (opts.key input) (before ++ t) w' ∧
      (o = .ok () → Agrees w' input.consumerName (opts.key input) (before ++ t)) := by
  -- calls that change nothing the claim is about
  have hidle : ∀ {c : Answered Effect LedgerError}, outcome? c.call c.answer = none →
      ¬DeadLetters c.call → Delivered input.consumerName (opts.key input) (before ++ [c]) w := by
    intro c hc hd
    have hinv : invocations [c] = [] := invocations_cons_none hc
    have hundead : Undead [c] := fun d hd' => by
      rw [List.mem_singleton.mp hd']
      exact hd
    refine ⟨hi.once.append hinv hundead, fun hmem => hi.marked ?_, fun hs => ?_⟩
    · rwa [invocations_append, hinv, List.append_nil] at hmem
    · rw [lastOutcome_append, lastOutcome, hinv]
      exact hi.last hs
  rcases runs_perform_bind.mp h with ⟨e, rfl, handled, rfl⟩ | ⟨found, w₁, t₁, handled, rest, rfl⟩
  · rcases handled_cases handled with ⟨hr, -⟩ | ⟨-, rfl | ⟨hno, -⟩⟩
    · cases hr
    · exact ⟨hidle rfl id, nofun⟩
    · exact hno.elim
  · obtain ⟨hfound, rfl⟩ : found = w.hasSucceeded input.consumerName (opts.key input) ∧ w₁ = w := by
      rcases handled_cases handled with ⟨hr, rfl⟩ | ⟨hno, -⟩
      · exact ⟨Except.ok.inj hr, rfl⟩
      · exact absurd ⟨found, rfl⟩ hno
    suffices hall : ∀ asked, Delivered input.consumerName (opts.key input) asked w₁ →
        Delivered input.consumerName (opts.key input) (asked ++ t₁) w' ∧
          (o = .ok () → Agrees w' input.consumerName (opts.key input) (asked ++ t₁)) by
      have hasked := hall (before ++ [⟨Effect.hasSucceeded input.consumerName (opts.key input), .ok found⟩])
        (hidle rfl id)
      rw [List.append_assoc] at hasked
      exact hasked
    intro asked hasked
    split at rest
    · next hyes =>
      obtain ⟨rfl, rfl, rfl⟩ := runs_pure.mp rest
      have hs : w'.checkpoints.get? (input.consumerName, opts.key input) = some .succeeded := by
        rw [hfound] at hyes
        exact of_decide_eq_true hyes
      rw [List.append_nil]
      exact ⟨hasked, fun _ => Or.inl ⟨hs, hasked.last hs⟩⟩
    · next hno =>
      have hs : w₁.checkpoints.get? (input.consumerName, opts.key input) ≠ some .succeeded := by
        intro hs
        apply hno
        rw [hfound]
        exact decide_eq_true hs
      have hfresh : true ∉ invocations asked := fun hmem => hs (hasked.marked hmem)
      have hrec₁ : Recorded t₁ := fun c hc => hrec c (List.mem_cons_of_mem _ hc)
      rcases attempts_runs rfl hpos rest hrec₁ with hf | hd
      · have hno' : w'.checkpoints.get? (input.consumerName, opts.key input) ≠ some .succeeded :=
          fun hmark => hs (hf.unmarked hmark)
        have hnone : true ∉ invocations (asked ++ t₁) := by
          rw [invocations_append]
          intro hmem
          rcases List.mem_append.mp hmem with hmem | hmem
          · exact hfresh hmem
          · exact hf.noSuccess hmem
        refine ⟨⟨once_of_not_mem hnone, fun hmem => absurd hmem hnone, fun hmark => absurd hmark hno'⟩,
          fun ho => Or.inr ?_⟩
        obtain ⟨hdead, hlast⟩ := hf.gaveUp ho
        refine ⟨hdead, ?_⟩
        rw [lastOutcome_append, hlast]
        rfl
      · have hlast : lastOutcome (asked ++ t₁) = some true := by
          rw [lastOutcome_append, hd.last]
          rfl
        exact ⟨⟨hd.once.prepend hfresh, fun _ => hd.marked, fun _ => hlast⟩,
          fun _ => Or.inl ⟨hd.marked, hlast⟩⟩

theorem run_invocations_le (h : Performs (run opts input) w t o w') :
    (invocations t).length ≤ input.maxAttempts := by
  rcases runs_perform_bind.mp h with ⟨e, rfl, -, rfl⟩ | ⟨found, w₁, t₁, -, rest, rfl⟩
  · exact Nat.zero_le _
  · show (invocations t₁).length ≤ _
    split at rest
    · obtain ⟨rfl, -, -⟩ := runs_pure.mp rest
      exact Nat.zero_le _
    · exact attempts_invocations_le rest

/-- the deliveries of one event, one after the other -/
abbrev Deliveries (opts : Options) (inputs : List Input) (w : World)
    (runs : List (Finished Effect LedgerError Unit)) (w' : World) : Prop :=
  Session (fun _ => Handles 0) (inputs.map (run opts)) w runs w'

theorem deliveries_deliver {consumerName eventKey : String} {inputs : List Input}
    {runs : List (Finished Effect LedgerError Unit)}
    (hsame : ∀ input ∈ inputs, input.consumerName = consumerName ∧ opts.key input = eventKey ∧
      1 ≤ input.maxAttempts)
    (hrec : Recorded (callsOf runs)) (hi : Delivered consumerName eventKey before w)
    (h : Deliveries opts inputs w runs w') :
    Delivered consumerName eventKey (before ++ callsOf runs) w' ∧
      ∀ earlier last, runs = earlier ++ [last] → last.outcome = .ok () →
        Agrees w' consumerName eventKey (before ++ callsOf runs) := by
  induction inputs generalizing w runs before with
  | nil =>
    cases h
    rw [show before ++ callsOf ([] : List (Finished Effect LedgerError Unit)) = before from List.append_nil _]
    refine ⟨hi, fun earlier last heq => ?_⟩
    cases earlier <;> cases heq
  | cons input inputs ih =>
    cases h with
    | @cons _ _ _ w₁ _ first rest hfirst hrest =>
      obtain ⟨rfl, rfl, hpos⟩ := hsame input List.mem_cons_self
      obtain ⟨hrec₁, hrec₂⟩ : Recorded first.calls ∧ Recorded (callsOf rest) := Recorded.append.mp hrec
      obtain ⟨h₁, hagrees⟩ := run_delivers hpos hrec₁ hi hfirst
      obtain ⟨h₂, hlater⟩ := ih (fun i hmem => hsame i (List.mem_cons_of_mem _ hmem)) hrec₂ h₁ hrest
      have hcalls : before ++ callsOf (first :: rest) = before ++ first.calls ++ callsOf rest := by
        rw [List.append_assoc]
        rfl
      rw [hcalls]
      refine ⟨h₂, fun earlier last heq ho => ?_⟩
      cases earlier with
      | nil =>
        obtain ⟨rfl, rfl⟩ := List.cons.inj heq
        obtain ⟨-, rfl⟩ := hrest.empty
        rw [show before ++ first.calls ++ callsOf ([] : List (Finished Effect LedgerError Unit)) =
          before ++ first.calls from List.append_nil _]
        exact hagrees ho
      | cons f earlier => exact hlater earlier last (List.cons.inj heq).2 ho

theorem deliveries_invocations_le {inputs : List Input} {runs : List (Finished Effect LedgerError Unit)}
    (h : Deliveries opts inputs w runs w') :
    List.Forall₂ (fun input r => (invocations r.calls).length ≤ input.maxAttempts) inputs runs := by
  induction inputs generalizing w runs with
  | nil =>
    cases h
    exact .nil
  | cons input inputs ih =>
    cases h with
    | cons first rest => exact .cons (run_invocations_le first) (ih rest)

end

/-- **Deliveries of one event.**  A run calls the handler at most `maxAttempts` times; and when no
record of a success fails, nothing is called after the handler has succeeded, the event is not given
up after it, and a run that returns leaves the checkpoint in agreement with the last outcome. -/
theorem succeeds_once (opts : Options) (consumerName eventKey : String) (inputs : List Input)
    (hsame : ∀ input ∈ inputs, input.consumerName = consumerName ∧ opts.key input = eventKey ∧
      1 ≤ input.maxAttempts)
    (w w' : World) (hnew : w.checkpoints.get? (consumerName, eventKey) = none)
    (runs : List (Finished Effect LedgerError Unit)) (h : Deliveries opts inputs w runs w') :
    List.Forall₂ (fun input r => (invocations r.calls).length ≤ input.maxAttempts) inputs runs ∧
    (Recorded (callsOf runs) → Once (callsOf runs) ∧
      ∀ earlier last, runs = earlier ++ [last] → last.outcome = .ok () →
        Agrees w' consumerName eventKey (callsOf runs)) := by
  refine ⟨deliveries_invocations_le h, fun hrec => ?_⟩
  have hstart : Delivered consumerName eventKey [] w := by
    refine ⟨once_nil, nofun, fun hs => ?_⟩
    rw [hnew] at hs
    cases hs
  obtain ⟨hd, hagrees⟩ := deliveries_deliver hsame hrec hstart h
  exact ⟨hd.once, hagrees⟩

/-! ## a success whose record fails -/

section
variable (input : Input) (eventKey : String)

/-- a delivery all of whose calls are answered -/
def answeredCalls : List (Answered Effect LedgerError) :=
  [⟨.hasSucceeded input.consumerName eventKey, .ok false⟩, ⟨.handle input, .ok ()⟩,
    ⟨.appendAttempt input eventKey .succeeded 1 none, .ok ()⟩,
    ⟨.upsertCheckpoint input.consumerName eventKey .succeeded, .ok ()⟩]

/-- a delivery whose first record of the success is refused -/
def unrecordedCalls (message : String) : List (Answered Effect LedgerError) :=
  [⟨.hasSucceeded input.consumerName eventKey, .ok false⟩, ⟨.handle input, .ok ()⟩,
    ⟨.appendAttempt input eventKey .succeeded 1 none, .error (.database "08006")⟩,
    ⟨.appendAttempt input eventKey .failed 1 (some message), .ok ()⟩, ⟨.sleep 200, .ok ()⟩,
    ⟨.handle input, .ok ()⟩, ⟨.appendAttempt input eventKey .succeeded 2 none, .ok ()⟩,
    ⟨.upsertCheckpoint input.consumerName eventKey .succeeded, .ok ()⟩]

end

theorem answered_delivery : ∃ w', Performs (run exampleOptions (exampleInput "1")) World.empty
    (answeredCalls (exampleInput "1") (exampleOptions.key (exampleInput "1"))) (.ok ()) w' := by
  refine ⟨_, Runs.calls (.done _ _) (Runs.calls (.done _ _) (Runs.calls (.done _ _)
    (Runs.calls (.done _ _) (.returns () _))))⟩

/-- one delivery, all of whose calls are answered -/
theorem succeeds_once_example :
    Once (answeredCalls (exampleInput "1") (exampleOptions.key (exampleInput "1"))) := by
  obtain ⟨w', hrun⟩ := answered_delivery
  have hsession : Deliveries exampleOptions [exampleInput "1"] World.empty [⟨_, _⟩] w' :=
    .cons hrun (.nil w')
  have hlaw := succeeds_once exampleOptions "foxya_withdrawal_sync" (exampleOptions.key (exampleInput "1"))
    [exampleInput "1"] (fun input hmem => by
      rw [List.mem_singleton.mp hmem]
      exact ⟨rfl, rfl, by decide⟩) World.empty w' rfl _ hsession
  have honce := (hlaw.2 fun c hc _ => ?_).1
  · exact honce
  · replace hc : c ∈ answeredCalls (exampleInput "1") (exampleOptions.key (exampleInput "1")) := hc
    simp only [answeredCalls, List.mem_cons, List.not_mem_nil, or_false] at hc
    rcases hc with rfl | rfl | rfl | rfl <;> exact ⟨_, rfl⟩

/-- **A success whose record fails.**  The handler has returned, the attempt's record is refused, and
the handler is called again. -/
theorem handled_twice : ∃ w', Performs (run exampleOptions (exampleInput "1")) World.empty
      (unrecordedCalls (exampleInput "1") (exampleOptions.key (exampleInput "1")) "failed") (.ok ()) w' ∧
    ¬Once (unrecordedCalls (exampleInput "1") (exampleOptions.key (exampleInput "1")) "failed") := by
  refine ⟨_, Runs.calls (.done _ _) (Runs.calls (.done _ _) (Runs.calls (.refused _ _ _)
    (Runs.calls (.done _ _) (Runs.calls (.done _ _) (Runs.calls (.done _ _) (Runs.calls (.done _ _)
      (Runs.calls (.done _ _) (.returns () _)))))))), fun honce => ?_⟩
  obtain ⟨hnone, -⟩ := honce [_] _ _ rfl rfl
  cases hnone

end Consumers
