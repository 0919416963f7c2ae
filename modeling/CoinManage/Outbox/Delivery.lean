import CoinManage.Lib.Loops
import CoinManage.Outbox.Worker

/-!
# What the outbox says of deliveries

A report on an event looks at nothing but the identifier, so the run decides whether a published
event stays published.  In every run in which no failure report finds its event published, and no
report finds an event with fields its write leaves behind, the bookkeeping is right:

* `Repository.Kept`        every call changes an event only along `Allowed`;
* `delivery_bookkeeping`   the run: published events stay published until a replay, and the
                           dead-letter fields belong to dead-lettered events;
* `late_failure`           a worker whose claim was recovered as stale reports its failure after
                           another worker has published the event.
-/

set_option linter.unusedSectionVars false

namespace Outbox
open Method Interleaving

variable (pg : PgServer) {b : Backend}

/-! ## what calls may do to an event -/

/-- no field of an acknowledgement is set -/
structure Unacknowledged (e : OutboxEvent) : Prop where
  acknowledgedAt : e.deadLetterAcknowledgedAt = none
  acknowledgedBy : e.deadLetterAcknowledgedBy = none
  note : e.deadLetterNote = none
  category : e.deadLetterCategory = none
  incident : e.incidentRef = none

/-- the event an identifier names -/
def Backend.Names : Backend → String → OutboxEvent → Prop
  | .inMemory, id, e => e.outboxEventId = id
  | .postgres, id, e => Postgres.uuid pg id = .ok e.outboxEventId

/-- what a reschedule makes of an event: only one repository clears the dead-letter time -/
def Backend.rescheduled : Backend → (availableAt error : String) → OutboxEvent → OutboxEvent
  | .inMemory, availableAt, error, e => e.waitAgain availableAt error
  | .postgres, availableAt, error, e => { e.waitAgain availableAt error with deadLetteredAt := none }

/-- what a call may make of an event -/
def Allowed (b : Backend) {β : Type} (call : Effect β) (e e' : OutboxEvent) : Prop :=
  match call with
  | .recoverStale _ => e.status = .processing ∧ ∃ now, e' = e.recover now
  | .claimPending _ => e.status = .pending ∧ ∃ now, e' = e.claim now
  | .markPublished id => b.Names pg id e ∧ ∃ now, e' = e.publish now
  | .reschedule id _ _ => b.Names pg id e ∧ ∃ availableAt error, e' = b.rescheduled availableAt error e
  | .deadLetter id _ => b.Names pg id e ∧ ∃ now error, e' = e.deadLetter error now
  | .replay _ => ∃ now, e' = e.replay now
  | .acknowledge _ => e.status = .deadLettered ∧ ∃ input, e' = e.acknowledge input
  | _ => False

variable {pg}

theorem Allowed.outboxEventId {β : Type} {call : Effect β} {e e' : OutboxEvent}
    (h : Allowed pg b call e e') : e'.outboxEventId = e.outboxEventId := by
  cases call with
  | recoverStale => obtain ⟨-, now, rfl⟩ := h; rfl
  | claimPending => obtain ⟨-, now, rfl⟩ := h; rfl
  | markPublished => obtain ⟨-, now, rfl⟩ := h; rfl
  | reschedule => obtain ⟨-, at_, error, rfl⟩ := h; cases b <;> rfl
  | deadLetter => obtain ⟨-, now, error, rfl⟩ := h; rfl
  | replay => obtain ⟨now, rfl⟩ := h; rfl
  | acknowledge => obtain ⟨-, input, rfl⟩ := h; rfl
  | enqueue => exact h.elim
  | publish => exact h.elim
  | availableAfter => exact h.elim

/-- the events were rewritten one by one, each left alone or changed along `P` -/
def Rewrites (P : OutboxEvent → OutboxEvent → Prop) (es es' : List OutboxEvent) : Prop :=
  ∃ f, es' = es.map f ∧ ∀ e ∈ es, f e = e ∨ P e (f e)

theorem Rewrites.refl (P : OutboxEvent → OutboxEvent → Prop) (es : List OutboxEvent) : Rewrites P es es :=
  ⟨id, (List.map_id es).symm, fun _ _ => Or.inl rfl⟩

theorem Rewrites.ids {P : OutboxEvent → OutboxEvent → Prop} {es es' : List OutboxEvent}
    (h : Rewrites P es es') (hP : ∀ e e', P e e' → e'.outboxEventId = e.outboxEventId) :
    es'.map (·.outboxEventId) = es.map (·.outboxEventId) := by
  obtain ⟨f, rfl, hf⟩ := h
  rw [List.map_map]
  apply List.map_congr_left
  intro e he
  rcases hf e he with heq | hchange
  · exact congrArg OutboxEvent.outboxEventId heq
  · exact hP e _ hchange

/-- no two events carry one identifier -/
def Identified (es : List OutboxEvent) : Prop :=
  ∀ e ∈ es, ∀ e' ∈ es, e.outboxEventId = e'.outboxEventId → e = e'

/-- changing the events that were selected, found again by their identifiers -/
theorem rewrites_selected {P : OutboxEvent → OutboxEvent → Prop} {es selected : List OutboxEvent}
    (hid : Identified es) (hselected : ∀ e ∈ selected, e ∈ es) {f : OutboxEvent → OutboxEvent}
    (hP : ∀ e ∈ selected, P e (f e)) :
    Rewrites P es (es.map fun e => if e.outboxEventId ∈ selected.map (·.outboxEventId) then f e else e) := by
  refine ⟨_, rfl, fun e he => ?_⟩
  split
  · next hmem =>
    obtain ⟨e', he', hsame⟩ := List.mem_map.mp hmem
    obtain rfl : e' = e := hid e' (hselected e' he') e he hsame
    exact Or.inr (hP e' he')
  · exact Or.inl rfl

theorem mem_of_mem_take_mergeSort {le : OutboxEvent → OutboxEvent → Bool} {n : Nat}
    {es : List OutboxEvent} {e : OutboxEvent} (h : e ∈ (es.mergeSort le).take n) : e ∈ es :=
  List.mem_mergeSort.mp (List.mem_of_mem_take h)

/-! ## the stores -/

variable (pg)

/-- every event has an identifier of its own; in memory it is its key and was drawn -/
def Sound : (b : Backend) → b.Store → Prop
  | .inMemory, s => (∀ k e, s.outboxEvents.get? k = some e → e.outboxEventId = k) ∧
      ∀ k, (s.outboxEvents.get? k).isSome → ∃ n < s.uuidsDrawn, k = pg.uuid n
  | .postgres, s => Identified s.outboxEvents

/-- a call leaves the store sound, and every event as it was or changed as allowed -/
def Kept (b : Backend) {β : Type} (call : Effect β) (s s' : b.Store) : Prop :=
  Sound pg b s' ∧ Rewrites (Allowed pg b call) ((b.repository pg).events s) ((b.repository pg).events s')

/-- or it appends an event that waits -/
def Appends (b : Backend) (s s' : b.Store) : Prop :=
  Sound pg b s' ∧ ∃ row, (b.repository pg).events s' = (b.repository pg).events s ++ [row] ∧
    row.outboxEventId ∉ ((b.repository pg).events s).map (·.outboxEventId) ∧
    row.status = .pending ∧ row.deadLetteredAt = none ∧ Unacknowledged row

variable {pg}

theorem Sound.identified {s : b.Store} (hs : Sound pg b s) : Identified ((b.repository pg).events s) := by
  cases b with
  | inMemory =>
    intro e he e' he' hsame
    obtain ⟨k, hk⟩ := (OrderedMap.mem_values _).mp he
    obtain ⟨k', hk'⟩ := (OrderedMap.mem_values _).mp he'
    have hkeys : k = k' := by rw [← hs.1 k e hk, ← hs.1 k' e' hk', hsame]
    rw [hkeys, hk'] at hk
    exact (Option.some.inj hk).symm
  | postgres => exact hs

theorem Kept.refl {β : Type} {call : Effect β} {s : b.Store} (hs : Sound pg b s) :
    Kept pg b call s s := ⟨hs, Rewrites.refl _ _⟩

/-! ## the calls of the in-memory repository -/

section
variable {s : InMemoryLedger}

/-- `f` may change the selected events, and the identifiers stay -/
theorem inMemory_updateEvents {β : Type} {call : Effect β} (hs : Sound pg .inMemory s)
    {selected : List OutboxEvent} (hselected : ∀ e ∈ selected, e ∈ s.outboxEvents.values)
    {f : OutboxEvent → OutboxEvent} (hP : ∀ e ∈ selected, Allowed pg .inMemory call e (f e))
    (hf : ∀ e, (f e).outboxEventId = e.outboxEventId) :
    Kept pg .inMemory call s (InMemoryLedger.updateEvents selected f s).2 := by
  have hkeep : ∀ e : OutboxEvent, (if e.outboxEventId ∈ selected.map (·.outboxEventId) then f e
      else e).outboxEventId = e.outboxEventId := by
    intro e
    split
    · exact hf e
    · rfl
  refine ⟨⟨fun k e he => ?_, fun k hk => ?_⟩, ?_⟩
  · have hmap : (s.outboxEvents.get? k).map (fun e =>
        if e.outboxEventId ∈ selected.map (·.outboxEventId) then f e else e) = some e := by
      rw [← OrderedMap.get?_mapValues]
      exact he
    obtain ⟨e₀, he₀, rfl⟩ := Option.map_eq_some_iff.mp hmap
    rw [hkeep]
    exact hs.1 k e₀ he₀
  · have hmap : ((s.outboxEvents.get? k).map (fun e =>
        if e.outboxEventId ∈ selected.map (·.outboxEventId) then f e else e)).isSome := by
      rw [← OrderedMap.get?_mapValues]
      exact hk
    rw [Option.isSome_map] at hmap
    exact hs.2 k hmap
  · have hvalues := rewrites_selected hs.identified hselected hP
    show Rewrites _ s.outboxEvents.values (OrderedMap.mapValues _ s.outboxEvents).values
    rw [OrderedMap.values_mapValues]
    exact hvalues

theorem inMemory_updateEvent {β : Type} {call : Effect β} (hs : Sound pg .inMemory s) {id : String}
    {f : OutboxEvent → OutboxEvent}
    (hP : ∀ e, Backend.Names pg .inMemory id e → Allowed pg .inMemory call e (f e)) :
    Kept pg .inMemory call s (InMemoryLedger.updateEvent id f s).2 := by
  rw [InMemoryLedger.updateEvent]
  simp only [get_bind]
  cases h : s.outboxEvents.get? id with
  | none => exact Kept.refl hs
  | some event =>
    have hid : event.outboxEventId = id := hs.1 id event h
    have hkeep : (f event).outboxEventId = id := (hP event hid).outboxEventId.trans hid
    refine ⟨⟨fun k e he => ?_, fun k hk => ?_⟩, ?_⟩
    · have hget : (s.outboxEvents.set id (f event)).get? k = some e := he
      rw [OrderedMap.get?_set] at hget
      split at hget
      · next hk =>
        rw [← Option.some.inj hget, ← hk]
        exact hkeep
      · exact hs.1 k e hget
    · have hget : ((s.outboxEvents.set id (f event)).get? k).isSome := hk
      rw [OrderedMap.get?_set] at hget
      split at hget
      · next hk' =>
        rw [← hk']
        exact hs.2 id (by rw [h]; rfl)
      · exact hs.2 k hget
    · show Rewrites _ s.outboxEvents.values (s.outboxEvents.set id (f event)).values
      rw [OrderedMap.values_set_old OutboxEvent.outboxEventId hs.1 h]
      refine ⟨_, rfl, fun e he => ?_⟩
      split
      · next hsame =>
        obtain ⟨k, hk⟩ := (OrderedMap.mem_values _).mp he
        have hkey : k = id := (hs.1 k e hk).symm.trans hsame
        rw [hkey, h] at hk
        obtain rfl := Option.some.inj hk
        exact Or.inr (hP event hid)
      · exact Or.inl rfl

theorem inMemory_enqueue (huuid : Function.Injective pg.uuid) (hs : Sound pg .inMemory s)
    (input : EnqueueInput) :
    Appends pg .inMemory s (InMemoryLedger.enqueueOutboxEvent pg.toRuntime input s).2 := by
  have hfresh : s.outboxEvents.get? (pg.uuid s.uuidsDrawn) = none := by
    cases h : s.outboxEvents.get? (pg.uuid s.uuidsDrawn) with
    | none => rfl
    | some e =>
      obtain ⟨n, hn, heq⟩ := hs.2 (pg.uuid s.uuidsDrawn) (by rw [h]; rfl)
      have := huuid heq
      omega
  refine ⟨⟨fun k e he => ?_, fun k hk => ?_⟩, input.toEvent (pg.uuid s.uuidsDrawn),
    OrderedMap.values_set_new hfresh _, fun hmem => ?_, rfl, rfl, ⟨rfl, rfl, rfl, rfl, rfl⟩⟩
  · have hget : (s.outboxEvents.set (pg.uuid s.uuidsDrawn) (input.toEvent (pg.uuid s.uuidsDrawn))).get? k =
        some e := he
    rw [OrderedMap.get?_set] at hget
    split at hget
    · next hk =>
      rw [← Option.some.inj hget, ← hk]
      rfl
    · exact hs.1 k e hget
  · have hget : ((s.outboxEvents.set (pg.uuid s.uuidsDrawn)
        (input.toEvent (pg.uuid s.uuidsDrawn))).get? k).isSome := hk
    show ∃ n < s.uuidsDrawn + 1, k = pg.uuid n
    rw [OrderedMap.get?_set] at hget
    split at hget
    · next hk' => exact ⟨s.uuidsDrawn, Nat.lt_succ_self _, hk'.symm⟩
    · obtain ⟨n, hn, heq⟩ := hs.2 k hget
      exact ⟨n, by omega, heq⟩
  · obtain ⟨e, he, hid⟩ := List.mem_map.mp hmem
    obtain ⟨k, hk⟩ := (OrderedMap.mem_values _).mp he
    have hkey : k = pg.uuid s.uuidsDrawn := (hs.1 k e hk).symm.trans hid
    rw [hkey, hfresh] at hk
    cases hk

/-- every call of the in-memory repository -/
theorem inMemory_kept (huuid : Function.Injective pg.uuid) (hs : Sound pg .inMemory s) {β : Type}
    {call : Effect β} {clock : Clock} {m : Method InMemoryLedger LedgerError β}
    (h : call.method (Backend.repository pg .inMemory) clock = some m) :
    Kept pg .inMemory call s (m s).2 ∨ Appends pg .inMemory s (m s).2 := by
  cases call with
  | enqueue input =>
    cases h
    exact Or.inr (inMemory_enqueue huuid hs input)
  | recoverStale timeoutSec =>
    cases h
    refine Or.inl (inMemory_updateEvents hs (fun e he => ?_) (fun e he => ?_) fun _ => rfl)
    · exact List.mem_of_mem_filter he
    · have hguard := (List.mem_filter.mp he).2
      rw [decide_eq_true_eq] at hguard
      exact ⟨hguard.1, _, rfl⟩
  | claimPending limit =>
    cases h
    refine Or.inl (inMemory_updateEvents hs (fun e he => ?_) (fun e he => ?_) fun _ => rfl)
    · exact List.mem_of_mem_filter (mem_of_mem_take_mergeSort he)
    · have hguard := (List.mem_filter.mp (mem_of_mem_take_mergeSort he)).2
      rw [decide_eq_true_eq] at hguard
      exact ⟨hguard.1, _, rfl⟩
  | markPublished id =>
    cases h
    exact Or.inl (inMemory_updateEvent hs fun e hn => ⟨hn, _, rfl⟩)
  | reschedule id error availableAt =>
    cases h
    exact Or.inl (inMemory_updateEvent hs fun e hn => ⟨hn, _, _, rfl⟩)
  | deadLetter id error =>
    cases h
    exact Or.inl (inMemory_updateEvent hs fun e hn => ⟨hn, _, _, rfl⟩)
  | replay input =>
    cases h
    refine Or.inl (inMemory_updateEvents hs (fun e he => ?_) (fun e he => ⟨_, rfl⟩) fun _ => rfl)
    exact List.mem_of_mem_filter (mem_of_mem_take_mergeSort he)
  | acknowledge input =>
    cases h
    refine Or.inl (inMemory_updateEvents hs (fun e he => ?_) (fun e he => ?_) fun _ => rfl)
    · exact List.mem_of_mem_filter (mem_of_mem_take_mergeSort he)
    · have hguard := (List.mem_filter.mp (mem_of_mem_take_mergeSort he)).2
      rw [decide_eq_true_eq] at hguard
      exact ⟨hguard.1, _, rfl⟩
  | publish => cases h
  | availableAfter => cases h

end

/-! ## the calls of the Postgres repository -/

section
variable {s : Postgres.Db}
open Postgres

theorem Kept.same {β : Type} {call : Effect β} {s' : Db} (hs : Sound pg .postgres s)
    (h : s'.outboxEvents = s.outboxEvents) : Kept pg .postgres call s s' := by
  refine ⟨?_, ?_⟩
  · show Identified s'.outboxEvents
    rw [h]
    exact hs
  · show Rewrites _ s.outboxEvents s'.outboxEvents
    rw [h]
    exact Rewrites.refl _ _

theorem identified_map {es : List OutboxEvent} (h : Identified es) {f : OutboxEvent → OutboxEvent}
    (hf : ∀ e, (f e).outboxEventId = e.outboxEventId) : Identified (es.map f) := by
  intro e he e' he' hsame
  obtain ⟨e₀, he₀, rfl⟩ := List.mem_map.mp he
  obtain ⟨e₁, he₁, rfl⟩ := List.mem_map.mp he'
  rw [hf, hf] at hsame
  rw [h e₀ he₀ e₁ he₁ hsame]

theorem postgres_updateRows {β : Type} {call : Effect β} (hs : Sound pg .postgres s)
    {selected : List OutboxEvent} (hselected : ∀ e ∈ selected, e ∈ s.outboxEvents)
    {f : OutboxEvent → OutboxEvent} (hP : ∀ e ∈ selected, Allowed pg .postgres call e (f e))
    (hf : ∀ e, (f e).outboxEventId = e.outboxEventId) :
    Kept pg .postgres call s (updateOutboxRows (selected.map (·.outboxEventId)) f s).2 := by
  refine ⟨identified_map hs fun e => ?_, rewrites_selected hs hselected hP⟩
  split
  · exact hf e
  · rfl

/-- one `UPDATE` by the identifier, once its values are accepted -/
theorem postgres_updateRow {β : Type} {call : Effect β} (hs : Sound pg .postgres s) {id id' : String}
    (hid : uuid pg id = .ok id') {f : OutboxEvent → OutboxEvent}
    (hP : ∀ e, Backend.Names pg .postgres id e → Allowed pg .postgres call e (f e))
    (hf : ∀ e, (f e).outboxEventId = e.outboxEventId) :
    Kept pg .postgres call s (updateOutboxRows [id'] f s).2 := by
  refine ⟨identified_map hs fun e => ?_, _, rfl, fun e he => ?_⟩
  · split
    · exact hf e
    · rfl
  · split
    · next hmem =>
      refine Or.inr (hP e ?_)
      show uuid pg id = .ok e.outboxEventId
      rw [List.mem_singleton.mp hmem]
      exact hid
    · exact Or.inl rfl

theorem ends_column {α : Type} {value : Except LedgerError α} {Q : α → Db → Prop}
    {E : LedgerError → Db → Prop} (hq : ∀ a, value = .ok a → Q a s) (he : ∀ e, E e s) :
    Ends (column value) s Q E := ends_ofExcept.mpr ⟨hq, fun e _ => he e⟩

theorem columns_ends {α β : Type} (value : α → Except LedgerError β) (as : List α) :
    Ends (columns value as) s (fun _ s' => s' = s) (fun _ s' => s' = s) := by
  induction as with
  | nil => rfl
  | cons a as ih =>
    rw [columns, ends_bind]
    refine ends_column (fun b _ => ?_) fun _ => rfl
    rw [ends_bind]
    refine ih.imp (fun bs s' h => ?_) fun _ _ h => h
    exact h

theorem idsColumn_ends (ids : Option (List String)) :
    Ends (idsColumn pg ids) s (fun _ s' => s' = s) (fun _ s' => s' = s) := by
  rw [idsColumn]
  cases filterIds ids with
  | none => rfl
  | some ids =>
    simp only
    rw [ends_bind]
    exact (columns_ends _ ids).imp (fun _ _ h => h) fun _ _ h => h

/-- a method that keeps the outbox however it ends -/
theorem kept_of_ends {β : Type} {call : Effect β} {m : Method Db LedgerError β}
    (h : Ends m s (fun _ s' => Kept pg .postgres call s s') (fun _ s' => Kept pg .postgres call s s')) :
    Kept pg .postgres call s (m s).2 := by
  rcases hm : m s with ⟨e | a, s'⟩
  · exact h.throws hm
  · exact h.returns hm

/-- in a transaction a throw undoes the writes -/
theorem kept_of_transaction {β : Type} {call : Effect β} {m : Method Db LedgerError β}
    (hs : Sound pg .postgres s) (h : Ends m s (fun _ s' => Kept pg .postgres call s s') (fun _ _ => True)) :
    Kept pg .postgres call s (withTransaction m s).2 := by
  refine kept_of_ends (ends_atomically.mpr (h.imp (fun _ _ h => h) fun e s' _ => ?_))
  exact Kept.same hs rfl

theorem postgres_enqueue (hs : Sound pg .postgres s) (input : EnqueueInput) :
    Kept pg .postgres (.enqueue input) s (Postgres.enqueueOutboxEvent pg input s).2 ∨
      Appends pg .postgres s (Postgres.enqueueOutboxEvent pg input s).2 := by
  have hends : Ends (Postgres.enqueueOutboxEvent pg input) s
      (fun _ s' => Appends pg .postgres s s') (fun _ s' => Kept pg .postgres (.enqueue input) s s') := by
    rw [Postgres.enqueueOutboxEvent, ends_bind]
    show Ends _ { s with uuidsDrawn := s.uuidsDrawn + 1 } _ _
    rw [ends_bind]
    refine ends_column (fun row hrow => ?_) fun _ => Kept.same hs rfl
    rw [ends_bind, ends_get, ends_bind, Method.throwWhen, ends_ite]
    refine ⟨fun _ => Kept.same hs rfl, fun hnew => ?_⟩
    rw [ends_pure, ends_modify]
    have hfresh : row.outboxEventId ∉ s.outboxEvents.map (·.outboxEventId) := by
      intro hmem
      obtain ⟨e, he, hid⟩ := List.mem_map.mp hmem
      exact hnew ⟨e, he, hid⟩
    have hrow' : row.status = .pending ∧ row.deadLetteredAt = none ∧ Unacknowledged row := by
      simp only [outboxRow, bind, Except.bind, pure, Except.pure] at hrow
      repeat' (split at hrow; · cases hrow)
      obtain rfl := Except.ok.inj hrow
      exact ⟨rfl, rfl, rfl, rfl, rfl, rfl, rfl⟩
    refine ⟨fun e he e' he' hsame => ?_, row, rfl, hfresh, hrow'⟩
    rcases List.mem_append.mp he with he | he <;> rcases List.mem_append.mp he' with he' | he'
    · exact hs e he e' he' hsame
    · rw [List.mem_singleton.mp he'] at hsame
      exact absurd (hsame ▸ List.mem_map_of_mem he) hfresh
    · rw [List.mem_singleton.mp he] at hsame
      exact absurd (hsame ▸ List.mem_map_of_mem he') hfresh
    · rw [List.mem_singleton.mp he, List.mem_singleton.mp he']
  rcases hm : Postgres.enqueueOutboxEvent pg input s with ⟨e | a, s'⟩
  · exact Or.inl (hends.throws hm)
  · exact Or.inr (hends.returns hm)

/-- every call of the Postgres repository -/
theorem postgres_kept (hs : Sound pg .postgres s) {β : Type} {call : Effect β} {clock : Clock}
    {m : Method Db LedgerError β} (h : call.method (Backend.repository pg .postgres) clock = some m) :
    Kept pg .postgres call s (m s).2 ∨ Appends pg .postgres s (m s).2 := by
  cases call with
  | enqueue input =>
    cases h
    exact postgres_enqueue hs input
  | recoverStale timeoutSec =>
    cases h
    refine Or.inl (kept_of_transaction hs ?_)
    rw [ends_bind]
    refine ends_column (fun threshold _ => ?_) fun _ => trivial
    rw [ends_bind, ends_get]
    dsimp only
    rw [ends_ite]
    refine ⟨fun _ => Kept.refl hs, fun _ => ?_⟩
    rw [ends_bind]
    refine ends_column (fun now _ => ?_) fun _ => trivial
    rw [ends_bind, updateOutboxRows, ends_modify]
    refine postgres_updateRows hs (fun e he => List.mem_of_mem_filter he) (fun e he => ?_) fun _ => rfl
    have hguard := (List.mem_filter.mp he).2
    rw [decide_eq_true_eq] at hguard
    exact ⟨hguard.1, _, rfl⟩
  | claimPending limit =>
    cases h
    refine Or.inl (kept_of_transaction hs ?_)
    rw [ends_bind]
    refine ends_column (fun now _ => ?_) fun _ => trivial
    rw [ends_bind, ends_get]
    dsimp only
    rw [ends_bind, updateOutboxRows, ends_modify]
    refine postgres_updateRows hs (fun e he => ?_) (fun e he => ?_) fun _ => rfl
    · exact List.mem_of_mem_filter (mem_of_mem_take_mergeSort he)
    · have hguard := (List.mem_filter.mp (mem_of_mem_take_mergeSort he)).2
      rw [decide_eq_true_eq] at hguard
      exact ⟨hguard.1, _, rfl⟩
  | markPublished id =>
    cases h
    refine Or.inl (kept_of_ends ?_)
    show Ends (Postgres.markOutboxEventPublished pg id clock.nowIso) s _ _
    rw [Postgres.markOutboxEventPublished, ends_bind]
    refine ends_column (fun now _ => ?_) fun _ => Kept.refl hs
    rw [ends_bind]
    refine ends_column (fun id' hid => ?_) fun _ => Kept.refl hs
    exact postgres_updateRow hs hid (fun e hn => ⟨hn, _, rfl⟩) fun _ => rfl
  | reschedule id error availableAt =>
    cases h
    refine Or.inl (kept_of_ends ?_)
    show Ends (Postgres.rescheduleOutboxEvent pg id error availableAt) s _ _
    rw [Postgres.rescheduleOutboxEvent, ends_bind]
    refine ends_column (fun at_ _ => ?_) fun _ => Kept.refl hs
    rw [ends_bind]
    refine ends_column (fun lastError _ => ?_) fun _ => Kept.refl hs
    rw [ends_bind]
    refine ends_column (fun id' hid => ?_) fun _ => Kept.refl hs
    exact postgres_updateRow hs hid (fun e hn => ⟨hn, _, _, rfl⟩) fun _ => rfl
  | deadLetter id error =>
    cases h
    refine Or.inl (kept_of_ends ?_)
    show Ends (Postgres.deadLetterOutboxEvent pg id error clock.nowIso) s _ _
    rw [Postgres.deadLetterOutboxEvent, ends_bind]
    refine ends_column (fun at_ _ => ?_) fun _ => Kept.refl hs
    rw [ends_bind]
    refine ends_column (fun lastError _ => ?_) fun _ => Kept.refl hs
    rw [ends_bind]
    refine ends_column (fun id' hid => ?_) fun _ => Kept.refl hs
    exact postgres_updateRow hs hid (fun e hn => ⟨hn, _, _, rfl⟩) fun _ => rfl
  | replay input =>
    cases h
    refine Or.inl (kept_of_transaction hs ?_)
    rw [ends_bind]
    refine (idsColumn_ends _).imp (fun ids s' hsame => ?_) fun _ _ _ => trivial
    subst hsame
    rw [ends_bind, ends_get]
    dsimp only
    rw [ends_ite]
    refine ⟨fun _ => Kept.refl hs, fun _ => ?_⟩
    rw [ends_bind]
    refine ends_column (fun now _ => ?_) fun _ => trivial
    rw [ends_bind, updateOutboxRows, ends_modify]
    refine postgres_updateRows hs (fun e he => ?_) (fun e he => ⟨_, rfl⟩) fun _ => rfl
    exact List.mem_of_mem_filter (mem_of_mem_take_mergeSort he)
  | acknowledge input =>
    cases h
    refine Or.inl (kept_of_transaction hs ?_)
    rw [ends_bind]
    refine (idsColumn_ends _).imp (fun ids s' hsame => ?_) fun _ _ _ => trivial
    subst hsame
    rw [ends_bind, ends_get]
    dsimp only
    rw [ends_ite]
    refine ⟨fun _ => Kept.refl hs, fun _ => ?_⟩
    rw [ends_bind]
    refine ends_column (fun values _ => ?_) fun _ => trivial
    rw [ends_bind, updateOutboxRows, ends_modify]
    refine postgres_updateRows hs (fun e he => ?_) (fun e he => ?_) fun _ => rfl
    · exact List.mem_of_mem_filter (mem_of_mem_take_mergeSort he)
    · have hguard := (List.mem_filter.mp (mem_of_mem_take_mergeSort he)).2
      rw [decide_eq_true_eq] at hguard
      exact ⟨hguard.1, _, rfl⟩
  | publish => cases h
  | availableAfter => cases h

end

/-! ## the bookkeeping -/

theorem method_kept (huuid : Function.Injective pg.uuid) {s : b.Store} (hs : Sound pg b s) {β : Type}
    {call : Effect β} {clock : Clock} {m : Method b.Store LedgerError β}
    (h : call.method (b.repository pg) clock = some m) :
    Kept pg b call s (m s).2 ∨ Appends pg b s (m s).2 := by
  cases b with
  | inMemory => exact inMemory_kept huuid hs h
  | postgres => exact postgres_kept hs h

/-- the dead-letter fields of an event agree with its status -/
structure WellKept (e : OutboxEvent) : Prop where
  deadLettered : e.deadLetteredAt.isSome ↔ e.status = .deadLettered
  acknowledged : e.status ≠ .deadLettered → Unacknowledged e

variable (pg) in
/-- What is recorded as published is published, and the dead-letter fields agree with the status. -/
structure Bookkept (w : World b) : Prop where
  published : ∀ e ∈ (b.repository pg).events w.store, e.outboxEventId ∈ w.recorded → e.status = .published
  wellKept : ∀ e ∈ (b.repository pg).events w.store, WellKept e

/-- a reschedule leaves no field of a dead letter behind -/
def Backend.Reschedulable : Backend → OutboxEvent → Prop
  | .inMemory, e => e.status ≠ .deadLettered
  | .postgres, e => Unacknowledged e

variable (pg) in
/-- A report finds its event in time: a failure finds it not published, and no report but a
dead-lettering finds fields of a dead letter that it would leave behind. -/
def Timely (b : Backend) (_ : Nat) {β : Type} (call : Effect β) (w : World b) : Prop :=
  match call with
  | .markPublished id => ∀ e ∈ (b.repository pg).events w.store, b.Names pg id e → Unacknowledged e
  | .reschedule id _ _ => ∀ e ∈ (b.repository pg).events w.store, b.Names pg id e →
      e.status ≠ .published ∧ b.Reschedulable e
  | .deadLetter id _ => ∀ e ∈ (b.repository pg).events w.store, b.Names pg id e →
      e.status ≠ .published
  | _ => True

theorem WellKept.of_unacknowledged {e : OutboxEvent}
    (h : e.deadLetteredAt.isSome ↔ e.status = .deadLettered) (hu : Unacknowledged e) : WellKept e :=
  ⟨h, fun _ => hu⟩

/-- what a timely call makes of a well-kept event -/
theorem Allowed.wellKept {β : Type} {call : Effect β} {w : World b} {i : Nat} {e e' : OutboxEvent}
    (h : Allowed pg b call e e') (htimely : Timely pg b i call w)
    (he : e ∈ (b.repository pg).events w.store) (hok : WellKept e) : WellKept e' := by
  have hnot : e.status ≠ .deadLettered → e.deadLetteredAt = none := by
    intro hst
    have hsome : ¬ e.deadLetteredAt.isSome := fun hsome => hst (hok.deadLettered.mp hsome)
    rw [Option.not_isSome_iff_eq_none] at hsome
    exact hsome
  cases call with
  | recoverStale =>
    obtain ⟨hst, now, rfl⟩ := h
    have hne : e.status ≠ .deadLettered := by rw [hst]; exact nofun
    obtain ⟨h₁, h₂, h₃, h₄, h₅⟩ := hok.acknowledged hne
    refine .of_unacknowledged ?_ ⟨h₁, h₂, h₃, h₄, h₅⟩
    show e.deadLetteredAt.isSome ↔ OutboxStatus.pending = .deadLettered
    rw [hnot hne]
    exact ⟨nofun, nofun⟩
  | claimPending =>
    obtain ⟨hst, now, rfl⟩ := h
    have hne : e.status ≠ .deadLettered := by rw [hst]; exact nofun
    obtain ⟨h₁, h₂, h₃, h₄, h₅⟩ := hok.acknowledged hne
    refine .of_unacknowledged ?_ ⟨h₁, h₂, h₃, h₄, h₅⟩
    show e.deadLetteredAt.isSome ↔ OutboxStatus.processing = .deadLettered
    rw [hnot hne]
    exact ⟨nofun, nofun⟩
  | markPublished id =>
    obtain ⟨hname, now, rfl⟩ := h
    obtain ⟨h₁, h₂, h₃, h₄, h₅⟩ := htimely e he hname
    exact .of_unacknowledged ⟨nofun, nofun⟩ ⟨h₁, h₂, h₃, h₄, h₅⟩
  | reschedule id error availableAt =>
    obtain ⟨hname, at_, text, rfl⟩ := h
    obtain ⟨-, hre⟩ := htimely e he hname
    cases b with
    | inMemory =>
      obtain ⟨h₁, h₂, h₃, h₄, h₅⟩ := hok.acknowledged hre
      refine .of_unacknowledged ?_ ⟨h₁, h₂, h₃, h₄, h₅⟩
      show e.deadLetteredAt.isSome ↔ OutboxStatus.pending = .deadLettered
      rw [hnot hre]
      exact ⟨nofun, nofun⟩
    | postgres =>
      obtain ⟨h₁, h₂, h₃, h₄, h₅⟩ := hre
      exact .of_unacknowledged ⟨nofun, nofun⟩ ⟨h₁, h₂, h₃, h₄, h₅⟩
  | deadLetter id error =>
    obtain ⟨hname, now, text, rfl⟩ := h
    exact .of_unacknowledged ⟨fun _ => rfl, fun _ => rfl⟩ ⟨rfl, rfl, rfl, rfl, rfl⟩
  | replay input =>
    obtain ⟨now, rfl⟩ := h
    exact .of_unacknowledged ⟨nofun, nofun⟩ ⟨rfl, rfl, rfl, rfl, rfl⟩
  | acknowledge input =>
    obtain ⟨hst, values, rfl⟩ := h
    exact ⟨hok.deadLettered, fun hne => absurd hst hne⟩
  | enqueue => exact h.elim
  | publish => exact h.elim
  | availableAfter => exact h.elim

/-- only a replay takes an event from being published -/
theorem Allowed.published {β : Type} {call : Effect β} {w : World b} {i : Nat} {e e' : OutboxEvent}
    (h : Allowed pg b call e e') (htimely : Timely pg b i call w)
    (he : e ∈ (b.repository pg).events w.store) (hreplay : call.isReplay = false)
    (hst : e.status = .published) : e'.status = .published := by
  cases call with
  | recoverStale =>
    have hbefore := h.1
    rw [hst] at hbefore
    cases hbefore
  | claimPending =>
    have hbefore := h.1
    rw [hst] at hbefore
    cases hbefore
  | markPublished =>
    obtain ⟨-, now, rfl⟩ := h
    rfl
  | reschedule => exact absurd hst (htimely e he h.1).1
  | deadLetter => exact absurd hst (htimely e he h.1)
  | replay => cases hreplay
  | acknowledge =>
    have hbefore := h.1
    rw [hst] at hbefore
    cases hbefore
  | enqueue => exact h.elim
  | publish => exact h.elim
  | availableAfter => exact h.elim

theorem mem_publishedIds {s : b.Store} {id : String} :
    id ∈ publishedIds (b.repository pg) s ↔
      ∃ e ∈ (b.repository pg).events s, e.status = .published ∧ e.outboxEventId = id := by
  simp only [publishedIds, List.mem_map, List.mem_filter, decide_eq_true_eq, and_assoc]

variable (pg) in
/-- what every step keeps -/
structure Invariant (w : World b) : Prop where
  sound : Sound pg b w.store
  bookkept : Bookkept pg w
  known : ∀ id ∈ w.recorded, id ∈ ((b.repository pg).events w.store).map (·.outboxEventId)

/-- what is recorded after a call is published then, or was recorded before and no replay ran -/
theorem World.mem_after {w : World b} {β : Type} {call : Effect β} {s : b.Store} {id : String}
    (h : id ∈ (w.after (b.repository pg) call s).recorded) :
    id ∈ publishedIds (b.repository pg) s ∨ call.isReplay = false ∧ id ∈ w.recorded := by
  rcases List.mem_append.mp h with h | h
  · split at h
    · have hpub := (List.mem_filter.mp h).2
      rw [decide_eq_true_eq] at hpub
      exact Or.inl hpub
    · next hreplay => exact Or.inr ⟨Bool.eq_false_of_not_eq_true hreplay, h⟩
  · exact Or.inl h

/-- in a store whose identifiers are unique, what is among the published is published -/
theorem published_of_mem {s : b.Store} (hs : Sound pg b s) {e : OutboxEvent}
    (he : e ∈ (b.repository pg).events s) (h : e.outboxEventId ∈ publishedIds (b.repository pg) s) :
    e.status = .published := by
  obtain ⟨e', he', hst, hid⟩ := mem_publishedIds.mp h
  rw [← hs.identified e' he' e he hid]
  exact hst

theorem Kept.invariant {w : World b} {β : Type} {call : Effect β} {i : Nat} {s : b.Store}
    (h : Kept pg b call w.store s) (htimely : Timely pg b i call w) (hw : Invariant pg w) :
    Invariant pg (w.after (b.repository pg) call s) := by
  obtain ⟨hsound, hrewrites⟩ := h
  have hids := hrewrites.ids fun e e' hP => hP.outboxEventId
  obtain ⟨f, hevents, hf⟩ := hrewrites
  have hsource : ∀ e' ∈ (b.repository pg).events s, ∃ e ∈ (b.repository pg).events w.store,
      e'.outboxEventId = e.outboxEventId ∧ (e' = e ∨ Allowed pg b call e e') := by
    intro e' he'
    rw [hevents] at he'
    obtain ⟨e, he, rfl⟩ := List.mem_map.mp he'
    rcases hf e he with heq | hallowed
    · exact ⟨e, he, congrArg OutboxEvent.outboxEventId heq, Or.inl heq⟩
    · exact ⟨e, he, hallowed.outboxEventId, Or.inr hallowed⟩
  refine ⟨hsound, ⟨fun e' he' hmem => ?_, fun e' he' => ?_⟩, fun id hmem => ?_⟩
  · rcases World.mem_after hmem with hpub | ⟨hreplay, hbefore⟩
    · exact published_of_mem hsound he' hpub
    · obtain ⟨e, he, hid, hchange⟩ := hsource e' he'
      rw [hid] at hbefore
      have hst := hw.bookkept.published e he hbefore
      rcases hchange with rfl | hallowed
      · exact hst
      · exact hallowed.published htimely he hreplay hst
  · obtain ⟨e, he, -, hchange⟩ := hsource e' he'
    have hok := hw.bookkept.wellKept e he
    rcases hchange with rfl | hallowed
    · exact hok
    · exact hallowed.wellKept htimely he hok
  · show id ∈ ((b.repository pg).events s).map (·.outboxEventId)
    rcases World.mem_after hmem with hpub | ⟨-, hbefore⟩
    · obtain ⟨e, he, -, rfl⟩ := mem_publishedIds.mp hpub
      exact List.mem_map_of_mem he
    · rw [hids]
      exact hw.known id hbefore

theorem Appends.invariant {w : World b} {β : Type} {call : Effect β} {s : b.Store}
    (h : Appends pg b w.store s) (hw : Invariant pg w) :
    Invariant pg (w.after (b.repository pg) call s) := by
  obtain ⟨hsound, row, hevents, hfresh, hst, hdead, hunack⟩ := h
  refine ⟨hsound, ⟨fun e he hmem => ?_, fun e he => ?_⟩, fun id hmem => ?_⟩
  · rcases World.mem_after hmem with hpub | ⟨-, hbefore⟩
    · exact published_of_mem hsound he hpub
    · have he' : e ∈ (b.repository pg).events s := he
      rw [hevents] at he'
      rcases List.mem_append.mp he' with hold | hnew
      · exact hw.bookkept.published e hold hbefore
      · rw [List.mem_singleton.mp hnew] at hbefore
        exact absurd (hw.known _ hbefore) hfresh
  · have he' : e ∈ (b.repository pg).events s := he
    rw [hevents] at he'
    rcases List.mem_append.mp he' with hold | hnew
    · exact hw.bookkept.wellKept e hold
    · rw [List.mem_singleton.mp hnew]
      refine .of_unacknowledged ?_ hunack
      rw [hdead, hst]
      exact ⟨nofun, nofun⟩
  · show id ∈ ((b.repository pg).events s).map (·.outboxEventId)
    rcases World.mem_after hmem with hpub | ⟨-, hbefore⟩
    · obtain ⟨e, he, -, rfl⟩ := mem_publishedIds.mp hpub
      exact List.mem_map_of_mem he
    · rw [hevents, List.map_append]
      exact List.mem_append_left _ (hw.known id hbefore)

theorem handles_invariant (huuid : Function.Injective pg.uuid) {w w' : World b} {i : Nat} {β : Type}
    {call : Effect β} {r : Except LedgerError β} (h : Handles pg b i call w r w')
    (htimely : Timely pg b i call w) (hw : Invariant pg w) : Invariant pg w' := by
  cases h with
  | done method =>
    rcases method_kept huuid hw.sound method with hkept | happends
    · exact hkept.invariant htimely hw
    · exact happends.invariant hw
  | unanswered method =>
    rcases method_kept huuid hw.sound method with hkept | happends
    · exact hkept.invariant htimely hw
    · exact happends.invariant hw
  | outside => exact hw
  | refused => exact hw

theorem elsewhere_invariant {w w' : World b} (h : Elsewhere b w w') (hw : Invariant pg w) :
    Invariant pg w' := by
  have hrecorded : w'.recorded = w.recorded := by
    cases b with
    | inMemory => exact h.1
    | postgres => exact h.1
  have hevents : (b.repository pg).events w'.store = (b.repository pg).events w.store := by
    cases b with
    | inMemory => exact congrArg OrderedMap.values h.2.1
    | postgres => exact h.2
  refine ⟨?_, ⟨?_, ?_⟩, ?_⟩
  · have hs := hw.sound
    cases b with
    | inMemory =>
      obtain ⟨-, hsame, hdrawn⟩ := h
      refine ⟨fun k e he => hs.1 k e (by rw [← hsame]; exact he), fun k hk => ?_⟩
      rw [hsame] at hk
      obtain ⟨n, hn, hk'⟩ := hs.2 k hk
      exact ⟨n, Nat.lt_of_lt_of_le hn hdrawn, hk'⟩
    | postgres =>
      show Identified w'.store.outboxEvents
      rw [h.2]
      exact hs
  · rw [hevents, hrecorded]
    exact hw.bookkept.published
  · rw [hevents]
    exact hw.bookkept.wellKept
  · rw [hevents, hrecorded]
    exact hw.known

theorem initial_invariant {s : b.Store} (hs : Sound pg b s)
    (hok : ∀ e ∈ (b.repository pg).events s, WellKept e) : Invariant pg (World.initial pg s) := by
  refine ⟨hs, ⟨fun e he hmem => published_of_mem hs he hmem, hok⟩, fun id hmem => ?_⟩
  obtain ⟨e, he, -, rfl⟩ := mem_publishedIds.mp hmem
  exact List.mem_map_of_mem he

/-- Workers, replays and acknowledgements in any interleaving: if every report finds its event in
time, the bookkeeping is right in every state reached. -/
theorem delivery_bookkeeping (pg : PgServer) (huuid : Function.Injective pg.uuid) (opts : Options)
    (b : Backend) (s : b.Store) (hs : Sound pg b s)
    (hok : ∀ e ∈ (b.repository pg).events s, WellKept e) {σ : System Effect LedgerError (World b)}
    (hrun : Reachable (IsProgram opts) (Handles pg b) (Elsewhere b) (Timely pg b)
      (System.initial _ _ (World.initial pg s)) σ) : Bookkept pg σ.world := by
  have hinv : Invariant pg σ.world := by
    refine hrun.invariant (I := fun σ => Invariant pg σ.world) (fun σ σ' hσ hstep => ?_)
      (initial_invariant hs hok)
    cases hstep with
    | start => exact hσ
    | perform running admitted handled => exact handles_invariant huuid handled admitted hσ
    | stop => exact hσ
    | environment moved => exact elsewhere_invariant moved hσ
  exact hinv.bookkept

/-! ## two runs -/

section
variable {opts : Options} {admits : Nat → ∀ {β : Type}, Effect β → World b → Prop}
  {σ₀ σ : System Effect LedgerError (World b)}

/-- a call that the repository answers with `r` -/
theorem turn (h : Reachable (IsProgram opts) (Handles pg b) (Elsewhere b) admits σ₀ σ) (i : Nat)
    {β : Type} (call : Effect β) (clock : Clock) (r : Except LedgerError β)
    {next : Except LedgerError β → Async Unit} {m : Method b.Store LedgerError β}
    (running : σ.running i = some (.calls call next))
    (method : call.method (b.repository pg) clock = some m) (admitted : admits i call σ.world)
    (hr : (m σ.world.store).1 = r) :
    Reachable (IsProgram opts) (Handles pg b) (Elsewhere b) admits σ₀
      ⟨σ.world.after (b.repository pg) call (m σ.world.store).2,
        Function.update σ.running i (some (next r)), σ.started⟩ := by
  subst hr
  exact h.tail (Step.perform running admitted (Handles.done method σ.world))

/-- a call that the publisher or the clock answers -/
theorem turn_outside (h : Reachable (IsProgram opts) (Handles pg b) (Elsewhere b) admits σ₀ σ)
    (i : Nat) {β : Type} {call : Effect β} (r : Except LedgerError β)
    {next : Except LedgerError β → Async Unit} (running : σ.running i = some (.calls call next))
    (out : ∀ clock, call.method (b.repository pg) clock = none) (admitted : admits i call σ.world) :
    Reachable (IsProgram opts) (Handles pg b) (Elsewhere b) admits σ₀
      ⟨σ.world, Function.update σ.running i (some (next r)), σ.started⟩ :=
  h.tail (Step.perform running admitted (Handles.outside out r σ.world))

end

def exampleOptions : Options := ⟨100, 1000, 60000, 5, 300, fun _ => "publish failed"⟩

def exampleEvent : EnqueueInput where
  eventType := "offline_pay.topup"
  aggregateType := "offline_pay"
  aggregateId := "key"
  payload := .offlinePay ⟨[]⟩
  occurredAt := "2026-01-01T00:00:00.000Z"

/-- one event waits -/
def oneWaiting : InMemoryLedger :=
  (InMemoryLedger.enqueueOutboxEvent .numbered exampleEvent (InMemoryLedger.new ⟨10000000, 10000000⟩)).2

/-- that event under its `n`-th claim -/
def claimedExample (n : Nat) (claimedAt availableAt : String) (lastError : Option String) : OutboxEvent :=
  { exampleEvent.toEvent (Runtime.numbered.uuid 0) with
    status := .processing, attempts := n, availableAt := availableAt
    processingStartedAt := some claimedAt, lastError := lastError }

theorem oneWaiting_appended :
    Appends .numbered .inMemory (InMemoryLedger.new ⟨10000000, 10000000⟩) oneWaiting := by
  have hnone : ∀ k, (InMemoryLedger.new ⟨10000000, 10000000⟩).outboxEvents.get? k = none := fun _ => rfl
  have hnew : Sound .numbered .inMemory (InMemoryLedger.new ⟨10000000, 10000000⟩) := by
    refine ⟨fun k e he => ?_, fun k hk => ?_⟩
    · rw [hnone] at he
      cases he
    · rw [hnone] at hk
      cases hk
  exact inMemory_enqueue Runtime.numbered_uuid_injective hnew exampleEvent

theorem oneWaiting_wellKept :
    ∀ e ∈ (Backend.inMemory.repository .numbered).events oneWaiting, WellKept e := by
  obtain ⟨-, row, hevents, -, hst, hdead, hunack⟩ := oneWaiting_appended
  intro e he
  rw [hevents] at he
  obtain rfl : e = row := List.mem_singleton.mp he
  refine .of_unacknowledged ?_ hunack
  rw [hdead, hst]
  exact ⟨nofun, nofun⟩

/-- a cycle that publishes the event -/
theorem delivery_bookkeeping_example :
    ∃ σ : System Effect LedgerError (World .inMemory),
      σ.world.recorded = [Runtime.numbered.uuid 0] ∧ Bookkept .numbered σ.world := by
  let clock : Clock := ⟨"2026-01-01T00:00:01.000Z", "2025-12-31T23:55:01.000Z"⟩
  let claimed := claimedExample 1 "2026-01-01T00:00:01.000Z" "2026-01-01T00:00:00.000Z" none
  have h₀ : Reachable (IsProgram exampleOptions) (Handles .numbered .inMemory) (Elsewhere .inMemory)
      (Timely .numbered .inMemory) (System.initial _ _ (World.initial .numbered oneWaiting)) _ := .refl
  have h₁ := h₀.tail (Step.start _ IsProgram.runCycle)
  have h₂ := turn h₁ 0 (.recoverStale 300) clock (.ok 0) rfl rfl trivial (by decide +kernel)
  have h₃ := turn h₂ 0 (.claimPending 100) clock (.ok [claimed]) rfl rfl trivial (by decide +kernel)
  have h₄ := turn_outside h₃ 0 (.ok ()) rfl (fun _ => rfl) trivial
  have h₅ := turn h₄ 0 (.markPublished (Runtime.numbered.uuid 0)) clock (.ok ()) rfl rfl
    (fun e he _ => by
      have hevents : e ∈ [claimed] := by
        refine Eq.mp (congrArg (e ∈ ·) ?_) he
        decide +kernel
      rw [List.mem_singleton.mp hevents]
      exact ⟨rfl, rfl, rfl, rfl, rfl⟩) rfl
  exact ⟨_, by decide +kernel, delivery_bookkeeping .numbered Runtime.numbered_uuid_injective
    exampleOptions .inMemory oneWaiting oneWaiting_appended.1 oneWaiting_wellKept h₅⟩

/-- Two workers: the first one's claim is recovered as stale, the second publishes the event and
records it, then the first reports its failure and the event waits again. -/
theorem late_failure :
    ∃ σ : System Effect LedgerError (World .inMemory),
      Reachable (IsProgram exampleOptions) (Handles .numbered .inMemory) (Elsewhere .inMemory) always
        (System.initial _ _ (World.initial .numbered oneWaiting)) σ ∧ ¬ Bookkept .numbered σ.world := by
  let clock₀ : Clock := ⟨"2026-01-01T00:00:01.000Z", "2025-12-31T23:55:01.000Z"⟩
  let clock₁ : Clock := ⟨"2026-01-01T00:06:00.000Z", "2026-01-01T00:01:00.000Z"⟩
  let claimed₀ := claimedExample 1 "2026-01-01T00:00:01.000Z" "2026-01-01T00:00:00.000Z" none
  let claimed₁ := claimedExample 2 "2026-01-01T00:06:00.000Z" "2026-01-01T00:06:00.000Z"
    (some "processing timeout recovered")
  have h₀ : Reachable (IsProgram exampleOptions) (Handles .numbered .inMemory) (Elsewhere .inMemory)
      always (System.initial _ _ (World.initial .numbered oneWaiting)) _ := .refl
  have h₁ := h₀.tail (Step.start _ IsProgram.runCycle)
  have h₂ := h₁.tail (Step.start _ IsProgram.runCycle)
  have h₃ := turn h₂ 0 (.recoverStale 300) clock₀ (.ok 0) rfl rfl trivial (by decide +kernel)
  have h₄ := turn h₃ 0 (.claimPending 100) clock₀ (.ok [claimed₀]) rfl rfl trivial (by decide +kernel)
  -- the second worker comes before the first one's publisher has answered
  have h₅ := turn h₄ 1 (.recoverStale 300) clock₁ (.ok 1) rfl rfl trivial (by decide +kernel)
  have h₆ := turn h₅ 1 (.claimPending 100) clock₁ (.ok [claimed₁]) rfl rfl trivial (by decide +kernel)
  have h₇ := turn_outside h₆ 1 (.ok ()) rfl (fun _ => rfl) trivial
  have h₈ := turn h₇ 1 (.markPublished (Runtime.numbered.uuid 0)) clock₁ (.ok ()) rfl rfl trivial rfl
  have h₉ := turn_outside h₈ 0 (.error (.domain 504 "TIMEOUT" "timeout")) rfl (fun _ => rfl) trivial
  have h₁₀ := turn_outside h₉ 0 (.ok "2026-01-01T00:06:02.000Z") rfl (fun _ => rfl) trivial
  have h₁₁ := turn h₁₀ 0 (.reschedule (Runtime.numbered.uuid 0) "publish failed"
    "2026-01-01T00:06:02.000Z") clock₁ (.ok ()) rfl rfl trivial rfl
  refine ⟨_, h₁₁, fun hkept => ?_⟩
  let waiting : OutboxEvent :=
    { claimed₁ with
      status := .pending, availableAt := "2026-01-01T00:06:02.000Z", processingStartedAt := none
      publishedAt := some "2026-01-01T00:06:00.000Z", lastError := some "publish failed" }
  have hst := hkept.published waiting (by decide +kernel) (by decide +kernel)
  cases hst

end Outbox
