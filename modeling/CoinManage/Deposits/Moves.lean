import CoinManage.Deposits.Monitor

/-!
# What a cycle of the deposit monitor writes

Every write of a cycle is one of six moves of the stores (`Move`): a UUID is drawn, an event is
discovered, registered or completed, the ledger is asked to apply or to complete a deposit.  `D`
says which events may be discovered; a deposit is asked for an event the cycle lets pass (`Lets`).

* `Moves.event`   a record keeps what it was first seen with, and its progress;
* `Moves.from`    a record was there before or is one of the discovered events;
* `Moves.sound`   every record stands under its own key, and only registered events are completed;
* `Moves.asked`   a deposit is asked for an event that the cycle sees and lets pass.
-/

set_option linter.unusedSectionVars false

namespace ExternalDepositEvent

/-- the event as it was when first seen: without its progress -/
def asDiscovered (e : ExternalDepositEvent) : ExternalDepositEvent :=
  { e with status := .discovered, foxyaRegisteredAt := none, foxyaCompletedAt := none }

variable {e e' : ExternalDepositEvent}

theorem eventKey_eq (h : e.asDiscovered = e'.asDiscovered) : e.eventKey = e'.eventKey :=
  (congrArg eventKey h : e.asDiscovered.eventKey = _)

theorem userId_eq (h : e.asDiscovered = e'.asDiscovered) : e.userId = e'.userId :=
  (congrArg userId h : e.asDiscovered.userId = _)

theorem toAddress_eq (h : e.asDiscovered = e'.asDiscovered) : e.toAddress = e'.toAddress :=
  (congrArg toAddress h : e.asDiscovered.toAddress = _)

theorem txHash_eq (h : e.asDiscovered = e'.asDiscovered) : e.txHash = e'.txHash :=
  (congrArg txHash h : e.asDiscovered.txHash = _)

theorem blockNumber_eq (h : e.asDiscovered = e'.asDiscovered) : e.blockNumber = e'.blockNumber :=
  (congrArg blockNumber h : e.asDiscovered.blockNumber = _)

theorem blockTimestampMs_eq (h : e.asDiscovered = e'.asDiscovered) :
    e.blockTimestampMs = e'.blockTimestampMs :=
  (congrArg blockTimestampMs h : e.asDiscovered.blockTimestampMs = _)

theorem amountRaw_eq (h : e.asDiscovered = e'.asDiscovered) : e.amountRaw = e'.amountRaw :=
  (congrArg amountRaw h : e.asDiscovered.amountRaw = _)

theorem amountDecimal_eq (h : e.asDiscovered = e'.asDiscovered) :
    e.amountDecimal = e'.amountDecimal :=
  (congrArg amountDecimal h : e.asDiscovered.amountDecimal = _)

end ExternalDepositEvent

namespace DepositMonitorService

/-! ## keys -/

theorem toList_toString (n : Nat) : (toString n).toList = Nat.toDigits 10 n := by
  simp [toString, Nat.repr]

theorem toDigits_injective {a b : Nat} (h : Nat.toDigits 10 a = Nat.toDigits 10 b) : a = b := by
  rw [← @Nat.ofDigitChars_ten_toDigits a, h, Nat.ofDigitChars_ten_toDigits]

/-- digits up to a colon are read back -/
theorem digits_colon {a b : Nat} {l r : List Char}
    (h : Nat.toDigits 10 a ++ ':' :: l = Nat.toDigits 10 b ++ ':' :: r) : a = b ∧ l = r := by
  have hcolon : Char.isDigit ':' = false := by decide
  obtain ⟨ha, hl⟩ := takeWhile_append_of_all (fun c hc => isDigit_toDigits (n := a) hc) hcolon (r := l)
  obtain ⟨hb, hr⟩ := takeWhile_append_of_all (fun c hc => isDigit_toDigits (n := b) hc) hcolon (r := r)
  rw [h] at ha hl
  rw [ha] at hb
  rw [hl] at hr
  exact ⟨toDigits_injective hb, (List.cons.inj hr).2⟩

/-- and from the other end -/
theorem colon_digits {a b : Nat} {l r : List Char}
    (h : l ++ ':' :: Nat.toDigits 10 a = r ++ ':' :: Nat.toDigits 10 b) : l = r ∧ a = b := by
  have hcolon : Char.isDigit ':' = false := by decide
  have hrev := congrArg List.reverse h
  simp only [List.reverse_append, List.reverse_cons, List.append_assoc, List.cons_append,
    List.nil_append] at hrev
  obtain ⟨ha, hl⟩ := takeWhile_append_of_all
    (fun c hc => isDigit_toDigits (n := a) (List.mem_reverse.mp hc)) hcolon (r := l.reverse)
  obtain ⟨hb, hr⟩ := takeWhile_append_of_all
    (fun c hc => isDigit_toDigits (n := b) (List.mem_reverse.mp hc)) hcolon (r := r.reverse)
  rw [hrev] at ha hl
  rw [ha] at hb
  rw [hl] at hr
  exact ⟨List.reverse_injective (List.cons.inj hr).2, toDigits_injective (List.reverse_injective hb)⟩

/-- a key says which currency, transaction and event it is about -/
theorem eventKeyOf_injective {env : DepositMonitorEnv} {e e' : Trc20TransferEvent}
    {t t' : DepositWatchAddress}
    (h : eventKeyOf env e t = eventKeyOf env e' t') :
    t.currencyId = t'.currencyId ∧ e.txHash = e'.txHash ∧ e.eventIndex = e'.eventIndex := by
  have hlist := congrArg String.toList h
  simp only [eventKeyOf, String.toList_append, toList_toString, List.append_assoc] at hlist
  have hcid := digits_colon (List.append_cancel_left (List.append_cancel_left hlist))
  obtain ⟨htx, hidx⟩ := colon_digits hcid.2
  exact ⟨hcid.1, String.toList_injective htx, hidx⟩

/-- the cycle's block height confirms the event and the gate lets it pass -/
def Lets (env : DepositMonitorEnv) (c : MonitorCycle) (event : ExternalDepositEvent) : Prop :=
  (env.depositMonitorConfirmations : ℤ) ≤ c.currentBlockNumber - event.blockNumber + 1 ∧
    c.depositAllowed event.userId event.toAddress = true

theorem Lets.same {env : DepositMonitorEnv} {c : MonitorCycle} {e e' : ExternalDepositEvent}
    (h : e.asDiscovered = e'.asDiscovered) (hl : Lets env c e) : Lets env c e' := by
  rw [Lets, ← ExternalDepositEvent.blockNumber_eq h, ← ExternalDepositEvent.userId_eq h,
    ← ExternalDepositEvent.toAddress_eq h]
  exact hl

end DepositMonitorService

namespace DepositMonitor

/-! ## moves -/

def withEvent (m : DepositMonitor) (key : String) (e : ExternalDepositEvent) : DepositMonitor :=
  { m with repository := { m.repository with events := m.repository.events.set key e } }

def withLedger (m : DepositMonitor) (ledger : InMemoryLedger) : DepositMonitor :=
  { m with ledger := ledger }

/-- the persisted cursor -/
def cursor? (m : DepositMonitor) : Option DepositMonitorCursor := m.repository.cursors.get? SCANNER_KEY

/-- the record under a key -/
def event? (m : DepositMonitor) (key : String) : Option ExternalDepositEvent :=
  m.repository.events.get? key

@[simp] theorem event?_withEvent_self (m : DepositMonitor) (key : String) (e : ExternalDepositEvent) :
    (m.withEvent key e).event? key = some e := OrderedMap.get?_set_self _ _ _

theorem event?_withEvent_of_ne {m : DepositMonitor} {key k : String} (h : key ≠ k)
    (e : ExternalDepositEvent) : (m.withEvent key e).event? k = m.event? k :=
  OrderedMap.get?_set_of_ne _ h _

@[simp] theorem event?_withLedger (m : DepositMonitor) (l : InMemoryLedger) (key : String) :
    (m.withLedger l).event? key = m.event? key := rfl

section
variable (rt : Runtime) (env : DepositMonitorEnv) (c : MonitorCycle) (D : ExternalDepositEvent → Prop)

/-- one write of the cycle `c`, which may discover the events of `D` -/
inductive Move : DepositMonitor → DepositMonitor → Prop
  | drawn (m) : Move m (m.withLedger { m.ledger with uuidsDrawn := m.ledger.uuidsDrawn + 1 })
  | discovered {m} {e : ExternalDepositEvent} (new : m.event? e.eventKey = none)
      (first : e.asDiscovered = e) (admitted : D e) :
      Move m (m.withEvent e.eventKey e)
  | registered {m} {key : String} {e : ExternalDepositEvent} (found : m.event? key = some e)
      (first : e.foxyaRegisteredAt = none) (admitted : ∃ d, D d ∧ d.eventKey = key) (at_ : ℤ) :
      Move m (m.withEvent key { e with status := .registered, foxyaRegisteredAt := some at_ })
  | applied {m} {r e : ExternalDepositEvent} (found : m.event? e.eventKey = some r)
      (same : r.asDiscovered = e.asDiscovered) (due : r.foxyaCompletedAt = none)
      (admitted : ∃ d, D d ∧ d.eventKey = e.eventKey) (lets : DepositMonitorService.Lets env c e)
      {amount : ℤ}
      (parsed : parseKoriAmount (toNumber e.amountDecimal) = .ok amount) {input : DepositInput}
      (user : input.userId = e.userId) (hash : input.txHash = e.txHash)
      (units : input.amount = amount) :
      Move m { m with
        applications := m.applications ++ [e]
        ledger := (InMemoryLedger.applyDeposit rt input m.ledger).2 }
  | settled {m} (depositId : String) :
      Move m (m.withLedger (InMemoryLedger.completeDeposit depositId m.ledger).2)
  | completed {m} {r e : ExternalDepositEvent} (found : m.event? e.eventKey = some r)
      (same : r.asDiscovered = e.asDiscovered) (registered : r.foxyaRegisteredAt.isSome)
      (applied : e ∈ m.applications) (at_ : ℤ) :
      Move m (m.withEvent e.eventKey { r with status := .completed, foxyaCompletedAt := some at_ })

def Moves : DepositMonitor → DepositMonitor → Prop := Relation.ReflTransGen (Move rt env c D)

variable {rt env c D} {m m' : DepositMonitor}

theorem Moves.refl (m : DepositMonitor) : Moves rt env c D m m := Relation.ReflTransGen.refl

theorem Moves.trans {m₁ m₂ m₃ : DepositMonitor} (h : Moves rt env c D m₁ m₂)
    (h' : Moves rt env c D m₂ m₃) : Moves rt env c D m₁ m₃ := Relation.ReflTransGen.trans h h'

theorem Moves.move {m₁ m₂ m₃ : DepositMonitor} (h : Moves rt env c D m₁ m₂)
    (h' : Move rt env c D m₂ m₃) : Moves rt env c D m₁ m₃ := Relation.ReflTransGen.tail h h'

theorem Move.moves (h : Move rt env c D m m') : Moves rt env c D m m' := Relation.ReflTransGen.single h

/-- what every move keeps, moves keep -/
theorem Moves.invariant {I : DepositMonitor → Prop} (hstep : ∀ {m m'}, Move rt env c D m m' → I m → I m')
    (h : Moves rt env c D m m') (hm : I m) : I m' := by
  induction h with
  | refl => exact hm
  | tail _ hmove ih => exact hstep hmove ih

/-! ## progress of an event -/

def Registered (m : DepositMonitor) (key : String) : Prop :=
  ∃ e, m.event? key = some e ∧ e.foxyaRegisteredAt.isSome

def Completed (m : DepositMonitor) (key : String) : Prop :=
  ∃ e, m.event? key = some e ∧ e.foxyaCompletedAt.isSome

/-- a move leaves every record with what it was first seen with, and with its progress -/
theorem Move.event (h : Move rt env c D m m') {key : String} {e : ExternalDepositEvent}
    (he : m.event? key = some e) :
    ∃ e', m'.event? key = some e' ∧ e'.asDiscovered = e.asDiscovered ∧
      (e.foxyaRegisteredAt.isSome → e'.foxyaRegisteredAt.isSome) ∧
      (e.foxyaCompletedAt.isSome → e'.foxyaCompletedAt.isSome) := by
  -- a write under a key replaces the record it found there
  have hwrite : ∀ {k : String} {r r' : ExternalDepositEvent}, m.event? k = some r →
      r'.asDiscovered = r.asDiscovered →
      (r.foxyaRegisteredAt.isSome → r'.foxyaRegisteredAt.isSome) →
      (r.foxyaCompletedAt.isSome → r'.foxyaCompletedAt.isSome) →
      ∃ e', (m.withEvent k r').event? key = some e' ∧ e'.asDiscovered = e.asDiscovered ∧
        (e.foxyaRegisteredAt.isSome → e'.foxyaRegisteredAt.isSome) ∧
        (e.foxyaCompletedAt.isSome → e'.foxyaCompletedAt.isSome) := by
    intro k r r' hr hsame hreg hcomp
    by_cases hk : k = key
    · subst hk
      rw [he] at hr
      cases hr
      exact ⟨r', event?_withEvent_self _ _ _, hsame, hreg, hcomp⟩
    · exact ⟨e, by rw [event?_withEvent_of_ne hk, he], rfl, id, id⟩
  cases h with
  | drawn => exact ⟨e, he, rfl, id, id⟩
  | @discovered d new first admitted =>
    have hk : d.eventKey ≠ key := fun hk => by rw [hk, he] at new; cases new
    exact ⟨e, by rw [event?_withEvent_of_ne hk, he], rfl, id, id⟩
  | registered found first admitted at_ => exact hwrite found rfl (fun _ => rfl) id
  | applied found same due admitted lets parsed user hash units => exact ⟨e, he, rfl, id, id⟩
  | settled depositId => exact ⟨e, he, rfl, id, id⟩
  | completed found same registered applied at_ => exact hwrite found rfl id fun _ => rfl

theorem Moves.event (h : Moves rt env c D m m') {key : String} {e : ExternalDepositEvent}
    (he : m.event? key = some e) :
    ∃ e', m'.event? key = some e' ∧ e'.asDiscovered = e.asDiscovered ∧
      (e.foxyaRegisteredAt.isSome → e'.foxyaRegisteredAt.isSome) ∧
      (e.foxyaCompletedAt.isSome → e'.foxyaCompletedAt.isSome) := by
  induction h with
  | refl => exact ⟨e, he, rfl, id, id⟩
  | tail _ hmove ih =>
    obtain ⟨e₁, h₁, hsame, hreg, hcomp⟩ := ih
    obtain ⟨e₂, h₂, hsame', hreg', hcomp'⟩ := hmove.event h₁
    exact ⟨e₂, h₂, hsame'.trans hsame, hreg' ∘ hreg, hcomp' ∘ hcomp⟩

theorem Moves.registered (h : Moves rt env c D m m') {key : String} (hk : m.Registered key) :
    m'.Registered key := by
  obtain ⟨e, he, hreg⟩ := hk
  obtain ⟨e', he', -, hreg', -⟩ := h.event he
  exact ⟨e', he', hreg' hreg⟩

theorem Moves.completed (h : Moves rt env c D m m') {key : String} (hk : m.Completed key) :
    m'.Completed key := by
  obtain ⟨e, he, hcomp⟩ := hk
  obtain ⟨e', he', -, -, hcomp'⟩ := h.event he
  exact ⟨e', he', hcomp' hcomp⟩

/-- a record was there before, or is one of the events discovered -/
theorem Move.from (h : Move rt env c D m m') {key : String} {e' : ExternalDepositEvent}
    (he : m'.event? key = some e') :
    (∃ e, m.event? key = some e ∧ e'.asDiscovered = e.asDiscovered) ∨
      (m.event? key = none ∧ ∃ d, D d ∧ d.eventKey = key ∧ e'.asDiscovered = d) := by
  have hwrite : ∀ {k : String} {r r' : ExternalDepositEvent}, m.event? k = some r →
      r'.asDiscovered = r.asDiscovered → (m.withEvent k r').event? key = some e' →
      ∃ e, m.event? key = some e ∧ e'.asDiscovered = e.asDiscovered := by
    intro k r r' hr hsame he'
    by_cases hk : k = key
    · subst hk
      rw [event?_withEvent_self] at he'
      cases he'
      exact ⟨r, hr, hsame⟩
    · rw [event?_withEvent_of_ne hk] at he'
      exact ⟨e', he', rfl⟩
  cases h with
  | drawn => exact Or.inl ⟨e', he, rfl⟩
  | @discovered d new first admitted =>
    by_cases hk : d.eventKey = key
    · subst hk
      rw [event?_withEvent_self] at he
      cases he
      exact Or.inr ⟨new, e', admitted, rfl, first⟩
    · rw [event?_withEvent_of_ne hk] at he
      exact Or.inl ⟨e', he, rfl⟩
  | registered found first admitted at_ => exact Or.inl (hwrite found (by rfl) he)
  | applied found same due admitted lets parsed user hash units => exact Or.inl ⟨e', he, rfl⟩
  | settled depositId => exact Or.inl ⟨e', he, rfl⟩
  | completed found same registered applied at_ => exact Or.inl (hwrite found (by rfl) he)

theorem Moves.from (h : Moves rt env c D m m') {key : String} {e' : ExternalDepositEvent}
    (he : m'.event? key = some e') :
    (∃ e, m.event? key = some e ∧ e'.asDiscovered = e.asDiscovered) ∨
      (m.event? key = none ∧ ∃ d, D d ∧ d.eventKey = key ∧ e'.asDiscovered = d) := by
  induction h generalizing e' with
  | refl => exact Or.inl ⟨e', he, rfl⟩
  | @tail m₁ m₂ hmoves hmove ih =>
    rcases hmove.from he with ⟨e₁, h₁, hsame⟩ | ⟨hnone, d, hd, hkey, hsame⟩
    · rcases ih h₁ with ⟨e, he, hsame'⟩ | ⟨hnone, d, hd, hkey, hsame'⟩
      · exact Or.inl ⟨e, he, hsame.trans hsame'⟩
      · exact Or.inr ⟨hnone, d, hd, hkey, hsame.trans hsame'⟩
    · cases hm : m.event? key with
      | none => exact Or.inr ⟨rfl, d, hd, hkey, hsame⟩
      | some e =>
        obtain ⟨e₁, h₁, -⟩ := Moves.event hmoves hm
        rw [hnone] at h₁
        cases h₁

/-- an event that becomes registered is one of those that may be discovered -/
theorem Moves.newly_registered (h : Moves rt env c D m m') {key : String} (hold : ¬ m.Registered key)
    (hnew : m'.Registered key) : ∃ d, D d ∧ d.eventKey = key := by
  induction h with
  | refl => exact absurd hnew hold
  | @tail m₁ m₂ hmoves hmove ih =>
    by_cases hmid : m₁.Registered key
    · exact ih hmid
    obtain ⟨e', he', hreg'⟩ := hnew
    have hwrite : ∀ {k : String} {r r' : ExternalDepositEvent}, m₁.event? k = some r →
        (r'.foxyaRegisteredAt.isSome → r.foxyaRegisteredAt.isSome) →
        (m₁.withEvent k r').event? key = some e' → m₁.Registered key := by
      intro k r r' hr hreg he'
      by_cases hk : k = key
      · subst hk
        rw [event?_withEvent_self] at he'
        cases he'
        exact ⟨r, hr, hreg hreg'⟩
      · rw [event?_withEvent_of_ne hk] at he'
        exact ⟨e', he', hreg'⟩
    cases hmove with
    | drawn => exact absurd ⟨e', he', hreg'⟩ hmid
    | @discovered d new first admitted =>
      by_cases hk : d.eventKey = key
      · exact ⟨d, admitted, hk⟩
      · rw [event?_withEvent_of_ne hk] at he'
        exact absurd ⟨e', he', hreg'⟩ hmid
    | @registered k e found first admitted at_ =>
      by_cases hk : k = key
      · exact hk ▸ admitted
      · rw [event?_withEvent_of_ne hk] at he'
        exact absurd ⟨e', he', hreg'⟩ hmid
    | applied found same due admitted lets parsed user hash units => exact absurd ⟨e', he', hreg'⟩ hmid
    | settled depositId => exact absurd ⟨e', he', hreg'⟩ hmid
    | completed found same registered applied at_ =>
      exact absurd (hwrite found (by exact fun _ => registered) he') hmid

/-- every record stands under its own key, and only a registered event is completed -/
structure Sound (m : DepositMonitor) : Prop where
  keyed : ∀ {key e}, m.event? key = some e → e.eventKey = key
  completed : ∀ {key e}, m.event? key = some e → e.foxyaCompletedAt.isSome → e.foxyaRegisteredAt.isSome

theorem Sound.withEvent (hs : m.Sound) {key : String} {e : ExternalDepositEvent}
    (hkey : e.eventKey = key) (hcomp : e.foxyaCompletedAt.isSome → e.foxyaRegisteredAt.isSome) :
    (m.withEvent key e).Sound := by
  have hcases : ∀ {k r}, (m.withEvent key e).event? k = some r →
      (k = key ∧ r = e) ∨ m.event? k = some r := by
    intro k r hr
    by_cases hk : key = k
    · subst hk
      rw [event?_withEvent_self] at hr
      exact Or.inl ⟨rfl, (Option.some.inj hr).symm⟩
    · rw [event?_withEvent_of_ne hk] at hr
      exact Or.inr hr
  refine ⟨fun hr => ?_, fun hr => ?_⟩
  · rcases hcases hr with ⟨rfl, rfl⟩ | hr
    · exact hkey
    · exact hs.keyed hr
  · rcases hcases hr with ⟨rfl, rfl⟩ | hr
    · exact hcomp
    · exact hs.completed hr

theorem Move.sound (h : Move rt env c D m m') (hs : m.Sound) : m'.Sound := by
  cases h with
  | drawn => exact ⟨fun h => hs.keyed h, fun h => hs.completed h⟩
  | @discovered d new first admitted =>
    refine hs.withEvent rfl fun hc => ?_
    rw [← first] at hc
    cases hc
  | @registered key e found first admitted at_ =>
    have hkey : e.eventKey = key := hs.keyed found
    exact hs.withEvent hkey fun _ => rfl
  | applied found same due admitted lets parsed user hash units => exact ⟨fun h => hs.keyed h, fun h => hs.completed h⟩
  | settled depositId => exact ⟨fun h => hs.keyed h, fun h => hs.completed h⟩
  | @completed r e found same registered applied at_ =>
    have hkey : r.eventKey = e.eventKey := hs.keyed found
    exact hs.withEvent hkey fun _ => registered

theorem Moves.sound (h : Moves rt env c D m m') (hs : m.Sound) : m'.Sound :=
  h.invariant (fun hmove => hmove.sound) hs

theorem Sound.new (ledger : InMemoryLedger) : (DepositMonitor.new ledger).Sound :=
  ⟨fun h => (by cases h), fun h => (by cases h)⟩

theorem Move.cursors (h : Move rt env c D m m') : m'.repository.cursors = m.repository.cursors := by
  cases h <;> rfl

theorem Moves.cursors (h : Moves rt env c D m m') : m'.repository.cursors = m.repository.cursors := by
  induction h with
  | refl => rfl
  | tail _ hmove ih => exact hmove.cursors.trans ih

/-! ## what the ledger is asked for -/

/-- the event as it is recorded, or as it may be discovered -/
def Sees (D : ExternalDepositEvent → Prop) (m : DepositMonitor) (d : ExternalDepositEvent) : Prop :=
  (∃ d', D d' ∧ d'.eventKey = d.eventKey) ∧
    ((∃ r, m.event? d.eventKey = some r ∧ r.asDiscovered = d) ∨ (m.event? d.eventKey = none ∧ D d))

/-- the events whose deposit a cycle may ask the ledger to apply -/
structure MayCredit (env : DepositMonitorEnv) (c : MonitorCycle) (D : ExternalDepositEvent → Prop)
    (m : DepositMonitor) (d : ExternalDepositEvent) : Prop where
  sees : Sees D m d
  lets : DepositMonitorService.Lets env c d
  due : ¬ m.Completed d.eventKey

theorem Move.applications (h : Move rt env c D m m') : m.applications <+: m'.applications := by
  cases h with
  | applied => exact List.prefix_append _ _
  | drawn => exact List.prefix_refl _
  | discovered => exact List.prefix_refl _
  | registered => exact List.prefix_refl _
  | settled => exact List.prefix_refl _
  | completed => exact List.prefix_refl _

theorem Moves.applications (h : Moves rt env c D m m') : m.applications <+: m'.applications := by
  induction h with
  | refl => exact List.prefix_refl _
  | tail _ hmove ih => exact ih.trans hmove.applications

/-- what is asked for was asked before, or is an event the cycle may credit -/
theorem Moves.asked (h : Moves rt env c D m m') {a : ExternalDepositEvent} (ha : a ∈ m'.applications) :
    a ∈ m.applications ∨ MayCredit env c D m a.asDiscovered := by
  induction h with
  | refl => exact Or.inl ha
  | @tail m₁ m₂ hmoves hmove ih =>
    cases hmove with
    | @applied r e found same due admitted lets amount parsed input user hash units =>
      rcases List.mem_append.mp ha with ha | ha
      · exact ih ha
      · rw [List.mem_singleton.mp ha]
        refine Or.inr ⟨⟨admitted, ?_⟩, lets.same rfl, fun hcomp => ?_⟩
        · rcases Moves.from hmoves found with ⟨r₀, hr₀, hsame⟩ | ⟨hnone, d, hd, -, hsame⟩
          · exact Or.inl ⟨r₀, hr₀, hsame.symm.trans same⟩
          · exact Or.inr ⟨hnone, (hsame.symm.trans same) ▸ hd⟩
        · obtain ⟨r₁, hr₁, hcomp₁⟩ := Moves.completed hmoves hcomp
          rw [show e.asDiscovered.eventKey = e.eventKey from rfl, found] at hr₁
          cases hr₁
          rw [due] at hcomp₁
          cases hcomp₁
    | drawn => exact ih ha
    | discovered => exact ih ha
    | registered => exact ih ha
    | settled => exact ih ha
    | completed => exact ih ha

end

end DepositMonitor
