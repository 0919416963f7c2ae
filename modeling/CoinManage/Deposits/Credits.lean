import Mathlib.Algebra.BigOperators.Group.Finset.Basic
import CoinManage.InMemory.Books
import CoinManage.Deposits.Cycles

/-!
# What the deposit monitor credits

The monitor knows an event by network, currency, transaction and index; the ledger knows a deposit
by its transaction.  In every run in which the events the ledger is asked to credit have a
transaction of their own and an amount that is read back exactly, each completed event has its own
deposit, and each user is credited the amounts of the events that were asked for.

* `Move.credited`    one write keeps the books of the monitor;
* `credited_once`    the run;
* `shared_transaction`   two events of one transaction are both completed, and one is credited.
-/

set_option linter.unusedSectionVars false

/-! ## deposits of the ledger -/

namespace InMemoryLedger

/-- who the deposit of a transaction was credited to, and how much -/
def creditOf (l : InMemoryLedger) (hash : String) : Option (String × ℤ) :=
  (l.depositsByTxHash.get? hash).map fun d => (d.userId, d.amount)

variable {rt : Runtime} {l : InMemoryLedger}

theorem creditOf_eq_none {hash : String} : l.creditOf hash = none ↔ l.depositsByTxHash.get? hash = none := by
  rw [creditOf, Option.map_eq_none_iff]

theorem creditOf_completeDeposit (depositId : String) (hash : String) :
    (completeDeposit depositId l).2.creditOf hash = l.creditOf hash := by
  simp only [completeDeposit, Method.get_bind]
  cases hfind : l.depositsByTxHash.entries.find? fun entry => entry.2.depositId = depositId with
  | none => rfl
  | some entry =>
    simp only
    split
    · rfl
    · have hget : l.depositsByTxHash.get? entry.1 = some entry.2 :=
        (OrderedMap.mem_entries_iff _).mp (List.mem_of_find?_eq_some hfind)
      show Option.map _ ((l.depositsByTxHash.set entry.1 _).get? hash) = _
      rw [creditOf, OrderedMap.get?_set]
      split
      · next heq => rw [← heq, hget]; rfl
      · rfl

theorem accounts_completeDeposit (depositId : String) :
    (completeDeposit depositId l).2.accounts = l.accounts := by
  simp only [completeDeposit, Method.get_bind]
  cases l.depositsByTxHash.entries.find? fun entry => entry.2.depositId = depositId with
  | none => rfl
  | some entry =>
    simp only
    split <;> rfl

/-- a transaction that has its deposit is not credited again -/
theorem applyDeposit_known {input : DepositInput} (h : l.creditOf input.txHash ≠ none) :
    (applyDeposit rt input l).2 = l := by
  obtain ⟨d, hd⟩ := Option.ne_none_iff_exists'.mp (fun hnone => h (creditOf_eq_none.mpr hnone))
  rw [applyDeposit_duplicated rt l hd]

/-- what `applyDeposit` leaves of a new transaction, whatever it answers -/
theorem applyDeposit_books {input : DepositInput} (h : l.creditOf input.txHash = none) :
    (applyDeposit rt input l).2.depositsByTxHash = (l.deposited rt input).depositsByTxHash ∧
      (applyDeposit rt input l).2.accounts = (l.deposited rt input).accounts := by
  rw [applyDeposit_new rt l (creditOf_eq_none.mp h)]
  cases buildDepositStateChangedContract rt (l.depositChange rt input) with
  | ok contract => exact ⟨rfl, rfl⟩
  | error e => exact ⟨rfl, rfl⟩

theorem creditOf_applyDeposit {input : DepositInput} (h : l.creditOf input.txHash = none) (hash : String) :
    (applyDeposit rt input l).2.creditOf hash =
      if input.txHash = hash then some (input.userId, input.amount) else l.creditOf hash := by
  rw [creditOf, (applyDeposit_books h).1, deposited, OrderedMap.get?_set]
  split <;> rfl

theorem balanceOf_applyDeposit {input : DepositInput} (h : l.creditOf input.txHash = none) (u : String) :
    (applyDeposit rt input l).2.balanceOf u =
      l.balanceOf u + if input.userId = u then input.amount else 0 := by
  rw [balanceOf, (applyDeposit_books h).2, deposited, balanceIn_set, balanceOf]
  split
  · next hu => rw [accountOf_balance, hu]
  · exact (add_zero _).symm

end InMemoryLedger

/-! ## the books of the monitor -/

namespace DepositMonitor
open DepositMonitorService

/-- the events whose deposit the ledger was asked to apply, by their keys -/
def appliedKeys (m : DepositMonitor) : Finset String := (m.applications.map (·.eventKey)).toFinset

/-- what the event under a key is worth to a user -/
def amountUnder (m : DepositMonitor) (u key : String) : ℤ :=
  (m.event? key).elim 0 fun e => if e.userId = u then (e.amountRaw.units : ℤ) else 0

/-- the amounts of the user's events whose deposit was applied -/
def appliedTo (m : DepositMonitor) (u : String) : ℤ := ∑ key ∈ m.appliedKeys, m.amountUnder u key

/-- The events asked for have a transaction of their own, unknown to the first ledger, and their
amounts are read back exactly. -/
structure Apart (ledger : InMemoryLedger) (m : DepositMonitor) : Prop where
  fresh : ∀ a ∈ m.applications, ledger.creditOf a.txHash = none
  exact : ∀ a ∈ m.applications, ∀ amount,
    parseKoriAmount (toNumber a.amountDecimal) = .ok amount → amount = a.amountRaw.units
  alone : ∀ a ∈ m.applications, ∀ b ∈ m.applications, a.txHash = b.txHash → a.eventKey = b.eventKey

/-- what the records, the history and the ledger say of each other -/
structure Credited (ledger : InMemoryLedger) (m : DepositMonitor) : Prop where
  completed : ∀ key e, m.event? key = some e → e.status = .completed →
    ∃ a ∈ m.applications, a.asDiscovered = e.asDiscovered
  recorded : ∀ a ∈ m.applications, ∃ r, m.event? a.eventKey = some r ∧ r.asDiscovered = a.asDiscovered
  deposit : ∀ a ∈ m.applications, m.ledger.creditOf a.txHash = some (a.userId, (a.amountRaw.units : ℤ))
  asked : ∀ hash, m.ledger.creditOf hash ≠ none → ledger.creditOf hash ≠ none ∨
    ∃ a ∈ m.applications, a.txHash = hash
  total : ∀ u, m.ledger.balanceOf u = ledger.balanceOf u + m.appliedTo u

variable {rt : Runtime} {env : DepositMonitorEnv} {c : MonitorCycle} {D : ExternalDepositEvent → Prop}
  {ledger : InMemoryLedger} {m m' : DepositMonitor}

theorem Credited.new (ledger : InMemoryLedger) : Credited ledger (.new ledger) where
  completed := fun _ _ he => by cases he
  recorded := fun _ ha => by cases ha
  deposit := fun _ ha => by cases ha
  asked := fun _ h => Or.inl h
  total := fun u => (add_zero (ledger.balanceOf u)).symm

theorem Apart.new (ledger : InMemoryLedger) : Apart ledger (.new ledger) :=
  ⟨fun _ ha => (by cases ha), fun _ ha => (by cases ha), fun _ ha => (by cases ha)⟩

theorem Apart.before (h : Apart ledger m') (hm : m.applications <+: m'.applications) : Apart ledger m :=
  ⟨fun a ha => h.fresh a (hm.subset ha), fun a ha => h.exact a (hm.subset ha),
    fun a ha b hb => h.alone a (hm.subset ha) b (hm.subset hb)⟩

theorem mem_appliedKeys {key : String} : key ∈ m.appliedKeys ↔ ∃ a ∈ m.applications, a.eventKey = key := by
  rw [appliedKeys, List.mem_toFinset, List.mem_map]

/-- a record that moves is worth the same -/
theorem Move.amountUnder (h : Move rt env c D m m') {key : String} {e : ExternalDepositEvent}
    (he : m.event? key = some e) (u : String) : m'.amountUnder u key = m.amountUnder u key := by
  obtain ⟨e', he', hsame, -, -⟩ := h.event he
  rw [DepositMonitor.amountUnder, DepositMonitor.amountUnder, he, he', Option.elim_some,
    Option.elim_some, ExternalDepositEvent.userId_eq hsame, ExternalDepositEvent.amountRaw_eq hsame]

/-- a write that asks the ledger for nothing -/
theorem Credited.quiet (h : Credited ledger m) (hm : Move rt env c D m m')
    (happ : m'.applications = m.applications)
    (hcredit : ∀ hash, m'.ledger.creditOf hash = m.ledger.creditOf hash)
    (hbalance : ∀ u, m'.ledger.balanceOf u = m.ledger.balanceOf u)
    (hcompleted : ∀ key e, m'.event? key = some e → e.status = .completed →
      ∃ a ∈ m.applications, a.asDiscovered = e.asDiscovered) : Credited ledger m' where
  completed := by
    rw [happ]
    exact hcompleted
  recorded := by
    rw [happ]
    intro a ha
    obtain ⟨r, hr, hsame⟩ := h.recorded a ha
    obtain ⟨r', hr', hsame', -, -⟩ := hm.event hr
    exact ⟨r', hr', hsame'.trans hsame⟩
  deposit := by
    rw [happ]
    intro a ha
    rw [hcredit]
    exact h.deposit a ha
  asked := by
    rw [happ]
    intro hash
    rw [hcredit]
    exact h.asked hash
  total := by
    intro u
    have hkeys : m'.appliedKeys = m.appliedKeys := by rw [appliedKeys, appliedKeys, happ]
    have hsum : m'.appliedTo u = m.appliedTo u := by
      rw [appliedTo, appliedTo, hkeys]
      apply Finset.sum_congr rfl
      intro key hkey
      obtain ⟨a, ha, rfl⟩ := mem_appliedKeys.mp hkey
      obtain ⟨r, hr, -⟩ := h.recorded a ha
      exact hm.amountUnder hr u
    rw [hbalance, hsum]
    exact h.total u

/-- the records after a write under one key -/
theorem Credited.completed_withEvent (h : Credited ledger m) {key : String} {r : ExternalDepositEvent}
    (hr : r.status = .completed → ∃ a ∈ m.applications, a.asDiscovered = r.asDiscovered) :
    ∀ k e, (m.withEvent key r).event? k = some e → e.status = .completed →
      ∃ a ∈ m.applications, a.asDiscovered = e.asDiscovered := by
  intro k e he hstatus
  by_cases hk : key = k
  · subst hk
    rw [event?_withEvent_self] at he
    cases he
    exact hr hstatus
  · rw [event?_withEvent_of_ne hk] at he
    exact h.completed k e he hstatus

/-- asking the ledger for the deposit of an event -/
theorem Credited.applied (h : Credited ledger m) {e r : ExternalDepositEvent}
    (hfound : m.event? e.eventKey = some r) (hsame : r.asDiscovered = e.asDiscovered)
    {input : DepositInput} (huser : input.userId = e.userId) (hhash : input.txHash = e.txHash)
    (hunits : input.amount = e.amountRaw.units)
    (hapart : Apart ledger
      { m with
        applications := m.applications ++ [e]
        ledger := (InMemoryLedger.applyDeposit rt input m.ledger).2 }) :
    Credited ledger
      { m with
        applications := m.applications ++ [e]
        ledger := (InMemoryLedger.applyDeposit rt input m.ledger).2 } := by
  set m' : DepositMonitor :=
    { m with
      applications := m.applications ++ [e]
      ledger := (InMemoryLedger.applyDeposit rt input m.ledger).2 } with hm'
  have hlast : e ∈ m'.applications := List.mem_append_right _ List.mem_cons_self
  have hold : ∀ a ∈ m.applications, a ∈ m'.applications := fun a ha => List.mem_append_left _ ha
  have hcases : ∀ a ∈ m'.applications, a ∈ m.applications ∨ a = e := fun a ha =>
    (List.mem_append.mp ha).imp id fun h => List.mem_singleton.mp h
  -- an event that was asked for with the same transaction is this event
  have hagain : ∀ a ∈ m.applications, a.txHash = e.txHash → a.asDiscovered = e.asDiscovered := by
    intro a ha htx
    obtain ⟨r', hr', hsame'⟩ := h.recorded a ha
    rw [hapart.alone a (hold a ha) e hlast htx, hfound] at hr'
    cases hr'
    exact hsame'.symm.trans hsame
  have hcompleted : ∀ key r, m'.event? key = some r → r.status = .completed →
      ∃ a ∈ m'.applications, a.asDiscovered = r.asDiscovered := fun key r hr hstatus =>
    (h.completed key r hr hstatus).imp fun a ha => ⟨hold a ha.1, ha.2⟩
  have hrecorded : ∀ a ∈ m'.applications,
      ∃ r, m'.event? a.eventKey = some r ∧ r.asDiscovered = a.asDiscovered := by
    intro a ha
    rcases hcases a ha with ha | rfl
    · exact h.recorded a ha
    · exact ⟨r, hfound, hsame⟩
  have hkeys : m'.appliedKeys = insert e.eventKey m.appliedKeys := by
    ext key
    rw [Finset.mem_insert, mem_appliedKeys, mem_appliedKeys]
    constructor
    · rintro ⟨a, ha, rfl⟩
      exact (hcases a ha).elim (fun ha => Or.inr ⟨a, ha, rfl⟩) fun he => Or.inl (by rw [he])
    · rintro (rfl | ⟨a, ha, rfl⟩)
      · exact ⟨e, hlast, rfl⟩
      · exact ⟨a, hold a ha, rfl⟩
  by_cases hknown : m.ledger.creditOf input.txHash = none
  · -- a transaction the ledger does not know: the event is asked for the first time
    have hnew : ∀ a ∈ m.applications, a.txHash ≠ e.txHash := by
      intro a ha htx
      rw [hhash, ← htx, h.deposit a ha] at hknown
      cases hknown
    have hnotin : e.eventKey ∉ m.appliedKeys := by
      intro hin
      obtain ⟨a, ha, hkey⟩ := mem_appliedKeys.mp hin
      obtain ⟨r', hr', hsame'⟩ := h.recorded a ha
      rw [hkey, hfound] at hr'
      cases hr'
      exact hnew a ha (ExternalDepositEvent.txHash_eq (hsame'.symm.trans hsame))
    refine ⟨hcompleted, hrecorded, fun a ha => ?_, fun hash => ?_, fun u => ?_⟩
    · show (InMemoryLedger.applyDeposit rt input m.ledger).2.creditOf a.txHash = _
      rw [InMemoryLedger.creditOf_applyDeposit hknown]
      rcases hcases a ha with ha | rfl
      · rw [if_neg fun heq => hnew a ha (by rw [← heq, hhash])]
        exact h.deposit a ha
      · rw [if_pos hhash, huser, hunits]
    · show (InMemoryLedger.applyDeposit rt input m.ledger).2.creditOf hash ≠ none → _
      rw [InMemoryLedger.creditOf_applyDeposit hknown]
      intro hcredit
      by_cases heq : input.txHash = hash
      · exact Or.inr ⟨e, hlast, hhash.symm.trans heq⟩
      · rw [if_neg heq] at hcredit
        exact (h.asked hash hcredit).imp id fun ⟨a, ha, htx⟩ => ⟨a, hold a ha, htx⟩
    · have hsum : m'.appliedTo u = m.appliedTo u + if e.userId = u then (e.amountRaw.units : ℤ) else 0 := by
        rw [appliedTo, hkeys, Finset.sum_insert hnotin, add_comm]
        congr 1
        show (m.event? e.eventKey).elim 0 _ = _
        rw [hfound, Option.elim_some, ExternalDepositEvent.userId_eq hsame,
          ExternalDepositEvent.amountRaw_eq hsame]
      rw [hsum, ← add_assoc, ← h.total u, ← huser, ← hunits]
      exact InMemoryLedger.balanceOf_applyDeposit hknown u
  · -- a transaction the ledger knows: the event was asked for before
    have hledger : (InMemoryLedger.applyDeposit rt input m.ledger).2 = m.ledger :=
      InMemoryLedger.applyDeposit_known hknown
    rcases h.asked _ hknown with hfirst | ⟨a, ha, htx⟩
    · rw [hhash] at hfirst
      exact absurd (hapart.fresh e hlast) hfirst
    have hsame₀ : a.asDiscovered = e.asDiscovered := hagain a ha (htx.trans hhash)
    refine ⟨hcompleted, hrecorded, fun b hb => ?_, fun hash => ?_, fun u => ?_⟩
    · show (InMemoryLedger.applyDeposit rt input m.ledger).2.creditOf b.txHash = _
      rw [hledger]
      rcases hcases b hb with hb | rfl
      · exact h.deposit b hb
      · rw [← ExternalDepositEvent.txHash_eq hsame₀, ← ExternalDepositEvent.userId_eq hsame₀,
          ← ExternalDepositEvent.amountRaw_eq hsame₀]
        exact h.deposit a ha
    · show (InMemoryLedger.applyDeposit rt input m.ledger).2.creditOf hash ≠ none → _
      rw [hledger]
      exact fun hcredit => (h.asked hash hcredit).imp id fun ⟨a, ha, htx⟩ => ⟨a, hold a ha, htx⟩
    · have hin : e.eventKey ∈ m.appliedKeys :=
        mem_appliedKeys.mpr ⟨a, ha, ExternalDepositEvent.eventKey_eq hsame₀⟩
      have hsum : m'.appliedTo u = m.appliedTo u := by
        rw [appliedTo, hkeys, Finset.insert_eq_of_mem hin]
        rfl
      show (InMemoryLedger.applyDeposit rt input m.ledger).2.balanceOf u = _
      rw [hledger, hsum]
      exact h.total u

/-- one write keeps the books, as long as what is asked for stays apart -/
theorem Move.credited (h : Move rt env c D m m') (hapart : Apart ledger m') (hc : Credited ledger m) :
    Credited ledger m' := by
  have hmove := h
  cases h with
  | drawn => exact hc.quiet hmove rfl (fun _ => rfl) (fun _ => rfl) hc.completed
  | @discovered e new first admitted =>
    refine hc.quiet hmove rfl (fun _ => rfl) (fun _ => rfl) (hc.completed_withEvent fun hstatus => ?_)
    rw [← first] at hstatus
    cases hstatus
  | registered found first admitted at_ =>
    refine hc.quiet hmove rfl (fun _ => rfl) (fun _ => rfl) (hc.completed_withEvent fun hstatus => ?_)
    cases hstatus
  | @applied r e found same due admitted lets amount parsed input user hash units =>
    have hexact : input.amount = e.amountRaw.units := by
      rw [units]
      exact hapart.exact e (List.mem_append_right _ List.mem_cons_self) amount parsed
    exact hc.applied found same user hash hexact hapart
  | settled depositId =>
    refine hc.quiet hmove rfl (InMemoryLedger.creditOf_completeDeposit depositId) (fun u => ?_) hc.completed
    exact congrArg (InMemoryLedger.balanceIn · u) (InMemoryLedger.accounts_completeDeposit depositId)
  | @completed r e found same registered applied at_ =>
    refine hc.quiet hmove rfl (fun _ => rfl) (fun _ => rfl) (hc.completed_withEvent fun _ => ?_)
    exact ⟨e, applied, same.symm⟩

theorem Moves.credited (h : Moves rt env c D m m') (hapart : Apart ledger m') (hc : Credited ledger m) :
    Credited ledger m' := by
  induction h with
  | refl => exact hc
  | tail _ hmove ih => exact hmove.credited hapart (ih (hapart.before hmove.applications))

end DepositMonitor

/-! ## runs -/

namespace DepositMonitorService
open Method DepositMonitor

variable {rt : Runtime} {env : DepositMonitorEnv} {c : MonitorCycle} {ledger : InMemoryLedger}
  {m : DepositMonitor}

/-- The events the cycle may credit have a transaction of their own, which the first ledger does
not know, and amounts that are read back exactly. -/
structure CreditSafe (rt : Runtime) (env : DepositMonitorEnv) (ledger : InMemoryLedger)
    (c : MonitorCycle) (m : DepositMonitor) : Prop where
  fresh : ∀ d, MayCredit env c (Discovers rt env c m) m d → ledger.creditOf d.txHash = none
  exact : ∀ d, MayCredit env c (Discovers rt env c m) m d → ∀ amount,
    parseKoriAmount (toNumber d.amountDecimal) = .ok amount → amount = d.amountRaw.units
  before : ∀ d, MayCredit env c (Discovers rt env c m) m d →
    ∀ a ∈ m.applications, a.txHash = d.txHash → a.eventKey = d.eventKey
  together : ∀ d, MayCredit env c (Discovers rt env c m) m d →
    ∀ d', MayCredit env c (Discovers rt env c m) m d' → d.txHash = d'.txHash → d.eventKey = d'.eventKey

/-- every completed event has a deposit of its own, and each user got the amounts of the events
that were asked for -/
structure CreditedOnce (ledger : InMemoryLedger) (m : DepositMonitor) : Prop where
  deposit : ∀ key e, m.event? key = some e → e.status = .completed →
    m.ledger.creditOf e.txHash = some (e.userId, (e.amountRaw.units : ℤ))
  own : ∀ key key' e e', m.event? key = some e → m.event? key' = some e' → e.status = .completed →
    e'.status = .completed → e.txHash = e'.txHash → key = key'
  total : ∀ u, m.ledger.balanceOf u = ledger.balanceOf u + m.appliedTo u

theorem credited_saved {t : ℤ} {m m' : DepositMonitor} (hat : SavedAt t m m') (h : Credited ledger m) :
    Credited ledger m' where
  completed := fun key e he hstatus => by
    rw [hat.applications]
    exact h.completed key e (by rw [← hat.event?, he]) hstatus
  recorded := fun a ha => by
    rw [hat.applications] at ha
    rw [hat.event?]
    exact h.recorded a ha
  deposit := fun a ha => by
    rw [hat.applications] at ha
    rw [hat.ledger]
    exact h.deposit a ha
  asked := fun hash => by
    rw [hat.applications, hat.ledger]
    exact h.asked hash
  total := fun u => by
    have hsum : m'.appliedTo u = m.appliedTo u := by
      rw [appliedTo, appliedTo, appliedKeys, appliedKeys, hat.applications]
      apply Finset.sum_congr rfl
      intro key _
      rw [amountUnder, amountUnder, hat.event?]
    rw [hat.ledger, hsum]
    exact h.total u

/-- what is asked for stays apart in a cycle that is safe -/
theorem cycle_apart (hs : m.Sound) (hsafe : CreditSafe rt env ledger c m) (h : Apart ledger m) :
    Apart ledger (cycle rt env c m) := by
  obtain ⟨m₁, t, hm, hat⟩ := @cycle_moves rt env c m hs
  have hasked : ∀ a ∈ (cycle rt env c m).applications,
      a ∈ m.applications ∨ MayCredit env c (Discovers rt env c m) m a.asDiscovered := by
    intro a ha
    rw [hat.applications] at ha
    exact hm.asked ha
  refine ⟨fun a ha => ?_, fun a ha => ?_, fun a ha b hb htx => ?_⟩
  · exact (hasked a ha).elim (h.fresh a) (hsafe.fresh _)
  · exact (hasked a ha).elim (h.exact a) (hsafe.exact _)
  · rcases hasked a ha with ha | ha
    · rcases hasked b hb with hb | hb
      · exact h.alone a ha b hb htx
      · exact hsafe.before _ hb a ha htx
    · rcases hasked b hb with hb | hb
      · exact (hsafe.before _ ha b hb htx.symm).symm
      · exact hsafe.together a.asDiscovered ha b.asDiscovered hb htx

theorem cycle_credited (hs : m.Sound) (hsafe : CreditSafe rt env ledger c m) (h : Apart ledger m)
    (hc : Credited ledger m) : Credited ledger (cycle rt env c m) := by
  obtain ⟨m₁, t, hm, hat⟩ := @cycle_moves rt env c m hs
  have hprefix : m₁.applications <+: (cycle rt env c m).applications := by rw [hat.applications]
  exact credited_saved hat (hm.credited ((cycle_apart hs hsafe h).before hprefix) hc)

theorem creditedOnce (hs : m.Sound) (h : Apart ledger m) (hc : Credited ledger m) :
    CreditedOnce ledger m where
  deposit := fun key e he hstatus => by
    obtain ⟨a, ha, hsame⟩ := hc.completed key e he hstatus
    rw [← ExternalDepositEvent.txHash_eq hsame, ← ExternalDepositEvent.userId_eq hsame,
      ← ExternalDepositEvent.amountRaw_eq hsame]
    exact hc.deposit a ha
  own := fun key key' e e' he he' hstatus hstatus' htx => by
    obtain ⟨a, ha, hsame⟩ := hc.completed key e he hstatus
    obtain ⟨b, hb, hsame'⟩ := hc.completed key' e' he' hstatus'
    have hkeys : a.eventKey = b.eventKey := by
      apply h.alone a ha b hb
      rw [ExternalDepositEvent.txHash_eq hsame, ExternalDepositEvent.txHash_eq hsame', htx]
    rw [← hs.keyed he, ← hs.keyed he', ← ExternalDepositEvent.eventKey_eq hsame,
      ← ExternalDepositEvent.eventKey_eq hsame', hkeys]
  total := hc.total

/-- **Every deposit is credited once.**  In a run whose cycles are safe, over any first ledger, each
completed event has a deposit of its own for its user and amount, and each user is credited the sum
of the amounts of his events whose deposit was applied. -/
theorem credited_once (ledger : InMemoryLedger) (cycles : List MonitorCycle)
    (hsafe : Along (cycle rt env) (CreditSafe rt env ledger) cycles (.new ledger)) :
    CreditedOnce ledger (run rt env cycles (.new ledger)) := by
  have hrun : (run rt env cycles (.new ledger)).Sound ∧ Apart ledger (run rt env cycles (.new ledger)) ∧
      Credited ledger (run rt env cycles (.new ledger)) :=
    run_invariant_along (I := fun m => m.Sound ∧ Apart ledger m ∧ Credited ledger m)
      (fun c m hc h => ⟨cycle_sound h.1, cycle_apart h.1 hc h.2.1, cycle_credited h.1 hc h.2.1 h.2.2⟩)
      hsafe ⟨Sound.new ledger, Apart.new ledger, Credited.new ledger⟩
  exact creditedOnce hrun.1 hrun.2.1 hrun.2.2

/-- below 2^33 units an amount is read back exactly, or refused -/
theorem exact_of_lt {raw : RawAmount} (hlt : raw.units < 2 ^ 33) {amount : ℤ}
    (h : parseKoriAmount (toNumber (formatRawAmount raw)) = .ok amount) : amount = raw.units := by
  by_cases hzero : raw.units = 0
  · rw [parseKoriAmount_raw_zero hzero] at h
    cases h
  · rw [parseKoriAmount_raw (Nat.pos_of_ne_zero hzero) hlt] at h
    exact (Except.ok.inj h).symm

/-- two transfers of one transaction -/
def sharedTransaction : List Trc20TransferEvent :=
  [exampleTransfer "0xsharedtransaction" 0 1000000 1500000,
    exampleTransfer "0xsharedtransaction" 1 1000000 2500000]

/-- what the examples' cycle can credit on a fresh store -/
theorem mayCredit_example {chain : List Trc20TransferEvent} {now : ℤ} {ledger : InMemoryLedger}
    {d : ExternalDepositEvent}
    (h : MayCredit exampleEnv (exampleCycle chain now)
      (Discovers .numbered exampleEnv (exampleCycle chain now) (.new ledger)) (.new ledger) d) :
    ∃ e ∈ chain, ∃ id a, d = discovered exampleEnv id a e exampleWatch := by
  obtain ⟨⟨-, ⟨r, hr, -⟩ | ⟨-, e, he, a, target, id, hmatch, rfl⟩⟩, -, -⟩ := h
  · cases hr
  · have hread : windowEvents exampleEnv (exampleCycle chain now) (.new ledger) = chain.filter fun e =>
        decide (minBlockTimestamp exampleEnv (windowStart exampleEnv (exampleCycle chain now)
          (.new ledger)) ≤ e.blockTimestampMs) := readEvents_page _
    rw [hread] at he
    have htarget : target ∈ watched .numbered exampleEnv (exampleCycle chain now) :=
      (List.mem_filter.mp hmatch.target).1
    have hwatched : watched .numbered exampleEnv (exampleCycle chain now) = [exampleWatch] := by
      have : watched .numbered exampleEnv (exampleCycle [] 0) = [exampleWatch] := by decide +kernel
      exact this
    rw [hwatched, List.mem_singleton] at htarget
    exact ⟨e, (List.mem_filter.mp he).1, id, a, by rw [htarget]⟩

theorem credited_once_example : CreditedOnce (.new ⟨10000000, 10000000⟩)
    (run .numbered exampleEnv [exampleCycle [exampleTransfer "0xfirstdeposit" 0 1000000 5000000,
      exampleTransfer "0xseconddeposit" 0 1100000 7000000] 1200000] (.new (.new ⟨10000000, 10000000⟩))) := by
  refine credited_once (.new ⟨10000000, 10000000⟩) _ ⟨⟨?_, ?_, ?_, ?_⟩, trivial⟩
  · intro d hd
    rfl
  · intro d hd amount hamount
    obtain ⟨e, he, id, a, rfl⟩ := mayCredit_example hd
    refine exact_of_lt ?_ hamount
    rcases List.mem_pair.mp he with rfl | rfl
    · show (RawAmount.ofNat 5000000).units < 2 ^ 33
      rw [RawAmount.units_ofNat]
      omega
    · show (RawAmount.ofNat 7000000).units < 2 ^ 33
      rw [RawAmount.units_ofNat]
      omega
  · intro d _ a ha
    cases ha
  · intro d hd d' hd' htx
    obtain ⟨e, he, id, a, rfl⟩ := mayCredit_example hd
    obtain ⟨e', he', id', a', rfl⟩ := mayCredit_example hd'
    rcases List.mem_pair.mp he with rfl | rfl <;> rcases List.mem_pair.mp he' with rfl | rfl
    · rfl
    · exact absurd htx (by show "0xfirstdeposit" ≠ "0xseconddeposit"; decide)
    · exact absurd htx (by show "0xseconddeposit" ≠ "0xfirstdeposit"; decide)
    · rfl

/-- Two transfers of one transaction: both events are completed, the ledger has one deposit, and
the second amount is not credited. -/
theorem shared_transaction :
    let m := run .numbered exampleEnv [exampleCycle sharedTransaction 1200000]
      (.new (.new ⟨10000000, 10000000⟩))
    (m.event? "mainnet:3:0xsharedtransaction:0").map (fun e => (e.status, e.userId, e.amountRaw.units)) =
        some (.completed, "alice", 1500000) ∧
      (m.event? "mainnet:3:0xsharedtransaction:1").map (fun e => (e.status, e.userId, e.amountRaw.units)) =
        some (.completed, "alice", 2500000) ∧
      m.ledger.creditOf "0xsharedtransaction" = some ("alice", 1500000) ∧
      m.ledger.balanceOf "alice" = 1500000 ∧ m.appliedTo "alice" = 4000000 ∧
      ¬ CreditedOnce (.new ⟨10000000, 10000000⟩) m := by
  intro m
  have hbalance : m.ledger.balanceOf "alice" = 1500000 := by decide +kernel
  have happlied : m.appliedTo "alice" = 4000000 := by decide +kernel
  refine ⟨by decide +kernel, by decide +kernel, by decide +kernel, hbalance, happlied, fun h => ?_⟩
  have htotal := h.total "alice"
  have hfirst : (InMemoryLedger.new ⟨10000000, 10000000⟩).balanceOf "alice" = 0 := rfl
  rw [hbalance, happlied, hfirst] at htotal
  omega

end DepositMonitorService
