import CoinManage.InMemory.StateMachine
import CoinManage.Withdraw.Payouts

/-!
# One transfer, one withdrawal

The hash of a withdrawal comes from the gateway that sent its transfer or from the operator who did,
is stored by the ledger, and completes the withdrawal once the chain confirms it.  The gateway
answers a hash nobody has seen before; nothing looks at the operator's.

* `HashChecked`      a hash the gateway has not issued for the withdrawal was issued for no other,
                     and no sent withdrawal carries it;
* `one_payment`      if every hash recorded is so, no two sent withdrawals carry the same one;
* `shared_payment`   an operator submits one hash for two withdrawals, and both are sent with it.
-/

namespace WithdrawService

open Program Interleaving

/-- the world, and the hashes the gateway has answered with the withdrawal each was sent for -/
structure Chain where
  world : World
  issued : List (String × String)

/-- the hash a call got from the gateway -/
def issuedBy {β : Type} : Effect β → Except LedgerError β → Option (String × String)
  | .broadcastTransfer id _ _, .ok txHash => some (txHash, id)
  | _, _ => none

/-- neither issued nor carried by a withdrawal -/
def Chain.Fresh (C : Chain) (txHash : String) : Prop :=
  (∀ p ∈ C.issued, p.1 ≠ txHash) ∧
  ∀ id w, C.world.ledger.withdrawals.get? id = some w → w.txHash ≠ some txHash

/-- what may come of a call, when the gateway answers a fresh hash each time -/
def ChainHandles (rt : Runtime) (i : Nat) {β : Type} (call : Effect β) (C : Chain)
    (r : Except LedgerError β) (C' : Chain) : Prop :=
  Handles rt i call C.world r C'.world ∧ C'.issued = (issuedBy call r).toList ++ C.issued ∧
    ∀ p ∈ issuedBy call r, C.Fresh p.1

/-- the rest of the program calls the ledger; only the service broadcasts -/
def ChainMoves (rt : Runtime) (C C' : Chain) : Prop :=
  ∃ c : InMemoryLedger.Call, (∀ id txHash nowIso, c ≠ .broadcastWithdrawal id txHash nowIso) ∧
    C' = { C with world := C.world.called rt c }

/-- A hash that is recorded for a withdrawal is the gateway's answer for it; or, submitted by an
operator, it was answered for no other and no other sent withdrawal carries it. -/
def HashChecked (_ : Nat) {β : Type} (call : Effect β) (C : Chain) : Prop :=
  match call with
  | .broadcastWithdrawal id txHash _ => (txHash, id) ∈ C.issued ∨
    ((∀ id', (txHash, id') ∉ C.issued) ∧ ∀ id' w, id' ≠ id →
      C.world.ledger.withdrawals.get? id' = some w → InMemoryLedger.isSent w.status = true →
      w.txHash ≠ some txHash)
  | _ => True

/-- no two sent withdrawals carry the same hash -/
def OnePayment (s : InMemoryLedger) : Prop :=
  ∀ id id' w w' txHash, s.withdrawals.get? id = some w → s.withdrawals.get? id' = some w' →
    InMemoryLedger.isSent w.status = true → InMemoryLedger.isSent w'.status = true →
    w.txHash = some txHash → w'.txHash = some txHash → id = id'

abbrev ChainState := System Effect LedgerError Chain

section
variable {rt : Runtime} {C C' : Chain} {s : InMemoryLedger}

/-! ## what a call does to hashes -/

/-- a sent withdrawal was sent before with the same hash, or by this call with its hash -/
theorem sent_step (huuid : Function.Injective rt.uuid) (hs : InMemoryLedger.Sound rt s)
    (c : InMemoryLedger.Call) {id : String} {w' : Withdrawal}
    (hw' : (c.step rt s).withdrawals.get? id = some w')
    (hsent : InMemoryLedger.isSent w'.status = true) :
    (∃ w, s.withdrawals.get? id = some w ∧ InMemoryLedger.isSent w.status = true ∧
      w.txHash = w'.txHash) ∨
    ∃ txHash nowIso, c = .broadcastWithdrawal id txHash nowIso ∧ w'.txHash = some txHash := by
  cases hw : s.withdrawals.get? id with
  | none =>
    rw [InMemoryLedger.step_opened huuid hs c hw hw'] at hsent
    cases hsent
  | some w =>
    rcases InMemoryLedger.step_withdrawal huuid hs c hw with h | ⟨w'', h, htarget, hadv⟩
    · obtain rfl := Option.some.inj (h.symm.trans hw')
      exact Or.inl ⟨w, rfl, hsent, rfl⟩
    · obtain rfl := Option.some.inj (h.symm.trans hw')
      cases hold : InMemoryLedger.isSent w.status with
      | true => exact Or.inl ⟨w, rfl, hold, (hadv.txHash hold).symm⟩
      | false =>
        obtain ⟨id', txHash, nowIso, rfl, -, hhash⟩ := hadv.sent hold hsent
        obtain rfl : id' = id := Option.some.inj htarget
        exact Or.inr ⟨txHash, nowIso, rfl, hhash⟩

/-- a call of the service runs the ledger call behind it, or leaves the ledger alone -/
theorem Handles.ledger {i : Nat} {β : Type} {call : Effect β} {W W' : World}
    {r : Except LedgerError β} (h : Handles rt i call W r W') :
    W'.ledger = W.ledger ∨ ∃ c, call.toCall = some c ∧ W'.ledger = c.step rt W.ledger := by
  cases h with
  | lookedUp id =>
    left
    rw [World.lookedUp]
    split <;> rfl
  | approved => exact Or.inr ⟨_, rfl, rfl⟩
  | broadcasted => exact Or.inr ⟨_, rfl, rfl⟩
  | confirmed => exact Or.inr ⟨_, rfl, rfl⟩
  | failed => exact Or.inr ⟨_, rfl, rfl⟩
  | wroteUnanswered write => exact Or.inr ⟨_, write, rfl⟩
  | _ => exact Or.inl rfl

theorem toCall_broadcast {β : Type} {call : Effect β} {id txHash nowIso : String}
    (h : call.toCall = some (.broadcastWithdrawal id txHash nowIso)) (i : Nat)
    (hc : HashChecked i call C) : (txHash, id) ∈ C.issued ∨
      ((∀ id', (txHash, id') ∉ C.issued) ∧ ∀ id' w, id' ≠ id →
        C.world.ledger.withdrawals.get? id' = some w → InMemoryLedger.isSent w.status = true →
        w.txHash ≠ some txHash) := by
  cases call with
  | broadcastWithdrawal id' txHash' nowIso' =>
    obtain ⟨rfl, rfl, rfl⟩ : id' = id ∧ txHash' = txHash ∧ nowIso' = nowIso := by
      simpa [Effect.toCall] using h
    exact hc
  | _ => simp [Effect.toCall] at h

theorem toCall_of_issued {β : Type} {call : Effect β} {r : Except LedgerError β}
    {p : String × String} (h : issuedBy call r = some p) : call.toCall = none := by
  cases call with
  | broadcastTransfer => rfl
  | _ => simp [issuedBy] at h

/-! ## the invariant -/

structure HashInv (rt : Runtime) (C : Chain) : Prop where
  sound : InMemoryLedger.Sound rt C.world.ledger
  issuedOnce : ∀ txHash id id', (txHash, id) ∈ C.issued → (txHash, id') ∈ C.issued → id = id'
  owned : ∀ id w txHash id', C.world.ledger.withdrawals.get? id = some w →
    InMemoryLedger.isSent w.status = true → w.txHash = some txHash → (txHash, id') ∈ C.issued →
    id' = id
  unique : OnePayment C.world.ledger

/-- an answer of the gateway is nobody's hash yet -/
theorem HashInv.issue (h : HashInv rt C) {txHash id : String} (hfresh : C.Fresh txHash) :
    HashInv rt { C with issued := (txHash, id) :: C.issued } where
  sound := h.sound
  issuedOnce hash a b ha hb := by
    rcases List.mem_cons.mp ha with hnew | hold
    · obtain ⟨rfl, rfl⟩ := Prod.mk.inj hnew
      rcases List.mem_cons.mp hb with hnew' | hold'
      · exact (Prod.mk.inj hnew').2.symm
      · exact (hfresh.1 _ hold' rfl).elim
    · rcases List.mem_cons.mp hb with hnew' | hold'
      · obtain ⟨rfl, rfl⟩ := Prod.mk.inj hnew'
        exact (hfresh.1 _ hold rfl).elim
      · exact h.issuedOnce hash a b hold hold'
  owned a w hash b hw hsent hhash hb := by
    rcases List.mem_cons.mp hb with hnew | hold
    · obtain ⟨rfl, rfl⟩ := Prod.mk.inj hnew
      exact absurd hhash (hfresh.2 a w hw)
    · exact h.owned a w hash b hw hsent hhash hold
  unique := h.unique

/-- a call of the ledger keeps hashes apart, when a hash it records is checked -/
theorem HashInv.called (huuid : Function.Injective rt.uuid) (h : HashInv rt C)
    (c : InMemoryLedger.Call)
    (hc : ∀ id txHash nowIso, c = .broadcastWithdrawal id txHash nowIso →
      (txHash, id) ∈ C.issued ∨ ((∀ id', (txHash, id') ∉ C.issued) ∧ ∀ id' w, id' ≠ id →
        C.world.ledger.withdrawals.get? id' = some w → InMemoryLedger.isSent w.status = true →
        w.txHash ≠ some txHash))
    {W' : World} (hW : W'.ledger = c.step rt C.world.ledger) :
    HashInv rt { C with world := W' } := by
  -- a recorded hash against a withdrawal sent earlier
  have hapart : ∀ {id id' txHash nowIso w}, c = .broadcastWithdrawal id txHash nowIso →
      C.world.ledger.withdrawals.get? id' = some w → InMemoryLedger.isSent w.status = true →
      w.txHash = some txHash → id = id' := by
    intro id id' txHash nowIso w hcall hw hsent hhash
    by_contra hne
    rcases hc id txHash nowIso hcall with hissued | ⟨-, hother⟩
    · exact hne (h.owned id' w txHash id hw hsent hhash hissued)
    · exact hother id' w (Ne.symm hne) hw hsent hhash
  refine ⟨?_, h.issuedOnce, fun id w txHash id' hw hsent hhash hissued => ?_,
    fun id id' w w' txHash hw hw' hsent hsent' hhash hhash' => ?_⟩
  · show InMemoryLedger.Sound rt W'.ledger
    rw [hW]
    exact InMemoryLedger.step_sound huuid c h.sound
  · rw [hW] at hw
    rcases sent_step huuid h.sound c hw hsent with ⟨v, hv, hvsent, hvhash⟩ | ⟨txHash', nowIso, hcall, hnew⟩
    · exact h.owned id v txHash id' hv hvsent (hvhash.trans hhash) hissued
    · obtain rfl : txHash' = txHash := Option.some.inj (hnew.symm.trans hhash)
      rcases hc id txHash' nowIso hcall with hown | ⟨hnone, -⟩
      · exact h.issuedOnce txHash' id' id hissued hown
      · exact absurd hissued (hnone id')
  · rw [hW] at hw hw'
    rcases sent_step huuid h.sound c hw hsent with ⟨v, hv, hvsent, hvhash⟩ | ⟨hash, nowIso, hcall, hnew⟩
    · rcases sent_step huuid h.sound c hw' hsent' with
        ⟨v', hv', hvsent', hvhash'⟩ | ⟨hash, nowIso, hcall, hnew⟩
      · exact h.unique id id' v v' txHash hv hv' hvsent hvsent' (hvhash.trans hhash)
          (hvhash'.trans hhash')
      · obtain rfl : hash = txHash := Option.some.inj (hnew.symm.trans hhash')
        exact (hapart hcall hv hvsent (hvhash.trans hhash)).symm
    · obtain rfl : hash = txHash := Option.some.inj (hnew.symm.trans hhash)
      rcases sent_step huuid h.sound c hw' hsent' with
        ⟨v', hv', hvsent', hvhash'⟩ | ⟨hash', nowIso', hcall', -⟩
      · exact hapart hcall hv' hvsent' (hvhash'.trans hhash')
      · rw [hcall] at hcall'
        cases hcall'
        rfl

theorem HashInv.step (huuid : Function.Injective rt.uuid) {entry : Async Unit → Prop}
    {σ σ' : ChainState} (h : HashInv rt σ.world)
    (hs : Step entry (ChainHandles rt) (ChainMoves rt) HashChecked σ σ') : HashInv rt σ'.world := by
  cases hs with
  | start p ready => exact h
  | stop i => exact h
  | environment moved =>
    obtain ⟨c, hc, rfl⟩ := moved
    exact h.called huuid c (fun id txHash nowIso he => absurd he (hc id txHash nowIso)) rfl
  | @perform i β call next r C' running admitted handled =>
    obtain ⟨hhandles, hissued, hfresh⟩ := handled
    have hledger : HashInv rt { σ.world with world := C'.world } := by
      rcases hhandles.ledger with hsame | ⟨c, hcall, hstep⟩
      · refine ⟨?_, h.issuedOnce, ?_, ?_⟩
        · show InMemoryLedger.Sound rt C'.world.ledger
          rw [hsame]
          exact h.sound
        · show ∀ id w txHash id', C'.world.ledger.withdrawals.get? id = some w → _
          rw [hsame]
          exact h.owned
        · show OnePayment C'.world.ledger
          rw [hsame]
          exact h.unique
      · refine h.called huuid c (fun id txHash nowIso he => ?_) hstep
        subst he
        exact toCall_broadcast hcall i admitted
    show HashInv rt C'
    cases hout : issuedBy call r with
    | none =>
      rw [hout] at hissued
      have hC' : C' = { σ.world with world := C'.world } := by
        rcases C' with ⟨W, issued⟩
        rw [show issued = σ.world.issued from hissued]
      rw [hC']
      exact hledger
    | some p =>
      rw [hout] at hissued hfresh
      have hC' : C' = { world := C'.world, issued := (p.1, p.2) :: σ.world.issued } := by
        rcases C' with ⟨W, issued⟩
        rw [show issued = p :: σ.world.issued from hissued]
      -- the gateway's call leaves the ledger as it was
      have hsame : C'.world.ledger = σ.world.world.ledger := by
        rcases hhandles.ledger with hsame | ⟨c, hcall, -⟩
        · exact hsame
        · rw [toCall_of_issued hout] at hcall
          cases hcall
      have hfresh' : Chain.Fresh { σ.world with world := C'.world } p.1 := by
        have hold := hfresh p rfl
        refine ⟨hold.1, ?_⟩
        show ∀ id w, C'.world.ledger.withdrawals.get? id = some w → _
        rw [hsame]
        exact hold.2
      rw [hC']
      exact hledger.issue hfresh'

theorem HashInv.initial (limits : WithdrawalLimitConfig) (huuid : Function.Injective rt.uuid) :
    HashInv rt ⟨⟨InMemoryLedger.new limits, []⟩, []⟩ where
  sound := InMemoryLedger.run_sound huuid limits []
  issuedOnce _ _ _ h := by cases h
  owned _ _ _ _ h := by cases h
  unique _ _ _ _ _ h := by cases h

end

/-- From an empty ledger, over every interleaving of the service's jobs and of the rest of the
program, with a gateway that answers a fresh hash each time: while every hash recorded is checked,
no two broadcasted or completed withdrawals carry the same one. -/
theorem one_payment (rt : Runtime) (huuid : Function.Injective rt.uuid) (opts : Options)
    (limits : WithdrawalLimitConfig) {σ : ChainState}
    (hrun : Reachable (IsJob rt opts) (ChainHandles rt) (ChainMoves rt) HashChecked
      (System.initial _ _ ⟨⟨InMemoryLedger.new limits, []⟩, []⟩) σ) :
    OnePayment σ.world.world.ledger := by
  have hinv : HashInv rt σ.world := hrun.invariant (I := fun σ => HashInv rt σ.world)
    (fun _ _ h hs => h.step huuid hs) (HashInv.initial limits huuid)
  exact hinv.unique

/-! ## two runs -/

/-- every withdrawal is signed offline -/
def offlineOptions : Options := { mockOptions with signerMode := .offlineStub }

section
variable {rt : Runtime} {admits : Nat → ∀ {β : Type}, Effect β → Chain → Prop}

theorem initial_ledger (s : InMemoryLedger) (trace : List Event) :
    (System.initial Effect LedgerError (⟨⟨s, trace⟩, []⟩ : Chain)).world.world.ledger = s := rfl

/-- the rest of the program can run any ledger calls but broadcasts -/
theorem environment_runs (entry : Async Unit → Prop) (s : InMemoryLedger)
    (calls : List InMemoryLedger.Call)
    (hcalls : ∀ c ∈ calls, ∀ id txHash nowIso, c ≠ .broadcastWithdrawal id txHash nowIso) :
    ∃ trace, Reachable entry (ChainHandles rt) (ChainMoves rt) admits
      (System.initial _ _ ⟨⟨s, []⟩, []⟩)
      (System.initial _ _ ⟨⟨runCalls (InMemoryLedger.Call.step rt) calls s, trace⟩, []⟩) := by
  induction calls using List.reverseRecOn with
  | nil => exact ⟨[], Relation.ReflTransGen.refl⟩
  | append_singleton calls c ih =>
    obtain ⟨trace, hrun⟩ := ih fun c' hc' => hcalls c' (List.mem_append_left _ hc')
    let W : World := ⟨runCalls (InMemoryLedger.Call.step rt) calls s, trace⟩
    have hmove : ChainMoves rt ⟨W, []⟩ ⟨W.called rt c, []⟩ :=
      ⟨c, hcalls c (List.mem_append_right _ (List.mem_singleton_self c)), rfl⟩
    have hstep : Step entry (ChainHandles rt) (ChainMoves rt) admits (System.initial _ _ ⟨W, []⟩)
        (System.initial _ _ ⟨W.called rt c, []⟩) := Step.environment hmove
    refine ⟨(W.called rt c).trace, ?_⟩
    rw [runCalls_append]
    exact hrun.tail hstep

/-- the program of an offline submission of an approved withdrawal -/
theorem submit_program (id txHash : String) {w : Withdrawal} (hw : w.status = .adminApproved) :
    ∃ next, Job.program rt offlineOptions (.submitOfflineBroadcast id txHash none) =
        .calls (.getWithdrawal id) next ∧
      ∃ next', next (.ok (some w)) = .calls .now next' ∧
        ∀ t, ∃ next'', next' (.ok t) = .calls (.broadcastWithdrawal id txHash t) next'' := by
  cases w
  subst hw
  exact ⟨_, rfl, _, rfl, fun t => ⟨_, rfl⟩⟩

/-- a submission looks the withdrawal up, reads the clock and records the hash -/
theorem submit_records (σ : ChainState) {s : InMemoryLedger} (hs : σ.world.world.ledger = s)
    (id txHash nowIso : String) {w : Withdrawal}
    (hw : s.withdrawals.get? id = some w) (hstatus : w.status = .adminApproved)
    (hread : ∀ C, admits σ.started (.getWithdrawal id) C) (hnow : ∀ C, admits σ.started .now C)
    (hrecord : ∀ C : Chain, C.world.ledger = s → C.issued = σ.world.issued →
      admits σ.started (.broadcastWithdrawal id txHash nowIso) C) :
    ∃ σ' : ChainState, Reachable (IsJob rt offlineOptions) (ChainHandles rt) (ChainMoves rt) admits
        σ σ' ∧
      σ'.world.world.ledger = InMemoryLedger.Call.step rt (.broadcastWithdrawal id txHash nowIso) s ∧
      σ'.world.issued = σ.world.issued := by
  subst hs
  obtain ⟨next, hprog, next', hnext, hlast⟩ := @submit_program rt id txHash w hstatus
  obtain ⟨next'', hnext'⟩ := hlast nowIso
  let i := σ.started
  let W : World := σ.world.world.log (.read i id w)
  let C₂ : Chain := { σ.world with world := W }
  let C₃ : Chain := { C₂ with world := W.called rt (.broadcastWithdrawal id txHash nowIso) }
  let σ₁ : ChainState :=
    { σ with
      running := Function.update σ.running i
        (some (Job.program rt offlineOptions (.submitOfflineBroadcast id txHash none)))
      started := i + 1 }
  let σ₂ : ChainState :=
    { σ₁ with
      world := C₂, running := Function.update σ₁.running i (some (next (.ok (some w)))) }
  let σ₃ : ChainState := { σ₂ with running := Function.update σ₂.running i (some (next' (.ok nowIso))) }
  have hlook : ChainHandles rt i (.getWithdrawal id) σ.world (.ok (some w)) C₂ := by
    refine ⟨?_, rfl, fun p hp => (by cases hp)⟩
    have h := @Handles.lookedUp rt i id σ.world.world
    simpa only [World.lookedUp, InMemoryLedger.getWithdrawal, hw] using h
  have hclock : ChainHandles rt i .now C₂ (.ok nowIso) C₂ :=
    ⟨.outside rfl _ _, rfl, fun p hp => (by cases hp)⟩
  have hwrite : ChainHandles rt i (.broadcastWithdrawal id txHash nowIso) C₂
      (InMemoryLedger.broadcastWithdrawal rt id txHash nowIso W.ledger).1 C₃ := by
    refine ⟨.broadcasted id txHash nowIso W, ?_, ?_⟩
    · simp [issuedBy, C₃]
    · simp [issuedBy]
  have hstart : Step (IsJob rt offlineOptions) (ChainHandles rt) (ChainMoves rt) admits σ σ₁ :=
    Step.start _ ⟨.submitOfflineBroadcast id txHash none, rfl⟩
  have hrun₁ : σ₁.running i = some (.calls (.getWithdrawal id) next) := by
    simp [σ₁, hprog]
  have hrun₂ : σ₂.running i = some (.calls .now next') := by
    simp [σ₂, hnext]
  have hrun₃ : σ₃.running i = some (.calls (.broadcastWithdrawal id txHash nowIso) next'') := by
    simp [σ₃, hnext']
  have hstep₁ : Step (IsJob rt offlineOptions) (ChainHandles rt) (ChainMoves rt) admits σ₁ σ₂ :=
    Step.perform hrun₁ (hread _) hlook
  have hstep₂ : Step (IsJob rt offlineOptions) (ChainHandles rt) (ChainMoves rt) admits σ₂ σ₃ :=
    Step.perform hrun₂ (hnow _) hclock
  have hstep₃ : Step (IsJob rt offlineOptions) (ChainHandles rt) (ChainMoves rt) admits σ₃ _ :=
    Step.perform hrun₃ (hrecord _ rfl rfl) hwrite
  exact ⟨_, (((Relation.ReflTransGen.single hstart).tail hstep₁).tail hstep₂).tail hstep₃, rfl, rfl⟩

end

/-- alice and bob each have an approved withdrawal -/
def twoApproved : List InMemoryLedger.Call :=
  [.applyDeposit
    { userId := "alice", amount := 5000000, txHash := "0xabc12345", toAddress := some "TAlice"
      walletAddress := none, blockNumber := 7, nowIso := "2026-01-01T00:00:00.000Z" },
   .applyDeposit
    { userId := "bob", amount := 5000000, txHash := "0xabc54321", toAddress := some "TBob"
      walletAddress := none, blockNumber := 8, nowIso := "2026-01-01T00:00:00.000Z" },
   .requestWithdrawal
    { userId := "alice", amount := 2000000, toAddress := "TAliceOut", idempotencyKey := "w-1"
      riskLevel := none, riskScore := none, riskFlags := none, requiredApprovals := none
      clientIp := none, deviceId := none, nowIso := "2026-01-01T00:00:01.000Z" },
   .requestWithdrawal
    { userId := "bob", amount := 3000000, toAddress := "TBobOut", idempotencyKey := "w-2"
      riskLevel := none, riskScore := none, riskFlags := none, requiredApprovals := none
      clientIp := none, deviceId := none, nowIso := "2026-01-01T00:00:01.000Z" },
   .confirmWithdrawalExternalAuth (Runtime.numbered.uuid 7) "foxya" "req-1"
      "2026-01-01T00:00:02.000Z",
   .confirmWithdrawalExternalAuth (Runtime.numbered.uuid 10) "foxya" "req-2"
      "2026-01-01T00:00:02.000Z",
   .approveWithdrawal (Runtime.numbered.uuid 7) ⟨"admin-1", .admin, none, none⟩
      "2026-01-01T00:00:03.000Z",
   .approveWithdrawal (Runtime.numbered.uuid 10) ⟨"admin-1", .admin, none, none⟩
      "2026-01-01T00:00:03.000Z"]

def twoApprovedLedger : InMemoryLedger :=
  runCalls (InMemoryLedger.Call.step .numbered) twoApproved (InMemoryLedger.new ⟨10000000, 10000000⟩)

theorem twoApproved_calls : ∀ c ∈ twoApproved, ∀ id txHash nowIso,
    c ≠ .broadcastWithdrawal id txHash nowIso := by
  simp [twoApproved]

/-- the status and the hash of a withdrawal -/
def shownOf (s : InMemoryLedger) (id : String) : Option (WithdrawalStatus × Option String) :=
  (s.withdrawals.get? id).map fun w => (w.status, w.txHash)

theorem shownOf_eq {s : InMemoryLedger} {id : String} {status : WithdrawalStatus}
    {txHash : Option String} (h : shownOf s id = some (status, txHash)) :
    ∃ w, s.withdrawals.get? id = some w ∧ w.status = status ∧ w.txHash = txHash := by
  obtain ⟨w, hw, he⟩ := Option.map_eq_some_iff.mp h
  exact ⟨w, hw, (Prod.mk.inj he).1, (Prod.mk.inj he).2⟩

/-- a run that submits a hash for alice's withdrawal -/
theorem one_payment_example :
    ∃ σ : ChainState, shownOf σ.world.world.ledger (Runtime.numbered.uuid 7) =
      some (.txBroadcasted, some "0xfeedbeef") ∧ OnePayment σ.world.world.ledger := by
  obtain ⟨trace, hready⟩ := @environment_runs .numbered HashChecked (IsJob .numbered offlineOptions)
    (InMemoryLedger.new ⟨10000000, 10000000⟩) twoApproved twoApproved_calls
  obtain ⟨w, hw, hstatus, -⟩ := @shownOf_eq twoApprovedLedger (Runtime.numbered.uuid 7)
    .adminApproved none (by decide +kernel)
  have hrecord : ∀ C : Chain, C.world.ledger = twoApprovedLedger → C.issued = [] →
      HashChecked 0 (.broadcastWithdrawal (Runtime.numbered.uuid 7) "0xfeedbeef"
        "2026-01-01T00:00:04.000Z") C := by
    intro C hC hissued
    right
    rw [hC, hissued]
    refine ⟨fun _ h => (by cases h), fun id' w' _ hw' hsent => ?_⟩
    have hnone : ∀ w ∈ twoApprovedLedger.withdrawals.values, InMemoryLedger.isSent w.status = false := by
      decide +kernel
    rw [hnone w' (OrderedMap.mem_values_of_get? hw')] at hsent
    cases hsent
  have hshown : shownOf (InMemoryLedger.Call.step .numbered (.broadcastWithdrawal
      (Runtime.numbered.uuid 7) "0xfeedbeef" "2026-01-01T00:00:04.000Z") twoApprovedLedger)
      (Runtime.numbered.uuid 7) = some (.txBroadcasted, some "0xfeedbeef") := by decide +kernel
  obtain ⟨σ, hrun, hledger, -⟩ := @submit_records .numbered HashChecked
    (System.initial _ _ ⟨⟨twoApprovedLedger, trace⟩, []⟩) twoApprovedLedger (initial_ledger _ _)
    (Runtime.numbered.uuid 7) "0xfeedbeef" "2026-01-01T00:00:04.000Z" w hw hstatus
    (fun _ => trivial) (fun _ => trivial) hrecord
  refine ⟨σ, ?_, one_payment .numbered Runtime.numbered_uuid_injective offlineOptions
    ⟨10000000, 10000000⟩ (hready.trans hrun)⟩
  rw [hledger]
  exact hshown

/-- alice's withdrawal broadcast, then bob's with the same hash -/
def sharedLedger : InMemoryLedger :=
  runCalls (InMemoryLedger.Call.step .numbered)
    [.broadcastWithdrawal (Runtime.numbered.uuid 7) "0xfeedbeef" "2026-01-01T00:00:04.000Z",
     .broadcastWithdrawal (Runtime.numbered.uuid 10) "0xfeedbeef" "2026-01-01T00:00:05.000Z"]
    twoApprovedLedger

/-- An operator submits the hash of alice's payment for bob's withdrawal too. -/
theorem shared_payment :
    ∃ σ : ChainState, Reachable (IsJob .numbered offlineOptions) (ChainHandles .numbered)
      (ChainMoves .numbered) always
      (System.initial _ _ ⟨⟨InMemoryLedger.new ⟨10000000, 10000000⟩, []⟩, []⟩) σ ∧
      ¬ OnePayment σ.world.world.ledger := by
  obtain ⟨trace, hready⟩ := @environment_runs .numbered always (IsJob .numbered offlineOptions)
    (InMemoryLedger.new ⟨10000000, 10000000⟩) twoApproved twoApproved_calls
  obtain ⟨w, hw, hstatus, -⟩ := @shownOf_eq twoApprovedLedger (Runtime.numbered.uuid 7)
    .adminApproved none (by decide +kernel)
  obtain ⟨σ, hrun, hledger, -⟩ := @submit_records .numbered always
    (System.initial _ _ ⟨⟨twoApprovedLedger, trace⟩, []⟩) twoApprovedLedger (initial_ledger _ _)
    (Runtime.numbered.uuid 7) "0xfeedbeef" "2026-01-01T00:00:04.000Z" w hw hstatus (fun _ => trivial) (fun _ => trivial)
    (fun _ _ _ => trivial)
  have hsecond : shownOf (InMemoryLedger.Call.step .numbered (.broadcastWithdrawal
      (Runtime.numbered.uuid 7) "0xfeedbeef" "2026-01-01T00:00:04.000Z") twoApprovedLedger)
      (Runtime.numbered.uuid 10) = some (.adminApproved, none) := by decide +kernel
  obtain ⟨v, hv, hvstatus, -⟩ := shownOf_eq hsecond
  obtain ⟨σ', hrun', hledger', -⟩ := @submit_records .numbered always σ _ hledger
    (Runtime.numbered.uuid 10) "0xfeedbeef" "2026-01-01T00:00:05.000Z" v hv hvstatus
    (fun _ => trivial) (fun _ => trivial) (fun _ _ _ => trivial)
  have hboth : σ'.world.world.ledger = sharedLedger := by
    rw [hledger']
    rfl
  refine ⟨σ', (hready.trans hrun).trans hrun', fun hone => ?_⟩
  rw [hboth] at hone
  obtain ⟨a, ha, hastatus, hahash⟩ := @shownOf_eq sharedLedger (Runtime.numbered.uuid 7)
    .txBroadcasted (some "0xfeedbeef") (by decide +kernel)
  obtain ⟨b, hb, hbstatus, hbhash⟩ := @shownOf_eq sharedLedger (Runtime.numbered.uuid 10)
    .txBroadcasted (some "0xfeedbeef") (by decide +kernel)
  have hsame := hone _ _ a b "0xfeedbeef" ha hb (by rw [hastatus]; rfl) (by rw [hbstatus]; rfl)
    hahash hbhash
  exact absurd hsame (by decide +kernel)

end WithdrawService
