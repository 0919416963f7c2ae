import CoinManage.Lib.Paging
import CoinManage.Lib.Traces
import CoinManage.Postgres.Calls

/-!
# The automatic reconciliation of offline pay

A cycle compares the wallets of some users with what the ledger owes them, and asks the repository to
adjust the ledger where they differ.  The difference is checked on a balance read before the call; the
repository computes it again, in its own transaction.

* `examine`, `report`     the part of the `try` before a counter moves, and the part after it;
* `adjusts_to_target`     what an adjustment does to the balances of all users;
* `runCycle_bounded`      the bounds hold when nothing moves a user's balance in between;
* `runCycle_counts`       the counters add up exactly when what was counted could be reported;
* `bounded_adjustments`, `wiped_deposit`   both, and a deposit in between.
-/

set_option linter.unusedSectionVars false

namespace OfflinePayLedgerReconciliationService
open Program

structure Options where
  currencyCode : String
  toleranceAmount : ℤ
  maxAdjustmentAmount : ℤ

structure CanonicalWalletSnapshot where
  userId : String
  currencyCode : String
  totalBalance : String
  lockedBalance : String
  walletCount : Nat
  canonicalBasis : String

structure UserBalanceSnapshot where
  userId : String
  availableBalance : ℤ
  lockedBalance : ℤ
  liabilityBalance : ℤ
  hasLedgerFootprint : Bool

structure AuditLog where
  entityType : String
  entityId : String
  action : String
  actorType : String
  actorId : String
  metadata : List (String × String)

/-- the calls of a cycle -/
inductive Effect : Type → Type
  | listOfflinePayReconciliationUserIds (limit : Nat) : Effect (List String)
  | listUserIdsWithPositiveCanonicalBalance (currencyCode : String) (limit : Nat) : Effect (List String)
  | hasOfflinePayLedgerFootprint (userId : String) : Effect Bool
  | getCanonicalWalletSnapshot (userId currencyCode : String) : Effect CanonicalWalletSnapshot
  | getOfflinePayUserBalanceSnapshot (userId : String) : Effect UserBalanceSnapshot
  | reconcileOfflinePayUserBalance (userId : String) (targetLiabilityBalance : ℤ) (canonicalBasis : String) :
      Effect Postgres.ReconcileResult
  | appendAuditLog (log : AuditLog) : Effect Unit
  | publish (type : String) (payload : List (String × String)) : Effect Unit

abbrev Async (α : Type) := Program Effect LedgerError α

/-! ## one user -/

def auditLog (userId action actorType : String) (metadata : List (String × String)) : AuditLog where
  entityType := "system"
  entityId := "offline-pay-reconciliation:" ++ userId
  action := action
  actorType := actorType
  actorId := "offline-pay-ledger-reconcile-worker"
  metadata := metadata

/-- what `OperationsService.reconcileOfflinePayUserBalance` answers -/
structure AdjustmentResult where
  userId : String
  previousLiabilityBalance : String
  targetLiabilityBalance : String
  deltaAmount : String
  adjusted : Bool

/-- `OperationsService.reconcileOfflinePayUserBalance` -/
def reconcileOfflinePayUserBalance (userId targetLiabilityBalance canonicalBasis note : String) :
    Async AdjustmentResult := do
  let target ← match parseStoredKoriAmount targetLiabilityBalance with
    | .ok target => pure target
    | .error e => throw e
  let result ← perform (.reconcileOfflinePayUserBalance userId target canonicalBasis)
  perform (.appendAuditLog (auditLog userId "offline_pay.user_balance.reconciled" "admin"
    [("userId", userId), ("canonicalBasis", canonicalBasis),
     ("previousLiabilityBalance", formatKoriAmount result.previousBalance),
     ("targetLiabilityBalance", formatKoriAmount result.target),
     ("deltaAmount", formatKoriAmount result.deltaAmount),
     ("adjusted", if result.adjusted then "true" else "false"), ("note", note)]))
  return ⟨result.userId, formatKoriAmount result.previousBalance, formatKoriAmount result.target,
    formatKoriAmount result.deltaAmount, result.adjusted⟩

/-- where the `try` of a user has come to when it moves a counter -/
inductive Verdict where
  | withinTolerance
  | positiveDelta (snapshot : CanonicalWalletSnapshot) (currentLiabilityBalance deltaAmount : ℤ)
  | exceedsMaxAdjustment (snapshot : CanonicalWalletSnapshot) (currentLiabilityBalance deltaAmount : ℤ)
  | adjusted (snapshot : CanonicalWalletSnapshot) (result : AdjustmentResult)
  | notAdjusted

section
variable (opts : Options)

def note (snapshot : CanonicalWalletSnapshot) : String := "auto reconcile from " ++ snapshot.canonicalBasis

def examine (bootstrapUserIds : List String) (userId : String) : Async Verdict := do
  let snapshot ← perform (.getCanonicalWalletSnapshot userId opts.currencyCode)
  let current ← perform (.getOfflinePayUserBalanceSnapshot userId)
  match parseStoredKoriAmount snapshot.totalBalance with
  | .error e => throw e
  | .ok targetLiabilityBalance =>
    let deltaAmount := targetLiabilityBalance - current.liabilityBalance
    let absoluteDelta := if deltaAmount < 0 then -deltaAmount else deltaAmount
    if absoluteDelta ≤ opts.toleranceAmount then return .withinTolerance
    else if 0 < deltaAmount ∧ userId ∉ bootstrapUserIds then
      return .positiveDelta snapshot current.liabilityBalance deltaAmount
    else if opts.maxAdjustmentAmount < absoluteDelta then
      return .exceedsMaxAdjustment snapshot current.liabilityBalance deltaAmount
    else
      let result ← reconcileOfflinePayUserBalance userId snapshot.totalBalance snapshot.canonicalBasis
        (note snapshot)
      if result.adjusted then return .adjusted snapshot result else return .notAdjusted

def skippedMetadata (userId reason : String) (snapshot : CanonicalWalletSnapshot)
    (currentLiabilityBalance deltaAmount : ℤ) : List (String × String) :=
  [("userId", userId), ("reason", reason), ("canonicalBasis", snapshot.canonicalBasis),
   ("currentLiabilityBalance", formatKoriAmount currentLiabilityBalance),
   ("targetLiabilityBalance", snapshot.totalBalance), ("deltaAmount", formatKoriAmount deltaAmount)]

def skippedPayload (userId reason : String) (snapshot : CanonicalWalletSnapshot) (deltaAmount : ℤ) :
    List (String × String) :=
  [("userId", userId), ("reason", reason), ("canonicalBasis", snapshot.canonicalBasis),
   ("deltaAmount", formatKoriAmount deltaAmount)]

/-- the rest of the `try`, after a counter has moved -/
def report (userId : String) : Verdict → Async Unit
  | .withinTolerance => pure ()
  | .positiveDelta snapshot current deltaAmount => do
    perform (.appendAuditLog (auditLog userId "offline_pay.user_balance.reconcile.skipped" "system"
      (skippedMetadata userId "positive_delta_existing_offline_pay_ledger" snapshot current deltaAmount)))
    perform (.publish "offline_pay.ledger_reconciliation.skipped"
      (skippedPayload userId "positive_delta_existing_offline_pay_ledger" snapshot deltaAmount))
  | .exceedsMaxAdjustment snapshot current deltaAmount => do
    perform (.appendAuditLog (auditLog userId "offline_pay.user_balance.reconcile.skipped" "system"
      (skippedMetadata userId "delta_exceeds_max_adjustment" snapshot current deltaAmount ++
        [("maxAdjustmentAmount", formatKoriAmount opts.maxAdjustmentAmount)])))
    perform (.publish "offline_pay.ledger_reconciliation.skipped"
      (skippedPayload userId "delta_exceeds_max_adjustment" snapshot deltaAmount))
  | .adjusted snapshot result => do
    perform (.appendAuditLog (auditLog userId "offline_pay.user_balance.reconciled" "system"
      [("userId", userId), ("canonicalBasis", snapshot.canonicalBasis),
       ("previousLiabilityBalance", result.previousLiabilityBalance),
       ("targetLiabilityBalance", result.targetLiabilityBalance), ("deltaAmount", result.deltaAmount),
       ("adjusted", "true"), ("accountingSide", "SENDER"),
       ("receiverSettlementMode", "EXTERNAL_HISTORY_SYNC"),
       ("settlementModel", "SENDER_LEDGER_PLUS_RECEIVER_HISTORY"),
       ("reconciliationTrackingOwner", "OFFLINE_PAY_SAGA"), ("note", note snapshot)]))
    perform (.publish "offline_pay.ledger_reconciliation.adjusted"
      [("userId", userId), ("canonicalBasis", snapshot.canonicalBasis),
       ("previousLiabilityBalance", result.previousLiabilityBalance),
       ("targetLiabilityBalance", result.targetLiabilityBalance), ("deltaAmount", result.deltaAmount)])
  | .notAdjusted => pure ()

end

/-! ## a cycle -/

structure Counters where
  checkedCount : Nat := 0
  adjustedCount : Nat := 0
  skippedCount : Nat := 0
  failedCount : Nat := 0

/-- the counter a verdict moves -/
def Counters.count (c : Counters) : Verdict → Counters
  | .withinTolerance | .positiveDelta .. | .notAdjusted => { c with skippedCount := c.skippedCount + 1 }
  | .exceedsMaxAdjustment .. => { c with failedCount := c.failedCount + 1 }
  | .adjusted .. => { c with adjustedCount := c.adjustedCount + 1 }

section
variable (opts : Options) (message : LedgerError → String)

/-- the `catch` of a user -/
def fail (userId : String) (e : LedgerError) (c : Counters) : Async Counters := do
  perform (.appendAuditLog (auditLog userId "offline_pay.user_balance.reconcile.failed" "system"
    [("userId", userId), ("error", message e)]))
  perform (.publish "offline_pay.ledger_reconciliation.failed" [("userId", userId), ("error", message e)])
  return { c with failedCount := c.failedCount + 1 }

/-- one round of the loop; what a counter has counted stays counted when the rest of the `try` throws -/
def checkUser (bootstrapUserIds : List String) (userId : String) (c : Counters) : Async Counters := do
  let c := { c with checkedCount := c.checkedCount + 1 }
  match ← (examine opts bootstrapUserIds userId).attempt with
  | .error e => fail message userId e c
  | .ok verdict =>
    let c := c.count verdict
    match ← (report opts userId verdict).attempt with
    | .error e => fail message userId e c
    | .ok _ => return c

def checkUsers (bootstrapUserIds : List String) : List String → Counters → Async Counters
  | [], c => pure c
  | userId :: userIds, c => do
    let c ← checkUser opts message bootstrapUserIds userId c
    checkUsers bootstrapUserIds userIds c

/-- the candidates without a ledger, at most `limit` -/
def chooseBootstrapUserIds (existingLedgerUserIds : List String) (limit : Nat) :
    List String → List String → Async (List String)
  | [], bootstrapUserIds => pure bootstrapUserIds
  | userId :: candidates, bootstrapUserIds => do
    if userId ∈ existingLedgerUserIds then
      chooseBootstrapUserIds existingLedgerUserIds limit candidates bootstrapUserIds
    else
      let hasFootprint ← perform (.hasOfflinePayLedgerFootprint userId)
      if hasFootprint then
        chooseBootstrapUserIds existingLedgerUserIds limit candidates bootstrapUserIds
      else if limit ≤ (bootstrapUserIds ++ [userId]).length then pure (bootstrapUserIds ++ [userId])
      else chooseBootstrapUserIds existingLedgerUserIds limit candidates (bootstrapUserIds ++ [userId])

def runCycle (limit : Nat) : Async Counters := do
  let existingLedgerUserIds ← perform (.listOfflinePayReconciliationUserIds limit)
  let bootstrapCandidates ←
    perform (.listUserIdsWithPositiveCanonicalBalance opts.currencyCode (max (limit * 5) limit))
  let bootstrapUserIds ← chooseBootstrapUserIds existingLedgerUserIds limit bootstrapCandidates []
  checkUsers opts message bootstrapUserIds ((bootstrapUserIds ++ existingLedgerUserIds).take limit) {}

end

/-! ## the world the calls meet -/

/-- the second of the parts of a text between colons -/
def splitPart2 (code : String) : String :=
  String.ofList (((code.toList.dropWhile (· ≠ ':')).drop 1).takeWhile (· ≠ ':'))

/-- the ledger accounts of users -/
def isListed (ledgerAccountCode : String) : Bool :=
  [Postgres.Bucket.available, .offlinePayPending, .withdrawPending].any fun bucket =>
    Postgres.likeMatch ("user:%:" ++ bucket.text).toList ledgerAccountCode.toList

/-- the distinct second parts of their codes -/
def ledgerUserIds (s : Postgres.Db) : List String :=
  (((s.ledgerAccounts.map (·.ledgerAccountCode)).filter isListed).map splitPart2).dedup

/-- `listOfflinePayReconciliationUserIds`; `collation` is the order of the database -/
def listUserIds (collation : Collation String) (limit : Nat) (s : Postgres.Db) : List String :=
  (collation.page limit (ledgerUserIds s)).filter (· ≠ "")

/-- the wallets of Foxya, as its two queries answer -/
structure Wallets where
  snapshot : (userId currencyCode : String) → CanonicalWalletSnapshot
  positive : (currencyCode : String) → (limit : Nat) → List String

/-- what is owed to a user -/
def liability (s : Postgres.Db) (userId : String) : ℤ :=
  s.available userId + (s.withdrawPending userId + s.offlinePayPending userId)

/-- an adjustment that was carried out: what was owed to every user before it and after it -/
structure Adjustment where
  userId : String
  target : ℤ
  before : String → ℤ
  after : String → ℤ

structure World where
  db : Postgres.Db
  wallets : Wallets
  adjustments : List Adjustment

section
variable (pg : PgServer) (collation : Collation String)

/-- a call that is carried out -/
def CarriesOut ⦃β : Type⦄ : Effect β → World → Except LedgerError β → World → Prop
  | .listOfflinePayReconciliationUserIds limit, w, r, w' => r = .ok (listUserIds collation limit w.db) ∧ w' = w
  | .listUserIdsWithPositiveCanonicalBalance currencyCode limit, w, r, w' =>
    r = .ok (w.wallets.positive currencyCode limit) ∧ w' = w
  | .hasOfflinePayLedgerFootprint userId, w, r, w' =>
    r = .ok (Postgres.hasOfflinePayLedgerFootprintIn w.db userId) ∧ w' = w
  | .getCanonicalWalletSnapshot userId currencyCode, w, r, w' =>
    r = .ok (w.wallets.snapshot userId currencyCode) ∧ w' = w
  | .getOfflinePayUserBalanceSnapshot userId, w, r, w' =>
    ∃ p, Postgres.getProjectedUserBalances pg userId w.db = (.ok p, w.db) ∧
      r = .ok ⟨userId, p.balance, p.lockedBalance, p.balance + p.lockedBalance, p.hasPostings⟩ ∧ w' = w
  | .reconcileOfflinePayUserBalance userId target canonicalBasis, w, r, w' =>
    ∃ nowIso db, Postgres.reconcileOfflinePayUserBalance pg ⟨userId, target, canonicalBasis, nowIso⟩ w.db =
        (r, db) ∧
      w' = { w with
        db := db
        adjustments := w.adjustments ++ [⟨userId, target, liability w.db, liability db⟩] }
  | .appendAuditLog _, w, r, w' => r = .ok () ∧ w' = w
  | .publish _ _, w, r, w' => r = .ok () ∧ w' = w

/-- A call finds the world moved by others; it is carried out, carried out without an answer, or not
carried out. -/
inductive Handles (moves : ∀ ⦃β : Type⦄, Effect β → World → World → Prop) :
    ∀ ⦃β : Type⦄, Effect β → World → Except LedgerError β → World → Prop
  | done {β : Type} {call : Effect β} {w w₁ w₂ : World} {r : Except LedgerError β}
      (moved : moves call w w₁) (carried : CarriesOut pg collation call w₁ r w₂) : Handles moves call w r w₂
  | unanswered {β : Type} {call : Effect β} {w w₁ w₂ : World} {r : Except LedgerError β} (e : LedgerError)
      (moved : moves call w w₁) (carried : CarriesOut pg collation call w₁ r w₂) :
    Handles moves call w (.error e) w₂
  | refused {β : Type} {call : Effect β} {w w₁ : World} (e : LedgerError) (moved : moves call w w₁) :
    Handles moves call w (.error e) w₁

end

/-- everything else may have changed -/
def Anything ⦃β : Type⦄ (_ : Effect β) (w w₁ : World) : Prop := w₁.adjustments = w.adjustments

/-- everything else may have changed, but not what is owed to a user about to be adjusted -/
def Undisturbed ⦃β : Type⦄ : Effect β → World → World → Prop
  | .reconcileOfflinePayUserBalance userId _ _, w, w₁ =>
    w₁.adjustments = w.adjustments ∧ liability w₁.db userId = liability w.db userId
  | _, w, w₁ => w₁.adjustments = w.adjustments

/-! ## what an adjustment does -/

section
variable {pg : PgServer} {collation : Collation String}

theorem liability_of_posted {s s' : Postgres.Db} {es : List Postgres.Entry}
    {legs : List (DoubleEntry.Posting Postgres.LedgerAccount ℤ)} (h : Postgres.Posted s s' es)
    (hlegs : es.flatMap Postgres.Entry.legs = DoubleEntry.mapAccounts Postgres.LedgerAccount.code legs)
    (v : String) : liability s' v = liability s v + (DoubleEntry.balance (.user v .available) legs +
      (DoubleEntry.balance (.user v .withdrawPending) legs +
        DoubleEntry.balance (.user v .offlinePayPending) legs)) := by
  have hbalance := h.balance hlegs
  unfold liability Postgres.Db.available Postgres.Db.withdrawPending Postgres.Db.offlinePayPending
  rw [hbalance, hbalance, hbalance]
  ring

/-- the journal of an adjustment moves one account of one user -/
theorem balance_adjustment (userId v : String) (b : Postgres.Bucket) (delta : ℤ) :
    DoubleEntry.balance (.user v b) (Postgres.reconciliationLegs (.user userId .available) delta) =
      if v = userId ∧ b = .available then delta else 0 := by
  rw [DoubleEntry.balance, Postgres.reconciliationLegs_net, DoubleEntry.net_move]
  by_cases h : v = userId ∧ b = .available
  · obtain ⟨rfl, rfl⟩ := h
    simp
  · have hne : ¬ Postgres.LedgerAccount.user userId .available = .user v b := fun he =>
      h ⟨(Postgres.LedgerAccount.user.inj he).1.symm, (Postgres.LedgerAccount.user.inj he).2.symm⟩
    simp [h, hne]

/-- an adjustment brings one user to the target, or changes nothing -/
theorem adjusts_to_target {input : Postgres.ReconcileInput} {s s' : Postgres.Db}
    {r : Except LedgerError Postgres.ReconcileResult}
    (h : Postgres.reconcileOfflinePayUserBalance pg input s = (r, s')) (v : String) :
    liability s' v = liability s v ∨ (v = input.userId ∧ liability s' v = input.target) := by
  cases r with
  | error e =>
    obtain ⟨n, rfl⟩ := Postgres.withTransaction_throws h
    exact Or.inl rfl
  | ok r =>
    obtain ⟨-, -, hquiet | ⟨delta, hdelta, hwrote⟩⟩ := Postgres.reconcileOfflinePayUserBalance_ok h
    · left
      rw [@liability_of_posted _ _ _ [] hquiet.posted rfl v]
      simp [DoubleEntry.balance]
    · have hafter := liability_of_posted hwrote.posted (List.flatMap_singleton _ _) v
      rw [balance_adjustment, balance_adjustment, balance_adjustment] at hafter
      by_cases hv : v = input.userId
      · subst hv
        right
        refine ⟨rfl, ?_⟩
        rw [hafter, hdelta]
        simp [liability]
      · left
        rw [hafter]
        simp [hv]

/-! ## the bounds of an adjustment -/

/-- nobody's balance moved, or the user's did, by what the options allow -/
def Adjustment.Bounded (opts : Options) (a : Adjustment) : Prop :=
  ∀ v, a.after v = a.before v ∨
    (v = a.userId ∧ opts.toleranceAmount < |a.target - a.before v| ∧
      |a.after v - a.before v| ≤ opts.maxAdjustmentAmount)

/-- the adjustments that were added are bounded -/
def Grows (opts : Options) (w w' : World) : Prop :=
  ∃ added, w'.adjustments = w.adjustments ++ added ∧ ∀ a ∈ added, a.Bounded opts

/-- every call but an adjustment -/
def Reads ⦃β : Type⦄ : Effect β → Prop
  | .reconcileOfflinePayUserBalance .. => False
  | _ => True

variable {opts : Options} {message : LedgerError → String} {bootstrapUserIds : List String} {userId : String}
  {w w' : World} {t : List (Answered Effect LedgerError)}

theorem grows_of_eq (h : w'.adjustments = w.adjustments) : Grows opts w w' := by
  refine ⟨[], ?_, nofun⟩
  rw [h, List.append_nil]

theorem Grows.refl (w : World) : Grows opts w w := grows_of_eq rfl

theorem Grows.trans {w₁ : World} (h : Grows opts w w₁) (h' : Grows opts w₁ w') : Grows opts w w' := by
  obtain ⟨first, hfirst, hbounded⟩ := h
  obtain ⟨second, hsecond, hbounded'⟩ := h'
  refine ⟨first ++ second, ?_, List.forall_mem_append.mpr ⟨hbounded, hbounded'⟩⟩
  rw [hsecond, hfirst, List.append_assoc]

theorem undisturbed_adjustments {β : Type} {call : Effect β} (h : Undisturbed call w w') :
    w'.adjustments = w.adjustments := by
  cases call with
  | reconcileOfflinePayUserBalance => exact h.1
  | _ => exact h

/-- calls that adjust nothing -/
theorem carried_adjustments {β : Type} {call : Effect β} {r : Except LedgerError β} (hcall : Reads call)
    (h : CarriesOut pg collation call w r w') : w'.adjustments = w.adjustments := by
  cases call with
  | reconcileOfflinePayUserBalance => exact hcall.elim
  | getOfflinePayUserBalanceSnapshot =>
    obtain ⟨p, -, -, rfl⟩ := h
    rfl
  | _ =>
    obtain ⟨-, rfl⟩ := h
    rfl

theorem handled_adjustments {β : Type} {call : Effect β} {r : Except LedgerError β} (hcall : Reads call)
    (h : Handles pg collation Undisturbed call w r w') : w'.adjustments = w.adjustments := by
  cases h with
  | done moved carried => exact (carried_adjustments hcall carried).trans (undisturbed_adjustments moved)
  | unanswered _ moved carried => exact (carried_adjustments hcall carried).trans (undisturbed_adjustments moved)
  | refused _ moved => exact undisturbed_adjustments moved

theorem reads_grow {α : Type} {p : Async α} {o : Except LedgerError α}
    (h : Runs (Handles pg collation Undisturbed) p w t o w') (hp : p.Only Reads) : Grows opts w w' :=
  h.keeps hp Grows.refl Grows.trans fun hcall handled => grows_of_eq (handled_adjustments hcall handled)

theorem only_perform {β : Type} {call : Effect β} (h : Reads call) : (perform call : Async β).Only Reads :=
  .perform h

theorem report_reads (userId : String) (verdict : Verdict) : (report opts userId verdict).Only Reads := by
  cases verdict with
  | withinTolerance | notAdjusted => exact .pure _
  | positiveDelta | exceedsMaxAdjustment | adjusted =>
    exact Program.Only.bind (only_perform (by exact trivial)) fun _ => only_perform (by exact trivial)

theorem fail_reads (userId : String) (e : LedgerError) (c : Counters) : (fail message userId e c).Only Reads :=
  Program.Only.bind (only_perform (by exact trivial)) fun _ =>
    Program.Only.bind (only_perform (by exact trivial)) fun _ => .pure _

theorem choose_reads (existing : List String) (limit : Nat) (candidates found : List String) :
    (chooseBootstrapUserIds existing limit candidates found).Only Reads := by
  induction candidates generalizing found with
  | nil => exact .pure _
  | cons candidate candidates ih =>
    unfold chooseBootstrapUserIds
    split
    · exact ih found
    · refine Program.Only.bind (only_perform (by exact trivial)) fun hasFootprint => ?_
      split
      · exact ih found
      · split
        · exact .pure _
        · exact ih _

/-- the repository's adjustment, when the user is owed what the service has read -/
theorem handled_reconcile {target : ℤ} {canonicalBasis : String}
    {r : Except LedgerError Postgres.ReconcileResult}
    (h : Handles pg collation Undisturbed (.reconcileOfflinePayUserBalance userId target canonicalBasis) w r w')
    (htolerance : opts.toleranceAmount < |target - liability w.db userId|)
    (hmax : |target - liability w.db userId| ≤ opts.maxAdjustmentAmount) : Grows opts w w' := by
  have hcarried : ∀ {w₁ : World} {r' : Except LedgerError Postgres.ReconcileResult},
      Undisturbed (.reconcileOfflinePayUserBalance userId target canonicalBasis) w w₁ →
      CarriesOut pg collation (.reconcileOfflinePayUserBalance userId target canonicalBasis) w₁ r' w' →
      Grows opts w w' := by
    rintro w₁ r' ⟨hsame, howed⟩ ⟨nowIso, db, hr, rfl⟩
    refine ⟨_, congrArg (· ++ _) hsame, fun a ha => ?_⟩
    rw [List.mem_singleton.mp ha]
    intro v
    rcases adjusts_to_target hr v with hkept | ⟨hv, hreached⟩
    · exact Or.inl hkept
    · right
      obtain rfl : v = userId := hv
      have hafter : liability db v = target := hreached
      refine ⟨rfl, ?_, ?_⟩
      · show opts.toleranceAmount < |target - liability w₁.db v|
        rwa [howed]
      · show |liability db v - liability w₁.db v| ≤ opts.maxAdjustmentAmount
        rwa [hafter, howed]
  cases h with
  | done moved carried => exact hcarried moved carried
  | unanswered _ moved carried => exact hcarried moved carried
  | refused _ moved => exact grows_of_eq (undisturbed_adjustments moved)

/-- what the balance call answers is what is owed then -/
theorem handled_balance {moves : ∀ ⦃β : Type⦄, Effect β → World → World → Prop} {b : UserBalanceSnapshot}
    (h : Handles pg collation moves (.getOfflinePayUserBalanceSnapshot userId) w (.ok b) w') :
    b.liabilityBalance = liability w'.db userId := by
  cases h with
  | done moved carried =>
    obtain ⟨p, hp, hb, rfl⟩ := carried
    obtain ⟨p', hp', hbalance, hlocked, -⟩ := Postgres.projected_apply pg userId w'.db
    rw [hp] at hp'
    obtain rfl : p = p' := Except.ok.inj (Prod.mk.inj hp').1
    rw [Except.ok.inj hb]
    show p.balance + p.lockedBalance = _
    rw [hbalance, hlocked]
    rfl

theorem abs_eq_ite (x : ℤ) : (if x < 0 then -x else x) = |x| := by
  split
  · next h => rw [abs_of_neg h]
  · next h => rw [abs_of_nonneg (not_lt.mp h)]

theorem examine_grows {o : Except LedgerError Verdict}
    (h : Runs (Handles pg collation Undisturbed) (examine opts bootstrapUserIds userId) w t o w') :
    Grows opts w w' := by
  rcases runs_perform_bind.mp h with ⟨e, -, handled, -⟩ | ⟨snapshot, w₁, t₁, handled, h₁, -⟩
  · exact grows_of_eq (handled_adjustments (by exact trivial) handled)
  · have hone : Grows opts w w₁ := grows_of_eq (handled_adjustments (by exact trivial) handled)
    rcases runs_perform_bind.mp h₁ with ⟨e, -, handled, -⟩ | ⟨current, w₂, t₂, read, h₂, -⟩
    · exact hone.trans (grows_of_eq (handled_adjustments (by exact trivial) handled))
    · have htwo : Grows opts w w₂ := hone.trans (grows_of_eq (handled_adjustments (by exact trivial) read))
      have howed := handled_balance read
      refine htwo.trans ?_
      cases hparse : parseStoredKoriAmount snapshot.totalBalance with
      | error e =>
        rw [hparse] at h₂
        exact reads_grow h₂ (.throw e)
      | ok target =>
        rw [hparse] at h₂
        dsimp only at h₂
        rw [abs_eq_ite, howed] at h₂
        split at h₂
        · exact reads_grow h₂ (.pure _)
        · next htolerance =>
          split at h₂
          · exact reads_grow h₂ (.pure _)
          · split at h₂
            · exact reads_grow h₂ (.pure _)
            · next hmax =>
              have hcall : ∀ {o : Except LedgerError AdjustmentResult} {t : List (Answered Effect LedgerError)}
                  {w' : World}, Runs (Handles pg collation Undisturbed) (reconcileOfflinePayUserBalance userId
                    snapshot.totalBalance snapshot.canonicalBasis (note snapshot)) w₂ t o w' →
                  Grows opts w₂ w' := by
                intro o t w' h
                unfold reconcileOfflinePayUserBalance at h
                rw [hparse] at h
                rcases runs_perform_bind.mp h with ⟨e, -, handled, -⟩ | ⟨result, w₃, t₃, handled, h₃, -⟩
                · exact handled_reconcile handled (not_le.mp htolerance) (not_lt.mp hmax)
                · refine (handled_reconcile handled (not_le.mp htolerance) (not_lt.mp hmax)).trans ?_
                  exact reads_grow h₃
                    (Program.Only.bind (only_perform (by exact trivial)) fun _ => .pure _)
              rcases runs_bind.mp h₂ with ⟨e, hrun, -⟩ | ⟨result, w₃, t₃, t₄, hrun, hrest, -⟩
              · exact hcall hrun
              · refine (hcall hrun).trans ?_
                split at hrest
                · exact reads_grow hrest (.pure _)
                · exact reads_grow hrest (.pure _)

theorem checkUser_grows {c : Counters} {o : Except LedgerError Counters}
    (h : Runs (Handles pg collation Undisturbed) (checkUser opts message bootstrapUserIds userId c) w t o w') :
    Grows opts w w' := by
  rcases runs_bind.mp h with ⟨e, hexamine, -⟩ | ⟨r, w₁, t₁, t₂, hexamine, h₁, -⟩
  · obtain ⟨r, hr, -⟩ := runs_attempt.mp hexamine
    cases hr
  · obtain ⟨r', hr, hrun⟩ := runs_attempt.mp hexamine
    refine (examine_grows hrun).trans ?_
    cases r with
    | error e => exact reads_grow h₁ (fail_reads _ _ _)
    | ok verdict =>
      refine reads_grow h₁ ((report_reads userId verdict).attempt.bind fun r => ?_)
      cases r with
      | error e => exact fail_reads _ _ _
      | ok _ => exact .pure _

theorem checkUsers_grows {userIds : List String} {c : Counters} {o : Except LedgerError Counters}
    (h : Runs (Handles pg collation Undisturbed) (checkUsers opts message bootstrapUserIds userIds c) w t o w') :
    Grows opts w w' := by
  induction userIds generalizing c w t with
  | nil => exact reads_grow h (.pure _)
  | cons userId userIds ih =>
    rcases runs_bind.mp h with ⟨e, hone, -⟩ | ⟨c', w₁, t₁, t₂, hone, hrest, -⟩
    · exact checkUser_grows hone
    · exact (checkUser_grows hone).trans (ih hrest)

/-- nobody's balance moves but by what the options allow, when nothing else moves it in between -/
theorem runCycle_bounded {limit : Nat} {o : Except LedgerError Counters}
    (h : Runs (Handles pg collation Undisturbed) (runCycle opts message limit) w t o w') : Grows opts w w' := by
  rcases runs_perform_bind.mp h with ⟨e, -, handled, -⟩ | ⟨existing, w₁, t₁, handled, h₁, -⟩
  · exact grows_of_eq (handled_adjustments (by exact trivial) handled)
  · have hone : Grows opts w w₁ := grows_of_eq (handled_adjustments (by exact trivial) handled)
    refine hone.trans ?_
    rcases runs_perform_bind.mp h₁ with ⟨e, -, handled, -⟩ | ⟨candidates, w₂, t₂, handled, h₂, -⟩
    · exact grows_of_eq (handled_adjustments (by exact trivial) handled)
    · have htwo : Grows opts w₁ w₂ := grows_of_eq (handled_adjustments (by exact trivial) handled)
      refine htwo.trans ?_
      rcases runs_bind.mp h₂ with ⟨e, hchoose, -⟩ | ⟨chosen, w₃, t₃, t₄, hchoose, h₃, -⟩
      · exact reads_grow hchoose (choose_reads _ _ _ _)
      · exact (reads_grow hchoose (choose_reads _ _ _ _)).trans (checkUsers_grows h₃)

end

/-! ## the counters -/

/-- the calls after a counter has moved, in the same `try` -/
def reports ⦃β : Type⦄ : Effect β → Bool
  | .appendAuditLog log => log.actorType = "system" ∧ log.action ≠ "offline_pay.user_balance.reconcile.failed"
  | .publish type _ => type ≠ "offline_pay.ledger_reconciliation.failed"
  | _ => false

/-- a report that was not answered -/
def lost (c : Answered Effect LedgerError) : Bool := reports c.call && !c.answer.isOk

def Silent ⦃β : Type⦄ (call : Effect β) : Prop := reports call = false

theorem reports_log (userId action actorType : String) (metadata : List (String × String)) :
    reports (.appendAuditLog (auditLog userId action actorType metadata)) =
      decide (actorType = "system" ∧ action ≠ "offline_pay.user_balance.reconcile.failed") := rfl

theorem reports_publish (type : String) (payload : List (String × String)) :
    reports (.publish type payload) = decide (type ≠ "offline_pay.ledger_reconciliation.failed") := rfl

def Counters.sum (c : Counters) : Nat := c.adjustedCount + c.skippedCount + c.failedCount

section
variable {handles : ∀ ⦃β : Type⦄, Effect β → World → Except LedgerError β → World → Prop}
  {opts : Options} {message : LedgerError → String} {bootstrapUserIds : List String} {userId : String}
  {w w' : World} {t : List (Answered Effect LedgerError)}

theorem silent_lost {α : Type} {p : Async α} {o : Except LedgerError α} (h : Runs handles p w t o w')
    (hp : p.Only Silent) : t.countP lost = 0 := by
  rw [List.countP_eq_zero]
  intro c hc
  have hsilent : reports c.call = false := h.only hp c hc
  simp [lost, hsilent]

theorem reconcile_silent (target canonicalBasis note : String) :
    (reconcileOfflinePayUserBalance userId target canonicalBasis note).Only Silent := by
  unfold reconcileOfflinePayUserBalance
  cases parseStoredKoriAmount target with
  | error e => exact .throw e
  | ok target =>
    refine Program.Only.bind (.pure target) fun target => Program.Only.bind (.perform rfl) fun result =>
      Program.Only.bind (.perform ?_) fun _ => .pure _
    exact (reports_log _ _ _ _).trans (by decide)

theorem examine_silent : (examine opts bootstrapUserIds userId).Only Silent := by
  refine Program.Only.bind (.perform rfl) fun snapshot => Program.Only.bind (.perform rfl) fun current => ?_
  cases parseStoredKoriAmount snapshot.totalBalance with
  | error e => exact .throw e
  | ok target =>
    dsimp only
    rw [abs_eq_ite]
    split
    · exact .pure _
    · split
      · exact .pure _
      · split
        · exact .pure _
        · apply Program.Only.bind (reconcile_silent _ _ _)
          intro result
          split
          · exact .pure _
          · exact .pure _

theorem fail_silent (e : LedgerError) (c : Counters) : (fail message userId e c).Only Silent :=
  Program.Only.bind (.perform ((reports_log _ _ _ _).trans (by decide))) fun _ =>
    Program.Only.bind (.perform ((reports_publish _ _).trans (by decide))) fun _ => .pure _

theorem fail_counts {e : LedgerError} {c c' : Counters}
    (h : Runs handles (fail message userId e c) w t (.ok c') w') :
    c' = { c with failedCount := c.failedCount + 1 } ∧ t.countP lost = 0 := by
  refine ⟨?_, silent_lost h (fail_silent e c)⟩
  rcases runs_perform_bind.mp h with ⟨e, -, -, he⟩ | ⟨_, w₁, t₁, -, h₁, -⟩
  · cases he
  · rcases runs_perform_bind.mp h₁ with ⟨e, -, -, he⟩ | ⟨_, w₂, t₂, -, h₂, -⟩
    · cases he
    · obtain ⟨-, hc, -⟩ := runs_pure.mp h₂
      exact Except.ok.inj hc

/-- the reports of a user: the first that is lost is the last -/
theorem report_lost {verdict : Verdict} {o : Except LedgerError Unit}
    (h : Runs handles (report opts userId verdict) w t o w') :
    t.countP lost = if o.isOk then 0 else 1 := by
  have htwo : ∀ {log : AuditLog} {type : String} {payload : List (String × String)},
      reports (.appendAuditLog log) = true → reports (.publish type payload) = true →
      Runs handles (do perform (.appendAuditLog log); perform (.publish type payload)) w t o w' →
      t.countP lost = if o.isOk then 0 else 1 := by
    intro log type payload hlog htype h
    rcases runs_perform_bind.mp h with ⟨e, rfl, -, rfl⟩ | ⟨_, w₁, t₁, -, h₁, rfl⟩
    · simp [lost, hlog, Except.isOk, Except.toBool]
    · obtain ⟨rfl, -⟩ := runs_perform.mp h₁
      cases o <;> simp [lost, hlog, htype, Except.isOk, Except.toBool]
  cases verdict with
  | withinTolerance | notAdjusted =>
    obtain ⟨rfl, rfl, rfl⟩ := runs_pure.mp h
    rfl
  | positiveDelta | exceedsMaxAdjustment | adjusted =>
    exact htwo ((reports_log _ _ _ _).trans (by decide)) ((reports_publish _ _).trans (by decide)) h

theorem count_sum (c : Counters) (verdict : Verdict) :
    (c.count verdict).sum = c.sum + 1 ∧ (c.count verdict).checkedCount = c.checkedCount := by
  cases verdict <;> simp only [Counters.count, Counters.sum, and_true] <;> omega

/-- a user is counted once, and once more when a report is lost -/
theorem checkUser_counts {c c' : Counters}
    (h : Runs handles (checkUser opts message bootstrapUserIds userId c) w t (.ok c') w') :
    c'.sum = c.sum + 1 + t.countP lost ∧ c'.checkedCount = c.checkedCount + 1 := by
  rcases runs_bind.mp h with ⟨e, -, he⟩ | ⟨r, w₁, t₁, t₂, hexamine, h₁, rfl⟩
  · cases he
  obtain ⟨r', hr, hexamined⟩ := runs_attempt.mp hexamine
  have hnone : t₁.countP lost = 0 := silent_lost hexamined examine_silent
  rw [List.countP_append, hnone]
  cases r with
  | error e =>
    obtain ⟨rfl, hlost⟩ := fail_counts h₁
    rw [hlost]
    refine ⟨?_, rfl⟩
    simp only [Counters.sum]
    omega
  | ok verdict =>
    obtain ⟨hsum, hchecked⟩ := count_sum { c with checkedCount := c.checkedCount + 1 } verdict
    rcases runs_bind.mp h₁ with ⟨e, -, he⟩ | ⟨r, w₂, t₃, t₄, hreport, h₂, rfl⟩
    · cases he
    obtain ⟨r', hr', hreported⟩ := runs_attempt.mp hreport
    obtain rfl := Except.ok.inj hr'
    have hlost := report_lost hreported
    rw [List.countP_append, hlost]
    cases r with
    | error e =>
      obtain ⟨rfl, hlost'⟩ := fail_counts h₂
      rw [hlost']
      simp only [Counters.sum] at hsum ⊢
      simp only [Except.isOk, Except.toBool]
      grind
    | ok _ =>
      obtain ⟨rfl, hc, -⟩ := runs_pure.mp h₂
      obtain rfl := Except.ok.inj hc
      refine ⟨?_, hchecked⟩
      rw [hsum]
      rfl

theorem checkUsers_counts {userIds : List String} {c c' : Counters}
    (h : Runs handles (checkUsers opts message bootstrapUserIds userIds c) w t (.ok c') w') :
    c'.sum + c.checkedCount = c.sum + c'.checkedCount + t.countP lost := by
  induction userIds generalizing c w t with
  | nil =>
    obtain ⟨rfl, hc, -⟩ := runs_pure.mp h
    obtain rfl := Except.ok.inj hc
    rfl
  | cons userId userIds ih =>
    rcases runs_bind.mp h with ⟨e, -, he⟩ | ⟨c₁, w₁, t₁, t₂, hone, hrest, rfl⟩
    · cases he
    · obtain ⟨hsum, hchecked⟩ := checkUser_counts hone
      have hothers := ih hrest
      rw [List.countP_append]
      omega

theorem choose_silent (existing : List String) (limit : Nat) (candidates found : List String) :
    (chooseBootstrapUserIds existing limit candidates found).Only Silent := by
  induction candidates generalizing found with
  | nil => exact .pure _
  | cons candidate candidates ih =>
    unfold chooseBootstrapUserIds
    split
    · exact ih found
    · refine Program.Only.bind (.perform rfl) fun hasFootprint => ?_
      split
      · exact ih found
      · split
        · exact .pure _
        · exact ih _

/-- the counters are ahead of the users by the reports that were lost -/
theorem runCycle_counts {limit : Nat} {c : Counters}
    (h : Runs handles (runCycle opts message limit) w t (.ok c) w') :
    c.sum = c.checkedCount + t.countP lost := by
  rcases runs_perform_bind.mp h with ⟨e, -, -, he⟩ | ⟨existing, w₁, t₁, -, h₁, rfl⟩
  · cases he
  rcases runs_perform_bind.mp h₁ with ⟨e, -, -, he⟩ | ⟨candidates, w₂, t₂, -, h₂, rfl⟩
  · cases he
  rcases runs_bind.mp h₂ with ⟨e, -, he⟩ | ⟨chosen, w₃, t₃, t₄, hchoose, h₃, rfl⟩
  · cases he
  have hcounts := checkUsers_counts h₃
  have hsilent : t₃.countP lost = 0 := silent_lost hchoose (choose_silent _ _ _ _)
  rw [List.countP_cons, List.countP_cons, List.countP_append, hsilent]
  simp only [Counters.sum, lost, reports] at hcounts ⊢
  simpa using hcounts

end

/-- **Bounded adjustments.**  When nothing moves what is owed to a user between the balance that is read
and the adjustment, a cycle, however it ends, moves nobody's balance by more than the maximum and nobody's
that is within tolerance; and the counters of a cycle add up exactly when every report was answered. -/
theorem bounded_adjustments (pg : PgServer) (collation : Collation String) (opts : Options)
    (message : LedgerError → String) (limit : Nat) :
    (∀ w t o w', Runs (Handles pg collation Undisturbed) (runCycle opts message limit) w t o w' →
      ∃ added, w'.adjustments = w.adjustments ++ added ∧ ∀ a ∈ added, a.Bounded opts) ∧
    ∀ w t c w', Runs (Handles pg collation Anything) (runCycle opts message limit) w t (.ok c) w' →
      (c.adjustedCount + c.skippedCount + c.failedCount = c.checkedCount ↔
        ∀ a ∈ t, reports a.call → a.answer.isOk) := by
  refine ⟨fun w t o w' h => runCycle_bounded h, fun w t c w' h => ?_⟩
  have hsum : c.adjustedCount + c.skippedCount + c.failedCount = c.checkedCount + t.countP lost :=
    runCycle_counts h
  have hnone : t.countP lost = 0 ↔ ∀ a ∈ t, reports a.call → a.answer.isOk := by
    rw [List.countP_eq_zero]
    simp [lost]
  rw [hsum, ← hnone]
  omega

/-! ## a deposit in between -/

/-- a call that is carried out -/
def carryOut (pg : PgServer) (collation : Collation String) (nowIso : String) {β : Type} :
    Effect β → Method World LedgerError β
  | .listOfflinePayReconciliationUserIds limit => fun w => (.ok (listUserIds collation limit w.db), w)
  | .listUserIdsWithPositiveCanonicalBalance currencyCode limit => fun w =>
    (.ok (w.wallets.positive currencyCode limit), w)
  | .hasOfflinePayLedgerFootprint userId => fun w =>
    (.ok (Postgres.hasOfflinePayLedgerFootprintIn w.db userId), w)
  | .getCanonicalWalletSnapshot userId currencyCode => fun w => (.ok (w.wallets.snapshot userId currencyCode), w)
  | .getOfflinePayUserBalanceSnapshot userId => fun w =>
    ((Postgres.getProjectedUserBalances pg userId w.db).1.map fun p =>
      ⟨userId, p.balance, p.lockedBalance, p.balance + p.lockedBalance, p.hasPostings⟩, w)
  | .reconcileOfflinePayUserBalance userId target canonicalBasis => fun w =>
    ((Postgres.reconcileOfflinePayUserBalance pg ⟨userId, target, canonicalBasis, nowIso⟩ w.db).1,
      { w with
        db := (Postgres.reconcileOfflinePayUserBalance pg ⟨userId, target, canonicalBasis, nowIso⟩ w.db).2
        adjustments := w.adjustments ++ [⟨userId, target, liability w.db, liability
          (Postgres.reconcileOfflinePayUserBalance pg ⟨userId, target, canonicalBasis, nowIso⟩ w.db).2⟩] })
  | .appendAuditLog _ => fun w => (.ok (), w)
  | .publish _ _ => fun w => (.ok (), w)

theorem carryOut_carries (pg : PgServer) (collation : Collation String) (nowIso : String) {β : Type}
    (call : Effect β) (w : World) : CarriesOut pg collation call w (carryOut pg collation nowIso call w).1
      (carryOut pg collation nowIso call w).2 := by
  cases call with
  | getOfflinePayUserBalanceSnapshot userId =>
    obtain ⟨p, hp, -⟩ := Postgres.projected_apply pg userId w.db
    exact ⟨p, hp, by simp only [carryOut, hp, Except.map], rfl⟩
  | reconcileOfflinePayUserBalance => exact ⟨nowIso, _, rfl, rfl⟩
  | _ => simp only [CarriesOut, carryOut, and_self]

def exampleOptions : Options := ⟨"KORI", 0, 2000000⟩

def exampleCollation : Collation String where
  le a b := decide (a ≤ b)
  trans a b c hab hbc := decide_eq_true (String.le_trans (of_decide_eq_true hab) (of_decide_eq_true hbc))
  total a b := by
    rcases String.le_total a b with h | h
    · simp [h]
    · simp [h]

/-- a deposit of 5 for alice -/
def deposited (txHash nowIso : String) : Postgres.Db → Postgres.Db :=
  Postgres.Call.step .numbered ⟨10000000, 10000000⟩ (.applyDeposit
    { userId := "alice", amount := 5000000, txHash := txHash, toAddress := some "TAlice"
      walletAddress := none, blockNumber := 7, nowIso := nowIso })

/-- alice is owed 5, and her wallet holds 4 -/
def exampleWorld : World where
  db := deposited "0xabc12345" "2026-01-01T00:00:00.000Z" .empty
  wallets := ⟨fun userId currencyCode => ⟨userId, currencyCode, "4.000000", "0.000000", 1,
    "FOX_CLIENT_VISIBLE_TOTAL_KORI"⟩, fun _ _ => []⟩
  adjustments := []

/-- another deposit lands before an adjustment -/
def depositLands {β : Type} : Effect β → World → World
  | .reconcileOfflinePayUserBalance .., w =>
    { w with db := deposited "0xabc12346" "2026-01-01T00:00:01.000Z" w.db }
  | _, w => w

/-- the audit log refuses what a cycle reports -/
def reportsRefused {β : Type} (call : Effect β) : Method World LedgerError β := fun w =>
  if reports call then (.error (.database "08006"), w)
  else carryOut .numbered exampleCollation "2026-01-01T00:00:02.000Z" call w

def exampleCycle : Async Counters := runCycle exampleOptions (fun _ => "refused") 10

/-- a cycle all of whose calls are carried out, and nothing else happens -/
theorem bounded_adjustments_example :
    ∃ w' : World, w'.adjustments.map (fun a => (a.before "alice", a.after "alice")) = [(5000000, 4000000)] ∧
      ∀ a ∈ w'.adjustments, a.Bounded exampleOptions := by
  let op : ∀ {β : Type}, Effect β → Method World LedgerError β := fun call =>
    carryOut .numbered exampleCollation "2026-01-01T00:00:02.000Z" call
  have hop : ∀ {β : Type} (call : Effect β) (w : World),
      Handles .numbered exampleCollation Undisturbed call w (op call w).1 (op call w).2 := fun call w =>
    .done (by cases call <;> first | rfl | exact ⟨rfl, rfl⟩) (carryOut_carries _ _ _ call w)
  obtain ⟨t, ht⟩ := exampleCycle.run_runs hop exampleWorld
  obtain ⟨added, hadded, hbounded⟩ :=
    (bounded_adjustments .numbered exampleCollation exampleOptions (fun _ => "refused") 10).1 _ _ _ _ ht
  refine ⟨(exampleCycle.run op exampleWorld).2, by decide +kernel, fun a ha => ?_⟩
  rw [hadded] at ha
  exact hbounded a ha

/-- **A deposit in between.**  Alice is owed 5 when her balance is read and 10 when it is adjusted to 4, with
a maximum of 2; and a cycle that checks her alone counts her twice when a report is refused. -/
theorem wiped_deposit :
    (∃ t o w', Runs (Handles .numbered exampleCollation Anything) exampleCycle exampleWorld t o w' ∧
      ∃ a ∈ w'.adjustments, a.before "alice" = 10000000 ∧ a.after "alice" = 4000000 ∧
        ¬ a.Bounded exampleOptions) ∧
    ∃ t c w', Runs (Handles .numbered exampleCollation Anything) exampleCycle exampleWorld t (.ok c) w' ∧
      c.checkedCount = 1 ∧ c.adjustedCount + c.skippedCount + c.failedCount = 2 := by
  constructor
  · let op : ∀ {β : Type}, Effect β → Method World LedgerError β := fun call w =>
      carryOut .numbered exampleCollation "2026-01-01T00:00:02.000Z" call (depositLands call w)
    have hop : ∀ {β : Type} (call : Effect β) (w : World),
        Handles .numbered exampleCollation Anything call w (op call w).1 (op call w).2 := fun call w =>
      .done (by cases call <;> rfl) (carryOut_carries _ _ _ call (depositLands call w))
    obtain ⟨t, ht⟩ := exampleCycle.run_runs hop exampleWorld
    have hmoved : (exampleCycle.run op exampleWorld).2.adjustments.map (fun a =>
        (a.before "alice", a.after "alice")) = [(10000000, 4000000)] := by
      decide +kernel
    have hmem : ((10000000 : ℤ), (4000000 : ℤ)) ∈ (exampleCycle.run op exampleWorld).2.adjustments.map
        fun a => (a.before "alice", a.after "alice") := by
      rw [hmoved]
      exact List.mem_singleton_self _
    obtain ⟨a, ha, hpair⟩ := List.mem_map.mp hmem
    obtain ⟨hbefore, hafter⟩ := Prod.mk.inj hpair
    refine ⟨t, _, _, ht, a, ha, hbefore, hafter, fun hbounded => ?_⟩
    have halice := hbounded "alice"
    rw [hbefore, hafter] at halice
    rcases halice with hsame | ⟨-, -, hmax⟩
    · exact absurd hsame (by decide)
    · exact absurd hmax (by decide)
  · let op : ∀ {β : Type}, Effect β → Method World LedgerError β := fun call => reportsRefused call
    have hop : ∀ {β : Type} (call : Effect β) (w : World),
        Handles .numbered exampleCollation Anything call w (op call w).1 (op call w).2 := by
      intro β call w
      show Handles .numbered exampleCollation Anything call w (reportsRefused call w).1 (reportsRefused call w).2
      unfold reportsRefused
      split
      · exact .refused _ rfl
      · exact .done rfl (carryOut_carries _ _ _ _ _)
    obtain ⟨t, ht⟩ := exampleCycle.run_runs hop exampleWorld
    have hcounted : (exampleCycle.run op exampleWorld).1.toOption.map (fun c =>
        (c.checkedCount, c.adjustedCount + c.skippedCount + c.failedCount)) = some (1, 2) := by
      decide +kernel
    cases hc : (exampleCycle.run op exampleWorld).1 with
    | error e =>
      rw [hc] at hcounted
      cases hcounted
    | ok c =>
      rw [hc] at ht hcounted
      obtain ⟨hchecked, hsum⟩ := Prod.mk.inj (Option.some.inj hcounted)
      exact ⟨t, c, _, ht, hchecked, hsum⟩

end OfflinePayLedgerReconciliationService
