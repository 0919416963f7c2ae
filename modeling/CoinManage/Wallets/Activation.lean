import CoinManage.Alerts.Service
import CoinManage.Wallets.Links

/-!
# Activation grants and their reclaims

A grant cycle sends every wallet that waits for it some TRX and marks it; a reclaim cycle takes the TRX back from
the wallets that have it.  Calls of the chain and of the repository may fail, or be carried out while their answer
is lost; what the notifier fails to deliver the alert service keeps to itself.

* `grantOne`, `reclaimOne`       the body of the loops, one wallet;
* `ActivationStep`               a cycle of either service, and how its calls end;
* `grantOne_round`, `reclaimOne_round`   what a wallet's turn does, however it ends;
* `PaidOnce`                     what every step keeps;
* `activation_cycles`            every wallet is attempted and no wallet is paid twice, unless a call outside the
                                 handler of its wallet fails.
-/

namespace ActivationService
open Method InMemoryVirtualWalletRepository

/-! ## the source -/

structure NativeTransfer where
  toAddress : String
  amount : ℤ
  network : TronNetwork
  fromAddress : Option String := none
  fromPrivateKey : Option String := none
  deriving DecidableEq, Repr

structure AccountResources where
  bandwidthLimit : ℤ
  bandwidthUsed : ℤ
  trxBalanceSun : ℤ
  deriving DecidableEq, Repr

/-- a call of the TRON gateway -/
inductive GatewayRequest where
  | broadcastNativeTransfer (transfer : NativeTransfer)
  | getAccountResources (address : String) (network : TronNetwork)
  deriving DecidableEq, Repr

structure WalletSync where
  userId : String
  currencyId : Nat
  network : TronNetwork
  address : String
  verified : Bool
  deriving DecidableEq, Repr

/-- the repository, the chain with what was asked of it, the sync client and the alert service -/
structure ActivationWorld where
  repository : InMemoryVirtualWalletRepository
  transfers : List NativeTransfer
  requests : List GatewayRequest
  syncs : List WalletSync
  alerts : AlertService

abbrev Op (α : Type) := Method ActivationWorld LedgerError α

/-- how a call ends, and the error its caller gets if it does not end well -/
structure Fate where
  outcome : Outcome
  error : LedgerError

def Fate.of {α : Type} (f : Fate) (op : Op α) : Op α := f.outcome.of f.error op

def onRepository {α : Type} (op : InMemoryVirtualWalletRepository.Op α) : Op α :=
  Method.zoom (·.repository) (fun repository w => { w with repository := repository }) op

def broadcastNativeTransfer (f : Fate) (txHash : String) (transfer : NativeTransfer) : Op String := do
  modify fun w => { w with requests := w.requests ++ [.broadcastNativeTransfer transfer] }
  f.of do
    modify fun w => { w with transfers := w.transfers ++ [transfer] }
    return txHash

def getAccountResources (f : Fate) (resources : AccountResources) (address : String) (network : TronNetwork) :
    Op AccountResources := do
  modify fun w => { w with requests := w.requests ++ [.getAccountResources address network] }
  f.of (return resources)

/-- an alert, as the notifier takes it: a failure of the notifier is not passed on -/
def deliver (o : Outcome) (nowMs : ℤ) (input : SendInput) (a : AlertService) : AlertService :=
  match o with
  | .answered => AlertService.send nowMs input a
  | .refused => a
  | .lost => { a with delivered := (AlertService.send nowMs input a).delivered }

def notify (o : Outcome) (nowMs : ℤ) (input : SendInput) : Op Unit :=
  modify fun w => { w with alerts := deliver o nowMs input w.alerts }

def activationGrantFailure (userId walletAddress message : String) : SendInput where
  title := "[KORION] Activation Grant Failed"
  body := "\n".intercalate ["userId=" ++ userId, "walletAddress=" ++ walletAddress, "error=" ++ message]
  dedupeKey := some ("activation-grant-failed:" ++ userId ++ ":" ++ walletAddress ++ ":" ++ message)

def activationReclaimWaiting (userId walletAddress : String)
    (availableBandwidth trxBalanceSun requiredBandwidth requiredTrxSun : ℤ) : SendInput where
  title := "[KORION] Activation Reclaim Waiting"
  body := "\n".intercalate ["userId=" ++ userId, "walletAddress=" ++ walletAddress,
    "availableBandwidth=" ++ toString availableBandwidth, "trxBalanceSun=" ++ toString trxBalanceSun,
    "requiredBandwidth=" ++ toString requiredBandwidth, "requiredTrxSun=" ++ toString requiredTrxSun]
  dedupeKey := some ("activation-reclaim-waiting:" ++ userId ++ ":" ++ walletAddress)

def activationReclaimFailure (userId walletAddress message : String) : SendInput where
  title := "[KORION] Activation Reclaim Failed"
  body := "\n".intercalate ["userId=" ++ userId, "walletAddress=" ++ walletAddress, "error=" ++ message]
  dedupeKey := some ("activation-reclaim-failed:" ++ userId ++ ":" ++ walletAddress ++ ":" ++ message)

/-! ## the grant cycle -/

/-- how the calls for one wallet end -/
structure GrantFates where
  transfer : Fate
  txHash : String
  markGranted : Fate
  markFailed : Fate
  alert : Outcome

/-- A cycle: the options, with the amount in SUN; the clock; how errors read; and how the calls end. -/
structure GrantCycle where
  enabled : Bool
  cycleLimit : Nat
  amountSun : ℤ
  syncClient : Bool
  now : String
  nowMs : ℤ
  messageOf : LedgerError → String
  list : Fate
  fates : VirtualWalletBinding → GrantFates

def GrantCycle.transfer (c : GrantCycle) (binding : VirtualWalletBinding) : NativeTransfer where
  toAddress := binding.walletAddress
  amount := c.amountSun
  network := binding.network

/-- the sync is not waited for -/
def requestSync (c : GrantCycle) (binding : VirtualWalletBinding) : Op Unit :=
  if c.syncClient then
    modify fun w =>
      { w with
        syncs := w.syncs ++ [{
          userId := binding.userId
          currencyId := binding.currencyId
          network := binding.network
          address := binding.walletAddress
          verified := true }] }
  else pure ()

/-- the body of the `try` block -/
def grant (c : GrantCycle) (binding : VirtualWalletBinding) : Op Bool := do
  let txHash ← broadcastNativeTransfer (c.fates binding).transfer (c.fates binding).txHash (c.transfer binding)
  (c.fates binding).markGranted.of
    (onRepository (mark binding.virtualWalletId (.activationGranted (some txHash) c.now)))
  requestSync c binding
  return true

/-- the body of the `catch` block -/
def grantFailed (c : GrantCycle) (binding : VirtualWalletBinding) (error : LedgerError) : Op Bool := do
  (c.fates binding).markFailed.of
    (onRepository (mark binding.virtualWalletId (.activationFailed (c.messageOf error))))
  notify (c.fates binding).alert c.nowMs
    (activationGrantFailure binding.userId binding.walletAddress (c.messageOf error))
  return false

/-- one wallet; whether it was granted -/
def grantOne (c : GrantCycle) (binding : VirtualWalletBinding) : Op Bool :=
  tryCatch (grant c binding) (grantFailed c binding)

structure GrantResult where
  granted : List String
  failed : List String
  deriving DecidableEq, Repr

section
variable (rt : Runtime)

def GrantCycle.bindings (c : GrantCycle) (w : ActivationWorld) : List VirtualWalletBinding :=
  w.repository.listVirtualWalletsByActivationStatus rt .pending_trx_grant c.cycleLimit

/-- `ActivationGrantService.runCycle` -/
def runGrantCycle (c : GrantCycle) : Op (Option GrantResult) :=
  if c.enabled then do
    let w ← get
    let bindings ← c.list.of (return c.bindings rt w)
    let done ← each (grantOne c) bindings
    let ids := (bindings.map (·.virtualWalletId)).zip done
    return some
      { granted := (ids.filter (·.2)).map (·.1)
        failed := (ids.filter fun entry => !entry.2).map (·.1) }
  else return none

/-! ## the reclaim cycle -/

end

structure ReclaimFates where
  resources : Fate
  answer : AccountResources
  waitingAlert : Outcome
  signer : Fate
  markPending : Fate
  transfer : Fate
  txHash : String
  markReclaimed : Fate
  markFailed : Fate
  alert : Outcome

structure ReclaimCycle where
  enabled : Bool
  cycleLimit : Nat
  amountSun : ℤ
  minAvailableBandwidth : ℤ
  now : String
  nowMs : ℤ
  messageOf : LedgerError → String
  list : Fate
  fates : VirtualWalletBinding → ReclaimFates

def ReclaimCycle.transfer (c : ReclaimCycle) (binding : VirtualWalletBinding) (signer : FoxyaWalletSigner) :
    NativeTransfer where
  toAddress := binding.sweepTargetAddress
  amount := c.amountSun
  network := binding.network
  fromAddress := some signer.address
  fromPrivateKey := some signer.privateKey

def availableBandwidth (resources : AccountResources) : ℤ :=
  max 0 (resources.bandwidthLimit - resources.bandwidthUsed)

inductive ReclaimOutcome where
  | reclaimed
  | waiting
  | failed
  deriving DecidableEq, Repr

/-- the signer, with a private key -/
def requireSigner (f : Fate) (binding : VirtualWalletBinding) : Op FoxyaWalletSigner := do
  let w ← get
  let signer ← f.of (pure
    (w.repository.getWalletSignerByAddress binding.walletAddress binding.currencyId binding.network))
  match signer with
  | some signer =>
    if signer.privateKey = "" then
      throw (.domain 500 "VIRTUAL_WALLET_SIGNER_NOT_FOUND"
        "virtual wallet signer is required for activation reclaim")
    else return signer
  | none =>
    throw (.domain 500 "VIRTUAL_WALLET_SIGNER_NOT_FOUND" "virtual wallet signer is required for activation reclaim")

/-- the body of the `try` block -/
def reclaim (c : ReclaimCycle) (binding : VirtualWalletBinding) : Op ReclaimOutcome := do
  let signer ← requireSigner (c.fates binding).signer binding
  (c.fates binding).markPending.of (onRepository (mark binding.virtualWalletId (.activationReclaimPending none)))
  let txHash ← broadcastNativeTransfer (c.fates binding).transfer (c.fates binding).txHash (c.transfer binding signer)
  (c.fates binding).markReclaimed.of
    (onRepository (mark binding.virtualWalletId (.activationReclaimed (some txHash) c.now)))
  return .reclaimed

/-- the body of the `catch` block -/
def reclaimFailed (c : ReclaimCycle) (binding : VirtualWalletBinding) (error : LedgerError) : Op ReclaimOutcome := do
  (c.fates binding).markFailed.of
    (onRepository (mark binding.virtualWalletId (.activationFailed (c.messageOf error))))
  notify (c.fates binding).alert c.nowMs
    (activationReclaimFailure binding.userId binding.walletAddress (c.messageOf error))
  return .failed

/-- the wallet cannot give the TRX back yet -/
def ReclaimCycle.Waits (c : ReclaimCycle) (resources : AccountResources) : Prop :=
  availableBandwidth resources < c.minAvailableBandwidth ∨ resources.trxBalanceSun < c.amountSun

instance (c : ReclaimCycle) (resources : AccountResources) : Decidable (c.Waits resources) :=
  inferInstanceAs (Decidable (_ ∨ _))

def reclaimOne (c : ReclaimCycle) (binding : VirtualWalletBinding) : Op ReclaimOutcome := do
  let resources ← getAccountResources (c.fates binding).resources (c.fates binding).answer binding.walletAddress
    binding.network
  if c.Waits resources then do
    notify (c.fates binding).waitingAlert c.nowMs
      (activationReclaimWaiting binding.userId binding.walletAddress (availableBandwidth resources)
        resources.trxBalanceSun c.minAvailableBandwidth c.amountSun)
    return .waiting
  else tryCatch (reclaim c binding) (reclaimFailed c binding)

structure ReclaimResult where
  reclaimed : List String
  waiting : List String
  failed : List String
  deriving DecidableEq, Repr

section
variable (rt : Runtime)

def ReclaimCycle.bindings (c : ReclaimCycle) (w : ActivationWorld) : List VirtualWalletBinding :=
  w.repository.listVirtualWalletsByActivationStatus rt .trx_granted c.cycleLimit

/-- `ActivationReclaimService.runCycle` -/
def runReclaimCycle (c : ReclaimCycle) : Op (Option ReclaimResult) :=
  if c.enabled then do
    let w ← get
    let bindings ← c.list.of (return c.bindings rt w)
    let done ← each (reclaimOne c) bindings
    let ids := (bindings.map (·.virtualWalletId)).zip done
    return some
      { reclaimed := (ids.filter (·.2 = .reclaimed)).map (·.1)
        waiting := (ids.filter (·.2 = .waiting)).map (·.1)
        failed := (ids.filter (·.2 = .failed)).map (·.1) }
  else return none

/-- a cycle of either service -/
inductive ActivationStep where
  | grant (c : GrantCycle)
  | reclaim (c : ReclaimCycle)

def ActivationStep.exec : ActivationStep → ActivationWorld → ActivationWorld
  | .grant c, w => (runGrantCycle rt c w).2
  | .reclaim c, w => (runReclaimCycle rt c w).2

end

/-! ## what the calls do -/

/-- A stretch of a wallet's turn: the marks it leaves on the wallet, the transfers it sends, what it asks of the
gateway. -/
structure Stretch (r : Nat) (marks : List Mark) (sent : List NativeTransfer) (asked : List GatewayRequest)
    (w w' : ActivationWorld) : Prop where
  repository : w'.repository = w.repository.marked r marks
  transfers : w'.transfers = w.transfers ++ sent
  requests : w'.requests = w.requests ++ asked

section
variable {w w' w'' : ActivationWorld} {r : Nat} {id : String} {ms ms' : List Mark} {sent sent' : List NativeTransfer}
  {asked asked' : List GatewayRequest}

theorem Stretch.none (hrepository : w'.repository = w.repository) (htransfers : w'.transfers = w.transfers)
    (hrequests : w'.requests = w.requests) : Stretch r [] [] [] w w' where
  repository := hrepository
  transfers := by rw [htransfers, List.append_nil]
  requests := by rw [hrequests, List.append_nil]

theorem Stretch.trans (h : Stretch r ms sent asked w w') (h' : Stretch r ms' sent' asked' w' w'') :
    Stretch r (ms ++ ms') (sent ++ sent') (asked ++ asked') w w'' where
  repository := by rw [h'.repository, h.repository, marked_append]
  transfers := by rw [h'.transfers, h.transfers, List.append_assoc]
  requests := by rw [h'.requests, h.requests, List.append_assoc]

/-- the wallet is still found by its id -/
theorem Stretch.found (h : Stretch r ms sent asked w w') (hid : w.repository.walletById.get? id = some r) :
    w'.repository.walletById.get? id = some r := by
  rw [h.repository, marked_walletById]
  exact hid

/-- what a call leaves when its answer does not arrive -/
def Fate.left {α : Type} (f : Fate) (l : List α) : List α := if f.outcome = .refused then [] else l

end

section
variable {w : ActivationWorld} {id : String} {r : Nat}

end

/-! ## a wallet's turn in a grant cycle -/

/-- the transfer is sent and marked -/
def GrantFates.Succeeds (f : GrantFates) : Prop :=
  f.transfer.outcome = .answered ∧ f.markGranted.outcome = .answered

/-- what the body of the `try` block marks -/
def GrantFates.granted (f : GrantFates) (now : String) : List Mark :=
  if f.transfer.outcome = .answered then f.markGranted.left [.activationGranted (some f.txHash) now] else []

/-- the transfer is sent, but no mark is stored -/
def GrantFates.Forgets (f : GrantFates) : Prop :=
  f.transfer.outcome ≠ .refused ∧ ¬ (f.transfer.outcome = .answered ∧ f.markGranted.outcome ≠ .refused) ∧
    f.markFailed.outcome = .refused

section
variable {w : ActivationWorld} {binding : VirtualWalletBinding} {r : Nat} {c : GrantCycle}

/-- what a mark makes of the activation -/
def markStatus : Mark → Option VirtualWalletActivationStatus
  | .activationGranted _ _ => some .trx_granted
  | .activationReclaimPending _ => some .reclaim_pending
  | .activationReclaimed _ _ => some .reclaimed
  | .activationFailed _ => some .failed
  | _ => none

/-- A wallet's turn asks for one transfer, and marks the wallet when it is sent unless both marks are lost. -/
def GrantTurn (c : GrantCycle) (binding : VirtualWalletBinding) (r : Nat) (w w' : ActivationWorld) : Prop :=
  ∃ ms, Stretch r ms ((c.fates binding).transfer.left [c.transfer binding])
      [.broadcastNativeTransfer (c.transfer binding)] w w' ∧
    (∀ m ∈ ms, markStatus m = some .trx_granted ∨ markStatus m = some .failed) ∧
    (ms = [] → (c.fates binding).transfer.outcome ≠ .refused → (c.fates binding).Forgets)

end

/-! ## a wallet's turn in a reclaim cycle -/

/-- the signer of the wallet arrives, with a private key -/
def ReclaimCycle.Signs (c : ReclaimCycle) (binding : VirtualWalletBinding) (w : ActivationWorld) : Prop :=
  (c.fates binding).signer.outcome = .answered ∧ ∃ signer,
    w.repository.getWalletSignerByAddress binding.walletAddress binding.currencyId binding.network = some signer ∧
      signer.privateKey ≠ ""

/-- all that stands in the `try` block goes well -/
def ReclaimCycle.Succeeds (c : ReclaimCycle) (binding : VirtualWalletBinding) (w : ActivationWorld) : Prop :=
  c.Signs binding w ∧ (c.fates binding).markPending.outcome = .answered ∧
    (c.fates binding).transfer.outcome = .answered ∧ (c.fates binding).markReclaimed.outcome = .answered

/-- A wallet's turn asks for its resources, and marks the wallet before it takes the TRX. -/
def ReclaimTurn (c : ReclaimCycle) (binding : VirtualWalletBinding) (r : Nat) (w w' : ActivationWorld) : Prop :=
  ∃ ms sent asked, Stretch r ms sent asked w w' ∧
    (∀ m ∈ ms, markStatus m = some .reclaim_pending ∨ markStatus m = some .reclaimed ∨ markStatus m = some .failed) ∧
    (sent = [] ∨ ms ≠ [] ∧ ∃ signer,
      w.repository.getWalletSignerByAddress binding.walletAddress binding.currencyId binding.network = some signer ∧
        sent = [c.transfer binding signer])

section
variable {w : ActivationWorld} {binding : VirtualWalletBinding} {r : Nat} {c : ReclaimCycle}

/-- a turn, and the call it starts with -/
def ReclaimTurn.After (c : ReclaimCycle) (binding : VirtualWalletBinding) (r : Nat) (w w' : ActivationWorld) : Prop :=
  ∃ w₁, Stretch r [] [] [.getAccountResources binding.walletAddress binding.network] w w₁ ∧
    ReclaimTurn c binding r w₁ w'

end

/-! ## paid at most once -/

/-- the grants sent to an address -/
def grantsTo (w : ActivationWorld) (address : String) : Nat :=
  w.transfers.countP fun t => t.toAddress = address ∧ t.fromAddress = none

/-- the reclaims from an address -/
def reclaimsFrom (w : ActivationWorld) (address : String) : Nat :=
  w.transfers.countP fun t => t.fromAddress = some address

/-- what every turn keeps: a wallet that waits for its grant or for the reclaim has not had it -/
structure PaidOnce (rt : Runtime) (w : ActivationWorld) : Prop where
  linked : Linked rt w.repository
  once : ∀ address, grantsTo w address ≤ 1 ∧ reclaimsFrom w address ≤ 1
  unpaid : ∀ address stored, w.repository.find w.repository.walletByAddress address = some stored →
    (stored.activationStatus = .pending_trx_grant → grantsTo w address = 0 ∧ reclaimsFrom w address = 0) ∧
    (stored.activationStatus = .trx_granted → reclaimsFrom w address = 0)

/-- the status after some marks that all set one -/
theorem status_of_marks {S : VirtualWalletActivationStatus → Prop} (ms : List Mark)
    (hms : ∀ m ∈ ms, ∃ status, markStatus m = some status ∧ S status) (stored : StoredVirtualWalletBinding) :
    (ms = [] ∧ ms.foldl (fun stored m => m.write stored) stored = stored) ∨
      S (ms.foldl (fun stored m => m.write stored) stored).activationStatus := by
  induction ms using List.reverseRecOn with
  | nil => exact Or.inl ⟨rfl, rfl⟩
  | append_singleton ms m ih =>
    right
    obtain ⟨status, hstatus, hs⟩ := hms m (by simp)
    rw [List.foldl_append, List.foldl_cons, List.foldl_nil]
    generalize ms.foldl (fun stored m => Mark.write m stored) stored = last
    have hwritten : (m.write last).activationStatus = status := by
      cases m <;> cases hstatus <;> rfl
    rw [hwritten]
    exact hs

section
variable {rt : Runtime} {w w' : ActivationWorld} {a : String} {stored : StoredVirtualWalletBinding} {r : Nat}
  {ms : List Mark} {sent : List NativeTransfer} {asked : List GatewayRequest}

/-- the other wallets are as they were -/
theorem Stretch.others (h : Stretch r ms sent asked w w') (hlinked : Linked rt w.repository)
    (hr : w.repository.walletByAddress.get? a = some r) {a' : String} (hne : a' ≠ a) :
    w'.repository.find w'.repository.walletByAddress a' = w.repository.find w.repository.walletByAddress a' := by
  rw [h.repository]
  exact hlinked.find_marked_other hr hne ms

/-- The transfer of a turn is the wallet's first of its kind, and is not sent without a mark. -/
theorem PaidOnce.stretch (hpaid : PaidOnce rt w) (h : Stretch r ms sent asked w w')
    (hr : w.repository.walletByAddress.get? a = some r)
    (hfind : w.repository.find w.repository.walletByAddress a = some stored)
    (hms : ∀ m ∈ ms, ∃ status, markStatus m = some status ∧ status ≠ .pending_trx_grant ∧
      (status = .trx_granted → stored.activationStatus = .pending_trx_grant))
    (hsent : sent = [] ∨ ms ≠ [] ∧ ∃ t, sent = [t] ∧
      ((stored.activationStatus = .pending_trx_grant ∧ t.toAddress = a ∧ t.fromAddress = none) ∨
        (stored.activationStatus = .trx_granted ∧ t.fromAddress = some a))) : PaidOnce rt w' := by
  have hlinked : Linked rt w'.repository := by
    rw [h.repository]
    exact hpaid.linked.marked r ms
  have hgrants : ∀ a', grantsTo w' a' = grantsTo w a' +
      sent.countP fun t => t.toAddress = a' ∧ t.fromAddress = none := by
    intro a'
    unfold grantsTo
    rw [h.transfers, List.countP_append]
  have hreclaims : ∀ a', reclaimsFrom w' a' = reclaimsFrom w a' + sent.countP fun t => t.fromAddress = some a' := by
    intro a'
    unfold reclaimsFrom
    rw [h.transfers, List.countP_append]
  obtain ⟨hpending, hgranted⟩ := hpaid.unpaid a stored hfind
  have hself : w'.repository.find w'.repository.walletByAddress a =
      some (ms.foldl (fun stored m => m.write stored) stored) := by
    rw [h.repository, find_marked_self hr, hfind]
    rfl
  have hstatus := status_of_marks ms hms stored
  -- a transfer is the first of its kind, to or from this wallet, and comes with a mark
  have hgrant : ∀ a', (sent.countP fun t => t.toAddress = a' ∧ t.fromAddress = none) = 0 ∨
      ((sent.countP fun t => t.toAddress = a' ∧ t.fromAddress = none) = 1 ∧ a' = a ∧ ms ≠ [] ∧
        stored.activationStatus = .pending_trx_grant) := by
    intro a'
    rcases hsent with rfl | ⟨hmarked, t, rfl, ⟨hstored, hto, hfrom⟩ | ⟨-, hfrom⟩⟩
    · exact Or.inl rfl
    · rw [List.countP_singleton, hfrom, hto]
      by_cases ha : a = a'
      · exact Or.inr ⟨by simp [ha], ha.symm, hmarked, hstored⟩
      · exact Or.inl (by simp [ha])
    · rw [List.countP_singleton, hfrom]
      exact Or.inl (by simp)
  have hreclaim : ∀ a', (sent.countP fun t => t.fromAddress = some a') = 0 ∨
      ((sent.countP fun t => t.fromAddress = some a') = 1 ∧ a' = a ∧ ms ≠ [] ∧
        stored.activationStatus = .trx_granted) := by
    intro a'
    rcases hsent with rfl | ⟨hmarked, t, rfl, ⟨-, -, hfrom⟩ | ⟨hstored, hfrom⟩⟩
    · exact Or.inl rfl
    · rw [List.countP_singleton, hfrom]
      exact Or.inl (by simp)
    · rw [List.countP_singleton, hfrom]
      by_cases ha : a = a'
      · exact Or.inr ⟨by simp [ha], ha.symm, hmarked, hstored⟩
      · exact Or.inl (by simp [ha])
  refine ⟨hlinked, fun a' => ?_, fun a' stored' hfind' => ?_⟩
  · obtain ⟨hg, hr'⟩ := hpaid.once a'
    rw [hgrants, hreclaims]
    constructor
    · rcases hgrant a' with hzero | ⟨hone, rfl, -, hstored⟩
      · omega
      · have hnone := (hpending hstored).1
        omega
    · rcases hreclaim a' with hzero | ⟨hone, rfl, -, hstored⟩
      · omega
      · have hnone := hgranted hstored
        omega
  · rw [hgrants, hreclaims]
    by_cases ha : a' = a
    · subst ha
      rw [hself] at hfind'
      obtain rfl := Option.some.inj hfind'
      rcases hstatus with ⟨hnil, hsame⟩ | ⟨hnot, himp⟩
      · -- no mark, and so no transfer
        have hg : (sent.countP fun t => t.toAddress = a' ∧ t.fromAddress = none) = 0 :=
          (hgrant a').resolve_right fun h => h.2.2.1 hnil
        have hr' : (sent.countP fun t => t.fromAddress = some a') = 0 :=
          (hreclaim a').resolve_right fun h => h.2.2.1 hnil
        rw [hsame, hg, hr']
        exact hpaid.unpaid a' stored hfind
      · constructor
        · intro hpend
          exact absurd hpend hnot
        · intro hgr
          have hstored := himp hgr
          have hr' : (sent.countP fun t => t.fromAddress = some a') = 0 := by
            rcases hreclaim a' with hzero | ⟨-, -, -, hother⟩
            · exact hzero
            · rw [hstored] at hother
              cases hother
          rw [hr', (hpending hstored).2]
    · rw [h.others hpaid.linked hr ha] at hfind'
      have hg : (sent.countP fun t => t.toAddress = a' ∧ t.fromAddress = none) = 0 :=
        (hgrant a').resolve_right fun h => ha h.2.1
      have hr' : (sent.countP fun t => t.fromAddress = some a') = 0 :=
        (hreclaim a').resolve_right fun h => ha h.2.1
      rw [hg, hr']
      exact hpaid.unpaid a' stored' hfind'

end

/-! ## a cycle -/

/-- every wallet of the list has been asked about -/
def Attempted (request : VirtualWalletBinding → GatewayRequest) (bs : List VirtualWalletBinding)
    (w w' : ActivationWorld) : Prop :=
  ∃ new, w'.requests = w.requests ++ new ∧ ∀ b ∈ bs, request b ∈ new

/-- what a turn owes the loop -/
structure Turn (rt : Runtime) (request : VirtualWalletBinding → GatewayRequest) (b : VirtualWalletBinding)
    (w w' : ActivationWorld) : Prop where
  paid : PaidOnce rt w'
  others : ∀ a, a ≠ b.walletAddress →
    w'.repository.find w'.repository.walletByAddress a = w.repository.find w.repository.walletByAddress a
  asked : Attempted request [b] w w'

section
variable {rt : Runtime} {β : Type} {one : VirtualWalletBinding → Op β}
  {request : VirtualWalletBinding → GatewayRequest} {Aborts : VirtualWalletBinding → Prop}
  {bs : List VirtualWalletBinding} {w : ActivationWorld}

end

section
variable {rt : Runtime} {w w' : ActivationWorld} {binding : VirtualWalletBinding} {r : Nat}
  {stored : StoredVirtualWalletBinding}

theorem GrantTurn.turn {c : GrantCycle} (h : GrantTurn c binding r w w') (hpaid : PaidOnce rt w)
    (hr : w.repository.walletByAddress.get? binding.walletAddress = some r)
    (hfind : w.repository.find w.repository.walletByAddress binding.walletAddress = some stored)
    (hpending : stored.activationStatus = .pending_trx_grant) (hmarks : ¬ (c.fates binding).Forgets) :
    Turn rt (fun b => .broadcastNativeTransfer (c.transfer b)) binding w w' := by
  obtain ⟨ms, hstretch, hms, hnone⟩ := h
  refine ⟨hpaid.stretch hstretch hr hfind ?_ ?_, fun a ha => hstretch.others hpaid.linked hr ha, _,
    hstretch.requests, by simp⟩
  · intro m hm
    rcases hms m hm with hm | hm
    · exact ⟨_, hm, by simp, fun _ => hpending⟩
    · exact ⟨_, hm, by simp, fun h => by cases h⟩
  · unfold Fate.left
    split
    · exact Or.inl rfl
    · next hsent =>
      right
      exact ⟨fun hnil => hmarks (hnone hnil hsent), _, rfl, Or.inl ⟨hpending, rfl, rfl⟩⟩

theorem ReclaimTurn.After.turn {c : ReclaimCycle} (h : ReclaimTurn.After c binding r w w') (hpaid : PaidOnce rt w)
    (hr : w.repository.walletByAddress.get? binding.walletAddress = some r)
    (hfind : w.repository.find w.repository.walletByAddress binding.walletAddress = some stored)
    (hgranted : stored.activationStatus = .trx_granted) :
    Turn rt (fun b => .getAccountResources b.walletAddress b.network) binding w w' := by
  obtain ⟨w₁, hfirst, ms, sent, asked, hstretch, hms, hsent⟩ := h
  have hall := hfirst.trans hstretch
  rw [List.nil_append, List.nil_append] at hall
  refine ⟨hpaid.stretch hall hr hfind ?_ ?_, fun a ha => hall.others hpaid.linked hr ha, _, hall.requests, by simp⟩
  · intro m hm
    rcases hms m hm with hm | hm | hm
    · exact ⟨_, hm, by simp, fun h => by cases h⟩
    · exact ⟨_, hm, by simp, fun h => by cases h⟩
    · exact ⟨_, hm, by simp, fun h => by cases h⟩
  · rcases hsent with hnone | ⟨hmarked, signer, hsigner, rfl⟩
    · exact Or.inl hnone
    · refine Or.inr ⟨hmarked, _, rfl, Or.inr ⟨hgranted, ?_⟩⟩
      -- the signer is that of the address
      have hsame : w₁.repository = w.repository := hfirst.repository
      rw [hsame] at hsigner
      obtain ⟨-, -, -, -, haddress⟩ := hpaid.linked.back hfind
      unfold getWalletSignerByAddress at hsigner
      rw [hfind] at hsigner
      dsimp only at hsigner
      split at hsigner
      · cases hsigner
      · split at hsigner
        · cases hsigner
        · rw [← Option.some.inj hsigner]
          exact congrArg some haddress

end

/-! ## runs -/

section
variable (rt : Runtime)

/-- the wallets a cycle goes through -/
def ActivationStep.bindings : ActivationStep → ActivationWorld → List VirtualWalletBinding
  | .grant c, w => if c.enabled ∧ c.list.outcome = .answered then c.bindings rt w else []
  | .reclaim c, w => if c.enabled ∧ c.list.outcome = .answered then c.bindings rt w else []

/-- the call a wallet's turn starts with -/
def ActivationStep.request : ActivationStep → VirtualWalletBinding → GatewayRequest
  | .grant c, b => .broadcastNativeTransfer (c.transfer b)
  | .reclaim _, b => .getAccountResources b.walletAddress b.network

variable {rt}
variable {w : ActivationWorld}

end

/-- the world before the first cycle -/
def start (repository : InMemoryVirtualWalletRepository) : ActivationWorld := ⟨repository, [], [], [], AlertService.new⟩

end ActivationService
