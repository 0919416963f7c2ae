import CoinManage.InMemory.FailedCalls
import CoinManage.Lib.Loops

/-!
# The virtual wallets of the in-memory repository

A virtual wallet is one object that four maps point to: by its id, by its address, by its user and by the
idempotency key it was issued with.  Issuing and reissuing a wallet enter it into the maps first and bind its
address in the ledger last.

* `InMemoryVirtualWalletRepository`   the objects and the maps to them;
* `createWallet`                      the writes, then the call of the ledger;
* `Call.exec`                         the calls of the repository and of its ledger;
* `createWallet_refused`, `createWallet_bound`   the two ways it ends;
* `failed_call_leaves_no_trace`       exactly which calls leave the maps alone when they throw.
-/

/-! ## the source -/

inductive TronNetwork where
  | mainnet
  | testnet
  deriving DecidableEq, Repr

inductive VirtualWalletStatus where
  | active
  | retired
  | disabled
  deriving DecidableEq, Repr

inductive VirtualWalletActivationStatus where
  | pending_trx_grant
  | trx_granted
  | reclaim_pending
  | reclaimed
  | failed
  deriving DecidableEq, Repr

inductive VirtualWalletResourceStatus where
  | idle
  | delegate_pending
  | delegated
  | release_pending
  | released
  | failed
  deriving DecidableEq, Repr

/-- `issuedBy` is always the hot wallet, and left out -/
structure VirtualWalletBinding where
  virtualWalletId : String
  userId : String
  currencyId : Nat
  network : TronNetwork
  walletAddress : String
  sweepTargetAddress : String
  status : VirtualWalletStatus := .active
  activationStatus : VirtualWalletActivationStatus := .pending_trx_grant
  activationGrantTxHash : Option String := none
  activationGrantedAt : Option String := none
  activationReclaimTxHash : Option String := none
  activationReclaimedAt : Option String := none
  activationLastError : Option String := none
  resourceStatus : VirtualWalletResourceStatus := .idle
  resourceDelegatedAt : Option String := none
  resourceReleasedAt : Option String := none
  resourceLastError : Option String := none
  createdAt : String
  retiredAt : Option String := none
  disabledAt : Option String := none
  replacedByVirtualWalletId : Option String := none
  deriving DecidableEq, Repr

structure StoredVirtualWalletBinding extends VirtualWalletBinding where
  privateKey : String
  encryptedPrivateKey : String
  idempotencyKey : String
  deriving DecidableEq, Repr

structure VirtualWalletIssueResult where
  binding : VirtualWalletBinding
  duplicated : Bool
  deriving DecidableEq, Repr

structure IssueInput where
  userId : String
  currencyId : Nat
  network : TronNetwork
  walletAddress : String
  privateKey : String
  encryptedPrivateKey : String
  sweepTargetAddress : String
  idempotencyKey : String
  nowIso : String

structure FoxyaWalletSigner where
  userId : String
  currencyId : Nat
  address : String
  privateKey : String
  deriving DecidableEq, Repr

/-- The wallet objects in the order they were made, the maps to them by their number, and the ledger they are
bound in. -/
structure InMemoryVirtualWalletRepository where
  ledger : InMemoryLedger
  objects : List StoredVirtualWalletBinding
  walletsByUserId : OrderedMap String (List Nat)
  walletByAddress : OrderedMap String Nat
  walletById : OrderedMap String Nat
  walletByIdempotencyKey : OrderedMap String Nat
  uuidsDrawn : Nat

namespace InMemoryVirtualWalletRepository

def new (ledger : InMemoryLedger) : InMemoryVirtualWalletRepository where
  ledger := ledger
  objects := []
  walletsByUserId := .empty
  walletByAddress := .empty
  walletById := .empty
  walletByIdempotencyKey := .empty
  uuidsDrawn := 0

abbrev Op (α : Type) := Method InMemoryVirtualWalletRepository LedgerError α

/-- a call of the ledger -/
def onLedger {α : Type} (op : InMemoryLedger.Op α) : Op α :=
  Method.zoom (·.ledger) (fun ledger s => { s with ledger := ledger }) op

/-- the object a map has under a key -/
def find (s : InMemoryVirtualWalletRepository) (map : OrderedMap String Nat) (key : String) :
    Option StoredVirtualWalletBinding := (map.get? key).bind (s.objects[·]?)

def userWallets (s : InMemoryVirtualWalletRepository) (userId : String) : List Nat :=
  (s.walletsByUserId.get? userId).getD []

/-- the number of the wallet in use of a user and a currency -/
def getActiveWallet (s : InMemoryVirtualWalletRepository) (userId : String) (currencyId : Nat) : Option Nat :=
  (s.userWallets userId).find? fun r =>
    s.objects[r]?.any fun wallet => wallet.currencyId = currencyId ∧ wallet.status = .active

def getCurrentWalletByUserId (s : InMemoryVirtualWalletRepository) (userId : String) :
    Option StoredVirtualWalletBinding :=
  let wallets := (s.userWallets userId).filterMap (s.objects[·]?)
  wallets.find? (fun wallet => wallet.status = .active) <|> wallets.getLast?

def getVirtualWallet (s : InMemoryVirtualWalletRepository) (walletAddress : String) : Option VirtualWalletBinding :=
  (s.find s.walletByAddress walletAddress).map (·.toVirtualWalletBinding)

/-- write to the fields of an object -/
def write (r : Nat) (f : StoredVirtualWalletBinding → StoredVirtualWalletBinding) : Op Unit :=
  modify fun s => { s with objects := s.objects.modify r f }

def requireBinding (virtualWalletId : String) : Op Nat := do
  match (← get).walletById.get? virtualWalletId with
  | some r => return r
  | none => throw (.domain 404 "NOT_FOUND" "virtual wallet not found")

section
variable (rt : Runtime)

def newWallet (s : InMemoryVirtualWalletRepository) (input : IssueInput) : StoredVirtualWalletBinding where
  virtualWalletId := rt.uuid s.uuidsDrawn
  userId := input.userId
  currencyId := input.currencyId
  network := input.network
  walletAddress := input.walletAddress
  sweepTargetAddress := input.sweepTargetAddress
  createdAt := input.nowIso
  privateKey := input.privateKey
  encryptedPrivateKey := input.encryptedPrivateKey
  idempotencyKey := input.idempotencyKey

/-- `replacedWallet.status = 'retired'` and what goes with it -/
def retired (nowIso newId : String) (wallet : StoredVirtualWalletBinding) : StoredVirtualWalletBinding :=
  { wallet with status := .retired, retiredAt := some nowIso, replacedByVirtualWalletId := some newId }

/-- the new object, in all four maps -/
def enter (s : InMemoryVirtualWalletRepository) (stored : StoredVirtualWalletBinding) :
    InMemoryVirtualWalletRepository :=
  { s with
    objects := s.objects ++ [stored]
    walletsByUserId := s.walletsByUserId.set stored.userId (s.userWallets stored.userId ++ [s.objects.length])
    walletByAddress := s.walletByAddress.set stored.walletAddress s.objects.length
    walletById := s.walletById.set stored.virtualWalletId s.objects.length
    walletByIdempotencyKey := s.walletByIdempotencyKey.set stored.idempotencyKey s.objects.length
    uuidsDrawn := s.uuidsDrawn + 1 }

def retireReplaced (replacedWallet : Option Nat) (nowIso newId : String) : Op Unit :=
  match replacedWallet with
  | some r => write r (retired nowIso newId)
  | none => pure ()

def createWallet (input : IssueInput) (replacedWallet : Option Nat) : Op VirtualWalletIssueResult := do
  let stored := newWallet rt (← get) input
  retireReplaced replacedWallet input.nowIso stored.virtualWalletId
  modify fun s => s.enter stored
  let _ ← onLedger (InMemoryLedger.bindWalletAddress stored.userId stored.walletAddress stored.createdAt)
  return { binding := stored.toVirtualWalletBinding, duplicated := false }

/-- the answer for a wallet that is there already -/
def duplicate (r : Nat) : Op VirtualWalletIssueResult := do
  match (← get).objects[r]? with
  | some wallet => return { binding := wallet.toVirtualWalletBinding, duplicated := true }
  | none => throw (.plain "unreachable: a map names an object that does not exist")

/-- `this.ledger.getWalletBinding({ userId })` -/
def getWalletBinding (userId : String) : Op (Option WalletBinding) := do
  if userId = "" then throw (.domain 400 "VALIDATION_ERROR" "userId or walletAddress is required")
  else return (← get).ledger.walletBindingsByUserId.get? userId

def issueVirtualWallet (input : IssueInput) : Op VirtualWalletIssueResult := do
  match (← get).walletByIdempotencyKey.get? input.idempotencyKey with
  | some duplicatedByIdempotency => duplicate duplicatedByIdempotency
  | none =>
    match (← get).getActiveWallet input.userId input.currencyId with
    | some existing => duplicate existing
    | none =>
      let existingWalletBinding ← getWalletBinding input.userId
      Method.throwWhen (existingWalletBinding.isSome)
        (.domain 409 "USER_ALREADY_HAS_BOUND_WALLET_ADDRESS"
          "user already has a wallet address bound outside virtual wallet issuance")
      let s ← get
      Method.throwWhen ((s.find s.walletByAddress input.walletAddress).any fun existing =>
          existing.userId ≠ input.userId)
        (.domain 409 "WALLET_ADDRESS_IN_USE" "wallet address is already bound to another user")
      createWallet rt input none

def reissueVirtualWallet (input : IssueInput) : Op VirtualWalletIssueResult := do
  match (← get).walletByIdempotencyKey.get? input.idempotencyKey with
  | some duplicatedByIdempotency => duplicate duplicatedByIdempotency
  | none => createWallet rt input ((← get).getActiveWallet input.userId input.currencyId)

/-! ## the other calls -/

/-- `listVirtualWalletsByActivationStatus` -/
def listVirtualWalletsByActivationStatus (s : InMemoryVirtualWalletRepository)
    (status : VirtualWalletActivationStatus) (limit : Nat) : List VirtualWalletBinding :=
  let bindings := (s.walletByAddress.values.filterMap (s.objects[·]?)).filter fun binding =>
    binding.status = .active ∧ binding.activationStatus = status
  ((bindings.insertionSort fun left right => rt.localeLe left.createdAt right.createdAt).take limit).map
    (·.toVirtualWalletBinding)

end

/-- `getWalletSignerByAddress` with a network -/
def getWalletSignerByAddress (s : InMemoryVirtualWalletRepository) (address : String) (currencyId : Nat)
    (network : TronNetwork) : Option FoxyaWalletSigner :=
  match s.find s.walletByAddress address with
  | none => none
  | some binding =>
    if binding.currencyId ≠ currencyId ∨ binding.status ≠ .active then none
    else if binding.network ≠ network then none
    else some
      { userId := binding.userId
        currencyId := binding.currencyId
        address := binding.walletAddress
        privateKey := binding.privateKey }

def retireVirtualWallet (virtualWalletId nowIso : String) (replacedByVirtualWalletId : Option String) : Op Unit := do
  let r ← requireBinding virtualWalletId
  write r fun binding =>
    if binding.status ≠ .active then binding
    else { binding with
      status := .retired
      retiredAt := some nowIso
      replacedByVirtualWalletId := replacedByVirtualWalletId }

def disableVirtualWallet (virtualWalletId nowIso : String) : Op Unit := do
  let r ← requireBinding virtualWalletId
  write r fun binding =>
    if binding.status = .disabled then binding
    else { binding with status := .disabled, disabledAt := some nowIso }

/-- what the `mark…` methods write to a wallet -/
inductive Mark where
  | activationGranted (txHash : Option String) (nowIso : String)
  | activationReclaimPending (txHash : Option String)
  | activationReclaimed (txHash : Option String) (nowIso : String)
  | activationFailed (message : String)
  | resourceDelegatePending
  | resourceDelegated (nowIso : String)
  | resourceReleasePending
  | resourceReleased (nowIso : String)
  | resourceFailed (message : String)

def Mark.on (binding : VirtualWalletBinding) : Mark → VirtualWalletBinding
  | activationGranted txHash nowIso =>
    { binding with
      activationStatus := .trx_granted
      activationGrantTxHash := txHash
      activationGrantedAt := some nowIso
      activationLastError := none }
  | activationReclaimPending txHash =>
    { binding with
      activationStatus := .reclaim_pending
      activationReclaimTxHash := txHash
      activationLastError := none }
  | activationReclaimed txHash nowIso =>
    { binding with
      activationStatus := .reclaimed
      activationReclaimTxHash := txHash
      activationReclaimedAt := some nowIso
      activationLastError := none }
  | activationFailed message => { binding with activationStatus := .failed, activationLastError := some message }
  | resourceDelegatePending => { binding with resourceStatus := .delegate_pending, resourceLastError := none }
  | resourceDelegated nowIso =>
    { binding with resourceStatus := .delegated, resourceDelegatedAt := some nowIso, resourceLastError := none }
  | resourceReleasePending => { binding with resourceStatus := .release_pending, resourceLastError := none }
  | resourceReleased nowIso =>
    { binding with resourceStatus := .released, resourceReleasedAt := some nowIso, resourceLastError := none }
  | resourceFailed message => { binding with resourceStatus := .failed, resourceLastError := some message }

/-- the `mark…` methods -/
def mark (virtualWalletId : String) (m : Mark) : Op Unit := do
  let r ← requireBinding virtualWalletId
  write r fun binding => { binding with toVirtualWalletBinding := m.on binding.toVirtualWalletBinding }

/-! ## calls -/

inductive Call where
  | issueVirtualWallet (input : IssueInput)
  | reissueVirtualWallet (input : IssueInput)
  | retireVirtualWallet (virtualWalletId nowIso : String) (replacedByVirtualWalletId : Option String)
  | disableVirtualWallet (virtualWalletId nowIso : String)
  | mark (virtualWalletId : String) (m : Mark)
  | ledger (call : InMemoryLedger.Call)

section
variable (rt : Runtime)

def Call.exec : Call → Op Unit
  | .issueVirtualWallet input => do let _ ← InMemoryVirtualWalletRepository.issueVirtualWallet rt input
  | .reissueVirtualWallet input => do let _ ← InMemoryVirtualWalletRepository.reissueVirtualWallet rt input
  | .retireVirtualWallet virtualWalletId nowIso replacedBy =>
    InMemoryVirtualWalletRepository.retireVirtualWallet virtualWalletId nowIso replacedBy
  | .disableVirtualWallet virtualWalletId nowIso =>
    InMemoryVirtualWalletRepository.disableVirtualWallet virtualWalletId nowIso
  | .mark virtualWalletId m => InMemoryVirtualWalletRepository.mark virtualWalletId m
  | .ledger call => do let _ ← onLedger (call.exec rt)

def Call.step (c : Call) (s : InMemoryVirtualWalletRepository) : InMemoryVirtualWalletRepository := (c.exec rt s).2

end

/-! ## what a new wallet leaves behind -/

section
variable {rt : Runtime} {s : InMemoryVirtualWalletRepository} {input : IssueInput}

/-- the ledger has the address under another user -/
def AddressTaken (ledger : InMemoryLedger) (userId walletAddress : String) : Prop :=
  ∃ other, ledger.userIdByWalletAddress.get? walletAddress = some other ∧ other ≠ "" ∧ other ≠ userId

theorem truthy_some {o : Option String} : (InMemoryLedger.truthy o).isSome ↔ ∃ t, o = some t ∧ t ≠ "" := by
  unfold InMemoryLedger.truthy
  split
  · simp
  · next h =>
    cases o with
    | none => simp
    | some t => simpa using h

theorem bind_refused {ledger : InMemoryLedger} {userId walletAddress nowIso : String}
    (h : AddressTaken ledger userId walletAddress) :
    InMemoryLedger.bindWalletAddress userId walletAddress nowIso ledger =
      (.error (.domain 409 "WALLET_ADDRESS_IN_USE" "wallet address is already bound to another user"), ledger) := by
  obtain ⟨other, hother, hne, hdiffers⟩ := h
  have htruthy : InMemoryLedger.truthy (some other) = some other := by
    unfold InMemoryLedger.truthy
    split
    · next heq => exact absurd (Option.some.inj heq) hne
    · rfl
  unfold InMemoryLedger.bindWalletAddress
  rw [Method.get_bind, hother, htruthy, if_pos ⟨rfl, fun heq => hdiffers (Option.some.inj heq)⟩]
  rfl

theorem bind_accepted {ledger : InMemoryLedger} {userId walletAddress nowIso : String}
    (h : ¬ AddressTaken ledger userId walletAddress) :
    ∃ b ledger', InMemoryLedger.bindWalletAddress userId walletAddress nowIso ledger = (.ok b, ledger') := by
  have hfree : ¬ ((InMemoryLedger.truthy (ledger.userIdByWalletAddress.get? walletAddress)).isSome ∧
      InMemoryLedger.truthy (ledger.userIdByWalletAddress.get? walletAddress) ≠ some userId) := by
    rintro ⟨hsome, hdiffers⟩
    obtain ⟨other, hother, hne⟩ := truthy_some.mp hsome
    refine h ⟨other, hother, hne, fun heq => hdiffers ?_⟩
    rw [hother, heq] at hsome ⊢
    unfold InMemoryLedger.truthy at hsome ⊢
    split
    · next hempty =>
      rw [Option.some.inj hempty] at heq
      exact absurd heq hne
    · rfl
  unfold InMemoryLedger.bindWalletAddress
  rw [Method.get_bind, if_neg hfree]
  obtain ⟨ledger₁, h₁⟩ := InMemoryLedger.forgetPreviousAddress_ok (ledger.walletBindingsByUserId.get? userId) walletAddress
  rw [Method.bind_ok _ h₁, Method.modify_bind]
  obtain ⟨ledger₂, h₂⟩ := InMemoryLedger.setAccountWalletAddress_ok userId walletAddress
  rw [Method.bind_ok _ h₂]
  exact ⟨_, _, rfl⟩

/-- the maps and objects once a wallet is made, whatever the ledger says -/
def created (rt : Runtime) (s : InMemoryVirtualWalletRepository) (input : IssueInput) (replacedWallet : Option Nat) :
    InMemoryVirtualWalletRepository :=
  let stored := newWallet rt s input
  let s' := match replacedWallet with
    | some r => { s with objects := s.objects.modify r (retired input.nowIso stored.virtualWalletId) }
    | none => s
  s'.enter stored

theorem createWallet_eq (replacedWallet : Option Nat) :
    createWallet rt input replacedWallet s =
      (do
        let _ ← onLedger (InMemoryLedger.bindWalletAddress input.userId input.walletAddress input.nowIso)
        return { binding := (newWallet rt s input).toVirtualWalletBinding, duplicated := false } :
          Op VirtualWalletIssueResult) (created rt s input replacedWallet) := by
  cases replacedWallet <;> rfl

theorem created_ledger (replacedWallet : Option Nat) : (created rt s input replacedWallet).ledger = s.ledger := by
  cases replacedWallet <;> rfl

/-- the ledger refuses the address: the wallet stays in the maps -/
theorem createWallet_refused (replacedWallet : Option Nat) (h : AddressTaken s.ledger input.userId input.walletAddress) :
    createWallet rt input replacedWallet s =
      (.error (.domain 409 "WALLET_ADDRESS_IN_USE" "wallet address is already bound to another user"),
        created rt s input replacedWallet) := by
  have hbind := @bind_refused _ _ _ input.nowIso h
  rw [← @created_ledger rt s input replacedWallet] at hbind
  rw [createWallet_eq]
  apply Method.bind_error
  show ((InMemoryLedger.bindWalletAddress _ _ _ (created rt s input replacedWallet).ledger).1, _) = _
  rw [hbind]

theorem createWallet_bound (replacedWallet : Option Nat)
    (h : ¬ AddressTaken s.ledger input.userId input.walletAddress) :
    ∃ ledger', createWallet rt input replacedWallet s =
      (.ok { binding := (newWallet rt s input).toVirtualWalletBinding, duplicated := false },
        { created rt s input replacedWallet with ledger := ledger' }) := by
  obtain ⟨b, ledger', hbind⟩ := @bind_accepted _ _ _ input.nowIso h
  rw [← @created_ledger rt s input replacedWallet] at hbind
  refine ⟨ledger', ?_⟩
  have hledger : onLedger (InMemoryLedger.bindWalletAddress input.userId input.walletAddress input.nowIso)
      (created rt s input replacedWallet) = (.ok b, { created rt s input replacedWallet with ledger := ledger' }) := by
    show ((InMemoryLedger.bindWalletAddress _ _ _ (created rt s input replacedWallet).ledger).1, _) = _
    rw [hbind]
  rw [createWallet_eq, Method.bind_ok _ hledger]
  rfl

/-! ## calls that throw -/

/-- a first wallet gets as far as the ledger -/
def IssueReachesLedger (s : InMemoryVirtualWalletRepository) (input : IssueInput) : Prop :=
  s.walletByIdempotencyKey.get? input.idempotencyKey = none ∧ s.getActiveWallet input.userId input.currencyId = none ∧
  input.userId ≠ "" ∧ s.ledger.walletBindingsByUserId.get? input.userId = none ∧
  (s.find s.walletByAddress input.walletAddress).any (fun existing => existing.userId ≠ input.userId) = false

/-- a replacement gets as far as the ledger -/
def ReissueReachesLedger (s : InMemoryVirtualWalletRepository) (input : IssueInput) : Prop :=
  s.walletByIdempotencyKey.get? input.idempotencyKey = none

theorem duplicate_state (r : Nat) : (duplicate r s).2 = s := by
  unfold duplicate
  rw [Method.get_bind]
  cases s.objects[r]? with
  | none => rfl
  | some wallet => rfl

theorem issue_reaches (h : IssueReachesLedger s input) :
    issueVirtualWallet rt input s = createWallet rt input none s := by
  obtain ⟨hkey, hactive, huser, hbinding, haddress⟩ := h
  have hget : getWalletBinding input.userId s = (.ok none, s) := by
    unfold getWalletBinding
    rw [if_neg huser, Method.get_bind, hbinding]
    rfl
  unfold issueVirtualWallet
  rw [Method.get_bind, hkey]
  dsimp only
  rw [Method.get_bind, hactive]
  dsimp only
  rw [Method.bind_ok _ hget]
  unfold Method.throwWhen
  rw [if_neg (by simp), Method.pure_bind, Method.get_bind, if_neg (by rw [haddress]; simp), Method.pure_bind]

theorem issue_stops (h : ¬ IssueReachesLedger s input) : (issueVirtualWallet rt input s).2 = s := by
  unfold issueVirtualWallet
  rw [Method.get_bind]
  cases hkey : s.walletByIdempotencyKey.get? input.idempotencyKey with
  | some r => exact duplicate_state r
  | none =>
    dsimp only
    rw [Method.get_bind]
    cases hactive : s.getActiveWallet input.userId input.currencyId with
    | some r => exact duplicate_state r
    | none =>
      dsimp only
      by_cases huser : input.userId = ""
      · have hget : getWalletBinding input.userId s =
            (.error (.domain 400 "VALIDATION_ERROR" "userId or walletAddress is required"), s) := by
          unfold getWalletBinding
          rw [if_pos huser]
          rfl
        rw [Method.bind_error _ hget]
      · have hget : getWalletBinding input.userId s =
            (.ok (s.ledger.walletBindingsByUserId.get? input.userId), s) := by
          unfold getWalletBinding
          rw [if_neg huser]
          rfl
        rw [Method.bind_ok _ hget]
        unfold Method.throwWhen
        cases hbinding : s.ledger.walletBindingsByUserId.get? input.userId with
        | some binding => rfl
        | none =>
          rw [if_neg (by simp), Method.pure_bind, Method.get_bind]
          by_cases haddress : (s.find s.walletByAddress input.walletAddress).any
              (fun existing => existing.userId ≠ input.userId) = true
          · rw [if_pos haddress]
            rfl
          · exact absurd ⟨hkey, hactive, huser, hbinding, by simpa using haddress⟩ h

theorem reissue_reaches (h : ReissueReachesLedger s input) :
    reissueVirtualWallet rt input s =
      createWallet rt input (s.getActiveWallet input.userId input.currencyId) s := by
  unfold reissueVirtualWallet
  rw [Method.get_bind, show s.walletByIdempotencyKey.get? input.idempotencyKey = none from h]
  rfl

theorem reissue_stops (h : ¬ ReissueReachesLedger s input) : (reissueVirtualWallet rt input s).2 = s := by
  unfold reissueVirtualWallet
  rw [Method.get_bind]
  cases hkey : s.walletByIdempotencyKey.get? input.idempotencyKey with
  | some r => exact duplicate_state r
  | none => exact absurd hkey h

/-- the same objects under the same keys, and those objects as they were -/
structure SameWallets (s s' : InMemoryVirtualWalletRepository) : Prop where
  byId : s'.walletById = s.walletById
  byAddress : s'.walletByAddress = s.walletByAddress
  byUser : s'.walletsByUserId = s.walletsByUserId
  byKey : s'.walletByIdempotencyKey = s.walletByIdempotencyKey
  objects : ∀ r, r < s.objects.length → s'.objects[r]? = s.objects[r]?

/-- a call that throws leaves the wallets as they were -/
def LeavesNoTrace {α : Type} (op : Op α) (s : InMemoryVirtualWalletRepository) : Prop :=
  ∀ e s', op s = (.error e, s') → SameWallets s s'

theorem SameWallets.refl (s : InMemoryVirtualWalletRepository) : SameWallets s s :=
  ⟨rfl, rfl, rfl, rfl, fun _ _ => rfl⟩

/-- the user has one wallet more -/
theorem created_differs (replacedWallet : Option Nat) : ¬ SameWallets s (created rt s input replacedWallet) := by
  intro h
  have huser := congrArg (fun map => map.get? input.userId) h.byUser
  have hset : (created rt s input replacedWallet).walletsByUserId.get? input.userId =
      some (s.userWallets input.userId ++ [s.objects.length]) := by
    cases replacedWallet with
    | none => exact OrderedMap.get?_set_self _ _ _
    | some r =>
      have hself := OrderedMap.get?_set_self s.walletsByUserId input.userId
        (s.userWallets input.userId ++ [s.objects.length])
      rw [← hself, ← @List.length_modify _ (retired input.nowIso (newWallet rt s input).virtualWalletId) s.objects r]
      rfl
  rw [hset] at huser
  unfold userWallets at huser
  rw [← huser] at huser
  have hlength := congrArg (fun o : Option (List Nat) => (o.getD []).length) huser
  simp at hlength

/-- a creation leaves no trace when it throws exactly when the ledger does not refuse the address -/
theorem createWallet_traceless (replacedWallet : Option Nat) :
    LeavesNoTrace (createWallet rt input replacedWallet) s ↔
      ¬ AddressTaken s.ledger input.userId input.walletAddress := by
  constructor
  · intro h htaken
    exact created_differs replacedWallet (h _ _ (createWallet_refused replacedWallet htaken))
  · intro hfree e s' hthrows
    obtain ⟨ledger', hbound⟩ := @createWallet_bound rt _ _ replacedWallet hfree
    rw [hbound] at hthrows
    cases hthrows

theorem leavesNoTrace_of_unchanged {α : Type} {op : Op α} (h : (op s).2 = s) : LeavesNoTrace op s := by
  intro e s' hthrows
  rw [hthrows] at h
  rw [show s' = s from h]
  exact SameWallets.refl s

theorem leavesNoTrace_of_eq {α : Type} {op op' : Op α} (h : op s = op' s) :
    LeavesNoTrace op s ↔ LeavesNoTrace op' s := by
  unfold LeavesNoTrace
  rw [h]

theorem issue_traceless : LeavesNoTrace (issueVirtualWallet rt input) s ↔
    ¬ (IssueReachesLedger s input ∧ AddressTaken s.ledger input.userId input.walletAddress) := by
  by_cases h : IssueReachesLedger s input
  · rw [leavesNoTrace_of_eq (issue_reaches h), createWallet_traceless]
    simp [h]
  · exact iff_of_true (leavesNoTrace_of_unchanged (issue_stops h)) fun hboth => h hboth.1

theorem reissue_traceless : LeavesNoTrace (reissueVirtualWallet rt input) s ↔
    ¬ (ReissueReachesLedger s input ∧ AddressTaken s.ledger input.userId input.walletAddress) := by
  by_cases h : ReissueReachesLedger s input
  · rw [leavesNoTrace_of_eq (reissue_reaches h), createWallet_traceless]
    simp [h]
  · exact iff_of_true (leavesNoTrace_of_unchanged (reissue_stops h)) fun hboth => h hboth.1

/-- A wallet whose address was refused is the answer to the retry. -/
theorem retry_duplicated (h : IssueReachesLedger s input)
    (htaken : AddressTaken s.ledger input.userId input.walletAddress) :
    issueVirtualWallet rt input (issueVirtualWallet rt input s).2 =
      (.ok { binding := (newWallet rt s input).toVirtualWalletBinding, duplicated := true },
        (issueVirtualWallet rt input s).2) := by
  have hcreated : (issueVirtualWallet rt input s).2 = created rt s input none := by
    rw [issue_reaches h, createWallet_refused none htaken]
  have hkey : (created rt s input none).walletByIdempotencyKey.get? input.idempotencyKey = some s.objects.length :=
    OrderedMap.get?_set_self _ _ _
  have hobject : (created rt s input none).objects[s.objects.length]? = some (newWallet rt s input) := by
    show (s.objects ++ [newWallet rt s input])[s.objects.length]? = _
    rw [List.getElem?_append_right (le_refl _)]
    simp
  rw [hcreated]
  unfold issueVirtualWallet
  rw [Method.get_bind, hkey]
  dsimp only
  unfold duplicate
  rw [Method.get_bind, hobject]
  rfl

end

/-- Issuing and reissuing leave no trace when they throw, exactly when the call does not get as far as the ledger
with an address that the ledger has under another user. -/
theorem failed_call_leaves_no_trace (rt : Runtime) (s : InMemoryVirtualWalletRepository) (input : IssueInput) :
    (LeavesNoTrace (issueVirtualWallet rt input) s ↔
      ¬ (IssueReachesLedger s input ∧ AddressTaken s.ledger input.userId input.walletAddress)) ∧
    (LeavesNoTrace (reissueVirtualWallet rt input) s ↔
      ¬ (ReissueReachesLedger s input ∧ AddressTaken s.ledger input.userId input.walletAddress)) :=
  ⟨issue_traceless, reissue_traceless⟩

/-- bob has bound an address that alice is to get -/
def addressOfBob : List Call := [.ledger (.bindWalletAddress "bob" "TAddress" "2026-03-01T00:00:00.000Z")]

def forAlice : IssueInput where
  userId := "alice"
  currencyId := 1
  network := .mainnet
  walletAddress := "TAddress"
  privateKey := "secret"
  encryptedPrivateKey := "sealed"
  sweepTargetAddress := "THot"
  idempotencyKey := "key-1"
  nowIso := "2026-03-01T00:00:00.000Z"

/-- The ledger refuses alice's address, and her wallet stays in the maps. -/
theorem refused_wallet_stays :
    ¬ ∀ calls input, LeavesNoTrace (issueVirtualWallet Runtime.numbered input)
      (runCalls (Call.step Runtime.numbered) calls (new (InMemoryLedger.new { singleLimit := 100, dailyLimit := 100 }))) := by
  intro h
  apply issue_traceless.mp (h addressOfBob forAlice)
  refine ⟨⟨?_, ?_, ?_, ?_, ?_⟩, "bob", ?_, ?_, ?_⟩
  all_goals decide +kernel

end InMemoryVirtualWalletRepository
