import CoinManage.Sweeps.InMemory
import CoinManage.Wallets.Activation
import CoinManage.Wallets.Stakes

/-!
# Delegated resources and their release

A cycle delegates bandwidth and energy to the wallets with a queued sweep, and takes them back from the wallets whose
sweeps are settled.  Calls of the chain and of the repository may fail, or be carried out while their answer is lost.

* `delegateForAddress`, `releaseForAddress`   the two loops, one address;
* `runCycle`                                  a cycle over the pages of the sweep table;
* `DelegateTurn`, `ReleaseTurn`               what an address's turn does, however it ends;
* `Sound`                                     whatever is staked stands behind a status that is released later;
* `Balanced`, `delegation_is_balanced`        the runs whose partial failures are recorded.
-/

namespace ResourceDelegationService
open Method InMemoryVirtualWalletRepository
open ActivationService (Fate deliver)

/-! ## the source -/

/-- the repository, the chain's record of the hot wallet's delegations and the alert service -/
structure DelegationWorld where
  repository : InMemoryVirtualWalletRepository
  chain : List StakeEvent
  alerts : AlertService

abbrev Op (α : Type) := Method DelegationWorld LedgerError α

def call {α : Type} (f : Fate) (op : Op α) : Op α := f.outcome.of f.error op

def onRepository {α : Type} (op : InMemoryVirtualWalletRepository.Op α) : Op α :=
  Method.zoom (·.repository) (fun repository w => { w with repository := repository }) op

def notify (o : Outcome) (nowMs : ℤ) (input : SendInput) : Op Unit :=
  modify fun w => { w with alerts := deliver o nowMs input w.alerts }

def resourceDelegationWaiting (userId walletAddress : String) (resource : TronResourceType)
    (requiredSun availableSun : ℤ) : SendInput where
  title := "[KORION] Resource Delegation Waiting"
  body := "\n".intercalate ["userId=" ++ userId, "walletAddress=" ++ walletAddress, "resource=" ++ resource.text,
    "requiredSun=" ++ toString requiredSun, "availableSun=" ++ toString availableSun]
  dedupeKey := some ("resource-delegation-waiting:" ++ userId ++ ":" ++ walletAddress ++ ":" ++ resource.text)

def resourceDelegationFailure (userId walletAddress message : String) : SendInput where
  title := "[KORION] Resource Delegation Failed"
  body := "\n".intercalate ["userId=" ++ userId, "walletAddress=" ++ walletAddress, "error=" ++ message]
  dedupeKey := some ("resource-delegation-failed:" ++ userId ++ ":" ++ walletAddress ++ ":" ++ message)

def resourceReleaseFailure (userId walletAddress message : String) : SendInput where
  title := "[KORION] Resource Release Failed"
  body := "\n".intercalate ["userId=" ++ userId, "walletAddress=" ++ walletAddress, "error=" ++ message]
  dedupeKey := some ("resource-release-failed:" ++ userId ++ ":" ++ walletAddress ++ ":" ++ message)

structure ResourceAmount where
  resource : TronResourceType
  amountSun : ℤ
  deriving DecidableEq, Repr

/-- the hot wallet's address is that of the chain's record -/
structure ResourceDelegationOptions where
  enabled : Bool
  cycleLimit : Nat
  bandwidthAmountSun : ℤ
  energyAmountSun : ℤ

def ResourceDelegationOptions.resources (options : ResourceDelegationOptions) : List ResourceAmount :=
  (if 0 < options.bandwidthAmountSun then [⟨.bandwidth, options.bandwidthAmountSun⟩] else []) ++
    if 0 < options.energyAmountSun then [⟨.energy, options.energyAmountSun⟩] else []

/-- how the calls for an address end when it is delegated to -/
structure DelegateFates where
  read : Fate
  markPending : Fate
  capacity : TronResourceType → Fate
  delegatable : TronResourceType → ℤ
  markWaiting : Fate
  waitingAlert : Outcome
  delegate : TronResourceType → Fate
  markDelegated : Fate
  markFailed : Fate
  alert : Outcome

/-- how the calls for an address end when it is released -/
structure ReleaseFates where
  read : Fate
  markPending : Fate
  delegatedAmount : TronResourceType → Fate
  undelegate : TronResourceType → Fate
  markReleased : Fate
  markFailed : Fate
  alert : Outcome

/-- A cycle: the sweeps, the clock, how errors read, and how the calls end. -/
structure Cycle where
  sweeps : InMemorySweeps
  now : String
  nowMs : ℤ
  messageOf : LedgerError → String
  list : Fate
  delegateFates : String → DelegateFates
  releaseFates : String → ReleaseFates

inductive AddressResult where
  | delegated
  | released
  | waiting
  | failed
  | skipped
  deriving DecidableEq, Repr

def stakeKey (binding : VirtualWalletBinding) (resource : TronResourceType) : StakeKey :=
  ⟨binding.walletAddress, resource, binding.network⟩

/-- the first resource of which there is not enough, with what there is -/
def firstShortage (f : DelegateFates) : List ResourceAmount → Op (Option (ResourceAmount × ℤ))
  | [] => return none
  | item :: items => do
    let delegatable ← call (f.capacity item.resource) (return f.delegatable item.resource)
    if delegatable < item.amountSun then return some (item, delegatable)
    else firstShortage f items

def delegateResource (f : DelegateFates) (binding : VirtualWalletBinding) (item : ResourceAmount) : Op Unit :=
  call (f.delegate item.resource)
    (modify fun w => { w with chain := w.chain ++ [.delegated (stakeKey binding item.resource) item.amountSun] })

/-- the body of the `try` block -/
def delegate (options : ResourceDelegationOptions) (c : Cycle) (f : DelegateFates) (binding : VirtualWalletBinding) :
    Op AddressResult := do
  call f.markPending (onRepository (mark binding.virtualWalletId .resourceDelegatePending))
  match ← firstShortage f options.resources with
  | some (item, delegatable) => do
    call f.markWaiting (onRepository (mark binding.virtualWalletId
      (.resourceFailed (item.resource.text ++ " delegatable stake is below required amount"))))
    notify f.waitingAlert c.nowMs
      (resourceDelegationWaiting binding.userId binding.walletAddress item.resource item.amountSun delegatable)
    return .waiting
  | none => do
    forEach (delegateResource f binding) options.resources
    call f.markDelegated (onRepository (mark binding.virtualWalletId (.resourceDelegated c.now)))
    return .delegated

/-- the body of either `catch` block -/
def resourceFailure (c : Cycle) (markFailed : Fate) (alert : Outcome) (binding : VirtualWalletBinding)
    (notice : String → SendInput) (error : LedgerError) : Op AddressResult := do
  call markFailed (onRepository (mark binding.virtualWalletId (.resourceFailed (c.messageOf error))))
  notify alert c.nowMs (notice (c.messageOf error))
  return .failed

def delegateForAddress (options : ResourceDelegationOptions) (c : Cycle) (sourceAddress : String) :
    Op AddressResult := do
  let f := c.delegateFates sourceAddress
  let w ← get
  match ← call f.read (return w.repository.getVirtualWallet sourceAddress) with
  | none => return .skipped
  | some binding =>
    if binding.status ≠ .active ∨ binding.activationStatus ≠ .reclaimed then return .skipped
    else if binding.resourceStatus = .delegated ∨ binding.resourceStatus = .release_pending then return .skipped
    else
      tryCatch (delegate options c f binding)
        (resourceFailure c f.markFailed f.alert binding
          (resourceDelegationFailure binding.userId binding.walletAddress))

def undelegateResource (f : ReleaseFates) (binding : VirtualWalletBinding) (resource : TronResourceType) : Op Unit := do
  let w ← get
  let delegatedAmount ← call (f.delegatedAmount resource) (return stakeOf w.chain (stakeKey binding resource))
  if delegatedAmount ≤ 0 then return ()
  else
    call (f.undelegate resource)
      (modify fun w => { w with chain := w.chain ++ [.undelegated (stakeKey binding resource) delegatedAmount] })

def releasedResources : List TronResourceType := [.bandwidth, .energy]

/-- the body of the `try` block -/
def release (c : Cycle) (f : ReleaseFates) (binding : VirtualWalletBinding) : Op AddressResult := do
  call f.markPending (onRepository (mark binding.virtualWalletId .resourceReleasePending))
  forEach (undelegateResource f binding) releasedResources
  call f.markReleased (onRepository (mark binding.virtualWalletId (.resourceReleased c.now)))
  return .released

def releaseForAddress (c : Cycle) (sourceAddress : String) : Op AddressResult := do
  let f := c.releaseFates sourceAddress
  let w ← get
  match ← call f.read (return w.repository.getVirtualWallet sourceAddress) with
  | none => return .skipped
  | some binding =>
    if binding.status ≠ .active then return .skipped
    else if binding.resourceStatus = .delegated ∨ binding.resourceStatus = .release_pending then
      tryCatch (release c f binding)
        (resourceFailure c f.markFailed f.alert binding (resourceReleaseFailure binding.userId binding.walletAddress))
    else return .skipped

/-- `[...new Set(addresses.filter(Boolean))]` -/
def uniqueAddresses (addresses : List String) : List String := (addresses.filter (· ≠ "")).eraseDups

structure CycleResult where
  delegated : List String
  released : List String
  waiting : List String
  failed : List String
  deriving DecidableEq, Repr

section
variable (rt : Runtime) (options : ResourceDelegationOptions)

def Cycle.queued (c : Cycle) : List String :=
  uniqueAddresses ((c.sweeps.listSweepRecordsByStatuses rt [.queued] options.cycleLimit).map (·.sourceAddress))

def Cycle.activeSourceAddresses (c : Cycle) : List String :=
  (c.sweeps.listSweepRecordsByStatuses rt [.queued, .broadcasted] (options.cycleLimit * 5)).map (·.sourceAddress)

/-- the addresses of the settled sweeps that are not skipped -/
def Cycle.settled (c : Cycle) : List String :=
  (uniqueAddresses ((c.sweeps.listSweepRecordsByStatuses rt [.confirmed, .failed] options.cycleLimit).map
    (·.sourceAddress))).filter (· ∉ c.activeSourceAddresses rt options)

def runCycle (c : Cycle) : Op (Option CycleResult) :=
  if options.enabled then do
    call c.list (return ())
    let delegations ← each (delegateForAddress options c) (c.queued rt options)
    let releases ← each (releaseForAddress c) (c.settled rt options)
    let done := ((c.queued rt options).zip delegations) ++ (c.settled rt options).zip releases
    let those (result : AddressResult) : List String := (done.filter (·.2 = result)).map (·.1)
    return some
      { delegated := those .delegated, released := those .released, waiting := those .waiting, failed := those .failed }
  else return none

def Cycle.exec (c : Cycle) (w : DelegationWorld) : DelegationWorld := (runCycle rt options c w).2

end

/-! ## the condition -/

section
variable (options : ResourceDelegationOptions) (c : Cycle)

def Releases (binding : VirtualWalletBinding) : Prop :=
  binding.status = .active ∧ (binding.resourceStatus = .delegated ∨ binding.resourceStatus = .release_pending)

/-- every resource of the list is taken back -/
def ReleaseFates.Undelegates (f : ReleaseFates) (stake : TronResourceType → ℤ) (resources : List TronResourceType) :
    Prop :=
  ∀ resource ∈ resources, (f.delegatedAmount resource).outcome = .answered ∧
    (0 < stake resource → (f.undelegate resource).outcome = .answered)

/-- some resource of the list is taken back -/
def ReleaseFates.Takes (f : ReleaseFates) (stake : TronResourceType → ℤ) : List TronResourceType → Prop
  | [] => False
  | resource :: resources => (f.delegatedAmount resource).outcome = .answered ∧
      (0 < stake resource ∧ (f.undelegate resource).outcome ≠ .refused ∨
        (0 < stake resource → (f.undelegate resource).outcome = .answered) ∧ f.Takes stake resources)

/-- the `try` block of a release goes well -/
def ReleaseFates.Succeeds (f : ReleaseFates) (stake : TronResourceType → ℤ) : Prop :=
  f.markPending.outcome = .answered ∧ f.Undelegates stake releasedResources ∧ f.markReleased.outcome = .answered

def stakesOf (w : DelegationWorld) (binding : VirtualWalletBinding) (resource : TronResourceType) : ℤ :=
  stakeOf w.chain (stakeKey binding resource)

end

/-! ## what the calls do -/

/-- A stretch of an address's turn: the marks it leaves on the wallet and what it records on the chain. -/
structure Stretch (r : Nat) (marks : List Mark) (events : List StakeEvent) (w w' : DelegationWorld) : Prop where
  repository : w'.repository = w.repository.marked r marks
  chain : w'.chain = w.chain ++ events

section
variable {w w' w'' : DelegationWorld} {r : Nat} {id : String} {ms ms' : List Mark} {events events' : List StakeEvent}

theorem Stretch.none (hrepository : w'.repository = w.repository) (hchain : w'.chain = w.chain) :
    Stretch r [] [] w w' where
  repository := hrepository
  chain := by rw [hchain, List.append_nil]

theorem Stretch.trans (h : Stretch r ms events w w') (h' : Stretch r ms' events' w' w'') :
    Stretch r (ms ++ ms') (events ++ events') w w'' where
  repository := by rw [h'.repository, h.repository, marked_append]
  chain := by rw [h'.chain, h.chain, List.append_assoc]

/-- the wallet is still found by its id -/
theorem Stretch.found (h : Stretch r ms events w w') (hid : w.repository.walletById.get? id = some r) :
    w'.repository.walletById.get? id = some r := by
  rw [h.repository, marked_walletById]
  exact hid

end

/-! ## an address is delegated to -/

/-- every call is answered, but those for a failure -/
structure DelegateFates.Clean (f : DelegateFates) : Prop where
  read : f.read.outcome = .answered
  markPending : f.markPending.outcome = .answered
  capacity : ∀ resource, (f.capacity resource).outcome = .answered
  markWaiting : f.markWaiting.outcome = .answered
  delegate : ∀ resource, (f.delegate resource).outcome = .answered
  markDelegated : f.markDelegated.outcome = .answered

def delegations (binding : VirtualWalletBinding) (items : List ResourceAmount) : List StakeEvent :=
  items.map fun item => .delegated (stakeKey binding item.resource) item.amountSun

section
variable {options : ResourceDelegationOptions} {c : Cycle} {w : DelegationWorld} {r : Nat}
  {binding : VirtualWalletBinding} {f : DelegateFates}

end

/-- the wallet of an address, with its number -/
structure Found (w : DelegationWorld) (address : String) (stored : StoredVirtualWalletBinding) (r : Nat) : Prop where
  find : w.repository.find w.repository.walletByAddress address = some stored
  number : w.repository.walletByAddress.get? address = some r
  own : stored.walletAddress = address
  byId : w.repository.walletById.get? stored.virtualWalletId = some r

section
variable {rt : Runtime} {options : ResourceDelegationOptions} {c : Cycle} {w : DelegationWorld} {address : String}

theorem Found.get {stored : StoredVirtualWalletBinding} {r : Nat} (h : Found w address stored r) :
    w.repository.getVirtualWallet address = some stored.toVirtualWalletBinding := by
  unfold getVirtualWallet
  rw [h.find]
  rfl

end

/-! ## an address is released -/

structure ReleaseFates.Clean (f : ReleaseFates) : Prop where
  read : f.read.outcome = .answered
  markPending : f.markPending.outcome = .answered
  delegatedAmount : ∀ resource, (f.delegatedAmount resource).outcome = .answered
  undelegate : ∀ resource, (f.undelegate resource).outcome = .answered
  markReleased : f.markReleased.outcome = .answered

/-- what is taken back of some resources -/
def undelegations (binding : VirtualWalletBinding) (stake : TronResourceType → ℤ)
    (resources : List TronResourceType) : List StakeEvent :=
  (resources.filter (0 < stake ·)).map fun resource => .undelegated (stakeKey binding resource) (stake resource)

/-- everything is taken back, and the last mark says so -/
def Finished (binding : VirtualWalletBinding) (r : Nat) (w w' : DelegationWorld) : Prop :=
  ∃ ms now, Stretch r (ms ++ [.resourceReleased now]) (undelegations binding (stakesOf w binding) releasedResources) w w'

/-- some resources are taken back, and the wallet is left as it is or as one whose release is pending -/
def Pending (binding : VirtualWalletBinding) (r : Nat) (w w' : DelegationWorld) : Prop :=
  ∃ ms done, Stretch r ms (undelegations binding (stakesOf w binding) done) w w' ∧ done <+: releasedResources ∧
    ∀ m ∈ ms, m = .resourceReleasePending

/-- the turn takes something back only if its calls do -/
def Accounted (f : ReleaseFates) (binding : VirtualWalletBinding) (w w' : DelegationWorld) : Prop :=
  w'.chain ≠ w.chain → f.markPending.outcome = .answered ∧ f.Takes (stakesOf w binding) releasedResources

section
variable {c : Cycle} {w : DelegationWorld} {r : Nat} {binding : VirtualWalletBinding} {f : ReleaseFates}
  {stake : TronResourceType → ℤ}

end

/-! ## the turn of an address to release -/

def Releasable (w : DelegationWorld) (address : String) : Prop :=
  ∃ binding, w.repository.getVirtualWallet address = some binding ∧ Releases binding

/-- the wallet is marked as released, and nothing is staked for its address -/
def Released (w : DelegationWorld) (address : String) : Prop :=
  (∃ binding, w.repository.getVirtualWallet address = some binding ∧ binding.resourceStatus = .released) ∧
    ∀ k : StakeKey, k.receiverAddress = address → stakeOf w.chain k = 0

section
variable {rt : Runtime} {options : ResourceDelegationOptions} {c : Cycle} {w w' w'' : DelegationWorld}
  {address : String} {free : String → Prop}

theorem Finished.then {binding : VirtualWalletBinding} {r : Nat} (h : Finished binding r w w')
    (h' : Stretch r [] [] w' w'') : Finished binding r w w'' := by
  obtain ⟨ms, now, hstretch⟩ := h
  have hall := hstretch.trans h'
  rw [List.append_nil, List.append_nil] at hall
  exact ⟨ms, now, hall⟩

theorem Pending.then {binding : VirtualWalletBinding} {r : Nat} (h : Pending binding r w w')
    (h' : Stretch r [] [] w' w'') : Pending binding r w w'' := by
  obtain ⟨ms, done, hstretch, hprefix, hms⟩ := h
  have hall := hstretch.trans h'
  rw [List.append_nil, List.append_nil] at hall
  exact ⟨ms, done, hall, hprefix, hms⟩

theorem Finished.byId {binding : VirtualWalletBinding} {r : Nat} {id : String} (h : Finished binding r w w')
    (hid : w.repository.walletById.get? id = some r) : w'.repository.walletById.get? id = some r := by
  obtain ⟨_, _, hstretch⟩ := h
  exact hstretch.found hid

theorem Pending.byId {binding : VirtualWalletBinding} {r : Nat} {id : String} (h : Pending binding r w w')
    (hid : w.repository.walletById.get? id = some r) : w'.repository.walletById.get? id = some r := by
  obtain ⟨_, _, hstretch, -⟩ := h
  exact hstretch.found hid

end

/-! ## whatever is staked is released later -/

/-- what every turn keeps -/
structure Sound (rt : Runtime) (w : DelegationWorld) : Prop where
  linked : Linked rt w.repository
  chain : Alternates w.chain
  covered : ∀ k, 0 < stakeOf w.chain k → ∃ binding,
    w.repository.getVirtualWallet k.receiverAddress = some binding ∧ Releases binding ∧ binding.network = k.network

/-- what is undelegated between two worlds is of free addresses -/
def Extends (free : String → Prop) (w w' : DelegationWorld) : Prop :=
  ∃ events, w'.chain = w.chain ++ events ∧ ∀ k amountSun, .undelegated k amountSun ∈ events → free k.receiverAddress

section
variable {rt : Runtime} {options : ResourceDelegationOptions} {c : Cycle} {w w' w'' : DelegationWorld}
  {address : String} {free : String → Prop}

theorem Extends.refl (w : DelegationWorld) : Extends free w w :=
  ⟨[], (List.append_nil _).symm, fun _ _ h => absurd h List.not_mem_nil⟩

theorem Extends.trans (h : Extends free w w') (h' : Extends free w' w'') : Extends free w w'' := by
  obtain ⟨events, hchain, hfree⟩ := h
  obtain ⟨events', hchain', hfree'⟩ := h'
  refine ⟨events ++ events', by rw [hchain', hchain, List.append_assoc], fun k amountSun hmem => ?_⟩
  rcases List.mem_append.mp hmem with hmem | hmem
  · exact hfree k amountSun hmem
  · exact hfree' k amountSun hmem

end

/-! ## cycles -/

/-- what a cycle keeps, and what it undelegates -/
structure Upkeep (rt : Runtime) (free : String → Prop) (w w' : DelegationWorld) : Prop where
  sound : Sound rt w'
  kept : ∀ address, Releasable w address → Releasable w' address ∨ Released w' address
  undelegates : Extends free w w'

section
variable (rt : Runtime) (options : ResourceDelegationOptions)

/-- the address has a sweep that is queued or broadcasted -/
def HasActiveSweep (sweeps : InMemorySweeps) (address : String) : Prop :=
  ∃ sweep ∈ sweeps.sweepRecords.values, sweep.sourceAddress = address ∧
    (sweep.status = .queued ∨ sweep.status = .broadcasted)

/-- every call is answered, but those for a failure -/
structure Cycle.Clean (c : Cycle) : Prop where
  list : c.list.outcome = .answered
  delegates : ∀ address, (c.delegateFates address).Clean
  releases : ∀ address, (c.releaseFates address).Clean

variable {rt options}
variable {c : Cycle} {w w' : DelegationWorld} {free : String → Prop}

theorem Upkeep.refl (h : Sound rt w) : Upkeep rt free w w := ⟨h, fun _ => Or.inl, Extends.refl w⟩

end

/-! ## runs -/

/-- the world before the first cycle -/
def start (repository : InMemoryVirtualWalletRepository) : DelegationWorld := ⟨repository, [], AlertService.new⟩

/-- what delegations and releases should keep in a run that starts from these wallets -/
structure Balanced (rt : Runtime) (options : ResourceDelegationOptions) (w₀ : DelegationWorld) (cycles : List Cycle) :
    Prop where
  /-- between two delegations of a resource to an address stands an undelegation -/
  once : ∀ k before mid after a a', (runCalls (Cycle.exec rt options) cycles w₀).chain =
    before ++ .delegated k a :: (mid ++ .delegated k a' :: after) → ∃ b, .undelegated k b ∈ mid
  /-- whatever is staked stands behind a wallet that is to be released -/
  covered : ∀ k, 0 < stakeOf (runCalls (Cycle.exec rt options) cycles w₀).chain k →
    Releasable (runCalls (Cycle.exec rt options) cycles w₀) k.receiverAddress
  /-- which a cycle whose calls are answered does, once a settled sweep of the wallet is on its page -/
  later : ∀ c : Cycle, options.enabled = true → c.Clean → ∀ address ∈ c.settled rt options,
    Releasable (runCalls (Cycle.exec rt options) cycles w₀) address →
      Released (c.exec rt options (runCalls (Cycle.exec rt options) cycles w₀)) address
  /-- a wallet stays to be released until it is, whatever fails -/
  retried : ∀ before c after, cycles = before ++ c :: after → ∀ address,
    Releasable (runCalls (Cycle.exec rt options) before w₀) address →
      Releasable (runCalls (Cycle.exec rt options) (before ++ [c]) w₀) address ∨
        Released (runCalls (Cycle.exec rt options) (before ++ [c]) w₀) address
  /-- nothing is undelegated while the address has a queued or broadcasted sweep -/
  waits : ∀ before c after, cycles = before ++ c :: after →
    Extends (fun address => ¬ HasActiveSweep c.sweeps address) (runCalls (Cycle.exec rt options) before w₀)
      (runCalls (Cycle.exec rt options) (before ++ [c]) w₀)

end ResourceDelegationService
