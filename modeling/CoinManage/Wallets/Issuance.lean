import CoinManage.Wallets.Lifecycle

/-!
# Requests for virtual wallets

The service draws a fresh account for every request, has the repository issue or reissue a wallet for it, and hands
the key of the wallet it got to the other system.  An idempotency key that was used answers with its wallet, whoever
asks.

* `issueInternal`      what `issue` and `reissue` do;
* `Minted`             every wallet has its own drawn account and is found by its address, and what was handed over
                       are stored wallets (`Minted.step`);
* `synced_own_key`     so in every run a key is handed over with the user it was generated for;
* `answer_owner`       whose wallet a request gets;
* `key_names_one_wallet`   what every later request under a used key gets.
-/

/-! ## the source -/

structure GeneratedVirtualWalletAccount where
  address : String
  privateKey : String
  deriving DecidableEq

/-- what the service is built with: the `n`-th account that is drawn, and whether there is a sync client -/
structure VirtualWalletService where
  encrypt : String → String
  hotWalletAddress : String
  generateAccount : Nat → GeneratedVirtualWalletAccount
  syncClient : Bool

namespace VirtualWalletService

open InMemoryVirtualWalletRepository

structure SyncInput where
  userId : String
  currencyId : Nat
  network : TronNetwork
  address : String
  privateKey : String
  verified : Bool := false
  deriving DecidableEq

structure IssueRequest where
  userId : String
  currencyId : Nat
  network : TronNetwork
  idempotencyKey : String

structure World where
  repository : InMemoryVirtualWalletRepository
  accountsDrawn : Nat
  /-- what was handed to the sync client -/
  synced : List SyncInput

abbrev Op (α : Type) := Method World LedgerError α

def onRepository {α : Type} (op : InMemoryVirtualWalletRepository.Op α) : Op α :=
  Method.zoom (·.repository) (fun repository w => { w with repository := repository }) op

section
variable (rt : Runtime) (service : VirtualWalletService)

/-- `this.generateAccount()` -/
def drawAccount : Op GeneratedVirtualWalletAccount := fun w =>
  (.ok (service.generateAccount w.accountsDrawn), { w with accountsDrawn := w.accountsDrawn + 1 })

/-- `repository.reissueVirtualWallet` or `repository.issueVirtualWallet` -/
def issueMethod (reissue : Bool) (input : IssueInput) : InMemoryVirtualWalletRepository.Op VirtualWalletIssueResult :=
  if reissue then reissueVirtualWallet rt input else issueVirtualWallet rt input

/-- what the repository is asked for -/
def issueInput (input : IssueRequest) (generated : GeneratedVirtualWalletAccount) (now : String) : IssueInput where
  userId := input.userId
  currencyId := input.currencyId
  network := input.network
  walletAddress := generated.address
  privateKey := generated.privateKey
  encryptedPrivateKey := service.encrypt generated.privateKey
  sweepTargetAddress := service.hotWalletAddress
  idempotencyKey := input.idempotencyKey
  nowIso := now

/-- `syncClient.syncVirtualWallet`, which answers like this -/
def syncVirtualWallet (input : SyncInput) (answer : Except LedgerError Unit) : Op Unit := do
  modify fun w => { w with synced := w.synced ++ [input] }
  Method.ofExcept answer

def signerNotFound : LedgerError :=
  .domain 500 "VIRTUAL_WALLET_SIGNER_NOT_FOUND" "virtual wallet signer could not be loaded after issuance"

def syncIssued (issued : VirtualWalletIssueResult) (answer : Except LedgerError Unit) : Op Unit := do
  match (← get).repository.getWalletSignerByAddress issued.binding.walletAddress issued.binding.currencyId
      issued.binding.network with
  | none => throw signerNotFound
  | some signer =>
    if signer.privateKey = "" then throw signerNotFound
    else
      syncVirtualWallet
        { userId := issued.binding.userId
          currencyId := issued.binding.currencyId
          network := issued.binding.network
          address := signer.address
          privateKey := signer.privateKey } answer

/-- `issue` and `reissue`; `answer` is what the sync client says -/
def issueInternal (input : IssueRequest) (reissue : Bool) (now : String) (answer : Except LedgerError Unit) :
    Op VirtualWalletIssueResult := do
  let generated ← drawAccount service
  Method.throwWhen (generated.address = "" ∨ generated.privateKey = "")
    (.domain 500 "VIRTUAL_WALLET_GENERATION_FAILED" "failed to generate virtual wallet account")
  let issued ← onRepository (issueMethod rt reissue (issueInput service input generated now))
  if service.syncClient then syncIssued issued answer
  return issued

inductive Call where
  | issueInternal (input : IssueRequest) (reissue : Bool) (now : String) (answer : Except LedgerError Unit)
  | retire (virtualWalletId now : String)
  | disable (virtualWalletId now : String)
  | mark (virtualWalletId : String) (m : Mark)
  | ledger (call : InMemoryLedger.Call)

def Call.exec : Call → Op Unit
  | .issueInternal input reissue now answer => do
    let _ ← VirtualWalletService.issueInternal rt service input reissue now answer
  | .retire virtualWalletId now => onRepository (retireVirtualWallet virtualWalletId now none)
  | .disable virtualWalletId now => onRepository (disableVirtualWallet virtualWalletId now)
  | .mark virtualWalletId m => onRepository (InMemoryVirtualWalletRepository.mark virtualWalletId m)
  | .ledger call => onRepository ((InMemoryVirtualWalletRepository.Call.ledger call).exec rt)

def Call.step (c : Call) (w : World) : World := (c.exec rt service w).2

end

def World.new (ledger : InMemoryLedger) : World := ⟨InMemoryVirtualWalletRepository.new ledger, 0, []⟩

/-- accounts that are drawn are new, and complete -/
structure Fresh (service : VirtualWalletService) : Prop where
  distinct : ∀ m n, (service.generateAccount m).address = (service.generateAccount n).address → m = n
  address : ∀ n, (service.generateAccount n).address ≠ ""
  privateKey : ∀ n, (service.generateAccount n).privateKey ≠ ""

/-! ## what the repository answers -/

section
variable {rt : Runtime} {service : VirtualWalletService} {s : InMemoryVirtualWalletRepository} {w w' : World}
  {input : IssueInput} {reissue : Bool}

theorem duplicate_of_object {r : Nat} {wallet : StoredVirtualWalletBinding} (h : s.objects[r]? = some wallet) :
    duplicate r s = (.ok { binding := wallet.toVirtualWalletBinding, duplicated := true }, s) := by
  unfold duplicate
  rw [Method.get_bind, h]
  rfl

/-- a used key answers with its wallet -/
theorem issueMethod_used {r : Nat} {wallet : StoredVirtualWalletBinding}
    (hkey : s.walletByIdempotencyKey.get? input.idempotencyKey = some r) (hr : s.objects[r]? = some wallet) :
    issueMethod rt reissue input s = (.ok { binding := wallet.toVirtualWalletBinding, duplicated := true }, s) := by
  unfold issueMethod
  cases reissue with
  | true =>
    rw [if_pos rfl]
    unfold reissueVirtualWallet
    rw [Method.get_bind, hkey]
    exact duplicate_of_object hr
  | false =>
    rw [if_neg (by decide)]
    unfold issueVirtualWallet
    rw [Method.get_bind, hkey]
    exact duplicate_of_object hr

/-- and a new one answers with the wallet in use, throws, or makes a wallet -/
theorem issueMethod_new (hkey : s.walletByIdempotencyKey.get? input.idempotencyKey = none) :
    (∃ r wallet, s.objects[r]? = some wallet ∧ r ∈ s.userWallets input.userId ∧
      wallet.currencyId = input.currencyId ∧ wallet.status = .active ∧
      issueMethod rt reissue input s = (.ok { binding := wallet.toVirtualWalletBinding, duplicated := true }, s)) ∨
    (∃ e, issueMethod rt reissue input s = (.error e, s)) ∨
    issueMethod rt reissue input s =
      createWallet rt input (s.getActiveWallet input.userId input.currencyId) s := by
  unfold issueMethod
  cases reissue with
  | true =>
    rw [if_pos rfl]
    exact Or.inr (Or.inr (reissue_reaches hkey))
  | false =>
    rw [if_neg (by decide)]
    by_cases hreaches : IssueReachesLedger s input
    · rw [hreaches.2.1]
      exact Or.inr (Or.inr (issue_reaches hreaches))
    · cases hactive : s.getActiveWallet input.userId input.currencyId with
      | some r =>
        obtain ⟨hmem, wallet, hwallet, hcurrency, hstatus⟩ := getActiveWallet_some hactive
        refine Or.inl ⟨r, wallet, hwallet, hmem, hcurrency, hstatus, ?_⟩
        unfold issueVirtualWallet
        rw [Method.get_bind, hkey]
        dsimp only
        rw [Method.get_bind, hactive]
        exact duplicate_of_object hwallet
      | none =>
        refine Or.inr (Or.inl ?_)
        unfold issueVirtualWallet
        rw [Method.get_bind, hkey]
        dsimp only
        rw [Method.get_bind, hactive]
        dsimp only
        by_cases huser : input.userId = ""
        · have hget : getWalletBinding input.userId s =
              (.error (.domain 400 "VALIDATION_ERROR" "userId or walletAddress is required"), s) := by
            unfold getWalletBinding
            rw [if_pos huser]
            rfl
          exact ⟨_, Method.bind_error _ hget⟩
        · have hget : getWalletBinding input.userId s =
              (.ok (s.ledger.walletBindingsByUserId.get? input.userId), s) := by
            unfold getWalletBinding
            rw [if_neg huser]
            rfl
          rw [Method.bind_ok _ hget]
          unfold Method.throwWhen
          cases hbinding : s.ledger.walletBindingsByUserId.get? input.userId with
          | some binding => exact ⟨_, rfl⟩
          | none =>
            rw [if_neg (by simp), Method.pure_bind, Method.get_bind]
            by_cases haddress : (s.find s.walletByAddress input.walletAddress).any
                (fun existing => existing.userId ≠ input.userId) = true
            · rw [if_pos haddress]
              exact ⟨_, rfl⟩
            · exact absurd ⟨hkey, hactive, huser, hbinding, by simpa using haddress⟩ hreaches

/-! ## the accounts of the wallets -/

def handedOver (wallet : StoredVirtualWalletBinding) : SyncInput where
  userId := wallet.userId
  currencyId := wallet.currencyId
  network := wallet.network
  address := wallet.walletAddress
  privateKey := wallet.privateKey

theorem handedOver_later {wallet wallet' : StoredVirtualWalletBinding} (h : Later wallet wallet') :
    handedOver wallet' = handedOver wallet := by
  unfold handedOver
  rw [h.userId, h.currencyId, h.network, h.walletAddress, h.privateKey]

/-- every wallet has an account of its own and is found by its address, and stored wallets were handed over -/
structure Minted (rt : Runtime) (service : VirtualWalletService) (w : World) : Prop where
  linked : Linked rt w.repository
  drawn : ∀ (r : Nat) wallet, w.repository.objects[r]? = some wallet →
    ∃ n < w.accountsDrawn, service.generateAccount n = ⟨wallet.walletAddress, wallet.privateKey⟩
  found : ∀ (r : Nat) wallet, w.repository.objects[r]? = some wallet →
    w.repository.walletByAddress.get? wallet.walletAddress = some r
  synced : ∀ sync ∈ w.synced, ∃ (r : Nat) (wallet : StoredVirtualWalletBinding),
    w.repository.objects[r]? = some wallet ∧ sync = handedOver wallet

theorem minted_new (rt : Runtime) (service : VirtualWalletService) (ledger : InMemoryLedger) :
    Minted rt service (World.new ledger) where
  linked := linked_new rt ledger
  drawn := fun r wallet h => (by cases h)
  found := fun r wallet h => (by cases h)
  synced := fun sync h => absurd h List.not_mem_nil

theorem Minted.ledger (h : Minted rt service w) (ledger : InMemoryLedger) :
    Minted rt service { w with repository := { w.repository with ledger := ledger } } :=
  ⟨h.linked.ledger ledger, h.drawn, h.found, h.synced⟩

/-- one more account is drawn -/
theorem Minted.draw (h : Minted rt service w) :
    Minted rt service { w with accountsDrawn := w.accountsDrawn + 1 } where
  linked := h.linked
  drawn := by
    intro r wallet hr
    obtain ⟨n, hn, haccount⟩ := h.drawn r wallet hr
    exact ⟨n, Nat.lt_succ_of_lt hn, haccount⟩
  found := h.found
  synced := h.synced

/-- a write that moves a wallet on -/
theorem Minted.written (h : Minted rt service w) (r : Nat)
    {f : StoredVirtualWalletBinding → StoredVirtualWalletBinding} (hnames : KeepsNames f)
    (hf : ∀ wallet, w.repository.objects[r]? = some wallet → Later wallet (f wallet)) :
    Minted rt service { w with repository := w.repository.written r f } := by
  have hback : ∀ (i : Nat) wallet', (w.repository.written r f).objects[i]? = some wallet' →
      ∃ wallet, w.repository.objects[i]? = some wallet ∧ Later wallet wallet' := by
    intro i wallet' hi
    rw [getElem?_written] at hi
    split at hi
    · next heq =>
      subst heq
      obtain ⟨wallet, hwallet, rfl⟩ := Option.map_eq_some_iff.mp hi
      exact ⟨wallet, hwallet, hf wallet hwallet⟩
    · exact ⟨wallet', hi, Later.refl wallet'⟩
  constructor
  · exact h.linked.written hnames r
  · intro i wallet' hi
    obtain ⟨wallet, hwallet, hlater⟩ := hback i wallet' hi
    obtain ⟨n, hn, haccount⟩ := h.drawn i wallet hwallet
    exact ⟨n, hn, by rw [haccount, hlater.walletAddress, hlater.privateKey]⟩
  · intro i wallet' hi
    obtain ⟨wallet, hwallet, hlater⟩ := hback i wallet' hi
    rw [hlater.walletAddress]
    exact h.found i wallet hwallet
  · intro sync hsync
    obtain ⟨i, wallet, hwallet, rfl⟩ := h.synced sync hsync
    obtain ⟨wallet', hwallet', hlater⟩ := (grown_written hf).objects i wallet hwallet
    exact ⟨i, wallet', hwallet', (handedOver_later hlater).symm⟩

/-- a wallet for an account that was just drawn -/
theorem Minted.enter (huuid : Function.Injective rt.uuid) (hfresh : Fresh service) (h : Minted rt service w)
    {stored : StoredVirtualWalletBinding} (hid : stored.virtualWalletId = rt.uuid w.repository.uuidsDrawn)
    (haccount : service.generateAccount w.accountsDrawn = ⟨stored.walletAddress, stored.privateKey⟩) :
    Minted rt service { w with repository := w.repository.enter stored, accountsDrawn := w.accountsDrawn + 1 } := by
  have hobjects : ∀ (i : Nat) wallet, (w.repository.enter stored).objects[i]? = some wallet →
      w.repository.objects[i]? = some wallet ∨ i = w.repository.objects.length ∧ wallet = stored := by
    intro i wallet hi
    change (w.repository.objects ++ [stored])[i]? = some wallet at hi
    by_cases hlt : i < w.repository.objects.length
    · rw [List.getElem?_append_left hlt] at hi
      exact Or.inl hi
    · rw [List.getElem?_append_right (Nat.le_of_not_lt hlt)] at hi
      obtain ⟨hzero, hstored⟩ := List.getElem?_eq_some_iff.mp hi
      rw [List.length_singleton] at hzero
      refine Or.inr ⟨by omega, ?_⟩
      rw [← hstored, List.getElem_singleton]
  -- the address is no older wallet's
  have hnew : ∀ (i : Nat) wallet, w.repository.objects[i]? = some wallet →
      stored.walletAddress ≠ wallet.walletAddress := by
    intro i wallet hi heq
    obtain ⟨n, hn, hold⟩ := h.drawn i wallet hi
    have hsame : w.accountsDrawn = n := by
      apply hfresh.distinct
      rw [haccount, hold]
      exact heq
    omega
  constructor
  · exact h.linked.enter huuid hid
  · intro i wallet hi
    rcases hobjects i wallet hi with hold | ⟨-, rfl⟩
    · obtain ⟨n, hn, hdrawn⟩ := h.drawn i wallet hold
      exact ⟨n, Nat.lt_succ_of_lt hn, hdrawn⟩
    · exact ⟨w.accountsDrawn, Nat.lt_succ_self _, haccount⟩
  · intro i wallet hi
    show (w.repository.walletByAddress.set stored.walletAddress w.repository.objects.length).get?
      wallet.walletAddress = some i
    rcases hobjects i wallet hi with hold | ⟨rfl, rfl⟩
    · rw [OrderedMap.get?_set_of_ne _ (hnew i wallet hold)]
      exact h.found i wallet hold
    · exact OrderedMap.get?_set_self _ _ _
  · intro sync hsync
    obtain ⟨i, wallet, hwallet, rfl⟩ := h.synced sync hsync
    obtain ⟨hlt, -⟩ := List.getElem?_eq_some_iff.mp hwallet
    refine ⟨i, wallet, ?_, rfl⟩
    show (w.repository.objects ++ [stored])[i]? = some wallet
    rw [List.getElem?_append_left hlt]
    exact hwallet

/-- the wallet of an account that was just drawn, whatever the ledger says -/
theorem Minted.createWallet (huuid : Function.Injective rt.uuid) (hfresh : Fresh service)
    (h : Minted rt service w) {input : IssueInput}
    (haccount : service.generateAccount w.accountsDrawn = ⟨input.walletAddress, input.privateKey⟩) :
    Minted rt service
      { w with
        repository := (InMemoryVirtualWalletRepository.createWallet rt input
          (w.repository.getActiveWallet input.userId input.currencyId) w.repository).2
        accountsDrawn := w.accountsDrawn + 1 } := by
  have hcreated : Minted rt service
      { w with
        repository := created rt w.repository input (w.repository.getActiveWallet input.userId input.currencyId)
        accountsDrawn := w.accountsDrawn + 1 } := by
    cases hactive : w.repository.getActiveWallet input.userId input.currencyId with
    | none => exact h.enter huuid hfresh rfl haccount
    | some r =>
      obtain ⟨-, wallet, hwallet, -, hstatus⟩ := getActiveWallet_some hactive
      have hretired : ∀ wallet', w.repository.objects[r]? = some wallet' → Later wallet'
          (retired input.nowIso (newWallet rt w.repository input).virtualWalletId wallet') := by
        intro wallet' hwallet'
        rw [hwallet] at hwallet'
        obtain rfl := Option.some.inj hwallet'
        exact retired_later _ _ hstatus
      exact (h.written r (retired_keepsNames _ _) hretired).enter huuid hfresh rfl haccount
  by_cases htaken : AddressTaken w.repository.ledger input.userId input.walletAddress
  · rw [createWallet_refused _ htaken]
    exact hcreated
  · obtain ⟨ledger', hbound⟩ :=
      @createWallet_bound rt _ _ (w.repository.getActiveWallet input.userId input.currencyId) htaken
    rw [hbound]
    exact hcreated.ledger ledger'

/-! ## requests -/

/-- the wallet of a used key -/
theorem Minted.used (h : Minted rt service w) {key : String} {r : Nat}
    (hkey : w.repository.walletByIdempotencyKey.get? key = some r) :
    ∃ wallet, w.repository.objects[r]? = some wallet :=
  ⟨_, List.getElem?_eq_getElem (h.linked.byKey key r hkey)⟩

theorem Minted.issueMethod (huuid : Function.Injective rt.uuid) (hfresh : Fresh service) (h : Minted rt service w)
    (reissue : Bool) (input : IssueInput)
    (haccount : service.generateAccount w.accountsDrawn = ⟨input.walletAddress, input.privateKey⟩) :
    Minted rt service
      { w with
        repository := (VirtualWalletService.issueMethod rt reissue input w.repository).2
        accountsDrawn := w.accountsDrawn + 1 } := by
  cases hkey : w.repository.walletByIdempotencyKey.get? input.idempotencyKey with
  | some r =>
    obtain ⟨wallet, hwallet⟩ := h.used hkey
    rw [issueMethod_used hkey hwallet]
    exact h.draw
  | none =>
    rcases @issueMethod_new rt w.repository input reissue hkey with
      ⟨r, wallet, -, -, -, -, hold⟩ | ⟨e, hthrows⟩ | hcreates
    · rw [hold]
      exact h.draw
    · rw [hthrows]
      exact h.draw
    · rw [hcreates]
      exact h.createWallet huuid hfresh haccount

/-- an answer names a stored wallet; under a new key it is the requester's, and in use -/
theorem Minted.issued (h : Minted rt service w) {result : VirtualWalletIssueResult}
    {s' : InMemoryVirtualWalletRepository} (hfiled : Filed w.repository)
    (hreturns : VirtualWalletService.issueMethod rt reissue input w.repository = (.ok result, s')) :
    ∃ r wallet, s'.objects[r]? = some wallet ∧ result.binding = wallet.toVirtualWalletBinding ∧
      (w.repository.walletByIdempotencyKey.get? input.idempotencyKey = some r ∧ result.duplicated = true ∧
        s' = w.repository ∨
      w.repository.walletByIdempotencyKey.get? input.idempotencyKey = none ∧ wallet.userId = input.userId ∧
        wallet.currencyId = input.currencyId ∧ wallet.status = .active) := by
  cases hkey : w.repository.walletByIdempotencyKey.get? input.idempotencyKey with
  | some r =>
    obtain ⟨wallet, hwallet⟩ := h.used hkey
    rw [issueMethod_used hkey hwallet] at hreturns
    obtain ⟨hresult, rfl⟩ := Prod.mk.inj hreturns
    obtain rfl := Except.ok.inj hresult
    exact ⟨r, wallet, hwallet, rfl, Or.inl ⟨rfl, rfl, rfl⟩⟩
  | none =>
    rcases @issueMethod_new rt w.repository input reissue hkey with
      ⟨r, wallet, hwallet, hmem, hcurrency, hstatus, hold⟩ | ⟨e, hthrows⟩ | hcreates
    · rw [hold] at hreturns
      obtain ⟨hresult, rfl⟩ := Prod.mk.inj hreturns
      obtain rfl := Except.ok.inj hresult
      obtain ⟨wallet', hwallet', huser⟩ := hfiled.owned _ r hmem
      rw [hwallet] at hwallet'
      obtain rfl := Option.some.inj hwallet'
      exact ⟨r, wallet, hwallet, rfl, Or.inr ⟨rfl, huser, hcurrency, hstatus⟩⟩
    · rw [hthrows] at hreturns
      cases hreturns
    · by_cases htaken : AddressTaken w.repository.ledger input.userId input.walletAddress
      · rw [hcreates, createWallet_refused _ htaken] at hreturns
        cases hreturns
      · obtain ⟨ledger', hbound⟩ :=
          @createWallet_bound rt _ _ (w.repository.getActiveWallet input.userId input.currencyId) htaken
        rw [hcreates, hbound] at hreturns
        obtain ⟨hresult, rfl⟩ := Prod.mk.inj hreturns
        obtain rfl := Except.ok.inj hresult
        exact ⟨_, _, created_last _, rfl, Or.inr ⟨rfl, rfl, rfl, rfl⟩⟩

/-- the key of a stored wallet is handed over while the wallet is in use -/
theorem Minted.syncIssued (hfresh : Fresh service) (h : Minted rt service w) {issued : VirtualWalletIssueResult}
    {r : Nat} {wallet : StoredVirtualWalletBinding} (hr : w.repository.objects[r]? = some wallet)
    (hissued : issued.binding = wallet.toVirtualWalletBinding) (answer : Except LedgerError Unit) :
    VirtualWalletService.syncIssued issued answer w =
      if wallet.status = .active then (answer, { w with synced := w.synced ++ [handedOver wallet] })
      else (.error signerNotFound, w) := by
  obtain ⟨n, -, haccount⟩ := h.drawn r wallet hr
  have hkey : wallet.privateKey ≠ "" := by
    have hne := hfresh.privateKey n
    rw [haccount] at hne
    exact hne
  have hfind : w.repository.find w.repository.walletByAddress wallet.walletAddress = some wallet :=
    find_eq_some.mpr ⟨r, h.found r wallet hr, hr⟩
  unfold VirtualWalletService.syncIssued
  rw [Method.get_bind, hissued]
  unfold getWalletSignerByAddress
  rw [hfind]
  by_cases hactive : wallet.status = .active
  · rw [if_pos hactive]
    simp only [hactive, ne_eq, not_true_eq_false, or_self, if_false, hkey]
    unfold syncVirtualWallet
    rw [Method.modify_bind]
    rfl
  · rw [if_neg hactive]
    simp only [hactive, ne_eq, not_true_eq_false, not_false_eq_true, or_true, if_true]
    rfl

/-- an account is drawn, and the repository asked -/
theorem issueInternal_apply (hfresh : Fresh service) (request : IssueRequest) (now : String)
    (answer : Except LedgerError Unit) (w : World) :
    issueInternal rt service request reissue now answer w =
      (do
        let issued ← onRepository (VirtualWalletService.issueMethod rt reissue
          (issueInput service request (service.generateAccount w.accountsDrawn) now))
        if service.syncClient then VirtualWalletService.syncIssued issued answer
        return issued : Op VirtualWalletIssueResult) { w with accountsDrawn := w.accountsDrawn + 1 } := by
  unfold issueInternal
  rw [Method.bind_apply]
  show (Method.throwWhen ((service.generateAccount w.accountsDrawn).address = "" ∨
    (service.generateAccount w.accountsDrawn).privateKey = "") _ >>= _) _ = _
  unfold Method.throwWhen
  rw [if_neg]
  · rfl
  · intro hempty
    rcases hempty with haddress | hkey
    · exact hfresh.address _ haddress
    · exact hfresh.privateKey _ hkey

/-! ## runs -/

/-- the invariant of the service and its repository -/
structure Sound (rt : Runtime) (service : VirtualWalletService) (w : World) : Prop where
  minted : Minted rt service w
  filed : Filed w.repository

/-- the repository moves on as its own calls move it -/
theorem issueMethod_step (rt : Runtime) (reissue : Bool) (input : IssueInput) (s : InMemoryVirtualWalletRepository) :
    ∃ c : InMemoryVirtualWalletRepository.Call, (issueMethod rt reissue input s).2 = c.step rt s := by
  unfold issueMethod
  cases reissue with
  | true => exact ⟨.reissueVirtualWallet input, (discard_state _).symm⟩
  | false => exact ⟨.issueVirtualWallet input, (discard_state _).symm⟩

theorem discard_world {α : Type} (op : Op α) (w : World) : ((do let _ ← op : Op Unit) w).2 = (op w).2 := by
  show ((op >>= fun _ => pure ()) w).2 = _
  rw [Method.bind_apply]
  rcases op w with ⟨_ | _, _⟩ <;> rfl

/-- one request: the repository moves on by one call, and a stored wallet may be handed over -/
theorem Sound.requested (huuid : Function.Injective rt.uuid) (hfresh : Fresh service) (h : Sound rt service w)
    (request : IssueRequest) (reissue : Bool) (now : String) (answer : Except LedgerError Unit) :
    Sound rt service (issueInternal rt service request reissue now answer w).2 ∧
    Grown w.repository (issueInternal rt service request reissue now answer w).2.repository := by
  rw [issueInternal_apply hfresh]
  set input := issueInput service request (service.generateAccount w.accountsDrawn) now with hinput
  have hminted := h.minted.issueMethod huuid hfresh reissue input rfl
  obtain ⟨c, hc⟩ := issueMethod_step rt reissue input w.repository
  have hfiled : Filed (issueMethod rt reissue input w.repository).2 := by
    rw [hc]
    exact h.filed.step c
  have hgrown : Grown w.repository (issueMethod rt reissue input w.repository).2 := by
    rw [hc]
    exact grown_step c
  rcases hrun : issueMethod rt reissue input w.repository with ⟨e | issued, s'⟩
  · have hstate : onRepository (issueMethod rt reissue input) { w with accountsDrawn := w.accountsDrawn + 1 } =
        (.error e, { w with repository := s', accountsDrawn := w.accountsDrawn + 1 }) := by
      show ((issueMethod rt reissue input w.repository).1, _) = _
      rw [hrun]
    rw [hrun] at hminted hfiled hgrown
    rw [Method.bind_error _ hstate]
    exact ⟨⟨hminted, hfiled⟩, hgrown⟩
  · have hstate : onRepository (issueMethod rt reissue input) { w with accountsDrawn := w.accountsDrawn + 1 } =
        (.ok issued, { w with repository := s', accountsDrawn := w.accountsDrawn + 1 }) := by
      show ((issueMethod rt reissue input w.repository).1, _) = _
      rw [hrun]
    obtain ⟨r, wallet, hwallet, hbinding, -⟩ := h.minted.issued h.filed hrun
    rw [hrun] at hminted hfiled hgrown
    rw [Method.bind_ok _ hstate]
    cases hclient : service.syncClient with
    | false => exact ⟨⟨hminted, hfiled⟩, hgrown⟩
    | true =>
      rw [if_pos rfl, Method.bind_pure_store, hminted.syncIssued hfresh hwallet hbinding]
      split
      · refine ⟨⟨⟨hminted.linked, hminted.drawn, hminted.found, ?_⟩, hfiled⟩, hgrown⟩
        intro sync hsync
        rcases List.mem_append.mp hsync with hold | hnew
        · exact hminted.synced sync hold
        · rw [List.mem_singleton.mp hnew]
          exact ⟨r, wallet, hwallet, rfl⟩
      · exact ⟨⟨hminted, hfiled⟩, hgrown⟩

/-- a method of the repository that finds a wallet by its id and moves it on -/
theorem Sound.found (h : Sound rt service w) (id : String)
    {f : StoredVirtualWalletBinding → StoredVirtualWalletBinding} (hnames : KeepsNames f)
    (hf : ∀ wallet, Later wallet (f wallet)) :
    Sound rt service (onRepository (do let r ← requireBinding id; write r f) w).2 := by
  have hfiled := h.filed.found id hf
  refine ⟨?_, hfiled⟩
  show Minted rt service { w with repository :=
    ((do let r ← requireBinding id; write r f : InMemoryVirtualWalletRepository.Op Unit) w.repository).2 }
  unfold requireBinding
  rw [Method.bind_assoc, Method.get_bind]
  cases w.repository.walletById.get? id with
  | none => exact h.minted
  | some r => exact h.minted.written r hnames fun wallet _ => hf wallet

theorem Later.names {f : StoredVirtualWalletBinding → StoredVirtualWalletBinding} (hf : ∀ wallet, Later wallet (f wallet)) :
    KeepsNames f := fun wallet => ⟨(hf wallet).virtualWalletId, (hf wallet).walletAddress⟩

theorem Sound.step (huuid : Function.Injective rt.uuid) (hfresh : Fresh service) (c : Call) (h : Sound rt service w) :
    Sound rt service (c.step rt service w) := by
  cases c with
  | issueInternal request reissue now answer =>
    show Sound rt service ((do let _ ← issueInternal rt service request reissue now answer : Op Unit) w).2
    rw [discard_world]
    exact (h.requested huuid hfresh request reissue now answer).1
  | retire id now => exact h.found id (Later.names (retire_later now none)) (retire_later now none)
  | disable id now => exact h.found id (Later.names (disable_later now)) (disable_later now)
  | mark id m => exact h.found id m.write_keepsNames m.later
  | ledger call =>
    show Sound rt service
      { w with repository := ((do let _ ← onLedger (call.exec rt) : InMemoryVirtualWalletRepository.Op Unit)
        w.repository).2 }
    rw [discard_state]
    exact ⟨h.minted.ledger _, h.filed.ledger _⟩

theorem step_grown (huuid : Function.Injective rt.uuid) (hfresh : Fresh service) (c : Call) (h : Sound rt service w) :
    Grown w.repository (c.step rt service w).repository := by
  cases c with
  | issueInternal request reissue now answer =>
    show Grown _ ((do let _ ← issueInternal rt service request reissue now answer : Op Unit) w).2.repository
    rw [discard_world]
    exact (h.requested huuid hfresh request reissue now answer).2
  | retire id now => exact grown_found id (retire_later now none)
  | disable id now => exact grown_found id (disable_later now)
  | mark id m => exact grown_found id m.later
  | ledger call => exact grown_step (.ledger call)

theorem reachable_sound (huuid : Function.Injective rt.uuid) (hfresh : Fresh service) (ledger : InMemoryLedger)
    (calls : List Call) : Sound rt service (runCalls (Call.step rt service) calls (World.new ledger)) :=
  run_invariant (fun c _ _ h => h.step huuid hfresh c) (fun _ _ => trivial)
    ⟨minted_new rt service ledger, filed_new ledger⟩

theorem run_moves (huuid : Function.Injective rt.uuid) (hfresh : Fresh service) (calls : List Call)
    (h : Sound rt service w) : Sound rt service (runCalls (Call.step rt service) calls w) ∧
    Grown w.repository (runCalls (Call.step rt service) calls w).repository := by
  induction calls generalizing w with
  | nil => exact ⟨h, Grown.refl _⟩
  | cons c calls ih =>
    rw [runCalls_cons]
    obtain ⟨hsound, hgrown⟩ := ih (h.step huuid hfresh c)
    exact ⟨hsound, (step_grown huuid hfresh c h).trans hgrown⟩

/-- what a request under a used key gets -/
theorem Sound.used (hfresh : Fresh service) (h : Sound rt service w) {request : IssueRequest} {r : Nat}
    {wallet : StoredVirtualWalletBinding}
    (hkey : w.repository.walletByIdempotencyKey.get? request.idempotencyKey = some r)
    (hr : w.repository.objects[r]? = some wallet) (reissue : Bool) (now : String) (answer : Except LedgerError Unit) :
    issueInternal rt service request reissue now answer w =
      if service.syncClient = false then
        (.ok { binding := wallet.toVirtualWalletBinding, duplicated := true },
          { w with accountsDrawn := w.accountsDrawn + 1 })
      else if wallet.status = .active then
        (answer.map fun _ => { binding := wallet.toVirtualWalletBinding, duplicated := true },
          { w with accountsDrawn := w.accountsDrawn + 1, synced := w.synced ++ [handedOver wallet] })
      else (.error signerNotFound, { w with accountsDrawn := w.accountsDrawn + 1 }) := by
  rw [issueInternal_apply hfresh]
  have hstate : ∀ input : IssueInput, input.idempotencyKey = request.idempotencyKey →
      onRepository (issueMethod rt reissue input) { w with accountsDrawn := w.accountsDrawn + 1 } =
        (.ok { binding := wallet.toVirtualWalletBinding, duplicated := true },
          { w with accountsDrawn := w.accountsDrawn + 1 }) := by
    intro input hinput
    show ((issueMethod rt reissue input w.repository).1,
      ({ w with
          repository := (issueMethod rt reissue input w.repository).2
          accountsDrawn := w.accountsDrawn + 1 } : World)) = _
    rw [← hinput] at hkey
    rw [issueMethod_used hkey hr]
  rw [Method.bind_ok _ (hstate _ rfl)]
  cases hclient : service.syncClient with
  | false => rfl
  | true =>
    rw [if_pos rfl, if_neg (by decide), Method.bind_apply,
      (h.minted.draw).syncIssued hfresh hr rfl]
    by_cases hactive : wallet.status = .active
    · rw [if_pos hactive, if_pos hactive]
      cases answer <;> rfl
    · rw [if_neg hactive, if_neg hactive]

end

/-! ## what a maintainer may rely on -/

/-- a service whose accounts are told apart by their length -/
def lengths : VirtualWalletService where
  encrypt := fun key => "sealed " ++ key
  hotWalletAddress := "THot"
  generateAccount := fun n =>
    ⟨String.ofList ('T' :: List.replicate n '1'), String.ofList ('k' :: List.replicate n '1')⟩
  syncClient := true

theorem lengths_fresh : Fresh lengths where
  distinct := by
    intro m n h
    have hlength := congrArg String.length h
    change (String.ofList ('T' :: List.replicate m '1')).length = (String.ofList ('T' :: List.replicate n '1')).length
      at hlength
    rw [String.length_ofList, String.length_ofList, List.length_cons, List.length_cons, List.length_replicate,
      List.length_replicate] at hlength
    omega
  address := by
    intro n h
    have hlength := congrArg String.length h
    change (String.ofList ('T' :: List.replicate n '1')).length = 0 at hlength
    rw [String.length_ofList] at hlength
    cases hlength
  privateKey := by
    intro n h
    have hlength := congrArg String.length h
    change (String.ofList ('k' :: List.replicate n '1')).length = 0 at hlength
    rw [String.length_ofList] at hlength
    cases hlength

def smallLedger : InMemoryLedger := InMemoryLedger.new { singleLimit := 100, dailyLimit := 100 }

def requestOf (userId : String) : IssueRequest where
  userId := userId
  currencyId := 1
  network := .mainnet
  idempotencyKey := "key-1"

/-- alice has been issued a wallet -/
def issuedToAlice : List Call := [.issueInternal (requestOf "alice") false "2026-03-01T00:00:00.000Z" (.ok ())]

def worldOfAlice : World := runCalls (Call.step .numbered lengths) issuedToAlice (World.new smallLedger)

/-- In every run of the service, its repository and the ledger, whatever the sync client answers, what is handed over
is a stored wallet: the key that was drawn with its address, for the user, the currency and the network it was issued
for.  No two wallets have one address. -/
theorem synced_own_key (rt : Runtime) (service : VirtualWalletService) (ledger : InMemoryLedger) (calls : List Call)
    (huuid : Function.Injective rt.uuid) (hfresh : Fresh service) :
    let w := runCalls (Call.step rt service) calls (World.new ledger)
    (∀ sync ∈ w.synced, ∃ (r : Nat) (wallet : StoredVirtualWalletBinding),
      w.repository.objects[r]? = some wallet ∧ sync = handedOver wallet ∧
      ∃ n < w.accountsDrawn, service.generateAccount n = ⟨sync.address, sync.privateKey⟩) ∧
    ∀ (i j : Nat) wallet wallet', w.repository.objects[i]? = some wallet → w.repository.objects[j]? = some wallet' →
      wallet.walletAddress = wallet'.walletAddress → i = j := by
  intro w
  have hminted := (reachable_sound huuid hfresh ledger calls).minted
  constructor
  · intro sync hsync
    obtain ⟨r, wallet, hwallet, rfl⟩ := hminted.synced sync hsync
    exact ⟨r, wallet, hwallet, rfl, hminted.drawn r wallet hwallet⟩
  · intro i j wallet wallet' hi hj haddress
    have hfound := hminted.found i wallet hi
    rw [haddress, hminted.found j wallet' hj] at hfound
    exact (Option.some.inj hfound).symm

theorem synced_own_key_example : ∃ sync ∈ worldOfAlice.synced, sync.userId = "alice" ∧
    ∃ n < worldOfAlice.accountsDrawn, lengths.generateAccount n = ⟨sync.address, sync.privateKey⟩ := by
  have hsynced : worldOfAlice.synced = [⟨"alice", 1, .mainnet, "T", "k", false⟩] := by decide +kernel
  have hmem : (⟨"alice", 1, .mainnet, "T", "k", false⟩ : SyncInput) ∈ worldOfAlice.synced := by
    rw [hsynced]
    exact List.mem_cons_self
  obtain ⟨hown, -⟩ := synced_own_key .numbered lengths smallLedger issuedToAlice Runtime.numbered_uuid_injective
    lengths_fresh
  obtain ⟨r, wallet, -, -, haccount⟩ := hown _ hmem
  exact ⟨_, hmem, rfl, haccount⟩

/-- After every run, a request that returns under a new key gets a wallet in use of its own user and currency.  Under
a used key it gets the wallet that the key was used for first, whoever asks, and the repository stays as it is. -/
theorem answer_owner (rt : Runtime) (service : VirtualWalletService) (ledger : InMemoryLedger) (calls : List Call)
    (request : IssueRequest) (reissue : Bool) (now : String) (answer : Except LedgerError Unit)
    (result : VirtualWalletIssueResult) (w' : World) (huuid : Function.Injective rt.uuid) (hfresh : Fresh service)
    (hreturns : issueInternal rt service request reissue now answer
      (runCalls (Call.step rt service) calls (World.new ledger)) = (.ok result, w')) :
    let w := runCalls (Call.step rt service) calls (World.new ledger)
    match w.repository.walletByIdempotencyKey.get? request.idempotencyKey with
    | some r => ∃ wallet, w.repository.objects[r]? = some wallet ∧
        result = { binding := wallet.toVirtualWalletBinding, duplicated := true } ∧ w'.repository = w.repository
    | none => result.binding.userId = request.userId ∧ result.binding.currencyId = request.currencyId ∧
        result.binding.status = .active := by
  intro w
  have hsound := reachable_sound huuid hfresh ledger calls
  change issueInternal rt service request reissue now answer w = (.ok result, w') at hreturns
  rw [issueInternal_apply hfresh] at hreturns
  obtain ⟨issued, w₁, hissued, hreturns⟩ := Method.returns_bind.mp hreturns
  obtain ⟨hanswer, rfl⟩ := Prod.mk.inj hissued
  have hrun : issueMethod rt reissue (issueInput service request (service.generateAccount w.accountsDrawn) now)
      w.repository = (.ok issued, (issueMethod rt reissue (issueInput service request
        (service.generateAccount w.accountsDrawn) now) w.repository).2) := Prod.ext hanswer rfl
  obtain ⟨r, wallet, hwallet, hbinding, hcases⟩ := hsound.minted.issued hsound.filed hrun
  -- handing the key over changes neither the answer nor the repository
  have hsync : result = issued ∧ w'.repository = (issueMethod rt reissue (issueInput service request
      (service.generateAccount w.accountsDrawn) now) w.repository).2 := by
    have hminted := hsound.minted.issueMethod huuid hfresh reissue
      (issueInput service request (service.generateAccount w.accountsDrawn) now) rfl
    cases hclient : service.syncClient with
    | false =>
      rw [hclient] at hreturns
      obtain ⟨rfl, rfl⟩ := Method.pure_returns.mp hreturns
      exact ⟨rfl, rfl⟩
    | true =>
      rw [hclient, if_pos rfl] at hreturns
      obtain ⟨_, w₂, hhanded, hreturns⟩ := Method.returns_bind.mp hreturns
      obtain ⟨rfl, rfl⟩ := Method.pure_returns.mp hreturns
      refine ⟨rfl, ?_⟩
      have happly := hminted.syncIssued hfresh hwallet hbinding answer
      change syncIssued issued answer _ = _ at hhanded
      rw [happly] at hhanded
      split at hhanded
      · obtain ⟨-, rfl⟩ := Prod.mk.inj hhanded
        rfl
      · cases hhanded
  obtain ⟨rfl, hrepository⟩ := hsync
  rcases hcases with ⟨hkey, hdup, hsame⟩ | ⟨hkey, huser, hcurrency, hactive⟩
  · change w.repository.walletByIdempotencyKey.get? request.idempotencyKey = some r at hkey
    rw [hkey]
    rw [hsame] at hwallet hrepository
    refine ⟨wallet, hwallet, ?_, hrepository⟩
    rw [← hbinding, ← hdup]
  · change w.repository.walletByIdempotencyKey.get? request.idempotencyKey = none at hkey
    rw [hkey, hbinding]
    exact ⟨huser, hcurrency, hactive⟩

/-- bob asks under the key of alice -/
theorem answer_owner_example : ∃ result w' wallet,
    issueInternal .numbered lengths (requestOf "bob") false "2026-03-02T00:00:00.000Z" (.ok ()) worldOfAlice =
      (.ok result, w') ∧ worldOfAlice.repository.objects[0]? = some wallet ∧
    result = { binding := wallet.toVirtualWalletBinding, duplicated := true } := by
  have hok : (issueInternal .numbered lengths (requestOf "bob") false "2026-03-02T00:00:00.000Z" (.ok ())
      worldOfAlice).1.isOk = true := by decide +kernel
  have hkey : (runCalls (Call.step .numbered lengths) issuedToAlice (World.new
      smallLedger)).repository.walletByIdempotencyKey.get? (requestOf "bob").idempotencyKey = some 0 := by decide +kernel
  rcases hrun : issueInternal .numbered lengths (requestOf "bob") false "2026-03-02T00:00:00.000Z" (.ok ())
      worldOfAlice with ⟨e | result, w'⟩
  · rw [hrun] at hok
    cases hok
  · have howner := answer_owner .numbered lengths smallLedger issuedToAlice (requestOf "bob") false
      "2026-03-02T00:00:00.000Z" (.ok ()) result w' Runtime.numbered_uuid_injective lengths_fresh hrun
    simp only at howner
    rw [hkey] at howner
    obtain ⟨wallet, hwallet, hresult, -⟩ := howner
    exact ⟨result, w', wallet, rfl, hwallet, hresult⟩

/-- A used idempotency key answers with its wallet for good.  However the run goes on, every request under the key,
by any user, draws an account and returns that wallet, unless there is a sync client and the wallet is out of use, or
the sync client refuses; it makes no wallet and changes none. -/
theorem key_names_one_wallet (rt : Runtime) (service : VirtualWalletService) (ledger : InMemoryLedger)
    (calls more : List Call) (request : IssueRequest) (r : Nat) (huuid : Function.Injective rt.uuid)
    (hfresh : Fresh service)
    (hkey : (runCalls (Call.step rt service) calls (World.new ledger)).repository.walletByIdempotencyKey.get?
      request.idempotencyKey = some r) :
    let w := runCalls (Call.step rt service) calls (World.new ledger)
    let w' := runCalls (Call.step rt service) more w
    ∃ first wallet, w.repository.objects[r]? = some first ∧ w'.repository.objects[r]? = some wallet ∧
      Later first wallet ∧ ∀ reissue now answer,
        issueInternal rt service request reissue now answer w' =
          if service.syncClient = false then
            (.ok { binding := wallet.toVirtualWalletBinding, duplicated := true },
              { w' with accountsDrawn := w'.accountsDrawn + 1 })
          else if wallet.status = .active then
            (answer.map fun _ => { binding := wallet.toVirtualWalletBinding, duplicated := true },
              { w' with accountsDrawn := w'.accountsDrawn + 1, synced := w'.synced ++ [handedOver wallet] })
          else (.error signerNotFound, { w' with accountsDrawn := w'.accountsDrawn + 1 }) := by
  intro w w'
  have hsound := reachable_sound huuid hfresh ledger calls
  obtain ⟨hsound', hgrown⟩ := run_moves huuid hfresh more hsound
  obtain ⟨first, hfirst⟩ := hsound.minted.used hkey
  obtain ⟨wallet, hwallet, hlater⟩ := hgrown.objects r first hfirst
  refine ⟨first, wallet, hfirst, hwallet, hlater, fun reissue now answer => ?_⟩
  exact hsound'.used hfresh (hgrown.byKey _ r hkey) hwallet reissue now answer

/-- alice's wallet is retired, and its key is not handed over again -/
theorem key_names_one_wallet_example : ∃ wallet w',
    w' = runCalls (Call.step .numbered lengths) [.retire (Runtime.numbered.uuid 0) "2026-03-02T00:00:00.000Z"]
      worldOfAlice ∧ w'.repository.objects[0]? = some wallet ∧
    (issueInternal .numbered lengths (requestOf "alice") false "2026-03-03T00:00:00.000Z" (.ok ()) w').1.isOk =
      decide (wallet.status = .active) := by
  have hkey : worldOfAlice.repository.walletByIdempotencyKey.get? "key-1" = some 0 := by decide +kernel
  obtain ⟨first, wallet, -, hwallet, -, hall⟩ := key_names_one_wallet .numbered lengths smallLedger issuedToAlice
    [.retire (Runtime.numbered.uuid 0) "2026-03-02T00:00:00.000Z"] (requestOf "alice") 0
    Runtime.numbered_uuid_injective lengths_fresh hkey
  refine ⟨wallet, _, rfl, hwallet, ?_⟩
  have hanswer := hall false "2026-03-03T00:00:00.000Z" (.ok ())
  rw [if_neg (by decide)] at hanswer
  refine (congrArg (fun run => run.1.isOk) hanswer).trans ?_
  by_cases hactive : wallet.status = .active
  · rw [if_pos hactive, decide_eq_true hactive]
    rfl
  · rw [if_neg hactive, decide_eq_false hactive]
    rfl

end VirtualWalletService
