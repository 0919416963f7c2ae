import CoinManage.Wallets.Links

/-!
# The life of a virtual wallet

A user has at most one wallet in use of each currency.  A wallet leaves use once, by a replacement, a retirement or
a disabling, and its names, its key and the link to its replacement stay as they are from then on.

* `Later`           what may have become of a wallet, `Grown` of all of them (`grown_step`);
* `Filed`           the lists by user hold every wallet of the user, and one at most is in use;
* `run_lifecycle`   both of every run, and of every way to go on from it;
* `reissue_replaces`   a reissue puts exactly the new wallet into use.
-/

namespace InMemoryVirtualWalletRepository

/-! ## what becomes of a wallet -/

structure Later (wallet wallet' : StoredVirtualWalletBinding) : Prop where
  virtualWalletId : wallet'.virtualWalletId = wallet.virtualWalletId
  userId : wallet'.userId = wallet.userId
  currencyId : wallet'.currencyId = wallet.currencyId
  network : wallet'.network = wallet.network
  walletAddress : wallet'.walletAddress = wallet.walletAddress
  privateKey : wallet'.privateKey = wallet.privateKey
  idempotencyKey : wallet'.idempotencyKey = wallet.idempotencyKey
  status : wallet'.status = wallet.status ∨ wallet.status = .active ∨
    wallet.status = .retired ∧ wallet'.status = .disabled
  /-- the link of a wallet that is out of use -/
  link : wallet.status ≠ .active →
    wallet'.retiredAt = wallet.retiredAt ∧ wallet'.replacedByVirtualWalletId = wallet.replacedByVirtualWalletId

section
variable {w w' w'' : StoredVirtualWalletBinding}

theorem Later.refl (w : StoredVirtualWalletBinding) : Later w w :=
  ⟨rfl, rfl, rfl, rfl, rfl, rfl, rfl, Or.inl rfl, fun _ => ⟨rfl, rfl⟩⟩

theorem Later.inactive (h : Later w w') (hw : w.status ≠ .active) : w'.status ≠ .active := by
  rcases h.status with hsame | hactive | ⟨-, hdisabled⟩
  · rwa [hsame]
  · exact absurd hactive hw
  · rw [hdisabled]
    decide

theorem Later.trans (h : Later w w') (h' : Later w' w'') : Later w w'' where
  virtualWalletId := h'.virtualWalletId.trans h.virtualWalletId
  userId := h'.userId.trans h.userId
  currencyId := h'.currencyId.trans h.currencyId
  network := h'.network.trans h.network
  walletAddress := h'.walletAddress.trans h.walletAddress
  privateKey := h'.privateKey.trans h.privateKey
  idempotencyKey := h'.idempotencyKey.trans h.idempotencyKey
  status := by
    rcases h.status with hsame | hactive | ⟨hretired, hdisabled⟩
    · have hnext := h'.status
      rwa [hsame] at hnext
    · exact Or.inr (Or.inl hactive)
    · -- a disabled wallet stays disabled
      rcases h'.status with hsame | hactive | ⟨hretired', -⟩
      · exact Or.inr (Or.inr ⟨hretired, hsame.trans hdisabled⟩)
      · rw [hdisabled] at hactive
        cases hactive
      · rw [hdisabled] at hretired'
        cases hretired'
  link := by
    intro hw
    obtain ⟨hat, hby⟩ := h.link hw
    obtain ⟨hat', hby'⟩ := h'.link (h.inactive hw)
    exact ⟨hat'.trans hat, hby'.trans hby⟩

theorem Mark.later (m : Mark) (w : StoredVirtualWalletBinding) : Later w (m.write w) := by
  cases m <;> exact ⟨rfl, rfl, rfl, rfl, rfl, rfl, rfl, Or.inl rfl, fun _ => ⟨rfl, rfl⟩⟩

theorem retired_later (nowIso newId : String) (hw : w.status = .active) : Later w (retired nowIso newId w) :=
  ⟨rfl, rfl, rfl, rfl, rfl, rfl, rfl, Or.inr (Or.inl hw), fun hne => absurd hw hne⟩

end

/-- no wallet is lost, and no idempotency key gets another wallet -/
structure Grown (s s' : InMemoryVirtualWalletRepository) : Prop where
  objects : ∀ (r : Nat) w, s.objects[r]? = some w → ∃ w', s'.objects[r]? = some w' ∧ Later w w'
  byKey : ∀ key r, s.walletByIdempotencyKey.get? key = some r → s'.walletByIdempotencyKey.get? key = some r

section
variable {rt : Runtime} {s s' s'' : InMemoryVirtualWalletRepository} {r : Nat} {input : IssueInput}
  {f : StoredVirtualWalletBinding → StoredVirtualWalletBinding}

theorem Grown.refl (s : InMemoryVirtualWalletRepository) : Grown s s :=
  ⟨fun _ w hw => ⟨w, hw, Later.refl w⟩, fun _ _ h => h⟩

theorem Grown.trans (h : Grown s s') (h' : Grown s' s'') : Grown s s'' where
  objects := by
    intro r w hw
    obtain ⟨w', hw', hlater⟩ := h.objects r w hw
    obtain ⟨w'', hw'', hlater'⟩ := h'.objects r w' hw'
    exact ⟨w'', hw'', hlater.trans hlater'⟩
  byKey := fun key r hr => h'.byKey key r (h.byKey key r hr)

/-- the ledger is no part of it -/
theorem Grown.ledger (h : Grown s s') (ledger : InMemoryLedger) : Grown s { s' with ledger := ledger } :=
  ⟨h.objects, h.byKey⟩

theorem grown_written (hf : ∀ w, s.objects[r]? = some w → Later w (f w)) : Grown s (s.written r f) where
  objects := by
    intro i w hw
    rw [getElem?_written, hw]
    by_cases hr : r = i
    · rw [if_pos hr]
      subst hr
      exact ⟨f w, rfl, hf w hw⟩
    · rw [if_neg hr]
      exact ⟨w, rfl, Later.refl w⟩
  byKey := fun _ _ h => h

theorem grown_enter {stored : StoredVirtualWalletBinding}
    (hkey : s.walletByIdempotencyKey.get? stored.idempotencyKey = none) : Grown s (s.enter stored) where
  objects := by
    intro i w hw
    refine ⟨w, ?_, Later.refl w⟩
    obtain ⟨hlt, -⟩ := List.getElem?_eq_some_iff.mp hw
    show (s.objects ++ [stored])[i]? = some w
    rw [List.getElem?_append_left hlt]
    exact hw
  byKey := by
    intro key i hi
    show (s.walletByIdempotencyKey.set stored.idempotencyKey s.objects.length).get? key = some i
    rw [OrderedMap.get?_set_of_ne]
    · exact hi
    · intro heq
      rw [heq, hi] at hkey
      cases hkey

/-! ## the wallet in use -/

theorem getActiveWallet_some {userId : String} {currencyId : Nat} (h : s.getActiveWallet userId currencyId = some r) :
    r ∈ s.userWallets userId ∧ ∃ w, s.objects[r]? = some w ∧ w.currencyId = currencyId ∧ w.status = .active := by
  refine ⟨List.mem_of_find?_eq_some h, ?_⟩
  have hany := List.find?_some h
  cases hw : s.objects[r]? with
  | none =>
    rw [hw] at hany
    cases hany
  | some w =>
    rw [hw] at hany
    obtain ⟨hcurrency, hactive⟩ := of_decide_eq_true hany
    exact ⟨w, rfl, hcurrency, hactive⟩

theorem getActiveWallet_none {userId : String} {currencyId : Nat} (h : s.getActiveWallet userId currencyId = none)
    (hr : r ∈ s.userWallets userId) {w : StoredVirtualWalletBinding} (hw : s.objects[r]? = some w) :
    ¬ (w.currencyId = currencyId ∧ w.status = .active) := by
  have hnone := List.find?_eq_none.mp h r hr
  intro hboth
  apply hnone
  rw [hw]
  exact decide_eq_true hboth

theorem grown_created (hkey : s.walletByIdempotencyKey.get? input.idempotencyKey = none) {replaced : Option Nat}
    (hactive : ∀ r, replaced = some r → ∃ w, s.objects[r]? = some w ∧ w.status = .active) :
    Grown s (created rt s input replaced) := by
  cases replaced with
  | none => exact grown_enter hkey
  | some r =>
    obtain ⟨w, hw, hstatus⟩ := hactive r rfl
    have hretired : ∀ w', s.objects[r]? = some w' →
        Later w' (retired input.nowIso (newWallet rt s input).virtualWalletId w') := by
      intro w' hw'
      rw [hw] at hw'
      obtain rfl := Option.some.inj hw'
      exact retired_later _ _ hstatus
    exact (grown_written hretired).trans (grown_enter hkey)

theorem grown_createWallet (hkey : s.walletByIdempotencyKey.get? input.idempotencyKey = none) {replaced : Option Nat}
    (hactive : ∀ r, replaced = some r → ∃ w, s.objects[r]? = some w ∧ w.status = .active) :
    Grown s (createWallet rt input replaced s).2 := by
  by_cases htaken : AddressTaken s.ledger input.userId input.walletAddress
  · rw [createWallet_refused replaced htaken]
    exact grown_created hkey hactive
  · obtain ⟨ledger', hbound⟩ := @createWallet_bound rt _ _ replaced htaken
    rw [hbound]
    exact (grown_created hkey hactive).ledger ledger'

/-- a method that finds a wallet by its id and writes to it -/
theorem grown_found (id : String) (hf : ∀ w, Later w (f w)) :
    Grown s ((do let r ← requireBinding id; write r f : Op Unit) s).2 := by
  unfold requireBinding
  rw [Method.bind_assoc, Method.get_bind]
  cases s.walletById.get? id with
  | none => exact Grown.refl s
  | some r => exact grown_written fun w _ => hf w

theorem retire_later (nowIso : String) (replacedBy : Option String) (w : StoredVirtualWalletBinding) :
    Later w (if w.status ≠ .active then w else { w with
      status := .retired
      retiredAt := some nowIso
      replacedByVirtualWalletId := replacedBy }) := by
  split
  · exact Later.refl w
  · next hactive =>
    have hw : w.status = .active := not_not.mp hactive
    exact ⟨rfl, rfl, rfl, rfl, rfl, rfl, rfl, Or.inr (Or.inl hw), fun hne => absurd hw hne⟩

theorem disable_later (nowIso : String) (w : StoredVirtualWalletBinding) :
    Later w (if w.status = .disabled then w else { w with status := .disabled, disabledAt := some nowIso }) := by
  split
  · exact Later.refl w
  · next hdisabled =>
    refine ⟨rfl, rfl, rfl, rfl, rfl, rfl, rfl, ?_, fun _ => ⟨rfl, rfl⟩⟩
    cases hstatus : w.status with
    | active => exact Or.inr (Or.inl rfl)
    | retired => exact Or.inr (Or.inr ⟨rfl, rfl⟩)
    | disabled => exact absurd hstatus hdisabled

/-- every call only moves wallets on -/
theorem grown_step (c : Call) : Grown s (c.step rt s) := by
  cases c with
  | issueVirtualWallet input =>
    show Grown s ((do let _ ← issueVirtualWallet rt input : Op Unit) s).2
    rw [discard_state]
    by_cases hreaches : IssueReachesLedger s input
    · rw [issue_reaches hreaches]
      exact grown_createWallet hreaches.1 (fun _ h => (by cases h))
    · rw [issue_stops hreaches]
      exact Grown.refl s
  | reissueVirtualWallet input =>
    show Grown s ((do let _ ← reissueVirtualWallet rt input : Op Unit) s).2
    rw [discard_state]
    by_cases hreaches : ReissueReachesLedger s input
    · rw [reissue_reaches hreaches]
      apply grown_createWallet hreaches
      intro r hr
      obtain ⟨-, w, hw, -, hactive⟩ := getActiveWallet_some hr
      exact ⟨w, hw, hactive⟩
    · rw [reissue_stops hreaches]
      exact Grown.refl s
  | retireVirtualWallet id nowIso replacedBy => exact grown_found id (retire_later nowIso replacedBy)
  | disableVirtualWallet id nowIso => exact grown_found id (disable_later nowIso)
  | mark id m => exact grown_found id m.later
  | ledger call =>
    show Grown s ((do let _ ← onLedger (call.exec rt) : Op Unit) s).2
    rw [discard_state]
    exact (Grown.refl s).ledger _

theorem run_grown (calls : List Call) (s : InMemoryVirtualWalletRepository) : Grown s (runCalls (Call.step rt) calls s) := by
  induction calls generalizing s with
  | nil => exact Grown.refl s
  | cons c calls ih =>
    rw [runCalls_cons]
    exact (grown_step c).trans (ih _)

/-! ## the lists by user -/

/-- the lists by user hold every wallet of the user, and at most one of each currency is in use -/
structure Filed (s : InMemoryVirtualWalletRepository) : Prop where
  listed : ∀ (r : Nat) w, s.objects[r]? = some w → r ∈ s.userWallets w.userId
  owned : ∀ userId, ∀ r ∈ s.userWallets userId, ∃ w, s.objects[r]? = some w ∧ w.userId = userId
  single : ∀ (i j : Nat) w w', s.objects[i]? = some w → s.objects[j]? = some w' → w.userId = w'.userId →
    w.currencyId = w'.currencyId → w.status = .active → w'.status = .active → i = j

theorem filed_new (ledger : InMemoryLedger) : Filed (new ledger) where
  listed := fun r w h => (by cases h)
  owned := fun userId r h => absurd h List.not_mem_nil
  single := fun i j w w' h => (by cases h)

theorem Filed.ledger (h : Filed s) (ledger : InMemoryLedger) : Filed { s with ledger := ledger } :=
  ⟨h.listed, h.owned, h.single⟩

/-- a write that moves a wallet on -/
theorem Filed.written (h : Filed s) (hf : ∀ w, s.objects[r]? = some w → Later w (f w)) : Filed (s.written r f) := by
  -- a wallet that is written was there before, and what is in use now was in use
  have hback : ∀ (i : Nat) w', (s.written r f).objects[i]? = some w' →
      ∃ w, s.objects[i]? = some w ∧ w'.userId = w.userId ∧ w'.currencyId = w.currencyId ∧
        (w'.status = .active → w.status = .active) := by
    intro i w' hw'
    rw [getElem?_written] at hw'
    split at hw'
    · next hi =>
      subst hi
      obtain ⟨w, hw, rfl⟩ := Option.map_eq_some_iff.mp hw'
      have hlater := hf w hw
      refine ⟨w, hw, hlater.userId, hlater.currencyId, fun hactive => ?_⟩
      by_contra hne
      exact hlater.inactive hne hactive
    · exact ⟨w', hw', rfl, rfl, fun hactive => hactive⟩
  constructor
  · intro i w' hw'
    obtain ⟨w, hw, huser, -⟩ := hback i w' hw'
    rw [huser]
    exact h.listed i w hw
  · intro userId i hi
    obtain ⟨w, hw, huser⟩ := h.owned userId i hi
    obtain ⟨w', hw', hlater⟩ := (grown_written hf).objects i w hw
    exact ⟨w', hw', hlater.userId.trans huser⟩
  · intro i j w w' hi hj huser hcurrency hactive hactive'
    obtain ⟨v, hv, hvuser, hvcurrency, hvactive⟩ := hback i w hi
    obtain ⟨v', hv', hvuser', hvcurrency', hvactive'⟩ := hback j w' hj
    rw [hvuser, hvuser'] at huser
    rw [hvcurrency, hvcurrency'] at hcurrency
    exact h.single i j v v' hv hv' huser hcurrency (hvactive hactive) (hvactive' hactive')

/-- a wallet for a user who has none of the currency in use -/
theorem Filed.enter (h : Filed s) {stored : StoredVirtualWalletBinding}
    (hnone : s.getActiveWallet stored.userId stored.currencyId = none) : Filed (s.enter stored) := by
  have hobjects : ∀ (i : Nat) w, (s.enter stored).objects[i]? = some w →
      s.objects[i]? = some w ∨ i = s.objects.length ∧ w = stored := by
    intro i w hw
    change (s.objects ++ [stored])[i]? = some w at hw
    by_cases hlt : i < s.objects.length
    · rw [List.getElem?_append_left hlt] at hw
      exact Or.inl hw
    · rw [List.getElem?_append_right (Nat.le_of_not_lt hlt)] at hw
      obtain ⟨hzero, hstored⟩ := List.getElem?_eq_some_iff.mp hw
      rw [List.length_singleton] at hzero
      refine Or.inr ⟨by omega, ?_⟩
      rw [← hstored, List.getElem_singleton]
  have hlists : ∀ userId, (s.enter stored).userWallets userId =
      if stored.userId = userId then s.userWallets stored.userId ++ [s.objects.length] else s.userWallets userId := by
    intro userId
    show ((s.walletsByUserId.set stored.userId (s.userWallets stored.userId ++ [s.objects.length])).get?
      userId).getD [] = _
    rw [OrderedMap.get?_set]
    split
    · rfl
    · rfl
  -- an older wallet of the user and currency is not in use
  have hidle : ∀ (i : Nat) w, s.objects[i]? = some w → w.userId = stored.userId → w.currencyId = stored.currencyId →
      w.status ≠ .active := by
    intro i w hw huser hcurrency hactive
    have hmem := h.listed i w hw
    rw [huser] at hmem
    exact getActiveWallet_none hnone hmem hw ⟨hcurrency, hactive⟩
  constructor
  · intro i w hw
    rw [hlists]
    rcases hobjects i w hw with hold | ⟨rfl, rfl⟩
    · have hmem := h.listed i w hold
      split
      · next huser =>
        rw [← huser] at hmem
        exact List.mem_append_left _ hmem
      · exact hmem
    · rw [if_pos rfl]
      exact List.mem_append_right _ List.mem_cons_self
  · intro userId i hi
    have hold : ∀ w, s.objects[i]? = some w → (s.enter stored).objects[i]? = some w := by
      intro w hw
      obtain ⟨hlt, -⟩ := List.getElem?_eq_some_iff.mp hw
      show (s.objects ++ [stored])[i]? = some w
      rw [List.getElem?_append_left hlt]
      exact hw
    rw [hlists] at hi
    split at hi
    · next huser =>
      rcases List.mem_append.mp hi with hmem | hnew
      · obtain ⟨w, hw, howner⟩ := h.owned _ i hmem
        exact ⟨w, hold w hw, howner.trans huser⟩
      · rw [List.mem_singleton.mp hnew]
        refine ⟨stored, ?_, huser⟩
        show (s.objects ++ [stored])[s.objects.length]? = some stored
        rw [List.getElem?_append_right (Nat.le_refl _), Nat.sub_self]
        rfl
    · obtain ⟨w, hw, howner⟩ := h.owned userId i hi
      exact ⟨w, hold w hw, howner⟩
  · intro i j w w' hi hj huser hcurrency hactive hactive'
    rcases hobjects i w hi with hold | ⟨rfl, rfl⟩
    · rcases hobjects j w' hj with hold' | ⟨rfl, rfl⟩
      · exact h.single i j w w' hold hold' huser hcurrency hactive hactive'
      · exact absurd hactive (hidle i w hold huser hcurrency)
    · rcases hobjects j w' hj with hold' | ⟨rfl, -⟩
      · exact absurd hactive' (hidle j w' hold' huser.symm hcurrency.symm)
      · rfl

/-- what the wallet in use is replaced by nothing in use -/
theorem Filed.replaced_idle (h : Filed s) {userId : String} {currencyId : Nat}
    (hr : s.getActiveWallet userId currencyId = some r) (nowIso newId : String) :
    (s.written r (retired nowIso newId)).getActiveWallet userId currencyId = none := by
  obtain ⟨hmem, w, hw, hcurrency, hactive⟩ := getActiveWallet_some hr
  obtain ⟨v, hv, howner⟩ := h.owned userId r hmem
  rw [hw] at hv
  obtain rfl := Option.some.inj hv
  apply List.find?_eq_none.mpr
  intro i hi hany
  change ((s.written r (retired nowIso newId)).objects[i]?.any fun w =>
    decide (w.currencyId = currencyId ∧ w.status = .active)) = true at hany
  obtain ⟨v, hv, hvowner⟩ := h.owned userId i hi
  rw [getElem?_written, hv] at hany
  by_cases heq : r = i
  · rw [if_pos heq] at hany
    obtain ⟨-, hbad⟩ := of_decide_eq_true hany
    cases hbad
  · rw [if_neg heq] at hany
    obtain ⟨hvcurrency, hvactive⟩ := of_decide_eq_true hany
    exact heq (h.single r i w v hw hv (howner.trans hvowner.symm) (hcurrency.trans hvcurrency.symm) hactive hvactive)

theorem Filed.created (h : Filed s) (input : IssueInput) :
    Filed (created rt s input (s.getActiveWallet input.userId input.currencyId)) := by
  cases hr : s.getActiveWallet input.userId input.currencyId with
  | none => exact h.enter hr
  | some r =>
    obtain ⟨-, w, hw, -, hactive⟩ := getActiveWallet_some hr
    have hretired : ∀ w', s.objects[r]? = some w' →
        Later w' (retired input.nowIso (newWallet rt s input).virtualWalletId w') := by
      intro w' hw'
      rw [hw] at hw'
      obtain rfl := Option.some.inj hw'
      exact retired_later _ _ hactive
    exact (h.written hretired).enter (h.replaced_idle hr _ _)

theorem Filed.createWallet (h : Filed s) (input : IssueInput) :
    Filed (createWallet rt input (s.getActiveWallet input.userId input.currencyId) s).2 := by
  by_cases htaken : AddressTaken s.ledger input.userId input.walletAddress
  · rw [createWallet_refused _ htaken]
    exact h.created input
  · obtain ⟨ledger', hbound⟩ := @createWallet_bound rt _ _ (s.getActiveWallet input.userId input.currencyId) htaken
    rw [hbound]
    exact (h.created input).ledger ledger'

theorem Filed.found (h : Filed s) (id : String) (hf : ∀ w, Later w (f w)) :
    Filed ((do let r ← requireBinding id; write r f : Op Unit) s).2 := by
  unfold requireBinding
  rw [Method.bind_assoc, Method.get_bind]
  cases s.walletById.get? id with
  | none => exact h
  | some r => exact h.written fun w _ => hf w

theorem Filed.step (h : Filed s) (c : Call) : Filed (c.step rt s) := by
  cases c with
  | issueVirtualWallet input =>
    show Filed ((do let _ ← issueVirtualWallet rt input : Op Unit) s).2
    rw [discard_state]
    by_cases hreaches : IssueReachesLedger s input
    · rw [issue_reaches hreaches, ← hreaches.2.1]
      exact h.createWallet input
    · rw [issue_stops hreaches]
      exact h
  | reissueVirtualWallet input =>
    show Filed ((do let _ ← reissueVirtualWallet rt input : Op Unit) s).2
    rw [discard_state]
    by_cases hreaches : ReissueReachesLedger s input
    · rw [reissue_reaches hreaches]
      exact h.createWallet input
    · rw [reissue_stops hreaches]
      exact h
  | retireVirtualWallet id nowIso replacedBy => exact h.found id (retire_later nowIso replacedBy)
  | disableVirtualWallet id nowIso => exact h.found id (disable_later nowIso)
  | mark id m => exact h.found id m.later
  | ledger call =>
    show Filed ((do let _ ← onLedger (call.exec rt) : Op Unit) s).2
    rw [discard_state]
    exact h.ledger _

end

/-! ## runs -/

theorem reachable_filed (rt : Runtime) (calls : List Call) (ledger : InMemoryLedger) :
    Filed (runCalls (Call.step rt) calls (new ledger)) :=
  run_invariant (fun c _ _ h => h.step c) (fun _ _ => trivial) (filed_new ledger)

/-- In every run of the repository and its ledger, refused calls included, a user has at most one wallet of a
currency in use; and however the run goes on, every wallet keeps its names and its key, leaves use at most once, and
keeps the link to its replacement from then on. -/
theorem run_lifecycle (rt : Runtime) (ledger : InMemoryLedger) (calls : List Call) :
    let s := runCalls (Call.step rt) calls (new ledger)
    (∀ (i j : Nat) w w', s.objects[i]? = some w → s.objects[j]? = some w' → w.userId = w'.userId →
      w.currencyId = w'.currencyId → w.status = .active → w'.status = .active → i = j) ∧
    ∀ more : List Call, ∀ (r : Nat) w, s.objects[r]? = some w →
      ∃ w', (runCalls (Call.step rt) more s).objects[r]? = some w' ∧ Later w w' := by
  intro s
  refine ⟨(reachable_filed rt calls ledger).single, fun more r w hw => ?_⟩
  exact (run_grown more s).objects r w hw

section
variable {rt : Runtime} {s : InMemoryVirtualWalletRepository} {r : Nat} {input : IssueInput}

/-- the new object comes last -/
theorem created_last (replaced : Option Nat) :
    (created rt s input replaced).objects[s.objects.length]? = some (newWallet rt s input) := by
  have hlast : ∀ objects : List StoredVirtualWalletBinding, objects.length = s.objects.length →
      (objects ++ [newWallet rt s input])[s.objects.length]? = some (newWallet rt s input) := by
    intro objects hlength
    rw [← hlength, List.getElem?_append_right (Nat.le_refl _), Nat.sub_self]
    rfl
  cases replaced with
  | none => exact hlast s.objects rfl
  | some r =>
    apply hlast (s.objects.modify r _)
    rw [List.length_modify]

/-- an older object is retired if it was in use, and else kept -/
theorem Filed.created_older (h : Filed s) {w : StoredVirtualWalletBinding} (hw : s.objects[r]? = some w) :
    (InMemoryVirtualWalletRepository.created rt s input
        (s.getActiveWallet input.userId input.currencyId)).objects[r]? =
      some (if w.userId = input.userId ∧ w.currencyId = input.currencyId ∧ w.status = .active
        then retired input.nowIso (newWallet rt s input).virtualWalletId w else w) := by
  obtain ⟨hlt, -⟩ := List.getElem?_eq_some_iff.mp hw
  cases hactive : s.getActiveWallet input.userId input.currencyId with
  | none =>
    show (s.objects ++ [newWallet rt s input])[r]? = _
    rw [List.getElem?_append_left hlt, hw, if_neg]
    intro hboth
    have hmem := h.listed r w hw
    rw [hboth.1] at hmem
    exact getActiveWallet_none hactive hmem hw hboth.2
  | some i =>
    obtain ⟨hmem, v, hv, hcurrency, hstatus⟩ := getActiveWallet_some hactive
    obtain ⟨v', hv', howner⟩ := h.owned _ i hmem
    rw [hv] at hv'
    obtain rfl := Option.some.inj hv'
    show ((s.written i (retired input.nowIso (newWallet rt s input).virtualWalletId)).objects ++
      [newWallet rt s input])[r]? = _
    rw [List.getElem?_append_left (by
      show r < (s.objects.modify i _).length
      rwa [List.length_modify]), getElem?_written, hw]
    by_cases heq : i = r
    · subst heq
      rw [hv] at hw
      obtain rfl := Option.some.inj hw
      rw [if_pos rfl, if_pos ⟨howner, hcurrency, hstatus⟩]
      rfl
    · rw [if_neg heq, if_neg]
      · intro hboth
        exact heq (h.single i r v w hv hw (howner.trans hboth.1.symm) (hcurrency.trans hboth.2.1.symm) hstatus hboth.2.2)

theorem created_length (replaced : Option Nat) :
    (created rt s input replaced).objects.length = s.objects.length + 1 := by
  cases replaced with
  | none => exact List.length_append
  | some r =>
    show (s.objects.modify r _ ++ [newWallet rt s input]).length = _
    rw [List.length_append, List.length_modify]
    rfl

end

/-- After every run, a reissue under a new idempotency key, for an address that no other user has bound, returns the
new wallet.  Exactly the new wallet of the user and the currency is in use, the one that was is retired with a link to
it, and every other wallet is as before. -/
theorem reissue_replaces (rt : Runtime) (ledger : InMemoryLedger) (calls : List Call) (input : IssueInput)
    (hkey : (runCalls (Call.step rt) calls (new ledger)).walletByIdempotencyKey.get? input.idempotencyKey = none)
    (hfree : ¬ AddressTaken (runCalls (Call.step rt) calls (new ledger)).ledger input.userId input.walletAddress) :
    let s := runCalls (Call.step rt) calls (new ledger)
    let stored := newWallet rt s input
    ∃ s', reissueVirtualWallet rt input s =
        (.ok { binding := stored.toVirtualWalletBinding, duplicated := false }, s') ∧
      (∀ (r : Nat) w, s'.objects[r]? = some w → w.userId = input.userId → w.currencyId = input.currencyId →
        (w.status = .active ↔ r = s.objects.length)) ∧
      s'.objects[s.objects.length]? = some stored ∧ s'.getVirtualWallet input.walletAddress = some stored.toVirtualWalletBinding ∧
      ∀ (r : Nat) w, s.objects[r]? = some w →
        s'.objects[r]? = some (if w.userId = input.userId ∧ w.currencyId = input.currencyId ∧ w.status = .active
          then retired input.nowIso stored.virtualWalletId w else w) := by
  intro s stored
  have hfiled := reachable_filed rt calls ledger
  obtain ⟨ledger', hbound⟩ :=
    @createWallet_bound rt s input (s.getActiveWallet input.userId input.currencyId) hfree
  have hreissue : reissueVirtualWallet rt input s = _ := (reissue_reaches hkey).trans hbound
  refine ⟨_, hreissue, ?_, created_last _, ?_, fun r w hw => hfiled.created_older hw⟩
  · intro r w hw huser hcurrency
    change (created rt s input (s.getActiveWallet input.userId input.currencyId)).objects[r]? = some w at hw
    obtain ⟨hlt, -⟩ := List.getElem?_eq_some_iff.mp hw
    rw [created_length] at hlt
    constructor
    · intro hactive
      by_contra hne
      have hold : r < s.objects.length := by omega
      have holder : (created rt s input (s.getActiveWallet input.userId input.currencyId)).objects[r]? = _ :=
        hfiled.created_older (List.getElem?_eq_getElem hold)
      rw [hw] at holder
      have hsame := Option.some.inj holder
      split at hsame
      · rw [hsame] at hactive
        cases hactive
      · next hidle =>
        rw [hsame] at huser hcurrency hactive
        exact hidle ⟨huser, hcurrency, hactive⟩
    · intro hlast
      rw [hlast, created_last] at hw
      rw [← Option.some.inj hw]
      rfl
  · have hfind : (created rt s input (s.getActiveWallet input.userId input.currencyId)).find
        (created rt s input (s.getActiveWallet input.userId input.currencyId)).walletByAddress input.walletAddress =
        some stored := by
      apply find_eq_some.mpr
      refine ⟨s.objects.length, ?_, created_last _⟩
      cases s.getActiveWallet input.userId input.currencyId with
      | none => exact OrderedMap.get?_set_self _ _ _
      | some r =>
        rw [← @List.length_modify _ (retired input.nowIso stored.virtualWalletId) s.objects r]
        exact OrderedMap.get?_set_self _ _ _
    show Option.map _ ((created rt s input _).find (created rt s input _).walletByAddress input.walletAddress) = _
    rw [hfind]
    rfl

/-- alice's first wallet, and its replacement -/
theorem reissue_replaces_example :
    let first := { forAlice with walletAddress := "TFirst", idempotencyKey := "key-0" }
    let s := runCalls (Call.step .numbered) [.issueVirtualWallet first]
      (new (InMemoryLedger.new { singleLimit := 100, dailyLimit := 100 }))
    ∃ s', reissueVirtualWallet .numbered forAlice s =
        (.ok { binding := (newWallet .numbered s forAlice).toVirtualWalletBinding, duplicated := false }, s') ∧
      s'.getVirtualWallet "TAddress" = some (newWallet .numbered s forAlice).toVirtualWalletBinding := by
  intro first s
  have hunbound : s.ledger.userIdByWalletAddress.get? "TAddress" = none := by decide +kernel
  have hfree : ¬ AddressTaken s.ledger "alice" "TAddress" := by
    intro htaken
    obtain ⟨other, hother, -⟩ := htaken
    rw [hunbound] at hother
    cases hother
  obtain ⟨s', hreissue, -, -, hget, -⟩ := reissue_replaces .numbered
    (InMemoryLedger.new { singleLimit := 100, dailyLimit := 100 }) [.issueVirtualWallet first] forAlice
    (by decide +kernel) hfree
  exact ⟨s', hreissue, hget⟩

end InMemoryVirtualWalletRepository
