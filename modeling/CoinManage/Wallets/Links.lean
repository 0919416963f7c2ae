import CoinManage.Wallets.Repository

/-!
# What the maps of the virtual wallets point to

In every run of the repository a map names objects that exist, the map by address names the wallet that has the
address, and the map by id leads from that wallet's id back to it.

* `Linked`                `createWallet` and every write to a wallet's other fields keep it (`Linked.enter`, `.write`);
* `reachable_linked`      it holds after every list of calls;
* `duplicate_found`       so the answer for a wallet that is there already is always that wallet;
* `find_marked_self`, `find_marked_other`   marks on a wallet are seen under its own address and under no other;
* `listed`                the listed wallets are stored wallets of different addresses.
-/

namespace InMemoryVirtualWalletRepository

structure Linked (rt : Runtime) (s : InMemoryVirtualWalletRepository) : Prop where
  drawn : ∀ id r, s.walletById.get? id = some r → ∃ n < s.uuidsDrawn, id = rt.uuid n
  byAddress : ∀ a r, s.walletByAddress.get? a = some r →
    ∃ wallet, s.objects[r]? = some wallet ∧ wallet.walletAddress = a ∧ s.walletById.get? wallet.virtualWalletId = some r
  byUser : ∀ userId, ∀ r ∈ s.userWallets userId, r < s.objects.length
  byKey : ∀ key r, s.walletByIdempotencyKey.get? key = some r → r < s.objects.length

/-- a write that leaves the id and the address of a wallet -/
def KeepsNames (f : StoredVirtualWalletBinding → StoredVirtualWalletBinding) : Prop :=
  ∀ wallet, (f wallet).virtualWalletId = wallet.virtualWalletId ∧ (f wallet).walletAddress = wallet.walletAddress

/-- the repository after a write to one object -/
def written (s : InMemoryVirtualWalletRepository) (r : Nat)
    (f : StoredVirtualWalletBinding → StoredVirtualWalletBinding) : InMemoryVirtualWalletRepository :=
  { s with objects := s.objects.modify r f }

section
variable {rt : Runtime} {s : InMemoryVirtualWalletRepository} {r : Nat}
  {f : StoredVirtualWalletBinding → StoredVirtualWalletBinding}

theorem write_apply : write r f s = (.ok (), s.written r f) := rfl

theorem getElem?_written (i : Nat) :
    (s.written r f).objects[i]? = if r = i then s.objects[i]?.map f else s.objects[i]? := by
  show (s.objects.modify r f)[i]? = _
  rw [List.getElem?_modify]
  split
  · rfl
  · simp

theorem Linked.written (h : Linked rt s) (hf : KeepsNames f) (r : Nat) : Linked rt (s.written r f) where
  drawn := h.drawn
  byAddress := by
    intro a i hi
    obtain ⟨wallet, hwallet, ha, hid⟩ := h.byAddress a i hi
    rw [getElem?_written, hwallet]
    by_cases hr : r = i
    · rw [if_pos hr]
      refine ⟨f wallet, rfl, ?_, ?_⟩
      · rw [(hf wallet).2]
        exact ha
      · rw [(hf wallet).1]
        exact hid
    · rw [if_neg hr]
      exact ⟨wallet, rfl, ha, hid⟩
  byUser := by
    intro userId i hi
    have hlt := h.byUser userId i hi
    show i < (s.objects.modify r f).length
    rwa [List.length_modify]
  byKey := by
    intro key i hi
    have hlt := h.byKey key i hi
    show i < (s.objects.modify r f).length
    rwa [List.length_modify]

/-- a new wallet with a new id -/
theorem Linked.enter (huuid : Function.Injective rt.uuid) (h : Linked rt s) {stored : StoredVirtualWalletBinding}
    (hid : stored.virtualWalletId = rt.uuid s.uuidsDrawn) : Linked rt (s.enter stored) where
  drawn := by
    intro id i hi
    change (s.walletById.set stored.virtualWalletId s.objects.length).get? id = some i at hi
    rw [OrderedMap.get?_set] at hi
    split at hi
    · next heq => exact ⟨s.uuidsDrawn, Nat.lt_succ_self _, by rw [← heq, hid]⟩
    · obtain ⟨n, hn, hdrawn⟩ := h.drawn id i hi
      exact ⟨n, Nat.lt_succ_of_lt hn, hdrawn⟩
  byAddress := by
    intro a i hi
    change (s.walletByAddress.set stored.walletAddress s.objects.length).get? a = some i at hi
    show ∃ wallet, (s.objects ++ [stored])[i]? = some wallet ∧ wallet.walletAddress = a ∧
      (s.walletById.set stored.virtualWalletId s.objects.length).get? wallet.virtualWalletId = some i
    rw [OrderedMap.get?_set] at hi
    split at hi
    · next heq =>
      obtain rfl := Option.some.inj hi
      exact ⟨stored, by simp, heq, OrderedMap.get?_set_self _ _ _⟩
    · obtain ⟨wallet, hwallet, ha, hback⟩ := h.byAddress a i hi
      refine ⟨wallet, ?_, ha, ?_⟩
      · obtain ⟨hlt, -⟩ := List.getElem?_eq_some_iff.mp hwallet
        rw [List.getElem?_append_left hlt]
        exact hwallet
      · -- the id of an older wallet was drawn before
        rw [OrderedMap.get?_set_of_ne]
        · exact hback
        · intro heq
          obtain ⟨n, hn, hdrawn⟩ := h.drawn _ _ hback
          rw [← heq, hid] at hdrawn
          have hsame := huuid hdrawn
          omega
  byUser := by
    intro userId i hi
    change i ∈ ((s.walletsByUserId.set stored.userId (s.userWallets stored.userId ++ [s.objects.length])).get?
      userId).getD [] at hi
    show i < (s.objects ++ [stored]).length
    rw [List.length_append, List.length_singleton]
    rw [OrderedMap.get?_set] at hi
    split at hi
    · next heq =>
      rcases List.mem_append.mp hi with hold | hnew
      · have hlt := h.byUser stored.userId i hold
        omega
      · rw [List.mem_singleton.mp hnew]
        omega
    · have hlt := h.byUser userId i hi
      omega
  byKey := by
    intro key i hi
    change (s.walletByIdempotencyKey.set stored.idempotencyKey s.objects.length).get? key = some i at hi
    show i < (s.objects ++ [stored]).length
    rw [List.length_append, List.length_singleton]
    rw [OrderedMap.get?_set] at hi
    split at hi
    · have hsame := Option.some.inj hi
      omega
    · have hlt := h.byKey key i hi
      omega

/-- the ledger is no part of it -/
theorem Linked.ledger (h : Linked rt s) (ledger : InMemoryLedger) : Linked rt { s with ledger := ledger } :=
  ⟨h.drawn, h.byAddress, h.byUser, h.byKey⟩

theorem linked_new (rt : Runtime) (ledger : InMemoryLedger) : Linked rt (new ledger) where
  drawn := fun _ _ h => (by cases h)
  byAddress := fun _ _ h => (by cases h)
  byUser := fun _ _ h => absurd h List.not_mem_nil
  byKey := fun _ _ h => (by cases h)

/-! ## runs -/

theorem retired_keepsNames (nowIso newId : String) : KeepsNames (retired nowIso newId) := fun _ => ⟨rfl, rfl⟩

theorem Mark.on_names (m : Mark) (binding : VirtualWalletBinding) :
    (m.on binding).virtualWalletId = binding.virtualWalletId ∧ (m.on binding).walletAddress = binding.walletAddress := by
  cases m <;> exact ⟨rfl, rfl⟩

/-- a mark, on the stored object -/
def Mark.write (m : Mark) (binding : StoredVirtualWalletBinding) : StoredVirtualWalletBinding :=
  { binding with toVirtualWalletBinding := m.on binding.toVirtualWalletBinding }

theorem Mark.write_keepsNames (m : Mark) : KeepsNames m.write := fun binding => m.on_names binding.toVirtualWalletBinding

theorem Linked.created (huuid : Function.Injective rt.uuid) (h : Linked rt s) (input : IssueInput)
    (replacedWallet : Option Nat) : Linked rt (created rt s input replacedWallet) := by
  cases replacedWallet with
  | none => exact h.enter huuid rfl
  | some r => exact (h.written (retired_keepsNames _ _) r).enter huuid rfl

theorem Linked.createWallet (huuid : Function.Injective rt.uuid) (h : Linked rt s) (input : IssueInput)
    (replacedWallet : Option Nat) : Linked rt (createWallet rt input replacedWallet s).2 := by
  by_cases htaken : AddressTaken s.ledger input.userId input.walletAddress
  · rw [createWallet_refused replacedWallet htaken]
    exact h.created huuid input replacedWallet
  · obtain ⟨ledger', hbound⟩ := @createWallet_bound rt _ _ replacedWallet htaken
    rw [hbound]
    exact (h.created huuid input replacedWallet).ledger ledger'

theorem requireBinding_state (id : String) : (requireBinding id s).2 = s := by
  unfold requireBinding
  rw [Method.get_bind]
  cases s.walletById.get? id <;> rfl

/-- a method that finds a wallet by its id and writes to it -/
theorem Linked.found (h : Linked rt s) (id : String) (hf : KeepsNames f) :
    Linked rt ((do let r ← requireBinding id; write r f : Op Unit) s).2 := by
  unfold requireBinding
  rw [Method.bind_assoc, Method.get_bind]
  cases s.walletById.get? id with
  | none => exact h
  | some r => exact h.written hf r

theorem discard_state {α : Type} (op : Op α) : ((do let _ ← op : Op Unit) s).2 = (op s).2 := by
  show ((op >>= fun _ => pure ()) s).2 = _
  rw [Method.bind_apply]
  rcases op s with ⟨_ | _, _⟩ <;> rfl

theorem Linked.step (huuid : Function.Injective rt.uuid) (c : Call) (h : Linked rt s) : Linked rt (c.step rt s) := by
  cases c with
  | issueVirtualWallet input =>
    show Linked rt ((do let _ ← issueVirtualWallet rt input : Op Unit) s).2
    rw [discard_state]
    by_cases hreaches : IssueReachesLedger s input
    · rw [issue_reaches hreaches]
      exact h.createWallet huuid input none
    · rw [issue_stops hreaches]
      exact h
  | reissueVirtualWallet input =>
    show Linked rt ((do let _ ← reissueVirtualWallet rt input : Op Unit) s).2
    rw [discard_state]
    by_cases hreaches : ReissueReachesLedger s input
    · rw [reissue_reaches hreaches]
      exact h.createWallet huuid input _
    · rw [reissue_stops hreaches]
      exact h
  | retireVirtualWallet id nowIso replacedBy =>
    apply h.found id
    intro wallet
    dsimp only
    split <;> exact ⟨rfl, rfl⟩
  | disableVirtualWallet id nowIso =>
    apply h.found id
    intro wallet
    dsimp only
    split <;> exact ⟨rfl, rfl⟩
  | mark id m => exact h.found id m.write_keepsNames
  | ledger call =>
    show Linked rt ((do let _ ← onLedger (call.exec rt) : Op Unit) s).2
    rw [discard_state]
    exact h.ledger _

/-- the wallet of an idempotency key is always there -/
theorem Linked.duplicate_found (h : Linked rt s) {key : String} (hkey : s.walletByIdempotencyKey.get? key = some r) :
    ∃ wallet, duplicate r s = (.ok { binding := wallet, duplicated := true }, s) := by
  have hlt := h.byKey key r hkey
  refine ⟨s.objects[r].toVirtualWalletBinding, ?_⟩
  unfold duplicate
  rw [Method.get_bind, List.getElem?_eq_getElem hlt]
  rfl

/-! ## a wallet by its address -/

theorem find_eq_some {a : String} {wallet : StoredVirtualWalletBinding} :
    s.find s.walletByAddress a = some wallet ↔
      ∃ r, s.walletByAddress.get? a = some r ∧ s.objects[r]? = some wallet := by
  unfold find
  rw [Option.bind_eq_some_iff]

/-- the wallet of an address is found by its id, too -/
theorem Linked.back (h : Linked rt s) {a : String} {wallet : StoredVirtualWalletBinding}
    (hfind : s.find s.walletByAddress a = some wallet) :
    ∃ r, s.walletById.get? wallet.virtualWalletId = some r ∧ s.walletByAddress.get? a = some r ∧
      s.objects[r]? = some wallet ∧ wallet.walletAddress = a := by
  obtain ⟨r, hr, hwallet⟩ := find_eq_some.mp hfind
  obtain ⟨wallet', hwallet', ha, hid⟩ := h.byAddress a r hr
  rw [hwallet] at hwallet'
  obtain rfl := Option.some.inj hwallet'
  exact ⟨r, hid, hr, hwallet, ha⟩

/-- a write is seen under the address of its wallet -/
theorem find_write_self {a : String} (hr : s.walletByAddress.get? a = some r) :
    (s.written r f).find (s.written r f).walletByAddress a = (s.find s.walletByAddress a).map f := by
  show ((s.walletByAddress.get? a).bind ((s.written r f).objects[·]?)) = _
  unfold find
  rw [hr, Option.bind_some, Option.bind_some, getElem?_written, if_pos rfl]

/-- and under no other -/
theorem Linked.find_write_other (h : Linked rt s) {a a' : String} (hr : s.walletByAddress.get? a = some r)
    (hne : a' ≠ a) : (s.written r f).find (s.written r f).walletByAddress a' = s.find s.walletByAddress a' := by
  show ((s.walletByAddress.get? a').bind ((s.written r f).objects[·]?)) = _
  unfold find
  cases hother : s.walletByAddress.get? a' with
  | none => rfl
  | some i =>
    rw [Option.bind_some, Option.bind_some, getElem?_written, if_neg]
    rintro rfl
    obtain ⟨wallet, hwallet, ha, -⟩ := h.byAddress a r hr
    obtain ⟨wallet', hwallet', ha', -⟩ := h.byAddress a' r hother
    rw [hwallet] at hwallet'
    obtain rfl := Option.some.inj hwallet'
    exact hne (ha'.symm.trans ha)

/-! ## marks -/

/-- the repository after some marks on one object -/
def marked (s : InMemoryVirtualWalletRepository) (r : Nat) (ms : List Mark) : InMemoryVirtualWalletRepository :=
  ms.foldl (fun s m => s.written r m.write) s

theorem marked_walletById (ms : List Mark) : (s.marked r ms).walletById = s.walletById := by
  induction ms generalizing s with
  | nil => rfl
  | cons m ms ih => exact ih

theorem marked_walletByAddress (ms : List Mark) : (s.marked r ms).walletByAddress = s.walletByAddress := by
  induction ms generalizing s with
  | nil => rfl
  | cons m ms ih => exact ih

theorem marked_append (ms ms' : List Mark) : s.marked r (ms ++ ms') = (s.marked r ms).marked r ms' :=
  List.foldl_append ..

theorem Linked.marked (h : Linked rt s) (r : Nat) (ms : List Mark) : Linked rt (s.marked r ms) := by
  induction ms generalizing s with
  | nil => exact h
  | cons m ms ih => exact ih (h.written m.write_keepsNames r)

theorem find_marked_self {a : String} (hr : s.walletByAddress.get? a = some r) (ms : List Mark) :
    (s.marked r ms).find (s.marked r ms).walletByAddress a =
      (s.find s.walletByAddress a).map fun stored => ms.foldl (fun stored m => m.write stored) stored := by
  induction ms generalizing s with
  | nil =>
    show s.find s.walletByAddress a = _
    cases s.find s.walletByAddress a <;> rfl
  | cons m ms ih =>
    have hrest := @ih (s.written r m.write) hr
    rw [find_write_self hr, Option.map_map] at hrest
    exact hrest

theorem Linked.find_marked_other (h : Linked rt s) {a a' : String} (hr : s.walletByAddress.get? a = some r)
    (hne : a' ≠ a) (ms : List Mark) :
    (s.marked r ms).find (s.marked r ms).walletByAddress a' = s.find s.walletByAddress a' := by
  induction ms generalizing s with
  | nil => rfl
  | cons m ms ih =>
    have hrest := ih (h.written m.write_keepsNames r) hr
    rw [h.find_write_other hr hne] at hrest
    exact hrest

/-! ## the listed wallets -/

/-- a map by address lists every address once -/
theorem Linked.addresses (h : Linked rt s) :
    (s.walletByAddress.values.filterMap (s.objects[·]?)).map (·.walletAddress) = s.walletByAddress.keys := by
  have hall : ∀ entry ∈ s.walletByAddress.entries, ∃ wallet, s.objects[entry.2]? = some wallet ∧
      wallet.walletAddress = entry.1 := by
    rintro ⟨a, i⟩ hentry
    obtain ⟨wallet, hwallet, ha, -⟩ := h.byAddress a i ((s.walletByAddress.mem_entries_iff).mp hentry)
    exact ⟨wallet, hwallet, ha⟩
  unfold OrderedMap.values OrderedMap.keys
  revert hall
  generalize s.walletByAddress.entries = entries
  intro hall
  induction entries with
  | nil => rfl
  | cons entry entries ih =>
    obtain ⟨wallet, hwallet, ha⟩ := hall entry List.mem_cons_self
    have hrest := ih fun e he => hall e (List.mem_cons_of_mem _ he)
    rw [List.map_cons, List.filterMap_cons_some hwallet, List.map_cons, List.map_cons, hrest, ha]

/-- the wallets that are listed are those of different addresses, as they are stored -/
theorem Linked.listed (h : Linked rt s) (status : VirtualWalletActivationStatus) (limit : Nat) :
    ((s.listVirtualWalletsByActivationStatus rt status limit).map (·.walletAddress)).Nodup ∧
    ∀ binding ∈ s.listVirtualWalletsByActivationStatus rt status limit, binding.status = .active ∧
      binding.activationStatus = status ∧ ∃ stored, s.find s.walletByAddress binding.walletAddress = some stored ∧
        stored.toVirtualWalletBinding = binding := by
  unfold listVirtualWalletsByActivationStatus
  dsimp only
  generalize hfiltered : (s.walletByAddress.values.filterMap (s.objects[·]?)).filter _ = filtered
  have hnodup : (filtered.map (·.walletAddress)).Nodup := by
    rw [← hfiltered]
    apply List.Nodup.sublist (List.filter_sublist.map _)
    rw [h.addresses]
    exact s.walletByAddress.keys_nodup
  have hperm := List.perm_insertionSort (fun left right : StoredVirtualWalletBinding =>
    rt.localeLe left.createdAt right.createdAt = true) filtered
  constructor
  · rw [List.map_map]
    apply List.Nodup.sublist ((List.take_sublist _ _).map _)
    exact (hperm.map _).nodup_iff.mpr hnodup
  · intro binding hbinding
    obtain ⟨stored, hstored, rfl⟩ := List.mem_map.mp hbinding
    have hmem := hperm.mem_iff.mp (List.mem_of_mem_take hstored)
    rw [← hfiltered] at hmem
    obtain ⟨hlisted, hok⟩ := List.mem_filter.mp hmem
    obtain ⟨hactive, hstatus⟩ := of_decide_eq_true hok
    refine ⟨hactive, hstatus, stored, ?_, rfl⟩
    obtain ⟨i, hi, hobject⟩ := List.mem_filterMap.mp hlisted
    obtain ⟨a, ha⟩ := (s.walletByAddress.mem_values).mp hi
    obtain ⟨wallet, hwallet, haddress, -⟩ := h.byAddress a i ha
    rw [hobject] at hwallet
    obtain rfl := Option.some.inj hwallet
    apply find_eq_some.mpr
    exact ⟨i, by rw [haddress]; exact ha, hobject⟩

end

end InMemoryVirtualWalletRepository
