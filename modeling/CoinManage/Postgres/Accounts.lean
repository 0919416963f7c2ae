import CoinManage.Postgres.Journals

/-!
# The copies in `accounts`, and the rest of the helpers

A row of `accounts` copies what the user's ledger accounts hold.  Between a journal and the
`syncUserAccountProjection` that follows it the rows of the users concerned are stale; every
operation ends with no stale row.

* `AccountsSound stale`          rows copy the projections, except those of users in `stale` that
                                 have postings;
* `AccountsSound.posted`, `sync_ok`   journals make rows stale, the sync copies them again;
* `spendable_ok`                 the balance an operation checks is what the account holds.
-/

namespace Postgres

open DoubleEntry

structure Db.AccountsSound (stale : Set String) (s : Db) : Prop where
  fits : ∀ row ∈ s.accounts, row.userId.length ≤ 64
  unique : (s.accounts.map (·.userId)).Nodup
  plain : ∀ row ∈ s.accounts, text row.userId = .ok row.userId
  known : ∀ u, u.length ≤ 64 → s.HasPostings u → ∃ row ∈ s.accounts, row.userId = u
  copied : ∀ row ∈ s.accounts, (row.userId ∈ stale → ¬ s.HasPostings row.userId) →
    row.balance.units = s.available row.userId ∧
    row.lockedBalance.units = s.withdrawPending row.userId + s.offlinePayPending row.userId

section
variable {pg : PgServer} {s s' : Db}

/-! ## what the rows depend on -/

theorem balance_of_untouched {u : String} (h : ¬ s.HasPostings u) (b : Bucket) :
    s.balance (.user u b) = 0 := by
  have hfree : ∀ p ∈ s.postings, ¬ p.account = (LedgerAccount.user u b).code := fun p hp he =>
    h ⟨p, hp, b, he⟩
  show net (· = (LedgerAccount.user u b).code) s.postings = 0
  exact net_untouched hfree

theorem Db.AccountsSound.of_eq {stale : Set String} (h : s.AccountsSound stale)
    (ha : s'.accounts = s.accounts) (hp : s'.ledgerPostings = s.ledgerPostings) :
    s'.AccountsSound stale := by
  have hpostings : s'.postings = s.postings := by rw [Db.postings, Db.postings, hp]
  have hbalance : s'.balance = s.balance := by
    funext a
    rw [Db.balance, Db.balance, hpostings]
  constructor
  · rw [ha]
    exact h.fits
  · rw [ha]
    exact h.unique
  · rw [ha]
    exact h.plain
  · intro u hu hpost
    rw [ha]
    rw [Db.HasPostings, hpostings] at hpost
    exact h.known u hu hpost
  · rw [ha]
    unfold Db.available Db.withdrawPending Db.offlinePayPending Db.HasPostings
    rw [hbalance, hpostings]
    exact h.copied

theorem Db.AccountsSound.mono {stale stale' : Set String} (h : s.AccountsSound stale)
    (hsub : stale ⊆ stale') : s.AccountsSound stale' where
  fits := h.fits
  unique := h.unique
  plain := h.plain
  known := h.known
  copied row hrow hout := h.copied row hrow fun hin => hout (hsub hin)

/-- rows rewritten in place -/
theorem Db.AccountsSound.rewritten {stale stale' : Set String} (h : s.AccountsSound stale)
    {rows : List AccountRow} (hids : rows.map (·.userId) = s.accounts.map (·.userId))
    (hcopied : ∀ row ∈ rows, (row.userId ∈ stale' → ¬ s.HasPostings row.userId) →
      row.balance.units = s.available row.userId ∧
      row.lockedBalance.units = s.withdrawPending row.userId + s.offlinePayPending row.userId) :
    ({ s with accounts := rows } : Db).AccountsSound stale' where
  fits row hrow := by
    have hmem : row.userId ∈ s.accounts.map (·.userId) := hids ▸ List.mem_map_of_mem hrow
    obtain ⟨old, hold, he⟩ := List.mem_map.mp hmem
    rw [← he]
    exact h.fits old hold
  unique := by
    rw [hids]
    exact h.unique
  plain row hrow := by
    have hmem : row.userId ∈ s.accounts.map (·.userId) := hids ▸ List.mem_map_of_mem hrow
    obtain ⟨old, hold, he⟩ := List.mem_map.mp hmem
    rw [← he]
    exact h.plain old hold
  known u hu hpost := by
    obtain ⟨old, hold, he⟩ := h.known u hu hpost
    have hmem : u ∈ rows.map (·.userId) := by
      rw [hids, ← he]
      exact List.mem_map_of_mem hold
    obtain ⟨row, hrow, he'⟩ := List.mem_map.mp hmem
    exact ⟨row, hrow, he'⟩
  copied := hcopied

/-- the users of these legs all have a row, if their id fits -/
def Db.Knows (s : Db) (users : Set String) (legs : List (Posting LedgerAccount ℤ)) : Prop :=
  ∀ leg ∈ legs, ∀ u b, leg.account = .user u b →
    u ∈ users ∧ (u.length ≤ 64 → ∃ row ∈ s.accounts, row.userId = u)

/-- a journal makes the rows of its users stale -/
theorem Db.AccountsSound.posted {stale users : Set String} {es : List Entry}
    {legs : List (Posting LedgerAccount ℤ)} (h : s.AccountsSound stale) (hsub : stale ⊆ users)
    (hposted : Posted s s' es) (hlegs : es.flatMap Entry.legs = mapAccounts LedgerAccount.code legs)
    (ha : s'.accounts = s.accounts) (hknown : s.Knows users legs) : s'.AccountsSound users := by
  have hmem : ∀ p ∈ s'.postings, p ∈ s.postings ∨ ∃ leg ∈ legs, p.account = leg.account.code := by
    intro p hp
    rw [hposted.postings, hlegs] at hp
    rcases List.mem_append.mp hp with hold | hnew
    · exact Or.inl hold
    · obtain ⟨leg, hleg, rfl⟩ := List.mem_map.mp hnew
      exact Or.inr ⟨leg, hleg, rfl⟩
  constructor
  · rw [ha]
    exact h.fits
  · rw [ha]
    exact h.unique
  · rw [ha]
    exact h.plain
  · rintro u hu ⟨p, hp, b, hcode⟩
    rw [ha]
    rcases hmem p hp with hold | ⟨leg, hleg, he⟩
    · exact h.known u hu ⟨p, hold, b, hcode⟩
    · have hacc : leg.account = .user u b := LedgerAccount.code_injective (he.symm.trans hcode)
      exact (hknown leg hleg u b hacc).2 hu
  · intro row hrow hout
    rw [ha] at hrow
    have hsame : ∀ b, s'.balance (.user row.userId b) = s.balance (.user row.userId b) := by
      intro b
      have hfree : ∀ leg ∈ legs, ¬ leg.account = .user row.userId b := by
        intro leg hleg he
        refine hout (hknown leg hleg row.userId b he).1 ⟨⟨leg.account.code, leg.side, leg.amount⟩, ?_,
          b, by rw [he]⟩
        rw [hposted.postings, hlegs]
        exact List.mem_append_right _ (List.mem_map.mpr ⟨leg, hleg, rfl⟩)
      have hzero : DoubleEntry.balance (.user row.userId b) legs = 0 := by
        show net (· = LedgerAccount.user row.userId b) legs = 0
        exact net_untouched hfree
      rw [hposted.balance hlegs, hzero, add_zero]
    unfold Db.available Db.withdrawPending Db.offlinePayPending
    rw [hsame, hsame, hsame]
    refine h.copied row hrow fun hin => ?_
    rintro ⟨p, hp, b, hcode⟩
    refine hout (hsub hin) ⟨p, ?_, b, hcode⟩
    rw [hposted.postings]
    exact List.mem_append_left _ hp

/-! ## rows of accounts -/

/-- what a column took is a text -/
theorem text_of_varchar {n : Nat} {a b : String} (h : varchar n a = .ok b) : text b = .ok b := by
  rw [varchar_ok h]
  rw [varchar] at h
  obtain ⟨t, ht, -⟩ := Except.bind_ok h
  rw [text] at ht
  split at ht
  · cases ht
  · next hno =>
    rw [text, if_neg]
    rw [cut, String.toList_ofList]
    exact fun hmem => hno (List.mem_of_mem_take hmem)

theorem ensureAccount_ok {userId nowIso : String} {v : Unit}
    (h : ensureAccount pg userId nowIso s = (.ok v, s')) :
    (∃ rows, s' = { s with accounts := rows }) ∧ (∀ row ∈ s.accounts, row ∈ s'.accounts) ∧
    (∃ row ∈ s'.accounts, row.userId = cut 64 userId) ∧
    ∀ stale, s.AccountsSound stale → s'.AccountsSound stale := by
  obtain ⟨id, s₁, hidc, h⟩ := Method.returns_bind.mp h
  obtain ⟨hid, rfl⟩ := column_ok hidc
  obtain ⟨updatedAt, s₁, ht, h⟩ := Method.returns_bind.mp h
  obtain ⟨-, rfl⟩ := column_ok ht
  have hcut := varchar_ok hid
  have hs' := Method.modify_returns.mp h
  by_cases hold : ∃ row ∈ s.accounts, row.userId = id
  · rw [if_pos hold] at hs'
    subst hs'
    obtain ⟨row, hrow, he⟩ := hold
    exact ⟨⟨s.accounts, rfl⟩, fun _ h => h, ⟨row, hrow, he.trans hcut⟩, fun _ h => h⟩
  · rw [if_neg hold] at hs'
    subst hs'
    refine ⟨⟨_, rfl⟩, fun row h => List.mem_append_left _ h,
      ⟨_, List.mem_append_right _ (List.mem_singleton_self _), hcut⟩, fun stale hs => ?_⟩
    constructor
    · intro row hrow
      rcases List.mem_append.mp hrow with hrow | hrow
      · exact hs.fits row hrow
      · rw [List.mem_singleton.mp hrow]
        show id.length ≤ 64
        rw [hcut]
        exact length_cut_le 64 userId
    · exact Rows.nodup_append hs.unique hold
    · intro row hrow
      rcases List.mem_append.mp hrow with hrow | hrow
      · exact hs.plain row hrow
      · rw [List.mem_singleton.mp hrow]
        exact text_of_varchar hid
    · intro u hu hpost
      obtain ⟨row, hrow, he⟩ := hs.known u hu hpost
      exact ⟨row, List.mem_append_left _ hrow, he⟩
    · intro row hrow hout
      rcases List.mem_append.mp hrow with hrow | hrow
      · exact hs.copied row hrow hout
      · rw [List.mem_singleton.mp hrow]
        -- a user without a row has no postings, so the new zeros are right
        have hfree : ¬ s.HasPostings id := by
          intro hpost
          have hlen : id.length ≤ 64 := by
            rw [hcut]
            exact length_cut_le 64 userId
          exact hold (hs.known id hlen hpost)
        have hzero := balance_of_untouched hfree
        constructor
        · exact (hzero .available).symm
        · show (0 : ℤ) = s.balance (.user id .withdrawPending) + s.balance (.user id .offlinePayPending)
          rw [hzero, hzero]
          rfl

theorem getAccountForUpdate_ok {userId : String} {row : AccountRow}
    (h : getAccountForUpdate userId s = (.ok row, s')) :
    s = s' ∧ row ∈ s.accounts ∧ row.userId = userId := by
  rw [getAccountForUpdate, Method.get_bind] at h
  cases hfind : s.accounts.find? fun row => row.userId = userId with
  | none =>
    rw [hfind] at h
    exact (Method.throw_returns.mp h).elim
  | some found =>
    rw [hfind] at h
    obtain ⟨rfl, rfl⟩ := Method.pure_returns.mp h
    exact ⟨rfl, List.mem_of_find?_eq_some hfind, by simpa using List.find?_some hfind⟩

theorem projected_ok {userId : String} {p : ProjectedBalances}
    (h : getProjectedUserBalances pg userId s = (.ok p, s')) :
    s = s' ∧ p.balance = s.available userId ∧
      p.lockedBalance = s.withdrawPending userId + s.offlinePayPending userId ∧
      (p.hasPostings = true ↔ s.HasPostings userId) := by
  obtain ⟨q, hq, hfacts⟩ := projected_apply pg userId s
  rw [hq] at h
  obtain ⟨hqp, rfl⟩ := Prod.mk.inj h
  obtain rfl := Except.ok.inj hqp
  exact ⟨rfl, hfacts⟩

theorem projectedAccount_ok {account : LedgerAccount} {b : ℤ}
    (h : getProjectedLedgerAccountBalance account s = (.ok b, s')) :
    s = s' ∧ b = s.balance account := by
  rw [projectedAccount_apply] at h
  obtain ⟨hb, rfl⟩ := Prod.mk.inj h
  exact ⟨rfl, (Except.ok.inj hb).symm⟩

/-- the balance an operation checks is what the user can spend -/
theorem spendable_ok {userId : String} {row : AccountRow} {p : ProjectedBalances} {b : ℤ}
    (hrow : row ∈ s.accounts ∧ row.userId = userId) (hp : p.balance = s.available userId)
    (h : availableBalanceOf row p s = (.ok b, s')) :
    s = s' ∧ (s.AccountsSound ∅ → b = s.available userId) := by
  rw [availableBalanceOf] at h
  split at h
  · obtain ⟨rfl, rfl⟩ := Method.pure_returns.mp h
    exact ⟨rfl, fun _ => hp⟩
  · rw [parse_text] at h
    obtain ⟨hb, rfl⟩ := Method.ofExcept_returns.mp h
    refine ⟨rfl, fun hs => ?_⟩
    have hcopy := (hs.copied row hrow.1 fun h => h.elim).1
    rw [← Except.ok.inj hb, hcopy, hrow.2]

theorem locked_ok {userId : String} {row : AccountRow} {p : ProjectedBalances} {b : ℤ}
    (hrow : row ∈ s.accounts ∧ row.userId = userId)
    (hp : p.lockedBalance = s.withdrawPending userId + s.offlinePayPending userId)
    (h : lockedBalanceOf row p s = (.ok b, s')) :
    s = s' ∧ (s.AccountsSound ∅ → b = s.withdrawPending userId + s.offlinePayPending userId) := by
  rw [lockedBalanceOf] at h
  split at h
  · obtain ⟨rfl, rfl⟩ := Method.pure_returns.mp h
    exact ⟨rfl, fun _ => hp⟩
  · rw [parse_text] at h
    obtain ⟨hb, rfl⟩ := Method.ofExcept_returns.mp h
    refine ⟨rfl, fun hs => ?_⟩
    have hcopy := (hs.copied row hrow.1 fun h => h.elim).2
    rw [← Except.ok.inj hb, hcopy, hrow.2]

/-! ## the sync -/

/-- a user's rows rewritten with what the projections say -/
theorem rewriteUser_ok {userId : String} {change : AccountRow → AccountRow}
    (h : s' = { s with accounts := Rows.update AccountRow.userId userId change s.accounts })
    (hchange : ∀ row, row.userId = userId →
      (change row).balance.units = s.available row.userId ∧
      (change row).lockedBalance.units = s.withdrawPending row.userId + s.offlinePayPending row.userId)
    (hid : ∀ row, (change row).userId = row.userId := by intro row; rfl) :
    (∃ rows, s' = { s with accounts := rows }) ∧
    s'.accounts.map (·.userId) = s.accounts.map (·.userId) ∧
    ∀ stale, s.AccountsSound stale → s'.AccountsSound (stale \ {userId}) := by
  subst h
  have hids : (Rows.update AccountRow.userId userId change s.accounts).map (·.userId) =
      s.accounts.map (·.userId) := by
    apply Rows.map_update
    intro row _
    exact hid row
  refine ⟨⟨_, rfl⟩, hids, fun stale hs => hs.rewritten hids ?_⟩
  intro row hrow hout
  obtain ⟨old, hold, rfl⟩ := List.mem_map.mp hrow
  by_cases hu : old.userId = userId
  · rw [if_pos hu, hid]
    exact hchange old hu
  · rw [if_neg hu] at hout ⊢
    exact hs.copied old hold fun hin => hout ⟨hin, hu⟩

theorem syncUser_ok {nowIso userId : String} {v : Unit}
    (h : syncUser pg nowIso userId s = (.ok v, s')) :
    (∃ rows, s' = { s with accounts := rows }) ∧
    s'.accounts.map (·.userId) = s.accounts.map (·.userId) ∧
    ∀ stale, s.AccountsSound stale → s'.AccountsSound (stale \ {userId}) := by
  obtain ⟨p, s₁, hp, h⟩ := Method.returns_bind.mp h
  obtain ⟨rfl, hbal, hlock, hpost⟩ := projected_ok hp
  by_cases hhas : p.hasPostings = true
  · rw [if_pos hhas] at h
    obtain ⟨balance, s₁, hbc, h⟩ := Method.returns_bind.mp h
    obtain ⟨hb, rfl⟩ := column_ok hbc
    obtain ⟨locked, s₁, hlc, h⟩ := Method.returns_bind.mp h
    obtain ⟨hl, rfl⟩ := column_ok hlc
    obtain ⟨updatedAt, s₁, ht, h⟩ := Method.returns_bind.mp h
    obtain ⟨-, rfl⟩ := column_ok ht
    have hchange : ∀ row : AccountRow, row.userId = userId →
        balance.units = s.available row.userId ∧
        locked.units = s.withdrawPending row.userId + s.offlinePayPending row.userId := by
      intro row hrow
      rw [ofText_format hb, hbal, ofText_format hl, hlock, hrow]
      exact ⟨rfl, rfl⟩
    have hs' : s' = { s with
        accounts := Rows.update AccountRow.userId userId
          (fun row => { row with balance := balance, lockedBalance := locked, updatedAt := updatedAt })
          s.accounts } := (Method.modify_returns.mp h).symm
    exact rewriteUser_ok hs' hchange
  · rw [if_neg hhas] at h
    obtain ⟨-, rfl⟩ := Method.pure_returns.mp h
    refine ⟨⟨s.accounts, rfl⟩, rfl, fun stale hs => hs.rewritten rfl fun row hrow hout => ?_⟩
    by_cases hu : row.userId = userId
    · -- a user without postings was never stale
      refine hs.copied row hrow fun _ => ?_
      rw [hu]
      exact fun h => hhas (hpost.mpr h)
    · exact hs.copied row hrow fun hin => hout ⟨hin, hu⟩

theorem syncEach_ok {nowIso : String} {userIds : List String} {v : Unit}
    (h : syncEach pg nowIso userIds s = (.ok v, s')) :
    (∃ rows, s' = { s with accounts := rows }) ∧
    s'.accounts.map (·.userId) = s.accounts.map (·.userId) ∧
    ∀ stale, s.AccountsSound stale → s'.AccountsSound (stale \ {u | u ∈ userIds}) := by
  induction userIds generalizing s with
  | nil =>
    obtain ⟨-, rfl⟩ := Method.pure_returns.mp h
    exact ⟨⟨s.accounts, rfl⟩, rfl, fun stale hs => hs.mono fun u hu => ⟨hu, by simp⟩⟩
  | cons userId userIds ih =>
    obtain ⟨_, s₁, hu, h⟩ := Method.returns_bind.mp h
    obtain ⟨⟨rows, rfl⟩, hids, hsound⟩ := syncUser_ok hu
    obtain ⟨⟨rows', rfl⟩, hids', hsound'⟩ := ih h
    refine ⟨⟨rows', rfl⟩, hids'.trans hids, fun stale hs => ?_⟩
    refine (hsound' _ (hsound stale hs)).mono ?_
    rintro u ⟨⟨hin, hne⟩, hout⟩
    refine ⟨hin, fun hmem => ?_⟩
    rcases List.mem_cons.mp hmem with h | h
    · exact hne h
    · exact hout h

/-- after the sync of every user concerned no row is stale -/
theorem sync_ok {nowIso : String} {userIds : List String} {v : Unit}
    (h : syncUserAccountProjection pg userIds nowIso s = (.ok v, s')) :
    (∃ rows, s' = { s with accounts := rows }) ∧
    s'.accounts.map (·.userId) = s.accounts.map (·.userId) ∧
    (s.AccountsSound {u | u ∈ userIds} → s'.AccountsSound ∅) := by
  obtain ⟨hrows, hids, hsound⟩ := syncEach_ok h
  refine ⟨hrows, hids, fun hs => (hsound _ hs).mono ?_⟩
  rintro u ⟨hin, hout⟩
  exact hout (List.mem_dedup.mpr hin)

/-! ## events -/

theorem randomUUID_ok {id : String} (h : randomUUID pg s = (.ok id, s')) :
    s' = { s with uuidsDrawn := s.uuidsDrawn + 1 } := (Prod.mk.inj h).2.symm

theorem enqueueOutboxEvent_ok {input : EnqueueInput} {v : Unit}
    (h : enqueueOutboxEvent pg input s = (.ok v, s')) :
    ∃ events n, s' = { s with outboxEvents := events, uuidsDrawn := n } := by
  obtain ⟨id, s₁, hid, h⟩ := Method.returns_bind.mp h
  obtain rfl := randomUUID_ok hid
  obtain ⟨row, s₁, hrow, h⟩ := Method.returns_bind.mp h
  obtain ⟨-, rfl⟩ := column_ok hrow
  obtain ⟨_, s₁, hg, h⟩ := Method.returns_bind.mp h
  obtain ⟨rfl, rfl⟩ := Method.get_returns.mp hg
  obtain ⟨_, s₁, hd, h⟩ := Method.returns_bind.mp h
  obtain ⟨-, rfl⟩ := Method.throwWhen_returns.mp hd
  obtain rfl := Method.modify_returns.mp h
  exact ⟨_, _, rfl⟩

theorem announceWithdrawal_ok {w : Withdrawal} {aggregateId occurredAt : String} {v : Unit}
    (h : announceWithdrawal pg w aggregateId occurredAt s = (.ok v, s')) :
    ∃ events n, s' = { s with outboxEvents := events, uuidsDrawn := n } := by
  obtain ⟨contract, s₁, hc, h⟩ := Method.returns_bind.mp h
  obtain ⟨-, rfl⟩ := Method.ofExcept_returns.mp hc
  exact enqueueOutboxEvent_ok h

/-! ## withdrawals -/

theorem getWithdrawalForUpdate_ok {withdrawalId : String} {row : WithdrawalRow}
    (h : getWithdrawalForUpdate pg withdrawalId s = (.ok row, s')) :
    s = s' ∧ uuid pg withdrawalId = .ok row.withdrawId ∧ row ∈ s.withdrawals := by
  obtain ⟨id, s₁, hid, h⟩ := Method.returns_bind.mp h
  obtain ⟨hid', rfl⟩ := column_ok hid
  obtain ⟨_, s₁, hg, h⟩ := Method.returns_bind.mp h
  obtain ⟨rfl, rfl⟩ := Method.get_returns.mp hg
  cases hfind : s.withdrawals.find? fun row => row.withdrawId = id with
  | none =>
    rw [hfind] at h
    exact (Method.throw_returns.mp h).elim
  | some found =>
    rw [hfind] at h
    obtain ⟨rfl, rfl⟩ := Method.pure_returns.mp h
    have hfound : found.withdrawId = id := by simpa using List.find?_some hfind
    exact ⟨rfl, by rw [hfound]; exact hid', List.mem_of_find?_eq_some hfind⟩

theorem updateWithdrawal_ok {withdrawalId id : String} {change : WithdrawalRow → WithdrawalRow}
    {v : Unit} (hid : uuid pg withdrawalId = .ok id)
    (h : updateWithdrawal pg withdrawalId change s = (.ok v, s')) :
    s' = { s with withdrawals := Rows.update (·.withdrawId) id change s.withdrawals } := by
  obtain ⟨id', s₁, hid', h⟩ := Method.returns_bind.mp h
  obtain ⟨hid'', rfl⟩ := column_ok hid'
  obtain rfl := Except.ok.inj (hid.symm.trans hid'')
  exact (Method.modify_returns.mp h).symm

theorem hydrateWithdrawal_ok {row : WithdrawalRow} {w : Withdrawal}
    (h : hydrateWithdrawal row s = (.ok w, s')) :
    s = s' ∧ w.userId = row.userId ∧ w.amount = row.amount.units ∧ w.status = row.status ∧
      w.idempotencyKey = row.idempotencyKey ∧ w.txHash = row.txHash ∧
      w.ledgerTxId = row.ledgerTxId := by
  obtain ⟨_, s₁, hg, h⟩ := Method.returns_bind.mp h
  obtain ⟨rfl, rfl⟩ := Method.get_returns.mp hg
  obtain ⟨hw, rfl⟩ := Method.ofExcept_returns.mp h
  obtain ⟨amount, ha, hw⟩ := Except.bind_ok hw
  rw [parse_text] at ha
  obtain rfl := Except.ok.inj ha
  obtain rfl := Except.ok.inj hw
  exact ⟨rfl, rfl, rfl, rfl, rfl, rfl, rfl⟩

theorem announceUpdated_ok {withdrawalId nowIso : String} {w : Withdrawal}
    (h : announceUpdated pg withdrawalId nowIso s = (.ok w, s')) :
    ∃ events n, s' = { s with outboxEvents := events, uuidsDrawn := n } := by
  obtain ⟨row, s₁, hrow, h⟩ := Method.returns_bind.mp h
  obtain ⟨rfl, -, -⟩ := getWithdrawalForUpdate_ok hrow
  obtain ⟨w', s₁, hw, h⟩ := Method.returns_bind.mp h
  obtain ⟨rfl, -⟩ := hydrateWithdrawal_ok hw
  obtain ⟨_, s₁, ha, h⟩ := Method.returns_bind.mp h
  obtain ⟨events, n, rfl⟩ := announceWithdrawal_ok ha
  obtain ⟨-, rfl⟩ := Method.pure_returns.mp h
  exact ⟨events, n, rfl⟩

end

end Postgres
