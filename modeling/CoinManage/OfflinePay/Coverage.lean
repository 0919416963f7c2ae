import CoinManage.OfflinePay.Reconciliation
import CoinManage.Postgres.Summary

/-!
# Which users the reconciliation comes to

Every cycle takes the first page of the users with ledger accounts anew, and puts before it the candidates
without a ledger.  There is no cursor: a user behind the end of the page is reached only when what stands
before the user goes away.

* `reconcile_codes`   the ledger accounts an adjustment opens;
* `Advances`          what cycles may change, when all calls succeed and nothing else happens;
* `Reachable`         the room a user needs: candidates that are never adjusted, and users sorted before;
* `cycle_reaches`     a cycle comes to such a user, or to a candidate that then has a ledger;
* `reaches_every_user`, `starved_user`   all such users are reached; another one never is.
-/

set_option linter.unusedSectionVars false

namespace Postgres
open DoubleEntry

/-! ## ledger accounts -/

section
variable {pg : PgServer} {s s' : Db}

/-- the codes of the ledger accounts there are -/
def Db.codes (s : Db) : List String := s.ledgerAccounts.map (·.ledgerAccountCode)

theorem ensureLedgerAccount_codes {posting : LedgerPostingInput} {currencyCode nowIso : String} {u : Unit}
    (h : ensureLedgerAccount pg posting currencyCode nowIso s = (.ok u, s'))
    (hlast : posting.ledgerAccountCode.toList.getLast? ≠ some ' ') (code : String) :
    code ∈ s'.codes ↔ code ∈ s.codes ∨ code = posting.ledgerAccountCode := by
  obtain ⟨written, s₁, hcode, h⟩ := Method.returns_bind.mp h
  obtain ⟨hwritten, rfl⟩ := column_ok hcode
  obtain rfl := varchar_exact hwritten hlast
  obtain ⟨currency, s₁, hcurrency, h⟩ := Method.returns_bind.mp h
  obtain ⟨-, rfl⟩ := column_ok hcurrency
  obtain ⟨createdAt, s₁, hcreated, h⟩ := Method.returns_bind.mp h
  obtain ⟨-, rfl⟩ := column_ok hcreated
  have hs' := Method.modify_returns.mp h
  rw [← hs']
  split
  · next hknown =>
    obtain ⟨row, hrow, hsame⟩ := hknown
    constructor
    · exact Or.inl
    · rintro (hold | rfl)
      · exact hold
      · exact List.mem_map.mpr ⟨row, hrow, hsame⟩
  · simp [Db.codes]

theorem ensureLedgerAccounts_codes {postings : List LedgerPostingInput} {currencyCode nowIso : String} {u : Unit}
    (h : ensureLedgerAccounts pg currencyCode nowIso postings s = (.ok u, s'))
    (hlast : ∀ p ∈ postings, p.ledgerAccountCode.toList.getLast? ≠ some ' ') (code : String) :
    code ∈ s'.codes ↔ code ∈ s.codes ∨ ∃ p ∈ postings, code = p.ledgerAccountCode := by
  induction postings generalizing s with
  | nil =>
    obtain ⟨-, rfl⟩ := Method.pure_returns.mp h
    simp
  | cons posting postings ih =>
    obtain ⟨_, s₁, hone, hrest⟩ := Method.returns_bind.mp h
    rw [ih hrest (fun p hp => hlast p (List.mem_cons_of_mem _ hp)),
      ensureLedgerAccount_codes hone (hlast posting List.mem_cons_self), or_assoc]
    simp only [List.mem_cons, exists_eq_or_imp]

/-- a journal opens the accounts it posts to -/
theorem appendJournal_codes {input : JournalInput} {legs : List (Posting LedgerAccount ℤ)} {u : Unit}
    (hlegs : input.postings = writeLegs legs) (h : appendJournal pg input s = (.ok u, s')) (code : String) :
    code ∈ s'.codes ↔ code ∈ s.codes ∨ ∃ leg ∈ legs, code = leg.account.code := by
  obtain ⟨id, s₁, hid, h⟩ := Method.returns_bind.mp h
  have hone : s₁.codes = s.codes := by
    rw [show s₁ = { s with uuidsDrawn := s.uuidsDrawn + 1 } from (Prod.mk.inj hid).2.symm]
    rfl
  obtain ⟨_, s₂, hjournal, h⟩ := Method.returns_bind.mp h
  have htwo : s₂.codes = s₁.codes := by
    rcases insertJournal_cases pg id input s₁ with ⟨e, he⟩ | ⟨row, -, -, hok⟩
    · rw [he] at hjournal
      cases hjournal
    · rw [hok] at hjournal
      rw [← (Prod.mk.inj hjournal).2]
      rfl
  obtain ⟨_, s₃, hensure, h⟩ := Method.returns_bind.mp h
  have hthree : s'.codes = s₃.codes := by
    rw [hlegs] at h
    rcases insertPostings_cases pg id input.nowIso legs s₃ with ⟨e, n, he⟩ | ⟨rows, n, -, -, hok⟩
    · rw [he] at h
      cases h
    · rw [hok] at h
      rw [← (Prod.mk.inj h).2]
      rfl
  rw [hlegs] at hensure
  have hcodes := ensureLedgerAccounts_codes hensure (fun p hp => by
    obtain ⟨leg, -, rfl⟩ := List.mem_map.mp hp
    exact code_getLast leg.account) code
  rw [hthree, hcodes, htwo, hone]
  simp [writeLegs, LedgerAccount.posting]

theorem footprint_congr {userId : String} (h : s'.ledgerAccounts = s.ledgerAccounts) :
    hasOfflinePayLedgerFootprintIn s' userId = hasOfflinePayLedgerFootprintIn s userId := by
  unfold hasOfflinePayLedgerFootprintIn
  rw [h]

/-- An adjustment is made unless nothing is missing, or something is missing where there is a ledger.  It
opens the available account of the user. -/
theorem reconcile_codes {input : ReconcileInput} {r : ReconcileResult}
    (h : reconcileOfflinePayUserBalance pg input s = (.ok r, s')) :
    let delta := input.target -
      (s.available input.userId + (s.withdrawPending input.userId + s.offlinePayPending input.userId))
    ((delta = 0 ∨ 0 < delta ∧ hasOfflinePayLedgerFootprintIn s input.userId = true) ∧ s'.codes = s.codes ∧
      s'.postings = s.postings) ∨
    ¬(delta = 0 ∨ 0 < delta ∧ hasOfflinePayLedgerFootprintIn s input.userId = true) ∧
      ∀ code, code ∈ s'.codes ↔ code ∈ s.codes ∨ code = (LedgerAccount.user input.userId .available).code ∨
        code = LedgerAccount.offlinePayReconciliation.code := by
  intro delta
  obtain ⟨_, s₁, hens, h⟩ := Method.returns_bind.mp (withTransaction_ok h)
  obtain ⟨⟨rows, rfl⟩, -⟩ := ensureAccount_ok hens
  obtain ⟨account, s₁, hacc, h⟩ := Method.returns_bind.mp h
  obtain ⟨rfl, -⟩ := getAccountForUpdate_ok hacc
  obtain ⟨p, s₁, hp, h⟩ := Method.returns_bind.mp h
  obtain ⟨rfl, hbal, hlock, -⟩ := projected_ok hp
  have hdelta : input.target - (p.balance + p.lockedBalance) = delta := by
    rw [hbal, hlock]
    rfl
  rw [hdelta] at h
  split at h
  · next hzero =>
    obtain ⟨-, rfl⟩ := Method.pure_returns.mp h
    exact Or.inl ⟨Or.inl hzero, rfl, rfl⟩
  · next hzero =>
    obtain ⟨_, s₁, hg, h⟩ := Method.returns_bind.mp h
    obtain ⟨rfl, rfl⟩ := Method.get_returns.mp hg
    split at h
    · next hfoot =>
      obtain ⟨-, rfl⟩ := Method.pure_returns.mp h
      exact Or.inl ⟨Or.inr hfoot, rfl, rfl⟩
    · next hfoot =>
      right
      refine ⟨not_or.mpr ⟨hzero, hfoot⟩, fun code => ?_⟩
      obtain ⟨_, s₁, hj, h⟩ := Method.returns_bind.mp h
      obtain ⟨_, s₂, hs, h⟩ := Method.returns_bind.mp h
      obtain ⟨-, rfl⟩ := Method.pure_returns.mp h
      obtain ⟨⟨rows', rfl⟩, -⟩ := sync_ok hs
      have hcodes := appendJournal_codes
        (reconciliationPostings_eq (.user input.userId .available) delta) hj code
      show code ∈ s₁.codes ↔ _
      rw [hcodes]
      show (code ∈ s.codes ∨ _) ↔ _
      refine or_congr_right ?_
      unfold reconciliationLegs move
      split
      · simp [or_comm]
      · simp

end

end Postgres

namespace OfflinePayLedgerReconciliationService
open Program Postgres

/-! ## users with ledger accounts -/

def IsLedgerUser (s : Db) (u : String) : Prop := ∃ b, (LedgerAccount.user u b).code ∈ s.codes

/-- the listing's accounts are those of users whose ids it can read -/
def Readable (s : Db) : Prop := ∀ code ∈ s.codes, isListed code = true →
  ∃ u b, code = (LedgerAccount.user u b).code ∧ u ≠ "" ∧ ':' ∉ u.toList

theorem splitPart2_user {u : String} (h : ':' ∉ u.toList) (b : Bucket) :
    splitPart2 (LedgerAccount.user u b).code = u := by
  have hskip : ∀ c ∈ u.toList, decide (c ≠ ':') = true := by
    intro c hc
    exact decide_eq_true fun he => h (he ▸ hc)
  rw [splitPart2, userCode_toList]
  have hdrop : (('u' :: 's' :: 'e' :: 'r' :: ':' :: (u.toList ++ ':' :: b.text.toList)).dropWhile
      (· ≠ ':')).drop 1 = u.toList ++ ':' :: b.text.toList := by
    simp [List.dropWhile]
  rw [hdrop, List.takeWhile_append_of_pos hskip]
  simp

theorem isListed_user (u : String) (b : Bucket) : isListed (LedgerAccount.user u b).code = true := by
  have hlike := (like_user b (.user u b)).mpr ⟨u, rfl⟩
  unfold isListed
  rw [List.any_eq_true]
  exact ⟨b, by cases b <;> decide, hlike⟩

variable {pg : PgServer} {collation : Collation String} {opts : Options} {message : LedgerError → String}
  {limit : Nat}

/-- the ids that are read are the users' -/
theorem mem_ledgerUserIds {s : Db} (hs : Readable s) {u : String} : u ∈ ledgerUserIds s ↔ IsLedgerUser s u := by
  rw [ledgerUserIds, List.mem_dedup, List.mem_map]
  constructor
  · rintro ⟨code, hcode, rfl⟩
    obtain ⟨hmem, hlisted⟩ := List.mem_filter.mp hcode
    obtain ⟨u, b, rfl, -, hcolon⟩ := hs code hmem hlisted
    rw [splitPart2_user hcolon]
    exact ⟨b, hmem⟩
  · rintro ⟨b, hb⟩
    obtain ⟨v, c, hcode, -, hcolon⟩ := hs _ hb (isListed_user u b)
    obtain ⟨rfl, rfl⟩ := userCode_injective hcode
    exact ⟨_, List.mem_filter.mpr ⟨hb, isListed_user u b⟩, splitPart2_user hcolon b⟩

theorem ledgerUser_readable {s : Db} (hs : Readable s) {u : String} (h : IsLedgerUser s u) :
    u ≠ "" ∧ ':' ∉ u.toList := by
  obtain ⟨b, hb⟩ := h
  obtain ⟨v, c, hcode, hne, hcolon⟩ := hs _ hb (isListed_user u b)
  obtain ⟨rfl, -⟩ := userCode_injective hcode
  exact ⟨hne, hcolon⟩

/-- a pattern without a backslash matches itself -/
theorem likeMatch_self {p : List Char} (h : '\\' ∉ p) : likeMatch p p = true := by
  induction p with
  | nil => rfl
  | cons c p ih =>
    have hrest := ih fun hc => h (List.mem_cons_of_mem _ hc)
    have hc : c ≠ '\\' := fun he => h (he ▸ List.mem_cons_self)
    by_cases hany : c = '%'
    · subst hany
      exact (likeMatch_any _).mpr ⟨['%'], p, rfl, hrest⟩
    · by_cases hone : c = '_'
      · subst hone
        exact (likeMatch_one _).mpr ⟨'_', p, rfl, hrest⟩
      · have hp : Literal [c] := by
          intro d hd
          rw [List.mem_singleton.mp hd]
          exact ⟨hany, hone, hc⟩
        exact (@likeMatch_literal [c] p hp (c :: p)).mpr ⟨p, rfl, hrest⟩

/-- a user with a ledger account has a footprint -/
theorem ledgerUser_footprint {s : Db} {u : String} (h : IsLedgerUser s u) (hu : '\\' ∉ u.toList) :
    hasOfflinePayLedgerFootprintIn s u = true := by
  obtain ⟨b, hb⟩ := h
  obtain ⟨row, hrow, hcode⟩ := List.mem_map.mp hb
  unfold hasOfflinePayLedgerFootprintIn
  rw [List.any_eq_true]
  refine ⟨row, hrow, List.any_eq_true.mpr ⟨b, by cases b <;> decide, ?_⟩⟩
  rw [hcode]
  apply likeMatch_self
  rw [userCode_toList]
  have htext : '\\' ∉ b.text.toList := by cases b <;> decide
  simp [hu, htext]

theorem footprint_mono {s s' : Db} (h : ∀ code ∈ s.codes, code ∈ s'.codes) {u : String}
    (hu : hasOfflinePayLedgerFootprintIn s u = true) : hasOfflinePayLedgerFootprintIn s' u = true := by
  unfold hasOfflinePayLedgerFootprintIn at hu ⊢
  rw [List.any_eq_true] at hu ⊢
  obtain ⟨row, hrow, hlike⟩ := hu
  obtain ⟨row', hrow', hcode⟩ := List.mem_map.mp (h _ (List.mem_map_of_mem hrow))
  refine ⟨row', hrow', ?_⟩
  have hcode' : row'.ledgerAccountCode = row.ledgerAccountCode := hcode
  rw [hcode']
  exact hlike

/-! ## candidates -/

section
variable (opts : Options) (limit : Nat) (collation : Collation String) (w : World)

/-- the users of Foxya with a positive balance that a cycle looks at -/
def candidates : List String := w.wallets.positive opts.currencyCode (max (limit * 5) limit)

/-- a user whose difference an adjustment may close -/
def adjustable (u : String) : Bool :=
  match parseStoredKoriAmount (w.wallets.snapshot u opts.currencyCode).totalBalance with
  | .ok target =>
    opts.toleranceAmount < |target - liability w.db u| ∧ |target - liability w.db u| ≤ opts.maxAdjustmentAmount ∧
      target ≠ liability w.db u
  | .error _ => false

/-- the candidates without a ledger -/
def withoutLedger : List String :=
  (candidates opts limit w).filter fun u => !hasOfflinePayLedgerFootprintIn w.db u

/-- those that get a ledger once they are examined -/
def waiting : List String := (withoutLedger opts limit w).filter (adjustable opts w ·)

/-- those that stay candidates -/
def stuck : List String := (withoutLedger opts limit w).filter (!adjustable opts w ·)

/-- what stands before a user when all candidates that can be adjusted have been -/
def HasRoom (u : String) : Prop :=
  (stuck opts limit w).length + (ledgerUserIds w.db).countP (collation.le · u) +
    (waiting opts limit w).countP (collation.le · u) ≤ limit

/-- ids that the listing and the footprint read as they are -/
structure Legible : Prop where
  users : Readable w.db
  candidates : ∀ u ∈ candidates opts limit w, u ≠ "" ∧ ':' ∉ u.toList ∧ '\\' ∉ u.toList

end

/-! ## runs all of whose calls succeed -/

/-- a call that succeeds, while nothing else happens -/
def Succeeds (pg : PgServer) (collation : Collation String) ⦃β : Type⦄ (call : Effect β) (w : World)
    (r : Except LedgerError β) (w' : World) : Prop :=
  CarriesOut pg collation call w r w' ∧ ∃ b, r = .ok b

/-- the user a call examines -/
def examinedUser ⦃β : Type⦄ : Effect β → Option String
  | .getCanonicalWalletSnapshot userId _ => some userId
  | _ => none

def Examined (t : List (Answered Effect LedgerError)) (u : String) : Prop := ∃ a ∈ t, examinedUser a.call = some u

/-- What may change while users are examined: the wallets stay, ledgers are opened for users that could be
adjusted, and what is owed changes for users that have a ledger then. -/
structure Advances (opts : Options) (ids : List String) (w w' : World) : Prop where
  wallets : w'.wallets = w.wallets
  kept : ∀ code ∈ w.db.codes, code ∈ w'.db.codes
  opened : ∀ code ∈ w'.db.codes, code ∈ w.db.codes ∨ code = LedgerAccount.offlinePayReconciliation.code ∨
    ∃ u ∈ ids, code = (LedgerAccount.user u .available).code ∧ (adjustable opts w u = true ∨ IsLedgerUser w.db u)
  owed : ∀ u, liability w'.db u = liability w.db u ∨ (LedgerAccount.user u .available).code ∈ w'.db.codes

section
variable {ids : List String} {w w₁ w' : World} {t : List (Answered Effect LedgerError)} {u : String}
  {bootstrapUserIds : List String}

theorem Advances.refl (ids : List String) (w : World) : Advances opts ids w w :=
  ⟨rfl, fun _ h => h, fun _ h => Or.inl h, fun _ => Or.inl rfl⟩

theorem Advances.mono {ids' : List String} (h : Advances opts ids w w') (hsub : ∀ u ∈ ids, u ∈ ids') :
    Advances opts ids' w w' := by
  refine ⟨h.wallets, h.kept, fun code hcode => ?_, h.owed⟩
  rcases h.opened code hcode with hold | hown | ⟨u, hu, hopened⟩
  · exact Or.inl hold
  · exact Or.inr (Or.inl hown)
  · exact Or.inr (Or.inr ⟨u, hsub u hu, hopened⟩)

theorem adjustable_congr (hwallets : w'.wallets = w.wallets) (howed : liability w'.db u = liability w.db u) :
    adjustable opts w' u = adjustable opts w u := by
  rw [adjustable, adjustable, hwallets, howed]

theorem userCode_ne_reconciliation {b : Bucket} :
    (LedgerAccount.user u b).code ≠ LedgerAccount.offlinePayReconciliation.code := by
  intro h
  cases LedgerAccount.code_injective h

/-- a ledger that was opened meanwhile -/
theorem Advances.ledgerUser (h : Advances opts ids w w') (hu : IsLedgerUser w'.db u) :
    IsLedgerUser w.db u ∨ u ∈ ids ∧ adjustable opts w u = true := by
  obtain ⟨b, hb⟩ := hu
  rcases h.opened _ hb with hold | hown | ⟨v, hv, hcode, hwhy⟩
  · exact Or.inl ⟨b, hold⟩
  · exact absurd hown userCode_ne_reconciliation
  · obtain ⟨rfl, -⟩ := userCode_injective hcode
    rcases hwhy with hadjustable | hledger
    · exact Or.inr ⟨hv, hadjustable⟩
    · exact Or.inl hledger

theorem Advances.ledgerUser_kept (h : Advances opts ids w w') (hu : IsLedgerUser w.db u) : IsLedgerUser w'.db u := by
  obtain ⟨b, hb⟩ := hu
  exact ⟨b, h.kept _ hb⟩

theorem Advances.trans (h : Advances opts ids w w₁) (h' : Advances opts ids w₁ w') : Advances opts ids w w' := by
  refine ⟨h'.wallets.trans h.wallets, fun code hcode => h'.kept _ (h.kept _ hcode), fun code hcode => ?_, fun u => ?_⟩
  · rcases h'.opened code hcode with hold | hown | ⟨u, hu, rfl, hwhy⟩
    · exact h.opened code hold
    · exact Or.inr (Or.inl hown)
    · right
      right
      refine ⟨u, hu, rfl, ?_⟩
      have hledger : ∀ hu : IsLedgerUser w₁.db u, adjustable opts w u = true ∨ IsLedgerUser w.db u := fun hu =>
        (h.ledgerUser hu).symm.imp_left And.right
      rcases hwhy with hadjustable | hu
      · rcases h.owed u with hsame | hcode
        · rw [adjustable_congr h.wallets hsame] at hadjustable
          exact Or.inl hadjustable
        · exact hledger ⟨_, hcode⟩
      · exact hledger hu
  · rcases h'.owed u with hsame | hcode
    · rcases h.owed u with hsame' | hcode'
      · exact Or.inl (hsame.trans hsame')
      · exact Or.inr (h'.kept _ hcode')
    · exact Or.inr hcode

/-! ## one user -/

theorem succeeds_perform_bind {α β : Type} {call : Effect β} {f : β → Async α} {o : Except LedgerError α}
    (h : Runs (Succeeds pg collation) (perform call >>= f) w t o w') :
    ∃ b w₁ t', CarriesOut pg collation call w (.ok b) w₁ ∧ Runs (Succeeds pg collation) (f b) w₁ t' o w' ∧
      t = ⟨call, .ok b⟩ :: t' := by
  rcases runs_perform_bind.mp h with ⟨e, -, ⟨-, b, hb⟩, -⟩ | ⟨b, w₁, t', ⟨hcarried, -⟩, hrest, ht⟩
  · cases hb
  · exact ⟨b, w₁, t', hcarried, hrest, ht⟩

theorem carried_reads {β : Type} {call : Effect β} {r : Except LedgerError β} (hcall : Reads call)
    (h : CarriesOut pg collation call w r w') : w' = w := by
  cases call with
  | reconcileOfflinePayUserBalance => exact hcall.elim
  | getOfflinePayUserBalanceSnapshot =>
    obtain ⟨p, -, -, hw⟩ := h
    exact hw
  | _ =>
    obtain ⟨-, hw⟩ := h
    exact hw

theorem reads_same {α : Type} {p : Async α} {o : Except LedgerError α}
    (h : Runs (Succeeds pg collation) p w t o w') (hp : p.Only Reads) : w' = w :=
  (h.keeps hp Eq.refl Eq.trans fun hcall handled => (carried_reads hcall handled.1).symm).symm

theorem adjustable_iff {target : ℤ}
    (h : parseStoredKoriAmount (w.wallets.snapshot u opts.currencyCode).totalBalance = .ok target) :
    adjustable opts w u = true ↔ opts.toleranceAmount < |target - liability w.db u| ∧
      |target - liability w.db u| ≤ opts.maxAdjustmentAmount ∧ target ≠ liability w.db u := by
  rw [adjustable, h]
  exact decide_eq_true_iff

/-- an adjustment within the bounds -/
theorem reconcile_advances {target : ℤ} {canonicalBasis : String} {r : ReconcileResult}
    (hparse : parseStoredKoriAmount (w.wallets.snapshot u opts.currencyCode).totalBalance = .ok target)
    (htolerance : opts.toleranceAmount < |target - liability w.db u|)
    (hmax : |target - liability w.db u| ≤ opts.maxAdjustmentAmount)
    (h : CarriesOut pg collation (.reconcileOfflinePayUserBalance u target canonicalBasis) w (.ok r) w') :
    Advances opts [u] w w' ∧ (target ≠ liability w.db u → hasOfflinePayLedgerFootprintIn w.db u = false →
      (LedgerAccount.user u .available).code ∈ w'.db.codes) := by
  obtain ⟨nowIso, db, hr, rfl⟩ := h
  have hdelta : target - (w.db.available u + (w.db.withdrawPending u + w.db.offlinePayPending u)) =
      target - liability w.db u := rfl
  rcases reconcile_codes hr with ⟨hnone, hcodes, hpostings⟩ | ⟨hsome, hcodes⟩
  · have hsame : ∀ v, liability db v = liability w.db v := fun v => by
      unfold liability Db.available Db.withdrawPending Db.offlinePayPending Db.balance
      rw [hpostings]
    refine ⟨⟨rfl, fun code hcode => ?_, fun code hcode => ?_, fun v => Or.inl (hsame v)⟩, fun hne hfoot => ?_⟩
    · show code ∈ db.codes
      rwa [hcodes]
    · replace hcode : code ∈ db.codes := hcode
      rw [hcodes] at hcode
      exact Or.inl hcode
    · simp only [hdelta] at hnone
      rcases hnone with hzero | ⟨-, hfoot'⟩
      · exact absurd (sub_eq_zero.mp hzero) hne
      · rw [hfoot] at hfoot'
        cases hfoot'
  · have hopen : (LedgerAccount.user u .available).code ∈ db.codes := (hcodes _).mpr (Or.inr (Or.inl rfl))
    simp only [hdelta, not_or] at hsome
    refine ⟨⟨rfl, fun code hcode => (hcodes code).mpr (Or.inl hcode), fun code hcode => ?_, fun v => ?_⟩,
      fun _ _ => hopen⟩
    · rcases (hcodes code).mp hcode with hold | hown | hreconciliation
      · exact Or.inl hold
      · right
        right
        refine ⟨u, List.mem_singleton_self u, hown, Or.inl ((adjustable_iff hparse).mpr ⟨htolerance, hmax, ?_⟩)⟩
        intro he
        exact hsome.1 (sub_eq_zero.mpr he)
      · exact Or.inr (Or.inl hreconciliation)
    · rcases adjusts_to_target hr v with hsame | ⟨hv, -⟩
      · exact Or.inl hsame
      · right
        obtain rfl : v = u := hv
        exact hopen

/-- what a user is owed agrees with the wallet -/
def Within (opts : Options) (w : World) (u : String) : Prop :=
  ∃ target, parseStoredKoriAmount (w.wallets.snapshot u opts.currencyCode).totalBalance = .ok target ∧
    |target - liability w.db u| ≤ opts.toleranceAmount

/-- what examining a user comes to -/
structure Examines (opts : Options) (bootstrapUserIds : List String) (u : String) (w : World)
    (t : List (Answered Effect LedgerError)) (w' : World) : Prop where
  advances : Advances opts [u] w w'
  opens : u ∈ bootstrapUserIds → adjustable opts w u = true → hasOfflinePayLedgerFootprintIn w.db u = false →
    (LedgerAccount.user u .available).code ∈ w'.db.codes
  examined : Examined t u
  quiet : Within opts w u → w' = w

/-- the adjustment of a user, with its audit -/
theorem reconcile_runs {target : ℤ} {totalBalance canonicalBasis note : String}
    {o : Except LedgerError AdjustmentResult} (hparse : parseStoredKoriAmount totalBalance = .ok target)
    (h : Runs (Succeeds pg collation) (reconcileOfflinePayUserBalance u totalBalance canonicalBasis note) w t o w') :
    ∃ r, CarriesOut pg collation (.reconcileOfflinePayUserBalance u target canonicalBasis) w (.ok r) w' := by
  unfold reconcileOfflinePayUserBalance at h
  rw [hparse] at h
  obtain ⟨r, w₁, t₁, hcarried, h₁, -⟩ := succeeds_perform_bind h
  have hsame : w' = w₁ :=
    reads_same h₁ (Program.Only.bind (only_perform (by exact trivial)) fun _ => .pure _)
  rw [hsame]
  exact ⟨r, hcarried⟩

theorem examine_runs {o : Except LedgerError Verdict}
    (h : Runs (Succeeds pg collation) (examine opts bootstrapUserIds u) w t o w') :
    Examines opts bootstrapUserIds u w t w' := by
  obtain ⟨snapshot, w₁, t₁, ⟨hsnapshot, hsame⟩, h₁, rfl⟩ := succeeds_perform_bind h
  have hexamined : Examined (⟨.getCanonicalWalletSnapshot u opts.currencyCode, .ok snapshot⟩ :: t₁) u :=
    ⟨_, List.mem_cons_self, rfl⟩
  obtain ⟨current, w₂, t₂, hread, h₂, -⟩ := succeeds_perform_bind h₁
  have hhandled : Handles pg collation Anything (.getOfflinePayUserBalanceSnapshot u) w₁ (.ok current) w₂ :=
    .done rfl hread
  have howed := handled_balance hhandled
  have hsame' := carried_reads (by exact trivial) hread
  rw [hsame', hsame] at h₂ howed
  rw [Except.ok.inj hsnapshot] at h₂
  -- a user who is not adjusted
  have hquiet : w' = w → (u ∈ bootstrapUserIds → adjustable opts w u ≠ true) →
      Examines opts bootstrapUserIds u w (⟨.getCanonicalWalletSnapshot u opts.currencyCode, .ok snapshot⟩ :: t₁) w' := by
    rintro rfl hnot
    exact ⟨.refl _ _, fun hboot hadjustable => absurd hadjustable (hnot hboot), hexamined, fun _ => rfl⟩
  cases hparse : parseStoredKoriAmount (w.wallets.snapshot u opts.currencyCode).totalBalance with
  | error e =>
    rw [hparse] at h₂
    refine hquiet (reads_same h₂ (.throw e)) fun _ hadjustable => ?_
    rw [adjustable, hparse] at hadjustable
    cases hadjustable
  | ok target =>
    rw [hparse] at h₂
    dsimp only at h₂
    rw [abs_eq_ite, howed] at h₂
    split at h₂
    · next htolerance =>
      refine hquiet (reads_same h₂ (.pure _)) fun _ hadjustable => ?_
      exact absurd ((adjustable_iff hparse).mp hadjustable).1 (not_lt.mpr htolerance)
    · next htolerance =>
      split at h₂
      · next hpositive => exact hquiet (reads_same h₂ (.pure _)) fun hboot => absurd hboot hpositive.2
      · split at h₂
        · next hmax =>
          refine hquiet (reads_same h₂ (.pure _)) fun _ hadjustable => ?_
          exact absurd ((adjustable_iff hparse).mp hadjustable).2.1 (not_le.mpr hmax)
        · next hmax =>
          have hdone : ∀ {o : Except LedgerError AdjustmentResult} {t : List (Answered Effect LedgerError)}
              {w' : World}, Runs (Succeeds pg collation) (reconcileOfflinePayUserBalance u
                (w.wallets.snapshot u opts.currencyCode).totalBalance
                (w.wallets.snapshot u opts.currencyCode).canonicalBasis
                (note (w.wallets.snapshot u opts.currencyCode))) w t o w' →
              Advances opts [u] w w' ∧ (target ≠ liability w.db u →
                hasOfflinePayLedgerFootprintIn w.db u = false →
                (LedgerAccount.user u .available).code ∈ w'.db.codes) := by
            intro o t w' hrun
            obtain ⟨r, hcarried⟩ := reconcile_runs hparse hrun
            exact reconcile_advances hparse (not_le.mp htolerance) (not_lt.mp hmax) hcarried
          have hall : Advances opts [u] w w' ∧ (target ≠ liability w.db u →
              hasOfflinePayLedgerFootprintIn w.db u = false →
              (LedgerAccount.user u .available).code ∈ w'.db.codes) := by
            rcases runs_bind.mp h₂ with ⟨e, hrun, -⟩ | ⟨result, w₃, t₃, t₄, hrun, hrest, -⟩
            · exact hdone hrun
            · have hsame : w' = w₃ := by
                split at hrest
                · exact reads_same hrest (.pure _)
                · exact reads_same hrest (.pure _)
              rw [hsame]
              exact hdone hrun
          refine ⟨hall.1, fun _ hadjustable hfoot => ?_, hexamined, ?_⟩
          · exact hall.2 ((adjustable_iff hparse).mp hadjustable).2.2 hfoot
          · rintro ⟨target', htarget, hwithin⟩
            obtain rfl := Except.ok.inj (hparse.symm.trans htarget)
            exact absurd hwithin htolerance

theorem fail_runs {e : LedgerError} {c : Counters} {o : Except LedgerError Counters}
    (h : Runs (Succeeds pg collation) (fail message u e c) w t o w') : w' = w ∧ ∃ c', o = .ok c' := by
  refine ⟨reads_same h (fail_reads u e c), ?_⟩
  obtain ⟨_, w₁, t₁, -, h₁, -⟩ := succeeds_perform_bind h
  obtain ⟨_, w₂, t₂, -, h₂, -⟩ := succeeds_perform_bind h₁
  obtain ⟨-, ho, -⟩ := runs_pure.mp h₂
  exact ⟨_, ho⟩

theorem Examined.append_left {t' : List (Answered Effect LedgerError)} (h : Examined t u) : Examined (t ++ t') u := by
  obtain ⟨a, ha, hu⟩ := h
  exact ⟨a, List.mem_append_left _ ha, hu⟩

theorem Examined.append_right {t' : List (Answered Effect LedgerError)} (h : Examined t' u) :
    Examined (t ++ t') u := by
  obtain ⟨a, ha, hu⟩ := h
  exact ⟨a, List.mem_append_right _ ha, hu⟩

/-- one round of the loop; the `catch` keeps it going -/
theorem checkUser_runs {c : Counters} {o : Except LedgerError Counters}
    (h : Runs (Succeeds pg collation) (checkUser opts message bootstrapUserIds u c) w t o w') :
    Examines opts bootstrapUserIds u w t w' ∧ ∃ c', o = .ok c' := by
  rcases runs_bind.mp h with ⟨e, hexamine, -⟩ | ⟨r, w₁, t₁, t₂, hexamine, h₁, rfl⟩
  · obtain ⟨r, hr, -⟩ := runs_attempt.mp hexamine
    cases hr
  obtain ⟨r', -, hrun⟩ := runs_attempt.mp hexamine
  have hone := examine_runs hrun
  have hrest : w' = w₁ ∧ ∃ c', o = .ok c' := by
    cases r with
    | error e => exact fail_runs h₁
    | ok verdict =>
      rcases runs_bind.mp h₁ with ⟨e, hreport, -⟩ | ⟨r, w₂, t₃, t₄, hreport, h₂, -⟩
      · obtain ⟨r, hr, -⟩ := runs_attempt.mp hreport
        cases hr
      obtain ⟨r'', -, hrun'⟩ := runs_attempt.mp hreport
      have hsame : w₂ = w₁ := reads_same hrun' (report_reads u verdict)
      cases r with
      | error e =>
        obtain ⟨hw, hc⟩ := fail_runs h₂
        exact ⟨hw.trans hsame, hc⟩
      | ok _ =>
        obtain ⟨-, ho, hw⟩ := runs_pure.mp h₂
        exact ⟨hw.trans hsame, _, ho⟩
  obtain ⟨hw, hc⟩ := hrest
  rw [hw]
  exact ⟨⟨hone.advances, hone.opens, hone.examined.append_left, hone.quiet⟩, hc⟩

/-- all users of a cycle are examined; a candidate that can be adjusted has a ledger in the end, or a footprint -/
theorem checkUsers_runs {userIds : List String} {c : Counters} {o : Except LedgerError Counters}
    (h : Runs (Succeeds pg collation) (checkUsers opts message bootstrapUserIds userIds c) w t o w')
    (hboot : ∀ u ∈ bootstrapUserIds, '\\' ∉ u.toList) :
    Advances opts userIds w w' ∧ (∀ u ∈ userIds, Examined t u) ∧
    (∀ u ∈ userIds, u ∈ bootstrapUserIds → adjustable opts w u = true →
      hasOfflinePayLedgerFootprintIn w'.db u = true) ∧
    ((∀ u ∈ userIds, Within opts w u) → w' = w) := by
  induction userIds generalizing c w t with
  | nil =>
    obtain ⟨-, -, rfl⟩ := runs_pure.mp h
    exact ⟨.refl _ _, nofun, nofun, fun _ => rfl⟩
  | cons userId userIds ih =>
    rcases runs_bind.mp h with ⟨e, hone, -⟩ | ⟨c₁, w₁, t₁, t₂, hone, hrest, rfl⟩
    · obtain ⟨-, c', hc⟩ := checkUser_runs hone
      cases hc
    obtain ⟨hexamines, -⟩ := checkUser_runs hone
    obtain ⟨hadvances, hexamined, hopens, hquiet⟩ := ih hrest
    have hfirst : Advances opts (userId :: userIds) w w₁ :=
      hexamines.advances.mono fun u hu => List.mem_singleton.mp hu ▸ List.mem_cons_self
    have hlater : Advances opts (userId :: userIds) w₁ w' := hadvances.mono fun u => List.mem_cons_of_mem _
    have hopened : ∀ {u : String}, (LedgerAccount.user u .available).code ∈ w₁.db.codes → '\\' ∉ u.toList →
        hasOfflinePayLedgerFootprintIn w'.db u = true := fun hcode hu =>
      footprint_mono hlater.kept (ledgerUser_footprint ⟨_, hcode⟩ hu)
    refine ⟨hfirst.trans hlater, fun u hu => ?_, fun u hu hmem hadjustable => ?_, fun hwithin => ?_⟩
    · rcases List.mem_cons.mp hu with rfl | hu
      · exact hexamines.examined.append_left
      · exact (hexamined u hu).append_right
    · rcases List.mem_cons.mp hu with rfl | hu
      · cases hfoot : hasOfflinePayLedgerFootprintIn w.db u with
        | true => exact footprint_mono (hfirst.trans hlater).kept hfoot
        | false => exact hopened (hexamines.opens hmem hadjustable hfoot) (hboot u hmem)
      · rcases hfirst.owed u with hsame | hcode
        · apply hopens u hu hmem
          rw [adjustable_congr hfirst.wallets hsame]
          exact hadjustable
        · exact hopened hcode (hboot u hmem)
    · have hsame : w₁ = w := hexamines.quiet (hwithin userId List.mem_cons_self)
      rw [hsame] at hquiet
      exact hquiet fun u hu => hwithin u (List.mem_cons_of_mem _ hu)

/-! ## one cycle -/

theorem choose_runs {existing candidates found : List String} {o : Except LedgerError (List String)}
    (h : Runs (Succeeds pg collation) (chooseBootstrapUserIds existing limit candidates found) w t o w')
    (hfound : found.length < limit) :
    w' = w ∧ o = .ok (found ++ (candidates.filter fun u =>
      decide (u ∉ existing) && !hasOfflinePayLedgerFootprintIn w.db u).take (limit - found.length)) := by
  induction candidates generalizing found w t with
  | nil =>
    obtain ⟨-, ho, hw⟩ := runs_pure.mp h
    exact ⟨hw, by simpa using ho⟩
  | cons candidate candidates ih =>
    unfold chooseBootstrapUserIds at h
    split at h
    · next hexisting =>
      rw [List.filter_cons_of_neg (by simp [hexisting])]
      exact ih h hfound
    · next hexisting =>
      obtain ⟨hasFootprint, w₁, t₁, ⟨hfoot, hsame⟩, h₁, -⟩ := succeeds_perform_bind h
      obtain rfl := Except.ok.inj hfoot
      rw [hsame] at h₁
      split at h₁
      · next hfoot =>
        rw [List.filter_cons_of_neg (by simp [hfoot])]
        exact ih h₁ hfound
      · next hfoot =>
        rw [List.filter_cons_of_pos (by simp [hexisting, hfoot])]
        have hsucc : limit - found.length = (limit - (found.length + 1)) + 1 := by omega
        rw [hsucc, List.take_succ_cons]
        split at h₁
        · next hfull =>
          rw [List.length_append, List.length_singleton] at hfull
          obtain ⟨-, ho, hw⟩ := runs_pure.mp h₁
          have hzero : limit - (found.length + 1) = 0 := by omega
          rw [hzero, List.take_zero]
          exact ⟨hw, ho⟩
        · next hfull =>
          rw [List.length_append, List.length_singleton] at hfull
          obtain ⟨hw, ho⟩ := ih h₁ (by rw [List.length_append, List.length_singleton]; omega)
          refine ⟨hw, ?_⟩
          rw [ho, List.length_append, List.length_singleton, List.append_assoc]
          rfl

/-- a call that examines nobody but these -/
def Examinable (ids : List String) ⦃β : Type⦄ (call : Effect β) : Prop := ∀ v, examinedUser call = some v → v ∈ ids

theorem examine_examines (h : u ∈ ids) : (examine opts bootstrapUserIds u).Only (Examinable ids) := by
  have hsnapshot : Examinable ids (.getCanonicalWalletSnapshot u opts.currencyCode) := by
    intro v hv
    exact Option.some.inj hv ▸ h
  refine Program.Only.bind (.perform hsnapshot) fun snapshot => Program.Only.bind (.perform nofun) fun current => ?_
  cases parseStoredKoriAmount snapshot.totalBalance with
  | error e => exact .throw e
  | ok target =>
    dsimp only
    rw [abs_eq_ite]
    split
    · exact .pure _
    · split
      · exact .pure _
      · split
        · exact .pure _
        · have hreconcile : (reconcileOfflinePayUserBalance u snapshot.totalBalance snapshot.canonicalBasis
              (note snapshot)).Only (Examinable ids) := by
            unfold reconcileOfflinePayUserBalance
            cases parseStoredKoriAmount snapshot.totalBalance with
            | error e => exact .throw e
            | ok target =>
              exact Program.Only.bind (.pure target) fun target => Program.Only.bind (.perform nofun) fun result =>
                Program.Only.bind (.perform nofun) fun _ => .pure _
          apply Program.Only.bind hreconcile
          intro result
          split
          · exact .pure _
          · exact .pure _

theorem report_examines (verdict : Verdict) : (report opts u verdict).Only (Examinable ids) := by
  cases verdict with
  | withinTolerance | notAdjusted => exact .pure _
  | positiveDelta | exceedsMaxAdjustment | adjusted => exact Program.Only.bind (.perform nofun) fun _ => .perform nofun

theorem fail_examines (e : LedgerError) (c : Counters) : (fail message u e c).Only (Examinable ids) :=
  Program.Only.bind (.perform nofun) fun _ => Program.Only.bind (.perform nofun) fun _ => .pure _

theorem checkUsers_examines {userIds : List String} (h : ∀ u ∈ userIds, u ∈ ids) (c : Counters) :
    (checkUsers opts message bootstrapUserIds userIds c).Only (Examinable ids) := by
  induction userIds generalizing c with
  | nil => exact .pure _
  | cons userId userIds ih =>
    refine Program.Only.bind ?_ fun c => ih (fun u hu => h u (List.mem_cons_of_mem _ hu)) c
    refine Program.Only.bind (examine_examines (h userId List.mem_cons_self)).attempt fun r => ?_
    cases r with
    | error e => exact fail_examines _ _
    | ok verdict =>
      refine Program.Only.bind (report_examines verdict).attempt fun r => ?_
      cases r with
      | error e => exact fail_examines _ _
      | ok _ => exact .pure _

theorem choose_examines (existing : List String) (candidates found : List String) :
    (chooseBootstrapUserIds existing limit candidates found).Only (Examinable []) := by
  induction candidates generalizing found with
  | nil => exact .pure _
  | cons candidate candidates ih =>
    unfold chooseBootstrapUserIds
    split
    · exact ih found
    · refine Program.Only.bind (.perform (fun _ h => (by cases h))) fun hasFootprint => ?_
      split
      · exact ih found
      · split
        · exact .pure _
        · exact ih _

/-- the candidates a cycle puts first -/
def bootstrapOf (opts : Options) (limit : Nat) (w : World) : List String := (withoutLedger opts limit w).take limit

/-- the users of a cycle -/
def usersOf (opts : Options) (limit : Nat) (collation : Collation String) (w : World) : List String :=
  (bootstrapOf opts limit w ++ collation.page limit (ledgerUserIds w.db)).take limit

theorem listUserIds_eq (hw : Legible opts limit w) :
    listUserIds collation limit w.db = collation.page limit (ledgerUserIds w.db) := by
  refine List.filter_eq_self.mpr fun u hu => decide_eq_true ?_
  exact (ledgerUser_readable hw.users ((mem_ledgerUserIds hw.users).mp (collation.mem_of_mem_page hu))).1

/-- what a cycle does -/
structure Cycles (opts : Options) (limit : Nat) (collation : Collation String) (w : World)
    (t : List (Answered Effect LedgerError)) (w' : World) : Prop where
  advances : Advances opts (usersOf opts limit collation w) w w'
  examined : ∀ u, Examined t u ↔ u ∈ usersOf opts limit collation w
  opens : ∀ u ∈ bootstrapOf opts limit w, adjustable opts w u = true → hasOfflinePayLedgerFootprintIn w'.db u = true
  quiet : (∀ u ∈ usersOf opts limit collation w, Within opts w u) → w' = w

theorem bootstrapOf_length : (bootstrapOf opts limit w).length ≤ limit := by
  rw [bootstrapOf, List.length_take]
  exact Nat.min_le_left _ _

theorem usersOf_eq : usersOf opts limit collation w = bootstrapOf opts limit w ++
    collation.page (limit - (bootstrapOf opts limit w).length) (ledgerUserIds w.db) := by
  rw [usersOf, List.take_append, List.take_of_length_le bootstrapOf_length, Collation.page, List.take_take,
    Nat.min_eq_left (Nat.sub_le _ _)]
  rfl

theorem mem_withoutLedger : u ∈ withoutLedger opts limit w ↔
    u ∈ candidates opts limit w ∧ hasOfflinePayLedgerFootprintIn w.db u = false := by
  rw [withoutLedger, List.mem_filter, Bool.not_eq_true']

theorem bootstrap_candidate (h : u ∈ bootstrapOf opts limit w) : u ∈ withoutLedger opts limit w :=
  List.mem_of_mem_take h

theorem cycle_runs {o : Except LedgerError Counters} (hlimit : 1 ≤ limit) (hw : Legible opts limit w)
    (h : Runs (Succeeds pg collation) (runCycle opts message limit) w t o w') :
    Cycles opts limit collation w t w' := by
  obtain ⟨existing, w₁, t₁, ⟨hexisting, hsame₁⟩, h₁, rfl⟩ := succeeds_perform_bind h
  obtain ⟨found, w₂, t₂, ⟨hfound, hsame₂⟩, h₂, rfl⟩ := succeeds_perform_bind h₁
  rw [hsame₂, hsame₁] at h₂
  rw [hsame₁] at hfound
  have hpage : existing = collation.page limit (ledgerUserIds w.db) :=
    (Except.ok.inj hexisting).trans (listUserIds_eq hw)
  obtain rfl : found = candidates opts limit w := Except.ok.inj hfound
  -- what is on the page has a footprint, so the footprint alone decides
  have hfilter : ((candidates opts limit w).filter fun u =>
      decide (u ∉ existing) && !hasOfflinePayLedgerFootprintIn w.db u) = withoutLedger opts limit w := by
    refine List.filter_congr fun u hu => ?_
    by_cases hmem : u ∈ existing
    · rw [hpage] at hmem
      have hledger := (mem_ledgerUserIds hw.users).mp (collation.mem_of_mem_page hmem)
      simp [ledgerUser_footprint hledger (hw.candidates u hu).2.2]
    · simp [hmem]
  rcases runs_bind.mp h₂ with ⟨e, hchoose, -⟩ | ⟨chosen, w₃, t₃, t₄, hchoose, h₃, rfl⟩
  · obtain ⟨-, ho⟩ := choose_runs hchoose (by rw [List.length_nil]; omega)
    cases ho
  obtain ⟨hsame₃, hchosen⟩ := choose_runs hchoose (by rw [List.length_nil]; omega)
  rw [hfilter, List.length_nil, Nat.sub_zero, List.nil_append] at hchosen
  obtain rfl : chosen = bootstrapOf opts limit w := Except.ok.inj hchosen
  rw [hsame₃, hpage] at h₃
  have hplain : ∀ u ∈ bootstrapOf opts limit w, '\\' ∉ u.toList := fun u hu =>
    (hw.candidates u (mem_withoutLedger.mp (bootstrap_candidate hu)).1).2.2
  obtain ⟨hadvances, hexamined, hopens, hquiet⟩ := checkUsers_runs h₃ hplain
  refine ⟨hadvances, fun u => ⟨?_, fun hu => ?_⟩, fun u hu => ?_, hquiet⟩
  · rintro ⟨a, ha, hu⟩
    rcases List.mem_cons.mp ha with rfl | ha
    · cases hu
    · rcases List.mem_cons.mp ha with rfl | ha
      · cases hu
      · rcases List.mem_append.mp ha with ha | ha
        · exact absurd (hchoose.only (choose_examines _ _ _) a ha u hu) List.not_mem_nil
        · exact h₃.only (checkUsers_examines (fun _ h => h) _) a ha u hu
  · obtain ⟨a, ha, hau⟩ := hexamined u hu
    exact ⟨a, List.mem_cons_of_mem _ (List.mem_cons_of_mem _ (List.mem_append_right _ ha)), hau⟩
  · refine hopens u ?_ hu
    show u ∈ usersOf opts limit collation w
    rw [usersOf_eq]
    exact List.mem_append_left _ hu

/-! ## what a cycle keeps -/

theorem isListed_reconciliation : isListed LedgerAccount.offlinePayReconciliation.code = false := by
  unfold isListed
  rw [List.any_eq_false]
  rintro b - hlike
  obtain ⟨u, hu⟩ := (like_user b .offlinePayReconciliation).mp hlike
  cases hu

/-- a user of a cycle has a ledger, or is a candidate without one -/
theorem user_of_cycle (hw : Legible opts limit w) (h : u ∈ usersOf opts limit collation w) :
    IsLedgerUser w.db u ∨ u ∈ withoutLedger opts limit w := by
  rw [usersOf_eq] at h
  rcases List.mem_append.mp h with hboot | hpage
  · exact Or.inr (bootstrap_candidate hboot)
  · exact Or.inl ((mem_ledgerUserIds hw.users).mp (collation.mem_of_mem_page hpage))

theorem candidates_congr (h : w'.wallets = w.wallets) : candidates opts limit w' = candidates opts limit w := by
  rw [candidates, candidates, h]

theorem Cycles.legible (h : Cycles opts limit collation w t w') (hw : Legible opts limit w) :
    Legible opts limit w' := by
  refine ⟨fun code hcode hlisted => ?_, ?_⟩
  · rcases h.advances.opened code hcode with hold | rfl | ⟨u, hu, rfl, -⟩
    · exact hw.users code hold hlisted
    · rw [isListed_reconciliation] at hlisted
      cases hlisted
    · refine ⟨u, _, rfl, ?_⟩
      rcases user_of_cycle hw hu with hledger | hcandidate
      · exact ledgerUser_readable hw.users hledger
      · obtain ⟨hne, hcolon, -⟩ := hw.candidates u (mem_withoutLedger.mp hcandidate).1
        exact ⟨hne, hcolon⟩
  · rw [candidates_congr h.advances.wallets]
    exact hw.candidates

/-- a candidate without a ledger was one before, and what an adjustment would do is the same -/
theorem Cycles.stays (h : Cycles opts limit collation w t w') (hw : Legible opts limit w)
    (hu : u ∈ candidates opts limit w) (hfoot : hasOfflinePayLedgerFootprintIn w'.db u = false) :
    hasOfflinePayLedgerFootprintIn w.db u = false ∧ adjustable opts w' u = adjustable opts w u := by
  constructor
  · by_contra hbefore
    rw [Bool.not_eq_false] at hbefore
    rw [footprint_mono h.advances.kept hbefore] at hfoot
    cases hfoot
  · rcases h.advances.owed u with hsame | hcode
    · exact adjustable_congr h.advances.wallets hsame
    · rw [ledgerUser_footprint ⟨_, hcode⟩ (hw.candidates u hu).2.2] at hfoot
      cases hfoot

theorem stuck_length : (stuck opts limit w).length = (candidates opts limit w).countP fun u =>
    !hasOfflinePayLedgerFootprintIn w.db u && !adjustable opts w u := by
  rw [stuck, withoutLedger, List.filter_filter, List.countP_eq_length_filter]
  exact congrArg List.length (List.filter_congr fun u _ => Bool.and_comm _ _)

theorem waiting_countP (p : String → Bool) : (waiting opts limit w).countP p =
    (candidates opts limit w).countP fun u => !hasOfflinePayLedgerFootprintIn w.db u && (adjustable opts w u && p u) := by
  rw [waiting, withoutLedger, List.countP_filter, List.countP_filter]
  congr 1
  funext u
  rw [Bool.and_comm, Bool.and_comm (p u)]

/-- the room of a user is kept: a candidate that gets a ledger is counted with the users instead -/
theorem Cycles.hasRoom (h : Cycles opts limit collation w t w') (hw : Legible opts limit w)
    (hroom : HasRoom opts limit collation w u) : HasRoom opts limit collation w' u := by
  have hw' := h.legible hw
  have hcandidates := @candidates_congr opts limit _ _ h.advances.wallets
  have hstuck : (stuck opts limit w').length ≤ (stuck opts limit w).length := by
    rw [stuck_length, stuck_length, hcandidates]
    refine List.countP_mono_left fun v hv hstuck => ?_
    rw [Bool.and_eq_true, Bool.not_eq_true', Bool.not_eq_true'] at hstuck ⊢
    obtain ⟨hfoot, hadjustable⟩ := h.stays hw hv hstuck.1
    exact ⟨hfoot, hadjustable ▸ hstuck.2⟩
  -- the candidates that have a footprint now
  let gone := (waiting opts limit w).filter fun v => hasOfflinePayLedgerFootprintIn w'.db v && collation.le v u
  have hwaiting : (waiting opts limit w').countP (collation.le · u) + gone.length ≤
      (waiting opts limit w).countP (collation.le · u) := by
    rw [List.countP_eq_countP_filter_add (waiting opts limit w) _ fun v => hasOfflinePayLedgerFootprintIn w'.db v,
      List.countP_eq_length_filter (p := _) (l := (waiting opts limit w).filter _), List.filter_filter]
    have hrest : (waiting opts limit w').countP (collation.le · u) ≤ ((waiting opts limit w).filter fun v =>
        !hasOfflinePayLedgerFootprintIn w'.db v).countP (collation.le · u) := by
      rw [List.countP_filter, waiting_countP, waiting_countP, hcandidates]
      refine List.countP_mono_left fun v hv hmem => ?_
      simp only [Bool.and_eq_true, Bool.not_eq_true'] at hmem ⊢
      obtain ⟨hfoot, hadjustable⟩ := h.stays hw hv hmem.1
      exact ⟨hfoot, hadjustable ▸ hmem.2.1, hmem.2.2, hmem.1⟩
    have hgone : gone = (waiting opts limit w).filter fun v =>
        collation.le v u && hasOfflinePayLedgerFootprintIn w'.db v :=
      List.filter_congr fun v _ => Bool.and_comm _ _
    rw [hgone]
    omega
  have hledger : (ledgerUserIds w'.db).countP (collation.le · u) ≤
      (ledgerUserIds w.db).countP (collation.le · u) + gone.length := by
    rw [List.countP_eq_length_filter, List.countP_eq_length_filter, ← List.length_append]
    refine ((List.nodup_dedup _).filter _).subperm ?_ |>.length_le
    intro v hv
    obtain ⟨hv, hle⟩ := List.mem_filter.mp hv
    have hv' := (mem_ledgerUserIds hw'.users).mp hv
    rw [List.mem_append]
    rcases h.advances.ledgerUser hv' with hold | ⟨hmem, hadjustable⟩
    · exact Or.inl (List.mem_filter.mpr ⟨(mem_ledgerUserIds hw.users).mpr hold, hle⟩)
    · rcases user_of_cycle hw hmem with hold | hcandidate
      · exact Or.inl (List.mem_filter.mpr ⟨(mem_ledgerUserIds hw.users).mpr hold, hle⟩)
      · right
        have hplain := (hw.candidates v (mem_withoutLedger.mp hcandidate).1).2.2
        refine List.mem_filter.mpr ⟨List.mem_filter.mpr ⟨hcandidate, hadjustable⟩, ?_⟩
        rw [ledgerUser_footprint hv' hplain, hle]
        rfl
  unfold HasRoom at hroom ⊢
  omega

/-- a cycle comes to a user with room, or to a candidate that has a footprint then -/
theorem Cycles.reaches (h : Cycles opts limit collation w t w') (hw : Legible opts limit w)
    (hu : IsLedgerUser w.db u) (hroom : HasRoom opts limit collation w u) :
    Examined t u ∨ (withoutLedger opts limit w').length <
      (withoutLedger opts limit w).length := by
  by_cases hfew : (ledgerUserIds w.db).countP (collation.le · u) ≤ limit - (bootstrapOf opts limit w).length
  · left
    rw [h.examined, usersOf_eq]
    exact List.mem_append_right _ (collation.mem_page_of_countP ((mem_ledgerUserIds hw.users).mpr hu) hfew)
  · right
    have hmore : (stuck opts limit w).length < (bootstrapOf opts limit w).length := by
      have hlength := @bootstrapOf_length opts limit w
      unfold HasRoom at hroom
      omega
    -- one of the candidates put first is adjusted
    obtain ⟨v, hv, hadjustable⟩ : ∃ v ∈ bootstrapOf opts limit w, adjustable opts w v = true := by
      by_contra hnone
      have hall : (bootstrapOf opts limit w).filter (!adjustable opts w ·) = bootstrapOf opts limit w := by
        refine List.filter_eq_self.mpr fun v hv => ?_
        rw [Bool.not_eq_true', ← Bool.not_eq_true]
        exact fun ha => hnone ⟨v, hv, ha⟩
      have hsub : ((bootstrapOf opts limit w).filter (!adjustable opts w ·)).Sublist (stuck opts limit w) :=
        (List.take_sublist _ _).filter _
      rw [hall] at hsub
      exact absurd hsub.length_le (not_le.mpr hmore)
    have hfoot := h.opens v hv hadjustable
    have hcandidate := mem_withoutLedger.mp (bootstrap_candidate hv)
    have hsub : (withoutLedger opts limit w').Sublist
        (withoutLedger opts limit w) := by
      unfold withoutLedger
      rw [candidates_congr h.advances.wallets]
      refine List.monotone_filter_right _ fun v hv => ?_
      rw [Bool.not_eq_true'] at hv ⊢
      by_contra hbefore
      rw [Bool.not_eq_false] at hbefore
      rw [footprint_mono h.advances.kept hbefore] at hv
      cases hv
    refine lt_of_le_of_ne hsub.length_le fun hsame => ?_
    have hmem : v ∈ withoutLedger opts limit w' := by
      rw [hsub.eq_of_length hsame]
      exact mem_withoutLedger.mpr hcandidate
    rw [(mem_withoutLedger.mp hmem).2] at hfoot
    cases hfoot

/-! ## many cycles -/

/-- cycles one after the other, with all calls succeeding and nothing else happening -/
abbrev CycleRuns (pg : PgServer) (collation : Collation String) (opts : Options) (message : LedgerError → String)
    (limit n : Nat) (w : World) (runs : List (Finished Effect LedgerError Counters)) (w' : World) : Prop :=
  Session (Succeeds pg collation) (List.replicate n (runCycle opts message limit)) w runs w'

theorem cycles_only {n : Nat} {runs : List (Finished Effect LedgerError Counters)} (hlimit : 1 ≤ limit)
    (hw : Legible opts limit w) (h : CycleRuns pg collation opts message limit n w runs w') :
    Legible opts limit w' ∧ w'.wallets = w.wallets ∧
    (∀ u, IsLedgerUser w'.db u → IsLedgerUser w.db u ∨ u ∈ candidates opts limit w) ∧
    ∀ u, Examined (callsOf runs) u → IsLedgerUser w.db u ∨ u ∈ candidates opts limit w := by
  induction n generalizing w runs with
  | zero =>
    cases h
    exact ⟨hw, rfl, fun u hu => Or.inl hu, fun u hu => absurd hu (by rintro ⟨a, ha, -⟩; cases ha)⟩
  | succ n ih =>
    cases h with
    | cons first rest =>
      have hcycle := cycle_runs hlimit hw first
      have hmember : ∀ v, v ∈ usersOf opts limit collation w → IsLedgerUser w.db v ∨ v ∈ candidates opts limit w :=
        fun v hv => (user_of_cycle hw hv).imp_right fun hc => (mem_withoutLedger.mp hc).1
      obtain ⟨hlegible, hwallets, husers, hexamined⟩ := ih (hcycle.legible hw) rest
      rw [candidates_congr hcycle.advances.wallets] at husers hexamined
      rename_i w₁ f fs
      have hback : ∀ {v}, IsLedgerUser w₁.db v ∨ v ∈ candidates opts limit w →
          IsLedgerUser w.db v ∨ v ∈ candidates opts limit w := by
        rintro v (hv | hv)
        · rcases hcycle.advances.ledgerUser hv with hold | ⟨hmem, -⟩
          · exact Or.inl hold
          · exact hmember v hmem
        · exact Or.inr hv
      refine ⟨hlegible, hwallets.trans hcycle.advances.wallets, fun v hv => hback (husers v hv), fun v hv => ?_⟩
      obtain ⟨a, ha, hav⟩ := hv
      rcases List.mem_append.mp ha with ha | ha
      · exact hmember v ((hcycle.examined v).mp ⟨a, ha, hav⟩)
      · exact hback (hexamined v ⟨a, ha, hav⟩)

/-- more cycles than there are candidates without a ledger come to every user with room -/
theorem cycles_reach {n : Nat} {runs : List (Finished Effect LedgerError Counters)} (hlimit : 1 ≤ limit)
    (hw : Legible opts limit w) (hu : IsLedgerUser w.db u) (hroom : HasRoom opts limit collation w u)
    (hmany : (withoutLedger opts limit w).length < n)
    (h : CycleRuns pg collation opts message limit n w runs w') : Examined (callsOf runs) u := by
  induction n generalizing w runs with
  | zero => exact absurd hmany (Nat.not_lt_zero _)
  | succ n ih =>
    cases h with
    | cons first rest =>
      have hcycle := cycle_runs hlimit hw first
      rcases hcycle.reaches hw hu hroom with hexamined | hfewer
      · exact hexamined.append_left
      · exact (ih (hcycle.legible hw) (hcycle.advances.ledgerUser_kept hu) (hcycle.hasRoom hw hroom)
          (by omega) rest).append_right

end

/-- **Coverage.**  Where the ids are read as they are: cycles examine users with ledger accounts and candidates
only, and in every state reached there is a number of cycles that come to every user with room before it: no
more candidates that stay candidates, and users and coming users sorted up to it, than the limit. -/
theorem reaches_every_user (pg : PgServer) (collation : Collation String) (opts : Options)
    (message : LedgerError → String) (limit : Nat) (hlimit : 1 ≤ limit) (w : World) (hw : Legible opts limit w)
    (n : Nat) (runs : List (Finished Effect LedgerError Counters)) (w' : World)
    (h : CycleRuns pg collation opts message limit n w runs w') :
    (∀ u, Examined (callsOf runs) u → IsLedgerUser w.db u ∨ u ∈ candidates opts limit w) ∧
    ∃ m, ∀ u, IsLedgerUser w'.db u → HasRoom opts limit collation w' u →
      ∀ runs' w'', CycleRuns pg collation opts message limit m w' runs' w'' → Examined (callsOf runs') u := by
  obtain ⟨hlegible, -, -, hexamined⟩ := cycles_only hlimit hw h
  refine ⟨hexamined, (withoutLedger opts limit w').length + 1, fun u hu hroom runs' w'' h' => ?_⟩
  exact cycles_reach hlimit hlegible hu hroom (Nat.lt_succ_self _) h'

/-! ## a user who is never reached -/

/-- the rows of a ledger that owes 5 to each of these -/
def owing (users : List String) : Db :=
  { Db.empty with
    ledgerAccounts := users.map fun u =>
      ⟨(LedgerAccount.user u .available).code, .liability, "KORI", "2026-01-01T00:00:00.000Z"⟩
    ledgerPostings := users.map fun u =>
      ⟨"posting-" ++ u, "journal-" ++ u, (LedgerAccount.user u .available).code, .credit, ⟨5000000, by decide⟩,
        "2026-01-01T00:00:00.000Z"⟩ }

/-- alice and bob are owed 5 each; the wallet of alice holds 5, and the wallet of bob holds 4 -/
def crowdedWorld : World where
  db := owing ["alice", "bob"]
  wallets := ⟨fun userId currencyCode => ⟨userId, currencyCode, if userId = "bob" then "4.000000" else "5.000000",
    "0.000000", 1, "FOX_CLIENT_VISIBLE_TOTAL_KORI"⟩, fun _ _ => []⟩
  adjustments := []

theorem crowdedWorld_codes : crowdedWorld.db.codes = ["user:alice:available", "user:bob:available"] := by decide

theorem crowdedWorld_legible : Legible exampleOptions 1 crowdedWorld := by
  refine ⟨fun code hcode _ => ?_, nofun⟩
  rw [crowdedWorld_codes, List.mem_cons, List.mem_singleton] at hcode
  rcases hcode with rfl | rfl
  · exact ⟨"alice", .available, by decide⟩
  · exact ⟨"bob", .available, by decide⟩

theorem crowdedWorld_within : Within exampleOptions crowdedWorld "alice" := ⟨5000000, by decide, by decide⟩

theorem crowdedWorld_users : usersOf exampleOptions 1 exampleCollation crowdedWorld = ["alice"] := by
  have hids : ledgerUserIds crowdedWorld.db = ["alice", "bob"] := by decide
  have hle : exampleCollation.le "alice" "bob" = true := by decide
  rw [usersOf_eq, Collation.page, hids]
  simp [List.mergeSort, hle, bootstrapOf, withoutLedger, candidates, crowdedWorld]

/-- cycles with room for both users -/
theorem reaches_every_user_example : ∃ m, ∀ runs w',
    CycleRuns .numbered exampleCollation exampleOptions (fun _ => "refused") 2 m crowdedWorld runs w' →
    Examined (callsOf runs) "bob" := by
  obtain ⟨-, m, hm⟩ := reaches_every_user .numbered exampleCollation exampleOptions (fun _ => "refused") 2
    (by decide) crowdedWorld ⟨crowdedWorld_legible.users, nofun⟩ 0 [] crowdedWorld (.nil _)
  exact ⟨m, fun runs w' => hm "bob" ⟨.available, by decide⟩ (by unfold HasRoom; decide) runs w'⟩

/-- **A user who is never reached.**  Bob is owed one more than his wallet holds, which an adjustment may close;
but however many cycles of one user run, all of them examine alice, and nothing changes. -/
theorem starved_user : IsLedgerUser crowdedWorld.db "bob" ∧ adjustable exampleOptions crowdedWorld "bob" = true ∧
    ∀ n runs w', CycleRuns .numbered exampleCollation exampleOptions (fun _ => "refused") 1 n crowdedWorld runs w' →
      w' = crowdedWorld ∧ ¬ Examined (callsOf runs) "bob" := by
  refine ⟨⟨.available, by decide⟩, by decide, fun n => ?_⟩
  induction n with
  | zero =>
    rintro runs w' ⟨⟩
    exact ⟨rfl, by rintro ⟨a, ha, -⟩; cases ha⟩
  | succ n ih =>
    rintro runs w' ⟨⟩
    rename_i w₁ f fs first rest
    have hcycle := cycle_runs (by decide) crowdedWorld_legible first
    obtain rfl : w₁ = crowdedWorld := hcycle.quiet fun u hu => by
      rw [crowdedWorld_users] at hu
      exact List.mem_singleton.mp hu ▸ crowdedWorld_within
    obtain ⟨hsame, hnot⟩ := ih fs w' rest
    refine ⟨hsame, ?_⟩
    rintro ⟨a, ha, hbob⟩
    rcases List.mem_append.mp ha with ha | ha
    · have hmem := (hcycle.examined "bob").mp ⟨a, ha, hbob⟩
      rw [crowdedWorld_users] at hmem
      exact absurd hmem (by decide)
    · exact hnot ⟨a, ha, hbob⟩

end OfflinePayLedgerReconciliationService
