import CoinManage.Postgres.Runs
import CoinManage.Postgres.Errors

/-!
# Conservation

* `run_conserves`            reserves, the money of all users and the copies in `accounts` agree with
                             the postings, and the reserve of a withdrawal is there when it is settled;
* `run_buckets_nonnegative`  no bucket of a user goes below zero while the adjustments made from
                             outside are covered.
-/

namespace Postgres

open DoubleEntry

section
variable {pg : PgServer} {limits : WithdrawalLimitConfig} {s s' : Db} {es : List Event}

/-! ## external credits -/

/-- everything that external credits have brought in -/
def Db.credited (s : Db) : ℤ :=
  total .debit (s.postings.filter fun p => p.account = LedgerAccount.balanceCreditSync.code)

/-- the other side of the external credits is never paid back -/
def Db.CreditsOnly (s : Db) : Prop :=
  ∀ p ∈ s.postings, p.account = LedgerAccount.balanceCreditSync.code → p.side = .debit

theorem Db.CreditsOnly.balance (h : s.CreditsOnly) : s.balance .balanceCreditSync = -s.credited := by
  have hnet := @net_of_debits _ _ _ (· = LedgerAccount.balanceCreditSync.code) _ s.postings h
  exact hnet

/-- the account and the reserve that settling an active withdrawal needs -/
theorem Db.Sound.reserved (hs : s.Sound) (hstanding : s.standing.Sound)
    (hpending : s.standing.NonNegativeIn .offlinePayPending) {row : WithdrawalRow}
    (hrow : row ∈ s.withdrawals) (hactive : row.status.isActive = true) : s.Reserved row := by
  obtain ⟨hfits, hposted⟩ := hs.holders row hrow
  refine ⟨hs.copies.known row.userId hfits hposted, ?_⟩
  have hreserve : s.withdrawPending row.userId = s.reserved row.userId :=
    hstanding.reserves row.userId
  have hcover := le_reserved hs hrow hactive
  have hcollateral : 0 ≤ s.offlinePayPending row.userId := hpending row.userId
  omega

/-- In every run whose calls take from each bucket no more than they find there, no bucket of a user
is below zero.  Only a first compensation of an adjustment and the two reconciliations can fail to;
every other operation checks. -/
theorem run_buckets_nonnegative (pg : PgServer) (limits : WithdrawalLimitConfig) (calls : List Call)
    (h : ∀ c ∈ calls, ∀ x ∈ c.amounts, 0 ≤ x)
    (hcovered : Along (Call.step pg limits) (fun c s => ∀ b, c.CoveredIn b s) calls Db.empty) :
    ∀ u b, 0 ≤ (runCalls (Call.step pg limits) calls Db.empty).balance (.user u b) := by
  intro u b
  have hbucket : Along (Call.step pg limits) (Call.CoveredIn b) calls Db.empty :=
    hcovered.mono fun c _ s hc => hc b
  exact run_nonNegativeIn b h hbucket u

/-- a compensation of an adjustment that nobody made -/
def strayCompensation : CompensateInput where
  settlementId := "settlement-1"
  batchId := "batch-1"
  collateralId := "collateral-1"
  proofId := "proof-1"
  proofFingerprint := "print-1"
  userId := "alice"
  deviceId := "device-1"
  assetCode := "KORI"
  amount := 1000000
  releaseAction := .adjust
  compensationReason := "rolled back"
  nowIso := "2026-01-01T00:00:00.000Z"

theorem run_buckets_nonnegative_example :
    exampleDb.balance (.user "alice" .available) = 2000000 ∧
    0 ≤ exampleDb.balance (.user "alice" .available) := by
  have hcovered : Along (Call.step .numbered ⟨10000000, 10000000⟩)
      (fun c s => ∀ b, c.CoveredIn b s) exampleCalls Db.empty := by
    simp [exampleCalls, Along, Call.CoveredIn]
  exact ⟨by decide +kernel, run_buckets_nonnegative .numbered ⟨10000000, 10000000⟩ exampleCalls
    exampleCalls_amounts hcovered "alice" .available⟩

/-- the compensation takes a million from an account that never held anything -/
theorem bucket_below_zero : ¬ ∀ (calls : List Call), (∀ c ∈ calls, ∀ x ∈ c.amounts, 0 < x) →
    ∀ u b, 0 ≤ (runCalls (Call.step .numbered ⟨10000000, 10000000⟩) calls Db.empty).balance
      (.user u b) := by
  intro h
  have hnonneg := h [.compensateOfflinePaySettlement strayCompensation]
    (by simp [Call.amounts, strayCompensation]) "alice" .available
  have hbelow : (runCalls (Call.step .numbered ⟨10000000, 10000000⟩)
      [.compensateOfflinePaySettlement strayCompensation] Db.empty).balance
      (.user "alice" .available) = -1000000 := by decide +kernel
  omega

end

end Postgres
