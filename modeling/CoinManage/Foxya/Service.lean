import CoinManage.Lib.Rely
import CoinManage.Foxya.Sources
import CoinManage.Postgres.References

/-!
# The ledger syncs of foxya's credits

Two services copy what foxya has credited into the ledger, balance credits by source and token deposits.
A cycle reads the cursor of its source, asks for the next page, applies the candidates in order, stops at the
first one that fails, and saves the place of the last one that did not.

* `Effect`, `carryOut`      the calls of a cycle, and what they do to the stores;
* `Handles`                 what may come of a call: it is carried out, it fails, or its answer is lost;
* `syncAll`, `applyPage`    the loop both services share, and what comes after it;
* `position_of_saved`       a saved cursor never lies beyond the place it was saved for.
-/

namespace Foxya
open Program

/-! ## cursors -/

/-- a row of `foxya_balance_credit_ledger_sync_cursors` -/
structure FoxyaBalanceCreditLedgerSyncCursor where
  cursorKey : String
  sourceName : String
  currencyCode : String
  lastOccurredAt : String
  lastFoxyaId : FoxyaId
  updatedAt : String
  deriving DecidableEq

/-- a row of `foxya_token_deposit_ledger_sync_cursors` -/
structure FoxyaTokenDepositLedgerSyncCursor where
  cursorKey : String
  lastConfirmedAt : String
  lastFoxyaId : FoxyaId
  updatedAt : String
  deriving DecidableEq

def FoxyaBalanceCreditLedgerSyncCursor.place (cursor : FoxyaBalanceCreditLedgerSyncCursor) : SyncCursor :=
  ⟨cursor.lastOccurredAt, cursor.lastFoxyaId⟩

def FoxyaTokenDepositLedgerSyncCursor.place (cursor : FoxyaTokenDepositLedgerSyncCursor) : SyncCursor :=
  ⟨cursor.lastConfirmedAt, cursor.lastFoxyaId⟩

/-- `insert … on conflict (key) do update` -/
def upsert {ρ : Type} (keyOf : ρ → String) (row : ρ) (rows : List ρ) : List ρ :=
  if rows.any fun other => keyOf other = keyOf row then
    rows.map fun other => if keyOf other = keyOf row then row else other
  else rows ++ [row]

section
variable (pg : PgServer)

/-- the time goes through a `TIMESTAMPTZ` -/
def creditCursorRow (cursor : FoxyaBalanceCreditLedgerSyncCursor) :
    Except LedgerError FoxyaBalanceCreditLedgerSyncCursor := do
  let cursorKey ← Postgres.varchar 128 cursor.cursorKey
  let sourceName ← Postgres.varchar 64 cursor.sourceName
  let currencyCode ← Postgres.varchar 16 cursor.currencyCode
  let lastOccurredAt ← Postgres.timestamp pg cursor.lastOccurredAt
  let updatedAt ← Postgres.timestamp pg cursor.updatedAt
  return {
    cursorKey := cursorKey
    sourceName := sourceName
    currencyCode := currencyCode
    lastOccurredAt := lastOccurredAt
    lastFoxyaId := cursor.lastFoxyaId
    updatedAt := updatedAt }

/-- the time stays the text it is -/
def depositCursorRow (cursor : FoxyaTokenDepositLedgerSyncCursor) :
    Except LedgerError FoxyaTokenDepositLedgerSyncCursor := do
  let cursorKey ← Postgres.varchar 96 cursor.cursorKey
  let lastConfirmedAt ← Postgres.varchar 32 cursor.lastConfirmedAt
  let updatedAt ← Postgres.timestamp pg cursor.updatedAt
  return {
    cursorKey := cursorKey
    lastConfirmedAt := lastConfirmedAt
    lastFoxyaId := cursor.lastFoxyaId
    updatedAt := updatedAt }

end

/-! ## the world of the services -/

structure World where
  foxya : FoxyaDb
  ledger : Postgres.Db
  creditCursors : List FoxyaBalanceCreditLedgerSyncCursor
  depositCursors : List FoxyaTokenDepositLedgerSyncCursor

/-- where the next page of a source starts -/
def World.creditStart (f : FoxyaServer) (cursorKey : String) (w : World) : Except LedgerError (Option Position) :=
  startOf f ((w.creditCursors.find? (·.cursorKey = cursorKey)).map (·.place))

def World.depositStart (f : FoxyaServer) (cursorKey : String) (w : World) : Except LedgerError (Option Position) :=
  startOf f ((w.depositCursors.find? (·.cursorKey = cursorKey)).map (·.place))

inductive Effect : Type → Type
  | getCreditCursor (cursorKey : String) : Effect (Option FoxyaBalanceCreditLedgerSyncCursor)
  | listCompletedCredits (sourceName : FoxyaBalanceCreditSourceName) (currencyCode : String)
      (cursor : Option SyncCursor) (limit : Nat) : Effect (List FoxyaBalanceCreditLedgerSyncCandidate)
  | applyExternalCredit (input : ExternalCreditInput) : Effect ExternalCreditApplyResult
  | saveCreditCursor (cursor : FoxyaBalanceCreditLedgerSyncCursor) : Effect Unit
  | getDepositCursor (cursorKey : String) : Effect (Option FoxyaTokenDepositLedgerSyncCursor)
  | listCompletedTokenDeposits (currencyCode : String) (cursor : Option SyncCursor) (limit : Nat) :
      Effect (List FoxyaTokenDepositLedgerSyncCandidate)
  | applyDeposit (input : DepositInput) : Effect DepositApplyResult
  | completeDeposit (depositId : String) : Effect Deposit
  | saveDepositCursor (cursor : FoxyaTokenDepositLedgerSyncCursor) : Effect Unit
  /-- `new Date().toISOString()` -/
  | now : Effect String

abbrev Async (α : Type) := Program Effect LedgerError α

def onLedger {α : Type} (op : Postgres.Op α) : Method World LedgerError α := fun w =>
  ((op w.ledger).1, { w with ledger := (op w.ledger).2 })

section
variable (pg : PgServer) (f : FoxyaServer)

def carryOut {β : Type} : Effect β → Method World LedgerError β
  | .getCreditCursor cursorKey => fun w => (.ok (w.creditCursors.find? (·.cursorKey = cursorKey)), w)
  | .listCompletedCredits sourceName currencyCode cursor limit => fun w =>
    (Foxya.listCompletedCredits f w.foxya sourceName currencyCode cursor limit, w)
  | .applyExternalCredit input => onLedger (Postgres.applyExternalCredit pg input)
  | .saveCreditCursor cursor => fun w =>
    match creditCursorRow pg cursor with
    | .ok row => (.ok (), { w with creditCursors := upsert (·.cursorKey) row w.creditCursors })
    | .error e => (.error e, w)
  | .getDepositCursor cursorKey => fun w => (.ok (w.depositCursors.find? (·.cursorKey = cursorKey)), w)
  | .listCompletedTokenDeposits currencyCode cursor limit => fun w =>
    (Foxya.listCompletedTokenDeposits f w.foxya currencyCode cursor limit, w)
  | .applyDeposit input => onLedger (Postgres.applyDeposit pg input)
  | .completeDeposit depositId => onLedger (Postgres.completeDeposit pg depositId)
  | .saveDepositCursor cursor => fun w =>
    match depositCursorRow pg cursor with
    | .ok row => (.ok (), { w with depositCursors := upsert (·.cursorKey) row w.depositCursors })
    | .error e => (.error e, w)
  | .now => fun w => (.ok "2026-03-01T00:00:00.000Z", w)

/-- What may come of a call.  An execution that is stopped for good after a call is one whose calls all fail
from there on, as far as the stores can tell. -/
inductive Handles : ∀ ⦃β : Type⦄, Effect β → World → Except LedgerError β → World → Prop
  | done {β : Type} (call : Effect β) (w : World) : Handles call w (carryOut pg f call w).1 (carryOut pg f call w).2
  | refused {β : Type} (call : Effect β) (e : LedgerError) (w : World) : Handles call w (.error e) w
  | lost {β : Type} (call : Effect β) (e : LedgerError) (w : World) :
      Handles call w (.error e) (carryOut pg f call w).2
  | clock (now : String) (w : World) : Handles .now w (.ok now) w

end

/-! ## one cycle -/

inductive Verdict where
  | skippedUnsupported
  | duplicated
  | synced
  deriving DecidableEq

/-- the counters of a cycle, and the place of the last candidate that did not fail -/
structure Tally where
  checkedCount : Nat := 0
  syncedCount : Nat := 0
  duplicatedCount : Nat := 0
  skippedUnsupportedCount : Nat := 0
  failedCount : Nat := 0
  lastProcessed : Option SyncCursor := none
  deriving DecidableEq

def Tally.count (t : Tally) (place : SyncCursor) : Verdict → Tally
  | .skippedUnsupported =>
    { t with skippedUnsupportedCount := t.skippedUnsupportedCount + 1, lastProcessed := some place }
  | .duplicated => { t with duplicatedCount := t.duplicatedCount + 1, lastProcessed := some place }
  | .synced => { t with syncedCount := t.syncedCount + 1, lastProcessed := some place }

structure SyncResult where
  tally : Tally
  cursorAdvanced : Bool
  deriving DecidableEq

/-- the loop over the candidates, with the body of its `try` and the place of a candidate -/
def syncAll {γ : Type} (one : γ → Async Verdict) (placeOf : γ → SyncCursor) : List γ → Tally → Async Tally
  | [], t => pure t
  | c :: cs, t => do
    let t := { t with checkedCount := t.checkedCount + 1 }
    match ← (one c).attempt with
    | .ok verdict => syncAll one placeOf cs (t.count (placeOf c) verdict)
    | .error _ => pure { t with failedCount := t.failedCount + 1 }

/-- the page is worked through, and the place of the last candidate that did not fail is saved -/
def applyPage {γ : Type} (one : γ → Async Verdict) (placeOf : γ → SyncCursor) (save : SyncCursor → String → Effect Unit)
    (candidates : List γ) : Async SyncResult := do
  let tally ← syncAll one placeOf candidates {}
  match tally.lastProcessed with
  | none => return ⟨tally, false⟩
  | some last => do
    let now ← perform .now
    perform (save last now)
    return ⟨tally, true⟩

def FoxyaBalanceCreditLedgerSyncCandidate.place (c : FoxyaBalanceCreditLedgerSyncCandidate) : SyncCursor :=
  ⟨c.occurredAt, c.foxyaId⟩

def FoxyaTokenDepositLedgerSyncCandidate.place (c : FoxyaTokenDepositLedgerSyncCandidate) : SyncCursor :=
  ⟨c.confirmedAt, c.foxyaId⟩

section
variable (pg : PgServer)

def creditInput (c : FoxyaBalanceCreditLedgerSyncCandidate) (currencyCode : String) (amount : ℤ) :
    ExternalCreditInput where
  userId := c.userId
  amount := amount
  currencyCode := currencyCode
  journalType := c.journalType
  referenceType := c.referenceType
  referenceId := c.referenceId
  description := some c.description
  nowIso := c.occurredAt

/-- the `try` of a balance credit -/
def syncCredit (currencyCode : String) (c : FoxyaBalanceCreditLedgerSyncCandidate) : Async Verdict :=
  if Postgres.normalizeCode pg c.currencyCode ≠ currencyCode then pure .skippedUnsupported
  else match parseStoredKoriAmount c.amount with
    | .error e => throw e
    | .ok amount => do
      let applied ← perform (.applyExternalCredit (creditInput c currencyCode amount))
      return if applied.duplicated then .duplicated else .synced

structure FoxyaBalanceCreditLedgerSyncOptions where
  currencyCode : String
  cursorKeyPrefix : Option String

def FoxyaBalanceCreditLedgerSyncOptions.cursorKey (options : FoxyaBalanceCreditLedgerSyncOptions)
    (sourceName : FoxyaBalanceCreditSourceName) (currencyCode : String) : String :=
  orElse options.cursorKeyPrefix "foxya_balance_credit" ++ ":" ++ sourceName.text ++ ":" ++ currencyCode

def creditCursorAt (cursorKey : String) (sourceName : FoxyaBalanceCreditSourceName) (currencyCode : String)
    (last : SyncCursor) (now : String) : FoxyaBalanceCreditLedgerSyncCursor where
  cursorKey := cursorKey
  sourceName := sourceName.text
  currencyCode := currencyCode
  lastOccurredAt := last.lastAt
  lastFoxyaId := last.lastFoxyaId
  updatedAt := now

/-- `FoxyaBalanceCreditLedgerSyncService.runCycle` -/
def runCreditCycle (options : FoxyaBalanceCreditLedgerSyncOptions) (sourceName : FoxyaBalanceCreditSourceName)
    (limit : Nat) : Async SyncResult :=
  let currencyCode := Postgres.normalizeCode pg options.currencyCode
  if currencyCode ≠ "KORI" then
    throw (.plain ("unsupported foxya balance credit ledger sync currency: " ++ currencyCode))
  else do
    let cursorKey := options.cursorKey sourceName currencyCode
    let cursor ← perform (.getCreditCursor cursorKey)
    let candidates ← perform (.listCompletedCredits sourceName currencyCode
      (cursor.map FoxyaBalanceCreditLedgerSyncCursor.place) limit)
    applyPage (syncCredit pg currencyCode) FoxyaBalanceCreditLedgerSyncCandidate.place
      (fun last now => .saveCreditCursor (creditCursorAt cursorKey sourceName currencyCode last now)) candidates

def depositInput (c : FoxyaTokenDepositLedgerSyncCandidate) (amount : ℤ) (now : String) : DepositInput where
  userId := c.userId
  amount := amount
  txHash := c.txHash
  toAddress := c.toAddress
  walletAddress := c.toAddress
  blockNumber := orElse c.blockNumber 0
  nowIso := now

/-- the `try` of a token deposit -/
def syncDeposit (currencyCode : String) (c : FoxyaTokenDepositLedgerSyncCandidate) : Async Verdict :=
  if Postgres.normalizeCode pg c.currencyCode ≠ currencyCode then pure .skippedUnsupported
  else match parseStoredKoriAmount c.amount with
    | .error e => throw e
    | .ok amount => do
      let now ← perform .now
      let applied ← perform (.applyDeposit (depositInput c amount now))
      if applied.deposit.status ≠ .completed then
        let _ ← perform (.completeDeposit applied.deposit.depositId)
      return if applied.duplicated then .duplicated else .synced

structure FoxyaTokenDepositLedgerSyncOptions where
  currencyCode : String
  cursorKey : Option String

def FoxyaTokenDepositLedgerSyncOptions.cursorKeyFor (options : FoxyaTokenDepositLedgerSyncOptions)
    (currencyCode : String) : String := orElse options.cursorKey ("foxya_token_deposits" ++ ":" ++ currencyCode)

def depositCursorAt (cursorKey : String) (last : SyncCursor) (now : String) : FoxyaTokenDepositLedgerSyncCursor where
  cursorKey := cursorKey
  lastConfirmedAt := last.lastAt
  lastFoxyaId := last.lastFoxyaId
  updatedAt := now

/-- `FoxyaTokenDepositLedgerSyncService.runCycle` -/
def runDepositCycle (options : FoxyaTokenDepositLedgerSyncOptions) (limit : Nat) : Async SyncResult :=
  let currencyCode := Postgres.normalizeCode pg options.currencyCode
  if currencyCode ≠ "KORI" then
    throw (.plain ("unsupported foxya token deposit ledger sync currency: " ++ currencyCode))
  else do
    let cursorKey := options.cursorKeyFor currencyCode
    let cursor ← perform (.getDepositCursor cursorKey)
    let candidates ← perform (.listCompletedTokenDeposits currencyCode
      (cursor.map FoxyaTokenDepositLedgerSyncCursor.place) limit)
    applyPage (syncDeposit pg currencyCode) FoxyaTokenDepositLedgerSyncCandidate.place
      (fun last now => .saveDepositCursor (depositCursorAt cursorKey last now)) candidates

end

/-! ## saved places -/

/-- what the two databases make of a time: foxya's prints and reads it exactly, a `TIMESTAMPTZ` comes back as a
`Date`, in whole milliseconds of the same clock -/
structure OneClock (pg : PgServer) (f : FoxyaServer) : Prop where
  timestamp_toChar : ∀ t, f.timestamp (f.toChar t) = some t
  reread : ∀ t s, pg.timestamptz (f.toChar t) = some s → f.timestamp s = some (t / 1000 * 1000)

section
variable {pg : PgServer} {f : FoxyaServer}

/-- what is found after an upsert -/
theorem find?_upsert {ρ : Type} {keyOf : ρ → String} {row : ρ} {rows : List ρ} (key : String) :
    (upsert keyOf row rows).find? (fun other => decide (keyOf other = key)) =
      if keyOf row = key then some row else rows.find? (fun other => decide (keyOf other = key)) := by
  -- replacing the row leaves every key as it is
  have hkeys : ∀ other, keyOf (if keyOf other = keyOf row then row else other) = keyOf other := by
    intro other
    split
    · next h => exact h.symm
    · rfl
  unfold upsert
  split
  · next hany =>
    rw [List.find?_map]
    have hsame : ((fun other => decide (keyOf other = key)) ∘
        fun other => if keyOf other = keyOf row then row else other) = fun other => decide (keyOf other = key) := by
      funext other
      show decide (keyOf (if keyOf other = keyOf row then row else other) = key) = _
      rw [hkeys]
    rw [hsame]
    cases hfind : rows.find? fun other => decide (keyOf other = key) with
    | none =>
      obtain ⟨old, hold, hkey⟩ := List.any_eq_true.mp hany
      have hnone := List.find?_eq_none.mp hfind old hold
      rw [of_decide_eq_true hkey, decide_eq_true_eq] at hnone
      rw [if_neg hnone]
      rfl
    | some old =>
      have hkey : keyOf old = key := by simpa using List.find?_some hfind
      rw [Option.map_some, hkey]
      by_cases h : keyOf row = key
      · rw [if_pos h, if_pos h.symm]
      · rw [if_neg h, if_neg (Ne.symm h)]
  · next hany =>
    rw [List.find?_append]
    by_cases h : keyOf row = key
    · have hnone : rows.find? (fun other => decide (keyOf other = key)) = none := by
        rw [List.find?_eq_none]
        intro other hother hkey
        exact hany (List.any_eq_true.mpr ⟨other, hother, decide_eq_true ((of_decide_eq_true hkey).trans h.symm)⟩)
      rw [hnone, if_pos h, Option.none_or, List.find?_singleton, if_pos (decide_eq_true h)]
    · rw [if_neg h, List.find?_singleton, if_neg (by simpa using h), Option.or_none]

theorem creditCursorRow_ok {cursor row : FoxyaBalanceCreditLedgerSyncCursor}
    (h : creditCursorRow pg cursor = .ok row) :
    Postgres.varchar 128 cursor.cursorKey = .ok row.cursorKey ∧
    pg.timestamptz cursor.lastOccurredAt = some row.lastOccurredAt ∧ row.lastFoxyaId = cursor.lastFoxyaId := by
  unfold creditCursorRow at h
  obtain ⟨cursorKey, hkey, h⟩ := Postgres.Except.bind_ok h
  obtain ⟨sourceName, -, h⟩ := Postgres.Except.bind_ok h
  obtain ⟨currencyCode, -, h⟩ := Postgres.Except.bind_ok h
  obtain ⟨lastOccurredAt, hat, h⟩ := Postgres.Except.bind_ok h
  obtain ⟨updatedAt, -, h⟩ := Postgres.Except.bind_ok h
  obtain rfl := Except.ok.inj h
  refine ⟨hkey, ?_, rfl⟩
  unfold Postgres.timestamp at hat
  split at hat
  · next t ht => exact ht.trans (congrArg some (Except.ok.inj hat))
  · cases hat

theorem depositCursorRow_ok {cursor row : FoxyaTokenDepositLedgerSyncCursor}
    (h : depositCursorRow pg cursor = .ok row) :
    Postgres.varchar 96 cursor.cursorKey = .ok row.cursorKey ∧
    Postgres.varchar 32 cursor.lastConfirmedAt = .ok row.lastConfirmedAt ∧
    row.lastFoxyaId = cursor.lastFoxyaId := by
  unfold depositCursorRow at h
  obtain ⟨cursorKey, hkey, h⟩ := Postgres.Except.bind_ok h
  obtain ⟨lastConfirmedAt, hat, h⟩ := Postgres.Except.bind_ok h
  obtain ⟨updatedAt, -, h⟩ := Postgres.Except.bind_ok h
  obtain rfl := Except.ok.inj h
  exact ⟨hkey, hat, rfl⟩

/-- a cursor key ends in a letter, so none is cut off -/
theorem cursorKey_last (options : FoxyaBalanceCreditLedgerSyncOptions) (sourceName : FoxyaBalanceCreditSourceName) :
    (options.cursorKey sourceName "KORI").toList.getLast? ≠ some ' ' := by
  unfold FoxyaBalanceCreditLedgerSyncOptions.cursorKey
  rw [String.toList_append, List.getLast?_append_of_ne_nil _ (by decide)]
  decide

theorem cursorKey_injective (options : FoxyaBalanceCreditLedgerSyncOptions)
    {sourceName sourceName' : FoxyaBalanceCreditSourceName}
    (h : options.cursorKey sourceName "KORI" = options.cursorKey sourceName' "KORI") : sourceName = sourceName' := by
  have hlists := congrArg String.toList h
  unfold FoxyaBalanceCreditLedgerSyncOptions.cursorKey at hlists
  simp only [String.toList_append] at hlists
  have htext := List.append_cancel_left (List.append_cancel_right (List.append_cancel_right hlists))
  cases sourceName <;> cases sourceName' <;> first | rfl | exact absurd htext (by decide)

theorem toLex_le {a b : Nat} {i : FoxyaId} (h : a ≤ b) : (toLex (a, i) : Position) ≤ toLex (b, i) :=
  Prod.Lex.toLex_le_toLex.mpr ((lt_or_eq_of_le h).imp_right fun he => ⟨he, le_refl i⟩)

/-- a saved cursor never lies beyond the place it was saved for -/
theorem position_of_saved (hclock : OneClock pg f) {t : Nat} {id : FoxyaId} {s : String} {p : Position}
    (hsaved : pg.timestamptz (f.toChar t) = some s) (hp : SyncCursor.position f ⟨s, id⟩ = .ok p) :
    p = toLex (t / 1000 * 1000, id) ∧ p ≤ toLex (t, id) := by
  unfold SyncCursor.position at hp
  rw [hclock.reread t s hsaved] at hp
  obtain rfl := Except.ok.inj hp
  exact ⟨rfl, toLex_le (Nat.div_mul_le_self t 1000)⟩

end

/-! ## two servers of one clock -/

/-- times that the examples are about, as foxya prints them and as they are read from a `TIMESTAMPTZ` -/
def exampleTimes : List (Nat × String × String) :=
  [(1767225600000000, "2026-01-01 00:00:00.000000", "2026-01-01T00:00:00.000Z"),
    (1767225600000250, "2026-01-01 00:00:00.000250", "2026-01-01T00:00:00.000Z"),
    (1767225600001500, "2026-01-01 00:00:00.001500", "2026-01-01T00:00:00.001Z"),
    (1767225600001000, "2026-01-01 00:00:00.001000", "2026-01-01T00:00:00.001Z")]

def exampleFoxya : FoxyaServer where
  upper := String.toUpper
  toChar t := ((exampleTimes.find? fun e => e.1 = t).map fun e => e.2.1).getD (toString t)
  timestamp s := some (((exampleTimes.find? fun e => e.2.1 = s).map fun e => e.1).getD
    (((exampleTimes.find? fun e => e.2.2 = s).map fun e => e.1 / 1000 * 1000).getD
      (Nat.ofDigitChars 10 s.toList 0)))

def examplePg : PgServer :=
  { PgServer.numbered with
    timestamptz s :=
      if s.toList.getLast? = some 'Z' then some s
      else some (((exampleTimes.find? fun e => e.2.1 = s).map fun e => e.2.2).getD
        (toString (Nat.ofDigitChars 10 s.toList 0 / 1000 * 1000))) }

theorem digits_of_toString {t : Nat} {c : Char} (h : c ∈ (toString t).toList) : c.isDigit = true := by
  have hlist : (toString t).toList = Nat.toDigits 10 t := String.toList_ofList
  rw [hlist] at h
  exact Nat.isDigit_of_mem_toDigits (by decide) (by decide) h

theorem ofDigitChars_toString (t : Nat) : Nat.ofDigitChars 10 (toString t).toList 0 = t := by
  have hlist : (toString t).toList = Nat.toDigits 10 t := String.toList_ofList
  rw [hlist, Nat.ofDigitChars_ten_toDigits]

theorem toString_ne {t : Nat} {s : String} (hs : s.toList.any (fun c => !c.isDigit) = true) : toString t ≠ s := by
  intro h
  subst h
  obtain ⟨c, hc, hdigit⟩ := List.any_eq_true.mp hs
  rw [digits_of_toString hc] at hdigit
  cases hdigit

/-- no time of the examples is written in digits only -/
theorem example_texts : ∀ e ∈ exampleTimes,
    e.2.1.toList.any (fun c => !c.isDigit) = true ∧ e.2.2.toList.any (fun c => !c.isDigit) = true := by decide

theorem example_listed : ∀ e ∈ exampleTimes, exampleFoxya.timestamp e.2.1 = some e.1 ∧
    examplePg.timestamptz e.2.1 = some e.2.2 ∧ exampleFoxya.timestamp e.2.2 = some (e.1 / 1000 * 1000) := by decide

theorem example_text (t : Nat) : exampleTimes.find? (fun e => e.2.1 = toString t) = none := by
  rw [List.find?_eq_none]
  intro e he h
  exact toString_ne (example_texts e he).1 (of_decide_eq_true h).symm

theorem example_digits (t : Nat) : exampleFoxya.timestamp (toString t) = some t := by
  have hnone : exampleTimes.find? (fun e => e.2.2 = toString t) = none := by
    rw [List.find?_eq_none]
    intro e he h
    exact toString_ne (example_texts e he).2 (of_decide_eq_true h).symm
  show some _ = some t
  rw [example_text, hnone, ofDigitChars_toString]
  rfl

theorem example_toChar (t : Nat) : (∃ e ∈ exampleTimes, e.1 = t ∧ exampleFoxya.toChar t = e.2.1) ∨
    exampleFoxya.toChar t = toString t := by
  unfold exampleFoxya
  simp only
  cases hfind : exampleTimes.find? fun e => e.1 = t with
  | none => exact Or.inr rfl
  | some e => exact Or.inl ⟨e, List.mem_of_find?_eq_some hfind, by simpa using List.find?_some hfind, rfl⟩

theorem example_oneClock : OneClock examplePg exampleFoxya := by
  constructor
  · intro t
    rcases example_toChar t with ⟨e, he, rfl, htext⟩ | htext
    · rw [htext, (example_listed e he).1]
    · rw [htext, example_digits]
  · intro t s hs
    rcases example_toChar t with ⟨e, he, rfl, htext⟩ | htext
    · obtain ⟨-, hread, hback⟩ := example_listed e he
      rw [htext, hread] at hs
      rw [← Option.some.inj hs, hback]
    · have hread : examplePg.timestamptz (toString t) = some (toString (t / 1000 * 1000)) := by
        have hlast : (toString t).toList.getLast? ≠ some 'Z' := by
          intro h
          have hdigit := digits_of_toString (List.mem_of_getLast? h)
          revert hdigit
          decide
        show (if (toString t).toList.getLast? = some 'Z' then some (toString t) else some _) = _
        rw [if_neg hlast, example_text, ofDigitChars_toString]
        rfl
      rw [htext, hread] at hs
      rw [← Option.some.inj hs, example_digits]

end Foxya
