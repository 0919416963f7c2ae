import Mathlib.Data.Prod.Lex
import CoinManage.Lib.Keyset
import CoinManage.Numbers
import CoinManage.Postgres.Columns

/-!
# What foxya has credited

The ledger copies the credits that foxya has given its users from the tables of foxya's own database.
Every source is a query of one shape: the completed rows of a table, in the order of time and id, after a
cursor.

* `creditRows`, `tokenDepositRows`   what the queries admit, without the cursor and the limit;
* `listCompletedCredits`, `listCompletedTokenDeposits`   the candidates of one page;
* `listCompletedCredits_ok`, `listCompletedTokenDeposits_ok`   a page of candidates is a page of rows;
* `reference_injective`        no two rows of the sources share a reference.

Times are microseconds; what the columns of both databases do to a time is part of `FoxyaServer` and of
`PgServer`.
-/

namespace Foxya

/-- a `bigint` id that a JavaScript number holds exactly -/
abbrev FoxyaId := Fin (2 ^ 53)

/-- the functions of foxya's database server: `upper`, `to_char(t, 'YYYY-MM-DD HH24:MI:SS.US')`, and the
cast of a parameter to `timestamp` -/
structure FoxyaServer where
  upper : String → String
  toChar : Nat → String
  timestamp : String → Option Nat

/-! ## tables -/

structure CurrencyRow where
  id : ℤ
  code : String

structure MiningHistoryRow where
  id : FoxyaId
  userId : Option ℤ
  amount : ℚ
  status : String
  createdAt : Nat
  deletedAt : Option Nat

structure InternalTransferRow where
  id : FoxyaId
  receiverId : Option ℤ
  currencyId : ℤ
  amount : ℚ
  status : String
  transactionType : Option String
  transferType : Option String
  completedAt : Option Nat
  createdAt : Nat
  deletedAt : Option Nat

structure PaymentDepositRow where
  id : FoxyaId
  userId : Option ℤ
  currencyId : ℤ
  amount : ℚ
  status : String
  createdAt : Nat
  deletedAt : Option Nat

/-- a row of `swaps` and of `exchanges` -/
structure ConversionRow where
  id : FoxyaId
  userId : Option ℤ
  fromCurrencyId : ℤ
  toCurrencyId : ℤ
  toAmount : ℚ
  status : String
  createdAt : Nat
  deletedAt : Option Nat

structure TokenDepositTableRow where
  id : FoxyaId
  depositId : String
  userId : Option ℤ
  currencyId : ℤ
  amount : ℚ
  txHash : Option String
  toAddress : Option String
  blockNumber : Option ℤ
  status : String
  confirmedAt : Option Nat
  createdAt : Option Nat
  deletedAt : Option Nat

structure FoxyaDb where
  currency : List CurrencyRow
  miningHistory : List MiningHistoryRow
  internalTransfers : List InternalTransferRow
  paymentDeposits : List PaymentDepositRow
  swaps : List ConversionRow
  exchanges : List ConversionRow
  tokenDeposits : List TokenDepositTableRow

/-- `join currency c on c.id = …` -/
def FoxyaDb.currencies (db : FoxyaDb) (id : ℤ) : List CurrencyRow := db.currency.filter (·.id = id)

/-! ## balance credits -/

inductive FoxyaBalanceCreditSourceName where
  | miningHistory
  | airdropTransfer
  | paymentDeposit
  | swapToKori
  | exchangeToKori
  | referralReward
  deriving DecidableEq

def FoxyaBalanceCreditSourceName.text : FoxyaBalanceCreditSourceName → String
  | .miningHistory => "mining_history"
  | .airdropTransfer => "airdrop_transfer"
  | .paymentDeposit => "payment_deposit"
  | .swapToKori => "swap_to_kori"
  | .exchangeToKori => "exchange_to_kori"
  | .referralReward => "referral_reward"

/-- a row of a source's query, its amount before the cast to `numeric(36, 6)` and its time before `to_char` -/
structure FoxyaBalanceCreditRow where
  foxyaId : FoxyaId
  userId : ℤ
  currencyCode : String
  amount : ℚ
  occurredAt : Nat
  deriving DecidableEq

section
variable (f : FoxyaServer) (db : FoxyaDb) (currencyCode : String)

def miningCredits : List FoxyaBalanceCreditRow :=
  db.miningHistory.flatMap fun mh => match mh.userId with
    | none => []
    | some userId =>
      if mh.deletedAt = none ∧ f.upper mh.status = "COMPLETED" ∧ f.upper currencyCode = "KORI" ∧ 0 < mh.amount then
        [⟨mh.id, userId, "KORI", mh.amount, mh.createdAt⟩]
      else []

/-- the transfers of one kind -/
def transferCredits (kind : InternalTransferRow → Option String) (wanted : String) : List FoxyaBalanceCreditRow :=
  db.internalTransfers.flatMap fun it => match it.receiverId with
    | none => []
    | some userId => (db.currencies it.currencyId).flatMap fun c =>
      if it.deletedAt = none ∧ f.upper it.status = "COMPLETED" ∧ (kind it).map f.upper = some wanted ∧
          f.upper c.code = f.upper currencyCode ∧ 0 < it.amount then
        [⟨it.id, userId, c.code, it.amount, it.completedAt.getD it.createdAt⟩]
      else []

def paymentCredits : List FoxyaBalanceCreditRow :=
  db.paymentDeposits.flatMap fun pd => match pd.userId with
    | none => []
    | some userId => (db.currencies pd.currencyId).flatMap fun c =>
      if pd.deletedAt = none ∧ f.upper pd.status = "COMPLETED" ∧ f.upper c.code = f.upper currencyCode ∧
          0 < pd.amount then
        [⟨pd.id, userId, c.code, pd.amount, pd.createdAt⟩]
      else []

def conversionCredits (rows : List ConversionRow) : List FoxyaBalanceCreditRow :=
  rows.flatMap fun e => match e.userId with
    | none => []
    | some userId => (db.currencies e.fromCurrencyId).flatMap fun fc =>
      (db.currencies e.toCurrencyId).flatMap fun tc =>
        if e.deletedAt = none ∧ f.upper e.status = "COMPLETED" ∧ f.upper tc.code = f.upper currencyCode ∧
            f.upper fc.code ≠ f.upper currencyCode ∧ 0 < e.toAmount then
          [⟨e.id, userId, tc.code, e.toAmount, e.createdAt⟩]
        else []

end

/-- `query` without its condition on the cursor, its order and its limit -/
structure SourceDefinition where
  journalType : String
  referenceType : String
  descriptionPrefix : String
  query : FoxyaServer → FoxyaDb → String → List FoxyaBalanceCreditRow

def sourceDefinitions : FoxyaBalanceCreditSourceName → SourceDefinition
  | .miningHistory =>
    { journalType := "foxya_mining_credited"
      referenceType := "foxya_mining_history"
      descriptionPrefix := "foxya mining history"
      query := miningCredits }
  | .airdropTransfer =>
    { journalType := "foxya_airdrop_credited"
      referenceType := "foxya_airdrop_transfer"
      descriptionPrefix := "foxya airdrop transfer"
      query := fun f db code => transferCredits f db code (·.transactionType) "AIRDROP_TRANSFER" }
  | .paymentDeposit =>
    { journalType := "foxya_payment_deposit_credited"
      referenceType := "foxya_payment_deposit"
      descriptionPrefix := "foxya payment deposit"
      query := paymentCredits }
  | .swapToKori =>
    { journalType := "foxya_swap_credited"
      referenceType := "foxya_swap"
      descriptionPrefix := "foxya swap to KORI"
      query := fun f db code => conversionCredits f db code db.swaps }
  | .exchangeToKori =>
    { journalType := "foxya_exchange_credited"
      referenceType := "foxya_exchange"
      descriptionPrefix := "foxya exchange to KORI"
      query := fun f db code => conversionCredits f db code db.exchanges }
  | .referralReward =>
    { journalType := "foxya_referral_reward_credited"
      referenceType := "foxya_referral_reward"
      descriptionPrefix := "foxya referral reward"
      query := fun f db code => transferCredits f db code (·.transferType) "REFERRAL_REWARD" }

def creditRows (f : FoxyaServer) (db : FoxyaDb) (sourceName : FoxyaBalanceCreditSourceName)
    (currencyCode : String) : List FoxyaBalanceCreditRow := (sourceDefinitions sourceName).query f db currencyCode

structure FoxyaBalanceCreditLedgerSyncCandidate where
  sourceName : FoxyaBalanceCreditSourceName
  foxyaId : FoxyaId
  userId : String
  currencyCode : String
  amount : String
  occurredAt : String
  journalType : String
  referenceType : String
  referenceId : String
  description : String
  deriving DecidableEq

/-! ## pages -/

/-- the place of a row in its source -/
abbrev Position := Nat ×ₗ FoxyaId

def FoxyaBalanceCreditRow.position (row : FoxyaBalanceCreditRow) : Position := toLex (row.occurredAt, row.foxyaId)

/-- where a page starts, as the service hands it on -/
structure SyncCursor where
  lastAt : String
  lastFoxyaId : FoxyaId
  deriving DecidableEq

/-- `$2::timestamp` and `$3::bigint` -/
def SyncCursor.position (f : FoxyaServer) (cursor : SyncCursor) : Except LedgerError Position :=
  match f.timestamp cursor.lastAt with
  | none => .error (.database "22007")
  | some t => .ok (toLex (t, cursor.lastFoxyaId))

def startOf (f : FoxyaServer) : Option SyncCursor → Except LedgerError (Option Position)
  | none => .ok none
  | some cursor => (cursor.position f).map some

/-- the units of `numeric(36, 6)` next to a number, ties away from zero -/
def roundedUnits (amount : ℚ) : ℤ :=
  if amount < 0 then -⌊-amount * 1000000 + 1 / 2⌋ else ⌊amount * 1000000 + 1 / 2⌋

/-- `amount::numeric(36, 6)::text` -/
def amountText (amount : ℚ) : Except LedgerError String :=
  if (roundedUnits amount).natAbs < 10 ^ 36 then .ok (formatKoriAmount (roundedUnits amount))
  else .error (.database "22003")

def FoxyaBalanceCreditRow.toCandidate (f : FoxyaServer) (sourceName : FoxyaBalanceCreditSourceName)
    (row : FoxyaBalanceCreditRow) : Except LedgerError FoxyaBalanceCreditLedgerSyncCandidate := do
  let source := sourceDefinitions sourceName
  let amount ← amountText row.amount
  return {
    sourceName := sourceName
    foxyaId := row.foxyaId
    userId := toString row.userId
    currencyCode := row.currencyCode
    amount := amount
    occurredAt := f.toChar row.occurredAt
    journalType := source.journalType
    referenceType := source.referenceType
    referenceId := source.referenceType ++ ":" ++ toString row.foxyaId.val
    description := source.descriptionPrefix ++ " " ++ toString row.foxyaId.val }

/-- an amount that does not fit refuses the whole query -/
def toCandidates {ρ γ : Type} (toCandidate : ρ → Except LedgerError γ) : List ρ → Except LedgerError (List γ)
  | [] => .ok []
  | row :: rows => do return (← toCandidate row) :: (← toCandidates toCandidate rows)

def listCompletedCredits (f : FoxyaServer) (db : FoxyaDb) (sourceName : FoxyaBalanceCreditSourceName)
    (currencyCode : String) (cursor : Option SyncCursor) (limit : Nat) :
    Except LedgerError (List FoxyaBalanceCreditLedgerSyncCandidate) := do
  let start ← startOf f cursor
  toCandidates (·.toCandidate f sourceName)
    (Keyset.page (·.position) start limit (creditRows f db sourceName currencyCode))

/-! ## token deposits -/

structure FoxyaTokenDepositRow where
  foxyaId : FoxyaId
  depositId : String
  userId : ℤ
  currencyCode : String
  amount : ℚ
  txHash : String
  toAddress : Option String
  blockNumber : Option ℤ
  confirmedAt : Nat
  deriving DecidableEq

/-- `btrim(s) <> ''` -/
def isBlank (s : String) : Bool := s.toList.all (· = ' ')

def tokenDepositRows (f : FoxyaServer) (db : FoxyaDb) (currencyCode : String) : List FoxyaTokenDepositRow :=
  db.tokenDeposits.flatMap fun td => match td.userId, td.txHash, td.confirmedAt <|> td.createdAt with
    | some userId, some txHash, some confirmedAt => (db.currencies td.currencyId).flatMap fun c =>
      if td.deletedAt = none ∧ f.upper td.status = "COMPLETED" ∧ f.upper c.code = f.upper currencyCode ∧
          isBlank txHash = false ∧ 0 < td.amount then
        [{ foxyaId := td.id
           depositId := td.depositId
           userId := userId
           currencyCode := c.code
           amount := td.amount
           txHash := txHash
           toAddress := td.toAddress
           blockNumber := td.blockNumber
           confirmedAt := confirmedAt }]
      else []
    | _, _, _ => []

def FoxyaTokenDepositRow.position (row : FoxyaTokenDepositRow) : Position := toLex (row.confirmedAt, row.foxyaId)

structure FoxyaTokenDepositLedgerSyncCandidate where
  foxyaId : FoxyaId
  depositId : String
  userId : String
  currencyCode : String
  amount : String
  txHash : String
  toAddress : Option String
  blockNumber : Option JsNumber
  confirmedAt : String
  deriving DecidableEq

def FoxyaTokenDepositRow.toCandidate (f : FoxyaServer) (row : FoxyaTokenDepositRow) :
    Except LedgerError FoxyaTokenDepositLedgerSyncCandidate := do
  let amount ← amountText row.amount
  return {
    foxyaId := row.foxyaId
    depositId := row.depositId
    userId := toString row.userId
    currencyCode := row.currencyCode
    amount := amount
    txHash := row.txHash
    toAddress := row.toAddress
    blockNumber := row.blockNumber.map fun n => JsNumber.ofExact n
    confirmedAt := f.toChar row.confirmedAt }

def listCompletedTokenDeposits (f : FoxyaServer) (db : FoxyaDb) (currencyCode : String)
    (cursor : Option SyncCursor) (limit : Nat) : Except LedgerError (List FoxyaTokenDepositLedgerSyncCandidate) := do
  let start ← startOf f cursor
  toCandidates (·.toCandidate f) (Keyset.page (·.position) start limit (tokenDepositRows f db currencyCode))

/-! ## what a page holds -/

section
variable {f : FoxyaServer}

theorem amountText_ok {amount : ℚ} {s : String} (h : amountText amount = .ok s) :
    s = formatKoriAmount (roundedUnits amount) := by
  unfold amountText at h
  split at h
  · exact (Except.ok.inj h).symm
  · cases h

theorem creditCandidate_ok {sourceName : FoxyaBalanceCreditSourceName} {row : FoxyaBalanceCreditRow}
    {c : FoxyaBalanceCreditLedgerSyncCandidate} (h : row.toCandidate f sourceName = .ok c) :
    c = { sourceName := sourceName
          foxyaId := row.foxyaId
          userId := toString row.userId
          currencyCode := row.currencyCode
          amount := formatKoriAmount (roundedUnits row.amount)
          occurredAt := f.toChar row.occurredAt
          journalType := (sourceDefinitions sourceName).journalType
          referenceType := (sourceDefinitions sourceName).referenceType
          referenceId := (sourceDefinitions sourceName).referenceType ++ ":" ++ toString row.foxyaId.val
          description := (sourceDefinitions sourceName).descriptionPrefix ++ " " ++ toString row.foxyaId.val } := by
  unfold FoxyaBalanceCreditRow.toCandidate at h
  cases hamount : amountText row.amount with
  | error e =>
    rw [hamount] at h
    cases h
  | ok s =>
    rw [hamount] at h
    obtain rfl := amountText_ok hamount
    exact (Except.ok.inj h).symm

theorem depositCandidate_ok {row : FoxyaTokenDepositRow} {c : FoxyaTokenDepositLedgerSyncCandidate}
    (h : row.toCandidate f = .ok c) :
    c = { foxyaId := row.foxyaId
          depositId := row.depositId
          userId := toString row.userId
          currencyCode := row.currencyCode
          amount := formatKoriAmount (roundedUnits row.amount)
          txHash := row.txHash
          toAddress := row.toAddress
          blockNumber := row.blockNumber.map fun n => JsNumber.ofExact n
          confirmedAt := f.toChar row.confirmedAt } := by
  unfold FoxyaTokenDepositRow.toCandidate at h
  cases hamount : amountText row.amount with
  | error e =>
    rw [hamount] at h
    cases h
  | ok s =>
    rw [hamount] at h
    obtain rfl := amountText_ok hamount
    exact (Except.ok.inj h).symm

/-- the candidates are the rows, in the same order -/
theorem toCandidates_ok {ρ γ : Type} {toCandidate : ρ → Except LedgerError γ} {rows : List ρ} {cs : List γ}
    (h : toCandidates toCandidate rows = .ok cs) : List.Forall₂ (fun row c => toCandidate row = .ok c) rows cs := by
  induction rows generalizing cs with
  | nil =>
    obtain rfl := Except.ok.inj h
    exact .nil
  | cons row rows ih =>
    rw [toCandidates] at h
    cases hrow : toCandidate row with
    | error e =>
      rw [hrow] at h
      cases h
    | ok c =>
      rw [hrow] at h
      cases hrows : toCandidates toCandidate rows with
      | error e =>
        rw [hrows] at h
        cases h
      | ok cs' =>
        rw [hrows] at h
        obtain rfl := Except.ok.inj h
        exact .cons hrow (ih hrows)

theorem listCompletedCredits_ok {db : FoxyaDb} {sourceName : FoxyaBalanceCreditSourceName} {currencyCode : String}
    {cursor : Option SyncCursor} {limit : Nat} {cs : List FoxyaBalanceCreditLedgerSyncCandidate}
    (h : listCompletedCredits f db sourceName currencyCode cursor limit = .ok cs) :
    ∃ start, startOf f cursor = .ok start ∧
      List.Forall₂ (fun row c => row.toCandidate f sourceName = .ok c)
        (Keyset.page (·.position) start limit (creditRows f db sourceName currencyCode)) cs := by
  unfold listCompletedCredits at h
  cases hstart : startOf f cursor with
  | error e =>
    rw [hstart] at h
    cases h
  | ok start =>
    rw [hstart] at h
    exact ⟨start, rfl, toCandidates_ok h⟩

theorem listCompletedTokenDeposits_ok {db : FoxyaDb} {currencyCode : String} {cursor : Option SyncCursor}
    {limit : Nat} {cs : List FoxyaTokenDepositLedgerSyncCandidate}
    (h : listCompletedTokenDeposits f db currencyCode cursor limit = .ok cs) :
    ∃ start, startOf f cursor = .ok start ∧
      List.Forall₂ (fun row c => row.toCandidate f = .ok c)
        (Keyset.page (·.position) start limit (tokenDepositRows f db currencyCode)) cs := by
  unfold listCompletedTokenDeposits at h
  cases hstart : startOf f cursor with
  | error e =>
    rw [hstart] at h
    cases h
  | ok start =>
    rw [hstart] at h
    exact ⟨start, rfl, toCandidates_ok h⟩

end

/-! ## references -/

/-- what the ledger knows a credit by -/
def referenceOf (sourceName : FoxyaBalanceCreditSourceName) (id : FoxyaId) : String × String :=
  ((sourceDefinitions sourceName).referenceType,
    (sourceDefinitions sourceName).referenceType ++ ":" ++ toString id.val)

theorem referenceType_injective : Function.Injective fun name => (sourceDefinitions name).referenceType := by
  intro a b h
  cases a <;> cases b <;> first | rfl | exact absurd h (by decide)

theorem toString_nat_injective {m n : Nat} (h : toString m = toString n) : m = n := by
  have hdigits : Nat.toDigits 10 m = Nat.toDigits 10 n := String.ofList_injective h
  have hvalue := congrArg (Nat.ofDigitChars 10 · 0) hdigits
  simpa only [Nat.ofDigitChars_ten_toDigits] using hvalue

/-- rows of all sources are told apart -/
theorem reference_injective {name name' : FoxyaBalanceCreditSourceName} {id id' : FoxyaId}
    (h : referenceOf name id = referenceOf name' id') : name = name' ∧ id = id' := by
  obtain rfl := referenceType_injective (congrArg Prod.fst h)
  refine ⟨rfl, ?_⟩
  have hids : ((sourceDefinitions name).referenceType ++ ":" ++ toString id.val).toList =
      ((sourceDefinitions name).referenceType ++ ":" ++ toString id'.val).toList :=
    congrArg (fun p => p.2.toList) h
  simp only [String.toList_append] at hids
  apply Fin.val_injective
  exact toString_nat_injective (String.toList_injective (List.append_cancel_left hids))

theorem length_toString_id (id : FoxyaId) : (toString id.val).length ≤ 16 := by
  have hlength : (toString id.val).length = (Nat.toDigits 10 id.val).length := String.length_ofList
  rw [hlength]
  refine (Nat.length_toDigits_le_iff (by norm_num) (by norm_num)).mpr ?_
  have hid := id.isLt
  omega

/-- no reference is cut off -/
theorem reference_fits (name : FoxyaBalanceCreditSourceName) (id : FoxyaId) :
    (referenceOf name id).1.length ≤ 64 ∧ (referenceOf name id).2.length ≤ 64 := by
  have htype : (sourceDefinitions name).referenceType.length ≤ 22 := by cases name <;> decide
  have hid := length_toString_id id
  refine ⟨by show (sourceDefinitions name).referenceType.length ≤ 64; omega, ?_⟩
  show ((sourceDefinitions name).referenceType ++ ":" ++ toString id.val).length ≤ 64
  rw [String.length_append, String.length_append]
  have hcolon : ":".length = 1 := rfl
  omega

end Foxya
