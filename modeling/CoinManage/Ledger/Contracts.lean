import CoinManage.Ledger.Types

/-!
# Signed event contracts

A state change of a deposit or a withdrawal is announced by a contract: the record's fields, the
issuer and a signature, validated by a schema before it leaves the builder.  The builder throws
when a field is out of the schema's bounds, so whoever calls it after writing has already written.

* `buildDepositStateChangedContract_ok_iff`, `buildWithdrawalStateChangedContract_ok_iff`
  the builder succeeds exactly when the record's fields are within the bounds.
-/

def LEDGER_SCHEMA_VERSION : String := "1.0.0"

/-! ## field checks -/

/-- `z.string().min(lo).max(hi)` -/
def stringIssues (path : String) (lo hi : Nat) (s : String) : List ZodIssue :=
  (if jsLength s < lo then [⟨path, "too_small"⟩] else []) ++
    (if hi < jsLength s then [⟨path, "too_big"⟩] else [])

/-- the same, `.optional()` -/
def optionalStringIssues (path : String) (lo hi : Nat) : Option String → List ZodIssue
  | none => []
  | some s => stringIssues path lo hi s

/-- `z.number().int()` followed by a sign check -/
def integerIssues (path : String) (sign : JsNumber → Bool) (n : JsNumber) : List ZodIssue :=
  (if n.isInteger then [] else [⟨path, "invalid_type"⟩]) ++
    (if sign n then [] else [⟨path, "too_small"⟩])

def patternIssues (path : String) (holds : Bool) : List ZodIssue :=
  if holds then [] else [⟨path, "invalid_string"⟩]

/-- `/^[a-f0-9]{64}$/` -/
def signaturePattern (s : String) : Bool :=
  s.length == 64 && s.toList.all fun c => c.isDigit || ('a' ≤ c && c ≤ 'f')

/-- `schema.parse(value)` -/
def parseWith {α : Type} (issues : α → List ZodIssue) (value : α) : Except LedgerError α :=
  if issues value = [] then .ok value else .error (.zod (issues value))

theorem stringIssues_nil {path : String} {lo hi : Nat} {s : String} :
    stringIssues path lo hi s = [] ↔ lo ≤ jsLength s ∧ jsLength s ≤ hi := by
  rw [stringIssues, List.append_eq_nil_iff]
  constructor
  · rintro ⟨h1, h2⟩
    constructor
    · by_contra h; simp [Nat.lt_of_not_le h] at h1
    · by_contra h; simp [Nat.lt_of_not_le h] at h2
  · rintro ⟨h1, h2⟩
    exact ⟨if_neg (Nat.not_lt.mpr h1), if_neg (Nat.not_lt.mpr h2)⟩

theorem parseWith_ok {α : Type} {issues : α → List ZodIssue} {v w : α} :
    parseWith issues v = .ok w ↔ issues v = [] ∧ v = w := by
  rw [parseWith]; split <;> simp_all

theorem parseWith_error {α : Type} {issues : α → List ZodIssue} {v : α} {e : LedgerError}
    (h : parseWith issues v = .error e) : e = .zod (issues v) := by
  rw [parseWith] at h
  split at h
  · cases h
  · exact (Except.error.inj h).symm

theorem optionalStringIssues_nil {path : String} {lo hi : Nat} {o : Option String} :
    optionalStringIssues path lo hi o = [] ↔ ∀ s ∈ o, lo ≤ jsLength s ∧ jsLength s ≤ hi := by
  cases o with
  | none => simp [optionalStringIssues]
  | some s => simp [optionalStringIssues, stringIssues_nil]

theorem integerIssues_nil {path : String} {sign : JsNumber → Bool} {n : JsNumber} :
    integerIssues path sign n = [] ↔ n.isInteger = true ∧ sign n = true := by
  rw [integerIssues, List.append_eq_nil_iff]
  cases n.isInteger <;> cases sign n <;> simp

theorem patternIssues_nil {path : String} {holds : Bool} :
    patternIssues path holds = [] ↔ holds = true := by
  cases holds <;> simp [patternIssues]

/-- a length between the bounds of `min` and `max` -/
def LengthWithin (lo hi : Nat) (s : String) : Prop := lo ≤ jsLength s ∧ jsLength s ≤ hi

instance (lo hi : Nat) (s : String) : Decidable (LengthWithin lo hi s) :=
  inferInstanceAs (Decidable (_ ∧ _))

/-- the part of every contract that is the issuer's: its name and its signature -/
def Runtime.Signs (rt : Runtime) (unsigned : Json) : Prop :=
  LengthWithin 1 64 rt.systemId ∧ signaturePattern (rt.sign unsigned) = true

instance (rt : Runtime) (unsigned : Json) : Decidable (rt.Signs unsigned) :=
  inferInstanceAs (Decidable (_ ∧ _))

/-! ## deposit contracts -/

structure DepositStateChangedContract where
  schemaVersion : String
  eventType : String
  issuer : String
  signature : String
  depositId : String
  userId : String
  walletAddress : String
  txHash : String
  toAddress : String
  status : DepositStatus
  amount : String
  currency : String
  blockNumber : JsNumber
  occurredAt : String
  deriving DecidableEq

def DepositStatus.text : DepositStatus → String
  | .detected => "DETECTED"
  | .confirmed => "CONFIRMED"
  | .credited => "CREDITED"
  | .completed => "COMPLETED"

structure DepositStateChange where
  depositId : String
  userId : String
  walletAddress : String
  txHash : String
  toAddress : String
  status : DepositStatus
  amount : ℤ
  blockNumber : JsNumber
  occurredAt : String

section
variable (rt : Runtime)

def depositStateChangedIssues (c : DepositStateChangedContract) : List ZodIssue :=
  stringIssues "issuer" 1 64 c.issuer ++ patternIssues "signature" (signaturePattern c.signature) ++
  stringIssues "depositId" 1 64 c.depositId ++ stringIssues "userId" 1 64 c.userId ++
  stringIssues "walletAddress" 1 128 c.walletAddress ++ stringIssues "txHash" 8 128 c.txHash ++
  stringIssues "toAddress" 1 128 c.toAddress ++ patternIssues "amount" (amountPattern c.amount) ++
  integerIssues "blockNumber" JsNumber.isNonnegative c.blockNumber ++
  patternIssues "occurredAt" (rt.isDatetime c.occurredAt)

/-- the fields under the signature, in the builder's order, the issuer last -/
def DepositStateChange.unsigned (input : DepositStateChange) : Json :=
  .object [("schemaVersion", .string LEDGER_SCHEMA_VERSION),
    ("eventType", .string "deposit.state.changed"), ("depositId", .string input.depositId),
    ("userId", .string input.userId), ("walletAddress", .string input.walletAddress),
    ("txHash", .string input.txHash), ("toAddress", .string input.toAddress),
    ("status", .string input.status.text), ("amount", .string (formatKoriAmount input.amount)),
    ("currency", .string "KORI"), ("blockNumber", .number input.blockNumber),
    ("occurredAt", .string input.occurredAt), ("issuer", .string rt.systemId)]

def buildDepositStateChangedContract (input : DepositStateChange) :
    Except LedgerError DepositStateChangedContract :=
  parseWith (depositStateChangedIssues rt)
    { schemaVersion := LEDGER_SCHEMA_VERSION
      eventType := "deposit.state.changed"
      issuer := rt.systemId
      signature := rt.sign (input.unsigned rt)
      depositId := input.depositId
      userId := input.userId
      walletAddress := input.walletAddress
      txHash := input.txHash
      toAddress := input.toAddress
      status := input.status
      amount := formatKoriAmount input.amount
      currency := "KORI"
      blockNumber := input.blockNumber
      occurredAt := input.occurredAt }

/-- every field of the announced deposit is within the schema's bounds -/
def DepositStateChange.Fits (input : DepositStateChange) : Prop :=
  rt.Signs (input.unsigned rt) ∧ LengthWithin 1 64 input.depositId ∧
  LengthWithin 1 64 input.userId ∧ LengthWithin 1 128 input.walletAddress ∧
  LengthWithin 8 128 input.txHash ∧ LengthWithin 1 128 input.toAddress ∧
  (input.blockNumber.isInteger = true ∧ input.blockNumber.isNonnegative = true) ∧
  rt.isDatetime input.occurredAt = true

instance (input : DepositStateChange) : Decidable (input.Fits rt) :=
  inferInstanceAs (Decidable (_ ∧ _))

theorem buildDepositStateChangedContract_error {rt : Runtime} {input : DepositStateChange} {e : LedgerError}
    (h : buildDepositStateChangedContract rt input = .error e) : ∃ issues, e = .zod issues :=
  ⟨_, parseWith_error h⟩

theorem buildDepositStateChangedContract_ok_iff (input : DepositStateChange) :
    (∃ c, buildDepositStateChangedContract rt input = .ok c) ↔ input.Fits rt := by
  simp only [buildDepositStateChangedContract, parseWith_ok, depositStateChangedIssues,
    List.append_eq_nil_iff, stringIssues_nil, integerIssues_nil, patternIssues_nil,
    amountPattern_format, DepositStateChange.Fits, Runtime.Signs, LengthWithin]
  constructor
  · rintro ⟨c, h, -⟩
    tauto
  · intro h
    exact ⟨_, by tauto, rfl⟩

end

/-! ## withdrawal contracts -/

structure WithdrawalStateChangedContract where
  schemaVersion : String
  eventType : String
  issuer : String
  signature : String
  withdrawalId : String
  userId : String
  status : WithdrawalStatus
  amount : String
  currency : String
  toAddress : String
  txHash : Option String
  approvalCount : Nat
  requiredApprovals : JsNumber
  externalAuthProvider : Option String
  externalAuthRequestId : Option String
  occurredAt : String
  deriving DecidableEq

section
variable (rt : Runtime)

def withdrawalStateChangedIssues (c : WithdrawalStateChangedContract) : List ZodIssue :=
  stringIssues "issuer" 1 64 c.issuer ++ patternIssues "signature" (signaturePattern c.signature) ++
  stringIssues "withdrawalId" 1 64 c.withdrawalId ++ stringIssues "userId" 1 64 c.userId ++
  patternIssues "amount" (amountPattern c.amount) ++ stringIssues "toAddress" 1 128 c.toAddress ++
  optionalStringIssues "txHash" 8 128 c.txHash ++
  integerIssues "requiredApprovals" JsNumber.isPositive c.requiredApprovals ++
  optionalStringIssues "externalAuthProvider" 1 64 c.externalAuthProvider ++
  optionalStringIssues "externalAuthRequestId" 1 128 c.externalAuthRequestId ++
  patternIssues "occurredAt" (rt.isDatetime c.occurredAt)

/-- the fields under the signature; an absent optional field is not printed -/
def unsignedWithdrawal (withdrawal : Withdrawal) (occurredAt : String) : Json :=
  .object ([("schemaVersion", .string LEDGER_SCHEMA_VERSION),
    ("eventType", .string "withdrawal.state.changed"),
    ("withdrawalId", .string withdrawal.withdrawalId), ("userId", .string withdrawal.userId),
    ("status", .string withdrawal.status.text),
    ("amount", .string (formatKoriAmount withdrawal.amount)), ("currency", .string "KORI"),
    ("toAddress", .string withdrawal.toAddress)] ++
    (withdrawal.txHash.map fun h => ("txHash", Json.string h)).toList ++
    [("approvalCount", .number (.ofInt withdrawal.approvalCount)),
    ("requiredApprovals", .number withdrawal.requiredApprovals)] ++
    (withdrawal.externalAuthProvider.map fun p => ("externalAuthProvider", Json.string p)).toList ++
    (withdrawal.externalAuthRequestId.map fun r => ("externalAuthRequestId", Json.string r)).toList ++
    [("occurredAt", .string occurredAt), ("issuer", .string rt.systemId)])

def buildWithdrawalStateChangedContract (withdrawal : Withdrawal) (occurredAt : String) :
    Except LedgerError WithdrawalStateChangedContract :=
  parseWith (withdrawalStateChangedIssues rt)
    { schemaVersion := LEDGER_SCHEMA_VERSION
      eventType := "withdrawal.state.changed"
      issuer := rt.systemId
      signature := rt.sign (unsignedWithdrawal rt withdrawal occurredAt)
      withdrawalId := withdrawal.withdrawalId
      userId := withdrawal.userId
      status := withdrawal.status
      amount := formatKoriAmount withdrawal.amount
      currency := "KORI"
      toAddress := withdrawal.toAddress
      txHash := withdrawal.txHash
      approvalCount := withdrawal.approvalCount
      requiredApprovals := withdrawal.requiredApprovals
      externalAuthProvider := withdrawal.externalAuthProvider
      externalAuthRequestId := withdrawal.externalAuthRequestId
      occurredAt := occurredAt }

/-- every field of the announced withdrawal is within the schema's bounds -/
def Withdrawal.Fits (withdrawal : Withdrawal) (occurredAt : String) : Prop :=
  rt.Signs (unsignedWithdrawal rt withdrawal occurredAt) ∧
  LengthWithin 1 64 withdrawal.withdrawalId ∧ LengthWithin 1 64 withdrawal.userId ∧
  LengthWithin 1 128 withdrawal.toAddress ∧
  (∀ h ∈ withdrawal.txHash, LengthWithin 8 128 h) ∧
  (withdrawal.requiredApprovals.isInteger = true ∧
    withdrawal.requiredApprovals.isPositive = true) ∧
  (∀ p ∈ withdrawal.externalAuthProvider, LengthWithin 1 64 p) ∧
  (∀ r ∈ withdrawal.externalAuthRequestId, LengthWithin 1 128 r) ∧
  rt.isDatetime occurredAt = true

instance (withdrawal : Withdrawal) (occurredAt : String) :
    Decidable (withdrawal.Fits rt occurredAt) :=
  inferInstanceAs (Decidable (_ ∧ _))

theorem buildWithdrawalStateChangedContract_error {rt : Runtime} {withdrawal : Withdrawal}
    {occurredAt : String} {e : LedgerError}
    (h : buildWithdrawalStateChangedContract rt withdrawal occurredAt = .error e) :
    ∃ issues, e = .zod issues :=
  ⟨_, parseWith_error h⟩

theorem buildWithdrawalStateChangedContract_ok_iff (withdrawal : Withdrawal)
    (occurredAt : String) :
    (∃ c, buildWithdrawalStateChangedContract rt withdrawal occurredAt = .ok c) ↔
      withdrawal.Fits rt occurredAt := by
  simp only [buildWithdrawalStateChangedContract, parseWith_ok, withdrawalStateChangedIssues,
    List.append_eq_nil_iff, stringIssues_nil, optionalStringIssues_nil, integerIssues_nil,
    patternIssues_nil, amountPattern_format, Withdrawal.Fits, Runtime.Signs, LengthWithin]
  constructor
  · rintro ⟨c, h, -⟩
    tauto
  · intro h
    exact ⟨_, by tauto, rfl⟩

end

/-! ## a process for concrete runs -/

/-- a process that numbers its identifiers -/
def Runtime.numbered : Runtime where
  uuid n := "00000000-0000-4000-8000-" ++ String.ofList (padStart 12 (Nat.toDigits 10 n))
  systemId := "korion"
  sign _ := String.ofList (List.replicate 64 '0')
  isDatetime s := s.length == 24 && s.toList.getLast? == some 'Z'
  toUpperCase s := String.ofList (s.toList.map Char.toUpper)
  localeLe a b := decide (a ≤ b)

theorem Runtime.numbered_uuid_injective : Function.Injective Runtime.numbered.uuid := by
  intro a b h
  have hdigits := String.ofList_injective ((String.append_right_inj _).mp h)
  have hvalue := congrArg (fun l => Nat.ofDigitChars 10 l 0) hdigits
  simpa only [ofDigitChars_padStart] using hvalue
