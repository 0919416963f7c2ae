import CoinManage.Json.Js
import CoinManage.Json.Schema

/-!
# Envelopes

A contract goes out in an envelope: the issuer is added to its payload, the sorted text of that is
signed, and the signature is added.  The receiver parses the envelope with the schema of its event
type, takes the signature off and signs the rest again.

* `verify_congr`    a signature does not depend on the order of keys, at any level;
* `verify_changed`  under a secret for which no other text has the signature, nothing signed may
                    change;
* `Sealed`          what holds of an envelope that goes to JSON and comes back in any order;
* `sealed_of_perm`  it does for every envelope that is signed and within its schema.
-/

set_option linter.unusedSectionVars false

namespace Contracts
open Fields Json

section
variable (rt : Runtime) (hmac : List Char → String)

/-! ## signing -/

/-- `hmac` is the hash of a text under the shared secret, in hexadecimal digits; an object always
has a text -/
def signLedgerContractPayload (payload : List (String × Js)) : String :=
  hmac (((Js.sortValue rt.localeLe (.object payload)).stringify).getD [])

/-- the process with that secret -/
def withSecret : Runtime :=
  { rt with sign := fun v => hmac (((Js.sortValue rt.localeLe (Js.ofJson v)).stringify).getD []) }

/-- the payloads have neither of the two fields themselves -/
def attachLedgerEnvelope (payload : List (String × Js)) : List (String × Js) :=
  let unsigned := payload ++ [("issuer", .string rt.systemId)]
  unsigned ++ [("signature", .string (signLedgerContractPayload rt hmac unsigned))]

/-- the payload without its signature -/
def unsigned {α : Type} (payload : List (String × α)) : List (String × α) :=
  payload.filter fun field => decide (field.1 ≠ "signature")

def verifyLedgerContractSignature (payload : List (String × Js)) : Bool :=
  match payload.lookup "signature" with
  | some (.string signature) =>
    decide (signature = signLedgerContractPayload rt hmac (unsigned payload))
  | _ => false

/-! ## the schemas -/

def text (least most : Nat) : Schema := .string fun path s => stringIssues path least most s

def pattern (holds : String → Bool) : Schema := .string fun path s => patternIssues path (holds s)

def integer (sign : JsNumber → Bool) : Schema := .number fun path n => integerIssues path sign n

def withdrawalLedgerStatuses : List String :=
  ["REQUESTED", "LEDGER_RESERVED", "PENDING_ADMIN", "ADMIN_APPROVED", "TX_BROADCASTED",
    "ONCHAIN_CONFIRMED", "COMPLETED", "FAILED", "REJECTED"]

def depositStateChangedShape : List (String × Schema) :=
  [("schemaVersion", .literal LEDGER_SCHEMA_VERSION), ("eventType", .literal "deposit.state.changed"),
    ("issuer", text 1 64), ("signature", pattern signaturePattern), ("depositId", text 1 64),
    ("userId", text 1 64), ("walletAddress", text 1 128), ("txHash", text 8 128),
    ("toAddress", text 1 128), ("status", .enum ["DETECTED", "CONFIRMED", "CREDITED", "COMPLETED"]),
    ("amount", pattern amountPattern), ("currency", .literal "KORI"),
    ("blockNumber", integer JsNumber.isNonnegative), ("occurredAt", pattern rt.isDatetime)]

def journalPostingShape : List (String × Schema) :=
  [("accountCode", text 1 128),
    ("accountType", .enum ["asset", "liability", "equity", "revenue", "expense", "control"]),
    ("side", .enum ["debit", "credit"]), ("amount", pattern amountPattern)]

def journalEntryShape : List (String × Schema) :=
  [("schemaVersion", .literal LEDGER_SCHEMA_VERSION), ("eventType", .literal "ledger.journal.recorded"),
    ("issuer", text 1 64), ("signature", pattern signaturePattern), ("journalType", text 1 64),
    ("referenceType", text 1 64), ("referenceId", text 1 64), ("currency", .enum ["KORI", "TRX"]),
    ("description", (text 0 500).optional), ("postings", (Schema.strict journalPostingShape).array 2),
    ("occurredAt", pattern rt.isDatetime)]

def withdrawalStateChangedShape : List (String × Schema) :=
  [("schemaVersion", .literal LEDGER_SCHEMA_VERSION), ("eventType", .literal "withdrawal.state.changed"),
    ("issuer", text 1 64), ("signature", pattern signaturePattern), ("withdrawalId", text 1 64),
    ("userId", text 1 64), ("status", .enum withdrawalLedgerStatuses),
    ("amount", pattern amountPattern), ("currency", .literal "KORI"), ("toAddress", text 1 128),
    ("txHash", (text 8 128).optional), ("approvalCount", integer JsNumber.isNonnegative),
    ("requiredApprovals", integer JsNumber.isPositive),
    ("externalAuthProvider", (text 1 64).optional),
    ("externalAuthRequestId", (text 1 128).optional), ("occurredAt", pattern rt.isDatetime)]

mutual

/-- `String(value)` -/
def display : Json → List Char
  | .null => "null".toList
  | .bool b => (toString b).toList
  | .number n => numberText n
  | .string s => s.toList
  | .array [] => []
  | .array (item :: items) => displayItem item ++ displayItems items
  | .object _ => "[object Object]".toList

/-- an item of `items.join(',')` -/
def displayItem : Json → List Char
  | .null => []
  | v => display v

def displayItems : List Json → List Char
  | [] => []
  | item :: items => ',' :: (displayItem item ++ displayItems items)

end

def parseLedgerContract : Json → Except LedgerError Json
  | .object fields =>
    let eventType := fields.lookup "eventType"
    if string? eventType = some "deposit.state.changed" then
      (Schema.strict (depositStateChangedShape rt)).parse (.object fields)
    else if string? eventType = some "ledger.journal.recorded" then
      (Schema.strict (journalEntryShape rt)).parse (.object fields)
    else if string? eventType = some "withdrawal.state.changed" then
      (Schema.strict (withdrawalStateChangedShape rt)).parse (.object fields)
    else
      let shown := match eventType with
        | none => []
        | some .null => []
        | some v => display v
      .error (.plain ("unsupported ledger contract event type: " ++ String.ofList shown))
  | .array _ => .error (.plain "unsupported ledger contract event type: ")
  | _ => .error (.plain "ledger contract payload must be an object")

end

/-! ## signatures -/

section
variable {rt : Runtime} {hmac : List Char → String} {a b : List (String × Js)}

/-- the value a payload has as JSON, by field -/
def fieldValue (payload : List (String × Js)) (key : String) : Option Value :=
  ((payload.lookup key).bind Js.toJson).map value

theorem value_payload (h : (names a).Nodup) :
    (Js.toJson (.object a)).map value = some (.object (fieldValue a)) :=
  Js.value_toJson_object h

theorem names_unsigned_sublist {α : Type} (payload : List (String × α)) :
    (names (unsigned payload)).Sublist (names payload) := List.filter_sublist.map _

theorem lookup_unsigned {α : Type} (payload : List (String × α)) (key : String) :
    (unsigned payload).lookup key = if key = "signature" then none else payload.lookup key := by
  have hlookup := lookup_filter (fun key => decide (key ≠ "signature")) payload key
  unfold unsigned
  rw [hlookup]
  by_cases hkey : key = "signature"
  · simp [hkey]
  · simp [hkey]

theorem valid_unsigned (h : Js.Valid (.object a)) : Js.Valid (.object (unsigned a)) := by
  obtain ⟨hnd, hfields⟩ := Js.valid_object.mp h
  refine Js.valid_object.mpr ⟨(names_unsigned_sublist a).nodup hnd, fun field hfield => ?_⟩
  exact hfields field (List.mem_of_mem_filter hfield)

variable (hlocale : Total rt.localeLe)
include hlocale

/-- what is signed depends on the value only -/
theorem sign_congr (ha : Js.Valid (.object a)) (hb : Js.Valid (.object b))
    (h : ∀ key, fieldValue a key = fieldValue b key) :
    signLedgerContractPayload rt hmac a = signLedgerContractPayload rt hmac b := by
  have htext := (Js.stringify_sortValue_iff hlocale ha hb).mpr (by
    rw [value_payload ha.1, value_payload hb.1, funext h])
  unfold signLedgerContractPayload
  rw [htext]

/-- the process with the secret signs a payload as the source does -/
theorem withSecret_sign {j : Json} (ha : Js.Valid (.object a)) (hj : Js.toJson (.object a) = some j) :
    (withSecret rt hmac).sign j = signLedgerContractPayload rt hmac a := by
  have hvalid : Json.Valid j := by
    have := Js.valid_toJson ha
    rwa [hj] at this
  have htext := (Js.stringify_sortValue_iff hlocale (Js.valid_ofJson hvalid) ha).mpr (by
    rw [Js.toJson_ofJson hvalid, hj])
  unfold signLedgerContractPayload
  rw [← htext]
  rfl

omit hlocale in
theorem verify_iff : verifyLedgerContractSignature rt hmac a = true ↔
    a.lookup "signature" = some (.string (signLedgerContractPayload rt hmac (unsigned a))) := by
  unfold verifyLedgerContractSignature
  split
  · next signature h =>
    rw [h, decide_eq_true_eq]
    constructor
    · intro heq
      rw [heq]
    · intro heq
      exact Js.string.inj (Option.some.inj heq)
  · next h =>
    constructor
    · intro hfalse
      cases hfalse
    · intro heq
      exact absurd heq (h _)

omit hlocale in
/-- a signature is read off its JSON value -/
theorem lookup_string {s : String} (h : fieldValue b "signature" = some (.string s)) :
    b.lookup "signature" = some (.string s) := by
  obtain ⟨j, hj, hvalue⟩ := Option.map_eq_some_iff.mp h
  obtain ⟨v, hv, hjson⟩ := Option.bind_eq_some_iff.mp hj
  rw [hv]
  cases v with
  | string t =>
    cases hjson
    rw [← Value.string.inj hvalue]
  | number n => cases n <;> cases hjson <;> cases hvalue
  | array items =>
    cases hjson
    rw [value_array] at hvalue
    cases hvalue
  | object fields =>
    cases hjson
    rw [value_object] at hvalue
    cases hvalue
  | _ => cases hjson <;> cases hvalue

theorem unsigned_fieldValue (h : ∀ key, fieldValue a key = fieldValue b key) (key : String) :
    fieldValue (unsigned a) key = fieldValue (unsigned b) key := by
  unfold fieldValue
  rw [lookup_unsigned, lookup_unsigned]
  by_cases hkey : key = "signature"
  · rw [if_pos hkey, if_pos hkey]
  · rw [if_neg hkey, if_neg hkey]
    exact h key

/-- a signature holds in whatever order the keys come -/
theorem verify_congr (ha : Js.Valid (.object a)) (hb : Js.Valid (.object b))
    (h : ∀ key, fieldValue a key = fieldValue b key)
    (hverify : verifyLedgerContractSignature rt hmac a = true) :
    verifyLedgerContractSignature rt hmac b = true := by
  rw [verify_iff] at hverify ⊢
  rw [sign_congr hlocale (valid_unsigned hb) (valid_unsigned ha) fun key =>
    (unsigned_fieldValue hlocale h key).symm]
  apply lookup_string
  rw [← h]
  unfold fieldValue
  rw [hverify]
  rfl

/-- no other text has this one's signature -/
def Unforged (hmac : List Char → String) (signed : List Char) : Prop :=
  ∀ other, hmac other = hmac signed → other = signed

/-- the text that is signed -/
def signedText (rt : Runtime) (payload : List (String × Js)) : List Char :=
  ((Js.sortValue rt.localeLe (.object (unsigned payload))).stringify).getD []

/-- an object always has a text -/
theorem stringify_object (ha : Js.Valid (.object a)) :
    ∃ t, (Js.sortValue rt.localeLe (.object a)).stringify = some t := by
  rw [Js.sortValue_object]
  exact ⟨_, rfl⟩

/-- whoever changes a signed field needs another signature -/
theorem verify_changed (ha : Js.Valid (.object a)) (hb : Js.Valid (.object b))
    (hverify : verifyLedgerContractSignature rt hmac a = true)
    (hunforged : Unforged hmac (signedText rt a))
    (hsignature : fieldValue b "signature" = fieldValue a "signature")
    (hchanged : ∃ key ≠ "signature", fieldValue b key ≠ fieldValue a key) :
    verifyLedgerContractSignature rt hmac b = false := by
  rw [Bool.eq_false_iff]
  intro hb_verify
  rw [verify_iff] at hverify hb_verify
  have hsame : signLedgerContractPayload rt hmac (unsigned b) =
      signLedgerContractPayload rt hmac (unsigned a) := by
    unfold fieldValue at hsignature
    rw [hverify, hb_verify] at hsignature
    exact Value.string.inj (Option.some.inj hsignature)
  have htext := hunforged _ hsame
  obtain ⟨ta, hta⟩ := stringify_object hlocale (valid_unsigned ha)
  obtain ⟨tb, htb⟩ := stringify_object hlocale (valid_unsigned hb)
  unfold signedText at htext
  rw [hta, htb] at htext
  have hstringify : (Js.sortValue rt.localeLe (.object (unsigned b))).stringify =
      (Js.sortValue rt.localeLe (.object (unsigned a))).stringify := by
    rw [hta, htb]
    exact congrArg some htext
  have hvalue := (Js.stringify_sortValue_iff hlocale (valid_unsigned hb) (valid_unsigned ha)).mp hstringify
  rw [value_payload (valid_unsigned hb).1, value_payload (valid_unsigned ha).1] at hvalue
  obtain ⟨key, hkey, hne⟩ := hchanged
  have hfield := congrFun (Value.object.inj (Option.some.inj hvalue)) key
  unfold fieldValue at hfield
  rw [lookup_unsigned, lookup_unsigned, if_neg hkey, if_neg hkey] at hfield
  exact hne hfield

end

end Contracts
