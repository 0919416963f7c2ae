import CoinManage.Ledger.Envelopes

/-!
# Signed contracts come back as they went out

The three builders, as envelopes: what leaves a builder is its payload with the issuer and the
signature, in the order of the schema.  An envelope that is serialised, reordered and parsed is
accepted and verifies, and nothing that was signed can change.

* `deposit_envelope`, `journal_envelope`, `withdrawal_envelope`   what a builder gives back;
* `deposit_accepted`, `journal_accepted`, `withdrawal_accepted`   its own schema accepts it;
* `signed_contracts`   canonical texts, and envelopes.
-/

set_option linter.unusedSectionVars false

namespace Contracts
open Fields Json

/-! ## journal contracts -/

structure JournalPostingContract where
  accountCode : String
  accountType : String
  side : String
  amount : String
  deriving DecidableEq

def JournalPostingContract.js (p : JournalPostingContract) : Js :=
  .object [("accountCode", .string p.accountCode), ("accountType", .string p.accountType),
    ("side", .string p.side), ("amount", .string p.amount)]

structure JournalEntry where
  journalType : String
  referenceType : String
  referenceId : String
  currency : Option String
  description : Option String
  postings : List JournalPostingContract
  occurredAt : String

structure JournalEntryContract where
  schemaVersion : String
  eventType : String
  issuer : String
  signature : String
  journalType : String
  referenceType : String
  referenceId : String
  currency : String
  description : Option String
  postings : List JournalPostingContract
  occurredAt : String
  deriving DecidableEq

/-! ## payloads and envelopes -/

/-- what the builder hands to `attachLedgerEnvelope` -/
def depositPayload (input : DepositStateChange) : List (String × Js) :=
  [("schemaVersion", .string LEDGER_SCHEMA_VERSION), ("eventType", .string "deposit.state.changed"),
    ("depositId", .string input.depositId), ("userId", .string input.userId),
    ("walletAddress", .string input.walletAddress), ("txHash", .string input.txHash),
    ("toAddress", .string input.toAddress), ("status", .string input.status.text),
    ("amount", .string (formatKoriAmount input.amount)), ("currency", .string "KORI"),
    ("blockNumber", .number input.blockNumber), ("occurredAt", .string input.occurredAt)]

def journalPayload (input : JournalEntry) : List (String × Js) :=
  [("schemaVersion", .string LEDGER_SCHEMA_VERSION), ("eventType", .string "ledger.journal.recorded"),
    ("journalType", .string input.journalType), ("referenceType", .string input.referenceType),
    ("referenceId", .string input.referenceId), ("currency", .string (orElse input.currency "KORI")),
    ("description", .ofOption input.description),
    ("postings", .array (input.postings.map JournalPostingContract.js)),
    ("occurredAt", .string input.occurredAt)]

def withdrawalPayload (withdrawal : Withdrawal) (occurredAt : String) : List (String × Js) :=
  [("schemaVersion", .string LEDGER_SCHEMA_VERSION), ("eventType", .string "withdrawal.state.changed"),
    ("withdrawalId", .string withdrawal.withdrawalId), ("userId", .string withdrawal.userId),
    ("status", .string withdrawal.status.text), ("amount", .string (formatKoriAmount withdrawal.amount)),
    ("currency", .string "KORI"), ("toAddress", .string withdrawal.toAddress),
    ("txHash", .ofOption withdrawal.txHash),
    ("approvalCount", .number (.ofInt withdrawal.approvalCount)),
    ("requiredApprovals", .number withdrawal.requiredApprovals),
    ("externalAuthProvider", .ofOption withdrawal.externalAuthProvider),
    ("externalAuthRequestId", .ofOption withdrawal.externalAuthRequestId),
    ("occurredAt", .string occurredAt)]

/-- a deposit contract, in the order of its schema -/
def depositFields (c : DepositStateChangedContract) : List (String × Js) :=
  [("schemaVersion", .string c.schemaVersion), ("eventType", .string c.eventType),
    ("issuer", .string c.issuer), ("signature", .string c.signature), ("depositId", .string c.depositId),
    ("userId", .string c.userId), ("walletAddress", .string c.walletAddress),
    ("txHash", .string c.txHash), ("toAddress", .string c.toAddress), ("status", .string c.status.text),
    ("amount", .string c.amount), ("currency", .string c.currency), ("blockNumber", .number c.blockNumber),
    ("occurredAt", .string c.occurredAt)]

def journalFields (c : JournalEntryContract) : List (String × Js) :=
  [("schemaVersion", .string c.schemaVersion), ("eventType", .string c.eventType),
    ("issuer", .string c.issuer), ("signature", .string c.signature),
    ("journalType", .string c.journalType), ("referenceType", .string c.referenceType),
    ("referenceId", .string c.referenceId), ("currency", .string c.currency),
    ("description", .ofOption c.description),
    ("postings", .array (c.postings.map JournalPostingContract.js)), ("occurredAt", .string c.occurredAt)]

def withdrawalFields (c : WithdrawalStateChangedContract) : List (String × Js) :=
  [("schemaVersion", .string c.schemaVersion), ("eventType", .string c.eventType),
    ("issuer", .string c.issuer), ("signature", .string c.signature),
    ("withdrawalId", .string c.withdrawalId), ("userId", .string c.userId),
    ("status", .string c.status.text), ("amount", .string c.amount), ("currency", .string c.currency),
    ("toAddress", .string c.toAddress), ("txHash", .ofOption c.txHash),
    ("approvalCount", .number (.ofInt c.approvalCount)),
    ("requiredApprovals", .number c.requiredApprovals),
    ("externalAuthProvider", .ofOption c.externalAuthProvider),
    ("externalAuthRequestId", .ofOption c.externalAuthRequestId), ("occurredAt", .string c.occurredAt)]

section
variable (rt : Runtime) (hmac : List Char → String)

/-- `journalEntryContractSchema.parse(attachLedgerEnvelope(..))` -/
def buildJournalEntryContract (input : JournalEntry) : Except LedgerError JournalEntryContract :=
  parseWith
    (fun c => (Schema.strict (journalEntryShape rt)).issues "" (Js.toJson (.object (journalFields c))))
    { schemaVersion := LEDGER_SCHEMA_VERSION
      eventType := "ledger.journal.recorded"
      issuer := rt.systemId
      signature := signLedgerContractPayload rt hmac
        (journalPayload input ++ [("issuer", .string rt.systemId)])
      journalType := input.journalType
      referenceType := input.referenceType
      referenceId := input.referenceId
      currency := orElse input.currency "KORI"
      description := input.description
      postings := input.postings
      occurredAt := input.occurredAt }

end

/-! ## what a builder gives back -/

section
variable {rt : Runtime} {hmac : List Char → String}

theorem toJson_deposit (rt : Runtime) (input : DepositStateChange) (x : ℚ)
    (hx : input.blockNumber = .finite x) :
    Js.toJson (.object (depositPayload input ++ [("issuer", .string rt.systemId)])) =
      some (input.unsigned rt) := by
  rw [DepositStateChange.unsigned, hx]
  unfold depositPayload
  rw [hx]
  rfl

theorem toJson_withdrawal (rt : Runtime) (w : Withdrawal) (occurredAt : String) (x : ℚ)
    (hx : w.requiredApprovals = .finite x) :
    Js.toJson (.object (withdrawalPayload w occurredAt ++ [("issuer", .string rt.systemId)])) =
      some (unsignedWithdrawal rt w occurredAt) := by
  rw [unsignedWithdrawal, hx]
  unfold withdrawalPayload
  rw [hx]
  cases w.txHash <;> cases w.externalAuthProvider <;> cases w.externalAuthRequestId <;> rfl

/-- two lists of fields with the same names, each with the same value -/
theorem perm_of_fields {a b : List (String × Js)} {keys keys' : List String} (ha : names a = keys)
    (hb : names b = keys') (hnd : keys.Nodup) (hperm : keys.Perm keys')
    (h : ∀ key ∈ keys, a.lookup key = b.lookup key) : a.Perm b := by
  subst ha hb
  apply perm_of_lookup hnd (hperm.nodup_iff.mp hnd)
  intro key
  by_cases hkey : key ∈ names a
  · exact h key hkey
  · rw [lookup_eq_none.mpr hkey, lookup_eq_none.mpr fun hmem => hkey (hperm.mem_iff.mpr hmem)]

theorem valid_string (s : String) : Js.Valid (.string s) := trivial

theorem valid_number (x : ℚ) : Js.Valid (.number (.finite x)) ↔ Binary64.Representable x := Iff.rfl

theorem valid_ofOption (o : Option String) : Js.Valid (.ofOption o) := by
  cases o <;> trivial

def depositKeys : List String :=
  ["schemaVersion", "eventType", "issuer", "signature", "depositId", "userId", "walletAddress", "txHash",
    "toAddress", "status", "amount", "currency", "blockNumber", "occurredAt"]

/-- the order in which the builder and `attachLedgerEnvelope` put them -/
def depositEnvelopeKeys : List String :=
  ["schemaVersion", "eventType", "depositId", "userId", "walletAddress", "txHash", "toAddress", "status",
    "amount", "currency", "blockNumber", "occurredAt", "issuer", "signature"]

theorem deposit_envelope {input : DepositStateChange} {c : DepositStateChangedContract}
    (hlocale : Total rt.localeLe) {x : ℚ} (hx : input.blockNumber = .finite x)
    (hdouble : Binary64.Representable x)
    (h : buildDepositStateChangedContract (withSecret rt hmac) input = .ok c) :
    (depositFields c).Perm (attachLedgerEnvelope rt hmac (depositPayload input)) := by
  obtain ⟨-, rfl⟩ := parseWith_ok.mp h
  have hsign : (withSecret rt hmac).sign (input.unsigned (withSecret rt hmac)) =
      signLedgerContractPayload rt hmac (depositPayload input ++ [("issuer", .string rt.systemId)]) := by
    refine withSecret_sign hlocale ?_ (toJson_deposit rt input x hx)
    refine Js.valid_object.mpr ⟨?_, ?_⟩
    · show depositEnvelopeKeys.dropLast.Nodup
      decide
    · simp [depositPayload, hx, valid_string, valid_number, hdouble]
  apply @perm_of_fields _ _ depositKeys depositEnvelopeKeys rfl rfl (by decide) (by decide)
  simp only [depositKeys, List.forall_mem_cons]
  refine ⟨rfl, rfl, rfl, ?_, rfl, rfl, rfl, rfl, rfl, rfl, rfl, rfl, rfl, rfl, nofun⟩
  exact congrArg (fun s => some (Js.string s)) hsign

theorem deposit_accepted {c : DepositStateChangedContract} {x : ℚ} (hx : c.blockNumber = .finite x)
    (hversion : c.schemaVersion = LEDGER_SCHEMA_VERSION) (htype : c.eventType = "deposit.state.changed")
    (hcurrency : c.currency = "KORI") (h : depositStateChangedIssues rt c = []) :
    (Schema.strict (depositStateChangedShape rt)).issues "" (Js.toJson (.object (depositFields c))) = [] := by
  simp only [depositStateChangedIssues, List.append_eq_nil_iff] at h
  obtain ⟨⟨⟨⟨⟨⟨⟨⟨⟨hissuer, hsignature⟩, hdepositId⟩, huserId⟩, hwallet⟩, htx⟩, hto⟩, hamount⟩, hblock⟩, hat⟩ := h
  rw [hx] at hblock
  unfold depositFields
  rw [hx, hversion, htype, hcurrency]
  refine List.append_eq_nil_iff.mpr ⟨?_, rfl⟩
  simp only [Schema.fieldIssues, List.flatMap_eq_nil_iff, depositStateChangedShape, List.forall_mem_cons]
  have hstatus : (Schema.enum ["DETECTED", "CONFIRMED", "CREDITED", "COMPLETED"]).issues "status"
      (some (.string c.status.text)) = [] := by
    cases c.status <;> rfl
  exact ⟨rfl, rfl, hissuer, hsignature, hdepositId, huserId, hwallet, htx, hto, hstatus, hamount, rfl,
    hblock, hat, List.forall_mem_nil _⟩

def journalKeys : List String :=
  ["schemaVersion", "eventType", "issuer", "signature", "journalType", "referenceType", "referenceId",
    "currency", "description", "postings", "occurredAt"]

def journalEnvelopeKeys : List String :=
  ["schemaVersion", "eventType", "journalType", "referenceType", "referenceId", "currency", "description",
    "postings", "occurredAt", "issuer", "signature"]

theorem journal_envelope {input : JournalEntry} {c : JournalEntryContract}
    (h : buildJournalEntryContract rt hmac input = .ok c) :
    (journalFields c).Perm (attachLedgerEnvelope rt hmac (journalPayload input)) := by
  obtain ⟨-, rfl⟩ := parseWith_ok.mp h
  apply @perm_of_fields _ _ journalKeys journalEnvelopeKeys rfl rfl (by decide) (by decide)
  simp only [journalKeys, List.forall_mem_cons]
  exact ⟨rfl, rfl, rfl, rfl, rfl, rfl, rfl, rfl, rfl, rfl, rfl, nofun⟩

theorem journal_accepted {input : JournalEntry} {c : JournalEntryContract}
    (h : buildJournalEntryContract rt hmac input = .ok c) :
    (Schema.strict (journalEntryShape rt)).issues "" (Js.toJson (.object (journalFields c))) = [] := by
  obtain ⟨hissues, rfl⟩ := parseWith_ok.mp h
  exact hissues

def withdrawalKeys : List String :=
  ["schemaVersion", "eventType", "issuer", "signature", "withdrawalId", "userId", "status", "amount",
    "currency", "toAddress", "txHash", "approvalCount", "requiredApprovals", "externalAuthProvider",
    "externalAuthRequestId", "occurredAt"]

def withdrawalEnvelopeKeys : List String :=
  ["schemaVersion", "eventType", "withdrawalId", "userId", "status", "amount", "currency", "toAddress",
    "txHash", "approvalCount", "requiredApprovals", "externalAuthProvider", "externalAuthRequestId",
    "occurredAt", "issuer", "signature"]

theorem withdrawal_envelope {w : Withdrawal} {occurredAt : String} {c : WithdrawalStateChangedContract}
    (hlocale : Total rt.localeLe) {x : ℚ} (hx : w.requiredApprovals = .finite x)
    (hdouble : Binary64.Representable x) (hcount : Binary64.Representable w.approvalCount)
    (h : buildWithdrawalStateChangedContract (withSecret rt hmac) w occurredAt = .ok c) :
    (withdrawalFields c).Perm (attachLedgerEnvelope rt hmac (withdrawalPayload w occurredAt)) := by
  obtain ⟨-, rfl⟩ := parseWith_ok.mp h
  have hsign : (withSecret rt hmac).sign (unsignedWithdrawal (withSecret rt hmac) w occurredAt) =
      signLedgerContractPayload rt hmac
        (withdrawalPayload w occurredAt ++ [("issuer", .string rt.systemId)]) := by
    refine withSecret_sign hlocale ?_ (toJson_withdrawal rt w occurredAt x hx)
    refine Js.valid_object.mpr ⟨?_, ?_⟩
    · show withdrawalEnvelopeKeys.dropLast.Nodup
      decide
    · have hcount' : Js.Valid (.number (.ofInt w.approvalCount)) := by
        show Binary64.Representable _
        push_cast
        exact hcount
      simp [withdrawalPayload, hx, valid_string, valid_ofOption, valid_number, hdouble, hcount']
  apply @perm_of_fields _ _ withdrawalKeys withdrawalEnvelopeKeys rfl rfl (by decide) (by decide)
  simp only [withdrawalKeys, List.forall_mem_cons]
  refine ⟨rfl, rfl, rfl, ?_, rfl, rfl, rfl, rfl, rfl, rfl, rfl, rfl, rfl, rfl, rfl, rfl, nofun⟩
  exact congrArg (fun s => some (Js.string s)) hsign

/-- an optional field, under the schema's check -/
theorem optional_accepted {path : String} {least most : Nat} {o : Option String}
    (h : optionalStringIssues path least most o = []) :
    (text least most).optional.issues path (Js.toJson (.ofOption o)) = [] := by
  cases o with
  | none => rfl
  | some s => exact h

theorem withdrawal_accepted {c : WithdrawalStateChangedContract} {x : ℚ}
    (hx : c.requiredApprovals = .finite x) (hversion : c.schemaVersion = LEDGER_SCHEMA_VERSION)
    (htype : c.eventType = "withdrawal.state.changed") (hcurrency : c.currency = "KORI")
    (h : withdrawalStateChangedIssues rt c = []) :
    (Schema.strict (withdrawalStateChangedShape rt)).issues ""
      (Js.toJson (.object (withdrawalFields c))) = [] := by
  simp only [withdrawalStateChangedIssues, List.append_eq_nil_iff] at h
  obtain ⟨⟨⟨⟨⟨⟨⟨⟨⟨⟨hissuer, hsignature⟩, hid⟩, huserId⟩, hamount⟩, hto⟩, htx⟩, hrequired⟩, hprovider⟩,
    hrequest⟩, hat⟩ := h
  have hstatus : (Schema.enum withdrawalLedgerStatuses).issues "status"
      (some (.string c.status.text)) = [] := by
    cases c.status <;> rfl
  have hcount : integerIssues "approvalCount" JsNumber.isNonnegative (.ofInt c.approvalCount) = [] := by
    rw [integerIssues_nil]
    exact ⟨by simp [JsNumber.isInteger, JsNumber.ofInt], by simp [JsNumber.isNonnegative, JsNumber.ofInt]⟩
  have htx' := optional_accepted htx
  have hprovider' := optional_accepted hprovider
  have hrequest' := optional_accepted hrequest
  have hnd : (names (withdrawalFields c)).Nodup := by
    show withdrawalKeys.Nodup
    decide
  have hlookup : ∀ key, (Js.jsonFields (withdrawalFields c)).lookup key =
      ((withdrawalFields c).lookup key).bind Js.toJson := Js.lookup_jsonFields hnd
  refine List.append_eq_nil_iff.mpr ⟨?_, ?_⟩
  · show Schema.fieldIssues _ "" (Js.jsonFields (withdrawalFields c)) = []
    simp only [Schema.fieldIssues, List.flatMap_eq_nil_iff, withdrawalStateChangedShape,
      List.forall_mem_cons, hlookup]
    unfold withdrawalFields
    rw [hx] at hrequired ⊢
    rw [hversion, htype, hcurrency]
    exact ⟨rfl, rfl, hissuer, hsignature, hid, huserId, hstatus, hamount, rfl, hto, htx', hcount,
      hrequired, hprovider', hrequest', hat, List.forall_mem_nil _⟩
  · have hknown : (Js.jsonFields (withdrawalFields c)).all (fun field =>
        decide (field.1 ∈ names (withdrawalStateChangedShape rt))) = true := by
      rw [Schema.all_names (p := fun key => decide (key ∈ names (withdrawalStateChangedShape rt)))]
      intro key hkey
      exact decide_eq_true ((Js.names_jsonFields_sublist _).mem hkey)
    rw [if_pos hknown]

end

/-! ## the schemas of the contracts -/

section
variable (rt : Runtime)

theorem deposit_respects : (Schema.strict (depositStateChangedShape rt)).Respects := by
  apply Schema.strict_respects
  simp only [depositStateChangedShape, List.forall_mem_cons, text, pattern, integer,
    Schema.string_respects, Schema.literal_respects, Schema.enum_respects, Schema.number_respects,
    true_and]
  exact nofun

theorem deposit_keeps : (Schema.strict (depositStateChangedShape rt)).Keeps := by
  apply Schema.strict_keeps
  · show depositKeys.Nodup
    decide
  · simp only [depositStateChangedShape, List.forall_mem_cons, text, pattern, integer,
      Schema.string_keeps, Schema.literal_keeps, Schema.enum_keeps, Schema.number_keeps, true_and]
    exact nofun

theorem journal_respects : (Schema.strict (journalEntryShape rt)).Respects := by
  have hposting : (Schema.strict journalPostingShape).Respects := by
    apply Schema.strict_respects
    simp only [journalPostingShape, List.forall_mem_cons, text, pattern, Schema.string_respects,
      Schema.enum_respects, true_and]
    exact nofun
  apply Schema.strict_respects
  simp only [journalEntryShape, List.forall_mem_cons, text, pattern, Schema.string_respects,
    Schema.literal_respects, Schema.enum_respects, Schema.optional_respects (Schema.string_respects _),
    Schema.array_respects hposting, true_and]
  exact nofun

theorem journal_keeps : (Schema.strict (journalEntryShape rt)).Keeps := by
  have hposting : (Schema.strict journalPostingShape).Keeps := by
    apply Schema.strict_keeps
    · show ["accountCode", "accountType", "side", "amount"].Nodup
      decide
    · simp only [journalPostingShape, List.forall_mem_cons, text, pattern, Schema.string_keeps,
        Schema.enum_keeps, true_and]
      exact nofun
  apply Schema.strict_keeps
  · show journalKeys.Nodup
    decide
  · simp only [journalEntryShape, List.forall_mem_cons, text, pattern, Schema.string_keeps,
      Schema.literal_keeps, Schema.enum_keeps, Schema.optional_keeps (Schema.string_keeps _),
      Schema.array_keeps hposting, true_and]
    exact nofun

theorem withdrawal_respects : (Schema.strict (withdrawalStateChangedShape rt)).Respects := by
  apply Schema.strict_respects
  simp only [withdrawalStateChangedShape, List.forall_mem_cons, text, pattern, integer,
    Schema.string_respects, Schema.literal_respects, Schema.enum_respects, Schema.number_respects,
    Schema.optional_respects (Schema.string_respects _), true_and]
  exact nofun

theorem withdrawal_keeps : (Schema.strict (withdrawalStateChangedShape rt)).Keeps := by
  apply Schema.strict_keeps
  · show withdrawalKeys.Nodup
    decide
  · simp only [withdrawalStateChangedShape, List.forall_mem_cons, text, pattern, integer,
      Schema.string_keeps, Schema.literal_keeps, Schema.enum_keeps, Schema.number_keeps,
      Schema.optional_keeps (Schema.string_keeps _), true_and]
    exact nofun

end

/-! ## envelopes that come back -/

section
variable (rt : Runtime) (hmac : List Char → String)

/-- An envelope that is serialised, reordered at every level and parsed is accepted and verifies, as
it is and as the schema gives it back; and where the signature is the envelope's and a signed field
is not, it does not verify. -/
def Sealed (fields : List (String × Js)) : Prop :=
  ∀ es, Json.Valid (.object es) → some (value (.object es)) = (Js.toJson (.object fields)).map value →
    (∃ ps, parseLedgerContract rt (.object es) = .ok (.object ps) ∧
      verifyLedgerContractSignature rt hmac (Js.ofJsonFields ps) = true) ∧
    verifyLedgerContractSignature rt hmac (Js.ofJsonFields es) = true ∧
    (Unforged hmac (signedText rt fields) → ∀ es', Json.Valid (.object es') →
      (es'.lookup "signature").map value = (es.lookup "signature").map value →
      (∃ key ≠ "signature", (es'.lookup key).map value ≠ (es.lookup key).map value) →
      verifyLedgerContractSignature rt hmac (Js.ofJsonFields es') = false ∧
      ∀ ps', parseLedgerContract rt (.object es') = .ok (.object ps') →
        verifyLedgerContractSignature rt hmac (Js.ofJsonFields ps') = false)

/-- the envelopes the builders give back; the numbers in their input are numbers of JavaScript -/
inductive Built : List (String × Js) → Prop
  | deposit (input : DepositStateChange) (c : DepositStateChangedContract)
      (number : Js.Valid (.number input.blockNumber))
      (built : buildDepositStateChangedContract (withSecret rt hmac) input = .ok c) :
      Built (depositFields c)
  | journal (input : JournalEntry) (c : JournalEntryContract)
      (built : buildJournalEntryContract rt hmac input = .ok c) : Built (journalFields c)
  | withdrawal (w : Withdrawal) (occurredAt : String) (c : WithdrawalStateChangedContract)
      (count : Js.Valid (.number (.ofInt w.approvalCount)))
      (required : Js.Valid (.number w.requiredApprovals))
      (built : buildWithdrawalStateChangedContract (withSecret rt hmac) w occurredAt = .ok c) :
      Built (withdrawalFields c)

end

section
variable {rt : Runtime} {hmac : List Char → String} {fields payload : List (String × Js)}

theorem fieldValue_ofJson {es : List (String × Json)} (h : Json.Valid (.object es)) (key : String) :
    fieldValue (Js.ofJsonFields es) key = (es.lookup key).map value := by
  unfold fieldValue
  rw [Js.ofJsonFields_eq, lookup_mapValues]
  cases hv : es.lookup key with
  | none => rfl
  | some v =>
    show (Js.toJson (Js.ofJson v)).map value = some (value v)
    rw [Js.toJson_ofJson ((Json.valid_object.mp h).2 _ (mem_of_lookup hv))]
    rfl

theorem verify_envelope (hfresh : "signature" ∉ names payload) :
    verifyLedgerContractSignature rt hmac (attachLedgerEnvelope rt hmac payload) = true := by
  have hissuer : "signature" ∉ names (payload ++ [("issuer", Js.string rt.systemId)]) := by
    intro hmem
    rw [names, List.map_append] at hmem
    rcases List.mem_append.mp hmem with hmem | hmem
    · exact hfresh hmem
    · have hne : "signature" ≠ "issuer" := by decide
      exact hne (List.mem_singleton.mp hmem)
  have hunsigned : unsigned (attachLedgerEnvelope rt hmac payload) =
      payload ++ [("issuer", .string rt.systemId)] := by
    unfold unsigned attachLedgerEnvelope
    rw [List.filter_append, List.filter_eq_self.mpr]
    · exact List.append_nil _
    · intro field hfield
      apply decide_eq_true
      rintro heq
      exact hissuer (heq ▸ List.mem_map_of_mem hfield)
  rw [verify_iff, hunsigned]
  unfold attachLedgerEnvelope
  rw [List.lookup_append, lookup_eq_none.mpr hissuer]
  rfl

/-- what the parser accepts it gives back, up to the order of keys -/
theorem parseLedgerContract_keeps {es : List (String × Json)} {p : Json} (hes : Json.Valid (.object es))
    (h : parseLedgerContract rt (.object es) = .ok p) :
    value p = value (.object es) ∧ Json.Valid p := by
  have hkeeps : ∀ s : Schema, s.Keeps → s.parse (.object es) = .ok p →
      value p = value (.object es) ∧ Json.Valid p := by
    intro s hs hparse
    obtain ⟨hissues, rfl⟩ := Schema.parse_ok.mp hparse
    obtain ⟨hvalue, hvalid⟩ := hs "" _ hissues
    exact ⟨hvalue, hvalid hes⟩
  unfold parseLedgerContract at h
  dsimp only at h
  split at h
  · exact hkeeps _ (deposit_keeps rt) h
  · split at h
    · exact hkeeps _ (journal_keeps rt) h
    · split at h
      · exact hkeeps _ (withdrawal_keeps rt) h
      · cases h

theorem valid_of_perm {a b : List (String × Js)} (h : Js.Valid (.object a)) (hp : a.Perm b) :
    Js.Valid (.object b) := by
  obtain ⟨hnd, hfields⟩ := Js.valid_object.mp h
  exact Js.valid_object.mpr
    ⟨(names_perm hp).nodup_iff.mp hnd, fun field hfield => hfields field (hp.mem_iff.mpr hfield)⟩

theorem sealed_of_perm (hlocale : Total rt.localeLe) {shape : List (String × Schema)} {eventType : String}
    (hvalid : Js.Valid (.object fields)) (hp : fields.Perm (attachLedgerEnvelope rt hmac payload))
    (hfresh : "signature" ∉ names payload)
    (haccepted : (Schema.strict shape).issues "" (Js.toJson (.object fields)) = [])
    (htype : fields.lookup "eventType" = some (.string eventType))
    (hdispatch : ∀ es : List (String × Json), string? (es.lookup "eventType") = some eventType →
      parseLedgerContract rt (.object es) = (Schema.strict shape).parse (.object es))
    (hrespects : (Schema.strict shape).Respects) : Sealed rt hmac fields := by
  have henvelope := valid_of_perm hvalid hp
  have hverify : verifyLedgerContractSignature rt hmac fields = true := by
    refine verify_congr hlocale henvelope hvalid (fun key => ?_) (verify_envelope hfresh)
    unfold fieldValue
    rw [lookup_of_perm henvelope.1 hp.symm]
  intro es hes hsame
  have hfield : ∀ key, (es.lookup key).map value = fieldValue fields key := by
    rw [value_payload hvalid.1, value_object] at hsame
    exact congrFun (Value.object.inj (Option.some.inj hsame))
  -- a parsed object with the envelope's values verifies, one with others does not
  have hback : ∀ ps, Json.Valid (.object ps) →
      (∀ key, (ps.lookup key).map value = fieldValue fields key) →
      verifyLedgerContractSignature rt hmac (Js.ofJsonFields ps) = true := by
    intro ps hps hvalues
    refine verify_congr hlocale hvalid (Js.valid_ofJson hps) (fun key => ?_) hverify
    rw [fieldValue_ofJson hps, hvalues]
  refine ⟨?_, hback es hes hfield, fun hunforged es' hes' hsignature hchanged => ?_⟩
  · have hissues : (Schema.strict shape).issues "" (some (.object es)) = [] := by
      rw [hrespects "" (some (.object es)) (Js.toJson (.object fields)) hsame]
      exact haccepted
    have hstring : string? (es.lookup "eventType") = some eventType := by
      have hvalue := hfield "eventType"
      unfold fieldValue at hvalue
      rw [htype] at hvalue
      rw [Schema.string?_congr (b := some (.string eventType)) hvalue]
      rfl
    have hparse : parseLedgerContract rt (.object es) =
        .ok (.object (Schema.outputFields shape es)) := by
      rw [hdispatch es hstring]
      exact Schema.parse_ok.mpr ⟨hissues, rfl⟩
    obtain ⟨hvalue, hps⟩ := parseLedgerContract_keeps hes hparse
    refine ⟨_, hparse, hback _ hps fun key => ?_⟩
    rw [value_object_inj.mp hvalue, hfield]
  · have hforged : ∀ ps, Json.Valid (.object ps) →
        (∀ key, (ps.lookup key).map value = (es'.lookup key).map value) →
        verifyLedgerContractSignature rt hmac (Js.ofJsonFields ps) = false := by
      intro ps hps hvalues
      refine verify_changed hlocale hvalid (Js.valid_ofJson hps) hverify hunforged ?_ ?_
      · rw [fieldValue_ofJson hps, hvalues, hsignature, hfield]
      · obtain ⟨key, hkey, hne⟩ := hchanged
        refine ⟨key, hkey, ?_⟩
        rw [fieldValue_ofJson hps, hvalues, ← hfield]
        exact hne
    refine ⟨hforged es' hes' fun _ => rfl, fun ps' hparse => ?_⟩
    obtain ⟨hvalue, hps⟩ := parseLedgerContract_keeps hes' hparse
    exact hforged ps' hps (value_object_inj.mp hvalue)

theorem finite_of_integer {path : String} {sign : JsNumber → Bool} {n : JsNumber}
    (h : integerIssues path sign n = []) : ∃ x, n = .finite x := by
  obtain ⟨hinteger, -⟩ := integerIssues_nil.mp h
  cases n with
  | finite x => exact ⟨x, rfl⟩
  | _ => cases hinteger

theorem valid_posting (p : JournalPostingContract) : Js.Valid p.js := by
  refine Js.valid_object.mpr ⟨?_, ?_⟩
  · show ["accountCode", "accountType", "side", "amount"].Nodup
    decide
  · simp [valid_string]

theorem built_sealed (hlocale : Total rt.localeLe) (h : Built rt hmac fields) : Sealed rt hmac fields := by
  cases h with
  | deposit input c number built =>
    have hok := parseWith_ok.mp built
    obtain ⟨hissues, rfl⟩ := hok
    have hblock := hissues
    simp only [depositStateChangedIssues, List.append_eq_nil_iff] at hblock
    obtain ⟨x, hx⟩ := finite_of_integer hblock.1.2
    have hdouble : Binary64.Representable x := by
      rw [hx] at number
      exact number
    refine @sealed_of_perm rt hmac _ (depositPayload input) hlocale (depositStateChangedShape rt)
      "deposit.state.changed" ?_ (deposit_envelope hlocale hx hdouble built) ?_
      (deposit_accepted hx rfl rfl rfl hissues) rfl (fun es hes => ?_) (deposit_respects rt)
    · refine Js.valid_object.mpr ⟨?_, ?_⟩
      · show depositKeys.Nodup
        decide
      · simp [depositFields, valid_string, valid_number, hx, hdouble]
    · show "signature" ∉ depositEnvelopeKeys.take 12
      decide
    · unfold parseLedgerContract
      exact if_pos hes
  | journal input c built =>
    have henvelope := journal_envelope built
    have haccepted := journal_accepted built
    obtain ⟨-, rfl⟩ := parseWith_ok.mp built
    refine @sealed_of_perm rt hmac _ (journalPayload input) hlocale (journalEntryShape rt)
      "ledger.journal.recorded" ?_ henvelope ?_ haccepted rfl (fun es hes => ?_) (journal_respects rt)
    · refine Js.valid_object.mpr ⟨?_, ?_⟩
      · show journalKeys.Nodup
        decide
      · have hpostings : Js.Valid (.array (input.postings.map JournalPostingContract.js)) := by
          rw [Js.valid_array]
          intro v hv
          obtain ⟨p, -, rfl⟩ := List.mem_map.mp hv
          exact valid_posting p
        simp [journalFields, valid_string, valid_ofOption, hpostings]
    · show "signature" ∉ journalEnvelopeKeys.take 9
      decide
    · unfold parseLedgerContract
      have hne : ¬string? (es.lookup "eventType") = some "deposit.state.changed" := by
        rw [hes]
        decide
      exact (if_neg hne).trans (if_pos hes)
  | withdrawal w occurredAt c count required built =>
    have hok := parseWith_ok.mp built
    obtain ⟨hissues, rfl⟩ := hok
    have hrequired := hissues
    simp only [withdrawalStateChangedIssues, List.append_eq_nil_iff] at hrequired
    obtain ⟨x, hx⟩ := finite_of_integer hrequired.1.1.1.2
    have hdouble : Binary64.Representable x := by
      rw [hx] at required
      exact required
    have hcount : Binary64.Representable w.approvalCount := by
      have hcount' : Binary64.Representable ((w.approvalCount : ℤ) : ℚ) := count
      push_cast at hcount'
      exact hcount'
    refine @sealed_of_perm rt hmac _ (withdrawalPayload w occurredAt) hlocale
      (withdrawalStateChangedShape rt) "withdrawal.state.changed" ?_
      (withdrawal_envelope hlocale hx hdouble hcount built) ?_
      (withdrawal_accepted hx rfl rfl rfl hissues) rfl (fun es hes => ?_) (withdrawal_respects rt)
    · refine Js.valid_object.mpr ⟨?_, ?_⟩
      · show withdrawalKeys.Nodup
        decide
      · simp [withdrawalFields, valid_string, valid_ofOption, valid_number, hx, hdouble, count]
    · show "signature" ∉ withdrawalEnvelopeKeys.take 14
      decide
    · unfold parseLedgerContract
      have hne : ¬string? (es.lookup "eventType") = some "deposit.state.changed" := by
        rw [hes]
        decide
      have hne' : ¬string? (es.lookup "eventType") = some "ledger.journal.recorded" := by
        rw [hes]
        decide
      exact (if_neg hne).trans ((if_neg hne').trans (if_pos hes))

/-- Canonical texts are equal exactly when the values are equal as JSON up to key order; and every
envelope a builder gives back is sealed. -/
theorem signed_contracts (rt : Runtime) (hlocale : Total rt.localeLe) (hmac : List Char → String) :
    (∀ v w : Js, v.Valid → w.Valid →
      ((Js.sortValue rt.localeLe v).stringify = (Js.sortValue rt.localeLe w).stringify ↔
        v.toJson.map value = w.toJson.map value)) ∧
    ∀ fields, Built rt hmac fields → Sealed rt hmac fields :=
  ⟨fun _ _ hv hw => Js.stringify_sortValue_iff hlocale hv hw, fun _ h => built_sealed hlocale h⟩

end

/-! ## an envelope -/

def exampleDeposit : DepositStateChange where
  depositId := "dep-1"
  userId := "user-1"
  walletAddress := "TWallet"
  txHash := "0123456789"
  toAddress := "THot"
  status := .completed
  amount := 2500000
  blockNumber := 7
  occurredAt := "2026-01-01T00:00:00.000Z"

def exampleSignature (c : Char) : String := String.ofList (List.replicate 64 c)

def exampleContract : DepositStateChangedContract where
  schemaVersion := LEDGER_SCHEMA_VERSION
  eventType := "deposit.state.changed"
  issuer := "korion"
  signature := exampleSignature '0'
  depositId := "dep-1"
  userId := "user-1"
  walletAddress := "TWallet"
  txHash := "0123456789"
  toAddress := "THot"
  status := .completed
  amount := "2.500000"
  currency := "KORI"
  blockNumber := 7
  occurredAt := "2026-01-01T00:00:00.000Z"

/-- a secret under which that contract has a signature no other text has -/
def exampleHmac (t : List Char) : String :=
  if t = signedText .numbered (depositFields exampleContract) then exampleSignature '0'
  else exampleSignature '1'

theorem numbered_total : Total Runtime.numbered.localeLe where
  trans a b c hab hbc := by
    have hab' : a ≤ b := of_decide_eq_true hab
    have hbc' : b ≤ c := of_decide_eq_true hbc
    exact decide_eq_true (String.le_trans hab' hbc')
  total a b := by
    rw [Bool.or_eq_true]
    exact (String.le_total a b).imp decide_eq_true decide_eq_true
  antisymm a b hab hba := by
    have hab' : a ≤ b := of_decide_eq_true hab
    have hba' : b ≤ a := of_decide_eq_true hba
    exact String.le_antisymm hab' hba'

/-- the text the builder signs is the one the receiver signs -/
theorem exampleContract_sign : (withSecret .numbered exampleHmac).sign
    (exampleDeposit.unsigned (withSecret .numbered exampleHmac)) = exampleSignature '0' := by
  let keys := ["schemaVersion", "eventType", "issuer", "depositId", "userId", "walletAddress", "txHash",
    "toAddress", "status", "amount", "currency", "blockNumber", "occurredAt"]
  have hnames : keys.Nodup := by decide
  have hperm : (unsigned (depositFields exampleContract)).Perm
      (depositPayload exampleDeposit ++ [("issuer", .string "korion")]) := by
    have hamount : formatKoriAmount 2500000 = "2.500000" := by decide +kernel
    apply @perm_of_fields _ _ keys depositEnvelopeKeys.dropLast rfl rfl hnames (by decide)
    simp only [keys, List.forall_mem_cons]
    refine ⟨rfl, rfl, rfl, rfl, rfl, rfl, rfl, rfl, rfl, ?_, rfl, rfl, rfl, nofun⟩
    exact congrArg (fun s => some (Js.string s)) hamount.symm
  have hdouble : Binary64.Representable 7 := ⟨7, 0, by norm_num, by norm_num, by norm_num⟩
  have hvalid : Js.Valid (.object (unsigned (depositFields exampleContract))) := by
    refine Js.valid_object.mpr ⟨hnames, ?_⟩
    have hnumber : Js.Valid (.number 7) := hdouble
    simp [depositFields, exampleContract, valid_string, unsigned, hnumber]
  have hjson : Js.toJson (.object (depositPayload exampleDeposit ++ [("issuer", .string "korion")])) =
      some (exampleDeposit.unsigned (withSecret .numbered exampleHmac)) :=
    toJson_deposit (withSecret .numbered exampleHmac) exampleDeposit 7 rfl
  rw [withSecret_sign numbered_total (valid_of_perm hvalid hperm) hjson,
    ← sign_congr numbered_total hvalid (valid_of_perm hvalid hperm) fun key => ?_]
  · show exampleHmac (signedText .numbered (depositFields exampleContract)) = _
    exact if_pos rfl
  · unfold fieldValue
    rw [lookup_of_perm hvalid.1 hperm]

theorem exampleContract_built : Built .numbered exampleHmac (depositFields exampleContract) := by
  refine Built.deposit exampleDeposit exampleContract ⟨7, 0, by norm_num, by norm_num, by norm_num⟩ ?_
  have hamount : formatKoriAmount exampleDeposit.amount = "2.500000" := by decide +kernel
  refine parseWith_ok.mpr ?_
  rw [exampleContract_sign, hamount]
  exact ⟨by decide +kernel, rfl⟩

theorem exampleHmac_unforged :
    Unforged exampleHmac (signedText .numbered (depositFields exampleContract)) := by
  intro other h
  by_contra hne
  unfold exampleHmac at h
  rw [if_neg hne, if_pos rfl] at h
  revert h
  decide

/-- two orders of one value, and an envelope with a field changed -/
theorem signed_contracts_example :
    (Js.sortValue Runtime.numbered.localeLe (.object [("b", .null), ("a", .array [.bool true])])).stringify =
      (Js.sortValue Runtime.numbered.localeLe (.object [("a", .array [.bool true]), ("b", .null)])).stringify ∧
    Sealed .numbered exampleHmac (depositFields exampleContract) ∧
    Unforged exampleHmac (signedText .numbered (depositFields exampleContract)) := by
  obtain ⟨htexts, hsealed⟩ := signed_contracts .numbered numbered_total exampleHmac
  refine ⟨(htexts _ _ ?_ ?_).mpr ?_, hsealed _ exampleContract_built, exampleHmac_unforged⟩
  · simp [Js.Valid, Js.ValidFields, Js.ValidItems, names]
  · simp [Js.Valid, Js.ValidFields, Js.ValidItems, names]
  · rw [Js.value_toJson_object (by decide), Js.value_toJson_object (by decide)]
    congr 2
    funext key
    simp only [lookup_cons_eq, List.lookup_nil]
    split <;> split <;> simp_all

end Contracts
