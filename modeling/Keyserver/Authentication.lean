import Keyserver.ServerOps

namespace Keyserver.Authentication
open SharedPrograms SharedPrograms.Program

-- The traits `PublicKey`, `Signature` and `SigScheme` as one record.
structure SigScheme where
  PublicKey : Type
  Signature : Type
  serialize : PublicKey → Bytes
  deserializeKey : Bytes → Except CryptoError PublicKey
  deserializeSig : Bytes → Except CryptoError Signature
  verify : Bytes → PublicKey → Signature → Prog CryptoError Unit

variable (crates : Crates)

def toRawAddress (scheme : SigScheme) (key : scheme.PublicKey) : Bytes :=
  crates.hash160 (scheme.serialize key)

-- `Message::from_slice` refuses some digests, and the call unwraps its answer.
def secp256k1 : SigScheme where
  PublicKey := crates.Secp256k1PublicKey
  Signature := crates.Secp256k1Signature
  serialize := crates.publicKeySerialize
  deserializeKey raw := match crates.publicKeyFromSlice raw with
    | some key => .ok key
    | none => .error .pubkeyDeserialization
  deserializeSig raw := match crates.signatureFromCompact raw with
    | some sig => .ok sig
    | none => .error .sigDeserialization
  verify msg key sig := do
    let msg ← unwrap .message (crates.messageFromSlice msg)
    if crates.secp256k1Verify msg sig key then .done () else .throw .verification

def validate (scheme : SigScheme) (addr : Address) (metadata : AddressMetadata) : Prog ValidationError Unit := do
  let metaPk ← (fromResult (scheme.deserializeKey metadata.pubKey)).mapError .crypto
  let metaAddr := toRawAddress crates scheme metaPk
  if metaAddr ≠ addr.body then .throw .preimage else do
    let payloadDigest := crates.sha256 metadata.serializedPayload
    let sig ← (fromResult (scheme.deserializeSig metadata.signature)).mapError .crypto
    (scheme.verify payloadDigest metaPk sig).mapError .crypto

-- Only the holder of the key that hashes to `body` can have signed this.
def Signed (body : Bytes) (metadata : AddressMetadata) : Prop :=
  ∃ key sig msg, crates.publicKeyFromSlice metadata.pubKey = some key ∧
    crates.hash160 (crates.publicKeySerialize key) = body ∧
    crates.signatureFromCompact metadata.signature = some sig ∧
    crates.messageFromSlice (crates.sha256 metadata.serializedPayload) = some msg ∧
    crates.secp256k1Verify msg sig key = true

variable {crates} {addr : Address} {metadata : AddressMetadata}

theorem validate_done : validate crates (secp256k1 crates) addr metadata = .done () ↔
    Signed crates addr.body metadata := by
  unfold validate Signed
  cases parsed : crates.publicKeyFromSlice metadata.pubKey with
  | none => simp [secp256k1,parsed]
  | some key =>
    cases hashed : decide (crates.hash160 (crates.publicKeySerialize key) = addr.body) with
    | false =>
      have differs := of_decide_eq_false hashed
      simp [secp256k1,parsed,toRawAddress,differs]
    | true =>
      have same := of_decide_eq_true hashed
      cases compact : crates.signatureFromCompact metadata.signature with
      | none => simp [secp256k1,parsed,toRawAddress,same,compact]
      | some sig =>
        cases digest : crates.messageFromSlice (crates.sha256 metadata.serializedPayload) with
        | none => simp [secp256k1,parsed,toRawAddress,same,compact,digest]
        | some msg =>
          cases verified : crates.secp256k1Verify msg sig key <;>
            simp [secp256k1,parsed,toRawAddress,same,compact,digest,verified]

theorem validate_stops (crates : Crates) (addr : Address) (metadata : AddressMetadata) :
    ∃ outcome, validate crates (secp256k1 crates) addr metadata = .stop outcome ∧
      ∀ fault, outcome = .panicked fault → fault = .message := by
  unfold validate
  cases parsed : crates.publicKeyFromSlice metadata.pubKey with
  | none => exact ⟨.thrown (.crypto .pubkeyDeserialization),by simp [secp256k1,parsed,stop],by simp⟩
  | some key =>
    by_cases same : crates.hash160 (crates.publicKeySerialize key) = addr.body
    · cases compact : crates.signatureFromCompact metadata.signature with
      | none =>
        refine ⟨.thrown (.crypto .sigDeserialization),?_,by simp⟩
        simp [secp256k1,parsed,toRawAddress,same,compact,stop]
      | some sig =>
        cases digest : crates.messageFromSlice (crates.sha256 metadata.serializedPayload) with
        | none =>
          refine ⟨.panicked .message,?_,by simp⟩
          simp [secp256k1,parsed,toRawAddress,same,compact,digest,stop]
        | some msg =>
          cases verified : crates.secp256k1Verify msg sig key with
          | true =>
            refine ⟨.returned (),?_,by simp⟩
            simp [secp256k1,parsed,toRawAddress,same,compact,digest,verified,stop]
          | false =>
            refine ⟨.thrown (.crypto .verification),?_,by simp⟩
            simp [secp256k1,parsed,toRawAddress,same,compact,digest,verified,stop]
    · refine ⟨.thrown .preimage,?_,by simp⟩
      simp [secp256k1,parsed,toRawAddress,same,stop]

end Keyserver.Authentication
