import Keyserver.SampleDeployment
import Keyserver.StoreProvenance

namespace Keyserver.KeyPreimage
open SharedPrograms SharedPools Authentication KeyProtocol KeyRequests ServerProtocol StoreProvenance SampleDeployment

-- What secp256k1 promises of its two functions: whatever encoding was parsed,
-- `serialize` gives the compressed one, of 33 bytes.
structure Compresses (crates : Crates) : Prop where
  serialized : ∀ raw key, crates.publicKeyFromSlice raw = some key → (crates.publicKeySerialize key).length = 33
  compressed : ∀ raw key, crates.publicKeyFromSlice raw = some key → raw.length = 33 → crates.publicKeySerialize key = raw

-- Hash160 does not take an encoding and the compressed one of its key to one hash.
def Distinct (crates : Crates) (raw : Bytes) : Prop :=
  ∀ key, crates.publicKeyFromSlice raw = some key → crates.hash160 raw = crates.hash160 (crates.publicKeySerialize key) →
    raw = crates.publicKeySerialize key

def Compressed (metadata : AddressMetadata) : Prop := metadata.pubKey.length = 33

structure Preimages (d : Deployment) (s : ServerPool) : Prop where
  stored : ∀ key raw, s.shared.db key = some raw →
    ∃ metadata, d.crates.decodeMetadata raw = some metadata ∧ d.crates.hash160 metadata.pubKey = key
  served : ∀ (i : Nat) request addrStr resp, s.threads[i]? = some ⟨request,.done (.http resp)⟩ → Gets d request addrStr →
    ∃ addr metadata, d.crates.decodeAddress addrStr = .ok addr ∧ d.crates.decodeMetadata resp.body = some metadata ∧
      d.crates.hash160 metadata.pubKey = addr.body

variable {d : Deployment} {clock : Clock} {s : ServerPool}

theorem signed_preimage {crates : Crates} {body : Bytes} {metadata : AddressMetadata} (compresses : Compresses crates)
    (signed : Signed crates body metadata) (compressed : Compressed metadata) : crates.hash160 metadata.pubKey = body := by
  obtain ⟨key,sig,msg,parsed,hashed,-⟩ := signed
  rw [← hashed,compresses.compressed _ _ parsed compressed]

theorem preimage_compressed {crates : Crates} {body : Bytes} {metadata : AddressMetadata} (compresses : Compresses crates)
    (signed : Signed crates body metadata) (distinct : Distinct crates metadata.pubKey)
    (preimage : crates.hash160 metadata.pubKey = body) : Compressed metadata := by
  obtain ⟨key,sig,msg,parsed,hashed,-⟩ := signed
  rw [Compressed,distinct key parsed (preimage.trans hashed.symm)]
  exact compresses.serialized _ _ parsed

-- Where only compressed keys come in, whatever is put hashes to the key it is put under.
theorem put_preimage (codec : d.crates.RoundTrips) (compresses : Compresses d.crates)
    (path : Reached (server d) (BringsOnly d Compressed) (Shared.empty clock) s) {i : Nat} {key raw : Bytes}
    (put : (i,⟨.dbPut key raw,.ok ()⟩) ∈ s.log) :
    ∃ metadata, d.crates.decodeMetadata raw = some metadata ∧ d.crates.hash160 metadata.pubKey = key := by
  obtain ⟨metadata,payload,rfl,attested,compressed⟩ := put_valid path put
  exact ⟨metadata,codec metadata,signed_preimage compresses attested.signed compressed⟩

theorem compressed_preimages (codec : d.crates.RoundTrips) (compresses : Compresses d.crates)
    (path : Reached (server d) (BringsOnly d Compressed) (Shared.empty clock) s) : Preimages d s := by
  constructor
  · intro key raw stored
    obtain ⟨i,put⟩ := stored_put path stored
    exact put_preimage codec compresses path put
  · intro i request addrStr resp ended gets
    have follows := reached_follows (handle_serves d) path ended
    rw [follows_done] at follows
    obtain ⟨addr,metadata,raw,addressed,read,decoded,rfl⟩ := follows addrStr resp gets rfl
    obtain ⟨j,put⟩ := read_put path (mem_history.mp read)
    obtain ⟨stored,decoded',preimage⟩ := put_preimage codec compresses path put
    obtain rfl := Option.some.inj (decoded.symm.trans decoded')
    exact ⟨addr,metadata,addressed,codec metadata,preimage⟩

-- The accepted key hashes to its address exactly when it came compressed, and
-- where only such keys come in, so does every key stored or served.
theorem preimage_iff (codec : d.crates.RoundTrips) (compresses : Compresses d.crates) :
    (∀ addr metadata, validate d.crates (secp256k1 d.crates) addr metadata = .done () → Distinct d.crates metadata.pubKey →
      (d.crates.hash160 metadata.pubKey = addr.body ↔ Compressed metadata)) ∧
    ∀ clock s, Reached (server d) (BringsOnly d Compressed) (Shared.empty clock) s → Preimages d s := by
  constructor
  · intro addr metadata accepted distinct
    have signed := validate_done.mp accepted
    exact ⟨preimage_compressed compresses signed distinct,signed_preimage compresses signed⟩
  · intro clock s path
    exact compressed_preimages codec compresses path

-- The other encoding of the owner's key, and its hash.
def ownerPoint : Bytes :=
  [4,121,190,102,126,249,220,187,172,85,160,98,149,206,135,11,7,2,155,252,219,45,206,40,217,89,242,129,91,22,
   248,23,152,72,58,218,119,38,163,196,101,93,164,251,252,14,17,8,168,253,23,180,72,166,133,84,25,156,71,208,
   143,251,16,212,184]

def pointHash : Bytes := [145,178,75,249,245,40,133,50,150,10,198,135,171,176,53,18,123,29,40,165]

def pointCrates : Crates :=
  {crates with
    hash160 := fun raw => if raw = ownerPoint then pointHash else crates.hash160 raw
    publicKeyFromSlice := fun raw =>
      if raw = ownerPoint then crates.publicKeyFromSlice ownerKey else crates.publicKeyFromSlice raw}

def pointDeployment : Deployment := {deployment false with crates := pointCrates}

theorem point_parsed {raw : Bytes} {key : pointCrates.Secp256k1PublicKey}
    (parsed : pointCrates.publicKeyFromSlice raw = some key) :
    pointCrates.publicKeySerialize key = ownerKey ∧ (raw = ownerPoint ∨ raw = ownerKey) := by
  have parsed : (if raw = ownerPoint then some ownerKey else if raw = ownerKey then some raw else none) = some key := parsed
  split at parsed
  · rename_i point
    exact ⟨(Option.some.inj parsed).symm,.inl point⟩
  · split at parsed
    · rename_i same
      exact ⟨(Option.some.inj parsed).symm.trans same,.inr same⟩
    · cases parsed

theorem point_compresses : Compresses pointCrates := by
  constructor
  · intro raw key parsed
    rw [(point_parsed parsed).1]
    rfl
  · intro raw key parsed length
    obtain ⟨serialized,point | same⟩ := point_parsed parsed
    · subst point
      cases length
    · exact serialized.trans same.symm

def compressedPut (_ : ServerPool) : Act Reply Request Clock → Bool
  | .arrive (.putKey _ payload) =>
    ((collected payload).bind pointCrates.decodeMetadata).all fun metadata => metadata.pubKey.length = 33
  | .arrive (.keys _) => false
  | .perform _ ⟨.httpGet _,_⟩ => false
  | _ => true

theorem compressedPut_brings (s : ServerPool) (act : Act Reply Request Clock) (passed : compressedPut s act = true) :
    BringsOnly pointDeployment Compressed s act := by
  cases act with
  | arrive request =>
    intro addrStr payload addr metadata content puts met
    cases puts with
    | direct =>
      have decoded : (collected payload).bind pointCrates.decodeMetadata = some metadata := met.decoded
      simpa [compressedPut,decoded,Compressed] using passed
    | routed => cases passed
  | perform i event =>
    intro peerAddr url raw addr metadata payload asked fetched
    subst fetched
    cases passed
  | surroundings clock => trivial

def putThenGet (known : AddressMetadata) : List (Turn Request Clock) :=
  [.arrive (.putKey ownerAddress [.ok (WireMessages.encodeMetadata known)]),.thread 0,.thread 0,
    .arrive (.getKey ownerAddress),.thread 1,.thread 1]

theorem owner_preimage : pointCrates.hash160 ownerKey = ownerHash ∧
    ∃ s : ServerPool, s.shared.db ownerHash = some (body 1 early) ∧ Preimages pointDeployment s := by
  have codec : pointDeployment.crates.RoundTrips := WireMessages.decode_encodeMetadata
  obtain ⟨exact,preimages⟩ := preimage_iff codec point_compresses
  constructor
  · have accepted : validate pointDeployment.crates (secp256k1 pointDeployment.crates) {body := ownerHash}
        (signed 1 early) = .done () :=
      validate_done.mpr ⟨ownerKey,early.signature,early.digest,rfl,rfl,rfl,rfl,by decide +kernel⟩
    refine (exact _ _ accepted ?_).mpr rfl
    intro key parsed _
    exact (point_parsed parsed).1.symm
  · have done : ((server pointDeployment).drive (SoloRuns.reply calm) compressedPut (putThenGet (signed 1 early))
        (.start (Shared.empty epoch))).map (fun s => s.shared.db ownerHash) = some (some (body 1 early)) := by decide +kernel
    obtain ⟨s,driven,stored⟩ := Option.map_eq_some_iff.mp done
    exact ⟨s,stored,preimages epoch s (drive_reached compressedPut_brings .start driven)⟩

def pointed : AddressMetadata := {signed 1 early with pubKey := ownerPoint}

-- The same key in its other encoding is accepted, stored and served, and does
-- not hash to the address it is served for.
theorem point_served : validate pointCrates (secp256k1 pointCrates) {body := ownerHash} pointed = .done () ∧
    pointCrates.hash160 pointed.pubKey ≠ ownerHash ∧
    ∃ s : ServerPool, Reached (server pointDeployment) (fun _ _ => True) (Shared.empty epoch) s ∧
      s.shared.db ownerHash = some (WireMessages.encodeMetadata pointed) ∧
      s.returned 1 = some (.http {status := .ok,body := WireMessages.encodeMetadata pointed}) := by
  refine ⟨?_,by decide +kernel,?_⟩
  · exact validate_done.mpr ⟨ownerKey,early.signature,early.digest,rfl,rfl,rfl,rfl,by decide +kernel⟩
  · have done : (driven pointDeployment (putThenGet pointed)).map (fun s => (s.shared.db ownerHash,s.returned 1)) =
        some (some (WireMessages.encodeMetadata pointed),
          some (.http {status := .ok,body := WireMessages.encodeMetadata pointed})) := by decide +kernel
    obtain ⟨s,driven,ended⟩ := Option.map_eq_some_iff.mp done
    simp only [Prod.mk.injEq] at ended
    exact ⟨s,driven_reached driven,ended.1,ended.2⟩

end Keyserver.KeyPreimage
