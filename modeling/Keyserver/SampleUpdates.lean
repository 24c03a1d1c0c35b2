import Keyserver.KeyRequests
import Keyserver.SampleDeployment

namespace Keyserver.SampleUpdates
open SampleDeployment KeyRequests

-- Two more payloads signed by the same owner: one whose expiry does not fit an
-- i64, one as old as the late one.
def endless : SignedPayload where
  payload := ⟨9223372036854775807,1,[]⟩
  raw := [8,255,255,255,255,255,255,255,255,127,16,1]
  digest :=
    [40,99,3,37,57,110,95,45,174,24,214,158,81,228,223,29,165,210,5,42,67,211,18,142,65,111,216,7,216,8,
     47,233]
  signature :=
    [199,255,43,198,126,203,107,235,172,32,162,28,81,148,79,171,192,137,122,184,48,37,161,235,211,86,
     171,239,8,168,192,213,125,225,166,146,222,61,75,72,82,151,0,117,91,127,9,14,160,185,68,93,137,167,
     108,93,138,220,86,230,99,146,50,242]

def rival : SignedPayload where
  payload := ⟨200,2000,[]⟩
  raw := [8,200,1,16,208,15]
  digest :=
    [103,115,98,166,188,6,166,215,223,4,68,243,233,144,34,116,197,107,122,204,70,152,191,220,130,232,216,
     208,39,196,225,139]
  signature :=
    [120,83,202,96,44,14,11,114,147,9,178,180,114,46,27,214,174,166,119,56,1,6,111,90,154,236,216,39,69,
     248,81,101,115,214,208,221,87,73,154,154,140,60,162,186,26,13,83,239,162,220,222,122,33,105,119,43,
     111,214,139,241,235,173,150,103]

def more : List SignedPayload := [endless,rival]

def moreCrates : Crates :=
  {crates with
    sha256 := fun raw => ((more.map fun known => (known.raw,known.digest)).lookup raw).getD (crates.sha256 raw)
    secp256k1Verify := fun (msg sig key : Bytes) =>
      crates.secp256k1Verify msg sig key ||
        (key == ownerKey && more.any fun known => known.digest == msg && known.signature == sig)}

def moreDeployment (overflowChecks : Bool) : Deployment := {deployment overflowChecks with crates := moreCrates}

theorem more_roundTrips : moreCrates.RoundTrips := WireMessages.decode_encodeMetadata

theorem more_signed {known : SignedPayload} (listed : known ∈ [late,long,rival]) :
    Authentication.Signed moreCrates ownerHash (signed 1 known) := by
  simp only [List.mem_cons,List.not_mem_nil,or_false] at listed
  rcases listed with rfl | rfl | rfl
  · exact ⟨ownerKey,late.signature,late.digest,rfl,rfl,rfl,rfl,by decide +kernel⟩
  · exact ⟨ownerKey,long.signature,long.digest,rfl,rfl,rfl,rfl,by decide +kernel⟩
  · exact ⟨ownerKey,rival.signature,rival.digest,rfl,rfl,rfl,rfl,by decide +kernel⟩

theorem more_admitted {known : SignedPayload} (listed : known ∈ [late,long,rival]) :
    Admitted (moreDeployment false) ownerAddress [.ok (body 1 known)] {body := ownerHash} (signed 1 known) known.payload := by
  refine ⟨?_,rfl,rfl,more_signed listed,?_⟩
  · simp only [collected,Option.map_some,List.append_nil,Option.bind_some]
    exact more_roundTrips (signed 1 known)
  · simp only [List.mem_cons,List.not_mem_nil,or_false] at listed
    rcases listed with rfl | rfl | rfl <;> decide +kernel

end Keyserver.SampleUpdates
