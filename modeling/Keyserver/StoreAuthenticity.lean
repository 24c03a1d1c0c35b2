import Keyserver.ServerProtocol
import Keyserver.SampleDeployment

namespace Keyserver.StoreAuthenticity
open SharedPrograms SharedPools Authentication KeyDb KeyProtocol KeyRequests ServerProtocol SampleDeployment

variable {d : Deployment} {meets : ServerPool → Act Reply Request Clock → Prop} {origin : Shared} {clock : Clock} {s : ServerPool}

theorem put_attested (path : Reached (server d) meets origin s) {i : Nat} {key raw : Bytes}
    (put : (i,⟨.dbPut key raw,.ok ()⟩) ∈ s.log) :
    ∃ metadata payload, Attested d key metadata payload ∧ raw = d.crates.encodeMetadata metadata := by
  obtain ⟨before,after,logged⟩ := List.append_of_mem put
  obtain ⟨request,known,permitted⟩ := reached_permitted (handle_follows d) path logged
  obtain ⟨metadata,payload,attested,encoded,-⟩ := permits_put permitted
  exact ⟨metadata,payload,attested,encoded⟩

-- Every stored pair was signed by the holder of the key it is stored under.
def Authentic (d : Deployment) (db : Bytes → Option Bytes) : Prop :=
  ∀ key raw, db key = some raw → ∃ metadata, d.crates.decodeMetadata raw = some metadata ∧ Signed d.crates key metadata ∧
    ∀ addr : Address, addr.body = key → validate d.crates (secp256k1 d.crates) addr metadata = .done ()

theorem reached_authentic (codec : d.crates.RoundTrips)
    (path : Reached (server d) (fun _ _ => True) (Shared.empty clock) s) : Authentic d s.shared.db := by
  intro key raw stored
  obtain ⟨i,put⟩ := stored_put path stored
  obtain ⟨metadata,payload,attested,rfl⟩ := put_attested path put
  refine ⟨metadata,codec metadata,attested.signed,?_⟩
  intro addr same
  rw [validate_done,same]
  exact attested.signed

theorem owner_authentic : ∃ s : ServerPool, s.shared.db ownerHash = some (body 1 early) ∧
    Authentic (deployment false) s.shared.db := by
  have done : (driven (deployment false) [.arrive (putOwner early),.thread 0,.thread 0]).map
      (fun s => s.shared.db ownerHash) = some (some (body 1 early)) := by decide +kernel
  obtain ⟨s,reached,stored⟩ := Option.map_eq_some_iff.mp done
  exact ⟨s,stored,reached_authentic (WireMessages.onWire_roundTrips _) (driven_reached reached)⟩

def Decodes (d : Deployment) (raw : Bytes) : Prop :=
  ∃ metadata payload, d.crates.decodeMetadata raw = some metadata ∧
    d.crates.decodePayload metadata.serializedPayload = some payload

theorem decodes_readable {raw : Bytes} (decodes : Decodes d raw) : Readable d raw := by
  obtain ⟨metadata,payload,decoded,read⟩ := decodes
  simp [Readable,storedPayload,decoded,read]

theorem put_decodes (codec : d.crates.RoundTrips) (path : Reached (server d) meets origin s) {i : Nat}
    {key raw : Bytes} (put : (i,⟨.dbPut key raw,.ok ()⟩) ∈ s.log) : Decodes d raw := by
  obtain ⟨metadata,payload,attested,rfl⟩ := put_attested path put
  exact ⟨metadata,payload,codec metadata,attested.payload⟩

theorem put_readable (codec : d.crates.RoundTrips) (path : Reached (server d) meets origin s) {i : Nat} {key raw : Bytes}
    (put : (i,⟨.dbPut key raw,.ok ()⟩) ∈ s.log) : Readable d raw := decodes_readable (put_decodes codec path put)

theorem stored_readable (codec : d.crates.RoundTrips) (path : Reached (server d) meets (Shared.empty clock) s) {key raw : Bytes}
    (stored : s.shared.db key = some raw) : Readable d raw := by
  obtain ⟨i,put⟩ := stored_put path stored
  exact put_readable codec path put

-- No thread ever stops at a decode `unwrap`, the compaction's included.
theorem reached_unwraps (codec : d.crates.RoundTrips)
    (path : Reached (server d) (fun _ _ => True) (Shared.empty clock) s) :
    (∀ key raw, s.shared.db key = some raw → Decodes d raw) ∧
      ∀ thread ∈ s.threads, thread.rest ≠ .panic .storedMetadata ∧ thread.rest ≠ .panic .storedPayload := by
  refine ⟨fun key raw stored => ?_,?_⟩
  · obtain ⟨i,put⟩ := stored_put path stored
    exact put_decodes codec path put
  · intro thread member
    obtain ⟨i,found⟩ := List.mem_iff_getElem?.mp member
    have follows := reached_follows (handle_follows d) path found
    have clean : ¬ Garbled d (history s.log i) := by
      intro garbled
      obtain ⟨key,raw,read,unreadable⟩ := garbled
      have put : ∃ j, (j,⟨.dbPut key raw,.ok ()⟩) ∈ s.log :=
        read.elim (fun read => read_put path (mem_history.mp read)) fun read => compacted_put path (mem_history.mp read)
      obtain ⟨j,put⟩ := put
      exact unreadable (put_readable codec path put)
    constructor
    · intro panicked
      rw [panicked,follows_panic] at follows
      simpa [Blamed,clean] using follows.blamed _ rfl
    · intro panicked
      rw [panicked,follows_panic] at follows
      simpa [Blamed,clean] using follows.blamed _ rfl

-- A stored entry is read, found expired and dropped by a compaction.
theorem compaction_unwraps : ∃ s : ServerPool, s.shared.db ownerHash = none ∧ s.log.length = 5 ∧
    ∀ thread ∈ s.threads, thread.rest ≠ .panic .storedMetadata ∧ thread.rest ≠ .panic .storedPayload := by
  have done : (driven (deployment true) [.arrive (putOwner early),.thread 0,.thread 0,.surroundings (clockAt 111),
      .arrive (.compaction ownerHash),.thread 1,.thread 1,.thread 1]).map
      (fun s => (s.shared.db ownerHash,s.log.length)) = some (none,5) := by decide +kernel
  obtain ⟨s,reached,ended⟩ := Option.map_eq_some_iff.mp done
  simp only [Prod.mk.injEq] at ended
  exact ⟨s,ended.1,ended.2,(reached_unwraps (WireMessages.onWire_roundTrips _) (driven_reached reached)).2⟩

end Keyserver.StoreAuthenticity
