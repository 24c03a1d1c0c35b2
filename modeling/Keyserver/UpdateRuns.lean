import Keyserver.SharedUpdates
import Keyserver.IngestionVisits
import Keyserver.ReferenceStore
import Keyserver.SampleUpdates

namespace Keyserver.UpdateRuns
open SharedPrograms SharedUpdates KeyDb KeyHandlers KeyProtocol KeyRequests SoloRuns IngestionVisits ReferenceStore
  Authentication SampleDeployment SampleUpdates

-- Metadata for a key, with the payload it was signed for.
structure Update (d : Deployment) where
  key : Bytes
  metadata : AddressMetadata
  payload : Payload
  decoded : d.crates.decodePayload metadata.serializedPayload = some payload

variable {d : Deployment}

def Update.stamp (update : Update d) : Int := update.payload.timestamp.toInt
def Update.entry (update : Update d) : Bytes := d.crates.encodeMetadata update.metadata

def Brings (c : Conditions) (request : Request) (update : Update d) : Prop :=
  ∃ addr : Address, addr.body = update.key ∧ Delivers d c addr update.metadata update.payload request

inductive CarriesUpdate (d : Deployment) (c : Conditions) (request : Request) : Option (Update d) → Prop where
  | brought {update : Update d} (brings : Brings c request update) : CarriesUpdate d c request (some update)
  | nothing (silent : ∀ update : Update d, ¬ Brings c request update) : CarriesUpdate d c request none

-- One request of a sequential run, in which the database answers, and the update
-- it brings: none for a `get_key` and for an item whose peer supplies none.
structure Visit (d : Deployment) where
  conditions : Conditions
  request : Request
  update : Option (Update d)
  kind : Stored request
  carries : CarriesUpdate d conditions request update
  reads : conditions.getFault = none
  writes : conditions.putFault = none

def Visit.outcome (visited : Visit d) (s : Shared) : Outcome Panic ServerError Answer :=
  (visit false d visited.conditions visited.request s).1

def Visit.after (s : Shared) (visited : Visit d) : Shared := (visit false d visited.conditions visited.request s).2

def after (run : List (Visit d)) (s : Shared) : Shared := run.foldl Visit.after s

def updatesOf (run : List (Visit d)) : List (Update d) := run.filterMap Visit.update

def updatesTo (key : Bytes) (updates : List (Update d)) : List (Update d) := updates.filter fun update => update.key = key

-- Every update of the list is unexpired at every moment of the visit.
def Alive (visited : Visit d) (updates : List (Update d)) : Prop :=
  ∀ update ∈ updates, ∀ n, expiredAt d update.payload (visited.conditions.clock n) = some false

-- The store holds, for every key, the register of the updates for it.
def Holds (updates : List (Update d)) (s : Shared) : Prop :=
  ∀ key, s.db key = (newest Update.stamp (updatesTo key updates)).map Update.entry

@[simp] theorem updatesTo_append (key : Bytes) (updates : List (Update d)) (update : Update d) :
    updatesTo key (updates ++ [update]) =
      if update.key = key then updatesTo key updates ++ [update] else updatesTo key updates := by
  by_cases same : update.key = key <;> simp [updatesTo,same]

theorem newest_to {updates : List (Update d)} {key : Bytes} {update : Update d}
    (found : newest Update.stamp (updatesTo key updates) = some update) : update ∈ updates ∧ update.key = key := by
  have member := (newest_some.mp found).greatest.1
  simpa [updatesTo] using member

section Steps
variable {updates : List (Update d)} {s : Shared} {visited : Visit d}

theorem holds_lookup (codec : d.crates.RoundTrips) (holds : Holds updates s) (alive : Alive visited updates) (key : Bytes) (n : Nat) :
    lookup d (s.db key) (visited.conditions.clock n) =
      match newest Update.stamp (updatesTo key updates) with
      | none => .absent
      | some update => .current update.metadata update.payload := by
  rw [holds key]
  cases found : newest Update.stamp (updatesTo key updates) with
  | none => rfl
  | some update =>
    have unexpired := alive update (newest_to found).1 n
    simp [lookup,Update.entry,codec update.metadata,update.decoded,unexpired]

-- A reader finds nothing expired, so it deletes nothing.
theorem holds_leaves (codec : d.crates.RoundTrips) (holds : Holds updates s) (alive : Alive visited updates) (key : Bytes) (n : Nat) :
    getLeaves false visited.conditions (lookup d (s.db key) (visited.conditions.clock n)) key s = s := by
  rw [holds_lookup codec holds alive key n]
  cases newest Update.stamp (updatesTo key updates) with
  | none => simp [getLeaves]
  | some update => simp [getLeaves]

-- An earlier update for the same key has a greater timestamp.
def Outranked (updates : List (Update d)) (update : Update d) : Prop :=
  ∃ other ∈ updates, other.key = update.key ∧ update.stamp < other.stamp

theorem outranked_iff {update : Update d} : Outranked updates update ↔
    ∃ last, newest Update.stamp (updatesTo update.key updates) = some last ∧ update.stamp < last.stamp := by
  constructor
  · intro outranked
    obtain ⟨other,member,same,less⟩ := outranked
    have filtered : other ∈ updatesTo update.key updates := by simp [updatesTo,member,same]
    cases found : newest Update.stamp (updatesTo update.key updates) with
    | none =>
      rw [newest_none.mp found] at filtered
      cases filtered
    | some last => exact ⟨last,rfl,lt_of_lt_of_le less ((newest_some.mp found).greatest.2 other filtered)⟩
  · intro last
    obtain ⟨last,found,less⟩ := last
    obtain ⟨member,same⟩ := newest_to found
    exact ⟨last,member,same,less⟩

theorem brought_storing (codec : d.crates.RoundTrips) (holds : Holds updates s) {update : Update d}
    (alive : Alive visited (updates ++ [update])) {addr : Address} (addressed : addr.body = update.key) :
    (Outranked updates update → storing d visited.conditions visited.request addr update.payload s =
        .returned (.outdated .outdated)) ∧
      (¬ Outranked updates update → storing d visited.conditions visited.request addr update.payload s =
        .returned .stored) := by
  have earlier : Alive visited updates := fun other member => alive other (List.mem_append_left _ member)
  have unexpired := alive update (by simp)
  have seen := holds_lookup codec holds earlier addr.body (opsBefore visited.request + 1)
  rw [outranked_iff]
  simp only [storing,seen]
  rw [addressed]
  cases found : newest Update.stamp (updatesTo update.key updates) with
  | none => simp [storeOutcome,checkOutcome,getOutcome,Lookup.result,visited.reads,visited.writes]
  | some last =>
    have order : update.payload.timestamp < last.payload.timestamp ↔ update.stamp < last.stamp := Int64.lt_iff_toInt_lt
    by_cases less : update.stamp < last.stamp
    · simp [storeOutcome,checkOutcome,getOutcome,Lookup.result,visited.reads,order,less]
    · simp [storeOutcome,checkOutcome,getOutcome,Lookup.result,visited.reads,visited.writes,order,less,unexpired]

theorem brought_holds (codec : d.crates.RoundTrips) (holds : Holds updates s) {update : Update d}
    (alive : Alive visited (updates ++ [update])) (brings : Brings visited.conditions visited.request update) :
    Holds (updates ++ [update]) (visited.after s) := by
  obtain ⟨addr,addressed,delivers⟩ := brings
  obtain ⟨outdated,taken⟩ := brought_storing codec holds alive addressed
  obtain ⟨-,stored,kept⟩ := visit_delivers delivers s
  have earlier : Alive visited updates := fun other member => alive other (List.mem_append_left _ member)
  intro key
  unfold Visit.after
  by_cases outranked : Outranked updates update
  · rw [kept (by rw [outdated outranked]; simp),holds_leaves codec holds earlier,holds key,updatesTo_append]
    split
    · rename_i same
      subst same
      obtain ⟨last,found,less⟩ := outranked_iff.mp outranked
      rw [newest_append,found]
      simp [keepNewer,less]
    · rfl
  · rw [stored (taken outranked),updatesTo_append]
    split
    · rename_i same
      subst same
      rw [addressed,store_same,newest_append]
      cases found : newest Update.stamp (updatesTo update.key updates) with
      | none => rfl
      | some last =>
        have notLess : ¬ update.stamp < last.stamp := fun less => outranked (outranked_iff.mpr ⟨last,found,less⟩)
        simp [keepNewer,notLess,Update.entry]
    · rename_i other
      rw [addressed,store_other _ _ (Ne.symm other),holds key]

theorem silent_holds (codec : d.crates.RoundTrips) (holds : Holds updates s) (alive : Alive visited updates)
    (silent : ∀ update : Update d, ¬ Brings visited.conditions visited.request update) : Holds updates (visited.after s) := by
  have same : (visited.after s).db = s.db := by
    obtain ⟨c,request,update,kind,carries,reads,writes⟩ := visited
    have quiet : ∀ addr metadata payload, ¬ Delivers d c addr metadata payload request :=
      fun addr metadata payload delivers => silent ⟨addr.body,metadata,payload,delivers.attested.payload⟩ ⟨addr,rfl,delivers⟩
    cases kind with
    | @getKey addrStr =>
      simp only [Visit.after,visit,handle,run_map]
      cases addressed : d.crates.decodeAddress addrStr with
      | error err => simp [getKey,decodeAddress,addressed]
      | ok addr =>
        rw [(@run_getKey false d c (s,0) addrStr addr addressed).2,(@run_get false d c (s,0) addr).2.1]
        exact congrArg Shared.db (holds_leaves codec holds alive addr.body 1)
    | @putKey addrStr body =>
      rcases visit_put d c addrStr body s with ⟨addr,metadata,payload,met⟩ | ⟨-,unchanged⟩
      · exact absurd (.put met) (quiet addr metadata payload)
      · exact congrArg Shared.db unchanged
    | @peerItem res =>
      rcases visit_item d c res s with ⟨addr,metadata,payload,delivers⟩ | unchanged
      · exact absurd delivers (quiet addr metadata payload)
      · exact unchanged
  intro key
  rw [same]
  exact holds key

end Steps

-- After any run the store is the register of what the run has brought.
theorem run_holds (codec : d.crates.RoundTrips) (run : List (Visit d)) (clock : Clock)
    (alive : ∀ visited ∈ run, Alive visited (updatesOf run)) : Holds (updatesOf run) (after run (Shared.empty clock)) := by
  induction run using List.reverseRecOn with
  | nil => exact fun key => rfl
  | append_singleton run visited ih =>
    have own := alive visited (by simp)
    have before : ∀ other ∈ run, Alive other (updatesOf run) := by
      intro other member update brought
      exact alive other (List.mem_append_left _ member) update (by
        rw [updatesOf,List.filterMap_append]
        exact List.mem_append_left _ brought)
    have holds := ih before
    have last : after (run ++ [visited]) (Shared.empty clock) = visited.after (after run (Shared.empty clock)) := by
      simp [after]
    rw [last]
    obtain ⟨c,request,update,kind,carries,reads,writes⟩ := visited
    cases carries with
    | @brought update brings =>
      have grown : updatesOf (run ++ [⟨c,request,some update,kind,.brought brings,reads,writes⟩]) = updatesOf run ++ [update] := by
        simp [updatesOf]
      rw [grown] at own ⊢
      exact brought_holds codec holds own brings
    | nothing silent =>
      have same : updatesOf (run ++ [⟨c,request,none,kind,.nothing silent,reads,writes⟩]) = updatesOf run := by
        simp [updatesOf]
      rw [same] at own ⊢
      exact silent_holds codec holds own silent

-- How a put and an item are refused for their timestamp.
def Outdated : Outcome Panic ServerError Answer → Prop
  | .thrown (.validation .outdated) => True
  | .returned (.peer (.outdated .outdated)) => True
  | _ => False

theorem ingested_outdated (request : Request) : (Outdated (ingested request (.returned (.outdated .outdated)))) ∧
    ¬ Outdated (ingested request (.returned .stored)) := by
  cases request <;> simp [ingested,Outdated,Outcome.map]

theorem brought_outdated (codec : d.crates.RoundTrips) {updates : List (Update d)} {s : Shared} {visited : Visit d}
    (holds : Holds updates s) {update : Update d} (alive : Alive visited (updates ++ [update]))
    (brings : Brings visited.conditions visited.request update) :
    Outdated (visited.outcome s) ↔ Outranked updates update := by
  obtain ⟨addr,addressed,delivers⟩ := brings
  obtain ⟨outdated,taken⟩ := brought_storing codec holds alive addressed
  rw [Visit.outcome,(visit_delivers delivers _).1]
  by_cases outranked : Outranked updates update
  · rw [outdated outranked]
    exact iff_of_true (ingested_outdated _).1 outranked
  · rw [taken outranked]
    exact iff_of_false (ingested_outdated _).2 outranked

theorem holds_stored {updates : List (Update d)} {s : Shared} (holds : Holds updates s) (key raw : Bytes) :
    s.db key = some raw ↔ ∃ update, LastGreatest Update.stamp (updatesTo key updates) update ∧ raw = update.entry := by
  rw [holds key,Option.map_eq_some_iff]
  simp only [newest_some]
  constructor
  · rintro ⟨update,last,same⟩
    exact ⟨update,last,same.symm⟩
  · rintro ⟨update,last,same⟩
    exact ⟨update,last,same.symm⟩

-- Over any run and any number of addresses the last writer of the greatest
-- timestamp wins, and only updates older than an earlier one are refused.
theorem last_writer_wins (codec : d.crates.RoundTrips) (run : List (Visit d)) (clock : Clock)
    (alive : ∀ visited ∈ run, Alive visited (updatesOf run)) :
    (∀ key raw, (after run (Shared.empty clock)).db key = some raw ↔
      ∃ update, LastGreatest Update.stamp (updatesTo key (updatesOf run)) update ∧ raw = update.entry) ∧
    ∀ before visited later update, run = before ++ visited :: later → visited.update = some update →
      (Outdated (visited.outcome (after before (Shared.empty clock))) ↔ Outranked (updatesOf before) update) := by
  constructor
  · exact holds_stored (run_holds codec run clock alive)
  · intro before visited later update split brought
    have parts : updatesOf run = updatesOf before ++ update :: updatesOf later := by
      simp [split,updatesOf,brought]
    have earlier : ∀ other ∈ before, Alive other (updatesOf before) := by
      intro other member known listed
      apply alive other
      · simp [split,member]
      · simp [parts,listed]
    have own : Alive visited (updatesOf before ++ [update]) := by
      intro known listed
      apply alive visited
      · simp [split]
      · rw [parts]
        rcases List.mem_append.mp listed with old | new
        · exact List.mem_append_left _ old
        · cases List.mem_singleton.mp new
          exact List.mem_append_right _ List.mem_cons_self
    have carries := visited.carries
    rw [brought] at carries
    cases carries with
    | brought brings => exact brought_outdated codec (run_holds codec before clock earlier) own brings

section Samples
variable (known : SignedPayload) (listed : known ∈ [late,long,rival])

def sampleUpdate : Update (moreDeployment false) :=
  ⟨ownerHash,signed 1 known,known.payload,(more_admitted listed).attested.payload⟩

def putVisit : Visit (moreDeployment false) where
  conditions := steady 200
  request := putOwner known
  update := some (sampleUpdate known listed)
  kind := .putKey
  carries := .brought ⟨{body := ownerHash},rfl,.put (more_admitted listed)⟩
  reads := rfl
  writes := rfl

end Samples

def getVisit : Visit (moreDeployment false) where
  conditions := steady 200
  request := .getKey ownerAddress
  update := none
  kind := .getKey
  carries := .nothing (by rintro update ⟨addr,-,⟨⟩⟩)
  reads := rfl
  writes := rfl

def lateThenLong : List (Visit (moreDeployment false)) := [putVisit late (by simp),getVisit,putVisit long (by simp)]

theorem late_wins : (after lateThenLong (Shared.empty epoch)).db ownerHash = some (body 1 late) ∧
    Outdated ((putVisit long (by simp)).outcome (after [putVisit late (by simp),getVisit] (Shared.empty epoch))) := by
  have alive : ∀ visited ∈ lateThenLong, Alive visited (updatesOf lateThenLong) := by
    intro visited member update brought n
    have steadily : visited.conditions = steady 200 := by
      simp only [lateThenLong,List.mem_cons,List.not_mem_nil,or_false] at member
      rcases member with rfl | rfl | rfl <;> rfl
    rw [steadily]
    have shape : updatesOf lateThenLong = [sampleUpdate late (by simp),sampleUpdate long (by simp)] := rfl
    rw [shape] at brought
    simp only [List.mem_cons,List.not_mem_nil,or_false] at brought
    rcases brought with rfl | rfl
    · change expiredAt (moreDeployment false) late.payload (clockAt 200) = some false
      decide +kernel
    · change expiredAt (moreDeployment false) long.payload (clockAt 200) = some false
      decide +kernel
  obtain ⟨ends,refused⟩ := last_writer_wins more_roundTrips lateThenLong epoch alive
  have shape : updatesTo ownerHash (updatesOf lateThenLong) = [sampleUpdate late (by simp),sampleUpdate long (by simp)] := rfl
  constructor
  · refine (ends ownerHash _).mpr ⟨sampleUpdate late (by simp),?_,rfl⟩
    rw [shape]
    refine ⟨[],_,rfl,by simp,?_⟩
    simp only [List.mem_singleton,forall_eq]
    change long.payload.timestamp.toInt < late.payload.timestamp.toInt
    decide
  · have last := refused [putVisit late (by simp),getVisit] (putVisit long (by simp)) [] (sampleUpdate long (by simp)) rfl rfl
    have first : updatesOf [putVisit late (by simp),getVisit] = [sampleUpdate late (by simp)] := rfl
    have older : (sampleUpdate long (by simp)).stamp < (sampleUpdate late (by simp)).stamp := by
      change long.payload.timestamp.toInt < late.payload.timestamp.toInt
      decide
    have outranked : Outranked [sampleUpdate late (by simp)] (sampleUpdate long (by simp)) :=
      ⟨_,List.mem_cons_self,rfl,older⟩
    rw [last,first]
    exact outranked

end Keyserver.UpdateRuns
