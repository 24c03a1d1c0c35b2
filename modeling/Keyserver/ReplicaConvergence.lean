import Keyserver.UpdateRuns

namespace Keyserver.ReplicaConvergence
open SharedPrograms SharedUpdates KeyDb KeyProtocol KeyRequests SoloRuns IngestionVisits UpdateRuns SampleDeployment SampleUpdates

variable {d : Deployment}

-- Metadata for the address that passes every check of a put at this time.
structure Acceptable (d : Deployment) (addr : Address) (time : Clock) (update : Update d) : Prop where
  addressed : update.key = addr.body
  scheme : update.metadata.scheme = 1
  signed : Authentication.Signed d.crates addr.body update.metadata
  unexpired : expiredAt d update.payload time = some false

-- The run submits these updates one after the other, all at the same time.
structure Processes (time : Clock) (run : List (Visit d)) (updates : List (Update d)) : Prop where
  submits : run.map Visit.update = updates.map some
  still : ∀ visited ∈ run, ∀ n, visited.conditions.clock n = time

-- Two replicas that receive the updates in different orders store the same.
def Converges (addr : Address) (time : Clock) (updates : List (Update d)) : Prop :=
  ∀ others, others.Perm updates → ∀ run run', Processes time run updates → Processes time run' others →
    ∀ clock, (after run (Shared.empty clock)).db addr.body = (after run' (Shared.empty clock)).db addr.body

theorem acceptable_same {addr : Address} {time : Clock} {one two : Update d} (first : Acceptable d addr time one)
    (second : Acceptable d addr time two) (same : one.metadata = two.metadata) : one = two := by
  obtain ⟨key,metadata,payload,decoded⟩ := one
  obtain ⟨key',metadata',payload',decoded'⟩ := two
  obtain rfl : metadata = metadata' := same
  obtain rfl : key = key' := first.addressed.trans second.addressed.symm
  obtain rfl := Option.some.inj (decoded.symm.trans decoded')
  rfl

theorem entry_same (codec : d.crates.RoundTrips) {one two : Update d} (same : one.entry = two.entry) :
    one.metadata = two.metadata := by
  have read := congrArg d.crates.decodeMetadata same
  simpa [Update.entry,codec one.metadata,codec two.metadata] using read

theorem acceptable_admitted (codec : d.crates.RoundTrips) {addrStr : String} {addr : Address} {time : Clock} {update : Update d}
    (decodes : d.crates.decodeAddress addrStr = .ok addr) (acceptable : Acceptable d addr time update) :
    Admitted d addrStr [.ok update.entry] addr update.metadata update.payload where
  decoded := by simp [collected,Update.entry,codec update.metadata]
  addressed := decodes
  scheme := acceptable.scheme
  attested := ⟨acceptable.signed,update.decoded⟩

-- The put of one acceptable update, at this time.
def submission (codec : d.crates.RoundTrips) {addrStr : String} {addr : Address} {time : Clock} {update : Update d}
    (decodes : d.crates.decodeAddress addrStr = .ok addr) (acceptable : Acceptable d addr time update) : Visit d where
  conditions := {clock := fun _ => time}
  request := .putKey addrStr [.ok update.entry]
  update := some update
  kind := .putKey
  carries := .brought ⟨addr,acceptable.addressed.symm,.put (acceptable_admitted codec decodes acceptable)⟩
  reads := rfl
  writes := rfl

section Runs
variable {addr : Address} {time : Clock} {updates others : List (Update d)} {run : List (Visit d)}

theorem processes_updates (processes : Processes time run updates) : updatesOf run = updates := by
  have mapped : updatesOf run = (run.map Visit.update).filterMap id := by simp [updatesOf,List.filterMap_map]
  rw [mapped,processes.submits,List.filterMap_map]
  simp

theorem processes_db (codec : d.crates.RoundTrips) (acceptable : ∀ update ∈ updates, Acceptable d addr time update)
    (processes : Processes time run updates) (clock : Clock) :
    (after run (Shared.empty clock)).db addr.body = (newest Update.stamp updates).map Update.entry := by
  have submitted := processes_updates processes
  have alive : ∀ visited ∈ run, Alive visited (updatesOf run) := by
    intro visited member update listed n
    rw [submitted] at listed
    rw [processes.still visited member n]
    exact (acceptable update listed).unexpired
  have whole : updatesTo addr.body updates = updates := by
    rw [updatesTo,List.filter_eq_self]
    intro update listed
    simpa using (acceptable update listed).addressed
  rw [run_holds codec run clock alive addr.body,submitted,whole]

-- Any list of acceptable updates can be submitted by puts.
theorem processes_exists (codec : d.crates.RoundTrips) {addrStr : String} (decodes : d.crates.decodeAddress addrStr = .ok addr)
    (acceptable : ∀ update ∈ updates, Acceptable d addr time update) : ∃ run, Processes time run updates := by
  induction updates with
  | nil => exact ⟨[],rfl,by simp⟩
  | cons update rest ih =>
    obtain ⟨run,submits,still⟩ := ih fun other member => acceptable other (List.mem_cons_of_mem _ member)
    refine ⟨submission codec decodes (acceptable update List.mem_cons_self) :: run,?_,?_⟩
    · simp only [List.map_cons,submits]
      rfl
    · intro other member n
      rcases List.mem_cons.mp member with rfl | later
      · rfl
      · exact still other later n

theorem newest_acceptable (acceptable : ∀ update ∈ updates, Acceptable d addr time update) {update : Update d}
    (found : newest Update.stamp updates = some update) : Acceptable d addr time update :=
  acceptable update (newest_some.mp found).greatest.1

theorem newest_entry (codec : d.crates.RoundTrips) (acceptable : ∀ update ∈ updates, Acceptable d addr time update)
    (acceptable' : ∀ update ∈ others, Acceptable d addr time update)
    (same : (newest Update.stamp updates).map Update.entry = (newest Update.stamp others).map Update.entry) :
    newest Update.stamp updates = newest Update.stamp others := by
  cases one : newest Update.stamp updates with
  | none =>
    cases two : newest Update.stamp others with
    | none => rfl
    | some update => simp [one,two] at same
  | some update =>
    cases two : newest Update.stamp others with
    | none => simp [one,two] at same
    | some update' =>
      rw [one,two] at same
      have equal := entry_same codec (Option.some.inj same)
      rw [acceptable_same (newest_acceptable acceptable one) (newest_acceptable acceptable' two) equal]

-- Replicas converge exactly when the greatest timestamp belongs to one metadata.
theorem converges_iff (codec : d.crates.RoundTrips) {addrStr : String} (decodes : d.crates.decodeAddress addrStr = .ok addr)
    (acceptable : ∀ update ∈ updates, Acceptable d addr time update) : Converges addr time updates ↔
      ∀ one two, Greatest Update.stamp updates one → Greatest Update.stamp updates two → one.metadata = two.metadata := by
  have permuted : ∀ {others : List (Update d)}, others.Perm updates → ∀ update ∈ others, Acceptable d addr time update :=
    fun order update member => acceptable update (order.mem_iff.mp member)
  constructor
  · intro converges one two first second
    have alike : ∀ others, others.Perm updates → newest Update.stamp others = newest Update.stamp updates := by
      intro others order
      obtain ⟨run,processes⟩ := processes_exists codec decodes acceptable
      obtain ⟨run',processes'⟩ := processes_exists codec decodes (permuted order)
      have same := converges others order run run' processes processes' time
      rw [processes_db codec acceptable processes,processes_db codec (permuted order) processes'] at same
      exact (newest_entry codec acceptable (permuted order) same).symm
    exact congrArg Update.metadata (newest_perm.mp alike one two first second)
  · intro single others order run run' processes processes' clock
    have alike := newest_perm.mpr fun one two first second =>
      acceptable_same (acceptable one first.1) (acceptable two second.1) (single one two first second)
    rw [processes_db codec acceptable processes,processes_db codec (permuted order) processes',alike others order]

end Runs

theorem sample_acceptable {known : SignedPayload} (listed : known ∈ [late,long,rival]) :
    Acceptable (moreDeployment false) {body := ownerHash} (clockAt 200) (sampleUpdate known listed) where
  addressed := rfl
  scheme := rfl
  signed := more_signed listed
  unexpired := by
    change expiredAt (moreDeployment false) known.payload (clockAt 200) = some false
    simp only [List.mem_cons,List.not_mem_nil,or_false] at listed
    rcases listed with rfl | rfl | rfl <;> decide +kernel

theorem late_long_converge : @Converges (moreDeployment false) {body := ownerHash} (clockAt 200)
    [sampleUpdate late (by simp),sampleUpdate long (by simp)] := by
  have acceptable : ∀ update ∈ [sampleUpdate late (by simp),sampleUpdate long (by simp)],
      Acceptable (moreDeployment false) {body := ownerHash} (clockAt 200) update := by
    simp only [List.forall_mem_cons,List.not_mem_nil,false_implies,implies_true,and_true]
    exact ⟨sample_acceptable _,sample_acceptable _⟩
  have newer : (sampleUpdate long (by simp)).stamp < (sampleUpdate late (by simp)).stamp := by
    change long.payload.timestamp.toInt < late.payload.timestamp.toInt
    decide
  refine (converges_iff more_roundTrips (show (moreDeployment false).crates.decodeAddress ownerAddress = .ok {body := ownerHash} from rfl)
    acceptable).mpr ?_
  have only : ∀ last, Greatest Update.stamp [sampleUpdate late (by simp),sampleUpdate long (by simp)] last →
      last = sampleUpdate late (by simp) := by
    intro last greatest
    obtain ⟨member,above⟩ := greatest
    rcases List.mem_cons.mp member with rfl | second
    · rfl
    · obtain rfl := List.mem_singleton.mp second
      exact absurd (above _ List.mem_cons_self) (not_le_of_gt newer)
  intro one two first second
  rw [only one first,only two second]

-- Two payloads of one timestamp: each replica keeps the one it heard last.
theorem tie_diverges : ¬ @Converges (moreDeployment false) {body := ownerHash} (clockAt 200)
      [sampleUpdate late (by simp),sampleUpdate rival (by simp)] ∧
    (after [putVisit late (by simp),putVisit rival (by simp)] (Shared.empty epoch)).db ownerHash = some (body 1 rival) ∧
    (after [putVisit rival (by simp),putVisit late (by simp)] (Shared.empty epoch)).db ownerHash = some (body 1 late) := by
  have one : (after [putVisit late (by simp),putVisit rival (by simp)] (Shared.empty epoch)).db ownerHash =
      some (body 1 rival) := by decide +kernel
  have two : (after [putVisit rival (by simp),putVisit late (by simp)] (Shared.empty epoch)).db ownerHash =
      some (body 1 late) := by decide +kernel
  refine ⟨?_,one,two⟩
  intro converges
  have still : ∀ {known known' : SignedPayload} (listed : known ∈ [late,long,rival]) (listed' : known' ∈ [late,long,rival]),
      Processes (clockAt 200) [putVisit known listed,putVisit known' listed'] [sampleUpdate known listed,sampleUpdate known' listed'] := by
    intro known known' listed listed'
    refine ⟨rfl,?_⟩
    simp only [List.forall_mem_cons,List.not_mem_nil,false_implies,implies_true,and_true]
    exact ⟨fun n => rfl,fun n => rfl⟩
  have same := converges [sampleUpdate rival (by simp),sampleUpdate late (by simp)] (List.Perm.swap _ _ [])
    [putVisit late (by simp),putVisit rival (by simp)] [putVisit rival (by simp),putVisit late (by simp)]
    (still _ _) (still _ _) epoch
  have different : body 1 rival ≠ body 1 late := by decide +kernel
  dsimp only at same
  rw [one,two] at same
  exact different (Option.some.inj same)

end Keyserver.ReplicaConvergence
