import Keyserver.SharedLoops
import Keyserver.DetailStream
import Keyserver.PanicCauses
import Keyserver.HiddenErrors

namespace Keyserver.PeerStream
open SharedPrograms SharedPrograms.Program SharedPools SharedLocks SharedLoops SharedPairs KeyDb KeyHandlers KeyProtocol Bitcoin
  DetailStream PanicCauses HiddenErrors

-- The task that `main` spawns: the advertisements of the stream, one after the other.
def pollStream (d : Deployment) (stream : List (Except StreamError Transaction)) : Prog ServerError Unit := do
  let keyStream ← extractDetails d.settings stream
  forEach (peerPolling d) keyStream

-- The server with that task beside its requests.
inductive Task where
  | request (request : Request)
  | polling (stream : List (Except StreamError Transaction))

def keyserver (d : Deployment) : Machine Reply Panic ServerError (Option Answer) Shared Task Clock where
  serve
    | .request request => some <$> handle d request
    | .polling stream => (fun _ => none) <$> pollStream d stream
  answer := answer
  surroundings := tick

abbrev TaskPool := Pool Reply Panic ServerError (Option Answer) Shared Task

def job (d : Deployment) : Task → Job Request
  | .request request => .one request
  | .polling stream => .loop ((details d.settings stream).map .peerItem)

variable {d : Deployment} {stream : List (Except StreamError Transaction)}

theorem pollStream_eq (stream : List (Except StreamError Transaction)) :
    pollStream d stream = forEach (peerPolling d) (details d.settings stream) := by
  simp only [pollStream,extractDetails_eq,done_bind]

theorem forEach_items (items : List (Except StreamError Detail)) :
    forEach (handle d) (items.map .peerItem) = (forEach (peerPolling d) items : Prog ServerError Unit) := by
  induction items with
  | nil => rfl
  | cons item rest ih =>
    simp only [List.map_cons,forEach,handle,map_eq,bind_bind,done_bind,ih]

theorem job_serves (task : Task) : (looping (server d)).serve (job d task) = (keyserver d).serve task := by
  cases task with
  | request request => rfl
  | polling stream => simp only [looping,job,server,keyserver,forEach_items,pollStream_eq]

theorem jobs_mirrored {meets : TaskPool → Act Reply Task Clock → Prop} {origin : Shared} {s : TaskPool}
    (path : Reached (keyserver d) meets origin s) : ∃ t place, Reached (server d) (fun _ _ => True) origin t ∧
      Mirrors (server d) (renamed (job d) s) t place :=
  looping_mirrored (reached_renamed job_serves rfl rfl path)

-- The items of a stream handled to their ends, one after the other.
abbrev Handled (d : Deployment) : List (Except StreamError Detail) → Past → Prop :=
  Served fun item => (peerPolling d item : Prog ServerError PeerExit)

inductive PollingEnds (d : Deployment) (items : List (Except StreamError Detail)) :
    Past → Outcome Panic ServerError (Option Answer) → Prop where
  | handled (all : Handled d items past) : PollingEnds d items past (.returned none)
  | panicked (listed : items = before ++ item :: after) (handled : Handled d before past)
      (cause : Cause d (.peerItem item) piece fault) : PollingEnds d items (past ++ piece) (.panicked fault)

def TaskEnds (d : Deployment) : Task → Past → Outcome Panic ServerError (Option Answer) → Prop
  | .request _ => fun _ _ => True
  | .polling stream => PollingEnds d (details d.settings stream)

section Ends
variable {meets : TaskPool → Act Reply Task Clock → Prop} {clock : Clock} {s : TaskPool}

theorem peerPolling_unthrown {Error : Type} (item : Except StreamError Detail) (past : Past) :
    Follows Freely (fun _ outcome => ∀ err, outcome ≠ .thrown err) past (peerPolling d item : Prog Error PeerExit) :=
  (peerPolling_told item).unthrown fun op reply => ⟨_,retell_alike ⟨id,id,id⟩ op reply⟩

theorem keyserver_follows (task : Task) : Follows Freely (TaskEnds d task) [] ((keyserver d).serve task) := by
  cases task with
  | request request => exact (follows_does _).mono (fun _ _ _ => trivial) fun _ _ _ => trivial
  | polling stream =>
    show Follows Freely (PollingEnds d (details d.settings stream)) [] ((fun _ => none) <$> pollStream d stream)
    rw [pollStream_eq]
    apply (follows_does _).map (fun _ _ _ => trivial)
    intro past outcome does
    rcases forEach_does does with ⟨rfl,handled⟩ | ⟨err,rfl,before,item,after,done,piece,-,-,-,last⟩ |
      ⟨fault,rfl,before,item,after,done,piece,listed,rfl,handled,last⟩
    · exact .handled handled
    · exact absurd rfl (last.follows (peerPolling_unthrown item []) err)
    · exact .panicked listed handled (last.follows (peerPolling_causes item []) fault rfl)

-- In a release build of the server no item of the stream stops the task, whatever the
-- peers answer: where it has ended it has handled all of them, in their order.
theorem polling_handles (release : d.overflowChecks = false) (codec : d.crates.RoundTrips)
    (digests : ∀ raw, d.crates.messageFromSlice (d.crates.sha256 raw) ≠ none)
    (path : Reached (keyserver d) meets (Shared.empty clock) s) {i : Nat} {program : Prog ServerError (Option Answer)}
    (found : s.threads[i]? = some ⟨.polling stream,program⟩) (ended : Finished program) :
    program = .done none ∧ Handled d (details d.settings stream) (history s.log i) := by
  have follows : Follows Freely (PollingEnds d (details d.settings stream)) (history s.log i) program :=
    reached_follows keyserver_follows path found
  have readable : ∀ {piece raw}, (∀ event ∈ piece, event ∈ history s.log i) → Found piece raw → Readable d raw := by
    intro piece raw own given
    obtain ⟨key,read⟩ := given
    obtain ⟨t,place,reached,mirrors⟩ := jobs_mirrored path
    have logged : ∀ event ∈ piece, ∃ j, event ∈ history t.log j := by
      intro event member
      have known : event ∈ t.log.map Prod.snd := by
        rw [mirrors.events]
        exact List.mem_map_of_mem (mem_history.mp (own event member))
      obtain ⟨⟨j,_⟩,entry,rfl⟩ := List.mem_map.mp known
      exact ⟨j,mem_history.mpr entry⟩
    rcases read with read | read
    · obtain ⟨j,member⟩ := logged _ read
      exact reached_clean codec reached ⟨key,.inl member⟩
    · obtain ⟨j,member⟩ := logged _ read
      exact reached_clean codec reached ⟨key,.inr member⟩
  generalize history s.log i = past at follows readable ⊢
  cases program with
  | call op next => exact absurd rfl (ended op next)
  | done value =>
    cases follows with
    | handled all => exact ⟨rfl,all⟩
  | throw err => cases follows
  | panic fault =>
    cases follows with
    | panicked listed handled cause =>
      cases cause with
      | unreadable found garbled =>
        exact absurd (readable (fun event member => List.mem_append_right _ member) found) garbled.unreadable
      | stored found read checked => cases checked.symm.trans release
      | given given decoded found checked => cases checked.symm.trans release
      | digest given refused => exact absurd refused (digests _)

end Ends

-- The polling task is nothing but its items arriving: whatever the server comes to
-- with it among the requests, it comes to by requests alone.
theorem keyserver_refines {meets : TaskPool → Act Reply Task Clock → Prop} {origin : Shared} {s : TaskPool}
    (path : Reached (keyserver d) meets origin s) : ∃ t : ServerPool, Reached (server d) (fun _ _ => True) origin t ∧
      t.shared = s.shared ∧ t.log.map Prod.snd = s.log.map Prod.snd ∧
      (∀ request ∈ t.requests, .request request ∈ s.requests ∨ ∃ stream item, .polling stream ∈ s.requests ∧
        item ∈ details d.settings stream ∧ request = .peerItem item) ∧
      ∀ (i : Nat) request program, s.threads[i]? = some ⟨.request request,program⟩ →
        ∃ (k : Nat) (current : Prog ServerError Answer), t.threads[k]? = some ⟨request,current⟩ ∧ program = some <$> current := by
  obtain ⟨t,place,reached,mirrors⟩ := jobs_mirrored path
  refine ⟨t,reached,mirrors.shared,mirrors.events,?_,?_⟩
  · intro request member
    have tasks : ∀ {found : Job Request}, found ∈ (renamed (job d) s).requests → ∃ task ∈ s.requests, job d task = found := by
      intro found named
      simpa [Pool.requests,renamed] using named
    rcases mirrors.sources request member with one | ⟨items,loop,inner⟩
    · obtain ⟨task,known,same⟩ := tasks one
      cases task with
      | request other =>
        cases same
        exact .inl known
      | polling stream => cases same
    · obtain ⟨task,known,same⟩ := tasks loop
      cases task with
      | request other => cases same
      | polling stream =>
        cases same
        obtain ⟨item,listed,rfl⟩ := List.mem_map.mp inner
        exact .inr ⟨stream,item,known,listed,rfl⟩
  · intro i request program found
    have standing : (renamed (job d) s).threads[i]? = some ⟨.one request,program⟩ := by simp [renamed,found,job]
    obtain ⟨k,current,-,mirrored,same⟩ := mirrors.one i request program standing
    exact ⟨k,current,mirrored,same⟩

section Example
open SampleDeployment

def streamed : List (Except StreamError Transaction) := [.error (.subscription "closed"),.ok ⟨[advert "http://localhost:8080"]⟩]

theorem streamed_details : details digesting.settings streamed =
    [.error (.subscription "closed"),.ok ("http://localhost:8080",{body := ownerHash})] := by
  have first : firstDetail digesting.settings [advert "http://localhost:8080"] =
      some ("http://localhost:8080",{body := ownerHash}) :=
    firstDetail_some.mpr (@SharedMatches.First.intro _ _ _ [] [] _ _ (by simp [SharedMatches.Unmatched])
      (advert_advertised (by decide +kernel) (by decide +kernel) (by decide)))
  simp [details,streamed,first]

-- A request is answered between the items of the stream.
def polled : Option TaskPool :=
  (keyserver digesting).drive (SoloRuns.reply {calm with http := fun _ => .ok (body 1 early)}) (fun _ _ => true)
    [.arrive (.polling streamed),.arrive (.request (.getKey ownerAddress)),.thread 0,.thread 0,.thread 1,.thread 0,.thread 0]
    (.start (Shared.empty epoch))

theorem polled_ends : ∃ s : TaskPool, Reached (keyserver digesting) (fun _ _ => True) (Shared.empty epoch) s ∧
    s.threads[0]? = some ⟨.polling streamed,.done none⟩ ∧ s.shared.db ownerHash = some (body 1 early) := by
  have done : polled.map (fun s => (s.returned 0,s.shared.db ownerHash)) = some (some none,some (body 1 early)) := by
    decide +kernel
  obtain ⟨s,driven,ended⟩ := Option.map_eq_some_iff.mp done
  simp only [Prod.mk.injEq] at ended
  have known : s.requests[0]? = some (.polling streamed) := by
    rw [drive_requests driven]
    rfl
  exact ⟨s,drive_reached (fun _ _ _ => trivial) .start driven,returned_thread known ended.1,ended.2⟩

theorem polled_refined : ∃ t : ServerPool, Reached (server digesting) (fun _ _ => True) (Shared.empty epoch) t ∧
    t.shared.db ownerHash = some (body 1 early) := by
  obtain ⟨s,path,-,stored⟩ := polled_ends
  obtain ⟨t,reached,same,-⟩ := keyserver_refines path
  exact ⟨t,reached,same ▸ stored⟩

theorem polled_handled : ∃ s : TaskPool, s.shared.db ownerHash = some (body 1 early) ∧
    Handled digesting [.error (.subscription "closed"),.ok ("http://localhost:8080",{body := ownerHash})] (history s.log 0) := by
  obtain ⟨s,path,found,stored⟩ := polled_ends
  refine ⟨s,stored,?_⟩
  have codec : digesting.crates.RoundTrips := WireMessages.decode_encodeMetadata
  have ended : Finished (.done none : Prog ServerError (Option Answer)) := by
    intro op next same
    cases same
  rw [← streamed_details]
  exact (polling_handles rfl codec digesting_digests path found ended).2

end Example

end Keyserver.PeerStream
