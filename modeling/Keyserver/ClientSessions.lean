import Keyserver.LazyDeletion
import Keyserver.StaleOverwrite
import Keyserver.RefusalCauses

namespace Keyserver.ClientSessions
open SharedPrograms SharedPools SharedLocks KeyDb KeyHandlers KeyProtocol KeyRequests ServerProtocol StoreProvenance StoreWindows
  LazyDeletion StaleOverwrite RefusalCauses
open PanicCauses (Cause handle_causes)
open Payments (forward)
open StoreAuthenticity (put_readable stored_readable)

-- Two stored metadata of which the second is not older.
def NotOlder (d : Deployment) (old new : Bytes) : Prop := ∃ oldPayload newPayload, storedPayload d old = some oldPayload ∧
  storedPayload d new = some newPayload ∧ ¬ newPayload.timestamp < oldPayload.timestamp

theorem NotOlder.refl {d : Deployment} {raw : Bytes} (readable : Readable d raw) : NotOlder d raw raw := by
  obtain ⟨payload,read⟩ := Option.isSome_iff_exists.mp readable
  refine ⟨payload,payload,read,read,?_⟩
  rw [Int64.lt_iff_toInt_lt]
  exact Int.lt_irrefl _

theorem NotOlder.trans {d : Deployment} {one two three : Bytes} (first : NotOlder d one two) (second : NotOlder d two three) :
    NotOlder d one three := by
  obtain ⟨early,middle,before,read,left⟩ := first
  obtain ⟨middle',late,again,after,right⟩ := second
  obtain rfl := Option.some.inj (read.symm.trans again)
  refine ⟨early,late,before,after,?_⟩
  rw [Int64.lt_iff_toInt_lt] at *
  omega

-- An operation that shows its handler an entry: it read it, or it put it there.
inductive Shows (key raw : Bytes) : Event Reply → Prop where
  | read : Shows key raw ⟨.dbGet key,.ok (some raw)⟩
  | put : Shows key raw ⟨.dbPut key raw,.ok ()⟩

-- The entry itself, or one that was put since.
def Since (after : Log) (key old raw : Bytes) : Prop := raw = old ∨ ∃ k, (k,⟨.dbPut key raw,.ok ()⟩) ∈ after

-- What is found at some time of an entry that was shown: one that is not older, unless
-- one that was not older has expired.
def Followed (d : Deployment) (time : Clock) (after : Log) (key old : Bytes) (found : Option Bytes) : Prop :=
  (∃ new, found = some new ∧ Since after key old new ∧ NotOlder d old new) ∨
    ∃ raw, Since after key old raw ∧ NotOlder d old raw ∧ Stale d raw time

variable {d : Deployment} {meets : ServerPool → Act Reply Request Clock → Prop} {clock : Clock} {s next : ServerPool}
  {key old : Bytes} {after : Log}

theorem Since.later {raw : Bytes} (since : Since after key old raw) (more : Log) : Since (after ++ more) key old raw :=
  since.imp_right fun ⟨k,put⟩ => ⟨k,List.mem_append_left _ put⟩

-- One operation: what is in its place afterwards is not older, or it had expired.
theorem followed_performed {j : Nat} {event : Event Reply} (readable : ∀ raw, s.shared.db key = some raw → Readable d raw)
    (written : ∀ value, event = ⟨.dbPut key value,.ok ()⟩ → Readable d value)
    (valid : Followed d s.shared.clock after key old (s.shared.db key)) {shared : Shared} (effect : Effect s.shared event shared)
    (careful : DeletesExpired d s (.perform j event)) (newer : PutsNewer d s (.perform j event))
    (dropped : ∀ key value, event = ⟨.compactionDrop key value,()⟩ → Stale d value s.shared.clock) :
    Followed d shared.clock (after ++ [(j,event)]) key old (shared.db key) := by
  have now : shared.clock = s.shared.clock := effect.clock
  rcases valid with ⟨current,stored,since,order⟩ | ⟨raw,since,order,stale⟩
  · have expired : Stale d current s.shared.clock → Followed d shared.clock (after ++ [(j,event)]) key old (shared.db key) :=
      fun stale => .inr ⟨current,since.later _,order,now ▸ stale⟩
    have kept : shared.db key = some current → Followed d shared.clock (after ++ [(j,event)]) key old (shared.db key) :=
      fun same => .inl ⟨current,same,since.later _,order⟩
    rcases effect.stored with same | ⟨other,value,rfl,rfl⟩ | ⟨other,value,removed,rfl⟩
    · exact kept (same ▸ stored)
    · by_cases equal : key = other
      · subst equal
        rcases newer current stored with stale | replaced
        · exact expired stale
        · obtain ⟨older,before⟩ := Option.isSome_iff_exists.mp (readable current stored)
          obtain ⟨later,after⟩ := Option.isSome_iff_exists.mp (written value rfl)
          refine .inl ⟨value,store_same _ _ _,.inr ⟨j,?_⟩,order.trans ⟨older,later,before,after,replaced older later before after⟩⟩
          exact List.mem_append_right _ (List.mem_singleton.mpr rfl)
      · exact kept ((store_other _ _ equal).trans stored)
    · by_cases equal : key = other
      · subst equal
        rcases removed with rfl | ⟨rfl,same⟩
        · exact expired (careful current stored)
        · obtain rfl := Option.some.inj (stored.symm.trans same)
          exact expired (dropped key current rfl)
      · exact kept ((store_other _ _ equal).trans stored)
  · exact .inr ⟨raw,since.later _,order,now ▸ stale⟩

theorem effect_shows {s next : Shared} {event : Event Reply} (effect : Effect s event next) (shows : Shows key old event) :
    next.db key = some old := by
  cases shows with
  | put =>
    cases effect
    exact store_same ..
  | read =>
    generalize some old = found at effect ⊢
    cases effect
    rfl

section Reads
variable (codec : d.crates.RoundTrips) (onward : ∀ s act, meets s act → Onward s act)
  (deletes : ∀ s act next, Reached (server d) meets (Shared.empty clock) s → meets s act →
    Step (server d) s act next → DeletesExpired d s act)
  (newer : ∀ s act next, Reached (server d) meets (Shared.empty clock) s → meets s act →
    Step (server d) s act next → PutsNewer d s act)
include codec onward deletes newer

-- In a run without raced puts and disturbed deletes, whatever a handler was shown of a
-- key is followed, in every state after it, by entries that are not older, until one
-- of these has expired.
theorem shown_followed (path : Reached (server d) meets (Shared.empty clock) s) : ∀ before i event after,
    s.log = before ++ (i,event) :: after →
      Shows key old event → Followed d s.shared.clock after key old (s.shared.db key) := by
  induction path with
  | start => simp [Pool.start]
  | @step s act next prior met step ih =>
    have careful := deletes s act next prior met step
    have ordered := newer s act next prior met step
    cases step with
    | arrive => exact ih
    | surroundings moved =>
      cases moved
      intro before i event after logged shows
      rcases ih before i event after logged shows with current | ⟨raw,since,order,stale⟩
      · exact .inl current
      · exact .inr ⟨raw,since,order,stale.later (onward _ _ met)⟩
    | @perform _ j request op rest reply shared running answered =>
      have reached := Reached.step prior met (.perform running answered)
      intro before i event after logged shows
      rcases split_last logged with ⟨-,new,rfl⟩ | ⟨tail,rfl,split⟩
      · simp only [Prod.mk.injEq] at new
        obtain ⟨rfl,rfl⟩ := new
        have current := effect_shows (answer_effect answered) shows
        exact .inl ⟨old,current,.inl rfl,.refl (stored_readable codec reached current)⟩
      · have written : ∀ value, (⟨op,reply⟩ : Event Reply) = ⟨.dbPut key value,.ok ()⟩ → Readable d value := by
          intro value same
          have put : (j,⟨.dbPut key value,.ok ()⟩) ∈ s.log ++ [(j,⟨op,reply⟩)] := by simp [same]
          exact put_readable codec reached put
        apply followed_performed (fun raw stored => stored_readable codec prior stored) written
          (ih before i event tail split shows) (answer_effect answered) careful ordered
        intro key value same
        exact drop_stale onward prior (same ▸ Step.perform running answered)

-- The same of what the later reads found.
theorem shown_read (path : Reached (server d) meets (Shared.empty clock) s) : ∀ before i event middle j found after,
    s.log = before ++ (i,event) :: (middle ++ (j,⟨.dbGet key,.ok found⟩) :: after) → Shows key old event →
      Followed d s.shared.clock middle key old found := by
  induction path with
  | start => simp [Pool.start]
  | @step s act next prior met step ih =>
    cases step with
    | arrive => exact ih
    | surroundings moved =>
      cases moved
      intro before i event middle j found after logged shows
      rcases ih before i event middle j found after logged shows with current | ⟨raw,since,order,stale⟩
      · exact .inl current
      · exact .inr ⟨raw,since,order,stale.later (onward _ _ met)⟩
    | @perform _ k request op rest reply shared running answered =>
      intro before i event middle j found after logged shows
      have now : shared.clock = s.shared.clock := (answer_effect answered).clock
      rw [now]
      rw [← List.cons_append,← List.append_assoc] at logged
      rcases split_last logged with ⟨split,new,rfl⟩ | ⟨tail,rfl,split⟩
      · cases new
        rw [(answer_get answered).1]
        exact shown_followed codec onward deletes newer prior before i event middle split shows
      · rw [List.append_assoc,List.cons_append] at split
        exact ih before i event middle j found tail split shows

end Reads

-- What a response tells its client of a key: what was stored there, or that the
-- client's own metadata now is.
inductive Told (d : Deployment) : Request → HttpResponse → Bytes → Bytes → Prop where
  | read (gets : Gets d request addrStr) (addressed : d.crates.decodeAddress addrStr = .ok addr) :
      Told d request resp addr.body resp.body
  | wrote (puts : Puts d request addrStr body) (met : Admitted d addrStr body addr metadata payload) (status : resp.status = .ok) :
      Told d request resp addr.body (d.crates.encodeMetadata metadata)

-- All that thread `i` does comes before all that thread `j` does.
def Precedes (log : Log) (i j : Nat) : Prop := ∃ before after, log = before ++ after ∧ history after i = [] ∧ history before j = []

-- An entry that is not older was put, and has expired.
def Lapsed (d : Deployment) (s : ServerPool) (key old : Bytes) : Prop :=
  ∃ k raw, (k,⟨.dbPut key raw,.ok ()⟩) ∈ s.log ∧ NotOlder d old raw ∧ Stale d raw s.shared.clock

-- The ways a later read of the key ends.
inductive Sequel (d : Deployment) (s : ServerPool) (key old : Bytes) (request : Request) (past : Past) :
    Prog ServerError Answer → Prop where
  | shown (status : resp.status = .ok) (order : NotOlder d old resp.body) : Sequel d s key old request past (.done (.http resp))
  | lapsed (lapsed : Lapsed d s key old) : Sequel d s key old request past rest
  | failed (failed : Failed past err) : Sequel d s key old request past (.throw (.db err))
  | panicked (cause : Cause d request past fault) : Sequel d s key old request past (.panic fault)

section Sessions
variable {request : Request} {resp : HttpResponse} {addrStr : String} {addr : Address} {i j : Nat} {rest : Prog ServerError Answer}

theorem gets_reads (gets : Gets d request addrStr) (addressed : d.crates.decodeAddress addrStr = .ok addr) :
    Follows (fun _ _ => True) (fun past outcome => ∃ inner, outcome = inner.map Answer.http ∧ Reading d addr past inner) []
      (handle d request) := by
  cases gets with
  | direct => exact (getKey_reads addressed []).map (fun _ _ _ => trivial) fun _ outcome reading => ⟨outcome,rfl,reading⟩
  | routed get route =>
    rename_i req
    have forwarded : Payments.call d (keysService d addrStr) req = forward (keysService d addrStr) req := by
      simp [Payments.call,get]
    simp only [handle,keysResource,route,forwarded,forward,keysService,get]
    have entered : Follows (fun _ _ => True) (Reading d addr) []
        (.call (.serviceCall req.method req.scheme req.host req.path) fun _ => getKey d addrStr) :=
      ⟨trivial,fun _ => getKey_reads addressed _⟩
    exact entered.map (fun _ _ _ => trivial) fun _ outcome reading => ⟨outcome,rfl,reading⟩

theorem reached_reads (path : Reached (server d) meets (Shared.empty clock) s) (gets : Gets d request addrStr)
    (addressed : d.crates.decodeAddress addrStr = .ok addr) (found : s.threads[i]? = some ⟨request,rest⟩) :
    Follows (fun _ _ => True) (fun past outcome => ∃ inner, outcome = inner.map Answer.http ∧ Reading d addr past inner)
      (history s.log i) rest :=
  reached_serves (gets_reads gets addressed) path found

-- What a get is answered with is, byte for byte, what its handler read.
theorem read_encoded (codec : d.crates.RoundTrips) (path : Reached (server d) meets (Shared.empty clock) s)
    {raw : Bytes} {metadata : AddressMetadata} (read : ⟨.dbGet key,.ok (some raw)⟩ ∈ history s.log i)
    (decoded : d.crates.decodeMetadata raw = some metadata) : d.crates.encodeMetadata metadata = raw := by
  obtain ⟨k,put⟩ := read_put path (mem_history.mp read)
  obtain ⟨metadata',payload,attested,rfl⟩ := StoreAuthenticity.put_attested path put
  obtain rfl := Option.some.inj ((codec metadata').symm.trans decoded)
  rfl

theorem told_shows (codec : d.crates.RoundTrips) (path : Reached (server d) meets (Shared.empty clock) s)
    (found : s.threads[i]? = some ⟨request,.done (.http resp)⟩) (told : Told d request resp key old) :
    ∃ event, Shows key old event ∧ (i,event) ∈ s.log := by
  cases told with
  | read gets addressed =>
    have reads := reached_reads path gets addressed found
    rw [follows_done] at reads
    obtain ⟨inner,same,reading⟩ := reads
    cases reading with
    | current read decoded =>
      cases same
      rw [read_encoded codec path read decoded]
      exact ⟨_,.read,mem_history.mp read⟩
    | _ => cases same
  | wrote puts met status =>
    have ends := reached_follows (handle_follows d) path found
    rw [follows_done] at ends
    obtain ⟨addr',metadata',payload',before,met',past⟩ := ends.written _ _ resp puts rfl status
    obtain ⟨rfl,rfl,rfl⟩ := met.unique met'
    exact ⟨_,.put,mem_history.mp (by simp [past])⟩

-- What was found since, if nothing has lapsed.
theorem Followed.notOlder {after : Log} {found : Option Bytes} {event : Event Reply}
    (followed : Followed d s.shared.clock after key old found) (path : Reached (server d) meets (Shared.empty clock) s)
    (logged : ∀ entry ∈ after, entry ∈ s.log) (shown : (i,event) ∈ s.log) (shows : Shows key old event) :
    (∃ new, found = some new ∧ NotOlder d old new) ∨ Lapsed d s key old := by
  rcases followed with ⟨new,same,-,order⟩ | ⟨raw,since,order,stale⟩
  · exact .inl ⟨new,same,order⟩
  · right
    rcases since with rfl | ⟨k,put⟩
    · cases shows with
      | put => exact ⟨i,raw,shown,order,stale⟩
      | read =>
        obtain ⟨k,put⟩ := read_put path shown
        exact ⟨k,raw,put,order,stale⟩
    · exact ⟨k,raw,logged _ put,order,stale⟩

-- Within a session nothing goes back: in a run in which no write and no delete races
-- with a put, a get that follows another request of the key on the same server is
-- answered with metadata that is not older than what the first was told, until
-- metadata that was not older has expired.
theorem reads_monotone (codec : d.crates.RoundTrips)
    (path : Reached (server d) (fun s act => Onward s act ∧ Undisturbed d s act ∧ Unraced d s act) (Shared.empty clock) s)
    {first second : Request} (answered : s.threads[i]? = some ⟨first,.done (.http resp)⟩) (told : Told d first resp addr.body old)
    (gets : Gets d second addrStr) (addressed : d.crates.decodeAddress addrStr = .ok addr)
    (found : s.threads[j]? = some ⟨second,rest⟩) (ended : Finished rest) (order : Precedes s.log i j) :
    Sequel d s addr.body old second (history s.log j) rest := by
  obtain ⟨event,shows,shown⟩ := told_shows codec path answered told
  obtain ⟨early,late,split,last,begun⟩ := order
  have settled : (i,event) ∈ early := by
    rw [split] at shown
    exact (List.mem_append.mp shown).resolve_right (history_silent last event)
  obtain ⟨before,between,rfl⟩ := List.append_of_mem settled
  have later : ∀ value, ⟨.dbGet addr.body,.ok value⟩ ∈ history s.log j →
      (∃ new, value = some new ∧ NotOlder d old new) ∨ Lapsed d s addr.body old := by
    intro value read
    rw [split,history_append,begun,List.nil_append,mem_history] at read
    obtain ⟨middle,after,rfl⟩ := List.append_of_mem read
    have logged : s.log = before ++ (i,event) :: (between ++ middle ++ (j,⟨.dbGet addr.body,.ok value⟩) :: after) := by
      simp [split]
    have followed := shown_read codec (fun _ _ met => met.1)
      (fun s act next prior met step => undisturbed_deletes (fun _ _ met => met.1) prior step met.2.1)
      (fun s act next prior met step => unraced_puts codec prior step met.2.2) path _ _ _ _ _ _ _ logged shows
    refine followed.notOlder path (fun entry member => ?_) shown shows
    rw [logged]
    simp only [List.mem_append,List.mem_cons] at member ⊢
    exact .inr (.inr (.inl member))
  have reads := reached_reads path gets addressed found
  cases rest with
  | call op next => exact absurd rfl (ended op next)
  | panic fault => exact .panicked (reached_follows (handle_causes d) path found fault rfl)
  | done answer =>
    obtain ⟨inner,same,reading⟩ := reads
    cases reading with
    | current read decoded =>
      cases same
      rcases later _ read with ⟨new,same,notOlder⟩ | lapsed
      · obtain rfl := Option.some.inj same
        exact .shown rfl (read_encoded codec path read decoded ▸ notOlder)
      · exact .lapsed lapsed
    | _ => cases same
  | throw err =>
    obtain ⟨inner,same,reading⟩ := reads
    cases reading with
    | absent read =>
      rcases later _ read with ⟨new,same,-⟩ | lapsed
      · cases same
      · exact .lapsed lapsed
    | @expired raw time read looked stale =>
      rcases later _ read with ⟨new,same,notOlder⟩ | lapsed
      · obtain rfl := Option.some.inj same
        obtain ⟨k,put⟩ := read_put path (mem_history.mp read)
        have since := stale.later (reached_clock (fun _ _ met => met.1) path j time (mem_history.mp looked))
        exact .lapsed ⟨k,raw,put,notOlder,since⟩
      · exact .lapsed lapsed
    | failed failed =>
      cases same
      exact .failed failed
    | _ => cases same

end Sessions

section Example
open SoloRuns SampleDeployment

def steadily (s : ServerPool) (act : Act Reply Request Clock) : Bool := quiet s act && calmWrites s act

theorem steadily_met (s : ServerPool) (act : Act Reply Request Clock) (passed : steadily s act = true) :
    Onward s act ∧ Undisturbed d s act ∧ Unraced d s act := by
  obtain ⟨first,second⟩ := Bool.and_eq_true_iff.mp passed
  obtain ⟨onward,undisturbed⟩ := quiet_undisturbed s act first
  exact ⟨onward,undisturbed,calmWrites_unraced s act second⟩

-- A get before the put of newer metadata and one after it.
theorem late_monotone : ∃ s : ServerPool, s.returned 1 = some (.http {status := .ok,body := body 1 early}) ∧
    s.returned 3 = some (.http {status := .ok,body := body 1 late}) ∧
      Sequel (deployment false) s ownerHash (body 1 early) (.getKey ownerAddress) (history s.log 3)
        (.done (.http {status := .ok,body := body 1 late})) := by
  have done : ((server (deployment false)).drive (reply calm) steadily
      [.surroundings (clockAt 100),.arrive (putOwner early),.thread 0,.thread 0,.arrive (.getKey ownerAddress),.thread 1,.thread 1,
        .arrive (putOwner late),.thread 2,.thread 2,.thread 2,.thread 2,.arrive (.getKey ownerAddress),.thread 3,.thread 3]
      (.start (Shared.empty epoch))).any (fun s =>
      s.returned 1 = some (.http {status := .ok,body := body 1 early}) &&
        s.returned 3 = some (.http {status := .ok,body := body 1 late}) &&
          (history (s.log.drop 4) 1).isEmpty && (history (s.log.take 4) 3).isEmpty) = true := by decide +kernel
  obtain ⟨s,driven,facts⟩ := (Option.any_eq_true _ _).mp done
  simp only [Bool.and_eq_true,decide_eq_true_eq,List.isEmpty_iff] at facts
  obtain ⟨⟨⟨first,second⟩,last⟩,begun⟩ := facts
  have known : s.requests = [putOwner early,.getKey ownerAddress,putOwner late,.getKey ownerAddress] := drive_requests driven
  have addressed : (deployment false).crates.decodeAddress ownerAddress = .ok {body := ownerHash} := rfl
  have answered : s.threads[1]? = some ⟨.getKey ownerAddress,.done (.http {status := .ok,body := body 1 early})⟩ :=
    returned_thread (by rw [known]; rfl) first
  refine ⟨s,first,second,?_⟩
  exact reads_monotone (WireMessages.onWire_roundTrips _) (drive_reached steadily_met .start driven) answered
    (.read .direct addressed) .direct addressed (returned_thread (by rw [known]; rfl) second) (fun op next same => by cases same)
      ⟨_,_,(List.take_append_drop 4 s.log).symm,last,begun⟩

end Example

end Keyserver.ClientSessions
