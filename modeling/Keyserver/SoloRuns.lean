import Keyserver.KeyProtocol
import Keyserver.Server

namespace Keyserver.SoloRuns
open SharedPrograms SharedPools KeyDb KeyHandlers

-- What one request meets while it is served alone: the time of each of its
-- operations, the database calls that fail, the answers of node and peers.
structure Conditions where
  clock : Nat → Clock
  getFault : Option RocksError := none
  putFault : Option RocksError := none
  deleteFault : Option RocksError := none
  rpc : RpcRequest → Except String RpcResponse := fun _ => .error "connection refused"
  http : Url → Except String Bytes := fun _ => .error "connection refused"

def outcomeOf {α : Type} (fault : Option RocksError) (value : α) : Except RocksError α :=
  match fault with
  | some err => .error err
  | none => .ok value

def reply (c : Conditions) (s : Shared) : (op : Op) → Reply op
  | .dbGet key => outcomeOf c.getFault (s.db key)
  | .dbPut _ _ => outcomeOf c.putFault ()
  | .dbDelete _ => outcomeOf c.deleteFault ()
  | .compactionRead key => s.db key
  | .compactionDrop _ _ => ()
  | .now => s.clock
  | .walletContains addr => decide (addr ∈ s.wallet)
  | .walletInsert addr => decide (addr ∉ s.wallet)
  | .walletRemove addr => decide (addr ∈ s.wallet)
  | .rpcSend request => c.rpc request
  | .httpGet url => c.http url
  | .delayFor _ => ()
  | .serviceCall _ _ _ _ => ()

def effect (c : Conditions) (s : Shared) (op : Op) : Shared := (answer s op (reply c s op)).getD s

theorem reply_answered (c : Conditions) (s : Shared) (op : Op) :
    answer s op (reply c s op) = some (effect c s op) := by
  suffices given : ∃ next, answer s op (reply c s op) = some next by
    obtain ⟨next,given⟩ := given
    simp [effect,given]
  cases op with
  | dbGet key => cases fault : c.getFault <;> simp [reply,outcomeOf,answer,fault]
  | dbPut key value => cases fault : c.putFault <;> simp [reply,outcomeOf,answer,fault]
  | dbDelete key => cases fault : c.deleteFault <;> simp [reply,outcomeOf,answer,fault]
  | compactionRead key => simp [reply,answer]
  | compactionDrop key value => by_cases same : s.db key = some value <;> simp [answer,same]
  | now => simp [reply,answer]
  | walletContains addr => simp [reply,answer]
  | walletInsert addr => simp [reply,answer]
  | walletRemove addr => simp [reply,answer]
  | rpcSend request => simp [answer]
  | httpGet url => simp [answer]
  | delayFor secs => simp [answer]
  | serviceCall method scheme host path => simp [answer]

def atTime (c : Conditions) (now : Shared × Nat) : Shared := {now.1 with clock := c.clock now.2}

@[simp] theorem atTime_db (c : Conditions) (now : Shared × Nat) : (atTime c now).db = now.1.db := rfl
-- A store that keeps everything answers deletes and carries none of them out.
def carryOut (keeps : Bool) (c : Conditions) (s : Shared) (op : Op) : Shared :=
  match keeps,op with
  | true,.dbDelete _ => s
  | true,.compactionDrop _ _ => s
  | _,op => effect c s op

@[simp] theorem carryOut_get (keeps : Bool) (c : Conditions) (s : Shared) (key : Bytes) :
    carryOut keeps c s (.dbGet key) = s := by
  cases keeps <;> cases fault : c.getFault <;> simp [carryOut,effect,reply,outcomeOf,answer,fault]

@[simp] theorem carryOut_now (keeps : Bool) (c : Conditions) (s : Shared) : carryOut keeps c s .now = s := by
  cases keeps <;> simp [carryOut,effect,reply,answer]

theorem carryOut_put (keeps : Bool) (c : Conditions) (s : Shared) (key value : Bytes) :
    carryOut keeps c s (.dbPut key value) = if c.putFault = none then s.store key (some value) else s := by
  cases keeps <;> cases fault : c.putFault <;> simp [carryOut,effect,reply,outcomeOf,answer,fault]

theorem carryOut_delete (keeps : Bool) (c : Conditions) (s : Shared) (key : Bytes) :
    carryOut keeps c s (.dbDelete key) = if keeps = false ∧ c.deleteFault = none then s.store key none else s := by
  cases keeps <;> cases fault : c.deleteFault <;> simp [carryOut,effect,reply,outcomeOf,answer,fault]

theorem carryOut_drop (keeps : Bool) (c : Conditions) (s : Shared) (key value : Bytes) :
    carryOut keeps c s (.compactionDrop key value) =
      if keeps = false ∧ s.db key = some value then s.store key none else s := by
  cases keeps with
  | true => simp [carryOut]
  | false => by_cases current : s.db key = some value <;> simp [carryOut,effect,answer,current]

@[simp] theorem carryOut_compactionRead (keeps : Bool) (c : Conditions) (s : Shared) (key : Bytes) :
    carryOut keeps c s (.compactionRead key) = s := by
  cases keeps <;> simp [carryOut,effect,reply,answer]

def settle (keeps : Bool) (c : Conditions) (op : Op) (now : Shared × Nat) : Reply op × (Shared × Nat) :=
  (reply c (atTime c now) op,carryOut keeps c (atTime c now) op,now.2 + 1)

def visit (keeps : Bool) (d : Deployment) (c : Conditions) (request : Request) (s : Shared) :
    Outcome Panic ServerError Answer × Shared :=
  ((run (settle keeps c) (handle d request) (s,0)).1,(run (settle keeps c) (handle d request) (s,0)).2.1)

section Pools
variable {d : Deployment} {meets : ServerPool → Act Reply Request Clock → Prop} {origin : Shared} {s : ServerPool}

theorem carryOut_effect (c : Conditions) (s : Shared) (op : Op) : carryOut false c s op = effect c s op := by
  cases op <;> rfl

-- What one thread does alone is one way the pool can go.
theorem solo_reached (free : ∀ s act, meets s act) (c : Conditions) {i n : Nat} {request : Request}
    {program : Prog ServerError Answer} (path : Reached (server d) meets origin s)
    (standing : s.threads[i]? = some ⟨request,program⟩) :
    ∃ last, Reached (server d) meets origin last ∧ last.shared = (run (settle false c) program (s.shared,n)).2.1 ∧
      last.threads[i]? = some ⟨request,.stop (run (settle false c) program (s.shared,n)).1⟩ ∧
      ∀ j, j ≠ i → last.threads[j]? = s.threads[j]? := by
  induction program generalizing s n with
  | done value => exact ⟨s,path,rfl,standing,fun _ _ => rfl⟩
  | throw err => exact ⟨s,path,rfl,standing,fun _ _ => rfl⟩
  | panic fault => exact ⟨s,path,rfl,standing,fun _ _ => rfl⟩
  | call op next ih =>
    have timed : Reached (server d) meets origin {s with shared := atTime c (s.shared,n)} :=
      .step path (free _ _) (.surroundings rfl)
    have performed := Reached.step timed (free _ _) (.perform standing (reply_answered c (atTime c (s.shared,n)) op))
    have inside := (List.getElem?_eq_some_iff.mp standing).1
    obtain ⟨last,reached,shared,stopped,others⟩ := @ih _ _ (n + 1) performed (List.getElem?_set_self inside)
    refine ⟨last,reached,?_,?_,?_⟩
    · rw [shared,run_call,settle,carryOut_effect]
    · rw [stopped,run_call,settle,carryOut_effect]
    · intro j different
      rw [others j different]
      exact List.getElem?_set_ne (Ne.symm different)

theorem visit_reached (free : ∀ s act, meets s act) (c : Conditions) (request : Request)
    (path : Reached (server d) meets origin s) :
    ∃ last, Reached (server d) meets origin last ∧ last.shared = (visit false d c request s.shared).2 ∧
      last.threads[s.threads.length]? = some ⟨request,.stop (visit false d c request s.shared).1⟩ ∧
      ∀ (j : Nat) thread, s.threads[j]? = some thread → last.threads[j]? = some thread := by
  have arrived : Reached (server d) meets origin {s with threads := s.threads ++ [⟨request,handle d request⟩]} :=
    .step path (free _ _) .arrive
  obtain ⟨last,reached,shared,stopped,others⟩ := @solo_reached _ _ _ _ free c _ 0 _ _ arrived List.getElem?_concat_length
  refine ⟨last,reached,shared,stopped,?_⟩
  intro j thread found
  have earlier := (List.getElem?_eq_some_iff.mp found).1
  rw [others j (by omega)]
  exact (List.getElem?_append_left earlier).trans found

end Pools

-- What one entry is to a reader at one time.
inductive Lookup where
  | absent
  | broken (fault : Panic)
  | lapsed
  | current (metadata : AddressMetadata) (payload : Payload)

def lookup (d : Deployment) (entry : Option Bytes) (time : Clock) : Lookup :=
  match entry with
  | none => .absent
  | some raw =>
    match d.crates.decodeMetadata raw with
    | none => .broken .storedMetadata
    | some metadata =>
      match d.crates.decodePayload metadata.serializedPayload with
      | none => .broken .storedPayload
      | some payload =>
        match expiredAt d payload time with
        | none => .broken .overflow
        | some true => .lapsed
        | some false => .current metadata payload

theorem lookup_current {d : Deployment} {entry : Option Bytes} {time : Clock} {metadata : AddressMetadata} {payload : Payload}
    (found : lookup d entry time = .current metadata payload) : ∃ raw, entry = some raw ∧
      d.crates.decodeMetadata raw = some metadata ∧ d.crates.decodePayload metadata.serializedPayload = some payload ∧
        expiredAt d payload time = some false := by
  unfold lookup at found
  split at found
  · cases found
  · rename_i raw
    split at found
    · cases found
    · rename_i decoded
      split at found
      · cases found
      · rename_i read
        split at found
        · cases found
        · cases found
        · rename_i unexpired
          cases found
          exact ⟨raw,rfl,decoded,read,unexpired⟩

theorem lookup_lapsed {d : Deployment} {raw : Bytes} {time : Clock} : lookup d (some raw) time = .lapsed ↔ Stale d raw time := by
  unfold lookup Stale storedPayload
  cases decoded : d.crates.decodeMetadata raw with
  | none => simp [decoded]
  | some metadata =>
    cases read : d.crates.decodePayload metadata.serializedPayload with
    | none => simp [decoded,read]
    | some payload =>
      simp only [decoded,read,Option.bind_some]
      cases answer : expiredAt d payload time with
      | none => simp
      | some stale => cases stale <;> simp

def Lookup.result : Lookup → Outcome Panic RocksError (Option AddressMetadata)
  | .absent => .returned none
  | .broken fault => .panicked fault
  | .lapsed => .returned none
  | .current metadata _ => .returned (some metadata)

def getOutcome (c : Conditions) (found : Lookup) : Outcome Panic RocksError (Option AddressMetadata) :=
  match c.getFault,found,c.deleteFault with
  | some err,_,_ => .thrown err
  | none,.lapsed,some err => .thrown err
  | none,found,_ => found.result

def getLeaves (keeps : Bool) (c : Conditions) (found : Lookup) (key : Bytes) (s : Shared) : Shared :=
  match keeps,c.getFault,found,c.deleteFault with
  | false,none,.lapsed,none => s.store key none
  | _,_,_,_ => s

theorem getLeaves_other (keeps : Bool) (c : Conditions) (found : Lookup) {key other : Bytes} (s : Shared)
    (different : other ≠ key) : (getLeaves keeps c found key s).db other = s.db other := by
  unfold getLeaves
  split
  · exact store_other s none different
  · rfl

def checkOutcome (d : Deployment) (c : Conditions) (found : Lookup) (payload : Payload) (time : Clock) :
    Outcome Panic RocksError (Except ValidationError Unit) :=
  match getOutcome c found,found with
  | .thrown err,_ => .thrown err
  | .panicked fault,_ => .panicked fault
  | .returned _,.current _ old =>
    if payload.timestamp < old.timestamp then .returned (.error .outdated)
    else
      match expiredAt d payload time with
      | none => .panicked .overflow
      | some true => .returned (.error .expiredTtl)
      | some false => .returned (.ok ())
  | .returned _,_ => .returned (.ok ())

def storeOutcome {Error : Type} (d : Deployment) (c : Conditions) (found : Lookup) (payload : Payload) (time : Clock) :
    Outcome Panic Error PeerExit :=
  match checkOutcome d c found payload time,c.putFault with
  | .thrown err,_ => .returned (.checkFailed err)
  | .panicked fault,_ => .panicked fault
  | .returned (.error err),_ => .returned (.outdated err)
  | .returned (.ok ()),some err => .returned (.putFailed err)
  | .returned (.ok ()),none => .returned .stored

def presentFound (d : Deployment) : Outcome Panic RocksError (Option AddressMetadata) → Outcome Panic ServerError HttpResponse
  | .returned (some metadata) => .returned {status := .ok,body := d.crates.encodeMetadata metadata}
  | .returned none => .thrown .notFound
  | .thrown err => .thrown (.db err)
  | .panicked fault => .panicked fault

section Runs
variable {keeps : Bool} {d : Deployment} {c : Conditions} {now : Shared × Nat}

theorem run_expired {Error : Type} {payload : Payload} :
    (run (settle keeps c) (expired d payload : Prog Error Bool) now) =
      (match expiredAt d payload (c.clock now.2) with
        | some answer => .returned answer
        | none => .panicked .overflow,(settle keeps c .now now).2) := by
  unfold expired systemTimeNow
  cases sum : expiry d payload with
  | none => simp [sum,expiredAt]
  | some sum' =>
    simp only [sum,expiredAt,Program.call_bind,Program.done_bind,Program.unwrap_some,Option.map_some]
    rfl

theorem run_get (addr : Address) :
    (run (settle keeps c) (KeyDb.get d addr) now).1 =
        getOutcome c (lookup d (now.1.db addr.body) (c.clock (now.2 + 1))) ∧
      (run (settle keeps c) (KeyDb.get d addr) now).2.1.db =
        (getLeaves keeps c (lookup d (now.1.db addr.body) (c.clock (now.2 + 1))) addr.body now.1).db ∧
      ∀ metadata, (run (settle keeps c) (KeyDb.get d addr) now).1 = .returned (some metadata) →
        (run (settle keeps c) (KeyDb.get d addr) now).2.2 = now.2 + 2 := by
  simp only [KeyDb.get,rocksGet,Program.call_bind,run_call,settle,reply]
  cases failed : c.getFault with
  | some err => simp [outcomeOf,getOutcome,failed,getLeaves]
  | none =>
    simp only [outcomeOf,Program.fromResult_ok,Program.done_bind]
    cases entry : now.1.db addr.body with
    | none => simp [atTime,entry,lookup,getOutcome,failed,Lookup.result,getLeaves]
    | some raw =>
      cases decoded : d.crates.decodeMetadata raw with
      | none => simp [atTime,entry,decoded,lookup,getOutcome,failed,Lookup.result,getLeaves]
      | some metadata =>
        cases read : d.crates.decodePayload metadata.serializedPayload with
        | none => simp [atTime,entry,decoded,read,lookup,getOutcome,failed,Lookup.result,getLeaves]
        | some payload =>
          simp only [atTime_db,entry,decoded,read,lookup,Program.unwrap_some,Program.done_bind,carryOut_get,run_bind,
            run_expired]
          cases answer : expiredAt d payload (c.clock (now.2 + 1)) with
          | none => simp [getOutcome,failed,Lookup.result,getLeaves,settle]
          | some stale =>
            cases stale with
            | false => simp [getOutcome,failed,Lookup.result,getLeaves,settle]
            | true =>
              cases undeleted : c.deleteFault with
              | some err =>
                simp [getOutcome,failed,getLeaves,settle,rocksDelete,reply,outcomeOf,undeleted,carryOut_delete]
              | none =>
                cases keeps <;>
                  simp [getOutcome,failed,Lookup.result,getLeaves,settle,rocksDelete,reply,outcomeOf,undeleted,
                    carryOut_delete,Shared.store]

theorem run_getKey {addrStr : String} {addr : Address} (addressed : d.crates.decodeAddress addrStr = .ok addr) :
    (run (settle keeps c) (getKey d addrStr) now).1 = presentFound d (run (settle keeps c) (KeyDb.get d addr) now).1 ∧
      (run (settle keeps c) (getKey d addrStr) now).2 = (run (settle keeps c) (KeyDb.get d addr) now).2 := by
  simp only [getKey,decodeAddress,addressed,Program.done_bind,run_bind,run_mapError]
  rcases run (settle keeps c) (KeyDb.get d addr) now with ⟨result,last⟩
  cases result with
  | thrown err => simp [presentFound,Outcome.mapError]
  | panicked fault => simp [presentFound,Outcome.mapError]
  | returned found => cases found <;> simp [presentFound,Outcome.mapError]

theorem run_check (addr : Address) (payload : Payload) :
    (run (settle keeps c) (checkTimestamp d addr payload) now).1 =
        checkOutcome d c (lookup d (now.1.db addr.body) (c.clock (now.2 + 1))) payload (c.clock (now.2 + 2)) ∧
      (run (settle keeps c) (checkTimestamp d addr payload) now).2.1.db =
        (getLeaves keeps c (lookup d (now.1.db addr.body) (c.clock (now.2 + 1))) addr.body now.1).db := by
  obtain ⟨outcome,leaves,readings⟩ := @run_get keeps d c now addr
  unfold checkTimestamp
  rw [run_bind]
  generalize run (settle keeps c) (KeyDb.get d addr) now = got at outcome leaves readings ⊢
  obtain ⟨result,last⟩ := got
  simp only at outcome leaves readings ⊢
  generalize seen : lookup d (now.1.db addr.body) (c.clock (now.2 + 1)) = found at outcome leaves ⊢
  cases failed : c.getFault with
  | some err =>
    simp only [getOutcome,failed] at outcome
    subst outcome
    simpa [checkOutcome,getOutcome,failed] using leaves
  | none =>
    cases found with
    | absent =>
      simp only [getOutcome,failed,Lookup.result] at outcome
      subst outcome
      simpa [checkOutcome,getOutcome,failed,Lookup.result] using leaves
    | broken fault =>
      simp only [getOutcome,failed,Lookup.result] at outcome
      subst outcome
      simpa [checkOutcome,getOutcome,failed,Lookup.result] using leaves
    | lapsed =>
      cases undeleted : c.deleteFault with
      | some err =>
        simp only [getOutcome,failed,undeleted] at outcome
        subst outcome
        simpa [checkOutcome,getOutcome,failed,undeleted] using leaves
      | none =>
        simp only [getOutcome,failed,undeleted,Lookup.result] at outcome
        subst outcome
        simpa [checkOutcome,getOutcome,failed,undeleted,Lookup.result] using leaves
    | current metadata old =>
      obtain ⟨raw,entry,decoded,read,unexpired⟩ := lookup_current seen
      simp only [getOutcome,failed,Lookup.result] at outcome
      subst outcome
      have second : last.2 = now.2 + 2 := readings metadata rfl
      simp only [read,Program.unwrap_some,Program.done_bind,checkOutcome,getOutcome,failed,Lookup.result]
      split
      · exact ⟨rfl,leaves⟩
      · rw [run_bind,run_expired,second]
        cases answer : expiredAt d payload (c.clock (now.2 + 2)) with
        | none => simpa [settle] using leaves
        | some stale => cases stale <;> simpa [settle] using leaves

theorem run_store {Error : Type} (addr : Address) (metadata : AddressMetadata) (payload : Payload) :
    ∃ outcome : Outcome Panic Error PeerExit,
      outcome = storeOutcome d c (lookup d (now.1.db addr.body) (c.clock (now.2 + 1))) payload (c.clock (now.2 + 2)) ∧
      (run (settle keeps c) (storePulled d addr metadata payload) now).1 = outcome ∧
      (outcome = .returned .stored → (run (settle keeps c) (storePulled d addr metadata payload : Prog Error PeerExit) now).2.1.db =
        (now.1.store addr.body (some (d.crates.encodeMetadata metadata))).db) ∧
      (outcome ≠ .returned .stored → (run (settle keeps c) (storePulled d addr metadata payload : Prog Error PeerExit) now).2.1.db =
        (getLeaves keeps c (lookup d (now.1.db addr.body) (c.clock (now.2 + 1))) addr.body now.1).db) := by
  obtain ⟨outcome,leaves⟩ := @run_check keeps d c now addr payload
  refine ⟨_,rfl,?_⟩
  unfold storePulled
  rw [run_bind,run_attempt]
  generalize run (settle keeps c) (checkTimestamp d addr payload) now = checked at outcome leaves ⊢
  obtain ⟨result,last⟩ := checked
  simp only at outcome leaves ⊢
  unfold storeOutcome
  rw [← outcome]
  cases result with
  | thrown err => simpa [Outcome.attempt] using leaves
  | panicked fault => simpa [Outcome.attempt] using leaves
  | returned verdict =>
    cases verdict with
    | error err => simpa [Outcome.attempt] using leaves
    | ok admitted =>
      simp only [Outcome.attempt,KeyDb.put,rocksPut,Program.attempt_call,Program.call_bind,run_call,settle,reply,carryOut_put]
      cases failed : c.putFault with
      | some err => simpa [outcomeOf] using leaves
      | none =>
        refine ⟨rfl,fun _ => ?_,fun other => absurd rfl other⟩
        funext key
        by_cases same : key = addr.body
        · subst same
          simp [outcomeOf]
        · have kept := getLeaves_other keeps c (lookup d (now.1.db addr.body) (c.clock (now.2 + 1))) now.1 same
          rw [← leaves] at kept
          simpa [outcomeOf,Shared.store,same] using kept

end Runs

end Keyserver.SoloRuns
