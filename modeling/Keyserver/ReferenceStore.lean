import Keyserver.KeyRequests
import Keyserver.SoloRuns
import Keyserver.SampleDeployment

namespace Keyserver.ReferenceStore
open SharedPrograms SharedPrograms.Program SharedPools KeyDb KeyHandlers KeyProtocol KeyRequests SoloRuns SampleDeployment

variable {d : Deployment} {c : Conditions} {passes : Nat → List Bytes} {time stop : Clock} {p r : Shared} {n m : Nat}

def compacted (d : Deployment) (time : Clock) (keys : List Bytes) (s : Shared) : Shared :=
  keys.foldl (fun s key => (run (settle false {clock := fun _ => time}) (compact d key : Prog ServerError Unit) (s,0)).2.1) s

-- The store as it is: before each operation of a request compactions may pass.
def physical (d : Deployment) (c : Conditions) (passes : Nat → List Bytes) (op : Op) (now : Shared × Nat) :
    Reply op × (Shared × Nat) :=
  settle false c op (compacted d (c.clock now.2) (passes now.2) now.1,now.2)

section Pools
variable {meets : ServerPool → Act Reply Request Clock → Prop} {origin : Shared} {s : ServerPool}

theorem compacted_reached (free : ∀ s act, meets s act) (time : Clock) (keys : List Bytes)
    (path : Reached (server d) meets origin s) :
    ∃ last, Reached (server d) meets origin last ∧ last.shared = compacted d time keys s.shared ∧
      ∀ (j : Nat) thread, s.threads[j]? = some thread → last.threads[j]? = some thread := by
  induction keys generalizing s with
  | nil => exact ⟨s,path,rfl,fun _ _ found => found⟩
  | cons key keys ih =>
    obtain ⟨middle,reached,shared,-,others⟩ := visit_reached free {clock := fun _ => time} (.compaction key) path
    obtain ⟨last,reached',shared',others'⟩ := ih reached
    refine ⟨last,reached',?_,fun j thread found => others' j thread (others j thread found)⟩
    rw [shared',shared]
    simp only [visit,handle,run_map]
    rfl

-- What one thread does among compactions is one way the pool can go.
theorem physical_reached (free : ∀ s act, meets s act) {i n : Nat} {request : Request} {program : Prog ServerError Answer}
    (path : Reached (server d) meets origin s) (standing : s.threads[i]? = some ⟨request,program⟩) :
    ∃ last, Reached (server d) meets origin last ∧ last.shared = (run (physical d c passes) program (s.shared,n)).2.1 ∧
      last.threads[i]? = some ⟨request,.stop (run (physical d c passes) program (s.shared,n)).1⟩ ∧
      ∀ (j : Nat) thread, j ≠ i → s.threads[j]? = some thread → last.threads[j]? = some thread := by
  induction program generalizing s n with
  | done value => exact ⟨s,path,rfl,standing,fun _ _ _ found => found⟩
  | throw err => exact ⟨s,path,rfl,standing,fun _ _ _ found => found⟩
  | panic fault => exact ⟨s,path,rfl,standing,fun _ _ _ found => found⟩
  | call op next ih =>
    obtain ⟨passed,reached,shared,others⟩ := compacted_reached free (c.clock n) (passes n) path
    have still := others i _ standing
    have timed : Reached (server d) meets origin {passed with shared := atTime c (passed.shared,n)} :=
      .step reached (free _ _) (.surroundings rfl)
    have performed := Reached.step timed (free _ _) (.perform still (reply_answered c (atTime c (passed.shared,n)) op))
    have inside := (List.getElem?_eq_some_iff.mp still).1
    obtain ⟨last,finished,after,stopped,kept⟩ := @ih _ _ (n + 1) performed (List.getElem?_set_self inside)
    refine ⟨last,finished,?_,?_,?_⟩
    · rw [after,run_call,physical,settle,carryOut_effect,shared]
    · rw [stopped,run_call,physical,settle,carryOut_effect,shared]
    · intro j thread other found
      exact kept j thread other ((List.getElem?_set_ne (Ne.symm other)).trans (others j thread found))

end Pools

-- The store that never deletes anything.
def reference (c : Conditions) : (op : Op) → Shared × Nat → Reply op × (Shared × Nat) := settle true c

-- What is expected of a store that never deletes anything, while the database works:
-- a get answers by the entry and the clock and leaves all as it is, a put overwrites.
structure Keeps (d : Deployment) : Prop where
  absent : ∀ c s n (addr : Address), c.getFault = none → s.db addr.body = none →
    (run (reference c) (KeyDb.get d addr) (s,n)).1 = .returned none
  found : ∀ c s n (addr : Address) raw metadata payload stale, c.getFault = none → c.deleteFault = none →
    s.db addr.body = some raw → d.crates.decodeMetadata raw = some metadata →
    d.crates.decodePayload metadata.serializedPayload = some payload → expiredAt d payload (c.clock (n + 1)) = some stale →
    (run (reference c) (KeyDb.get d addr) (s,n)).1 = .returned (if stale then none else some metadata)
  untouched : ∀ c s n (addr : Address), (run (reference c) (KeyDb.get d addr) (s,n)).2.1.db = s.db
  overwritten : ∀ c s n (addr : Address) metadata, c.putFault = none →
    (run (reference c) (KeyDb.put d addr metadata) (s,n)).2.1.db =
      (s.store addr.body (some (d.crates.encodeMetadata metadata))).db

theorem reference_get (addr : Address) (s : Shared) :
    (run (reference c) (KeyDb.get d addr) (s,n)).1 = getOutcome c (lookup d (s.db addr.body) (c.clock (n + 1))) ∧
      (run (reference c) (KeyDb.get d addr) (s,n)).2.1.db = s.db := by
  obtain ⟨outcome,leaves,-⟩ := @run_get true d c (s,n) addr
  exact ⟨outcome,by simpa [getLeaves,reference] using leaves⟩

theorem reference_put (addr : Address) (metadata : AddressMetadata) (s : Shared) (writes : c.putFault = none) :
    (run (reference c) (KeyDb.put d addr metadata) (s,n)).2.1.db =
      (s.store addr.body (some (d.crates.encodeMetadata metadata))).db := by
  simp [KeyDb.put,rocksPut,reference,settle,reply,outcomeOf,carryOut_put,writes,Shared.store]

theorem reference_keeps (d : Deployment) : Keeps d where
  absent := by
    intro c s n addr reads entry
    rw [(reference_get addr s).1]
    simp [getOutcome,lookup,entry,reads,Lookup.result]
  found := by
    intro c s n addr raw metadata payload stale reads deletes entry decoded read judged
    rw [(reference_get addr s).1]
    cases stale <;> simp [getOutcome,lookup,entry,reads,deletes,decoded,read,judged,Lookup.result]
  untouched := fun _ s _ addr => (reference_get addr s).2
  overwritten := fun _ s _ addr metadata writes => reference_put addr metadata s writes

-- The store below the reference store: what is missing from it is expired.
def Below (d : Deployment) (time : Clock) (db kept : Bytes → Option Bytes) : Prop :=
  ∀ key, db key = kept key ∨ db key = none ∧ ∃ raw, kept key = some raw ∧ Stale d raw time

theorem Below.refl (db : Bytes → Option Bytes) : Below d time db db := fun _ => .inl rfl

theorem Below.later {db kept : Bytes → Option Bytes} (below : Below d time db kept) (order : time ≤ stop) :
    Below d stop db kept := by
  intro key
  rcases below key with same | ⟨missing,raw,entry,stale⟩
  · exact .inl same
  · exact .inr ⟨missing,raw,entry,stale.later order⟩

theorem Below.put (below : Below d time p.db r.db) (key : Bytes) (value : Option Bytes) :
    Below d time (p.store key value).db (r.store key value).db := by
  intro other
  by_cases same : other = key
  · subst same
    exact .inl (by rw [store_same,store_same])
  · rw [store_other p value same,store_other r value same]
    exact below other

theorem Below.remove {key raw : Bytes} (below : Below d time p.db r.db) (entry : r.db key = some raw)
    (stale : Stale d raw time) : Below d time (p.store key none).db r.db := by
  intro other
  by_cases same : other = key
  · subst same
    exact .inr ⟨store_same p other none,raw,entry,stale⟩
  · rw [store_other p none same]
    exact below other

theorem run_compact (key : Bytes) (s : Shared) :
    (run (settle false c) (compact d key : Prog ServerError Unit) (s,n)).2.1.db = s.db ∨
      ∃ raw, s.db key = some raw ∧ Stale d raw (c.clock (n + 1)) ∧
        (run (settle false c) (compact d key : Prog ServerError Unit) (s,n)).2.1.db = (s.store key none).db := by
  simp only [compact,run_call,settle,reply,atTime_db,carryOut_compactionRead]
  cases entry : s.db key with
  | none => simp
  | some raw =>
    simp only [ttlFilter,Option.some.injEq,exists_eq_left',Stale,storedPayload]
    cases decoded : d.crates.decodeMetadata raw with
    | none => simp
    | some metadata =>
      cases read : d.crates.decodePayload metadata.serializedPayload with
      | none => simp [read]
      | some payload =>
        simp only [read,unwrap_some,done_bind,bind_bind,run_bind,run_expired,Option.bind_some]
        cases answer : expiredAt d payload (c.clock (n + 1)) with
        | none => simp [settle]
        | some stale =>
          cases stale with
          | false => simp [settle]
          | true => simp [settle,carryOut_drop,entry,Shared.store]

theorem compacted_below (keys : List Bytes) (below : Below d time p.db r.db) :
    Below d time (compacted d time keys p).db r.db := by
  induction keys generalizing p with
  | nil => exact below
  | cons key keys ih =>
    apply ih
    rcases @run_compact d {clock := fun _ => time} 0 key p with same | ⟨raw,entry,stale,dropped⟩
    · rw [same]
      exact below
    · rw [dropped]
      rcases below key with kept | ⟨missing,-⟩
      · exact below.remove (kept ▸ entry) stale
      · rw [missing] at entry
        cases entry

def onFound (d : Deployment) (addr : Address) : Option Bytes → Prog RocksError (Option AddressMetadata)
  | none => .done none
  | some dat => do
    let metadata ← unwrap .storedMetadata (d.crates.decodeMetadata dat)
    let payload ← unwrap .storedPayload (d.crates.decodePayload metadata.serializedPayload)
    if ← expired d payload then
      rocksDelete addr.body
      return none
    else return some metadata

theorem get_eq (addr : Address) : KeyDb.get d addr = rocksGet addr.body >>= onFound d addr := by
  unfold KeyDb.get
  congr 1

-- Two runs of one program, on the store and on the reference store, that end
-- alike and leave the store below the reference store.
def Alike {Error α : Type} (d : Deployment) (c : Conditions) (left right : Outcome Panic Error α × (Shared × Nat)) : Prop :=
  left.1 = right.1 ∧ Below d (c.clock left.2.2) left.2.1.db right.2.1.db

-- The times of one request, and no failing delete.
structure Within (c : Conditions) (start stop : Clock) : Prop where
  lower : start ≤ c.clock 0
  order : ∀ n, c.clock n ≤ c.clock (n + 1)
  upper : ∀ n, c.clock n ≤ stop
  deletes : c.deleteFault = none

section Handlers
variable {start : Clock} (within : Within c start stop)

theorem alike_bind {Error α β : Type} {program : Prog Error α} {rest : α → Prog Error β} {left right : Shared × Nat}
    (first : Alike d c (run (physical d c passes) program left) (run (reference c) program right))
    (second : ∀ value left' right', run (physical d c passes) program left = (.returned value,left') →
      run (reference c) program right = (.returned value,right') → Below d (c.clock left'.2) left'.1.db right'.1.db →
      Alike d c (run (physical d c passes) (rest value) left') (run (reference c) (rest value) right')) :
    Alike d c (run (physical d c passes) (program >>= rest) left) (run (reference c) (program >>= rest) right) := by
  rw [run_bind,run_bind]
  generalize run (physical d c passes) program left = ended at first second ⊢
  generalize run (reference c) program right = ended' at first second ⊢
  obtain ⟨outcome,left'⟩ := ended
  obtain ⟨outcome',right'⟩ := ended'
  obtain ⟨same,below⟩ := first
  simp only at same below
  subst same
  cases outcome with
  | returned value => exact second value left' right' rfl rfl below
  | thrown err => exact ⟨rfl,below⟩
  | panicked fault => exact ⟨rfl,below⟩

theorem alike_mapError {Error Error' α : Type} {convert : Error → Error'} {program : Prog Error α} {left right : Shared × Nat}
    (alike : Alike d c (run (physical d c passes) program left) (run (reference c) program right)) :
    Alike d c (run (physical d c passes) (program.mapError convert) left)
      (run (reference c) (program.mapError convert) right) := by
  rw [run_mapError,run_mapError]
  exact ⟨congrArg (Outcome.mapError convert) alike.1,alike.2⟩

theorem alike_attempt {Error Error' α : Type} {program : Prog Error α} {left right : Shared × Nat}
    (alike : Alike d c (run (physical d c passes) program left) (run (reference c) program right)) :
    Alike d c (run (physical d c passes) (program.attempt : Prog Error' (Except Error α)) left)
      (run (reference c) (program.attempt : Prog Error' (Except Error α)) right) := by
  rw [run_attempt,run_attempt]
  exact ⟨congrArg Outcome.attempt alike.1,alike.2⟩

theorem met_below (below : Below d (c.clock n) p.db r.db) :
    Below d (c.clock n) (atTime c (compacted d (c.clock n) (passes n) p,n)).db (atTime c (r,m)).db :=
  compacted_below (passes n) below

-- The reference store keeps an expired entry and still returns nothing.
theorem reference_stale {addr : Address} {raw : Bytes} (deletes : c.deleteFault = none) (stale : Stale d raw (c.clock n)) :
    (run (reference c) (onFound d addr (some raw)) (r,n)).1 = .returned none ∧
      (run (reference c) (onFound d addr (some raw)) (r,n)).2.1.db = r.db := by
  unfold Stale storedPayload at stale
  cases decoded : d.crates.decodeMetadata raw with
  | none => simp [decoded] at stale
  | some metadata =>
    cases read : d.crates.decodePayload metadata.serializedPayload with
    | none => simp [decoded,read] at stale
    | some payload =>
      simp only [decoded,read,Option.bind_some] at stale
      simp only [onFound,decoded,read,unwrap_some,done_bind,run_bind,reference,run_expired,stale]
      simp [settle,rocksDelete,reply,outcomeOf,deletes,carryOut_delete]

include within

theorem alike_call {Error α : Type} {op : Op} {next : Reply op → Prog Error α}
    (outside : ∀ keeps s, (carryOut keeps c s op).db = s.db)
    (answered : ∀ s s', reply c (atTime c (s,n)) op = reply c (atTime c (s',m)) op)
    (below : Below d (c.clock n) p.db r.db)
    (rest : ∀ answer p r, Below d (c.clock (n + 1)) p.db r.db →
      Alike d c (run (physical d c passes) (next answer) (p,n + 1)) (run (reference c) (next answer) (r,m + 1))) :
    Alike d c (run (physical d c passes) (.call op next) (p,n)) (run (reference c) (.call op next) (r,m)) := by
  rw [run_call,run_call]
  simp only [physical,reference,settle]
  rw [answered _ r]
  apply rest
  rw [outside,outside]
  exact (met_below below).later (within.order n)

theorem alike_expired {Error : Type} (payload : Payload) (below : Below d (c.clock n) p.db r.db) :
    Alike d c (run (physical d c passes) (expired d payload : Prog Error Bool) (p,n))
      (run (reference c) (expired d payload : Prog Error Bool) (r,n)) := by
  unfold expired systemTimeNow
  apply alike_call within
  · intro keeps s
    rw [carryOut_now]
  · intro s s'
    rfl
  · exact below
  · intro clock p r below
    cases expiry d payload with
    | none => exact ⟨rfl,below⟩
    | some sum => exact ⟨rfl,below⟩

omit within in
theorem reference_expired {Error : Type} {payload : Payload} :
    run (reference c) (expired d payload : Prog Error Bool) (r,n) =
      (match expiredAt d payload (c.clock n) with
        | some answer => .returned answer
        | none => .panicked .overflow,atTime c (r,n),n + 1) := by
  unfold reference
  rw [run_expired]
  cases expiredAt d payload (c.clock n) <;> simp [settle]

omit within in
theorem expired_last {Error : Type} {answered : (op : Op) → Shared × Nat → Reply op × (Shared × Nat)}
    (counts : ∀ op now, (answered op now).2.2 = now.2 + 1) (payload : Payload) :
    (run answered (expired d payload : Prog Error Bool) (p,n)).2.2 = n + 1 := by
  unfold expired systemTimeNow
  simp only [call_bind,done_bind,run_call]
  cases expiry d payload with
  | none => exact counts .now (p,n)
  | some sum => exact counts .now (p,n)

theorem alike_put (addr : Address) (metadata : AddressMetadata) (below : Below d (c.clock n) p.db r.db) :
    Alike d c (run (physical d c passes) (KeyDb.put d addr metadata) (p,n))
      (run (reference c) (KeyDb.put d addr metadata) (r,m)) := by
  have later := (@met_below d c passes p r n m below).later (within.order n)
  simp only [KeyDb.put,rocksPut,run_call,physical,reference,settle,reply,carryOut_put]
  cases c.putFault with
  | some err => exact ⟨rfl,later⟩
  | none => exact ⟨rfl,later.put _ _⟩

theorem alike_delete {key raw : Bytes} (below : Below d (c.clock n) p.db r.db) (entry : r.db key = some raw)
    (stale : Stale d raw (c.clock n)) :
    Alike d c (run (physical d c passes) (rocksDelete key) (p,n)) (run (reference c) (rocksDelete key) (r,m)) := by
  have met := ((@met_below d c passes p r n m below).remove entry stale).later (within.order n)
  simp only [rocksDelete,run_call,physical,reference,settle,reply,within.deletes,carryOut_delete]
  exact ⟨rfl,met⟩

theorem alike_found {addr : Address} {raw : Bytes} (below : Below d (c.clock n) p.db r.db) (entry : r.db addr.body = some raw) :
    Alike d c (run (physical d c passes) (onFound d addr (some raw)) (p,n))
        (run (reference c) (onFound d addr (some raw)) (r,n)) ∧
      ∀ metadata, (run (physical d c passes) (onFound d addr (some raw)) (p,n)).1 = .returned (some metadata) →
        (run (physical d c passes) (onFound d addr (some raw)) (p,n)).2.2 =
          (run (reference c) (onFound d addr (some raw)) (r,n)).2.2 := by
  cases decoded : d.crates.decodeMetadata raw with
  | none => simp [onFound,decoded,Alike,below]
  | some metadata =>
    cases read : d.crates.decodePayload metadata.serializedPayload with
    | none => simp [onFound,decoded,read,Alike,below]
    | some payload =>
      simp only [onFound,decoded,read,unwrap_some,done_bind]
      have ended := @alike_expired d c passes stop p r n start within RocksError payload below
      have last := @expired_last d p n RocksError (physical d c passes) (fun _ _ => rfl) payload
      rw [run_bind,run_bind]
      rw [reference_expired] at ended ⊢
      generalize run (physical d c passes) (expired d payload : Prog RocksError Bool) (p,n) = left at ended last ⊢
      obtain ⟨outcome,left,index⟩ := left
      obtain ⟨same,later⟩ := ended
      simp only at same later last
      subst same last
      cases answer : expiredAt d payload (c.clock n) with
      | none => exact ⟨⟨rfl,later⟩,by simp⟩
      | some stale =>
        cases stale with
        | false => exact ⟨⟨rfl,later⟩,by simp⟩
        | true =>
          have lapsed : Stale d raw (c.clock n) := by simp [Stale,storedPayload,decoded,read,answer]
          have deleted := @alike_delete d c passes stop left (atTime c (r,n)) (n + 1) (n + 1) start within addr.body raw
            later entry (lapsed.later (within.order n))
          exact ⟨alike_bind deleted fun _ _ _ _ _ below => ⟨rfl,below⟩,by
            simp [rocksDelete,physical,settle,reply,outcomeOf,within.deletes]⟩

-- Where the stores differ, a `get` of either returns nothing; a `get` that
-- returns an entry has taken both runs equally far.
theorem alike_get (addr : Address) (below : Below d (c.clock n) p.db r.db) :
    Alike d c (run (physical d c passes) (KeyDb.get d addr) (p,n)) (run (reference c) (KeyDb.get d addr) (r,n)) ∧
      ∀ metadata, (run (physical d c passes) (KeyDb.get d addr) (p,n)).1 = .returned (some metadata) →
        (run (physical d c passes) (KeyDb.get d addr) (p,n)).2.2 = (run (reference c) (KeyDb.get d addr) (r,n)).2.2 := by
  have met := @met_below d c passes p r n n below
  have later := met.later (within.order n)
  rw [get_eq]
  simp only [rocksGet,call_bind,run_call]
  simp only [physical,reference,settle,reply,carryOut_get]
  cases c.getFault with
  | some err => exact ⟨⟨rfl,later⟩,by simp [outcomeOf]⟩
  | none =>
    simp only [outcomeOf,fromResult_ok,done_bind]
    rcases met addr.body with same | ⟨missing,raw,entry,stale⟩
    · rw [same]
      cases entry : (atTime c (r,n)).db addr.body with
      | none => exact ⟨⟨rfl,later⟩,by simp [onFound]⟩
      | some raw => exact alike_found within later entry
    · rw [missing,entry]
      obtain ⟨nothing,unchanged⟩ := @reference_stale d c (atTime c (r,n)) (n + 1) addr raw within.deletes
        (stale.later (within.order n))
      refine ⟨⟨nothing.symm,?_⟩,by simp [onFound]⟩
      rw [← unchanged] at later
      exact later

-- The verdict on new metadata reads the clock only where both runs found some.
theorem alike_check (addr : Address) (payload : Payload) (below : Below d (c.clock n) p.db r.db) :
    Alike d c (run (physical d c passes) (checkTimestamp d addr payload) (p,n))
      (run (reference c) (checkTimestamp d addr payload) (r,n)) := by
  obtain ⟨got,equally⟩ := @alike_get d c passes stop p r n start within addr below
  apply alike_bind got
  intro found left right leftIs rightIs below
  cases found with
  | none => exact ⟨rfl,below⟩
  | some metadata =>
    have aligned := equally metadata (congrArg Prod.fst leftIs)
    rw [leftIs,rightIs] at aligned
    obtain ⟨left,index⟩ := left
    obtain ⟨right,index'⟩ := right
    simp only at aligned
    subst aligned
    cases read : d.crates.decodePayload metadata.serializedPayload with
    | none => exact ⟨by simp [read],by simpa [read] using below⟩
    | some old =>
      simp only [read,unwrap_some,done_bind]
      split
      · exact ⟨rfl,below⟩
      · apply alike_bind (alike_expired within payload below)
        intro stale left right _ _ below
        cases stale <;> exact ⟨rfl,below⟩

theorem alike_store {Error : Type} (addr : Address) (metadata : AddressMetadata) (payload : Payload)
    (below : Below d (c.clock n) p.db r.db) :
    Alike d c (run (physical d c passes) (storePulled d addr metadata payload : Prog Error PeerExit) (p,n))
      (run (reference c) (storePulled d addr metadata payload : Prog Error PeerExit) (r,n)) := by
  unfold storePulled
  apply alike_bind (alike_attempt (alike_check within addr payload below))
  intro verdict left right _ _ below
  rcases verdict with err | refused | admitted
  · exact ⟨rfl,below⟩
  · exact ⟨rfl,below⟩
  · apply alike_bind (alike_attempt (alike_put within addr metadata below))
    intro written left right _ _ below
    cases written <;> exact ⟨rfl,below⟩

theorem alike_getKey (addrStr : String) (below : Below d (c.clock n) p.db r.db) :
    Alike d c (run (physical d c passes) (getKey d addrStr) (p,n)) (run (reference c) (getKey d addrStr) (r,n)) := by
  unfold getKey decodeAddress
  cases d.crates.decodeAddress addrStr with
  | error err => exact ⟨rfl,below⟩
  | ok addr =>
    simp only [done_bind]
    apply alike_bind (alike_mapError (alike_get within addr below).1)
    intro found left right _ _ below
    cases found <;> exact ⟨rfl,below⟩

theorem alike_putKey (addrStr : String) (payload : List (Except String Bytes)) (below : Below d (c.clock n) p.db r.db) :
    Alike d c (run (physical d c passes) (putKey d addrStr payload) (p,n))
      (run (reference c) (putKey d addrStr payload) (r,n)) := by
  have form := putKey_form d addrStr payload
  generalize putKey d addrStr payload = program at form ⊢
  cases form with
  | refused unmet => exact ⟨rfl,below⟩
  | panicked unmet => exact ⟨rfl,below⟩
  | admitted met =>
    apply alike_bind (alike_store within _ _ _ below)
    intro exit left right _ _ below
    cases exit <;> exact ⟨rfl,below⟩

theorem alike_pull {Error : Type} (addr : Address) (raw : Bytes) (below : Below d (c.clock n) p.db r.db) :
    Alike d c (run (physical d c passes) (pullMetadata d addr raw : Prog Error PeerExit) (p,n))
      (run (reference c) (pullMetadata d addr raw : Prog Error PeerExit) (r,n)) := by
  have form : PullForm d addr raw (pullMetadata d addr raw : Prog Error PeerExit) := pull_form d addr raw
  generalize (pullMetadata d addr raw : Prog Error PeerExit) = program at form ⊢
  cases form with
  | refused unmet other => exact ⟨rfl,below⟩
  | panicked unmet => exact ⟨rfl,below⟩
  | admitted met => exact alike_store within _ _ _ below

theorem alike_peer {Error : Type} (res : Except Bitcoin.StreamError (String × Address))
    (below : Below d (c.clock n) p.db r.db) :
    Alike d c (run (physical d c passes) (peerPolling d res : Prog Error PeerExit) (p,n))
      (run (reference c) (peerPolling d res : Prog Error PeerExit) (r,n)) := by
  rcases res with err | ⟨peerAddr,bitcoinAddr⟩
  · exact ⟨rfl,below⟩
  · unfold peerPolling
    cases encoded : d.crates.encodeAddress bitcoinAddr with
    | error err =>
      simp only [encoded]
      exact ⟨rfl,below⟩
    | ok bitcoinAddrStr =>
      simp only [encoded,delayFor,call_bind,done_bind]
      apply alike_call within (fun keeps s => by cases keeps <;> rfl) (fun _ _ => rfl) below
      intro _ p r below
      unfold getMetadata
      cases d.crates.urlParse (peerAddr ++ "/keys/" ++ bitcoinAddrStr) with
      | error err => exact ⟨rfl,below⟩
      | ok url =>
        simp only [fromResult_ok,mapError_done,done_bind,httpGet,mapError_call,attempt_call,call_bind]
        apply alike_call within (fun keeps s => by cases keeps <;> rfl) (fun _ _ => rfl) below
        intro fetched p r below
        cases fetched with
        | error err => exact ⟨rfl,below⟩
        | ok raw => exact alike_pull within bitcoinAddr raw below

end Handlers

inductive Stored : Request → Prop where
  | getKey : Stored (.getKey addrStr)
  | putKey : Stored (.putKey addrStr payload)
  | peerItem : Stored (.peerItem res)

theorem alike_handle {request : Request} {start : Clock} (within : Within c start stop) (stored : Stored request)
    (below : Below d (c.clock 0) p.db r.db) :
    Alike d c (run (physical d c passes) (handle d request) (p,0)) (run (reference c) (handle d request) (r,0)) := by
  cases stored with
  | getKey => exact alike_bind (alike_getKey within _ below) fun _ _ _ _ _ below => ⟨rfl,below⟩
  | putKey => exact alike_bind (alike_putKey within _ _ below) fun _ _ _ _ _ below => ⟨rfl,below⟩
  | peerItem => exact alike_bind (alike_peer within _ below) fun _ _ _ _ _ below => ⟨rfl,below⟩

-- One request of a sequential run, with the compactions that pass meanwhile.
structure Serving where
  conditions : Conditions
  passes : Nat → List Bytes
  request : Request

inductive Ordered : Clock → List Serving → Prop where
  | nil {start : Clock} : Ordered start []
  | cons {serving : Serving} {servings : List Serving} {start finish : Clock}
      (within : Within serving.conditions start finish) (stored : Stored serving.request)
      (rest : Ordered finish servings) : Ordered start (serving :: servings)

def responses (d : Deployment) (answered : Serving → (op : Op) → Shared × Nat → Reply op × (Shared × Nat)) :
    List Serving → Shared → List (Outcome Panic ServerError Answer)
  | [],_ => []
  | serving :: servings,s =>
    (run (answered serving) (handle d serving.request) (s,0)).1 ::
      responses d answered servings (run (answered serving) (handle d serving.request) (s,0)).2.1

def deleting (d : Deployment) (serving : Serving) := physical d serving.conditions serving.passes

def keeping (serving : Serving) := reference serving.conditions

theorem below_responses {start : Clock} {servings : List Serving} (ordered : Ordered start servings)
    (below : Below d start p.db r.db) : responses d (deleting d) servings p = responses d keeping servings r := by
  induction ordered generalizing p r with
  | nil => rfl
  | @cons serving servings start finish within stored rest ih =>
    obtain ⟨same,later⟩ := @alike_handle d serving.conditions serving.passes finish p r serving.request start within
      stored (below.later within.lower)
    have next := ih (later.later (within.upper _))
    simp only [responses,deleting,keeping,same] at next ⊢
    exact congrArg _ next

-- The requests are answered so in a run of the pool, each after the one before it.
def Happens (d : Deployment) (servings : List Serving) (s : Shared) : Prop :=
  ∀ origin pool, Reached (server d) (fun _ _ => True) origin pool → pool.shared = s → ∃ (last : ServerPool) (place : Nat → Nat),
    Reached (server d) (fun _ _ => True) origin last ∧ (∀ n, place n < place (n + 1)) ∧ pool.threads.length ≤ place 0 ∧
      ∀ n serving answered, servings[n]? = some serving → (responses d (deleting d) servings s)[n]? = some answered →
        last.threads[place n]? = some ⟨serving.request,.stop answered⟩

theorem serving_reached {origin : Shared} {pool : ServerPool} (path : Reached (server d) (fun _ _ => True) origin pool)
    (serving : Serving) : ∃ last, Reached (server d) (fun _ _ => True) origin last ∧
      last.shared = (run (deleting d serving) (handle d serving.request) (pool.shared,0)).2.1 ∧
      last.threads[pool.threads.length]? =
        some ⟨serving.request,.stop (run (deleting d serving) (handle d serving.request) (pool.shared,0)).1⟩ ∧
      ∀ (j : Nat) thread, pool.threads[j]? = some thread → last.threads[j]? = some thread := by
  have arrived : Reached (server d) (fun _ _ => True) origin
    {pool with threads := pool.threads ++ [⟨serving.request,handle d serving.request⟩]} := .step path trivial .arrive
  obtain ⟨last,reached,shared,stopped,kept⟩ := @physical_reached d serving.conditions serving.passes (fun _ _ => True) _ _
    (fun _ _ => trivial) _ 0 _ _ arrived List.getElem?_concat_length
  refine ⟨last,reached,shared,stopped,?_⟩
  intro j thread found
  have earlier := (List.getElem?_eq_some_iff.mp found).1
  exact kept j thread (by omega) ((List.getElem?_append_left earlier).trans found)

theorem servings_reached (servings : List Serving) {origin : Shared} {pool : ServerPool}
    (path : Reached (server d) (fun _ _ => True) origin pool) : ∃ (last : ServerPool) (place : Nat → Nat),
      Reached (server d) (fun _ _ => True) origin last ∧ (∀ n, place n < place (n + 1)) ∧ pool.threads.length ≤ place 0 ∧
      (∀ (j : Nat) thread, pool.threads[j]? = some thread → last.threads[j]? = some thread) ∧
      ∀ n serving answered, servings[n]? = some serving →
        (responses d (deleting d) servings pool.shared)[n]? = some answered →
          last.threads[place n]? = some ⟨serving.request,.stop answered⟩ := by
  induction servings generalizing pool with
  | nil =>
    refine ⟨pool,fun n => pool.threads.length + n,path,?_,Nat.le_refl _,fun _ _ found => found,by simp⟩
    exact fun n => Nat.lt_succ_self (pool.threads.length + n)
  | cons first rest ih =>
    obtain ⟨middle,reached,shared,answered,kept⟩ := serving_reached path first
    obtain ⟨last,place,reached',rising,after,kept',later⟩ := ih reached
    have longer : pool.threads.length < place 0 :=
      Nat.lt_of_lt_of_le (List.getElem?_eq_some_iff.mp answered).1 after
    refine ⟨last,fun n => n.casesOn pool.threads.length place,reached',?_,Nat.le_refl _,
      fun j thread found => kept' j thread (kept j thread found),?_⟩
    · intro n
      cases n with
      | zero => exact longer
      | succ n => exact rising n
    · intro n serving outcome listed responded
      cases n with
      | zero =>
        cases listed
        cases responded
        exact kept' _ _ answered
      | succ n =>
        refine later n serving outcome listed ?_
        rw [shared]
        exact responded

-- Deletes and compactions are unobservable: in runs of the pool, every response is
-- the one of the store that never deletes anything.
theorem responses_kept {start : Clock} {servings : List Serving} (ordered : Ordered start servings) (s : Shared) :
    responses d (deleting d) servings s = responses d keeping servings s ∧ Keeps d ∧ Happens d servings s := by
  refine ⟨below_responses ordered (.refl s.db),reference_keeps d,?_⟩
  intro origin pool path same
  subst same
  obtain ⟨last,place,reached,rising,after,-,answered⟩ := servings_reached servings path
  exact ⟨last,place,reached,rising,after,answered⟩

theorem steady_within (secs later : Nat) (bounded : secs < 2 ^ 63) (bounded' : later < 2 ^ 63) (order : secs ≤ later) :
    Within (steady later bounded') (clockAt secs bounded) (clockAt later bounded') where
  lower := order
  order := fun _ => Nat.le_refl _
  upper := fun _ => Nat.le_refl _
  deletes := rfl

-- The entry lapses and is compacted away while a `get_key` is reading it.
def compactedWhileRead : List Serving :=
  [⟨steady 100,fun _ => [],putOwner early⟩,
    ⟨steady 111,fun n => if n = 1 then [ownerHash] else [],.getKey ownerAddress⟩,
    ⟨steady 111,fun _ => [ownerHash],putOwner long⟩,
    ⟨steady 111,fun _ => [],.getKey ownerAddress⟩]

theorem compaction_unobserved : responses (deployment false) (deleting (deployment false)) compactedWhileRead
      (Shared.empty epoch) = responses (deployment false) keeping compactedWhileRead (Shared.empty epoch) ∧
    responses (deployment false) keeping compactedWhileRead (Shared.empty epoch) =
      [.returned (.http {status := .ok}),.thrown .notFound,.returned (.http {status := .ok}),
        .returned (.http {status := .ok,body := body 1 long})] := by
  have ordered : Ordered (clockAt 0) compactedWhileRead :=
    .cons (steady_within 0 100 (by decide) (by decide) (by decide)) .putKey <|
      .cons (steady_within 100 111 (by decide) (by decide) (by decide)) .getKey <|
        .cons (steady_within 111 111 (by decide) (by decide) (by decide)) .putKey <|
          .cons (steady_within 111 111 (by decide) (by decide) (by decide)) .getKey .nil
  exact ⟨(responses_kept ordered (Shared.empty epoch)).1,by decide +kernel⟩

end Keyserver.ReferenceStore
