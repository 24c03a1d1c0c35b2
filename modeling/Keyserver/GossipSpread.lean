import Mathlib
import Keyserver.SharedGossip
import Keyserver.PeerNetwork
import Keyserver.IngestionVisits
import Keyserver.StoreAuthenticity

namespace Keyserver.GossipSpread
open SharedPrograms SharedPrograms.Program SharedPools SharedNetworks SharedGossip KeyDb KeyHandlers KeyProtocol KeyRequests
  Payments PaymentProtocol SoloRuns IngestionVisits IngestionAgreement PeerNetwork

-- What a server has for a key at a time: the timestamp of its entry, if it is unexpired.
def level (d : Deployment) (time : Clock) (key : Bytes) (s : Shared) : WithBot Int :=
  match lookup d (s.db key) time with
  | .current _ payload => (payload.timestamp.toInt : Int)
  | _ => ⊥

-- The entry of the key is signed for it, and does not expire from the one time to the other.
def Steady (d : Deployment) (start stop : Clock) (key : Bytes) (s : Shared) : Prop :=
  ∀ raw, s.db key = some raw → ∃ metadata payload, raw = d.crates.encodeMetadata metadata ∧ Attested d key metadata payload ∧
    (expiredAt d payload start = some true ∨ expiredAt d payload stop = some false)

-- The database works, and the clock stays within these times.
structure Calm (c : Conditions) (start stop : Clock) : Prop where
  reads : c.getFault = none
  writes : c.putFault = none
  deletes : c.deleteFault = none
  lower : ∀ n, start ≤ c.clock n
  upper : ∀ n, c.clock n ≤ stop

variable {d : Deployment} {c : Conditions} {start stop time : Clock} {key : Bytes} {s after : Shared}

theorem expiredAt_earlier {payload : Payload} (unexpired : expiredAt d payload stop = some false) (order : time ≤ stop) :
    expiredAt d payload time = some false := by
  cases answer : expiredAt d payload time with
  | none =>
    unfold expiredAt at answer unexpired
    cases sum : expiry d payload <;> simp [sum] at answer unexpired
  | some stale =>
    cases stale with
    | false => rfl
    | true => cases unexpired.symm.trans (expiredAt_later answer order)

-- What a reader finds under the key at any of these times.
inductive Seen (d : Deployment) (start stop : Clock) (key : Bytes) (s : Shared) : Lookup → Prop where
  | absent (nothing : s.db key = none) : Seen d start stop key s .absent
  | lapsed (stale : level d start key s = ⊥) : Seen d start stop key s .lapsed
  | current (entry : s.db key = some (d.crates.encodeMetadata metadata)) (attested : Attested d key metadata payload)
      (lasting : expiredAt d payload stop = some false) (stands : level d start key s = (payload.timestamp.toInt : Int)) :
      Seen d start stop key s (.current metadata payload)

theorem steady_seen (codec : d.crates.RoundTrips) (steady : Steady d start stop key s) (lower : start ≤ time)
    (upper : time ≤ stop) : Seen d start stop key s (lookup d (s.db key) time) := by
  cases entry : s.db key with
  | none => exact .absent entry
  | some raw =>
    obtain ⟨metadata,payload,rfl,attested,lasting⟩ := steady raw entry
    have found : ∀ {moment answer}, expiredAt d payload moment = some answer →
        lookup d (some (d.crates.encodeMetadata metadata)) moment = if answer then .lapsed else .current metadata payload := by
      intro moment answer read
      cases answer <;> simp [lookup,codec metadata,attested.payload,read]
    rcases lasting with stale | unexpired
    · rw [found (expiredAt_later stale lower)]
      exact .lapsed (by simp [level,entry,found stale])
    · have order : start ≤ stop := Nat.le_trans lower upper
      rw [found (expiredAt_earlier unexpired upper)]
      exact .current entry attested unexpired (by simp [level,entry,found (expiredAt_earlier unexpired order)])

-- Only the removal of an expired entry is behind a read.
theorem leaves_steady (codec : d.crates.RoundTrips) (steady : Steady d start stop key s) (lower : start ≤ time)
    (upper : time ≤ stop) (left : after.db = (getLeaves false c (lookup d (s.db key) time) key s).db) :
    Steady d start stop key after ∧ level d start key after = level d start key s := by
  have seen := steady_seen codec steady lower upper
  generalize lookup d (s.db key) time = found at seen left
  have either : after.db = s.db ∨ after.db key = none ∧ level d start key s = ⊥ := by
    cases seen with
    | absent nothing => exact .inl (by simpa [getLeaves] using left)
    | current entry attested lasting stands => exact .inl (by simpa [getLeaves] using left)
    | lapsed stale =>
      unfold getLeaves at left
      split at left
      · exact .inr ⟨by rw [left,store_same],stale⟩
      · exact .inl left
  rcases either with same | ⟨removed,stale⟩
  · refine ⟨fun raw entry => steady raw (same ▸ entry),?_⟩
    rw [level,level,same]
  · refine ⟨fun raw entry => ?_,?_⟩
    · cases removed.symm.trans entry
    · rw [stale,level,removed]
      rfl

theorem visit_keys {req : HttpRequest} {addrStr : String} (get : req.method = .get)
    (route : d.crates.routeAddr req.path = some addrStr) : visit false d c (.keys req) s =
      ((run (settle false c) (getKey d addrStr) ({s with clock := c.clock 0},1)).1.map Answer.http,
        (run (settle false c) (getKey d addrStr) ({s with clock := c.clock 0},1)).2.1) := by
  have form : handle d (.keys req) =
      .call (.serviceCall req.method req.scheme req.host req.path) fun _ => Answer.http <$> getKey d addrStr := by
    simp only [handle,keysResource,route,Payments.call,get,forward,keysService,ne_eq,reduceCtorEq,not_false_eq_true,if_true]
    rfl
  rw [visit,form,run_call,run_map]
  rfl

-- What a get over the routes comes to.
inductive Asked (d : Deployment) (start stop : Clock) (key : Bytes) (s : Shared) : Outcome Panic ServerError Answer → Prop where
  | missing (nothing : level d start key s = ⊥) : Asked d start stop key s (.thrown .notFound)
  | found (attested : Attested d key metadata payload) (lasting : expiredAt d payload stop = some false)
      (stands : level d start key s = (payload.timestamp.toInt : Int)) :
      Asked d start stop key s (.returned (.http {status := .ok,body := d.crates.encodeMetadata metadata}))

theorem asked_keeps (codec : d.crates.RoundTrips) (steady : Steady d start stop key s) (calm : Calm c start stop)
    {req : HttpRequest} {addrStr : String} {addr : Address} (get : req.method = .get)
    (route : d.crates.routeAddr req.path = some addrStr) (addressed : d.crates.decodeAddress addrStr = .ok addr)
    (same : addr.body = key) : Asked d start stop key s (visit false d c (.keys req) s).1 ∧
      Steady d start stop key (visit false d c (.keys req) s).2 ∧
        level d start key (visit false d c (.keys req) s).2 = level d start key s := by
  subst same
  rw [visit_keys get route]
  obtain ⟨result,last⟩ := @run_getKey false d c ({s with clock := c.clock 0},1) addrStr addr addressed
  obtain ⟨outcome,leaves,-⟩ := @run_get false d c ({s with clock := c.clock 0},1) addr
  rw [result,last,outcome]
  refine ⟨?_,leaves_steady codec steady (calm.lower 2) (calm.upper 2) (leaves.trans (getLeaves_db rfl))⟩
  have seen := steady_seen codec steady (calm.lower 2) (calm.upper 2)
  dsimp only
  generalize lookup d (s.db addr.body) (c.clock 2) = found at seen ⊢
  simp only [getOutcome,calm.reads,calm.deletes]
  cases seen with
  | absent nothing =>
    apply Asked.missing
    simp [level,nothing,lookup]
  | lapsed stale => exact .missing stale
  | current entry attested lasting stands => exact .found attested lasting stands

-- A poll that brings signed metadata leaves the better of the two entries.
theorem polled_takes (codec : d.crates.RoundTrips) (steady : Steady d start stop key s) (calm : Calm c start stop)
    {request : Request} {addr : Address} {metadata : AddressMetadata} {payload : Payload}
    (delivers : Delivers d c addr metadata payload request) (same : addr.body = key)
    (lasting : expiredAt d payload stop = some false) : Steady d start stop key (visit false d c request s).2 ∧
      level d start key (visit false d c request s).2 = max (level d start key s) (payload.timestamp.toInt : Int) := by
  subst same
  obtain ⟨-,stored,kept⟩ := visit_delivers delivers s
  have attested := delivers.attested
  have order : start ≤ stop := Nat.le_trans (calm.lower 0) (calm.upper 0)
  have written : storing d c request addr payload s = .returned .stored →
      Steady d start stop addr.body (visit false d c request s).2 ∧
        level d start addr.body (visit false d c request s).2 = (payload.timestamp.toInt : Int) := by
    intro outcome
    have entry : (visit false d c request s).2.db addr.body = some (d.crates.encodeMetadata metadata) := by
      rw [stored outcome,store_same]
    refine ⟨fun raw present => ?_,?_⟩
    · obtain rfl := Option.some.inj (entry.symm.trans present)
      exact ⟨metadata,payload,rfl,attested,.inr lasting⟩
    · simp [level,entry,lookup,codec metadata,attested.payload,expiredAt_earlier lasting order]
  have unwritten : storing d c request addr payload s ≠ .returned .stored →
      Steady d start stop addr.body (visit false d c request s).2 ∧
        level d start addr.body (visit false d c request s).2 = level d start addr.body s :=
    fun outcome => leaves_steady codec steady (calm.lower _) (calm.upper _) (kept outcome)
  have seen := steady_seen codec steady (calm.lower (opsBefore request + 1)) (calm.upper (opsBefore request + 1))
  have stands : storing d c request addr payload s = storeOutcome d c (lookup d (s.db addr.body)
    (c.clock (opsBefore request + 1))) payload (c.clock (opsBefore request + 2)) := rfl
  generalize lookup d (s.db addr.body) (c.clock (opsBefore request + 1)) = found at seen stands
  have unexpired := expiredAt_earlier lasting (calm.upper (opsBefore request + 2))
  simp only [storeOutcome,checkOutcome,getOutcome,calm.reads,calm.writes,calm.deletes] at stands
  cases seen with
  | absent nothing =>
    have bottom : level d start addr.body s = ⊥ := by simp [level,nothing,lookup]
    rw [bottom,max_eq_right bot_le]
    exact written stands
  | lapsed stale =>
    rw [stale,max_eq_right bot_le]
    exact written stands
  | @current old oldPayload entry attested' lasting' stands' =>
    simp only [Lookup.result] at stands
    by_cases older : payload.timestamp < oldPayload.timestamp
    · simp only [if_pos older] at stands
      obtain ⟨steady',same⟩ := unwritten (by rw [stands]; simp)
      refine ⟨steady',?_⟩
      rw [same,stands',max_eq_left]
      rw [Int64.lt_iff_toInt_lt] at older
      exact WithBot.coe_le_coe.mpr (Int.le_of_lt older)
    · simp only [if_neg older,unexpired] at stands
      obtain ⟨steady',same⟩ := written stands
      refine ⟨steady',?_⟩
      rw [same,stands',max_eq_right]
      rw [Int64.lt_iff_toInt_lt] at older
      exact WithBot.coe_le_coe.mpr (Int.not_lt.mp older)

variable {Node : Type} {f : Federation Node}

-- An address under the names by which the servers ask one another for it.
structure Topic (f : Federation Node) where
  addr : Address
  addrStr : String
  peerAddr : Node → String
  request : Node → HttpRequest
  encoded : f.crates.encodeAddress addr = .ok addrStr
  decoded : ∃ other, f.crates.decodeAddress addrStr = .ok other ∧ other.body = addr.body
  parsed : ∀ node, ∃ url, f.crates.urlParse (peerAddr node ++ "/keys/" ++ addrStr) = .ok url
  get : ∀ node, (request node).method = .get
  route : ∀ node, f.crates.routeAddr (request node).path = some addrStr

-- One server polls another, with what their clocks show meanwhile.
structure Poll (Node : Type) where
  taker : Node
  source : Node
  asked : Nat → Clock
  polled : Nat → Clock

def Poll.exchange (poll : Poll Node) : Exchange Node := ⟨poll.taker,poll.source⟩

structure Poll.Within (poll : Poll Node) (start stop : Clock) : Prop where
  apart : poll.taker ≠ poll.source
  asked : ∀ n, start ≤ poll.asked n ∧ poll.asked n ≤ stop
  polled : ∀ n, start ≤ poll.polled n ∧ poll.polled n ≤ stop

-- What a fetch gets of the response.
def fetched : Outcome Panic ServerError Answer → Except String Bytes
  | .returned (.http resp) => .ok resp.body
  | .thrown err => .ok err.errorResponse.body
  | _ => .error "connection closed"

theorem expiredAt_alike (alike : ∀ one two, f.overflowChecks one = f.overflowChecks two) (one two : Node) (payload : Payload)
    (time : Clock) : expiredAt (f.deployment one) payload time = expiredAt (f.deployment two) payload time := by
  unfold expiredAt expiry Federation.deployment
  dsimp only
  rw [alike one two]

section Stores
variable [DecidableEq Node]

-- The source serves the get alone, and then the taker handles the item alone.
def Topic.poll (topic : Topic f) (stores : Node → Shared) (poll : Poll Node) : Node → Shared :=
  let answered := visit false (f.deployment poll.source) {clock := poll.asked} (.keys (topic.request poll.source))
    (stores poll.source)
  let served := Function.update stores poll.source answered.2
  Function.update served poll.taker (visit false (f.deployment poll.taker)
    {clock := poll.polled,http := fun _ => fetched answered.1} (.peerItem (.ok (topic.peerAddr poll.source,topic.addr)))
    (served poll.taker)).2

def Topic.polls (topic : Topic f) (stores : Node → Shared) (trace : List (Poll Node)) : Node → Shared :=
  trace.foldl topic.poll stores

variable {topic : Topic f} {stores : Node → Shared} {poll : Poll Node} {start stop : Clock}

def levels (topic : Topic f) (start : Clock) (stores : Node → Shared) (node : Node) : WithBot Int :=
  level (f.deployment node) start topic.addr.body (stores node)

def Settled (topic : Topic f) (start stop : Clock) (stores : Node → Shared) : Prop :=
  ∀ node, Steady (f.deployment node) start stop topic.addr.body (stores node)

-- The poll is one exchange of the gossip.
theorem poll_levels (codec : f.crates.RoundTrips) (refusals : Keyless.Refusals f.crates)
    (alike : ∀ one two, f.overflowChecks one = f.overflowChecks two) (within : poll.Within start stop)
    (settled : Settled topic start stop stores) : Settled topic start stop (topic.poll stores poll) ∧
      levels topic start (topic.poll stores poll) = exchanged (levels topic start stores) poll.exchange := by
  obtain ⟨other,addressed,same⟩ := topic.decoded
  have asking : Calm {clock := poll.asked} start stop := ⟨rfl,rfl,rfl,fun n => (within.asked n).1,fun n => (within.asked n).2⟩
  obtain ⟨answered,kept,unchanged⟩ := asked_keeps (d := f.deployment poll.source) codec (settled poll.source) asking
    (topic.get poll.source) (topic.route poll.source) addressed same
  have polling : ∀ reply, Calm {clock := poll.polled,http := reply} start stop :=
    fun reply => ⟨rfl,rfl,rfl,fun n => (within.polled n).1,fun n => (within.polled n).2⟩
  have taken : ∀ result, result = (visit false (f.deployment poll.taker)
        {clock := poll.polled,http := fun _ => fetched (visit false (f.deployment poll.source) {clock := poll.asked}
          (.keys (topic.request poll.source)) (stores poll.source)).1}
        (.peerItem (.ok (topic.peerAddr poll.source,topic.addr))) (stores poll.taker)).2 →
      Steady (f.deployment poll.taker) start stop topic.addr.body result ∧
        level (f.deployment poll.taker) start topic.addr.body result =
          max (levels topic start stores poll.taker) (levels topic start stores poll.source) := by
    intro result same
    subst same
    generalize (visit false (f.deployment poll.source) {clock := poll.asked} (.keys (topic.request poll.source))
      (stores poll.source)).1 = outcome at answered ⊢
    cases answered with
    | missing nothing =>
      have untouched : (visit false (f.deployment poll.taker)
          {clock := poll.polled,http := fun _ => fetched (.thrown .notFound)}
          (.peerItem (.ok (topic.peerAddr poll.source,topic.addr))) (stores poll.taker)).2.db = (stores poll.taker).db := by
        refine (visit_item _ _ _ _).resolve_left ?_
        intro given
        obtain ⟨addr,metadata,payload,delivers⟩ := given
        cases delivers with
        | pull encoded parsed received met =>
          cases received
          obtain ⟨key,sig,msg,read,-⟩ := met.attested.signed
          cases read.symm.trans (refusals .notFound (.inl rfl) metadata met.decoded)
      refine ⟨fun raw entry => settled poll.taker raw (untouched ▸ entry),?_⟩
      have bottom : levels topic start stores poll.source = ⊥ := nothing
      rw [bottom,max_eq_left bot_le,level,untouched]
      rfl
    | @found metadata payload attested lasting stands =>
      obtain ⟨url,parsed⟩ := topic.parsed poll.source
      have met : Pulled (f.deployment poll.taker) topic.addr (f.crates.encodeMetadata metadata) metadata payload :=
        ⟨codec metadata,attested.signed,attested.payload⟩
      have delivers : Delivers (f.deployment poll.taker)
          {clock := poll.polled,http := fun _ => .ok (f.crates.encodeMetadata metadata)} topic.addr metadata payload
          (.peerItem (.ok (topic.peerAddr poll.source,topic.addr))) := .pull topic.encoded parsed rfl met
      have standing : levels topic start stores poll.source = (payload.timestamp.toInt : Int) := stands
      rw [standing]
      exact polled_takes codec (settled poll.taker) (polling _) delivers rfl
        (expiredAt_alike alike poll.source poll.taker payload stop ▸ lasting)
  have apart := within.apart
  constructor
  · intro node
    by_cases taker : node = poll.taker
    · subst taker
      simp only [Topic.poll,Function.update_self,Function.update_of_ne apart]
      exact (taken _ rfl).1
    · simp only [Topic.poll,Function.update_of_ne taker]
      by_cases source : node = poll.source
      · subst source
        rw [Function.update_self]
        exact kept
      · rw [Function.update_of_ne source]
        exact settled node
  · funext node
    by_cases taker : node = poll.taker
    · subst taker
      simp only [exchanged,Poll.exchange,Function.update_self,levels,Topic.poll,Function.update_of_ne apart]
      exact (taken _ rfl).2
    · simp only [exchanged,Poll.exchange,Function.update_of_ne taker,levels,Topic.poll]
      by_cases source : node = poll.source
      · subst source
        rw [Function.update_self]
        exact unchanged
      · rw [Function.update_of_ne source]

theorem polls_levels (codec : f.crates.RoundTrips) (refusals : Keyless.Refusals f.crates)
    (alike : ∀ one two, f.overflowChecks one = f.overflowChecks two) (trace : List (Poll Node))
    (within : ∀ poll ∈ trace, poll.Within start stop) (settled : Settled topic start stop stores) :
    levels topic start (topic.polls stores trace) = spread (levels topic start stores) (trace.map Poll.exchange) := by
  induction trace generalizing stores with
  | nil => rfl
  | cons poll rest ih =>
    obtain ⟨settled',once⟩ := poll_levels codec refusals alike (within poll List.mem_cons_self) settled
    have later := ih (fun other member => within other (List.mem_cons_of_mem _ member)) settled'
    rw [once] at later
    exact later

end Stores

theorem fetch_reply {op : Op} {url : Url} {body : Bytes} (same : (⟨op,reply c s op⟩ : Event Reply) = ⟨.httpGet url,.ok body⟩) :
    c.http url = .ok body := by
  obtain rfl : op = .httpGet url := congrArg Event.op same
  simpa [reply] using same

-- The response stays with its thread for the fetch that asks for it.
theorem fetched_answered {pools : ServerPools Node} {host : Node} {i : Nat} {req : HttpRequest} {addrStr : String}
    {outcome : Outcome Panic ServerError Answer} {body : Bytes} (asks : Asks (f.deployment host) req addrStr)
    (found : (pools host).threads[i]? = some ⟨.keys req,.stop outcome⟩) (received : fetched outcome = .ok body) :
    Answered f pools body := by
  cases outcome with
  | returned answer =>
    cases answer with
    | http resp =>
      cases received
      exact .served asks found
    | peer exit => cases received
    | compacted => cases received
  | thrown err =>
    cases received
    exact .refused asks found
  | panicked fault => cases received

section Runs
variable [DecidableEq Node] {pools : ServerPools Node} {node : Node} {held : ServerPool}

-- What one thread of a server does alone is one way the federation can go.
theorem solo_running (c : Conditions) (carried : ∀ s url body, c.http url = .ok body →
      Answered f (Function.update pools node s) body ∨ f.outside node url body) {i n : Nat} {request : Request}
    {program : Prog ServerError Answer} (running : Running f.network (Function.update pools node held))
    (standing : held.threads[i]? = some ⟨request,program⟩) :
    ∃ last, Running f.network (Function.update pools node last) ∧
      last.shared = (run (settle false c) program (held.shared,n)).2.1 ∧
      last.threads[i]? = some ⟨request,.stop (run (settle false c) program (held.shared,n)).1⟩ ∧
      ∀ j, j ≠ i → last.threads[j]? = held.threads[j]? := by
  induction program generalizing held n with
  | done value => exact ⟨held,running,rfl,standing,fun _ _ => rfl⟩
  | throw err => exact ⟨held,running,rfl,standing,fun _ _ => rfl⟩
  | panic fault => exact ⟨held,running,rfl,standing,fun _ _ => rfl⟩
  | call op next ih =>
    have stepped : ∀ s act later, Running f.network (Function.update pools node s) →
        f.network.carries (Function.update pools node s) node act → Step (server (f.deployment node)) s act later →
          Running f.network (Function.update pools node later) := by
      intro s act later prior allowed step
      have standing : Step (f.network.machine node) (Function.update pools node s node) act later := by
        rw [Function.update_self]
        exact step
      have taken := prior.step allowed standing
      rwa [Function.update_idem] at taken
    have timed := stepped held (.surroundings (c.clock n)) {held with shared := atTime c (held.shared,n)} running
      (fun i url body same => by cases same) (.surroundings rfl)
    have performed := stepped _ (.perform i ⟨op,reply c (atTime c (held.shared,n)) op⟩) _ timed
      (fun j url body same => carried _ url body (fetch_reply (Act.perform.inj same).2))
      (.perform standing (reply_answered c (atTime c (held.shared,n)) op))
    have inside := (List.getElem?_eq_some_iff.mp standing).1
    obtain ⟨last,reached,shared,stopped,others⟩ := @ih _ _ (n + 1) performed (List.getElem?_set_self inside)
    refine ⟨last,reached,?_,?_,?_⟩
    · rw [shared,run_call,settle,carryOut_effect]
    · rw [stopped,run_call,settle,carryOut_effect]
    · intro j different
      rw [others j different]
      exact List.getElem?_set_ne (Ne.symm different)

variable {topic : Topic f} {start stop : Clock}

theorem arrived_running (running : Running f.network pools) (node : Node) (request : Request) :
    Running f.network (Function.update pools node
      {pools node with threads := (pools node).threads ++ [⟨request,handle (f.deployment node) request⟩]}) :=
  running.step (fun i url body same => by cases same) .arrive

theorem poll_running (running : Running f.network pools) {poll : Poll Node} (apart : poll.taker ≠ poll.source) :
    ∃ later, Running f.network later ∧
      ∀ node, (later node).shared = topic.poll (fun node => (pools node).shared) poll node := by
  obtain ⟨served,running',shared,answered,-⟩ := solo_running {clock := poll.asked} (n := 0) (by simp)
    (arrived_running running poll.source (.keys (topic.request poll.source))) List.getElem?_concat_length
  obtain ⟨other,addressed,-⟩ := topic.decoded
  have asks : Asks (f.deployment poll.source) (topic.request poll.source) topic.addrStr :=
    ⟨topic.get poll.source,topic.route poll.source,other,addressed⟩
  have carried : ∀ s url body, fetched (visit false (f.deployment poll.source) {clock := poll.asked}
        (.keys (topic.request poll.source)) (pools poll.source).shared).1 = .ok body →
      Answered f (Function.update (Function.update pools poll.source served) poll.taker s) body ∨ f.outside poll.taker url body := by
    intro s url body received
    have unmoved : Function.update (Function.update pools poll.source served) poll.taker s poll.source = served := by
      rw [Function.update_of_ne apart.symm,Function.update_self]
    exact .inl (fetched_answered (i := (pools poll.source).threads.length) asks (by rw [unmoved]; exact answered) received)
  obtain ⟨taken,running'',shared',-⟩ := solo_running
    {clock := poll.polled,http := fun _ => fetched (visit false (f.deployment poll.source) {clock := poll.asked}
      (.keys (topic.request poll.source)) (pools poll.source).shared).1} (n := 0) carried
    (arrived_running running' poll.taker (.peerItem (.ok (topic.peerAddr poll.source,topic.addr)))) List.getElem?_concat_length
  refine ⟨_,running'',fun node => ?_⟩
  simp only [Function.update_of_ne apart] at shared'
  by_cases taker : node = poll.taker
  · subst taker
    simp only [Topic.poll,Function.update_self,Function.update_of_ne apart]
    exact shared'
  · simp only [Topic.poll,Function.update_of_ne taker]
    by_cases source : node = poll.source
    · subst source
      rw [Function.update_self,Function.update_self]
      exact shared
    · rw [Function.update_of_ne source,Function.update_of_ne source]

theorem polls_running (running : Running f.network pools) (trace : List (Poll Node))
    (apart : ∀ poll ∈ trace, poll.taker ≠ poll.source) : ∃ later, Running f.network later ∧
      ∀ node, (later node).shared = topic.polls (fun node => (pools node).shared) trace node := by
  induction trace generalizing pools with
  | nil => exact ⟨pools,running,fun node => rfl⟩
  | cons poll rest ih =>
    obtain ⟨next,running',shared⟩ := @poll_running _ f _ pools topic running poll (apart poll List.mem_cons_self)
    obtain ⟨later,running'',shared'⟩ := ih running' fun other member => apart other (List.mem_cons_of_mem _ member)
    refine ⟨later,running'',fun node => ?_⟩
    rw [shared' node,funext shared]
    rfl

-- The entry is as expired at the one time as at the other.
def Lasts (d : Deployment) (start stop : Clock) (raw : Bytes) : Prop :=
  Stale d raw start ∨ (storedPayload d raw).bind (expiredAt d · stop) = some false

theorem lasting_settled (codec : f.crates.RoundTrips) (running : Running f.network pools)
    (lasting : ∀ node raw, (pools node).shared.db topic.addr.body = some raw → Lasts (f.deployment node) start stop raw) :
    Settled topic start stop fun node => (pools node).shared := by
  intro node raw entry
  have path := running_reached running node
  obtain ⟨i,put⟩ := ServerProtocol.stored_put path entry
  obtain ⟨metadata,payload,attested,rfl⟩ := StoreAuthenticity.put_attested path put
  have read : storedPayload (f.deployment node) ((f.deployment node).crates.encodeMetadata metadata) = some payload := by
    simp only [storedPayload,codec metadata,Federation.deployment,Option.bind_some]
    exact attested.payload
  refine ⟨metadata,payload,rfl,attested,?_⟩
  simpa [Lasts,Stale,read] using lasting node _ entry

-- What a server of the federation has for the address.
def standing (topic : Topic f) (start : Clock) (pools : ServerPools Node) : Node → WithBot Int :=
  levels topic start fun node => (pools node).shared

theorem standing_spread (codec : f.crates.RoundTrips) (refusals : Keyless.Refusals f.crates)
    (alike : ∀ one two, f.overflowChecks one = f.overflowChecks two) (running : Running f.network pools)
    (lasting : ∀ node raw, (pools node).shared.db topic.addr.body = some raw → Lasts (f.deployment node) start stop raw)
    (trace : List (Poll Node)) (within : ∀ poll ∈ trace, poll.Within start stop) : ∃ later, Running f.network later ∧
      (∀ node, (later node).shared = topic.polls (fun node => (pools node).shared) trace node) ∧
        standing topic start later = spread (standing topic start pools) (trace.map Poll.exchange) := by
  obtain ⟨later,running',shared⟩ := polls_running running trace fun poll member => (within poll member).apart
  refine ⟨later,running',shared,?_⟩
  have same : (fun node => (later node).shared) = topic.polls (fun node => (pools node).shared) trace := funext shared
  rw [standing,same]
  exact polls_levels codec refusals alike trace within (lasting_settled codec running lasting)

-- From any state of the federation, polls one after the other bring a server the
-- newest of what the servers had from which a chain of polls leads to it, and nothing
-- newer.
theorem gossip_spreads (codec : f.crates.RoundTrips) (refusals : Keyless.Refusals f.crates)
    (alike : ∀ one two, f.overflowChecks one = f.overflowChecks two) (running : Running f.network pools)
    (lasting : ∀ node raw, (pools node).shared.db topic.addr.body = some raw → Lasts (f.deployment node) start stop raw)
    (trace : List (Poll Node)) (within : ∀ poll ∈ trace, poll.Within start stop) : ∃ later, Running f.network later ∧
      (∀ node, (later node).shared = topic.polls (fun node => (pools node).shared) trace node) ∧
        ∀ node, IsGreatest {had | ∃ first, Carried (trace.map Poll.exchange) first node ∧ standing topic start pools first = had}
          (standing topic start later node) := by
  obtain ⟨later,running',shared,spreads⟩ := standing_spread codec refusals alike running lasting trace within
  refine ⟨later,running',shared,fun node => ?_⟩
  rw [spreads]
  exact spread_greatest _ _ node

-- Where the polls of a round link every server with every other, enough rounds from
-- any state leave every server with the newest that any of them had.
theorem gossip_converges [Finite Node] (codec : f.crates.RoundTrips) (refusals : Keyless.Refusals f.crates)
    (alike : ∀ one two, f.overflowChecks one = f.overflowChecks two) {round : List (Exchange Node)}
    (connected : ∀ first last, Relation.ReflTransGen (Linked round) first last) : ∃ enough, ∀ n, enough ≤ n →
      ∀ pools (topic : Topic f) start stop (trace : List (Poll Node)), Running f.network pools →
        (∀ node raw, (pools node).shared.db topic.addr.body = some raw → Lasts (f.deployment node) start stop raw) →
        (∀ poll ∈ trace, poll.Within start stop) → trace.map Poll.exchange = rounds n round →
          ∃ later, Running f.network later ∧
            (∀ node, (later node).shared = topic.polls (fun node => (pools node).shared) trace node) ∧
              ∀ node, IsGreatest (Set.range (standing topic start pools)) (standing topic start later node) := by
  obtain ⟨enough,everywhere⟩ := rounds_everywhere connected
  refine ⟨enough,fun n most pools topic start stop trace running lasting within shape => ?_⟩
  obtain ⟨later,running',shared,spreads⟩ := standing_spread codec refusals alike running lasting trace within
  refine ⟨later,running',shared,fun node => ?_⟩
  rw [spreads,shape]
  exact rounds_agree (everywhere n most) node

end Runs

section Example
open SampleDeployment

-- The pair of servers, each under a host name of its own.
def named : Federation Bool := {pair with crates := {crates with urlParse := fun text => .ok ⟨text⟩}}

def ownerTopic : Topic named where
  addr := {body := ownerHash}
  addrStr := ownerAddress
  peerAddr := fun first => if first then "http://127.0.0.1:8080" else "http://127.0.0.1:8081"
  request := fun _ => fetching
  encoded := rfl
  decoded := ⟨_,rfl,rfl⟩
  parsed := fun _ => ⟨_,rfl⟩
  get := fun _ => rfl
  route := fun _ => by decide +kernel

def each : List (Exchange Bool) := [⟨false,true⟩,⟨true,false⟩]

def pollAt (exchange : Exchange Bool) : Poll Bool := ⟨exchange.taker,exchange.source,fun _ => epoch,fun _ => epoch⟩

theorem level_early {s : Shared} (stored : s.db ownerHash = some (body 1 early)) (host : Bool) :
    level (named.deployment host) epoch ownerHash s = (100 : Int) := by
  unfold level
  rw [stored]
  cases host <;> decide +kernel

-- The first server holds metadata for the address, the second nothing.
theorem named_running : ∃ pools : ServerPools Bool, Running named.network pools ∧
    standing ownerTopic epoch pools true = (100 : Int) ∧ standing ownerTopic epoch pools false = ⊥ ∧
      ∀ node raw, (pools node).shared.db ownerHash = some raw → Lasts (named.deployment node) epoch epoch raw := by
  have done : ((server (named.deployment true)).drive (SoloRuns.reply calm) unfetched
      [.arrive (putOwner early),.thread 0,.thread 0] (.start (Shared.empty epoch))).map (fun s => s.shared.db ownerHash) =
        some (some (body 1 early)) := by decide +kernel
  obtain ⟨one,driven,stored⟩ := Option.map_eq_some_iff.mp done
  have running := @drive_running _ _ _ _ _ _ _ _ _ _ named.network _ true _ unfetched _ _ (by
    intro s act passed i url answered same
    subst same
    cases passed) Running.start driven
  refine ⟨_,running,?_,?_,?_⟩
  · simp only [standing,levels,Function.update_self]
    exact level_early stored true
  · rfl
  · intro node raw entry
    cases node with
    | false => cases entry
    | true =>
      rw [Function.update_self] at entry
      obtain rfl := Option.some.inj (stored.symm.trans entry)
      exact .inr (by decide +kernel)

theorem pollAt_within (exchange : Exchange Bool) (apart : exchange.taker ≠ exchange.source) :
    (pollAt exchange).Within epoch epoch := ⟨apart,fun _ => ⟨Nat.le_refl _,Nat.le_refl _⟩,fun _ => ⟨Nat.le_refl _,Nat.le_refl _⟩⟩

theorem named_codec : named.crates.RoundTrips := WireMessages.decode_encodeMetadata

theorem named_refusals : Keyless.Refusals named.crates := onWire_refusals crates

theorem named_spreads : ∃ pools later : ServerPools Bool, Running named.network later ∧
    standing ownerTopic epoch pools false = ⊥ ∧ standing ownerTopic epoch later false = (100 : Int) := by
  obtain ⟨pools,running,first,second,lasting⟩ := named_running
  obtain ⟨later,running',-,spreads⟩ := @gossip_spreads _ named _ pools ownerTopic epoch epoch named_codec named_refusals
    (fun _ _ => rfl) running lasting [pollAt ⟨false,true⟩] (by simpa using pollAt_within ⟨false,true⟩ (by decide))
  refine ⟨pools,later,running',second,?_⟩
  obtain ⟨⟨source,-,same⟩,above⟩ := spreads false
  have most : ((100 : Int) : WithBot Int) ≤ standing ownerTopic epoch later false := above ⟨true,.taken .stands,first⟩
  cases source with
  | true => exact same.symm.trans first
  | false =>
    rw [← same,second] at most
    exact absurd most (by decide)

theorem each_connected (first last : Bool) : Relation.ReflTransGen (Linked each) first last := by
  have link : ∀ first, Linked each first !first := by
    intro first
    cases first
    · exact ⟨⟨true,false⟩,by simp [each],rfl,rfl⟩
    · exact ⟨⟨false,true⟩,by simp [each],rfl,rfl⟩
  by_cases same : first = last
  · rw [same]
  · obtain rfl : last = !first := by cases first <;> cases last <;> simp at same ⊢
    exact .single (link first)

theorem named_converges : ∃ later : ServerPools Bool, Running named.network later ∧
    ∀ node, standing ownerTopic epoch later node = (100 : Int) := by
  obtain ⟨pools,running,first,second,lasting⟩ := named_running
  obtain ⟨enough,converges⟩ := gossip_converges (f := named) named_codec named_refusals (fun _ _ => rfl) each_connected
  have within : ∀ poll ∈ (rounds enough each).map pollAt, poll.Within epoch epoch := by
    intro poll member
    obtain ⟨exchange,listed,rfl⟩ := List.mem_map.mp member
    apply pollAt_within
    have known : exchange ∈ each := by
      simp only [rounds,List.mem_flatten,List.mem_replicate] at listed
      obtain ⟨round,⟨-,rfl⟩,inner⟩ := listed
      exact inner
    simp only [each,List.mem_cons,List.not_mem_nil,or_false] at known
    rcases known with rfl | rfl <;> decide
  have shape : ((rounds enough each).map pollAt).map Poll.exchange = rounds enough each := by
    rw [List.map_map]
    exact List.map_id _
  obtain ⟨later,running',-,greatest⟩ := converges enough (Nat.le_refl _) pools ownerTopic epoch epoch _ running lasting within shape
  refine ⟨later,running',fun node => ?_⟩
  obtain ⟨⟨source,same⟩,above⟩ := greatest node
  have most : ((100 : Int) : WithBot Int) ≤ standing ownerTopic epoch later node := above ⟨true,first⟩
  cases source with
  | true => exact same.symm.trans first
  | false =>
    rw [← same,second] at most
    exact absurd most (by decide)

end Example

end Keyserver.GossipSpread
