import Keyserver.SharedNetworks
import Keyserver.StoreProvenance
import Keyserver.SampleDeployment

namespace Keyserver.PeerNetwork
open SharedPrograms SharedPrograms.Program SharedPools SharedNetworks KeyHandlers KeyProtocol KeyRequests PaymentProtocol
  ServerProtocol StoreProvenance

-- Servers linked with the same libraries, each with its own settings and its own
-- node. `outside` is what hosts that are none of them may answer a fetch with.
structure Federation (Node : Type) where
  crates : Crates
  settings : Node → Settings
  overflowChecks : Node → Bool
  clock : Node → Clock
  outside : Node → Url → Bytes → Prop

variable {Node : Type} {f : Federation Node}

def Federation.deployment (f : Federation Node) (node : Node) : Deployment := ⟨f.crates,f.settings node,f.overflowChecks node⟩

abbrev ServerPools (Node : Type) := Pools Node Reply Panic ServerError Answer Shared Request

-- A get over the routes, for an address that decodes.
structure Asks (d : Deployment) (req : HttpRequest) (addrStr : String) : Prop where
  get : req.method = .get
  route : d.crates.routeAddr req.path = some addrStr
  addressed : ∃ addr, d.crates.decodeAddress addrStr = .ok addr

-- The response body of a server that was asked for an address.
inductive Answered (f : Federation Node) (pools : ServerPools Node) : Bytes → Prop where
  | served (asks : Asks (f.deployment host) req addrStr)
      (found : (pools host).threads[(i : Nat)]? = some ⟨.keys req,.done (.http resp)⟩) : Answered f pools resp.body
  | refused (asks : Asks (f.deployment host) req addrStr)
      (found : (pools host).threads[(i : Nat)]? = some ⟨.keys req,.throw err⟩) : Answered f pools err.errorResponse.body

-- A fetch is answered, at any time after, with a response of one of the servers or
-- by a host outside of the federation.
def Federation.network (f : Federation Node) : SharedNetworks.Network Node Reply Panic ServerError Answer Shared Request Clock where
  machine node := server (f.deployment node)
  origin node := Shared.empty (f.clock node)
  carries pools node act := ∀ i url body, act = .perform i ⟨.httpGet url,.ok body⟩ → Answered f pools body ∨ f.outside node url body

-- Where stored metadata came into the federation: in the body of a put that one of
-- the servers accepted, over the routes for a paid token, or from outside.
inductive Origin (f : Federation Node) (pools : ServerPools Node) : Bytes → AddressMetadata → Prop where
  | direct (logged : (i,⟨.dbPut addr.body (f.crates.encodeMetadata metadata),.ok ()⟩) ∈ (pools host).log)
      (known : (pools host).requests[(i : Nat)]? = some (.putKey addrStr body))
      (met : Admitted (f.deployment host) addrStr body addr metadata payload) : Origin f pools addr.body metadata
  | routed (logged : (i,⟨.dbPut addr.body (f.crates.encodeMetadata metadata),.ok ()⟩) ∈ (pools host).log)
      (known : (pools host).requests[(i : Nat)]? = some (.keys req)) (put : req.method = .put)
      (paid : PaidFor (f.deployment host) req) (route : f.crates.routeAddr req.path = some addrStr)
      (met : Admitted (f.deployment host) addrStr req.payload addr metadata payload) : Origin f pools addr.body metadata
  | fetched (logged : (i,⟨.httpGet url,.ok body⟩) ∈ (pools host).log) (outside : f.outside host url body)
      (decoded : f.crates.decodeMetadata body = some metadata) : Origin f pools key metadata

-- A body in which no key is found, so that nothing in it can be validated.
def Keyless (crates : Crates) (body : Bytes) : Prop :=
  ∀ metadata, crates.decodeMetadata body = some metadata → crates.publicKeyFromSlice metadata.pubKey = none

def Refusal (err : ServerError) : Prop := err = .notFound ∨ ∃ fault, err = .db fault

-- The texts of the refusals are no metadata that could be validated.
def Keyless.Refusals (crates : Crates) : Prop := ∀ err : ServerError, Refusal err → Keyless crates err.errorResponse.body

theorem onWire_refusals (crates : Crates) : Keyless.Refusals (WireMessages.onWire crates) := by
  rintro err (rfl | ⟨fault,rfl⟩) metadata decoded
  · have unread : WireMessages.decodeMetadata (utf8 "not found") = none := by decide +kernel
    cases unread.symm.trans decoded
  · have unread : WireMessages.decodeMetadata (utf8 "internal db error") = none := by decide +kernel
    cases unread.symm.trans decoded

-- What a fetched body was before.
inductive Obtainable (f : Federation Node) (pools : ServerPools Node) (node : Node) (url : Url) : Bytes → Prop where
  | read (logged : (i,⟨.dbGet key,.ok (some raw)⟩) ∈ (pools host).log) (decoded : f.crates.decodeMetadata raw = some metadata) :
      Obtainable f pools node url (f.crates.encodeMetadata metadata)
  | refusal (keyless : Keyless f.crates body) : Obtainable f pools node url body
  | outside (supplied : f.outside node url body) : Obtainable f pools node url body

section Grown
variable {before after : ServerPools Node} {node : Node}

theorem Origin.grown {key : Bytes} {metadata : AddressMetadata} (grown : Grown before after) (found : Origin f before key metadata) :
    Origin f after key metadata := by
  cases found with
  | direct logged known met => exact .direct (grown.logged logged) (grown.requests _ _ _ known) met
  | routed logged known put paid route met => exact .routed (grown.logged logged) (grown.requests _ _ _ known) put paid route met
  | fetched logged outside decoded => exact .fetched (grown.logged logged) outside decoded

theorem Obtainable.grown {url : Url} {body : Bytes} (grown : Grown before after) (found : Obtainable f before node url body) :
    Obtainable f after node url body := by
  cases found with
  | read logged decoded => exact .read (grown.logged logged) decoded
  | refusal keyless => exact .refusal keyless
  | outside supplied => exact .outside supplied

end Grown

theorem signed_key {crates : Crates} {one two : Bytes} {metadata : AddressMetadata}
    (first : Authentication.Signed crates one metadata) (second : Authentication.Signed crates two metadata) : one = two := by
  obtain ⟨key,sig,msg,parsed,hashed,-⟩ := first
  obtain ⟨key',sig',msg',parsed',hashed',-⟩ := second
  obtain rfl := Option.some.inj (parsed.symm.trans parsed')
  exact hashed.symm.trans hashed'

theorem getKey_refusals {d : Deployment} {addrStr : String} {addr : Address} (addressed : d.crates.decodeAddress addrStr = .ok addr)
    (past : Past) : Follows (fun _ _ => True) (fun _ outcome => ∀ err, outcome = .thrown err → Refusal err) past
      (getKey d addrStr) := by
  unfold getKey decodeAddress
  simp only [addressed,done_bind]
  rw [mapError_bind]
  refine ((get_follows d addr past).mono (fun _ _ _ => trivial) fun _ _ got => got).attempt_bind ?_ ?_ (by simp)
  · intro later found got
    cases found with
    | none =>
      intro err same
      cases same
      exact .inl rfl
    | some metadata => simp
  · intro later fault got err same
    cases same
    exact .inr ⟨fault,rfl⟩

theorem handle_refusals (d : Deployment) (request : Request) : Follows (fun _ _ => True)
    (fun _ outcome => ∀ req addrStr err, request = .keys req → Asks d req addrStr → outcome = .thrown err → Refusal err) []
      (handle d request) := by
  by_cases asking : ∃ req addrStr, request = .keys req ∧ Asks d req addrStr
  · obtain ⟨req,addrStr,rfl,asks⟩ := asking
    obtain ⟨addr,addressed⟩ := asks.addressed
    have form := call_form d (keysService d addrStr) req
    simp only [handle,keysResource,asks.route]
    generalize Payments.call d (keysService d addrStr) req = program at form ⊢
    cases form with
    | forwarded paid =>
      refine ⟨trivial,fun _ => ?_⟩
      simp only [keysService,asks.get]
      apply (getKey_refusals addressed _).map (fun _ _ may => may)
      intro past outcome refusal req' addrStr' err same asks' thrown
      cases outcome with
      | thrown err' => exact refusal err (by cases thrown; rfl)
      | _ => cases thrown
    | invoiced put | refused put | rejected put => cases asks.get.symm.trans put
  · apply (handle_follows d request).mono (fun _ _ _ => trivial)
    intro past outcome _ req addrStr err same asks
    exact absurd ⟨req,addrStr,same,asks⟩ asking

section Running
variable [DecidableEq Node] {pools : ServerPools Node} {node : Node}

theorem answered_obtainable (refusals : Keyless.Refusals f.crates) (running : Running f.network pools) {body : Bytes}
    (answered : Answered f pools body) (node : Node) (url : Url) : Obtainable f pools node url body := by
  cases answered with
  | @served host req addrStr i resp asks found =>
    have follows := reached_follows (handle_serves (f.deployment host)) (running_reached running host) found
    obtain ⟨addr,metadata,raw,-,read,decoded,rfl⟩ := follows addrStr resp (.routed asks.get asks.route) rfl
    exact .read (mem_history.mp read) decoded
  | @refused host req addrStr i err asks found =>
    have follows := reached_follows (handle_refusals (f.deployment host)) (running_reached running host) found
    exact .refusal (refusals err (follows req addrStr err rfl asks rfl))

-- What an event of a server says about the others.
structure Accounted (f : Federation Node) (pools : ServerPools Node) (node : Node) (entry : Nat × Event Reply) : Prop where
  fetched : ∀ url body, entry.2 = ⟨.httpGet url,.ok body⟩ → Obtainable f pools node url body
  put : ∀ key raw, entry.2 = ⟨.dbPut key raw,.ok ()⟩ → ∃ metadata payload, raw = f.crates.encodeMetadata metadata ∧
    Attested (f.deployment node) key metadata payload ∧ Origin f pools key metadata

-- Metadata that was fetched from another server has the origin it had there.
theorem pulled_origin (codec : f.crates.RoundTrips) (running : Running f.network pools)
    (before : ∀ other entry, entry ∈ (pools other).log → Accounted f pools other entry) {i : Nat} {url : Url} {addr : Address}
    {body : Bytes} {metadata : AddressMetadata} {payload : Payload} (fetched : (i,⟨.httpGet url,.ok body⟩) ∈ (pools node).log)
    (met : Pulled (f.deployment node) addr body metadata payload) : Origin f pools addr.body metadata := by
  have decoded : f.crates.decodeMetadata body = some metadata := met.decoded
  cases (before node _ fetched).fetched url body rfl with
  | @read host j raw metadata' key logged stored =>
    obtain ⟨k,put⟩ := read_put (running_reached running host) logged
    obtain ⟨original,payload',rfl,attested,origin⟩ := (before host _ put).put key raw rfl
    obtain rfl := Option.some.inj ((codec original).symm.trans stored)
    obtain rfl := Option.some.inj ((codec original).symm.trans decoded)
    rwa [← signed_key attested.signed met.attested.signed]
  | refusal keyless =>
    obtain ⟨key,sig,msg,parsed,-⟩ := met.attested.signed
    cases parsed.symm.trans (keyless metadata decoded)
  | outside supplied => exact .fetched fetched supplied decoded

theorem running_accounted (codec : f.crates.RoundTrips) (refusals : Keyless.Refusals f.crates)
    (running : Running f.network pools) : ∀ node entry, entry ∈ (pools node).log → Accounted f pools node entry := by
  refine running_events ?_ ?_ running
  · rintro before after node ⟨i,event⟩ grown accounted
    refine ⟨fun url body same => (accounted.fetched url body same).grown grown,fun key raw same => ?_⟩
    obtain ⟨metadata,payload,encoded,attested,origin⟩ := accounted.put key raw same
    exact ⟨metadata,payload,encoded,attested,origin.grown grown⟩
  · intro pools node i event next running before carried step
    have grown := step_grown step
    refine ⟨?_,?_⟩
    · intro url body same
      subst same
      rcases carried i url body rfl with answered | supplied
      · exact (answered_obtainable refusals running answered node url).grown grown
      · exact .outside supplied
    · intro key raw same
      subst same
      have path := (running_reached running node).step trivial step
      have mine : ∀ {entry}, entry ∈ next.log → entry ∈ ((Function.update pools node next) node).log := by
        intro entry member
        rwa [Function.update_self]
      have known' : ∀ {request : Request}, next.requests[i]? = some request →
          ((Function.update pools node next) node).requests[i]? = some request := by
        intro request known
        rwa [Function.update_self]
      have put : (i,⟨.dbPut key raw,.ok ()⟩) ∈ next.log := by
        cases step with
        | perform standing answered => exact List.mem_append_right _ (List.mem_singleton.mpr rfl)
      obtain ⟨request,metadata,front,back,logged,known,rfl,brought⟩ := put_brought path put
      cases brought with
      | direct met => exact ⟨metadata,_,rfl,met.attested,.direct (mine put) (known' known) met⟩
      | routed put' paid route met =>
        exact ⟨metadata,_,rfl,met.attested,.routed (mine put) (known' known) put' paid route met⟩
      | @pulled _ addr body _ payload peerAddr url received met =>
        have fetched : (i,⟨.httpGet url,.ok body⟩) ∈ (pools node).log := by
          have later : (i,⟨.httpGet url,.ok body⟩) ∈ next.log := logged ▸ List.mem_append_left _ (mem_history.mp received)
          cases step with
          | perform standing answered => simpa using later
        exact ⟨metadata,_,rfl,met.attested,(pulled_origin codec running before fetched met).grown grown⟩

-- Gossip invents nothing: in every run of the federation, whatever any server stores
-- or serves is signed for its key, and it was put at some server or came from outside.
theorem gossip_origin (codec : f.crates.RoundTrips) (refusals : Keyless.Refusals f.crates) (running : Running f.network pools)
    (node : Node) : (∀ key raw, (pools node).shared.db key = some raw → ∃ metadata payload,
        raw = f.crates.encodeMetadata metadata ∧ Attested (f.deployment node) key metadata payload ∧ Origin f pools key metadata) ∧
      ∀ (i : Nat) request addrStr resp, Gets (f.deployment node) request addrStr →
        (pools node).threads[i]? = some ⟨request,.done (.http resp)⟩ → ∃ addr metadata payload,
          f.crates.decodeAddress addrStr = .ok addr ∧ resp.body = f.crates.encodeMetadata metadata ∧
            Attested (f.deployment node) addr.body metadata payload ∧ Origin f pools addr.body metadata := by
  have accounted := running_accounted codec refusals running node
  constructor
  · intro key raw stored
    obtain ⟨i,put⟩ := stored_put (running_reached running node) stored
    exact (accounted _ put).put key raw rfl
  · intro i request addrStr resp gets found
    have follows := reached_follows (handle_serves (f.deployment node)) (running_reached running node) found
    obtain ⟨addr,metadata,raw,addressed,read,decoded,rfl⟩ := follows addrStr resp gets rfl
    obtain ⟨j,put⟩ := read_put (running_reached running node) (mem_history.mp read)
    obtain ⟨original,payload,rfl,attested,origin⟩ := (accounted _ put).put addr.body raw rfl
    obtain rfl := Option.some.inj ((codec original).symm.trans decoded)
    exact ⟨addr,original,payload,addressed,rfl,attested,origin⟩

end Running

section Example
open SampleDeployment

-- Two servers that fetch from one another alone.
def pair : Federation Bool where
  crates := crates
  settings := fun first => ⟨if first then "127.0.0.1:8080" else "127.0.0.1:8081",secret,.mainnet⟩
  overflowChecks := fun _ => false
  clock := fun _ => epoch
  outside := fun _ _ _ => False

def fetching : HttpRequest := {unpaidPut with method := .get,payload := []}

theorem fetching_asks (host : Bool) : Asks (pair.deployment host) fetching ownerAddress := by
  refine ⟨rfl,?_,{body := ownerHash},rfl⟩
  show SampleDeployment.segment fetching.path = some ownerAddress
  decide +kernel

-- Fetches are answered with the metadata that the first server has served.
def relays (_ : ServerPool) : Act Reply Request Clock → Bool
  | .perform _ ⟨.httpGet _,.ok answered⟩ => answered = body 1 early
  | _ => true

def unfetched (_ : ServerPool) : Act Reply Request Clock → Bool
  | .perform _ ⟨.httpGet _,.ok _⟩ => false
  | _ => true

theorem unfetched_carries {pools : ServerPools Bool} {s : ServerPool} {node : Bool} (act : Act Reply Request Clock)
    (passed : unfetched s act = true) : pair.network.carries pools node act := by
  intro i url answered same
  subst same
  cases passed

theorem relays_carries {pools : ServerPools Bool} {s : ServerPool} {node : Bool} (act : Act Reply Request Clock)
    (known : (pools true).requests[1]? = some (.keys fetching))
    (served : (pools true).returned 1 = some (.http {status := .ok,body := body 1 early})) (passed : relays s act = true) :
    pair.network.carries pools node act := by
  intro i url answered same
  subst same
  obtain rfl : answered = body 1 early := of_decide_eq_true passed
  exact .inl (.served (fetching_asks true) (returned_thread known served))

theorem pair_origin : ∃ pools : ServerPools Bool, (pools false).shared.db ownerHash = some (body 1 early) ∧
    ∃ metadata payload, body 1 early = crates.encodeMetadata metadata ∧
      Attested (pair.deployment false) ownerHash metadata payload ∧ Origin pair pools ownerHash metadata := by
  have first : ((server (pair.deployment true)).drive (SoloRuns.reply calm) unfetched
      [.arrive (putOwner early),.thread 0,.thread 0,.arrive (.keys fetching),.thread 1,.thread 1,.thread 1]
      (.start (Shared.empty epoch))).map (fun s => s.returned 1) =
        some (some (.http {status := .ok,body := body 1 early})) := by decide +kernel
  have second : ((server (pair.deployment false)).drive (SoloRuns.reply {calm with http := fun _ => .ok (body 1 early)}) relays
      [.arrive (.peerItem (.ok ("http://localhost:8080",{body := ownerHash}))),.thread 0,.thread 0,.thread 0,.thread 0]
      (.start (Shared.empty epoch))).map (fun s => s.shared.db ownerHash) = some (some (body 1 early)) := by decide +kernel
  obtain ⟨one,driven,served⟩ := Option.map_eq_some_iff.mp first
  obtain ⟨two,driven',stored⟩ := Option.map_eq_some_iff.mp second
  have known : one.requests[1]? = some (.keys fetching) := by
    rw [drive_requests driven]
    rfl
  have served' := drive_running (fun s act passed => unfetched_carries act passed) Running.start driven
  have relayed : ∀ s act, relays s act = true → pair.network.carries
      (Function.update (Function.update (fun node => .start (pair.network.origin node)) true one) false s) false act := by
    intro s act passed
    exact relays_carries act (by simpa using known) (by simpa using served) passed
  have running := drive_running relayed served' driven'
  exact ⟨_,stored,(gossip_origin (WireMessages.onWire_roundTrips _) (onWire_refusals _) running false).1 ownerHash _ stored⟩

end Example

end Keyserver.PeerNetwork
