import Keyserver.AdvertisedOutput
import Keyserver.DetailStream
import Keyserver.PurchaseProtocol

namespace Keyserver.PurchaseGossip
open SharedPrograms SharedPrograms.Program SharedPools SharedNetworks KeyDb KeyHandlers KeyProtocol KeyRequests Bitcoin Payments
  PaymentProtocol SoloRuns IngestionVisits PeerNetwork PurchaseProtocol
open InvoiceIssuing (Invoice bill)
open GossipSpread (Topic fetched solo_running arrived_running fetched_answered)

def Output.spend (output : Output) : TxOut := ⟨output.amount.getD 0,output.script⟩

-- The transaction spends the outputs that the invoice bills, in their order.
def Fulfils (req : HttpRequest) (put pkHash : Bytes) (tx : Transaction) : Prop :=
  ∃ change, tx.output = (bill (req.scheme ++ "://" ++ req.host) pkHash put).map Output.spend ++ change

section Federations
variable {d : Deployment} {req : HttpRequest} {pkHash : Bytes} {tx : Transaction}

-- The payment output is no advertisement, whatever it pays to.
theorem p2pkh_unadvertised {settings : Settings} {url : String} {addr : Address} :
    ¬ Advertises settings (p2pkhScript pkHash) url addr := by
  intro advertises
  have shape := advertises.shape
  simp [p2pkhScript] at shape

-- So another server finds the advertisement, and no matter what change follows.
theorem fulfils_extracted {addr : Address} (fulfils : Fulfils req addr.body pkHash tx) (settings : Settings)
    (keyed : KeyAddress settings.network addr) (hashed : addr.body.length = 20) (short : (utf8 (baseUrl req)).length ≤ 226)
    (foreign : baseUrl req ≠ "http://" ++ settings.bind) :
    (extractDetails settings [.ok tx] : Prog ServerError _) = .done [.ok (baseUrl req,addr)] := by
  obtain ⟨change,outputs⟩ := fulfils
  have nonempty : 1 ≤ (utf8 (baseUrl req)).length := by
    have long := @AdvertisedOutput.baseUrl_length req
    omega
  have found : SharedMatches.First (DetailStream.Advertised settings) tx.output (baseUrl req,addr) := by
    rw [outputs]
    refine @SharedMatches.First.intro _ _ _ [_] change _ _ ?_ ⟨rfl,hashed,nonempty,short,foreign,keyed⟩
    intro output member detail
    obtain rfl := List.mem_singleton.mp member
    exact p2pkh_unadvertised
  rw [DetailStream.extractDetails_eq]
  simp only [DetailStream.details,List.filterMap_cons,List.filterMap_nil,DetailStream.firstDetail_some.mpr found,Option.map_some]

variable {Node : Type} [DecidableEq Node] {f : Federation Node} {pools : ServerPools Node} {node source taker : Node} {c : Conditions}

theorem visit_running (running : Running f.network pools) (request : Request) (carried : ∀ s url body, c.http url = .ok body →
      Answered f (Function.update pools node s) body ∨ f.outside node url body) : ∃ last,
    Running f.network (Function.update pools node last) ∧
      last.shared = (visit false (f.deployment node) c request (pools node).shared).2 ∧ last.threads = (pools node).threads ++
        [⟨request,.stop (visit false (f.deployment node) c request (pools node).shared).1⟩] := by
  obtain ⟨last,reached,shared,stopped,others⟩ := solo_running c (n := 0) carried (arrived_running running node request)
    List.getElem?_concat_length
  exact ⟨last,reached,shared,appended stopped others⟩

-- Requests that fetch nothing, served one after the other by one of the servers.
theorem visits_running (running : Running f.network pools) (script : List (Conditions × Request))
    (unfetched : ∀ turn ∈ script, ∀ url body, turn.1.http url ≠ .ok body) : ∃ last,
    Running f.network (Function.update pools node last) ∧
      last.threads = (pools node).threads ++ (script.zip (visits (f.deployment node) script (pools node).shared).1).map
        fun served => ⟨served.1.2,.stop served.2⟩ := by
  induction script generalizing pools with
  | nil => exact ⟨pools node,by rwa [Function.update_eq_self],by simp [visits]⟩
  | cons first rest ih =>
    obtain ⟨c,request⟩ := first
    obtain ⟨middle,reached,shared,threads⟩ := @visit_running _ _ _ _ node c running request
      fun s url body answered => absurd answered (unfetched _ List.mem_cons_self url body)
    obtain ⟨last,reached',threads'⟩ := ih reached fun turn member => unfetched turn (List.mem_cons_of_mem _ member)
    rw [Function.update_idem] at reached'
    rw [Function.update_self,shared,threads] at threads'
    refine ⟨last,reached',?_⟩
    rw [threads']
    simp [visits]

-- A poll that is answered with valid metadata stores it, where there is nothing newer.
theorem visit_poll (release : d.overflowChecks = false) {s : Shared} {request : Request} {addr : Address} {metadata : AddressMetadata}
    {payload : Payload} {res : Except StreamError (String × Address)} (same : request = .peerItem res)
    (delivers : Delivers d c addr metadata payload request) (current : Current d c payload)
    (readable : ∀ raw, s.db addr.body = some raw → Readable d raw)
    (unopposed : ∀ raw old, s.db addr.body = some raw → storedPayload d raw = some old → ¬ payload.timestamp < old.timestamp) :
    (visit false d c request s).1 = .returned (.peer .stored) ∧
      (visit false d c request s).2.db = (s.store addr.body (some (d.crates.encodeMetadata metadata))).db := by
  obtain ⟨answered,stored,-⟩ := visit_delivers delivers s
  have outcome : storing d c request addr payload s = .returned .stored :=
    unopposed_stored release current readable unopposed (current.lasting _)
  rw [answered,outcome,same]
  exact ⟨rfl,same ▸ stored outcome⟩

theorem running_readable (codec : f.crates.RoundTrips) (running : Running f.network pools) (node : Node) {key raw : Bytes}
    (entry : (pools node).shared.db key = some raw) : Readable (f.deployment node) raw :=
  StoreAuthenticity.stored_readable codec (running_reached running node) entry

variable {paying : HttpRequest} {payment : Payment} {txRaw : Bytes} {times : Nat → Conditions} {polled : Nat → Clock}

-- A purchase at one server brings the metadata to any other that sees its transaction:
-- from every state of the federation, the four requests and then the poll, each served
-- alone, are a run of the federation in which the other server finds the advertisement
-- that the invoice made the client pay for, fetches, validates and stores.
theorem purchase_propagates (release : ∀ node, f.overflowChecks node = false) (codec : f.crates.RoundTrips)
    (running : Running f.network pools) (apart : taker ≠ source) (customer : Customer (f.deployment source)) (topic : Topic f)
    (same : topic.addr.body = customer.addr.body) (keyed : KeyAddress (f.settings taker).network topic.addr)
    (named : topic.peerAddr source = baseUrl customer.put) (hashed : customer.addr.body.length = 20)
    (short : (utf8 (baseUrl customer.put)).length ≤ 226) (foreign : baseUrl customer.put ≠ "http://" ++ (f.settings taker).bind)
    (answers : Answers (f.deployment source) customer.put paying pkHash payment txRaw tx) (length : pkHash.length = 20)
    (fulfils : Fulfils customer.put customer.addr.body pkHash tx)
    (serves : ∀ n, Serves (f.deployment source) (times n) pkHash customer.payload)
    (unfetched : ∀ n url body, (times n).http url ≠ .ok body)
    (lasting : ∀ n, expiredAt (f.deployment taker) customer.payload (polled n) = some false)
    (unopposed : ∀ node raw old, node = source ∨ node = taker → (pools node).shared.db customer.addr.body = some raw →
      storedPayload (f.deployment node) raw = some old → ¬ customer.payload.timestamp < old.timestamp) :
    ∃ resp later, Running f.network later ∧ Invoice (f.deployment source) customer.put resp pkHash ∧
      (later source).threads = (pools source).threads ++ [⟨.keys customer.put,.done (.http resp)⟩,
        ⟨.payments paying,.done (.http (acknowledgement (f.deployment source) payment (merchantUrl customer.put) customer.url))⟩,
        ⟨.keys customer.paidPut,.done (.http {status := .ok})⟩,
        ⟨.keys (topic.request source),.done (.http {status := .ok,body := f.crates.encodeMetadata customer.metadata})⟩] ∧
      (extractDetails (f.settings taker) (getTxStream (f.deployment taker) [.ok txRaw]) : Prog ServerError _) =
        .done [.ok (baseUrl customer.put,topic.addr)] ∧
      (later taker).threads = (pools taker).threads ++
        [⟨.peerItem (.ok (baseUrl customer.put,topic.addr)),.done (.peer .stored)⟩] ∧
      (later taker).shared.db customer.addr.body = some (f.crates.encodeMetadata customer.metadata) := by
  obtain ⟨other,addressed,body⟩ := topic.decoded
  have asks : Retrieves (f.deployment source) (topic.request source) customer.addr :=
    ⟨topic.get source,topic.addrStr,other,topic.route source,addressed,by rw [body,same]⟩
  obtain ⟨resp,invoice,served⟩ := purchase_visits (s := (pools source).shared) (release source) codec
    (fun raw entry => running_readable codec running source entry) answers length serves asks
    (fun raw old => unopposed source raw old (.inl rfl))
  have quiet : ∀ turn ∈ customer.script times paying (topic.request source), ∀ url body, turn.1.http url ≠ .ok body := by
    intro turn member
    simp only [Customer.script,List.mem_cons,List.not_mem_nil,or_false] at member
    rcases member with rfl | rfl | rfl | rfl <;> exact unfetched _
  obtain ⟨last,reached,threads⟩ := visits_running (f := f) running _ quiet
  rw [served] at threads
  -- The last of the four responses is there for the poll to fetch.
  have responded : ∀ s, Answered f (Function.update (Function.update pools source last) taker s)
      (f.crates.encodeMetadata customer.metadata) := by
    intro s
    have answered : (Function.update (Function.update pools source last) taker s source).threads[(pools source).threads.length + 3]? =
        some ⟨.keys (topic.request source),.done (.http {status := .ok,body := f.crates.encodeMetadata customer.metadata})⟩ := by
      rw [Function.update_of_ne apart.symm,Function.update_self,threads,List.getElem?_append_right (Nat.le_add_right _ _),
        Nat.add_sub_cancel_left]
      rfl
    have asked : Asks (f.deployment source) (topic.request source) topic.addrStr :=
      ⟨topic.get source,topic.route source,other,addressed⟩
    exact .served asked answered
  have untouched : Function.update pools source last taker = pools taker := Function.update_of_ne apart last pools
  obtain ⟨taken,reached',shared,threads'⟩ := @visit_running _ _ f _ taker
    {clock := polled,http := fun _ => .ok (f.crates.encodeMetadata customer.metadata)} reached
    (.peerItem (.ok (baseUrl customer.put,topic.addr))) fun s url body received => by
      cases received
      exact .inl (responded s)
  rw [untouched] at shared threads'
  obtain ⟨url,parsed⟩ := topic.parsed source
  have attested : Attested (f.deployment taker) topic.addr.body customer.metadata customer.payload := by
    rw [same]
    exact ⟨customer.met.attested.signed,customer.met.attested.payload⟩
  have delivers : Delivers (f.deployment taker)
      {clock := polled,http := fun _ => .ok (f.crates.encodeMetadata customer.metadata)} topic.addr customer.metadata customer.payload
      (.peerItem (.ok (baseUrl customer.put,topic.addr))) :=
    .pull topic.encoded (named ▸ parsed) rfl ⟨codec customer.metadata,attested.signed,attested.payload⟩
  obtain ⟨outcome,stored⟩ := visit_poll (s := (pools taker).shared) (release taker) rfl delivers ⟨rfl,rfl,rfl,lasting⟩
    (fun raw found => running_readable codec running taker found) (by
      rw [same]
      exact fun raw old => unopposed taker raw old (.inr rfl))
  rw [outcome] at threads'
  have announced : getTxStream (f.deployment taker) [.ok txRaw] = [.ok tx] := by
    have parsed : (f.deployment taker).crates.deserializeTransaction txRaw = .ok tx := answers.met.parsed
    simp [getTxStream,parsed,Except.mapError,Except.bind]
  rw [← same] at fulfils hashed
  have extracted := fulfils_extracted fulfils (f.settings taker) keyed hashed short foreign
  rw [← announced] at extracted
  refine ⟨resp,_,reached',invoice,?_,extracted,?_,?_⟩
  · rw [Function.update_of_ne apart.symm,Function.update_self,threads]
    rfl
  · rw [Function.update_self,threads']
    rfl
  · rw [Function.update_self,shared,stored,same]
    exact store_same ..

end Federations

section Example
open SampleDeployment

def advertTx : Bytes :=
  [1,0,0,0,1,17,17,17,17,17,17,17,17,17,17,17,17,17,17,17,17,17,17,17,17,17,17,17,17,17,17,17,17,17,
   17,17,17,0,0,0,0,0,255,255,255,255,2,5,0,0,0,0,0,0,0,25,118,169,20,6,175,212,107,205,253,34,239,
   148,172,18,42,161,31,36,18,68,163,126,204,136,172,0,0,0,0,0,0,0,0,52,106,50,107,101,121,115,101,114,
   118,101,114,117,30,118,232,25,145,150,212,84,148,28,69,209,179,163,35,241,67,59,214,104,116,116,112,
   58,47,47,108,111,99,97,108,104,111,115,116,58,56,48,56,48,0,0,0,0]

def advertised : Transaction :=
  ⟨[⟨PRICE,p2pkhScript walletHash⟩,⟨0,[106,50] ++ KEYSERVER_PREFIX ++ ownerHash ++ utf8 "http://localhost:8080"⟩]⟩

-- The pair of servers, with libraries that know this transaction and these URLs.
def trading : Federation Bool :=
  {pair with crates := {crates with
    urlParse := fun text => .ok ⟨text⟩
    deserializeTransaction := fun raw => if raw = advertTx then .ok advertised else .error "unexpected end of file"}}

def advertPayment : Payment := {payment with transactions := [advertTx]}

def advertPaying : HttpRequest :=
  {paying with payload := [.ok (WireFormat.encodeFields (WireMessages.paymentFields advertPayment))]}

theorem advert_answers : Answers (trading.deployment true) unpaidPut advertPaying walletHash advertPayment advertTx advertised :=
  ⟨⟨rfl,rfl,by decide +kernel,rfl,rfl⟩,List.mem_cons_self,by decide +kernel⟩

def trader : Customer (trading.deployment true) where
  put := unpaidPut
  addrStr := ownerAddress
  addr := {body := ownerHash}
  metadata := signed 1 early
  payload := early.payload
  url := ⟨putUrl⟩
  method := owner.method
  unpaid := owner.unpaid
  route := by decide +kernel
  tail := owner.tail
  met := ⟨early_admitted.decoded,rfl,rfl,early_admitted.attested.signed,early_admitted.attested.payload⟩
  parsed := by decide +kernel
  transported := ⟨RedirectToken.putToken_transported.visible,RedirectToken.putToken_transported.decodes⟩

def tradeTopic : Topic trading where
  addr := {body := ownerHash}
  addrStr := ownerAddress
  peerAddr := fun first => if first then "http://localhost:8080" else "http://localhost:8081"
  request := fun _ => fetching
  encoded := rfl
  decoded := ⟨_,rfl,rfl⟩
  parsed := fun _ => ⟨_,rfl⟩
  get := GossipSpread.ownerTopic.get
  route := fun _ => by decide +kernel

theorem trading_serves : Serves (trading.deployment true) (steady 105) walletHash early.payload := by
  have unexpired : expiredAt (trading.deployment true) early.payload (clockAt 105) = some false := by decide +kernel
  refine ⟨⟨rfl,rfl,rfl,fun _ => unexpired⟩,⟨?_,fun raw => ⟨_,paymentTxid,rfl,rfl,rfl⟩⟩,fun _ => Nat.le_of_ble_eq_true rfl⟩
  exact ⟨_,walletAddress,{body := walletHash},rfl,⟨rfl,rfl⟩,by decide +kernel,.mainnet,rfl,rfl⟩

-- The first server sells, the second takes what was sold.
theorem trading_propagates : ∃ later : ServerPools Bool, Running trading.network later ∧
    (extractDetails (trading.settings false) (getTxStream (trading.deployment false) [.ok advertTx]) : Prog ServerError _) =
      .done [.ok ("http://localhost:8080",{body := ownerHash})] ∧
    (later false).shared.db ownerHash = some (body 1 early) := by
  have unexpired : expiredAt (trading.deployment false) early.payload (clockAt 105) = some false := by decide +kernel
  obtain ⟨resp,later,running,-,-,extracted,-,stored⟩ := @purchase_propagates walletHash advertised Bool _ trading
    (fun _ => .start (Shared.empty epoch)) true false advertPaying advertPayment advertTx (fun _ => steady 105) (fun _ => clockAt 105)
    (fun _ => rfl) WireMessages.decode_encodeMetadata .start (by decide) trader tradeTopic rfl ⟨rfl,rfl,.mainnet⟩
    (by decide +kernel) rfl (by decide +kernel) (by decide +kernel) advert_answers rfl
    ⟨[],by decide +kernel⟩ (fun _ => trading_serves) (fun _ _ _ => by simp [steady,calm]) (fun _ => unexpired)
    (fun _ _ _ _ entry => by cases entry)
  exact ⟨later,running,extracted,stored⟩

end Example

end Keyserver.PurchaseGossip
