import Keyserver.InvoiceIssuing
import Keyserver.RedirectToken
import Keyserver.RefusalCauses
import Keyserver.GossipSpread
import Keyserver.WalletLedger

namespace Keyserver.PurchaseProtocol
open SharedPrograms SharedPrograms.Program SharedPools SharedLocks KeyDb KeyHandlers KeyProtocol KeyRequests Bitcoin Payments
  PaymentProtocol PaymentRuns SoloRuns ServerProtocol InvoiceIssuing RefusalCauses
open PanicCauses (Cause handle_causes)
open RedirectToken (Transported paid_token)

-- A payment that answers the invoice for the put: an output pays the price to the
-- hash that was invoiced, and the merchant data goes back as it came.
structure Answers (d : Deployment) (invoiced paying : HttpRequest) (pkHash : Bytes) (payment : Payment) (txRaw : Bytes)
    (tx : Transaction) : Prop where
  met : Tendered d paying payment txRaw tx
  pays : ⟨5,[118,169,20] ++ pkHash ++ [136,172]⟩ ∈ tx.output
  merchant : payment.merchantData = some (utf8 (merchantUrl invoiced))

-- The put made again, with the token that the payment was answered with.
structure Repeats (d : Deployment) (invoiced retry : HttpRequest) : Prop where
  method : retry.method = .put
  url : merchantUrl retry = merchantUrl invoiced
  token : retry.authorization = some (utf8 ("POP " ++ tokenText d (merchantUrl invoiced)))

-- How the payment by thread `j` can end, by what came after the invoice.
inductive Redeemed (d : Deployment) (s : ServerPool) (j : Nat) (txRaw pkHash : Bytes) (after : Log) (resp : HttpResponse) :
    Prog ServerError Answer → Prop where
  | accepted : Redeemed d s j txRaw pkHash after resp (.done (.http resp))
  | unsent (sent : ⟨.rpcSend ⟨"sendrawtransaction",[d.crates.hexEncode txRaw]⟩,received⟩ ∈ history s.log j)
      (declined : Declined received) : Redeemed d s j txRaw pkHash after resp (.throw (.payment .invalidTx))
  | taken (other : k ≠ j) (removed : (k,⟨.walletRemove pkHash,present⟩) ∈ after) :
      Redeemed d s j txRaw pkHash after resp (.throw (.payment .invalidOutputs))

-- How a payment ends by its own history: if no hash is found, none was removed.
inductive Concludes (d : Deployment) (txRaw pkHash : Bytes) (past : Past) (resp : HttpResponse) :
    Outcome Panic ServerError HttpResponse → Prop where
  | accepted : Concludes d txRaw pkHash past resp (.returned resp)
  | unsent (sent : ⟨.rpcSend ⟨"sendrawtransaction",[d.crates.hexEncode txRaw]⟩,received⟩ ∈ past) (declined : Declined received) :
      Concludes d txRaw pkHash past resp (.thrown (.payment .invalidTx))
  | missing (missed : Misses past) (gone : ⟨.walletContains pkHash,false⟩ ∈ past) :
      Concludes d txRaw pkHash past resp (.thrown (.payment .invalidOutputs))

-- The ways a put with a token ends: it is stored, or overruled, or panics for cause.
inductive Entered (d : Deployment) (retry : HttpRequest) (addr : Address) (payload : Payload) (past : Past) :
    Prog ServerError Answer → Prop where
  | stored (status : resp.status = .ok) : Entered d retry addr payload past (.done (.http resp))
  | overruled (overruled : Overruled d addr payload past err) : Entered d retry addr payload past (.throw err)
  | panicked (cause : Cause d (.keys retry) past fault) : Entered d retry addr payload past (.panic fault)

section Purchases
variable {d : Deployment} {invoiced paying retry : HttpRequest} {pkHash txRaw : Bytes} {payment : Payment} {tx : Transaction}
  {url : Url} {resp : HttpResponse}

theorem settlement_concludes (answers : Answers d invoiced paying pkHash payment txRaw tx) (length : pkHash.length = 20)
    (resp : HttpResponse) : Follows (fun _ _ => True) (fun past outcome => Concludes d txRaw pkHash past resp outcome) []
      (settlement d txRaw tx (.ok resp)) := by
  have pays : Pays ⟨PRICE,p2pkhScript pkHash⟩ pkHash := ⟨rfl,rfl,length⟩
  have paths : Follows (fun _ _ => True) (SpendPath tx.output []) []
      (tx.output.anyM WalletState.checkP2pkh : Prog ServerError Bool) :=
    checkOutputs_follows (fun _ _ => trivial) (fun _ _ => trivial) tx.output []
  refine ((checkOutputs_looks tx.output []).and paths).bind ?_ (by simp) (by simp)
  intro later paid ended
  obtain ⟨⟨_,⟨rfl⟩,looked⟩,path⟩ := ended
  cases path with
  | @unpaid misses missed => exact .missing (by simpa using missed) (looked rfl _ answers.pays pkHash pays)
  | spent missed member pays =>
    simp only [Bool.not_true,Bool.false_eq_true,if_false]
    apply sendRequest_follows trivial
    · intro received declined
      exact .unsent (List.mem_append_right _ List.mem_cons_self) declined
    · intro response txid taken
      exact .accepted

theorem answers_settle (answers : Answers d invoiced paying pkHash payment txRaw tx)
    (parsed : d.crates.urlParse (merchantUrl invoiced) = .ok url) :
    paymentHandler d paying = settlement d txRaw tx (.ok (acknowledgement d payment (merchantUrl invoiced) url)) := by
  have form := paymentHandler_form d paying
  generalize paymentHandler d paying = program at form ⊢
  cases form with
  | refused unmet => exact absurd answers.met (unmet _ _ _)
  | tendered met receipt =>
    obtain ⟨rfl,rfl,rfl⟩ := tendered_unique met answers.met
    cases receipt with
    | withheld unmet => exact absurd ⟨answers.merchant,parsed⟩ (unmet _ _)
    | @issued merchant url' redirects =>
      obtain rfl := utf8_inj (Option.some.inj (redirects.named.symm.trans answers.merchant))
      obtain rfl := Except.ok.inj (redirects.parsed.symm.trans parsed)
      rfl

section Runs
variable {meets : ServerPool → Act Reply Request Clock → Prop} {origin : Shared} {s : ServerPool} {i j : Nat}
  {rest : Prog ServerError Answer}

theorem reached_invoice (release : d.overflowChecks = false) (path : Reached (server d) meets origin s)
    (put : invoiced.method = .put) (unpaid : invoiced.authorization = none)
    (found : s.threads[i]? = some ⟨.keys invoiced,.done (.http resp)⟩) (status : resp.status = .paymentRequired) :
    ∃ pkHash before fresh after, Invoice d invoiced resp pkHash ∧ s.log = before ++ (i,⟨.walletInsert pkHash,fresh⟩) :: after := by
  have issue := reached_follows (handle_issues release) path found invoiced resp rfl put unpaid rfl status
  generalize past : history s.log i = events at issue
  cases issue with
  | @invoiced before _ pkHash fresh quiet invoice =>
    obtain ⟨front,back,logged,-,-⟩ := history_split past
    exact ⟨pkHash,front,fresh,back,invoice,logged⟩

-- A hash that was put in and is not found any more was removed in between.
theorem reached_removed (path : Reached (server d) meets origin s) {before after : Log} {fresh : Bool}
    (logged : s.log = before ++ (i,⟨.walletInsert pkHash,fresh⟩) :: after) (gone : (j,⟨.walletContains pkHash,false⟩) ∈ after) :
    ∃ k present, (k,⟨.walletRemove pkHash,present⟩) ∈ after := by
  obtain ⟨middle,tail,rfl⟩ := List.append_of_mem gone
  rw [← List.cons_append,← List.append_assoc] at logged
  obtain ⟨moment,later,prior,log,-,step,-⟩ := reached_logged path logged
  by_contra kept
  have held : pkHash ∈ moment.shared.wallet := by
    refine inserted_stays prior before i fresh middle log fun k present removed => kept ⟨k,present,?_⟩
    exact List.mem_append_left _ removed
  cases step with
  | perform running answered => simp [server,answer,held] at answered

-- The payment of an invoice is honoured whatever runs in between: it is acknowledged
-- with the token, or the node refused it, or somebody else took the hash.
theorem reached_redeemed (path : Reached (server d) meets origin s) (answers : Answers d invoiced paying pkHash payment txRaw tx)
    (length : pkHash.length = 20) (parsed : d.crates.urlParse (merchantUrl invoiced) = .ok url) {before after : Log} {fresh : Bool}
    (logged : s.log = before ++ (i,⟨.walletInsert pkHash,fresh⟩) :: after) (begun : history before j = [])
    (found : s.threads[j]? = some ⟨.payments paying,rest⟩) (ended : Finished rest) :
    Redeemed d s j txRaw pkHash after (acknowledgement d payment (merchantUrl invoiced) url) rest := by
  have follows : Follows (fun _ _ => True) (fun past outcome => ∃ inner, outcome = inner.map Answer.http ∧
      Concludes d txRaw pkHash past (acknowledgement d payment (merchantUrl invoiced) url) inner) [] (handle d (.payments paying)) := by
    rw [handle,answers_settle answers parsed]
    exact (settlement_concludes answers length _).map (fun _ _ _ => trivial) fun past outcome concludes =>
      ⟨outcome,rfl,concludes⟩
  have outcome := reached_serves follows path found
  cases rest with
  | call op next => exact absurd rfl (ended op next)
  | done answer =>
    obtain ⟨inner,same,concludes⟩ := outcome
    cases concludes <;> cases same
    exact .accepted
  | panic fault =>
    obtain ⟨inner,same,concludes⟩ := outcome
    cases concludes <;> cases same
  | throw err =>
    obtain ⟨inner,same,concludes⟩ := outcome
    cases concludes with
    | accepted => cases same
    | unsent sent declined =>
      cases same
      exact .unsent sent declined
    | missing missed gone =>
      cases same
      have seen : (j,⟨.walletContains pkHash,false⟩) ∈ after := by
        rw [mem_history,logged] at gone
        rcases List.mem_append.mp gone with early | late
        · exact absurd early (history_silent begun _)
        · exact (List.mem_cons.mp late).resolve_left (by simp)
      obtain ⟨k,present,removed⟩ := reached_removed path logged seen
      refine .taken (fun same => ?_) removed
      subst same
      have own : ⟨.walletRemove pkHash,present⟩ ∈ history s.log k := by
        rw [mem_history,logged]
        exact List.mem_append_right _ (List.mem_cons_of_mem _ removed)
      obtain ⟨other,same⟩ := missed _ own
      cases same

theorem repeats_paid (repeats : Repeats d invoiced retry)
    (transported : Transported d (generateToken d (utf8 (merchantUrl invoiced)) (utf8 d.settings.secret))) : PaidFor d retry := by
  rw [paid_token repeats.token transported,repeats.url]

theorem reached_entered (path : Reached (server d) meets origin s) (put : retry.method = .put) (paid : PaidFor d retry)
    {addrStr : String} {addr : Address} {metadata : AddressMetadata} {payload : Payload}
    (route : d.crates.routeAddr retry.path = some addrStr) (met : Admitted d addrStr retry.payload addr metadata payload)
    (found : s.threads[j]? = some ⟨.keys retry,rest⟩) (ended : Finished rest) :
    Entered d retry addr payload (history s.log j) rest := by
  have follows : Follows (fun _ _ => True) (fun past outcome => ∃ inner, outcome = inner.map Answer.http ∧
      Ruled d addr payload past inner) [] (handle d (.keys retry)) := by
    simp only [handle,keysResource,route,call_paid put paid,forward,keysService,put]
    have entered : Follows (fun _ _ => True) (Ruled d addr payload) []
        (.call (.serviceCall retry.method retry.scheme retry.host retry.path) fun _ => putKey d addrStr retry.payload) :=
      ⟨trivial,fun _ => putKey_ruled met _⟩
    exact entered.map (fun _ _ _ => trivial) fun past outcome ruled => ⟨outcome,rfl,ruled⟩
  have outcome := reached_serves follows path found
  cases rest with
  | call op next => exact absurd rfl (ended op next)
  | done answer =>
    obtain ⟨inner,same,ruled⟩ := outcome
    cases inner <;> cases same
    exact .stored ruled
  | throw err =>
    obtain ⟨inner,same,ruled⟩ := outcome
    cases inner <;> cases same
    exact .overruled ruled
  | panic fault => exact .panicked (reached_follows (handle_causes d) path found fault rfl)

-- A purchase in every run, whatever else the server does meanwhile: the 402 names a
-- hash that went into the wallet; its payment is acknowledged with the token, unless
-- the node refuses it or another handler took the hash; and the put made again with
-- the token is stored, or overruled by the store, and never asked to pay again.
theorem purchase_honoured (release : d.overflowChecks = false) (path : Reached (server d) meets origin s)
    (put : invoiced.method = .put) (unpaid : invoiced.authorization = none)
    (parsed : d.crates.urlParse (merchantUrl invoiced) = .ok url)
    (transported : Transported d (generateToken d (utf8 (merchantUrl invoiced)) (utf8 d.settings.secret)))
    (found : s.threads[i]? = some ⟨.keys invoiced,.done (.http resp)⟩) (status : resp.status = .paymentRequired) :
    ∃ pkHash before fresh after, Invoice d invoiced resp pkHash ∧ s.log = before ++ (i,⟨.walletInsert pkHash,fresh⟩) :: after ∧
      (∀ (j : Nat) paying payment txRaw tx rest, Answers d invoiced paying pkHash payment txRaw tx → pkHash.length = 20 →
        history before j = [] → s.threads[j]? = some ⟨.payments paying,rest⟩ → Finished rest →
          Redeemed d s j txRaw pkHash after (acknowledgement d payment (merchantUrl invoiced) url) rest) ∧
      ∀ (k : Nat) retry addrStr addr metadata payload rest, Repeats d invoiced retry → d.crates.routeAddr retry.path = some addrStr →
        Admitted d addrStr retry.payload addr metadata payload → s.threads[k]? = some ⟨.keys retry,rest⟩ → Finished rest →
          Entered d retry addr payload (history s.log k) rest := by
  obtain ⟨pkHash,before,fresh,after,invoice,logged⟩ := reached_invoice release path put unpaid found status
  refine ⟨pkHash,before,fresh,after,invoice,logged,?_,?_⟩
  · intro j paying payment txRaw tx rest answers length begun found ended
    exact reached_redeemed path answers length parsed logged begun found ended
  · intro k retry addrStr addr metadata payload rest repeats route met found ended
    exact reached_entered path repeats.method (repeats_paid repeats transported) route met found ended

end Runs

section Visits
variable {meets : ServerPool → Act Reply Request Clock → Prop} {origin s : Shared} {pool : ServerPool} {c : Conditions}

-- Requests served one after the other, each alone.
def visits (d : Deployment) : List (Conditions × Request) → Shared → List (Outcome Panic ServerError Answer) × Shared
  | [],s => ([],s)
  | (c,request) :: rest,s =>
    let later := visits d rest (visit false d c request s).2
    ((visit false d c request s).1 :: later.1,later.2)

theorem appended {α : Type} {before after : List α} {first last : α} (own : after[before.length]? = some last)
    (others : ∀ j, j ≠ before.length → after[j]? = (before ++ [first])[j]?) : after = before ++ [last] := by
  apply List.ext_getElem?
  intro j
  by_cases same : j = before.length
  · rw [same,own,List.getElem?_concat_length]
  · rw [others j same]
    by_cases earlier : j < before.length
    · rw [List.getElem?_append_left earlier,List.getElem?_append_left earlier]
    · have beyond : before.length + 1 ≤ j := by omega
      rw [List.getElem?_eq_none (by simpa using beyond),List.getElem?_eq_none (by simpa using beyond)]

theorem visit_appended (free : ∀ s act, meets s act) (c : Conditions) (request : Request) (path : Reached (server d) meets origin pool) :
    ∃ last, Reached (server d) meets origin last ∧ last.shared = (visit false d c request pool.shared).2 ∧
      last.threads = pool.threads ++ [⟨request,.stop (visit false d c request pool.shared).1⟩] := by
  have arrived : Reached (server d) meets origin {pool with threads := pool.threads ++ [⟨request,handle d request⟩]} :=
    .step path (free _ _) .arrive
  obtain ⟨last,reached,shared,stopped,others⟩ := @solo_reached _ _ _ _ free c _ 0 _ _ arrived List.getElem?_concat_length
  exact ⟨last,reached,shared,appended stopped others⟩

theorem visits_appended (free : ∀ s act, meets s act) (script : List (Conditions × Request))
    (path : Reached (server d) meets origin pool) : ∃ last, Reached (server d) meets origin last ∧
      last.shared = (visits d script pool.shared).2 ∧ last.threads = pool.threads ++
        (script.zip (visits d script pool.shared).1).map fun served => ⟨served.1.2,.stop served.2⟩ := by
  induction script generalizing pool with
  | nil => exact ⟨pool,path,rfl,by simp [visits]⟩
  | cons first rest ih =>
    obtain ⟨c,request⟩ := first
    obtain ⟨middle,reached,shared,threads⟩ := visit_appended free c request path
    obtain ⟨last,reached',shared',threads'⟩ := ih reached
    rw [shared] at shared' threads'
    refine ⟨last,reached',shared',?_⟩
    rw [threads',threads]
    simp [visits]

-- A program that leaves the database out leaves it as it is.
theorem run_apart {Error α : Type} {may : Past → Op → Prop} {ends : Past → Outcome Panic Error α → Prop} {past : Past}
    {program : Prog Error α} (follows : Follows may ends past program)
    (apart : ∀ past op s, may past op → (carryOut false c s op).db = s.db) (now : Shared × Nat) :
    (run (settle false c) program now).2.1.db = now.1.db := by
  induction program generalizing past now with
  | done value => rfl
  | throw err => rfl
  | panic fault => rfl
  | call op next ih =>
    rw [run_call,ih _ (follows.2 _)]
    exact apart past op (atTime c now) follows.1

-- A node that issues an address for the hash and takes every transaction.
structure Obliging (d : Deployment) (c : Conditions) (pkHash : Bytes) : Prop where
  issues : ∃ response addrStr addr, c.rpc ⟨"getnewaddress",[]⟩ = .ok response ∧ Grants response addrStr ∧
    d.crates.decodeAddress addrStr = .ok addr ∧ Carries d.settings.network addr.network ∧ addr.hashType = .key ∧ addr.body = pkHash
  takes : ∀ raw, ∃ response txid, c.rpc ⟨"sendrawtransaction",[d.crates.hexEncode raw]⟩ = .ok response ∧ Grants response txid

@[simp] theorem settle_insert (pkHash : Bytes) (now : Shared × Nat) : settle false c (.walletInsert pkHash) now =
    (decide (pkHash ∉ now.1.wallet),{atTime c now with wallet := insert pkHash now.1.wallet},now.2 + 1) := by
  refine Prod.ext rfl ?_
  simp [settle,reply,carryOut,effect,answer,atTime]

@[simp] theorem settle_now (now : Shared × Nat) : settle false c .now now = (c.clock now.2,atTime c now,now.2 + 1) := by
  simp [settle,reply,atTime]

-- The unpaid put, served alone.
theorem visit_unpaid (release : d.overflowChecks = false) (obliging : Obliging d c pkHash) (put : invoiced.method = .put)
    (unpaid : invoiced.authorization = none) {addrStr : String} {addr : Address}
    (route : d.crates.routeAddr invoiced.path = some addrStr) (tail : pathTail invoiced.path = some addrStr)
    (addressed : d.crates.decodeAddress addrStr = .ok addr) (bounded : (c.clock 0).secs + VALID_DURATION < 2 ^ 63) :
    ∃ resp, (visit false d c (.keys invoiced) s).1 = .returned (.http resp) ∧ Invoice d invoiced resp pkHash ∧
      (visit false d c (.keys invoiced) s).2.wallet = insert pkHash s.wallet ∧ (visit false d c (.keys invoiced) s).2.db = s.db := by
  obtain ⟨response,issuedStr,issued,asked,granted,decoded,carries,keyed,rfl⟩ := obliging.issues
  have taken := responseValue_ok.mpr granted
  have network := carries_fromAddr.mp carries
  have expires : afterSecs (c.clock 0) VALID_DURATION = some ⟨(c.clock 0).secs + VALID_DURATION,bounded⟩ := dif_pos bounded
  simp only [visit,handle,keysResource,route,call_unpaid put unpaid,run_map,generateInvoice,systemTimeNow,call_bind,done_bind,
    run_call,settle_now,expires,unwrap_some,tail,decodeAddress,addressed,newAddr,getNewAddr,sendRequest,rpcSend,
    mapError_call,settle_rpc,asked,fromResult_ok,mapError_done,taken,decoded]
  simp only [network,keyed,ne_eq,not_true_eq_false,or_self,if_false,WalletState.add,call_bind,done_bind,run_call,settle_insert,
    release,generateOutputs_bill,pure_done,run_done]
  exact ⟨_,rfl,response_invoice expires tail addressed,rfl,rfl⟩

-- Its payment, served alone while the hash is in the wallet.
theorem visit_payment (obliging : Obliging d c pkHash) (answers : Answers d invoiced paying pkHash payment txRaw tx)
    (length : pkHash.length = 20) (parsed : d.crates.urlParse (merchantUrl invoiced) = .ok url) (held : pkHash ∈ s.wallet) :
    (visit false d c (.payments paying) s).1 = .returned (.http (acknowledgement d payment (merchantUrl invoiced) url)) ∧
      (visit false d c (.payments paying) s).2.db = s.db := by
  obtain ⟨response,txid,sent,granted⟩ := obliging.takes txRaw
  have taken := responseValue_ok.mpr granted
  have pays : Pays ⟨PRICE,p2pkhScript pkHash⟩ pkHash := ⟨rfl,rfl,length⟩
  obtain ⟨spent,found⟩ := spendable_isSome answers.pays pays held
  have outcome := (@run_settlement d c (s,0) txRaw tx (.ok (acknowledgement d payment (merchantUrl invoiced) url))).1
  have accepted : nodeAnswer d c txRaw = .ok txid := by simp [nodeAnswer,sent,taken]
  simp only [settlementOutcome,found,accepted] at outcome
  constructor
  · rw [visit,handle,run_map,answers_settle answers parsed,outcome]
    rfl
  · simp only [visit,handle,run_map]
    apply run_apart (paymentHandler_follows d paying)
    intro past op now settles
    cases settles <;> simp [carryOut,effect,reply,answer]

-- The put with a token, served alone while the store has nothing newer.
theorem visit_retry (put : retry.method = .put) (paid : PaidFor d retry) {addrStr : String} {addr : Address}
    {metadata : AddressMetadata} {payload : Payload} (route : d.crates.routeAddr retry.path = some addrStr)
    (met : Admitted d addrStr retry.payload addr metadata payload)
    (stored : (storeOutcome d c (lookup d (s.db addr.body) (c.clock 2)) payload (c.clock 3) : Outcome Panic ServerError PeerExit) =
      .returned .stored) : (visit false d c (.keys retry) s).1 = .returned (.http {status := .ok}) ∧
        (visit false d c (.keys retry) s).2.db = (s.store addr.body (some (d.crates.encodeMetadata metadata))).db := by
  obtain ⟨outcome,shape,ended,written,-⟩ :=
    @run_store false d c ({s with clock := c.clock 0},1) ServerError addr metadata payload
  obtain rfl := shape.trans stored
  have form : handle d (.keys retry) = .call (.serviceCall retry.method retry.scheme retry.host retry.path) fun _ =>
      Answer.http <$> (storePulled d addr metadata payload >>= presentStored) := by
    simp only [handle,keysResource,route,call_paid put paid,forward,keysService,put,IngestionVisits.putKey_admitted met]
    rfl
  have entered : (settle false c (.serviceCall retry.method retry.scheme retry.host retry.path) (s,0)).2 =
    ({s with clock := c.clock 0},1) := rfl
  rw [visit,form,run_call,run_map,run_bind,entered]
  generalize run (settle false c) (storePulled d addr metadata payload : Prog ServerError PeerExit)
    ({s with clock := c.clock 0},1) = after at ended written ⊢
  obtain ⟨result,last⟩ := after
  obtain rfl : result = .returned .stored := ended
  exact ⟨rfl,written rfl⟩

-- A get for the address, under any of its names.
structure Retrieves (d : Deployment) (reading : HttpRequest) (addr : Address) : Prop where
  get : reading.method = .get
  named : ∃ addrStr other, d.crates.routeAddr reading.path = some addrStr ∧ d.crates.decodeAddress addrStr = .ok other ∧
    other.body = addr.body

-- It is served alone while the entry is unexpired.
theorem visit_read (codec : d.crates.RoundTrips) {reading : HttpRequest} {addr : Address} (asks : Retrieves d reading addr)
    (reads : c.getFault = none) {metadata : AddressMetadata} {payload : Payload}
    (entry : s.db addr.body = some (d.crates.encodeMetadata metadata))
    (decoded : d.crates.decodePayload metadata.serializedPayload = some payload)
    (unexpired : expiredAt d payload (c.clock 2) = some false) : (visit false d c (.keys reading) s).1 =
      .returned (.http {status := .ok,body := d.crates.encodeMetadata metadata}) := by
  obtain ⟨get,addrStr,other,route,addressed,same⟩ := asks
  have found : lookup d (s.db other.body) (c.clock 2) = .current metadata payload := by
    simp [lookup,same,entry,codec metadata,decoded,unexpired]
  have outcome := (@run_get false d c ({s with clock := c.clock 0},1) other).1
  simp only [found,getOutcome,reads,Lookup.result] at outcome
  rw [GossipSpread.visit_keys get route,(@run_getKey false d c ({s with clock := c.clock 0},1) addrStr other addressed).1,outcome]
  rfl

end Visits

-- A client with an unpaid put of valid metadata, to a URL that the server can redirect to.
structure Customer (d : Deployment) where
  put : HttpRequest
  addrStr : String
  addr : Address
  metadata : AddressMetadata
  payload : Payload
  url : Url
  method : put.method = .put
  unpaid : put.authorization = none
  route : d.crates.routeAddr put.path = some addrStr
  tail : pathTail put.path = some addrStr
  met : Admitted d addrStr put.payload addr metadata payload
  parsed : d.crates.urlParse (merchantUrl put) = .ok url
  transported : Transported d (generateToken d (utf8 (merchantUrl put)) (utf8 d.settings.secret))

def Customer.paidPut (customer : Customer d) : HttpRequest :=
  {customer.put with authorization := some (utf8 ("POP " ++ tokenText d (merchantUrl customer.put)))}

-- A database that works, at times at which the payload has not expired.
structure Current (d : Deployment) (c : Conditions) (payload : Payload) : Prop where
  reads : c.getFault = none
  writes : c.putFault = none
  deletes : c.deleteFault = none
  lasting : ∀ n, expiredAt d payload (c.clock n) = some false

-- What the requests of a purchase meet.
structure Serves (d : Deployment) (c : Conditions) (pkHash : Bytes) (payload : Payload) : Prop extends Current d c payload where
  obliging : Obliging d c pkHash
  bounded : ∀ n, (c.clock n).secs + VALID_DURATION < 2 ^ 63

section Completion
variable {clock : Clock} {s : Shared} {pool : ServerPool} {c : Nat → Conditions}

theorem expiredAt_release (release : d.overflowChecks = false) (payload : Payload) (time : Clock) :
    ∃ answer, expiredAt d payload time = some answer := by
  simp [expiredAt,expiry,release]

-- Over a store of signed entries with nothing newer, unexpired metadata is stored.
theorem unopposed_stored (release : d.overflowChecks = false) {c : Conditions} {entry : Option Bytes} {payload : Payload}
    {time later : Clock} (current : Current d c payload) (readable : ∀ raw, entry = some raw → Readable d raw)
    (unopposed : ∀ raw old, entry = some raw → storedPayload d raw = some old → ¬ payload.timestamp < old.timestamp)
    (unexpired : expiredAt d payload later = some false) :
    (storeOutcome d c (lookup d entry time) payload later : Outcome Panic ServerError PeerExit) = .returned .stored := by
  cases entry with
  | none => simp [storeOutcome,checkOutcome,getOutcome,lookup,Lookup.result,current.reads,current.writes]
  | some raw =>
    obtain ⟨old,stored⟩ := Option.isSome_iff_exists.mp (readable raw rfl)
    have order := unopposed raw old rfl stored
    obtain ⟨metadata,decoded,read⟩ := Option.bind_eq_some_iff.mp stored
    obtain ⟨answer,known⟩ := expiredAt_release release old time
    cases answer <;> simp [storeOutcome,checkOutcome,getOutcome,lookup,Lookup.result,current.reads,current.writes,current.deletes,
      decoded,read,known,order,unexpired]

-- The four requests of a purchase: the put, the payment of its invoice, the put with
-- the token, and a get for what was put.
def Customer.script (customer : Customer d) (c : Nat → Conditions) (paying reading : HttpRequest) : List (Conditions × Request) :=
  [(c 0,.keys customer.put),(c 1,.payments paying),(c 2,.keys customer.paidPut),(c 3,.keys reading)]

def Customer.answers (customer : Customer d) (invoice : HttpResponse) (payment : Payment) : List HttpResponse :=
  [invoice,acknowledgement d payment (merchantUrl customer.put) customer.url,{status := .ok},
    {status := .ok,body := d.crates.encodeMetadata customer.metadata}]

variable {customer : Customer d} {reading : HttpRequest}

-- Served one after the other, they end as they should.
theorem purchase_visits (release : d.overflowChecks = false) (codec : d.crates.RoundTrips)
    (readable : ∀ raw, s.db customer.addr.body = some raw → Readable d raw)
    (answers : Answers d customer.put paying pkHash payment txRaw tx) (length : pkHash.length = 20)
    (serves : ∀ n, Serves d (c n) pkHash customer.payload) (asks : Retrieves d reading customer.addr)
    (unopposed : ∀ raw old, s.db customer.addr.body = some raw → storedPayload d raw = some old →
      ¬ customer.payload.timestamp < old.timestamp) : ∃ resp, Invoice d customer.put resp pkHash ∧
        (visits d (customer.script c paying reading) s).1 =
          (customer.answers resp payment).map fun answered => .returned (.http answered) := by
  obtain ⟨resp,issued,invoice,wallet,kept⟩ := visit_unpaid (s := s) release (serves 0).obliging customer.method customer.unpaid
    customer.route customer.tail customer.met.addressed ((serves 0).bounded 0)
  have held : pkHash ∈ (visit false d (c 0) (.keys customer.put) s).2.wallet := by
    rw [wallet]
    exact Finset.mem_insert_self pkHash s.wallet
  obtain ⟨accepted,kept'⟩ := visit_payment (serves 1).obliging answers length customer.parsed held
  have repeats : Repeats d customer.put customer.paidPut := ⟨customer.method,rfl,rfl⟩
  have stored : (storeOutcome d (c 2) (lookup d (s.db customer.addr.body) ((c 2).clock 2)) customer.payload ((c 2).clock 3) :
      Outcome Panic ServerError PeerExit) = .returned .stored :=
    unopposed_stored release (serves 2).toCurrent readable unopposed ((serves 2).lasting 3)
  rw [← kept,← kept'] at stored
  obtain ⟨written,entry⟩ := visit_retry repeats.method (repeats_paid repeats customer.transported) customer.route customer.met stored
  have read := visit_read codec asks (serves 3).reads (entry ▸ store_same ..) customer.met.attested.payload ((serves 3).lasting 2)
  exact ⟨resp,invoice,by simp only [Customer.script,visits,issued,accepted,written,read]; rfl⟩

-- So a purchase can be made from every reachable state, however many handlers stand
-- in the middle of their work, and the get returns what the put brought.
theorem purchase_completes (release : d.overflowChecks = false) (codec : d.crates.RoundTrips)
    (path : Reached (server d) (fun _ _ => True) (Shared.empty clock) pool) (customer : Customer d)
    (answers : Answers d customer.put paying pkHash payment txRaw tx) (length : pkHash.length = 20)
    (serves : ∀ n, Serves d (c n) pkHash customer.payload) (asks : Retrieves d reading customer.addr)
    (unopposed : ∀ raw old, pool.shared.db customer.addr.body = some raw → storedPayload d raw = some old →
      ¬ customer.payload.timestamp < old.timestamp) :
    ∃ resp last, Invoice d customer.put resp pkHash ∧ Reached (server d) (fun _ _ => True) (Shared.empty clock) last ∧
      last.threads = pool.threads ++ [⟨.keys customer.put,.done (.http resp)⟩,
        ⟨.payments paying,.done (.http (acknowledgement d payment (merchantUrl customer.put) customer.url))⟩,
        ⟨.keys customer.paidPut,.done (.http {status := .ok})⟩,
        ⟨.keys reading,.done (.http {status := .ok,body := d.crates.encodeMetadata customer.metadata})⟩] := by
  have readable : ∀ raw, pool.shared.db customer.addr.body = some raw → Readable d raw :=
    fun raw entry => StoreAuthenticity.stored_readable codec path entry
  obtain ⟨resp,invoice,served⟩ := purchase_visits release codec readable answers length serves asks unopposed
  obtain ⟨last,reached,-,threads⟩ := visits_appended (fun _ _ => trivial) (customer.script c paying reading) path
  rw [served] at threads
  exact ⟨resp,last,invoice,reached,threads⟩

end Completion

end Purchases

section Example
open SampleDeployment

theorem early_admitted : Admitted (deployment false) ownerAddress unpaidPut.payload {body := ownerHash} (signed 1 early)
    early.payload := by
  have signature : Authentication.Signed crates ownerHash (signed 1 early) :=
    ⟨ownerKey,early.signature,early.digest,rfl,rfl,rfl,rfl,by decide +kernel⟩
  refine ⟨?_,rfl,rfl,signature,by decide +kernel⟩
  simp only [unpaidPut,collected,Option.map_some,List.append_nil,Option.bind_some]
  exact WireMessages.onWire_roundTrips _ (signed 1 early)

theorem wallet_answers : Answers (deployment false) unpaidPut paying walletHash payment paymentTx
    ⟨[⟨5,[118,169,20] ++ walletHash ++ [136,172]⟩]⟩ := by
  refine ⟨⟨rfl,rfl,by decide +kernel,rfl,rfl⟩,?_,by decide +kernel⟩
  exact List.mem_singleton.mpr (by decide +kernel)

def owner : Customer (deployment false) where
  put := unpaidPut
  addrStr := ownerAddress
  addr := {body := ownerHash}
  metadata := signed 1 early
  payload := early.payload
  url := ⟨putUrl⟩
  method := rfl
  unpaid := rfl
  route := by decide +kernel
  tail := by decide +kernel
  met := early_admitted
  parsed := by decide +kernel
  transported := RedirectToken.putToken_transported

theorem steady_serves : Serves (deployment false) (steady 105) walletHash owner.payload := by
  have unexpired : expiredAt (deployment false) early.payload (clockAt 105) = some false := by decide +kernel
  refine ⟨⟨rfl,rfl,rfl,fun _ => unexpired⟩,⟨?_,fun raw => ⟨_,paymentTxid,rfl,rfl,rfl⟩⟩,fun _ => Nat.le_of_ble_eq_true rfl⟩
  exact ⟨_,walletAddress,{body := walletHash},rfl,⟨rfl,rfl⟩,by decide +kernel,.mainnet,rfl,rfl⟩

-- A purchase while another put is about to write.
theorem owner_completes : ∃ (pool last : ServerPool) (resp : HttpResponse), pool.nextOp 0 = some (.dbPut ownerHash (body 1 late)) ∧
    last.threads = pool.threads ++ [⟨.keys unpaidPut,.done (.http resp)⟩,
      ⟨.payments paying,.done (.http (acknowledgement (deployment false) payment (merchantUrl unpaidPut) ⟨putUrl⟩))⟩,
      ⟨.keys owner.paidPut,.done (.http {status := .ok})⟩,
      ⟨.keys {unpaidPut with method := .get},.done (.http {status := .ok,body := body 1 early})⟩] := by
  have done : (driven (deployment false) [.arrive (putOwner late),.thread 0]).map (fun s => (s.nextOp 0,s.shared.db ownerHash)) =
    some (some (.dbPut ownerHash (body 1 late)),none) := by decide +kernel
  obtain ⟨pool,reached,standing⟩ := Option.map_eq_some_iff.mp done
  simp only [Prod.mk.injEq] at standing
  have asks : Retrieves (deployment false) {unpaidPut with method := .get} owner.addr :=
    ⟨rfl,ownerAddress,{body := ownerHash},owner.route,rfl,rfl⟩
  obtain ⟨resp,last,-,-,threads⟩ := purchase_completes (c := fun _ => steady 105) rfl (WireMessages.onWire_roundTrips _)
    (driven_reached reached) owner wallet_answers rfl (fun _ => steady_serves)
      asks (fun raw old entry => by cases standing.2.symm.trans entry)
  exact ⟨pool,last,resp,standing.1,threads⟩

-- The invoice, its payment and the put with the token, each in its turn.
def purchasing : List (Turn Request Clock) :=
  [.arrive (.keys unpaidPut),.thread 0,.thread 0,.thread 0,.arrive (.payments paying),.thread 1,.thread 1,.thread 1,
    .arrive (.keys owner.paidPut),.thread 2,.thread 2,.thread 2]

theorem owner_honoured : ∃ (s : ServerPool) (resp : HttpResponse) (before after : Log) (fresh : Bool),
    s.threads[0]? = some ⟨.keys unpaidPut,.done (.http resp)⟩ ∧ resp.status = .paymentRequired ∧
      s.log = before ++ (0,⟨.walletInsert walletHash,fresh⟩) :: after ∧
      Redeemed (deployment false) s 1 paymentTx walletHash after
        (acknowledgement (deployment false) payment (merchantUrl unpaidPut) ⟨putUrl⟩)
        (.done (.http (acknowledgement (deployment false) payment (merchantUrl unpaidPut) ⟨putUrl⟩))) ∧
      Entered (deployment false) owner.paidPut {body := ownerHash} early.payload (history s.log 2) (.done (.http {status := .ok})) := by
  have done : (driven (deployment false) purchasing).any (fun s => InvoiceSpending.status s 0 = some .paymentRequired &&
      s.returned 1 = some (.http (acknowledgement (deployment false) payment (merchantUrl unpaidPut) ⟨putUrl⟩)) &&
      s.returned 2 = some (.http {status := .ok}) && s.log.take 3 = [(0,⟨.now,epoch⟩),
        (0,⟨.rpcSend ⟨"getnewaddress",[]⟩,.ok ⟨some (.ok walletAddress),none⟩⟩),(0,⟨.walletInsert walletHash,true⟩)]) = true := by
    decide +kernel
  obtain ⟨s,reached,facts⟩ := (Option.any_eq_true _ _).mp done
  simp only [Bool.and_eq_true,decide_eq_true_eq] at facts
  obtain ⟨⟨⟨asked,accepted⟩,stored⟩,first⟩ := facts
  have path := driven_reached reached
  have known : s.requests = [.keys unpaidPut,.payments paying,.keys owner.paidPut] := drive_requests reached
  have issued : s.log = [(0,⟨.now,epoch⟩),(0,⟨.rpcSend ⟨"getnewaddress",[]⟩,.ok ⟨some (.ok walletAddress),none⟩⟩)] ++
      (0,⟨.walletInsert walletHash,true⟩) :: s.log.drop 3 := by
    have parts := List.take_append_drop 3 s.log
    rw [first] at parts
    exact parts.symm
  obtain ⟨answered,found,status⟩ := Option.bind_eq_some_iff.mp asked
  cases answered with
  | http resp =>
    have standing := returned_thread (by rw [known]; rfl) found
    have required := Option.some.inj status
    obtain ⟨pkHash,before,fresh,after,-,logged,redeemed,entered⟩ :=
      purchase_honoured rfl path rfl rfl owner.parsed owner.transported standing required
    obtain ⟨same,rfl⟩ := split_only (issued.symm.trans logged) (WalletLedger.insertion_last rfl path issued)
      (WalletLedger.insertion_last rfl path logged)
    cases same
    obtain rfl := List.append_cancel_right (issued.symm.trans logged)
    refine ⟨s,resp,_,_,true,standing,required,issued,?_,?_⟩
    · exact redeemed 1 paying payment paymentTx _ _ wallet_answers rfl rfl (returned_thread (by rw [known]; rfl) accepted)
        fun op next same => by cases same
    · exact entered 2 owner.paidPut ownerAddress _ (signed 1 early) early.payload _ ⟨rfl,rfl,rfl⟩ owner.route early_admitted
        (returned_thread (by rw [known]; rfl) stored) fun op next same => by cases same
  | peer exit => cases status
  | compacted => cases status

end Example

end Keyserver.PurchaseProtocol
