import Keyserver.SharedLocks
import Keyserver.StoreProvenance
import Keyserver.PaymentRuns
import Keyserver.PanicCauses
import Keyserver.SampleUpdates

namespace Keyserver.RefusalCauses
open SharedPrograms SharedPrograms.Program SharedPools SharedLocks KeyDb KeyHandlers KeyProtocol KeyRequests Bitcoin Payments
  PaymentProtocol PaymentRuns ServerProtocol StoreProvenance
open PanicCauses (Cause handle_causes)

-- A put of validated metadata, over the routes for a token that was paid for.
inductive Offers (d : Deployment) : Request → Address → Payload → Prop where
  | direct (met : Admitted d addrStr body addr metadata payload) : Offers d (.putKey addrStr body) addr payload
  | routed (put : req.method = .put) (paid : PaidFor d req) (route : d.crates.routeAddr req.path = some addrStr)
      (met : Admitted d addrStr req.payload addr metadata payload) : Offers d (.keys req) addr payload

-- A request with which nothing is wrong, and the status that it is to be answered with.
inductive InOrder (d : Deployment) : Request → StatusCode → Prop where
  | get (gets : Gets d request addrStr) (addressed : d.crates.decodeAddress addrStr = .ok addr) : InOrder d request .ok
  | put (offers : Offers d request addr payload) : InOrder d request .ok
  | unpaid (put : req.method = .put) (unpaid : req.authorization = none) (route : d.crates.routeAddr req.path = some addrStr)
      (tail : pathTail req.path = some putAddrStr) (addressed : d.crates.decodeAddress putAddrStr = .ok addr) :
      InOrder d (.keys req) .paymentRequired
  | payment (met : Tendered d req payment txRaw tx) (redirects : Redirects d payment merchant url) :
      InOrder d (.payments req) .accepted

def Failed (past : Past) (err : RocksError) : Prop :=
  (∃ key, ⟨.dbGet key,.error err⟩ ∈ past) ∨ (∃ key, ⟨.dbDelete key,.error err⟩ ∈ past) ∨
    ∃ key raw, ⟨.dbPut key raw,.error err⟩ ∈ past

-- The node was asked for an address and gave this text.
def Gave (past : Past) (addrStr : String) : Prop :=
  ∃ response, ⟨.rpcSend ⟨"getnewaddress",[]⟩,.ok response⟩ ∈ past ∧ Grants response addrStr

-- What the handler of valid metadata has seen when it does not store it.
inductive Overruled (d : Deployment) (addr : Address) (payload : Payload) (past : Past) : ServerError → Prop where
  | database (failed : Failed past err) : Overruled d addr payload past (.db err)
  | superseded (read : ⟨.dbGet addr.body,.ok (some raw)⟩ ∈ past) (stored : storedPayload d raw = some old)
      (looked : ⟨.now,time⟩ ∈ past) (unexpired : expiredAt d old time = some false) (newer : payload.timestamp < old.timestamp) :
      Overruled d addr payload past (.validation .outdated)
  | expired (read : ⟨.dbGet addr.body,.ok (some raw)⟩ ∈ past) (stored : storedPayload d raw = some old)
      (first : ⟨.now,early⟩ ∈ past) (unexpired : expiredAt d old early = some false) (order : ¬ payload.timestamp < old.timestamp)
      (looked : ⟨.now,time⟩ ∈ past) (stale : expiredAt d payload time = some true) :
      Overruled d addr payload past (.validation .expiredTtl)

-- What the handler has seen when it turns a request in order down.
inductive Excused (d : Deployment) : Request → Past → ServerError → Prop where
  | database (failed : Failed past err) : Excused d request past (.db err)
  | absent (gets : Gets d request addrStr) (addressed : d.crates.decodeAddress addrStr = .ok addr)
      (read : ⟨.dbGet addr.body,.ok none⟩ ∈ past) : Excused d request past .notFound
  | lapsed (gets : Gets d request addrStr) (addressed : d.crates.decodeAddress addrStr = .ok addr)
      (read : ⟨.dbGet addr.body,.ok (some raw)⟩ ∈ past) (looked : ⟨.now,time⟩ ∈ past) (stale : Stale d raw time) :
      Excused d request past .notFound
  | overruled (offers : Offers d request addr payload) (overruled : Overruled d addr payload past err) :
      Excused d request past err
  | unissued (asked : ⟨.rpcSend ⟨"getnewaddress",[]⟩,received⟩ ∈ past) (declined : Declined received) :
      Excused d (.keys req) past (.payment .addrFetchFailed)
  | unreadable (gave : Gave past addrStr) (unread : d.crates.decodeAddress addrStr = .error (cashErr,base58Err)) :
      Excused d (.keys req) past (.address cashErr base58Err)
  | foreign (gave : Gave past addrStr) (read : d.crates.decodeAddress addrStr = .ok addr)
      (other : ¬ Carries d.settings.network addr.network ∨ addr.hashType ≠ .key) :
      Excused d (.keys req) past (.payment .mismatchedNetwork)
  | unspendable (met : Tendered d req payment txRaw tx)
      (gone : ∀ output ∈ tx.output, ∀ pkHash, Pays output pkHash → ⟨.walletContains pkHash,false⟩ ∈ past) :
      Excused d (.payments req) past (.payment .invalidOutputs)
  | unsent (met : Tendered d req payment txRaw tx)
      (sent : ⟨.rpcSend ⟨"sendrawtransaction",[d.crates.hexEncode txRaw]⟩,received⟩ ∈ past) (declined : Declined received) :
      Excused d (.payments req) past (.payment .invalidTx)

-- How a get for an address ends, by what its handler saw.
inductive Reading (d : Deployment) (addr : Address) (past : Past) : Outcome Panic ServerError HttpResponse → Prop where
  | current (read : ⟨.dbGet addr.body,.ok (some raw)⟩ ∈ past) (decoded : d.crates.decodeMetadata raw = some metadata) :
      Reading d addr past (.returned {status := .ok,body := d.crates.encodeMetadata metadata})
  | absent (read : ⟨.dbGet addr.body,.ok none⟩ ∈ past) : Reading d addr past (.thrown .notFound)
  | expired (read : ⟨.dbGet addr.body,.ok (some raw)⟩ ∈ past) (looked : ⟨.now,time⟩ ∈ past) (stale : Stale d raw time) :
      Reading d addr past (.thrown .notFound)
  | failed (failed : Failed past err) : Reading d addr past (.thrown (.db err))
  | panicked : Reading d addr past (.panicked fault)

-- The request ends as it should, or it was excused, or its handler panicked.
def Fair (d : Deployment) (request : Request) (status : StatusCode) (past : Past) : Outcome Panic ServerError Answer → Prop
  | .returned answer => ∃ resp, answer = .http resp ∧ resp.status = status
  | .thrown err => Excused d request past err
  | .panicked _ => True

variable {d : Deployment} {request : Request} {past later : Past} {addr : Address} {metadata : AddressMetadata} {payload : Payload}

section Store

theorem get_failed {outcome : Outcome Panic RocksError (Option AddressMetadata)} {key : Bytes} {err : RocksError}
    (got : GetPath d key past later outcome) (thrown : outcome = .thrown err) : Failed later err := by
  cases got with
  | failed =>
    cases thrown
    exact .inl ⟨key,by simp⟩
  | deleteFailed stale =>
    cases thrown
    exact .inr (.inl ⟨key,by simp⟩)
  | _ => cases thrown

theorem getKey_reads {addrStr : String} (addressed : d.crates.decodeAddress addrStr = .ok addr) (past : Past) :
    Follows (fun _ _ => True) (Reading d addr) past (getKey d addrStr) := by
  unfold getKey decodeAddress
  simp only [addressed,done_bind]
  rw [mapError_bind]
  refine ((get_follows d addr past).mono (fun _ _ _ => trivial) fun _ _ got => got).attempt_bind ?_ ?_ ?_
  · intro later found got
    cases got with
    | absent => exact .absent (by simp)
    | @lapsed raw time stale =>
      have read : ⟨.dbGet addr.body,.ok (some raw)⟩ ∈ past ++ [⟨.dbGet addr.body,.ok (some raw)⟩] ++ [⟨.now,time⟩] ++
        [⟨.dbDelete addr.body,.ok ()⟩] := by simp
      exact .expired read (by simp) stale
    | @current raw metadata payload time decoded =>
      have read : ⟨.dbGet addr.body,.ok (some raw)⟩ ∈ past ++ [⟨.dbGet addr.body,.ok (some raw)⟩] ++ [⟨.now,time⟩] := by simp
      exact .current read decoded
  · intro later err got
    exact .failed (get_failed got rfl)
  · intro later fault got
    exact .panicked

theorem getKey_fair {addrStr : String} (gets : Gets d request addrStr) (addressed : d.crates.decodeAddress addrStr = .ok addr)
    (past : Past) : Follows (fun _ _ => True) (fun later outcome => Fair d request .ok later (outcome.map Answer.http)) past
      (getKey d addrStr) := by
  apply (getKey_reads addressed past).mono (fun _ _ _ => trivial)
  intro later outcome reading
  cases reading with
  | current read decoded => exact ⟨_,rfl,rfl⟩
  | absent read => exact .absent gets addressed read
  | expired read looked stale => exact .lapsed gets addressed read looked stale
  | failed failed => exact .database failed
  | panicked => trivial

-- A put of validated metadata is stored, or overruled, or panics.
def Ruled (d : Deployment) (addr : Address) (payload : Payload) (past : Past) : Outcome Panic ServerError HttpResponse → Prop
  | .returned resp => resp.status = .ok
  | .thrown err => Overruled d addr payload past err
  | .panicked _ => True

theorem store_ruled {exit : PeerExit}
    (stored : StorePath d addr.body metadata payload past later (.returned exit : Outcome Panic ServerError PeerExit)) :
    Follows (fun _ _ => True) (Ruled d addr payload) later (presentStored exit) := by
  cases stored with
  | checkFailed checked =>
    cases checked with
    | failed got => exact .database (get_failed got rfl)
  | putFailed checked => exact .database (.inr (.inr ⟨addr.body,d.crates.encodeMetadata metadata,by simp⟩))
  | stored checked => exact rfl
  | refused checked =>
    cases checked with
    | outdated got read older =>
      cases got with
      | @current raw _ _ time decoded read' unexpired =>
        obtain rfl := Option.some.inj (read.symm.trans read')
        have entry : ⟨.dbGet addr.body,.ok (some raw)⟩ ∈ past ++ [⟨.dbGet addr.body,.ok (some raw)⟩] ++ [⟨.now,time⟩] := by simp
        exact .superseded entry (by simp [storedPayload,decoded,read]) (by simp) unexpired older
    | @expired _ _ _ time got read order stale =>
      cases got with
      | @current raw _ _ first decoded read' unexpired =>
        obtain rfl := Option.some.inj (read.symm.trans read')
        exact @Overruled.expired _ _ _ _ raw _ first time (by simp) (by simp [storedPayload,decoded,read]) (by simp) unexpired order
          (by simp) stale

theorem putKey_ruled {addrStr : String} {body : List (Except String Bytes)} (met : Admitted d addrStr body addr metadata payload)
    (past : Past) : Follows (fun _ _ => True) (Ruled d addr payload) past (putKey d addrStr body) := by
  have form := putKey_form d addrStr body
  generalize putKey d addrStr body = program at form ⊢
  cases form with
  | refused unmet => exact absurd met (unmet _ _ _)
  | panicked unmet => exact absurd met (unmet _ _ _)
  | admitted met' =>
    obtain ⟨rfl,rfl,rfl⟩ := met.unique met'
    refine ((stored_follows met.attested past).mono (fun _ _ _ => trivial) fun _ _ stored => stored).bind ?_ ?_ ?_
    · intro later exit stored
      exact store_ruled stored
    · intro later err stored
      cases stored
    · intro later fault stored
      trivial

theorem putKey_fair {addrStr : String} {body : List (Except String Bytes)} (met : Admitted d addrStr body addr metadata payload)
    (offers : Offers d request addr payload) (past : Past) :
    Follows (fun _ _ => True) (fun later outcome => Fair d request .ok later (outcome.map Answer.http)) past
      (putKey d addrStr body) := by
  apply (putKey_ruled met past).mono (fun _ _ _ => trivial)
  intro later outcome ruled
  cases outcome with
  | returned resp => exact ⟨resp,rfl,ruled⟩
  | thrown err => exact .overruled offers ruled
  | panicked fault => trivial

end Store

section Payment
variable {req : HttpRequest}

-- A check that accepts no output has looked for the address of each.
theorem checkOutputs_looks {Error : Type} (outputs : List TxOut) (past : Past) :
    Follows (fun _ _ => True) (fun later outcome => ∃ paid, outcome = .returned paid ∧ (paid = false →
      ∀ output ∈ outputs, ∀ pkHash, Pays output pkHash → ⟨.walletContains pkHash,false⟩ ∈ later)) past
        (outputs.anyM WalletState.checkP2pkh : Prog Error Bool) := by
  induction outputs generalizing past with
  | nil => simp [List.anyM]
  | cons first rest ih =>
    rw [checkOutputs_cons]
    cases paid : payee first with
    | none =>
      apply (ih past).mono (fun _ _ _ => trivial)
      intro later outcome given
      obtain ⟨answer,rfl,looked⟩ := given
      refine ⟨answer,rfl,fun missed output member pkHash pays => ?_⟩
      rcases List.mem_cons.mp member with rfl | behind
      · cases paid.symm.trans (payee_some.mpr pays)
      · exact looked missed output behind pkHash pays
    | some pkHash =>
      refine ⟨trivial,fun present => ?_⟩
      cases present with
      | true => exact ⟨trivial,fun _ => ⟨true,rfl,by simp⟩⟩
      | false =>
        apply (ih _).grown.mono (fun _ _ _ => trivial)
        intro later outcome given
        obtain ⟨⟨answer,rfl,looked⟩,grown⟩ := given
        refine ⟨answer,rfl,fun missed output member other pays => ?_⟩
        rcases List.mem_cons.mp member with rfl | behind
        · obtain rfl := Option.some.inj (paid.symm.trans (payee_some.mpr pays))
          exact grown.subset (by simp)
        · exact looked missed output behind other pays

theorem paymentHandler_fair {payment : Payment} {txRaw : Bytes} {tx : Transaction} {merchant : String} {url : Url}
    (met : Tendered d req payment txRaw tx) (redirects : Redirects d payment merchant url) :
    Follows (fun _ _ => True) (fun later outcome => Fair d (.payments req) .accepted later (outcome.map Answer.http)) []
      (paymentHandler d req) := by
  have form := paymentHandler_form d req
  generalize paymentHandler d req = program at form ⊢
  cases form with
  | refused unmet => exact absurd met (unmet _ _ _)
  | tendered met' receipt =>
    obtain ⟨rfl,rfl,rfl⟩ := tendered_unique met' met
    cases receipt with
    | withheld unmet => exact absurd redirects (unmet _ _)
    | @issued merchant' url' redirects' =>
      refine (checkOutputs_looks tx.output []).bind ?_ (by simp) (by simp)
      intro later paid given
      obtain ⟨_,⟨rfl⟩,looked⟩ := given
      cases paid with
      | false => exact .unspendable met (looked rfl)
      | true =>
        simp only [Bool.not_true,Bool.false_eq_true,if_false]
        apply sendRequest_follows trivial
        · intro received declined
          exact .unsent met (List.mem_append_right _ List.mem_cons_self) declined
        · intro response txid taken
          exact ⟨_,rfl,rfl⟩

theorem generateInvoice_fair {putAddrStr : String} {putAddr : Address} (tail : pathTail req.path = some putAddrStr)
    (addressed : d.crates.decodeAddress putAddrStr = .ok putAddr) :
    Follows (fun _ _ => True) (fun later outcome => Fair d (.keys req) .paymentRequired later (outcome.map Answer.http)) []
      (generateInvoice d req) := by
  apply (generateInvoice_paths d req []).mono (fun _ _ _ => trivial)
  intro past outcome path
  cases path with
  | late | uncut | overflow => trivial
  | misdirected tail' unread =>
    obtain rfl := Option.some.inj (tail.symm.trans tail')
    cases addressed.symm.trans unread
  | declined declined => exact .unissued (List.mem_append_right _ List.mem_cons_self) declined
  | unreadable granted unread => exact .unreadable ⟨_,List.mem_append_right _ List.mem_cons_self,granted⟩ unread
  | foreign granted read other => exact .foreign ⟨_,List.mem_append_right _ List.mem_cons_self,granted⟩ read other
  | invoiced => exact ⟨_,rfl,rfl⟩

end Payment

section Runs
variable {status : StatusCode}

theorem keys_fair {req : HttpRequest} {addrStr : String} (forwarded : Payments.call d (keysService d addrStr) req =
      forward (keysService d addrStr) req) (route : d.crates.routeAddr req.path = some addrStr)
    (served : ∀ past, Follows (fun _ _ => True) (fun later outcome => Fair d (.keys req) status later (outcome.map Answer.http))
      past (keysService d addrStr req)) : Follows (fun _ _ => True) (Fair d (.keys req) status) [] (handle d (.keys req)) := by
  simp only [handle,keysResource,route,forwarded]
  have entered : Follows (fun _ _ => True) (fun later outcome => Fair d (.keys req) status later (outcome.map Answer.http)) []
    (forward (keysService d addrStr) req) := ⟨trivial,fun _ => served _⟩
  exact entered.map (fun _ _ _ => trivial) fun _ _ fair => fair

theorem inOrder_fair (inOrder : InOrder d request status) :
    Follows (fun _ _ => True) (Fair d request status) [] (handle d request) := by
  cases inOrder with
  | get gets addressed =>
    cases gets with
    | direct => exact (getKey_fair .direct addressed []).map (fun _ _ _ => trivial) fun _ _ fair => fair
    | routed get route =>
      apply keys_fair (by simp [Payments.call,get]) route
      intro past
      simp only [keysService,get]
      exact getKey_fair (.routed get route) addressed past
  | put offers =>
    cases offers with
    | direct met => exact (putKey_fair met (.direct met) []).map (fun _ _ _ => trivial) fun _ _ fair => fair
    | routed put paid route met =>
      apply keys_fair (call_paid put paid) route
      intro past
      simp only [keysService,put]
      exact putKey_fair met (.routed put paid route met) past
  | unpaid put unpaid route tail addressed =>
    simp only [handle,keysResource,route,call_unpaid put unpaid]
    exact (generateInvoice_fair tail addressed).map (fun _ _ _ => trivial) fun _ _ fair => fair
  | payment met redirects =>
    exact (paymentHandler_fair met redirects).map (fun _ _ _ => trivial) fun _ _ fair => fair

theorem handle_fair (d : Deployment) (request : Request) : Follows (fun _ _ => True)
    (fun past outcome => ∀ status, InOrder d request status → Fair d request status past outcome) [] (handle d request) :=
  Follows.all fun _ => Follows.all fun inOrder => inOrder_fair inOrder

variable {meets : ServerPool → Act Reply Request Clock → Prop} {origin : Shared} {s : ServerPool}

-- Nothing else turns a request down: in every run a request that is in order ends as
-- it should, or its handler saw the database or the node fail, an entry that rules it
-- out, or every address that it pays gone, or it panicked for one of the causes.
theorem reached_excused (path : Reached (server d) meets origin s) (inOrder : InOrder d request status) {i : Nat}
    {rest : Prog ServerError Answer} (found : s.threads[i]? = some ⟨request,rest⟩) (ended : Finished rest) :
    (∃ resp, rest = .done (.http resp) ∧ resp.status = status) ∨
      (∃ err, rest = .throw err ∧ Excused d request (history s.log i) err) ∨
        ∃ fault, rest = .panic fault ∧ Cause d request (history s.log i) fault := by
  have fair := reached_follows (handle_fair d) path found
  dsimp only at fair
  cases rest with
  | call op next => exact absurd rfl (ended op next)
  | done answer =>
    obtain ⟨resp,rfl,same⟩ := fair status inOrder
    exact .inl ⟨resp,rfl,same⟩
  | throw err => exact .inr (.inl ⟨err,rfl,fair status inOrder⟩)
  | panic fault => exact .inr (.inr ⟨fault,rfl,reached_follows (handle_causes d) path found fault rfl⟩)

end Runs

section Example
open SampleDeployment SampleUpdates

def refusal (s : ServerPool) (i : Nat) : Option ServerError :=
  match s.threads[i]? with
  | some ⟨_,.throw err⟩ => some err
  | _ => none

theorem refusal_thread {s : ServerPool} {i : Nat} {err : ServerError} (known : s.requests[i]? = some request)
    (refused : refusal s i = some err) : s.threads[i]? = some ⟨request,.throw err⟩ := by
  unfold refusal at refused
  split at refused
  · rename_i request' err' found
    cases refused
    obtain rfl := Option.some.inj ((thread_request found).symm.trans known)
    exact found
  · cases refused

-- A valid put is turned down because newer metadata was read.
theorem long_excused : ∃ s : ServerPool, refusal s 1 = some (.validation .outdated) ∧
    Excused (moreDeployment false) (putOwner long) (history s.log 1) (.validation .outdated) := by
  have done : (driven (moreDeployment false) [.arrive (putOwner late),.arrive (putOwner long),.thread 0,.thread 0,.thread 1,
      .thread 1]).map (fun s => refusal s 1) = some (some (.validation .outdated)) := by decide +kernel
  obtain ⟨s,reached,refused⟩ := Option.map_eq_some_iff.mp done
  have known : s.requests[1]? = some (putOwner long) := by
    rw [drive_requests reached]
    rfl
  have inOrder : InOrder (moreDeployment false) (putOwner long) .ok := .put (.direct (more_admitted (by simp)))
  have ended : Finished (.throw (.validation .outdated) : Prog ServerError Answer) := by
    intro op next same
    cases same
  refine ⟨s,refused,?_⟩
  rcases reached_excused (driven_reached reached) inOrder (refusal_thread known refused) ended with
    ⟨resp,same,-⟩ | ⟨err,same,excused⟩ | ⟨fault,same,-⟩
  · cases same
  · cases same
    exact excused
  · cases same

end Example

end Keyserver.RefusalCauses
