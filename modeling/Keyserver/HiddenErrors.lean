import Keyserver.SharedPairs
import Keyserver.PaymentRuns
import Keyserver.ServerProtocol
import Keyserver.SampleDeployment

namespace Keyserver.HiddenErrors
open SharedPrograms SharedPrograms.Program SharedPools SharedPairs Authentication KeyDb KeyHandlers KeyProtocol KeyRequests
  Bitcoin Payments PaymentProtocol PaymentRuns

-- The text of an error is all in which two of these differ.
abbrev SameBut {Error Error' α : Type} : Except Error α → Except Error' α → Prop := Results Eq fun _ _ => True

-- What the code makes of a reply of the node.
def rpcResult : Except String RpcResponse → Except BitcoinError String
  | .error err => .error (.http err)
  | .ok response => responseValue response

-- Answers that differ only in what the database, the node or a peer says of an error.
def SameReply : (op : Op) → Reply op → Reply op → Prop
  | .dbGet _,one,two => SameBut one two
  | .dbPut _ _,one,two => SameBut one two
  | .dbDelete _,one,two => SameBut one two
  | .rpcSend _,one,two => SameBut (rpcResult one) (rpcResult two)
  | .httpGet _,one,two => SameBut one two
  | .compactionRead _,one,two => one = two
  | .compactionDrop _ _,one,two => one = two
  | .now,one,two => one = two
  | .walletContains _,one,two => one = two
  | .walletInsert _,one,two => one = two
  | .walletRemove _,one,two => one = two
  | .delayFor _,one,two => one = two
  | .serviceCall _ _ _ _,one,two => one = two

-- Errors that are answered with the same response.
def Hidden (one two : ServerError) : Prop := one.errorResponse = two.errorResponse

def Unnamed {Error Error' : Type} (_ : Error) (_ : Error') : Prop := True

inductive Exits : PeerExit → PeerExit → Prop where
  | same : Exits exit exit
  | checkFailed : Exits (.checkFailed one) (.checkFailed two)
  | putFailed : Exits (.putFailed one) (.putFailed two)
  | unreachable : Exits (.unreachable one) (.unreachable two)

variable {d : Deployment} {Error Error' α : Type} {error : Error → Error' → Prop}

section Plain
variable {reflexive : Error → Error → Prop}

theorem unwrap_told (fault : Panic) (found : Option α) :
    Paired SameReply Eq error (unwrap fault found : Prog Error α) (unwrap fault found : Prog Error' α) := by
  cases found with
  | none => exact .panic
  | some value => exact .done rfl

theorem okOr_told (err : Error) (found : Option α) (same : reflexive err err) :
    Paired SameReply Eq reflexive (okOr err found : Prog Error α) (okOr err found) := by
  cases found with
  | none => exact .throw same
  | some value => exact .done rfl

end Plain

section Store

theorem expired_told (payload : Payload) :
    Paired SameReply Eq error (expired d payload : Prog Error Bool) (expired d payload : Prog Error' Bool) := by
  simp only [expired,systemTimeNow,call_bind,done_bind]
  refine .call fun clock clock' same => ?_
  obtain rfl : clock = clock' := same
  exact (unwrap_told _ _).bind fun _ _ sums => .done (by rw [sums])

theorem fromResult_told {one two : Except Error α} (same : SameBut one two) :
    Paired SameReply Eq Unnamed (fromResult one : Prog Error α) (fromResult two) := by
  cases same with
  | ok same => exact .done same
  | error _ => exact .throw trivial

theorem get_told (addr : Address) : Paired SameReply Eq Unnamed (KeyDb.get d addr) (KeyDb.get d addr) := by
  simp only [KeyDb.get,rocksGet,call_bind]
  refine .call fun one two same => (fromResult_told same).bind ?_
  intro found _ same
  subst same
  cases found with
  | none => exact .done rfl
  | some dat =>
    refine (unwrap_told _ _).bind ?_
    intro metadata _ same
    subst same
    refine (unwrap_told _ _).bind ?_
    intro payload _ same
    subst same
    refine (expired_told payload).bind ?_
    intro stale _ same
    subst same
    cases stale with
    | false => exact .done rfl
    | true =>
      simp only [if_true,rocksDelete,call_bind]
      exact .call fun one two same => (fromResult_told same).bind fun _ _ _ => .done rfl

theorem check_told (addr : Address) (payload : Payload) :
    Paired SameReply Eq Unnamed (checkTimestamp d addr payload) (checkTimestamp d addr payload) := by
  refine (get_told addr).bind ?_
  intro found _ same
  subst same
  cases found with
  | none => exact .done rfl
  | some old =>
    refine (unwrap_told _ _).bind ?_
    intro oldPayload _ same
    subst same
    split
    · exact .done rfl
    · refine (expired_told payload).bind ?_
      intro stale _ same
      subst same
      cases stale <;> exact .done rfl

theorem store_told {error : Error → Error → Prop} (addr : Address) (metadata : AddressMetadata) (payload : Payload) :
    Paired SameReply Exits error (storePulled d addr metadata payload : Prog Error PeerExit) (storePulled d addr metadata payload) := by
  refine (check_told addr payload).attempt.bind ?_
  rintro _ _ (⟨⟨rfl⟩⟩ | _)
  · rename_i verdict
    cases verdict with
    | error err => exact .done .same
    | ok admitted =>
      simp only [KeyDb.put,rocksPut,attempt_call,call_bind]
      refine .call fun one two same => ?_
      cases same with
      | ok same => exact .done .same
      | error _ => exact .done .putFailed
  · exact .done .checkFailed

end Store

section Keys

theorem presentStored_told {one two : PeerExit} (same : Exits one two) :
    Paired SameReply Eq Hidden (presentStored one) (presentStored two) := by
  cases same with
  | same =>
    cases one with
    | stored => exact .done rfl
    | _ => exact .throw rfl
  | checkFailed | putFailed | unreachable => exact .throw rfl

theorem putKey_told (addrStr : String) (body : List (Except String Bytes)) :
    Paired SameReply Eq Hidden (putKey d addrStr body) (putKey d addrStr body) := by
  have form := putKey_form d addrStr body
  generalize putKey d addrStr body = program at form ⊢
  cases form with
  | refused unmet => exact .throw rfl
  | panicked unmet => exact .panic
  | @admitted addr metadata payload met => exact (store_told addr metadata payload).bind fun _ _ same => presentStored_told same

theorem decodeAddress_told (addrStr : String) : Paired SameReply Eq Hidden (decodeAddress d addrStr) (decodeAddress d addrStr) := by
  unfold decodeAddress
  cases d.crates.decodeAddress addrStr with
  | ok addr => exact .done rfl
  | error err => exact .throw rfl

theorem getKey_told (addrStr : String) : Paired SameReply Eq Hidden (getKey d addrStr) (getKey d addrStr) := by
  refine (decodeAddress_told addrStr).bind ?_
  intro addr _ same
  subst same
  have got : Paired SameReply Eq Hidden ((KeyDb.get d addr).mapError .db) ((KeyDb.get d addr).mapError .db) :=
    (get_told addr).mapError fun _ _ _ => rfl
  refine got.bind ?_
  intro found _ same
  subst same
  have missing : Hidden .notFound .notFound := rfl
  refine (okOr_told _ found missing).bind ?_
  intro metadata _ same
  subst same
  exact .done rfl

theorem pull_told {error : Error → Error → Prop} (addr : Address) (raw : Bytes) :
    Paired SameReply Exits error (pullMetadata d addr raw : Prog Error PeerExit) (pullMetadata d addr raw) := by
  have form : PullForm d addr raw (pullMetadata d addr raw : Prog Error PeerExit) := pull_form d addr raw
  generalize (pullMetadata d addr raw : Prog Error PeerExit) = program at form ⊢
  cases form with
  | refused unmet exit => exact .done .same
  | panicked unmet => exact .panic
  | @admitted metadata payload met => exact store_told addr metadata payload

theorem peerPolling_told {error : Error → Error → Prop} (res : Except StreamError (String × Address)) :
    Paired SameReply Exits error (peerPolling d res : Prog Error PeerExit) (peerPolling d res) := by
  unfold peerPolling
  rcases res with err | ⟨peerAddr,addr⟩
  · exact .done .same
  · cases encoded : d.crates.encodeAddress addr with
    | error err => simpa [encoded] using .done .same
    | ok addrStr =>
      simp only [encoded,delayFor,call_bind,done_bind]
      refine .call fun _ _ _ => ?_
      unfold getMetadata
      cases d.crates.urlParse (peerAddr ++ "/keys/" ++ addrStr) with
      | error err => exact .done .same
      | ok url =>
        simp only [fromResult_ok,mapError_done,done_bind,httpGet,mapError_call,attempt_call,call_bind]
        refine .call fun one two same => ?_
        cases same with
        | error _ => exact .done .unreachable
        | ok same =>
          subst same
          exact pull_told addr _

theorem compact_told {error : Error → Error → Prop} (key : Bytes) :
    Paired SameReply Eq error (compact d key : Prog Error Unit) (compact d key) := by
  refine .call fun one two same => ?_
  obtain rfl : one = two := same
  cases one with
  | none => exact .done rfl
  | some raw =>
    unfold ttlFilter
    simp only [bind_bind]
    refine (unwrap_told _ _).bind ?_
    intro metadata _ same
    subst same
    refine (unwrap_told _ _).bind ?_
    intro payload _ same
    subst same
    refine (expired_told payload).bind ?_
    intro stale _ same
    subst same
    cases stale with
    | false => exact .done rfl
    | true => exact .call fun _ _ _ => .done rfl

end Keys

section Payments

theorem sendRequest_told (request : RpcRequest) : Paired SameReply Eq Unnamed (sendRequest request) (sendRequest request) := by
  have taken : ∀ reply, (fromResult reply).mapError .http >>= (fun response => fromResult (responseValue response)) =
      (fromResult (rpcResult reply) : Prog BitcoinError String) := by
    rintro (err | response) <;> rfl
  simp only [sendRequest,rpcSend,mapError_call,call_bind,taken]
  exact .call fun one two same => fromResult_told same

theorem checkOutputs_told (outputs : List TxOut) :
    Paired SameReply Eq error (outputs.anyM WalletState.checkP2pkh : Prog Error Bool)
      (outputs.anyM WalletState.checkP2pkh : Prog Error' Bool) := by
  induction outputs with
  | nil => exact .done rfl
  | cons output rest ih =>
    rw [checkOutputs_cons,checkOutputs_cons]
    cases payee output with
    | none => exact ih
    | some pkHash =>
      refine .call fun present present' same => ?_
      obtain rfl : present = present' := same
      cases present with
      | false => exact ih
      | true => exact .call fun _ _ _ => .done rfl

theorem paymentHandler_told (req : HttpRequest) : Paired SameReply Eq Hidden (paymentHandler d req) (paymentHandler d req) := by
  have form := paymentHandler_form d req
  generalize paymentHandler d req = program at form ⊢
  cases form with
  | refused unmet => exact .throw rfl
  | @tendered payment txRaw tx receipt met issued =>
    refine (checkOutputs_told tx.output).bind ?_
    intro paid _ same
    subst same
    cases paid with
    | false => exact .throw rfl
    | true =>
      have sent : Paired SameReply Eq Hidden ((sendTx d txRaw).mapError fun _ => .payment .invalidTx)
          ((sendTx d txRaw).mapError fun _ => .payment .invalidTx) := (sendRequest_told _).mapError fun _ _ _ => rfl
      refine sent.bind fun _ _ _ => ?_
      cases receipt with
      | ok resp => exact .done rfl
      | error err => exact .throw rfl

theorem newAddr_told : Paired SameReply Eq Hidden (newAddr d) (newAddr d) := by
  have fetched : Paired SameReply Eq Hidden (getNewAddr.mapError fun _ => .payment .addrFetchFailed)
      (getNewAddr.mapError fun _ => .payment .addrFetchFailed) := (sendRequest_told _).mapError fun _ _ _ => rfl
  refine fetched.bind ?_
  intro addrStr _ same
  subst same
  refine (decodeAddress_told addrStr).bind ?_
  intro addr _ same
  subst same
  split
  · exact .throw rfl
  · exact .call fun _ _ _ => .done rfl

theorem generateInvoice_told (req : HttpRequest) : Paired SameReply Eq Hidden (generateInvoice d req) (generateInvoice d req) := by
  refine .call fun clock clock' same => ?_
  obtain rfl : clock = clock' := same
  refine (unwrap_told _ _).bind ?_
  intro expiryTime _ same
  subst same
  refine (unwrap_told _ _).bind ?_
  intro putAddrStr _ same
  subst same
  refine (decodeAddress_told putAddrStr).bind ?_
  intro putAddr _ same
  subst same
  refine newAddr_told.bind ?_
  intro addrRaw _ same
  subst same
  simp only [generateOutputs,lengthByte_cases]
  split
  · exact .panic
  · exact .done rfl

theorem call_told {service : HttpRequest → Prog ServerError HttpResponse} {req : HttpRequest}
    (served : Paired SameReply Eq Hidden (service req) (service req)) :
    Paired SameReply Eq Hidden (Payments.call d service req) (Payments.call d service req) := by
  have form := call_form d service req
  generalize Payments.call d service req = program at form ⊢
  cases form with
  | forwarded paid => exact .call fun _ _ _ => served
  | invoiced put unpaid => exact generateInvoice_told req
  | refused put unpaid => exact .throw rfl
  | rejected put unpaid => exact .done rfl

end Payments

def clientSees : Answer → Option HttpResponse
  | .http resp => some resp
  | _ => none

theorem handle_told (request : Request) :
    Paired SameReply (fun one two => clientSees one = clientSees two) Hidden (handle d request) (handle d request) := by
  have http : ∀ {program : Prog ServerError HttpResponse}, Paired SameReply Eq Hidden program program →
      Paired SameReply (fun one two => clientSees one = clientSees two) Hidden (Answer.http <$> program) (Answer.http <$> program) :=
    fun pair => pair.bind fun _ _ same => .done (by rw [same])
  cases request with
  | getKey addrStr => exact http (getKey_told addrStr)
  | putKey addrStr body => exact http (putKey_told addrStr body)
  | payments req => exact http (paymentHandler_told req)
  | peerItem res => exact (peerPolling_told res).bind fun _ _ _ => .done rfl
  | compaction key => exact (compact_told key).bind fun _ _ _ => .done rfl
  | keys req =>
    apply http
    unfold keysResource
    cases d.crates.routeAddr req.path with
    | none => exact .done rfl
    | some addrStr =>
      apply call_told
      unfold keysService
      cases req.method with
      | get => exact getKey_told addrStr
      | put => exact putKey_told addrStr req.payload
      | _ => exact .done rfl

-- What the database, the node and the peers may say in their errors instead.
structure Texts where
  rocks : RocksError → RocksError
  node : String → String
  peer : String → String

def retell (texts : Texts) : (op : Op) → Reply op → Reply op
  | .dbGet _,reply => Except.mapError texts.rocks reply
  | .dbPut _ _,reply => Except.mapError texts.rocks reply
  | .dbDelete _,reply => Except.mapError texts.rocks reply
  | .rpcSend _,.error err => .error (texts.node err)
  | .rpcSend _,.ok response => .ok ⟨response.result.map (Except.mapError texts.node),response.error.map texts.node⟩
  | .httpGet _,reply => Except.mapError texts.peer reply
  | .compactionRead _,reply => reply
  | .compactionDrop _ _,reply => reply
  | .now,reply => reply
  | .walletContains _,reply => reply
  | .walletInsert _,reply => reply
  | .walletRemove _,reply => reply
  | .delayFor _,reply => reply
  | .serviceCall _ _ _ _,reply => reply

theorem mapError_sameBut {Error Error' α : Type} (convert : Error → Error') (reply : Except Error α) :
    SameBut reply (Except.mapError convert reply) := by
  cases reply with
  | ok value => exact .ok rfl
  | error err => exact .error trivial

theorem retell_alike (texts : Texts) (op : Op) (reply : Reply op) : SameReply op reply (retell texts op reply) := by
  cases op with
  | dbGet | dbPut | dbDelete | httpGet => exact mapError_sameBut _ reply
  | rpcSend request =>
    rcases reply with err | ⟨result,error⟩
    · exact .error trivial
    · show SameBut (rpcResult _) (rpcResult _)
      cases error with
      | some err => exact .error trivial
      | none =>
        rcases result with _ | (err | value)
        · exact .error trivial
        · exact .error trivial
        · exact .ok rfl
  | _ => exact rfl

theorem answer_alike {s next : Shared} {op : Op} {reply reply' : Reply op} (answered : answer s op reply = some next)
    (same : SameReply op reply reply') : answer s op reply' = some next := by
  cases op with
  | dbGet | dbPut | dbDelete =>
    cases same with
    | ok same => rwa [← same]
    | error _ => exact answered
  | rpcSend | httpGet => exact answered
  | _ => rwa [← (same : reply = reply')]

def response (s : ServerPool) (i : Nat) : Option HttpResponse :=
  s.threads[i]?.bind fun thread => match thread.rest with
    | .done answered => clientSees answered
    | .throw err => some err.errorResponse
    | _ => none

variable {meets : ServerPool → Act Reply Request Clock → Prop} {origin : Shared} {s : ServerPool}

-- What an error of the database, of the node or of a peer says, no client ever sees:
-- in the run in which they say anything else, the server holds the same and every
-- request is answered the same.
theorem errors_hidden (texts : Texts) (path : Reached (server d) meets origin s) :
    ∃ twin, Reached (server d) (fun _ _ => True) origin twin ∧ twin.shared = s.shared ∧ twin.requests = s.requests ∧
      twin.log = s.log.map (fun entry => (entry.1,Event.retold (retell texts) entry.2)) ∧
        ∀ i, response twin i = response s i := by
  obtain ⟨twin,reached,twins⟩ := reached_twin handle_told answer_alike (retell_alike texts) path
  refine ⟨twin,reached,twins.shared,twins.requests,twins.log,fun i => ?_⟩
  unfold response
  cases found : s.threads[i]? with
  | none => rw [twins.absent found]
  | some thread =>
    obtain ⟨rest,same,pair⟩ := twins.threads i thread found
    obtain ⟨request,program⟩ := thread
    rw [same]
    simp only [Option.bind_some]
    cases pair with
    | done seen => exact seen.symm
    | throw seen => exact congrArg some seen.symm
    | panic => rfl
    | call rest => rfl

section Example
open SampleDeployment

def corruption : RocksError := ⟨"Corruption: block checksum mismatch"⟩

def corrupt : SoloRuns.Conditions := {calm with getFault := some corruption}

def failedRead : Option ServerPool :=
  (server (deployment false)).drive (SoloRuns.reply corrupt) (fun _ _ => true) [.arrive (.getKey ownerAddress),.thread 0]
    (.start (Shared.empty epoch))

theorem corruption_hidden : ∃ s twin : ServerPool, s.log = [(0,⟨.dbGet ownerHash,.error corruption⟩)] ∧
    twin.log = [(0,⟨.dbGet ownerHash,.error ⟨""⟩⟩)] ∧ response s 0 = some ⟨.internalServerError,[],utf8 "internal db error"⟩ ∧
      response twin 0 = response s 0 := by
  have done : failedRead.map (fun s => (s.log,response s 0)) =
      some ([(0,⟨.dbGet ownerHash,.error corruption⟩)],some ⟨.internalServerError,[],utf8 "internal db error"⟩) := by decide +kernel
  obtain ⟨s,driven,ended⟩ := Option.map_eq_some_iff.mp done
  simp only [Prod.mk.injEq] at ended
  have path : Reached (server (deployment false)) (fun _ _ => True) (Shared.empty epoch) s :=
    drive_reached (fun _ _ _ => trivial) .start driven
  obtain ⟨twin,-,-,-,logged,same⟩ := errors_hidden ⟨fun _ => ⟨""⟩,id,id⟩ path
  rw [ended.1] at logged
  exact ⟨s,twin,ended.1,logged,ended.2,same 0⟩

end Example

end Keyserver.HiddenErrors
