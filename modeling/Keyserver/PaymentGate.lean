import Keyserver.ServerProtocol
import Keyserver.SampleDeployment

namespace Keyserver.PaymentGate
open SharedPrograms SharedPools KeyHandlers KeyProtocol KeyRequests Bitcoin Payments PaymentProtocol ServerProtocol SampleDeployment

def Returned (d : Deployment) (s : ServerPool) (merchant : Bytes) : Prop :=
  ∃ (i : Nat) (req : HttpRequest) (resp : HttpResponse) (payment : Payment), s.threads[i]? = some ⟨.payments req,.done (.http resp)⟩ ∧
    (collected req.payload).bind d.crates.decodePayment = some payment ∧ payment.merchantData = some merchant ∧
    resp.headers.lookup "authorization" =
      some ("POP " ++ d.crates.base64Encode (generateToken d merchant (utf8 d.settings.secret)))

def presented (d : Deployment) (req : HttpRequest) : Option Bytes :=
  req.authorization.bind fun header => (tokenStr d header).bind d.crates.base64Decode

-- Ideal tokens: a put presents one only after the server returned it.
def IdealTokens (d : Deployment) (s : ServerPool) : Act Reply Request Clock → Prop
  | .arrive (.keys req) => req.method = .put → ∀ merchant,
      presented d req = some (generateToken d merchant (utf8 d.settings.secret)) → Returned d s merchant
  | _ => True

variable {d : Deployment} {origin : Shared} {clock : Clock} {s next : ServerPool} {act : Act Reply Request Clock}
  {meets : ServerPool → Act Reply Request Clock → Prop}

theorem returned_step {merchant : Bytes} (step : Step (server d) s act next) (returned : Returned d s merchant) :
    Returned d next merchant := by
  obtain ⟨i,req,resp,payment,found,decoded,named,token⟩ := returned
  exact ⟨i,req,resp,payment,step_finished step found (by simp),decoded,named,token⟩

theorem presented_returned (path : Reached (server d) (IdealTokens d) (Shared.empty clock) s) :
    ∀ req, Request.keys req ∈ s.requests → req.method = .put → ∀ merchant,
      presented d req = some (generateToken d merchant (utf8 d.settings.secret)) → Returned d s merchant := by
  induction path with
  | start => simp [Pool.start,Pool.requests]
  | step prior met step ih =>
    intro req member put merchant token
    apply returned_step step
    rcases step_requests step with same | ⟨request,rfl,grown⟩
    · rw [same] at member
      exact ih req member put merchant token
    · rw [grown] at member
      rcases List.mem_append.mp member with old | new
      · exact ih req old put merchant token
      · cases List.mem_singleton.mp new
        exact met put merchant token

theorem wallet_inserted (path : Reached (server d) meets origin s) (empty : origin.wallet = ∅) :
    ∀ pkHash ∈ s.shared.wallet, ∃ i fresh, (i,⟨.walletInsert pkHash,fresh⟩) ∈ s.log := by
  refine @logged_invariant d (fun log shared => ∀ pkHash ∈ shared.wallet, ∃ i fresh, (i,⟨.walletInsert pkHash,fresh⟩) ∈ log)
    meets _ s ?_ ?_ ?_ path
  · simp [empty]
  · intro log shared clock valid
    exact valid
  · intro log shared i event next effect valid pkHash member
    have kept : pkHash ∈ shared.wallet → ∃ j fresh, (j,⟨.walletInsert pkHash,fresh⟩) ∈ log ++ [(i,event)] := by
      intro old
      obtain ⟨j,fresh,logged⟩ := valid pkHash old
      exact ⟨j,fresh,List.mem_append_left _ logged⟩
    cases effect with
    | @insert addr =>
      rcases Finset.mem_insert.mp member with rfl | old
      · exact ⟨i,_,List.mem_append_right _ (List.mem_singleton.mpr rfl)⟩
      · exact kept old
    | remove => exact kept (Finset.mem_of_mem_erase member)
    | _ => exact kept member

theorem seen_inserted (path : Reached (server d) meets origin s) (empty : origin.wallet = ∅)
    {before after : Log} {i : Nat} {pkHash : Bytes}
    (logged : s.log = before ++ (i,⟨.walletContains pkHash,true⟩) :: after) :
    ∃ j fresh, (j,⟨.walletInsert pkHash,fresh⟩) ∈ before := by
  obtain ⟨moment,later,prior,rfl,met,step,kept⟩ := reached_logged path logged
  cases step with
  | perform running answered =>
    have member : pkHash ∈ moment.shared.wallet := by
      by_contra absent
      simp [server,answer,absent] at answered
    exact wallet_inserted prior empty pkHash member

-- The hash was in the wallet because a put without a token had been invoiced.
def Issued (s : ServerPool) (payer : Nat) (pkHash : Bytes) : Prop :=
  ∃ before after issuer fresh req, s.log = before ++ (payer,⟨.walletContains pkHash,true⟩) :: after ∧
    (issuer,⟨.walletInsert pkHash,fresh⟩) ∈ before ∧ s.requests[issuer]? = some (.keys req) ∧
    req.method = .put ∧ req.authorization = none

theorem issued_origin (path : Reached (server d) meets origin s) (empty : origin.wallet = ∅) {i : Nat} {pkHash : Bytes}
    (seen : ⟨.walletContains pkHash,true⟩ ∈ history s.log i) : Issued s i pkHash := by
  obtain ⟨before,after,logged⟩ := List.append_of_mem (mem_history.mp seen)
  obtain ⟨j,fresh,inserted⟩ := seen_inserted path empty logged
  obtain ⟨early,late,rfl⟩ := List.append_of_mem inserted
  have whole : s.log = early ++ (j,⟨.walletInsert pkHash,fresh⟩) :: (late ++ (i,⟨.walletContains pkHash,true⟩) :: after) := by
    rw [logged,List.append_assoc,List.cons_append]
  obtain ⟨request,known,permitted⟩ := reached_permitted (handle_follows d) path whole
  obtain ⟨req,rfl,put,unpaid⟩ := permits_insert permitted
  exact ⟨_,after,j,fresh,req,logged,inserted,known,put,unpaid⟩

theorem seen_issued (path : Reached (server d) meets (Shared.empty clock) s) {i : Nat} {pkHash : Bytes}
    (seen : ⟨.walletContains pkHash,true⟩ ∈ history s.log i) : Issued s i pkHash :=
  issued_origin path rfl seen

theorem forwards_paid {i : Nat} {scheme host path : String}
    (ideal : Reached (server d) (IdealTokens d) (Shared.empty clock) s)
    (forwarded : Step (server d) s (.perform i ⟨.serviceCall .put scheme host path,()⟩) next) :
    ∃ payer req resp pkHash, s.threads[payer]? = some ⟨.payments req,.done (.http resp)⟩ ∧
      Accepted d req (history s.log payer) resp (utf8 (scheme ++ "://" ++ host ++ path)) pkHash ∧ Issued s payer pkHash := by
  cases forwarded with
  | @perform _ _ request op rest reply shared running answered =>
    have follows := reached_follows (handle_follows d) ideal running
    obtain ⟨req,rfl,paid,put,rfl,rfl,rfl⟩ := permits_service follows.1
    obtain ⟨header,token,authorized,worded,decoded⟩ := paid put.symm
    have shown : presented d req = some (generateToken d (utf8 (merchantUrl req)) (utf8 d.settings.secret)) := by
      simp [presented,authorized,worded,decoded]
    have member : Request.keys req ∈ s.requests := List.mem_of_getElem? (thread_request running)
    obtain ⟨payer,paying,resp,payment,found,received,named,token⟩ :=
      presented_returned ideal req member put.symm _ shown
    have ended := reached_follows (handle_follows d) ideal found
    rw [follows_done] at ended
    obtain ⟨merchant,pkHash,accepted⟩ := ended.paid paying resp rfl rfl
    have same : merchant = utf8 (merchantUrl req) := Option.some.inj ((accepted.merchant received).symm.trans named)
    subst same
    exact ⟨payer,paying,resp,pkHash,found,accepted,seen_issued ideal accepted.wallet⟩

def unauthorized (_ : ServerPool) : Act Reply Request Clock → Bool
  | .arrive (.keys req) => req.authorization.isNone
  | _ => true

theorem unauthorized_ideal (s : ServerPool) (act : Act Reply Request Clock) (passed : unauthorized s act = true) :
    IdealTokens d s act := by
  cases act with
  | arrive request =>
    cases request with
    | keys req =>
      intro put merchant token
      have absent : req.authorization = none := by simpa [unauthorized] using passed
      simp [presented,absent] at token
    | _ => trivial
  | _ => trivial

def invoicedAndPaid : Option ServerPool :=
  (server (deployment false)).drive (SoloRuns.reply calm) unauthorized
    [.arrive (.keys unpaidPut),.thread 0,.thread 0,.thread 0,.arrive (.payments paying),.thread 1,.thread 1,.thread 1]
    (.start (Shared.empty epoch))

theorem sample_token : presented (deployment false) paidPut = some putToken := by decide +kernel

theorem sample_paid : PaidFor (deployment false) paidPut := by
  refine ⟨_,utf8 putTokenText,rfl,?_,?_⟩
  · decide +kernel
  · decide +kernel

theorem sample_ideal {s : ServerPool} (returned : Returned (deployment false) s (utf8 putUrl)) :
    IdealTokens (deployment false) s (.arrive (.keys paidPut)) := by
  intro put merchant token
  rw [sample_token] at token
  by_cases same : merchant = utf8 putUrl
  · rw [same]
    exact returned
  · have other : generateToken (deployment false) merchant (utf8 (deployment false).settings.secret) = [] := by
      simp only [generateToken,deployment,crates,WireMessages.onWire]
      simp [same]
    rw [other] at token
    cases token

theorem sample_enters : ∃ rest, handle (deployment false) (.keys paidPut) =
    .call (.serviceCall .put "http" "localhost:8080" ("/keys/" ++ ownerAddress)) rest := by
  have route : (deployment false).crates.routeAddr paidPut.path = some ownerAddress := by decide +kernel
  simp only [handle,keysResource,route,call_paid (show paidPut.method = .put from rfl) sample_paid,forward]
  exact ⟨_,rfl⟩

def Answer.token : Answer → Option String
  | .http resp => resp.headers.lookup "authorization"
  | .peer _ => none
  | .compacted => none

theorem forwards_sample : ∃ payer req resp pkHash, ∃ s : ServerPool,
    s.threads[payer]? = some ⟨.payments req,.done (.http resp)⟩ ∧
      Accepted (deployment false) req (history s.log payer) resp (utf8 putUrl) pkHash ∧ Issued s payer pkHash := by
  have done : (invoicedAndPaid.bind fun s => (s.returned 1).bind Answer.token) = some ("POP " ++ putTokenText) := by decide +kernel
  obtain ⟨s,driven,ended⟩ := Option.bind_eq_some_iff.mp done
  obtain ⟨answered,returned,token⟩ := Option.bind_eq_some_iff.mp ended
  have requests := drive_requests driven
  cases answered with
  | http resp =>
    have found : s.threads[1]? = some ⟨.payments paying,.done (.http resp)⟩ :=
      returned_thread (by rw [requests]; rfl) returned
    have decoded : (collected paying.payload).bind (deployment false).crates.decodePayment = some payment := by
      decide +kernel
    have paid : Returned (deployment false) s (utf8 putUrl) := by
      refine ⟨1,paying,resp,payment,found,decoded,rfl,token.trans ?_⟩
      decide +kernel
    have path : Reached (server (deployment false)) (IdealTokens (deployment false)) (Shared.empty epoch) s :=
      drive_reached unauthorized_ideal .start driven
    obtain ⟨rest,enters⟩ := sample_enters
    have last : s.threads.length = 2 := by
      have count := congrArg List.length requests
      rwa [Pool.requests,List.length_map] at count
    have running : (s.threads ++ [⟨.keys paidPut,(server (deployment false)).serve (.keys paidPut)⟩])[2]? =
        some ⟨.keys paidPut,.call (.serviceCall .put "http" "localhost:8080" ("/keys/" ++ ownerAddress)) rest⟩ := by
      rw [List.getElem?_append_right (by omega),last,← enters]
      rfl
    obtain ⟨payer,req,resp,pkHash,first,accepted,issued⟩ :=
      forwards_paid (.step path (sample_ideal paid) .arrive) (.perform running rfl)
    exact ⟨payer,req,resp,pkHash,_,first,accepted,issued⟩
  | peer | compacted => cases token

end Keyserver.PaymentGate
