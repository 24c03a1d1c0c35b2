import Keyserver.PaymentRuns
import Keyserver.SampleDeployment

namespace Keyserver.RedirectToken
open SharedPrograms KeyRequests Payments PaymentProtocol SoloRuns PaymentRuns SampleDeployment

-- Where a client sends a request for a URL.
structure Target where
  scheme : String
  host : String
  path : String

def Target.text (goal : Target) : String := goal.scheme ++ "://" ++ goal.host ++ goal.path

-- The put that a client makes of the response, as `target` reads its location.
structure Retries (target : String → Option Target) (resp : HttpResponse) (retry : HttpRequest) : Prop where
  method : retry.method = .put
  located : ∃ location goal, resp.headers.lookup "location" = some location ∧ target location = some goal ∧
    retry.scheme = goal.scheme ∧ retry.host = goal.host ∧ retry.path = goal.path
  authorized : ∃ token, resp.headers.lookup "authorization" = some token ∧ retry.authorization = some (utf8 token)

def retryAt (goal : Target) (authorization : String) : HttpRequest where
  method := .put
  scheme := goal.scheme
  host := goal.host
  path := goal.path
  authorization := some (utf8 authorization)
  contentType := none
  accept := none
  payload := []

def Works (d : Deployment) (target : String → Option Target) (resp : HttpResponse) : Prop :=
  ∀ retry, Retries target resp retry → ∀ service, Payments.call d service retry = forward service retry

-- The token reaches the check as it was generated.
structure Transported (d : Deployment) (token : Bytes) : Prop where
  visible : d.crates.headerToStr (utf8 ("POP " ++ d.crates.base64Encode token)) =
    some (utf8 ("POP " ++ d.crates.base64Encode token))
  decodes : d.crates.base64Decode (utf8 (d.crates.base64Encode token)) = some token

-- The URL, parsed, printed and read by a client, is spelt as it was invoiced.
def Normal (d : Deployment) (target : String → Option Target) (merchant : String) : Prop :=
  ∀ url goal, d.crates.urlParse merchant = .ok url → target url.serialization = some goal → goal.text = merchant

-- No other URL that a client reads there has the token of the URL that was invoiced.
def Unmistaken (d : Deployment) (target : String → Option Target) (merchant : String) : Prop :=
  ∀ url goal, d.crates.urlParse merchant = .ok url → target url.serialization = some goal → CollisionFree d goal.text merchant

variable {d : Deployment} {target : String → Option Target}

theorem tokenStr_pop {token : Bytes} (transported : Transported d token) :
    tokenStr d (utf8 ("POP " ++ d.crates.base64Encode token)) = some (utf8 (d.crates.base64Encode token)) := by
  have head : (utf8 "POP ").length = 4 := by decide
  rw [tokenStr,transported.visible,Option.bind_some,utf8_append,if_pos,List.drop_left' head]
  refine ⟨?_,List.take_left' head⟩
  rw [List.length_append]
  omega

theorem paid_token {retry : HttpRequest} {token : Bytes}
    (presented : retry.authorization = some (utf8 ("POP " ++ d.crates.base64Encode token)))
    (transported : Transported d token) :
    PaidFor d retry ↔ generateToken d (utf8 (merchantUrl retry)) (utf8 d.settings.secret) = token := by
  have worded := tokenStr_pop transported
  constructor
  · rintro ⟨header,text,authorized,worded',decoded⟩
    obtain rfl := Option.some.inj (presented.symm.trans authorized)
    obtain rfl := Option.some.inj (worded.symm.trans worded')
    exact (Option.some.inj (transported.decodes.symm.trans decoded)).symm
  · intro same
    refine ⟨_,_,presented,worded,?_⟩
    rw [same]
    exact transported.decodes

theorem acknowledged_works {payment : Payment} {merchant : String} {url : Url} (redirects : Redirects d payment merchant url)
    (transported : Transported d (generateToken d (utf8 merchant) (utf8 d.settings.secret)))
    (distinct : Unmistaken d target merchant) :
    Works d target (acknowledgement d payment merchant url) ↔ Normal d target merchant := by
  have located : (acknowledgement d payment merchant url).headers.lookup "location" = some url.serialization := rfl
  have authorized : (acknowledgement d payment merchant url).headers.lookup "authorization" =
    some ("POP " ++ tokenText d merchant) := rfl
  constructor
  · intro works url' goal parsed read
    obtain rfl := Except.ok.inj (redirects.parsed.symm.trans parsed)
    have retries : Retries target (acknowledgement d payment merchant url) (retryAt goal ("POP " ++ tokenText d merchant)) :=
      ⟨rfl,⟨_,goal,located,read,rfl,rfl,rfl⟩,_,authorized,rfl⟩
    have forwarded := works _ retries fun _ => .throw invalidAuth
    have spelt : merchantUrl (retryAt goal ("POP " ++ tokenText d merchant)) = goal.text := rfl
    rw [forwarded_iff rfl,paid_token rfl transported,spelt] at forwarded
    exact utf8_inj (distinct _ goal parsed read forwarded)
  · rintro normal retry ⟨put,⟨location,goal,located',read,scheme,host,path⟩,token,authorized',presented⟩ service
    obtain rfl := Option.some.inj (located.symm.trans located')
    obtain rfl := Option.some.inj (authorized.symm.trans authorized')
    have spelt : merchantUrl retry = goal.text := by simp only [merchantUrl,baseUrl,Target.text,scheme,host,path]
    rw [forwarded_iff put,paid_token presented transported,spelt,normal url goal redirects.parsed read]

-- The token of an invoiced request is taken for the redirect exactly where the
-- request spelt its URL as the `url` crate prints it.
theorem works_iff {σ : Type} {answer : (op : Op) → σ → Reply op × σ} {s : σ} {invoiced paid : HttpRequest} {payment : Payment}
    {currentTime expiryTime : Clock} {outputs : List Output} {resp : HttpResponse}
    (received : (collected paid.payload).bind d.crates.decodePayment = some payment)
    (carried : payment.merchantData = (paymentDetails d invoiced currentTime expiryTime outputs).merchantData)
    (answered : (run answer (paymentHandler d paid) s).1 = .returned resp)
    (transported : Transported d (generateToken d (utf8 (merchantUrl invoiced)) (utf8 d.settings.secret)))
    (distinct : Unmistaken d target (merchantUrl invoiced)) : Works d target resp ↔ Normal d target (merchantUrl invoiced) := by
  obtain ⟨payment',txRaw,tx,merchant,url,met,redirects,rfl⟩ := paymentHandler_returns answered
  obtain rfl := Option.some.inj (received.symm.trans met.received)
  obtain rfl := utf8_inj (Option.some.inj (redirects.named.symm.trans carried))
  exact acknowledged_works redirects transported distinct

def readUrl (text : String) : Option Target :=
  if text = putUrl then some ⟨"http","localhost:8080","/keys/" ++ ownerAddress⟩ else none

theorem putToken_transported : Transported (deployment false)
    (generateToken (deployment false) (utf8 (merchantUrl unpaidPut)) (utf8 (deployment false).settings.secret)) := by
  have token : generateToken (deployment false) (utf8 (merchantUrl unpaidPut)) (utf8 (deployment false).settings.secret) =
    putToken := by decide +kernel
  rw [token]
  exact ⟨by decide +kernel,by decide +kernel⟩

theorem putUrl_works : ∃ resp,
    (run (settle false calm) (paymentHandler (deployment false) paying) (held,0)).1 = .returned resp ∧
      Works (deployment false) readUrl resp := by
  have answered : (run (settle false calm) (paymentHandler (deployment false) paying) (held,0)).1 =
    .returned (acknowledgement (deployment false) payment putUrl ⟨putUrl⟩) := by decide +kernel
  have received : (collected paying.payload).bind (deployment false).crates.decodePayment = some payment := by decide +kernel
  have carried : payment.merchantData = (paymentDetails (deployment false) unpaidPut epoch epoch []).merchantData := by
    decide +kernel
  have normal : Normal (deployment false) readUrl (merchantUrl unpaidPut) := by
    intro url goal parsed read
    have spelt : merchantUrl unpaidPut = putUrl := by decide +kernel
    have printed : (deployment false).crates.urlParse putUrl = .ok ⟨putUrl⟩ := by decide +kernel
    rw [spelt,printed] at parsed
    cases parsed
    cases read
    decide +kernel
  have distinct : Unmistaken (deployment false) readUrl (merchantUrl unpaidPut) :=
    fun url goal parsed read _ => by rw [normal url goal parsed read]
  exact ⟨_,answered,(works_iff received carried answered putToken_transported distinct).mpr normal⟩

-- The same put, sent to the host in capitals.
def loudUrl : String := "http://LOCALHOST:8080/keys/" ++ ownerAddress

def loudToken : Bytes :=
  [121,182,20,61,204,203,84,167,36,230,107,37,185,192,24,189,167,61,77,215,56,52,165,216,44,16,130,150,
   219,176,244,223]

def loudTokenText : String := "ebYUPczLVKck5mslucAYvac9Tdc4NKXYLBCCltuw9N8"

def loudCrates : Crates :=
  {crates with
    hmacSha256 := fun key msg => if key = utf8 secret ∧ msg = utf8 loudUrl then loudToken else crates.hmacSha256 key msg
    urlParse := fun text => if text = loudUrl then .ok ⟨putUrl⟩ else crates.urlParse text
    base64Encode := fun raw => if raw = loudToken then loudTokenText else crates.base64Encode raw
    base64Decode := fun raw => if raw = utf8 loudTokenText then some loudToken else crates.base64Decode raw}

def loudDeployment : Deployment := {deployment false with crates := loudCrates}

def loudPut : HttpRequest := {unpaidPut with host := "LOCALHOST:8080"}

def loudPayment : Payment := {payment with merchantData := some (utf8 loudUrl)}

def loudPaying : HttpRequest :=
  {paying with payload := [.ok (WireFormat.encodeFields (WireMessages.paymentFields loudPayment))]}

def loudRetry : HttpRequest := {unpaidPut with authorization := some (utf8 ("POP " ++ loudTokenText))}

def Answer.status : Answer → Option StatusCode
  | .http resp => some resp.status
  | .peer _ => none
  | .compacted => none

-- Invoiced and paid, and the redirect still asks for payment.
theorem loud_refused :
    ((visit false loudDeployment calm (.keys loudPut) (Shared.empty epoch)).1.map Answer.status = .returned (some .paymentRequired)) ∧
    (visit false loudDeployment calm (.payments loudPaying)
      (visit false loudDeployment calm (.keys loudPut) (Shared.empty epoch)).2).1 =
        .returned (.http (acknowledgement loudDeployment loudPayment loudUrl ⟨putUrl⟩)) ∧
    Retries readUrl (acknowledgement loudDeployment loudPayment loudUrl ⟨putUrl⟩) loudRetry ∧
    (visit false loudDeployment calm (.keys loudRetry) (Shared.empty epoch)).1 =
      .returned (.http invalidAuth.errorResponse) ∧
    ¬ Works loudDeployment readUrl (acknowledgement loudDeployment loudPayment loudUrl ⟨putUrl⟩) := by
  have retries : Retries readUrl (acknowledgement loudDeployment loudPayment loudUrl ⟨putUrl⟩) loudRetry :=
    ⟨rfl,⟨putUrl,⟨"http","localhost:8080","/keys/" ++ ownerAddress⟩,rfl,if_pos rfl,rfl,rfl,rfl⟩,
      "POP " ++ loudTokenText,by decide +kernel,rfl⟩
  refine ⟨by decide +kernel,by decide +kernel,retries,by decide +kernel,?_⟩
  intro works
  have forwarded := works loudRetry retries fun _ => .throw invalidAuth
  have refused : (run (settle false calm) (Payments.call loudDeployment (fun _ => .throw invalidAuth) loudRetry) (held,0)).1 =
    .returned invalidAuth.errorResponse := by decide +kernel
  rw [forwarded] at refused
  cases refused

end Keyserver.RedirectToken
