import Keyserver.PaymentGate
import Keyserver.SharedMatches
import Keyserver.StoreProvenance

namespace Keyserver.TokenBinding
open SharedPrograms SharedPools SharedMatches KeyHandlers KeyProtocol KeyRequests Payments PaymentProtocol PaymentGate
open StoreProvenance SampleDeployment

def lastSegment (path : String) : String := String.ofList (afterLast '/' path.toList)

-- The paths of the resource `/keys/{addr}`.
structure Routed (path segment : String) : Prop where
  shape : path = "/keys/" ++ segment
  nonempty : segment ≠ ""
  single : '/' ∉ segment.toList

-- A put that carries the token and gets through to the service with it.
structure GetsThrough (d : Deployment) (service : HttpRequest → Prog ServerError HttpResponse) (req : HttpRequest)
    (token : Bytes) : Prop where
  put : req.method = .put
  carried : presented d req = some token
  forwarded : Payments.call d service req = forward service req

variable {d : Deployment} {service service' : HttpRequest → Prog ServerError HttpResponse} {one other req : HttpRequest}
  {token : Bytes} {path segment segment' : String}

-- Whatever stands before the path, the segment stands behind the last separator.
theorem Routed.last (routed : Routed path segment) (before : String) : lastSegment (before ++ path) = segment := by
  have split : (before ++ path).toList = (before.toList ++ "/keys".toList) ++ '/' :: segment.toList := by
    rw [routed.shape,String.toList_append,String.toList_append,List.append_assoc]
    rfl
  rw [lastSegment,split,afterLast_append routed.single,String.ofList_toList]

theorem Routed.alone (routed : Routed path segment) : lastSegment path = segment := by
  have last := routed.last ""
  rwa [String.empty_append] at last

theorem paid_carried (paid : PaidFor d req) (carried : presented d req = some token) :
    generateToken d (utf8 (merchantUrl req)) (utf8 d.settings.secret) = token := by
  obtain ⟨header,text,authorized,worded,decoded⟩ := paid
  simpa [presented,authorized,worded,decoded] using carried

theorem paid_segment (paid : PaidFor d one) (paid' : PaidFor d other) (carried : presented d one = some token)
    (carried' : presented d other = some token) (routed : Routed one.path segment) (routed' : Routed other.path segment')
    (distinct : CollisionFree d (merchantUrl one) (merchantUrl other)) : segment = segment' := by
  have signed := (paid_carried paid carried).trans (paid_carried paid' carried').symm
  calc segment = lastSegment (merchantUrl one) := (routed.last (baseUrl one)).symm
    _ = lastSegment (merchantUrl other) := congrArg lastSegment (utf8_inj (distinct signed))
    _ = segment' := routed'.last (baseUrl other)

-- In any run, all that is stored on one token is stored under one key.
theorem one_token_one_entry {meets : ServerPool → Act Reply Request Clock → Prop} {clock : Clock} {s : ServerPool}
    (path : Reached (server d) meets (Shared.empty clock) s) {i j : Nat} {key key' raw raw' : Bytes}
    (put : (i,⟨.dbPut key raw,.ok ()⟩) ∈ s.log) (put' : (j,⟨.dbPut key' raw',.ok ()⟩) ∈ s.log)
    (known : s.requests[i]? = some (.keys one)) (known' : s.requests[j]? = some (.keys other))
    (carried : presented d one = some token) (carried' : presented d other = some token)
    (routed : Routed one.path segment) (routed' : Routed other.path segment')
    (distinct : CollisionFree d (merchantUrl one) (merchantUrl other)) : key = key' := by
  obtain ⟨request,metadata,before,after,-,asked,-,brought⟩ := put_brought path put
  obtain ⟨request',metadata',before',after',-,asked',-,brought'⟩ := put_brought path put'
  obtain rfl := Option.some.inj (known.symm.trans asked)
  obtain rfl := Option.some.inj (known'.symm.trans asked')
  cases brought with
  | routed method paid route met =>
    cases brought' with
    | routed method' paid' route' met' =>
      obtain rfl := paid_segment paid paid' carried carried' routed routed' distinct
      rw [routed.shape] at route
      rw [routed'.shape] at route'
      obtain rfl := Option.some.inj (route.symm.trans route')
      obtain rfl := Except.ok.inj (met.addressed.symm.trans met'.addressed)
      rfl

-- Whatever scheme and host two puts with one token report, they go to one key, and what
-- any run stores for them is stored under it.
theorem one_token_one_key (first : GetsThrough d service one token) (second : GetsThrough d service' other token)
    (routed : Routed one.path segment) (routed' : Routed other.path segment')
    (distinct : CollisionFree d (merchantUrl one) (merchantUrl other)) :
    lastSegment one.path = lastSegment other.path ∧ d.crates.routeAddr one.path = d.crates.routeAddr other.path ∧
      ∀ meets clock (s : ServerPool) (i j : Nat) key key' raw raw', Reached (server d) meets (Shared.empty clock) s →
        s.requests[i]? = some (.keys one) → s.requests[j]? = some (.keys other) → (i,⟨.dbPut key raw,.ok ()⟩) ∈ s.log →
          (j,⟨.dbPut key' raw',.ok ()⟩) ∈ s.log → key = key' := by
  have paid := (forwarded_iff first.put).mp first.forwarded
  have paid' := (forwarded_iff second.put).mp second.forwarded
  have same := paid_segment paid paid' first.carried second.carried routed routed' distinct
  refine ⟨?_,?_,?_⟩
  · rw [routed.alone,routed'.alone,same]
  · rw [routed.shape,routed'.shape,same]
  · intro meets clock s i j key key' raw raw' path known known' put put'
    exact one_token_one_entry path put put' known known' first.carried second.carried routed routed' distinct

-- One URL, read in two ways as scheme and host.
def splitUrl : String := "http://front://localhost:8080/keys/" ++ ownerAddress

def splitToken : Bytes :=
  [166,227,142,119,62,45,12,121,183,121,158,54,238,36,95,153,121,201,9,17,133,210,123,66,215,172,239,206,206,193,
   132,103]

def splitTokenText : String := "puOOdz4tDHm3eZ427iRfmXnJCRGF0ntC16zvzs7BhGc"

def splitCrates : Crates :=
  {crates with
    hmacSha256 := fun key msg =>
      if key = utf8 secret ∧ msg = utf8 splitUrl then splitToken else crates.hmacSha256 key msg
    base64Decode := fun raw => if raw = utf8 splitTokenText then some splitToken else crates.base64Decode raw}

def splitDeployment : Deployment := {deployment false with crates := splitCrates}

def splitPut (scheme host : String) : HttpRequest :=
  {unpaidPut with scheme := scheme,host := host,authorization := some (utf8 ("POP " ++ splitTokenText))}

theorem split_getsThrough {scheme host : String} (same : scheme ++ "://" ++ host = "http://front://localhost:8080") :
    GetsThrough splitDeployment (fun _ => .throw .notFound) (splitPut scheme host) splitToken := by
  have shown : tokenStr splitDeployment (utf8 ("POP " ++ splitTokenText)) = some (utf8 splitTokenText) := by decide +kernel
  have decoded : splitDeployment.crates.base64Decode (utf8 splitTokenText) = some splitToken := by decide +kernel
  have url : merchantUrl (splitPut scheme host) = splitUrl := by
    rw [merchantUrl,baseUrl]
    exact congrArg (· ++ ("/keys/" ++ ownerAddress)) same
  have signed : generateToken splitDeployment (utf8 splitUrl) (utf8 splitDeployment.settings.secret) = splitToken := by
    decide +kernel
  refine ⟨rfl,?_,call_paid rfl ⟨_,_,rfl,shown,?_⟩⟩
  · change (tokenStr splitDeployment (utf8 ("POP " ++ splitTokenText))).bind splitDeployment.crates.base64Decode = _
    rw [shown]
    exact decoded
  · rw [url,signed]
    exact decoded

theorem split_same_key : lastSegment (splitPut "http" "front://localhost:8080").path =
      lastSegment (splitPut "http://front" "localhost:8080").path ∧
    splitDeployment.crates.routeAddr (splitPut "http" "front://localhost:8080").path =
      splitDeployment.crates.routeAddr (splitPut "http://front" "localhost:8080").path := by
  have routed : Routed unpaidPut.path ownerAddress := ⟨rfl,by decide,by decide +kernel⟩
  have first := @split_getsThrough "http" "front://localhost:8080" rfl
  have second := @split_getsThrough "http://front" "localhost:8080" rfl
  obtain ⟨same,routes,-⟩ := one_token_one_key first second routed routed fun _ => rfl
  exact ⟨same,routes⟩

end Keyserver.TokenBinding
