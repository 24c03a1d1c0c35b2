import Keyserver.IngestionAgreement

namespace Keyserver.IngestionVisits
open SharedPrograms SharedPrograms.Program KeyDb KeyHandlers KeyProtocol KeyRequests SoloRuns IngestionAgreement

variable {d : Deployment} {c : Conditions} {s : Shared} {addr : Address} {metadata : AddressMetadata} {payload : Payload}

theorem putKey_admitted {addrStr : String} {body : List (Except String Bytes)}
    (met : Admitted d addrStr body addr metadata payload) :
    putKey d addrStr body = storePulled d addr metadata payload >>= presentStored := by
  have form := putKey_form d addrStr body
  generalize putKey d addrStr body = program at form ⊢
  cases form with
  | refused unmet => exact absurd met (unmet _ _ _)
  | panicked unmet => exact absurd met (unmet _ _ _)
  | admitted met' =>
    obtain ⟨rfl,rfl,rfl⟩ := met.unique met'
    rfl

theorem pull_admitted {Error : Type} {raw : Bytes} (met : Pulled d addr raw metadata payload) :
    (pullMetadata d addr raw : Prog Error PeerExit) = storePulled d addr metadata payload := by
  have form : PullForm d addr raw (pullMetadata d addr raw : Prog Error PeerExit) := pull_form d addr raw
  generalize (pullMetadata d addr raw : Prog Error PeerExit) = program at form ⊢
  cases form with
  | refused unmet other => exact absurd met (unmet _ _)
  | panicked unmet => exact absurd met (unmet _ _)
  | admitted met' =>
    obtain ⟨rfl,rfl⟩ := met.unique met'
    rfl

-- A request that brings validated metadata for an address: a put that passes
-- every check before the timestamp, or a stream item whose peer supplies it.
inductive Delivers (d : Deployment) (c : Conditions) (addr : Address) (metadata : AddressMetadata) (payload : Payload) :
    Request → Prop where
  | put {addrStr : String} {body : List (Except String Bytes)} (met : Admitted d addrStr body addr metadata payload) :
      Delivers d c addr metadata payload (.putKey addrStr body)
  | pull {peerAddr bitcoinAddrStr : String} {url : Url} {raw : Bytes}
      (encoded : d.crates.encodeAddress addr = .ok bitcoinAddrStr)
      (parsed : d.crates.urlParse (peerAddr ++ "/keys/" ++ bitcoinAddrStr) = .ok url) (received : c.http url = .ok raw)
      (met : Pulled d addr raw metadata payload) : Delivers d c addr metadata payload (.peerItem (.ok (peerAddr,addr)))

theorem Delivers.attested {request : Request} (delivers : Delivers d c addr metadata payload request) :
    Attested d addr.body metadata payload := by
  cases delivers with
  | put met => exact met.attested
  | pull encoded parsed received met => exact met.attested

-- How either request answers the outcome of the store.
def ingested : Request → Outcome Panic ServerError PeerExit → Outcome Panic ServerError Answer
  | .putKey _ _,.returned .stored => .returned (.http {status := .ok})
  | .putKey _ _,.returned (.outdated err) => .thrown (.validation err)
  | .putKey _ _,.returned (.checkFailed err) => .thrown (.db err)
  | .putKey _ _,.returned (.putFailed err) => .thrown (.db err)
  | .putKey _ _,.returned _ => .thrown .notFound
  | _,outcome => outcome.map .peer

-- The two operations before the database: the delay and the fetch.
def opsBefore : Request → Nat
  | .peerItem _ => 2
  | _ => 0

def storing (d : Deployment) (c : Conditions) (request : Request) (addr : Address) (payload : Payload) (s : Shared) :
    Outcome Panic ServerError PeerExit :=
  storeOutcome d c (lookup d (s.db addr.body) (c.clock (opsBefore request + 1))) payload (c.clock (opsBefore request + 2))

theorem getLeaves_db {found : Lookup} {key : Bytes} {left right : Shared} (same : left.db = right.db) :
    (getLeaves false c found key left).db = (getLeaves false c found key right).db := by
  unfold getLeaves
  split
  · simp only [Shared.store,same]
  · exact same

theorem visit_delivers {request : Request} (delivers : Delivers d c addr metadata payload request) (s : Shared) :
    (visit false d c request s).1 = ingested request (storing d c request addr payload s) ∧
      (storing d c request addr payload s = .returned .stored →
        (visit false d c request s).2.db = (s.store addr.body (some (d.crates.encodeMetadata metadata))).db) ∧
      (storing d c request addr payload s ≠ .returned .stored →
        (visit false d c request s).2.db =
          (getLeaves false c (lookup d (s.db addr.body) (c.clock (opsBefore request + 1))) addr.body s).db) := by
  cases delivers with
  | @put addrStr body met =>
    obtain ⟨outcome,shape,same,stored,kept⟩ := @run_store false d c (s,0) ServerError addr metadata payload
    have known : storing d c (.putKey addrStr body) addr payload s = outcome := shape.symm
    simp only [visit,handle,putKey_admitted met,run_map,run_bind,known]
    generalize run (settle false c) (storePulled d addr metadata payload : Prog ServerError PeerExit) (s,0) = ended
      at same stored kept ⊢
    obtain ⟨result,last⟩ := ended
    simp only at same stored kept ⊢
    subst same
    cases result with
    | returned exit => cases exit <;> exact ⟨rfl,stored,kept⟩
    | thrown err => exact ⟨rfl,stored,kept⟩
    | panicked fault => exact ⟨rfl,stored,kept⟩
  | @pull peerAddr bitcoinAddrStr url raw encoded parsed received met =>
    obtain ⟨outcome,shape,same,stored,kept⟩ :=
      @run_store false d c ({s with clock := c.clock 1},2) ServerError addr metadata payload
    have known : storing d c (.peerItem (.ok (peerAddr,addr))) addr payload s = outcome := shape.symm
    simp only [visit,handle,run_map,peerPolling_pulls encoded parsed received,pull_admitted met,known]
    exact ⟨congrArg (Outcome.map Answer.peer) same,stored,fun other => (kept other).trans (getLeaves_db rfl)⟩

-- A put either is admitted or stops before any operation, without an answer.
theorem visit_put (d : Deployment) (c : Conditions) (addrStr : String) (body : List (Except String Bytes)) (s : Shared) :
    (∃ addr metadata payload, Admitted d addrStr body addr metadata payload) ∨
      (∀ answer, (visit false d c (.putKey addrStr body) s).1 ≠ .returned answer) ∧
        (visit false d c (.putKey addrStr body) s).2 = s := by
  have form := putKey_form d addrStr body
  simp only [visit,handle,run_map]
  generalize putKey d addrStr body = program at form ⊢
  cases form with
  | refused unmet => exact .inr ⟨by simp [Outcome.map],rfl⟩
  | panicked unmet => exact .inr ⟨by simp [Outcome.map],rfl⟩
  | admitted met => exact .inl ⟨_,_,_,met⟩

-- A stream item either is delivered or leaves the database alone.
theorem visit_item (d : Deployment) (c : Conditions) (res : Except Bitcoin.StreamError (String × Address)) (s : Shared) :
    (∃ addr metadata payload, Delivers d c addr metadata payload (.peerItem res)) ∨
      (visit false d c (.peerItem res) s).2.db = s.db := by
  rcases res with err | ⟨peerAddr,addr⟩
  · exact .inr rfl
  · cases encoded : d.crates.encodeAddress addr with
    | error err =>
      right
      simp [visit,handle,peerPolling,encoded]
    | ok bitcoinAddrStr =>
      cases parsed : d.crates.urlParse (peerAddr ++ "/keys/" ++ bitcoinAddrStr) with
      | error err =>
        right
        simp [visit,handle,peerPolling,encoded,parsed,getMetadata,delayFor,settle,carryOut,effect,answer,atTime]
      | ok url =>
        cases received : c.http url with
        | error err =>
          right
          simp [visit,handle,peerPolling,encoded,parsed,getMetadata,delayFor,httpGet,settle,carryOut,effect,answer,atTime,
            reply,received]
        | ok raw =>
          have form : PullForm d addr raw (pullMetadata d addr raw : Prog ServerError PeerExit) := pull_form d addr raw
          simp only [visit,handle,run_map,peerPolling_pulls encoded parsed received]
          generalize (pullMetadata d addr raw : Prog ServerError PeerExit) = program at form ⊢
          cases form with
          | refused unmet other => exact .inr rfl
          | panicked unmet => exact .inr rfl
          | admitted met => exact .inl ⟨_,_,_,.pull encoded parsed received met⟩

end Keyserver.IngestionVisits
