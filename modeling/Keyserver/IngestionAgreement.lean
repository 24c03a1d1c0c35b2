import Keyserver.KeyRequests
import Keyserver.SoloRuns
import Keyserver.SampleDeployment

namespace Keyserver.IngestionAgreement
open SharedPrograms SharedPrograms.Program KeyDb KeyHandlers KeyProtocol KeyRequests SoloRuns SampleDeployment

variable {d : Deployment} {c : Conditions} {s : Shared} {addr : Address} {raw : Bytes} {addrStr : String}
  {payload : List (Except String Bytes)}

-- A peer's response for an address, and a put of a body under a path, in one state.
def pulled (d : Deployment) (c : Conditions) (s : Shared) (addr : Address) (raw : Bytes) :
    Outcome Panic ServerError PeerExit × (Shared × Nat) := run (settle false c) (pullMetadata d addr raw) (s,0)

def putted (d : Deployment) (c : Conditions) (s : Shared) (addrStr : String) (payload : List (Except String Bytes)) :
    Outcome Panic ServerError HttpResponse × (Shared × Nat) := run (settle false c) (putKey d addrStr payload) (s,0)

-- The loop body comes to this once the response has arrived.
theorem peerPolling_pulls {peerAddr bitcoinAddrStr : String} {url : Url}
    (encoded : d.crates.encodeAddress addr = .ok bitcoinAddrStr)
    (parsed : d.crates.urlParse (peerAddr ++ "/keys/" ++ bitcoinAddrStr) = .ok url) (received : c.http url = .ok raw) :
    run (settle false c) (peerPolling d (.ok (peerAddr,addr)) : Prog ServerError PeerExit) (s,0) =
      run (settle false c) (pullMetadata d addr raw) ({s with clock := c.clock 1},2) := by
  simp [peerPolling,encoded,delayFor,getMetadata,parsed,httpGet,settle,reply,received,carryOut,effect,answer,atTime]

def readAt (d : Deployment) (time : Clock) (s : Shared) (addr : Address) : Outcome Panic RocksError (Option AddressMetadata) :=
  (run (settle false {clock := fun _ => time}) (KeyDb.get d addr) (s,0)).1

def Unread (d : Deployment) (c : Conditions) (before after : Shared) : Prop :=
  ∀ time, c.clock 1 ≤ time → ∀ addr, readAt d time after addr = readAt d time before addr

def AnsweredOk (answered : Outcome Panic ServerError HttpResponse) : Prop :=
  ∃ resp, answered = .returned resp ∧ resp.status = .ok

-- Both ingestions write the same, or neither is seen by any reader.
structure Agree (d : Deployment) (c : Conditions) (s : Shared) (addr : Address) (raw : Bytes) (addrStr : String)
    (payload : List (Except String Bytes)) : Prop where
  writes : (pulled d c s addr raw).1 = .returned .stored ↔ AnsweredOk (putted d c s addrStr payload).1
  same : AnsweredOk (putted d c s addrStr payload).1 →
    (pulled d c s addr raw).2.1.db = (putted d c s addrStr payload).2.1.db
  unread : ¬ AnsweredOk (putted d c s addrStr payload).1 →
    Unread d c s (pulled d c s addr raw).2.1 ∧ Unread d c s (putted d c s addrStr payload).2.1

-- The state lets metadata with this payload in.
def Admits (d : Deployment) (c : Conditions) (s : Shared) (addr : Address) (payload : Payload) : Prop :=
  c.getFault = none ∧ c.putFault = none ∧
    match lookup d (s.db addr.body) (c.clock 1) with
    | .absent => True
    | .broken _ => False
    | .lapsed => c.deleteFault = none
    | .current _ old => ¬ payload.timestamp < old.timestamp ∧ expiredAt d payload (c.clock 2) = some false

theorem admits_iff {Error : Type} {payload : Payload} : Admits d c s addr payload ↔
    (storeOutcome d c (lookup d (s.db addr.body) (c.clock 1)) payload (c.clock 2) : Outcome Panic Error PeerExit) =
      .returned .stored := by
  unfold Admits storeOutcome checkOutcome getOutcome
  cases c.getFault with
  | some err => simp
  | none =>
    cases found : lookup d (s.db addr.body) (c.clock 1) with
    | absent => cases c.putFault <;> simp [Lookup.result]
    | broken fault => simp [Lookup.result]
    | lapsed => cases c.deleteFault <;> cases c.putFault <;> simp [Lookup.result]
    | current metadata old =>
      by_cases older : payload.timestamp < old.timestamp
      · simp [Lookup.result,older]
      · cases answer : expiredAt d payload (c.clock 2) with
        | none => simp [Lookup.result,older]
        | some stale => cases stale <;> cases c.putFault <;> simp [Lookup.result,older]

theorem readAt_lookup (time : Clock) (s : Shared) (addr : Address) :
    readAt d time s addr = (lookup d (s.db addr.body) time).result := by
  unfold readAt
  rw [(@run_get false d {clock := fun _ => time} (s,0) addr).1]
  cases lookup d (s.db addr.body) time <;> rfl

theorem unread_refl (s : Shared) : Unread d c s s := fun _ _ _ => rfl

theorem unread_getLeaves {after : Shared}
    (left : after.db = (getLeaves false c (lookup d (s.db addr.body) (c.clock 1)) addr.body s).db) : Unread d c s after := by
  intro time later other
  rw [readAt_lookup,readAt_lookup,left]
  unfold getLeaves
  split
  · rename_i lapsed _
    by_cases same : other.body = addr.body
    · rw [same,store_same]
      cases entry : s.db addr.body with
      | none => rfl
      | some raw =>
        rw [entry] at lapsed
        rw [lookup_lapsed.mpr ((lookup_lapsed.mp lapsed).later later)]
        rfl
    · rw [store_other s none same]
  · rfl

theorem admitted_iff {metadata : AddressMetadata} {read : Payload} (addressed : d.crates.decodeAddress addrStr = .ok addr)
    (body : collected payload = some raw) {addr' : Address} :
    Admitted d addrStr payload addr' metadata read ↔ addr' = addr ∧ metadata.scheme = 1 ∧ Pulled d addr raw metadata read := by
  constructor
  · intro admitted
    obtain ⟨decoded,addressed',scheme,attested⟩ := admitted
    obtain rfl : addr' = addr := Except.ok.inj (addressed'.symm.trans addressed)
    exact ⟨rfl,scheme,by simpa [body] using decoded,attested⟩
  · rintro ⟨rfl,scheme,decoded,attested⟩
    exact ⟨by simpa [body] using decoded,addressed,scheme,attested⟩

theorem pulled_cases : (pulled d c s addr raw).1 = .returned .stored ∧
      (∃ metadata read, Pulled d addr raw metadata read ∧ Admits d c s addr read ∧
        (pulled d c s addr raw).2.1.db = (s.store addr.body (some (d.crates.encodeMetadata metadata))).db) ∨
    (pulled d c s addr raw).1 ≠ .returned .stored ∧
      (∀ metadata read, Pulled d addr raw metadata read → ¬ Admits d c s addr read) ∧
      Unread d c s (pulled d c s addr raw).2.1 := by
  unfold pulled
  have form : PullForm d addr raw (pullMetadata d addr raw : Prog ServerError PeerExit) := pull_form d addr raw
  generalize (pullMetadata d addr raw : Prog ServerError PeerExit) = program at form ⊢
  cases form with
  | @refused left unmet other =>
    refine .inr ⟨fun same => other (Outcome.returned.inj same),fun metadata read met => absurd met (unmet metadata read),?_⟩
    exact unread_refl s
  | panicked unmet =>
    refine .inr ⟨nofun,fun metadata read met => absurd met (unmet metadata read),?_⟩
    exact unread_refl s
  | @admitted metadata read met =>
    obtain ⟨outcome,shape,same,stored,kept⟩ := @run_store false d c (s,0) ServerError addr metadata read
    have admits : Admits d c s addr read ↔ outcome = .returned .stored := by
      rw [shape]
      exact admits_iff
    by_cases written : outcome = .returned .stored
    · exact .inl ⟨same.trans written,metadata,read,met,admits.mpr written,stored written⟩
    · refine .inr ⟨fun wrote => written (same.symm.trans wrote),?_,unread_getLeaves (kept written)⟩
      intro metadata' read' met' admits'
      obtain ⟨rfl,rfl⟩ := met.unique met'
      exact written (admits.mp admits')

theorem presented_stored {answered : (op : Op) → Shared × Nat → Reply op × (Shared × Nat)} {now : Shared × Nat}
    (program : Prog ServerError PeerExit) :
    (AnsweredOk (run answered (program >>= presentStored) now).1 ↔ (run answered program now).1 = .returned .stored) ∧
      (run answered (program >>= presentStored) now).2 = (run answered program now).2 := by
  rw [run_bind]
  generalize run answered program now = ended
  obtain ⟨outcome,last⟩ := ended
  cases outcome with
  | returned exit => cases exit <;> simp [presentStored,AnsweredOk]
  | thrown err => simp [AnsweredOk]
  | panicked fault => simp [AnsweredOk]

theorem putted_cases (addressed : d.crates.decodeAddress addrStr = .ok addr) (body : collected payload = some raw) :
    AnsweredOk (putted d c s addrStr payload).1 ∧
      (∃ metadata read, Pulled d addr raw metadata read ∧ metadata.scheme = 1 ∧ Admits d c s addr read ∧
        (putted d c s addrStr payload).2.1.db = (s.store addr.body (some (d.crates.encodeMetadata metadata))).db) ∨
    ¬ AnsweredOk (putted d c s addrStr payload).1 ∧
      (∀ metadata read, Pulled d addr raw metadata read → metadata.scheme = 1 → ¬ Admits d c s addr read) ∧
      Unread d c s (putted d c s addrStr payload).2.1 := by
  unfold putted
  have form := putKey_form d addrStr payload
  generalize putKey d addrStr payload = program at form ⊢
  cases form with
  | refused unmet =>
    refine .inr ⟨nofun,fun metadata read met scheme => ?_,unread_refl s⟩
    exact absurd ((admitted_iff addressed body).mpr ⟨rfl,scheme,met⟩) (unmet addr metadata read)
  | panicked unmet =>
    refine .inr ⟨nofun,fun metadata read met scheme => ?_,unread_refl s⟩
    exact absurd ((admitted_iff addressed body).mpr ⟨rfl,scheme,met⟩) (unmet addr metadata read)
  | @admitted addr' metadata read admitted =>
    obtain ⟨rfl,scheme,met⟩ := (admitted_iff addressed body).mp admitted
    obtain ⟨outcome,shape,same,stored,kept⟩ := @run_store false d c (s,0) ServerError addr' metadata read
    have admits : Admits d c s addr' read ↔ outcome = .returned .stored := by
      rw [shape]
      exact admits_iff
    obtain ⟨accepted,last⟩ := @presented_stored (settle false c) (s,0) (storePulled d addr' metadata read)
    rw [accepted,last,same]
    by_cases written : outcome = .returned .stored
    · exact .inl ⟨written,metadata,read,met,scheme,admits.mpr written,stored written⟩
    · refine .inr ⟨written,?_,unread_getLeaves (kept written)⟩
      intro metadata' read' met' scheme' admits'
      obtain ⟨rfl,rfl⟩ := met.unique met'
      exact written (admits.mp admits')

-- The two ingestions agree exactly where the peer does not supply metadata of
-- another signature scheme that passes every other check.
theorem agree_iff (addressed : d.crates.decodeAddress addrStr = .ok addr) (body : collected payload = some raw) :
    Agree d c s addr raw addrStr payload ↔
      ¬ ∃ metadata read, Pulled d addr raw metadata read ∧ metadata.scheme ≠ 1 ∧ Admits d c s addr read := by
  have left := @pulled_cases d c s addr raw
  have right := @putted_cases d c s addr raw addrStr payload addressed body
  constructor
  · intro agree unsupported
    obtain ⟨metadata,read,met,scheme,admits⟩ := unsupported
    have wrote : (pulled d c s addr raw).1 = .returned .stored := by
      rcases left with ⟨wrote,-⟩ | ⟨-,refused,-⟩
      · exact wrote
      · exact absurd admits (refused metadata read met)
    rcases right with ⟨-,metadata',read',met',scheme',-⟩ | ⟨refused,-⟩
    · obtain ⟨rfl,rfl⟩ := met.unique met'
      exact scheme scheme'
    · exact refused (agree.writes.mp wrote)
  · intro supported
    rcases left with ⟨wrote,metadata,read,met,admits,db⟩ | ⟨unwritten,refused,unread⟩
    · have scheme : metadata.scheme = 1 := by
        by_contra other
        exact supported ⟨metadata,read,met,other,admits⟩
      rcases right with ⟨accepted,metadata',read',met',scheme',-,db'⟩ | ⟨-,refused,-⟩
      · obtain ⟨rfl,rfl⟩ := met.unique met'
        exact ⟨⟨fun _ => accepted,fun _ => wrote⟩,fun _ => db.trans db'.symm,fun denied => absurd accepted denied⟩
      · exact absurd admits (refused metadata read met scheme)
    · rcases right with ⟨accepted,metadata,read,met,-,admits,-⟩ | ⟨denied,-,unread'⟩
      · exact absurd admits (refused metadata read met)
      · exact ⟨⟨fun wrote => absurd wrote unwritten,fun accepted => absurd accepted denied⟩,
          fun accepted => absurd accepted denied,fun _ => ⟨unread,unread'⟩⟩

theorem supported_agree : (pulled (deployment false) (steady 200) (Shared.empty epoch) {body := ownerHash}
      (body 1 late)).1 = .returned .stored ∧
    Agree (deployment false) (steady 200) (Shared.empty epoch) {body := ownerHash} (body 1 late) ownerAddress
      [.ok (body 1 late)] := by
  have decoded : crates.decodeMetadata (body 1 late) = some (signed 1 late) := by decide +kernel
  refine ⟨by decide +kernel,(agree_iff rfl rfl).mpr ?_⟩
  intro unsupported
  obtain ⟨metadata,read,met,scheme,-⟩ := unsupported
  obtain rfl : metadata = signed 1 late := Option.some.inj (met.decoded.symm.trans decoded)
  exact scheme rfl

-- The signature does not cover the scheme: under another one the same signature
-- still passes the peer path's checks.
theorem schnorr_pulled : (pulled (deployment false) (steady 200) (Shared.empty epoch) {body := ownerHash}
      (body 0 late)).1 = .returned .stored ∧
    (putted (deployment false) (steady 200) (Shared.empty epoch) ownerAddress [.ok (body 0 late)]).1 =
      .thrown .unsupportedSigScheme ∧
    ¬ Agree (deployment false) (steady 200) (Shared.empty epoch) {body := ownerHash} (body 0 late) ownerAddress
      [.ok (body 0 late)] := by
  have wrote : (pulled (deployment false) (steady 200) (Shared.empty epoch) {body := ownerHash}
      (body 0 late)).1 = .returned .stored := by decide +kernel
  have refused : (putted (deployment false) (steady 200) (Shared.empty epoch) ownerAddress
      [.ok (body 0 late)]).1 = .thrown .unsupportedSigScheme := by decide +kernel
  refine ⟨wrote,refused,fun agree => ?_⟩
  obtain ⟨resp,answered,-⟩ := agree.writes.mp wrote
  rw [refused] at answered
  cases answered

end Keyserver.IngestionAgreement
