import Keyserver.KeyProtocol

namespace Keyserver.KeyRequests
open SharedPrograms SharedPrograms.Program Authentication KeyDb KeyHandlers KeyProtocol

def collected : List (Except String Bytes) → Option Bytes
  | [] => some []
  | .ok item :: rest => (collected rest).map (item ++ ·)
  | .error _ :: _ => none

theorem readPayload_eq (failure : ServerError) (raw : Bytes) (payload : List (Except String Bytes)) :
    readPayload failure raw payload = okOr failure ((collected payload).map (raw ++ ·)) := by
  induction payload generalizing raw with
  | nil => simp [readPayload,collected]
  | cons item rest ih =>
    rcases item with err | item
    · simp [readPayload,collected]
    · simp only [readPayload,collected,ih,Option.map_map]
      congr 2
      funext tail
      simp

def presentStored : PeerExit → Prog ServerError HttpResponse
  | .stored => .done {status := .ok}
  | .outdated err => .throw (.validation err)
  | .checkFailed err => .throw (.db err)
  | .putFailed err => .throw (.db err)
  | _ => .throw .notFound

variable {d : Deployment}

theorem storeKey_eq (addr : Address) (metadata : AddressMetadata) (payload : Payload) :
    storeKey d addr metadata payload = storePulled d addr metadata payload >>= presentStored := by
  unfold storeKey storePulled
  rw [mapError_bind,bind_bind]
  congr 1
  funext verdict
  rcases verdict with err | refused | admitted
  · rfl
  · rfl
  · simp only [fromResult_ok,mapError_done,done_bind]
    rw [mapError_bind,bind_bind]
    congr 1
    funext written
    cases written <;> rfl

-- What `put_key` knows about a request it lets through to the database.
structure Admitted (d : Deployment) (addrStr : String) (body : List (Except String Bytes))
    (addr : Address) (metadata : AddressMetadata) (payload : Payload) : Prop where
  decoded : (collected body).bind d.crates.decodeMetadata = some metadata
  addressed : d.crates.decodeAddress addrStr = .ok addr
  scheme : metadata.scheme = 1
  attested : Attested d addr.body metadata payload

theorem Admitted.unique {addrStr : String} {body : List (Except String Bytes)} {addr addr' : Address}
    {metadata metadata' : AddressMetadata} {payload payload' : Payload} (one : Admitted d addrStr body addr metadata payload)
    (two : Admitted d addrStr body addr' metadata' payload') : addr' = addr ∧ metadata' = metadata ∧ payload' = payload := by
  obtain rfl := Option.some.inj (two.decoded.symm.trans one.decoded)
  obtain rfl := Except.ok.inj (two.addressed.symm.trans one.addressed)
  obtain rfl := Option.some.inj (two.attested.payload.symm.trans one.attested.payload)
  exact ⟨rfl,rfl,rfl⟩

-- The checks that both ingestions make of decoded metadata.
inductive Checked (d : Deployment) (body : Bytes) (metadata : AddressMetadata) :
    Prog ValidationError Unit → Option Payload → Prop where
  | invalid (unmet : ∀ payload, ¬ Attested d body metadata payload) : Checked d body metadata (.throw err) found
  | panicked (unmet : ∀ payload, ¬ Attested d body metadata payload) : Checked d body metadata (.panic .message) found
  | undecodable (unmet : ∀ payload, ¬ Attested d body metadata payload) : Checked d body metadata (.done ()) none
  | attested (attested : Attested d body metadata payload) : Checked d body metadata (.done ()) (some payload)

theorem checked_form (d : Deployment) (addr : Address) (metadata : AddressMetadata) :
    Checked d addr.body metadata (validate d.crates (secp256k1 d.crates) addr metadata)
      (d.crates.decodePayload metadata.serializedPayload) := by
  obtain ⟨outcome,validated,harmless⟩ := validate_stops d.crates addr metadata
  have signed : outcome = .returned () ↔ Signed d.crates addr.body metadata := by
    rw [← validate_done,validated]
    cases outcome <;> simp [stop]
  rw [validated]
  cases outcome with
  | thrown err => exact .invalid fun _ attested => by cases signed.mpr attested.signed
  | panicked fault =>
    obtain rfl := harmless fault rfl
    exact .panicked fun _ attested => by cases signed.mpr attested.signed
  | returned accepted =>
    cases read : d.crates.decodePayload metadata.serializedPayload with
    | none => exact .undecodable fun _ attested => by simpa [read] using attested.payload
    | some payload => exact .attested ⟨signed.mp rfl,read⟩

-- `put_key` either stops before any operation or has admitted the request.
inductive PutKeyForm (d : Deployment) (addrStr : String) (body : List (Except String Bytes)) :
    Prog ServerError HttpResponse → Prop where
  | refused (unmet : ∀ addr metadata payload, ¬ Admitted d addrStr body addr metadata payload) :
      PutKeyForm d addrStr body (.throw err)
  | panicked (unmet : ∀ addr metadata payload, ¬ Admitted d addrStr body addr metadata payload) :
      PutKeyForm d addrStr body (.panic .message)
  | admitted (met : Admitted d addrStr body addr metadata payload) :
      PutKeyForm d addrStr body (storePulled d addr metadata payload >>= presentStored)

theorem putKey_form (d : Deployment) (addrStr : String) (body : List (Except String Bytes)) :
    PutKeyForm d addrStr body (putKey d addrStr body) := by
  unfold putKey
  rw [readPayload_eq]
  cases raw : collected body with
  | none => exact .refused fun _ _ _ met => by simpa [raw] using met.decoded
  | some raw' =>
    simp only [Option.map_some,List.nil_append,okOr_some,done_bind]
    cases decoded : d.crates.decodeMetadata raw' with
    | none => exact .refused fun _ _ _ met => by simpa [raw,decoded] using met.decoded
    | some metadata =>
      simp only [okOr_some,done_bind,decodeAddress]
      cases addressed : d.crates.decodeAddress addrStr with
      | error err => exact .refused fun _ _ _ met => by simpa [addressed] using met.addressed
      | ok addr =>
        have attested : ∀ {addr' metadata' payload'}, Admitted d addrStr body addr' metadata' payload' →
            metadata.scheme = 1 ∧ Attested d addr.body metadata payload' := by
          intro addr' metadata' payload' met
          obtain rfl : metadata = metadata' := by simpa [raw,decoded] using met.decoded
          obtain rfl : addr = addr' := by simpa [addressed] using met.addressed
          exact ⟨met.scheme,met.attested⟩
        simp only [done_bind]
        by_cases scheme : metadata.scheme = 1
        · simp only [scheme,ne_eq,not_true_eq_false,if_false]
          have checked := checked_form d addr metadata
          generalize validate d.crates (secp256k1 d.crates) addr metadata = validated at checked ⊢
          generalize d.crates.decodePayload metadata.serializedPayload = read at checked ⊢
          cases checked with
          | invalid unmet => exact .refused fun _ _ _ met => unmet _ (attested met).2
          | panicked unmet => exact .panicked fun _ _ _ met => unmet _ (attested met).2
          | undecodable unmet => exact .refused fun _ _ _ met => unmet _ (attested met).2
          | attested signed =>
            simp only [mapError_done,done_bind,okOr_some,storeKey_eq]
            exact .admitted ⟨by simp [raw,decoded],addressed,scheme,signed⟩
        · simp only [scheme,ne_eq,not_false_eq_true,if_true]
          exact .refused fun _ _ _ met => scheme (attested met).1

-- The peer path of the same checks, without the one on the signature scheme.
structure Pulled (d : Deployment) (addr : Address) (raw : Bytes) (metadata : AddressMetadata) (payload : Payload) : Prop where
  decoded : d.crates.decodeMetadata raw = some metadata
  attested : Attested d addr.body metadata payload

theorem Pulled.unique {addr : Address} {raw : Bytes} {metadata metadata' : AddressMetadata} {payload payload' : Payload}
    (one : Pulled d addr raw metadata payload) (two : Pulled d addr raw metadata' payload') :
    metadata' = metadata ∧ payload' = payload := by
  obtain rfl := Option.some.inj (two.decoded.symm.trans one.decoded)
  obtain rfl := Option.some.inj (two.attested.payload.symm.trans one.attested.payload)
  exact ⟨rfl,rfl⟩

inductive PullForm {Error : Type} (d : Deployment) (addr : Address) (raw : Bytes) : Prog Error PeerExit → Prop where
  | refused (unmet : ∀ metadata payload, ¬ Pulled d addr raw metadata payload) (exit : left ≠ .stored) :
      PullForm d addr raw (.done left)
  | panicked (unmet : ∀ metadata payload, ¬ Pulled d addr raw metadata payload) : PullForm d addr raw (.panic .message)
  | admitted (met : Pulled d addr raw metadata payload) : PullForm d addr raw (storePulled d addr metadata payload)

theorem pull_form {Error : Type} (d : Deployment) (addr : Address) (raw : Bytes) :
    PullForm d addr raw (pullMetadata d addr raw : Prog Error PeerExit) := by
  unfold pullMetadata
  cases decoded : d.crates.decodeMetadata raw with
  | none => exact .refused (fun _ _ met => by simpa [decoded] using met.decoded) (by simp)
  | some metadata =>
    have attested : ∀ {metadata' payload'}, Pulled d addr raw metadata' payload' → Attested d addr.body metadata payload' := by
      intro metadata' payload' met
      obtain rfl : metadata = metadata' := by simpa [decoded] using met.decoded
      exact met.attested
    have checked := checked_form d addr metadata
    dsimp only
    generalize validate d.crates (secp256k1 d.crates) addr metadata = validated at checked ⊢
    generalize d.crates.decodePayload metadata.serializedPayload = read at checked ⊢
    cases checked with
    | invalid unmet => exact .refused (fun _ _ met => unmet _ (attested met)) (by simp)
    | panicked unmet => exact .panicked fun _ _ met => unmet _ (attested met)
    | undecodable unmet => exact .refused (fun _ _ met => unmet _ (attested met)) (by simp)
    | attested signed => exact .admitted ⟨decoded,signed⟩

-- A panic other than an overflow or a refused digest comes from garbled bytes.
def Blamed (d : Deployment) (past : Past) (fault : Panic) : Prop :=
  fault = .overflow ∨ fault = .message ∨ Garbled d past

section Follows
variable {key : Bytes} {past later : Past} {fault : Panic} {payload : Payload} {metadata : AddressMetadata}

theorem get_blamed (got : GetPath d key past later (.panicked fault)) : Blamed d later fault := by
  cases got with
  | @unreadable raw _ garbled => exact .inr (.inr ⟨key,raw,.inl (by simp),garbled.unreadable⟩)
  | overflow read overflows => exact .inl rfl

theorem check_blamed (checked : CheckPath d key payload past later (.panicked fault)) : Blamed d later fault := by
  cases checked with
  | panicked got => exact get_blamed got
  | overflow got read order overflows => exact .inl rfl

theorem store_blamed {Error : Type} {outcome : Outcome Panic Error PeerExit}
    (stored : StorePath d key metadata payload past later outcome) (panicked : outcome = .panicked fault) :
    Blamed d later fault := by
  cases stored with
  | panicked checked => cases panicked; exact check_blamed checked
  | checkFailed checked | refused checked | putFailed checked | stored checked => cases panicked

def Written (d : Deployment) (addrStr : String) (body : List (Except String Bytes)) (past : Past) : Prop :=
  ∃ addr metadata payload before, Admitted d addrStr body addr metadata payload ∧
    past = before ++ [⟨.dbPut addr.body (d.crates.encodeMetadata metadata),.ok ()⟩]

-- What `get_key` answers with was read from the store.
def ServesFound (d : Deployment) (addrStr : String) (past : Past) (resp : HttpResponse) : Prop :=
  ∃ addr metadata raw, d.crates.decodeAddress addrStr = .ok addr ∧ ⟨.dbGet addr.body,.ok (some raw)⟩ ∈ past ∧
    d.crates.decodeMetadata raw = some metadata ∧ resp = {status := .ok,body := d.crates.encodeMetadata metadata}

section Paths
variable {may : Past → Op → Prop}

theorem putKey_paths {addrStr : String} {body : List (Except String Bytes)}
    (stores : ∀ addr metadata payload, Admitted d addrStr body addr metadata payload →
      Follows may (StorePath d addr.body metadata payload past) past (storePulled d addr metadata payload : Prog ServerError _)) :
    Follows may (fun later outcome => (∀ resp, outcome = .returned resp → Written d addrStr body later) ∧
      ∀ fault, outcome = .panicked fault → Blamed d later fault) past (putKey d addrStr body) := by
  have form := putKey_form d addrStr body
  generalize putKey d addrStr body = program at form ⊢
  cases form with
  | refused unmet => simp
  | panicked unmet => simp [Blamed]
  | @admitted addr metadata payload met =>
    refine (stores addr metadata payload met).bind ?_ (fun _ err stored => ⟨by simp,by simp⟩)
      (fun _ fault stored => ⟨by simp,fun _ same => store_blamed stored (by cases same; rfl)⟩)
    intro later exit stored
    cases exit with
    | stored =>
      cases stored with
      | @stored before checked => exact ⟨fun _ _ => ⟨addr,metadata,payload,before,met,rfl⟩,by simp⟩
    | _ => simp [presentStored]

theorem pull_paths {Error : Type} {addr : Address} {raw : Bytes}
    (stores : ∀ metadata payload, Pulled d addr raw metadata payload →
      Follows may (StorePath d addr.body metadata payload past) past (storePulled d addr metadata payload : Prog Error PeerExit)) :
    Follows may (fun later outcome => ∀ fault, outcome = .panicked fault → Blamed d later fault) past
      (pullMetadata d addr raw : Prog Error PeerExit) := by
  have form : PullForm d addr raw (pullMetadata d addr raw : Prog Error PeerExit) := pull_form d addr raw
  generalize (pullMetadata d addr raw : Prog Error PeerExit) = program at form ⊢
  cases form with
  | refused unmet exit => simp
  | panicked unmet => simp [Blamed]
  | @admitted metadata payload met =>
    exact (stores metadata payload met).mono (fun _ _ may => may) fun _ _ stored fault => store_blamed stored

theorem getKey_paths {addrStr : String}
    (reads : ∀ addr : Address, Follows may (GetPath d addr.body past) past (KeyDb.get d addr)) :
    Follows may (fun later outcome => (∀ resp, outcome = .returned resp → ServesFound d addrStr later resp) ∧
      ∀ fault, outcome = .panicked fault → Blamed d later fault) past (getKey d addrStr) := by
  unfold getKey decodeAddress
  cases addressed : d.crates.decodeAddress addrStr with
  | error err => simp
  | ok addr =>
    simp only [done_bind]
    rw [mapError_bind]
    refine (reads addr).attempt_bind ?_ (by simp) ?_
    · intro later found got
      cases got with
      | absent => simp
      | lapsed stale => simp
      | @current raw metadata payload clock decoded read unexpired =>
        refine ⟨?_,by simp⟩
        intro resp answered
        cases answered
        exact ⟨addr,metadata,raw,addressed,by simp,decoded,rfl⟩
    · intro later fault got
      refine ⟨by simp,?_⟩
      intro other same
      cases same
      exact get_blamed got

theorem peerPolling_paths {Error : Type} {res : Except Bitcoin.StreamError (String × Address)}
    (delays : ∀ secs, may past (.delayFor secs)) (fetches : ∀ later url, may later (.httpGet url))
    (pulls : ∀ peerAddr addr url raw later, res = .ok (peerAddr,addr) → ⟨.httpGet url,.ok raw⟩ ∈ later →
      Follows may (fun later outcome => ∀ fault, outcome = .panicked fault → Blamed d later fault) later
        (pullMetadata d addr raw : Prog Error PeerExit)) :
    Follows may (fun later outcome => ∀ fault, outcome = .panicked fault → Blamed d later fault) past
      (peerPolling d res : Prog Error PeerExit) := by
  unfold peerPolling
  rcases res with err | ⟨peerAddr,bitcoinAddr⟩
  · simp
  · cases encoded : d.crates.encodeAddress bitcoinAddr with
    | error err => simp [encoded]
    | ok bitcoinAddrStr =>
      simp only [encoded,delayFor,call_bind,done_bind]
      refine ⟨delays _,fun _ => ?_⟩
      unfold getMetadata
      cases d.crates.urlParse (peerAddr ++ "/keys/" ++ bitcoinAddrStr) with
      | error err => simp
      | ok url =>
        simp only [fromResult_ok,mapError_done,done_bind,httpGet,mapError_call,attempt_call,call_bind]
        refine ⟨fetches _ _,fun reply => ?_⟩
        rcases reply with err | raw
        · simp
        · exact pulls peerAddr bitcoinAddr url raw _ rfl (List.mem_append_right _ (List.mem_singleton.mpr rfl))

theorem compact_paths {Error : Type} (reads : may past (.compactionRead key)) (clocks : ∀ later, may later .now)
    (drops : ∀ raw clock, Stale d raw clock →
      may (past ++ [⟨.compactionRead key,some raw⟩] ++ [⟨.now,clock⟩]) (.compactionDrop key raw)) :
    Follows may (fun later outcome => ∀ fault, outcome = .panicked fault → Blamed d later fault) past
      (compact d key : Prog Error Unit) := by
  refine ⟨reads,fun reply => ?_⟩
  cases reply with
  | none => simp
  | some raw =>
    unfold ttlFilter
    have garbled : storedPayload d raw = none → ∀ fault, Blamed d (past ++ [⟨.compactionRead key,some raw⟩]) fault :=
      fun missing fault => .inr (.inr ⟨key,raw,.inr (by simp),by simp [Readable,missing]⟩)
    cases decoded : d.crates.decodeMetadata raw with
    | none => simpa [decoded] using garbled (by simp [storedPayload,decoded]) .storedMetadata
    | some metadata =>
      cases read : d.crates.decodePayload metadata.serializedPayload with
      | none => simpa [decoded,read] using garbled (by simp [storedPayload,decoded,read]) .storedPayload
      | some payload =>
        simp only [decoded,unwrap_some,done_bind,read,bind_bind]
        apply expired_follows (clocks _) (by simp [Blamed])
        intro clock answer answered
        cases answer with
        | false => simp
        | true =>
          have stale : Stale d raw clock := by simp [Stale,storedPayload,decoded,read,answered]
          exact ⟨drops raw clock stale,by simp⟩

end Paths

theorem putKey_follows (d : Deployment) (addrStr : String) (body : List (Except String Bytes)) (past : Past) :
    Follows (Permitted d) (fun later outcome => (∀ resp, outcome = .returned resp → Written d addrStr body later) ∧
      ∀ fault, outcome = .panicked fault → Blamed d later fault) past (putKey d addrStr body) :=
  putKey_paths fun _ _ _ met => stored_follows met.attested past

theorem getKey_follows (d : Deployment) (addrStr : String) (past : Past) :
    Follows (Permitted d) (fun later outcome => (∀ resp, outcome = .returned resp → ServesFound d addrStr later resp) ∧
      ∀ fault, outcome = .panicked fault → Blamed d later fault) past (getKey d addrStr) :=
  getKey_paths fun addr => get_follows d addr past

theorem peerPolling_follows {Error : Type} (d : Deployment) (res : Except Bitcoin.StreamError (String × Address))
    (past : Past) :
    Follows (Permitted d) (fun later outcome => ∀ fault, outcome = .panicked fault → Blamed d later fault) past
      (peerPolling d res : Prog Error PeerExit) :=
  peerPolling_paths (fun _ => .delay) (fun _ _ => .fetch) fun _ _ _ _ later _ _ =>
    pull_paths fun _ _ met => stored_follows met.attested later

theorem compact_follows {Error : Type} (d : Deployment) (key : Bytes) (past : Past) :
    Follows (Permitted d) (fun later outcome => ∀ fault, outcome = .panicked fault → Blamed d later fault) past
      (compact d key : Prog Error Unit) :=
  compact_paths .compactionRead (fun _ => .clock) fun _ _ stale => .compactionDrop stale

end Follows

end Keyserver.KeyRequests
