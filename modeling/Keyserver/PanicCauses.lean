import Keyserver.StoreAuthenticity
import Keyserver.ExpiryBounds

namespace Keyserver.PanicCauses
open SharedPrograms SharedPrograms.Program SharedPools Authentication KeyDb KeyHandlers KeyProtocol KeyRequests Payments
  PaymentProtocol ServerProtocol StoreAuthenticity SampleDeployment
open ExpiryBounds (Bounded expiry_none)

-- Bytes that the handler has read from the store.
def Found (past : Past) (raw : Bytes) : Prop :=
  ∃ key, ⟨.dbGet key,.ok (some raw)⟩ ∈ past ∨ ⟨.compactionRead key,some raw⟩ ∈ past

-- Metadata that the handler was given: in the body of a put, over the routes for a
-- token that was paid for, or in the response that a peer sent for the item.
inductive Given (d : Deployment) : Request → Past → AddressMetadata → Prop where
  | direct (decoded : (collected chunks).bind d.crates.decodeMetadata = some metadata) :
      Given d (.putKey addrStr chunks) past metadata
  | routed (put : req.method = .put) (paid : PaidFor d req) (route : d.crates.routeAddr req.path = some addrStr)
      (decoded : (collected req.payload).bind d.crates.decodeMetadata = some metadata) : Given d (.keys req) past metadata
  | pulled (named : d.crates.encodeAddress addr = .ok addrStr)
      (parsed : d.crates.urlParse (peerAddr ++ "/keys/" ++ addrStr) = .ok url)
      (received : ⟨.httpGet url,.ok raw⟩ ∈ past) (decoded : d.crates.decodeMetadata raw = some metadata) :
      Given d (.peerItem (.ok (peerAddr,addr))) past metadata

-- A put without a token, to a path of the keys.
structure Unpaid (d : Deployment) (req : HttpRequest) : Prop where
  method : req.method = .put
  tokenless : req.authorization = none
  routed : ∃ addrStr, d.crates.routeAddr req.path = some addrStr

-- Everything that a handler can panic on. Sums only panic in a build that checks them.
inductive Cause (d : Deployment) : Request → Past → Panic → Prop where
  | unreadable (found : Found past raw) (garbled : Undecodable d raw fault) : Cause d request past fault
  | stored (found : Found past raw) (read : storedPayload d raw = some payload) (checked : d.overflowChecks = true)
      (unbounded : ¬ Bounded payload) : Cause d request past .overflow
  | given (given : Given d request past metadata) (decoded : d.crates.decodePayload metadata.serializedPayload = some payload)
      (found : Found past raw) (checked : d.overflowChecks = true) (unbounded : ¬ Bounded payload) : Cause d request past .overflow
  | digest (given : Given d request past metadata)
      (refused : d.crates.messageFromSlice (d.crates.sha256 metadata.serializedPayload) = none) : Cause d request past .message
  | horizon (unpaid : Unpaid d req) (read : ⟨.now,clock⟩ ∈ past) (late : 2 ^ 63 ≤ clock.secs + 30) :
      Cause d (.keys req) past .overflow
  | path (unpaid : Unpaid d req) (uncut : (utf8 req.path).length < 6 ∨ fromUtf8 ((utf8 req.path).drop 6) = none) :
      Cause d (.keys req) past .slice
  | length (unpaid : Unpaid d req) (checked : d.overflowChecks = true)
      (long : 256 ≤ 29 + (utf8 (req.scheme ++ "://" ++ req.host)).length % 256) : Cause d (.keys req) past .overflow

def Caused (d : Deployment) (request : Request) {Error α : Type} (past : Past) (outcome : Outcome Panic Error α) : Prop :=
  ∀ fault, outcome = .panicked fault → Cause d request past fault

def Freely (_ : Past) (_ : Op) : Prop := True

variable {d : Deployment} {request : Request} {past later : Past} {addr : Address} {metadata : AddressMetadata}
  {payload : Payload} {fault : Panic}

@[simp] theorem caused_returned {Error α : Type} {value : α} :
    Caused d request past (.returned value : Outcome Panic Error α) := by simp [Caused]
@[simp] theorem caused_thrown {Error α : Type} {err : Error} :
    Caused d request past (.thrown err : Outcome Panic Error α) := by simp [Caused]

theorem caused_panicked {Error α : Type} (cause : Cause d request past fault) :
    Caused d request past (.panicked fault : Outcome Panic Error α) := by
  intro other same
  cases same
  exact cause

theorem Caused.convert {Error Error' α β : Type} (caused : Caused d request past (.panicked fault : Outcome Panic Error α)) :
    Caused d request past (.panicked fault : Outcome Panic Error' β) := caused_panicked (caused fault rfl)

section Store

theorem overflow_stored {raw : Bytes} (found : Found past raw) (read : storedPayload d raw = some payload)
    (overflows : KeyDb.expiry d payload = none) : Cause d request past .overflow := by
  obtain ⟨checked,unbounded⟩ := expiry_none overflows
  exact .stored found read checked unbounded

theorem get_caused {outcome : Outcome Panic RocksError (Option AddressMetadata)} {key : Bytes}
    (got : GetPath d key past later outcome) : Caused d request later outcome := by
  cases got with
  | unreadable garbled => exact caused_panicked (.unreadable ⟨key,.inl (by simp)⟩ garbled)
  | overflow read overflows => exact caused_panicked (overflow_stored ⟨key,.inl (by simp)⟩ read overflows)
  | failed | absent | lapsed | deleteFailed | current => simp

-- What was given stays given, so the check of its payload may be blamed on it.
theorem check_caused {outcome : Outcome Panic RocksError (Except ValidationError Unit)} {key : Bytes}
    (given : ∀ later, past <+: later → Given d request later metadata)
    (decoded : d.crates.decodePayload metadata.serializedPayload = some payload)
    (checked : CheckPath d key payload past later outcome) : Caused d request later outcome := by
  cases checked with
  | panicked got => exact (@get_caused d request _ _ _ _ got).convert
  | overflow got read order overflows =>
    cases got with
    | @current raw =>
      obtain ⟨checked,unbounded⟩ := expiry_none overflows
      apply caused_panicked
      refine @Cause.given _ _ _ _ _ raw (given _ ?_) decoded ⟨key,.inl ?_⟩ checked unbounded
      · simp
      · simp
  | failed | absent | outdated | expired | newer => simp

theorem get_causes (addr : Address) (past : Past) : Follows Freely (Caused d request) past (KeyDb.get d addr) :=
  (get_paths trivial (fun _ => trivial) fun _ _ _ => trivial).mono (fun _ _ may => may) fun _ _ got => get_caused got

theorem store_causes {Error : Type} (addr : Address) (given : ∀ later, past <+: later → Given d request later metadata)
    (decoded : d.crates.decodePayload metadata.serializedPayload = some payload) :
    Follows Freely (Caused d request) past (storePulled d addr metadata payload : Prog Error PeerExit) := by
  have checks : Follows Freely (CheckPath d addr.body payload past) past (checkTimestamp d addr payload) :=
    check_paths (fun _ => trivial) (get_paths trivial (fun _ => trivial) fun _ _ _ => trivial) payload
  apply (store_paths checks fun _ _ _ => trivial).mono (fun _ _ may => may)
  intro later outcome stored
  cases stored with
  | panicked checked => exact (check_caused given decoded checked).convert
  | checkFailed | refused | putFailed | stored => simp

end Store

-- The only `unwrap` of a validation is the one of the digest.
theorem validate_panics (panics : validate d.crates (secp256k1 d.crates) addr metadata = .panic fault) :
    fault = .message ∧ d.crates.messageFromSlice (d.crates.sha256 metadata.serializedPayload) = none := by
  unfold validate at panics
  cases parsed : d.crates.publicKeyFromSlice metadata.pubKey with
  | none => simp [secp256k1,parsed] at panics
  | some key =>
    by_cases same : d.crates.hash160 (d.crates.publicKeySerialize key) = addr.body
    · cases compact : d.crates.signatureFromCompact metadata.signature with
      | none => simp [secp256k1,parsed,toRawAddress,same,compact] at panics
      | some sig =>
        cases digest : d.crates.messageFromSlice (d.crates.sha256 metadata.serializedPayload) with
        | none =>
          simp only [secp256k1,parsed,toRawAddress,same,compact,digest,fromResult_ok,mapError_done,done_bind,unwrap_none,
            panic_bind,mapError_panic,ne_eq,not_true_eq_false,if_false,Program.panic.injEq] at panics
          exact ⟨panics.symm,rfl⟩
        | some msg =>
          cases verified : d.crates.secp256k1Verify msg sig key <;>
            simp [secp256k1,parsed,toRawAddress,same,compact,digest,verified] at panics
    · simp [secp256k1,parsed,toRawAddress,same] at panics

section Programs
variable {Error Error' α β : Type} {program : Prog Error α}

theorem causes_bind {rest : α → Prog Error β} (first : Follows Freely (Caused d request) past program)
    (second : ∀ later value, Follows Freely (Caused d request) later (rest value)) :
    Follows Freely (Caused d request) past (program >>= rest) :=
  first.bind (fun later value _ => second later value) (fun _ _ _ => caused_thrown) fun _ _ caused => caused.convert

theorem causes_attempt {rest : Except Error α → Prog Error' β} (first : Follows Freely (Caused d request) past program)
    (second : ∀ later result, past <+: later → Follows Freely (Caused d request) later (rest result)) :
    Follows Freely (Caused d request) past (program.attempt >>= rest) := by
  apply (first.grown.mono (fun _ _ allowed => allowed.1) fun _ _ ended => ended).attempt_bind
  · intro later value ended
    exact second later _ ended.2
  · intro later err ended
    exact second later _ ended.2
  · intro later fault ended
    exact ended.1.convert

theorem causes_mapError (first : Follows Freely (Caused d request) past program) (convert : Error → Error') :
    Follows Freely (Caused d request) past (program.mapError convert) := by
  induction program generalizing past with
  | done value => exact caused_returned
  | throw err => exact caused_thrown
  | panic fault => exact Caused.convert first
  | call op next ih => exact ⟨trivial,fun reply => ih reply (first.2 reply)⟩

theorem okOr_causes (err : Error) (found : Option α) : Follows Freely (Caused d request) past (okOr err found : Prog Error α) := by
  cases found <;> simp

end Programs

section Handlers

theorem validate_causes (addr : Address) (given : Given d request past metadata) :
    Follows Freely (Caused d request) past (validate d.crates (secp256k1 d.crates) addr metadata) := by
  obtain ⟨outcome,validated,-⟩ := validate_stops d.crates addr metadata
  rw [validated]
  cases outcome with
  | returned accepted => exact caused_returned
  | thrown err => exact caused_thrown
  | panicked fault =>
    obtain ⟨rfl,refused⟩ := validate_panics validated
    exact caused_panicked (.digest given refused)

theorem decodeAddress_causes (addrStr : String) (past : Past) :
    Follows Freely (Caused d request) past (decodeAddress d addrStr) := by
  unfold decodeAddress
  cases d.crates.decodeAddress addrStr <;> simp

theorem getKey_causes (addrStr : String) (past : Past) : Follows Freely (Caused d request) past (getKey d addrStr) := by
  apply causes_bind (decodeAddress_causes addrStr past)
  intro later addr
  apply causes_bind (causes_mapError (get_causes addr later) _)
  intro later found
  exact causes_bind (okOr_causes _ found) fun _ _ => caused_returned

theorem putKey_causes {body : List (Except String Bytes)} (addrStr : String) (past : Past)
    (given : ∀ metadata, (collected body).bind d.crates.decodeMetadata = some metadata → ∀ later, Given d request later metadata) :
    Follows Freely (Caused d request) past (putKey d addrStr body) := by
  unfold putKey
  rw [readPayload_eq]
  cases received : collected body with
  | none => exact caused_thrown
  | some raw =>
    simp only [Option.map_some,List.nil_append,okOr_some,done_bind]
    cases decoded : d.crates.decodeMetadata raw with
    | none => exact caused_thrown
    | some metadata =>
      have given := given metadata (by rw [received,Option.bind_some,decoded])
      simp only [okOr_some,done_bind]
      apply causes_bind (decodeAddress_causes addrStr past)
      intro later addr
      split
      · exact caused_thrown
      · apply causes_bind (causes_mapError (validate_causes addr (given later)) _)
        intro later accepted
        cases read : d.crates.decodePayload metadata.serializedPayload with
        | none => exact caused_thrown
        | some payload =>
          rw [okOr_some,done_bind,storeKey_eq]
          apply causes_bind (store_causes addr (fun later _ => given later) read)
          intro later exit
          cases exit <;> simp [presentStored]

theorem pullMetadata_causes {Error : Type} {raw : Bytes} (addr : Address) (past : Past)
    (given : ∀ metadata, d.crates.decodeMetadata raw = some metadata → ∀ later, past <+: later → Given d request later metadata) :
    Follows Freely (Caused d request) past (pullMetadata d addr raw : Prog Error PeerExit) := by
  unfold pullMetadata
  cases decoded : d.crates.decodeMetadata raw with
  | none => exact caused_returned
  | some metadata =>
    have given := given metadata decoded
    apply causes_attempt (validate_causes addr (given past (List.prefix_refl past)))
    intro later verdict grown
    cases verdict with
    | error err => exact caused_returned
    | ok accepted =>
      dsimp only
      cases read : d.crates.decodePayload metadata.serializedPayload with
      | none => exact caused_returned
      | some payload => exact store_causes addr (fun last more => given last (grown.trans more)) read

theorem peerPolling_causes {Error : Type} (res : Except Bitcoin.StreamError (String × Address)) (past : Past) :
    Follows Freely (Caused d (.peerItem res)) past (peerPolling d res : Prog Error PeerExit) := by
  unfold peerPolling
  rcases res with err | ⟨peerAddr,addr⟩
  · exact caused_returned
  · dsimp only
    cases named : d.crates.encodeAddress addr with
    | error err => exact caused_returned
    | ok addrStr =>
      refine ⟨trivial,fun _ => ?_⟩
      unfold getMetadata
      cases parsed : d.crates.urlParse (peerAddr ++ "/keys/" ++ addrStr) with
      | error err => exact caused_returned
      | ok url =>
        refine ⟨trivial,fun reply => ?_⟩
        rcases reply with err | raw
        · exact caused_returned
        · apply pullMetadata_causes addr
          intro metadata decoded later grown
          exact .pulled named parsed (grown.subset (by simp)) decoded

theorem compact_causes {Error : Type} (key : Bytes) (past : Past) :
    Follows Freely (Caused d request) past (compact d key : Prog Error Unit) := by
  refine ⟨trivial,fun found => ?_⟩
  cases found with
  | none => exact caused_returned
  | some raw =>
    have found : ∀ rest : Past, Found (past ++ [⟨.compactionRead key,some raw⟩] ++ rest) raw := fun rest => ⟨key,.inr (by simp)⟩
    have undecodable : ∀ {fault}, Undecodable d raw fault → Cause d request (past ++ [⟨.compactionRead key,some raw⟩]) fault :=
      fun garbled => .unreadable ⟨key,.inr (by simp)⟩ garbled
    unfold ttlFilter
    cases decoded : d.crates.decodeMetadata raw with
    | none => simpa [decoded] using caused_panicked (undecodable (.metadata decoded))
    | some metadata =>
      cases read : d.crates.decodePayload metadata.serializedPayload with
      | none => simpa [decoded,read] using caused_panicked (undecodable (.payload decoded read))
      | some payload =>
        have stored : storedPayload d raw = some payload := by simp [storedPayload,decoded,read]
        simp only [decoded,unwrap_some,done_bind,read,bind_bind]
        apply expired_follows trivial
        · intro clock overflows
          exact caused_panicked (overflow_stored (found _) stored overflows)
        · intro clock answer answered
          cases answer with
          | false => exact caused_returned
          | true => exact ⟨trivial,fun _ => caused_returned⟩

theorem afterSecs_late {clock : Clock} (late : afterSecs clock VALID_DURATION = none) : 2 ^ 63 ≤ clock.secs + 30 := by
  unfold afterSecs at late
  split at late
  · cases late
  · rename_i beyond
    exact Nat.le_of_not_lt beyond

theorem pathTail_uncut {path : String} (uncut : pathTail path = none) :
    (utf8 path).length < 6 ∨ fromUtf8 ((utf8 path).drop 6) = none := by
  unfold pathTail at uncut
  split at uncut
  · exact .inr uncut
  · rename_i short
    exact .inl (Nat.lt_of_not_le short)

theorem generateInvoice_causes {req : HttpRequest} (unpaid : Unpaid d req) (past : Past) :
    Follows Freely (Caused d (.keys req)) past (generateInvoice d req) := by
  apply (generateInvoice_paths d req past).mono (fun _ _ _ => trivial)
  intro later outcome path
  cases path with
  | late late => exact caused_panicked (.horizon unpaid (List.mem_append_right _ List.mem_cons_self) (afterSecs_late late))
  | uncut uncut => exact caused_panicked (.path unpaid (pathTail_uncut uncut))
  | overflow checked long => exact caused_panicked (.length unpaid checked long)
  | misdirected | declined | unreadable | foreign => exact caused_thrown
  | invoiced => exact caused_returned

theorem keysResource_causes (req : HttpRequest) : Follows Freely (Caused d (.keys req)) [] (keysResource d req) := by
  unfold keysResource
  cases route : d.crates.routeAddr req.path with
  | none => exact caused_returned
  | some addrStr =>
    have form := call_form d (keysService d addrStr) req
    dsimp only
    generalize Payments.call d (keysService d addrStr) req = program at form ⊢
    cases form with
    | forwarded paid =>
      refine ⟨trivial,fun _ => ?_⟩
      unfold keysService
      cases put : req.method with
      | get => exact getKey_causes addrStr _
      | put =>
        apply putKey_causes addrStr
        intro metadata decoded later
        exact .routed put (paid put) route decoded
      | post | other => exact caused_returned
    | invoiced put unpaid => exact generateInvoice_causes ⟨put,unpaid,addrStr,route⟩ []
    | refused put unpaid => exact caused_thrown
    | rejected put unpaid => exact caused_returned

theorem caused_map {Error α β : Type} {f : α → β} {program : Prog Error α}
    (first : Follows Freely (Caused d request) past program) : Follows Freely (Caused d request) past (f <$> program) :=
  causes_bind first fun _ _ => caused_returned

theorem handle_causes (d : Deployment) (request : Request) : Follows Freely (Caused d request) [] (handle d request) := by
  cases request with
  | getKey addrStr => exact caused_map (getKey_causes addrStr [])
  | putKey addrStr body => exact caused_map (putKey_causes addrStr [] fun _ decoded _ => .direct decoded)
  | peerItem res => exact caused_map (peerPolling_causes res [])
  | keys req => exact caused_map (keysResource_causes req)
  | payments req =>
    apply caused_map ((paymentHandler_follows d req).mono (fun _ _ _ => trivial) ?_)
    intro later outcome ended fault same
    exact absurd same (ended.1 fault)
  | compaction key => exact caused_map (compact_causes key [])

end Handlers

section Runs
variable {meets : ServerPool → Act Reply Request Clock → Prop} {clock : Clock} {s : ServerPool}

-- Whatever happens in a run, a handler that panics does so for one of the causes.
theorem reached_causes (path : Reached (server d) meets (Shared.empty clock) s) {i : Nat}
    (panicked : s.threads[i]? = some ⟨request,.panic fault⟩) : Cause d request (history s.log i) fault :=
  reached_follows (handle_causes d) path panicked fault rfl

def panicAt (s : ServerPool) (i : Nat) : Option Panic :=
  match s.threads[i]? with
  | some ⟨_,.panic fault⟩ => some fault
  | _ => none

theorem panicAt_thread {s : ServerPool} {i : Nat} (known : s.requests[i]? = some request) (panicked : panicAt s i = some fault) :
    s.threads[i]? = some ⟨request,.panic fault⟩ := by
  unfold panicAt at panicked
  split at panicked
  · rename_i request' fault' found
    cases panicked
    obtain rfl := Option.some.inj ((thread_request found).symm.trans known)
    exact found
  · cases panicked

def lastSecond : Clock := clockAt (2 ^ 63 - 1)

-- An invoice asked for in the last second of the clock has no time of expiry.
theorem lastSecond_caused : ∃ s : ServerPool, panicAt s 0 = some .overflow ∧
    Cause (deployment false) (.keys unpaidPut) (history s.log 0) .overflow := by
  have done : ((server (deployment false)).drive (SoloRuns.reply calm) (fun _ _ => true) [.arrive (.keys unpaidPut),.thread 0]
      (.start (Shared.empty lastSecond))).map (fun s => panicAt s 0) = some (some .overflow) := by decide +kernel
  obtain ⟨s,driven,panicked⟩ := Option.map_eq_some_iff.mp done
  have path : Reached (server (deployment false)) (fun _ _ => True) (Shared.empty lastSecond) s :=
    drive_reached (fun _ _ _ => trivial) .start driven
  have known : s.requests[0]? = some (.keys unpaidPut) := by
    rw [drive_requests driven]
    rfl
  exact ⟨s,panicked,reached_causes path (panicAt_thread known panicked)⟩

theorem reached_clean (codec : d.crates.RoundTrips) (path : Reached (server d) meets (Shared.empty clock) s) {i : Nat} {raw : Bytes}
    (found : Found (history s.log i) raw) : Readable d raw := by
  obtain ⟨key,read⟩ := found
  have put : ∃ j, (j,⟨.dbPut key raw,.ok ()⟩) ∈ s.log :=
    read.elim (fun read => read_put path (mem_history.mp read)) fun read => compacted_put path (mem_history.mp read)
  obtain ⟨j,put⟩ := put
  exact put_readable codec path put

-- The clock has seconds left for the expiry of an invoice.
def InTime (clock : Clock) : Prop := clock.secs + VALID_DURATION < 2 ^ 63

instance (clock : Clock) : Decidable (InTime clock) := inferInstanceAs (Decidable (_ < _))

def Timely (_ : ServerPool) : Act Reply Request Clock → Prop
  | .surroundings clock => InTime clock
  | _ => True

theorem timely_clock (path : Reached (server d) Timely (Shared.empty clock) s) (start : InTime clock) :
    InTime s.shared.clock ∧ ∀ i time, (i,⟨.now,time⟩) ∈ s.log → InTime time := by
  induction path with
  | start => exact ⟨start,by simp [Pool.start]⟩
  | @step s act next prior met step ih =>
    cases step with
    | arrive => exact ih
    | surroundings moved =>
      cases moved
      exact ⟨met,ih.2⟩
    | @perform _ i request op rest reply shared running answered =>
      have kept : shared.clock = s.shared.clock := (answer_effect answered).clock
      refine ⟨kept ▸ ih.1,?_⟩
      intro j time logged
      rcases List.mem_append.mp logged with old | new
      · exact ih.2 j time old
      · cases List.mem_singleton.mp new
        rw [(answer_now answered).1]
        exact ih.1

theorem keys_cut (rest : String) :
    ¬ ((utf8 ("/keys/" ++ rest)).length < 6 ∨ fromUtf8 ((utf8 ("/keys/" ++ rest)).drop 6) = none) := by
  have head : (utf8 "/keys/").length = 6 := by decide
  rw [utf8_append,List.length_append,head,List.drop_left' head,fromUtf8_utf8]
  intro uncut
  rcases uncut with short | undecoded
  · omega
  · cases undecoded

-- A release build of the server in a run within the clock's range: whatever bytes,
-- tokens, answers of node and peers and failures of the database come in, and in
-- whatever interleaving, no handler ever panics.
theorem reached_steady (release : d.overflowChecks = false) (codec : d.crates.RoundTrips)
    (digests : ∀ raw, d.crates.messageFromSlice (d.crates.sha256 raw) ≠ none)
    (routes : ∀ path addrStr, d.crates.routeAddr path = some addrStr → ∃ rest, path = "/keys/" ++ rest)
    (path : Reached (server d) Timely (Shared.empty clock) s) (start : InTime clock) :
    ∀ thread ∈ s.threads, ∀ fault, thread.rest ≠ .panic fault := by
  rintro ⟨request,rest⟩ member fault rfl
  obtain ⟨i,found⟩ := List.mem_iff_getElem?.mp member
  cases reached_follows (handle_causes d) path found fault rfl with
  | unreadable found garbled => exact garbled.unreadable (reached_clean codec path found)
  | stored found read checked => cases checked.symm.trans release
  | given given decoded found checked => cases checked.symm.trans release
  | digest given refused => exact digests _ refused
  | horizon unpaid read late =>
    have inside := (timely_clock path start).2 i _ (mem_history.mp read)
    unfold InTime at inside
    exact absurd inside (Nat.not_lt.mpr late)
  | path unpaid uncut =>
    obtain ⟨addrStr,route⟩ := unpaid.routed
    obtain ⟨rest,shape⟩ := routes _ _ route
    exact keys_cut rest (shape ▸ uncut)
  | length unpaid checked => cases checked.symm.trans release

end Runs

section Sample

-- The sample build with a digest of 32 bytes for every payload.
def digesting : Deployment :=
  {deployment false with crates := {crates with
    sha256 := fun raw => (([early,late,long].map fun known => (known.raw,known.digest)).lookup raw).getD (List.replicate 32 0)}}

theorem digesting_digests (raw : Bytes) : digesting.crates.messageFromSlice (digesting.crates.sha256 raw) ≠ none := by
  have sized : (digesting.crates.sha256 raw).length = 32 := by
    simp only [digesting,List.map_cons,List.map_nil,List.lookup_cons,List.lookup_nil]
    repeat (split; · rfl)
    rfl
  have taken : digesting.crates.messageFromSlice (digesting.crates.sha256 raw) = some (digesting.crates.sha256 raw) := if_pos sized
  rw [taken]
  exact Option.some_ne_none _

theorem segment_routes (path addrStr : String) (route : SampleDeployment.segment path = some addrStr) :
    ∃ rest, path = "/keys/" ++ rest := by
  unfold SampleDeployment.segment at route
  split at route
  · rename_i keyed
    have head : (utf8 path).take 6 = utf8 "/keys/" := by simpa using (Bool.and_eq_true_iff.mp keyed).1
    refine ⟨addrStr,utf8_inj ?_⟩
    rw [utf8_append,← fromUtf8_some route,← head,List.take_append_drop]
  · cases route

def timely (_ : ServerPool) : Act Reply Request Clock → Bool
  | .surroundings clock => InTime clock
  | _ => true

theorem timely_Timely (s : ServerPool) (act : Act Reply Request Clock) (passed : timely s act = true) : Timely s act := by
  cases act with
  | surroundings clock =>
    have inTime : InTime clock := of_decide_eq_true passed
    exact inTime
  | arrive request => trivial
  | perform i event => trivial

theorem digesting_steady : ∃ s : ServerPool, s.shared.db ownerHash = some (body 1 early) ∧ walletHash ∈ s.shared.wallet ∧
    ∀ thread ∈ s.threads, ∀ fault, thread.rest ≠ .panic fault := by
  have done : ((server digesting).drive (SoloRuns.reply calm) timely
      [.arrive (putOwner early),.arrive (.keys unpaidPut),.thread 1,.thread 0,.thread 1,.thread 1,.thread 0]
      (.start (Shared.empty epoch))).map (fun s => (s.shared.db ownerHash,decide (walletHash ∈ s.shared.wallet))) =
        some (some (body 1 early),true) := by decide +kernel
  obtain ⟨s,driven,ended⟩ := Option.map_eq_some_iff.mp done
  simp only [Prod.mk.injEq,decide_eq_true_eq] at ended
  refine ⟨s,ended.1,ended.2,?_⟩
  have codec : digesting.crates.RoundTrips := WireMessages.decode_encodeMetadata
  exact reached_steady rfl codec digesting_digests segment_routes
    (drive_reached timely_Timely .start driven) (by decide : InTime epoch)

end Sample

end Keyserver.PanicCauses
