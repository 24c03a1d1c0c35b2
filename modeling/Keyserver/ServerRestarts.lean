import Keyserver.SharedRestarts
import Keyserver.LazyDeletion
import Keyserver.PaymentGate
import Keyserver.RefusalCauses

namespace Keyserver.ServerRestarts
open SharedPrograms SharedPools SharedRestarts KeyDb KeyProtocol KeyRequests Payments PaymentProtocol ServerProtocol
  StoreAuthenticity StoreWindows LazyDeletion
open PaymentGate (Issued issued_origin)

-- What `main` starts with: the database as it was left at its path, and
-- `WalletState::default()`.
def restarted (left : Shared) (clock : Clock) : Shared := {db := left.db,wallet := ∅,clock := clock}

def Fresh (origin : Shared) : Prop := ∃ clock, origin = Shared.empty clock

def Restarts (left next : Shared) : Prop := ∃ clock, next = restarted left clock

-- The clock does not go back while the server is down.
def RestartsOnward (left next : Shared) : Prop := ∃ clock, left.clock ≤ clock ∧ next = restarted left clock

variable {d : Deployment} {meets : ServerPool → Act Reply Request Clock → Prop} {boots : Shared → Shared → Prop} {origin : Shared}
  {lives earlier later : List ServerPool} {s life : ServerPool} {key raw : Bytes}

def PutIn (lives : List ServerPool) (key raw : Bytes) : Prop := ∃ life ∈ lives, ∃ i, (i,⟨.dbPut key raw,.ok ()⟩) ∈ life.log

theorem PutIn.mono {more : List ServerPool} (put : PutIn lives key raw) (within : lives ⊆ more) : PutIn more key raw := by
  obtain ⟨life,member,entry⟩ := put
  exact ⟨life,within member,entry⟩

section Sound

-- What holds in every life of the server, whatever the lives before it did and
-- wherever they stopped.
structure Sound (d : Deployment) (lives : List ServerPool) (s : ServerPool) : Prop where
  stored : ∀ key raw, s.shared.db key = some raw → PutIn (lives ++ [s]) key raw ∧
    ∃ metadata payload, raw = d.crates.encodeMetadata metadata ∧ Attested d key metadata payload
  steady : ∀ thread ∈ s.threads, thread.rest ≠ .panic .storedMetadata ∧ thread.rest ≠ .panic .storedPayload
  issued : ∀ (i : Nat) req sent reply, s.requests[i]? = some (.payments req) → (i,⟨.rpcSend sent,reply⟩) ∈ s.log →
    ∃ payment txRaw tx output pkHash, Tendered d req payment txRaw tx ∧ sent = ⟨"sendrawtransaction",[d.crates.hexEncode txRaw]⟩ ∧
      output ∈ tx.output ∧ Pays output pkHash ∧ Issued s i pkHash

-- What a payment handler has found before it sends: a hash that an output pays.
def Sends (d : Deployment) (request : Request) (past : Past) (op : Op) : Prop :=
  ∀ req sent, request = .payments req → op = .rpcSend sent → ∃ payment txRaw tx output pkHash, Tendered d req payment txRaw tx ∧
    sent = ⟨"sendrawtransaction",[d.crates.hexEncode txRaw]⟩ ∧ output ∈ tx.output ∧ Pays output pkHash ∧
      ⟨.walletContains pkHash,true⟩ ∈ past

theorem paymentHandler_sends (d : Deployment) (req : HttpRequest) :
    Follows (Sends d (.payments req)) (fun _ _ => True) [] (paymentHandler d req) := by
  have form := paymentHandler_form d req
  generalize paymentHandler d req = program at form ⊢
  cases form with
  | refused unmet => trivial
  | @tendered payment txRaw tx receipt met issued =>
    refine settlement_spends (by simp [Sends]) (by simp [Sends]) (fun _ _ => trivial) ?_
    intro misses output pkHash present missed member pays
    apply sendRequest_follows ?_ (fun _ _ => trivial)
    · intro response txid taken
      cases receipt <;> trivial
    · intro other sent same asked
      cases same
      cases asked
      exact ⟨payment,txRaw,tx,output,pkHash,met,rfl,member,pays,by simp⟩

theorem handle_sends (d : Deployment) (request : Request) : Follows (Sends d request) (fun _ _ => True) [] (handle d request) := by
  by_cases paying : ∃ req, request = .payments req
  · obtain ⟨req,rfl⟩ := paying
    exact (paymentHandler_sends d req).map (fun _ _ sends => sends) fun _ _ _ => trivial
  · apply (handle_follows d request).mono _ (fun _ _ _ => trivial)
    intro past op _ req sent same
    exact absurd ⟨req,same⟩ paying

theorem lives_stored (lived : Lives (server d) meets Fresh Restarts lives origin) :
    (∀ key raw, origin.db key = some raw → PutIn lives key raw) ∧ origin.wallet = ∅ := by
  induction lived with
  | first fresh =>
    obtain ⟨clock,rfl⟩ := fresh
    exact ⟨by simp [Shared.empty],rfl⟩
  | @again _ origin s _ earlier path booted ih =>
    obtain ⟨clock,rfl⟩ := booted
    refine ⟨fun key raw stored => ?_,rfl⟩
    rcases stored_origin path stored with before | ⟨i,put⟩
    · exact (ih.1 key raw before).mono (List.subset_append_left _ _)
    · exact ⟨s,List.mem_append_right _ (List.mem_singleton.mpr rfl),i,put⟩

theorem putIn_attested (lived : Lives (server d) meets Fresh boots lives origin) (put : PutIn lives key raw) :
    ∃ metadata payload, raw = d.crates.encodeMetadata metadata ∧ Attested d key metadata payload := by
  obtain ⟨life,member,i,entry⟩ := put
  obtain ⟨earlier,later,rfl⟩ := List.append_of_mem member
  obtain ⟨start,-,path⟩ := lived.life
  obtain ⟨metadata,payload,attested,encoded⟩ := put_attested path entry
  exact ⟨metadata,payload,encoded,attested⟩

theorem attested_readable (codec : d.crates.RoundTrips) {metadata : AddressMetadata} {payload : Payload}
    (attested : Attested d key metadata payload) : Readable d (d.crates.encodeMetadata metadata) :=
  decodes_readable ⟨metadata,payload,codec metadata,attested.payload⟩

theorem garbled_read {i : Nat} (path : Reached (server d) meets origin s) (garbled : Garbled d (history s.log i)) :
    ∃ key raw, ¬ Readable d raw ∧ (origin.db key = some raw ∨ ∃ j, (j,⟨.dbPut key raw,.ok ()⟩) ∈ s.log) := by
  obtain ⟨key,raw,read,unreadable⟩ := garbled
  refine ⟨key,raw,unreadable,?_⟩
  rcases read with read | read
  · exact read_origin path (mem_history.mp read)
  · exact compacted_origin path (mem_history.mp read)

theorem clean_unwraps {i : Nat} {thread : Thread Reply Panic ServerError Answer Request} (path : Reached (server d) meets origin s)
    (clean : ¬ Garbled d (history s.log i)) (found : s.threads[i]? = some thread) :
    thread.rest ≠ .panic .storedMetadata ∧ thread.rest ≠ .panic .storedPayload := by
  have follows := reached_follows (handle_follows d) path found
  constructor
  · intro panicked
    rw [panicked,follows_panic] at follows
    simpa [Blamed,clean] using follows.blamed _ rfl
  · intro panicked
    rw [panicked,follows_panic] at follows
    simpa [Blamed,clean] using follows.blamed _ rfl

-- Whatever has been started how often, each life is sound: what is stored was put in
-- this life or an earlier one and was signed for its key, no decode `unwrap` is met,
-- and a transaction is sent only if it pays a hash that was invoiced in the same life.
theorem restarts_sound (codec : d.crates.RoundTrips) (lived : Lives (server d) meets Fresh Restarts lives origin)
    (path : Reached (server d) meets origin s) : Sound d lives s := by
  have ended : Lives (server d) meets Fresh Restarts (lives ++ [s]) (restarted s.shared s.shared.clock) :=
    .again lived path ⟨_,rfl⟩
  have readable : ∀ key raw, (origin.db key = some raw ∨ ∃ j, (j,⟨.dbPut key raw,.ok ()⟩) ∈ s.log) → Readable d raw := by
    intro key raw known
    have put : PutIn (lives ++ [s]) key raw := by
      rcases known with before | ⟨j,put⟩
      · exact ((lives_stored lived).1 key raw before).mono (List.subset_append_left _ _)
      · exact ⟨s,List.mem_append_right _ (List.mem_singleton.mpr rfl),j,put⟩
    obtain ⟨metadata,payload,rfl,attested⟩ := putIn_attested ended put
    exact attested_readable codec attested
  refine ⟨?_,?_,?_⟩
  · intro key raw stored
    have put := (lives_stored ended).1 key raw stored
    exact ⟨put,putIn_attested ended put⟩
  · intro thread member
    obtain ⟨i,found⟩ := List.mem_iff_getElem?.mp member
    refine clean_unwraps path (fun garbled => ?_) found
    obtain ⟨key,raw,unreadable,known⟩ := garbled_read path garbled
    exact unreadable (readable key raw known)
  · intro i req sent reply paying logged
    obtain ⟨before,after,split⟩ := List.append_of_mem logged
    obtain ⟨request,known,sends⟩ := reached_permitted (handle_sends d) path split
    obtain ⟨payment,txRaw,tx,output,pkHash,met,same,member,pays,seen⟩ :=
      sends req sent (Option.some.inj (known.symm.trans paying)) rfl
    refine ⟨payment,txRaw,tx,output,pkHash,met,same,member,pays,issued_origin path (lives_stored lived).2 ?_⟩
    rw [split,history_append]
    exact List.mem_append_left _ seen

end Sound

section Kept

theorem reached_later (onward : ∀ s act, meets s act → Onward s act) (path : Reached (server d) meets origin s) :
    origin.clock ≤ s.shared.clock := by
  induction path with
  | start => exact Clock.le_refl _
  | step prior met step ih =>
    cases step with
    | arrive => exact ih
    | surroundings moved =>
      cases moved
      exact Clock.le_trans ih (onward _ _ met)
    | perform running answered =>
      rw [(answer_effect answered).clock]
      exact ih

-- An entry that the server starts with stays through the run, until another is put or
-- it expires.
theorem origin_stays (onward : ∀ s act, meets s act → Onward s act)
    (deletes : ∀ s act next, Reached (server d) meets origin s → meets s act → Step (server d) s act next → DeletesExpired d s act)
    (path : Reached (server d) meets origin s) (stored : origin.db key = some raw) :
    (∃ j newer, (j,⟨.dbPut key newer,.ok ()⟩) ∈ s.log) ∨ Stale d raw s.shared.clock ∨ s.shared.db key = some raw := by
  induction path with
  | start => exact .inr (.inr stored)
  | @step s act next prior met step ih =>
    have careful := deletes s act next prior met step
    cases step with
    | arrive => exact ih
    | surroundings moved =>
      cases moved
      exact ih.imp_right fun rest => rest.imp_left fun stale => stale.later (onward _ _ met)
    | @perform _ j request op rest reply shared running answered =>
      rcases ih with ⟨k,newer,put⟩ | stale | held
      · exact .inl ⟨k,newer,List.mem_append_left _ put⟩
      · exact .inr (.inl ((answer_effect answered).clock.symm ▸ stale))
      · have dropped : ∀ key value, (⟨op,reply⟩ : Event Reply) = ⟨.compactionDrop key value,()⟩ → Stale d value s.shared.clock :=
          fun key value same => drop_stale onward prior (same ▸ Step.perform running answered)
        rcases entry_stays (answer_effect answered) careful dropped held with ⟨newer,same⟩ | stale | held
        · exact .inl ⟨j,newer,List.mem_append_right _ (List.mem_singleton.mpr (by rw [same]))⟩
        · exact .inr (.inl ((answer_effect answered).clock.symm ▸ stale))
        · exact .inr (.inr held)

-- What is left of an entry after some more lives.
def Endures (d : Deployment) (key raw : Bytes) (later : List ServerPool) (shared : Shared) : Prop :=
  (∃ newer, PutIn later key newer) ∨ Stale d raw shared.clock ∨ shared.db key = some raw

def Steadily (d : Deployment) (s : ServerPool) (act : Act Reply Request Clock) : Prop := Onward s act ∧ Undisturbed d s act

theorem life_endures {start : Shared} (held : Endures d key raw later start) (path : Reached (server d) (Steadily d) start s) :
    Endures d key raw (later ++ [s]) s.shared := by
  rcases held with ⟨newer,put⟩ | stale | stored
  · exact .inl ⟨newer,put.mono (List.subset_append_left _ _)⟩
  · exact .inr (.inl (stale.later (reached_later (fun _ _ met => met.1) path)))
  · have stays := origin_stays (fun _ _ met => met.1)
      (fun s act next prior met step => undisturbed_deletes (fun _ _ met => met.1) prior step met.2) path stored
    refine stays.imp_left fun ⟨j,newer,put⟩ => ⟨newer,s,?_,j,put⟩
    exact List.mem_append_right _ (List.mem_singleton.mpr rfl)

theorem restart_endures {left next : Shared} (held : Endures d key raw later left) (booted : RestartsOnward left next) :
    Endures d key raw later next := by
  obtain ⟨clock,onward,rfl⟩ := booted
  exact held.imp_right fun rest => rest.imp_left fun stale => stale.later onward

-- What became of a put of one life in a state of a later one.
def Survives (d : Deployment) (life : ServerPool) (i : Nat) (later : List ServerPool) (s : ServerPool) (addrStr : String)
    (addr : Address) (metadata : AddressMetadata) (payload : Payload) : Prop :=
  Superseded life.log i addr.body (d.crates.encodeMetadata metadata) ∨ (∃ newer, PutIn later addr.body newer) ∨
    expiredAt d payload s.shared.clock ≠ some false ∨ StillRead d s.shared addrStr metadata

-- Metadata for which `put_key` answered 200 in any life stays readable through all the
-- lives after it, until another update is put over it or it expires.
theorem restarts_keep (codec : d.crates.RoundTrips) (lived : Lives (server d) (Steadily d) Fresh RestartsOnward lives origin)
    (path : Reached (server d) (Steadily d) origin s) (listed : lives ++ [s] = earlier ++ life :: later) {i : Nat}
    {request : Request} {addrStr : String} {body : List (Except String Bytes)} {resp : HttpResponse}
    (found : life.threads[i]? = some ⟨request,.done (.http resp)⟩) (puts : Puts d request addrStr body)
    (status : resp.status = .ok) : ∃ addr metadata payload, Admitted d addrStr body addr metadata payload ∧
      Survives d life i later s addrStr addr metadata payload := by
  have ended : Lives (server d) (Steadily d) Fresh RestartsOnward (earlier ++ life :: later) (restarted s.shared s.shared.clock) :=
    listed ▸ .again lived path ⟨_,Clock.le_refl _,rfl⟩
  obtain ⟨start,-,ran⟩ := ended.life
  have outcome := reached_follows (handle_follows d) ran found
  rw [follows_done] at outcome
  obtain ⟨addr,metadata,payload,before,admitted,past⟩ := outcome.written addrStr body resp puts rfl status
  refine ⟨addr,metadata,payload,admitted,?_⟩
  have logged : (i,⟨.dbPut addr.body (d.crates.encodeMetadata metadata),.ok ()⟩) ∈ life.log := by
    rw [← mem_history,past]
    simp
  obtain ⟨front,back,split⟩ := List.append_of_mem logged
  have deletes : ∀ s act next, Reached (server d) (Steadily d) start s → Steadily d s act → Step (server d) s act next →
      DeletesExpired d s act := fun s act next prior met step => undisturbed_deletes (fun _ _ met => met.1) prior step met.2
  rcases put_survives (fun _ _ met => met.1) deletes ran front i addr.body _ back split with ⟨j,newer,put⟩ | kept
  · exact .inl ⟨front,back,j,newer,split,put⟩
  · right
    have left : Endures d addr.body (d.crates.encodeMetadata metadata) [] life.shared := .inr kept
    have endures := ended.carried (fun _ _ _ held path => life_endures held path)
      (fun _ _ _ held booted => restart_endures held booted) left
    rcases endures with newer | stale | stored
    · exact .inl newer
    · right
      left
      have expired : expiredAt d payload s.shared.clock = some true := by
        simpa [Stale,storedPayload,codec metadata,admitted.attested.payload,restarted] using stale
      simp [expired]
    · right
      by_cases unexpired : expiredAt d payload s.shared.clock = some false
      · exact .inr (reads_stored codec admitted.addressed admitted.attested.payload unexpired stored)
      · exact .inl unexpired

end Kept

section Example
open SoloRuns SampleDeployment

def oneLife (origin : Shared) (turns : List (Turn Request Clock)) : Option ServerPool :=
  (server (deployment false)).drive (reply calm) quiet turns (.start origin)

theorem oneLife_reached {origin : Shared} {turns : List (Turn Request Clock)} {s : ServerPool}
    (done : oneLife origin turns = some s) : Reached (server (deployment false)) (Steadily (deployment false)) origin s :=
  drive_reached quiet_undisturbed .start done

-- An invoice of one life is paid in the next.
theorem stranger_sound : ∃ before s : ServerPool, walletHash ∈ before.shared.wallet ∧
    RefusalCauses.refusal s 0 = some (.payment .invalidOutputs) ∧ Sound (deployment false) [before] s := by
  have done : (oneLife (Shared.empty epoch) [.arrive (.keys unpaidPut),.thread 0,.thread 0,.thread 0]).any (fun before =>
      walletHash ∈ before.shared.wallet && (oneLife (restarted before.shared (clockAt 105)) [.arrive (.payments paying),.thread 0]).any
        fun s => RefusalCauses.refusal s 0 = some (.payment .invalidOutputs)) = true := by decide +kernel
  obtain ⟨before,first,facts⟩ := (Option.any_eq_true _ _).mp done
  obtain ⟨invoiced,next⟩ := Bool.and_eq_true_iff.mp facts
  obtain ⟨s,second,refused⟩ := (Option.any_eq_true _ _).mp next
  have lived : Lives (server (deployment false)) (Steadily (deployment false)) Fresh Restarts [before]
    (restarted before.shared (clockAt 105)) := .again (.first ⟨epoch,rfl⟩) (oneLife_reached first) ⟨_,rfl⟩
  exact ⟨before,s,of_decide_eq_true invoiced,of_decide_eq_true refused,
    restarts_sound (WireMessages.onWire_roundTrips _) lived (oneLife_reached second)⟩

-- Accepted, then restarted, then read.
theorem early_kept : ∃ before s : ServerPool, before.returned 0 = some (.http {status := .ok}) ∧
    s.shared.db ownerHash = some (body 1 early) ∧ ∃ addr metadata payload,
      Admitted (deployment false) ownerAddress [.ok (body 1 early)] addr metadata payload ∧
        Survives (deployment false) before 0 [s] s ownerAddress addr metadata payload := by
  have done : (oneLife (Shared.empty epoch) [.surroundings (clockAt 100),.arrive (putOwner early),.thread 0,.thread 0]).any
      (fun before => before.shared.clock = clockAt 100 && before.returned 0 = some (.http {status := .ok}) &&
          (oneLife (restarted before.shared (clockAt 105)) [.arrive (.getKey ownerAddress),.thread 0,.thread 0]).any
            fun s => s.shared.db ownerHash = some (body 1 early)) = true := by decide +kernel
  obtain ⟨before,first,facts⟩ := (Option.any_eq_true _ _).mp done
  simp only [Bool.and_eq_true,decide_eq_true_eq] at facts
  obtain ⟨⟨time,accepted⟩,next⟩ := facts
  have known : before.requests = [putOwner early] := drive_requests first
  obtain ⟨s,second,stored⟩ := (Option.any_eq_true _ _).mp next
  have lived : Lives (server (deployment false)) (Steadily (deployment false)) Fresh RestartsOnward [before]
    (restarted before.shared (clockAt 105)) :=
      .again (.first ⟨epoch,rfl⟩) (oneLife_reached first) ⟨clockAt 105,by rw [time]; exact Nat.le_of_ble_eq_true rfl,rfl⟩
  exact ⟨before,s,accepted,of_decide_eq_true stored,restarts_keep (WireMessages.onWire_roundTrips _) lived (oneLife_reached second)
    (@rfl _ ([] ++ before :: [s])) (returned_thread (by rw [known]; rfl) accepted) .direct rfl⟩

end Example

end Keyserver.ServerRestarts
