import Keyserver.StoreWindows
import Keyserver.SampleDeployment

namespace Keyserver.LazyDeletion
open SharedPrograms SharedPools KeyDb KeyHandlers KeyProtocol KeyRequests ServerProtocol StoreWindows SoloRuns SampleDeployment

-- A lazy delete removes nothing but expired metadata.
def DeletesExpired (d : Deployment) (s : ServerPool) : Act Reply Request Clock → Prop
  | .perform _ ⟨.dbDelete key,.ok ()⟩ => ∀ raw, s.shared.db key = some raw → Stale d raw s.shared.clock
  | _ => True

def Superseded (log : Log) (i : Nat) (key value : Bytes) : Prop :=
  ∃ before after j newer, log = before ++ (i,⟨.dbPut key value,.ok ()⟩) :: after ∧ (j,⟨.dbPut key newer,.ok ()⟩) ∈ after

def StillRead (d : Deployment) (s : Shared) (addrStr : String) (metadata : AddressMetadata) : Prop :=
  (visit false d {clock := fun _ => s.clock} (.getKey addrStr) s).1 =
    .returned (.http {status := .ok,body := d.crates.encodeMetadata metadata})

-- Metadata for which `put_key` answered 200 stays readable until it expires or
-- another update is put over it.
def KeepsAccepted (d : Deployment) (s : ServerPool) : Prop :=
  ∀ (i : Nat) request addrStr body resp, s.threads[i]? = some ⟨request,.done (.http resp)⟩ → Puts d request addrStr body →
    resp.status = .ok → ∃ addr metadata payload, Admitted d addrStr body addr metadata payload ∧
      (Superseded s.log i addr.body (d.crates.encodeMetadata metadata) ∨ expiredAt d payload s.shared.clock ≠ some false ∨
        StillRead d s.shared addrStr metadata)

-- No update that is still unexpired was put under the key since the handler
-- that now deletes it has read it.
def Undisturbed (d : Deployment) (s : ServerPool) : Act Reply Request Clock → Prop
  | .perform i ⟨.dbDelete key,.ok ()⟩ => ∀ raw ∈ putsSince i key s.log, Stale d raw s.shared.clock
  | _ => True

variable {d : Deployment} {meets : ServerPool → Act Reply Request Clock → Prop} {origin : Shared} {clock : Clock}
  {s next : ServerPool}
  {act : Act Reply Request Clock}

theorem undisturbed_deletes (onward : ∀ s act, meets s act → Onward s act)
    (path : Reached (server d) meets origin s) (step : Step (server d) s act next)
    (met : Undisturbed d s act) : DeletesExpired d s act := by
  unfold DeletesExpired
  split
  · rename_i i key
    intro raw stored
    rcases delete_meets onward path step stored with put | stale
    · exact met raw put
    · exact stale
  · trivial

-- After a put, its value stays stored until another put or until it expires.
def PutsStay (d : Deployment) (s : ServerPool) : Prop :=
  ∀ before i key value after, s.log = before ++ (i,⟨.dbPut key value,.ok ()⟩) :: after →
    (∃ j newer, (j,⟨.dbPut key newer,.ok ()⟩) ∈ after) ∨ Stale d value s.shared.clock ∨ s.shared.db key = some value

-- One operation on an entry: it is replaced, or has expired, or stays.
theorem entry_stays {j : Nat} {event : Event Reply} {shared : Shared} (effect : Effect s.shared event shared)
    (careful : DeletesExpired d s (.perform j event))
    (dropped : ∀ key value, event = ⟨.compactionDrop key value,()⟩ → Stale d value s.shared.clock) {key value : Bytes}
    (stored : s.shared.db key = some value) : (∃ newer, event = ⟨.dbPut key newer,.ok ()⟩) ∨ Stale d value s.shared.clock ∨
      shared.db key = some value := by
  rcases effect.stored with same | ⟨other,newer,rfl,rfl⟩ | ⟨other,old,removed,rfl⟩
  · exact .inr (.inr (same ▸ stored))
  · by_cases equal : key = other
    · subst equal
      exact .inl ⟨newer,rfl⟩
    · exact .inr (.inr ((store_other _ _ equal).trans stored))
  · by_cases equal : key = other
    · subst equal
      rcases removed with rfl | ⟨rfl,current⟩
      · exact .inr (.inl (careful value stored))
      · obtain rfl := Option.some.inj (stored.symm.trans current)
        exact .inr (.inl (dropped key value rfl))
    · exact .inr (.inr ((store_other _ _ equal).trans stored))

theorem performed_stays (valid : PutsStay d s) {j : Nat} {event : Event Reply} {shared : Shared}
    (effect : Effect s.shared event shared) (careful : DeletesExpired d s (.perform j event))
    (dropped : ∀ key value, event = ⟨.compactionDrop key value,()⟩ → Stale d value s.shared.clock)
    (threads : List (Thread Reply Panic ServerError Answer Request)) :
    PutsStay d ⟨shared,threads,s.log ++ [(j,event)]⟩ := by
  intro before i key value after logged
  have now : shared.clock = s.shared.clock := effect.clock
  rw [now]
  rcases split_last logged with ⟨-,new,-⟩ | ⟨tail,rfl,split⟩
  · simp only [Prod.mk.injEq] at new
    obtain ⟨rfl,rfl⟩ := new
    cases effect with
    | put => exact .inr (.inr (store_same _ _ _))
  · rcases valid before i key value tail split with ⟨k,newer,put⟩ | stale | stored
    · exact .inl ⟨k,newer,List.mem_append_left _ put⟩
    · exact .inr (.inl stale)
    · rcases entry_stays effect careful dropped stored with ⟨newer,rfl⟩ | rest
      · exact .inl ⟨j,newer,by simp⟩
      · exact .inr rest

theorem put_survives (onward : ∀ s act, meets s act → Onward s act)
    (deletes : ∀ s act next, Reached (server d) meets origin s → meets s act →
      Step (server d) s act next → DeletesExpired d s act)
    (path : Reached (server d) meets origin s) : PutsStay d s := by
  induction path with
  | start => simp [PutsStay,Pool.start]
  | @step s act next prior met step ih =>
    have careful := deletes s act next prior met step
    cases step with
    | arrive => exact ih
    | surroundings moved =>
      cases moved
      intro before i key value after logged
      rcases ih before i key value after logged with newer | stale | stored
      · exact .inl newer
      · exact .inr (.inl (stale.later (onward _ _ met)))
      · exact .inr (.inr stored)
    | @perform _ j request op rest reply shared running answered =>
      apply performed_stays ih (answer_effect answered) careful
      intro key value same
      exact drop_stale onward prior (same ▸ Step.perform running answered)

theorem reads_stored (codec : d.crates.RoundTrips) {s : Shared} {addrStr : String} {addr : Address} {metadata : AddressMetadata}
    {payload : Payload} (addressed : d.crates.decodeAddress addrStr = .ok addr)
    (decoded : d.crates.decodePayload metadata.serializedPayload = some payload)
    (unexpired : expiredAt d payload s.clock = some false) (stored : s.db addr.body = some (d.crates.encodeMetadata metadata)) :
    StillRead d s addrStr metadata := by
  have found : lookup d (s.db addr.body) s.clock = .current metadata payload := by
    simp [lookup,stored,codec metadata,decoded,unexpired]
  have outcome := (@run_get false d {clock := fun _ => s.clock} (s,0) addr).1
  simp only [found,getOutcome,Lookup.result] at outcome
  have answered := (@run_getKey false d {clock := fun _ => s.clock} (s,0) addrStr addr addressed).1
  rw [outcome] at answered
  simp only [StillRead,visit,handle,run_map,answered]
  rfl

theorem undisturbed_keeps (codec : d.crates.RoundTrips)
    (path : Reached (server d) (fun s act => Onward s act ∧ Undisturbed d s act) (Shared.empty clock) s) :
    (∀ act next, Undisturbed d s act → Step (server d) s act next → DeletesExpired d s act) ∧ KeepsAccepted d s := by
  refine ⟨fun act next met step => undisturbed_deletes (fun _ _ met => met.1) path step met,?_⟩
  intro i request addrStr body resp found puts status
  have ended := reached_follows (handle_follows d) path found
  rw [follows_done] at ended
  obtain ⟨addr,metadata,payload,before,admitted,past⟩ := ended.written addrStr body resp puts rfl status
  refine ⟨addr,metadata,payload,admitted,?_⟩
  have logged : (i,⟨.dbPut addr.body (d.crates.encodeMetadata metadata),.ok ()⟩) ∈ s.log := by
    rw [← mem_history,past]
    simp
  obtain ⟨early,late,split⟩ := List.append_of_mem logged
  have survives := put_survives (fun _ _ met => met.1)
    (fun s act next prior met step => undisturbed_deletes (fun _ _ met => met.1) prior step met.2) path early i addr.body _ late split
  rcases survives with ⟨j,newer,put⟩ | stale | stored
  · exact .inl ⟨early,late,j,newer,split,put⟩
  · refine .inr (.inl ?_)
    have expired : expiredAt d payload s.shared.clock = some true := by
      simpa [Stale,storedPayload,codec metadata,admitted.attested.payload] using stale
    simp [expired]
  · by_cases unexpired : expiredAt d payload s.shared.clock = some false
    · exact .inr (.inr (reads_stored codec admitted.addressed admitted.attested.payload unexpired stored))
    · exact .inr (.inl unexpired)

-- Two readers of one expired entry: both may delete, and nobody has put since.
def quiet (s : ServerPool) (act : Act Reply Request Clock) : Bool :=
  Onward s act && match act with
    | .perform i ⟨.dbDelete key,.ok ()⟩ => (putsSince i key s.log).isEmpty
    | _ => true

theorem quiet_undisturbed (s : ServerPool) (act : Act Reply Request Clock) (passed : quiet s act = true) :
    Onward s act ∧ Undisturbed d s act := by
  obtain ⟨onward,calm⟩ := Bool.and_eq_true_iff.mp passed
  refine ⟨of_decide_eq_true onward,?_⟩
  unfold Undisturbed
  split
  · intro raw member
    rw [List.isEmpty_iff.mp calm] at member
    cases member
  · trivial

theorem kept_sample : ∃ s : ServerPool, s.returned 3 = some (.http {status := .ok}) ∧
    s.shared.db ownerHash = some (body 1 late) ∧ KeepsAccepted (deployment false) s := by
  have done : ((server (deployment false)).drive (reply calm) quiet
      [.surroundings (clockAt 100),.arrive (putOwner early),.thread 0,.thread 0,.surroundings (clockAt 111),
        .arrive (.getKey ownerAddress),.arrive (.getKey ownerAddress),.thread 1,.thread 2,.thread 1,.thread 2,.thread 2,
        .thread 1,.arrive (putOwner late),.thread 3,.thread 3] (.start (Shared.empty epoch))).any (fun s =>
      s.returned 3 = some (.http {status := .ok}) && s.shared.db ownerHash = some (body 1 late)) = true := by
    decide +kernel
  obtain ⟨s,driven,facts⟩ := (Option.any_eq_true _ _).mp done
  simp only [Bool.and_eq_true,decide_eq_true_eq] at facts
  exact ⟨s,facts.1,facts.2,
    (undisturbed_keeps (WireMessages.onWire_roundTrips _) (drive_reached quiet_undisturbed .start driven)).2⟩

-- The same with the put before the delete: the reader of the expired entry
-- removes the fresh metadata that its owner was told is stored.
theorem deletes_fresh : ∃ (s next : ServerPool) (act : Act Reply Request Clock),
    Reached (server (deployment false)) Onward (Shared.empty epoch) s ∧
      Step (server (deployment false)) s act next ∧ ¬ DeletesExpired (deployment false) s act ∧
      s.returned 2 = some (.http {status := .ok}) ∧ next.shared.db ownerHash = none := by
  have done : ((server (deployment false)).drive (reply calm) (fun s act => Onward s act)
      [.surroundings (clockAt 100),.arrive (putOwner early),.thread 0,.thread 0,.surroundings (clockAt 111),
        .arrive (.getKey ownerAddress),.thread 1,.thread 1,.arrive (putOwner late),.thread 2,.thread 2,.thread 2,
        .thread 2] (.start (Shared.empty epoch))).any (fun s =>
      s.nextOp 1 = some (.dbDelete ownerHash) && s.shared.db ownerHash = some (body 1 late) &&
      s.shared.clock = clockAt 111 && s.returned 2 = some (.http {status := .ok})) = true := by decide +kernel
  obtain ⟨s,driven,facts⟩ := (Option.any_eq_true _ _).mp done
  simp only [Bool.and_eq_true,decide_eq_true_eq] at facts
  obtain ⟨⟨⟨stands,stored⟩,time⟩,accepted⟩ := facts
  obtain ⟨next,step,removed⟩ := @nextOp_step _ _ _ _ _ _ _ _ (server (deployment false)) s 1 (.dbDelete ownerHash) (.ok ())
    (s.shared.store ownerHash none) stands rfl
  refine ⟨s,next,_,drive_reached (fun _ _ => of_decide_eq_true) .start driven,step,?_,accepted,by rw [removed,store_same]⟩
  intro expired
  have stale := expired (body 1 late) stored
  rw [time] at stale
  revert stale
  decide +kernel

end Keyserver.LazyDeletion
