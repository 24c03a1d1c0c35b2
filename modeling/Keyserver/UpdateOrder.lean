import Keyserver.LazyDeletion
import Keyserver.StaleOverwrite

namespace Keyserver.UpdateOrder
open SharedPrograms SharedPools KeyDb KeyProtocol ServerProtocol StoreWindows LazyDeletion StaleOverwrite SoloRuns SampleDeployment

variable {d : Deployment} {clock : Clock} {s next : ServerPool} {act : Act Reply Request Clock}

-- A thread alone at work meets no put but its own since it read.
theorem window_own {i : Nat} {key : Bytes} {found : Option Bytes} (earlier : Log) (before tail : Past)
    (silent : ∀ event ∈ tail, ∀ other value, event ≠ ⟨.dbPut other value,.ok ()⟩) :
    putsSince i key (earlier ++ (before ++ (⟨.dbGet key,.ok found⟩ : Event Reply) :: tail).map (Prod.mk i)) = [] := by
  induction tail using List.reverseRecOn with
  | nil =>
    have grown : earlier ++ (before ++ [(⟨.dbGet key,.ok found⟩ : Event Reply)]).map (Prod.mk i) =
        (earlier ++ before.map (Prod.mk i)) ++ [(i,⟨.dbGet key,.ok found⟩)] := by simp
    rw [grown,putsSince_append]
    simp [track]
  | append_singleton tail last ih =>
    have grown : earlier ++ (before ++ (⟨.dbGet key,.ok found⟩ : Event Reply) :: (tail ++ [last])).map (Prod.mk i) =
        (earlier ++ (before ++ (⟨.dbGet key,.ok found⟩ : Event Reply) :: tail).map (Prod.mk i)) ++ [(i,last)] := by simp
    rw [grown,putsSince_append,ih fun event member => silent event (List.mem_append_left _ member)]
    unfold track
    split
    · simp
    · rename_i other value same
      cases same
      exact absurd rfl (silent _ (List.mem_append_right _ (List.mem_singleton.mpr rfl)) _ _)
    · rfl

theorem sequential_delete (path : Reached (server d) Sequential (Shared.empty clock) s) {i : Nat} {key : Bytes}
    (step : Step (server d) s (.perform i ⟨.dbDelete key,.ok ()⟩) next) : putsSince i key s.log = [] := by
  cases step with
  | @perform _ _ request op rest reply shared running answered =>
    obtain ⟨before,raw,time,stale,past⟩ := permits_delete (reached_follows (handle_follows d) path running).1
    obtain ⟨-,earlier,log⟩ := sequential_last path i request _ rest running
    have window := @window_own i key (some raw) earlier before [⟨.now,time⟩] (by simp)
    rw [log,past]
    simpa using window

theorem sequential_put (path : Reached (server d) Sequential (Shared.empty clock) s) {i : Nat} {key value : Bytes}
    (step : Step (server d) s (.perform i ⟨.dbPut key value,.ok ()⟩) next) : putsSince i key s.log = [] := by
  cases step with
  | @perform _ _ request op rest reply shared running answered =>
    obtain ⟨metadata,payload,attested,encoded,cleared⟩ := permits_put (reached_follows (handle_follows d) path running).1
    obtain ⟨-,earlier,log⟩ := sequential_last path i request _ rest running
    rw [log]
    generalize history s.log i = past at cleared
    cases cleared with
    | @absent before =>
      have window := @window_own i key none earlier before [] (by simp)
      simpa using window
    | @lapsed raw time before stale =>
      have window := @window_own i key (some raw) earlier before [⟨.now,time⟩,⟨.dbDelete key,.ok ()⟩] (by simp)
      simpa using window
    | @newer raw old first second before decoded order unexpired fresh =>
      have window := @window_own i key (some raw) earlier before [⟨.now,first⟩,⟨.now,second⟩] (by simp)
      simpa using window

theorem sequential_undisturbed (path : Reached (server d) Sequential (Shared.empty clock) s)
    (step : Step (server d) s act next) : Undisturbed d s act := by
  unfold Undisturbed
  split
  · rw [sequential_delete path step]
    simp
  · trivial

theorem sequential_unraced (path : Reached (server d) Sequential (Shared.empty clock) s)
    (step : Step (server d) s act next) : Unraced d s act := by
  unfold Unraced
  split
  · rw [sequential_put path step]
    simp
  · trivial

def LastAccepted (log : Log) (key value : Bytes) : Prop :=
  ∃ before i after, log = before ++ (i,⟨.dbPut key value,.ok ()⟩) :: after ∧ ∀ j newer, (j,⟨.dbPut key newer,.ok ()⟩) ∉ after

-- Requests one after the other, by a clock that is not set back.
def Orderly (s : ServerPool) (act : Act Reply Request Clock) : Prop := Onward s act ∧ Sequential s act

theorem orderly_sequential (path : Reached (server d) Orderly (Shared.empty clock) s) :
    Reached (server d) Sequential (Shared.empty clock) s :=
  path.mono fun _ _ _ _ met _ => met.2

-- Metadata is accepted over what was accepted last only if it is not older, or
-- that has expired.
theorem sequential_order (codec : d.crates.RoundTrips) (path : Reached (server d) Orderly (Shared.empty clock) s)
    {i : Nat} {key old new : Bytes} (last : LastAccepted s.log key old)
    (step : Step (server d) s (.perform i ⟨.dbPut key new,.ok ()⟩) next) : MayReplace d s.shared.clock old new := by
  obtain ⟨before,j,after,logged,none⟩ := last
  have onward : ∀ s act, Orderly s act → Onward s act := fun _ _ met => met.1
  have deletes : ∀ s act next, Reached (server d) Orderly (Shared.empty clock) s → Orderly s act →
      Step (server d) s act next → DeletesExpired d s act := by
    intro s act next prior _ step
    exact undisturbed_deletes onward prior step (sequential_undisturbed (orderly_sequential prior) step)
  rcases put_survives onward deletes path before j key old after logged with ⟨k,newer,put⟩ | stale | stored
  · exact absurd put (none k newer)
  · exact .inl stale
  · exact unraced_puts codec path step (sequential_unraced (orderly_sequential path) step) old stored

def inTurn (s : ServerPool) (act : Act Reply Request Clock) : Bool := Onward s act && s.idle act

theorem inTurn_orderly (s : ServerPool) (act : Act Reply Request Clock) (passed : inTurn s act = true) : Orderly s act := by
  obtain ⟨onward,idle⟩ := Bool.and_eq_true_iff.mp passed
  exact ⟨of_decide_eq_true onward,idle_sequential s act idle⟩

theorem early_then_late : ∃ s : ServerPool, LastAccepted s.log ownerHash (body 1 early) ∧
    MayReplace (deployment false) s.shared.clock (body 1 early) (body 1 late) := by
  have done : ((server (deployment false)).drive (reply calm) inTurn
      [.surroundings (clockAt 100),.arrive (putOwner early),.thread 0,.thread 0,.arrive (putOwner late),.thread 1,.thread 1,
        .thread 1] (.start (Shared.empty epoch))).any (fun s =>
      s.nextOp 1 = some (.dbPut ownerHash (body 1 late)) && s.log.drop 1 = [(0,⟨.dbPut ownerHash (body 1 early),.ok ()⟩),
        (1,⟨.dbGet ownerHash,.ok (some (body 1 early))⟩),(1,⟨.now,clockAt 100⟩),(1,⟨.now,clockAt 100⟩)]) = true := by
    decide +kernel
  obtain ⟨s,driven,facts⟩ := (Option.any_eq_true _ _).mp done
  simp only [Bool.and_eq_true,decide_eq_true_eq] at facts
  obtain ⟨stands,log⟩ := facts
  obtain ⟨next,step,-⟩ := @nextOp_step _ _ _ _ _ _ _ _ (server (deployment false)) s 1
    (.dbPut ownerHash (body 1 late)) (.ok ()) (s.shared.store ownerHash (some (body 1 late))) stands rfl
  have last : LastAccepted s.log ownerHash (body 1 early) := by
    have whole := (List.take_append_drop 1 s.log).symm
    rw [log] at whole
    exact ⟨_,0,_,whole,by simp⟩
  exact ⟨s,last,sequential_order (WireMessages.onWire_roundTrips _) (drive_reached inTurn_orderly .start driven) last step⟩

-- No metadata follows newer metadata, expired or not.
def NeverRollsBack (d : Deployment) (log : Log) : Prop :=
  ∀ before i key old middle j new after oldPayload newPayload,
    log = before ++ (i,⟨.dbPut key old,.ok ()⟩) :: middle ++ (j,⟨.dbPut key new,.ok ()⟩) :: after →
      storedPayload d old = some oldPayload → storedPayload d new = some newPayload →
        ¬ newPayload.timestamp < oldPayload.timestamp

-- The late metadata expires and a reader deletes it; then the long-lived one,
-- signed for an earlier time, is accepted.
theorem long_follows_late : ∃ s : ServerPool,
    Reached (server (deployment false)) Orderly (Shared.empty epoch) s ∧ ¬ NeverRollsBack (deployment false) s.log := by
  have done : ((server (deployment false)).drive (reply calm) inTurn
      [.surroundings (clockAt 200),.arrive (putOwner late),.thread 0,.thread 0,.surroundings (clockAt 1201),
        .arrive (.getKey ownerAddress),.thread 1,.thread 1,.thread 1,.arrive (putOwner long),.thread 2,.thread 2]
      (.start (Shared.empty epoch))).any (fun s =>
      s.log = [(0,⟨.dbGet ownerHash,.ok none⟩),(0,⟨.dbPut ownerHash (body 1 late),.ok ()⟩),
        (1,⟨.dbGet ownerHash,.ok (some (body 1 late))⟩),(1,⟨.now,clockAt 1201⟩),(1,⟨.dbDelete ownerHash,.ok ()⟩),
        (2,⟨.dbGet ownerHash,.ok none⟩),(2,⟨.dbPut ownerHash (body 1 long),.ok ()⟩)]) = true := by decide +kernel
  obtain ⟨s,driven,facts⟩ := (Option.any_eq_true _ _).mp done
  have log := of_decide_eq_true facts
  refine ⟨s,drive_reached inTurn_orderly .start driven,?_⟩
  intro never
  have before : storedPayload (deployment false) (body 1 late) = some late.payload := by decide +kernel
  have after : storedPayload (deployment false) (body 1 long) = some long.payload := by decide +kernel
  refine never [(0,⟨.dbGet ownerHash,.ok none⟩)] 0 ownerHash (body 1 late) [(1,⟨.dbGet ownerHash,.ok (some (body 1 late))⟩),
    (1,⟨.now,clockAt 1201⟩),(1,⟨.dbDelete ownerHash,.ok ()⟩),(2,⟨.dbGet ownerHash,.ok none⟩)] 2 (body 1 long) []
    late.payload long.payload log before after ?_
  decide +kernel

end Keyserver.UpdateOrder
