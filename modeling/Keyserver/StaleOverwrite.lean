import Keyserver.StoreWindows
import Keyserver.SampleDeployment

namespace Keyserver.StaleOverwrite
open SharedPrograms SharedPools KeyDb KeyProtocol ServerProtocol StoreWindows SoloRuns SampleDeployment

-- `new` may take the place of `old` at this time: the old metadata is expired, or
-- the new payload is not older.
def MayReplace (d : Deployment) (time : Clock) (old new : Bytes) : Prop :=
  Stale d old time ∨ ∀ oldPayload newPayload, storedPayload d old = some oldPayload → storedPayload d new = some newPayload →
    ¬ newPayload.timestamp < oldPayload.timestamp

def PutsNewer (d : Deployment) (s : ServerPool) : Act Reply Request Clock → Prop
  | .perform _ ⟨.dbPut key new,.ok ()⟩ => ∀ old, s.shared.db key = some old → MayReplace d s.shared.clock old new
  | _ => True

-- All that was put under the key since the writer's check may be replaced by
-- what it writes.
def Unraced (d : Deployment) (s : ServerPool) : Act Reply Request Clock → Prop
  | .perform i ⟨.dbPut key new,.ok ()⟩ => ∀ old ∈ putsSince i key s.log, MayReplace d s.shared.clock old new
  | _ => True

variable {d : Deployment} {meets : ServerPool → Act Reply Request Clock → Prop} {clock : Clock} {s next : ServerPool}
  {act : Act Reply Request Clock}

theorem unraced_puts (codec : d.crates.RoundTrips) (path : Reached (server d) meets (Shared.empty clock) s)
    (step : Step (server d) s act next) (met : Unraced d s act) : PutsNewer d s act := by
  unfold PutsNewer
  split
  · rename_i i key new
    intro old stored
    by_cases put : old ∈ putsSince i key s.log
    · exact met old put
    · right
      intro oldPayload newPayload before after
      exact (put_meets codec path step stored before after).resolve_left put
  · trivial

-- In every run whose puts are all unraced, no put is a stale overwrite.
theorem unraced_newer (codec : d.crates.RoundTrips) (path : Reached (server d) (Unraced d) (Shared.empty clock) s)
    (met : Unraced d s act) (step : Step (server d) s act next) : PutsNewer d s act :=
  unraced_puts codec path step met

def calmWrites (s : ServerPool) : Act Reply Request Clock → Bool
  | .perform i ⟨.dbPut key _,.ok ()⟩ => (putsSince i key s.log).isEmpty
  | _ => true

theorem calmWrites_unraced (s : ServerPool) (act : Act Reply Request Clock) (passed : calmWrites s act = true) :
    Unraced d s act := by
  unfold Unraced
  split
  · rename_i i key new
    intro old member
    have empty : putsSince i key s.log = [] := by simpa [calmWrites] using passed
    rw [empty] at member
    cases member
  · trivial

theorem late_replaces_early : ∃ s next : ServerPool, s.shared.db ownerHash = some (body 1 early) ∧
    next.shared.db ownerHash = some (body 1 late) ∧
      PutsNewer (deployment false) s (.perform 1 ⟨.dbPut ownerHash (body 1 late),.ok ()⟩) := by
  have done : ((server (deployment false)).drive (reply calm) calmWrites
      [.surroundings (clockAt 100),.arrive (putOwner early),.arrive (putOwner late),.thread 0,.thread 0,.thread 1,.thread 1,
        .thread 1] (.start (Shared.empty epoch))).any (fun s =>
      s.nextOp 1 = some (.dbPut ownerHash (body 1 late)) && s.shared.db ownerHash = some (body 1 early) &&
        (putsSince 1 ownerHash s.log).isEmpty) = true := by decide +kernel
  obtain ⟨s,driven,facts⟩ := (Option.any_eq_true _ _).mp done
  simp only [Bool.and_eq_true,decide_eq_true_eq] at facts
  obtain ⟨⟨stands,stored⟩,empty⟩ := facts
  obtain ⟨next,step,written⟩ := @nextOp_step _ _ _ _ _ _ _ _ (server (deployment false)) s 1
    (.dbPut ownerHash (body 1 late)) (.ok ()) (s.shared.store ownerHash (some (body 1 late))) stands rfl
  exact ⟨s,next,stored,by rw [written,store_same],unraced_newer (WireMessages.onWire_roundTrips _)
    (drive_reached calmWrites_unraced .start driven) (calmWrites_unraced s _ empty) step⟩

-- Both writers check an empty store; the older metadata is put last.
theorem long_overwrites_late : ∃ (s next : ServerPool) (act : Act Reply Request Clock),
    Reached (server (deployment false)) (fun _ _ => True) (Shared.empty epoch) s ∧
      Step (server (deployment false)) s act next ∧ ¬ PutsNewer (deployment false) s act := by
  have done : (driven (deployment false)
      [.surroundings (clockAt 200),.arrive (putOwner late),.arrive (putOwner long),.thread 0,.thread 1,.thread 0]).any (fun s =>
      s.nextOp 1 = some (.dbPut ownerHash (body 1 long)) && s.shared.db ownerHash = some (body 1 late) &&
        s.shared.clock = clockAt 200) = true := by decide +kernel
  obtain ⟨s,reached,facts⟩ := (Option.any_eq_true _ _).mp done
  simp only [Bool.and_eq_true,decide_eq_true_eq] at facts
  obtain ⟨⟨stands,stored⟩,time⟩ := facts
  obtain ⟨next,step,-⟩ := @nextOp_step _ _ _ _ _ _ _ _ (server (deployment false)) s 1
    (.dbPut ownerHash (body 1 long)) (.ok ()) (s.shared.store ownerHash (some (body 1 long))) stands rfl
  refine ⟨s,next,_,driven_reached reached,step,?_⟩
  intro newer
  have unexpired : ¬ Stale (deployment false) (body 1 late) (clockAt 200) := by decide +kernel
  have before : storedPayload (deployment false) (body 1 late) = some late.payload := by decide +kernel
  have after : storedPayload (deployment false) (body 1 long) = some long.payload := by decide +kernel
  rcases newer (body 1 late) stored with stale | order
  · exact unexpired (time ▸ stale)
  · exact order _ _ before after (by decide +kernel)

end Keyserver.StaleOverwrite
