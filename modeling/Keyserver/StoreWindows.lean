import Keyserver.ServerProtocol

namespace Keyserver.StoreWindows
open SharedPrograms SharedPools KeyDb KeyProtocol ServerProtocol

-- What a thread's own operations last told it about a key.
def observe (key : Bytes) (known : Option (Option Bytes)) (event : Event Reply) : Option (Option Bytes) :=
  match event with
  | ⟨.dbGet other,.ok value⟩ => if other = key then some value else known
  | ⟨.dbDelete other,.ok ()⟩ => if other = key then some none else known
  | _ => known

def lastKnown (key : Bytes) (past : Past) : Option (Option Bytes) := past.foldl (observe key) none

-- The values put under a key by anybody since thread `i` last read it.
def track (i : Nat) (key : Bytes) (puts : List Bytes) (entry : Nat × Event Reply) : List Bytes :=
  match entry with
  | (j,⟨.dbGet other,.ok _⟩) => if j = i ∧ other = key then [] else puts
  | (_,⟨.dbPut other value,.ok ()⟩) => if other = key then puts ++ [value] else puts
  | _ => puts

def putsSince (i : Nat) (key : Bytes) (log : Log) : List Bytes := log.foldl (track i key) []

@[simp] theorem lastKnown_append (key : Bytes) (past : Past) (event : Event Reply) :
    lastKnown key (past ++ [event]) = observe key (lastKnown key past) event := by
  simp [lastKnown]

@[simp] theorem putsSince_append (i : Nat) (key : Bytes) (log : Log) (entry : Nat × Event Reply) :
    putsSince i key (log ++ [entry]) = track i key (putsSince i key log) entry := by
  simp [putsSince]

variable {d : Deployment} {meets : ServerPool → Act Reply Request Clock → Prop} {origin : Shared} {s next : ServerPool}
  {act : Act Reply Request Clock}

-- What is stored under a key is what a thread knows of it, or was put since it read.
def Window (s : ServerPool) : Prop :=
  ∀ i key found raw, lastKnown key (history s.log i) = some found → s.shared.db key = some raw →
    raw ∈ putsSince i key s.log ∨ found = some raw

theorem window_step (valid : Window s) {j : Nat} {event : Event Reply} {shared : Shared} (effect : Effect s.shared event shared)
    (i : Nat) (key : Bytes) (found : Option Bytes) (raw : Bytes)
    (read : lastKnown key (history (s.log ++ [(j,event)]) i) = some found) (stored : shared.db key = some raw) :
    raw ∈ putsSince i key (s.log ++ [(j,event)]) ∨ found = some raw := by
  have other : ∀ {event}, (∀ found, observe key found event = found) →
      lastKnown key (history (s.log ++ [(j,event)]) i) = lastKnown key (history s.log i) := by
    intro event silent
    by_cases same : j = i
    · subst same
      simp [silent]
    · simp [history_other same]
  rw [putsSince_append]
  cases effect with
  | @read k =>
    by_cases mine : j = i ∧ k = key
    · obtain ⟨rfl,rfl⟩ := mine
      simp only [history_append,history_same,lastKnown_append,observe,if_true,Option.some.injEq] at read
      exact .inr (read.symm.trans stored)
    · have unread : lastKnown key (history (s.log ++ [(j,⟨.dbGet k,.ok (s.shared.db k)⟩)]) i) =
          lastKnown key (history s.log i) := by
        by_cases same : j = i
        · subst same
          have differs : k ≠ key := fun equal => mine ⟨rfl,equal⟩
          simp [observe,differs]
        · simp [history_other same]
      rw [unread] at read
      simpa [track,mine] using valid i key found raw read stored
  | @put k value =>
    rw [other (fun _ => rfl)] at read
    by_cases same : k = key
    · subst same
      rw [store_same] at stored
      simp [track,Option.some.inj stored]
    · rw [store_other _ _ (Ne.symm same)] at stored
      simpa [track,same] using valid i key found raw read stored
  | @delete k =>
    by_cases same : k = key
    · subst same
      simp at stored
    · rw [other fun known => by simp [observe,same]] at read
      rw [store_other _ _ (Ne.symm same)] at stored
      exact valid i key found raw read stored
  | @compactionDrop k value current =>
    rw [other (fun _ => rfl)] at read
    by_cases same : k = key
    · subst same
      simp at stored
    · rw [store_other _ _ (Ne.symm same)] at stored
      exact valid i key found raw read stored
  | _ =>
    rw [other (fun _ => rfl)] at read
    exact valid i key found raw read stored

theorem reached_window (path : Reached (server d) meets origin s) : Window s := by
  refine path.invariant Window (fun i key found raw read stored => by cases read) ?_
  intro s act next prior valid met step
  cases step with
  | arrive => exact valid
  | surroundings moved =>
    cases moved
    exact valid
  | perform running answered => exact window_step valid (answer_effect answered)

def Onward (s : ServerPool) : Act Reply Request Clock → Prop
  | .surroundings clock => s.shared.clock ≤ clock
  | _ => True

instance (s : ServerPool) : (act : Act Reply Request Clock) → Decidable (Onward s act)
  | .arrive _ => .isTrue trivial
  | .perform _ _ => .isTrue trivial
  | .surroundings clock => inferInstanceAs (Decidable (s.shared.clock ≤ clock))

theorem reached_clock (onward : ∀ s act, meets s act → Onward s act) (path : Reached (server d) meets origin s) :
    ∀ i time, (i,⟨.now,time⟩) ∈ s.log → time ≤ s.shared.clock := by
  induction path with
  | start => simp [Pool.start]
  | @step s act next prior met step ih =>
    intro i time logged
    cases step with
    | arrive => exact ih i time logged
    | surroundings moved =>
      cases moved
      exact Clock.le_trans (ih i time logged) (onward _ _ met)
    | @perform _ j request op rest reply shared running answered =>
      have kept : shared.clock = s.shared.clock := (answer_effect answered).clock
      rw [kept]
      rcases List.mem_append.mp logged with old | new
      · exact ih i time old
      · cases List.mem_singleton.mp new
        rw [(answer_now answered).1]
        exact Clock.le_refl _

-- The state a lazy delete meets: what it removes is expired or was put since
-- the thread's reading.
theorem delete_meets (onward : ∀ s act, meets s act → Onward s act)
    (path : Reached (server d) meets origin s) {i : Nat} {key raw : Bytes}
    (step : Step (server d) s (.perform i ⟨.dbDelete key,.ok ()⟩) next) (stored : s.shared.db key = some raw) :
    raw ∈ putsSince i key s.log ∨ Stale d raw s.shared.clock := by
  cases step with
  | @perform _ _ request op rest reply shared running answered =>
    obtain ⟨before,old,time,stale,past⟩ := permits_delete (reached_follows (handle_follows d) path running).1
    have read : lastKnown key (history s.log i) = some (some old) := by
      rw [past,lastKnown_append,lastKnown_append]
      simp [observe]
    rcases reached_window path i key (some old) raw read stored with put | same
    · exact .inl put
    · cases same
      have logged : (i,⟨.now,time⟩) ∈ s.log := by
        rw [← mem_history,past]
        simp
      exact .inr (stale.later (reached_clock onward path i time logged))

theorem drop_stale (onward : ∀ s act, meets s act → Onward s act)
    (path : Reached (server d) meets origin s) {i : Nat} {key value : Bytes}
    (step : Step (server d) s (.perform i ⟨.compactionDrop key value,()⟩) next) : Stale d value s.shared.clock := by
  cases step with
  | @perform _ _ request op rest reply shared running answered =>
    obtain ⟨before,time,stale,past⟩ := permits_drop (reached_follows (handle_follows d) path running).1
    have logged : (i,⟨.now,time⟩) ∈ s.log := by
      rw [← mem_history,past]
      simp
    exact stale.later (reached_clock onward path i time logged)

-- The state an accepted put meets: what it replaces was put since the thread's
-- reading, or has no larger timestamp.
theorem put_meets (codec : d.crates.RoundTrips) (path : Reached (server d) meets origin s) {i : Nat}
    {key value raw : Bytes} {old new : Payload} (step : Step (server d) s (.perform i ⟨.dbPut key value,.ok ()⟩) next)
    (stored : s.shared.db key = some raw) (before : storedPayload d raw = some old) (after : storedPayload d value = some new) :
    raw ∈ putsSince i key s.log ∨ ¬ new.timestamp < old.timestamp := by
  cases step with
  | @perform _ _ request op rest reply shared running answered =>
    obtain ⟨metadata,payload,attested,rfl,cleared⟩ := permits_put (reached_follows (handle_follows d) path running).1
    have same : payload = new := by
      simpa [storedPayload,codec metadata,attested.payload] using after
    subst same
    generalize past : history s.log i = done at cleared
    have window := reached_window path i key
    rw [past] at window
    cases cleared with
    | absent =>
      refine .inl ((window none raw ?_ stored).resolve_right (Option.some_ne_none raw).symm)
      rw [lastKnown_append]
      simp [observe]
    | lapsed stale =>
      -- The thread has deleted what it read.
      refine .inl ((window none raw ?_ stored).resolve_right (Option.some_ne_none raw).symm)
      rw [lastKnown_append]
      simp [observe]
    | @newer found recorded first second beforehand decoded order unexpired fresh =>
      have known : lastKnown key (beforehand ++ [⟨.dbGet key,.ok (some found)⟩] ++ [⟨.now,first⟩] ++ [⟨.now,second⟩]) =
          some (some found) := by
        rw [lastKnown_append,lastKnown_append,lastKnown_append]
        simp [observe]
      rcases window (some found) raw known stored with put | same
      · exact .inl put
      · cases same
        obtain rfl := Option.some.inj (decoded.symm.trans before)
        exact .inr order

end Keyserver.StoreWindows
