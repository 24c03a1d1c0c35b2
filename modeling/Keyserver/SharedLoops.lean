import Mathlib.Logic.Function.Basic
import Keyserver.SharedLocks

namespace SharedLoops
open SharedPrograms SharedPrograms.Program SharedPools SharedLocks

variable {Op : Type} {Reply : Op → Type} {Fault Error α σ Request Nature : Type}

-- Serves one request after the other and drops what they return, as `for_each` does.
def forEach (serve : Request → Program Reply Fault Error α) : List Request → Program Reply Fault Error Unit
  | [] => .done ()
  | request :: rest => serve request >>= fun _ => forEach serve rest

inductive Job (Request : Type) where
  | one (request : Request)
  | loop (requests : List Request)

-- The machine on which loops run beside single requests.
def looping (m : Machine Reply Fault Error α σ Request Nature) : Machine Reply Fault Error (Option α) σ (Job Request) Nature where
  serve
    | .one request => some <$> m.serve request
    | .loop requests => (fun _ => none) <$> forEach m.serve requests
  answer := m.answer
  surroundings := m.surroundings

variable {m : Machine Reply Fault Error α σ Request Nature} {origin : σ}

-- Where a loop stands: it serves the request of thread `k`, and more of its own after.
def Goes (m : Machine Reply Fault Error α σ Request Nature) (t : Pool Reply Fault Error α σ Request) (requests : List Request)
    (program : Program Reply Fault Error Unit) (k : Nat) : Prop :=
  ∃ request op next later, request ∈ requests ∧ (∀ other ∈ later, other ∈ requests) ∧
    t.threads[k]? = some ⟨request,.call op next⟩ ∧ program = .call op fun reply => next reply >>= fun _ => forEach m.serve later

-- A job that the request is, or that gets to it.
def Sourced (jobs : List (Job Request)) (request : Request) : Prop :=
  .one request ∈ jobs ∨ ∃ requests, .loop requests ∈ jobs ∧ request ∈ requests

-- A pool with loops against one in which every request of a loop has a thread of its
-- own. `place` is the thread that a job is served by.
structure Mirrors (m : Machine Reply Fault Error α σ Request Nature) (s : Pool Reply Fault Error (Option α) σ (Job Request))
    (t : Pool Reply Fault Error α σ Request) (place : Nat → Option Nat) : Prop where
  shared : t.shared = s.shared
  events : t.log.map Prod.snd = s.log.map Prod.snd
  sources : ∀ request ∈ t.requests, Sourced s.requests request
  apart : ∀ i j k, place i = some k → place j = some k → i = j
  inside : ∀ i k, place i = some k → i < s.threads.length ∧ k < t.threads.length
  one : ∀ (i : Nat) request program, s.threads[i]? = some ⟨.one request,program⟩ →
    ∃ k current, place i = some k ∧ t.threads[k]? = some ⟨request,current⟩ ∧ program = some <$> current
  loop : ∀ (i : Nat) requests program, s.threads[i]? = some ⟨.loop requests,program⟩ → ¬ Finished program →
    ∃ k body, place i = some k ∧ program = (fun _ => none) <$> body ∧ Goes m t requests body k

-- The requests of a loop that do nothing are passed over; the first that does
-- something has its thread.
theorem forEach_arrives (requests : List Request) {t : Pool Reply Fault Error α σ Request}
    (path : Reached m (fun _ _ => True) origin t) : ∃ later extra, Reached m (fun _ _ => True) origin later ∧
      later.shared = t.shared ∧ later.log = t.log ∧ later.threads = t.threads ++ extra ∧
      (∀ thread ∈ extra, thread.request ∈ requests) ∧
      (Finished (forEach m.serve requests) ∨ ∃ k, t.threads.length ≤ k ∧ Goes m later requests (forEach m.serve requests) k) := by
  induction requests generalizing t with
  | nil =>
    refine ⟨t,[],path,rfl,rfl,by simp,by simp,.inl ?_⟩
    intro op next same
    cases same
  | cons request rest ih =>
    have arrived : Reached m (fun _ _ => True) origin {t with threads := t.threads ++ [⟨request,m.serve request⟩]} :=
      .step path trivial .arrive
    cases served : m.serve request with
    | done value =>
      rw [served] at arrived
      obtain ⟨later,extra,reached,shared,log,threads,listed,stands⟩ := ih arrived
      refine ⟨later,⟨request,.done value⟩ :: extra,reached,shared,log,by simpa using threads,?_,?_⟩
      · intro thread member
        rcases List.mem_cons.mp member with rfl | member
        · exact List.mem_cons_self
        · exact List.mem_cons_of_mem _ (listed thread member)
      · simp only [forEach,served,done_bind]
        refine stands.imp id ?_
        intro given
        obtain ⟨k,fresh,other,op,next,after,named,within,found,same⟩ := given
        refine ⟨k,?_,other,op,next,after,List.mem_cons_of_mem _ named,?_,found,same⟩
        rotate_left
        · intro x member
          exact List.mem_cons_of_mem _ (within x member)
        simp only [List.length_append,List.length_singleton] at fresh
        omega
    | throw err =>
      refine ⟨_,[⟨request,m.serve request⟩],arrived,rfl,rfl,rfl,by simp,.inl ?_⟩
      simp only [forEach,served,throw_bind]
      intro op next same
      cases same
    | panic fault =>
      refine ⟨_,[⟨request,m.serve request⟩],arrived,rfl,rfl,rfl,by simp,.inl ?_⟩
      simp only [forEach,served,panic_bind]
      intro op next same
      cases same
    | call op next =>
      refine ⟨_,[⟨request,m.serve request⟩],arrived,rfl,rfl,rfl,by simp,.inr ⟨t.threads.length,Nat.le_refl _,?_⟩⟩
      refine ⟨request,op,next,rest,List.mem_cons_self,fun x member => List.mem_cons_of_mem _ member,by simp [served],?_⟩
      simp only [forEach,served,call_bind]

-- One job has arrived or moved; its thread is the one it had or a new one.
theorem Mirrors.moved {s s' : Pool Reply Fault Error (Option α) σ (Job Request)} {t t' : Pool Reply Fault Error α σ Request}
    {place : Nat → Option Nat} (mirrors : Mirrors m s t place) (i : Nat) (spot : Option Nat) (shared : t'.shared = s'.shared)
    (events : t'.log.map Prod.snd = s'.log.map Prod.snd)
    (sources : ∀ request ∈ t'.requests, Sourced s'.requests request)
    (others : ∀ (j : Nat) thread, j ≠ i → s'.threads[j]? = some thread → s.threads[j]? = some thread)
    (longer : s.threads.length ≤ s'.threads.length) (longer' : t.threads.length ≤ t'.threads.length)
    (kept : ∀ (k : Nat) thread, t.threads[k]? = some thread → place i ≠ some k → t'.threads[k]? = some thread)
    (fresh : ∀ k, spot = some k → (place i = some k ∨ t.threads.length ≤ k) ∧ i < s'.threads.length ∧ k < t'.threads.length)
    (one : ∀ request program, s'.threads[i]? = some ⟨.one request,program⟩ →
      ∃ k current, spot = some k ∧ t'.threads[k]? = some ⟨request,current⟩ ∧ program = some <$> current)
    (loop : ∀ requests program, s'.threads[i]? = some ⟨.loop requests,program⟩ → ¬ Finished program →
      ∃ k body, spot = some k ∧ program = (fun _ => none) <$> body ∧ Goes m t' requests body k) :
    Mirrors m s' t' (Function.update place i spot) := by
  have distinct : ∀ {j k}, j ≠ i → place j = some k → spot ≠ some k := by
    intro j k different placed same
    rcases (fresh k same).1 with mine | late
    · exact different (mirrors.apart j i k placed mine)
    · have bound := (mirrors.inside j k placed).2
      omega
  have foreign : ∀ {j k}, j ≠ i → place j = some k → place i ≠ some k :=
    fun different placed mine => different (mirrors.apart _ _ _ placed mine)
  refine ⟨shared,events,sources,?_,?_,?_,?_⟩
  · intro j j' k placed placed'
    by_cases mine : j = i <;> by_cases mine' : j' = i
    · rw [mine,mine']
    · subst mine
      rw [Function.update_self] at placed
      rw [Function.update_of_ne mine'] at placed'
      exact absurd placed (distinct mine' placed')
    · subst mine'
      rw [Function.update_self] at placed'
      rw [Function.update_of_ne mine] at placed
      exact absurd placed' (distinct mine placed)
    · rw [Function.update_of_ne mine] at placed
      rw [Function.update_of_ne mine'] at placed'
      exact mirrors.apart j j' k placed placed'
  · intro j k placed
    by_cases mine : j = i
    · subst mine
      rw [Function.update_self] at placed
      exact (fresh k placed).2
    · rw [Function.update_of_ne mine] at placed
      have bounds := mirrors.inside j k placed
      omega
  · intro j request program found
    by_cases mine : j = i
    · subst mine
      rw [Function.update_self]
      exact one request program found
    · obtain ⟨k,current,placed,standing,same⟩ := mirrors.one j request program (others j _ mine found)
      rw [Function.update_of_ne mine]
      exact ⟨k,current,placed,kept k _ standing (foreign mine placed),same⟩
  · intro j requests program found busy
    by_cases mine : j = i
    · subst mine
      rw [Function.update_self]
      exact loop requests program found busy
    · obtain ⟨k,body,placed,same,request,op,next,later,named,within,standing,form⟩ :=
        mirrors.loop j requests program (others j _ mine found) busy
      rw [Function.update_of_ne mine]
      exact ⟨k,body,placed,same,request,op,next,later,named,within,kept k _ standing (foreign mine placed),form⟩

theorem finished_map {β γ : Type} {program : Program Reply Fault Error β} (ended : Finished program) (f : β → γ) :
    Finished (f <$> program) := by
  cases program with
  | call op next => exact absurd rfl (ended op next)
  | _ =>
    intro op next same
    cases same

theorem arrived_other {β : Type} {threads : List β} {new thread : β} {j : Nat} (different : j ≠ threads.length)
    (found : (threads ++ [new])[j]? = some thread) : threads[j]? = some thread := by
  have old : j < threads.length := by
    have inside := (List.getElem?_eq_some_iff.mp found).1
    simp only [List.length_append,List.length_singleton] at inside
    omega
  rwa [List.getElem?_append_left old] at found

section Steps
variable {s next : Pool Reply Fault Error (Option α) σ (Job Request)} {t : Pool Reply Fault Error α σ Request}
  {place : Nat → Option Nat}

theorem mirrors_arrive (path : Reached m (fun _ _ => True) origin t) (mirrors : Mirrors m s t place) (job : Job Request) :
    ∃ t' place', Reached m (fun _ _ => True) origin t' ∧
      Mirrors m {s with threads := s.threads ++ [⟨job,(looping m).serve job⟩]} t' place' := by
  have sources : ∀ (extra : List (Thread Reply Fault Error α Request)),
      (∀ thread ∈ extra, Sourced [job] thread.request) →
        ∀ request ∈ t.requests ++ extra.map (·.request), Sourced (s.requests ++ [job]) request := by
    intro extra listed request member
    rcases List.mem_append.mp member with old | new
    · refine (mirrors.sources request old).imp (fun known => List.mem_append_left _ known) ?_
      intro given
      obtain ⟨requests,known,inner⟩ := given
      exact ⟨requests,List.mem_append_left _ known,inner⟩
    · obtain ⟨thread,inside,rfl⟩ := List.mem_map.mp new
      refine (listed thread inside).imp (fun known => List.mem_append_right _ known) ?_
      intro given
      obtain ⟨requests,known,inner⟩ := given
      exact ⟨requests,List.mem_append_right _ known,inner⟩
  have grown : ∀ {t' : Pool Reply Fault Error α σ Request} {extra}, t'.threads = t.threads ++ extra →
      t'.requests = t.requests ++ extra.map (·.request) ∧ t.threads.length ≤ t'.threads.length ∧
        ∀ (k : Nat) thread, t.threads[k]? = some thread → t'.threads[k]? = some thread := by
    intro t' extra threads
    refine ⟨by simp [Pool.requests,threads],by simp [threads],fun k thread found => ?_⟩
    rwa [threads,List.getElem?_append_left (List.getElem?_eq_some_iff.mp found).1]
  have others : ∀ (j : Nat) thread, j ≠ s.threads.length →
      (s.threads ++ [⟨job,(looping m).serve job⟩])[j]? = some thread → s.threads[j]? = some thread :=
    fun j thread different found => arrived_other different found
  cases job with
  | one request =>
    have arrived : Reached m (fun _ _ => True) origin {t with threads := t.threads ++ [⟨request,m.serve request⟩]} :=
      .step path trivial .arrive
    refine ⟨_,_,arrived,mirrors.moved s.threads.length (some t.threads.length) mirrors.shared mirrors.events ?_ others
      (by simp) (by simp) (fun k thread found _ => (grown rfl).2.2 k thread found) (by simp) ?_ (by simp)⟩
    · rw [(grown rfl).1]
      simpa [Pool.requests,Sourced] using sources [⟨request,m.serve request⟩] (by simp [Sourced])
    · intro other program found
      simp only [List.getElem?_concat_length,Option.some.injEq] at found
      cases found
      exact ⟨_,_,rfl,by simp,rfl⟩
  | loop requests =>
    obtain ⟨later,extra,reached,shared,log,threads,listed,stands⟩ := forEach_arrives requests path
    obtain ⟨named,longer,kept⟩ := grown threads
    have sourced : ∀ request ∈ later.requests, Sourced (s.requests ++ [.loop requests]) request := by
      rw [named]
      exact sources extra fun thread member => .inr ⟨requests,by simp,listed thread member⟩
    have spot : ∃ spot : Option Nat, (∀ k, spot = some k → t.threads.length ≤ k ∧ k < later.threads.length) ∧
        (¬ Finished (forEach m.serve requests) → ∃ k, spot = some k ∧ Goes m later requests (forEach m.serve requests) k) := by
      rcases stands with ended | ⟨k,fresh,goes⟩
      · exact ⟨none,by simp,fun busy => absurd ended busy⟩
      · obtain ⟨request,op,next,rest,inner,within,standing,form⟩ := goes
        refine ⟨some k,?_,fun _ => ⟨k,rfl,request,op,next,rest,inner,within,standing,form⟩⟩
        intro k' same
        cases same
        exact ⟨fresh,(List.getElem?_eq_some_iff.mp standing).1⟩
    obtain ⟨spot,fresh,goes⟩ := spot
    refine ⟨later,_,reached,mirrors.moved s.threads.length spot (shared.trans mirrors.shared) (by rw [log]; exact mirrors.events)
      ?_ others (by simp) longer (fun k thread found _ => kept k thread found) ?_ (by simp) ?_⟩
    · simpa [Pool.requests,Sourced] using sourced
    · intro k placed
      exact ⟨.inr (fresh k placed).1,by simp,(fresh k placed).2⟩
    · intro requests' program found busy
      simp only [List.getElem?_concat_length,Option.some.injEq] at found
      cases found
      obtain ⟨k,placed,goes⟩ := goes fun ended => busy (finished_map ended _)
      exact ⟨k,_,placed,rfl,goes⟩

theorem mirrors_perform (path : Reached m (fun _ _ => True) origin t) (mirrors : Mirrors m s t place) {i : Nat} {job : Job Request}
    {op : Op} {rest : Reply op → Program Reply Fault Error (Option α)} {reply : Reply op} {shared : σ}
    (running : s.threads[i]? = some ⟨job,.call op rest⟩) (answered : m.answer s.shared op reply = some shared) :
    ∃ t' place', Reached m (fun _ _ => True) origin t' ∧
      Mirrors m ⟨shared,s.threads.set i ⟨job,rest reply⟩,s.log ++ [(i,⟨op,reply⟩)]⟩ t' place' := by
  have inside := (List.getElem?_eq_some_iff.mp running).1
  have own : (s.threads.set i ⟨job,rest reply⟩)[i]? = some ⟨job,rest reply⟩ := List.getElem?_set_self inside
  have others : ∀ (j : Nat) thread, j ≠ i → (s.threads.set i ⟨job,rest reply⟩)[j]? = some thread → s.threads[j]? = some thread := by
    intro j thread different found
    rwa [List.getElem?_set_ne different.symm] at found
  have steps : Step (looping m) s (.perform i ⟨op,reply⟩) ⟨shared,s.threads.set i ⟨job,rest reply⟩,s.log ++ [(i,⟨op,reply⟩)]⟩ :=
    .perform running answered
  have sources : ∀ request ∈ t.requests,
      Sourced (Pool.mk shared (s.threads.set i ⟨job,rest reply⟩) (s.log ++ [(i,⟨op,reply⟩)])).requests request := by
    intro request member
    rw [(step_requests steps).resolve_right (by simp)]
    exact mirrors.sources request member
  have mine : job ∈ (Pool.mk shared (s.threads.set i ⟨job,rest reply⟩) (s.log ++ [(i,⟨op,reply⟩)])).requests := by
    rw [(step_requests steps).resolve_right (by simp)]
    exact List.mem_of_getElem? (thread_request running)
  -- What the thread of the job does alike, and where it leaves the other threads.
  have performs : ∀ {k : Nat} {request : Request} {next : Reply op → Program Reply Fault Error α},
      t.threads[k]? = some ⟨request,.call op next⟩ →
        Reached m (fun _ _ => True) origin ⟨shared,t.threads.set k ⟨request,next reply⟩,t.log ++ [(k,⟨op,reply⟩)]⟩ ∧
          (Pool.mk shared (t.threads.set k ⟨request,next reply⟩) (t.log ++ [(k,⟨op,reply⟩)])).requests = t.requests := by
    intro k request next standing
    have step : Step m t (.perform k ⟨op,reply⟩) ⟨shared,t.threads.set k ⟨request,next reply⟩,t.log ++ [(k,⟨op,reply⟩)]⟩ :=
      .perform standing (by rw [mirrors.shared]; exact answered)
    exact ⟨.step path trivial step,(step_requests step).resolve_right (by simp)⟩
  have events : ∀ k, (t.log ++ [(k,Event.mk op reply)]).map Prod.snd = (s.log ++ [(i,Event.mk op reply)]).map Prod.snd := by
    intro k
    simp [mirrors.events]
  cases job with
  | one request =>
    obtain ⟨k,current,placed,standing,same⟩ := mirrors.one i request _ running
    cases current with
    | call op' next =>
      cases same
      obtain ⟨reached,requests⟩ := performs standing
      have bound := (List.getElem?_eq_some_iff.mp standing).1
      refine ⟨_,_,reached,mirrors.moved i (some k) rfl (events k) (requests ▸ sources) others (by simp) (by simp) ?_ ?_ ?_ ?_⟩
      · intro k' thread found elsewhere
        have different : k ≠ k' := fun same => elsewhere (same ▸ placed)
        rwa [List.getElem?_set_ne different]
      · intro k' same
        cases same
        exact ⟨.inl placed,by simpa using inside,by simpa using bound⟩
      · intro other program found
        rw [own] at found
        cases found
        exact ⟨k,next reply,rfl,List.getElem?_set_self bound,rfl⟩
      · intro requests' program found
        rw [own] at found
        cases found
    | _ => cases same
  | loop requests =>
    obtain ⟨k,body,placed,same,request,op',next,later,named,within,standing,rfl⟩ :=
      mirrors.loop i requests _ running (call_unfinished _ _)
    cases same
    obtain ⟨reached,known⟩ := performs standing
    have bound := (List.getElem?_eq_some_iff.mp standing).1
    have kept : ∀ (k' : Nat) thread, t.threads[k']? = some thread → place i ≠ some k' →
        (t.threads.set k ⟨request,next reply⟩)[k']? = some thread := by
      intro k' thread found elsewhere
      have different : k ≠ k' := fun same => elsewhere (same ▸ placed)
      rwa [List.getElem?_set_ne different]
    -- It goes on in its thread, or is done with the request and goes on to a later one.
    have goesOn : ∃ (t' : Pool Reply Fault Error α σ Request) (extra : List (Thread Reply Fault Error α Request)) (spot : Option Nat),
        Reached m (fun _ _ => True) origin t' ∧ t'.shared = shared ∧ t'.log = t.log ++ [(k,⟨op,reply⟩)] ∧
        t'.threads = t.threads.set k ⟨request,next reply⟩ ++ extra ∧ (∀ thread ∈ extra, thread.request ∈ later) ∧
        (∀ k', spot = some k' → (k' = k ∨ t.threads.length ≤ k') ∧ k' < t'.threads.length) ∧
        (¬ Finished (next reply >>= fun _ => forEach m.serve later) →
          ∃ k', spot = some k' ∧ Goes m t' requests (next reply >>= fun _ => forEach m.serve later) k') := by
      cases replied : next reply with
      | call op' next' =>
        rw [replied] at reached
        refine ⟨_,[],some k,reached,rfl,rfl,by simp,by simp,?_,fun _ => ⟨k,rfl,?_⟩⟩
        · intro k' same
          cases same
          exact ⟨.inl rfl,by simpa using bound⟩
        · exact ⟨request,op',next',later,named,within,List.getElem?_set_self bound,rfl⟩
      | throw err =>
        rw [replied] at reached
        exact ⟨_,[],none,reached,rfl,rfl,by simp,by simp,by simp,fun busy => absurd (by rintro op next ⟨⟩) busy⟩
      | panic fault =>
        rw [replied] at reached
        exact ⟨_,[],none,reached,rfl,rfl,by simp,by simp,by simp,fun busy => absurd (by rintro op next ⟨⟩) busy⟩
      | done value =>
        rw [replied] at reached
        obtain ⟨t',extra,reached',shared',log,threads,listed,stands⟩ := forEach_arrives later reached
        rcases stands with ended | ⟨k',fresh,other,op',next',after,named',within',standing',form⟩
        · exact ⟨t',extra,none,reached',shared',log,threads,listed,by simp,fun busy => absurd ended busy⟩
        · refine ⟨t',extra,some k',reached',shared',log,threads,listed,?_,fun _ => ⟨k',rfl,?_⟩⟩
          · intro k'' same
            cases same
            exact ⟨.inr (by simpa using fresh),(List.getElem?_eq_some_iff.mp standing').1⟩
          · exact ⟨other,op',next',after,within other named',fun x member => within x (within' x member),standing',form⟩
    obtain ⟨t',extra,spot,reached',shared',log,threads,listed,fresh,goes⟩ := goesOn
    refine ⟨t',_,reached',mirrors.moved i spot shared' (by rw [log]; exact events k) ?_ others (by simp) (by simp [threads]) ?_ ?_ ?_ ?_⟩
    · intro other member
      have split : t'.requests = t.requests ++ extra.map (·.request) := by
        rw [← known]
        simp [Pool.requests,threads]
      rw [split] at member
      rcases List.mem_append.mp member with old | new
      · exact sources other old
      · obtain ⟨thread,inner,rfl⟩ := List.mem_map.mp new
        exact .inr ⟨requests,mine,within _ (listed thread inner)⟩
    · intro k' thread found elsewhere
      rw [threads,List.getElem?_append_left (by simpa using (List.getElem?_eq_some_iff.mp found).1)]
      exact kept k' thread found elsewhere
    · intro k' same
      refine ⟨(fresh k' same).1.imp ?_ id,by simpa using inside,(fresh k' same).2⟩
      intro same
      subst same
      exact placed
    · intro other program found
      rw [own] at found
      cases found
    · intro requests' program found busy
      rw [own] at found
      cases found
      obtain ⟨k',placed',goes⟩ := goes fun ended => busy (finished_map ended _)
      exact ⟨k',_,placed',rfl,goes⟩

-- A loop adds nothing to the ways the machine goes: what runs with loops among the
-- requests does, runs with the requests of the loops arriving by themselves do.
theorem looping_mirrored {meets : Pool Reply Fault Error (Option α) σ (Job Request) → Act Reply (Job Request) Nature → Prop}
    (path : Reached (looping m) meets origin s) :
    ∃ t place, Reached m (fun _ _ => True) origin t ∧ Mirrors m s t place := by
  induction path with
  | start =>
    refine ⟨.start origin,fun _ => none,.start,rfl,rfl,?_,?_,?_,?_,?_⟩
    all_goals simp [Pool.start,Pool.requests]
  | @step s act next prior met step ih =>
    obtain ⟨t,place,reached,mirrors⟩ := ih
    cases step with
    | @arrive _ job => exact mirrors_arrive reached mirrors job
    | @perform _ i job op rest reply shared running answered => exact mirrors_perform reached mirrors running answered
    | surroundings moved =>
      exact ⟨_,place,.step reached trivial (.surroundings (mirrors.shared ▸ moved)),rfl,mirrors.events,mirrors.sources,
        mirrors.apart,mirrors.inside,mirrors.one,mirrors.loop⟩

end Steps

section Renaming
variable {Request' : Type} {m' : Machine Reply Fault Error α σ Request' Nature} {f : Request → Request'}

def renamed (f : Request → Request') (s : Pool Reply Fault Error α σ Request) : Pool Reply Fault Error α σ Request' :=
  ⟨s.shared,s.threads.map fun thread => ⟨f thread.request,thread.rest⟩,s.log⟩

-- Requests under other names run the same.
theorem reached_renamed (serves : ∀ request, m'.serve (f request) = m.serve request) (answers : m'.answer = m.answer)
    (moves : m'.surroundings = m.surroundings) {meets : Pool Reply Fault Error α σ Request → Act Reply Request Nature → Prop}
    {s : Pool Reply Fault Error α σ Request} (path : Reached m meets origin s) :
    Reached m' (fun _ _ => True) origin (renamed f s) := by
  induction path with
  | start => exact .start
  | @step s act next prior met step ih =>
    cases step with
    | @arrive _ request =>
      have arrived := Reached.step ih trivial (@Step.arrive _ _ _ _ _ _ _ _ m' (renamed f s) (f request))
      rw [serves] at arrived
      simpa [renamed] using arrived
    | @perform _ i request op rest reply shared running answered =>
      have standing : (renamed f s).threads[i]? = some ⟨f request,.call op rest⟩ := by simp [renamed,running]
      have performed := Reached.step ih trivial (.perform standing (answers ▸ answered))
      simpa [renamed,List.map_set] using performed
    | surroundings moved =>
      exact .step ih trivial (.surroundings (moves ▸ moved))

end Renaming

section Traces
variable {β : Type} {program : Program Reply Fault Error α} {events : List (Event Reply)} {outcome : Outcome Fault Error α}

-- A program from its start to its end, by what it did.
inductive Does : Program Reply Fault Error α → List (Event Reply) → Outcome Fault Error α → Prop where
  | done : Does (.done value) [] (.returned value)
  | throw : Does (.throw error) [] (.thrown error)
  | panic : Does (.panic fault) [] (.panicked fault)
  | call {op : Op} {next : Reply op → Program Reply Fault Error α} {reply : Reply op} {events : List (Event Reply)}
      {outcome : Outcome Fault Error α} (rest : Does (next reply) events outcome) :
      Does (.call op next) (⟨op,reply⟩ :: events) outcome

theorem Does.follows {may : List (Event Reply) → Op → Prop} {ends : List (Event Reply) → Outcome Fault Error α → Prop}
    {past : List (Event Reply)} (does : Does program events outcome) (follows : Follows may ends past program) :
    ends (past ++ events) outcome := by
  induction does generalizing past with
  | done | throw | panic => simpa using follows
  | @call op next reply events outcome rest ih =>
    have later := ih (follows.2 reply)
    rwa [List.append_assoc] at later

theorem follows_does (program : Program Reply Fault Error α) :
    Follows (fun _ _ => True) (fun past outcome => Does program past outcome) [] program := by
  have leads : ∀ (current : Program Reply Fault Error α) past,
      (∀ events outcome, Does current events outcome → Does program (past ++ events) outcome) →
        Follows (fun _ _ => True) (fun past outcome => Does program past outcome) past current := by
    intro current
    induction current with
    | done value =>
      intro past leads
      simpa using leads [] _ .done
    | throw err =>
      intro past leads
      simpa using leads [] _ .throw
    | panic fault =>
      intro past leads
      simpa using leads [] _ .panic
    | call op next ih =>
      intro past leads
      refine ⟨trivial,fun reply => ih reply _ fun events outcome does => ?_⟩
      have whole := leads _ _ (.call does)
      rwa [List.append_assoc]
  exact leads program [] fun events outcome does => does

theorem Does.bind_inv {rest : α → Program Reply Fault Error β} {final : Outcome Fault Error β}
    (does : Does (program >>= rest) events final) :
    (∃ first second value, events = first ++ second ∧ Does program first (.returned value) ∧ Does (rest value) second final) ∨
      (∃ err, Does program events (.thrown err) ∧ final = .thrown err) ∨
        ∃ fault, Does program events (.panicked fault) ∧ final = .panicked fault := by
  induction program generalizing events with
  | done value => exact .inl ⟨[],events,value,rfl,.done,does⟩
  | throw err =>
    cases does
    exact .inr (.inl ⟨err,.throw,rfl⟩)
  | panic fault =>
    cases does
    exact .inr (.inr ⟨fault,.panic,rfl⟩)
  | call op next ih =>
    cases does with
    | @call _ _ reply events _ later =>
      rcases ih reply later with ⟨first,second,value,rfl,one,two⟩ | ⟨err,thrown,same⟩ | ⟨fault,panicked,same⟩
      · exact .inl ⟨⟨op,reply⟩ :: first,second,value,rfl,.call one,two⟩
      · exact .inr (.inl ⟨err,.call thrown,same⟩)
      · exact .inr (.inr ⟨fault,.call panicked,same⟩)

-- Requests served to their ends, one after the other.
inductive Served (serve : Request → Program Reply Fault Error α) : List Request → List (Event Reply) → Prop where
  | nil : Served serve [] []
  | cons (first : Does (serve request) piece (.returned value)) (later : Served serve rest after) :
      Served serve (request :: rest) (piece ++ after)

-- One of the requests stopped the loop, after the ones before it were served.
def StoppedBy (serve : Request → Program Reply Fault Error α) (requests : List Request) (events : List (Event Reply))
    (outcome : Outcome Fault Error α) : Prop :=
  ∃ before request after done piece, requests = before ++ request :: after ∧ events = done ++ piece ∧
    Served serve before done ∧ Does (serve request) piece outcome

theorem forEach_does {serve : Request → Program Reply Fault Error α} {requests : List Request} {final : Outcome Fault Error Unit}
    (does : Does (forEach serve requests) events final) : (final = .returned () ∧ Served serve requests events) ∨
      (∃ err, final = .thrown err ∧ StoppedBy serve requests events (.thrown err)) ∨
        ∃ fault, final = .panicked fault ∧ StoppedBy serve requests events (.panicked fault) := by
  induction requests generalizing events with
  | nil =>
    cases does
    exact .inl ⟨rfl,.nil⟩
  | cons request rest ih =>
    rcases does.bind_inv with ⟨first,second,value,rfl,one,two⟩ | ⟨err,thrown,rfl⟩ | ⟨fault,panicked,rfl⟩
    · have stopped : ∀ {outcome : Outcome Fault Error α}, StoppedBy serve rest second outcome →
          StoppedBy serve (request :: rest) (first ++ second) outcome := by
        intro outcome given
        obtain ⟨before,other,after,done,piece,rfl,rfl,served,last⟩ := given
        exact ⟨request :: before,other,after,first ++ done,piece,rfl,by simp,.cons one served,last⟩
      rcases ih two with ⟨same,served⟩ | ⟨err,same,stop⟩ | ⟨fault,same,stop⟩
      · exact .inl ⟨same,.cons one served⟩
      · exact .inr (.inl ⟨err,same,stopped stop⟩)
      · exact .inr (.inr ⟨fault,same,stopped stop⟩)
    · exact .inr (.inl ⟨err,rfl,[],request,rest,[],events,rfl,rfl,.nil,thrown⟩)
    · exact .inr (.inr ⟨fault,rfl,[],request,rest,[],events,rfl,rfl,.nil,panicked⟩)

end Traces

end SharedLoops
