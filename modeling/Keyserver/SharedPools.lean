import Keyserver.SharedPrograms

namespace SharedPools
open SharedPrograms

variable {Op : Type} {Reply : Op → Type} {Fault Error α σ Request Nature : Type}

-- What a pool of programs runs on: the program that serves each request, the
-- atomic effect of an operation that got a given reply (none when the shared
-- state cannot give that reply), and the moves of the surroundings.
structure Machine {Op : Type} (Reply : Op → Type) (Fault Error α σ Request Nature : Type) where
  serve : Request → Program Reply Fault Error α
  answer : σ → (op : Op) → Reply op → Option σ
  surroundings : Nature → σ → Option σ

structure Thread {Op : Type} (Reply : Op → Type) (Fault Error α Request : Type) where
  request : Request
  rest : Program Reply Fault Error α

-- Threads are numbered in order of arrival and never removed; the log is the
-- one total order of all executed operations, oldest first.
structure Pool {Op : Type} (Reply : Op → Type) (Fault Error α σ Request : Type) where
  shared : σ
  threads : List (Thread Reply Fault Error α Request)
  log : List (Nat × Event Reply)

inductive Act {Op : Type} (Reply : Op → Type) (Request Nature : Type) where
  | arrive (request : Request)
  | perform (thread : Nat) (event : Event Reply)
  | surroundings (move : Nature)

def Pool.start (shared : σ) : Pool Reply Fault Error α σ Request := ⟨shared,[],[]⟩

inductive Step (m : Machine Reply Fault Error α σ Request Nature) :
    Pool Reply Fault Error α σ Request → Act Reply Request Nature →
      Pool Reply Fault Error α σ Request → Prop where
  | arrive : Step m s (.arrive request) {s with threads := s.threads ++ [⟨request,m.serve request⟩]}
  | perform {i : Nat} {request : Request} {op : Op} {next : Reply op → Program Reply Fault Error α}
      {reply : Reply op} {shared : σ} (running : s.threads[i]? = some ⟨request,.call op next⟩)
      (answered : m.answer s.shared op reply = some shared) :
      Step m s (.perform i ⟨op,reply⟩)
        ⟨shared,s.threads.set i ⟨request,next reply⟩,s.log ++ [(i,⟨op,reply⟩)]⟩
  | surroundings (moved : m.surroundings move s.shared = some shared) :
      Step m s (.surroundings move) {s with shared := shared}

-- Any number of arrivals, any interleaving. `meets` restricts the steps taken
-- by the state before them; `fun _ _ => True` restricts nothing.
inductive Reached (m : Machine Reply Fault Error α σ Request Nature)
    (meets : Pool Reply Fault Error α σ Request → Act Reply Request Nature → Prop)
    (origin : σ) : Pool Reply Fault Error α σ Request → Prop where
  | start : Reached m meets origin (.start origin)
  | step : Reached m meets origin s → meets s act → Step m s act next → Reached m meets origin next

variable {m : Machine Reply Fault Error α σ Request Nature}
  {meets meets' : Pool Reply Fault Error α σ Request → Act Reply Request Nature → Prop}
  {origin : σ} {s next : Pool Reply Fault Error α σ Request} {act : Act Reply Request Nature}

theorem Reached.invariant (valid : Pool Reply Fault Error α σ Request → Prop)
    (initial : valid (.start origin))
    (preserved : ∀ s act next, Reached m meets origin s → valid s → meets s act → Step m s act next → valid next)
    (path : Reached m meets origin s) : valid s := by
  induction path with
  | start => exact initial
  | step prior met step ih => exact preserved _ _ _ prior ih met step

theorem Reached.mono (weaker : ∀ s act next, Reached m meets origin s → meets s act → Step m s act next → meets' s act)
    (path : Reached m meets origin s) : Reached m meets' origin s := by
  induction path with
  | start => exact .start
  | step prior met step ih => exact .step ih (weaker _ _ _ prior met step) step

def history (log : List (Nat × Event Reply)) (i : Nat) : List (Event Reply) :=
  (log.filter (·.1 == i)).map (·.2)

@[simp] theorem history_nil (i : Nat) : history ([] : List (Nat × Event Reply)) i = [] := rfl

@[simp] theorem history_append (before after : List (Nat × Event Reply)) (i : Nat) :
    history (before ++ after) i = history before i ++ history after i := by
  simp [history]

@[simp] theorem history_same (i : Nat) (event : Event Reply) : history [(i,event)] i = [event] := by
  simp [history]

theorem history_other {i j : Nat} (different : j ≠ i) (event : Event Reply) :
    history [(j,event)] i = [] := by
  simp [history,different]

theorem mem_history {log : List (Nat × Event Reply)} {i : Nat} {event : Event Reply} :
    event ∈ history log i ↔ (i,event) ∈ log := by
  simp [history]

theorem history_silent {log : List (Nat × Event Reply)} {i : Nat} (silent : history log i = []) (event : Event Reply) :
    (i,event) ∉ log := by
  rw [← mem_history,silent]
  exact List.not_mem_nil

theorem history_split {log : List (Nat × Event Reply)} {before after : List (Event Reply)} {i : Nat} {event : Event Reply}
    (split : history log i = before ++ event :: after) :
    ∃ front back, log = front ++ (i,event) :: back ∧ history front i = before ∧ history back i = after := by
  unfold history at split
  obtain ⟨own,others,filtered,first,rest⟩ := List.map_eq_append_iff.mp split
  obtain ⟨entry,tail,rfl,rfl,last⟩ := List.map_eq_cons_iff.mp rest
  obtain ⟨front,later,rfl,before,later'⟩ := List.filter_eq_append_iff.mp filtered
  obtain ⟨skipped,back,rfl,foreign,mine,back'⟩ := List.filter_eq_cons_iff.mp later'
  obtain rfl : entry.1 = i := by simpa using mine
  refine ⟨front ++ skipped,back,by simp,?_,?_⟩
  · have silent : skipped.filter (·.1 == entry.1) = [] := List.filter_eq_nil_iff.mpr foreign
    rw [history,List.filter_append,silent,List.append_nil,before,first]
  · rw [history,back',last]

theorem reached_threads (path : Reached m meets origin s) : ∀ entry ∈ s.log, entry.1 < s.threads.length := by
  induction path with
  | start => simp [Pool.start]
  | step prior met step ih =>
    intro entry member
    cases step with
    | arrive =>
      have bound := ih entry member
      simp only [List.length_append,List.length_singleton]
      omega
    | perform running answered =>
      rcases List.mem_append.mp member with old | new
      · simpa using ih entry old
      · obtain rfl := List.mem_singleton.mp new
        have bound := (List.getElem?_eq_some_iff.mp running).1
        simpa using bound
    | surroundings moved => exact ih entry member

theorem history_absent {log : List (Nat × Event Reply)} {bound i : Nat}
    (earlier : ∀ entry ∈ log, entry.1 < bound) (late : bound ≤ i) : history log i = [] := by
  rw [history,List.map_eq_nil_iff,List.filter_eq_nil_iff]
  intro entry member
  have before := earlier entry member
  simp only [beq_iff_eq]
  omega

-- Threads only meet through the shared state: a protocol that every served
-- program follows from its start is followed by every thread of a reached pool
-- after its own part of the log, whatever the other threads did.
theorem reached_follows {may : Request → List (Event Reply) → Op → Prop}
    {ends : Request → List (Event Reply) → Outcome Fault Error α → Prop}
    (follows : ∀ request, Follows (may request) (ends request) [] (m.serve request))
    (path : Reached m meets origin s) {i : Nat} {thread : Thread Reply Fault Error α Request}
    (running : s.threads[i]? = some thread) :
    Follows (may thread.request) (ends thread.request) (history s.log i) thread.rest := by
  induction path generalizing i thread with
  | start => simp [Pool.start] at running
  | @step s act next prior met step ih =>
    cases step with
    | @arrive _ request =>
      by_cases old : i < s.threads.length
      · rw [List.getElem?_append_left old] at running
        exact ih running
      · have late : s.threads.length ≤ i := by omega
        have quiet := history_absent (reached_threads prior) late
        rw [List.getElem?_append_right late] at running
        obtain rfl : thread = ⟨request,m.serve request⟩ := by
          have inside := (List.getElem?_eq_some_iff.mp running).1
          have zero : i - s.threads.length = 0 := by simpa using inside
          simpa [zero] using running.symm
        simpa only [quiet] using follows request
    | @perform _ j request op next reply shared working answered =>
      by_cases same : i = j
      · subst i
        have inside := (List.getElem?_eq_some_iff.mp working).1
        have equal : thread = ⟨request,next reply⟩ := by
          simpa [List.getElem?_set_self inside] using running.symm
        subst equal
        simpa only [history_append,history_same] using (ih working).2 reply
      · have unchanged : s.threads[i]? = some thread := by
          simpa [List.getElem?_set_ne (Ne.symm same)] using running
        simpa only [history_append,history_other (Ne.symm same),List.append_nil] using ih unchanged
    | surroundings moved => exact ih running

-- The same of the threads that serve one request.
theorem reached_serves {request : Request} {ends : List (Event Reply) → Outcome Fault Error α → Prop}
    (follows : Follows (fun _ _ => True) ends [] (m.serve request)) (path : Reached m meets origin s) {i : Nat}
    {rest : Program Reply Fault Error α} (running : s.threads[i]? = some ⟨request,rest⟩) :
    Follows (fun _ _ => True) ends (history s.log i) rest := by
  have each : ∀ other, Follows (fun _ _ => True) (fun past outcome => other = request → ends past outcome) [] (m.serve other) := by
    intro other
    apply Follows.all
    intro same
    subst same
    exact follows
  exact (reached_follows each path running).mono (fun _ _ _ => trivial) fun _ _ ended => ended rfl

def Pool.requests (s : Pool Reply Fault Error α σ Request) : List Request := s.threads.map (·.request)

theorem thread_request {thread : Thread Reply Fault Error α Request} {i : Nat} (found : s.threads[i]? = some thread) :
    s.requests[i]? = some thread.request := by
  rw [Pool.requests,List.getElem?_map,found]
  rfl

theorem step_requests (step : Step m s act next) :
    next.requests = s.requests ∨ ∃ request, act = .arrive request ∧ next.requests = s.requests ++ [request] := by
  cases step with
  | @arrive _ request => exact .inr ⟨request,rfl,by simp [Pool.requests]⟩
  | @perform _ i request op rest reply shared running answered =>
    refine .inl (List.ext_getElem? fun j => ?_)
    by_cases same : i = j
    · subst same
      have inside := (List.getElem?_eq_some_iff.mp running).1
      rw [Pool.requests,Pool.requests,List.getElem?_map,List.getElem?_map,List.getElem?_set_self inside,running]
      rfl
    · rw [Pool.requests,Pool.requests,List.getElem?_map,List.getElem?_map,List.getElem?_set_ne same]
  | surroundings moved => exact .inl rfl

theorem step_request {request : Request} {i : Nat} (step : Step m s act next)
    (known : s.requests[i]? = some request) : next.requests[i]? = some request := by
  rcases step_requests step with same | ⟨added,-,grown⟩
  · rw [same]
    exact known
  · rw [grown,List.getElem?_append_left (List.getElem?_eq_some_iff.mp known).1]
    exact known

theorem reached_arrived (path : Reached m meets origin s) {request : Request} (known : request ∈ s.requests) :
    ∃ moment, Reached m meets origin moment ∧ meets moment (.arrive request) := by
  induction path with
  | start => cases known
  | @step s act next prior met step ih =>
    rcases step_requests step with same | ⟨added,rfl,grown⟩
    · exact ih (same ▸ known)
    · rw [grown] at known
      rcases List.mem_append.mp known with old | new
      · exact ih old
      · obtain rfl := List.mem_singleton.mp new
        exact ⟨s,prior,met⟩

theorem step_finished {thread : Thread Reply Fault Error α Request} {i : Nat} (step : Step m s act next)
    (found : s.threads[i]? = some thread) (finished : ∀ op rest, thread.rest ≠ .call op rest) :
    next.threads[i]? = some thread := by
  cases step with
  | arrive =>
    rw [List.getElem?_append_left (List.getElem?_eq_some_iff.mp found).1]
    exact found
  | @perform _ j request' op rest reply shared running answered =>
    have differs : j ≠ i := by
      intro same
      subst same
      obtain rfl := Option.some.inj (found.symm.trans running)
      exact finished op rest rfl
    simpa [List.getElem?_set_ne differs] using found
  | surroundings moved => exact found

theorem split_last {log before after : List (Nat × Event Reply)} {last entry : Nat × Event Reply}
    (logged : log ++ [last] = before ++ entry :: after) :
    (log = before ∧ last = entry ∧ after = []) ∨ ∃ tail, after = tail ++ [last] ∧ log = before ++ entry :: tail := by
  rcases List.eq_nil_or_concat after with rfl | ⟨tail,final,rfl⟩
  · obtain ⟨same,new⟩ := List.append_inj' logged rfl
    exact .inl ⟨same,List.head_eq_of_cons_eq new,rfl⟩
  · rw [List.concat_eq_append,← List.cons_append,← List.append_assoc] at logged
    obtain ⟨same,new⟩ := List.append_inj' logged rfl
    exact .inr ⟨tail,by rw [List.concat_eq_append,new],same⟩

theorem split_order {before after before' after' : List (Nat × Event Reply)} {one two : Nat × Event Reply}
    (same : before ++ one :: after = before' ++ two :: after') :
    one = two ∨ (∃ middle, before' = before ++ one :: middle) ∨ ∃ middle, before = before' ++ two :: middle := by
  rcases List.append_eq_append_iff.mp same with ⟨extra,grown,rest⟩ | ⟨extra,grown,rest⟩
  · cases extra with
    | nil => exact .inl (List.head_eq_of_cons_eq rest)
    | cons first middle =>
      obtain rfl := List.head_eq_of_cons_eq rest
      exact .inr (.inl ⟨middle,grown⟩)
  · cases extra with
    | nil => exact .inl (List.head_eq_of_cons_eq rest).symm
    | cons first middle =>
      obtain rfl := List.head_eq_of_cons_eq rest
      exact .inr (.inr ⟨middle,grown⟩)

theorem split_only {before after before' after' : List (Nat × Event Reply)} {i : Nat} {one two : Event Reply}
    (same : before ++ (i,one) :: after = before' ++ (i,two) :: after') (last : history after i = [])
    (last' : history after' i = []) : one = two ∧ after = after' := by
  have alone : ∀ {middle tail : List (Nat × Event Reply)} {event : Event Reply},
      history (middle ++ (i,event) :: tail) i ≠ [] := by
    intro middle tail event
    rw [← List.singleton_append,history_append,history_append,history_same]
    simp
  rcases List.append_eq_append_iff.mp same with ⟨extra,grown,rest⟩ | ⟨extra,grown,rest⟩
  · cases extra with
    | nil => exact ⟨congrArg Prod.snd (List.head_eq_of_cons_eq rest),List.tail_eq_of_cons_eq rest⟩
    | cons first middle =>
      obtain rfl := List.tail_eq_of_cons_eq rest
      exact absurd last alone
  · cases extra with
    | nil => exact ⟨(congrArg Prod.snd (List.head_eq_of_cons_eq rest)).symm,(List.tail_eq_of_cons_eq rest).symm⟩
    | cons first middle =>
      obtain rfl := List.tail_eq_of_cons_eq rest
      exact absurd last' alone

-- The moment of a logged event: the state before it was reached with the log
-- before it, and the event was one step from there.
theorem reached_logged (path : Reached m meets origin s) {before after : List (Nat × Event Reply)} {i : Nat}
    {event : Event Reply} (logged : s.log = before ++ (i,event) :: after) :
    ∃ moment later, Reached m meets origin moment ∧ moment.log = before ∧ meets moment (.perform i event) ∧
      Step m moment (.perform i event) later ∧
      ∀ (j : Nat) (request : Request), moment.requests[j]? = some request → s.requests[j]? = some request := by
  induction path generalizing before after with
  | start => simp [Pool.start] at logged
  | @step s act next prior met step ih =>
    have kept : ∀ {tail}, s.log = before ++ (i,event) :: tail →
        ∃ moment later, Reached m meets origin moment ∧ moment.log = before ∧ meets moment (.perform i event) ∧
          Step m moment (.perform i event) later ∧
          ∀ (j : Nat) (request : Request), moment.requests[j]? = some request → next.requests[j]? = some request := by
      intro tail split
      obtain ⟨moment,later,reached,log,allowed,taken,same⟩ := ih split
      exact ⟨moment,later,reached,log,allowed,taken,fun j request known => step_request step (same j request known)⟩
    cases step with
    | arrive => exact kept logged
    | surroundings moved => exact kept logged
    | @perform _ j request op rest reply shared running answered =>
      rcases split_last logged with ⟨log,new,-⟩ | ⟨tail,-,split⟩
      · simp only [Prod.mk.injEq] at new
        obtain ⟨rfl,rfl⟩ := new
        exact ⟨s,_,prior,log,met,.perform running answered,
          fun j request known => step_request (.perform running answered) known⟩
      · exact kept split

theorem reached_answered (path : Reached m meets origin s) {i : Nat} {event : Event Reply} (logged : (i,event) ∈ s.log) :
    ∃ moment shared, Reached m meets origin moment ∧ moment.log <+: s.log ∧
      m.answer moment.shared event.op event.reply = some shared := by
  obtain ⟨before,after,split⟩ := List.append_of_mem logged
  obtain ⟨moment,later,prior,rfl,met,step,kept⟩ := reached_logged path split
  cases step with
  | perform running answered => exact ⟨moment,_,prior,⟨_,split.symm⟩,answered⟩

theorem reached_permitted {may : Request → List (Event Reply) → Op → Prop}
    {ends : Request → List (Event Reply) → Outcome Fault Error α → Prop}
    (follows : ∀ request, Follows (may request) (ends request) [] (m.serve request))
    (path : Reached m meets origin s) {before after : List (Nat × Event Reply)} {i : Nat} {event : Event Reply}
    (logged : s.log = before ++ (i,event) :: after) :
    ∃ request, s.requests[i]? = some request ∧ may request (history before i) event.op := by
  obtain ⟨moment,later,prior,rfl,met,step,kept⟩ := reached_logged path logged
  cases step with
  | @perform _ _ request op rest reply shared running answered =>
    exact ⟨request,kept i request (thread_request running),(reached_follows follows prior running).1⟩

-- Requests served one after the other: each arrives when the others are done.
def Sequential (s : Pool Reply Fault Error α σ Request) : Act Reply Request Nature → Prop
  | .arrive _ => ∀ thread ∈ s.threads, ∀ op rest, thread.rest ≠ .call op rest
  | _ => True

theorem sequential_last (path : Reached m Sequential origin s) : ∀ (i : Nat) request op rest,
    s.threads[i]? = some ⟨request,.call op rest⟩ →
      i + 1 = s.threads.length ∧ ∃ earlier, s.log = earlier ++ (history s.log i).map (Prod.mk i) := by
  induction path with
  | start => simp [Pool.start]
  | @step s act next prior met step ih =>
    intro i request op rest running
    cases step with
    | @arrive _ added =>
      have late : s.threads.length ≤ i := by
        by_cases old : i < s.threads.length
        · rw [List.getElem?_append_left old] at running
          exact absurd rfl (met _ (List.mem_of_getElem? running) op rest)
        · omega
      have quiet := history_absent (reached_threads prior) late
      have inside := (List.getElem?_eq_some_iff.mp running).1
      simp only [List.length_append,List.length_singleton] at inside ⊢
      exact ⟨by omega,s.log,by simp [quiet]⟩
    | surroundings moved => exact ih i request op rest running
    | @perform _ j request' op' rest' reply shared working answered =>
      obtain ⟨last,earlier,log⟩ := ih j request' op' rest' working
      have same : i = j := by
        by_cases same : i = j
        · exact same
        · have unchanged : s.threads[i]? = some ⟨request,.call op rest⟩ := by
            simpa [List.getElem?_set_ne (Ne.symm same)] using running
          have bound := (ih i request op rest unchanged).1
          omega
      subst same
      refine ⟨by simpa using last,earlier,?_⟩
      simp only [history_append,history_same,List.map_append,List.map_cons,List.map_nil]
      rw [← List.append_assoc,← log]

-- An executable scheduler: `pick` chooses the reply of every operation, and a
-- turn is refused when the machine cannot give that reply or `test` fails.
inductive Turn (Request Nature : Type) where
  | arrive (request : Request)
  | thread (i : Nat)
  | surroundings (move : Nature)

def Machine.turn (m : Machine Reply Fault Error α σ Request Nature) (pick : σ → (op : Op) → Reply op)
    (s : Pool Reply Fault Error α σ Request) :
    Turn Request Nature → Option (Act Reply Request Nature × Pool Reply Fault Error α σ Request)
  | .arrive request => some (.arrive request,{s with threads := s.threads ++ [⟨request,m.serve request⟩]})
  | .thread i =>
    match s.threads[i]? with
    | some ⟨request,.call op next⟩ =>
      (m.answer s.shared op (pick s.shared op)).map fun shared =>
        (.perform i ⟨op,pick s.shared op⟩,⟨shared,s.threads.set i ⟨request,next (pick s.shared op)⟩,
          s.log ++ [(i,⟨op,pick s.shared op⟩)]⟩)
    | _ => none
  | .surroundings move => (m.surroundings move s.shared).map fun shared => (.surroundings move,{s with shared := shared})

def Machine.drive (m : Machine Reply Fault Error α σ Request Nature) (pick : σ → (op : Op) → Reply op)
    (test : Pool Reply Fault Error α σ Request → Act Reply Request Nature → Bool) :
    List (Turn Request Nature) → Pool Reply Fault Error α σ Request → Option (Pool Reply Fault Error α σ Request)
  | [],s => some s
  | turn :: rest,s =>
    match m.turn pick s turn with
    | some (act,next) => if test s act then m.drive pick test rest next else none
    | none => none

variable {pick : σ → (op : Op) → Reply op} {test : Pool Reply Fault Error α σ Request → Act Reply Request Nature → Bool}

theorem turn_step {turn : Turn Request Nature} (turned : m.turn pick s turn = some (act,next)) : Step m s act next := by
  cases turn with
  | arrive request =>
    cases turned
    exact .arrive
  | thread i =>
    simp only [Machine.turn] at turned
    split at turned
    · rename_i request op rest running
      obtain ⟨shared,answered,same⟩ := Option.map_eq_some_iff.mp turned
      cases same
      exact .perform running answered
    · cases turned
  | surroundings move =>
    obtain ⟨shared,moved,same⟩ := Option.map_eq_some_iff.mp turned
    cases same
    exact .surroundings moved

theorem drive_cons {turn : Turn Request Nature} {turns : List (Turn Request Nature)}
    {last : Pool Reply Fault Error α σ Request} (driven : m.drive pick test (turn :: turns) s = some last) :
    ∃ act next, m.turn pick s turn = some (act,next) ∧ test s act = true ∧ m.drive pick test turns next = some last := by
  unfold Machine.drive at driven
  split at driven
  · rename_i act next turned
    split at driven
    · rename_i passed
      exact ⟨act,next,turned,passed,driven⟩
    · cases driven
  · cases driven

theorem drive_reached {turns : List (Turn Request Nature)} {last : Pool Reply Fault Error α σ Request}
    (tested : ∀ s act, test s act = true → meets s act) (path : Reached m meets origin s)
    (driven : m.drive pick test turns s = some last) : Reached m meets origin last := by
  induction turns generalizing s with
  | nil =>
    cases driven
    exact path
  | cons turn rest ih =>
    obtain ⟨act,next,turned,passed,driven⟩ := drive_cons driven
    exact ih (.step path (tested _ _ passed) (turn_step turned)) driven

def Turn.arrival : Turn Request Nature → Option Request
  | .arrive request => some request
  | _ => none

theorem turn_requests {turn : Turn Request Nature} (turned : m.turn pick s turn = some (act,next)) :
    next.requests = s.requests ++ turn.arrival.toList := by
  have grown := step_requests (turn_step turned)
  cases turn with
  | arrive request =>
    cases turned
    simp [Pool.requests,Turn.arrival]
  | thread i =>
    simp only [Machine.turn] at turned
    split at turned
    · obtain ⟨shared,answered,same⟩ := Option.map_eq_some_iff.mp turned
      cases same
      simpa [Turn.arrival] using grown
    · cases turned
  | surroundings move =>
    obtain ⟨shared,moved,same⟩ := Option.map_eq_some_iff.mp turned
    cases same
    simpa [Turn.arrival] using grown

theorem drive_requests {turns : List (Turn Request Nature)} {last : Pool Reply Fault Error α σ Request}
    (driven : m.drive pick test turns s = some last) : last.requests = s.requests ++ turns.filterMap Turn.arrival := by
  induction turns generalizing s with
  | nil =>
    cases driven
    simp
  | cons turn rest ih =>
    obtain ⟨act,next,turned,passed,driven⟩ := drive_cons driven
    rw [ih driven,turn_requests turned,List.append_assoc]
    cases arrived : turn.arrival <;> simp [arrived]

def Pool.idle (s : Pool Reply Fault Error α σ Request) (act : Act Reply Request Nature) : Bool :=
  match act with
  | .arrive _ => s.threads.all fun thread => match thread.rest with
    | .call _ _ => false
    | _ => true
  | _ => true

theorem idle_sequential (s : Pool Reply Fault Error α σ Request) (act : Act Reply Request Nature)
    (passed : s.idle act = true) : Sequential s act := by
  cases act with
  | arrive request =>
    intro thread member op rest standing
    have finished := List.all_eq_true.mp passed thread member
    rw [standing] at finished
    cases finished
  | perform i event => trivial
  | surroundings move => trivial

def Pool.returned (s : Pool Reply Fault Error α σ Request) (i : Nat) : Option α :=
  match s.threads[i]? with
  | some ⟨_,.done value⟩ => some value
  | _ => none

def Pool.nextOp (s : Pool Reply Fault Error α σ Request) (i : Nat) : Option Op :=
  match s.threads[i]? with
  | some ⟨_,.call op _⟩ => some op
  | _ => none

theorem nextOp_step {i : Nat} {op : Op} {reply : Reply op} {shared : σ} (stands : s.nextOp i = some op)
    (answered : m.answer s.shared op reply = some shared) :
    ∃ next, Step m s (.perform i ⟨op,reply⟩) next ∧ next.shared = shared := by
  unfold Pool.nextOp at stands
  split at stands
  · rename_i request op' rest running
    cases stands
    exact ⟨_,.perform running answered,rfl⟩
  · cases stands

theorem returned_thread {i : Nat} {request : Request} {value : α} (known : s.requests[i]? = some request)
    (returned : s.returned i = some value) : s.threads[i]? = some ⟨request,.done value⟩ := by
  unfold Pool.returned at returned
  split at returned
  · rename_i request' value' found
    cases returned
    obtain rfl := Option.some.inj ((thread_request found).symm.trans known)
    exact found
  · cases returned

end SharedPools
