import Keyserver.SharedPools

namespace SharedLocks
open SharedPrograms SharedPools

variable {Op : Type} {Reply : Op → Type} {Fault Error α σ Request Nature Cell : Type} {Value : Cell → Type}
  {m : Machine Reply Fault Error α σ Request Nature} {origin : σ}

-- How the shared state falls into cells. An operation changes only the cell it
-- touches, and what it was answered it can be answered again wherever that cell
-- holds the same, once the surroundings have moved.
structure Cells (m : Machine Reply Fault Error α σ Request Nature) (Value : Cell → Type) where
  touches : Op → Option Cell
  value : σ → (cell : Cell) → Value cell
  frame : ∀ {s op reply next cell}, m.answer s op reply = some next → touches op ≠ some cell → value next cell = value s cell
  still : ∀ {s move next} (cell : Cell), m.surroundings move s = some next → value next cell = value s cell
  replay : ∀ {s t op reply next}, m.answer s op reply = some next →
    (∀ cell, touches op = some cell → value t cell = value s cell) →
      ∃ move ready last, m.surroundings move t = some ready ∧ m.answer ready op reply = some last ∧
        ∀ cell, touches op = some cell → value last cell = value next cell

-- One program run from a state with nobody else, the surroundings apart.
inductive Alone (m : Machine Reply Fault Error α σ Request Nature) (start : σ) (program : Program Reply Fault Error α) :
    List (Event Reply) → σ → Program Reply Fault Error α → Prop where
  | start : Alone m start program [] start program
  | perform {events : List (Event Reply)} {op : Op} {next : Reply op → Program Reply Fault Error α} {reply : Reply op}
      {s ready last : σ} {move : Nature} (prior : Alone m start program events s (.call op next))
      (moved : m.surroundings move s = some ready) (answered : m.answer ready op reply = some last) :
      Alone m start program (events ++ [⟨op,reply⟩]) last (next reply)

variable {program rest : Program Reply Fault Error α} {events : List (Event Reply)} {start last : σ}

def Finished (program : Program Reply Fault Error α) : Prop := ∀ op next, program ≠ .call op next

theorem call_unfinished (op : Op) (next : Reply op → Program Reply Fault Error α) :
    ¬ Finished (.call op next : Program Reply Fault Error α) := fun ended => ended op next rfl

def AtWork (s : Pool Reply Fault Error α σ Request) (i : Nat) : Prop :=
  ∃ thread, s.threads[i]? = some thread ∧ ¬ Finished thread.rest

section Threads
variable {s : Pool Reply Fault Error α σ Request} {thread : Thread Reply Fault Error α Request} {i j : Nat}

theorem AtWork.inside (busy : AtWork s i) : i < s.threads.length := by
  obtain ⟨thread,found,-⟩ := busy
  exact (List.getElem?_eq_some_iff.mp found).1

theorem atWork_arrived : AtWork {s with threads := s.threads ++ [thread]} i ↔
    AtWork s i ∨ i = s.threads.length ∧ ¬ Finished thread.rest := by
  by_cases old : i < s.threads.length
  · have differs : i ≠ s.threads.length := by omega
    simp [AtWork,List.getElem?_append_left old,differs]
  · have idle : ¬ AtWork s i := fun busy => old busy.inside
    by_cases new : i = s.threads.length
    · simp [AtWork,new]
    · have outside : ¬ i < (s.threads ++ [thread]).length := by
        rw [List.length_append,List.length_singleton]
        omega
      have later : ¬ AtWork {s with threads := s.threads ++ [thread]} i := fun busy => outside busy.inside
      simp [idle,new,later]

theorem atWork_performed (inside : i < s.threads.length) (shared : σ) (log : List (Nat × Event Reply)) :
    AtWork ⟨shared,s.threads.set i thread,log⟩ j ↔ AtWork s j ∧ j ≠ i ∨ j = i ∧ ¬ Finished thread.rest := by
  by_cases same : j = i
  · subst same
    simp [AtWork,inside]
  · simp [AtWork,List.getElem?_set_ne (Ne.symm same),same]

end Threads

namespace Cells
variable (cells : Cells m Value)

def Touched (events : List (Event Reply)) (cell : Cell) : Prop := ∃ event ∈ events, cells.touches event.op = some cell

variable {cells}

@[simp] theorem touched_nil {cell : Cell} : ¬ cells.Touched [] cell := by simp [Touched]

@[simp] theorem touched_append {before after : List (Event Reply)} {cell : Cell} :
    cells.Touched (before ++ after) cell ↔ cells.Touched before cell ∨ cells.Touched after cell := by
  simp only [Touched,List.mem_append]
  constructor
  · rintro ⟨event,first | second,touched⟩
    · exact .inl ⟨event,first,touched⟩
    · exact .inr ⟨event,second,touched⟩
  · rintro (⟨event,first,touched⟩ | ⟨event,second,touched⟩)
    · exact ⟨event,.inl first,touched⟩
    · exact ⟨event,.inr second,touched⟩

@[simp] theorem touched_single {event : Event Reply} {cell : Cell} :
    cells.Touched [event] cell ↔ cells.touches event.op = some cell := by
  simp [Touched]

-- Alone too, a program leaves every other cell as it was.
theorem alone_frame (alone : Alone m start program events last rest) {cell : Cell} (untouched : ¬ cells.Touched events cell) :
    cells.value last cell = cells.value start cell := by
  induction alone with
  | start => rfl
  | perform prior moved answered ih =>
    simp only [touched_append,touched_single,not_or] at untouched
    rw [cells.frame answered untouched.2,cells.still cell moved,ih untouched.1]

-- What a program did alone it can do wherever the cells it touched hold the same.
theorem alone_transfer (alone : Alone m start program events last rest) {other : σ}
    (agree : ∀ cell, cells.Touched events cell → cells.value other cell = cells.value start cell) :
    ∃ last', Alone m other program events last' rest ∧
      ∀ cell, cells.Touched events cell → cells.value last' cell = cells.value last cell := by
  induction alone with
  | start => exact ⟨other,.start,by simp⟩
  | @perform events op next reply s ready last move prior moved answered ih =>
    obtain ⟨s',prior',same⟩ := ih fun cell touched => agree cell (touched_append.mpr (.inl touched))
    have sees : ∀ cell, cells.touches op = some cell → cells.value s' cell = cells.value ready cell := by
      intro cell touches
      rw [cells.still cell moved]
      by_cases touched : cells.Touched events cell
      · exact same cell touched
      · rw [alone_frame prior' touched,alone_frame prior touched]
        exact agree cell (touched_append.mpr (.inr (touched_single.mpr touches)))
    obtain ⟨move',ready',last',moved',answered',written⟩ := cells.replay answered sees
    refine ⟨last',.perform prior' moved' answered',?_⟩
    intro cell touched
    by_cases touches : cells.touches op = some cell
    · exact written cell touches
    · have earlier : cells.Touched events cell := by simpa [touches] using touched
      rw [cells.frame answered' touches,cells.still cell moved',cells.frame answered touches,cells.still cell moved]
      exact same cell earlier

-- A thread holds every cell it has touched until it is finished.
def Occupies (cells : Cells m Value) (s : Pool Reply Fault Error α σ Request) (i : Nat) (cell : Cell) : Prop :=
  AtWork s i ∧ cells.Touched (history s.log i) cell

-- Nobody touches a cell that another thread holds.
def Exclusive (cells : Cells m Value) (s : Pool Reply Fault Error α σ Request) : Act Reply Request Nature → Prop
  | .perform i event => ∀ cell, cells.touches event.op = some cell → ∀ j, j ≠ i → ¬ cells.Occupies s j cell
  | _ => True

end Cells

section Serial
variable {seq s next : Pool Reply Fault Error α σ Request} {order : List Nat} {cells : Cells m Value} {request : Request}

@[simp] theorem history_own (events : List (Event Reply)) (i : Nat) : history (events.map (Prod.mk i)) i = events := by
  induction events with
  | nil => rfl
  | cons event rest ih =>
    rw [List.map_cons,← List.singleton_append,history_append,history_same,ih]
    rfl

theorem history_foreign {i j : Nat} (different : j ≠ i) (events : List (Event Reply)) :
    history (events.map (Prod.mk j)) i = [] := by
  induction events with
  | nil => rfl
  | cons event rest ih =>
    rw [List.map_cons,← List.singleton_append,history_append,history_other different,ih]
    rfl

-- What a program did alone, a request that arrives when all others are done can do.
theorem alone_reached (path : Reached m Sequential origin seq) (idle : ∀ thread ∈ seq.threads, Finished thread.rest)
    (alone : Alone m seq.shared (m.serve request) events last rest) :
    ∃ moment, Reached m Sequential origin moment ∧ moment.shared = last ∧
      moment.threads = seq.threads ++ [⟨request,rest⟩] ∧ moment.log = seq.log ++ events.map (Prod.mk seq.threads.length) := by
  induction alone with
  | start =>
    have arrives : Sequential seq (.arrive request : Act Reply Request Nature) := idle
    exact ⟨_,.step path arrives .arrive,rfl,rfl,by simp⟩
  | @perform events op next reply s ready last move prior moved answered ih =>
    obtain ⟨moment,reached,rfl,threads,log⟩ := ih
    have standing : moment.threads[seq.threads.length]? = some ⟨request,.call op next⟩ := by simp [threads]
    have ticks : Sequential moment (.surroundings move : Act Reply Request Nature) := trivial
    have timed := Reached.step reached ticks (.surroundings moved)
    have performs : Sequential {moment with shared := ready}
      (.perform seq.threads.length ⟨op,reply⟩ : Act Reply Request Nature) := trivial
    exact ⟨_,.step timed performs (.perform standing answered),rfl,by simp [threads],by simp [log]⟩

-- The later one's last operation comes after the earlier one's.
def EndsBefore (log : List (Nat × Event Reply)) (i j : Nat) : Prop :=
  history log j ≠ [] → ∀ before after, log = before ++ after → history after j = [] → history after i = []

theorem EndsBefore.grown {log : List (Nat × Event Reply)} {i j k : Nat} {event : Event Reply} (ends : EndsBefore log i j)
    (notFirst : k ≠ i) (notSecond : k ≠ j) : EndsBefore (log ++ [(k,event)]) i j := by
  intro busy before after logged quiet
  rw [history_append,history_other notSecond,List.append_nil] at busy
  rcases List.eq_nil_or_concat after with rfl | ⟨tail,final,rfl⟩
  · rfl
  · rw [List.concat_eq_append,← List.append_assoc] at logged
    obtain ⟨split,same⟩ := List.append_inj' logged rfl
    obtain rfl := List.head_eq_of_cons_eq same
    rw [List.concat_eq_append,history_append,history_other notSecond,List.append_nil] at quiet
    rw [List.concat_eq_append,history_append,history_other notFirst,List.append_nil]
    exact ends busy before tail split quiet

theorem ends_last (log : List (Nat × Event Reply)) (i j : Nat) (event : Event Reply) :
    EndsBefore (log ++ [(j,event)]) i j := by
  intro busy before after logged quiet
  rcases List.eq_nil_or_concat after with rfl | ⟨tail,final,rfl⟩
  · rfl
  · rw [List.concat_eq_append,← List.append_assoc] at logged
    obtain ⟨split,same⟩ := List.append_inj' logged rfl
    obtain rfl := List.head_eq_of_cons_eq same
    simp at quiet

-- `seq` serves the settled requests of `s` one after the other, in `order`. What each
-- of the others has done it can still do after these, alone; and where none of
-- the others has been, both pools hold the same.
structure Serialises (cells : Cells m Value) (origin : σ) (working : Nat → Prop)
    (s seq : Pool Reply Fault Error α σ Request) (order : List Nat) : Prop where
  path : Reached m Sequential origin seq
  length : seq.threads.length = order.length
  listed : ∀ i, i ∈ order ↔ i < s.threads.length ∧ ¬ working i
  settled : ∀ (i : Nat) thread, s.threads[i]? = some thread → ¬ working i → Finished thread.rest
  nodup : order.Nodup
  same : ∀ (k i : Nat), order[k]? = some i → seq.threads[k]? = s.threads[i]? ∧ history seq.log k = history s.log i
  ordered : order.Pairwise (EndsBefore s.log)
  free : ∀ cell, (∀ i, working i → ¬ cells.Touched (history s.log i) cell) →
    cells.value seq.shared cell = cells.value s.shared cell
  alone : ∀ (i : Nat) thread, s.threads[i]? = some thread → working i →
    ∃ last, Alone m seq.shared (m.serve thread.request) (history s.log i) last thread.rest ∧
      ∀ cell, cells.Touched (history s.log i) cell → cells.value last cell = cells.value s.shared cell
  apart : ∀ i j cell, working i → working j → cells.Touched (history s.log i) cell → cells.Touched (history s.log j) cell → i = j

variable {working : Nat → Prop}

theorem serialises_start : Serialises cells origin (fun _ => False) (.start origin) (.start origin) [] where
  path := .start
  length := rfl
  listed := by simp [Pool.start]
  settled := by simp [Pool.start]
  nodup := List.nodup_nil
  same := by simp
  ordered := .nil
  free := fun _ _ => rfl
  alone := by simp [Pool.start]
  apart := by simp

theorem serialises_arrive (serial : Serialises cells origin working s seq order)
    (logged : ∀ entry ∈ s.log, entry.1 < s.threads.length) (request : Request) :
    Serialises cells origin (fun i => working i ∨ i = s.threads.length)
      {s with threads := s.threads ++ [⟨request,m.serve request⟩]} seq order where
  path := serial.path
  length := serial.length
  listed := by
    intro i
    rw [serial.listed i,List.length_append,List.length_singleton]
    constructor
    · intro given
      obtain ⟨inside,idle⟩ := given
      exact ⟨by omega,fun busy => busy.elim idle (by omega)⟩
    · intro given
      obtain ⟨inside,idle⟩ := given
      have old : i ≠ s.threads.length := fun new => idle (.inr new)
      exact ⟨by omega,fun busy => idle (.inl busy)⟩
  settled := by
    intro i thread found idle
    have old : i < s.threads.length := by
      have inside := (List.getElem?_eq_some_iff.mp found).1
      have differs : i ≠ s.threads.length := fun new => idle (.inr new)
      simp only [List.length_append,List.length_singleton] at inside
      omega
    rw [List.getElem?_append_left old] at found
    exact serial.settled i thread found fun busy => idle (.inl busy)
  nodup := serial.nodup
  same := by
    intro k i listed
    have old := ((serial.listed i).mp (List.mem_of_getElem? listed)).1
    rw [List.getElem?_append_left old]
    exact serial.same k i listed
  ordered := serial.ordered
  free := fun cell untouched => serial.free cell fun i busy => untouched i (.inl busy)
  alone := by
    intro i thread found busy
    by_cases old : i < s.threads.length
    · rw [List.getElem?_append_left old] at found
      exact serial.alone i thread found (busy.resolve_right (by omega))
    · have quiet := history_absent logged (Nat.le_of_not_lt old)
      have new : i = s.threads.length := by
        have inside := (List.getElem?_eq_some_iff.mp found).1
        simp only [List.length_append,List.length_singleton] at inside
        omega
      subst new
      rw [List.getElem?_concat_length] at found
      cases found
      exact ⟨seq.shared,by rw [quiet]; exact .start,by simp [quiet]⟩
  apart := by
    intro i j cell busy busy' touched touched'
    have old : ∀ {k}, (working k ∨ k = s.threads.length) → cells.Touched (history s.log k) cell → working k := by
      rintro k (busy | rfl) touched
      · exact busy
      · simp [history_absent logged (Nat.le_refl _)] at touched
    exact serial.apart i j cell (old busy touched) (old busy' touched') touched touched'

theorem serialises_surroundings (serial : Serialises cells origin working s seq order) {move : Nature} {shared : σ}
    (moved : m.surroundings move s.shared = some shared) :
    Serialises cells origin working {s with shared := shared} seq order :=
  {serial with
    free := fun cell untouched => (serial.free cell untouched).trans (cells.still cell moved).symm
    alone := by
      intro i thread found busy
      obtain ⟨last,alone,same⟩ := serial.alone i thread found busy
      exact ⟨last,alone,fun cell touched => (same cell touched).trans (cells.still cell moved).symm⟩}

-- A thread at work touches a cell that none of the others holds.
theorem serialises_perform (serial : Serialises cells origin working s seq order) {i : Nat} {request : Request} {op : Op}
    {rest : Reply op → Program Reply Fault Error α} {reply : Reply op} {shared : σ} (busy : working i)
    (running : s.threads[i]? = some ⟨request,.call op rest⟩) (answered : m.answer s.shared op reply = some shared)
    (exclusive : ∀ cell, cells.touches op = some cell → ∀ j, j ≠ i → working j → ¬ cells.Touched (history s.log j) cell) :
    Serialises cells origin working ⟨shared,s.threads.set i ⟨request,rest reply⟩,s.log ++ [(i,⟨op,reply⟩)]⟩ seq order := by
  have inside := (List.getElem?_eq_some_iff.mp running).1
  have own : history (s.log ++ [(i,⟨op,reply⟩)]) i = history s.log i ++ [⟨op,reply⟩] := by simp
  have others : ∀ {j}, j ≠ i → history (s.log ++ [(i,⟨op,reply⟩)]) j = history s.log j := by
    intro j different
    rw [history_append,history_other different.symm,List.append_nil]
  have grows : ∀ {j cell}, cells.Touched (history s.log j) cell → cells.Touched (history (s.log ++ [(i,⟨op,reply⟩)]) j) cell := by
    intro j cell touched
    rw [history_append]
    exact Cells.touched_append.mpr (.inl touched)
  have outside : ∀ {j}, j ∈ order → j ≠ i := fun listed same => ((serial.listed _).mp listed).2 (same ▸ busy)
  have listed := serial.listed
  refine ⟨serial.path,serial.length,?_,?_,serial.nodup,?_,?_,?_,?_,?_⟩
  · intro j
    rw [List.length_set]
    exact listed j
  · intro j thread found idle
    have different : i ≠ j := fun same => idle (same ▸ busy)
    rw [List.getElem?_set_ne different] at found
    exact serial.settled j thread found idle
  · intro k j position
    have different := outside (List.mem_of_getElem? position)
    rw [List.getElem?_set_ne different.symm,others different]
    exact serial.same k j position
  · apply serial.ordered.imp_of_mem
    intro j k first second ends
    exact ends.grown (outside first).symm (outside second).symm
  · intro cell untouched
    have elsewhere : cells.touches op ≠ some cell := by
      intro touches
      apply untouched i busy
      rw [own]
      exact Cells.touched_append.mpr (.inr (Cells.touched_single.mpr touches))
    rw [serial.free cell fun j busy' touched => untouched j busy' (grows touched)]
    exact (cells.frame answered elsewhere).symm
  · intro j thread found busy'
    by_cases same : j = i
    · subst same
      rw [List.getElem?_set_self inside] at found
      cases found
      obtain ⟨last,alone,agree⟩ := serial.alone j _ running busy
      have sees : ∀ cell, cells.touches op = some cell → cells.value last cell = cells.value s.shared cell := by
        intro cell touches
        by_cases touched : cells.Touched (history s.log j) cell
        · exact agree cell touched
        · rw [Cells.alone_frame alone touched]
          apply serial.free cell
          intro k busy''
          by_cases mine : k = j
          · subst mine
            exact touched
          · exact exclusive cell touches k mine busy''
      obtain ⟨move,ready,last',moved,answered',written⟩ := cells.replay answered sees
      rw [own]
      refine ⟨last',.perform alone moved answered',?_⟩
      intro cell touched
      by_cases touches : cells.touches op = some cell
      · exact written cell touches
      · have earlier : cells.Touched (history s.log j) cell := by simpa [touches] using touched
        rw [cells.frame answered' touches,cells.still cell moved,cells.frame answered touches]
        exact agree cell earlier
    · rw [List.getElem?_set_ne (Ne.symm same)] at found
      obtain ⟨last,alone,agree⟩ := serial.alone j thread found busy'
      rw [others same]
      refine ⟨last,alone,fun cell touched => ?_⟩
      have elsewhere : cells.touches op ≠ some cell := fun touches => exclusive cell touches j same busy' touched
      rw [agree cell touched]
      exact (cells.frame answered elsewhere).symm
  · have foreign : ∀ {j cell}, j ≠ i → working j → cells.Touched (history s.log j) cell →
        cells.Touched (history (s.log ++ [(i,⟨op,reply⟩)]) i) cell → cells.Touched (history s.log i) cell := by
      intro j cell different busy' touched touched'
      rw [own,Cells.touched_append,Cells.touched_single] at touched'
      exact touched'.resolve_right fun touches => exclusive cell touches j different busy' touched
    intro j k cell busy' busy'' touched touched'
    by_cases first : j = i
    · by_cases second : k = i
      · rw [first,second]
      · rw [others second] at touched'
        rw [first] at touched ⊢
        exact serial.apart i k cell busy busy'' (foreign second busy'' touched' touched) touched'
    · rw [others first] at touched
      by_cases second : k = i
      · rw [second] at touched' ⊢
        exact serial.apart j i cell busy' busy touched (foreign first busy' touched touched')
      · rw [others second] at touched'
        exact serial.apart j k cell busy' busy'' touched touched'

theorem serialises_idle (serial : Serialises cells origin working s seq order) :
    ∀ thread ∈ seq.threads, Finished thread.rest := by
  intro thread member
  obtain ⟨k,position⟩ := List.mem_iff_getElem?.mp member
  have inside := (List.getElem?_eq_some_iff.mp position).1
  rw [serial.length] at inside
  have named : order[k]? = some order[k] := List.getElem?_eq_getElem inside
  have idle := ((serial.listed _).mp (List.mem_of_getElem? named)).2
  exact serial.settled _ thread ((serial.same k _ named).1.symm.trans position) idle

-- A finished thread is served next: what it did alone is appended.
theorem serialises_commit (serial : Serialises cells origin working s seq order) {i : Nat}
    {thread : Thread Reply Fault Error α Request} (found : s.threads[i]? = some thread) (ended : Finished thread.rest)
    (busy : working i) (latest : ∀ j ∈ order, EndsBefore s.log j i) :
    ∃ seq', Serialises cells origin (fun j => working j ∧ j ≠ i) s seq' (order ++ [i]) := by
  obtain ⟨last,alone,agree⟩ := serial.alone i thread found busy
  obtain ⟨moment,reached,shared,threads,log⟩ := alone_reached serial.path (serialises_idle serial) alone
  have inside := (List.getElem?_eq_some_iff.mp found).1
  have absent : i ∉ order := fun member => ((serial.listed i).mp member).2 busy
  refine ⟨moment,reached,?_,?_,?_,?_,?_,?_,?_,?_,?_⟩
  · rw [threads,List.length_append,List.length_append,serial.length]
    rfl
  · intro j
    rw [List.mem_append,List.mem_singleton,serial.listed j]
    by_cases mine : j = i
    · simp [mine,inside]
    · simp [mine]
  · intro j other position idle
    by_cases mine : j = i
    · subst mine
      obtain rfl := Option.some.inj (found.symm.trans position)
      exact ended
    · exact serial.settled j other position fun busy' => idle ⟨busy',mine⟩
  · rw [List.nodup_append]
    refine ⟨serial.nodup,by simp,?_⟩
    intro j listed k new same
    exact absent (List.mem_singleton.mp new ▸ same ▸ listed)
  · intro k j position
    rw [threads,log,history_append]
    by_cases early : k < order.length
    · have differs : seq.threads.length ≠ k := by rw [serial.length]; omega
      rw [List.getElem?_append_left early] at position
      rw [List.getElem?_append_left (by rw [serial.length]; exact early),history_foreign differs,List.append_nil]
      exact serial.same k j position
    · have final : k = order.length ∧ j = i := by
        have bound := (List.getElem?_eq_some_iff.mp position).1
        simp only [List.length_append,List.length_singleton] at bound
        obtain rfl : k = order.length := by omega
        rw [List.getElem?_concat_length] at position
        exact ⟨rfl,(Option.some.inj position).symm⟩
      obtain ⟨rfl,rfl⟩ := final
      rw [← serial.length,List.getElem?_concat_length,history_own,found,
        history_absent (reached_threads serial.path) (Nat.le_refl _)]
      exact ⟨rfl,rfl⟩
  · rw [List.pairwise_append]
    refine ⟨serial.ordered,List.pairwise_singleton _ _,?_⟩
    intro j listed k new
    obtain rfl := List.mem_singleton.mp new
    exact latest j listed
  · intro cell untouched
    rw [shared]
    by_cases touched : cells.Touched (history s.log i) cell
    · exact agree cell touched
    · rw [Cells.alone_frame alone touched]
      apply serial.free cell
      intro j busy'
      by_cases mine : j = i
      · rw [mine]
        exact touched
      · exact untouched j ⟨busy',mine⟩
  · intro j other position busy'
    obtain ⟨last',alone',agree'⟩ := serial.alone j other position busy'.1
    have apart : ∀ cell, cells.Touched (history s.log j) cell → cells.value moment.shared cell = cells.value seq.shared cell := by
      intro cell touched
      rw [shared]
      exact Cells.alone_frame alone fun mine => busy'.2 (serial.apart j i cell busy'.1 busy touched mine)
    obtain ⟨later,alone'',same⟩ := Cells.alone_transfer alone' apart
    exact ⟨later,alone'',fun cell touched => (same cell touched).trans (agree' cell touched)⟩
  · intro j k cell busy' busy'' touched touched'
    exact serial.apart j k cell busy'.1 busy''.1 touched touched'

theorem Serialises.congr {working' : Nat → Prop} (serial : Serialises cells origin working s seq order)
    (same : ∀ i, working i ↔ working' i) : Serialises cells origin working' s seq order := by
  obtain rfl : working = working' := funext fun i => propext (same i)
  exact serial

-- A run in which nobody touches what another thread holds is a run of the same
-- requests one after the other, in the order in which they end.
theorem exclusive_serialises (path : Reached m cells.Exclusive origin s) :
    ∃ seq order, Serialises cells origin (AtWork s) s seq order := by
  induction path with
  | start => exact ⟨_,_,serialises_start.congr fun i => by simp [AtWork,Pool.start]⟩
  | @step s act next prior met step ih =>
    obtain ⟨seq,order,serial⟩ := ih
    have threaded := reached_threads prior
    cases step with
    | surroundings moved => exact ⟨seq,order,serialises_surroundings serial moved⟩
    | @arrive _ request =>
      have arrived := serialises_arrive serial threaded request
      have found : (s.threads ++ [⟨request,m.serve request⟩])[s.threads.length]? = some ⟨request,m.serve request⟩ :=
        List.getElem?_concat_length
      by_cases ended : Finished (m.serve request)
      · have latest : ∀ j ∈ order, EndsBefore s.log j s.threads.length := by
          intro j listed busy
          exact absurd (history_absent threaded (Nat.le_refl _)) busy
        obtain ⟨seq',serial'⟩ := serialises_commit arrived found ended (.inr rfl) latest
        refine ⟨seq',_,serial'.congr fun i => ?_⟩
        rw [atWork_arrived]
        constructor
        · rintro ⟨busy | new,old⟩
          · exact .inl busy
          · exact absurd new old
        · rintro (busy | ⟨-,unended⟩)
          · exact ⟨.inl busy,Nat.ne_of_lt busy.inside⟩
          · exact absurd ended unended
      · refine ⟨seq,order,arrived.congr fun i => ?_⟩
        simp [atWork_arrived,ended]
    | @perform _ i request op rest reply shared running answered =>
      have busy : AtWork s i := ⟨_,running,call_unfinished op rest⟩
      have inside := busy.inside
      have performed := serialises_perform serial busy running answered fun cell touches j different busy' touched =>
        met cell touches j different ⟨busy',touched⟩
      have found : (s.threads.set i ⟨request,rest reply⟩)[i]? = some ⟨request,rest reply⟩ := List.getElem?_set_self inside
      by_cases ended : Finished (rest reply)
      · obtain ⟨seq',serial'⟩ := serialises_commit performed found ended busy fun j _ => ends_last s.log j i _
        refine ⟨seq',_,serial'.congr fun j => ?_⟩
        simp [atWork_performed inside,ended]
      · refine ⟨seq,order,performed.congr fun j => ?_⟩
        rw [atWork_performed inside]
        by_cases same : j = i
        · simp [same,busy,ended]
        · simp [same]

-- Since a thread at work first touched a cell, nobody else has.
theorem exclusive_own (path : Reached m cells.Exclusive origin s) {i : Nat} (busy : AtWork s i) {cell : Cell} :
    ∀ before event after, s.log = before ++ (i,event) :: after → cells.touches event.op = some cell →
      ∀ entry ∈ after, cells.touches entry.2.op = some cell → entry.1 = i := by
  induction path with
  | start => simp [Pool.start]
  | @step s act next prior met step ih =>
    intro before event after logged touches
    cases step with
    | surroundings moved => exact ih busy before event after logged touches
    | arrive =>
      rcases atWork_arrived.mp busy with old | ⟨rfl,-⟩
      · exact ih old before event after logged touches
      · have split : s.log = before ++ (s.threads.length,event) :: after := logged
        exact absurd (reached_threads prior (s.threads.length,event) (by simp [split])) (Nat.lt_irrefl _)
    | @perform _ j request op rest reply shared running answered =>
      have running' : AtWork s j := ⟨_,running,call_unfinished op rest⟩
      have old : AtWork s i := by
        rcases (atWork_performed running'.inside shared _).mp busy with ⟨old,-⟩ | ⟨rfl,-⟩
        · exact old
        · exact running'
      rcases split_last logged with ⟨-,-,rfl⟩ | ⟨tail,rfl,split⟩
      · simp
      · intro entry member touches'
        rcases List.mem_append.mp member with earlier | final
        · exact ih old before event tail split touches entry earlier touches'
        · obtain rfl := List.mem_singleton.mp final
          by_cases same : j = i
          · exact same
          · refine absurd ⟨old,event,?_,touches⟩ (met cell touches' i (Ne.symm same))
            rw [mem_history,split]
            simp

end Serial

end SharedLocks
