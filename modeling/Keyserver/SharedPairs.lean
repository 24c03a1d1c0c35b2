import Keyserver.SharedPools

namespace SharedPairs
open SharedPrograms SharedPrograms.Program SharedPools

variable {Op : Type} {Reply : Op → Type} {Fault Error Error' Error'' α β γ δ σ Request Nature : Type}

-- Two programs that do the same operations as long as these are answered alike, and
-- that stop with related values or errors, or with the same fault.
inductive Paired (alike : (op : Op) → Reply op → Reply op → Prop) (value : α → β → Prop) (error : Error → Error' → Prop) :
    Program Reply Fault Error α → Program Reply Fault Error' β → Prop where
  | done (same : value left right) : Paired alike value error (.done left) (.done right)
  | throw (same : error left right) : Paired alike value error (.throw left) (.throw right)
  | panic : Paired alike value error (.panic fault) (.panic fault)
  | call {op : Op} {next : Reply op → Program Reply Fault Error α} {next' : Reply op → Program Reply Fault Error' β}
      (rest : ∀ reply reply', alike op reply reply' → Paired alike value error (next reply) (next' reply')) :
      Paired alike value error (.call op next) (.call op next')

section Rules
variable {alike : (op : Op) → Reply op → Reply op → Prop} {value : α → β → Prop} {error : Error → Error' → Prop}
  {left : Program Reply Fault Error α} {right : Program Reply Fault Error' β}

theorem Paired.bind {final : γ → δ → Prop} {rest : α → Program Reply Fault Error γ} {rest' : β → Program Reply Fault Error' δ}
    (pair : Paired alike value error left right)
    (continues : ∀ one two, value one two → Paired alike final error (rest one) (rest' two)) :
    Paired alike final error (left >>= rest) (right >>= rest') := by
  induction pair with
  | done same => exact continues _ _ same
  | throw same => exact .throw same
  | panic => exact .panic
  | call next ih => exact .call ih

theorem Paired.mapError {error' : Error → Error' → Prop} {Final Final' : Type} {final : Final → Final' → Prop}
    {convert : Error → Final} {convert' : Error' → Final'} (pair : Paired alike value error' left right)
    (errors : ∀ one two, error' one two → final (convert one) (convert' two)) :
    Paired alike value final (left.mapError convert) (right.mapError convert') := by
  induction pair with
  | done same => exact .done same
  | throw same => exact .throw (errors _ _ same)
  | panic => exact .panic
  | call rest ih => exact .call ih

-- A `Result` in the caller's hands, on both sides.
inductive Results (value : α → β → Prop) (error : Error → Error' → Prop) : Except Error α → Except Error' β → Prop where
  | ok (same : value one two) : Results value error (.ok one) (.ok two)
  | error (same : error one two) : Results value error (.error one) (.error two)

theorem Paired.attempt {Final : Type} {final : Final → Final → Prop} (pair : Paired alike value error left right) :
    Paired alike (Results value error) final left.attempt right.attempt := by
  induction pair with
  | done same => exact .done (.ok same)
  | throw same => exact .done (.error same)
  | panic => exact .panic
  | call rest ih => exact .call ih

-- A program that is no twin of itself by its errors has none.
theorem Paired.unthrown {past : List (Event Reply)} (pair : Paired alike value (fun _ _ => False) left right)
    (told : ∀ op reply, ∃ reply', alike op reply reply') :
    Follows (fun _ _ => True) (fun _ outcome => ∀ err, outcome ≠ .thrown err) past left := by
  induction pair generalizing past with
  | done same => simp
  | throw same => exact same.elim
  | panic => simp
  | @call op next next' rest ih =>
    refine ⟨trivial,fun reply => ?_⟩
    obtain ⟨reply',alike'⟩ := told op reply
    exact ih reply reply' alike'

end Rules

variable {m : Machine Reply Fault Error α σ Request Nature} {alike : (op : Op) → Reply op → Reply op → Prop}
  {value : α → α → Prop} {error : Error → Error → Prop} {retell : (op : Op) → Reply op → Reply op}
  {meets : Pool Reply Fault Error α σ Request → Act Reply Request Nature → Prop} {origin : σ}
  {s next twin : Pool Reply Fault Error α σ Request} {act : Act Reply Request Nature}

def Event.retold (retell : (op : Op) → Reply op → Reply op) (event : Event Reply) : Event Reply :=
  ⟨event.op,retell event.op event.reply⟩

-- The same run with every answer told another way.
structure Twins (alike : (op : Op) → Reply op → Reply op → Prop) (value : α → α → Prop) (error : Error → Error → Prop)
    (retell : (op : Op) → Reply op → Reply op) (s twin : Pool Reply Fault Error α σ Request) : Prop where
  shared : twin.shared = s.shared
  log : twin.log = s.log.map fun entry => (entry.1,Event.retold retell entry.2)
  length : twin.threads.length = s.threads.length
  threads : ∀ (i : Nat) thread, s.threads[i]? = some thread →
    ∃ rest, twin.threads[i]? = some ⟨thread.request,rest⟩ ∧ Paired alike value error thread.rest rest

theorem Twins.absent (twins : Twins alike value error retell s twin) {i : Nat} (absent : s.threads[i]? = none) :
    twin.threads[i]? = none := by
  rw [List.getElem?_eq_none_iff] at absent ⊢
  rw [twins.length]
  exact absent

theorem Twins.requests (twins : Twins alike value error retell s twin) : twin.requests = s.requests := by
  refine List.ext_getElem? fun i => ?_
  rw [Pool.requests,Pool.requests,List.getElem?_map,List.getElem?_map]
  cases found : s.threads[i]? with
  | none => rw [twins.absent found]
  | some thread =>
    obtain ⟨rest,same,-⟩ := twins.threads i thread found
    rw [same]
    rfl

section Runs
variable (served : ∀ request, Paired alike value error (m.serve request) (m.serve request))
  (answers : ∀ {s op reply reply' next}, m.answer s op reply = some next → alike op reply reply' → m.answer s op reply' = some next)
  (told : ∀ op reply, alike op reply (retell op reply))
include served answers told

theorem twins_step (twins : Twins alike value error retell s twin) (step : Step m s act next) :
    ∃ act' twin', Step m twin act' twin' ∧ Twins alike value error retell next twin' := by
  cases step with
  | @arrive _ request =>
    refine ⟨.arrive request,_,.arrive,twins.shared,twins.log,by simp [twins.length],?_⟩
    intro i thread found
    by_cases old : i < s.threads.length
    · rw [List.getElem?_append_left old] at found
      rw [List.getElem?_append_left (twins.length ▸ old)]
      exact twins.threads i thread found
    · rw [List.getElem?_append_right (Nat.le_of_not_lt old)] at found
      rw [List.getElem?_append_right (by rw [twins.length]; exact Nat.le_of_not_lt old),twins.length]
      obtain ⟨inside,rfl⟩ := List.getElem?_eq_some_iff.mp found
      have zero : i - s.threads.length = 0 := by simpa using inside
      exact ⟨m.serve request,by simp [zero],by simpa [zero] using served request⟩
  | surroundings moved =>
    exact ⟨_,_,.surroundings (twins.shared ▸ moved),rfl,twins.log,twins.length,twins.threads⟩
  | @perform _ i request op rest reply shared running answered =>
    obtain ⟨other,standing,pair⟩ := twins.threads i _ running
    dsimp only at pair
    cases pair with
    | @call _ _ rest' pairs =>
      have alike' := told op reply
      have retold : m.answer twin.shared op (retell op reply) = some shared := by
        rw [twins.shared]
        exact answers answered alike'
      refine ⟨_,_,.perform standing retold,rfl,by simp [twins.log,Event.retold],by simp [twins.length],?_⟩
      intro j thread found
      by_cases same : i = j
      · subst same
        rw [List.getElem?_set_self (List.getElem?_eq_some_iff.mp running).1] at found
        cases found
        exact ⟨_,List.getElem?_set_self (List.getElem?_eq_some_iff.mp standing).1,pairs reply _ alike'⟩
      · rw [List.getElem?_set_ne same] at found
        rw [List.getElem?_set_ne same]
        exact twins.threads j thread found

-- Every run has the twin in which every answer is told the other way.
theorem reached_twin (path : Reached m meets origin s) :
    ∃ twin, Reached m (fun _ _ => True) origin twin ∧ Twins alike value error retell s twin := by
  induction path with
  | start => exact ⟨.start origin,.start,rfl,rfl,rfl,by simp [Pool.start]⟩
  | step prior met step ih =>
    obtain ⟨twin,reached,twins⟩ := ih
    obtain ⟨act',twin',step',twins'⟩ := twins_step served answers told twins step
    exact ⟨twin',.step reached trivial step',twins'⟩

end Runs

end SharedPairs
