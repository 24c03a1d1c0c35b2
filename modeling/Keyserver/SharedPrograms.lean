import Mathlib.Logic.Basic

namespace SharedPrograms

-- A program over shared operations. `Reply op` is what one atomic `op` answers;
-- `throw` returns an error to the caller, `panic` unwinds and returns nothing.
inductive Program {Op : Type} (Reply : Op → Type) (Fault Error α : Type) where
  | done (value : α)
  | throw (error : Error)
  | panic (fault : Fault)
  | call (op : Op) (next : Reply op → Program Reply Fault Error α)

inductive Outcome (Fault Error α : Type) where
  | returned (value : α)
  | thrown (error : Error)
  | panicked (fault : Fault)
  deriving DecidableEq, Repr

structure Event {Op : Type} (Reply : Op → Type) where
  op : Op
  reply : Reply op

variable {Op : Type} {Reply : Op → Type} {Fault Error Error' α β γ σ : Type}

instance [DecidableEq Op] [∀ op, DecidableEq (Reply op)] : DecidableEq (Event Reply)
  | ⟨op,reply⟩,⟨op',reply'⟩ =>
    if same : op = op' then decidable_of_iff (same ▸ reply = reply') (by subst same; simp)
    else .isFalse fun equal => same (Event.mk.inj equal).1

namespace Program

def bind : Program Reply Fault Error α → (α → Program Reply Fault Error β) → Program Reply Fault Error β
  | .done value,rest => rest value
  | .throw error,_ => .throw error
  | .panic fault,_ => .panic fault
  | .call op next,rest => .call op fun reply => (next reply).bind rest

instance : Monad (Program Reply Fault Error) where
  pure := .done
  bind := bind

def mapError (convert : Error → Error') : Program Reply Fault Error α → Program Reply Fault Error' α
  | .done value => .done value
  | .throw error => .throw (convert error)
  | .panic fault => .panic fault
  | .call op next => .call op fun reply => (next reply).mapError convert

def unwrap (fault : Fault) : Option α → Program Reply Fault Error α
  | some value => .done value
  | none => .panic fault

def okOr (error : Error) : Option α → Program Reply Fault Error α
  | some value => .done value
  | none => .throw error

def fromResult : Except Error α → Program Reply Fault Error α
  | .ok value => .done value
  | .error error => .throw error

-- Runs a program and hands its `Result` to the caller, as a `match` on it does.
def attempt : Program Reply Fault Error α → Program Reply Fault Error' (Except Error α)
  | .done value => .done (.ok value)
  | .throw error => .done (.error error)
  | .panic fault => .panic fault
  | .call op next => .call op fun reply => (next reply).attempt

@[simp] theorem pure_done (value : α) : (pure value : Program Reply Fault Error α) = .done value := rfl
@[simp] theorem map_eq (f : α → β) (program : Program Reply Fault Error α) :
    f <$> program = program >>= fun value => .done (f value) := rfl
@[simp] theorem done_bind (value : α) (rest : α → Program Reply Fault Error β) :
    (.done value >>= rest) = rest value := rfl
@[simp] theorem throw_bind (error : Error) (rest : α → Program Reply Fault Error β) :
    (.throw error >>= rest) = .throw error := rfl
@[simp] theorem panic_bind (fault : Fault) (rest : α → Program Reply Fault Error β) :
    (.panic fault >>= rest) = .panic fault := rfl
@[simp] theorem call_bind (op : Op) (next : Reply op → Program Reply Fault Error α)
    (rest : α → Program Reply Fault Error β) :
    (.call op next >>= rest) = .call op fun reply => next reply >>= rest := rfl

@[simp] theorem attempt_done (value : α) : (done value : Program Reply Fault Error α).attempt =
    (.done (.ok value) : Program Reply Fault Error' (Except Error α)) := rfl
@[simp] theorem attempt_throw (error : Error) : (throw error : Program Reply Fault Error α).attempt =
    (.done (.error error) : Program Reply Fault Error' (Except Error α)) := rfl
@[simp] theorem attempt_panic (fault : Fault) : (panic fault : Program Reply Fault Error α).attempt =
    (.panic fault : Program Reply Fault Error' (Except Error α)) := rfl
@[simp] theorem attempt_call (op : Op) (next : Reply op → Program Reply Fault Error α) :
    ((call op next).attempt : Program Reply Fault Error' (Except Error α)) =
      .call op fun reply => (next reply).attempt := rfl
@[simp] theorem mapError_call (convert : Error → Error') (op : Op) (next : Reply op → Program Reply Fault Error α) :
    (call op next).mapError convert = .call op fun reply => (next reply).mapError convert := rfl
@[simp] theorem mapError_done (convert : Error → Error') (value : α) :
    (done value : Program Reply Fault Error α).mapError convert = .done value := rfl
@[simp] theorem mapError_throw (convert : Error → Error') (error : Error) :
    (throw error : Program Reply Fault Error α).mapError convert = .throw (convert error) := rfl
@[simp] theorem mapError_panic (convert : Error → Error') (fault : Fault) :
    (panic fault : Program Reply Fault Error α).mapError convert = .panic fault := rfl
@[simp] theorem unwrap_some (fault : Fault) (value : α) :
    (unwrap fault (some value) : Program Reply Fault Error α) = .done value := rfl
@[simp] theorem unwrap_none (fault : Fault) :
    (unwrap fault none : Program Reply Fault Error α) = .panic fault := rfl
@[simp] theorem okOr_some (error : Error) (value : α) :
    (okOr error (some value) : Program Reply Fault Error α) = .done value := rfl
@[simp] theorem okOr_none (error : Error) :
    (okOr error none : Program Reply Fault Error α) = .throw error := rfl
@[simp] theorem fromResult_ok (value : α) :
    (fromResult (.ok value) : Program Reply Fault Error α) = .done value := rfl
@[simp] theorem fromResult_error (error : Error) :
    (fromResult (.error error) : Program Reply Fault Error α) = .throw error := rfl

theorem bind_bind (program : Program Reply Fault Error α) (first : α → Program Reply Fault Error β)
    (second : β → Program Reply Fault Error γ) :
    (program >>= first) >>= second = program >>= fun value => first value >>= second := by
  induction program with
  | done value => rfl
  | throw error => rfl
  | panic fault => rfl
  | call op next ih => exact congrArg (Program.call op) (funext ih)

theorem mapError_bind (convert : Error → Error') (program : Program Reply Fault Error α)
    (rest : α → Program Reply Fault Error' β) :
    program.mapError convert >>= rest = program.attempt >>= fun
      | .ok value => rest value
      | .error error => .throw (convert error) := by
  induction program with
  | done value => rfl
  | throw error => rfl
  | panic fault => rfl
  | call op next ih => exact congrArg (Program.call op) (funext ih)

end Program

def Outcome.mapError (convert : Error → Error') : Outcome Fault Error α → Outcome Fault Error' α
  | .returned value => .returned value
  | .thrown error => .thrown (convert error)
  | .panicked fault => .panicked fault

def Outcome.attempt : Outcome Fault Error α → Outcome Fault Error' (Except Error α)
  | .returned value => .returned (.ok value)
  | .thrown error => .returned (.error error)
  | .panicked fault => .panicked fault

def Outcome.map (f : α → β) : Outcome Fault Error α → Outcome Fault Error β
  | .returned value => .returned (f value)
  | .thrown error => .thrown error
  | .panicked fault => .panicked fault

@[simp] theorem map_returned {f : α → β} {outcome : Outcome Fault Error α} {value : β} :
    outcome.map f = .returned value ↔ ∃ inner, outcome = .returned inner ∧ f inner = value := by
  cases outcome <;> simp [Outcome.map]

@[simp] theorem map_panicked {f : α → β} {outcome : Outcome Fault Error α} {fault : Fault} :
    outcome.map f = .panicked fault ↔ outcome = .panicked fault := by
  cases outcome <;> simp [Outcome.map]

def Program.stop : Outcome Fault Error α → Program Reply Fault Error α
  | .returned value => .done value
  | .thrown error => .throw error
  | .panicked fault => .panic fault

-- `Follows may ends past p`: whatever the operations of `p` answer, each one is
-- allowed by `may` after the operations of the same program before it, and the
-- program stops only with an outcome that `ends` allows after all of them.
def Follows (may : List (Event Reply) → Op → Prop) (ends : List (Event Reply) → Outcome Fault Error α → Prop) :
    List (Event Reply) → Program Reply Fault Error α → Prop
  | past,.done value => ends past (.returned value)
  | past,.throw error => ends past (.thrown error)
  | past,.panic fault => ends past (.panicked fault)
  | past,.call op next => may past op ∧ ∀ reply, Follows may ends (past ++ [⟨op,reply⟩]) (next reply)

section Rules
variable {may may' : List (Event Reply) → Op → Prop} {past : List (Event Reply)}
  {ends ends' : List (Event Reply) → Outcome Fault Error α → Prop}
  {program : Program Reply Fault Error α}

@[simp] theorem follows_done {value : α} :
    Follows may ends past (.done value) ↔ ends past (.returned value) := .rfl
@[simp] theorem follows_throw {error : Error} :
    Follows may ends past (.throw error) ↔ ends past (.thrown error) := .rfl
@[simp] theorem follows_panic {fault : Fault} :
    Follows may ends past (.panic fault) ↔ ends past (.panicked fault) := .rfl

theorem Follows.mono (follows : Follows may ends past program)
    (allowed : ∀ past op, may past op → may' past op)
    (ended : ∀ past outcome, ends past outcome → ends' past outcome) : Follows may' ends' past program := by
  induction program generalizing past with
  | done value => exact ended _ _ follows
  | throw error => exact ended _ _ follows
  | panic fault => exact ended _ _ follows
  | call op next ih => exact ⟨allowed _ _ follows.1,fun reply => ih reply (follows.2 reply)⟩

-- Sequencing: the first part ends where the rest starts, or ends the whole.
theorem Follows.bind {first : List (Event Reply) → Outcome Fault Error α → Prop}
    {last : List (Event Reply) → Outcome Fault Error β → Prop} {rest : α → Program Reply Fault Error β}
    (follows : Follows may first past program)
    (continues : ∀ past value, first past (.returned value) → Follows may last past (rest value))
    (throws : ∀ past error, first past (.thrown error) → last past (.thrown error))
    (panics : ∀ past fault, first past (.panicked fault) → last past (.panicked fault)) :
    Follows may last past (program >>= rest) := by
  induction program generalizing past with
  | done value => exact continues _ _ follows
  | throw error => exact throws _ _ follows
  | panic fault => exact panics _ _ follows
  | call op next ih => exact ⟨follows.1,fun reply => ih reply (follows.2 reply)⟩

theorem Follows.attempt_bind {first : List (Event Reply) → Outcome Fault Error α → Prop}
    {last : List (Event Reply) → Outcome Fault Error' β → Prop} {rest : Except Error α → Program Reply Fault Error' β}
    (follows : Follows may first past program)
    (continues : ∀ past value, first past (.returned value) → Follows may last past (rest (.ok value)))
    (throws : ∀ past error, first past (.thrown error) → Follows may last past (rest (.error error)))
    (panics : ∀ past fault, first past (.panicked fault) → last past (.panicked fault)) :
    Follows may last past (program.attempt >>= rest) := by
  induction program generalizing past with
  | done value => exact continues _ _ follows
  | throw error => exact throws _ _ follows
  | panic fault => exact panics _ _ follows
  | call op next ih => exact ⟨follows.1,fun reply => ih reply (follows.2 reply)⟩

-- A program only adds to what it has done.
theorem Follows.grown (follows : Follows may ends past program) :
    Follows (fun later op => may later op ∧ past <+: later) (fun later outcome => ends later outcome ∧ past <+: later)
      past program := by
  induction program generalizing past with
  | done value => exact ⟨follows,List.prefix_refl past⟩
  | throw error => exact ⟨follows,List.prefix_refl past⟩
  | panic fault => exact ⟨follows,List.prefix_refl past⟩
  | call op next ih =>
    refine ⟨⟨follows.1,List.prefix_refl past⟩,fun reply => ?_⟩
    apply (ih reply (follows.2 reply)).mono
    · intro later op allowed
      exact ⟨allowed.1,(List.prefix_append past _).trans allowed.2⟩
    · intro later outcome ended
      exact ⟨ended.1,(List.prefix_append past _).trans ended.2⟩

-- Whatever is true of every event that the rules allow is true of all a program did.
theorem Follows.events {good : Event Reply → Prop} (follows : Follows may ends past program)
    (allowed : ∀ past op reply, may past op → good ⟨op,reply⟩) (before : ∀ event ∈ past, good event) :
    Follows (fun later op => may later op ∧ ∀ event ∈ later, good event)
      (fun later outcome => ends later outcome ∧ ∀ event ∈ later, good event) past program := by
  induction program generalizing past with
  | done value => exact ⟨follows,before⟩
  | throw error => exact ⟨follows,before⟩
  | panic fault => exact ⟨follows,before⟩
  | call op next ih =>
    refine ⟨⟨follows.1,before⟩,fun reply => ih reply (follows.2 reply) ?_⟩
    intro event member
    rcases List.mem_append.mp member with old | new
    · exact before event old
    · obtain rfl := List.mem_singleton.mp new
      exact allowed past op reply follows.1

theorem Follows.and (one : Follows may ends past program) (two : Follows may' ends' past program) :
    Follows may (fun later outcome => ends later outcome ∧ ends' later outcome) past program := by
  induction program generalizing past with
  | done value => exact ⟨one,two⟩
  | throw error => exact ⟨one,two⟩
  | panic fault => exact ⟨one,two⟩
  | call op next ih => exact ⟨one.1,fun reply => ih reply (one.2 reply) (two.2 reply)⟩

theorem Follows.all {ι : Sort _} {each : ι → List (Event Reply) → Outcome Fault Error α → Prop}
    (follows : ∀ i, Follows (fun _ _ => True) (each i) past program) :
    Follows (fun _ _ => True) (fun later outcome => ∀ i, each i later outcome) past program := by
  induction program generalizing past with
  | done value => exact follows
  | throw error => exact follows
  | panic fault => exact follows
  | call op next ih => exact ⟨trivial,fun reply => ih reply fun i => (follows i).2 reply⟩

end Rules

theorem Follows.map {first : List (Event Reply) → Outcome Fault Error α → Prop}
    {last : List (Event Reply) → Outcome Fault Error β → Prop} {f : α → β}
    (follows : Follows may first past program) (allowed : ∀ past op, may past op → may' past op)
    (ended : ∀ past outcome, first past outcome → last past (outcome.map f)) : Follows may' last past (f <$> program) := by
  refine (follows.mono allowed fun _ _ ended => ended).bind ?_ ?_ ?_
  · intro later value last
    exact ended later _ last
  · intro later error last
    exact ended later _ last
  · intro later fault last
    exact ended later _ last

-- One program run alone, each operation answered by a deterministic `answer`.
def run (answer : (op : Op) → σ → Reply op × σ) : Program Reply Fault Error α → σ → Outcome Fault Error α × σ
  | .done value,s => (.returned value,s)
  | .throw error,s => (.thrown error,s)
  | .panic fault,s => (.panicked fault,s)
  | .call op next,s => run answer (next (answer op s).1) (answer op s).2

section Run
variable {answer : (op : Op) → σ → Reply op × σ} {s : σ}

@[simp] theorem run_done (value : α) :
    run answer (.done value : Program Reply Fault Error α) s = (.returned value,s) := rfl
@[simp] theorem run_throw (error : Error) :
    run answer (.throw error : Program Reply Fault Error α) s = (.thrown error,s) := rfl
@[simp] theorem run_panic (fault : Fault) :
    run answer (.panic fault : Program Reply Fault Error α) s = (.panicked fault,s) := rfl
@[simp] theorem run_call (op : Op) (next : Reply op → Program Reply Fault Error α) :
    run answer (.call op next) s = run answer (next (answer op s).1) (answer op s).2 := rfl

@[simp] theorem run_stop (outcome : Outcome Fault Error α) :
    run answer (.stop outcome : Program Reply Fault Error α) s = (outcome,s) := by
  cases outcome <;> rfl

theorem run_bind (program : Program Reply Fault Error α) (rest : α → Program Reply Fault Error β) :
    run answer (program >>= rest) s = match run answer program s with
      | (.returned value,middle) => run answer (rest value) middle
      | (.thrown error,middle) => (.thrown error,middle)
      | (.panicked fault,middle) => (.panicked fault,middle) := by
  induction program generalizing s with
  | done value => rfl
  | throw error => rfl
  | panic fault => rfl
  | call op next ih => exact ih _

theorem run_bind_returned {program : Program Reply Fault Error α} {rest : α → Program Reply Fault Error β} {value : β}
    (returned : (run answer (program >>= rest) s).1 = .returned value) : ∃ inner middle,
      run answer program s = (.returned inner,middle) ∧ (run answer (rest inner) middle).1 = .returned value := by
  rw [run_bind] at returned
  split at returned
  · rename_i inner middle same
    exact ⟨inner,middle,same,returned⟩
  · cases returned
  · cases returned

@[simp] theorem run_map (f : α → β) (program : Program Reply Fault Error α) :
    run answer (f <$> program) s = ((run answer program s).1.map f,(run answer program s).2) := by
  induction program generalizing s with
  | done value => rfl
  | throw error => rfl
  | panic fault => rfl
  | call op next ih => exact ih _

@[simp] theorem run_mapError (convert : Error → Error') (program : Program Reply Fault Error α) :
    run answer (program.mapError convert) s =
      ((run answer program s).1.mapError convert,(run answer program s).2) := by
  induction program generalizing s with
  | done value => rfl
  | throw error => rfl
  | panic fault => rfl
  | call op next ih => exact ih _

@[simp] theorem run_attempt (program : Program Reply Fault Error α) :
    run answer (program.attempt : Program Reply Fault Error' (Except Error α)) s =
      ((run answer program s).1.attempt,(run answer program s).2) := by
  induction program generalizing s with
  | done value => rfl
  | throw error => rfl
  | panic fault => rfl
  | call op next ih => exact ih _

end Run

-- The operations of one program run alone, with what each was answered.
def performed (answer : (op : Op) → σ → Reply op × σ) : Program Reply Fault Error α → σ → List (Event Reply)
  | .call op next,s => ⟨op,(answer op s).1⟩ :: performed answer (next (answer op s).1) (answer op s).2
  | .done _,_ | .throw _,_ | .panic _,_ => []

section Performed
variable {answer : (op : Op) → σ → Reply op × σ}

@[simp] theorem performed_call (op : Op) (next : Reply op → Program Reply Fault Error α) (s : σ) :
    performed answer (.call op next) s = ⟨op,(answer op s).1⟩ :: performed answer (next (answer op s).1) (answer op s).2 := rfl

theorem performed_bind (program : Program Reply Fault Error α) (rest : α → Program Reply Fault Error β) (s : σ) :
    performed answer (program >>= rest) s = performed answer program s ++
      match run answer program s with
      | (.returned value,middle) => performed answer (rest value) middle
      | _ => [] := by
  induction program generalizing s with
  | done value => rfl
  | throw error => rfl
  | panic fault => rfl
  | call op next ih => exact congrArg (List.cons _) (ih _ _)

-- What holds however a program ends holds where its run alone ends.
theorem Follows.ended {may : List (Event Reply) → Op → Prop} {ends : List (Event Reply) → Outcome Fault Error α → Prop}
    {past : List (Event Reply)} {program : Program Reply Fault Error α} (follows : Follows may ends past program) (s : σ) :
    ends (past ++ performed answer program s) (run answer program s).1 := by
  induction program generalizing past s with
  | done value => simpa [performed] using follows
  | throw error => simpa [performed] using follows
  | panic fault => simpa [performed] using follows
  | call op next ih => simpa using ih _ (follows.2 (answer op s).1) (answer op s).2

end Performed

end SharedPrograms
