import Mathlib.Data.List.Induction
import Keyserver.SharedPools

namespace SharedRestarts
open SharedPrograms SharedPools

variable {Op : Type} {Reply : Op → Type} {Fault Error α σ Request Nature : Type}

-- The lives of a machine that is stopped and started again and again: each is a run of
-- its own, which may be stopped anywhere, and the next starts with what it left. The
-- last index is what the life to come starts with.
inductive Lives (m : Machine Reply Fault Error α σ Request Nature)
    (meets : Pool Reply Fault Error α σ Request → Act Reply Request Nature → Prop) (initial : σ → Prop) (boots : σ → σ → Prop) :
    List (Pool Reply Fault Error α σ Request) → σ → Prop where
  | first (fresh : initial origin) : Lives m meets initial boots [] origin
  | again (earlier : Lives m meets initial boots lives origin) (path : Reached m meets origin s) (booted : boots s.shared next) :
      Lives m meets initial boots (lives ++ [s]) next

variable {m : Machine Reply Fault Error α σ Request Nature}
  {meets : Pool Reply Fault Error α σ Request → Act Reply Request Nature → Prop} {initial : σ → Prop} {boots : σ → σ → Prop}
  {lives earlier later : List (Pool Reply Fault Error α σ Request)} {origin : σ} {s : Pool Reply Fault Error α σ Request}

theorem Lives.last (lived : Lives m meets initial boots (lives ++ [s]) origin) :
    ∃ start, Lives m meets initial boots lives start ∧ Reached m meets start s ∧ boots s.shared origin := by
  generalize all : lives ++ [s] = whole at lived
  cases lived with
  | first => simp at all
  | again earlier path booted =>
    obtain ⟨rfl,same⟩ := List.append_inj' all rfl
    obtain rfl := List.singleton_inj.mp same
    exact ⟨_,earlier,path,booted⟩

-- Every life was a run from what the lives before it left.
theorem Lives.life (lived : Lives m meets initial boots (earlier ++ s :: later) origin) :
    ∃ start, Lives m meets initial boots earlier start ∧ Reached m meets start s := by
  induction later using List.reverseRecOn generalizing origin with
  | nil =>
    obtain ⟨start,before,path,-⟩ := lived.last
    exact ⟨start,before,path⟩
  | append_singleton later final ih =>
    rw [← List.cons_append,← List.append_assoc] at lived
    obtain ⟨start,before,-,-⟩ := lived.last
    exact ih before

-- What each life keeps, and each start hands on, is kept from the end of one life to
-- the start of any later one.
theorem Lives.carried {held : List (Pool Reply Fault Error α σ Request) → σ → Prop}
    (lasts : ∀ later start t, held later start → Reached m meets start t → held (later ++ [t]) t.shared)
    (booted : ∀ later left next, held later left → boots left next → held later next)
    (lived : Lives m meets initial boots (earlier ++ s :: later) origin) (ended : held [] s.shared) : held later origin := by
  induction later using List.reverseRecOn generalizing origin with
  | nil =>
    obtain ⟨-,-,-,boot⟩ := lived.last
    exact booted _ _ _ ended boot
  | append_singleton later final ih =>
    rw [← List.cons_append,← List.append_assoc] at lived
    obtain ⟨start,before,path,boot⟩ := lived.last
    exact booted _ _ _ (lasts _ _ _ (ih before) path) boot

end SharedRestarts
