import Mathlib.Logic.Function.Basic
import Keyserver.SharedPools

namespace SharedNetworks
open SharedPrograms SharedPools

variable {Op : Type} {Reply : Op → Type} {Fault Error α σ Request Nature Node : Type}

abbrev Pools {Op : Type} (Node : Type) (Reply : Op → Type) (Fault Error α σ Request : Type) :=
  Node → Pool Reply Fault Error α σ Request

-- Pools side by side: each runs on its own machine, and the others only reach it
-- through the answers of its operations, which `carries` ties to their state.
structure Network {Op : Type} (Node : Type) (Reply : Op → Type) (Fault Error α σ Request Nature : Type) where
  machine : Node → Machine Reply Fault Error α σ Request Nature
  origin : Node → σ
  carries : Pools Node Reply Fault Error α σ Request → Node → Act Reply Request Nature → Prop

-- What later pools keep of earlier ones.
structure Grown (before after : Pools Node Reply Fault Error α σ Request) : Prop where
  logs : ∀ node, (before node).log <+: (after node).log
  requests : ∀ node (i : Nat) request, (before node).requests[i]? = some request → (after node).requests[i]? = some request

theorem Grown.logged {before after : Pools Node Reply Fault Error α σ Request} (grown : Grown before after) {node : Node}
    {entry : Nat × Event Reply} (logged : entry ∈ (before node).log) : entry ∈ (after node).log :=
  (grown.logs node).subset logged

theorem step_log {m : Machine Reply Fault Error α σ Request Nature} {s next : Pool Reply Fault Error α σ Request}
    {act : Act Reply Request Nature} (step : Step m s act next) : s.log <+: next.log := by
  cases step with
  | arrive => exact List.prefix_refl _
  | perform running answered => exact List.prefix_append _ _
  | surroundings moved => exact List.prefix_refl _

variable [DecidableEq Node]

inductive Running (net : Network Node Reply Fault Error α σ Request Nature) :
    Pools Node Reply Fault Error α σ Request → Prop where
  | start : Running net fun node => .start (net.origin node)
  | step (prior : Running net pools) (carried : net.carries pools node act)
      (step : Step (net.machine node) (pools node) act next) : Running net (Function.update pools node next)

variable {net : Network Node Reply Fault Error α σ Request Nature} {pools : Pools Node Reply Fault Error α σ Request}
  {node : Node} {act : Act Reply Request Nature} {next : Pool Reply Fault Error α σ Request}

-- Every node of the network goes a way it could have gone by itself.
theorem running_reached (running : Running net pools) (node : Node) :
    Reached (net.machine node) (fun _ _ => True) (net.origin node) (pools node) := by
  induction running with
  | start => exact .start
  | @step pools moved act next prior carried step ih =>
    by_cases same : node = moved
    · subst same
      rw [Function.update_self]
      exact .step ih trivial step
    · rw [Function.update_of_ne same]
      exact ih

theorem step_grown (step : Step (net.machine node) (pools node) act next) : Grown pools (Function.update pools node next) where
  logs := by
    intro other
    by_cases same : other = node
    · subst same
      rw [Function.update_self]
      exact step_log step
    · have still : Function.update pools node next other = pools other := Function.update_of_ne same next pools
      exact still.symm ▸ List.prefix_refl _
  requests := by
    intro other i request known
    by_cases same : other = node
    · subst same
      rw [Function.update_self]
      exact step_request step known
    · rwa [Function.update_of_ne same]

-- What every event is when it happens, by those before it anywhere, it still is later.
theorem running_events {good : Pools Node Reply Fault Error α σ Request → Node → Nat × Event Reply → Prop}
    (kept : ∀ {before after node entry}, Grown before after → good before node entry → good after node entry)
    (performed : ∀ {pools node i event next}, Running net pools →
      (∀ other entry, entry ∈ (pools other).log → good pools other entry) → net.carries pools node (.perform i event) →
        Step (net.machine node) (pools node) (.perform i event) next → good (Function.update pools node next) node (i,event))
    (running : Running net pools) : ∀ node entry, entry ∈ (pools node).log → good pools node entry := by
  induction running with
  | start =>
    intro node entry logged
    cases logged
  | @step pools moved act next prior carried step ih =>
    intro node entry logged
    have grown := step_grown step
    by_cases old : entry ∈ (pools node).log
    · exact kept grown (ih node entry old)
    · by_cases same : node = moved
      · subst same
        rw [Function.update_self] at logged
        cases act with
        | perform i event =>
          have new := performed prior ih carried step
          cases step with
          | perform standing answered =>
            obtain rfl := List.mem_singleton.mp ((List.mem_append.mp logged).resolve_left old)
            exact new
        | arrive request =>
          cases step
          exact absurd logged old
        | surroundings move =>
          cases step
          exact absurd logged old
      · rw [Function.update_of_ne same] at logged
        exact absurd logged old

-- One node driven on its own while the others wait.
theorem drive_running {pick : σ → (op : Op) → Reply op}
    {test : Pool Reply Fault Error α σ Request → Act Reply Request Nature → Bool} {turns : List (Turn Request Nature)}
    {last : Pool Reply Fault Error α σ Request}
    (tested : ∀ s act, test s act = true → net.carries (Function.update pools node s) node act) (running : Running net pools)
    (driven : (net.machine node).drive pick test turns (pools node) = some last) :
    Running net (Function.update pools node last) := by
  induction turns generalizing pools with
  | nil =>
    cases driven
    rwa [Function.update_eq_self]
  | cons turn rest ih =>
    obtain ⟨act,next,turned,passed,driven⟩ := drive_cons driven
    have carried := tested (pools node) act passed
    rw [Function.update_eq_self] at carried
    have later := @ih (Function.update pools node next)
    rw [Function.update_self,Function.update_idem] at later
    apply later _ (running.step carried (turn_step turned)) driven
    intro s act passed
    rw [Function.update_idem]
    exact tested s act passed

end SharedNetworks
