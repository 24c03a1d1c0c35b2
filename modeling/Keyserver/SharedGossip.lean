import Mathlib.Logic.Relation
import Mathlib.Order.Bounds.Basic
import Mathlib.Data.Finite.Prod
import Mathlib.Data.Set.Finite.Lattice

namespace SharedGossip
open Relation

variable {Node Info : Type}

structure Exchange (Node : Type) where
  taker : Node
  source : Node

-- What stands at the first node before the exchanges is brought to the last by them.
inductive Carried : List (Exchange Node) → Node → Node → Prop where
  | stands : Carried [] node node
  | kept (later : Carried rest first last) : Carried (exchange :: rest) first last
  | taken (later : Carried rest exchange.taker last) : Carried (exchange :: rest) exchange.source last

variable {trace before after round : List (Exchange Node)} {first middle last : Node} {exchange : Exchange Node}

theorem carried_self (trace : List (Exchange Node)) (node : Node) : Carried trace node node := by
  induction trace with
  | nil => exact .stands
  | cons exchange rest ih => exact .kept ih

theorem carried_append (one : Carried before first middle) (two : Carried after middle last) :
    Carried (before ++ after) first last := by
  induction one with
  | stands => exact two
  | kept later ih => exact .kept (ih two)
  | taken later ih => exact .taken (ih two)

theorem carried_single (member : exchange ∈ trace) : Carried trace exchange.source exchange.taker := by
  obtain ⟨before,after,rfl⟩ := List.append_of_mem member
  exact carried_append (carried_self before _) (.taken (carried_self after _))

section Levels
variable [LinearOrder Info] [DecidableEq Node] {levels : Node → Info}

-- The taker has the better of its own and of what it is told.
def exchanged (levels : Node → Info) (exchange : Exchange Node) : Node → Info :=
  Function.update levels exchange.taker (max (levels exchange.taker) (levels exchange.source))

def spread (levels : Node → Info) (trace : List (Exchange Node)) : Node → Info := trace.foldl exchanged levels

theorem exchanged_above (exchange : Exchange Node) (node : Node) : levels node ≤ exchanged levels exchange node := by
  unfold exchanged
  by_cases same : node = exchange.taker
  · subst same
    rw [Function.update_self]
    exact le_max_left _ _
  · rw [Function.update_of_ne same]

theorem exchanged_taker (exchange : Exchange Node) : levels exchange.source ≤ exchanged levels exchange exchange.taker := by
  rw [exchanged,Function.update_self]
  exact le_max_right _ _

-- After any exchanges a node has the best of all that was brought to it, and no more.
theorem spread_greatest (trace : List (Exchange Node)) (levels : Node → Info) (last : Node) :
    IsGreatest {level | ∃ first, Carried trace first last ∧ levels first = level} (spread levels trace last) := by
  induction trace generalizing levels with
  | nil =>
    refine ⟨⟨last,.stands,rfl⟩,?_⟩
    intro level given
    obtain ⟨first,carried,rfl⟩ := given
    cases carried
    exact le_rfl
  | cons exchange rest ih =>
    obtain ⟨⟨first,carried,same⟩,above⟩ := ih (exchanged levels exchange)
    constructor
    · change ∃ first, _ ∧ levels first = spread (exchanged levels exchange) rest last
      rw [← same]
      by_cases taker : first = exchange.taker
      · subst taker
        rw [exchanged,Function.update_self]
        rcases max_choice (levels exchange.taker) (levels exchange.source) with own | told
        · exact ⟨_,.kept carried,own.symm⟩
        · exact ⟨_,.taken carried,told.symm⟩
      · rw [exchanged,Function.update_of_ne taker]
        exact ⟨first,.kept carried,rfl⟩
    · intro level given
      obtain ⟨first,carried,rfl⟩ := given
      cases carried with
      | kept later => exact (exchanged_above exchange first).trans (above ⟨first,later,rfl⟩)
      | taken later => exact (exchanged_taker exchange).trans (above ⟨exchange.taker,later,rfl⟩)

end Levels

section Rounds

-- In the round the one is taken from by the other.
def Linked (round : List (Exchange Node)) (source taker : Node) : Prop :=
  ∃ exchange ∈ round, exchange.source = source ∧ exchange.taker = taker

def rounds (n : Nat) (round : List (Exchange Node)) : List (Exchange Node) := (List.replicate n round).flatten

theorem rounds_succ (n : Nat) (round : List (Exchange Node)) : rounds (n + 1) round = rounds n round ++ round := by
  simp [rounds,List.replicate_succ']

theorem rounds_carried (linked : ReflTransGen (Linked round) first last) :
    ∃ n, ∀ m, n ≤ m → Carried (rounds m round) first last := by
  induction linked with
  | refl => exact ⟨0,fun m _ => carried_self _ _⟩
  | tail _ link ih =>
    obtain ⟨n,carried⟩ := ih
    obtain ⟨exchange,member,rfl,rfl⟩ := link
    refine ⟨n + 1,fun m enough => ?_⟩
    obtain ⟨m,rfl⟩ := Nat.exists_eq_add_of_le' enough
    rw [← Nat.add_assoc,rounds_succ]
    exact carried_append (carried (m + n) (Nat.le_add_left n m)) (carried_single member)

-- Where every node is linked with every other, enough rounds carry all to all.
theorem rounds_everywhere [Finite Node] (connected : ∀ first last, ReflTransGen (Linked round) first last) :
    ∃ n, ∀ m, n ≤ m → ∀ first last, Carried (rounds m round) first last := by
  have each : ∀ pair : Node × Node, ∃ n, ∀ m, n ≤ m → Carried (rounds m round) pair.1 pair.2 :=
    fun pair => rounds_carried (connected pair.1 pair.2)
  choose enough carried using each
  obtain ⟨n,bound⟩ := Set.Finite.bddAbove (Set.finite_range enough)
  exact ⟨n,fun m most first last => carried (first,last) m ((bound ⟨(first,last),rfl⟩).trans most)⟩

-- Then all of them have the best that any of them had.
theorem rounds_agree [LinearOrder Info] [DecidableEq Node] {levels : Node → Info}
    (everywhere : ∀ first last, Carried trace first last) (node : Node) :
    IsGreatest (Set.range levels) (spread levels trace node) := by
  obtain ⟨⟨first,-,same⟩,above⟩ := spread_greatest trace levels node
  refine ⟨⟨first,same⟩,?_⟩
  intro level given
  obtain ⟨other,rfl⟩ := given
  exact above ⟨other,everywhere other node,rfl⟩

end Rounds

end SharedGossip
