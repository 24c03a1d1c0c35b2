import Mathlib.Data.List.Basic

namespace SharedMatches
variable {α β : Type} {matched : α → β → Prop} {xs : List α} {found : β}

def Unmatched (matched : α → β → Prop) (xs : List α) : Prop := ∀ x ∈ xs, ∀ found, ¬ matched x found

-- What the first element that matches anything is matched with.
inductive First (matched : α → β → Prop) : List α → β → Prop where
  | intro {before after : List α} {x : α} {found : β} (earlier : Unmatched matched before) (met : matched x found) :
      First matched (before ++ x :: after) found

section Search
variable {search : α → Option β} (exact : ∀ x found, search x = some found ↔ matched x found)
include exact

theorem search_none (x : α) : search x = none ↔ ∀ found, ¬ matched x found := by
  rw [Option.eq_none_iff_forall_ne_some]
  exact forall_congr' fun found => not_congr (exact x found)

theorem unmatched_iff : xs.findSome? search = none ↔ Unmatched matched xs := by
  rw [List.findSome?_eq_none_iff]
  exact forall_congr' fun x => forall_congr' fun _ => search_none exact x

theorem first_iff : xs.findSome? search = some found ↔ First matched xs found := by
  rw [List.findSome?_eq_some_iff]
  constructor
  · rintro ⟨before,x,after,rfl,met,earlier⟩
    refine .intro ?_ ((exact x found).mp met)
    intro other member
    exact (search_none exact other).mp (earlier other member)
  · intro first
    cases first with
    | @intro before after x _ earlier met =>
      refine ⟨before,x,after,rfl,(exact x found).mpr met,?_⟩
      intro other member
      exact (search_none exact other).mpr (earlier other member)

end Search

-- What stands behind the last separator.
def afterLast [DecidableEq α] (sep : α) (xs : List α) : List α := (xs.reverse.takeWhile (· ≠ sep)).reverse

theorem afterLast_append [DecidableEq α] {sep : α} {last : List α} (clean : sep ∉ last) (before : List α) :
    afterLast sep (before ++ sep :: last) = last := by
  have kept : ∀ x ∈ last.reverse, decide (x ≠ sep) = true := by
    intro x member
    apply decide_eq_true
    rintro rfl
    exact clean (List.mem_reverse.mp member)
  rw [afterLast,List.reverse_append,List.reverse_cons,List.append_assoc,List.takeWhile_append_of_pos kept]
  simp

end SharedMatches
