import Mathlib.Order.Lattice
import Mathlib.Data.List.Induction
import Mathlib.Data.List.Perm.Basic

namespace SharedUpdates

variable {V T : Type} [LinearOrder T] (stamp : V → T)

-- A register that takes every update but those with an earlier stamp.
def keepNewer (current : Option V) (update : V) : Option V :=
  match current with
  | none => some update
  | some old => if stamp update < stamp old then some old else some update

def newest (updates : List V) : Option V := updates.foldl (keepNewer stamp) none

-- The last among the updates of the greatest stamp.
def LastGreatest (updates : List V) (update : V) : Prop :=
  ∃ before after, updates = before ++ update :: after ∧ (∀ other ∈ before, stamp other ≤ stamp update) ∧
    ∀ other ∈ after, stamp other < stamp update

def Greatest (updates : List V) (update : V) : Prop := update ∈ updates ∧ ∀ other ∈ updates, stamp other ≤ stamp update

variable {stamp} {updates : List V} {update : V}

@[simp] theorem newest_nil : newest stamp [] = none := rfl

@[simp] theorem newest_append (updates : List V) (update : V) :
    newest stamp (updates ++ [update]) = keepNewer stamp (newest stamp updates) update := by
  simp [newest]

theorem LastGreatest.greatest (last : LastGreatest stamp updates update) : Greatest stamp updates update := by
  obtain ⟨before,after,rfl,earlier,later⟩ := last
  refine ⟨by simp,?_⟩
  intro other member
  rcases List.mem_append.mp member with old | new
  · exact earlier other old
  · rcases List.mem_cons.mp new with rfl | rest
    · exact le_refl _
    · exact le_of_lt (later other rest)

theorem LastGreatest.unique {other : V} (one : LastGreatest stamp updates update) (two : LastGreatest stamp updates other) :
    update = other := by
  obtain ⟨before,after,rfl,earlier,later⟩ := one
  obtain ⟨before',after',same,earlier',later'⟩ := two
  rcases List.append_eq_append_iff.mp same with ⟨extra,rfl,rest⟩ | ⟨extra,rfl,rest⟩
  · cases extra with
    | nil => exact List.head_eq_of_cons_eq rest
    | cons first middle =>
      obtain ⟨rfl,tail⟩ := List.cons.inj rest
      have below := earlier' update (by simp)
      have above := later other (by rw [tail]; simp)
      exact absurd below (not_le_of_gt above)
  · cases extra with
    | nil => exact (List.head_eq_of_cons_eq rest).symm
    | cons first middle =>
      obtain ⟨rfl,tail⟩ := List.cons.inj rest
      have below := earlier other (by simp)
      have above := later' update (by rw [tail]; simp)
      exact absurd below (not_le_of_gt above)

theorem keepNewer_kept {current : Option V} : keepNewer stamp current update ≠ none := by
  cases current with
  | none => simp [keepNewer]
  | some old =>
    simp only [keepNewer]
    split <;> simp

theorem newest_none : newest stamp updates = none ↔ updates = [] := by
  constructor
  · intro empty
    cases updates using List.reverseRecOn with
    | nil => rfl
    | append_singleton front last =>
      rw [newest_append] at empty
      exact absurd empty keepNewer_kept
  · rintro rfl
    rfl

theorem newest_last (found : newest stamp updates = some update) : LastGreatest stamp updates update := by
  induction updates using List.reverseRecOn generalizing update with
  | nil => cases found
  | append_singleton updates new ih =>
    rw [newest_append] at found
    cases old : newest stamp updates with
    | none =>
      rw [old] at found
      obtain rfl := Option.some.inj found
      obtain rfl := newest_none.mp old
      exact ⟨[],[],rfl,by simp,by simp⟩
    | some kept =>
      rw [old] at found
      simp only [keepNewer] at found
      have last := ih old
      split at found
      · rename_i less
        obtain rfl := Option.some.inj found
        obtain ⟨before,after,rfl,earlier,later⟩ := last
        refine ⟨before,after ++ [new],by simp,earlier,?_⟩
        intro other member
        rcases List.mem_append.mp member with rest | final
        · exact later other rest
        · obtain rfl := List.mem_singleton.mp final
          exact less
      · rename_i notLess
        obtain rfl := Option.some.inj found
        refine ⟨_,[],rfl,?_,by simp⟩
        intro other member
        exact le_trans (last.greatest.2 other member) (le_of_not_gt notLess)

theorem newest_some : newest stamp updates = some update ↔ LastGreatest stamp updates update := by
  constructor
  · exact newest_last
  · intro last
    cases found : newest stamp updates with
    | none =>
      rw [newest_none.mp found] at last
      exact absurd last.greatest.1 (by simp)
    | some other => rw [(newest_last found).unique last]

-- The register is what every order of the updates leaves, just where no two
-- updates share the greatest stamp.
theorem newest_perm : (∀ others, others.Perm updates → newest stamp others = newest stamp updates) ↔
    ∀ one two, Greatest stamp updates one → Greatest stamp updates two → one = two := by
  constructor
  · intro alike one two first second
    have ends : ∀ last, Greatest stamp updates last → newest stamp updates = some last := by
      intro last greatest
      obtain ⟨before,after,rfl⟩ := List.append_of_mem greatest.1
      have order : (before ++ after ++ [last]).Perm (before ++ last :: after) := by
        rw [List.append_assoc]
        exact List.Perm.append_left before (List.perm_append_singleton last after)
      rw [← alike _ order]
      refine newest_some.mpr ⟨before ++ after,[],rfl,?_,by simp⟩
      intro other member
      apply greatest.2
      rcases List.mem_append.mp member with old | new
      · exact List.mem_append_left _ old
      · exact List.mem_append_right _ (List.mem_cons_of_mem _ new)
    exact Option.some.inj ((ends one first).symm.trans (ends two second))
  · intro single others order
    cases found : newest stamp updates with
    | none =>
      obtain rfl := newest_none.mp found
      exact newest_none.mpr order.eq_nil
    | some last =>
      have greatest := (newest_last found).greatest
      cases found' : newest stamp others with
      | none =>
        obtain rfl := newest_none.mp found'
        rw [order.symm.eq_nil] at greatest
        exact absurd greatest.1 (by simp)
      | some last' =>
        have greatest' := (newest_last found').greatest
        rw [single last' last ⟨order.mem_iff.mp greatest'.1,fun other member => greatest'.2 other (order.mem_iff.mpr member)⟩
          greatest]

end SharedUpdates
