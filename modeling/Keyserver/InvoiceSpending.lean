import Keyserver.ServerProtocol
import Keyserver.SampleDeployment

namespace Keyserver.InvoiceSpending
open SharedPrograms SharedPools ServerProtocol SampleDeployment

def fresh (pkHash : Bytes) (entry : Nat × Event Reply) : Bool := entry.2 = ⟨.walletInsert pkHash,true⟩

def freshInsertions (pkHash : Bytes) (log : Log) : Nat := log.countP (fresh pkHash)

@[simp] theorem freshInsertions_append (pkHash : Bytes) (before after : Log) :
    freshInsertions pkHash (before ++ after) = freshInsertions pkHash before + freshInsertions pkHash after :=
  List.countP_append

@[simp] theorem freshInsertions_cons (pkHash : Bytes) (entry : Nat × Event Reply) (log : Log) :
    freshInsertions pkHash (entry :: log) = freshInsertions pkHash log + if fresh pkHash entry then 1 else 0 :=
  List.countP_cons

-- A `check_outputs` of thread `i` that returns true on account of the hash: it
-- saw the hash, after so many fresh insertions, and has removed it.
def Spent (log : Log) (pkHash : Bytes) (insertions i : Nat) : Prop :=
  ∃ before after present, log = before ++ (i,⟨.walletContains pkHash,true⟩) :: after ∧
    (i,⟨.walletRemove pkHash,present⟩) ∈ after ∧ freshInsertions pkHash before = insertions

def SpentOnce (log : Log) : Prop :=
  ∀ pkHash insertions i j, Spent log pkHash insertions i → Spent log pkHash insertions j → i = j

-- Another thread has seen the same insertion of the hash and not removed it yet.
def Holding (log : Log) (pkHash : Bytes) (i : Nat) : Prop :=
  ∃ before after, log = before ++ (i,⟨.walletContains pkHash,true⟩) :: after ∧ freshInsertions pkHash after = 0 ∧
    ∀ present, (i,⟨.walletRemove pkHash,present⟩) ∉ after

def Uncontested (s : ServerPool) : Act Reply Request Clock → Prop
  | .perform i ⟨.walletContains pkHash,true⟩ => ∀ j, j ≠ i → ¬ Holding s.log pkHash j
  | _ => True

variable {d : Deployment} {clock : Clock} {s : ServerPool} {meets : ServerPool → Act Reply Request Clock → Prop}

theorem removed_absent (path : Reached (server d) meets (Shared.empty clock) s) :
    ∀ before i pkHash present after, s.log = before ++ (i,⟨.walletRemove pkHash,present⟩) :: after →
      freshInsertions pkHash after = 0 → pkHash ∉ s.shared.wallet := by
  refine @logged_invariant d (fun log shared => ∀ before i pkHash present after,
    log = before ++ (i,⟨.walletRemove pkHash,present⟩) :: after → freshInsertions pkHash after = 0 → pkHash ∉ shared.wallet)
    meets _ s ?_ ?_ ?_ path
  · simp
  · intro log shared clock valid
    exact valid
  · intro log shared j event next effect valid before i pkHash present after logged stale
    rcases split_last logged with ⟨-,new,-⟩ | ⟨tail,rfl,split⟩
    · simp only [Prod.mk.injEq] at new
      obtain ⟨rfl,rfl⟩ := new
      cases effect with
      | remove => exact Finset.notMem_erase pkHash shared.wallet
    · simp only [freshInsertions_append,Nat.add_eq_zero_iff] at stale
      have absent := valid before i pkHash present tail split stale.1
      cases effect with
      | @insert addr =>
        have other : pkHash ≠ addr := by
          intro same
          subst same
          simp [freshInsertions,fresh,absent] at stale
        simp [other,absent]
      | remove => exact fun member => absent (Finset.mem_of_mem_erase member)
      | _ => exact absent

theorem uncontested_seen (path : Reached (server d) Uncontested (Shared.empty clock) s) {before middle after : Log}
    {i j : Nat} {pkHash : Bytes} (logged : s.log = before ++ (i,⟨.walletContains pkHash,true⟩) :: middle ++
      (j,⟨.walletContains pkHash,true⟩) :: after) (stale : freshInsertions pkHash middle = 0) : i = j := by
  by_contra different
  obtain ⟨moment,later,prior,log,met,step,-⟩ := reached_logged path logged
  have removed : ∃ present, (i,⟨.walletRemove pkHash,present⟩) ∈ middle := by
    by_contra kept
    exact met i different ⟨before,middle,log,stale,fun present removed => kept ⟨present,removed⟩⟩
  obtain ⟨present,removed⟩ := removed
  obtain ⟨front,back,rfl⟩ := List.append_of_mem removed
  have absent : pkHash ∉ moment.shared.wallet := by
    refine removed_absent prior (before ++ (i,⟨.walletContains pkHash,true⟩) :: front) i pkHash present back ?_ ?_
    · rw [log,List.append_assoc,List.cons_append]
    · simp only [freshInsertions_append,freshInsertions_cons] at stale
      omega
  cases step with
  | perform running answered => simp [server,answer,absent] at answered

-- In every run in which nobody looks at a hash that another handler is about to
-- remove, each fresh insertion pays for one `check_outputs` at most.
theorem uncontested_spentOnce (path : Reached (server d) Uncontested (Shared.empty clock) s) : SpentOnce s.log := by
  intro pkHash insertions i j one two
  obtain ⟨before,after,present,logged,-,count⟩ := one
  obtain ⟨before',after',present',logged',-,count'⟩ := two
  rcases split_order (logged.symm.trans logged') with same | ⟨middle,rfl⟩ | ⟨middle,rfl⟩
  · exact congrArg Prod.fst same
  · simp only [freshInsertions_append,freshInsertions_cons] at count'
    exact uncontested_seen path logged' (by omega)
  · simp only [freshInsertions_append,freshInsertions_cons] at count
    exact (uncontested_seen path logged (by omega)).symm

def unseen (s : ServerPool) : Act Reply Request Clock → Bool
  | .perform _ ⟨.walletContains pkHash,true⟩ => s.log.all fun entry => entry.2 ≠ ⟨.walletContains pkHash,true⟩
  | _ => true

theorem unseen_uncontested (s : ServerPool) (act : Act Reply Request Clock) (passed : unseen s act = true) :
    Uncontested s act := by
  unfold Uncontested
  split
  · rintro j - ⟨before,after,logged,-⟩
    simp [unseen,logged] at passed
  · trivial

theorem spent_in_turn : ∃ s : ServerPool, s.log.drop 3 = [(1,⟨.walletContains walletHash,true⟩),
    (1,⟨.walletRemove walletHash,true⟩),(2,⟨.walletContains walletHash,false⟩)] ∧ SpentOnce s.log := by
  have done : ((server (deployment false)).drive (SoloRuns.reply calm) unseen
      [.arrive (.keys unpaidPut),.thread 0,.thread 0,.thread 0,.arrive (.payments paying),.arrive (.payments paying),
        .thread 1,.thread 1,.thread 2] (.start (Shared.empty epoch))).map (fun s => s.log.drop 3) =
      some [(1,⟨.walletContains walletHash,true⟩),(1,⟨.walletRemove walletHash,true⟩),
        (2,⟨.walletContains walletHash,false⟩)] := by decide +kernel
  obtain ⟨s,driven,logged⟩ := Option.map_eq_some_iff.mp done
  exact ⟨s,logged,uncontested_spentOnce (drive_reached unseen_uncontested .start driven)⟩

def status (s : ServerPool) (i : Nat) : Option StatusCode :=
  (s.returned i).bind fun answered => match answered with
    | .http resp => some resp.status
    | _ => none

-- Each looks before the other removes: both are answered 202 for one insertion.
theorem interleaved_spends_twice : ∃ s : ServerPool,
    Reached (server (deployment false)) (fun _ _ => True) (Shared.empty epoch) s ∧ ¬ SpentOnce s.log ∧
      freshInsertions walletHash s.log = 1 ∧ status s 1 = some .accepted ∧ status s 2 = some .accepted := by
  have done : (driven (deployment false)
      [.arrive (.keys unpaidPut),.thread 0,.thread 0,.thread 0,.arrive (.payments paying),.arrive (.payments paying),
        .thread 1,.thread 2,.thread 1,.thread 2,.thread 1,.thread 2]).any (fun s =>
      (s.log.drop 3).take 4 = [(1,⟨.walletContains walletHash,true⟩),(2,⟨.walletContains walletHash,true⟩),
        (1,⟨.walletRemove walletHash,true⟩),(2,⟨.walletRemove walletHash,false⟩)] &&
      freshInsertions walletHash (s.log.take 3) = 1 && freshInsertions walletHash s.log = 1 &&
      status s 1 = some .accepted && status s 2 = some .accepted) = true := by decide +kernel
  obtain ⟨s,reached,facts⟩ := (Option.any_eq_true _ _).mp done
  simp only [Bool.and_eq_true,decide_eq_true_eq] at facts
  obtain ⟨⟨⟨⟨race,issued⟩,once⟩,first⟩,second⟩ := facts
  refine ⟨s,driven_reached reached,?_,once,first,second⟩
  intro spentOnce
  have logged : s.log = s.log.take 3 ++ ((s.log.drop 3).take 4 ++ (s.log.drop 3).drop 4) := by
    rw [List.take_append_drop,List.take_append_drop]
  rw [race] at logged
  have one : Spent s.log walletHash 1 1 := ⟨_,_,true,logged,by simp,issued⟩
  have two : Spent s.log walletHash 1 2 := by
    refine ⟨s.log.take 3 ++ [(1,⟨.walletContains walletHash,true⟩)],_,false,logged.trans (List.append_cons ..),by simp,?_⟩
    rw [freshInsertions_append,issued]
    rfl
  cases spentOnce walletHash 1 1 2 one two

end Keyserver.InvoiceSpending
