import Keyserver.SharedLocks
import Keyserver.InvoiceSpending
import Keyserver.StaleOverwrite
import Keyserver.LazyDeletion

namespace Keyserver.ExclusiveRuns
open SharedPrograms SharedPools SharedLocks KeyDb KeyProtocol ServerProtocol StoreWindows LazyDeletion StaleOverwrite
  SampleDeployment
open InvoiceSpending

-- What two requests can meet in: the entry of a key, and an address in the wallet.
inductive Cell where
  | entry (key : Bytes)
  | address (pkHash : Bytes)
  deriving DecidableEq, Repr

abbrev Cell.Value : Cell → Type
  | .entry _ => Option Bytes
  | .address _ => Bool

def touches : Op → Option Cell
  | .dbGet key | .dbPut key _ | .dbDelete key | .compactionRead key | .compactionDrop key _ => some (.entry key)
  | .walletContains pkHash | .walletInsert pkHash | .walletRemove pkHash => some (.address pkHash)
  | .now | .rpcSend _ | .httpGet _ | .delayFor _ | .serviceCall _ _ _ _ => none

def content (s : Shared) : (cell : Cell) → cell.Value
  | .entry key => s.db key
  | .address pkHash => decide (pkHash ∈ s.wallet)

theorem held_frame {s next : Shared} {op : Op} {reply : Reply op} {cell : Cell} (answered : answer s op reply = some next)
    (elsewhere : touches op ≠ some cell) : content next cell = content s cell := by
  have effect := answer_effect answered
  cases effect with
  | @put key value | @delete key | @compactionDrop key value current =>
    cases cell with
    | entry other =>
      have different : other ≠ key := fun same => elsewhere (by rw [same]; rfl)
      exact store_other s _ different
    | address pkHash => rfl
  | @insert pkHash =>
    cases cell with
    | entry key => rfl
    | address other =>
      have different : other ≠ pkHash := fun same => elsewhere (by rw [same]; rfl)
      simp [content,different]
  | @remove pkHash =>
    cases cell with
    | entry key => rfl
    | address other =>
      have different : other ≠ pkHash := fun same => elsewhere (by rw [same]; rfl)
      simp [content,different]
  | _ => rfl

theorem held_replay {s t next : Shared} {op : Op} {reply : Reply op} (answered : answer s op reply = some next)
    (agree : ∀ cell, touches op = some cell → content t cell = content s cell) :
    ∃ clock ready last, tick clock t = some ready ∧ answer ready op reply = some last ∧
      ∀ cell, touches op = some cell → content last cell = content next cell := by
  have waits : tick t.clock t = some t := rfl
  cases op with
  | dbGet key =>
    have same : t.db key = s.db key := agree (.entry key) rfl
    rcases reply with err | value
    · cases answered
      exact ⟨t.clock,t,t,waits,rfl,agree⟩
    · obtain ⟨rfl,rfl⟩ := answer_get answered
      exact ⟨t.clock,t,t,waits,by simp [answer,same],agree⟩
  | dbPut key value =>
    rcases reply with err | done
    · cases answered
      exact ⟨t.clock,t,t,waits,rfl,agree⟩
    · cases answered
      refine ⟨t.clock,t,_,waits,rfl,?_⟩
      intro cell same
      cases same
      simp [content]
  | dbDelete key =>
    rcases reply with err | done
    · cases answered
      exact ⟨t.clock,t,t,waits,rfl,agree⟩
    · cases answered
      refine ⟨t.clock,t,_,waits,rfl,?_⟩
      intro cell same
      cases same
      simp [content]
  | compactionRead key =>
    have same : t.db key = s.db key := agree (.entry key) rfl
    obtain ⟨rfl,rfl⟩ := answer_compactionRead answered
    exact ⟨t.clock,t,t,waits,by simp [answer,same],agree⟩
  | compactionDrop key value =>
    have same : t.db key = s.db key := agree (.entry key) rfl
    simp only [answer] at answered
    by_cases current : s.db key = some value
    · rw [if_pos current] at answered
      cases answered
      refine ⟨t.clock,t,_,waits,if_pos (same.trans current),?_⟩
      intro cell same
      cases same
      simp [content]
    · rw [if_neg current] at answered
      cases answered
      refine ⟨t.clock,t,t,waits,if_neg (same ▸ current),?_⟩
      exact agree
  | now =>
    refine ⟨reply,{t with clock := reply},{t with clock := reply},rfl,if_pos rfl,?_⟩
    intro cell touched
    cases touched
  | walletContains pkHash | walletInsert pkHash | walletRemove pkHash =>
    have same : (pkHash ∈ t.wallet) = (pkHash ∈ s.wallet) := propext (decide_eq_decide.mp (agree (.address pkHash) rfl))
    obtain ⟨replied,rfl⟩ := granted answered
    refine ⟨t.clock,t,_,waits,if_pos (by simpa only [same] using replied),?_⟩
    intro cell same
    cases same
    simp [content,same]
  | rpcSend request | httpGet url | delayFor secs | serviceCall method scheme host path =>
    cases answered
    exact ⟨t.clock,t,t,waits,rfl,agree⟩

def cells (d : Deployment) : Cells (server d) Cell.Value where
  touches := touches
  value := content
  frame := held_frame
  still := by
    intro s clock next cell moved
    cases moved
    cases cell <;> rfl
  replay := held_replay

variable {d : Deployment} {clock : Clock} {s : ServerPool}

-- A run in which no request touches an entry or an address that another one at work
-- has touched before.
abbrev Exclusive (d : Deployment) : ServerPool → Act Reply Request Clock → Prop := (cells d).Exclusive

-- The requests of the run that are done, served one after the other in the order in
-- which they ended: each does and answers the same, and what no request at work has
-- touched is held the same.
structure ServedInTurn (d : Deployment) (clock : Clock) (s seq : ServerPool) (order : List Nat) : Prop where
  path : Reached (server d) Sequential (Shared.empty clock) seq
  listed : ∀ i, i ∈ order ↔ i < s.threads.length ∧ ¬ AtWork s i
  nodup : order.Nodup
  ordered : order.Pairwise (EndsBefore s.log)
  length : seq.threads.length = order.length
  same : ∀ (k i : Nat), order[k]? = some i → seq.threads[k]? = s.threads[i]? ∧ history seq.log k = history s.log i
  entries : ∀ key, (∀ i, ¬ (cells d).Occupies s i (.entry key)) → seq.shared.db key = s.shared.db key
  addresses : ∀ pkHash, (∀ i, ¬ (cells d).Occupies s i (.address pkHash)) →
    (pkHash ∈ seq.shared.wallet ↔ pkHash ∈ s.shared.wallet)

theorem exclusive_serializable (path : Reached (server d) (Exclusive d) (Shared.empty clock) s) :
    ∃ seq order, ServedInTurn d clock s seq order := by
  obtain ⟨seq,order,serial⟩ := exclusive_serialises path
  refine ⟨seq,order,serial.path,serial.listed,serial.nodup,serial.ordered,serial.length,serial.same,?_,?_⟩
  · intro key alone
    exact serial.free (.entry key) fun i busy touched => alone i ⟨busy,touched⟩
  · intro pkHash alone
    have same := serial.free (.address pkHash) fun i busy touched => alone i ⟨busy,touched⟩
    simpa [cells,content] using same

def unshared (s : ServerPool) : Act Reply Request Clock → Bool
  | .perform i event => s.log.all fun entry => entry.1 = i || touches event.op = none || touches entry.2.op ≠ touches event.op
  | _ => true

theorem unshared_exclusive (s : ServerPool) (act : Act Reply Request Clock) (passed : unshared s act = true) :
    Exclusive d s act := by
  cases act with
  | arrive request => trivial
  | surroundings clock => trivial
  | perform i event =>
    intro cell touched j different occupies
    obtain ⟨busy,earlier,member,touched'⟩ := occupies
    have apart := List.all_eq_true.mp passed _ (mem_history.mp member)
    have mine : touches event.op = some cell := touched
    have theirs : touches earlier.op = some cell := touched'
    simp [different,mine,theirs] at apart

-- A put of a key and the issuing of an invoice, operation by operation in turns.
def interleaved : List (Turn Request Clock) :=
  [.arrive (putOwner early),.arrive (.keys unpaidPut),.thread 1,.thread 0,.thread 1,.thread 1,.thread 0]

theorem interleaved_serializable : ∃ s seq order, s.shared.db ownerHash = some (body 1 early) ∧ walletHash ∈ s.shared.wallet ∧
    ServedInTurn (deployment false) epoch s seq order := by
  have done : ((server (deployment false)).drive (SoloRuns.reply calm) unshared interleaved (.start (Shared.empty epoch))).map
      (fun s => (s.shared.db ownerHash,decide (walletHash ∈ s.shared.wallet))) = some (some (body 1 early),true) := by
    decide +kernel
  obtain ⟨s,driven,ended⟩ := Option.map_eq_some_iff.mp done
  simp only [Prod.mk.injEq,decide_eq_true_eq] at ended
  obtain ⟨seq,order,served⟩ := exclusive_serializable (drive_reached unshared_exclusive .start driven)
  exact ⟨s,seq,order,ended.1,ended.2,served⟩

section Safety
variable {next : ServerPool} {act : Act Reply Request Clock} {i : Nat} {key value pkHash : Bytes}

theorem putsSince_quiet {found : Option Bytes} (before after : Log)
    (quiet : ∀ entry ∈ after, ∀ value, entry.2 ≠ ⟨.dbPut key value,.ok ()⟩) :
    putsSince i key (before ++ (i,⟨.dbGet key,.ok found⟩) :: after) = [] := by
  induction after using List.reverseRecOn with
  | nil => simp [track]
  | append_singleton after last ih =>
    rw [← List.cons_append,← List.append_assoc,putsSince_append,
      ih fun entry member => quiet entry (List.mem_append_left _ member)]
    unfold track
    split
    · split <;> rfl
    · rename_i j other value
      have different : other ≠ key := by
        intro same
        subst same
        exact quiet _ (List.mem_append_right _ (List.mem_singleton.mpr rfl)) value rfl
      simp [different]
    · rfl

-- Since a thread at work has read an entry, nobody but itself can have put one there.
theorem exclusive_unput (path : Reached (server d) (Exclusive d) (Shared.empty clock) s) (busy : AtWork s i)
    {past tail : Past} {found : Option Bytes} (did : history s.log i = past ++ ⟨.dbGet key,.ok found⟩ :: tail)
    (quiet : ∀ value, ⟨.dbPut key value,.ok ()⟩ ∉ tail) : putsSince i key s.log = [] := by
  obtain ⟨before,after,logged,-,own⟩ := history_split did
  rw [logged]
  apply putsSince_quiet
  rintro ⟨j,event⟩ member value rfl
  obtain rfl : j = i := exclusive_own path busy before _ after logged rfl (j,_) member rfl
  rw [← own] at quiet
  exact quiet value (mem_history.mpr member)

theorem exclusive_delete (path : Reached (server d) (Exclusive d) (Shared.empty clock) s)
    (step : Step (server d) s (.perform i ⟨.dbDelete key,.ok ()⟩) next) : putsSince i key s.log = [] := by
  cases step with
  | perform running answered =>
    obtain ⟨before,raw,time,stale,past⟩ := permits_delete (reached_follows (handle_follows d) path running).1
    rw [List.append_assoc,List.singleton_append] at past
    exact exclusive_unput path ⟨_,running,call_unfinished _ _⟩ past (by simp)

theorem exclusive_put (path : Reached (server d) (Exclusive d) (Shared.empty clock) s)
    (step : Step (server d) s (.perform i ⟨.dbPut key value,.ok ()⟩) next) : putsSince i key s.log = [] := by
  cases step with
  | perform running answered =>
    obtain ⟨metadata,payload,attested,encoded,cleared⟩ := permits_put (reached_follows (handle_follows d) path running).1
    have unput := @exclusive_unput d clock s i key path ⟨_,running,call_unfinished _ _⟩
    generalize history s.log i = past at cleared unput
    cases cleared with
    | @absent before => exact @unput before [] none rfl (by simp)
    | @lapsed raw time before stale =>
      exact @unput before [⟨.now,time⟩,⟨.dbDelete key,.ok ()⟩] (some raw) (by simp) (by simp)
    | @newer raw old first second before decoded order unexpired fresh =>
      exact @unput before [⟨.now,first⟩,⟨.now,second⟩] (some raw) (by simp) (by simp)

-- Two looks at one insertion of a hash, the second before the first thread is done.
theorem exclusive_seen (path : Reached (server d) (Exclusive d) (Shared.empty clock) s) {before middle after : Log} {i j : Nat}
    {present : Bool} (logged : s.log = before ++ (i,⟨.walletContains pkHash,true⟩) :: middle ++
      (j,⟨.walletContains pkHash,true⟩) :: after) (stale : freshInsertions pkHash middle = 0)
    (removed : (i,⟨.walletRemove pkHash,present⟩) ∈ middle ++ (j,⟨.walletContains pkHash,true⟩) :: after) : i = j := by
  rcases List.mem_append.mp removed with early | late
  · -- The hash was gone when the second thread looked.
    obtain ⟨moment,later,prior,log,met,step,-⟩ := reached_logged path logged
    obtain ⟨front,back,rfl⟩ := List.append_of_mem early
    have absent : pkHash ∉ moment.shared.wallet := by
      refine removed_absent prior (before ++ (i,⟨.walletContains pkHash,true⟩) :: front) i pkHash present back ?_ ?_
      · rw [log,List.append_assoc,List.cons_append]
      · simp only [freshInsertions_append,freshInsertions_cons] at stale
        omega
    cases step with
    | perform running answered => simp [server,answer,absent] at answered
  · -- The first thread was still at work.
    rcases List.mem_cons.mp late with same | late
    · cases same
    · obtain ⟨front,back,rfl⟩ := List.append_of_mem late
      have split : s.log = (before ++ (i,⟨.walletContains pkHash,true⟩) :: (middle ++
          (j,⟨.walletContains pkHash,true⟩) :: front)) ++ (i,⟨.walletRemove pkHash,present⟩) :: back := by
        rw [logged]
        simp
      obtain ⟨moment,later,prior,log,met,step,-⟩ := reached_logged path split
      cases step with
      | perform running answered =>
        have own := exclusive_own prior ⟨_,running,call_unfinished _ _⟩ before _ _ log rfl
          (j,⟨.walletContains pkHash,true⟩) (by simp) rfl
        exact own.symm

-- Every race on the store and on the wallet is a race for an entry or an address:
-- without one, no unexpired metadata is deleted, none is replaced by older metadata
-- and no insertion into the wallet pays twice.
theorem exclusive_safe (codec : d.crates.RoundTrips)
    (path : Reached (server d) (fun s act => Onward s act ∧ Exclusive d s act) (Shared.empty clock) s) :
    (∀ act next, Step (server d) s act next → DeletesExpired d s act ∧ PutsNewer d s act) ∧ SpentOnce s.log := by
  have exclusive : Reached (server d) (Exclusive d) (Shared.empty clock) s := path.mono fun _ _ _ _ met _ => met.2
  constructor
  · intro act next step
    constructor
    · apply undisturbed_deletes (fun _ _ met => met.1) path step
      unfold Undisturbed
      split
      · rw [exclusive_delete exclusive step]
        simp
      · trivial
    · apply unraced_puts codec exclusive step
      unfold Unraced
      split
      · rw [exclusive_put exclusive step]
        simp
      · trivial
  · intro pkHash insertions i j one two
    obtain ⟨before,after,present,logged,removed,count⟩ := one
    obtain ⟨before',after',present',logged',removed',count'⟩ := two
    rcases split_order (logged.symm.trans logged') with same | ⟨middle,rfl⟩ | ⟨middle,rfl⟩
    · exact congrArg Prod.fst same
    · simp only [freshInsertions_append,freshInsertions_cons] at count'
      have rest : after = middle ++ (j,⟨.walletContains pkHash,true⟩) :: after' := by
        simpa using logged.symm.trans logged'
      exact exclusive_seen exclusive logged' (by omega) (rest ▸ removed)
    · simp only [freshInsertions_append,freshInsertions_cons] at count
      have rest : after' = middle ++ (i,⟨.walletContains pkHash,true⟩) :: after := by
        simpa using logged'.symm.trans logged
      exact (exclusive_seen exclusive logged (by omega) (rest ▸ removed')).symm

theorem interleaved_safe : ∃ s : ServerPool, s.shared.db ownerHash = some (body 1 early) ∧ SpentOnce s.log ∧
    ∀ act next, Step (server (deployment false)) s act next →
      DeletesExpired (deployment false) s act ∧ PutsNewer (deployment false) s act := by
  have done : ((server (deployment false)).drive (SoloRuns.reply calm) (fun s act => Onward s act && unshared s act) interleaved
      (.start (Shared.empty epoch))).map (fun s => s.shared.db ownerHash) = some (some (body 1 early)) := by decide +kernel
  obtain ⟨s,driven,stored⟩ := Option.map_eq_some_iff.mp done
  have path : Reached (server (deployment false)) (fun s act => Onward s act ∧ Exclusive (deployment false) s act)
      (Shared.empty epoch) s := by
    refine drive_reached ?_ .start driven
    intro s act passed
    obtain ⟨onward,unshared⟩ := Bool.and_eq_true_iff.mp passed
    exact ⟨of_decide_eq_true onward,unshared_exclusive s act unshared⟩
  obtain ⟨safe,once⟩ := exclusive_safe (WireMessages.onWire_roundTrips _) path
  exact ⟨s,stored,once,safe⟩

end Safety

end Keyserver.ExclusiveRuns
