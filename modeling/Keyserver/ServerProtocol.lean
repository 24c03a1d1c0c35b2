import Keyserver.PaymentProtocol
import Keyserver.Server

namespace Keyserver.ServerProtocol
open SharedPrograms SharedPools KeyHandlers KeyProtocol KeyRequests PaymentProtocol Payments

-- All that a request may do, by what its own handler did before.
inductive Permits (d : Deployment) : Request → Past → Op → Prop where
  | key (permitted : Permitted d past op) : Permits d request past op
  | guard (guarded : Guarded d req past op) : Permits d (.keys req) past op
  | settle (settled : Settles d past op) : Permits d (.payments req) past op

-- The requests whose success means that `put_key` has written.
inductive Puts (d : Deployment) : Request → String → List (Except String Bytes) → Prop where
  | direct : Puts d (.putKey addrStr body) addrStr body
  | routed (put : req.method = .put) (route : d.crates.routeAddr req.path = some addrStr) :
      Puts d (.keys req) addrStr req.payload

structure Ends (d : Deployment) (request : Request) (past : Past) (outcome : Outcome Panic ServerError Answer) : Prop where
  blamed : ∀ fault, outcome = .panicked fault → fault = .slice ∨ Blamed d past fault
  paid : ∀ req resp, request = .payments req → outcome = .returned (.http resp) →
    ∃ merchant pkHash, Accepted d req past resp merchant pkHash
  written : ∀ addrStr body resp, Puts d request addrStr body → outcome = .returned (.http resp) →
    resp.status = .ok → Written d addrStr body past

variable {d : Deployment} {past : Past}

theorem Ends.quiet {request : Request} {outcome : Outcome Panic ServerError Answer}
    (blamed : ∀ fault, outcome = .panicked fault → fault = .slice ∨ Blamed d past fault)
    (unpaid : ∀ req, request ≠ .payments req) (unwritten : ∀ addrStr body, ¬ Puts d request addrStr body) :
    Ends d request past outcome := by
  refine ⟨blamed,?_,?_⟩
  · intro req resp same
    exact absurd same (unpaid req)
  · intro addrStr body resp puts
    exact absurd puts (unwritten addrStr body)

theorem keysResource_follows (d : Deployment) (req : HttpRequest) (past : Past) :
    Follows (Permits d (.keys req)) (fun later outcome =>
        (∀ fault, outcome = .panicked fault → fault = .slice ∨ Blamed d later fault) ∧
        ∀ addrStr resp, req.method = .put → d.crates.routeAddr req.path = some addrStr →
          outcome = .returned resp → resp.status = .ok → Written d addrStr req.payload later) past
      (keysResource d req) := by
  unfold keysResource
  cases route : d.crates.routeAddr req.path with
  | none => simp
  | some addrStr =>
    refine call_follows (fun _ _ guarded => .guard guarded) ?_ ?_ (by simp) ?_
    · intro past
      cases method : req.method with
      | get =>
        simp only [keysService,method]
        apply (getKey_follows d addrStr past).mono (fun _ _ permitted => .key permitted)
        intro later outcome ended
        exact ⟨fun fault same => .inr (ended.2 fault same),by simp⟩
      | put =>
        simp only [keysService,method]
        apply (putKey_follows d addrStr req.payload past).mono (fun _ _ permitted => .key permitted)
        intro later outcome ended
        refine ⟨fun fault same => .inr (ended.2 fault same),?_⟩
        intro other resp _ same answered _
        obtain rfl := Option.some.inj same
        exact ended.1 resp answered
      | post => simp [keysService,method]
      | other name => simp [keysService,method]
    · intro past resp failed
      refine ⟨by simp,?_⟩
      intro other answered _ _ same status
      cases same
      simp [status,StatusCode.success] at failed
    · intro past fault blamed
      refine ⟨?_,by simp⟩
      intro other same
      cases same
      exact blamed.imp id .inl

theorem handle_follows (d : Deployment) (request : Request) :
    Follows (Permits d request) (Ends d request) [] (handle d request) := by
  cases request with
  | getKey addrStr =>
    apply (getKey_follows d addrStr []).map (fun _ _ permitted => .key permitted)
    intro later outcome ended
    exact .quiet (fun fault same => .inr (ended.2 fault (map_panicked.mp same))) (by simp) (by rintro _ _ ⟨⟩)
  | putKey addrStr payload =>
    apply (putKey_follows d addrStr payload []).map (fun _ _ permitted => .key permitted)
    intro later outcome ended
    refine ⟨fun fault same => .inr (ended.2 fault (map_panicked.mp same)),by simp,?_⟩
    intro addrStr' body resp puts returned _
    obtain ⟨resp',answered,-⟩ := map_returned.mp returned
    cases puts
    exact ended.1 resp' answered
  | peerItem res =>
    apply (peerPolling_follows d res []).map (fun _ _ permitted => .key permitted)
    intro later outcome blamed
    exact .quiet (fun fault same => .inr (blamed fault (map_panicked.mp same))) (by simp) (by rintro _ _ ⟨⟩)
  | keys req =>
    apply (keysResource_follows d req []).map (fun _ _ permitted => permitted)
    intro later outcome ended
    refine ⟨fun fault same => ended.1 fault (map_panicked.mp same),by simp,?_⟩
    intro addrStr body resp puts returned status
    obtain ⟨resp',answered,same⟩ := map_returned.mp returned
    cases same
    cases puts with
    | routed put route => exact ended.2 addrStr resp put route answered status
  | payments req =>
    apply (paymentHandler_follows d req).map (fun _ _ settled => .settle settled)
    intro later outcome ended
    refine ⟨fun fault same => absurd (map_panicked.mp same) (ended.1 fault),?_,by rintro _ _ _ ⟨⟩⟩
    intro req' resp same returned
    cases same
    obtain ⟨resp',answered,same⟩ := map_returned.mp returned
    cases same
    exact ended.2 resp answered
  | compaction key =>
    apply (compact_follows d key []).map (fun _ _ permitted => .key permitted)
    intro later outcome blamed
    exact .quiet (fun fault same => .inr (blamed fault (map_panicked.mp same))) (by simp) (by rintro _ _ ⟨⟩)

-- What holds of the log and the shared state by the effects of the operations alone.
theorem logged_invariant {valid : Log → Shared → Prop}
    {meets : ServerPool → Act Reply Request Clock → Prop} {origin : Shared} {s : ServerPool} (initial : valid [] origin)
    (ticks : ∀ log shared clock, valid log shared → valid log {shared with clock := clock})
    (performed : ∀ log shared i event next, Effect shared event next → valid log shared → valid (log ++ [(i,event)]) next)
    (path : Reached (server d) meets origin s) : valid s.log s.shared := by
  induction path with
  | start => exact initial
  | step prior met step ih =>
    cases step with
    | arrive => exact ih
    | perform running answered => exact performed _ _ _ _ _ (answer_effect answered) ih
    | surroundings moved =>
      cases moved
      exact ticks _ _ _ ih

section Stored
variable {meets : ServerPool → Act Reply Request Clock → Prop} {origin : Shared} {clock : Clock} {s : ServerPool}
  {key raw : Bytes}

-- Everything stored, and everything ever read, was there from the start or was put.
theorem stored_origin (path : Reached (server d) meets origin s)
    (stored : s.shared.db key = some raw) : origin.db key = some raw ∨ ∃ i, (i,⟨.dbPut key raw,.ok ()⟩) ∈ s.log := by
  refine @logged_invariant d (fun log shared => ∀ key raw, shared.db key = some raw →
    origin.db key = some raw ∨ ∃ i, (i,⟨.dbPut key raw,.ok ()⟩) ∈ log) meets _ s ?_ ?_ ?_ path key raw stored
  · intro key raw stored
    exact .inl stored
  · intro log shared clock valid
    exact valid
  · intro log shared i event next effect valid key raw stored
    have kept : shared.db key = some raw → origin.db key = some raw ∨ ∃ j, (j,⟨.dbPut key raw,.ok ()⟩) ∈ log ++ [(i,event)] :=
      fun old => (valid key raw old).imp_right fun ⟨j,logged⟩ => ⟨j,List.mem_append_left _ logged⟩
    rcases effect.stored with same | ⟨other,value,rfl,rfl⟩ | ⟨other,value,event,rfl⟩
    · exact kept (same ▸ stored)
    · by_cases equal : key = other
      · subst equal
        rw [store_same] at stored
        cases stored
        exact .inr ⟨i,List.mem_append_right _ (List.mem_singleton.mpr rfl)⟩
      · rw [store_other _ _ equal] at stored
        exact kept stored
    · by_cases equal : key = other
      · subst equal
        simp at stored
      · rw [store_other _ _ equal] at stored
        exact kept stored

theorem stored_put (path : Reached (server d) meets (Shared.empty clock) s)
    (stored : s.shared.db key = some raw) : ∃ i, (i,⟨.dbPut key raw,.ok ()⟩) ∈ s.log :=
  (stored_origin path stored).resolve_left (by simp [Shared.empty])

theorem read_origin (path : Reached (server d) meets origin s) {i : Nat} (read : (i,⟨.dbGet key,.ok (some raw)⟩) ∈ s.log) :
    origin.db key = some raw ∨ ∃ j, (j,⟨.dbPut key raw,.ok ()⟩) ∈ s.log := by
  obtain ⟨moment,shared,prior,earlier,answered⟩ := reached_answered path read
  exact (stored_origin prior (answer_get answered).1.symm).imp_right fun ⟨j,put⟩ => ⟨j,earlier.subset put⟩

theorem read_put (path : Reached (server d) meets (Shared.empty clock) s) {i : Nat}
    (read : (i,⟨.dbGet key,.ok (some raw)⟩) ∈ s.log) : ∃ j, (j,⟨.dbPut key raw,.ok ()⟩) ∈ s.log :=
  (read_origin path read).resolve_left (by simp [Shared.empty])

theorem compacted_origin (path : Reached (server d) meets origin s) {i : Nat}
    (read : (i,⟨.compactionRead key,some raw⟩) ∈ s.log) :
    origin.db key = some raw ∨ ∃ j, (j,⟨.dbPut key raw,.ok ()⟩) ∈ s.log := by
  obtain ⟨moment,shared,prior,earlier,answered⟩ := reached_answered path read
  exact (stored_origin prior (answer_compactionRead answered).1.symm).imp_right fun ⟨j,put⟩ => ⟨j,earlier.subset put⟩

theorem compacted_put (path : Reached (server d) meets (Shared.empty clock) s) {i : Nat}
    (read : (i,⟨.compactionRead key,some raw⟩) ∈ s.log) : ∃ j, (j,⟨.dbPut key raw,.ok ()⟩) ∈ s.log :=
  (compacted_origin path read).resolve_left (by simp [Shared.empty])

end Stored

section Performed
variable {request : Request} {key value pkHash : Bytes} {scheme host path : String} {method : Method}

theorem permits_put (permitted : Permits d request past (.dbPut key value)) :
    ∃ metadata payload, Attested d key metadata payload ∧ value = d.crates.encodeMetadata metadata ∧ Cleared d key payload past := by
  cases permitted with
  | key permitted =>
    cases permitted with
    | store signed decoded cleared => exact ⟨_,_,⟨signed,decoded⟩,rfl,cleared⟩
  | guard guarded => cases guarded
  | settle settled => cases settled

theorem permits_delete (permitted : Permits d request past (.dbDelete key)) :
    ∃ before raw clock, KeyDb.Stale d raw clock ∧ past = before ++ [⟨.dbGet key,.ok (some raw)⟩] ++ [⟨.now,clock⟩] := by
  cases permitted with
  | key permitted =>
    cases permitted with
    | lazyDelete stale => exact ⟨_,_,_,stale,rfl⟩
  | guard guarded => cases guarded
  | settle settled => cases settled

theorem permits_drop (permitted : Permits d request past (.compactionDrop key value)) :
    ∃ before clock, KeyDb.Stale d value clock ∧ past = before ++ [⟨.compactionRead key,some value⟩] ++ [⟨.now,clock⟩] := by
  cases permitted with
  | key permitted =>
    cases permitted with
    | compactionDrop stale => exact ⟨_,_,stale,rfl⟩
  | guard guarded => cases guarded
  | settle settled => cases settled

theorem permits_insert (permitted : Permits d request past (.walletInsert pkHash)) :
    ∃ req, request = .keys req ∧ req.method = .put ∧ req.authorization = none := by
  cases permitted with
  | key permitted => cases permitted
  | guard guarded =>
    cases guarded with
    | issue put unpaid => exact ⟨_,rfl,put,unpaid⟩
  | settle settled => cases settled

theorem permits_remove (permitted : Permits d request past (.walletRemove pkHash)) :
    ∃ before, past = before ++ [⟨.walletContains pkHash,true⟩] := by
  cases permitted with
  | key permitted => cases permitted
  | guard guarded => cases guarded
  | settle settled =>
    cases settled with
    | flush => exact ⟨_,rfl⟩

theorem permits_service (permitted : Permits d request past (.serviceCall method scheme host path)) :
    ∃ req, request = .keys req ∧ (req.method = .put → PaidFor d req) ∧
      method = req.method ∧ scheme = req.scheme ∧ host = req.host ∧ path = req.path := by
  cases permitted with
  | key permitted => cases permitted
  | guard guarded =>
    cases guarded with
    | enter paid => exact ⟨_,rfl,paid,rfl,rfl,rfl,rfl⟩
  | settle settled => cases settled

end Performed

end Keyserver.ServerProtocol
