import Keyserver.ServerProtocol

namespace Keyserver.StoreProvenance
open SharedPrograms SharedPrograms.Program SharedPools KeyDb KeyHandlers KeyProtocol KeyRequests PaymentProtocol ServerProtocol

-- Where a write comes from: the body of a put, which over the routes was paid
-- for, or the answer of a peer to the same visit.
inductive Brought (d : Deployment) : Request → Past → Bytes → AddressMetadata → Prop where
  | direct (met : Admitted d addrStr body addr metadata payload) : Brought d (.putKey addrStr body) past addr.body metadata
  | routed (put : req.method = .put) (paid : PaidFor d req) (route : d.crates.routeAddr req.path = some addrStr)
      (met : Admitted d addrStr req.payload addr metadata payload) : Brought d (.keys req) past addr.body metadata
  | pulled (received : ⟨.httpGet url,.ok raw⟩ ∈ past) (met : Pulled d addr raw metadata payload) :
      Brought d (.peerItem (.ok (peerAddr,addr))) past addr.body metadata

def Writes (d : Deployment) (request : Request) (past : Past) (op : Op) : Prop :=
  ∀ key value, op = .dbPut key value → ∃ metadata, value = d.crates.encodeMetadata metadata ∧ Brought d request past key metadata

inductive Gets (d : Deployment) : Request → String → Prop where
  | direct : Gets d (.getKey addrStr) addrStr
  | routed (get : req.method = .get) (route : d.crates.routeAddr req.path = some addrStr) : Gets d (.keys req) addrStr

def Anyhow {Error α : Type} (_ : Past) (_ : Outcome Panic Error α) : Prop := True

-- Whatever a step brings in and the checks of the key handlers accept is `valid`.
def BringsOnly (d : Deployment) (valid : AddressMetadata → Prop) (s : ServerPool) : Act Reply Request Clock → Prop
  | .arrive request => ∀ addrStr body addr metadata payload, Puts d request addrStr body →
      Admitted d addrStr body addr metadata payload → valid metadata
  | .perform i event => ∀ peerAddr url raw addr metadata payload, s.requests[i]? = some (.peerItem (.ok (peerAddr,addr))) →
      event = ⟨.httpGet url,.ok raw⟩ → Pulled d addr raw metadata payload → valid metadata
  | .surroundings _ => True

variable {d : Deployment} {past : Past} {request : Request}

theorem writes_quiet {op : Op} (past : Past) (other : ∀ key value, op ≠ .dbPut key value) : Writes d request past op :=
  fun key value same => absurd same (other key value)

theorem get_writes (addr : Address) (past : Past) :
    Follows (Writes d request) (GetPath d addr.body past) past (KeyDb.get d addr) :=
  get_paths (writes_quiet _ (by simp)) (fun _ => writes_quiet _ (by simp)) fun _ _ _ => writes_quiet _ (by simp)

theorem store_writes {Error : Type} {addr : Address} {metadata : AddressMetadata} {payload : Payload}
    (brought : ∀ later, past <+: later → Brought d request later addr.body metadata) :
    Follows (Writes d request) (StorePath d addr.body metadata payload past) past
      (storePulled d addr metadata payload : Prog Error PeerExit) := by
  apply store_paths (check_paths (fun _ => writes_quiet _ (by simp)) (get_writes addr past) payload)
  intro later grown checked key value same
  cases same
  exact ⟨metadata,rfl,brought later grown⟩

theorem keysService_writes {req : HttpRequest} {addrStr : String} (paid : req.method = .put → PaidFor d req)
    (route : d.crates.routeAddr req.path = some addrStr) (past : Past) :
    Follows (Writes d (.keys req)) Anyhow past (keysService d addrStr req) := by
  unfold keysService
  cases method : req.method with
  | get => exact (getKey_paths fun addr => get_writes addr past).mono (fun _ _ may => may) fun _ _ _ => trivial
  | put =>
    refine (putKey_paths ?_).mono (fun _ _ may => may) fun _ _ _ => trivial
    intro addr metadata payload met
    exact store_writes fun later _ => .routed method (paid method) route met
  | post => trivial
  | other name => trivial

theorem keysResource_writes (req : HttpRequest) : Follows (Writes d (.keys req)) Anyhow [] (keysResource d req) := by
  unfold keysResource
  cases route : d.crates.routeAddr req.path with
  | none => trivial
  | some addrStr =>
    have form := call_form d (keysService d addrStr) req
    dsimp only
    generalize Payments.call d (keysService d addrStr) req = program at form ⊢
    cases form with
    | forwarded paid => exact ⟨writes_quiet _ (by simp),fun _ => keysService_writes paid route _⟩
    | invoiced put unpaid =>
      exact generateInvoice_follows (fun _ => writes_quiet _ (by simp)) (fun _ _ => writes_quiet _ (by simp))
        (fun _ _ => writes_quiet _ (by simp)) (fun _ _ _ => trivial) (fun _ _ => trivial) fun _ _ _ => trivial
    | refused put unpaid => trivial
    | rejected put unpaid => trivial

theorem handle_writes (d : Deployment) (request : Request) : Follows (Writes d request) Anyhow [] (handle d request) := by
  cases request with
  | getKey addrStr =>
    exact (getKey_paths fun addr => get_writes addr []).map (fun _ _ may => may) fun _ _ _ => trivial
  | putKey addrStr body =>
    refine (putKey_paths ?_).map (fun _ _ may => may) fun _ _ _ => trivial
    intro addr metadata payload met
    exact store_writes fun later _ => .direct met
  | peerItem res =>
    refine (peerPolling_paths (fun _ => writes_quiet _ (by simp)) (fun _ _ => writes_quiet _ (by simp)) ?_).map
      (fun _ _ may => may) fun _ _ _ => trivial
    rintro peerAddr addr url raw past rfl received
    apply pull_paths
    intro metadata payload met
    exact store_writes fun later grown => .pulled (grown.subset received) met
  | keys req => exact (keysResource_writes req).map (fun _ _ may => may) fun _ _ _ => trivial
  | payments req =>
    refine (paymentHandler_follows d req).map ?_ fun _ _ _ => trivial
    intro past op settled key value same
    subst same
    cases settled
  | compaction key =>
    exact (compact_paths (writes_quiet _ (by simp)) (fun _ => writes_quiet _ (by simp))
      fun _ _ _ => writes_quiet _ (by simp)).map (fun _ _ may => may) fun _ _ _ => trivial

def ServesOnly (d : Deployment) (request : Request) (past : Past) (outcome : Outcome Panic ServerError Answer) : Prop :=
  ∀ addrStr resp, Gets d request addrStr → outcome = .returned (.http resp) → ServesFound d addrStr past resp

theorem handle_serves (d : Deployment) (request : Request) :
    Follows (Permits d request) (ServesOnly d request) [] (handle d request) := by
  by_cases gets : ∃ addrStr, Gets d request addrStr
  · obtain ⟨addrStr,gets⟩ := gets
    cases gets with
    | direct =>
      apply (getKey_follows d addrStr []).map (fun _ _ permitted => .key permitted)
      intro later outcome ended other resp again returned
      obtain ⟨resp',answered,same⟩ := map_returned.mp returned
      cases same
      cases again
      exact ended.1 resp answered
    | routed get route =>
      rename_i req
      have form := call_form d (keysService d addrStr) req
      simp only [handle,keysResource,route]
      generalize Payments.call d (keysService d addrStr) req = program at form ⊢
      cases form with
      | forwarded paid =>
        refine ⟨.guard (.enter paid),fun _ => ?_⟩
        simp only [keysService,get]
        apply (getKey_follows d addrStr _).map (fun _ _ permitted => .key permitted)
        intro later outcome ended other resp again returned
        obtain ⟨resp',answered,same⟩ := map_returned.mp returned
        cases same
        cases again with
        | routed _ again =>
          obtain rfl := Option.some.inj (route.symm.trans again)
          exact ended.1 resp answered
      | invoiced put | refused put | rejected put => cases get.symm.trans put
  · apply (handle_follows d request).mono (fun _ _ permitted => permitted)
    intro later outcome ended addrStr resp again
    exact absurd ⟨addrStr,again⟩ gets

section Runs
variable {meets : ServerPool → Act Reply Request Clock → Prop} {clock : Clock} {s : ServerPool}

theorem put_brought (path : Reached (server d) meets (Shared.empty clock) s) {i : Nat} {key raw : Bytes}
    (put : (i,⟨.dbPut key raw,.ok ()⟩) ∈ s.log) : ∃ request metadata before after,
      s.log = before ++ after ∧ s.requests[i]? = some request ∧ raw = d.crates.encodeMetadata metadata ∧
        Brought d request (history before i) key metadata := by
  obtain ⟨before,after,logged⟩ := List.append_of_mem put
  obtain ⟨request,known,writes⟩ := reached_permitted (handle_writes d) path logged
  obtain ⟨metadata,encoded,brought⟩ := writes key raw rfl
  exact ⟨request,metadata,before,_,logged,known,encoded,brought⟩

-- Only what was brought in and accepted is ever put.
theorem put_valid {valid : AddressMetadata → Prop} (path : Reached (server d) (BringsOnly d valid) (Shared.empty clock) s)
    {i : Nat} {key raw : Bytes} (put : (i,⟨.dbPut key raw,.ok ()⟩) ∈ s.log) :
    ∃ metadata payload, raw = d.crates.encodeMetadata metadata ∧ Attested d key metadata payload ∧ valid metadata := by
  obtain ⟨request,metadata,before,after,logged,known,encoded,brought⟩ := put_brought path put
  cases brought with
  | direct met =>
    obtain ⟨moment,prior,brings⟩ := reached_arrived path (List.mem_of_getElem? known)
    exact ⟨metadata,_,encoded,met.attested,brings _ _ _ _ _ .direct met⟩
  | routed method paid route met =>
    obtain ⟨moment,prior,brings⟩ := reached_arrived path (List.mem_of_getElem? known)
    exact ⟨metadata,_,encoded,met.attested,brings _ _ _ _ _ (.routed method route) met⟩
  | pulled received met =>
    obtain ⟨early,late,split⟩ := List.append_of_mem (mem_history.mp received)
    rw [split,List.append_assoc,List.cons_append] at logged
    obtain ⟨moment,later,prior,-,brings,step,kept⟩ := reached_logged path logged
    cases step with
    | @perform _ _ asked op rest reply shared running answered =>
      have here := thread_request running
      obtain rfl := Option.some.inj (known.symm.trans (kept i asked here))
      exact ⟨metadata,_,encoded,met.attested,brings _ _ _ _ _ _ here rfl met⟩

end Runs

end Keyserver.StoreProvenance
