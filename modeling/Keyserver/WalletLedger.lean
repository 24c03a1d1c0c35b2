import Keyserver.ExclusiveRuns
import Keyserver.InvoiceIssuing

namespace Keyserver.WalletLedger
open SharedPrograms SharedPrograms.Program SharedPools SharedLocks KeyHandlers KeyProtocol Bitcoin Payments PaymentProtocol
  ServerProtocol ExclusiveRuns SampleDeployment
open InvoiceSpending (fresh freshInsertions freshInsertions_append)
open InvoiceIssuing (Invoice generateOutputs_bill response_invoice)

def removal (pkHash : Bytes) (entry : Nat × Event Reply) : Bool := entry.2 = ⟨.walletRemove pkHash,true⟩

def removals (pkHash : Bytes) (log : Log) : Nat := log.countP (removal pkHash)

@[simp] theorem removals_append (pkHash : Bytes) (before after : Log) :
    removals pkHash (before ++ after) = removals pkHash before + removals pkHash after := List.countP_append

variable {d : Deployment} {meets : ServerPool → Act Reply Request Clock → Prop} {clock : Clock} {s : ServerPool}
  {pkHash : Bytes}

-- The books of an address balance in every interleaving: it was taken out of the
-- wallet as often as it was newly put in, but for the once that it is still there.
theorem reached_balanced (path : Reached (server d) meets (Shared.empty clock) s) (pkHash : Bytes) :
    freshInsertions pkHash s.log = removals pkHash s.log + if pkHash ∈ s.shared.wallet then 1 else 0 := by
  refine @logged_invariant d (fun log shared => freshInsertions pkHash log = removals pkHash log +
    if pkHash ∈ shared.wallet then 1 else 0) meets _ s ?_ ?_ ?_ path
  · simp [freshInsertions,removals,Shared.empty]
  · intro log shared clock balanced
    exact balanced
  · intro log shared i event next effect balanced
    rw [freshInsertions_append,removals_append,balanced]
    cases effect with
    | @insert addr =>
      by_cases same : addr = pkHash
      · subst same
        by_cases held : addr ∈ shared.wallet <;> simp [freshInsertions,fresh,removals,removal,held]
      · simp [freshInsertions,fresh,removals,removal,same,Ne.symm same]
    | @remove addr =>
      by_cases same : addr = pkHash
      · subst same
        by_cases held : addr ∈ shared.wallet <;> simp [freshInsertions,fresh,removals,removal,held]
      · simp [freshInsertions,fresh,removals,removal,same,Ne.symm same]
    | put | delete | compactionDrop =>
      simp [freshInsertions,fresh,removals,removal]
      rfl
    | _ => simp [freshInsertions,fresh,removals,removal]

-- An invoice, its payment, and a second payment that finds the hash gone.
def settling : List (Turn Request Clock) :=
  [.arrive (.keys unpaidPut),.thread 0,.thread 0,.thread 0,.arrive (.payments paying),.arrive (.payments paying),
    .thread 1,.thread 1,.thread 1,.thread 2]

-- How a request comes to put an address into the wallet: it asked the node for one
-- and was given an address of a key on the server's own network.
inductive Obtained (d : Deployment) : Request → Past → Bytes → Prop where
  | intro (put : req.method = .put) (unpaid : req.authorization = none)
      (asked : past = [⟨.now,time⟩,⟨.rpcSend ⟨"getnewaddress",[]⟩,.ok response⟩]) (granted : Grants response addrStr)
      (addressed : d.crates.decodeAddress addrStr = .ok addr) (network : Carries d.settings.network addr.network)
      (keyed : addr.hashType = .key) : Obtained d (.keys req) past addr.body

def Uninserted (past : Past) : Prop := ∀ pkHash fresh, ⟨.walletInsert pkHash,fresh⟩ ∉ past

-- An insertion is the first and the last one of its request.
def Opens (d : Deployment) (request : Request) (past : Past) (op : Op) : Prop :=
  Uninserted past ∧ ∀ pkHash, op = .walletInsert pkHash → Obtained d request past pkHash

def Closes (d : Deployment) (request : Request) (past : Past) (outcome : Outcome Panic ServerError Answer) : Prop :=
  ∀ pkHash fresh, ⟨.walletInsert pkHash,fresh⟩ ∈ past →
    ∃ req resp, request = .keys req ∧ outcome = .returned (.http resp) ∧ Invoice d req resp pkHash

variable {req : HttpRequest} {past : Past} {request : Request}

theorem generateInvoice_opens (release : d.overflowChecks = false) (put : req.method = .put) (unpaid : req.authorization = none) :
    Follows (Opens d (.keys req)) (fun past outcome => Closes d (.keys req) past (outcome.map Answer.http)) []
      (generateInvoice d req) := by
  apply (generateInvoice_paths d req []).mono
  · intro past op allowed
    cases allowed with
    | clock | ask => exact ⟨by simp [Uninserted],by simp⟩
    | insert granted addressed network keyed =>
      refine ⟨by simp [Uninserted],fun pkHash same => ?_⟩
      cases same
      exact .intro put unpaid rfl granted addressed network keyed
  · intro past outcome path pkHash fresh inserted
    cases path with
    | late | uncut | misdirected | declined | unreadable | foreign => simp at inserted
    | overflow checked => simp [release] at checked
    | @invoiced _ _ _ _ issued _ _ fresh' expires tail put generated =>
      rw [release,generateOutputs_bill] at generated
      cases generated
      have same : pkHash = issued ∧ fresh = fresh' := by simpa using inserted
      obtain ⟨rfl,-⟩ := same
      exact ⟨req,_,rfl,rfl,response_invoice expires tail put⟩

theorem handle_opens (release : d.overflowChecks = false) (request : Request) :
    Follows (Opens d request) (Closes d request) [] (handle d request) := by
  by_cases issuing : ∃ req, request = .keys req ∧ req.method = .put ∧ req.authorization = none
  · obtain ⟨req,rfl,put,unpaid⟩ := issuing
    simp only [handle,keysResource]
    cases d.crates.routeAddr req.path with
    | none => simp [Closes]
    | some addrStr =>
      dsimp only
      rw [call_unpaid put unpaid]
      exact (generateInvoice_opens release put unpaid).map (fun _ _ opens => opens) fun _ _ closes => closes
  · have foreign : ∀ past op (_ : Reply op), Permits d request past op → ∀ pkHash, op ≠ .walletInsert pkHash := by
      intro past op _ permitted pkHash same
      subst same
      exact issuing (permits_insert permitted)
    have quiet : Follows
        (fun past op => Permits d request past op ∧ ∀ event ∈ past, ∀ pkHash, event.op ≠ .walletInsert pkHash)
        (fun past outcome => Ends d request past outcome ∧ ∀ event ∈ past, ∀ pkHash, event.op ≠ .walletInsert pkHash)
        [] (handle d request) := (handle_follows d request).events foreign (by simp)
    apply quiet.mono
    · intro past op opens
      refine ⟨fun pkHash fresh inserted => opens.2 _ inserted pkHash rfl,?_⟩
      intro pkHash same
      subst same
      exact absurd (permits_insert opens.1) issuing
    · intro past outcome closes pkHash fresh inserted
      exact absurd rfl (closes.2 _ inserted pkHash)

-- Thread `k` was answered with an invoice for the hash: a 402 to a put without a
-- token, after the node issued the address and it went into the wallet.
def Invoiced (d : Deployment) (s : ServerPool) (k : Nat) (pkHash : Bytes) : Prop :=
  ∃ req resp past fresh, s.threads[k]? = some ⟨.keys req,.done (.http resp)⟩ ∧ Invoice d req resp pkHash ∧
    Obtained d (.keys req) past pkHash ∧ history s.log k = past ++ [⟨.walletInsert pkHash,fresh⟩]

theorem insertion_last (release : d.overflowChecks = false) (path : Reached (server d) meets (Shared.empty clock) s)
    {before after : Log} {k : Nat} {fresh : Bool} (logged : s.log = before ++ (k,⟨.walletInsert pkHash,fresh⟩) :: after) :
    history after k = [] := by
  by_contra busy
  obtain ⟨event,member⟩ := List.exists_mem_of_ne_nil _ busy
  obtain ⟨front,back,rfl⟩ := List.append_of_mem (mem_history.mp member)
  have split : s.log = (before ++ (k,⟨.walletInsert pkHash,fresh⟩) :: front) ++ (k,event) :: back := by
    rw [logged,List.append_assoc,List.cons_append]
  obtain ⟨request,known,uninserted,-⟩ := reached_permitted (handle_opens release) path split
  exact uninserted pkHash fresh (mem_history.mpr (by simp))

theorem insertion_invoiced (release : d.overflowChecks = false) (path : Reached (server d) meets (Shared.empty clock) s)
    {before after : Log} {k : Nat} {fresh : Bool} (logged : s.log = before ++ (k,⟨.walletInsert pkHash,fresh⟩) :: after) :
    Invoiced d s k pkHash := by
  obtain ⟨request,known,-,opens⟩ := reached_permitted (handle_opens release) path logged
  have issued := opens pkHash rfl
  have did : history s.log k = history before k ++ [⟨.walletInsert pkHash,fresh⟩] := by
    rw [logged,← List.singleton_append,history_append,history_append,history_same,insertion_last release path logged]
    simp
  have inserted : ⟨.walletInsert pkHash,fresh⟩ ∈ history s.log k := by simp [did]
  obtain ⟨⟨request',rest⟩,found⟩ : ∃ thread, s.threads[k]? = some thread := by
    rw [Pool.requests,List.getElem?_map,Option.map_eq_some_iff] at known
    exact known.imp fun _ both => both.1
  obtain rfl := Option.some.inj (known.symm.trans (thread_request found))
  have follows := reached_follows (handle_opens release) path found
  cases rest with
  | call op next => exact absurd inserted (follows.1.1 pkHash fresh)
  | throw err =>
    obtain ⟨req,resp,-,outcome,-⟩ := follows pkHash fresh inserted
    cases outcome
  | panic fault =>
    obtain ⟨req,resp,-,outcome,-⟩ := follows pkHash fresh inserted
    cases outcome
  | done value =>
    obtain ⟨req,resp,rfl,outcome,invoice⟩ := follows pkHash fresh inserted
    cases outcome
    exact ⟨req,resp,history before k,fresh,found,invoice,issued,did⟩

theorem wallet_invoiced (release : d.overflowChecks = false) (path : Reached (server d) meets (Shared.empty clock) s)
    (held : pkHash ∈ s.shared.wallet) : ∃ k, Invoiced d s k pkHash := by
  have balanced := reached_balanced path pkHash
  rw [if_pos held] at balanced
  have positive : 0 < freshInsertions pkHash s.log := by omega
  obtain ⟨⟨k,event⟩,member,inserts⟩ := List.countP_pos_iff.mp positive
  obtain ⟨before,after,logged⟩ := List.append_of_mem member
  obtain rfl : event = ⟨.walletInsert pkHash,true⟩ := of_decide_eq_true inserts
  exact ⟨k,insertion_invoiced release path logged⟩

-- The wallet in every interleaving: its books balance, whatever is in it was issued by
-- the node, and a client was sent an invoice for it.
theorem wallet_accounted (release : d.overflowChecks = false) (path : Reached (server d) meets (Shared.empty clock) s)
    (pkHash : Bytes) : freshInsertions pkHash s.log = removals pkHash s.log + (if pkHash ∈ s.shared.wallet then 1 else 0) ∧
      (pkHash ∈ s.shared.wallet → ∃ k, Invoiced d s k pkHash) := by
  refine ⟨reached_balanced path pkHash,fun held => ?_⟩
  exact wallet_invoiced release path held

theorem invoice_accounted : ∃ s : ServerPool, removals walletHash s.log = 0 ∧ walletHash ∈ s.shared.wallet ∧
    (∃ k, Invoiced (deployment false) s k walletHash) ∧ freshInsertions walletHash s.log = 1 := by
  have done : (driven (deployment false) (settling.take 4)).map (fun s =>
      (removals walletHash s.log,decide (walletHash ∈ s.shared.wallet))) = some (0,true) := by decide +kernel
  obtain ⟨s,reached,ended⟩ := Option.map_eq_some_iff.mp done
  simp only [Prod.mk.injEq,decide_eq_true_eq] at ended
  obtain ⟨books,invoiced⟩ := wallet_accounted rfl (driven_reached reached) walletHash
  rw [ended.1,if_pos ended.2] at books
  exact ⟨s,ended.1,ended.2,invoiced ended.2,books⟩

-- A payment that went through, by what its handler did: an output pays the hash that
-- was seen and then removed, and the node accepted the transaction. `present` is the
-- wallet's word on whether the hash was still there when it was removed.
inductive Cashed (d : Deployment) (req : HttpRequest) (present : Bool) : Past → Bytes → Prop where
  | intro (met : Tendered d req tendered txRaw tx) (missed : Misses misses) (member : output ∈ tx.output)
      (pays : Pays output addr) (taken : Grants response txid) : Cashed d req present (misses ++ ⟨.walletContains addr,true⟩ ::
        [⟨.walletRemove addr,present⟩,⟨.rpcSend ⟨"sendrawtransaction",[d.crates.hexEncode txRaw]⟩,.ok response⟩]) addr

theorem paymentHandler_cashes (d : Deployment) (req : HttpRequest) : Follows (fun _ _ => True)
    (fun past outcome => ∀ resp, outcome = .returned resp → ∃ present pkHash, Cashed d req present past pkHash) []
      (paymentHandler d req) := by
  have form := paymentHandler_form d req
  generalize paymentHandler d req = program at form ⊢
  cases form with
  | refused unmet => simp
  | @tendered payment txRaw tx receipt met issued =>
    refine settlement_spends (fun _ _ => trivial) (fun _ _ => trivial) (by simp) ?_
    intro misses output pkHash present missed member pays
    apply sendRequest_follows trivial (by simp)
    intro response txid taken
    have cashed : Cashed d req present (misses ++ ⟨.walletContains pkHash,true⟩ :: [⟨.walletRemove pkHash,present⟩,
      ⟨.rpcSend ⟨"sendrawtransaction",[d.crates.hexEncode txRaw]⟩,.ok response⟩]) pkHash :=
        .intro met missed member pays taken
    cases issued with
    | withheld unmet => simp
    | issued redirects => exact fun _ _ => ⟨present,pkHash,by simpa using cashed⟩

theorem handle_cashes (d : Deployment) (request : Request) : Follows (fun _ _ => True) (fun past outcome =>
    ∀ req resp, request = .payments req → outcome = .returned (.http resp) →
      ∃ present pkHash, Cashed d req present past pkHash) [] (handle d request) := by
  by_cases paying : ∃ req, request = .payments req
  · obtain ⟨req,rfl⟩ := paying
    apply (paymentHandler_cashes d req).map (fun _ _ may => may)
    intro past outcome cashes req' resp same returned
    cases same
    obtain ⟨resp',answered,-⟩ := map_returned.mp returned
    exact cashes resp' answered
  · apply (handle_follows d request).mono (fun _ _ _ => trivial)
    intro past outcome _ req resp same
    exact absurd ⟨req,same⟩ paying

theorem last_fresh {log : Log} (inserted : 0 < freshInsertions pkHash log) :
    ∃ before k after, log = before ++ (k,⟨.walletInsert pkHash,true⟩) :: after ∧ freshInsertions pkHash after = 0 := by
  induction log using List.reverseRecOn with
  | nil => simp [freshInsertions] at inserted
  | append_singleton log entry ih =>
    by_cases new : entry.2 = ⟨.walletInsert pkHash,true⟩
    · exact ⟨log,entry.1,[],by rw [← new],rfl⟩
    · have other : freshInsertions pkHash [entry] = 0 := by simp [freshInsertions,fresh,new]
      rw [freshInsertions_append,other] at inserted
      obtain ⟨before,k,after,rfl,stale⟩ := ih inserted
      exact ⟨before,k,after ++ [entry],by simp,by rw [freshInsertions_append,stale,other]⟩

-- The payment by thread `i` uses up the insertion by thread `k`: the last one of the
-- hash before the payment saw it.
def Charged (log : Log) (i k : Nat) (pkHash : Bytes) : Prop :=
  ∃ before middle after, log = before ++ (k,⟨.walletInsert pkHash,true⟩) :: middle ++ (i,⟨.walletContains pkHash,true⟩) :: after ∧
    freshInsertions pkHash middle = 0

theorem cashed_charged (path : Reached (server d) meets (Shared.empty clock) s) {i : Nat} {present : Bool}
    (cashed : Cashed d req present (history s.log i) pkHash) : ∃ k, Charged s.log i k pkHash := by
  generalize did : history s.log i = past at cashed
  cases cashed with
  | intro met missed member pays taken =>
    obtain ⟨front,back,logged,-,-⟩ := history_split did
    obtain ⟨moment,later,prior,rfl,-,step,-⟩ := reached_logged path logged
    cases step with
    | perform running answered =>
      have held : pkHash ∈ moment.shared.wallet := by
        obtain ⟨present,-⟩ := granted answered
        simpa using present
      have balanced := reached_balanced prior pkHash
      rw [if_pos held] at balanced
      obtain ⟨before,k,after,split,stale⟩ := last_fresh (by omega : 0 < freshInsertions pkHash moment.log)
      exact ⟨k,before,after,back,by rw [logged,split],stale⟩

theorem charged_invoiced (release : d.overflowChecks = false) (path : Reached (server d) meets (Shared.empty clock) s)
    {i k : Nat} (charged : Charged s.log i k pkHash) : Invoiced d s k pkHash := by
  obtain ⟨before,middle,after,logged,-⟩ := charged
  rw [List.append_assoc,List.cons_append] at logged
  exact insertion_invoiced release path logged

theorem looks_once (path : Reached (server d) InvoiceSpending.Uncontested (Shared.empty clock) s)
    {before after before' after' : Log} {i j : Nat} (one : s.log = before ++ (i,⟨.walletContains pkHash,true⟩) :: after)
    (two : s.log = before' ++ (j,⟨.walletContains pkHash,true⟩) :: after') (quiet : freshInsertions pkHash after = 0)
    (quiet' : freshInsertions pkHash after' = 0) : i = j := by
  rcases split_order (one.symm.trans two) with same | ⟨middle,rfl⟩ | ⟨middle,rfl⟩
  · exact congrArg Prod.fst same
  · have rest : after = middle ++ (j,⟨.walletContains pkHash,true⟩) :: after' := by
      rw [one,List.append_assoc,List.append_right_inj] at two
      exact List.tail_eq_of_cons_eq two
    rw [rest,freshInsertions_append] at quiet
    exact InvoiceSpending.uncontested_seen path two (by omega)
  · have rest : after' = middle ++ (i,⟨.walletContains pkHash,true⟩) :: after := by
      rw [two,List.append_assoc,List.append_right_inj] at one
      exact List.tail_eq_of_cons_eq one
    rw [rest,freshInsertions_append] at quiet'
    exact (InvoiceSpending.uncontested_seen path one (by omega)).symm

-- A handler that has seen a hash and not removed it yet finds it where it was, if
-- nobody else looks at it: no removal comes first, and so no new insertion.
theorem uncontested_held (path : Reached (server d) InvoiceSpending.Uncontested (Shared.empty clock) s) : ∀ before i after,
    s.log = before ++ (i,⟨.walletContains pkHash,true⟩) :: after → (∀ present, (i,⟨.walletRemove pkHash,present⟩) ∉ after) →
      pkHash ∈ s.shared.wallet ∧ freshInsertions pkHash after = 0 := by
  induction path with
  | start => simp [Pool.start]
  | @step s act next prior met step ih =>
    cases step with
    | arrive => exact ih
    | surroundings moved =>
      cases moved
      exact ih
    | @perform _ j request op rest reply shared running answered =>
      intro before i after logged unspent
      have effect := answer_effect answered
      rcases split_last logged with ⟨-,new,rfl⟩ | ⟨tail,rfl,split⟩
      · simp only [Prod.mk.injEq] at new
        obtain ⟨rfl,same⟩ := new
        cases same
        obtain ⟨present,rfl⟩ := granted answered
        exact ⟨by simpa using present,rfl⟩
      · have kept : ∀ present, (i,⟨.walletRemove pkHash,present⟩) ∉ tail :=
          fun present removed => unspent present (List.mem_append_left _ removed)
        obtain ⟨held,quiet⟩ := ih before i tail split kept
        rw [freshInsertions_append,quiet]
        cases effect with
        | @insert addr =>
          refine ⟨Finset.mem_insert_of_mem held,?_⟩
          by_cases same : addr = pkHash
          · subst same
            simp [freshInsertions,fresh,held]
          · simp [freshInsertions,fresh,same]
        | @remove addr =>
          have other : addr ≠ pkHash := by
            intro same
            subst same
            obtain ⟨past,seen⟩ := permits_remove (reached_follows (handle_follows d) prior running).1
            obtain ⟨front,back,looked,-,unremoved⟩ := history_split seen
            have seen := ih front j back looked fun present => history_silent unremoved ⟨.walletRemove addr,present⟩
            obtain rfl := looks_once prior split looked quiet seen.2
            exact unspent _ (List.mem_append_right _ List.mem_cons_self)
          exact ⟨Finset.mem_erase_of_ne_of_mem (Ne.symm other) held,by simp [freshInsertions,fresh]⟩
        | _ => exact ⟨held,by simp [freshInsertions,fresh]⟩

-- A thread inserts once, and its insertion is used up once.
theorem charged_once (release : d.overflowChecks = false)
    (path : Reached (server d) InvoiceSpending.Uncontested (Shared.empty clock) s) {i j k : Nat} {pkHash' : Bytes}
    (one : Charged s.log i k pkHash) (two : Charged s.log j k pkHash') : i = j := by
  obtain ⟨before,middle,after,logged,stale⟩ := one
  obtain ⟨before',middle',after',logged',stale'⟩ := two
  have lasts : ∀ {before after : Log} {pkHash : Bytes}, s.log = before ++ (k,⟨.walletInsert pkHash,true⟩) :: after →
      history after k = [] := fun logged => insertion_last release path logged
  rw [List.append_assoc,List.cons_append] at logged logged'
  obtain ⟨inserts,rest⟩ := split_only (logged.symm.trans logged') (lasts logged) (lasts logged')
  obtain rfl : pkHash = pkHash' := by simpa using inserts
  have seen : ∀ {early late : Log} {a b : Nat} {tail : Log} {front : Log},
      s.log = front ++ (k,⟨.walletInsert pkHash,true⟩) :: (early ++ (a,⟨.walletContains pkHash,true⟩) :: late ++
        (b,⟨.walletContains pkHash,true⟩) :: tail) → freshInsertions pkHash late = 0 → a = b := by
    intro early late a b tail front split quiet
    have logged : s.log = (front ++ (k,⟨.walletInsert pkHash,true⟩) :: early) ++ (a,⟨.walletContains pkHash,true⟩) :: late ++
        (b,⟨.walletContains pkHash,true⟩) :: tail := by simpa using split
    exact InvoiceSpending.uncontested_seen path logged quiet
  rcases split_order rest with same | ⟨between,rfl⟩ | ⟨between,rfl⟩
  · exact congrArg Prod.fst same
  · rw [freshInsertions_append,InvoiceSpending.freshInsertions_cons] at stale'
    exact seen logged' (by omega)
  · rw [freshInsertions_append,InvoiceSpending.freshInsertions_cons] at stale
    exact (seen logged (by omega)).symm

-- So the removal of an accepted payment takes the hash out of the wallet.
theorem cashed_present (path : Reached (server d) InvoiceSpending.Uncontested (Shared.empty clock) s) {i : Nat} {present : Bool}
    (cashed : Cashed d req present (history s.log i) pkHash) : present = true := by
  generalize did : history s.log i = past at cashed
  cases cashed with
  | @intro _ _ _ misses _ _ response txid met missed member pays taken =>
    rw [List.append_cons] at did
    obtain ⟨front,back,logged,looked,-⟩ := history_split did
    obtain ⟨before,after,shape,-,unremoved⟩ := history_split looked
    obtain ⟨moment,later,prior,same,-,step,-⟩ := reached_logged path logged
    have held := (uncontested_held prior before i after (same.trans shape) fun present => history_silent unremoved _).1
    cases step with
    | perform running answered =>
      obtain ⟨shown,-⟩ := granted answered
      simpa [held] using shown

def Accepting (s : ServerPool) (i : Nat) : Prop := ∃ req resp, s.threads[i]? = some ⟨.payments req,.done (.http resp)⟩

theorem accepting_cashed (path : Reached (server d) InvoiceSpending.Uncontested (Shared.empty clock) s) {i : Nat}
    (accepting : Accepting s i) :
    ∃ req pkHash, s.requests[i]? = some (.payments req) ∧ Cashed d req true (history s.log i) pkHash := by
  obtain ⟨req,resp,found⟩ := accepting
  obtain ⟨present,pkHash,cashed⟩ := reached_follows (handle_cashes d) path found req resp rfl rfl
  obtain rfl := cashed_present path cashed
  exact ⟨req,pkHash,thread_request found,cashed⟩

-- Where no two handlers look at one insertion, every accepted payment took the hash
-- that it pays out of the wallet, and uses up an invoice of its own for it.
theorem uncontested_charged (release : d.overflowChecks = false)
    (path : Reached (server d) InvoiceSpending.Uncontested (Shared.empty clock) s) :
    ∃ charge : Nat → Nat, (∀ i, Accepting s i → ∃ req pkHash, s.requests[i]? = some (.payments req) ∧
        Cashed d req true (history s.log i) pkHash ∧ Invoiced d s (charge i) pkHash) ∧
      ∀ i j, Accepting s i → Accepting s j → charge i = charge j → i = j := by
  have each : ∀ i, ∃ k, Accepting s i → ∃ req pkHash, s.requests[i]? = some (.payments req) ∧
      Cashed d req true (history s.log i) pkHash ∧ Charged s.log i k pkHash := by
    intro i
    by_cases accepting : Accepting s i
    · obtain ⟨req,pkHash,known,cashed⟩ := accepting_cashed path accepting
      obtain ⟨k,charged⟩ := cashed_charged path cashed
      exact ⟨k,fun _ => ⟨req,pkHash,known,cashed,charged⟩⟩
    · exact ⟨0,fun met => absurd met accepting⟩
  choose charge charges using each
  refine ⟨charge,?_,?_⟩
  · intro i accepting
    obtain ⟨req,pkHash,known,cashed,charged⟩ := charges i accepting
    exact ⟨req,pkHash,known,cashed,charged_invoiced release path charged⟩
  · intro i j first second same
    obtain ⟨req,pkHash,-,-,one⟩ := charges i first
    obtain ⟨req',pkHash',-,-,two⟩ := charges j second
    rw [← same] at two
    exact charged_once release path one two

def accepts (s : ServerPool) (i : Nat) : Bool :=
  match s.threads[i]? with
  | some ⟨.payments _,.done (.http _)⟩ => true
  | _ => false

theorem accepts_iff (s : ServerPool) (i : Nat) : accepts s i = true ↔ Accepting s i := by
  unfold accepts Accepting
  split
  · rename_i req resp found
    simp [found]
  · rename_i unmet
    simp only [Bool.false_eq_true,false_iff]
    intro given
    obtain ⟨req,resp,found⟩ := given
    exact unmet req resp found

theorem settling_charged : ∃ s : ServerPool, Accepting s 1 ∧ ¬ Accepting s 2 ∧ ∃ charge : Nat → Nat,
    (∀ i, Accepting s i → ∃ req pkHash, s.requests[i]? = some (.payments req) ∧
        Cashed (deployment false) req true (history s.log i) pkHash ∧ Invoiced (deployment false) s (charge i) pkHash) ∧
      ∀ i j, Accepting s i → Accepting s j → charge i = charge j → i = j := by
  have done : ((server (deployment false)).drive (SoloRuns.reply calm) InvoiceSpending.unseen settling
      (.start (Shared.empty epoch))).map (fun s => (accepts s 1,accepts s 2)) = some (true,false) := by decide +kernel
  obtain ⟨s,driven,ended⟩ := Option.map_eq_some_iff.mp done
  simp only [Prod.mk.injEq] at ended
  refine ⟨s,(accepts_iff s 1).mp ended.1,?_,
    uncontested_charged rfl (drive_reached InvoiceSpending.unseen_uncontested .start driven)⟩
  intro accepted
  rw [(accepts_iff s 2).mpr accepted] at ended
  cases ended.2

end Keyserver.WalletLedger
