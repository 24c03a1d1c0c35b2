import Keyserver.PaymentRuns
import Keyserver.ServerProtocol
import Keyserver.SampleDeployment

namespace Keyserver.InvoiceIssuing
open SharedPrograms SharedPrograms.Program SharedPools KeyHandlers KeyProtocol Bitcoin Payments PaymentProtocol SoloRuns PaymentRuns
  ServerProtocol SampleDeployment

-- What an operation makes of the wallet.
def walletStep (wallet : Finset Bytes) (event : Event Reply) : Finset Bytes :=
  match event.op with
  | .walletInsert pkHash => insert pkHash wallet
  | .walletRemove pkHash => wallet.erase pkHash
  | _ => wallet

def Quiet (past : Past) : Prop := ∀ event ∈ past, ∀ wallet, walletStep wallet event = wallet

-- The name that an invoice has for a network.
inductive Named : Network → String → Prop where
  | mainnet : Named .mainnet "mainnet"
  | testnet : Named .testnet "testnet"
  | regnet : Named .regnet "regnet"

-- What is to be paid: the price to the hash of a key, then the advertisement of the
-- put address by a server at the URL.
def bill (url : String) (pkHash put : Bytes) : List Output :=
  [⟨some 5,[118,169,20] ++ pkHash ++ [136,172]⟩,
    ⟨some 0,[106,UInt8.ofNat (29 + (utf8 url).length)] ++ utf8 "keyserver" ++ put ++ utf8 url⟩]

-- The address in a path of the keys: what follows its first six bytes.
def PutAddress (d : Deployment) (path : String) (addr : Address) : Prop :=
  ∃ before addrStr, utf8 path = before ++ utf8 addrStr ∧ before.length = 6 ∧ d.crates.decodeAddress addrStr = .ok addr

-- A 402 with an invoice for the request, to be paid to the hash.
structure Invoice (d : Deployment) (req : HttpRequest) (resp : HttpResponse) (pkHash : Bytes) : Prop where
  status : resp.status = .paymentRequired
  headers : resp.headers =
    [("content-type","application/bitcoincash-paymentrequest"),("Content-Transfer-Encoding","binary")]
  body : ∃ network time addr, Named d.settings.network network ∧ PutAddress d req.path addr ∧
    resp.body = d.crates.encodePaymentRequest {
      paymentDetailsVersion := some 1
      pkiType := some "none"
      pkiData := none
      serializedPaymentDetails := d.crates.encodePaymentDetails {
        network := some network
        outputs := bill (req.scheme ++ "://" ++ req.host) pkHash addr.body
        time := UInt64.ofNat time
        expires := some (UInt64.ofNat (time + 30))
        memo := none
        paymentUrl := some (req.scheme ++ "://" ++ req.host ++ "/payments")
        merchantData := some (utf8 (req.scheme ++ "://" ++ req.host ++ req.path))}
      signature := none}

-- Every way through the generation of an invoice, by its effects on the wallet.
inductive Issue (d : Deployment) (req : HttpRequest) : Past → Outcome Panic ServerError HttpResponse → Prop where
  | invoiced (quiet : Quiet before) (invoice : Invoice d req resp pkHash) :
      Issue d req (before ++ [⟨.walletInsert pkHash,fresh⟩]) (.returned resp)
  | thrown (quiet : Quiet past) : Issue d req past (.thrown err)
  | panicked (quiet : Quiet past) : Issue d req past (.panicked fault)

variable {d : Deployment} {req : HttpRequest} {c : Conditions}

@[simp] theorem quiet_nil : Quiet [] := by simp [Quiet]
@[simp] theorem quiet_cons {event : Event Reply} {rest : Past} :
    Quiet (event :: rest) ↔ (∀ wallet, walletStep wallet event = wallet) ∧ Quiet rest := by simp [Quiet]
@[simp] theorem walletStep_now {clock : Clock} (wallet : Finset Bytes) : walletStep wallet ⟨.now,clock⟩ = wallet := rfl
@[simp] theorem walletStep_rpc {request : RpcRequest} {response : Except String RpcResponse} (wallet : Finset Bytes) :
    walletStep wallet ⟨.rpcSend request,response⟩ = wallet := rfl

theorem quiet_wallet {past : Past} (quiet : Quiet past) (wallet : Finset Bytes) : past.foldl walletStep wallet = wallet := by
  induction past with
  | nil => rfl
  | cons event rest ih =>
    rw [List.foldl_cons,quiet event List.mem_cons_self]
    exact ih fun later member => quiet later (List.mem_cons_of_mem _ member)

theorem carryOut_wallet (s : Shared) (op : Op) :
    (carryOut false c s op).wallet = walletStep s.wallet ⟨op,reply c s op⟩ := by
  rw [carryOut_effect]
  have effect := answer_effect (reply_answered c s op)
  generalize SoloRuns.effect c s op = next at effect
  generalize reply c s op = answered at effect
  cases effect <;> rfl

theorem run_wallet {Error α : Type} (program : Prog Error α) (now : Shared × Nat) :
    (run (settle false c) program now).2.1.wallet = (performed (settle false c) program now).foldl walletStep now.1.wallet := by
  induction program generalizing now with
  | done value => rfl
  | throw err => rfl
  | panic fault => rfl
  | call op next ih =>
    rw [run_call,ih,performed_call,List.foldl_cons]
    congr 1
    exact carryOut_wallet (atTime c now) op

theorem named_toString (network : Network) : Named network network.toString := by
  cases network <;> constructor

theorem pathTail_address {path addrStr : String} {addr : Address} (tail : pathTail path = some addrStr)
    (addressed : d.crates.decodeAddress addrStr = .ok addr) : PutAddress d path addr := by
  unfold pathTail at tail
  split at tail
  · rename_i long
    refine ⟨(utf8 path).take 6,addrStr,?_,List.length_take_of_le long,addressed⟩
    rw [← fromUtf8_some tail,List.take_append_drop]
  · cases tail

theorem generateOutputs_bill {Error : Type} (pkHash put : Bytes) (url : String) :
    (generateOutputs false pkHash url put : Prog Error (List Output)) = .done (bill url pkHash put) := by
  simp only [generateOutputs,lengthByte_cases,Bool.false_eq_true,false_and,if_false,done_bind,pure_done]
  rfl

-- The response that ends the generation, over the bill.
theorem response_invoice {currentTime expiryTime : Clock} {addrStr : String} {addr : Address} {pkHash : Bytes}
    (later : afterSecs currentTime VALID_DURATION = some expiryTime) (tail : pathTail req.path = some addrStr)
    (addressed : d.crates.decodeAddress addrStr = .ok addr) : Invoice d req {
      status := .paymentRequired
      headers := [("content-type","application/bitcoincash-paymentrequest"),("Content-Transfer-Encoding","binary")]
      body := d.crates.encodePaymentRequest
        (paymentInvoice d (paymentDetails d req currentTime expiryTime (bill (baseUrl req) pkHash addr.body)))} pkHash := by
  unfold afterSecs at later
  split at later
  · cases later
    exact ⟨rfl,rfl,_,currentTime.secs,addr,named_toString _,pathTail_address tail addressed,rfl⟩
  · cases later

theorem generateInvoice_issues (release : d.overflowChecks = false) :
    Follows (fun _ _ => True) (Issue d req) [] (generateInvoice d req) := by
  apply (generateInvoice_paths d req []).mono (fun _ _ _ => trivial)
  intro past outcome path
  cases path with
  | late | uncut => exact .panicked (by simp)
  | overflow checked => simp [release] at checked
  | misdirected | declined | unreadable | foreign => exact .thrown (by simp)
  | invoiced expires tail put generated =>
    rw [release,generateOutputs_bill] at generated
    cases generated
    exact .invoiced (by simp) (response_invoice expires tail put)

-- The wallet gains an address together with the invoice that names it.
inductive Registers (d : Deployment) (req : HttpRequest) (wallet : Finset Bytes) :
    Outcome Panic ServerError HttpResponse → Finset Bytes → Prop where
  | invoiced (invoice : Invoice d req resp pkHash) : Registers d req wallet (.returned resp) (insert pkHash wallet)
  | otherwise (unissued : ∀ resp, outcome = .returned resp → resp.status ≠ .paymentRequired) :
      Registers d req wallet outcome wallet

theorem issue_registers {past : Past} {outcome : Outcome Panic ServerError HttpResponse} (issue : Issue d req past outcome)
    (wallet : Finset Bytes) : Registers d req wallet outcome (past.foldl walletStep wallet) := by
  cases issue with
  | invoiced quiet invoice =>
    rw [List.foldl_append,quiet_wallet quiet]
    exact .invoiced invoice
  | thrown quiet =>
    rw [quiet_wallet quiet]
    exact .otherwise (by simp)
  | panicked quiet =>
    rw [quiet_wallet quiet]
    exact .otherwise (by simp)

-- In any interleaving the check accepts a payment to the hash or finds the hash gone.
theorem checkOutputs_accepts {Error : Type} {outputs : List TxOut} {output : TxOut} {pkHash : Bytes} (past : Past)
    (member : output ∈ outputs) (pays : Pays output pkHash) : Follows (fun _ _ => True)
      (fun later outcome => outcome = .returned true ∨ ⟨.walletContains pkHash,false⟩ ∈ later) past
      (outputs.anyM WalletState.checkP2pkh : Prog Error Bool) := by
  induction outputs generalizing past with
  | nil => cases member
  | cons first rest ih =>
    rw [checkOutputs_cons]
    rcases List.mem_cons.mp member with rfl | later
    · rw [payee_some.mpr pays]
      refine ⟨trivial,fun present => ?_⟩
      cases present with
      | true => exact ⟨trivial,fun _ => .inl rfl⟩
      | false =>
        apply (checkOutputs_follows (fun _ _ => trivial) (fun _ _ => trivial) rest _).mono (fun _ _ may => may)
        intro last outcome path
        cases path with
        | unpaid missed => exact .inr (by simp)
        | spent missed member pays => exact .inl rfl
    · cases payee first with
      | none => exact ih past later
      | some other =>
        refine ⟨trivial,fun present => ?_⟩
        cases present with
        | true => exact ⟨trivial,fun _ => .inl rfl⟩
        | false => exact ih _ later

-- An address leaves the wallet only by a removal in the log.
theorem inserted_stays {meets : ServerPool → Act Reply Request Clock → Prop} {origin : Shared} {s : ServerPool}
    (path : Reached (server d) meets origin s) {pkHash : Bytes} : ∀ before i fresh after,
      s.log = before ++ (i,⟨.walletInsert pkHash,fresh⟩) :: after →
        (∀ j present, (j,⟨.walletRemove pkHash,present⟩) ∉ after) → pkHash ∈ s.shared.wallet := by
  refine @logged_invariant d (fun log shared => ∀ before i fresh after,
    log = before ++ (i,⟨.walletInsert pkHash,fresh⟩) :: after →
      (∀ j present, (j,⟨.walletRemove pkHash,present⟩) ∉ after) → pkHash ∈ shared.wallet)
    meets origin s ?_ ?_ ?_ path
  · simp
  · intro log shared clock valid
    exact valid
  · intro log shared j event next effect valid before i fresh after logged unspent
    rcases split_last logged with ⟨-,new,-⟩ | ⟨tail,rfl,split⟩
    · simp only [Prod.mk.injEq] at new
      obtain ⟨rfl,rfl⟩ := new
      cases effect with
      | insert => exact Finset.mem_insert_self pkHash shared.wallet
    · have member := valid before i fresh tail split fun j present removed => unspent j present (List.mem_append_left _ removed)
      cases effect with
      | insert => exact Finset.mem_insert_of_mem member
      | @remove addr =>
        have other : pkHash ≠ addr := by
          rintro rfl
          exact unspent j _ (List.mem_append_right _ List.mem_cons_self)
        exact Finset.mem_erase_of_ne_of_mem other member
      | _ => exact member

-- Every transaction with the output that the invoice asked for is accepted, by a
-- check of this wallet and by one that others run into, while the hash is there.
def Accepts (s : Shared) (pkHash : Bytes) : Prop := ∀ tx : Transaction, ⟨5,[118,169,20] ++ pkHash ++ [136,172]⟩ ∈ tx.output →
  (∀ c n, (run (settle false c) (WalletState.checkOutputs tx : Prog ServerError Bool) (s,n)).1 = .returned true) ∧
    Follows (fun _ _ => True) (fun later outcome => outcome = .returned true ∨ ⟨.walletContains pkHash,false⟩ ∈ later) []
      (WalletState.checkOutputs tx : Prog ServerError Bool)

theorem held_accepts {s : Shared} {pkHash : Bytes} (held : pkHash ∈ s.wallet) (length : pkHash.length = 20) :
    Accepts s pkHash := by
  intro tx member
  have pays : Pays ⟨5,[118,169,20] ++ pkHash ++ [136,172]⟩ pkHash := ⟨rfl,rfl,length⟩
  refine ⟨?_,checkOutputs_accepts [] member pays⟩
  intro c n
  obtain ⟨spent,found⟩ := spendable_isSome member pays held
  rw [WalletState.checkOutputs,(run_checkOutputs tx.output).1,found]
  rfl

-- Where the put without a token ends, by the service's own route.
def EndsInvoiced (d : Deployment) (request : Request) (past : Past) (outcome : Outcome Panic ServerError Answer) : Prop :=
  ∀ req resp, request = .keys req → req.method = .put → req.authorization = none → outcome = .returned (.http resp) →
    resp.status = .paymentRequired → Issue d req past (.returned resp)

theorem handle_issues (release : d.overflowChecks = false) (request : Request) :
    Follows (fun _ _ => True) (EndsInvoiced d request) [] (handle d request) := by
  have others : (∀ req, request ≠ .keys req) → Follows (fun _ _ => True) (EndsInvoiced d request) [] (handle d request) := by
    intro other
    apply (handle_follows d request).mono (fun _ _ _ => trivial)
    intro past outcome _ req resp same
    exact absurd same (other req)
  cases request with
  | keys req =>
    by_cases unpaid : req.method = .put ∧ req.authorization = none
    · simp only [handle,keysResource]
      cases d.crates.routeAddr req.path with
      | none =>
        intro req' resp same put absent answered status
        cases answered
        cases status
      | some addrStr =>
        dsimp only
        rw [call_unpaid unpaid.1 unpaid.2]
        apply (generateInvoice_issues release).map (fun _ _ _ => trivial)
        intro past outcome issue req' resp same put absent answered status
        cases same
        obtain ⟨resp',rfl,inner⟩ := map_returned.mp answered
        cases inner
        exact issue
    · apply (handle_follows d (.keys req)).mono (fun _ _ _ => trivial)
      intro past outcome _ req' resp same put absent
      cases same
      exact absurd ⟨put,absent⟩ unpaid
  | _ => exact others (by simp)

-- The wallet holds what has been invoiced: alone, exactly the address of the
-- returned invoice is added; among others it stays until a payment removes it.
theorem invoice_registers (release : d.overflowChecks = false) (put : req.method = .put) (unpaid : req.authorization = none) :
    (∀ service c s n, Registers d req s.wallet (run (settle false c) (Payments.call d service req) (s,n)).1
      (run (settle false c) (Payments.call d service req) (s,n)).2.1.wallet) ∧
    ∀ meets origin s (i : Nat) resp, Reached (server d) meets origin s → s.threads[i]? = some ⟨.keys req,.done (.http resp)⟩ →
      resp.status = .paymentRequired → ∃ pkHash before fresh after, Invoice d req resp pkHash ∧
        s.log = before ++ (i,⟨.walletInsert pkHash,fresh⟩) :: after ∧
        (pkHash.length = 20 → (∀ j present, (j,⟨.walletRemove pkHash,present⟩) ∉ after) → Accepts s.shared pkHash) := by
  constructor
  · intro service c s n
    rw [call_unpaid put unpaid,run_wallet]
    exact issue_registers ((generateInvoice_issues release).ended (s,n)) s.wallet
  · intro meets origin s i resp path standing status
    have ended := reached_follows (handle_issues release) path standing
    have issue := ended req resp rfl put unpaid rfl status
    generalize past : history s.log i = events at issue
    cases issue with
    | @invoiced before _ pkHash fresh quiet invoice =>
      obtain ⟨front,back,logged,-,-⟩ := history_split past
      refine ⟨pkHash,front,fresh,back,invoice,logged,fun length unspent => ?_⟩
      exact held_accepts (inserted_stays path front i fresh back logged unspent) length

theorem unpaidPut_registers : ∃ resp pkHash, Invoice (deployment false) unpaidPut resp pkHash ∧
    (run (settle false calm) (Payments.call (deployment false) (fun _ => .throw .notFound) unpaidPut) (Shared.empty epoch,0)).1 =
      .returned resp ∧
    (run (settle false calm) (Payments.call (deployment false) (fun _ => .throw .notFound) unpaidPut)
      (Shared.empty epoch,0)).2.1.wallet = insert pkHash ∅ := by
  have registers := (@invoice_registers (deployment false) unpaidPut rfl rfl rfl).1 (fun _ => .throw .notFound) calm
    (Shared.empty epoch) 0
  have grown : (run (settle false calm) (Payments.call (deployment false) (fun _ => .throw .notFound) unpaidPut)
      (Shared.empty epoch,0)).2.1.wallet = {walletHash} := by decide +kernel
  generalize run (settle false calm) (Payments.call (deployment false) (fun _ => .throw .notFound) unpaidPut)
    (Shared.empty epoch,0) = ended at registers grown ⊢
  obtain ⟨outcome,last,n⟩ := ended
  simp only at registers grown ⊢
  generalize last.wallet = wallet at registers grown ⊢
  cases registers with
  | @invoiced resp pkHash invoice => exact ⟨resp,pkHash,invoice,rfl,rfl⟩
  | otherwise unissued => exact absurd grown (by simp [Shared.empty])

end Keyserver.InvoiceIssuing
