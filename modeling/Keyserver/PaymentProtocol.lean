import Keyserver.Payments
import Keyserver.KeyRequests

namespace Keyserver.PaymentProtocol
open SharedPrograms SharedPrograms.Program KeyHandlers KeyProtocol KeyRequests Bitcoin Payments

def PaidFor (d : Deployment) (req : HttpRequest) : Prop :=
  ∃ header token, req.authorization = some header ∧ tokenStr d header = some token ∧
    d.crates.base64Decode token = some (generateToken d (utf8 (merchantUrl req)) (utf8 d.settings.secret))

-- What the payment check may do around the service it guards.
inductive Guarded (d : Deployment) (req : HttpRequest) : Past → Op → Prop where
  | clock : Guarded d req past .now
  | rpc : Guarded d req past (.rpcSend request)
  | issue (put : req.method = .put) (unpaid : req.authorization = none) : Guarded d req past (.walletInsert pkHash)
  | enter (paid : req.method = .put → PaidFor d req) :
      Guarded d req past (.serviceCall req.method req.scheme req.host req.path)

-- What the payment handler may do: an address leaves the wallet only after it
-- was seen there, and only a payment that removed one is sent to the node.
inductive Settles (d : Deployment) : Past → Op → Prop where
  | lookup : Settles d past (.walletContains pkHash)
  | flush : Settles d (before ++ [⟨.walletContains pkHash,true⟩]) (.walletRemove pkHash)
  | send : Settles d (before ++ [⟨.walletContains pkHash,true⟩] ++ [⟨.walletRemove pkHash,present⟩])
      (.rpcSend ⟨"sendrawtransaction",[d.crates.hexEncode raw]⟩)

def Misses (events : Past) : Prop := ∀ event ∈ events, ∃ pkHash, event = ⟨.walletContains pkHash,false⟩

structure Pays (output : TxOut) (pkHash : Bytes) : Prop where
  price : output.value = PRICE
  script : output.scriptPubkey = p2pkhScript pkHash
  length : pkHash.length = 20

-- A payment that passes every check the handler makes before it asks the wallet.
structure Tendered (d : Deployment) (req : HttpRequest) (payment : Payment) (txRaw : Bytes) (tx : Transaction) : Prop where
  contentType : req.contentType = some (utf8 "application/bitcoincash-payment")
  accept : req.accept = some (utf8 "application/bitcoincash-paymentack")
  received : (collected req.payload).bind d.crates.decodePayment = some payment
  first : payment.transactions.head? = some txRaw
  parsed : d.crates.deserializeTransaction txRaw = .ok tx

-- Merchant data that passes the checks the handler makes after the broadcast.
structure Redirects (d : Deployment) (payment : Payment) (merchant : String) (url : Url) : Prop where
  named : payment.merchantData = some (utf8 merchant)
  parsed : d.crates.urlParse merchant = .ok url

def tokenText (d : Deployment) (merchant : String) : String :=
  d.crates.base64Encode (generateToken d (utf8 merchant) (utf8 d.settings.secret))

-- HMAC under the server's secret tells these two messages apart.
def CollisionFree (d : Deployment) (one other : String) : Prop :=
  generateToken d (utf8 one) (utf8 d.settings.secret) = generateToken d (utf8 other) (utf8 d.settings.secret) →
    utf8 one = utf8 other

def acknowledgement (d : Deployment) (payment : Payment) (merchant : String) (url : Url) : HttpResponse where
  status := .accepted
  headers := [("location",url.serialization),("authorization","POP " ++ tokenText d merchant),("pragma","no-cache")]
  body := d.crates.encodePaymentAck ⟨payment,some "Thanks for your custom!"⟩

inductive Receipt (d : Deployment) (payment : Payment) : Except ServerError HttpResponse → Prop where
  | issued (redirects : Redirects d payment merchant url) : Receipt d payment (.ok (acknowledgement d payment merchant url))
  | withheld (unmet : ∀ merchant url, ¬ Redirects d payment merchant url) : Receipt d payment (.error err)

-- The two effects of the handler and what it answers after them.
def settlement (d : Deployment) (txRaw : Bytes) (tx : Transaction) (receipt : Except ServerError HttpResponse) :
    Prog ServerError HttpResponse := do
  if !(← WalletState.checkOutputs tx) then .throw (.payment .invalidOutputs)
  else
    let _txid ← (sendTx d txRaw).mapError fun _ => .payment .invalidTx
    fromResult receipt

inductive PaymentForm (d : Deployment) (req : HttpRequest) : Prog ServerError HttpResponse → Prop where
  | refused (unmet : ∀ payment txRaw tx, ¬ Tendered d req payment txRaw tx) : PaymentForm d req (.throw err)
  | tendered (met : Tendered d req payment txRaw tx) (receipt : Receipt d payment result) :
      PaymentForm d req (settlement d txRaw tx result)

-- The ways the payment check takes: only the first reaches the service.
inductive CallForm (d : Deployment) (service : HttpRequest → Prog ServerError HttpResponse) (req : HttpRequest) :
    Prog ServerError HttpResponse → Prop where
  | forwarded (paid : req.method = .put → PaidFor d req) : CallForm d service req (forward service req)
  | invoiced (put : req.method = .put) (unpaid : req.authorization = none) : CallForm d service req (generateInvoice d req)
  | refused (put : req.method = .put) (unpaid : ¬ PaidFor d req) : CallForm d service req (.throw invalidAuth)
  | rejected (put : req.method = .put) (unpaid : ¬ PaidFor d req) :
      CallForm d service req (.done invalidAuth.errorResponse)

-- Every way through `check_p2pkh` and, over all outputs, `check_outputs`.
inductive SpendPath {Error : Type} (outputs : List TxOut) (past : Past) : Past → Outcome Panic Error Bool → Prop where
  | unpaid (missed : Misses misses) : SpendPath outputs past (past ++ misses) (.returned false)
  | spent (missed : Misses misses) (member : output ∈ outputs) (pays : Pays output pkHash) :
      SpendPath outputs past (past ++ misses ++ [⟨.walletContains pkHash,true⟩] ++ [⟨.walletRemove pkHash,present⟩])
        (.returned true)

-- The operations of the generation of an invoice, by what it knows by then.
inductive InvoiceOp (d : Deployment) (past : Past) : Past → Op → Prop where
  | clock : InvoiceOp d past past .now
  | ask : InvoiceOp d past (past ++ [⟨.now,currentTime⟩]) (.rpcSend ⟨"getnewaddress",[]⟩)
  | insert (granted : Grants response addrStr) (addressed : d.crates.decodeAddress addrStr = .ok addr)
      (network : Carries d.settings.network addr.network) (keyed : addr.hashType = .key) :
      InvoiceOp d past (past ++ [⟨.now,currentTime⟩] ++ [⟨.rpcSend ⟨"getnewaddress",[]⟩,.ok response⟩]) (.walletInsert addr.body)

-- Every way through it.
inductive InvoicePath (d : Deployment) (req : HttpRequest) (past : Past) :
    Past → Outcome Panic ServerError HttpResponse → Prop where
  | late (late : afterSecs currentTime VALID_DURATION = none) :
      InvoicePath d req past (past ++ [⟨.now,currentTime⟩]) (.panicked .overflow)
  | uncut (uncut : pathTail req.path = none) : InvoicePath d req past (past ++ [⟨.now,currentTime⟩]) (.panicked .slice)
  | misdirected (tail : pathTail req.path = some putAddrStr)
      (put : d.crates.decodeAddress putAddrStr = .error (cashErr,base58Err)) :
      InvoicePath d req past (past ++ [⟨.now,currentTime⟩]) (.thrown (.address cashErr base58Err))
  | declined (declined : Declined received) :
      InvoicePath d req past (past ++ [⟨.now,currentTime⟩] ++ [⟨.rpcSend ⟨"getnewaddress",[]⟩,received⟩])
        (.thrown (.payment .addrFetchFailed))
  | unreadable (granted : Grants response addrStr) (unread : d.crates.decodeAddress addrStr = .error (cashErr,base58Err)) :
      InvoicePath d req past (past ++ [⟨.now,currentTime⟩] ++ [⟨.rpcSend ⟨"getnewaddress",[]⟩,.ok response⟩])
        (.thrown (.address cashErr base58Err))
  | foreign (granted : Grants response addrStr) (addressed : d.crates.decodeAddress addrStr = .ok addr)
      (other : ¬ Carries d.settings.network addr.network ∨ addr.hashType ≠ .key) :
      InvoicePath d req past (past ++ [⟨.now,currentTime⟩] ++ [⟨.rpcSend ⟨"getnewaddress",[]⟩,.ok response⟩])
        (.thrown (.payment .mismatchedNetwork))
  | overflow (checked : d.overflowChecks = true) (long : 256 ≤ 29 + (utf8 (baseUrl req)).length % 256) :
      InvoicePath d req past (past ++ [⟨.now,currentTime⟩] ++ [⟨.rpcSend ⟨"getnewaddress",[]⟩,.ok response⟩] ++
        [⟨.walletInsert pkHash,fresh⟩]) (.panicked .overflow)
  | invoiced (expires : afterSecs currentTime VALID_DURATION = some expiryTime) (tail : pathTail req.path = some putAddrStr)
      (put : d.crates.decodeAddress putAddrStr = .ok putAddr)
      (generated : (generateOutputs d.overflowChecks pkHash (baseUrl req) putAddr.body : Prog ServerError _) = .done outputs) :
      InvoicePath d req past (past ++ [⟨.now,currentTime⟩] ++ [⟨.rpcSend ⟨"getnewaddress",[]⟩,.ok response⟩] ++
        [⟨.walletInsert pkHash,fresh⟩]) (.returned {
          status := .paymentRequired
          headers := [("content-type","application/bitcoincash-paymentrequest"),("Content-Transfer-Encoding","binary")]
          body := d.crates.encodePaymentRequest (paymentInvoice d (paymentDetails d req currentTime expiryTime outputs))})

-- A payment that the handler answered with 202, for the URL `merchant`, by the
-- events of that handler.
inductive Accepted (d : Deployment) (req : HttpRequest) (past : Past) (resp : HttpResponse) (merchant pkHash : Bytes) : Prop where
  | intro (payment : Payment) (txRaw : Bytes) (tx : Transaction) (output : TxOut)
      (response : RpcResponse) (txid : String)
      (received : (collected req.payload).bind d.crates.decodePayment = some payment)
      (first : payment.transactions.head? = some txRaw) (parsed : d.crates.deserializeTransaction txRaw = .ok tx)
      (member : output ∈ tx.output) (pays : Pays output pkHash)
      (seen : ⟨.walletContains pkHash,true⟩ ∈ past) (flushed : ∃ present, ⟨.walletRemove pkHash,present⟩ ∈ past)
      (sent : ⟨.rpcSend ⟨"sendrawtransaction",[d.crates.hexEncode txRaw]⟩,.ok response⟩ ∈ past)
      (taken : Grants response txid)
      (named : payment.merchantData = some merchant) (status : resp.status = .accepted)
      (token : resp.headers.lookup "authorization" =
        some ("POP " ++ d.crates.base64Encode (generateToken d merchant (utf8 d.settings.secret))))

variable {d : Deployment} {req : HttpRequest} {past : Past}

theorem SpendPath.prepend {Error : Type} {output : TxOut} {rest : List TxOut} {misses later : Past}
    {outcome : Outcome Panic Error Bool} (path : SpendPath rest (past ++ misses) later outcome) (missed : Misses misses) :
    SpendPath (output :: rest) past later outcome := by
  have joined : ∀ {more}, Misses more → Misses (misses ++ more) :=
    fun missed' event member => (List.mem_append.mp member).elim (missed event) (missed' event)
  cases path with
  | @unpaid more missed' =>
    rw [List.append_assoc]
    exact .unpaid (joined missed')
  | @spent more found pkHash present missed' member pays =>
    rw [List.append_assoc past misses more]
    exact .spent (joined missed') (List.mem_cons_of_mem output member) pays

-- A call to the node that a handler answers with one error of its own.
theorem sendRequest_follows {Rest : Type} {request : RpcRequest} {err : ServerError} {rest : String → Prog ServerError Rest}
    {may : Past → Op → Prop} {ends : Past → Outcome Panic ServerError Rest → Prop} (allowed : may past (.rpcSend request))
    (declines : ∀ received, Declined received → ends (past ++ [⟨.rpcSend request,received⟩]) (.thrown err))
    (grants : ∀ response value, Grants response value →
      Follows may ends (past ++ [⟨.rpcSend request,.ok response⟩]) (rest value)) :
    Follows may ends past ((sendRequest request).mapError (fun _ => err) >>= rest) := by
  simp only [sendRequest,rpcSend,mapError_call,call_bind]
  refine ⟨allowed,fun reply => ?_⟩
  rcases reply with failure | response
  · exact declines _ unreached_declined
  · cases taken : responseValue response with
    | error failure => simpa [taken] using declines _ (refused_declined taken)
    | ok value => simpa [taken] using grants response value (responseValue_ok.mp taken)

-- Under any rule that lets a check look for a hash and remove one that it found.
section Checks
variable {Error : Type} {may : Past → Op → Prop} (lookup : ∀ past pkHash, may past (.walletContains pkHash))
  (flush : ∀ before pkHash, may (before ++ [⟨.walletContains pkHash,true⟩]) (.walletRemove pkHash))
include lookup flush

theorem checkP2pkh_follows (output : TxOut) (past : Past) :
    Follows may (SpendPath [output] past) past (WalletState.checkP2pkh output : Prog Error Bool) := by
  have unpaid : SpendPath [output] past past (.returned false : Outcome Panic Error Bool) := by
    have path : SpendPath [output] past (past ++ []) (.returned false : Outcome Panic Error Bool) :=
      .unpaid (by simp [Misses])
    simpa using path
  unfold WalletState.checkP2pkh
  by_cases price : output.value = PRICE
  · obtain ⟨found,extracted,exact⟩ := @extractPubkeyHash_exact Error output.scriptPubkey
    simp only [price,ne_eq,not_true_eq_false,if_false,extracted,done_bind]
    cases found with
    | none => exact unpaid
    | some pkHash =>
      have script := (exact pkHash).mp rfl
      simp only [WalletState.contains,call_bind,done_bind]
      refine ⟨lookup _ _,fun present => ?_⟩
      cases present with
      | false => exact .unpaid (by simp [Misses])
      | true =>
        simp only [if_true,WalletState.remove,call_bind,done_bind]
        refine ⟨flush _ _,fun present => ?_⟩
        have path := @SpendPath.spent Error [output] past [] output pkHash present (by simp [Misses])
          (List.mem_singleton.mpr rfl) ⟨price,script.1,script.2⟩
        simpa using path
  · simpa [price] using unpaid

theorem checkOutputs_follows (outputs : List TxOut) (past : Past) :
    Follows may (SpendPath outputs past) past (outputs.anyM WalletState.checkP2pkh : Prog Error Bool) := by
  induction outputs generalizing past with
  | nil =>
    have path : SpendPath [] past (past ++ []) (.returned false : Outcome Panic Error Bool) :=
      .unpaid (by simp [Misses])
    simpa [List.anyM] using path
  | cons output rest ih =>
    refine (checkP2pkh_follows lookup flush output past).bind ?_ (fun _ _ path => by cases path) (fun _ _ path => by cases path)
    intro middle paid path
    cases path with
    | spent missed member pays =>
      obtain rfl := List.mem_singleton.mp member
      exact .spent missed (List.mem_cons_self) pays
    | @unpaid misses missed =>
      exact (ih (past ++ misses)).mono (fun _ _ may => may) fun _ _ path => path.prepend missed

-- The settlement refuses, or goes on to the node after one output has been spent.
theorem settlement_spends {txRaw : Bytes} {tx : Transaction} {receipt : Except ServerError HttpResponse}
    {ends : Past → Outcome Panic ServerError HttpResponse → Prop}
    (unpaid : ∀ misses, Misses misses → ends misses (.thrown (.payment .invalidOutputs)))
    (spent : ∀ misses output pkHash present, Misses misses → output ∈ tx.output → Pays output pkHash →
      Follows may ends (misses ++ [⟨.walletContains pkHash,true⟩] ++ [⟨.walletRemove pkHash,present⟩])
        ((sendTx d txRaw).mapError (fun _ => .payment .invalidTx) >>= fun _ => fromResult receipt)) :
    Follows may ends [] (settlement d txRaw tx receipt) := by
  refine (checkOutputs_follows lookup flush tx.output []).bind ?_ (fun _ _ path => by cases path) (fun _ _ path => by cases path)
  intro later paid path
  cases path with
  | unpaid missed => exact unpaid _ missed
  | spent missed member pays => exact spent _ _ _ _ missed member pays

end Checks

theorem tendered_unique {payment payment' : Payment} {txRaw txRaw' : Bytes} {tx tx' : Transaction}
    (one : Tendered d req payment txRaw tx) (two : Tendered d req payment' txRaw' tx') :
    payment' = payment ∧ txRaw' = txRaw ∧ tx' = tx := by
  obtain rfl := Option.some.inj (one.received.symm.trans two.received)
  obtain rfl := Option.some.inj (one.first.symm.trans two.first)
  obtain rfl := Except.ok.inj (one.parsed.symm.trans two.parsed)
  exact ⟨rfl,rfl,rfl⟩

theorem paymentHandler_form (d : Deployment) (req : HttpRequest) : PaymentForm d req (paymentHandler d req) := by
  unfold paymentHandler
  split
  · rename_i content
    exact .refused fun _ _ _ met => content met.contentType
  · rename_i content
    split
    · rename_i accept
      exact .refused fun _ _ _ met => accept met.accept
    · rename_i accept
      rw [readPayload_eq]
      cases raw : collected req.payload with
      | none => exact .refused fun _ _ _ met => by simpa [raw] using met.received
      | some raw' =>
        simp only [Option.map_some,List.nil_append,okOr_some,done_bind]
        cases decoded : d.crates.decodePayment raw' with
        | none => exact .refused fun _ _ _ met => by simpa [raw,decoded] using met.received
        | some payment =>
          have received : (collected req.payload).bind d.crates.decodePayment = some payment := by simp [raw,decoded]
          have known : ∀ {other txRaw tx}, Tendered d req other txRaw tx → other = payment :=
            fun met => Option.some.inj (met.received.symm.trans received)
          simp only [okOr_some,done_bind]
          cases first : payment.transactions.head? with
          | none =>
            refine .refused fun other txRaw tx met => ?_
            obtain rfl := known met
            simpa [first] using met.first
          | some txRaw =>
            simp only [okOr_some,done_bind]
            cases parsed : d.crates.deserializeTransaction txRaw with
            | error err =>
              refine .refused fun other txRaw' tx met => ?_
              obtain rfl := known met
              obtain rfl := Option.some.inj (first.symm.trans met.first)
              simpa [parsed] using met.parsed
            | ok tx =>
              have met : Tendered d req payment txRaw tx :=
                ⟨Decidable.not_not.mp content,Decidable.not_not.mp accept,received,first,parsed⟩
              simp only [fromResult_ok,mapError_done,done_bind]
              cases named : payment.merchantData with
              | none => exact .tendered met (.withheld fun _ _ redirects => by simpa [named] using redirects.named)
              | some merchant =>
                simp only [okOr_some,done_bind]
                cases text : fromUtf8 merchant with
                | none =>
                  refine .tendered met (.withheld fun merchant' url redirects => ?_)
                  obtain rfl := Option.some.inj (named.symm.trans redirects.named)
                  simp [fromUtf8_utf8] at text
                | some merchantUrl =>
                  obtain rfl := fromUtf8_some text
                  simp only [okOr_some,done_bind]
                  cases url : d.crates.urlParse merchantUrl with
                  | error err =>
                    refine .tendered met (.withheld fun merchant' url' redirects => ?_)
                    obtain rfl := utf8_inj (Option.some.inj (named.symm.trans redirects.named))
                    simpa [url] using redirects.parsed
                  | ok redirectUrl => exact .tendered met (.issued ⟨named,url⟩)

theorem paymentHandler_follows (d : Deployment) (req : HttpRequest) :
    Follows (Settles d) (fun later outcome => (∀ fault, outcome ≠ .panicked fault) ∧
      ∀ resp, outcome = .returned resp → ∃ merchant pkHash, Accepted d req later resp merchant pkHash) []
      (paymentHandler d req) := by
  have form := paymentHandler_form d req
  generalize paymentHandler d req = program at form ⊢
  cases form with
  | refused unmet => simp
  | @tendered payment txRaw tx receipt met issued =>
    refine settlement_spends (fun _ _ => .lookup) (fun _ _ => .flush) (by simp) ?_
    intro misses output pkHash present missed member pays
    apply sendRequest_follows .send (by simp)
    intro response txid taken
    cases issued with
    | withheld unmet => simp
    | @issued merchant url redirects =>
      refine ⟨by simp,fun resp answered => ?_⟩
      cases answered
      exact ⟨utf8 merchant,pkHash,payment,txRaw,tx,output,response,txid,met.received,met.first,met.parsed,member,
        pays,by simp,⟨present,by simp⟩,by simp,taken,redirects.named,rfl,by rfl⟩

theorem Accepted.wallet {resp : HttpResponse} {merchant pkHash : Bytes} (accepted : Accepted d req past resp merchant pkHash) :
    ⟨.walletContains pkHash,true⟩ ∈ past := by
  cases accepted
  assumption

theorem Accepted.merchant {resp : HttpResponse} {merchant pkHash : Bytes} {payment : Payment}
    (accepted : Accepted d req past resp merchant pkHash)
    (received : (collected req.payload).bind d.crates.decodePayment = some payment) : payment.merchantData = some merchant := by
  cases accepted with
  | intro other txRaw tx output response txid received' first parsed member pays seen flushed sent taken named =>
    obtain rfl := Option.some.inj (received'.symm.trans received)
    exact named

section Check
variable {may : Past → Op → Prop} {ends : Past → Outcome Panic ServerError HttpResponse → Prop}

theorem generateInvoice_paths (d : Deployment) (req : HttpRequest) (past : Past) :
    Follows (InvoiceOp d past) (InvoicePath d req past) past (generateInvoice d req) := by
  simp only [generateInvoice,systemTimeNow,call_bind,done_bind]
  refine ⟨.clock,fun currentTime => ?_⟩
  beta_reduce
  cases expires : afterSecs currentTime VALID_DURATION with
  | none => exact .late expires
  | some expiryTime =>
    cases tail : pathTail req.path with
    | none => exact .uncut tail
    | some putAddrStr =>
      simp only [unwrap_some,done_bind,decodeAddress]
      cases put : d.crates.decodeAddress putAddrStr with
      | error err => exact .misdirected tail put
      | ok putAddr =>
        rw [done_bind,newAddr,bind_bind]
        apply sendRequest_follows .ask (fun _ declined => .declined declined)
        intro response addrStr granted
        unfold decodeAddress
        cases addressed : d.crates.decodeAddress addrStr with
        | error err => exact .unreadable granted addressed
        | ok addr =>
          simp only [done_bind]
          split
          · rename_i other
            exact .foreign granted addressed (other.imp_left fun differs carries => differs (carries_fromAddr.mp carries))
          · rename_i accepted
            obtain ⟨network,keyed⟩ := not_or.mp accepted
            have carries := carries_fromAddr.mpr (Decidable.not_not.mp network)
            refine ⟨.insert granted addressed carries (Decidable.not_not.mp keyed),fun fresh => ?_⟩
            simp only [generateOutputs,lengthByte_cases]
            split
            · rename_i overflows
              exact .overflow overflows.1 overflows.2
            · rename_i fits
              exact .invoiced expires tail put (by simp [generateOutputs,lengthByte_cases,fits])

theorem generateInvoice_follows (clocks : ∀ past, may past .now) (rpc : ∀ past request, may past (.rpcSend request))
    (issue : ∀ past pkHash, may past (.walletInsert pkHash))
    (answers : ∀ past resp, resp.status.success = false → ends past (.returned resp))
    (throws : ∀ past err, ends past (.thrown err))
    (panics : ∀ past fault, fault = .slice ∨ fault = .overflow → ends past (.panicked fault)) :
    Follows may ends past (generateInvoice d req) := by
  apply (generateInvoice_paths d req past).mono
  · intro later op allowed
    cases allowed with
    | clock => exact clocks _
    | ask => exact rpc _ _
    | insert => exact issue _ _
  · intro later outcome path
    cases path with
    | late | overflow => exact panics _ _ (.inr rfl)
    | uncut => exact panics _ _ (.inl rfl)
    | misdirected | declined | unreadable | foreign => exact throws _ _
    | invoiced => exact answers _ _ rfl

theorem call_form (d : Deployment) (service : HttpRequest → Prog ServerError HttpResponse) (req : HttpRequest) :
    CallForm d service req (Payments.call d service req) := by
  unfold Payments.call
  by_cases put : req.method = .put
  · simp only [put,ne_eq,not_true_eq_false,if_false]
    cases presented : req.authorization with
    | none => exact .invoiced put presented
    | some header =>
      have known : PaidFor d req → ∃ token, tokenStr d header = some token ∧ d.crates.base64Decode token =
          some (generateToken d (utf8 (merchantUrl req)) (utf8 d.settings.secret)) := by
        rintro ⟨header',token,presented',worded,decoded⟩
        obtain rfl := Option.some.inj (presented.symm.trans presented')
        exact ⟨token,worded,decoded⟩
      cases worded : tokenStr d header with
      | none =>
        simp only [worded]
        refine .refused put fun paid => ?_
        obtain ⟨token,worded',-⟩ := known paid
        cases worded.symm.trans worded'
      | some token =>
        have decodes : PaidFor d req → d.crates.base64Decode token =
            some (generateToken d (utf8 (merchantUrl req)) (utf8 d.settings.secret)) := by
          intro paid
          obtain ⟨token',worded',decoded⟩ := known paid
          obtain rfl := Option.some.inj (worded.symm.trans worded')
          exact decoded
        cases decoded : d.crates.base64Decode token with
        | none =>
          simp only [worded,decoded]
          exact .rejected put fun paid => by simpa [decoded] using decodes paid
        | some raw =>
          simp only [worded,decoded]
          cases valid : validateToken d (utf8 (merchantUrl req)) (utf8 d.settings.secret) raw with
          | false =>
            refine .rejected put fun paid => ?_
            obtain rfl := Option.some.inj (decoded.symm.trans (decodes paid))
            simp [validateToken] at valid
          | true =>
            have same : generateToken d (utf8 (merchantUrl req)) (utf8 d.settings.secret) = raw := by
              simpa [validateToken] using valid
            exact .forwarded fun _ => ⟨header,token,presented,worded,by rw [decoded,same]⟩
  · simp only [put,ne_eq,not_false_eq_true,if_true]
    exact .forwarded fun same => absurd same put

-- The check around any service that follows a protocol of its own.
theorem call_follows {service : HttpRequest → Prog ServerError HttpResponse}
    (allowed : ∀ past op, Guarded d req past op → may past op)
    (served : ∀ past, Follows may ends past (service req))
    (answers : ∀ past resp, resp.status.success = false → ends past (.returned resp))
    (throws : ∀ past err, ends past (.thrown err))
    (panics : ∀ past fault, fault = .slice ∨ fault = .overflow → ends past (.panicked fault)) :
    Follows may ends past (Payments.call d service req) := by
  have form := call_form d service req
  generalize Payments.call d service req = program at form ⊢
  cases form with
  | forwarded paid => exact ⟨allowed _ _ (.enter paid),fun _ => served _⟩
  | invoiced put unpaid =>
    exact generateInvoice_follows (fun _ => allowed _ _ .clock) (fun _ _ => allowed _ _ .rpc)
      (fun _ _ => allowed _ _ (.issue put unpaid)) answers throws panics
  | refused put unpaid => exact throws _ _
  | rejected put unpaid => exact answers _ _ (error_not_success invalidAuth)

theorem call_paid {service : HttpRequest → Prog ServerError HttpResponse} (put : req.method = .put) (paid : PaidFor d req) :
    Payments.call d service req = forward service req := by
  obtain ⟨header,token,presented,worded,decoded⟩ := paid
  simp [Payments.call,put,presented,worded,decoded,validateToken]

-- The service is reached on a valid token and in no other way.
theorem forwarded_iff {service : HttpRequest → Prog ServerError HttpResponse} (put : req.method = .put) :
    Payments.call d service req = forward service req ↔ PaidFor d req := by
  constructor
  · intro forwarded
    have form := call_form d service req
    rw [forwarded] at form
    generalize reached : forward service req = program at form
    cases form with
    | forwarded paid => exact paid put
    | invoiced put unpaid => simp [forward,generateInvoice,systemTimeNow] at reached
    | refused put unpaid => cases reached
    | rejected put unpaid => cases reached
  · exact call_paid put

theorem call_unpaid (put : req.method = .put) (unpaid : req.authorization = none)
    (service : HttpRequest → Prog ServerError HttpResponse) : Payments.call d service req = generateInvoice d req := by
  simp [Payments.call,put,unpaid]

end Check

end Keyserver.PaymentProtocol
