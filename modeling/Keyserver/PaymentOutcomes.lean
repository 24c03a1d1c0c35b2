import Keyserver.PaymentRuns
import Keyserver.SampleDeployment

namespace Keyserver.PaymentOutcomes
open SharedPrograms SharedPrograms.Program KeyProtocol KeyRequests Bitcoin Payments PaymentProtocol SoloRuns PaymentRuns
  SampleDeployment

-- The node has accepted a transaction.
def Broadcast (d : Deployment) (past : Past) : Prop := ∃ txRaw response txid,
  ⟨.rpcSend ⟨"sendrawtransaction",[d.crates.hexEncode txRaw]⟩,.ok response⟩ ∈ past ∧ Grants response txid

def Payable (tx : Transaction) : Prop := ∃ output ∈ tx.output, ∃ pkHash, Pays output pkHash

-- Whatever the wallet and the node answer, and whatever runs in between, a
-- broadcast payment is acknowledged with the token for its merchant data.
def Redeems (d : Deployment) (req : HttpRequest) : Prop :=
  Follows (fun _ _ => True) (fun past outcome => Broadcast d past → ∃ payment txRaw tx merchant url,
    Tendered d req payment txRaw tx ∧ Redirects d payment merchant url ∧
      outcome = .returned (acknowledgement d payment merchant url)) [] (paymentHandler d req)

variable {d : Deployment} {req : HttpRequest} {c : Conditions} {s : Shared}

theorem misses_unsent {misses : Past} (missed : Misses misses) : ¬ Broadcast d misses := by
  rintro ⟨txRaw,response,txid,sent,-⟩
  obtain ⟨pkHash,same⟩ := missed _ sent
  cases same

theorem broadcast_last {misses : Past} {pkHash : Bytes} {present : Bool} {request : RpcRequest} {reply : Except String RpcResponse}
    (missed : Misses misses) (sent : Broadcast d (misses ++ [⟨.walletContains pkHash,true⟩] ++ [⟨.walletRemove pkHash,present⟩] ++
      [⟨.rpcSend request,reply⟩])) : ∃ response txid, reply = .ok response ∧ Grants response txid := by
  obtain ⟨txRaw,response,txid,member,taken⟩ := sent
  simp only [List.mem_append,List.mem_singleton] at member
  rcases member with ((old | look) | flush) | last
  · exact absurd ⟨txRaw,response,txid,old,taken⟩ (misses_unsent missed)
  · cases look
  · cases flush
  · cases last
    exact ⟨response,txid,rfl,taken⟩

theorem settlement_follows (txRaw : Bytes) (tx : Transaction) (receipt : Except ServerError HttpResponse) :
    Follows (fun _ _ => True) (fun past outcome => Broadcast d past → Payable tx ∧
      ∀ resp, receipt = .ok resp → outcome = .returned resp) [] (settlement d txRaw tx receipt) := by
  refine settlement_spends (fun _ _ => trivial) (fun _ _ => trivial) ?_ ?_
  · intro misses missed sent
    exact absurd sent (misses_unsent missed)
  · intro misses output pkHash present missed member pays
    apply sendRequest_follows trivial
    · intro received declined sent
      obtain ⟨response,txid,same,taken⟩ := broadcast_last missed sent
      exact absurd taken (declined response txid same)
    · intro response txid taken
      have payable : Payable tx := ⟨output,member,pkHash,pays⟩
      cases receipt with
      | error err => exact fun _ => ⟨payable,by simp⟩
      | ok resp => exact fun _ => ⟨payable,by simp⟩

-- A node that takes every transaction.
def generous : Conditions where
  clock := fun _ => epoch
  rpc := fun _ => .ok ⟨some (.ok paymentTxid),none⟩

def holding (pkHash : Bytes) : Shared := {Shared.empty epoch with wallet := {pkHash}}

theorem redeems_iff : Redeems d req ↔ ∀ payment txRaw tx, Tendered d req payment txRaw tx → Payable tx →
    ∃ merchant url, Redirects d payment merchant url := by
  have form := paymentHandler_form d req
  unfold Redeems
  generalize paymentHandler d req = program at form ⊢
  cases form with
  | refused unmet =>
    constructor
    · intro redeems payment txRaw tx met
      exact absurd met (unmet _ _ _)
    · rintro redirects ⟨txRaw,response,txid,sent,-⟩
      cases sent
  | @tendered payment txRaw tx receipt met issued =>
    constructor
    · intro redeems payment' txRaw' tx' met' payable
      obtain ⟨rfl,rfl,rfl⟩ := tendered_unique met met'
      cases issued with
      | issued redirects => exact ⟨_,_,redirects⟩
      | @withheld err unmet =>
        obtain ⟨output,member,pkHash,pays⟩ := payable
        obtain ⟨spent,found⟩ := @spendable_isSome (holding pkHash).wallet _ _ _ member pays (Finset.mem_singleton.mpr rfl)
        have sent : Broadcast d (performed (settle false generous) (settlement d txRaw' tx' (.error err)) (holding pkHash,0)) :=
          ⟨txRaw',_,paymentTxid,performed_settlement _ found,⟨rfl,rfl⟩⟩
        obtain ⟨_,_,_,_,_,-,-,returned⟩ := redeems.ended (holding pkHash,0) sent
        rw [(run_settlement _ _ _).1] at returned
        simp [settlementOutcome,found,nodeAnswer,generous,responseValue] at returned
    · intro redirects
      refine (settlement_follows txRaw tx receipt).mono (fun _ _ _ => trivial) ?_
      intro past outcome ended sent
      obtain ⟨payable,returned⟩ := ended sent
      obtain ⟨merchant,url,redirected⟩ := redirects payment txRaw tx met payable
      cases issued with
      | @issued merchant' url' redirected' => exact ⟨payment,txRaw,tx,merchant',url',met,redirected',returned _ rfl⟩
      | withheld unmet => exact absurd redirected (unmet _ _)

def unnamed : HttpRequest :=
  {paying with payload := [.ok (WireFormat.encodeFields (WireMessages.paymentFields {payment with merchantData := none}))]}

-- The node takes the transaction, and the payer gets a 400 for it.
theorem unnamed_unredeemed : ¬ Redeems (deployment false) unnamed ∧
    (run (settle false calm) (paymentHandler (deployment false) unnamed) (held,0)).1 = .thrown (.payment .noMerchantDat) ∧
    performed (settle false calm) (paymentHandler (deployment false) unnamed) (held,0) =
      [⟨.walletContains walletHash,true⟩,⟨.walletRemove walletHash,true⟩,
        ⟨.rpcSend ⟨"sendrawtransaction",[hex paymentTx]⟩,.ok ⟨some (.ok paymentTxid),none⟩⟩] := by
  have thrown : (run (settle false calm) (paymentHandler (deployment false) unnamed) (held,0)).1 =
      .thrown (.payment .noMerchantDat) := by decide +kernel
  have events : performed (settle false calm) (paymentHandler (deployment false) unnamed) (held,0) =
      [⟨.walletContains walletHash,true⟩,⟨.walletRemove walletHash,true⟩,
        ⟨.rpcSend ⟨"sendrawtransaction",[hex paymentTx]⟩,.ok ⟨some (.ok paymentTxid),none⟩⟩] := by decide +kernel
  refine ⟨?_,thrown,events⟩
  intro redeems
  have sent : Broadcast (deployment false)
      ([] ++ performed (settle false calm) (paymentHandler (deployment false) unnamed) (held,0)) := by
    rw [events]
    exact ⟨paymentTx,⟨some (.ok paymentTxid),none⟩,paymentTxid,List.mem_append_right _ (List.mem_of_getElem? (i := 2) rfl),⟨rfl,rfl⟩⟩
  obtain ⟨_,_,_,_,_,-,-,returned⟩ := redeems.ended (held,0) sent
  rw [thrown] at returned
  cases returned

-- A payment that is refused leaves the wallet of a server that serves it alone.
def RefusesCleanly (d : Deployment) (c : Conditions) (req : HttpRequest) (s : Shared) : Prop :=
  ∀ err, (visit false d c (.payments req) s).1 = .thrown err → (visit false d c (.payments req) s).2.wallet = s.wallet

-- The payment pays to an address of the wallet and then fails a later check.
def FailsPaid (d : Deployment) (c : Conditions) (req : HttpRequest) (wallet : Finset Bytes) : Prop :=
  ∃ payment txRaw tx pkHash, Tendered d req payment txRaw tx ∧ spendable wallet tx.output = some pkHash ∧
    (Declined (c.rpc ⟨"sendrawtransaction",[d.crates.hexEncode txRaw]⟩) ∨ ∀ merchant url, ¬ Redirects d payment merchant url)

theorem nodeAnswer_declined {txRaw : Bytes} : Declined (c.rpc ⟨"sendrawtransaction",[d.crates.hexEncode txRaw]⟩) ↔
    ∀ txid, nodeAnswer d c txRaw ≠ .ok txid := by
  unfold nodeAnswer
  cases c.rpc ⟨"sendrawtransaction",[d.crates.hexEncode txRaw]⟩ with
  | error err => exact iff_of_true unreached_declined (by simp)
  | ok response =>
    simp only [Declined,ne_eq,responseValue_ok]
    constructor
    · intro declined value
      exact declined response value rfl
    · intro declined other value same
      cases same
      exact declined value

theorem settlement_keeps {txRaw : Bytes} {tx : Transaction} {receipt : Except ServerError HttpResponse} :
    (∀ err, settlementOutcome d c s.wallet txRaw tx receipt = .thrown err → flushed s.wallet tx.output = s.wallet) ↔
      ¬ ∃ pkHash, spendable s.wallet tx.output = some pkHash ∧
        (Declined (c.rpc ⟨"sendrawtransaction",[d.crates.hexEncode txRaw]⟩) ∨ ∀ resp, receipt ≠ .ok resp) := by
  rw [nodeAnswer_declined]
  cases found : spendable s.wallet tx.output with
  | none => simp [settlementOutcome,flushed,found]
  | some pkHash =>
    have held := (spendable_some found).1
    have lost : s.wallet.erase pkHash ≠ s.wallet := by simpa using held
    cases sent : nodeAnswer d c txRaw with
    | error err => simp [settlementOutcome,flushed,found,sent,lost]
    | ok txid => cases receipt <;> simp [settlementOutcome,flushed,found,sent,lost]

-- A refused payment keeps the wallet as it was, except after the address is spent.
theorem refusesCleanly_iff : RefusesCleanly d c req s ↔ ¬ FailsPaid d c req s.wallet := by
  have form := paymentHandler_form d req
  have thrown : ∀ {outcome : Outcome Panic ServerError HttpResponse} {err},
      outcome.map Answer.http = .thrown err ↔ outcome = .thrown err := by
    intro outcome err
    cases outcome <;> simp [Outcome.map]
  simp only [RefusesCleanly,visit,handle,run_map,thrown]
  generalize paymentHandler d req = program at form ⊢
  cases form with
  | refused unmet =>
    refine iff_of_true (fun _ _ => rfl) ?_
    rintro ⟨payment,txRaw,tx,pkHash,met,-⟩
    exact unmet _ _ _ met
  | @tendered payment txRaw tx receipt met issued =>
    obtain ⟨ended,left⟩ := @run_settlement d c (s,0) txRaw tx receipt
    rw [ended,left,settlement_keeps,not_iff_not]
    have unanswered : (∀ resp, receipt ≠ .ok resp) ↔ ∀ merchant url, ¬ Redirects d payment merchant url := by
      cases issued with
      | issued redirects => exact iff_of_false (fun other => other _ rfl) fun unmet => unmet _ _ redirects
      | withheld unmet => exact iff_of_true (by simp) unmet
    rw [unanswered]
    constructor
    · rintro ⟨pkHash,found,failed⟩
      exact ⟨payment,txRaw,tx,pkHash,met,found,failed⟩
    · rintro ⟨payment',txRaw',tx',pkHash,met',found,failed⟩
      obtain ⟨rfl,rfl,rfl⟩ := tendered_unique met met'
      exact ⟨pkHash,found,failed⟩

def unreachable : Conditions := {calm with rpc := fun _ => .error "connection refused"}

-- The node is down for one call, and the invoice cannot be paid any more.
theorem unreachable_loses : ¬ RefusesCleanly (deployment false) unreachable paying held ∧
    (visit false (deployment false) unreachable (.payments paying) held).1 = .thrown (.payment .invalidTx) ∧
    (visit false (deployment false) unreachable (.payments paying) held).2.wallet = ∅ ∧
    (visit false (deployment false) calm (.payments paying)
      (visit false (deployment false) unreachable (.payments paying) held).2).1 = .thrown (.payment .invalidOutputs) := by
  have thrown : (visit false (deployment false) unreachable (.payments paying) held).1 = .thrown (.payment .invalidTx) := by
    decide +kernel
  have emptied : (visit false (deployment false) unreachable (.payments paying) held).2.wallet = ∅ := by decide +kernel
  refine ⟨?_,thrown,emptied,by decide +kernel⟩
  intro clean
  have kept := clean _ thrown
  rw [emptied] at kept
  exact absurd kept.symm (Finset.singleton_ne_empty walletHash)

end Keyserver.PaymentOutcomes
