import Keyserver.PaymentProtocol
import Keyserver.SoloRuns

namespace Keyserver.PaymentRuns
open SharedPrograms SharedPrograms.Program KeyHandlers KeyProtocol KeyRequests Bitcoin Payments PaymentProtocol SoloRuns

variable {d : Deployment} {req : HttpRequest}

-- However the wallet and the node answer, the handler returns only an
-- acknowledgement of the payment it was sent.
theorem settlement_returns {σ : Type} {answer : (op : Op) → σ → Reply op × σ} {s : σ} {txRaw : Bytes} {tx : Transaction}
    {receipt : Except ServerError HttpResponse} {resp : HttpResponse}
    (returned : (run answer (settlement d txRaw tx receipt) s).1 = .returned resp) : receipt = .ok resp := by
  obtain ⟨paid,middle,-,afterwards⟩ := run_bind_returned returned
  cases paid with
  | false => cases afterwards
  | true =>
    obtain ⟨txid,last,-,ended⟩ := run_bind_returned afterwards
    cases receipt with
    | error err => cases ended
    | ok answered =>
      cases ended
      rfl

theorem paymentHandler_returns {σ : Type} {answer : (op : Op) → σ → Reply op × σ} {s : σ} {resp : HttpResponse}
    (returned : (run answer (paymentHandler d req) s).1 = .returned resp) : ∃ payment txRaw tx merchant url,
      Tendered d req payment txRaw tx ∧ Redirects d payment merchant url ∧ resp = acknowledgement d payment merchant url := by
  have form := paymentHandler_form d req
  generalize paymentHandler d req = program at form returned
  cases form with
  | refused unmet => cases returned
  | @tendered payment txRaw tx receipt met issued =>
    obtain rfl := settlement_returns returned
    cases issued with
    | @issued merchant url redirects => exact ⟨payment,txRaw,tx,merchant,url,met,redirects,rfl⟩

-- The hash that an output pays the price to, if it is of that form.
def payee (output : TxOut) : Option Bytes :=
  let pkHash := (output.scriptPubkey.drop 3).take 20
  if output.value = PRICE ∧ output.scriptPubkey = p2pkhScript pkHash ∧ pkHash.length = 20 then some pkHash else none

theorem payee_some {output : TxOut} {pkHash : Bytes} : payee output = some pkHash ↔ Pays output pkHash := by
  constructor
  · intro found
    simp only [payee] at found
    split at found
    · rename_i form
      obtain rfl := Option.some.inj found
      exact ⟨form.1,form.2.1,form.2.2⟩
    · cases found
  · intro pays
    obtain ⟨price,script,length⟩ := pays
    have body : (output.scriptPubkey.drop 3).take 20 = pkHash := by
      rw [script,p2pkhScript,List.append_assoc]
      exact List.take_left' length
    simp only [payee,body,price,length,and_true,true_and]
    exact if_pos script

theorem checkP2pkh_eq {Error : Type} (output : TxOut) : (WalletState.checkP2pkh output : Prog Error Bool) =
    match payee output with
    | none => .done false
    | some pkHash => .call (.walletContains pkHash) fun present =>
      if present then .call (.walletRemove pkHash) fun _ => .done true else .done false := by
  unfold WalletState.checkP2pkh
  obtain ⟨found,extracted,exact⟩ := @extractPubkeyHash_exact Error output.scriptPubkey
  by_cases price : output.value = PRICE
  · simp only [price,ne_eq,not_true_eq_false,if_false,extracted,done_bind]
    cases paid : payee output with
    | none =>
      cases found with
      | none => rfl
      | some pkHash =>
        obtain ⟨script,length⟩ := (exact pkHash).mp rfl
        have pays := payee_some.mpr ⟨price,script,length⟩
        simp [paid] at pays
    | some pkHash =>
      obtain ⟨-,script,length⟩ := payee_some.mp paid
      obtain rfl := (exact pkHash).mpr ⟨script,length⟩
      simp only [WalletState.contains,WalletState.remove,call_bind,done_bind]
      rfl
  · have unpaid : payee output = none := by
      cases paid : payee output with
      | none => rfl
      | some pkHash => exact absurd (payee_some.mp paid).price price
    simp [price,unpaid]

theorem checkOutputs_cons {Error : Type} (output : TxOut) (rest : List TxOut) :
    (List.anyM WalletState.checkP2pkh (output :: rest) : Prog Error Bool) =
      match payee output with
      | none => rest.anyM WalletState.checkP2pkh
      | some pkHash => .call (.walletContains pkHash) fun present =>
        if present then .call (.walletRemove pkHash) fun _ => .done true else rest.anyM WalletState.checkP2pkh := by
  rw [List.anyM,checkP2pkh_eq]
  cases payee output with
  | none => rfl
  | some pkHash =>
    simp only [call_bind]
    congr 1
    funext present
    cases present <;> rfl

-- The address that a transaction with these outputs would spend.
def spendable (wallet : Finset Bytes) (outputs : List TxOut) : Option Bytes :=
  (outputs.filterMap payee).find? fun pkHash => decide (pkHash ∈ wallet)

theorem spendable_some {wallet : Finset Bytes} {outputs : List TxOut} {pkHash : Bytes}
    (found : spendable wallet outputs = some pkHash) : pkHash ∈ wallet ∧ ∃ output ∈ outputs, Pays output pkHash := by
  constructor
  · simpa using List.find?_some found
  · obtain ⟨output,member,paid⟩ := List.mem_filterMap.mp (List.mem_of_find?_eq_some found)
    exact ⟨output,member,payee_some.mp paid⟩

theorem spendable_isSome {wallet : Finset Bytes} {outputs : List TxOut} {output : TxOut} {pkHash : Bytes}
    (member : output ∈ outputs) (pays : Pays output pkHash) (held : pkHash ∈ wallet) :
    ∃ spent, spendable wallet outputs = some spent := by
  have listed : pkHash ∈ outputs.filterMap payee := List.mem_filterMap.mpr ⟨output,member,payee_some.mpr pays⟩
  have found : (spendable wallet outputs).isSome := by
    rw [spendable,List.find?_isSome]
    exact ⟨pkHash,listed,by simpa using held⟩
  exact Option.isSome_iff_exists.mp found

-- What the check leaves of the wallet.
def flushed (wallet : Finset Bytes) (outputs : List TxOut) : Finset Bytes :=
  match spendable wallet outputs with
  | none => wallet
  | some pkHash => wallet.erase pkHash

section Solo
variable {c : Conditions} {now : Shared × Nat}

@[simp] theorem atTime_wallet : (atTime c now).wallet = now.1.wallet := rfl

@[simp] theorem settle_contains (pkHash : Bytes) :
    settle false c (.walletContains pkHash) now = (decide (pkHash ∈ now.1.wallet),atTime c now,now.2 + 1) := by
  refine Prod.ext rfl ?_
  simp [settle,reply,carryOut,effect,answer]

@[simp] theorem settle_remove (pkHash : Bytes) : settle false c (.walletRemove pkHash) now =
    (decide (pkHash ∈ now.1.wallet),{atTime c now with wallet := now.1.wallet.erase pkHash},now.2 + 1) := by
  refine Prod.ext rfl ?_
  simp [settle,reply,carryOut,effect,answer]

@[simp] theorem settle_rpc (request : RpcRequest) :
    settle false c (.rpcSend request) now = (c.rpc request,atTime c now,now.2 + 1) := by
  simp [settle,reply,carryOut,effect,answer]

-- Alone, the check takes the first address paid to that the wallet holds.
theorem run_checkOutputs {Error : Type} (outputs : List TxOut) :
    (run (settle false c) (outputs.anyM WalletState.checkP2pkh : Prog Error Bool) now).1 =
        .returned (spendable now.1.wallet outputs).isSome ∧
      (run (settle false c) (outputs.anyM WalletState.checkP2pkh : Prog Error Bool) now).2.1.wallet =
        flushed now.1.wallet outputs := by
  induction outputs generalizing now with
  | nil => exact ⟨rfl,rfl⟩
  | cons output rest ih =>
    rw [checkOutputs_cons]
    cases paid : payee output with
    | none =>
      have same : spendable now.1.wallet (output :: rest) = spendable now.1.wallet rest := by simp [spendable,paid]
      rw [flushed,same]
      exact ih
    | some pkHash =>
      by_cases held : pkHash ∈ now.1.wallet
      · have found : spendable now.1.wallet (output :: rest) = some pkHash := by simp [spendable,paid,held]
        simp [flushed,found,held]
      · have same : spendable now.1.wallet (output :: rest) = spendable now.1.wallet rest := by simp [spendable,paid,held]
        rw [flushed,same]
        simpa [flushed,held] using @ih (atTime c now,now.2 + 1)

-- What the node makes of a transaction it is sent.
def nodeAnswer (d : Deployment) (c : Conditions) (txRaw : Bytes) : Except BitcoinError String :=
  match c.rpc ⟨"sendrawtransaction",[d.crates.hexEncode txRaw]⟩ with
  | .error err => .error (.http err)
  | .ok response => responseValue response

def settlementOutcome (d : Deployment) (c : Conditions) (wallet : Finset Bytes) (txRaw : Bytes) (tx : Transaction)
    (receipt : Except ServerError HttpResponse) : Outcome Panic ServerError HttpResponse :=
  match spendable wallet tx.output,nodeAnswer d c txRaw,receipt with
  | none,_,_ => .thrown (.payment .invalidOutputs)
  | some _,.error _,_ => .thrown (.payment .invalidTx)
  | some _,.ok _,.error err => .thrown err
  | some _,.ok _,.ok resp => .returned resp

theorem run_settlement (txRaw : Bytes) (tx : Transaction) (receipt : Except ServerError HttpResponse) :
    (run (settle false c) (settlement d txRaw tx receipt) now).1 = settlementOutcome d c now.1.wallet txRaw tx receipt ∧
      (run (settle false c) (settlement d txRaw tx receipt) now).2.1.wallet = flushed now.1.wallet tx.output := by
  obtain ⟨checked,left⟩ := @run_checkOutputs c now ServerError tx.output
  simp only [settlement,WalletState.checkOutputs,run_bind,settlementOutcome]
  generalize run (settle false c) (tx.output.anyM WalletState.checkP2pkh : Prog ServerError Bool) now = ended at checked left ⊢
  obtain ⟨result,last⟩ := ended
  simp only at checked left
  subst checked
  cases found : spendable now.1.wallet tx.output with
  | none => simpa [found] using left
  | some pkHash =>
    simp only [Option.isSome_some,Bool.not_true,Bool.false_eq_true,if_false,sendTx,sendRequest,rpcSend,mapError_call,call_bind,
      run_call,settle_rpc,nodeAnswer]
    cases c.rpc ⟨"sendrawtransaction",[d.crates.hexEncode txRaw]⟩ with
    | error err => simpa using left
    | ok response =>
      cases taken : responseValue response with
      | error err => simpa [taken] using left
      | ok txid => cases receipt <;> simpa [taken] using left

theorem performed_settlement {txRaw pkHash : Bytes} {tx : Transaction} (receipt : Except ServerError HttpResponse)
    (found : spendable now.1.wallet tx.output = some pkHash) :
    ⟨.rpcSend ⟨"sendrawtransaction",[d.crates.hexEncode txRaw]⟩,c.rpc ⟨"sendrawtransaction",[d.crates.hexEncode txRaw]⟩⟩ ∈
      performed (settle false c) (settlement d txRaw tx receipt) now := by
  have checked := (@run_checkOutputs c now ServerError tx.output).1
  simp only [settlement,WalletState.checkOutputs,performed_bind]
  generalize run (settle false c) (tx.output.anyM WalletState.checkP2pkh : Prog ServerError Bool) now = ended at checked ⊢
  obtain ⟨result,last⟩ := ended
  simp only at checked
  subst checked
  simp [found,sendTx,sendRequest,rpcSend]

end Solo

end Keyserver.PaymentRuns
