import Keyserver.PaymentRuns
import Keyserver.SampleDeployment
import Keyserver.SharedMatches

namespace Keyserver.OutputChecks
open SharedPrograms SharedMatches Bitcoin PaymentProtocol PaymentRuns SoloRuns SampleDeployment

-- An output of exactly the price to the standard script of a hash in the wallet.
def PaysInto (wallet : Finset Bytes) (output : TxOut) (pkHash : Bytes) : Prop := Pays output pkHash ∧ pkHash ∈ wallet

variable {wallet : Finset Bytes} {outputs : List TxOut} {pkHash : Bytes} {c : Conditions} {now : Shared × Nat}

def payeeIn (wallet : Finset Bytes) (output : TxOut) : Option Bytes :=
  (payee output).filter fun pkHash => decide (pkHash ∈ wallet)

theorem payeeIn_some (output : TxOut) (pkHash : Bytes) :
    payeeIn wallet output = some pkHash ↔ PaysInto wallet output pkHash := by
  simp only [payeeIn,Option.filter_eq_some_iff,decide_eq_true_eq,payee_some,PaysInto]

theorem spendable_eq (wallet : Finset Bytes) (outputs : List TxOut) :
    spendable wallet outputs = outputs.findSome? (payeeIn wallet) := by
  induction outputs with
  | nil => rfl
  | cons output rest ih =>
    cases paid : payee output with
    | none => simpa [spendable,payeeIn,paid] using ih
    | some pkHash =>
      by_cases held : pkHash ∈ wallet
      · have taken : payeeIn wallet output = some pkHash := by simp [payeeIn,paid,held]
        simp [spendable,paid,held,taken]
      · have passed : payeeIn wallet output = none := by simp [payeeIn,paid,held]
        simpa [spendable,paid,held,passed] using ih

theorem spendable_first : spendable wallet outputs = some pkHash ↔ First (PaysInto wallet) outputs pkHash := by
  rw [spendable_eq]
  exact first_iff payeeIn_some

-- The check leaves the store alone, whatever it finds in the wallet.
theorem run_checkOutputs_db {Error : Type} (outputs : List TxOut) :
    (run (settle false c) (outputs.anyM WalletState.checkP2pkh : Prog Error Bool) now).2.1.db = now.1.db := by
  induction outputs generalizing now with
  | nil => rfl
  | cons output rest ih =>
    rw [checkOutputs_cons]
    cases payee output with
    | none => exact ih
    | some pkHash =>
      by_cases held : pkHash ∈ now.1.wallet
      · simp [held]
      · simpa [held] using @ih (atTime c now,now.2 + 1)

theorem checkOutputs_exact {Error : Type} (c : Conditions) (s : Shared) (n : Nat) (tx : Transaction) :
    ∃ accepted after, run (settle false c) (WalletState.checkOutputs tx : Prog Error Bool) (s,n) = (.returned accepted,after) ∧
      (accepted = true ↔ ∃ output ∈ tx.output, ∃ pkHash ∈ s.wallet, Pays output pkHash) ∧
      (accepted = true → ∃ pkHash, First (PaysInto s.wallet) tx.output pkHash ∧ after.1.wallet = s.wallet.erase pkHash) ∧
      (accepted = false → after.1.wallet = s.wallet) ∧ after.1.db = s.db := by
  obtain ⟨returned,left⟩ := @run_checkOutputs c (s,n) Error tx.output
  have stored := @run_checkOutputs_db c (s,n) Error tx.output
  simp only [flushed] at left
  refine ⟨_,_,Prod.ext returned rfl,?_,?_,?_,stored⟩
  · constructor
    · intro accepted
      obtain ⟨pkHash,found⟩ := Option.isSome_iff_exists.mp accepted
      obtain ⟨held,output,member,pays⟩ := spendable_some found
      exact ⟨output,member,pkHash,held,pays⟩
    · rintro ⟨output,member,pkHash,held,pays⟩
      exact Option.isSome_iff_exists.mpr (spendable_isSome member pays held)
  · intro accepted
    obtain ⟨pkHash,found⟩ := Option.isSome_iff_exists.mp accepted
    refine ⟨pkHash,spendable_first.mp found,?_⟩
    rw [found] at left
    exact left
  · intro refused
    have missing : spendable s.wallet tx.output = none := by simpa using refused
    rw [missing] at left
    exact left

-- A transaction that pays two addresses of the wallet, one of them twice, takes one out.
example : (run (settle false calm) (WalletState.checkOutputs ⟨[⟨4,p2pkhScript ownerHash⟩,⟨5,p2pkhScript walletHash⟩,
      ⟨5,p2pkhScript walletHash⟩,⟨5,p2pkhScript ownerHash⟩]⟩ : Prog ServerError Bool)
    ({held with wallet := {walletHash,ownerHash}},0)).2.1.wallet = {ownerHash} := by decide +kernel

end Keyserver.OutputChecks
