import Keyserver.SharedPushes
import Keyserver.AdvertisedOutput

namespace Keyserver.DataScript
open SharedPrograms SharedPrograms.Program SharedPushes Bitcoin Payments AdvertisedOutput SampleDeployment

def OP_RETURN : UInt8 := 106

def peerData (putPkHash : Bytes) (baseUrl : String) : Bytes := utf8 "keyserver" ++ putPkHash ++ utf8 baseUrl

-- The advertisement is one push of the data to every reader of scripts, and the
-- push of the data is an advertisement to every other keyserver.
structure WellFormed (overflowChecks : Bool) (baseUrl : String) (putPkHash : Bytes) : Prop where
  generated : ∀ pkHash, ∃ payment advert,
    (generateOutputs overflowChecks pkHash baseUrl putPkHash : Prog ServerError _) = .done [payment,advert] ∧
      Reads advert.script [.op OP_RETURN,.push (peerData putPkHash baseUrl)]
  recognised : ∀ settings : Settings, "http://" ++ settings.bind ≠ baseUrl →
    (extractOpReturn settings (OP_RETURN :: pushBytes (peerData putPkHash baseUrl)) : Prog ServerError _) =
      .done (some (baseUrl,{body := putPkHash,network := settings.network.intoAddr}))

section Scripts
variable {overflowChecks : Bool} {baseUrl : String} {putPkHash : Bytes}

theorem reads_opReturn {script data : Bytes} :
    Reads (OP_RETURN :: script) [.op OP_RETURN,.push data] ↔ readItem script = some (.push data,[]) := by
  have first : readItem (OP_RETURN :: script) = some (.op OP_RETURN,script) := by simp [readItem,OP_RETURN]
  constructor
  · intro reads
    cases reads with
    | item read rest =>
      cases first.symm.trans read
      cases rest with
      | item read' rest' =>
        cases rest'
        exact read'
  · intro read
    exact .item first (.item read .done)

theorem peerData_length (hashed : putPkHash.length = 20) : (peerData putPkHash baseUrl).length = 29 + (utf8 baseUrl).length := by
  simp only [peerData,List.length_append,keyserver_length,hashed]

theorem generated_outputs {pkHash : Bytes} {byte : UInt8}
    (counted : (lengthByte overflowChecks baseUrl : Prog ServerError UInt8) = .done byte) :
    (generateOutputs overflowChecks pkHash baseUrl putPkHash : Prog ServerError _) =
      .done [⟨some PRICE,p2pkhScript pkHash⟩,⟨some 0,OP_RETURN :: byte :: peerData putPkHash baseUrl⟩] := by
  simp [generateOutputs,counted,peerData,KEYSERVER_PREFIX,OP_RETURN]

-- The generated script is a push of the data exactly up to 46 bytes of URL.
theorem generated_iff (hashed : putPkHash.length = 20) : (∀ pkHash, ∃ payment advert,
    (generateOutputs overflowChecks pkHash baseUrl putPkHash : Prog ServerError _) = .done [payment,advert] ∧
      Reads advert.script [.op OP_RETURN,.push (peerData putPkHash baseUrl)]) ↔ (utf8 baseUrl).length ≤ 46 := by
  have length := @peerData_length baseUrl putPkHash hashed
  constructor
  · intro generated
    obtain ⟨payment,advert,outputs,reads⟩ := generated []
    cases counted : (lengthByte overflowChecks baseUrl : Prog ServerError UInt8) with
    | done byte =>
      rw [generated_outputs counted] at outputs
      simp only [Program.done.injEq,List.cons.injEq,and_true] at outputs
      obtain ⟨-,rfl⟩ := outputs
      have whole := readItem_whole.mp (reads_opReturn.mp reads)
      omega
    | throw err => simp [generateOutputs,counted] at outputs
    | panic fault => simp [generateOutputs,counted] at outputs
    | call op next =>
      rw [lengthByte_cases] at counted
      split at counted <;> cases counted
  · intro short pkHash
    have counted : (lengthByte overflowChecks baseUrl : Prog ServerError UInt8) =
        .done (UInt8.ofNat (29 + (utf8 baseUrl).length)) := by
      rw [lengthByte_cases,if_neg]
      omega
    refine ⟨_,_,generated_outputs counted,reads_opReturn.mpr ?_⟩
    have pushed := @readItem_pushBytes [] (peerData putPkHash baseUrl) (by omega)
    rw [List.append_nil,pushBytes_short (by omega),length] at pushed
    exact pushed

-- A wallet's push of the data is recognised from one byte of URL up to 46.
theorem recognised_iff (hashed : putPkHash.length = 20) : (∀ settings : Settings, "http://" ++ settings.bind ≠ baseUrl →
    (extractOpReturn settings (OP_RETURN :: pushBytes (peerData putPkHash baseUrl)) : Prog ServerError _) =
      .done (some (baseUrl,{body := putPkHash,network := settings.network.intoAddr}))) ↔
    1 ≤ (utf8 baseUrl).length ∧ (utf8 baseUrl).length ≤ 46 := by
  have length := @peerData_length baseUrl putPkHash hashed
  constructor
  · intro recognised
    obtain ⟨settings,foreign⟩ := other_settings baseUrl
    obtain ⟨found,extracted,exact⟩ := @extractOpReturn_exact ServerError settings
      (OP_RETURN :: pushBytes (peerData putPkHash baseUrl))
    have advertised := (exact _ _).mp (Program.done.inj (extracted.symm.trans (recognised settings foreign)))
    refine ⟨advertised.nonempty,?_⟩
    by_contra long
    have counted := advertised.length
    have wide := @header_length (peerData putPkHash baseUrl).length (by omega)
    simp only [pushBytes,List.length_cons,List.length_append] at counted
    omega
  · intro fits settings foreign
    obtain ⟨nonempty,short⟩ := fits
    have advertises : Advertises settings (OP_RETURN :: pushBytes (peerData putPkHash baseUrl)) baseUrl
        {body := putPkHash,network := settings.network.intoAddr} := {
      shape := by
        rw [pushBytes_short (by omega),length]
        simp [peerData,OP_RETURN]
      body := hashed
      nonempty := nonempty
      short := by omega
      foreign := fun own => foreign own.symm
      address := intoAddr_keyed _ _}
    obtain ⟨found,extracted,exact⟩ := @extractOpReturn_exact ServerError settings
      (OP_RETURN :: pushBytes (peerData putPkHash baseUrl))
    rw [(exact _ _).mpr advertises] at extracted
    exact extracted

theorem wellFormed_iff (hashed : putPkHash.length = 20) : WellFormed overflowChecks baseUrl putPkHash ↔
    1 ≤ (utf8 baseUrl).length ∧ (utf8 baseUrl).length ≤ 46 := by
  constructor
  · intro wellFormed
    exact (recognised_iff hashed).mp wellFormed.recognised
  · intro fits
    exact ⟨(generated_iff hashed).mpr fits.2,(recognised_iff hashed).mpr fits⟩

end Scripts

theorem unpaidPut_wellFormed : WellFormed false (baseUrl unpaidPut) ownerHash :=
  (wellFormed_iff (by decide)).mpr (by decide +kernel)

def wideHost : HttpRequest := {unpaidPut with host := "keys.a-rather-long-name.example.org:8080"}

-- 47 bytes of URL make the length 76, which announces a longer push than there is.
theorem wideHost_malformed : Reaches (deployment false) wideHost {body := ownerHash} ∧
    (lengthByte false (baseUrl wideHost) : Prog ServerError UInt8) = .done 76 ∧
    readItem (76 :: peerData ownerHash (baseUrl wideHost)) = none ∧
    ¬ WellFormed false (baseUrl wideHost) ownerHash := by
  have length : (utf8 (baseUrl wideHost)).length = 47 := by decide +kernel
  have byte : (lengthByte false (baseUrl wideHost) : Prog ServerError UInt8) = .done 76 := by
    rw [lengthByte_cases,length]
    rfl
  refine ⟨⟨rfl,rfl,ownerAddress,by decide +kernel,rfl⟩,byte,by decide +kernel,?_⟩
  intro wellFormed
  have short := (generated_iff (show ownerHash.length = 20 from by decide)).mp wellFormed.generated
  omega

end Keyserver.DataScript
