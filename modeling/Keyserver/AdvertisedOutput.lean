import Keyserver.PaymentProtocol
import Keyserver.SampleDeployment

namespace Keyserver.AdvertisedOutput
open SharedPrograms SharedPrograms.Program KeyHandlers KeyProtocol Bitcoin Payments PaymentProtocol SampleDeployment

-- What another keyserver makes of the script: it finds the URL and the address,
-- and so in any transaction whose outputs before it advertise nothing.
structure ReadBack (settings : Settings) (script : Bytes) (url : String) (addr : Address) : Prop where
  read : (extractOpReturn settings script : Prog ServerError (Option (String × Address))) = .done (some (url,addr))
  transaction : ∀ value before after stream,
    (∀ output ∈ before, (extractOpReturn settings output.scriptPubkey : Prog ServerError _) = .done none) →
    (extractDetails settings (.ok ⟨before ++ ⟨value,script⟩ :: after⟩ :: stream) : Prog ServerError _) =
      (.ok (url,addr) :: ·) <$> extractDetails settings stream

-- The advertisement that a put request for `putAddr` is invoiced with.
structure RoundTrips (d : Deployment) (req : HttpRequest) (putAddr : Address) : Prop where
  counted : ∃ byte, (lengthByte d.overflowChecks (baseUrl req) : Prog ServerError UInt8) = .done byte ∧
    byte.toNat = 29 + (utf8 (baseUrl req)).length
  recognised : ∀ pkHash payment advert settings,
    (generateOutputs d.overflowChecks pkHash (baseUrl req) putAddr.body : Prog ServerError _) = .done [payment,advert] →
    "http://" ++ settings.bind ≠ baseUrl req →
    ∃ addr, addr.body = putAddr.body ∧ ReadBack settings advert.script (baseUrl req) addr

structure Reaches (d : Deployment) (req : HttpRequest) (putAddr : Address) : Prop where
  method : req.method = .put
  unpaid : req.authorization = none
  addressed : ∃ addrStr, pathTail req.path = some addrStr ∧ d.crates.decodeAddress addrStr = .ok putAddr

variable {d : Deployment} {req : HttpRequest} {putAddr : Address}

theorem findDetails_skips {Error : Type} {settings : Settings} {before : List TxOut} (rest : List TxOut)
    (silent : ∀ output ∈ before, (extractOpReturn settings output.scriptPubkey : Prog Error _) = .done none) :
    (findDetails settings (before ++ rest) : Prog Error _) = findDetails settings rest := by
  induction before with
  | nil => rfl
  | cons output before ih =>
    have first := silent output List.mem_cons_self
    have others := ih fun output member => silent output (List.mem_cons_of_mem _ member)
    simp only [List.cons_append,findDetails,first,done_bind,others]

theorem extract_readBack {settings : Settings} {script : Bytes} {url : String} {addr : Address}
    (read : (extractOpReturn settings script : Prog ServerError _) = .done (some (url,addr))) :
    ReadBack settings script url addr where
  read := read
  transaction := by
    intro value before after stream silent
    have found : (findDetails settings (before ++ ⟨value,script⟩ :: after) : Prog ServerError _) = .done (some (url,addr)) := by
      rw [findDetails_skips _ silent]
      simp only [findDetails,read,done_bind,pure_done]
    simp only [extractDetails,found,done_bind,map_eq,pure_done]

theorem baseUrl_length : 3 ≤ (utf8 (baseUrl req)).length := by
  have middle : (utf8 "://").length = 3 := by decide
  simp only [baseUrl,utf8_append,List.length_append,middle]
  omega

theorem other_settings (url : String) : ∃ settings : Settings, "http://" ++ settings.bind ≠ url := by
  by_cases own : "http://" ++ "" = url
  · refine ⟨⟨"0",secret,.mainnet⟩,?_⟩
    rw [← own]
    decide
  · exact ⟨⟨"",secret,.mainnet⟩,own⟩

theorem generateOutputs_done {pkHash : Bytes} {outputs : List Output} {byte : UInt8}
    (counted : (lengthByte d.overflowChecks (baseUrl req) : Prog ServerError UInt8) = .done byte) :
    (generateOutputs d.overflowChecks pkHash (baseUrl req) putAddr.body : Prog ServerError _) = .done outputs ↔
      outputs = [⟨some PRICE,p2pkhScript pkHash⟩,
        ⟨some 0,[106,byte] ++ KEYSERVER_PREFIX ++ putAddr.body ++ utf8 (baseUrl req)⟩] := by
  simp only [generateOutputs,counted,done_bind,pure_done,Program.done.injEq,eq_comm]

theorem lengthByte_exact {Error : Type} {overflowChecks : Bool} {url : String} :
    (∃ byte, (lengthByte overflowChecks url : Prog Error UInt8) = .done byte ∧ byte.toNat = 29 + (utf8 url).length) ↔
      (utf8 url).length ≤ 226 := by
  rw [lengthByte_cases]
  constructor
  · intro counted
    obtain ⟨byte,-,exact⟩ := counted
    have bound := byte.toNat_lt
    omega
  · intro short
    refine ⟨UInt8.ofNat (29 + (utf8 url).length),if_neg ?_,?_⟩
    · omega
    · rw [UInt8.toNat_ofNat']
      omega

-- The advertised output makes the round trip exactly for a hash of 20 bytes and
-- a base URL of at most 226.
theorem roundTrips_iff : RoundTrips d req putAddr ↔
    putAddr.body.length = 20 ∧ (utf8 (baseUrl req)).length ≤ 226 := by
  constructor
  · intro roundTrips
    obtain ⟨counted,recognised⟩ := roundTrips
    have short := lengthByte_exact.mp counted
    obtain ⟨byte,counted,-⟩ := counted
    obtain ⟨settings,foreign⟩ := other_settings (baseUrl req)
    obtain ⟨addr,same,readBack⟩ := recognised [] _ _ settings (generateOutputs_done counted |>.mpr rfl) foreign
    obtain ⟨found,extracted,exact⟩ := @extractOpReturn_exact ServerError settings _
    have advertised := (exact (baseUrl req) addr).mp (Program.done.inj (extracted.symm.trans readBack.read))
    exact ⟨same ▸ advertised.body,short⟩
  · intro fits
    obtain ⟨hashed,short⟩ := fits
    have counted := (@lengthByte_exact ServerError d.overflowChecks (baseUrl req)).mpr short
    refine ⟨counted,?_⟩
    intro pkHash payment advert settings generated foreign
    obtain ⟨byte,counted,exact⟩ := counted
    have outputs := (generateOutputs_done counted).mp generated
    simp only [List.cons.injEq,and_true] at outputs
    have advertises : Advertises settings advert.script (baseUrl req)
        {body := putAddr.body,network := settings.network.intoAddr} := {
      shape := by
        rw [outputs.2,← exact,UInt8.ofNat_toNat]
        rfl
      body := hashed
      nonempty := by have long := @baseUrl_length req; omega
      short := short
      foreign := fun own => foreign own.symm
      address := intoAddr_keyed _ _}
    obtain ⟨found,extracted,matched⟩ := @extractOpReturn_exact ServerError settings advert.script
    rw [(matched _ _).mpr advertises] at extracted
    exact ⟨{body := putAddr.body,network := settings.network.intoAddr},rfl,extract_readBack extracted⟩

def longHost : HttpRequest := {unpaidPut with host := String.ofList (List.replicate 220 'a')}

theorem longHost_misread : Reaches (deployment false) longHost {body := ownerHash} ∧
    (lengthByte false (baseUrl longHost) : Prog ServerError UInt8) = .done 0 ∧
    ¬ RoundTrips (deployment false) longHost {body := ownerHash} := by
  have length : (utf8 (baseUrl longHost)).length = 227 := by decide +kernel
  have byte : (lengthByte false (baseUrl longHost) : Prog ServerError UInt8) = .done 0 := by
    rw [lengthByte_cases,length]
    rfl
  refine ⟨⟨rfl,rfl,ownerAddress,by decide +kernel,rfl⟩,byte,?_⟩
  intro roundTrips
  have short := lengthByte_exact.mp roundTrips.counted
  omega

end Keyserver.AdvertisedOutput
