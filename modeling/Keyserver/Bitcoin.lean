import Keyserver.ServerOps

namespace Keyserver.Bitcoin
open SharedPrograms SharedPrograms.Program

def PRICE : UInt64 := 5

def KEYSERVER_PREFIX : Bytes := utf8 "keyserver"

inductive BitcoinError where
  | http (err : String)
  | rpc (err : String)
  | json (err : String)
  | emptyResponse
  deriving DecidableEq, Repr

inductive StreamError where
  | subscription (err : String)
  | deserialization (err : String)
  deriving DecidableEq, Repr

-- What the node announces; a message that failed or does not decode stays an item.
def getTxStream (d : Deployment) (messages : List (Except String Bytes)) : List (Except StreamError Transaction) :=
  messages.map fun message => (message.mapError .subscription).bind fun rawTx =>
    (d.crates.deserializeTransaction rawTx).mapError .deserialization

def responseValue (response : RpcResponse) : Except BitcoinError String :=
  match response.error with
  | some err => .error (.rpc err)
  | none =>
    match response.result with
    | none => .error .emptyResponse
    | some (.error err) => .error (.json err)
    | some (.ok value) => .ok value

-- The node took the call: its answer has a value and no error.
structure Grants (response : RpcResponse) (value : String) : Prop where
  error : response.error = none
  result : response.result = some (.ok value)

theorem responseValue_ok {response : RpcResponse} {value : String} :
    responseValue response = .ok value ↔ Grants response value := by
  obtain ⟨result,error⟩ := response
  constructor
  · intro taken
    cases error with
    | some err => cases taken
    | none =>
      rcases result with _ | err | other
      · cases taken
      · cases taken
      · cases taken
        exact ⟨rfl,rfl⟩
  · intro grants
    obtain ⟨rfl,rfl⟩ := grants
    rfl

-- The node could not be reached, or did not take the call.
def Declined (received : Except String RpcResponse) : Prop :=
  ∀ response value, received = .ok response → ¬ Grants response value

theorem unreached_declined {err : String} : Declined (.error err) := by
  intro response value same
  cases same

theorem refused_declined {response : RpcResponse} {err : BitcoinError} (refused : responseValue response = .error err) :
    Declined (.ok response) := by
  intro other value same grants
  cases same
  cases refused.symm.trans (responseValue_ok.mpr grants)

def sendRequest (request : RpcRequest) : Prog BitcoinError String := do
  let response ← (rpcSend request).mapError .http
  fromResult (responseValue response)

def getNewAddr : Prog BitcoinError String := sendRequest ⟨"getnewaddress",[]⟩

def sendTx (d : Deployment) (rawTx : Bytes) : Prog BitcoinError String :=
  sendRequest ⟨"sendrawtransaction",[d.crates.hexEncode rawTx]⟩

section Scripts
variable {Error : Type}

-- Indexing and slicing panic outside the bytes.
def byteAt (raw : Bytes) (i : Nat) : Prog Error UInt8 := unwrap .slice raw[i]?

def slice (raw : Bytes) (start stop : Nat) : Prog Error Bytes :=
  if start ≤ stop ∧ stop ≤ raw.length then .done ((raw.drop start).take (stop - start)) else .panic .slice

def extractPubkeyHash (rawScript : Bytes) : Prog Error (Option Bytes) := do
  if rawScript.length ≠ 25 then return none
  else if (← slice rawScript 0 3) ≠ [118,169,20] then return none
  else if (← slice rawScript 23 25) ≠ [136,172] then return none
  else return some (← slice rawScript 3 23)

-- OP_RETURN || LEN || keyserver || bitcoin pk hash || peer host
def extractOpReturn (settings : Settings) (script : Bytes) : Prog Error (Option (String × Address)) := do
  if script.length ≤ 2 + 9 + 20 then return none
  else if (← byteAt script 0) ≠ 106 then return none
  else if (← byteAt script 1).toNat ≠ script.length - 2 then return none
  else if (← slice script 2 11) ≠ KEYSERVER_PREFIX then return none
  else
    match fromUtf8 (← slice script 31 script.length) with
    | none => return none
    | some url =>
      if url = "http://" ++ settings.bind then return none
      else
        let bitcoinAddrRaw ← slice script 11 31
        return some (url,{body := bitcoinAddrRaw,network := settings.network.intoAddr})

def findDetails (settings : Settings) : List TxOut → Prog Error (Option (String × Address))
  | [] => .done none
  | output :: rest => do
    match ← extractOpReturn settings output.scriptPubkey with
    | some found => return some found
    | none => findDetails settings rest

def extractDetails (settings : Settings) :
    List (Except StreamError Transaction) → Prog Error (List (Except StreamError (String × Address)))
  | [] => .done []
  | .error err :: rest => do return .error err :: (← extractDetails settings rest)
  | .ok tx :: rest => do
    match ← findDetails settings tx.output with
    | some found => return .ok found :: (← extractDetails settings rest)
    | none => extractDetails settings rest

def addU8 (overflowChecks : Bool) (left right : UInt8) : Prog Error UInt8 :=
  if overflowChecks ∧ 256 ≤ left.toNat + right.toNat then .panic .overflow else .done (left + right)

-- `9 + 20 + base_url.len() as u8`: the cast applies to the length alone.
def lengthByte (overflowChecks : Bool) (baseUrl : String) : Prog Error UInt8 :=
  addU8 overflowChecks (9 + 20) (UInt8.ofNat (utf8 baseUrl).length)

def p2pkhScript (pkHash : Bytes) : Bytes := [118,169,20] ++ pkHash ++ [136,172]

def generateOutputs (overflowChecks : Bool) (pkHash : Bytes) (baseUrl : String) (putPkHash : Bytes) :
    Prog Error (List Output) := do
  let p2pkhOutput : Output := ⟨some PRICE,p2pkhScript pkHash⟩
  let len ← lengthByte overflowChecks baseUrl
  let opReturnScript := [106,len] ++ KEYSERVER_PREFIX ++ putPkHash ++ utf8 baseUrl
  return [p2pkhOutput,⟨some 0,opReturnScript⟩]

end Scripts

namespace WalletState
variable {Error : Type}

-- The results of `insert` and `remove` are dropped by the code.
def add (addr : Bytes) : Prog Error Unit := .call (.walletInsert addr) fun _ => .done ()
def remove (addr : Bytes) : Prog Error Unit := .call (.walletRemove addr) fun _ => .done ()
def contains (addr : Bytes) : Prog Error Bool := .call (.walletContains addr) .done

def checkP2pkh (output : TxOut) : Prog Error Bool := do
  if output.value ≠ PRICE then return false
  else
    match ← extractPubkeyHash output.scriptPubkey with
    | some pubkeyHash =>
      if ← contains pubkeyHash then
        remove pubkeyHash
        return true
      else return false
    | none => return false

def checkOutputs (tx : Transaction) : Prog Error Bool := tx.output.anyM checkP2pkh

end WalletState

theorem slice_middle {Error : Type} {before middle after : Bytes} {start stop : Nat}
    (first : start = before.length) (last : stop = before.length + middle.length) :
    (slice (before ++ middle ++ after) start stop : Prog Error Bytes) = .done middle := by
  subst first last
  simp [slice]

theorem extractPubkeyHash_exact {Error : Type} (rawScript : Bytes) :
    ∃ found, (extractPubkeyHash rawScript : Prog Error (Option Bytes)) = .done found ∧
      ∀ hash, found = some hash ↔ rawScript = p2pkhScript hash ∧ hash.length = 20 := by
  unfold extractPubkeyHash
  by_cases length : rawScript.length = 25
  · obtain ⟨pre,body,post,shape,preLength,bodyLength,postLength⟩ : ∃ pre body post, rawScript = pre ++ body ++ post ∧
        pre.length = 3 ∧ body.length = 20 ∧ post.length = 2 := by
      refine ⟨rawScript.take 3,(rawScript.drop 3).take 20,rawScript.drop 23,?_,?_,?_,?_⟩
      · rw [List.append_assoc,← List.drop_drop (i := 20) (j := 3),List.take_append_drop,List.take_append_drop]
      all_goals simp [length]
    have head : (slice rawScript 0 3 : Prog Error Bytes) = .done pre := by
      rw [shape,List.append_assoc]
      exact @slice_middle Error [] pre (body ++ post) 0 3 rfl (by simp [preLength])
    have tail : (slice rawScript 23 25 : Prog Error Bytes) = .done post := by
      rw [shape,← List.append_nil (pre ++ body ++ post)]
      exact slice_middle (by simp [preLength,bodyLength]) (by simp [preLength,bodyLength,postLength])
    have inner : (slice rawScript 3 23 : Prog Error Bytes) = .done body := by
      rw [shape]
      exact slice_middle preLength.symm (by omega)
    simp only [length,ne_eq,not_true_eq_false,if_false,head,tail,inner,done_bind]
    have split : ∀ hash, rawScript = p2pkhScript hash ∧ hash.length = 20 ↔
        pre = [118,169,20] ∧ post = [136,172] ∧ body = hash := by
      intro hash
      constructor
      · intro standard
        obtain ⟨same,hashLength⟩ := standard
        rw [shape,p2pkhScript] at same
        obtain ⟨outer,last⟩ := List.append_inj' same (by simp [postLength])
        obtain ⟨first,middle⟩ := List.append_inj outer (by simp [preLength])
        exact ⟨first,last,middle⟩
      · rintro ⟨rfl,rfl,rfl⟩
        exact ⟨shape,bodyLength⟩
    simp only [split]
    by_cases opens : pre = [118,169,20]
    · by_cases closes : post = [136,172]
      · exact ⟨some body,by simp [opens,closes],by simp [opens,closes]⟩
      · exact ⟨none,by simp [opens,closes],by simp [closes]⟩
    · exact ⟨none,by simp [opens],by simp [opens]⟩
  · refine ⟨none,by simp [length],?_⟩
    intro hash
    simp only [reduceCtorEq,false_iff,not_and]
    intro same
    subst same
    simp only [p2pkhScript,List.length_append,List.length_cons,List.length_nil] at length
    omega

theorem lengthByte_cases {Error : Type} (overflowChecks : Bool) (baseUrl : String) :
    (lengthByte overflowChecks baseUrl : Prog Error UInt8) =
      if overflowChecks ∧ 256 ≤ 29 + (utf8 baseUrl).length % 256 then .panic .overflow
      else .done (UInt8.ofNat (29 + (utf8 baseUrl).length)) := by
  have sum : (9 + 20 : UInt8) + UInt8.ofNat (utf8 baseUrl).length = UInt8.ofNat (29 + (utf8 baseUrl).length) := by
    rw [UInt8.ofNat_add]
    rfl
  have left : (9 + 20 : UInt8).toNat = 29 := rfl
  simp only [lengthByte,addU8,sum,left,UInt8.toNat_ofNat']

-- The network that an address is of, for each network of the settings.
inductive Carries : Network → BitcoincashAddr.Network → Prop where
  | mainnet : Carries .mainnet .main
  | testnet : Carries .testnet .test
  | regnet : Carries .regnet .regtest

-- A cash address of a public key on the network.
structure KeyAddress (network : Network) (addr : Address) : Prop where
  scheme : addr.scheme = .cashAddr
  hashType : addr.hashType = .key
  network : Carries network addr.network

theorem carries_iff {network : Network} {carried : BitcoincashAddr.Network} :
    Carries network carried ↔ carried = network.intoAddr := by
  constructor
  · intro carries
    cases carries <;> rfl
  · intro same
    subst same
    cases network <;> constructor

theorem carries_fromAddr {network : Network} {carried : BitcoincashAddr.Network} :
    Carries network carried ↔ Network.fromAddr carried = network := by
  constructor
  · intro carries
    cases carries <;> rfl
  · intro same
    subst same
    cases carried <;> constructor

theorem keyAddress_iff {network : Network} {addr : Address} :
    KeyAddress network addr ↔ addr = {body := addr.body,network := network.intoAddr} := by
  obtain ⟨body,scheme,hashType,carried⟩ := addr
  constructor
  · intro keyed
    obtain ⟨rfl,rfl,carries⟩ := keyed
    obtain rfl := carries_iff.mp carries
    rfl
  · intro same
    simp only [Address.mk.injEq,true_and] at same
    obtain ⟨rfl,rfl,carried⟩ := same
    exact ⟨rfl,rfl,carries_iff.mpr carried⟩

theorem intoAddr_keyed (network : Network) (pkHash : Bytes) :
    KeyAddress network {body := pkHash,network := network.intoAddr} := keyAddress_iff.mpr rfl

-- The grammar of the advertisement, as its reader delimits it.
structure Advertises (settings : Settings) (script : Bytes) (url : String) (addr : Address) : Prop where
  shape : script = [106,UInt8.ofNat (29 + (utf8 url).length)] ++ utf8 "keyserver" ++ addr.body ++ utf8 url
  body : addr.body.length = 20
  nonempty : 1 ≤ (utf8 url).length
  short : (utf8 url).length ≤ 226
  foreign : url ≠ "http://" ++ settings.bind
  address : KeyAddress settings.network addr

theorem keyserver_length : (utf8 "keyserver").length = 9 := by decide

theorem Advertises.length {settings : Settings} {script : Bytes} {url : String} {addr : Address}
    (advertised : Advertises settings script url addr) : script.length = 31 + (utf8 url).length := by
  rw [advertised.shape]
  simp only [List.length_append,List.length_cons,List.length_nil,keyserver_length,advertised.body]

-- The fields that the reader cuts out of a script of more than 31 bytes.
section Fields
variable {op len : UInt8} {tag pkHash host : Bytes} (tagLength : tag.length = 9) (hashLength : pkHash.length = 20)

theorem script_fields {script : Bytes} (long : 31 < script.length) : ∃ op len tag pkHash host,
    script = op :: len :: (tag ++ pkHash ++ host) ∧ tag.length = 9 ∧ pkHash.length = 20 := by
  match script,long with
  | op :: len :: rest,long =>
    simp only [List.length_cons] at long
    refine ⟨op,len,rest.take 9,(rest.drop 9).take 20,rest.drop 29,?_,?_,?_⟩
    · rw [List.append_assoc,← List.drop_drop (i := 20) (j := 9),List.take_append_drop,List.take_append_drop]
    · rw [List.length_take]
      omega
    · rw [List.length_take,List.length_drop]
      omega
  | [_],long => simp at long
  | [],long => simp at long

include tagLength in
theorem slice_tag {Error : Type} : (slice (op :: len :: (tag ++ pkHash ++ host)) 2 11 : Prog Error Bytes) = .done tag := by
  rw [List.append_assoc]
  exact @slice_middle Error [op,len] tag (pkHash ++ host) 2 11 rfl (by simp [tagLength])

include tagLength hashLength

theorem fields_length : (op :: len :: (tag ++ pkHash ++ host)).length = 31 + host.length := by
  simp only [List.length_cons,List.length_append,tagLength,hashLength]
  omega

theorem slice_pkHash {Error : Type} :
    (slice (op :: len :: (tag ++ pkHash ++ host)) 11 31 : Prog Error Bytes) = .done pkHash :=
  @slice_middle Error (op :: len :: tag) pkHash host 11 31 (by simp [tagLength]) (by simp [tagLength,hashLength])

theorem slice_host {Error : Type} :
    (slice (op :: len :: (tag ++ pkHash ++ host)) 31 (31 + host.length) : Prog Error Bytes) = .done host := by
  rw [← List.append_nil (op :: len :: (tag ++ pkHash ++ host))]
  exact @slice_middle Error (op :: len :: (tag ++ pkHash)) host [] 31 _ (by simp [tagLength,hashLength])
    (by simp [tagLength,hashLength])

theorem advertises_fields {settings : Settings} {url : String} {addr : Address} :
    Advertises settings (op :: len :: (tag ++ pkHash ++ host)) url addr ↔ op = 106 ∧ len.toNat = 31 + host.length - 2 ∧
      tag = KEYSERVER_PREFIX ∧ 1 ≤ host.length ∧ fromUtf8 host = some url ∧ url ≠ "http://" ++ settings.bind ∧
      addr = {body := pkHash,network := settings.network.intoAddr} := by
  constructor
  · intro advertised
    obtain ⟨layout,body,nonempty,limit,foreign,address⟩ := advertised
    simp only [List.cons_append,List.nil_append,List.cons.injEq] at layout
    obtain ⟨sameOp,sameLen,fields⟩ := layout
    obtain ⟨front,sameHost⟩ := List.append_inj fields (by
      simp only [List.length_append,tagLength,hashLength,keyserver_length,body])
    obtain ⟨sameTag,sameHash⟩ := List.append_inj front (by rw [tagLength,keyserver_length])
    have counted : len.toNat = (29 + (utf8 url).length) % 256 := by rw [sameLen]; simp
    refine ⟨sameOp,?_,sameTag,by rw [sameHost]; exact nonempty,by rw [sameHost,fromUtf8_utf8],foreign,?_⟩
    · rw [counted,sameHost]
      omega
    · rw [keyAddress_iff.mp address,sameHash]
  · intro fields
    obtain ⟨rfl,counted,rfl,nonempty,decoded,foreign,rfl⟩ := fields
    have text := fromUtf8_some decoded
    have bound := len.toNat_lt
    have exact : len = UInt8.ofNat (29 + (utf8 url).length) := by
      rw [← text,← UInt8.ofNat_toNat (x := len),counted]
      congr 1
      omega
    refine ⟨?_,hashLength,?_,?_,foreign,intoAddr_keyed _ _⟩
    · rw [exact,text]
      simp [KEYSERVER_PREFIX]
    · rw [← text]
      exact nonempty
    · rw [← text]
      omega

end Fields

theorem extractOpReturn_exact {Error : Type} (settings : Settings) (script : Bytes) :
    ∃ found, (extractOpReturn settings script : Prog Error (Option (String × Address))) = .done found ∧
      ∀ url addr, found = some (url,addr) ↔ Advertises settings script url addr := by
  unfold extractOpReturn
  by_cases short : script.length ≤ 2 + 9 + 20
  · refine ⟨none,by simp [short],fun url addr => ?_⟩
    simp only [reduceCtorEq,false_iff]
    intro advertised
    have length := advertised.length
    have nonempty := advertised.nonempty
    omega
  · obtain ⟨op,len,tag,pkHash,host,rfl,tagLength,hashLength⟩ := @script_fields script (by omega)
    have length := @fields_length op len tag pkHash host tagLength hashLength
    have first : (byteAt (op :: len :: (tag ++ pkHash ++ host)) 0 : Prog Error UInt8) = .done op := rfl
    have second : (byteAt (op :: len :: (tag ++ pkHash ++ host)) 1 : Prog Error UInt8) = .done len := rfl
    have nonempty : 1 ≤ host.length := by omega
    simp only [advertises_fields tagLength hashLength,first,second,length,slice_tag tagLength,
      slice_pkHash tagLength hashLength,slice_host tagLength hashLength,done_bind,nonempty,true_and]
    have long : ¬ 31 + host.length ≤ 2 + 9 + 20 := by omega
    simp only [long,if_false]
    by_cases opcode : op = 106
    · by_cases counted : len.toNat = 31 + host.length - 2
      · by_cases named : tag = KEYSERVER_PREFIX
        · cases decoded : fromUtf8 host with
          | none => exact ⟨none,by simp [opcode,counted,named],by simp⟩
          | some text =>
            by_cases own : text = "http://" ++ settings.bind
            · refine ⟨none,by simp [opcode,counted,named,own],?_⟩
              simp only [reduceCtorEq,false_iff]
              rintro url addr ⟨-,-,-,same,foreign,-⟩
              exact foreign ((Option.some.inj same).symm.trans own)
            · refine ⟨some (text,{body := pkHash,network := settings.network.intoAddr}),?_,?_⟩
              · simp [opcode,counted,named,own]
              · intro url addr
                simp only [Option.some.injEq,Prod.mk.injEq]
                constructor
                · rintro ⟨rfl,rfl⟩
                  exact ⟨opcode,counted,named,rfl,own,rfl⟩
                · rintro ⟨-,-,-,rfl,-,rfl⟩
                  exact ⟨rfl,rfl⟩
        · exact ⟨none,by simp [opcode,counted,named],by simp [named]⟩
      · exact ⟨none,by simp [opcode,counted],by simp [counted]⟩
    · exact ⟨none,by simp [opcode],by simp [opcode]⟩

end Keyserver.Bitcoin
