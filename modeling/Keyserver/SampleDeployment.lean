import Keyserver.WireMessages
import Keyserver.SoloRuns

namespace Keyserver.SampleDeployment
open WireMessages SoloRuns SharedPools

-- Known values of the cryptographic libraries: the holder of the address below
-- signed three payloads, and the node's wallet owns one more address.
def ownerKey : Bytes :=
  [2,121,190,102,126,249,220,187,172,85,160,98,149,206,135,11,7,2,155,252,219,45,206,40,217,89,242,
   129,91,22,248,23,152]

def ownerHash : Bytes := [117,30,118,232,25,145,150,212,84,148,28,69,209,179,163,35,241,67,59,214]

def ownerAddress : String := "bitcoincash:qp63uahgrxged4z5jswyt5dn5v3lzsem6cy4spdc2h"

def walletHash : Bytes := [6,175,212,107,205,253,34,239,148,172,18,42,161,31,36,18,68,163,126,204]

def walletAddress : String := "bitcoincash:qqr2l4rteh7j9mu54sfz4gglysfyfgm7esufu9gq2x"

structure SignedPayload where
  payload : Payload
  raw : Bytes
  digest : Bytes
  signature : Bytes

def early : SignedPayload where
  payload := ⟨100,10,[]⟩
  raw := [8,100,16,10]
  digest :=
    [39,239,49,77,175,30,152,104,65,255,199,39,76,224,232,126,95,61,8,184,126,204,46,204,77,184,222,170,
     231,146,101,118]
  signature :=
    [68,104,189,9,36,89,212,8,197,76,156,241,115,148,2,150,137,167,189,183,242,150,211,54,195,73,49,238,
     226,50,230,13,113,173,42,170,7,108,180,206,194,41,18,240,170,130,158,41,54,24,155,76,232,166,
     202,111,95,19,204,95,240,21,195,20]

def late : SignedPayload where
  payload := ⟨200,1000,[]⟩
  raw := [8,200,1,16,232,7]
  digest :=
    [139,36,146,174,114,228,137,218,187,155,168,183,63,102,170,6,122,149,34,20,210,15,219,108,155,150,
     135,59,41,173,140,130]
  signature :=
    [115,187,243,2,46,227,237,50,14,54,254,21,15,120,247,132,69,88,100,113,240,117,120,205,166,142,89,
     213,47,126,165,231,117,192,147,237,133,57,34,112,52,117,154,135,35,230,206,179,179,20,159,238,
     253,230,76,228,95,1,199,200,230,149,203,156]

def long : SignedPayload where
  payload := ⟨50,1000000,[]⟩
  raw := [8,50,16,192,132,61]
  digest :=
    [139,124,167,23,49,21,0,208,83,125,120,170,184,180,191,54,209,77,161,253,159,89,236,156,93,205,73,
     87,101,158,112,84]
  signature :=
    [227,2,253,38,127,18,142,23,126,135,124,55,117,213,54,40,22,120,235,107,66,18,163,154,189,238,69,33,
     124,207,49,210,94,82,1,18,6,97,131,74,174,185,84,48,13,149,26,101,238,84,35,208,36,91,136,67,
     74,227,244,200,222,165,44,36]

def secret : String := "secret"

def putUrl : String := "http://localhost:8080/keys/" ++ ownerAddress

def putToken : Bytes :=
  [246,106,80,25,33,6,113,185,65,49,211,86,146,193,199,22,176,125,239,184,20,66,221,152,196,173,214,
   171,136,88,167,147]

def putTokenText : String := "9mpQGSEGcblBMdNWksHHFrB977gUQt2YxK3Wq4hYp5M"

def paymentTx : Bytes :=
  [1,0,0,0,1,17,17,17,17,17,17,17,17,17,17,17,17,17,17,17,17,17,17,17,17,17,17,17,17,17,17,17,17,17,
   17,17,17,0,0,0,0,0,255,255,255,255,1,5,0,0,0,0,0,0,0,25,118,169,20,6,175,212,107,205,253,34,239,
   148,172,18,42,161,31,36,18,68,163,126,204,136,172,0,0,0,0]

def hexDigit (nibble : Nat) : Char := Char.ofNat (if nibble < 10 then 48 + nibble else 87 + nibble)

def hex (raw : Bytes) : String :=
  String.ofList (raw.flatMap fun byte => [hexDigit (byte.toNat / 16),hexDigit (byte.toNat % 16)])

def paymentTxid : String := "9bad0e5cf97555bcd65806731d0ccedd4dde16e298bc8e1f9096857fbd310dbb"

def payment : Payment := ⟨some (utf8 putUrl),[paymentTx],[],none⟩

def visible (byte : UInt8) : Bool := (32 ≤ byte && byte < 127) || byte == 9

def segment (path : String) : Option String :=
  if (utf8 path).take 6 = utf8 "/keys/" && !(((utf8 path).drop 6).contains 47) then fromUtf8 ((utf8 path).drop 6) else none

def crates : Crates := onWire {
  decodeMetadata := fun _ => none
  encodeMetadata := fun _ => []
  decodePayload := fun _ => none
  decodePayment := fun _ => none
  encodePaymentAck := fun _ => []
  encodePaymentDetails := fun _ => []
  encodePaymentRequest := fun _ => []
  decodeAddress := fun text =>
    if text = ownerAddress then .ok {body := ownerHash}
    else if text = walletAddress then .ok {body := walletHash}
    else .error ("invalid checksum","invalid character")
  encodeAddress := fun addr =>
    if addr = {body := ownerHash} then .ok ownerAddress
    else if addr = {body := walletHash} then .ok walletAddress
    else .error "invalid length"
  sha256 := fun raw => (([early,late,long].map fun known => (known.raw,known.digest)).lookup raw).getD []
  hash160 := fun raw => if raw = ownerKey then ownerHash else []
  hmacSha256 := fun key msg => if key = utf8 secret ∧ msg = utf8 putUrl then putToken else []
  Secp256k1PublicKey := Bytes
  Secp256k1Signature := Bytes
  Secp256k1Message := Bytes
  publicKeyFromSlice := fun raw => if raw = ownerKey then some raw else none
  publicKeySerialize := id
  signatureFromCompact := fun raw => if raw.length = 64 then some raw else none
  messageFromSlice := fun raw => if raw.length = 32 then some raw else none
  secp256k1Verify := fun msg sig key =>
    key = ownerKey && [early,late,long].any fun known => known.digest = msg && known.signature = sig
  deserializeTransaction := fun raw =>
    if raw = paymentTx then .ok ⟨[⟨5,[118,169,20] ++ walletHash ++ [136,172]⟩]⟩ else .error "unexpected end of file"
  urlParse := fun text => if text = putUrl then .ok ⟨putUrl⟩ else .error "relative URL without a base"
  base64Encode := fun raw => if raw = putToken then putTokenText else ""
  base64Decode := fun raw => if raw = utf8 putTokenText then some putToken else none
  hexEncode := hex
  headerToStr := fun raw => if raw.all visible then some raw else none
  routeAddr := segment}

def deployment (overflowChecks : Bool) : Deployment where
  crates := crates
  settings := ⟨"127.0.0.1:8080",secret,.mainnet⟩
  overflowChecks := overflowChecks

def signed (scheme : Int32) (known : SignedPayload) : AddressMetadata := ⟨ownerKey,known.signature,scheme,known.raw⟩

def body (scheme : Int32) (known : SignedPayload) : Bytes := encodeMetadata (signed scheme known)

def node (request : RpcRequest) : Except String RpcResponse :=
  if request.method = "getnewaddress" then .ok ⟨some (.ok walletAddress),none⟩ else .ok ⟨some (.ok paymentTxid),none⟩

def clockAt (secs : Nat) (bounded : secs < 2 ^ 63 := by decide) : Clock := ⟨secs,bounded⟩

def epoch : Clock := clockAt 0

def held : Shared := {Shared.empty epoch with wallet := {walletHash}}

def calm : Conditions where
  clock := fun _ => epoch
  rpc := node

def steady (secs : Nat) (bounded : secs < 2 ^ 63 := by decide) : Conditions :=
  {calm with clock := fun _ => clockAt secs bounded}

def driven (d : Deployment) (turns : List (Turn Request Clock)) : Option ServerPool :=
  (server d).drive (reply calm) (fun _ _ => true) turns (.start (Shared.empty (epoch)))

theorem driven_reached {d : Deployment} {turns : List (Turn Request Clock)} {s : ServerPool}
    (done : driven d turns = some s) : Reached (server d) (fun _ _ => True) (Shared.empty (epoch)) s :=
  drive_reached (fun _ _ _ => trivial) .start done

def putOwner (known : SignedPayload) : Request := .putKey ownerAddress [.ok (body 1 known)]

def unpaidPut : HttpRequest where
  method := .put
  scheme := "http"
  host := "localhost:8080"
  path := "/keys/" ++ ownerAddress
  authorization := none
  contentType := none
  accept := none
  payload := [.ok (body 1 early)]

def paidPut : HttpRequest := {unpaidPut with authorization := some (utf8 ("POP " ++ putTokenText))}

def paying : HttpRequest where
  method := .post
  scheme := "http"
  host := "localhost:8080"
  path := "/payments"
  authorization := none
  contentType := some (utf8 "application/bitcoincash-payment")
  accept := some (utf8 "application/bitcoincash-paymentack")
  payload := [.ok (WireFormat.encodeFields (paymentFields payment))]

end Keyserver.SampleDeployment
