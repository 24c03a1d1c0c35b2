import Keyserver.KeyHandlers

namespace Keyserver.Payments
open SharedPrograms SharedPrograms.Program KeyHandlers Bitcoin

variable (d : Deployment)

def PAYMENT_PATH : String := "/payments"

def generateToken (msg secret : Bytes) : Bytes := d.crates.hmacSha256 secret msg

def validateToken (msg secret expected : Bytes) : Bool := generateToken d msg secret == expected

def paymentHandler (req : HttpRequest) : Prog ServerError HttpResponse := do
  if req.contentType ≠ some (utf8 "application/bitcoincash-payment") then .throw (.payment .accept)
  else if req.accept ≠ some (utf8 "application/bitcoincash-paymentack") then .throw (.payment .content)
  else
    let paymentRaw ← readPayload .payloadDecode [] req.payload
    let payment ← okOr (.payment .decode) (d.crates.decodePayment paymentRaw)
    let txRaw ← okOr (.payment .noTx) payment.transactions.head?
    let tx ← (fromResult (d.crates.deserializeTransaction txRaw)).mapError fun err => .payment (.txDeserialize err)
    if !(← WalletState.checkOutputs tx) then .throw (.payment .invalidOutputs)
    else
      let _txid ← (sendTx d txRaw).mapError fun _ => .payment .invalidTx
      let paymentAck : PaymentAck := ⟨payment,some "Thanks for your custom!"⟩
      let rawAck := d.crates.encodePaymentAck paymentAck
      let merchantData ← okOr (.payment .noMerchantDat) paymentAck.payment.merchantData
      let token := d.crates.base64Encode (generateToken d merchantData (utf8 d.settings.secret))
      let merchantUrl ← okOr (.payment .invalidMerchantDat) (fromUtf8 merchantData)
      let redirectUrl ← (fromResult (d.crates.urlParse merchantUrl)).mapError fun _ => .payment .invalidMerchantDat
      return {
        status := .accepted
        headers := [("location",redirectUrl.serialization),("authorization","POP " ++ token),("pragma","no-cache")]
        body := rawAck}

-- `&path[6..]`, which panics past the end or inside a character.
def pathTail (path : String) : Option String :=
  if 6 ≤ (utf8 path).length then fromUtf8 ((utf8 path).drop 6) else none

-- `SystemTime + Duration`, which panics past the last representable second.
def afterSecs (clock : Clock) (secs : Nat) : Option Clock :=
  if bounded : clock.secs + secs < 2 ^ 63 then some ⟨clock.secs + secs,bounded⟩ else none

-- The future `new_addr`: it runs only once the put address has been decoded.
def newAddr : Prog ServerError Bytes := do
  let addrStr ← getNewAddr.mapError fun _ => .payment .addrFetchFailed
  let addr ← decodeAddress d addrStr
  if Network.fromAddr addr.network ≠ d.settings.network ∨ addr.hashType ≠ .key then
    .throw (.payment .mismatchedNetwork)
  else
    WalletState.add addr.body
    return addr.body

def baseUrl (req : HttpRequest) : String := req.scheme ++ "://" ++ req.host

def merchantUrl (req : HttpRequest) : String := baseUrl req ++ req.path

def paymentDetails (req : HttpRequest) (currentTime expiryTime : Clock) (outputs : List Output) : PaymentDetails where
  network := some d.settings.network.toString
  time := UInt64.ofNat currentTime.secs
  expires := some (UInt64.ofNat expiryTime.secs)
  memo := none
  merchantData := some (utf8 (merchantUrl req))
  outputs := outputs
  paymentUrl := some (baseUrl req ++ PAYMENT_PATH)

def paymentInvoice (details : PaymentDetails) : PaymentRequest where
  pkiType := some "none"
  pkiData := none
  paymentDetailsVersion := some 1
  serializedPaymentDetails := d.crates.encodePaymentDetails details
  signature := none

def generateInvoice (req : HttpRequest) : Prog ServerError HttpResponse := do
  let currentTime ← systemTimeNow
  let expiryTime ← unwrap .overflow (afterSecs currentTime VALID_DURATION)
  let putAddrStr ← unwrap .slice (pathTail req.path)
  let putAddr ← decodeAddress d putAddrStr
  let addrRaw ← newAddr d
  let outputs ← generateOutputs d.overflowChecks addrRaw (baseUrl req) putAddr.body
  let details := paymentDetails d req currentTime expiryTime outputs
  return {
    status := .paymentRequired
    headers := [("content-type","application/bitcoincash-paymentrequest"),("Content-Transfer-Encoding","binary")]
    body := d.crates.encodePaymentRequest (paymentInvoice d details)}

def invalidAuth : ServerError := .payment .invalidAuth

def tokenStr (header : Bytes) : Option Bytes :=
  (d.crates.headerToStr header).bind fun authStr =>
    if 4 ≤ authStr.length ∧ authStr.take 4 = utf8 "POP " then some (authStr.drop 4) else none

def forward (service : HttpRequest → Prog ServerError HttpResponse) (req : HttpRequest) :
    Prog ServerError HttpResponse :=
  .call (.serviceCall req.method req.scheme req.host req.path) fun _ => service req

def call (service : HttpRequest → Prog ServerError HttpResponse) (req : HttpRequest) : Prog ServerError HttpResponse :=
  if req.method ≠ .put then forward service req
  else
    match req.authorization with
    | none => generateInvoice d req
    | some header =>
      match tokenStr d header with
      | none => .throw invalidAuth
      | some token =>
        match d.crates.base64Decode token with
        | none => .done invalidAuth.errorResponse
        | some token =>
          if !validateToken d (utf8 (merchantUrl req)) (utf8 d.settings.secret) token then
            .done invalidAuth.errorResponse
          else forward service req

end Keyserver.Payments
