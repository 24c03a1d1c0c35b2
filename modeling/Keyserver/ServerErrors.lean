import Keyserver.ServerTypes

namespace Keyserver

inductive CryptoError where
  | pubkeyDeserialization
  | sigDeserialization
  | verification
  deriving DecidableEq, Repr

inductive ValidationError where
  | keyType
  | preimage
  | outdated
  | expiredTtl
  | crypto (err : CryptoError)
  deriving DecidableEq, Repr

inductive PaymentError where
  | content
  | accept
  | decode
  | payload
  | noMerchantDat
  | invalidMerchantDat
  | invalidAuth
  | noToken
  | uriMalformed
  | noTx
  | txDeserialize (err : String)
  | invalidOutputs
  | invalidTx
  | mismatchedNetwork
  | addrFetchFailed
  deriving DecidableEq, Repr

structure RocksError where
  message : String
  deriving DecidableEq, Repr

inductive ServerError where
  | db (err : RocksError)
  | validation (err : ValidationError)
  | crypto (err : CryptoError)
  | notFound
  | metadataDecode
  | payloadDecode
  | unsupportedSigScheme
  | payment (err : PaymentError)
  | address (cashErr base58Err : String)
  deriving DecidableEq, Repr

def CryptoError.display : CryptoError → String
  | .pubkeyDeserialization => "invalid pubkey"
  | .sigDeserialization => "invalid signature"
  | .verification => "verification failed"

def ValidationError.display : ValidationError → String
  | .keyType => "bad key type"
  | .preimage => "digest mismatch"
  | .outdated => "metadata is outdated"
  | .expiredTtl => "expired TTL"
  | .crypto err => err.display

def PaymentError.display : PaymentError → String
  | .content => "invalid content-type"
  | .accept => "not acceptable"
  | .decode => "failed to decode body"
  | .payload => "failed to receive payload"
  | .noMerchantDat => "no merchant data"
  | .invalidMerchantDat => "invalid merchant data"
  | .noToken => "no token"
  | .invalidAuth => "invalid authorization"
  | .uriMalformed => "malformed URI"
  | .noTx => "no payment tx"
  | .txDeserialize _ => "payment tx malformed"
  | .invalidOutputs => "invalid outputs"
  | .invalidTx => "invalid tx"
  | .addrFetchFailed => "failed to fetch address"
  | .mismatchedNetwork => "address mismatched with node network"

def ServerError.display : ServerError → String
  | .db err => err.message
  | .crypto err => err.display
  | .notFound => "not found"
  | .metadataDecode => "metadata decoding error"
  | .payloadDecode => "payload decoding error"
  | .unsupportedSigScheme => "signature scheme not supported"
  | .payment err => err.display
  | .validation err => err.display
  | .address cashErr base58Err => cashErr ++ ", " ++ base58Err

def CryptoError.errorResponse (err : CryptoError) : HttpResponse where
  status := match err with
    | .pubkeyDeserialization => .badRequest
    | .sigDeserialization => .badRequest
    | .verification => .badRequest
  body := utf8 err.display

def ValidationError.errorResponse : ValidationError → HttpResponse
  | .crypto err => err.errorResponse
  | .keyType => {status := .badRequest,body := utf8 ValidationError.keyType.display}
  | .preimage => {status := .badRequest,body := utf8 ValidationError.preimage.display}
  | .outdated => {status := .badRequest,body := utf8 ValidationError.outdated.display}
  | .expiredTtl => {status := .badRequest,body := utf8 ValidationError.expiredTtl.display}

def PaymentError.errorResponse (err : PaymentError) : HttpResponse where
  status := match err with
    | .accept => .notAcceptable
    | .content => .unsupportedMediaType
    | .noMerchantDat => .badRequest
    | .payload => .badRequest
    | .decode => .badRequest
    | .invalidMerchantDat => .badRequest
    | .invalidAuth => .paymentRequired
    | .noToken => .paymentRequired
    | .uriMalformed => .badRequest
    | .noTx => .badRequest
    | .txDeserialize _ => .badRequest
    | .invalidOutputs => .badRequest
    | .invalidTx => .badRequest
    | .mismatchedNetwork => .badRequest
    | .addrFetchFailed => .internalServerError
  body := utf8 err.display

-- The text of a database error is not sent to clients.
def ServerError.errorResponse : ServerError → HttpResponse
  | .validation err => err.errorResponse
  | .db _ => {status := .internalServerError,body := utf8 "internal db error"}
  | .notFound => {status := .notFound,body := utf8 ServerError.notFound.display}
  | .metadataDecode => {status := .badRequest,body := utf8 ServerError.metadataDecode.display}
  | .payloadDecode => {status := .badRequest,body := utf8 ServerError.payloadDecode.display}
  | .unsupportedSigScheme => {status := .badRequest,body := utf8 ServerError.unsupportedSigScheme.display}
  | .crypto err => err.errorResponse
  | .payment err => err.errorResponse
  | .address cashErr base58Err =>
      {status := .badRequest,body := utf8 (ServerError.address cashErr base58Err).display}

-- Only a handler's `Ok` answers with a success status.
def StatusCode.success : StatusCode → Bool
  | .ok => true
  | .accepted => true
  | _ => false

theorem validation_not_success (err : ValidationError) : err.errorResponse.status.success = false := by
  cases err with
  | crypto err => cases err <;> rfl
  | keyType | preimage | outdated | expiredTtl => rfl

theorem error_not_success (err : ServerError) : err.errorResponse.status.success = false := by
  cases err with
  | validation err => exact validation_not_success err
  | crypto err => cases err <;> rfl
  | payment err => cases err <;> rfl
  | db | notFound | metadataDecode | payloadDecode | unsupportedSigScheme | address => rfl

end Keyserver
