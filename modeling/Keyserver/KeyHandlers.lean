import Keyserver.KeyDb
import Keyserver.Bitcoin

namespace Keyserver.KeyHandlers
open SharedPrograms SharedPrograms.Program Authentication Bitcoin

variable (d : Deployment)

-- Seconds an invoice is valid for, and a peer is waited for.
def VALID_DURATION : Nat := 30

inductive PeerError where
  | urlError (err : String)
  | responseError (err : String)
  | decode
  deriving DecidableEq, Repr

def readPayload (failure : ServerError) : Bytes → List (Except String Bytes) → Prog ServerError Bytes
  | raw,[] => .done raw
  | raw,.ok item :: rest => readPayload failure (raw ++ item) rest
  | _,.error _ :: _ => .throw failure

def decodeAddress (addrStr : String) : Prog ServerError Address :=
  match d.crates.decodeAddress addrStr with
  | .ok addr => .done addr
  | .error (cashErr,base58Err) => .throw (.address cashErr base58Err)

def getKey (addrStr : String) : Prog ServerError HttpResponse := do
  let addr ← decodeAddress d addrStr
  let found ← (KeyDb.get d addr).mapError .db
  let metadata ← okOr .notFound found
  return {status := .ok,body := d.crates.encodeMetadata metadata}

def storeKey (addr : Address) (metadata : AddressMetadata) (payload : Payload) : Prog ServerError HttpResponse := do
  let verdict ← (KeyDb.checkTimestamp d addr payload).mapError .db
  (fromResult verdict).mapError .validation
  (KeyDb.put d addr metadata).mapError .db
  return {status := .ok}

def putKey (addrStr : String) (payload : List (Except String Bytes)) : Prog ServerError HttpResponse := do
  let metadataRaw ← readPayload .metadataDecode [] payload
  let metadata ← okOr .metadataDecode (d.crates.decodeMetadata metadataRaw)
  let addr ← decodeAddress d addrStr
  if metadata.scheme ≠ 1 then .throw .unsupportedSigScheme
  else
    (validate d.crates (secp256k1 d.crates) addr metadata).mapError .validation
    let payload ← okOr .payloadDecode (d.crates.decodePayload metadata.serializedPayload)
    storeKey d addr metadata payload

def getMetadata (peerUrl bitcoinAddr : String) : Prog PeerError Bytes := do
  let url ← (fromResult (d.crates.urlParse (peerUrl ++ "/keys/" ++ bitcoinAddr))).mapError .urlError
  (httpGet url).mapError .responseError

-- The exits of one stream item, in the order of the source.
inductive PeerExit where
  | streamFailed
  | unencodable (err : String)
  | unreachable (err : PeerError)
  | undecodable
  | invalidMetadata (err : ValidationError)
  | invalidPayload
  | outdated (err : ValidationError)
  | checkFailed (err : RocksError)
  | putFailed (err : RocksError)
  | stored
  deriving DecidableEq, Repr

variable {Error : Type}

def storePulled (bitcoinAddr : Address) (metadata : AddressMetadata) (payload : Payload) : Prog Error PeerExit := do
  match ← (KeyDb.checkTimestamp d bitcoinAddr payload).attempt with
  | .ok (.error e) => return .outdated e
  | .error e => return .checkFailed e
  | .ok (.ok ()) =>
    match ← (KeyDb.put d bitcoinAddr metadata).attempt with
    | .error e => return .putFailed e
    | .ok () => return .stored

-- What the loop body does with a peer's response for `bitcoinAddr`.
def pullMetadata (bitcoinAddr : Address) (metadataRaw : Bytes) : Prog Error PeerExit :=
  match d.crates.decodeMetadata metadataRaw with
  | none => .done .undecodable
  | some metadata => do
    match ← (validate d.crates (secp256k1 d.crates) bitcoinAddr metadata).attempt with
    | .error e => return .invalidMetadata e
    | .ok () =>
      match d.crates.decodePayload metadata.serializedPayload with
      | none => return .invalidPayload
      | some payload => storePulled d bitcoinAddr metadata payload

-- The body of the `for_each` loop over the transaction stream.
def peerPolling (res : Except StreamError (String × Address)) : Prog Error PeerExit :=
  match res with
  | .error _ => .done .streamFailed
  | .ok (peerAddr,bitcoinAddr) =>
    match d.crates.encodeAddress bitcoinAddr with
    | .error e => .done (.unencodable e)
    | .ok bitcoinAddrStr => do
      delayFor VALID_DURATION
      match ← (getMetadata d peerAddr bitcoinAddrStr).attempt with
      | .error err => return .unreachable err
      | .ok metadataRaw => pullMetadata d bitcoinAddr metadataRaw

end Keyserver.KeyHandlers
