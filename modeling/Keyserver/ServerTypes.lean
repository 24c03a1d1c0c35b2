import Mathlib.Algebra.Group.Int.Defs
import Mathlib.Algebra.Group.Nat.Defs

namespace Keyserver

abbrev Bytes := List UInt8

-- A Rust `str` is its UTF-8 bytes: lengths, slices and hashes read these.
def utf8 (text : String) : Bytes := text.toByteArray.data.toList

def fromUtf8 (raw : Bytes) : Option String := String.fromUTF8? ⟨raw.toArray⟩

theorem utf8_append (left right : String) : utf8 (left ++ right) = utf8 left ++ utf8 right := by
  simp [utf8]

theorem fromUtf8_utf8 (text : String) : fromUtf8 (utf8 text) = some text := by
  simp [fromUtf8,utf8,String.fromUTF8?,text.isValidUTF8,String.fromUTF8]

theorem utf8_inj {one two : String} (same : utf8 one = utf8 two) : one = two := by
  have text := congrArg fromUtf8 same
  rwa [fromUtf8_utf8,fromUtf8_utf8,Option.some.injEq] at text

theorem fromUtf8_some {raw : Bytes} {text : String} (decoded : fromUtf8 raw = some text) : raw = utf8 text := by
  unfold fromUtf8 String.fromUTF8? at decoded
  split at decoded
  · cases decoded; simp [utf8,String.fromUTF8]
  · cases decoded

-- The address crate. `..Default::default()` fills the fields a caller leaves out.
namespace BitcoincashAddr
inductive Scheme where
  | cashAddr
  | base58
  deriving DecidableEq, Repr
inductive HashType where
  | key
  | script
  deriving DecidableEq, Repr
inductive Network where
  | main
  | test
  | regtest
  deriving DecidableEq, Repr
end BitcoincashAddr

structure Address where
  body : Bytes := []
  scheme : BitcoincashAddr.Scheme := .cashAddr
  hashType : BitcoincashAddr.HashType := .key
  network : BitcoincashAddr.Network := .main
  deriving DecidableEq, Repr

inductive Network where
  | mainnet
  | testnet
  | regnet
  deriving DecidableEq, Repr

def Network.fromAddr : BitcoincashAddr.Network → Network
  | .main => .mainnet
  | .test => .testnet
  | .regtest => .regnet

def Network.intoAddr : Network → BitcoincashAddr.Network
  | .mainnet => .main
  | .testnet => .test
  | .regnet => .regtest

def Network.toString : Network → String
  | .mainnet => "mainnet"
  | .testnet => "testnet"
  | .regnet => "regnet"

-- Generated from addressmetadata.proto; an open enum field is a plain i32.
structure Header where
  name : String
  value : String
  deriving DecidableEq, Repr
structure Entry where
  kind : String
  headers : List Header
  entryData : Bytes
  deriving DecidableEq, Repr
structure Payload where
  timestamp : Int64
  ttl : Int64
  entries : List Entry
  deriving DecidableEq, Repr
structure AddressMetadata where
  pubKey : Bytes
  signature : Bytes
  scheme : Int32
  serializedPayload : Bytes
  deriving DecidableEq, Repr

-- Generated from paymentrequest.proto.
structure Output where
  amount : Option UInt64
  script : Bytes
  deriving DecidableEq, Repr
structure PaymentDetails where
  network : Option String
  outputs : List Output
  time : UInt64
  expires : Option UInt64
  memo : Option String
  paymentUrl : Option String
  merchantData : Option Bytes
  deriving DecidableEq, Repr
structure PaymentRequest where
  paymentDetailsVersion : Option UInt32
  pkiType : Option String
  pkiData : Option Bytes
  serializedPaymentDetails : Bytes
  signature : Option Bytes
  deriving DecidableEq, Repr
structure Payment where
  merchantData : Option Bytes
  transactions : List Bytes
  refundTo : List Output
  memo : Option String
  deriving DecidableEq, Repr
structure PaymentAck where
  payment : Payment
  memo : Option String
  deriving DecidableEq, Repr

structure TxOut where
  value : UInt64
  scriptPubkey : Bytes
  deriving DecidableEq, Repr
structure Transaction where
  output : List TxOut
  deriving DecidableEq, Repr

-- Whole seconds since the epoch. A `SystemTime` holds them in a signed 64-bit
-- field, so the cast to i64 in the code keeps the value.
structure Clock where
  secs : Nat
  bounded : secs < 2 ^ 63
  deriving DecidableEq, Repr

instance : LE Clock := ⟨fun earlier later => earlier.secs ≤ later.secs⟩
instance (earlier later : Clock) : Decidable (earlier ≤ later) := Nat.decLe _ _

theorem Clock.le_refl (clock : Clock) : clock ≤ clock := Nat.le_refl _
theorem Clock.le_trans {first second third : Clock} (one : first ≤ second) (two : second ≤ third) : first ≤ third :=
  Nat.le_trans one two

def Clock.asI64 (clock : Clock) : Int64 := Int64.ofNat clock.secs

@[simp] theorem Clock.toInt_asI64 (clock : Clock) : clock.asI64.toInt = clock.secs :=
  Int64.toInt_ofNat_of_lt clock.bounded

inductive Method where
  | get
  | put
  | post
  | other (name : String)
  deriving DecidableEq, Repr

-- `scheme` and `host` are what the connection info reports, which a client
-- controls through its headers. A payload arrives in chunks, any of which may fail.
structure HttpRequest where
  method : Method
  scheme : String
  host : String
  path : String
  authorization : Option Bytes
  contentType : Option Bytes
  accept : Option Bytes
  payload : List (Except String Bytes)

inductive StatusCode where
  | ok
  | accepted
  | badRequest
  | paymentRequired
  | notFound
  | methodNotAllowed
  | notAcceptable
  | unsupportedMediaType
  | internalServerError
  deriving DecidableEq, Repr

structure HttpResponse where
  status : StatusCode
  headers : List (String × String) := []
  body : Bytes := []
  deriving DecidableEq, Repr

structure Settings where
  bind : String
  secret : String
  network : Network
  deriving DecidableEq, Repr

structure Url where
  serialization : String
  deriving DecidableEq, Repr

-- The libraries the server is linked with, arbitrary but fixed. Error values of
-- a library are the texts they display.
structure Crates where
  decodeMetadata : Bytes → Option AddressMetadata
  encodeMetadata : AddressMetadata → Bytes
  decodePayload : Bytes → Option Payload
  decodePayment : Bytes → Option Payment
  encodePaymentAck : PaymentAck → Bytes
  encodePaymentDetails : PaymentDetails → Bytes
  encodePaymentRequest : PaymentRequest → Bytes
  decodeAddress : String → Except (String × String) Address
  encodeAddress : Address → Except String String
  sha256 : Bytes → Bytes
  hash160 : Bytes → Bytes
  hmacSha256 : Bytes → Bytes → Bytes
  Secp256k1PublicKey : Type
  Secp256k1Signature : Type
  Secp256k1Message : Type
  publicKeyFromSlice : Bytes → Option Secp256k1PublicKey
  publicKeySerialize : Secp256k1PublicKey → Bytes
  signatureFromCompact : Bytes → Option Secp256k1Signature
  messageFromSlice : Bytes → Option Secp256k1Message
  secp256k1Verify : Secp256k1Message → Secp256k1Signature → Secp256k1PublicKey → Bool
  deserializeTransaction : Bytes → Except String Transaction
  urlParse : String → Except String Url
  base64Encode : Bytes → String
  base64Decode : Bytes → Option Bytes
  hexEncode : Bytes → String
  -- `HeaderValue::to_str`: the value itself when it is visible ASCII.
  headerToStr : Bytes → Option Bytes
  -- The `{addr}` segment the router extracts from a path.
  routeAddr : String → Option String

-- One build of the server: `overflowChecks` is the profile's, on in debug builds.
structure Deployment where
  crates : Crates
  settings : Settings
  overflowChecks : Bool

-- What prost promises of the codec it generates.
def Crates.RoundTrips (crates : Crates) : Prop :=
  ∀ metadata, crates.decodeMetadata (crates.encodeMetadata metadata) = some metadata

end Keyserver
