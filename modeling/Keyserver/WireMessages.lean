import Keyserver.WireFormat
import Keyserver.ServerTypes

namespace Keyserver.WireMessages
open WireFormat

-- The generated messages on the wire. A known field of another shape is an
-- error; an unknown field is skipped.
def known (last number : Nat) : Bool := 1 ≤ number && number ≤ last

def mergeHeader (header : Header) (field : Field) : Option Header :=
  match field.number,field.value with
  | 1,.delimited raw => (fromUtf8 raw).map fun name => {header with name := name}
  | 2,.delimited raw => (fromUtf8 raw).map fun value => {header with value := value}
  | number,_ => if known 2 number then none else some header

def mergeEntry (entry : Entry) (field : Field) : Option Entry :=
  match field.number,field.value with
  | 1,.delimited raw => (fromUtf8 raw).map fun kind => {entry with kind := kind}
  | 2,.delimited raw => (decodeMessage mergeHeader ⟨"",""⟩ raw).map fun header =>
      {entry with headers := entry.headers ++ [header]}
  | 3,.delimited raw => some {entry with entryData := raw}
  | number,_ => if known 3 number then none else some entry

def mergePayload (payload : Payload) (field : Field) : Option Payload :=
  match field.number,field.value with
  | 1,.varint value => some {payload with timestamp := Int64.ofNat value}
  | 2,.varint value => some {payload with ttl := Int64.ofNat value}
  | 3,.delimited raw => (decodeMessage mergeEntry ⟨"",[],[]⟩ raw).map fun entry =>
      {payload with entries := payload.entries ++ [entry]}
  | number,_ => if known 3 number then none else some payload

def decodePayload : Bytes → Option Payload := decodeMessage mergePayload ⟨0,0,[]⟩

def mergeMetadata (metadata : AddressMetadata) (field : Field) : Option AddressMetadata :=
  match field.number,field.value with
  | 1,.delimited raw => some {metadata with pubKey := raw}
  | 2,.delimited raw => some {metadata with signature := raw}
  | 3,.varint value => some {metadata with scheme := Int32.ofNat value}
  | 4,.delimited raw => some {metadata with serializedPayload := raw}
  | number,_ => if known 4 number then none else some metadata

def decodeMetadata : Bytes → Option AddressMetadata := decodeMessage mergeMetadata ⟨[],[],0,[]⟩

-- A negative enum value is sign-extended to ten groups.
def enumBits (value : Int32) : Nat := (value.toInt % 2 ^ 64).toNat

def metadataFields (metadata : AddressMetadata) : List Field :=
  bytesField 1 metadata.pubKey ++ bytesField 2 metadata.signature ++ varintField 3 (enumBits metadata.scheme) ++
    bytesField 4 metadata.serializedPayload

def encodeMetadata (metadata : AddressMetadata) : Bytes := encodeFields (metadataFields metadata)

theorem enumBits_back (value : Int32) : Int32.ofNat (enumBits value) = value := by
  have nonneg : 0 ≤ value.toInt % 2 ^ 64 := Int.emod_nonneg _ (by decide)
  have lift : ((enumBits value : Nat) : Int) = value.toInt % 2 ^ 64 := Int.toNat_of_nonneg nonneg
  rw [← Int32.toInt_inj,← Int32.ofInt_eq_ofNat,lift,Int32.toInt_ofInt]
  have lower := value.le_toInt
  have upper := value.toInt_lt
  simp only [Int.bmod,Int32.size]
  split <;> omega

theorem decode_encodeMetadata (metadata : AddressMetadata) : decodeMetadata (encodeMetadata metadata) = some metadata := by
  obtain ⟨pubKey,signature,scheme,serializedPayload⟩ := metadata
  have first : (bytesField 1 pubKey).foldlM mergeMetadata ⟨[],[],0,[]⟩ = some ⟨pubKey,[],0,[]⟩ :=
    @merge_bytesField _ mergeMetadata 1 (fun raw => ⟨raw,[],0,[]⟩) (fun _ => rfl) pubKey
  have second : (bytesField 2 signature).foldlM mergeMetadata ⟨pubKey,[],0,[]⟩ = some ⟨pubKey,signature,0,[]⟩ :=
    @merge_bytesField _ mergeMetadata 2 (fun raw => ⟨pubKey,raw,0,[]⟩) (fun _ => rfl) signature
  have third : (varintField 3 (enumBits scheme)).foldlM mergeMetadata ⟨pubKey,signature,0,[]⟩ =
      some ⟨pubKey,signature,Int32.ofNat (enumBits scheme),[]⟩ :=
    @merge_varintField _ mergeMetadata 3 (fun bits => ⟨pubKey,signature,Int32.ofNat bits,[]⟩) (fun _ => rfl) (enumBits scheme)
  have fourth : (bytesField 4 serializedPayload).foldlM mergeMetadata ⟨pubKey,signature,scheme,[]⟩ =
      some ⟨pubKey,signature,scheme,serializedPayload⟩ :=
    @merge_bytesField _ mergeMetadata 4 (fun raw => ⟨pubKey,signature,scheme,raw⟩) (fun _ => rfl) serializedPayload
  rw [enumBits_back] at third
  unfold decodeMetadata encodeMetadata
  rw [decode_encodeMessage]
  simp only [metadataFields,List.foldlM_append,first,second,third,fourth,Option.bind_eq_bind,Option.bind_some]

def mergeOutput (output : Output) (field : Field) : Option Output :=
  match field.number,field.value with
  | 1,.varint value => some {output with amount := some (UInt64.ofNat value)}
  | 2,.delimited raw => some {output with script := raw}
  | number,_ => if known 2 number then none else some output

def mergePayment (payment : Payment) (field : Field) : Option Payment :=
  match field.number,field.value with
  | 1,.delimited raw => some {payment with merchantData := some raw}
  | 2,.delimited raw => some {payment with transactions := payment.transactions ++ [raw]}
  | 3,.delimited raw => (decodeMessage mergeOutput ⟨none,[]⟩ raw).map fun output =>
      {payment with refundTo := payment.refundTo ++ [output]}
  | 4,.delimited raw => (fromUtf8 raw).map fun memo => {payment with memo := some memo}
  | number,_ => if known 4 number then none else some payment

def decodePayment : Bytes → Option Payment := decodeMessage mergePayment ⟨none,[],[],none⟩

-- Fields with presence are written whenever they are set.
def optionalBytes (number : Nat) (raw : Option Bytes) : List Field := (raw.map fun raw => ⟨number,.delimited raw⟩).toList
def optionalString (number : Nat) (text : Option String) : List Field := optionalBytes number (text.map utf8)
def optionalVarint (number : Nat) (value : Option Nat) : List Field := (value.map fun value => ⟨number,.varint value⟩).toList

def outputField (number : Nat) (output : Output) : Field :=
  ⟨number,.delimited (encodeFields (optionalVarint 1 (output.amount.map (·.toNat)) ++ [⟨2,.delimited output.script⟩]))⟩

def paymentFields (payment : Payment) : List Field :=
  optionalBytes 1 payment.merchantData ++ payment.transactions.map (⟨2,.delimited ·⟩) ++
    payment.refundTo.map (outputField 3) ++ optionalString 4 payment.memo

def encodePaymentAck (ack : PaymentAck) : Bytes :=
  encodeFields (⟨1,.delimited (encodeFields (paymentFields ack.payment))⟩ :: optionalString 2 ack.memo)

def encodePaymentDetails (details : PaymentDetails) : Bytes :=
  encodeFields (optionalString 1 details.network ++ details.outputs.map (outputField 2) ++
    [⟨3,.varint details.time.toNat⟩] ++ optionalVarint 4 (details.expires.map (·.toNat)) ++ optionalString 5 details.memo ++
    optionalString 6 details.paymentUrl ++ optionalBytes 7 details.merchantData)

def encodePaymentRequest (request : PaymentRequest) : Bytes :=
  encodeFields (optionalVarint 1 (request.paymentDetailsVersion.map (·.toNat)) ++ optionalString 2 request.pkiType ++
    optionalBytes 3 request.pkiData ++ [⟨4,.delimited request.serializedPaymentDetails⟩] ++ optionalBytes 5 request.signature)

def onWire (crates : Crates) : Crates :=
  {crates with
    decodeMetadata := decodeMetadata
    encodeMetadata := encodeMetadata
    decodePayload := decodePayload
    decodePayment := decodePayment
    encodePaymentAck := encodePaymentAck
    encodePaymentDetails := encodePaymentDetails
    encodePaymentRequest := encodePaymentRequest}

theorem onWire_roundTrips (crates : Crates) : (onWire crates).RoundTrips := decode_encodeMetadata

end Keyserver.WireMessages
