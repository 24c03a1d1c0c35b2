import Keyserver.Authentication

namespace Keyserver.KeyDb
open SharedPrograms SharedPrograms.Program

inductive CompactionDecision where
  | keep
  | remove
  deriving DecidableEq, Repr

section Source
variable (d : Deployment) {Error : Type}

-- The i64 sum the code compares with the clock: none where it panics.
def expiry (payload : Payload) : Option Int64 :=
  let sum := payload.timestamp + payload.ttl
  if d.overflowChecks ∧ sum.toInt ≠ payload.timestamp.toInt + payload.ttl.toInt then none else some sum

def expired (payload : Payload) : Prog Error Bool := do
  let timestamp ← systemTimeNow
  let sum ← unwrap .overflow (expiry d payload)
  return decide (sum < timestamp.asI64)

def ttlFilter (value : Bytes) : Prog Error CompactionDecision := do
  let metadata ← unwrap .storedMetadata (d.crates.decodeMetadata value)
  let payload ← unwrap .storedPayload (d.crates.decodePayload metadata.serializedPayload)
  if ← expired d payload then return .remove else return .keep

-- RocksDB runs the filter on a version it compacts and drops it if told to.
def compact (key : Bytes) : Prog Error Unit :=
  .call (.compactionRead key) fun
    | none => .done ()
    | some value => do
      match ← ttlFilter d value with
      | .remove => .call (.compactionDrop key value) .done
      | .keep => .done ()

def put (addr : Address) (metadata : AddressMetadata) : Prog RocksError Unit :=
  rocksPut addr.body (d.crates.encodeMetadata metadata)

def get (addr : Address) : Prog RocksError (Option AddressMetadata) := do
  match ← rocksGet addr.body with
  | none => return none
  | some dat =>
    let metadata ← unwrap .storedMetadata (d.crates.decodeMetadata dat)
    let payload ← unwrap .storedPayload (d.crates.decodePayload metadata.serializedPayload)
    if ← expired d payload then
      rocksDelete addr.body
      return none
    else return some metadata

def checkTimestamp (addr : Address) (newPayload : Payload) : Prog RocksError (Except ValidationError Unit) := do
  match ← get d addr with
  | none => return .ok ()
  | some oldMetadata =>
    let oldPayload ← unwrap .storedPayload (d.crates.decodePayload oldMetadata.serializedPayload)
    if newPayload.timestamp < oldPayload.timestamp then return .error .outdated
    else if ← expired d newPayload then return .error .expiredTtl
    else return .ok ()

end Source

def expiredAt (d : Deployment) (payload : Payload) (clock : Clock) : Option Bool :=
  (expiry d payload).map fun sum => decide (sum < clock.asI64)

-- An expired payload stays expired, whether or not its expiry wrapped around.
theorem expiredAt_later {d : Deployment} {payload : Payload} {earlier later : Clock}
    (stale : expiredAt d payload earlier = some true) (order : earlier ≤ later) :
    expiredAt d payload later = some true := by
  unfold expiredAt at *
  cases sum : expiry d payload with
  | none => simp [sum] at stale
  | some sum =>
    simp only [sum,Option.map_some,Option.some.injEq,decide_eq_true_eq,Int64.lt_iff_toInt_lt,
      Clock.toInt_asI64] at *
    have bound : earlier.secs ≤ later.secs := order
    omega

def storedPayload (d : Deployment) (raw : Bytes) : Option Payload :=
  (d.crates.decodeMetadata raw).bind fun metadata => d.crates.decodePayload metadata.serializedPayload

def Readable (d : Deployment) (raw : Bytes) : Prop := (storedPayload d raw).isSome = true

-- The decode `unwrap` that bytes of the store do not pass.
inductive Undecodable (d : Deployment) (raw : Bytes) : Panic → Prop where
  | metadata (undecoded : d.crates.decodeMetadata raw = none) : Undecodable d raw .storedMetadata
  | payload (decoded : d.crates.decodeMetadata raw = some metadata)
      (undecoded : d.crates.decodePayload metadata.serializedPayload = none) : Undecodable d raw .storedPayload

theorem Undecodable.unreadable {d : Deployment} {raw : Bytes} {fault : Panic} (garbled : Undecodable d raw fault) :
    ¬ Readable d raw := by
  cases garbled with
  | metadata undecoded => simp [Readable,storedPayload,undecoded]
  | payload decoded undecoded => simp [Readable,storedPayload,decoded,undecoded]

def Stale (d : Deployment) (raw : Bytes) (clock : Clock) : Prop :=
  (storedPayload d raw).bind (expiredAt d · clock) = some true

instance (d : Deployment) (raw : Bytes) (clock : Clock) : Decidable (Stale d raw clock) :=
  inferInstanceAs (Decidable (_ = _))

theorem Stale.later {d : Deployment} {raw : Bytes} {earlier later : Clock}
    (stale : Stale d raw earlier) (order : earlier ≤ later) : Stale d raw later := by
  unfold Stale at *
  cases read : storedPayload d raw with
  | none => simp [read] at stale
  | some payload =>
    simp only [read,Option.bind_some] at *
    exact expiredAt_later stale order

end Keyserver.KeyDb
