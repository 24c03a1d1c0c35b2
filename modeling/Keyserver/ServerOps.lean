import Mathlib.Data.Finset.Basic
import Keyserver.SharedPools
import Keyserver.ServerErrors

namespace Keyserver
open SharedPrograms SharedPools

structure RpcRequest where
  method : String
  params : List String
  deriving DecidableEq, Repr

structure RpcResponse where
  result : Option (Except String String)
  error : Option String
  deriving DecidableEq

-- The atomic operations of the handlers: one RocksDB call, one clock reading,
-- one acquisition of the wallet lock, one answer of the node or of a peer, the
-- peering delay, and the entry of the service that the payment check wraps. A
-- compaction reads a stored version and later drops that version, no newer one.
inductive Op where
  | dbGet (key : Bytes)
  | dbPut (key value : Bytes)
  | dbDelete (key : Bytes)
  | compactionRead (key : Bytes)
  | compactionDrop (key value : Bytes)
  | now
  | walletContains (addr : Bytes)
  | walletInsert (addr : Bytes)
  | walletRemove (addr : Bytes)
  | rpcSend (request : RpcRequest)
  | httpGet (url : Url)
  | delayFor (secs : Nat)
  | serviceCall (method : Method) (scheme host path : String)
  deriving DecidableEq, Repr

abbrev Reply : Op → Type
  | .dbGet _ => Except RocksError (Option Bytes)
  | .dbPut _ _ => Except RocksError Unit
  | .dbDelete _ => Except RocksError Unit
  | .compactionRead _ => Option Bytes
  | .compactionDrop _ _ => Unit
  | .now => Clock
  | .walletContains _ => Bool
  | .walletInsert _ => Bool
  | .walletRemove _ => Bool
  | .rpcSend _ => Except String RpcResponse
  | .httpGet _ => Except String Bytes
  | .delayFor _ => Unit
  | .serviceCall _ _ _ _ => Unit

instance : (op : Op) → DecidableEq (Reply op)
  | .dbGet _ => inferInstanceAs (DecidableEq (Except RocksError (Option Bytes)))
  | .dbPut _ _ | .dbDelete _ => inferInstanceAs (DecidableEq (Except RocksError Unit))
  | .compactionRead _ => inferInstanceAs (DecidableEq (Option Bytes))
  | .compactionDrop _ _ | .delayFor _ | .serviceCall _ _ _ _ => inferInstanceAs (DecidableEq Unit)
  | .now => inferInstanceAs (DecidableEq Clock)
  | .walletContains _ | .walletInsert _ | .walletRemove _ => inferInstanceAs (DecidableEq Bool)
  | .rpcSend _ => inferInstanceAs (DecidableEq (Except String RpcResponse))
  | .httpGet _ => inferInstanceAs (DecidableEq (Except String Bytes))

inductive Panic where
  | storedMetadata
  | storedPayload
  | overflow
  | message
  | slice
  deriving DecidableEq, Repr

abbrev Prog (Error α : Type) := Program Reply Panic Error α

section Calls
variable {Error : Type}

def rocksGet (key : Bytes) : Prog RocksError (Option Bytes) := .call (.dbGet key) Program.fromResult
def rocksPut (key value : Bytes) : Prog RocksError Unit := .call (.dbPut key value) Program.fromResult
def rocksDelete (key : Bytes) : Prog RocksError Unit := .call (.dbDelete key) Program.fromResult
def systemTimeNow : Prog Error Clock := .call .now .done
def httpGet (url : Url) : Prog String Bytes := .call (.httpGet url) Program.fromResult
def delayFor (secs : Nat) : Prog Error Unit := .call (.delayFor secs) .done
def rpcSend (request : RpcRequest) : Prog String RpcResponse := .call (.rpcSend request) Program.fromResult

end Calls

structure Shared where
  db : Bytes → Option Bytes
  wallet : Finset Bytes
  clock : Clock

def Shared.store (s : Shared) (key : Bytes) (value : Option Bytes) : Shared :=
  {s with db := fun other => if other = key then value else s.db other}

@[simp] theorem store_same (s : Shared) (key : Bytes) (value : Option Bytes) : (s.store key value).db key = value := by
  simp [Shared.store]
theorem store_other (s : Shared) {key other : Bytes} (value : Option Bytes) (different : other ≠ key) :
    (s.store key value).db other = s.db other := by
  simp [Shared.store,different]

-- The effect of one operation that got this reply. Any RocksDB call may fail and
-- then changes nothing; the node and the peers may answer anything.
def answer (s : Shared) : (op : Op) → Reply op → Option Shared
  | .dbGet _,.error _ => some s
  | .dbGet key,.ok value => if value = s.db key then some s else none
  | .dbPut _ _,.error _ => some s
  | .dbPut key value,.ok () => some (s.store key (some value))
  | .dbDelete _,.error _ => some s
  | .dbDelete key,.ok () => some (s.store key none)
  | .compactionRead key,value => if value = s.db key then some s else none
  | .compactionDrop key value,() => if s.db key = some value then some (s.store key none) else some s
  | .now,clock => if clock = s.clock then some s else none
  | .walletContains addr,present => if present = decide (addr ∈ s.wallet) then some s else none
  | .walletInsert addr,fresh =>
    if fresh = decide (addr ∉ s.wallet) then some {s with wallet := insert addr s.wallet} else none
  | .walletRemove addr,present =>
    if present = decide (addr ∈ s.wallet) then some {s with wallet := s.wallet.erase addr} else none
  | .rpcSend _,_ => some s
  | .httpGet _,_ => some s
  | .delayFor _,() => some s
  | .serviceCall _ _ _ _,() => some s

inductive Effect (s : Shared) : Event Reply → Shared → Prop where
  | read : Effect s ⟨.dbGet key,.ok (s.db key)⟩ s
  | readFailed : Effect s ⟨.dbGet key,.error err⟩ s
  | put : Effect s ⟨.dbPut key value,.ok ()⟩ (s.store key (some value))
  | putFailed : Effect s ⟨.dbPut key value,.error err⟩ s
  | delete : Effect s ⟨.dbDelete key,.ok ()⟩ (s.store key none)
  | deleteFailed : Effect s ⟨.dbDelete key,.error err⟩ s
  | compactionRead : Effect s ⟨.compactionRead key,s.db key⟩ s
  | compactionDrop (current : s.db key = some value) : Effect s ⟨.compactionDrop key value,()⟩ (s.store key none)
  | compactionKeep (replaced : s.db key ≠ some value) : Effect s ⟨.compactionDrop key value,()⟩ s
  | now : Effect s ⟨.now,s.clock⟩ s
  | contains : Effect s ⟨.walletContains addr,decide (addr ∈ s.wallet)⟩ s
  | insert : Effect s ⟨.walletInsert addr,decide (addr ∉ s.wallet)⟩ {s with wallet := insert addr s.wallet}
  | remove : Effect s ⟨.walletRemove addr,decide (addr ∈ s.wallet)⟩ {s with wallet := s.wallet.erase addr}
  | rpc : Effect s ⟨.rpcSend request,response⟩ s
  | fetch : Effect s ⟨.httpGet url,result⟩ s
  | delay : Effect s ⟨.delayFor secs,()⟩ s
  | service : Effect s ⟨.serviceCall method scheme host path,()⟩ s

theorem answer_effect {s next : Shared} {op : Op} {reply : Reply op} (answered : answer s op reply = some next) :
    Effect s ⟨op,reply⟩ next := by
  cases op with
  | dbGet key =>
    rcases reply with err | value
    · cases answered
      exact .readFailed
    · simp only [answer] at answered
      split at answered
      · rename_i same
        cases answered
        rw [same]
        exact .read
      · cases answered
  | dbPut key value => rcases reply with err | done <;> cases answered <;> constructor
  | dbDelete key => rcases reply with err | done <;> cases answered <;> constructor
  | compactionDrop key value =>
    simp only [answer] at answered
    split at answered
    · rename_i current
      cases answered
      exact .compactionDrop current
    · rename_i replaced
      cases answered
      exact .compactionKeep replaced
  | compactionRead key | now | walletContains addr | walletInsert addr | walletRemove addr =>
    simp only [answer] at answered
    split at answered
    · rename_i same
      cases answered
      rw [same]
      constructor
    · cases answered
  | rpcSend request | httpGet url | delayFor secs | serviceCall method scheme host path =>
    cases answered
    constructor

theorem Effect.stored {s next : Shared} {event : Event Reply} (effect : Effect s event next) :
    next.db = s.db ∨ (∃ key value, event = ⟨.dbPut key value,.ok ()⟩ ∧ next = s.store key (some value)) ∨
      ∃ key value, (event = ⟨.dbDelete key,.ok ()⟩ ∨ event = ⟨.compactionDrop key value,()⟩ ∧ s.db key = some value) ∧
        next = s.store key none := by
  cases effect with
  | @put key value => exact .inr (.inl ⟨key,value,rfl,rfl⟩)
  | @delete key => exact .inr (.inr ⟨key,[],.inl rfl,rfl⟩)
  | @compactionDrop key value current => exact .inr (.inr ⟨key,value,.inr ⟨rfl,current⟩,rfl⟩)
  | _ => exact .inl rfl

theorem Effect.clock {s next : Shared} {event : Event Reply} (effect : Effect s event next) : next.clock = s.clock := by
  cases effect <;> rfl

section Answered
variable {s next : Shared}

theorem granted {P : Prop} [Decidable P] (answered : (if P then some s else none) = some next) : P ∧ next = s := by
  split at answered
  · rename_i met
    exact ⟨met,(Option.some.inj answered).symm⟩
  · cases answered

theorem answer_get {key : Bytes} {value : Option Bytes} (answered : answer s (.dbGet key) (.ok value) = some next) :
    value = s.db key ∧ next = s := granted answered

theorem answer_compactionRead {key : Bytes} {value : Option Bytes}
    (answered : answer s (.compactionRead key) value = some next) : value = s.db key ∧ next = s := granted answered

theorem answer_now {clock : Clock} (answered : answer s .now clock = some next) : clock = s.clock ∧ next = s :=
  granted answered

end Answered

end Keyserver
