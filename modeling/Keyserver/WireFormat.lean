import Mathlib.Algebra.Group.Nat.Defs

namespace WireFormat

abbrev Raw := List UInt8

-- Base-128 numbers, seven bits a byte, lowest first.
def groups : Nat → Nat → Raw
  | 0,value => [UInt8.ofNat value]
  | more + 1,value => UInt8.ofNat (value % 128 + 128) :: groups more (value / 128)

def encodeVarint (value : Nat) : Raw := groups (value.log2 / 7) value

def decodeVarint : Raw → Option (Nat × Raw)
  | [] => none
  | byte :: rest =>
    if byte.toNat < 128 then some (byte.toNat,rest)
    else (decodeVarint rest).map fun (high,rest) => (byte.toNat - 128 + 128 * high,rest)

theorem decode_groups {more value : Nat} (bound : value < 128 ^ (more + 1)) (rest : Raw) :
    decodeVarint (groups more value ++ rest) = some (value,rest) := by
  induction more generalizing value with
  | zero =>
    have small : value < 128 := by simpa using bound
    have byte : (UInt8.ofNat value).toNat = value := by
      rw [UInt8.toNat_ofNat']
      omega
    simp [groups,decodeVarint,small,byte]
  | succ more ih =>
    have high : value / 128 < 128 ^ (more + 1) := by
      rw [Nat.div_lt_iff_lt_mul (by decide),← Nat.pow_succ]
      exact bound
    have byte : (UInt8.ofNat (value % 128 + 128)).toNat = value % 128 + 128 := by
      rw [UInt8.toNat_ofNat']
      omega
    have large : ¬ value % 128 + 128 < 128 := by omega
    simp only [groups,List.cons_append,decodeVarint,byte,large,if_false,ih high,Option.map_some,Option.some.injEq,
      Prod.mk.injEq,and_true]
    omega

theorem decode_encodeVarint (value : Nat) (rest : Raw) :
    decodeVarint (encodeVarint value ++ rest) = some (value,rest) := by
  apply decode_groups
  calc value < 2 ^ (value.log2 + 1) := Nat.lt_log2_self
    _ ≤ 2 ^ (7 * (value.log2 / 7 + 1)) := Nat.pow_le_pow_right (by decide) (by omega)
    _ = 128 ^ (value.log2 / 7 + 1) := by rw [Nat.pow_mul]

-- A field carries its number and one of the four payload shapes.
inductive Value where
  | varint (value : Nat)
  | fixed64 (raw : {raw : Raw // raw.length = 8})
  | delimited (raw : Raw)
  | fixed32 (raw : {raw : Raw // raw.length = 4})
  deriving DecidableEq

structure Field where
  number : Nat
  value : Value
  deriving DecidableEq

def Value.wireType : Value → Nat
  | .varint _ => 0
  | .fixed64 _ => 1
  | .delimited _ => 2
  | .fixed32 _ => 5

def Value.encode : Value → Raw
  | .varint value => encodeVarint value
  | .fixed64 raw => raw.1
  | .delimited raw => encodeVarint raw.length ++ raw
  | .fixed32 raw => raw.1

def takeExact (count : Nat) (raw : Raw) : Option ({raw : Raw // raw.length = count} × Raw) :=
  if enough : count ≤ raw.length then some (⟨raw.take count,by simp [enough]⟩,raw.drop count) else none

def Value.decode (wireType : Nat) (raw : Raw) : Option (Value × Raw) :=
  match wireType with
  | 0 => (decodeVarint raw).map fun (value,rest) => (.varint value,rest)
  | 1 => (takeExact 8 raw).map fun (fixed,rest) => (.fixed64 fixed,rest)
  | 2 => (decodeVarint raw).bind fun (count,rest) =>
      (takeExact count rest).map fun (content,rest) => (.delimited content.1,rest)
  | 5 => (takeExact 4 raw).map fun (fixed,rest) => (.fixed32 fixed,rest)
  | _ => none

theorem takeExact_append {count : Nat} (fixed : {raw : Raw // raw.length = count}) (rest : Raw) :
    takeExact count (fixed.1 ++ rest) = some (fixed,rest) := by
  obtain ⟨raw,rfl⟩ := fixed
  simp [takeExact]

theorem decode_encodeValue (value : Value) (rest : Raw) :
    Value.decode value.wireType (value.encode ++ rest) = some (value,rest) := by
  cases value with
  | varint value => simp [Value.wireType,Value.decode,Value.encode,decode_encodeVarint]
  | fixed64 raw => simp [Value.wireType,Value.decode,Value.encode,takeExact_append]
  | delimited raw =>
    have exact := takeExact_append ⟨raw,rfl⟩ rest
    simp only [Value.wireType,Value.decode,Value.encode,List.append_assoc,decode_encodeVarint,Option.bind_some]
    simp [exact]
  | fixed32 raw => simp [Value.wireType,Value.decode,Value.encode,takeExact_append]

def Field.encode (field : Field) : Raw := encodeVarint (8 * field.number + field.value.wireType) ++ field.value.encode

def encodeFields (fields : List Field) : Raw := fields.flatMap Field.encode

-- A field takes at least one byte, so the bytes bound the fields.
def decodeWithin : Nat → Raw → Option (List Field)
  | _,[] => some []
  | 0,_ :: _ => none
  | fuel + 1,raw => do
    let (tag,rest) ← decodeVarint raw
    let (value,rest) ← Value.decode (tag % 8) rest
    let fields ← decodeWithin fuel rest
    return ⟨tag / 8,value⟩ :: fields

def decodeFields (raw : Raw) : Option (List Field) := decodeWithin raw.length raw

theorem encodeVarint_nonempty (value : Nat) : 1 ≤ (encodeVarint value).length := by
  unfold encodeVarint
  cases value.log2 / 7 <;> simp [groups]

theorem decodeWithin_step {fuel : Nat} {raw : Raw} (nonempty : 1 ≤ raw.length) :
    decodeWithin (fuel + 1) raw = do
      let (tag,rest) ← decodeVarint raw
      let (value,rest) ← Value.decode (tag % 8) rest
      let fields ← decodeWithin fuel rest
      return ⟨tag / 8,value⟩ :: fields := by
  cases raw with
  | nil => simp at nonempty
  | cons byte rest => rfl

theorem decode_encodeWithin {fields : List Field} {fuel : Nat} (enough : (encodeFields fields).length ≤ fuel) :
    decodeWithin fuel (encodeFields fields) = some fields := by
  induction fields generalizing fuel with
  | nil => cases fuel <;> rfl
  | cons field rest ih =>
    have positive := encodeVarint_nonempty (8 * field.number + field.value.wireType)
    have whole : encodeFields (field :: rest) = encodeVarint (8 * field.number + field.value.wireType) ++
        (field.value.encode ++ encodeFields rest) := by
      simp [encodeFields,Field.encode]
    rw [whole,List.length_append,List.length_append] at enough
    cases fuel with
    | zero => omega
    | succ fuel =>
      have small : field.value.wireType < 8 := by cases field.value <;> simp [Value.wireType]
      have kind : (8 * field.number + field.value.wireType) % 8 = field.value.wireType := by omega
      have number : (8 * field.number + field.value.wireType) / 8 = field.number := by omega
      have tail := @ih fuel (by omega)
      rw [whole,decodeWithin_step (by rw [List.length_append]; omega),decode_encodeVarint]
      simp only [Option.bind_eq_bind,Option.bind_some,kind,number,decode_encodeValue,tail]
      rfl

theorem decode_encodeFields (fields : List Field) : decodeFields (encodeFields fields) = some fields :=
  decode_encodeWithin (Nat.le_refl _)

section Messages
variable {Message : Type}

-- A message is what its fields, one after another, make of the default.
def decodeMessage (merge : Message → Field → Option Message) (start : Message) (raw : Raw) : Option Message :=
  (decodeFields raw).bind fun fields => fields.foldlM merge start

-- Fields without presence: a default value is left out.
def bytesField (number : Nat) (raw : Raw) : List Field := if raw = [] then [] else [⟨number,.delimited raw⟩]
def varintField (number value : Nat) : List Field := if value = 0 then [] else [⟨number,.varint value⟩]

variable {merge : Message → Field → Option Message}

theorem decode_encodeMessage (start : Message) (fields : List Field) :
    decodeMessage merge start (encodeFields fields) = fields.foldlM merge start := by
  rw [decodeMessage,decode_encodeFields,Option.bind_some]

theorem merge_bytesField {number : Nat} {set : Raw → Message}
    (merged : ∀ raw, merge (set []) ⟨number,.delimited raw⟩ = some (set raw)) (raw : Raw) :
    (bytesField number raw).foldlM merge (set []) = some (set raw) := by
  unfold bytesField
  split
  · rename_i default
    rw [default]
    rfl
  · simp [merged raw]

theorem merge_varintField {number : Nat} {set : Nat → Message}
    (merged : ∀ value, merge (set 0) ⟨number,.varint value⟩ = some (set value)) (value : Nat) :
    (varintField number value).foldlM merge (set 0) = some (set value) := by
  unfold varintField
  split
  · rename_i default
    rw [default]
    rfl
  · simp [merged value]

end Messages

end WireFormat
