import Mathlib.Algebra.Group.Nat.Defs
import Mathlib.Data.List.Basic

namespace SharedPushes

abbrev Script := List UInt8

-- What a script does at one position: push bytes, or any other operation.
inductive Item where
  | push (data : Script)
  | op (code : UInt8)
  deriving DecidableEq, Repr

-- The first `n` bytes and the rest, where there are that many.
def cut (n : Nat) (script : Script) : Option (Script × Script) :=
  if n ≤ script.length then some (script.take n,script.drop n) else none

def littleEndian : Script → Nat
  | [] => 0
  | low :: high => low.toNat + 256 * littleEndian high

def sizeBytes : Nat → Nat → Script
  | 0,_ => []
  | width + 1,n => UInt8.ofNat n :: sizeBytes width (n / 256)

-- A push whose length stands in the next `width` bytes.
def readSized (width : Nat) (script : Script) : Option (Item × Script) :=
  (cut width script).bind fun (size,rest) => (cut (littleEndian size) rest).map fun (data,left) => (.push data,left)

def readItem : Script → Option (Item × Script)
  | [] => none
  | code :: rest =>
    if code.toNat ≤ 75 then (cut code.toNat rest).map fun (data,left) => (.push data,left)
    else if code = 76 then readSized 1 rest
    else if code = 77 then readSized 2 rest
    else if code = 78 then readSized 4 rest
    else some (.op code,rest)

inductive Reads : Script → List Item → Prop where
  | done : Reads [] []
  | item (read : readItem script = some (item,left)) (rest : Reads left items) : Reads script (item :: items)

-- The shortest header that announces so many bytes.
def header (n : Nat) : Script :=
  if n ≤ 75 then [UInt8.ofNat n]
  else if n < 256 then 76 :: sizeBytes 1 n
  else if n < 65536 then 77 :: sizeBytes 2 n
  else 78 :: sizeBytes 4 n

def pushBytes (data : Script) : Script := header data.length ++ data

variable {script rest data : Script} {code : UInt8}

theorem cut_append {n : Nat} (same : n = data.length) : cut n (data ++ rest) = some (data,rest) := by
  subst same
  simp [cut]

theorem cut_some {n : Nat} (parts : cut n script = some (data,rest)) : data.length = n ∧ script = data ++ rest := by
  unfold cut at parts
  split at parts
  · rename_i enough
    cases parts
    exact ⟨List.length_take_of_le enough,(List.take_append_drop n script).symm⟩
  · cases parts

@[simp] theorem sizeBytes_length (width n : Nat) : (sizeBytes width n).length = width := by
  induction width generalizing n with
  | zero => rfl
  | succ width ih => rw [sizeBytes,List.length_cons,ih]

theorem littleEndian_sizeBytes {width n : Nat} (short : n < 256 ^ width) : littleEndian (sizeBytes width n) = n := by
  induction width generalizing n with
  | zero =>
    obtain rfl : n = 0 := by simpa using short
    rfl
  | succ width ih =>
    have high : n / 256 < 256 ^ width := by
      apply (Nat.div_lt_iff_lt_mul (by decide)).mpr
      rwa [← Nat.pow_succ]
    rw [sizeBytes,littleEndian,ih high,UInt8.toNat_ofNat']
    exact Nat.mod_add_div n 256

theorem readSized_sizeBytes {width : Nat} (short : data.length < 256 ^ width) :
    readSized width (sizeBytes width data.length ++ data ++ rest) = some (.push data,rest) := by
  rw [readSized,List.append_assoc,cut_append (sizeBytes_length width data.length).symm]
  simp only [Option.bind_some,cut_append (littleEndian_sizeBytes short),Option.map_some]

@[simp] theorem readItem_one : readItem (76 :: script) = readSized 1 script := by simp [readItem]
@[simp] theorem readItem_two : readItem (77 :: script) = readSized 2 script := by simp [readItem]
@[simp] theorem readItem_four : readItem (78 :: script) = readSized 4 script := by simp [readItem]

-- Every push that fits four bytes of length reads back as it was written.
theorem readItem_pushBytes (short : data.length < 256 ^ 4) : readItem (pushBytes data ++ rest) = some (.push data,rest) := by
  unfold pushBytes header
  split
  · rename_i direct
    have count : (UInt8.ofNat data.length).toNat = data.length := by
      rw [UInt8.toNat_ofNat']
      omega
    simp only [List.cons_append,List.nil_append,readItem,count,direct,if_true,cut_append rfl,Option.map_some]
  · split
    · rename_i one
      rw [List.cons_append,List.cons_append,readItem_one]
      exact readSized_sizeBytes one
    · split
      · rename_i two
        rw [List.cons_append,List.cons_append,readItem_two]
        exact readSized_sizeBytes two
      · rw [List.cons_append,List.cons_append,readItem_four]
        exact readSized_sizeBytes short

-- One byte announces all the bytes after it just where it is their number and
-- small enough not to be another opcode.
theorem readItem_whole : readItem (code :: data) = some (.push data,[]) ↔ code.toNat = data.length ∧ data.length ≤ 75 := by
  have sized : ∀ width, 1 ≤ width → readSized width data ≠ some (.push data,[]) := by
    intro width positive read
    unfold readSized at read
    obtain ⟨⟨size,tail⟩,first,second⟩ := Option.bind_eq_some_iff.mp read
    obtain ⟨⟨body,left⟩,parts,same⟩ := Option.map_eq_some_iff.mp second
    simp only [Prod.mk.injEq,Item.push.injEq] at same
    obtain ⟨rfl,rfl⟩ := same
    obtain ⟨count,shape⟩ := cut_some first
    obtain ⟨-,tail'⟩ := cut_some parts
    have lengths := congrArg List.length shape
    rw [tail',List.append_nil,List.length_append] at lengths
    omega
  constructor
  · intro read
    simp only [readItem] at read
    split at read
    · rename_i direct
      obtain ⟨⟨body,left⟩,parts,same⟩ := Option.map_eq_some_iff.mp read
      simp only [Prod.mk.injEq,Item.push.injEq] at same
      obtain ⟨rfl,rfl⟩ := same
      obtain ⟨count,-⟩ := cut_some parts
      omega
    · split at read
      · exact absurd read (sized 1 (by omega))
      · split at read
        · exact absurd read (sized 2 (by omega))
        · split at read
          · exact absurd read (sized 4 (by omega))
          · simp at read
  · intro announced
    obtain ⟨count,short⟩ := announced
    have parts : cut data.length data = some (data,[]) := by
      have whole := @cut_append [] data data.length rfl
      rwa [List.append_nil] at whole
    simp only [readItem,count,short,if_true,parts,Option.map_some]

theorem header_length {n : Nat} (long : 75 < n) : 2 ≤ (header n).length := by
  have direct : ¬ n ≤ 75 := by omega
  simp only [header,direct,if_false]
  split
  · simp
  · split <;> simp

theorem pushBytes_short (short : data.length ≤ 75) : pushBytes data = UInt8.ofNat data.length :: data := by
  simp [pushBytes,header,short]

end SharedPushes
