import Keyserver.KeyHandlers

namespace Keyserver.KeyProtocol
open SharedPrograms SharedPrograms.Program Authentication KeyDb KeyHandlers

abbrev Past := List (Event Reply)

-- Bytes that some decode `unwrap` would refuse were read from the store.
def Garbled (d : Deployment) (past : Past) : Prop :=
  ∃ key raw, (⟨.dbGet key,.ok (some raw)⟩ ∈ past ∨ ⟨.compactionRead key,some raw⟩ ∈ past) ∧ ¬ Readable d raw

section Paths
variable (d : Deployment) (key : Bytes)

-- Every way through `KeyDB::get`: the operations it performs and what it returns.
inductive GetPath (past : Past) : Past → Outcome Panic RocksError (Option AddressMetadata) → Prop where
  | failed : GetPath past (past ++ [⟨.dbGet key,.error err⟩]) (.thrown err)
  | absent : GetPath past (past ++ [⟨.dbGet key,.ok none⟩]) (.returned none)
  | unreadable (garbled : Undecodable d raw fault) : GetPath past (past ++ [⟨.dbGet key,.ok (some raw)⟩]) (.panicked fault)
  | overflow (read : storedPayload d raw = some payload) (overflows : expiry d payload = none) :
      GetPath past (past ++ [⟨.dbGet key,.ok (some raw)⟩] ++ [⟨.now,clock⟩]) (.panicked .overflow)
  | lapsed (stale : Stale d raw clock) :
      GetPath past (past ++ [⟨.dbGet key,.ok (some raw)⟩] ++ [⟨.now,clock⟩] ++ [⟨.dbDelete key,.ok ()⟩])
        (.returned none)
  | deleteFailed (stale : Stale d raw clock) :
      GetPath past (past ++ [⟨.dbGet key,.ok (some raw)⟩] ++ [⟨.now,clock⟩] ++ [⟨.dbDelete key,.error err⟩])
        (.thrown err)
  | current (decoded : d.crates.decodeMetadata raw = some metadata)
      (read : d.crates.decodePayload metadata.serializedPayload = some payload)
      (unexpired : expiredAt d payload clock = some false) :
      GetPath past (past ++ [⟨.dbGet key,.ok (some raw)⟩] ++ [⟨.now,clock⟩]) (.returned (some metadata))

inductive CheckPath (payload : Payload) (past : Past) :
    Past → Outcome Panic RocksError (Except ValidationError Unit) → Prop where
  | failed (got : GetPath d key past later (.thrown err)) : CheckPath payload past later (.thrown err)
  | panicked (got : GetPath d key past later (.panicked fault)) : CheckPath payload past later (.panicked fault)
  | absent (got : GetPath d key past later (.returned none)) : CheckPath payload past later (.returned (.ok ()))
  | outdated (got : GetPath d key past later (.returned (some old)))
      (read : d.crates.decodePayload old.serializedPayload = some oldPayload)
      (older : payload.timestamp < oldPayload.timestamp) : CheckPath payload past later (.returned (.error .outdated))
  | overflow (got : GetPath d key past later (.returned (some old)))
      (read : d.crates.decodePayload old.serializedPayload = some oldPayload)
      (order : ¬ payload.timestamp < oldPayload.timestamp) (overflows : expiry d payload = none) :
      CheckPath payload past (later ++ [⟨.now,clock⟩]) (.panicked .overflow)
  | expired (got : GetPath d key past later (.returned (some old)))
      (read : d.crates.decodePayload old.serializedPayload = some oldPayload)
      (order : ¬ payload.timestamp < oldPayload.timestamp) (stale : expiredAt d payload clock = some true) :
      CheckPath payload past (later ++ [⟨.now,clock⟩]) (.returned (.error .expiredTtl))
  | newer (got : GetPath d key past later (.returned (some old)))
      (read : d.crates.decodePayload old.serializedPayload = some oldPayload)
      (order : ¬ payload.timestamp < oldPayload.timestamp) (unexpired : expiredAt d payload clock = some false) :
      CheckPath payload past (later ++ [⟨.now,clock⟩]) (.returned (.ok ()))

inductive StorePath {Error : Type} (metadata : AddressMetadata) (payload : Payload) (past : Past) :
    Past → Outcome Panic Error PeerExit → Prop where
  | checkFailed (checked : CheckPath d key payload past later (.thrown err)) :
      StorePath metadata payload past later (.returned (.checkFailed err))
  | panicked (checked : CheckPath d key payload past later (.panicked fault)) :
      StorePath metadata payload past later (.panicked fault)
  | refused (checked : CheckPath d key payload past later (.returned (.error err))) :
      StorePath metadata payload past later (.returned (.outdated err))
  | putFailed (checked : CheckPath d key payload past later (.returned (.ok ()))) :
      StorePath metadata payload past (later ++ [⟨.dbPut key (d.crates.encodeMetadata metadata),.error err⟩])
        (.returned (.putFailed err))
  | stored (checked : CheckPath d key payload past later (.returned (.ok ()))) :
      StorePath metadata payload past (later ++ [⟨.dbPut key (d.crates.encodeMetadata metadata),.ok ()⟩])
        (.returned .stored)

-- The readings after which `check_timestamp` lets a payload replace the entry.
inductive Cleared (payload : Payload) : Past → Prop where
  | absent : Cleared payload (before ++ [⟨.dbGet key,.ok none⟩])
  | lapsed (stale : Stale d raw clock) :
      Cleared payload (before ++ [⟨.dbGet key,.ok (some raw)⟩] ++ [⟨.now,clock⟩] ++ [⟨.dbDelete key,.ok ()⟩])
  | newer (read : storedPayload d raw = some old) (order : ¬ payload.timestamp < old.timestamp)
      (unexpired : expiredAt d old first = some false) (fresh : expiredAt d payload second = some false) :
      Cleared payload (before ++ [⟨.dbGet key,.ok (some raw)⟩] ++ [⟨.now,first⟩] ++ [⟨.now,second⟩])

end Paths

-- All that the key handlers may ever do to the store, by what they did before:
-- a delete follows a reading of expired bytes, a put follows the validation of
-- what is written and the clearing of its timestamp.
inductive Permitted (d : Deployment) : Past → Op → Prop where
  | read : Permitted d past (.dbGet key)
  | clock : Permitted d past .now
  | lazyDelete (stale : Stale d raw clock) :
      Permitted d (before ++ [⟨.dbGet key,.ok (some raw)⟩] ++ [⟨.now,clock⟩]) (.dbDelete key)
  | store (signed : Signed d.crates key metadata)
      (decoded : d.crates.decodePayload metadata.serializedPayload = some payload)
      (cleared : Cleared d key payload past) : Permitted d past (.dbPut key (d.crates.encodeMetadata metadata))
  | compactionRead : Permitted d past (.compactionRead key)
  | compactionDrop (stale : Stale d raw clock) :
      Permitted d (before ++ [⟨.compactionRead key,some raw⟩] ++ [⟨.now,clock⟩]) (.compactionDrop key raw)
  | fetch : Permitted d past (.httpGet url)
  | delay : Permitted d past (.delayFor secs)

variable {d : Deployment} {past later : Past}

theorem expired_follows {Error α : Type} {may : Past → Op → Prop} {payload : Payload} {rest : Bool → Prog Error α}
    {ends : Past → Outcome Panic Error α → Prop} (allowed : may past .now)
    (overflows : ∀ clock, expiry d payload = none → ends (past ++ [⟨.now,clock⟩]) (.panicked .overflow))
    (answers : ∀ clock answer, expiredAt d payload clock = some answer →
      Follows may ends (past ++ [⟨.now,clock⟩]) (rest answer)) :
    Follows may ends past (expired d payload >>= rest) := by
  simp only [expired,systemTimeNow,call_bind,done_bind]
  refine ⟨allowed,fun clock => ?_⟩
  cases sum : expiry d payload with
  | none => simpa using overflows clock sum
  | some sum' => simpa using answers clock _ (by simp [expiredAt,sum])

-- The paths through the operations of the store, under any rule that lets each
-- operation happen where the path has it.
theorem get_paths {may : Past → Op → Prop} {addr : Address} (read : may past (.dbGet addr.body))
    (clock : ∀ raw, may (past ++ [⟨.dbGet addr.body,.ok (some raw)⟩]) .now)
    (lapse : ∀ raw time, Stale d raw time →
      may (past ++ [⟨.dbGet addr.body,.ok (some raw)⟩] ++ [⟨.now,time⟩]) (.dbDelete addr.body)) :
    Follows may (GetPath d addr.body past) past (KeyDb.get d addr) := by
  simp only [KeyDb.get,rocksGet,call_bind]
  refine ⟨read,fun reply => ?_⟩
  rcases reply with err | found
  · exact .failed
  · cases found with
    | none => exact .absent
    | some raw =>
      cases decoded : d.crates.decodeMetadata raw with
      | none => simpa [decoded] using GetPath.unreadable (.metadata decoded)
      | some metadata =>
        cases read : d.crates.decodePayload metadata.serializedPayload with
        | none => simpa [decoded,read] using GetPath.unreadable (.payload decoded read)
        | some payload =>
          have stored : storedPayload d raw = some payload := by simp [storedPayload,decoded,read]
          simp only [fromResult_ok,done_bind,decoded,unwrap_some,read]
          apply expired_follows (clock raw) (fun time overflows => GetPath.overflow stored overflows)
          intro time answer answered
          cases answer with
          | false => exact GetPath.current decoded read answered
          | true =>
            have stale : Stale d raw time := by simp [Stale,stored,answered]
            simp only [if_true,rocksDelete,call_bind]
            refine ⟨lapse raw time stale,fun reply => ?_⟩
            rcases reply with err | done
            · exact GetPath.deleteFailed stale
            · exact GetPath.lapsed stale

theorem check_paths {may : Past → Op → Prop} {addr : Address} (clocks : ∀ later, may later .now)
    (got : Follows may (GetPath d addr.body past) past (KeyDb.get d addr)) (payload : Payload) :
    Follows may (CheckPath d addr.body payload past) past (checkTimestamp d addr payload) := by
  refine got.bind ?_ (fun _ _ got => .failed got) (fun _ _ got => .panicked got)
  intro later found got
  cases found with
  | none => exact .absent got
  | some old =>
    cases got with
    | @current raw metadata oldPayload clock decoded read unexpired =>
      have got : GetPath d addr.body past _ (.returned (some old)) := .current decoded read unexpired
      simp only [read,unwrap_some,done_bind]
      by_cases older : payload.timestamp < oldPayload.timestamp
      · simpa [older] using CheckPath.outdated got read older
      · simp only [older,if_false]
        apply expired_follows (clocks _) (fun clock overflows => CheckPath.overflow got read older overflows)
        intro clock answer answered
        cases answer with
        | true => exact CheckPath.expired got read older answered
        | false => exact CheckPath.newer got read older answered

theorem store_paths {Error : Type} {may : Past → Op → Prop} {addr : Address} {metadata : AddressMetadata} {payload : Payload}
    (checked : Follows may (CheckPath d addr.body payload past) past (checkTimestamp d addr payload))
    (writes : ∀ later, past <+: later → CheckPath d addr.body payload past later (.returned (.ok ())) →
      may later (.dbPut addr.body (d.crates.encodeMetadata metadata))) :
    Follows may (StorePath d addr.body metadata payload past) past
      (storePulled d addr metadata payload : Prog Error PeerExit) := by
  refine (checked.grown.mono (fun _ _ allowed => allowed.1) fun _ _ ended => ended).attempt_bind ?_
    (fun _ _ ended => .checkFailed ended.1) (fun _ _ ended => .panicked ended.1)
  rintro later verdict ⟨checked,grown⟩
  cases verdict with
  | error err => exact StorePath.refused checked
  | ok admitted =>
    simp only [KeyDb.put,rocksPut]
    refine ⟨writes later grown checked,fun reply => ?_⟩
    rcases reply with err | done
    · exact StorePath.putFailed checked
    · exact StorePath.stored checked

theorem get_follows (d : Deployment) (addr : Address) (past : Past) :
    Follows (Permitted d) (GetPath d addr.body past) past (KeyDb.get d addr) :=
  get_paths .read (fun _ => .clock) fun _ _ stale => .lazyDelete stale

theorem check_cleared {key : Bytes} {payload : Payload}
    (checked : CheckPath d key payload past later (.returned (.ok ()))) : Cleared d key payload later := by
  cases checked with
  | absent got =>
    cases got with
    | absent => exact .absent
    | lapsed stale => exact .lapsed stale
  | newer got read order unexpired =>
    cases got with
    | current decoded read' old =>
      obtain rfl := Option.some.inj (read.symm.trans read')
      exact .newer (by simp [storedPayload,decoded,read]) order old unexpired

-- What a handler must have established before it may write `metadata` under `key`.
structure Attested (d : Deployment) (key : Bytes) (metadata : AddressMetadata) (payload : Payload) : Prop where
  signed : Signed d.crates key metadata
  payload : d.crates.decodePayload metadata.serializedPayload = some payload

theorem stored_follows {Error : Type} {addr : Address} {metadata : AddressMetadata} {payload : Payload}
    (attested : Attested d addr.body metadata payload) (past : Past) :
    Follows (Permitted d) (StorePath d addr.body metadata payload past) past
      (storePulled d addr metadata payload : Prog Error PeerExit) :=
  store_paths (check_paths (fun _ => .clock) (get_follows d addr past) payload) fun _ _ checked =>
    .store attested.signed attested.payload (check_cleared checked)

end Keyserver.KeyProtocol
