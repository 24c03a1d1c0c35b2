import Keyserver.IngestionVisits
import Keyserver.ReferenceStore

namespace Keyserver.PutOutcomes
open SharedPrograms SharedPrograms.Program KeyDb KeyHandlers KeyProtocol KeyRequests SoloRuns IngestionVisits ReferenceStore
  SampleDeployment

variable {d : Deployment} {c : Conditions} {s : Shared} {addrStr : String} {sent : List (Except String Bytes)}
  {addr : Address} {metadata : AddressMetadata} {payload : Payload} {time start : Clock}

theorem acknowledged_iff (met : Admitted d addrStr sent addr metadata payload) :
    (∃ answer, (visit false d c (.putKey addrStr sent) s).1 = .returned answer) ↔
      storing d c (.putKey addrStr sent) addr payload s = .returned .stored := by
  rw [(visit_delivers (.put met) s).1]
  cases storing d c (.putKey addrStr sent) addr payload s with
  | returned exit => cases exit <;> simp [ingested]
  | thrown err => simp [ingested,Outcome.map]
  | panicked fault => simp [ingested,Outcome.map]

-- What a 200 to a put promises: unexpired metadata that a reader then gets back,
-- whatever address string of the same body it asks for.
def ReadsBack (d : Deployment) (c : Conditions) (s : Shared) (addrStr : String) (sent : List (Except String Bytes))
    (time : Clock) : Prop :=
  ∀ resp, (visit false d c (.putKey addrStr sent) s).1 = .returned (.http resp) → resp.status = .ok →
    ∃ addr metadata payload, Admitted d addrStr sent addr metadata payload ∧ expiredAt d payload time = some false ∧
      ∀ other otherAddr, d.crates.decodeAddress other = .ok otherAddr → otherAddr.body = addr.body →
        ∃ raw, (visit false d c (.getKey other) (visit false d c (.putKey addrStr sent) s).2).1 =
          .returned (.http {status := .ok,body := raw}) ∧ d.crates.decodeMetadata raw = some metadata

-- Whenever the put would be stored over no unexpired entry, its payload is unexpired.
def FreshAlone (d : Deployment) (c : Conditions) (s : Shared) (addrStr : String) (sent : List (Except String Bytes))
    (time : Clock) : Prop :=
  ∀ addr metadata payload, Admitted d addrStr sent addr metadata payload → c.getFault = none → c.putFault = none →
    (s.db addr.body = none ∨ ∃ raw, s.db addr.body = some raw ∧ Stale d raw time ∧ c.deleteFault = none) →
    expiredAt d payload time = some false

theorem lookup_present {raw : Bytes} : lookup d (some raw) time ≠ .absent := by
  simp only [lookup]
  repeat' split
  all_goals simp

theorem stored_unexpired (still : ∀ n, c.clock n = time) (fresh : FreshAlone d c s addrStr sent time)
    (met : Admitted d addrStr sent addr metadata payload)
    (stored : storing d c (.putKey addrStr sent) addr payload s = .returned .stored) :
    expiredAt d payload time = some false := by
  have admits := IngestionAgreement.admits_iff.mpr stored
  obtain ⟨reads,writes,entry⟩ := admits
  have known := fresh addr metadata payload met reads writes
  rw [still] at entry
  cases found : s.db addr.body with
  | none => exact known (.inl found)
  | some raw =>
    rw [found] at known entry
    by_cases stale : Stale d raw time
    · rw [lookup_lapsed.mpr stale] at entry
      exact known (.inr ⟨raw,rfl,stale,entry⟩)
    · cases seen : lookup d (some raw) time with
      | absent => exact absurd seen lookup_present
      | broken fault => simp [seen] at entry
      | lapsed => exact absurd (lookup_lapsed.mp seen) stale
      | current metadata old =>
        rw [seen,still] at entry
        exact entry.2

theorem read_stored (codec : d.crates.RoundTrips) (still : ∀ n, c.clock n = time) (reads : c.getFault = none) {other : String}
    {otherAddr : Address} {after : Shared} (addressed : d.crates.decodeAddress other = .ok otherAddr)
    (stored : after.db otherAddr.body = some (d.crates.encodeMetadata metadata))
    (decoded : d.crates.decodePayload metadata.serializedPayload = some payload)
    (unexpired : expiredAt d payload time = some false) :
    (visit false d c (.getKey other) after).1 = .returned (.http {status := .ok,body := d.crates.encodeMetadata metadata}) := by
  have found : lookup d (after.db otherAddr.body) (c.clock 1) = .current metadata payload := by
    simp [lookup,stored,codec metadata,decoded,still,unexpired]
  have outcome := (@run_get false d c (after,0) otherAddr).1
  simp only [found,getOutcome,reads,Lookup.result] at outcome
  have answered := (@run_getKey false d c (after,0) other otherAddr addressed).1
  rw [outcome] at answered
  simp only [visit,handle,run_map,answered]
  rfl

-- An acknowledged put is read back just where `put_key` would not store an
-- expired payload unasked, for want of an entry to compare it with.
theorem readsBack_iff (codec : d.crates.RoundTrips) (still : ∀ n, c.clock n = time) :
    ReadsBack d c s addrStr sent time ↔ FreshAlone d c s addrStr sent time := by
  constructor
  · intro readsBack addr metadata payload met reads writes alone
    have stored : storing d c (.putKey addrStr sent) addr payload s = .returned .stored := by
      apply IngestionAgreement.admits_iff.mp
      refine ⟨reads,writes,?_⟩
      rw [still]
      rcases alone with absent | ⟨raw,entry,stale,deletes⟩
      · rw [absent]
        trivial
      · rw [entry,lookup_lapsed.mpr stale]
        exact deletes
    have answered := (visit_delivers (c := c) (.put met) s).1
    rw [stored] at answered
    obtain ⟨addr',metadata',payload',met',unexpired,-⟩ := readsBack _ answered rfl
    obtain ⟨rfl,rfl,rfl⟩ := met.unique met'
    exact unexpired
  · intro fresh resp answered status
    rcases visit_put d c addrStr sent s with ⟨addr,metadata,payload,met⟩ | ⟨unanswered,-⟩
    · have stored := acknowledged_iff met |>.mp ⟨_,answered⟩
      have unexpired := stored_unexpired still fresh met stored
      refine ⟨addr,metadata,payload,met,unexpired,?_⟩
      intro other otherAddr addressed same
      have left := (visit_delivers (c := c) (.put met) s).2.1 stored
      refine ⟨_,read_stored codec still (IngestionAgreement.admits_iff.mpr stored).1 addressed ?_ met.attested.payload unexpired,
        codec metadata⟩
      rw [left,same,store_same]
    · exact absurd answered (unanswered _)

theorem late_readsBack : ReadsBack (deployment false) (steady 200) (Shared.empty epoch) ownerAddress [.ok (body 1 late)]
    (clockAt 200) := by
  refine (readsBack_iff (WireMessages.onWire_roundTrips _) fun _ => rfl).mpr ?_
  intro addr metadata payload met _ _ _
  have decoded : crates.decodeMetadata (body 1 late) = some (signed 1 late) := by decide +kernel
  have received : (collected [.ok (body 1 late)]).bind crates.decodeMetadata = some metadata := met.decoded
  simp only [collected,Option.map_some,List.append_nil,Option.bind_some,decoded,Option.some.injEq] at received
  subst received
  have read : crates.decodePayload (signed 1 late).serializedPayload = some late.payload := by decide +kernel
  obtain rfl := Option.some.inj (met.attested.payload.symm.trans read)
  decide +kernel

-- The owner puts metadata that has expired: 200, and yet there is nothing to read.
theorem early_unreadable : ¬ ReadsBack (deployment false) (steady 200) (Shared.empty epoch) ownerAddress
      [.ok (body 1 early)] (clockAt 200) ∧
    (visit false (deployment false) (steady 200) (putOwner early) (Shared.empty epoch)).1 =
      .returned (.http {status := .ok}) ∧
    (visit false (deployment false) (steady 200) (.getKey ownerAddress)
      (visit false (deployment false) (steady 200) (putOwner early) (Shared.empty epoch)).2).1 = .thrown .notFound := by
  have answered : (visit false (deployment false) (steady 200) (putOwner early) (Shared.empty epoch)).1 =
      .returned (.http {status := .ok}) := by decide +kernel
  have missing : (visit false (deployment false) (steady 200) (.getKey ownerAddress)
      (visit false (deployment false) (steady 200) (putOwner early) (Shared.empty epoch)).2).1 = .thrown .notFound := by
    decide +kernel
  refine ⟨?_,answered,missing⟩
  intro readsBack
  obtain ⟨addr,metadata,payload,met,-,read⟩ := readsBack _ answered rfl
  have addressed : (deployment false).crates.decodeAddress ownerAddress = .ok addr := met.addressed
  obtain ⟨raw,found,-⟩ := read ownerAddress addr addressed rfl
  cases missing.symm.trans found

-- One answer for another, but for the failure of a delete that the entry, gone
-- already, no longer calls for.
def Spared {Error α : Type} (c : Conditions) (report : RocksError → Error) (before after : Outcome Panic Error α) : Prop :=
  after = before ∨ ∃ err, c.deleteFault = some err ∧ before = .thrown (report err)

-- What later requests can tell two stores apart by: whole runs with compactions
-- among them, and a single read or check, whatever fails in it.
structure Unobserved (d : Deployment) (start : Clock) (before after : Shared) : Prop where
  responses : ∀ exchanges, Ordered start exchanges →
    responses d (deleting d) exchanges after = responses d (deleting d) exchanges before
  checks : ∀ c passes stop addr payload, Within c start stop →
    (run (physical d c passes) (checkTimestamp d addr payload) (after,0)).1 =
      (run (physical d c passes) (checkTimestamp d addr payload) (before,0)).1
  read : ∀ c addrStr, (∀ n, start ≤ c.clock n) → Spared c ServerError.db
    (visit false d c (.getKey addrStr) before).1 (visit false d c (.getKey addrStr) after).1
  checked : ∀ c addr payload, (∀ n, start ≤ c.clock n) → Spared c id
    (run (settle false c) (checkTimestamp d addr payload) (before,0)).1
    (run (settle false c) (checkTimestamp d addr payload) (after,0)).1

section Below
variable {before after : Shared} (below : Below d start after.db before.db)
include below

theorem below_lookup (key : Bytes) (later : start ≤ time) : lookup d (after.db key) time = lookup d (before.db key) time ∨
    lookup d (after.db key) time = .absent ∧ lookup d (before.db key) time = .lapsed := by
  rcases below key with same | ⟨gone,raw,entry,stale⟩
  · exact .inl (by rw [same])
  · exact .inr ⟨by rw [gone]; rfl,by rw [entry]; exact lookup_lapsed.mpr (stale.later later)⟩

theorem below_get (key : Bytes) (later : start ≤ time) :
    Spared c id (getOutcome c (lookup d (before.db key) time)) (getOutcome c (lookup d (after.db key) time)) := by
  rcases below_lookup below key later with same | ⟨absent,lapsed⟩
  · exact .inl (by rw [same])
  · rw [absent,lapsed]
    cases reads : c.getFault with
    | some err => exact .inl (by simp [getOutcome,reads])
    | none =>
      cases deletes : c.deleteFault with
      | some err => exact .inr ⟨err,deletes,by simp [getOutcome,reads,deletes]⟩
      | none => exact .inl (by simp [getOutcome,reads,deletes,Lookup.result])

theorem below_read (addrStr : String) (later : ∀ n, start ≤ c.clock n) : Spared c ServerError.db
    (visit false d c (.getKey addrStr) before).1 (visit false d c (.getKey addrStr) after).1 := by
  simp only [visit,handle,run_map]
  cases addressed : d.crates.decodeAddress addrStr with
  | error err => exact .inl (by simp [getKey,decodeAddress,addressed])
  | ok addr =>
    rw [(@run_getKey false d c (before,0) addrStr addr addressed).1,(@run_getKey false d c (after,0) addrStr addr addressed).1,
      (@run_get false d c (before,0) addr).1,(@run_get false d c (after,0) addr).1]
    rcases below_get (c := c) below addr.body (later 1) with same | ⟨err,deletes,failed⟩
    · exact .inl (by rw [same])
    · refine .inr ⟨err,deletes,?_⟩
      rw [failed]
      rfl

theorem below_checked (addr : Address) (payload : Payload) (later : ∀ n, start ≤ c.clock n) : Spared c id
    (run (settle false c) (checkTimestamp d addr payload) (before,0)).1
    (run (settle false c) (checkTimestamp d addr payload) (after,0)).1 := by
  rw [(@run_check false d c (before,0) addr payload).1,(@run_check false d c (after,0) addr payload).1]
  rcases below_lookup below addr.body (later 1) with same | ⟨absent,lapsed⟩
  · exact .inl (by rw [same])
  · rw [absent,lapsed]
    cases reads : c.getFault with
    | some err => exact .inl (by simp [checkOutcome,getOutcome,reads])
    | none =>
      cases deletes : c.deleteFault with
      | some err => exact .inr ⟨err,deletes,by simp [checkOutcome,getOutcome,reads,deletes]⟩
      | none => exact .inl (by simp [checkOutcome,getOutcome,reads,deletes,Lookup.result])

theorem below_unobserved : Unobserved d start before after where
  responses := by
    intro exchanges ordered
    rw [below_responses ordered below,below_responses ordered (.refl before.db)]
  checks := by
    intro c passes stop addr payload within
    have left := (@alike_check d c passes stop after before 0 start within addr payload (below.later within.lower)).1
    have right := (@alike_check d c passes stop before before 0 start within addr payload (.refl before.db)).1
    exact left.trans right.symm
  read := fun _ addrStr later => below_read below addrStr later
  checked := fun _ addr payload later => below_checked below addr payload later

end Below

-- A put that does not store can have removed its own entry, if that had expired.
theorem unstored_leaves (met : Admitted d addrStr sent addr metadata payload)
    (unstored : storing d c (.putKey addrStr sent) addr payload s ≠ .returned .stored) (key : Bytes) :
    (visit false d c (.putKey addrStr sent) s).2.db key = s.db key ∨
      ∃ raw, key = addr.body ∧ s.db key = some raw ∧ Stale d raw (c.clock 1) ∧
        (visit false d c (.putKey addrStr sent) s).2.db key = none := by
  rw [(visit_delivers (c := c) (.put met) s).2.2 unstored]
  unfold getLeaves
  split
  · rename_i lapsed _
    by_cases own : key = addr.body
    · subst own
      cases entry : s.db addr.body with
      | none => simp [entry,lookup] at lapsed
      | some raw =>
        rw [entry] at lapsed
        exact .inr ⟨raw,rfl,rfl,lookup_lapsed.mp lapsed,store_same ..⟩
    · exact .inl (store_other s none own)
  · exact .inl rfl

-- A put that is answered with an error can have removed its own entry, if that
-- had expired, and nothing else; no later request sees any difference.
theorem refused_unobserved {err : ServerError} (refused : (visit false d c (.putKey addrStr sent) s).1 = .thrown err)
    (later : c.clock 1 ≤ start) :
    (∀ key, (visit false d c (.putKey addrStr sent) s).2.db key = s.db key ∨
        ∃ addr raw, d.crates.decodeAddress addrStr = .ok addr ∧ key = addr.body ∧ s.db key = some raw ∧
          Stale d raw (c.clock 1) ∧ (visit false d c (.putKey addrStr sent) s).2.db key = none) ∧
      Unobserved d start s (visit false d c (.putKey addrStr sent) s).2 := by
  rcases visit_put d c addrStr sent s with ⟨addr,metadata,payload,met⟩ | ⟨-,same⟩
  · have unstored : storing d c (.putKey addrStr sent) addr payload s ≠ .returned .stored := by
      intro stored
      obtain ⟨answer,answered⟩ := acknowledged_iff met |>.mpr stored
      cases refused.symm.trans answered
    refine ⟨?_,below_unobserved ?_⟩
    · intro key
      rcases unstored_leaves met unstored key with same | ⟨raw,own,entry,stale,gone⟩
      · exact .inl same
      · exact .inr ⟨addr,raw,met.addressed,own,entry,stale,gone⟩
    · intro key
      rcases unstored_leaves met unstored key with same | ⟨raw,own,entry,stale,gone⟩
      · exact .inl same
      · exact .inr ⟨gone,raw,entry,stale.later later⟩
  · rw [same]
    exact ⟨fun _ => .inl rfl,below_unobserved (.refl s.db)⟩

-- The entry has expired and is removed by the check, and then the put fails.
def failing : Conditions := {steady 115 with putFault := some ⟨"IO error: No space left on device"⟩}

def lapsing : Shared := (Shared.empty epoch).store ownerHash (some (body 1 early))

theorem failing_unobserved : (visit false (deployment false) failing (putOwner late) lapsing).2.db ownerHash = none ∧
    Unobserved (deployment false) (clockAt 115) lapsing (visit false (deployment false) failing (putOwner late) lapsing).2 := by
  have refused : (visit false (deployment false) failing (putOwner late) lapsing).1 =
      .thrown (.db ⟨"IO error: No space left on device"⟩) := by decide +kernel
  exact ⟨by decide +kernel,(refused_unobserved refused (Clock.le_refl _)).2⟩

end Keyserver.PutOutcomes
