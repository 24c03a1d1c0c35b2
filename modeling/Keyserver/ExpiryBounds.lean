import Keyserver.SoloRuns
import Keyserver.SampleUpdates

namespace Keyserver.ExpiryBounds
open SharedPrograms SharedPrograms.Program KeyDb KeyHandlers SoloRuns SampleDeployment SampleUpdates

-- The second up to which a payload is meant to be kept, as the integer it is.
def trueExpiry (payload : Payload) : Int := payload.timestamp.toInt + payload.ttl.toInt

def Bounded (payload : Payload) : Prop := -2 ^ 63 ≤ trueExpiry payload ∧ trueExpiry payload < 2 ^ 63

-- Everything that reads the clock against the payload decides by its true expiry.
structure ExactExpiry (d : Deployment) (payload : Payload) : Prop where
  counted : ∃ sum, expiry d payload = some sum ∧ sum.toInt = trueExpiry payload
  compared : ∀ c now, (run (settle false c) (expired d payload : Prog RocksError Bool) now).1 =
    .returned (decide (trueExpiry payload < (c.clock now.2).secs))
  filtered : ∀ c now raw metadata, d.crates.decodeMetadata raw = some metadata →
    d.crates.decodePayload metadata.serializedPayload = some payload →
    (run (settle false c) (ttlFilter d raw : Prog RocksError CompactionDecision) now).1 =
      .returned (if trueExpiry payload < (c.clock now.2).secs then .remove else .keep)
  read : ∀ c (now : Shared × Nat) (addr : Address) raw metadata, c.getFault = none → c.deleteFault = none →
    now.1.db addr.body = some raw → d.crates.decodeMetadata raw = some metadata →
    d.crates.decodePayload metadata.serializedPayload = some payload →
    (run (settle false c) (KeyDb.get d addr) now).1 =
        .returned (if trueExpiry payload < (c.clock (now.2 + 1)).secs then none else some metadata) ∧
      (run (settle false c) (KeyDb.get d addr) now).2.1.db addr.body =
        if trueExpiry payload < (c.clock (now.2 + 1)).secs then none else some raw

variable {d : Deployment} {payload : Payload}

theorem bounded_sum (bounded : Bounded payload) : (payload.timestamp + payload.ttl).toInt = trueExpiry payload := by
  obtain ⟨lower,upper⟩ := bounded
  rw [Int64.toInt_add]
  unfold trueExpiry at *
  exact Int.bmod_eq_of_le (by omega) (by omega)

theorem bounded_expiry (bounded : Bounded payload) : expiry d payload = some (payload.timestamp + payload.ttl) := by
  have exact := bounded_sum bounded
  unfold trueExpiry at exact
  simp [expiry,exact]

-- Only a build that checks its sums stops at one, and at the unbounded ones.
theorem expiry_none (overflows : expiry d payload = none) : d.overflowChecks = true ∧ ¬ Bounded payload := by
  simp only [expiry] at overflows
  split at overflows
  · rename_i beyond
    exact ⟨beyond.1,fun bounded => beyond.2 (bounded_sum bounded)⟩
  · cases overflows

theorem bounded_expiredAt (bounded : Bounded payload) (clock : Clock) :
    expiredAt d payload clock = some (decide (trueExpiry payload < clock.secs)) := by
  rw [expiredAt,bounded_expiry bounded,Option.map_some,← bounded_sum bounded]
  simp [Int64.lt_iff_toInt_lt]

-- A sum that wraps around changes its sign, so it is misjudged at the epoch.
theorem unbounded_misjudged (unbounded : ¬ Bounded payload) :
    expiredAt d payload epoch ≠ some (decide (trueExpiry payload < epoch.secs)) := by
  have wrapped : (payload.timestamp + payload.ttl).toInt = (trueExpiry payload).bmod (2 ^ 64) := Int64.toInt_add ..
  have lower : -2 ^ 64 ≤ trueExpiry payload := by
    have first := payload.timestamp.le_toInt
    have second := payload.ttl.le_toInt
    unfold trueExpiry
    omega
  have upper : trueExpiry payload < 2 ^ 64 := by
    have first := payload.timestamp.toInt_lt
    have second := payload.ttl.toInt_lt
    unfold trueExpiry
    omega
  intro judged
  rw [expiredAt,Option.map_eq_some_iff] at judged
  obtain ⟨sum,counted,same⟩ := judged
  have whole : sum = payload.timestamp + payload.ttl := by
    simp only [expiry] at counted
    split at counted
    · cases counted
    · exact (Option.some.inj counted).symm
  subst whole
  simp only [Int64.lt_iff_toInt_lt,wrapped,Clock.toInt_asI64,decide_eq_decide] at same
  unfold Bounded at unbounded
  simp only [epoch,clockAt] at same
  by_cases large : 2 ^ 63 ≤ trueExpiry payload
  · have negative : (trueExpiry payload).bmod (2 ^ 64) = trueExpiry payload - 2 ^ 64 := by
      simp only [Int.bmod]
      split <;> omega
    omega
  · have positive : (trueExpiry payload).bmod (2 ^ 64) = trueExpiry payload + 2 ^ 64 := by
      simp only [Int.bmod]
      split <;> omega
    omega

theorem exact_bounded (exact : ExactExpiry d payload) : Bounded payload := by
  by_contra unbounded
  apply unbounded_misjudged (d := d) unbounded
  have answered := exact.compared calm (Shared.empty epoch,0)
  rw [run_expired] at answered
  have now : calm.clock 0 = epoch := rfl
  simp only [now] at answered
  cases judged : expiredAt d payload epoch with
  | none => simp [judged] at answered
  | some answer =>
    rw [judged] at answered
    exact congrArg some (Outcome.returned.inj answered)

-- The comparison is exact, for the handlers and the compaction filter alike, just
-- where the sum fits an i64.
theorem exactExpiry_iff : ExactExpiry d payload ↔ Bounded payload := by
  constructor
  · exact exact_bounded
  · intro bounded
    refine ⟨⟨_,bounded_expiry bounded,bounded_sum bounded⟩,?_,?_,?_⟩
    · intro c now
      rw [run_expired,bounded_expiredAt bounded]
    · intro c now raw metadata decoded read
      simp only [ttlFilter,decoded,read,unwrap_some,done_bind,run_bind,run_expired,bounded_expiredAt bounded]
      by_cases past : trueExpiry payload < (c.clock now.2).secs
      · simp [past]
      · simp [past]
    · intro c now addr raw metadata reads deletes stored decoded read
      obtain ⟨outcome,left,-⟩ := @run_get false d c now addr
      rw [outcome,left,stored]
      simp only [lookup,decoded,read,bounded_expiredAt bounded]
      by_cases past : trueExpiry payload < (c.clock (now.2 + 1)).secs
      · simp [past,getOutcome,getLeaves,reads,deletes,Lookup.result]
      · simp [past,getOutcome,getLeaves,reads,Lookup.result,stored]

-- The owner's payload ends far in the future. A release build stores it and then
-- takes it for expired; a debug build panics at the sum.
theorem endless_misjudged : ¬ ExactExpiry (moreDeployment false) endless.payload ∧
    ¬ ExactExpiry (moreDeployment true) endless.payload ∧
    (visit false (moreDeployment false) (steady 200) (putOwner endless) (Shared.empty epoch)).1 =
      .returned (.http {status := .ok}) ∧
    expiredAt (moreDeployment false) endless.payload (clockAt 200) = some true ∧
    200 < trueExpiry endless.payload ∧ expiredAt (moreDeployment true) endless.payload (clockAt 200) = none := by
  have unbounded : ¬ Bounded endless.payload := by
    unfold Bounded
    decide +kernel
  refine ⟨mt exact_bounded unbounded,mt exact_bounded unbounded,?_,?_,?_,?_⟩
  all_goals decide +kernel

end Keyserver.ExpiryBounds
