import Keyserver.SampleDeployment
import Keyserver.SharedMatches

namespace Keyserver.DetailStream
open SharedPrograms SharedPrograms.Program SharedMatches Bitcoin SampleDeployment

abbrev Detail := String × Address

def Advertised (settings : Settings) (output : TxOut) (detail : Detail) : Prop :=
  Advertises settings output.scriptPubkey detail.1 detail.2

-- What is to come out of a stream, item by item.
inductive Yields (settings : Settings) : List (Except StreamError Transaction) → List (Except StreamError Detail) → Prop where
  | ended : Yields settings [] []
  | failed (later : Yields settings stream yielded) : Yields settings (.error err :: stream) (.error err :: yielded)
  | advertised (first : First (Advertised settings) tx.output detail) (later : Yields settings stream yielded) :
      Yields settings (.ok tx :: stream) (.ok detail :: yielded)
  | silent (unmatched : Unmatched (Advertised settings) tx.output) (later : Yields settings stream yielded) :
      Yields settings (.ok tx :: stream) yielded

def readScript (settings : Settings) (script : Bytes) : Option Detail :=
  match (extractOpReturn settings script : Prog Empty (Option Detail)) with
  | .done found => found
  | _ => none

def firstDetail (settings : Settings) (outputs : List TxOut) : Option Detail :=
  outputs.findSome? fun output => readScript settings output.scriptPubkey

variable {Error : Type} {settings : Settings}

theorem readScript_some {script : Bytes} {detail : Detail} :
    readScript settings script = some detail ↔ Advertises settings script detail.1 detail.2 := by
  obtain ⟨found,extracted,exact⟩ := @extractOpReturn_exact Empty settings script
  rw [readScript,extracted]
  exact exact detail.1 detail.2

theorem extractOpReturn_eq (script : Bytes) :
    (extractOpReturn settings script : Prog Error (Option Detail)) = .done (readScript settings script) := by
  obtain ⟨found,extracted,exact⟩ := @extractOpReturn_exact Error settings script
  rw [extracted]
  congr 1
  apply Option.ext
  intro detail
  rw [exact detail.1 detail.2]
  exact readScript_some.symm

theorem findDetails_eq (outputs : List TxOut) :
    (findDetails settings outputs : Prog Error (Option Detail)) = .done (firstDetail settings outputs) := by
  induction outputs with
  | nil => rfl
  | cons output rest ih =>
    simp only [findDetails,extractOpReturn_eq,done_bind,firstDetail,List.findSome?_cons]
    cases readScript settings output.scriptPubkey with
    | some detail => rfl
    | none => exact ih

theorem firstDetail_some {outputs : List TxOut} {detail : Detail} :
    firstDetail settings outputs = some detail ↔ First (Advertised settings) outputs detail :=
  first_iff fun _ _ => readScript_some

theorem firstDetail_none {outputs : List TxOut} :
    firstDetail settings outputs = none ↔ Unmatched (Advertised settings) outputs :=
  unmatched_iff fun _ _ => readScript_some

-- The stream with its transactions replaced by their first advertisement.
def details (settings : Settings) (stream : List (Except StreamError Transaction)) : List (Except StreamError Detail) :=
  stream.filterMap fun
    | .error err => some (.error err)
    | .ok tx => (firstDetail settings tx.output).map .ok

theorem extractDetails_eq (stream : List (Except StreamError Transaction)) :
    (extractDetails settings stream : Prog Error (List (Except StreamError Detail))) = .done (details settings stream) := by
  induction stream with
  | nil => rfl
  | cons item rest ih =>
    cases item with
    | error err => simp only [extractDetails,ih,done_bind,pure_done,details,List.filterMap_cons]
    | ok tx =>
      simp only [extractDetails,findDetails_eq,ih,done_bind,details,List.filterMap_cons]
      cases firstDetail settings tx.output <;> rfl

theorem details_yields (stream : List (Except StreamError Transaction)) (yielded : List (Except StreamError Detail)) :
    Yields settings stream yielded ↔ yielded = details settings stream := by
  constructor
  · intro yields
    induction yields with
    | ended => rfl
    | failed later ih => simp only [details,List.filterMap_cons,ih]
    | advertised first later ih => simp only [details,List.filterMap_cons,firstDetail_some.mpr first,Option.map_some,ih]
    | silent unmatched later ih => simp only [details,List.filterMap_cons,firstDetail_none.mpr unmatched,Option.map_none,ih]
  · rintro rfl
    induction stream with
    | nil => exact .ended
    | cons item rest ih =>
      cases item with
      | error err => exact .failed ih
      | ok tx =>
        cases found : firstDetail settings tx.output with
        | some detail =>
          simp only [details,List.filterMap_cons,found,Option.map_some]
          exact .advertised (firstDetail_some.mp found) ih
        | none =>
          simp only [details,List.filterMap_cons,found,Option.map_none]
          exact .silent (firstDetail_none.mp found) ih

-- The reader of one script accepts its grammar and nothing else, no script reads
-- like another, and the stream yields item by item, whatever comes later.
theorem extraction_exact (settings : Settings) :
    (∀ script, ∃ found, (extractOpReturn settings script : Prog Error (Option Detail)) = .done found ∧
      ∀ url addr, found = some (url,addr) ↔ Advertises settings script url addr) ∧
    (∀ script other detail, (extractOpReturn settings script : Prog Error (Option Detail)) = .done (some detail) →
      (extractOpReturn settings other : Prog Error (Option Detail)) = .done (some detail) → script = other) ∧
    ∀ stream, ∃ yielded, (extractDetails settings stream : Prog Error (List (Except StreamError Detail))) = .done yielded ∧
      (∀ other, Yields settings stream other ↔ other = yielded) ∧
      ∀ later, (extractDetails settings (stream ++ later) : Prog Error (List (Except StreamError Detail))) =
        (yielded ++ ·) <$> extractDetails settings later := by
  refine ⟨fun script => extractOpReturn_exact settings script,?_,?_⟩
  · intro script other detail read reread
    rw [extractOpReturn_eq,Program.done.injEq,readScript_some] at read reread
    exact read.shape.trans reread.shape.symm
  · intro stream
    refine ⟨details settings stream,extractDetails_eq stream,details_yields stream,?_⟩
    intro later
    simp only [extractDetails_eq,map_eq,done_bind,details,List.filterMap_append]

def advert (url : String) : TxOut :=
  ⟨0,[106,UInt8.ofNat (29 + (utf8 url).length)] ++ KEYSERVER_PREFIX ++ ownerHash ++ utf8 url⟩

theorem advert_advertised {url : String} (nonempty : 1 ≤ (utf8 url).length) (short : (utf8 url).length ≤ 226)
    (foreign : url ≠ "http://127.0.0.1:8080") :
    Advertised (deployment false).settings (advert url) (url,{body := ownerHash}) :=
  ⟨rfl,rfl,nonempty,short,foreign,rfl,rfl,.mainnet⟩

theorem advert_own : Unmatched (Advertised (deployment false).settings) [advert "http://127.0.0.1:8080"] := by
  intro output member detail advertised
  obtain rfl := List.mem_singleton.mp member
  have read := readScript_some.mpr advertised
  have unread : readScript (deployment false).settings (advert "http://127.0.0.1:8080").scriptPubkey = none := by decide +kernel
  rw [unread] at read
  cases read

-- A server skips its own advertisement and takes the first of the others.
theorem stream_sample : (extractDetails (deployment false).settings [.error (.subscription "closed"),
      .ok ⟨[advert "http://127.0.0.1:8080",advert "http://peer:8080",advert "http://other:8080"]⟩,
      .ok ⟨[advert "http://127.0.0.1:8080"]⟩] : Prog ServerError (List (Except StreamError Detail))) =
    .done [.error (.subscription "closed"),.ok ("http://peer:8080",{body := ownerHash})] := by
  have first : First (Advertised (deployment false).settings)
      [advert "http://127.0.0.1:8080",advert "http://peer:8080",advert "http://other:8080"]
      ("http://peer:8080",{body := ownerHash}) :=
    .intro advert_own (advert_advertised (by decide +kernel) (by decide +kernel) (by decide))
  obtain ⟨yielded,extracted,exact,-⟩ := (extraction_exact (deployment false).settings).2.2 _
  rw [extracted,← (exact _).mp (.failed (.advertised first (.silent advert_own .ended)))]

end Keyserver.DetailStream
