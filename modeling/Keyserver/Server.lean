import Keyserver.Payments

namespace Keyserver
open SharedPrograms SharedPools KeyHandlers Payments Bitcoin

-- Everything that starts a program on the shared state. The two key handlers
-- also stand alone, as the tests of the server mount them.
inductive Request where
  | getKey (addrStr : String)
  | putKey (addrStr : String) (payload : List (Except String Bytes))
  | peerItem (res : Except StreamError (String × Address))
  | keys (req : HttpRequest)
  | payments (req : HttpRequest)
  | compaction (key : Bytes)

inductive Answer where
  | http (resp : HttpResponse)
  | peer (exit : PeerExit)
  | compacted
  deriving DecidableEq, Repr

variable (d : Deployment)

def keysService (addrStr : String) (req : HttpRequest) : Prog ServerError HttpResponse :=
  match req.method with
  | .get => getKey d addrStr
  | .put => putKey d addrStr req.payload
  | _ => .done {status := .methodNotAllowed}

-- The payment check wraps the resource, so it only sees paths of the resource.
def keysResource (req : HttpRequest) : Prog ServerError HttpResponse :=
  match d.crates.routeAddr req.path with
  | none => .done {status := .notFound}
  | some addrStr => call d (keysService d addrStr) req

def handle : Request → Prog ServerError Answer
  | .getKey addrStr => Answer.http <$> getKey d addrStr
  | .putKey addrStr payload => Answer.http <$> putKey d addrStr payload
  | .peerItem res => Answer.peer <$> peerPolling d res
  | .keys req => Answer.http <$> keysResource d req
  | .payments req => Answer.http <$> paymentHandler d req
  | .compaction key => (fun _ => Answer.compacted) <$> KeyDb.compact d key

-- Outside the handlers only the clock moves, and it may be set back.
def tick (clock : Clock) (s : Shared) : Option Shared := some {s with clock := clock}

def server : Machine Reply Panic ServerError Answer Shared Request Clock where
  serve := handle d
  answer := answer
  surroundings := tick

-- What the handlers did, each operation with the number of its thread.
abbrev Log := List (Nat × Event Reply)

abbrev ServerPool := Pool Reply Panic ServerError Answer Shared Request

def Shared.empty (clock : Clock) : Shared := ⟨fun _ => none,∅,clock⟩

end Keyserver
