import Mathlib.Data.List.Basic
import Kvmux.CircuitBreaker
import Kvmux.Coroutine
import Kvmux.GlobalGate
import Kvmux.Metrics

namespace Kvmux
open Coroutine CircuitBreaker GlobalGate Metrics

inductive HealthState where
  | healthy
  | notReady
  | dead
  deriving DecidableEq, Repr

-- What a request does to the gateway without giving up control. Backends are
-- named by their index.
inductive Op where
  | now
  | enterGate
  | resumeGate
  | releaseGate
  | observedHealth (b : Nat)
  | load (b : Nat)
  | allowRequest (b : Nat)
  | report (b : Nat) (report : Report) (isProbe : Bool)
  | tryAcquire (b : Nat)
  | releaseSlot (b : Nat)
  | nextCursor
  | record (metric : Metric)
  | publishAdmissionGauges

abbrev Op.Reply : Op → Type
  | .now => Int
  | .enterGate => Entry
  | .resumeGate => AdmitStatus
  | .observedHealth _ => HealthState
  | .load _ => Int × Int
  | .allowRequest _ => Decision
  | .tryAcquire _ => Bool
  | .nextCursor => UInt64
  | .releaseGate | .report _ _ _ | .releaseSlot _ | .record _ | .publishAdmissionGauges => Unit

inductive Fault where
  | timeout
  | failed
  deriving DecidableEq, Repr

inductive ReadCode where
  | none
  | needBuffer
  | operationAborted
  | timeout
  | failed
  deriving DecidableEq, Repr

-- One async_read_some: the body bytes it produced, its error code, and whether
-- the response is then complete.
structure Read where
  block : Bytes := []
  code : ReadCode := .none
  done : Bool := false
  deriving DecidableEq, Repr

-- A response head together with everything the backend will still send; a read
-- past the end of the list runs out of its budget.
structure Head where
  status : Nat
  done : Bool := false
  reads : List Read := []
  deriving DecidableEq, Repr

structure Received where
  status : Nat
  body : Bytes
  deriving DecidableEq, Repr

structure Response where
  status : Nat
  body : Bytes
  keepAlive : Bool
  retryAfter : Bool := false
  deriving DecidableEq, Repr

-- Who asked for a frame: the sink that forwards upstream events, or the gateway.
inductive Site where
  | sink
  | gateway
  deriving DecidableEq, Repr

-- The suspension points, upstream and downstream.
inductive Wait where
  | turn
  | connect (b : Nat)
  | writeRequest (b : Nat) (body : Bytes)
  | readHeader (b : Nat)
  | readSome (b : Nat)
  | readResponse (b : Nat)
  | writeJson (response : Response)
  | writeHeader (keepAlive : Bool)
  | writeChunk (site : Site) (chunk : Bytes)
  | writeLastChunk
  deriving DecidableEq, Repr

abbrev Wait.Answer : Wait → Type
  | .turn | .readSome _ => Unit
  | .connect _ | .writeRequest _ _ => Except Fault Unit
  | .readHeader _ => Except Fault Head
  | .readResponse _ => Except Fault Received
  | .writeJson _ | .writeHeader _ | .writeChunk _ _ | .writeLastChunk => Bool

abbrev Prog (α : Type) := Co Op.Reply Wait.Answer α

abbrev act (op : Op) : Prog op.Reply := perform op

abbrev suspend (point : Wait) : Prog point.Answer := await point

abbrev Trace := List (Event Op.Reply Wait.Answer)

end Kvmux
