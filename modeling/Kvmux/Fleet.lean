import Mathlib.Data.List.Basic
import Kvmux.Gateway
import Kvmux.Tally

namespace Kvmux.Fleet
open Coroutine CircuitBreaker GlobalGate Metrics Gateway Tally

structure PerBackendLimiter where
  maxInFlight : Int
  active : Int := 0
  deriving DecidableEq, Repr

def PerBackendLimiter.tryAcquire (lim : PerBackendLimiter) : Bool × PerBackendLimiter :=
  if lim.active < lim.maxInFlight then (true,{lim with active := lim.active + 1}) else (false,lim)

def PerBackendLimiter.release (lim : PerBackendLimiter) : PerBackendLimiter := {lim with active := lim.active - 1}

structure Backend where
  breaker : Breaker
  limiter : PerBackendLimiter
  health : HealthState := .dead
  forcedHealth : Option HealthState := none

def Backend.observedHealth (backend : Backend) : HealthState := backend.forcedHealth.getD backend.health

structure State where
  backends : List Backend
  gate : Gate
  cursor : UInt64 := 0
  registry : Registry Float := .create kTtftBuckets kTpotBuckets kDurationBuckets
  clock : Int := 0

def openBackend (conf : BackendConfig) : Backend where
  breaker := {failureThreshold := conf.failureThreshold.1.toNat,openWindow := conf.openMs.1 * 1000000}
  limiter := {maxInFlight := conf.maxInFlight.1}

def construct (cfg : Config) : State where
  backends := cfg.backends.map openBackend
  gate := start cfg.server.maxConcurrentStreams.1 cfg.server.queueDepth.1

-- Work on one backend. Requests only name backends of the configuration, so
-- the fallback reply is never given.
def onBackend {R : Type} (s : State) (b : Nat) (fallback : R) (f : Backend → R × Backend) : R × State :=
  match s.backends[b]? with
  | none => (fallback,s)
  | some backend => ((f backend).1,{s with backends := s.backends.set b (f backend).2})

theorem onBackend_changed {R : Type} {s : State} {b : Nat} (known : s.backends[b]? = some backend) (fallback : R)
    (f : Backend → R × Backend) :
    onBackend s b fallback f = ((f backend).1,{s with backends := s.backends.set b (f backend).2}) := by
  simp only [onBackend,known]

theorem onBackend_absent {R : Type} {s : State} {b : Nat} (absent : s.backends[b]? = none) (fallback : R)
    (f : Backend → R × Backend) : onBackend s b fallback f = (fallback,s) := by
  simp only [onBackend,absent]

theorem onBackend_gate {R : Type} (s : State) (b : Nat) (fallback : R) (f : Backend → R × Backend) :
    (onBackend s b fallback f).2.gate = s.gate := by
  unfold onBackend
  cases s.backends[b]? <;> rfl

theorem onBackend_registry {R : Type} (s : State) (b : Nat) (fallback : R) (f : Backend → R × Backend) :
    (onBackend s b fallback f).2.registry = s.registry := by
  unfold onBackend
  cases s.backends[b]? <;> rfl

-- A part of every backend that the work leaves alone.
theorem onBackend_kept {R X : Type} (part : Backend → X) (s : State) (b : Nat) (fallback : R) (f : Backend → R × Backend)
    (kept : ∀ backend, part (f backend).2 = part backend) :
    (onBackend s b fallback f).2.backends.map part = s.backends.map part := by
  cases known : s.backends[b]? with
  | none => simp only [onBackend,known]
  | some backend =>
    rw [onBackend_changed known,List.map_set]
    exact set_own (by simp [known,kept])

-- The waiter that a request leaves in the gate is named after the request.
def exec (i : Nat) (op : Op) (s : State) : op.Reply × State :=
  match op with
  | .now => (s.clock,s)
  | .enterGate =>
    let out := acquireEntry s.gate i
    (out.1,{s with gate := out.2})
  | .resumeGate =>
    let out := acquireResume s.gate i
    (out.1,{s with gate := out.2})
  | .releaseGate => ((),{s with gate := release s.gate})
  | .observedHealth b => onBackend s b .dead fun backend => (backend.observedHealth,backend)
  | .load b => onBackend s b (0,0) fun backend => ((backend.limiter.active,backend.limiter.maxInFlight),backend)
  | .allowRequest b => onBackend s b {} fun backend =>
    let out := allowRequest backend.breaker s.clock
    (out.1,{backend with breaker := out.2})
  | .report b report isProbe => onBackend s b () fun backend =>
    ((),{backend with breaker := settleReport backend.breaker s.clock report isProbe})
  | .tryAcquire b => onBackend s b false fun backend =>
    let out := backend.limiter.tryAcquire
    (out.1,{backend with limiter := out.2})
  | .releaseSlot b => onBackend s b () fun backend => ((),{backend with limiter := backend.limiter.release})
  | .nextCursor => (s.cursor,{s with cursor := s.cursor + 1})
  | .record metric => ((),{s with registry := s.registry.record metric})
  | .publishAdmissionGauges =>
    ((),{s with registry := {s.registry with
      requestsRunning := s.gate.inFlight
      requestsWaiting := s.gate.waiters.length}})

-- What happens around the requests: time passes, health monitors store what
-- their probes found, and tests may force a state.
inductive Happening where
  | tick (nanoseconds : Nat)
  | probed (b : Nat) (found : HealthState)
  | setHealthForTest (b : Nat) (forced : HealthState)

def happen (event : Happening) (s : State) : State :=
  match event with
  | .tick nanoseconds => {s with clock := s.clock + nanoseconds}
  | .probed b found => (onBackend s b () fun backend => ((),{backend with health := found})).2
  | .setHealthForTest b forced => (onBackend s b () fun backend => ((),{backend with forcedHealth := some forced})).2

def host (env : Env) : Host State Request Happening Op.Reply Wait.Answer Exit where
  exec := exec
  program := handleChat env
  happen := happen

abbrev Call := Thread Request Op.Reply Wait.Answer Exit

def Finished (call : Call) : Prop := ∃ exit, call.code = .ret exit

def exitOf (call : Call) : Option Exit :=
  match call.code with
  | .ret exit => some exit
  | _ => none

theorem exitOf_finished (ended : exitOf call = some exit) : Finished call := by
  unfold exitOf at ended
  split at ended
  · rename_i result code
    exact ⟨result,code⟩
  · cases ended

abbrev Gateways := World State Request Op.Reply Wait.Answer Exit

def opening (env : Env) : Gateways := ⟨construct env.cfg,[]⟩

abbrev Reachable (env : Env) (meets : Gateways → Action Request Happening Wait.Answer → Prop) (w : Gateways) : Prop :=
  Transition.Reached (advance (host env)) meets (opening env) w

-- A finished request has made a run of the handler, so what holds of every run
-- holds of every request, however the requests interleave.
theorem finished_runs {meets : Gateways → Action Request Happening Wait.Answer → Prop} (path : Reachable env meets w)
    (member : call ∈ w.threads) (ended : call.code = .ret exit) : Runs (handleChat env call.request) call.trace exit := by
  have own := reached_path (host env) path call member
  rw [ended] at own
  exact own

section Sample

-- Requests and surroundings for concrete runs.
def chatJson (stream : Bool) : Json :=
  .object [(text "messages",.array [.object [(text "content",.string (text "hi")),(text "role",.string (text "user"))]]),
    (text "model",.string (text "m")),(text "stream",.boolean stream)]

def chatRequest (stream : Bool) : Request := ⟨(chatJson stream).render,true⟩

def serving (name : String) : BackendConfig where
  name := text name
  models := [text "m"]
  failureThreshold := ⟨1,by decide⟩

def sampleEnv (names : List String) : Env where
  cfg := {routing := {policy := .roundRobin},backends := names.map serving}
  json := tableLib [((chatJson true).render,chatJson true),((chatJson false).render,chatJson false)]
  xxh64 := fun _ => 0

def obliging (head : Head) (received : Received) : (point : Wait) → point.Answer
  | .turn | .readSome _ => ()
  | .connect _ | .writeRequest _ _ => .ok ()
  | .readHeader _ => .ok head
  | .readResponse _ => .ok received
  | .writeJson _ | .writeHeader _ | .writeChunk _ _ | .writeLastChunk => true

def refusing : (point : Wait) → point.Answer
  | .connect _ => .error .failed
  | point => obliging ⟨200,true,[]⟩ ⟨200,[]⟩ point

-- A client that is gone when the next frame is written to it.
def vanishing : (point : Wait) → point.Answer
  | .writeChunk _ _ => false
  | point => obliging ⟨200,true,[]⟩ ⟨200,[]⟩ point

def streamOf (body : String) : (point : Wait) → point.Answer := obliging ⟨200,false,[{block := text body}]⟩ ⟨200,[]⟩

-- A stream that breaks off after an event, and a client that refuses its header.
def brokenHead : Head := ⟨200,false,[{block := text "data: x\n\n",code := .failed}]⟩

def breaking : (point : Wait) → point.Answer := obliging brokenHead ⟨200,[]⟩

def unopening : (point : Wait) → point.Answer
  | .writeHeader _ => false
  | point => breaking point

-- A backend fails once and trips its breaker; after the window a probe is sent.
def probing : List (Action Request Happening Wait.Answer) :=
  [.surround (.probed 0 .healthy),.spawn (chatRequest true),.resume 0 refusing,.resume 0 refusing,
    .surround (.tick 10000000000),.spawn (chatRequest true)]

-- Two failures do not open a breaker here.
def patient (names : List String) : Env :=
  {sampleEnv names with cfg := {routing := {policy := .roundRobin}
                                backends := names.map fun name => {serving name with failureThreshold := ⟨3,by decide⟩}}}

def healthy (env : Env) (cursor : UInt64) : State :=
  {construct env.cfg with
    cursor
    backends := env.cfg.backends.map fun conf => {openBackend conf with health := .healthy}}

def alone (env : Env) (cursor : UInt64) (req : Request) (answers : List ((point : Wait) → point.Answer)) : Option (Trace × Exit) :=
  solo (host env) 0 (healthy env cursor) (handleChat env req) answers

theorem solo_shown {V : Type} {seen : V} (s : State) (answers : List ((point : Wait) → point.Answer)) (view : Trace → V)
    (shown : (solo (host env) 0 s (handleChat env req) answers).map (fun out => (view out.1,out.2)) = some (seen,exit)) :
    ∃ t, Runs (handleChat env req) t exit ∧ view t = seen := by
  obtain ⟨⟨t,result⟩,ran,same⟩ := Option.map_eq_some_iff.mp shown
  obtain ⟨rfl,rfl⟩ := Prod.mk.inj same
  exact ⟨t,solo_runs (host env) ran,rfl⟩

theorem alone_runs {V : Type} {seen : V} (cursor : UInt64) (answers : List ((point : Wait) → point.Answer)) (view : Trace → V)
    (shown : (alone env cursor req answers).map (fun out => (view out.1,out.2)) = some (seen,exit)) :
    ∃ t, Runs (handleChat env req) t exit ∧ view t = seen :=
  solo_shown (healthy env cursor) answers view shown

end Sample

end Kvmux.Fleet
