import Mathlib.Data.List.Basic
import Kvmux.Checker
import Kvmux.Exposition
import Kvmux.Fleet
import Kvmux.Routes

namespace Kvmux.Server
open Coroutine Gateway Fleet Routes Checker ConfigLoader

-- What the process is started with: a monitor for every backend, and how numbers
-- are printed.
structure Setup where
  env : Env
  print : Float → Bytes
  probes : List (BackendType × Int)
  paired : probes.length = env.cfg.backends.length

inductive Port where
  | gateway
  | metrics
  deriving DecidableEq

-- Where the coroutine of a connection is suspended. A chat handler is a request
-- of the gateways, named by its number.
inductive Phase where
  | reading
  | replying (response : Response)
  | chatting (call : Nat)
  | closed

inductive Seen where
  | read (request : Option HttpRequest)
  | wrote (response : Response) (delivered : Bool)
  | chatted (call : Nat)

structure Session where
  port : Port
  phase : Phase := .reading
  trace : List Seen := []

def connected (port : Port) : Session := {port}

structure Drainer where
  deadline : Int
  next : Int

structure Process where
  gateways : Gateways
  monitors : List HealthMonitor
  sessions : List Session := []
  draining : Bool := false
  inFlight : Int := 0
  drainer : Option Drainer := none
  stopped : Bool := false

def launch (setup : Setup) : Process where
  gateways := opening setup.env
  monitors := setup.probes.map fun probe => HealthMonitor.run probe.1 probe.2

namespace Process

def clock (p : Process) : Int := p.gateways.shared.clock

def put (p : Process) (j : Nat) (session : Session) : Process := {p with sessions := p.sessions.set j session}

def happening (p : Process) (event : Happening) : Process :=
  {p with gateways := {p.gateways with shared := happen event p.gateways.shared}}

end Process

def again (keepAlive : Bool) : Phase := if keepAlive then .reading else .closed

def left (exit : Exit) : Phase := again (exit = .returned true)

-- The chat handler gave up control, or has ended: then the request is no longer
-- in flight, whether it returned or threw.
def settleChat (p : Process) (j : Nat) (session : Session) (call : Nat) : Process :=
  match p.gateways.threads[call]?.bind exitOf with
  | none => p.put j {session with phase := .chatting call}
  | some exit => {p with inFlight := p.inFlight - 1}.put j {session with phase := left exit}

def scrape (setup : Setup) (p : Process) (req : HttpRequest) : Response :=
  if req.method = .get ∧ req.target = text "/metrics" then
    {status := 200,body := Exposition.expose setup.print p.gateways.shared.registry,keepAlive := false}
  else
    {status := 404,keepAlive := false
     body := text "\x7b\"error\":\x7b\"message\":\"not found\",\"type\":\"not_found_error\",\"code\":404\x7d\x7d"}

def spawned (env : Env) (w : Gateways) (request : Request) : Gateways :=
  let out := settle (host env) w.threads.length w.shared (handleChat env request)
  ⟨out.1,w.threads ++ [⟨request,out.2.1,out.2.2⟩]⟩

def received (setup : Setup) (p : Process) (j : Nat) (session : Session) (req : HttpRequest) : Process :=
  match session.port with
  | .metrics => p.put j {session with phase := .replying (scrape setup p req)}
  | .gateway =>
    match handle setup.env p.draining req with
    | .threw => p.put j {session with phase := .closed}
    | .reply response => p.put j {session with phase := .replying response}
    | .chat request =>
      let call := p.gateways.threads.length
      settleChat {p with gateways := spawned setup.env p.gateways request,inFlight := p.inFlight + 1} j
        {session with trace := session.trace ++ [.chatted call]} call

def thirtySeconds : Int := 30000000000

def tenthOfSecond : Int := 100000000

def poll (p : Process) (d : Drainer) : Process :=
  if p.inFlight = 0 ∨ d.deadline ≤ p.clock then {p with drainer := some d,stopped := true}
  else {p with drainer := some {d with next := p.clock + tenthOfSecond}}

-- What the event loop runs next.
inductive Step where
  | accept (port : Port)
  | read (j : Nat) (request : Option HttpRequest)
  | wrote (j : Nat) (delivered : Bool)
  | resume (j : Nat) (answers : (point : Wait) → point.Answer)
  | probe (b : Nat) (answers : (point : Ask) → point.Answer)
  | wake (b : Nat) (cancelled : Bool)
  | tick (nanoseconds : Nat)
  | signal
  | poll

def step (setup : Setup) (p : Process) (action : Step) : Option Process :=
  if p.stopped then none else
  match action with
  | .accept port => some {p with sessions := p.sessions ++ [connected port]}
  | .read j request =>
    match p.sessions[j]? with
    | some ⟨port,.reading,trace⟩ =>
      let session : Session := ⟨port,.reading,trace ++ [.read request]⟩
      match request with
      | none => some (p.put j {session with phase := .closed})
      | some req => some (received setup p j session req)
    | _ => none
  | .wrote j delivered =>
    match p.sessions[j]? with
    | some ⟨port,.replying response,trace⟩ =>
      some (p.put j ⟨port,again (delivered && response.keepAlive),trace ++ [.wrote response delivered]⟩)
    | _ => none
  | .resume j answers =>
    match p.sessions[j]? with
    | some ⟨port,.chatting call,trace⟩ =>
      (advance (host setup.env) p.gateways (.resume call answers)).map fun gateways =>
        settleChat {p with gateways} j ⟨port,.chatting call,trace⟩ call
    | _ => none
  | .probe b answers =>
    match p.monitors[b]? with
    | none => none
    | some m =>
      match m.resume p.clock answers with
      | none => none
      | some (after,none) => some {p with monitors := p.monitors.set b after}
      | some (after,some found) => some ({p with monitors := p.monitors.set b after}.happening (.probed b found))
  | .wake b cancelled =>
    match p.monitors[b]? with
    | none => none
    | some m => (m.wake p.clock cancelled).map fun after => {p with monitors := p.monitors.set b after}
  | .tick nanoseconds => some (p.happening (.tick nanoseconds))
  | .signal =>
    match p.drainer with
    | some _ => none
    | none => some (poll {p with draining := true,monitors := p.monitors.map HealthMonitor.stop}
        ⟨p.clock + thirtySeconds,p.clock⟩)
  | .poll =>
    match p.drainer with
    | some d => if d.next ≤ p.clock then some (poll p d) else none
    | none => none

section Steps
variable {setup : Setup} {p q : Process} {action : Step}

-- Everything that a step can do.
inductive Moved (setup : Setup) (p : Process) : Step → Process → Prop where
  | accepted : Moved setup p (.accept port) {p with sessions := p.sessions ++ [connected port]}
  | lost : p.sessions[j]? = some ⟨port,.reading,trace⟩ →
      Moved setup p (.read j none) (p.put j ⟨port,.closed,trace ++ [.read none]⟩)
  | scraped : p.sessions[j]? = some ⟨.metrics,.reading,trace⟩ →
      Moved setup p (.read j (some req)) (p.put j ⟨.metrics,.replying (scrape setup p req),trace ++ [.read (some req)]⟩)
  | threw : p.sessions[j]? = some ⟨.gateway,.reading,trace⟩ → handle setup.env p.draining req = .threw →
      Moved setup p (.read j (some req)) (p.put j ⟨.gateway,.closed,trace ++ [.read (some req)]⟩)
  | replied : p.sessions[j]? = some ⟨.gateway,.reading,trace⟩ → handle setup.env p.draining req = .reply response →
      Moved setup p (.read j (some req)) (p.put j ⟨.gateway,.replying response,trace ++ [.read (some req)]⟩)
  | chatted (request : Request) : p.sessions[j]? = some ⟨.gateway,.reading,trace⟩ → handle setup.env p.draining req = .chat request →
      Moved setup p (.read j (some req))
        (settleChat {p with gateways := spawned setup.env p.gateways request,inFlight := p.inFlight + 1} j
          ⟨.gateway,.reading,trace ++ [.read (some req)] ++ [.chatted p.gateways.threads.length]⟩ p.gateways.threads.length)
  | wrote : p.sessions[j]? = some ⟨port,.replying response,trace⟩ →
      Moved setup p (.wrote j delivered)
        (p.put j ⟨port,again (delivered && response.keepAlive),trace ++ [.wrote response delivered]⟩)
  | resumed (gateways : Gateways) : p.sessions[j]? = some ⟨port,.chatting call,trace⟩ →
      advance (host setup.env) p.gateways (.resume call answers) = some gateways →
      Moved setup p (.resume j answers) (settleChat {p with gateways} j ⟨port,.chatting call,trace⟩ call)
  | probing : p.monitors[b]? = some m → m.resume p.clock answers = some (after,none) →
      Moved setup p (.probe b answers) {p with monitors := p.monitors.set b after}
  | probed (found : HealthState) : p.monitors[b]? = some m → m.resume p.clock answers = some (after,some found) →
      Moved setup p (.probe b answers) ({p with monitors := p.monitors.set b after}.happening (.probed b found))
  | woke : p.monitors[b]? = some m → m.wake p.clock cancelled = some after →
      Moved setup p (.wake b cancelled) {p with monitors := p.monitors.set b after}
  | ticked (nanoseconds : Nat) : Moved setup p (.tick nanoseconds) (p.happening (.tick nanoseconds))
  | signalled : p.drainer = none →
      Moved setup p .signal (poll {p with draining := true,monitors := p.monitors.map HealthMonitor.stop}
        ⟨p.clock + thirtySeconds,p.clock⟩)
  | polled : p.drainer = some d → d.next ≤ p.clock → Moved setup p .poll (poll p d)

theorem step_moved (ran : step setup p action = some q) : p.stopped = false ∧ Moved setup p action q := by
  unfold step at ran
  split at ran
  · cases ran
  · rename_i going
    refine ⟨by simpa using going,?_⟩
    split at ran
    · cases Option.some.inj ran
      exact .accepted
    · split at ran
      · rename_i port trace found
        dsimp only at ran
        split at ran
        · cases Option.some.inj ran
          exact .lost found
        · rename_i req
          cases Option.some.inj ran
          unfold received
          cases port with
          | metrics => exact .scraped found
          | gateway =>
            dsimp only
            split
            · rename_i thrown
              exact .threw found thrown
            · rename_i response chosen
              exact .replied found chosen
            · rename_i request chosen
              exact .chatted request found chosen
      · cases ran
    · split at ran
      · rename_i found
        cases Option.some.inj ran
        exact .wrote found
      · cases ran
    · split at ran
      · rename_i found
        obtain ⟨gateways,advanced,rfl⟩ := Option.map_eq_some_iff.mp ran
        exact .resumed gateways found advanced
      · cases ran
    · split at ran
      · cases ran
      · rename_i m found
        split at ran
        · cases ran
        · rename_i after going
          cases Option.some.inj ran
          exact .probing found going
        · rename_i after state going
          cases Option.some.inj ran
          exact .probed state found going
    · split at ran
      · cases ran
      · rename_i m found
        obtain ⟨after,woken,rfl⟩ := Option.map_eq_some_iff.mp ran
        exact .woke found woken
    · cases Option.some.inj ran
      exact .ticked _
    · split at ran
      · cases ran
      · rename_i undrained
        cases Option.some.inj ran
        exact .signalled undrained
    · split at ran
      · rename_i d draining
        split at ran
        · rename_i due
          cases Option.some.inj ran
          exact .polled draining due
        · cases ran
      · cases ran

theorem settleChat_cases (p : Process) (j : Nat) (session : Session) (call : Nat) :
    (p.gateways.threads[call]?.bind exitOf = none ∧ settleChat p j session call = p.put j {session with phase := .chatting call}) ∨
    ∃ exit, p.gateways.threads[call]?.bind exitOf = some exit ∧
      settleChat p j session call = {p with inFlight := p.inFlight - 1}.put j {session with phase := left exit} := by
  unfold settleChat
  cases ended : p.gateways.threads[call]?.bind exitOf with
  | none => exact .inl ⟨rfl,rfl⟩
  | some exit => exact .inr ⟨exit,rfl,rfl⟩

theorem poll_cases (p : Process) (d : Drainer) :
    ((p.inFlight = 0 ∨ d.deadline ≤ p.clock) ∧ poll p d = {p with drainer := some d,stopped := true}) ∨
    (p.inFlight ≠ 0 ∧ p.clock < d.deadline ∧ poll p d = {p with drainer := some {d with next := p.clock + tenthOfSecond}}) := by
  unfold poll
  split
  · rename_i over_
    exact .inl ⟨over_,rfl⟩
  · rename_i waiting
    obtain ⟨busy,early⟩ := not_or.mp waiting
    exact .inr ⟨busy,Int.lt_of_not_ge early,rfl⟩

@[simp] theorem settleChat_gateways (p : Process) (j : Nat) (session : Session) (call : Nat) :
    (settleChat p j session call).gateways = p.gateways := by
  unfold settleChat
  split <;> rfl

@[simp] theorem settleChat_monitors (p : Process) (j : Nat) (session : Session) (call : Nat) :
    (settleChat p j session call).monitors = p.monitors := by
  unfold settleChat
  split <;> rfl

@[simp] theorem settleChat_draining (p : Process) (j : Nat) (session : Session) (call : Nat) :
    (settleChat p j session call).draining = p.draining := by
  unfold settleChat
  split <;> rfl

@[simp] theorem settleChat_drainer (p : Process) (j : Nat) (session : Session) (call : Nat) :
    (settleChat p j session call).drainer = p.drainer := by
  unfold settleChat
  split <;> rfl

@[simp] theorem settleChat_stopped (p : Process) (j : Nat) (session : Session) (call : Nat) :
    (settleChat p j session call).stopped = p.stopped := by
  unfold settleChat
  split <;> rfl

@[simp] theorem poll_gateways (p : Process) (d : Drainer) : (poll p d).gateways = p.gateways := by
  unfold poll
  split <;> rfl

@[simp] theorem poll_monitors (p : Process) (d : Drainer) : (poll p d).monitors = p.monitors := by
  unfold poll
  split <;> rfl

@[simp] theorem poll_sessions (p : Process) (d : Drainer) : (poll p d).sessions = p.sessions := by
  unfold poll
  split <;> rfl

@[simp] theorem poll_draining (p : Process) (d : Drainer) : (poll p d).draining = p.draining := by
  unfold poll
  split <;> rfl

@[simp] theorem poll_inFlight (p : Process) (d : Drainer) : (poll p d).inFlight = p.inFlight := by
  unfold poll
  split <;> rfl

-- Where a session stands that waits for the chat handler.
def phaseOf (w : Gateways) (call : Nat) : Phase :=
  match w.threads[call]?.bind exitOf with
  | none => .chatting call
  | some exit => left exit

@[simp] theorem settleChat_sessions (p : Process) (j : Nat) (session : Session) (call : Nat) :
    (settleChat p j session call).sessions = p.sessions.set j {session with phase := phaseOf p.gateways call} := by
  unfold settleChat phaseOf
  split <;> rfl

-- Everything that a step can do to one session.
inductive Turned (setup : Setup) (p q : Process) : Session → Session → Prop where
  | lost : Turned setup p q ⟨port,.reading,trace⟩ ⟨port,.closed,trace ++ [.read none]⟩
  | scraped : Turned setup p q ⟨.metrics,.reading,trace⟩ ⟨.metrics,.replying (scrape setup p req),trace ++ [.read (some req)]⟩
  | threw : handle setup.env p.draining req = .threw →
      Turned setup p q ⟨.gateway,.reading,trace⟩ ⟨.gateway,.closed,trace ++ [.read (some req)]⟩
  | replied : handle setup.env p.draining req = .reply response →
      Turned setup p q ⟨.gateway,.reading,trace⟩ ⟨.gateway,.replying response,trace ++ [.read (some req)]⟩
  | chatted (request : Request) : handle setup.env p.draining req = .chat request →
      q.gateways = spawned setup.env p.gateways request →
      Turned setup p q ⟨.gateway,.reading,trace⟩
        ⟨.gateway,phaseOf q.gateways p.gateways.threads.length,
          trace ++ [.read (some req)] ++ [.chatted p.gateways.threads.length]⟩
  | wrote : Turned setup p q ⟨port,.replying response,trace⟩
      ⟨port,again (delivered && response.keepAlive),trace ++ [.wrote response delivered]⟩
  | resumed : advance (host setup.env) p.gateways (.resume call answers) = some q.gateways →
      Turned setup p q ⟨port,.chatting call,trace⟩ ⟨port,phaseOf q.gateways call,trace⟩

theorem moved_sessions (moved : Moved setup p action q) :
    q.sessions = p.sessions ∨ (∃ port, q.sessions = p.sessions ++ [connected port]) ∨
      ∃ j old new, p.sessions[j]? = some old ∧ q.sessions = p.sessions.set j new ∧ Turned setup p q old new := by
  cases moved with
  | accepted => exact .inr (.inl ⟨_,rfl⟩)
  | lost found => exact .inr (.inr ⟨_,_,_,found,rfl,.lost⟩)
  | scraped found => exact .inr (.inr ⟨_,_,_,found,rfl,.scraped⟩)
  | threw found thrown => exact .inr (.inr ⟨_,_,_,found,rfl,.threw thrown⟩)
  | replied found chosen => exact .inr (.inr ⟨_,_,_,found,rfl,.replied chosen⟩)
  | chatted request found chosen =>
    refine .inr (.inr ⟨_,_,_,found,settleChat_sessions _ _ _ _,?_⟩)
    rw [← settleChat_gateways {p with gateways := spawned setup.env p.gateways request,inFlight := p.inFlight + 1}]
    exact .chatted request chosen (settleChat_gateways _ _ _ _)
  | wrote found => exact .inr (.inr ⟨_,_,_,found,rfl,.wrote⟩)
  | resumed gateways found advanced =>
    refine .inr (.inr ⟨_,_,_,found,settleChat_sessions _ _ _ _,?_⟩)
    rw [← settleChat_gateways {p with gateways}]
    exact .resumed (by rw [settleChat_gateways]; exact advanced)
  | probing | probed | woke | ticked => exact .inl rfl
  | signalled | polled => exact .inl (poll_sessions _ _)

end Steps

abbrev Reachable (setup : Setup) (meets : Process → Step → Prop) (p : Process) : Prop :=
  Transition.Reached (step setup) meets (launch setup) p

section Refinement
variable {setup : Setup} {p q : Process} {action : Step} {meets : Process → Step → Prop}

-- In the process health only changes by what monitors find.
def Monitored (_ : Gateways) : Action Request Happening Wait.Answer → Prop
  | .surround (.setHealthForTest _ _) => False
  | _ => True

theorem moved_gateways (moved : Moved setup p action q) :
    q.gateways = p.gateways ∨
      ∃ act, Monitored p.gateways act ∧ advance (host setup.env) p.gateways act = some q.gateways := by
  cases moved with
  | accepted | lost | scraped | threw | replied | wrote | probing | woke => exact .inl rfl
  | chatted request =>
    exact .inr ⟨.spawn request,trivial,by rw [settleChat_gateways]; rfl⟩
  | resumed _ _ advanced => exact .inr ⟨.resume _ _,trivial,by rw [settleChat_gateways]; exact advanced⟩
  | probed found => exact .inr ⟨.surround (.probed _ found),trivial,rfl⟩
  | ticked nanoseconds => exact .inr ⟨.surround (.tick nanoseconds),trivial,rfl⟩
  | signalled | polled => exact .inl (poll_gateways _ _)

-- The process refines the requests alone: its sessions, monitors and drain only
-- take steps that the gateways can take among themselves.
theorem reachable_gateways (path : Reachable setup meets p) : Fleet.Reachable setup.env Monitored p.gateways :=
  Transition.reached_simulated Process.gateways (fun _ _ _ _ ran => moved_gateways (step_moved ran).2) path

-- What no operation of a request changes, only the surroundings change.
theorem spawned_kept {X : Type} (view : State → X) (kept : ∀ i op s, view (exec i op s).2 = view s) (w : Gateways)
    (request : Request) : view (spawned env w request).shared = view w.shared := by
  exact settle_shared (host env) (fun i op s same => (kept i op s).trans same) _ w.shared _ rfl

theorem resumed_kept {X : Type} (view : State → X) (kept : ∀ i op s, view (exec i op s).2 = view s) {w next : Gateways}
    (advanced : advance (host env) w (.resume call answers) = some next) : view next.shared = view w.shared := by
  obtain ⟨request,spawns,-⟩ | ⟨j,_,request,trace,point,rest,-,-,rfl⟩ | ⟨event,surrounds,-⟩ :=
    advance_cases (host env) advanced
  · cases spawns
  · exact settle_shared (host env) (fun i op s same => (kept i op s).trans same) _ w.shared _ rfl
  · cases surrounds

theorem exec_clock (i : Nat) (op : Op) (s : State) : (exec i op s).2.clock = s.clock := by
  cases op with
  | observedHealth b | load b | allowRequest b | report b | tryAcquire b | releaseSlot b =>
    simp only [exec,onBackend]
    cases s.backends[b]? <;> rfl
  | _ => rfl

theorem moved_clock (moved : Moved setup p action q) :
    q.clock = p.clock ∨ ∃ nanoseconds, action = .tick nanoseconds ∧ q = p.happening (.tick nanoseconds) := by
  cases moved with
  | accepted | lost | scraped | threw | replied | wrote | probing | woke => exact .inl rfl
  | chatted request =>
    refine .inl ?_
    rw [Process.clock,settleChat_gateways]
    exact spawned_kept State.clock exec_clock p.gateways request
  | resumed gateways _ advanced =>
    refine .inl ?_
    rw [Process.clock,settleChat_gateways]
    exact resumed_kept State.clock exec_clock advanced
  | probed found =>
    refine .inl ?_
    simp only [Process.clock,Process.happening,happen,onBackend]
    split <;> rfl
  | ticked nanoseconds => exact .inr ⟨nanoseconds,rfl,rfl⟩
  | signalled | polled => exact .inl (by rw [Process.clock,poll_gateways]; rfl)

end Refinement

section Sample

def sampleSetup : Setup where
  env := sampleEnv ["a"]
  print := fun _ => []
  probes := [(.vllm,2000000000)]
  paired := rfl

def fine : (point : Ask) → point.Answer
  | .connect _ | .writeRequest _ => .ok ()
  | .readResponse _ => .ok ⟨200,[]⟩

def chatCall : HttpRequest := ⟨.post,text "/v1/chat/completions",(chatRequest true).body,true⟩

-- The backend is found healthy, and a client's chat request is sent to it.
def busy : List Step := [.probe 0 fine,.probe 0 fine,.probe 0 fine,.accept .gateway,.read 0 (some chatCall)]

theorem reached_shown {V : Type} {seen : V} (actions : List Step) (view : Process → V)
    (shown : (Transition.run (step setup) (launch setup) actions).map view = some seen) :
    ∃ p, Reachable setup Transition.Any p ∧ view p = seen := by
  obtain ⟨p,ran,same⟩ := Option.map_eq_some_iff.mp shown
  exact ⟨p,Transition.run_reached .initial ran,same⟩

theorem busy_reached : ∃ p, Reachable sampleSetup Transition.Any p ∧ p.inFlight = 1 :=
  reached_shown busy _ (by decide +kernel)

end Sample

end Kvmux.Server
