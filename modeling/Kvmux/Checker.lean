import Mathlib.Data.List.Basic
import Mathlib.Data.List.Infix
import Kvmux.Client
import Kvmux.ConfigLoader

namespace Kvmux.Checker
open Coroutine Client ConfigLoader

structure ProbeResult where
  connected : Bool := false
  httpStatus : Nat := 0
  body : Bytes := []

def evaluateHealthEndpoint (health : ProbeResult) : HealthState :=
  if !health.connected then .dead
  else if health.httpStatus = 200 then .healthy
  else if health.httpStatus = 503 then .notReady
  else .dead

def banner : Bytes := text "Ollama is running"

def evaluateOllama (liveness readiness : ProbeResult) : HealthState :=
  let live := liveness.connected && liveness.httpStatus == 200 && decide (banner <:+: liveness.body)
  if !live then .dead
  else if readiness.connected && readiness.httpStatus == 200 then .healthy
  else .notReady

def toProbe (r : UnaryResult) : ProbeResult := ⟨r.connected,r.httpStatus,r.body⟩

-- The suspension points of the GET of a path. A probe does nothing to the
-- gateway before it stores what it found.
inductive Ask where
  | connect (path : Bytes)
  | writeRequest (path : Bytes)
  | readResponse (path : Bytes)
  deriving DecidableEq, Repr

abbrev Ask.Answer : Ask → Type
  | .connect _ | .writeRequest _ => Except Fault Unit
  | .readResponse _ => Except Fault Received

abbrev Probing (α : Type) := Co (fun _ : Empty => Unit) Ask.Answer α

abbrev ask (point : Ask) : Probing point.Answer := await point

abbrev Round := List (Event (fun _ : Empty => Unit) Ask.Answer)

def get (path : Bytes) : Probing UnaryResult := do
  match ← ask (.connect path) with
  | .error _ => pure {}
  | .ok _ =>
    match ← ask (.writeRequest path) with
    | .error _ => pure {connected := true}
    | .ok _ =>
      match ← ask (.readResponse path) with
      | .error _ => pure {connected := true}
      | .ok received => pure {connected := true,httpStatus := received.status,body := received.body}

-- One round of probes, up to the state that it stores.
def probeOnce : BackendType → Probing HealthState
  | .vllm | .llamacpp => do
    let r ← get (text "/health")
    pure (evaluateHealthEndpoint (toProbe r))
  | .ollama => do
    let live ← get (text "/")
    let ready ← get (text "/api/tags")
    pure (evaluateOllama (toProbe live) (toProbe ready))

section Verdict

-- The paths a round asks for, and the responses it received in full.
def asked (round : Round) : List Bytes := round.filterMap fun
  | .got (.connect path) _ => some path
  | _ => none

def responses (round : Round) : List (Bytes × Received) := round.filterMap fun
  | .got (.readResponse path) (.ok received) => some (path,received)
  | _ => none

@[simp] theorem asked_append (first second : Round) : asked (first ++ second) = asked first ++ asked second :=
  List.filterMap_append

@[simp] theorem responses_append (first second : Round) : responses (first ++ second) = responses first ++ responses second :=
  List.filterMap_append

def endpoints : BackendType → List Bytes
  | .vllm | .llamacpp => [text "/health"]
  | .ollama => [text "/",text "/api/tags"]

def answeredWith (path : String) (fits : Received → Bool) (answers : List (Bytes × Received)) : Bool :=
  answers.any fun answer => answer.1 == text path && fits answer.2

-- What the responses of a round say: a backend of the given type is up, and it
-- can serve. One that is up without serving is loading.
def live : BackendType → List (Bytes × Received) → Bool
  | .vllm | .llamacpp => answeredWith "/health" fun received => received.status == 200 || received.status == 503
  | .ollama => answeredWith "/" fun received => received.status == 200 && decide (banner <:+: received.body)

def ready : BackendType → List (Bytes × Received) → Bool
  | .vllm | .llamacpp => answeredWith "/health" fun received => received.status == 200
  | .ollama => answeredWith "/api/tags" fun received => received.status == 200

def judge (type : BackendType) (answers : List (Bytes × Received)) : HealthState :=
  if live type answers then if ready type answers then .healthy else .notReady else .dead

-- One GET: it is made once, and its result is the response it received or has no status.
structure Got (path : Bytes) (t : Round) (r : UnaryResult) : Prop where
  once : asked t = [path]
  result : (responses t = [] ∧ r.httpStatus = 0) ∨
    ∃ received, responses t = [(path,received)] ∧ r = {connected := true,httpStatus := received.status,body := received.body}

theorem get_runs (path : Runs (get target) t r) : Got target t r := by
  unfold get at path
  obtain ⟨connected,rest,rfl,asking⟩ := runs_await.mp path
  cases connected with
  | error fault =>
    obtain ⟨rfl,rfl⟩ := runs_ret.mp asking
    exact ⟨rfl,.inl ⟨rfl,rfl⟩⟩
  | ok _ =>
    obtain ⟨written,rest,rfl,waiting⟩ := runs_await.mp asking
    cases written with
    | error fault =>
      obtain ⟨rfl,rfl⟩ := runs_ret.mp waiting
      exact ⟨rfl,.inl ⟨rfl,rfl⟩⟩
    | ok _ =>
      obtain ⟨answer,rest,rfl,reading⟩ := runs_await.mp waiting
      cases answer with
      | error fault =>
        obtain ⟨rfl,rfl⟩ := runs_ret.mp reading
        exact ⟨rfl,.inl ⟨rfl,rfl⟩⟩
      | ok received =>
        obtain ⟨rfl,rfl⟩ := runs_ret.mp reading
        exact ⟨rfl,.inr ⟨received,rfl,rfl⟩⟩

theorem healthEndpoint_judged (got : Got (text "/health") t r) :
    evaluateHealthEndpoint (toProbe r) = judge .vllm (responses t) := by
  rcases got.result with ⟨none,unknown⟩ | ⟨received,one,rfl⟩
  · simp [evaluateHealthEndpoint,toProbe,judge,live,answeredWith,none,unknown]
  · by_cases fine : received.status = 200
    · simp [evaluateHealthEndpoint,toProbe,judge,live,ready,answeredWith,one,fine]
    · by_cases loading : received.status = 503
      · simp [evaluateHealthEndpoint,toProbe,judge,live,ready,answeredWith,one,loading]
      · simp [evaluateHealthEndpoint,toProbe,judge,live,answeredWith,one,fine,loading]

theorem ollama_judged (up : Got (text "/") t one) (tags : Got (text "/api/tags") u two) :
    evaluateOllama (toProbe one) (toProbe two) = judge .ollama (responses t ++ responses u) := by
  have apart : text "/" ≠ text "/api/tags" := by decide +kernel
  -- The two GETs ask for different paths, so each test sees one of them.
  have living : live .ollama (responses t ++ responses u) =
      (one.connected && one.httpStatus == 200 && decide (banner <:+: one.body)) := by
    rcases up.result with ⟨none,unknown⟩ | ⟨received,found,rfl⟩
    · rcases tags.result with ⟨silent,-⟩ | ⟨listed,shown,-⟩
      · simp [live,answeredWith,none,silent,unknown]
      · simp [live,answeredWith,none,shown,unknown,apart.symm]
    · rcases tags.result with ⟨silent,-⟩ | ⟨listed,shown,-⟩
      · simp [live,answeredWith,found,silent]
      · simp [live,answeredWith,found,shown,apart.symm]
  have serving : ready .ollama (responses t ++ responses u) = (two.connected && two.httpStatus == 200) := by
    rcases tags.result with ⟨silent,unknown⟩ | ⟨listed,shown,rfl⟩
    · rcases up.result with ⟨none,-⟩ | ⟨received,found,-⟩
      · simp [ready,answeredWith,none,silent,unknown]
      · simp [ready,answeredWith,found,silent,unknown,apart]
    · rcases up.result with ⟨none,-⟩ | ⟨received,found,-⟩
      · simp [ready,answeredWith,none,shown]
      · simp [ready,answeredWith,found,shown,apart]
  rw [judge,living,serving]
  unfold evaluateOllama toProbe
  cases one.connected && one.httpStatus == 200 && decide (banner <:+: one.body) <;> rfl

-- A round asks for the endpoints of its backend's type, each once and in order,
-- and stores what their responses say.
theorem probeOnce_runs {round : Round} (path : Runs (probeOnce type) round found) :
    asked round = endpoints type ∧ found = judge type (responses round) := by
  cases type with
  | vllm | llamacpp =>
    obtain ⟨first,r,rest,rfl,getting,ending⟩ := runs_bind.mp path
    obtain ⟨rfl,rfl⟩ := runs_ret.mp ending
    have got := get_runs getting
    rw [List.append_nil]
    exact ⟨got.once,healthEndpoint_judged got⟩
  | ollama =>
    obtain ⟨first,live,rest,rfl,checking,going⟩ := runs_bind.mp path
    obtain ⟨second,ready,rest,rfl,listing,ending⟩ := runs_bind.mp going
    obtain ⟨rfl,rfl⟩ := runs_ret.mp ending
    have alive := get_runs checking
    have listed := get_runs listing
    rw [List.append_nil,asked_append,responses_append,alive.once,listed.once]
    exact ⟨rfl,ollama_judged alive listed⟩

end Verdict
section Monitor

-- Where the loop of a monitor stands: in a round, at its timer, or left.
inductive Standing where
  | probing (code : Probing HealthState)
  | sleeping (due : Int)
  | ended

-- A monitor, with the rounds it has completed (the last one first) and what the
-- round in progress has seen so far.
structure HealthMonitor where
  type : BackendType
  interval : Int
  stopped : Bool := false
  phase : Standing
  seen : Round := []
  rounds : List Round := []

def HealthMonitor.loop (m : HealthMonitor) : HealthMonitor :=
  if m.stopped then {m with phase := .ended} else {m with phase := .probing (probeOnce m.type)}

def HealthMonitor.run (type : BackendType) (interval : Int) : HealthMonitor := ({type,interval,phase := .ended} : HealthMonitor).loop

def HealthMonitor.stop (m : HealthMonitor) : HealthMonitor := {m with stopped := true}

-- A round goes on with an answer; at its end the state found is stored and the
-- timer is set.
def HealthMonitor.resume (m : HealthMonitor) (now : Int) (answers : (point : Ask) → point.Answer) :
    Option (HealthMonitor × Option HealthState) :=
  match m.phase with
  | .probing (.wait point next) =>
    let seen := m.seen ++ [.got point (answers point)]
    match next (answers point) with
    | .ret found => some ({m with phase := .sleeping (now + m.interval),seen := [],rounds := seen :: m.rounds},some found)
    | code => some ({m with phase := .probing code,seen},none)
  | _ => none

def HealthMonitor.wake (m : HealthMonitor) (now : Int) (cancelled : Bool) : Option HealthMonitor :=
  match m.phase with
  | .sleeping due =>
    if cancelled then some {m with phase := .ended}
    else if due ≤ now then some m.loop
    else none
  | _ => none

-- What the last completed round found, and what is reported before the first one.
def HealthMonitor.verdict (m : HealthMonitor) : HealthState :=
  match m.rounds with
  | [] => .dead
  | round :: _ => judge m.type (responses round)

-- The round in progress is a path of the probes, and completed rounds are runs of them.
structure HealthMonitor.Sound (m : HealthMonitor) : Prop where
  current : ∀ code, m.phase = .probing code → Path (probeOnce m.type) m.seen code
  idle : (∀ code, m.phase ≠ .probing code) → m.seen = []
  past : ∀ round ∈ m.rounds, ∃ found, Runs (probeOnce m.type) round found

theorem HealthMonitor.resume_cases {m after : HealthMonitor} (ran : m.resume now answers = some (after,found)) :
    ∃ point next, m.phase = .probing (.wait point next) ∧
      ((∃ value, next (answers point) = .ret value ∧ found = some value ∧
          after = {m with phase := .sleeping (now + m.interval),seen := [],
                          rounds := (m.seen ++ [.got point (answers point)]) :: m.rounds}) ∨
        (found = none ∧ after = {m with phase := .probing (next (answers point)),
                                        seen := m.seen ++ [.got point (answers point)]})) := by
  unfold HealthMonitor.resume at ran
  split at ran
  · rename_i point next probing
    refine ⟨point,next,probing,?_⟩
    dsimp only at ran
    split at ran
    · rename_i value ended
      cases Option.some.inj ran
      exact .inl ⟨value,ended,rfl,rfl⟩
    · cases Option.some.inj ran
      exact .inr ⟨rfl,rfl⟩
  · cases ran

theorem HealthMonitor.wake_cases {m after : HealthMonitor} (ran : m.wake now cancelled = some after) :
    ∃ due, m.phase = .sleeping due ∧
      ((cancelled = true ∧ after = {m with phase := .ended}) ∨ (cancelled = false ∧ due ≤ now ∧ after = m.loop)) := by
  unfold HealthMonitor.wake at ran
  split at ran
  · rename_i due sleeping
    refine ⟨due,sleeping,?_⟩
    split at ran
    · rename_i given
      exact .inl ⟨given,(Option.some.inj ran).symm⟩
    · rename_i fired
      split at ran
      · rename_i passed
        exact .inr ⟨by simpa using fired,passed,(Option.some.inj ran).symm⟩
      · cases ran
  · cases ran

theorem HealthMonitor.Sound.loop {m : HealthMonitor} (quiet : m.seen = [])
    (past : ∀ round ∈ m.rounds, ∃ found, Runs (probeOnce m.type) round found) : m.loop.Sound := by
  unfold HealthMonitor.loop
  split
  · exact ⟨nofun,fun _ => quiet,past⟩
  · refine ⟨fun code probing => ?_,fun never => absurd rfl (never _),past⟩
    cases probing
    rw [quiet]
    exact .here

theorem HealthMonitor.run_sound (type : BackendType) (interval : Int) : (HealthMonitor.run type interval).Sound :=
  .loop rfl (List.forall_mem_nil _)

theorem HealthMonitor.Sound.stop {m : HealthMonitor} (sound : m.Sound) : m.stop.Sound := ⟨sound.current,sound.idle,sound.past⟩

theorem HealthMonitor.Sound.further {m : HealthMonitor} (sound : m.Sound) (probing : m.phase = .probing (.wait point next))
    (answer : point.Answer) : Path (probeOnce m.type) (m.seen ++ [.got point answer]) (next answer) :=
  (sound.current _ probing).trans (.wait .here)

theorem HealthMonitor.Sound.resume {m : HealthMonitor} (sound : m.Sound) (ran : m.resume now answers = some (after,found)) :
    after.Sound := by
  obtain ⟨point,next,probing,⟨value,ended,-,rfl⟩ | ⟨-,rfl⟩⟩ := resume_cases ran
  · refine ⟨nofun,fun _ => rfl,?_⟩
    have path := sound.further probing (answers point)
    rw [ended] at path
    exact List.forall_mem_cons.mpr ⟨⟨value,path⟩,sound.past⟩
  · refine ⟨fun code again => ?_,fun never => absurd rfl (never _),sound.past⟩
    cases again
    exact sound.further probing (answers point)

theorem HealthMonitor.Sound.wake {m : HealthMonitor} (sound : m.Sound) (ran : m.wake now cancelled = some after) :
    after.Sound := by
  obtain ⟨due,sleeping,next⟩ := wake_cases ran
  have quiet : m.seen = [] := sound.idle fun code probing => by
    rw [sleeping] at probing
    cases probing
  obtain ⟨-,rfl⟩ | ⟨-,-,rfl⟩ := next
  · exact ⟨nofun,fun _ => quiet,sound.past⟩
  · exact .loop quiet sound.past

theorem HealthMonitor.loop_verdict (m : HealthMonitor) : m.loop.type = m.type ∧ m.loop.verdict = m.verdict := by
  unfold HealthMonitor.loop
  split
  · exact ⟨rfl,rfl⟩
  · exact ⟨rfl,rfl⟩

theorem HealthMonitor.wake_verdict {m : HealthMonitor} (ran : m.wake now cancelled = some after) :
    after.type = m.type ∧ after.verdict = m.verdict := by
  obtain ⟨due,-,⟨-,rfl⟩ | ⟨-,-,rfl⟩⟩ := wake_cases ran
  · exact ⟨rfl,rfl⟩
  · exact m.loop_verdict

-- What a round stores is what its responses say.
theorem HealthMonitor.resume_verdict {m : HealthMonitor} (sound : m.Sound) (ran : m.resume now answers = some (after,found)) :
    after.type = m.type ∧ after.verdict = found.getD m.verdict := by
  obtain ⟨point,next,probing,⟨value,ended,rfl,rfl⟩ | ⟨rfl,rfl⟩⟩ := resume_cases ran
  · refine ⟨rfl,?_⟩
    have path := sound.further probing (answers point)
    rw [ended] at path
    exact (probeOnce_runs path).2.symm
  · exact ⟨rfl,rfl⟩

end Monitor
end Kvmux.Checker
