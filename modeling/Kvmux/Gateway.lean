import Mathlib.Data.List.Basic
import Kvmux.Client
import Kvmux.Config
import Kvmux.OpenAi
import Kvmux.Routing

namespace Kvmux.Gateway
open Coroutine SseParser SseCodec Client Metrics OpenAi Routing

structure Env where
  cfg : Config
  json : JsonLib
  xxh64 : Bytes → UInt64

structure Request where
  body : Bytes
  keepAlive : Bool

-- How an invocation of the handler ends: with the value it returns, or with an
-- exception that the session sees.
inductive Exit where
  | returned (keepAlive : Bool)
  | threw
  deriving DecidableEq, Repr

-- The locals that the terminal recorder reads when the handler is left.
structure Outcome where
  exit : Exit
  finalCode : Nat := 0
  labels : Labels
  deriving DecidableEq, Repr

def seconds (nanoseconds : Int) : Float := Float.ofInt nanoseconds / 1e9

def errorJson (env : Env) (kind : ErrorKind) (message param : Bytes) : Option Bytes :=
  env.json.dump (makeError kind message param)

def writeJson (keepAlive : Bool) (status : Nat) (body : Bytes) : Prog Exit := do
  if ← suspend (.writeJson {status,body,keepAlive,retryAfter := status == 429}) then pure (.returned keepAlive)
  else pure .threw

-- The code is noted first; a body that cannot be serialised throws before the write.
def respond (labels : Labels) (keepAlive : Bool) (status : Nat) : Option Bytes → Prog Outcome
  | none => pure ⟨.threw,status,labels⟩
  | some body => do
    let exit ← writeJson keepAlive status body
    pure ⟨exit,status,labels⟩

structure SseWriter where
  keepAlive : Bool
  headerSent : Bool := false
  ended : Bool := false

def SseWriter.begin (w : SseWriter) : Prog (Bool × SseWriter) := do
  if w.headerSent then pure (true,w) else
  if ← suspend (.writeHeader w.keepAlive) then pure (true,{w with headerSent := true}) else pure (false,w)

def writeData (site : Site) (payload : Bytes) : Prog Bool := suspend (.writeChunk site (frame payload))

def SseWriter.finish (w : SseWriter) : Prog Bool := do
  if w.ended then pure true else suspend .writeLastChunk

structure SinkState where
  writer : SseWriter
  headerStarted : Bool := false
  downstreamDead : Bool := false
  firstFrameSeen : Bool := false
  tPrevFrame : Int := 0

-- Latency instruments of one forwarded frame.
def observeFrame (blabels : Labels) (tAdmitted tNow : Int) (s : SinkState) (ev : SseEvent) : Prog Unit := do
  if !s.firstFrameSeen then
    act (.record (.observeOverhead blabels (seconds (tNow - tAdmitted))))
    act (.record (.observeTtft blabels (seconds (tNow - tAdmitted))))
  else if !ev.isDone then
    act (.record (.observeItl blabels (seconds (tNow - s.tPrevFrame))))

def forward (blabels : Labels) (tAdmitted : Int) (s : SinkState) (ev : SseEvent) : Prog (Bool × SinkState) := do
  let tNow ← act .now
  observeFrame blabels tAdmitted tNow s ev
  let s := {s with firstFrameSeen := true,tPrevFrame := tNow}
  if ← writeData .sink ev.data then pure (true,s) else pure (false,{s with downstreamDead := true})

def sink (blabels : Labels) (tAdmitted : Int) (s : SinkState) (ev : SseEvent) : Prog (Bool × SinkState) := do
  if s.downstreamDead then pure (false,s)
  else if s.headerStarted then forward blabels tAdmitted s ev
  else
    let (sent,writer) ← s.writer.begin
    if sent then forward blabels tAdmitted {s with writer,headerStarted := true} ev
    else pure (false,{s with writer,downstreamDead := true})

inductive Verdict where
  | next
  | finish (outcome : Outcome)
  deriving DecidableEq, Repr

-- What the attempts of one request share.
structure Job where
  creq : ChatCompletionRequest
  keepAlive : Bool
  tAdmitted : Int
  upstreamText : Bytes

def noteFailure (b : Nat) (isProbe : Bool) (labels : Labels) : Prog Unit := do
  act (.report b .failure isProbe)
  act (.record (.incBackendFailures labels))

def answer (labels : Labels) (keepAlive : Bool) (status : Nat) (body : Option Bytes) : Prog Verdict := do
  let outcome ← respond labels keepAlive status body
  pure (.finish outcome)

-- `more` tells whether budget and candidates for another attempt are left.
def unaryAttempt (env : Env) (job : Job) (labels : Labels) (b : Nat) (isProbe more : Bool) : Prog Verdict := do
  let ur ← postChat b job.upstreamText
  if !ur.connected then
    noteFailure b isProbe labels
    pure .next
  else if ur.httpStatus ≥ 500 then
    noteFailure b isProbe labels
    if more then pure .next
    else answer labels job.keepAlive ur.httpStatus (env.json.dump (wrapUpstreamError env.json ur.body ur.httpStatus))
  else
    act (.report b .success isProbe)
    if ur.httpStatus ≥ 400 then
      answer labels job.keepAlive ur.httpStatus (env.json.dump (wrapUpstreamError env.json ur.body ur.httpStatus))
    else answer labels job.keepAlive 200 (some ur.body)

def finished (labels : Labels) (exit : Exit) : Verdict := .finish ⟨exit,200,labels⟩

-- Nothing reached the client: the upstream outcome decides.
def classifyUnsent (env : Env) (job : Job) (labels : Labels) (b : Nat) (isProbe more : Bool) (sr : StreamResult)
    (writer : SseWriter) : Prog Verdict := do
  if sr.httpStatus ≥ 400 || !sr.connected || sr.timedOut || sr.upstreamAborted then
    noteFailure b isProbe labels
    if more then pure .next
    else if sr.httpStatus ≥ 400 then
      answer labels job.keepAlive sr.httpStatus (env.json.dump (wrapUpstreamError env.json sr.errorBody sr.httpStatus))
    else if sr.timedOut then
      answer labels job.keepAlive 504 (errorJson env .upstreamTimeout (text "upstream timed out") [])
    else
      answer labels job.keepAlive 502 (errorJson env .upstreamFailure (text "upstream connection failed") [])
  else
    act (.report b .success isProbe)
    let (sent,writer) ← writer.begin
    if !sent then pure (.finish ⟨.threw,0,labels⟩) else
    if !(← writeData .gateway (text "[DONE]")) then pure (finished labels (.returned false)) else
    if !(← writer.finish) then pure (finished labels (.returned false)) else
    pure (finished labels (.returned job.keepAlive))

-- The SSE header is on the wire: no failover from here on.
def classifySent (env : Env) (job : Job) (labels : Labels) (b : Nat) (isProbe : Bool) (sr : StreamResult)
    (s : SinkState) : Prog Verdict := do
  if s.downstreamDead then pure (finished labels (.returned false))
  else if sr.upstreamAborted || sr.timedOut then
    noteFailure b isProbe labels
    let error := if sr.timedOut then errorJson env .upstreamTimeout (text "upstream timed out mid-stream") []
      else errorJson env .upstreamFailure (text "upstream aborted mid-stream") []
    match error with
    | none => pure (finished labels (.returned false))
    | some payload =>
      if ← writeData .gateway payload then
        let _ ← s.writer.finish
        pure (finished labels (.returned false))
      else pure (finished labels (.returned false))
  else
    act (.report b .success isProbe)
    if ← s.writer.finish then pure (finished labels (.returned job.keepAlive))
    else pure (finished labels (.returned false))

def streamAttempt (env : Env) (job : Job) (labels : Labels) (b : Nat) (isProbe more : Bool) : Prog Verdict := do
  let (sr,s) ← streamChat (sink labels job.tAdmitted) b job.upstreamText {writer := {keepAlive := job.keepAlive}}
  if !s.headerStarted then classifyUnsent env job labels b isProbe more sr s.writer
  else classifySent env job labels b isProbe sr s

def attempt (env : Env) (job : Job) (labels : Labels) (b : Nat) (isProbe more : Bool) : Prog Verdict :=
  if job.creq.stream then streamAttempt env job labels b isProbe more
  else unaryAttempt env job labels b isProbe more

def maxAttempts : Nat := 2

def backendName (env : Env) (b : Nat) : Bytes := (env.cfg.backends[b]?.map BackendConfig.name).getD []

def exhausted (env : Env) (job : Job) (labels : Labels) : Prog Outcome :=
  respond labels job.keepAlive 503 (errorJson env .noBackend (text "no eligible backend could serve the request") [])

def recordSpills (spills : Nat) (spillsRecorded : Bool) (blabels : Labels) : Prog Unit :=
  if !spillsRecorded && spills > 0 then act (.record (.incAffinitySpills blabels spills)) else pure ()

-- The failover walk. The slot is given back however the attempt ends.
def walk (env : Env) (job : Job) (spills : Nat) : List Nat → Nat → Bool → Labels → Prog Outcome
  | [],_,_,labels => exhausted env job labels
  | b :: rest,attempts,spillsRecorded,labels => do
    if attempts ≥ maxAttempts then exhausted env job labels else
    let blabels := {labels with backend := backendName env b}
    recordSpills spills spillsRecorded blabels
    let spillsRecorded := spillsRecorded || spills > 0
    let dec ← act (.allowRequest b)
    if !dec.allowed then walk env job spills rest attempts spillsRecorded labels else
    if !(← act (.tryAcquire b)) then
      act (.report b .abort dec.isProbe)
      walk env job spills rest attempts spillsRecorded labels
    else
      let verdict ← attempt env job blabels b dec.isProbe (attempts + 1 < maxAttempts && rest != [])
      act (.releaseSlot b)
      match verdict with
      | .next => walk env job spills rest (attempts + 1) spillsRecorded blabels
      | .finish outcome => pure outcome

def backendsForModel (env : Env) (model : Bytes) : List Nat :=
  (List.range env.cfg.backends.length).filter fun i =>
    match env.cfg.backends[i]? with
    | some conf => conf.models.contains model
    | none => false

def snapshot : List Nat → Prog (List Candidate)
  | [] => pure []
  | idx :: rest => do
    if (← act (.observedHealth idx)) ≠ .healthy then snapshot rest else
    let (activeRequests,maxInFlight) ← act (.load idx)
    let later ← snapshot rest
    pure ({backendIndex := idx,activeRequests,maxInFlight} :: later)

def affinityContent (env : Env) (content : Json) : Option Bytes :=
  match content with
  | .string value => some value
  | .null => some []
  | _ => env.json.dump content

def orderCandidates (env : Env) (creq : ChatCompletionRequest) (candidates : List Candidate) :
    Prog (Option RouteOrder) := do
  match env.cfg.routing.policy with
  | .prefixAffinity =>
    let msgs := creq.messages.mapM fun m => (affinityContent env m.content).map fun content => (m.role,content)
    pure (msgs.map fun msgs => prefixAffinityOrder env.xxh64 env.cfg.routing.loadThreshold
      (canonicalAffinityString creq.model msgs env.cfg.routing.prefixBytes.1) candidates)
  | .roundRobin =>
    if candidates = [] then pure (some {}) else
    let start ← act .nextCursor
    pure (some (roundRobinOrder start candidates))

def admitted (env : Env) (creq : ChatCompletionRequest) (keepAlive : Bool) (labels : Labels) : Prog Outcome := do
  let tAdmitted ← act .now
  act .publishAdmissionGauges
  let candidates ← snapshot (backendsForModel env creq.model)
  if candidates = [] then
    respond labels keepAlive 503
      (errorJson env .noBackend (text "no eligible backend for model '" ++ creq.model ++ text "'") [])
  else
    match ← orderCandidates env creq candidates with
    | none => pure {exit := .threw,labels}
    | some ordered =>
      match env.json.dump (injectIncludeUsage creq.raw) with
      | none => pure {exit := .threw,labels}
      | some upstreamText =>
        walk env {creq,keepAlive,tAdmitted,upstreamText} ordered.spills ordered.order 0 false labels

-- The global gate's acquire, seen from the request: its status and the wait.
def acquire : Prog (GlobalGate.AdmitStatus × Int) := do
  match ← act .enterGate with
  | .admitted => pure (.admitted,0)
  | .queueFull => pure (.queueFull,0)
  | .queued =>
    let start ← act .now
    suspend .turn
    let stop ← act .now
    let status ← act .resumeGate
    pure (status,stop - start)

def serve (env : Env) (creq : ChatCompletionRequest) (keepAlive : Bool) (labels : Labels) : Prog Outcome := do
  let (status,queuedFor) ← acquire
  act (.record (.observeQueueTime labels (seconds queuedFor)))
  match status with
  | .admitted =>
    let outcome ← admitted env creq keepAlive labels
    act .releaseGate
    pure outcome
  | .queueFull => respond labels keepAlive 429 (errorJson env .admission (text "admission queue is full") [])
  | .queueTimeout => respond labels keepAlive 429 (errorJson env .admission (text "admission queue wait timed out") [])

def chatBody (env : Env) (req : Request) (labels : Labels) : Prog Outcome := do
  match env.json.parse req.body with
  | none => respond labels req.keepAlive 400 (errorJson env .invalidRequest (text "invalid JSON body") [])
  | some body =>
    match ChatCompletionRequest.parse body with
    | .error e =>
      match env.json.dump e.toJson with
      | none => pure {exit := .threw,labels}
      | some parseBody => respond labels req.keepAlive (statusCode e.kind) (some parseBody)
    | .ok creq =>
      let labels := {labels with model := creq.model}
      if backendsForModel env creq.model = [] then
        respond labels req.keepAlive 404
          (errorJson env .unknownModel (text "no backend serves model '" ++ creq.model ++ text "'") (text "model"))
      else serve env creq req.keepAlive labels

def recordTerminal (outcome : Outcome) (tArrive : Int) : Prog Unit := do
  if outcome.finalCode ≠ 0 then
    act (.record (.incRequestsTotal (text (toString outcome.finalCode))))
    let tEnd ← act .now
    act (.record (.observeE2e outcome.labels (seconds (tEnd - tArrive))))

def handleChat (env : Env) (req : Request) : Prog Exit := do
  let tArrive ← act .now
  let outcome ← chatBody env req {route := text "chat_completions"}
  recordTerminal outcome tArrive
  pure outcome.exit

section Looking

-- Operations that look at the gateway or record something other than a failure.
def Passive : Op → Prop
  | .now | .observedHealth _ | .load _ | .nextCursor | .publishAdmissionGauges => True
  | .record (.incBackendFailures _) => False
  | .record _ => True
  | _ => False

abbrev Looking {α : Type} (p : Prog α) : Prop := Confined Passive (fun _ => False) p

theorem observeFrame_looking (blabels : Labels) (tAdmitted tNow : Int) (s : SinkState) (ev : SseEvent) :
    Looking (observeFrame blabels tAdmitted tNow s ev) := by
  unfold observeFrame
  split
  · exact ⟨trivial,fun _ => ⟨trivial,fun _ => trivial⟩⟩
  · split
    · exact ⟨trivial,fun _ => trivial⟩
    · trivial

theorem recordSpills_looking (spills : Nat) (spillsRecorded : Bool) (blabels : Labels) :
    Looking (recordSpills spills spillsRecorded blabels) := by
  unfold recordSpills
  split
  · exact ⟨trivial,fun _ => trivial⟩
  · trivial

theorem snapshot_looking (serving : List Nat) : Looking (snapshot serving) := by
  induction serving with
  | nil => trivial
  | cons idx rest ih =>
    apply Confined.perform trivial
    intro health
    split
    · exact ih
    · apply Confined.perform trivial
      intro load
      exact Confined.bind ih fun later => trivial

theorem orderCandidates_looking (env : Env) (creq : ChatCompletionRequest) (candidates : List Candidate) :
    Looking (orderCandidates env creq candidates) := by
  unfold orderCandidates
  split
  · trivial
  · split
    · trivial
    · exact ⟨trivial,fun start => trivial⟩

theorem recordTerminal_looking (outcome : Outcome) (tArrive : Int) : Looking (recordTerminal outcome tArrive) := by
  unfold recordTerminal
  split
  · exact ⟨trivial,fun _ => ⟨trivial,fun tEnd => ⟨trivial,fun _ => trivial⟩⟩⟩
  · trivial

end Looking

end Kvmux.Gateway
