import Mathlib.Data.List.Basic
import Kvmux.Drain
import Kvmux.Fleet
import Kvmux.Handling
import Kvmux.Routes
import Kvmux.Server

namespace Kvmux.Wire
open Coroutine Client SseCodec Gateway OpenAi Streaming Attempt Handling Fleet

-- Everything a chat request can be suspended at: what it asks a backend for and
-- what it writes to the client.
inductive Emits (env : Env) (req : Request) : Wait → Prop where
  | turn : Emits env req .turn
  | connect : Emits env req (.connect b)
  | posted : requested env req = some creq → env.json.dump (injectIncludeUsage creq.raw) = some body →
      Emits env req (.writeRequest b body)
  | readHeader : Emits env req (.readHeader b)
  | readSome : Emits env req (.readSome b)
  | readResponse : Emits env req (.readResponse b)
  | refused : errorJson env kind message param = some body →
      Emits env req (.writeJson (reply req.keepAlive (statusCode kind) body))
  | wrapped : 400 ≤ status → env.json.dump (wrapUpstreamError env.json bytes status) = some body →
      Emits env req (.writeJson (reply req.keepAlive status body))
  | relayed : Emits env req (.writeJson (reply req.keepAlive 200 body))
  | header : Emits env req (.writeHeader keepAlive)
  | event : Emits env req (.writeChunk .sink (frame payload))
  | done : Emits env req (.writeChunk .gateway (frame (text "[DONE]")))
  | broken : errorJson env kind message [] = some payload → Emits env req (.writeChunk .gateway (frame payload))
  | last : Emits env req .writeLastChunk

-- Operations that have no part in finding a backend.
def Unrouted : Op → Prop
  | .load _ | .allowRequest _ => False
  | _ => True

-- Operations and waits outside of the walk and of the sink of a stream as well.
def Plain : Op → Prop
  | .load _ | .allowRequest _ | .tryAcquire _ => False
  | .record (.observeOverhead _ _) | .record (.observeTtft _ _) | .record (.observeItl _ _) => False
  | _ => True

def Unframed : Wait → Prop
  | .writeChunk .sink _ => False
  | _ => True

abbrev Emitting (env : Env) (req : Request) {α : Type} (p : Prog α) : Prop :=
  Confined Plain (fun point => Emits env req point ∧ Unframed point) p

abbrev Relaying (env : Env) (req : Request) {α : Type} (p : Prog α) : Prop := Confined Unrouted (Emits env req) p

abbrev Speaking (env : Env) (req : Request) {α : Type} (p : Prog α) : Prop := Confined (fun _ => True) (Emits env req) p

section Handler
variable {env : Env} {req : Request}

theorem plain_unrouted (op : Op) (plain : Plain op) : Unrouted op := by
  cases op <;> trivial

theorem emitting_relays {p : Prog α} (emitting : Emitting env req p) : Relaying env req p :=
  Confined.mono emitting plain_unrouted (fun _ emits => emits.1)

theorem relaying_speaks {p : Prog α} (relaying : Relaying env req p) : Speaking env req p :=
  Confined.mono relaying (fun _ _ => trivial) (fun _ emits => emits)

theorem observeFrame_relays (labels : Metrics.Labels) (tAdmitted tNow : Int) (s : SinkState) (ev : SseParser.SseEvent) :
    Relaying env req (observeFrame labels tAdmitted tNow s ev) := by
  unfold observeFrame
  split
  · exact ⟨trivial,fun _ => ⟨trivial,fun _ => trivial⟩⟩
  · split
    · exact ⟨trivial,fun _ => trivial⟩
    · trivial

theorem recordSpills_emits (spills : Nat) (spillsRecorded : Bool) (labels : Metrics.Labels) :
    Emitting env req (recordSpills spills spillsRecorded labels) := by
  unfold recordSpills
  split
  · exact ⟨trivial,fun _ => trivial⟩
  · trivial

theorem orderCandidates_emits (creq : ChatCompletionRequest) (candidates : List Routing.Candidate) :
    Emitting env req (orderCandidates env creq candidates) := by
  unfold orderCandidates
  split
  · trivial
  · split
    · trivial
    · exact ⟨trivial,fun start => trivial⟩

theorem recordTerminal_emits (outcome : Outcome) (tArrive : Int) : Emitting env req (recordTerminal outcome tArrive) := by
  unfold recordTerminal
  split
  · exact ⟨trivial,fun _ => ⟨trivial,fun tEnd => ⟨trivial,fun _ => trivial⟩⟩⟩
  · trivial

theorem respond_emits {labels : Metrics.Labels} {body : Option Bytes}
    (own : ∀ bytes, body = some bytes → Emits env req (.writeJson (reply req.keepAlive status bytes))) :
    Emitting env req (respond labels req.keepAlive status body) := by
  cases body with
  | none => trivial
  | some bytes =>
    refine Confined.bind (Confined.await ⟨own bytes rfl,trivial⟩ fun delivered => ?_) fun _ => trivial
    cases delivered <;> trivial

theorem answer_emits {labels : Metrics.Labels} {body : Option Bytes}
    (own : ∀ bytes, body = some bytes → Emits env req (.writeJson (reply req.keepAlive status bytes))) :
    Emitting env req (answer labels req.keepAlive status body) :=
  (respond_emits own).bind fun _ => trivial

-- What the attempts of a request share comes from the request.
structure Fits (env : Env) (req : Request) (job : Job) : Prop where
  known : requested env req = some job.creq
  upstream : env.json.dump (injectIncludeUsage job.creq.raw) = some job.upstreamText
  keepAlive : job.keepAlive = req.keepAlive

theorem Fits.exchange (fits : Fits env req job) (point : Wait) (upstream : Upstream b point)
    (own : ∀ body, point = .writeRequest b body → body = job.upstreamText) : Emits env req point := by
  cases upstream with
  | connect => exact .connect
  | writeRequest => exact .posted fits.known (own _ rfl ▸ fits.upstream)
  | readHeader => exact .readHeader
  | readSome => exact .readSome
  | readResponse => exact .readResponse

theorem Fits.exchange_plain (fits : Fits env req job) (point : Wait) (upstream : Upstream b point)
    (own : ∀ body, point = .writeRequest b body → body = job.upstreamText) : Emits env req point ∧ Unframed point := by
  refine ⟨fits.exchange point upstream own,?_⟩
  cases upstream <;> trivial

theorem begin_emits (w : SseWriter) : Emitting env req w.begin := by
  unfold SseWriter.begin
  split
  · trivial
  · refine Confined.await ⟨.header,trivial⟩ fun delivered => ?_
    cases delivered <;> trivial

theorem finish_emits (w : SseWriter) : Emitting env req w.finish := by
  unfold SseWriter.finish
  split
  · trivial
  · exact ⟨⟨.last,trivial⟩,fun _ => trivial⟩

theorem forward_relays (labels : Metrics.Labels) (tAdmitted : Int) (s : SinkState) (ev : SseParser.SseEvent) :
    Relaying env req (forward labels tAdmitted s ev) := by
  refine Confined.perform trivial fun tNow => (observeFrame_relays labels tAdmitted tNow s ev).bind fun _ => ?_
  refine Confined.await .event fun delivered => ?_
  split <;> trivial

theorem sink_relays (labels : Metrics.Labels) (tAdmitted : Int) (s : SinkState) (ev : SseParser.SseEvent) :
    Relaying env req (sink labels tAdmitted s ev) := by
  unfold sink
  split
  · trivial
  · split
    · exact forward_relays labels tAdmitted s ev
    · refine (emitting_relays (begin_emits s.writer)).bind ?_
      rintro ⟨sent,writer⟩
      dsimp only
      split
      · exact forward_relays labels tAdmitted _ ev
      · trivial

theorem noteFailure_emits {rest : Unit → Prog α} (b : Nat) (isProbe : Bool) (labels : Metrics.Labels)
    (later : Emitting env req (rest ())) : Emitting env req (noteFailure b isProbe labels >>= rest) := by
  change Emitting env req (act (.report b .failure isProbe) >>= fun _ => act (.record (.incBackendFailures labels)) >>= rest)
  exact Confined.perform trivial fun _ => Confined.perform trivial fun _ => later

theorem error_emits (kind : ErrorKind) (message param bytes : Bytes) (dumped : errorJson env kind message param = some bytes) :
    Emits env req (.writeJson (reply req.keepAlive (statusCode kind) bytes)) := .refused dumped

theorem unaryAttempt_emits (fits : Fits env req job) (labels : Metrics.Labels) (b : Nat) (isProbe more : Bool) :
    Emitting env req (unaryAttempt env job labels b isProbe more) := by
  unfold unaryAttempt
  refine (postChat_confined fits.exchange_plain).bind fun ur => ?_
  rw [fits.keepAlive]
  split
  · exact noteFailure_emits b isProbe labels trivial
  · split
    · rename_i failed
      refine noteFailure_emits b isProbe labels ?_
      split
      · trivial
      · exact answer_emits fun bytes dumped => .wrapped (by omega) dumped
    · refine Confined.perform trivial fun _ => ?_
      split
      · rename_i rejected
        exact answer_emits fun bytes dumped => .wrapped rejected dumped
      · exact answer_emits fun bytes _ => .relayed

theorem classifyUnsent_emits (fits : Fits env req job) (labels : Metrics.Labels) (b : Nat) (isProbe more : Bool)
    (sr : StreamResult) (writer : SseWriter) : Emitting env req (classifyUnsent env job labels b isProbe more sr writer) := by
  unfold classifyUnsent
  rw [fits.keepAlive]
  split
  · refine noteFailure_emits b isProbe labels ?_
    split
    · trivial
    · split
      · rename_i rejected
        exact answer_emits fun bytes dumped => .wrapped rejected dumped
      · split
        · exact answer_emits (error_emits .upstreamTimeout _ _)
        · exact answer_emits (error_emits .upstreamFailure _ _)
  · refine Confined.perform trivial fun _ => (begin_emits writer).bind ?_
    rintro ⟨sent,writer⟩
    dsimp only
    split
    · trivial
    · refine Confined.await ⟨.done,trivial⟩ fun delivered => ?_
      split
      · trivial
      · refine (finish_emits writer).bind fun clean => ?_
        split <;> trivial

theorem classifySent_emits (job : Job) (labels : Metrics.Labels) (b : Nat) (isProbe : Bool) (sr : StreamResult) (s : SinkState) :
    Emitting env req (classifySent env job labels b isProbe sr s) := by
  unfold classifySent
  split
  · trivial
  · split
    · refine noteFailure_emits b isProbe labels ?_
      dsimp only
      split
      · trivial
      · rename_i payload dumped
        have broken : Emits env req (.writeChunk .gateway (frame payload)) := by
          split at dumped
          · exact .broken dumped
          · exact .broken dumped
        refine Confined.await ⟨broken,trivial⟩ fun delivered => ?_
        split
        · exact (finish_emits s.writer).bind fun _ => trivial
        · trivial
    · refine Confined.perform trivial fun _ => (finish_emits s.writer).bind fun clean => ?_
      split <;> trivial

theorem attempt_relays (fits : Fits env req job) (labels : Metrics.Labels) (b : Nat) (isProbe more : Bool) :
    Relaying env req (attempt env job labels b isProbe more) := by
  unfold attempt
  split
  · refine (streamChat_confined fits.exchange (sink_relays labels job.tAdmitted) _).bind ?_
    rintro ⟨sr,s⟩
    dsimp only
    split
    · exact emitting_relays (classifyUnsent_emits fits labels b isProbe more sr s.writer)
    · exact emitting_relays (classifySent_emits job labels b isProbe sr s)
  · exact emitting_relays (unaryAttempt_emits fits labels b isProbe more)

theorem exhausted_emits (fits : Fits env req job) (labels : Metrics.Labels) : Emitting env req (exhausted env job labels) := by
  unfold exhausted
  rw [fits.keepAlive]
  exact respond_emits (error_emits .noBackend _ _)

theorem walk_speaks (fits : Fits env req job) (spills : Nat) (order : List Nat) (attempts : Nat) (spillsRecorded : Bool)
    (labels : Metrics.Labels) : Speaking env req (walk env job spills order attempts spillsRecorded labels) := by
  induction order generalizing attempts spillsRecorded labels with
  | nil => exact relaying_speaks (emitting_relays (exhausted_emits fits labels))
  | cons b rest ih =>
    unfold walk
    split
    · exact relaying_speaks (emitting_relays (exhausted_emits fits labels))
    · refine (relaying_speaks (emitting_relays (recordSpills_emits _ _ _))).bind fun _ => Confined.perform trivial fun dec => ?_
      split
      · exact ih _ _ _
      · refine Confined.perform trivial fun taken => ?_
        split
        · exact Confined.perform trivial fun _ => ih _ _ _
        · refine (relaying_speaks (attempt_relays fits _ b _ _)).bind fun verdict => Confined.perform trivial fun _ => ?_
          cases verdict with
          | next => exact ih _ _ _
          | finish outcome => trivial

theorem admitted_speaks (known : requested env req = some creq) (labels : Metrics.Labels) :
    Speaking env req (admitted env creq req.keepAlive labels) := by
  refine Confined.perform trivial fun tAdmitted => Confined.perform trivial fun _ => ?_
  refine (Confined.mono (snapshot_looking _) (fun _ _ => trivial) (fun _ never => never.elim)).bind fun candidates => ?_
  split
  · exact relaying_speaks (emitting_relays (respond_emits (error_emits .noBackend _ _)))
  · refine (relaying_speaks (emitting_relays (orderCandidates_emits creq candidates))).bind fun ordered => ?_
    cases ordered with
    | none => trivial
    | some ordered =>
      dsimp only
      split
      · trivial
      · rename_i upstreamText dumped
        exact walk_speaks ⟨known,dumped,rfl⟩ _ _ _ _ _

theorem acquire_emits : Emitting env req acquire := by
  refine Confined.perform trivial fun entry => ?_
  cases entry with
  | admitted => trivial
  | queueFull => trivial
  | queued =>
    exact Confined.perform trivial fun start => Confined.await ⟨.turn,trivial⟩ fun _ => Confined.perform trivial fun stop =>
      Confined.perform trivial fun status => trivial

theorem serve_speaks (known : requested env req = some creq) (labels : Metrics.Labels) :
    Speaking env req (serve env creq req.keepAlive labels) := by
  unfold serve
  refine (relaying_speaks (emitting_relays acquire_emits)).bind ?_
  rintro ⟨status,queuedFor⟩
  refine Confined.perform trivial fun _ => ?_
  cases status with
  | admitted => exact (admitted_speaks known labels).bind fun outcome => Confined.perform trivial fun _ => trivial
  | queueFull => exact relaying_speaks (emitting_relays (respond_emits (error_emits .admission _ _)))
  | queueTimeout => exact relaying_speaks (emitting_relays (respond_emits (error_emits .admission _ _)))

theorem chatBody_speaks (labels : Metrics.Labels) : Speaking env req (chatBody env req labels) := by
  unfold chatBody
  split
  · exact relaying_speaks (emitting_relays (respond_emits (error_emits .invalidRequest _ _)))
  · rename_i body parsed
    split
    · rename_i e failed
      split
      · trivial
      · rename_i parseBody dumped
        refine relaying_speaks (emitting_relays (respond_emits fun bytes same => ?_))
        cases Option.some.inj same
        exact error_emits e.kind e.message e.param parseBody dumped
    · rename_i creq accepted
      have known : requested env req = some creq := by simp [requested,parsed,accepted,Except.toOption]
      dsimp only
      split
      · exact relaying_speaks (emitting_relays (respond_emits (error_emits .unknownModel _ _)))
      · exact serve_speaks known _

theorem handleChat_speaks (env : Env) (req : Request) : Speaking env req (handleChat env req) := by
  refine Confined.perform trivial fun tArrive => (chatBody_speaks _).bind fun outcome => ?_
  exact (relaying_speaks (emitting_relays (recordTerminal_emits outcome tArrive))).bind fun _ => trivial

end Handler
section Upstream
variable {env : Env} {req : Request} {t : Trace} {rest : Prog Exit}

-- The bodies that a request sends to backends.
def posts (t : Trace) : List (Nat × Bytes) := t.filterMap fun
  | .got (.writeRequest b body) _ => some (b,body)
  | _ => none

theorem posts_emitted (path : Path (handleChat env req) t rest) (posted : (b,body) ∈ posts t) :
    Emits env req (.writeRequest b body) := by
  obtain ⟨event,member,shown⟩ := List.mem_filterMap.mp posted
  have within := (handleChat_speaks env req).path path event member
  split at shown
  · cases shown
    exact within
  · cases shown

-- A body with include_usage set, and otherwise as it was given.
structure Enriched (given sent : Json) : Prop where
  others : ∀ key, key ≠ text "stream_options" → sent.find key = given.find key
  options : ∃ options, sent.find (text "stream_options") = some (.object options) ∧
    (Json.object options).find (text "include_usage") = some (.boolean true) ∧
    ∀ key, key ≠ text "include_usage" → (Json.object options).find key = (given.find (text "stream_options")).bind (Json.find key)

theorem requested_cases (known : requested env req = some creq) :
    env.json.parse req.body = some creq.raw ∧ ChatCompletionRequest.parse creq.raw = .ok creq ∧ creq.raw.isObject = true := by
  obtain ⟨parsed,reads,accepted⟩ := Option.bind_eq_some_iff.mp known
  obtain ⟨message,param,refused⟩ | ⟨own,accepts,raw,-⟩ := parse_cases parsed
  · rw [refused] at accepted
    cases accepted
  · rw [accepts] at accepted
    cases Option.some.inj accepted
    subst raw
    refine ⟨reads,accepts,?_⟩
    unfold ChatCompletionRequest.parse at accepts
    split at accepts
    · cases accepts
    · rename_i object
      simpa using object

-- What a backend is sent is the client's request, whole and unchanged but for the
-- option that asks for usage; it reads as the same request.
theorem upstream_faithful (path : Path (handleChat env req) t rest) (posted : (b,body) ∈ posts t) :
    ∃ creq, env.json.parse req.body = some creq.raw ∧ ChatCompletionRequest.parse creq.raw = .ok creq ∧
      env.json.dump (injectIncludeUsage creq.raw) = some body ∧ Enriched creq.raw (injectIncludeUsage creq.raw) ∧
      ChatCompletionRequest.parse (injectIncludeUsage creq.raw) = .ok {creq with raw := injectIncludeUsage creq.raw} := by
  cases posts_emitted path posted with
  | posted known dumped =>
    obtain ⟨reads,accepts,object⟩ := requested_cases known
    refine ⟨_,reads,accepts,dumped,⟨fun _ other => injectIncludeUsage_find other,injectIncludeUsage_options object⟩,?_⟩
    rw [parse_injected,accepts]
    rfl

-- A completion that is asked for without streaming, and given.
def obliged : List ((point : Wait) → point.Answer) := List.replicate 4 (obliging ⟨200,true,[]⟩ ⟨200,text "ok"⟩)

theorem upstream_faithful_posted : ∃ t body, ∃ creq : ChatCompletionRequest,
    Runs (handleChat (sampleEnv ["a"]) (chatRequest false)) t (.returned true) ∧
    posts t = [(0,body)] ∧ (sampleEnv ["a"]).json.dump (injectIncludeUsage creq.raw) = some body ∧
    Enriched creq.raw (injectIncludeUsage creq.raw) := by
  obtain ⟨t,path,posted⟩ : ∃ t, Runs (handleChat (sampleEnv ["a"]) (chatRequest false)) t (.returned true) ∧
      posts t = [(0,(injectIncludeUsage (chatJson false)).render)] := alone_runs 0 obliged posts (by decide +kernel)
  obtain ⟨creq,-,-,dumped,enriched,-⟩ := upstream_faithful path (posted ▸ List.mem_singleton_self _)
  exact ⟨t,_,creq,path,posted,dumped,enriched⟩

-- Gateways can be put behind one another: the next one takes what it is sent for
-- the same request, and sends on the very same bytes.
theorem gateways_chain {next : Env} (path : Path (handleChat env req) t rest) (known : requested env req = some creq)
    (posted : (b,body) ∈ posts t) (reads : env.json.parse body = some (injectIncludeUsage creq.raw)) (same : next.json = env.json)
    (later : Path (handleChat next ⟨body,keepAlive⟩) u end_) :
    requested next ⟨body,keepAlive⟩ = some {creq with raw := injectIncludeUsage creq.raw} ∧ ∀ sent ∈ posts u, sent.2 = body := by
  have taken : requested next ⟨body,keepAlive⟩ = some {creq with raw := injectIncludeUsage creq.raw} := by
    rw [requested,same,reads,Option.bind_some,parse_injected,(requested_cases known).2.1]
    rfl
  refine ⟨taken,fun sent member => ?_⟩
  cases posts_emitted path posted with
  | posted first dumped =>
    cases Option.some.inj (known.symm.trans first)
    cases posts_emitted later member with
    | posted second further =>
      cases Option.some.inj (taken.symm.trans second)
      rw [same,injectIncludeUsage_again,dumped] at further
      exact (Option.some.inj further).symm

-- Gateways whose library knows the client's text and the text that is sent on.
def relaying : Env :=
  {sampleEnv ["a"] with
    json := tableLib ([chatJson false,injectIncludeUsage (chatJson false)].map fun value => (value.render,value))}

theorem gateways_chain_relaying : ∃ t u body, Runs (handleChat relaying (chatRequest false)) t (.returned true) ∧
    Runs (handleChat relaying ⟨body,true⟩) u (.returned true) ∧ posts t = [(0,body)] ∧ ∀ sent ∈ posts u, sent.2 = body := by
  obtain ⟨t,path,posted⟩ : ∃ t, Runs (handleChat relaying (chatRequest false)) t (.returned true) ∧
      posts t = [(0,(injectIncludeUsage (chatJson false)).render)] := alone_runs 0 obliged posts (by decide +kernel)
  obtain ⟨u,later,-⟩ : ∃ u, Runs (handleChat relaying ⟨(injectIncludeUsage (chatJson false)).render,true⟩) u (.returned true) ∧
      () = () := alone_runs 0 obliged (fun _ => ()) (by decide +kernel)
  obtain ⟨creq,known,-⟩ : ∃ creq, requested relaying (chatRequest false) = some creq ∧ creq.model = text "m" :=
    Option.map_eq_some_iff.mp (by decide +kernel)
  have given : relaying.json.parse (chatRequest false).body = some (chatJson false) := by
    simp [relaying,tableLib,chatRequest]
  have raw : creq.raw = chatJson false := Option.some.inj ((requested_cases known).1.symm.trans given)
  have apart : ((chatJson false).render == (injectIncludeUsage (chatJson false)).render) = false := by decide +kernel
  have reads : relaying.json.parse (injectIncludeUsage (chatJson false)).render = some (injectIncludeUsage creq.raw) := by
    simp [raw,relaying,tableLib,apart]
  exact ⟨t,u,_,path,later,posted,(gateways_chain path known (posted ▸ List.mem_singleton_self _) reads rfl later).2⟩

end Upstream
section Errors
variable {env : Env}

-- What backends have answered: a status, and the bytes that came with it.
def heard (t : Trace) : List (Nat × Bytes) := t.filterMap fun
  | .got (.readResponse _) (.ok received) => some (received.status,received.body)
  | .got (.readHeader _) (.ok head) => some (head.status,arrived head)
  | _ => none

theorem heard_append (first second : Trace) : heard (first ++ second) = heard first ++ heard second :=
  List.filterMap_append

-- An error in the shape that clients expect, with the status as its code unless a
-- backend wrote it, and answered with that status.
def ErrorBody (env : Env) (answers : List (Nat × Bytes)) (status : Nat) (body : Bytes) : Prop :=
  ∃ value fields, env.json.dump value = some body ∧ value.find (text "error") = some (.object fields) ∧
    (Json.object fields).contains (text "message") = true ∧
    ((Json.object fields).find (text "code") = some (.integer status) ∨
      ∃ upstream, (status,upstream) ∈ answers ∧ env.json.parse upstream = some value)

structure Shaped (env : Env) (answers : List (Nat × Bytes)) (response : Response) : Prop where
  retry : response.retryAfter = (response.status == 429)
  status : response.status = 200 ∨ (400 ≤ response.status ∧ ErrorBody env answers response.status response.body)

theorem Shaped.mono (shaped : Shaped env answers response) (more : answers ⊆ others) : Shaped env others response := by
  obtain ⟨retry,fine | ⟨error,value,fields,dumped,found,named,coded⟩⟩ := shaped
  · exact ⟨retry,.inl fine⟩
  · refine ⟨retry,.inr ⟨error,value,fields,dumped,found,named,?_⟩⟩
    exact coded.imp_right fun ⟨upstream,member,reads⟩ => ⟨upstream,more member,reads⟩

-- The members of an error that the gateway made.
theorem envelope_members (code message param kind : Json) :
    (Json.object [member "code" code,member "message" message,member "param" param,member "type" kind]).contains (text "message") =
      true ∧
    (Json.object [member "code" code,member "message" message,member "param" param,member "type" kind]).find (text "code") =
      some code := by
  have apart : (text "code" == text "message") = false := by decide +kernel
  constructor
  · simp [Json.contains,Json.find,member,apart]
  · simp [Json.find,member]

theorem error_find (fields : Json) : (Json.object [member "error" fields]).find (text "error") = some fields := by
  simp [Json.find,member]

theorem errorJson_shaped (dumped : errorJson env kind message param = some body) :
    ErrorBody env answers (statusCode kind) body := by
  obtain ⟨named,coded⟩ := envelope_members (.integer (statusCode kind)) (.string message)
    (if param = [] then .null else .string param) (.string (text (errorType kind)))
  exact ⟨_,_,dumped,error_find _,named,.inl coded⟩

theorem upstreamError_shaped (dumped : env.json.dump (upstreamError message status) = some body) :
    ErrorBody env answers status body := by
  obtain ⟨named,coded⟩ := envelope_members (.integer status) (.string message) .null (.string (text "upstream_error"))
  exact ⟨_,_,dumped,error_find _,named,.inl coded⟩

theorem wrapped_shaped (came : (status,bytes) ∈ answers)
    (dumped : env.json.dump (wrapUpstreamError env.json bytes status) = some body) : ErrorBody env answers status body := by
  rcases wrapUpstreamError_cases env.json bytes status with ⟨fields,reads,found,named⟩ | ⟨_,message,-,-,same⟩ | same
  · exact ⟨_,fields,dumped,found,named,.inr ⟨bytes,came,reads⟩⟩
  · exact upstreamError_shaped (same ▸ dumped)
  · exact upstreamError_shaped (same ▸ dumped)

theorem statusCode_error (kind : ErrorKind) : 400 ≤ statusCode kind := by
  cases kind <;> decide

-- A JSON response has the right shape, by what backends have answered before it.
def Grounded (env : Env) (past : Trace) : Event Op.Reply Wait.Answer → Trace → Prop
  | .got (.writeJson response) _,_ => Shaped env (heard past) response
  | _,_ => True

def Unanswering : Note → Prop
  | .wrote (.writeJson _) _ => False
  | _ => True

theorem grounded_plain (past : Trace) (event : Event Op.Reply Wait.Answer) (future : Trace)
    (plain : ∀ shown, note event = some shown → Unanswering shown) : Grounded env past event future := by
  cases event with
  | did op reply => trivial
  | got point answer =>
    cases point with
    | writeJson response => exact (plain _ rfl).elim
    | _ => trivial

theorem plain_grounded (plain : ∀ shown ∈ notes t, Unanswering shown) (past future : Trace) :
    AtEach (Grounded env) past t future :=
  atEach_notes grounded_plain plain past future

theorem answered_grounded (answered : Answered labels keepAlive status body t outcome)
    (own : ∀ bytes, body = some bytes → status = 200 ∨ (400 ≤ status ∧ ErrorBody env (heard past) status bytes)) (future : Trace) :
    AtEach (Grounded env) past t future := by
  cases answered with
  | unwritable => trivial
  | written => exact ⟨⟨rfl,own _ rfl⟩,trivial⟩

theorem written_unanswering (written : Written ns) : ∀ shown ∈ ns, Unanswering shown := by
  intro shown member
  obtain ⟨point,delivered,rfl,part⟩ := written shown member
  cases point <;> first | exact part.elim | trivial

theorem streamed_unanswering (streamed : Streamed keepAlive b requestBody up sr s) : ∀ shown ∈ notes up, Unanswering shown := by
  cases streamed with
  | unreachable | unwritten | unanswered => exact List.forall_mem_singleton.mpr trivial
  | refused error only =>
    rename_i reads head
    have nothing : ∀ shown ∈ notes reads, Unanswering shown := by
      rw [readSome_unnoted only]
      exact List.forall_mem_nil _
    exact List.forall_mem_cons.mpr ⟨trivial,List.forall_mem_cons.mpr ⟨trivial,nothing⟩⟩
  | answered _ flowed =>
    exact List.forall_mem_cons.mpr ⟨trivial,List.forall_mem_cons.mpr ⟨trivial,written_unanswering flowed.written⟩⟩

theorem posted_unanswering (posted : Posted b requestBody up ur) : ∀ shown ∈ notes up, Unanswering shown := by
  cases posted with
  | unreachable | unwritten | unanswered => exact List.forall_mem_singleton.mpr trivial
  | answered => exact List.forall_mem_cons.mpr ⟨trivial,List.forall_mem_singleton.mpr trivial⟩

theorem closing_unanswering (closing : Closing payload t clean) : ∀ shown ∈ notes t, Unanswering shown := by
  cases closing with
  | lost => exact List.forall_mem_singleton.mpr trivial
  | ended => exact List.forall_mem_cons.mpr ⟨trivial,List.forall_mem_singleton.mpr trivial⟩

-- An exchange with a backend and the report on it.
theorem failing_grounded (exchange : ∀ shown ∈ notes up, Unanswering shown) (past future : Trace) :
    AtEach (Grounded env) past (up ++ failing b isProbe labels) future := by
  rw [atEach_append]
  have report : ∀ shown ∈ notes (failing b isProbe labels), Unanswering shown :=
    List.forall_mem_cons.mpr ⟨trivial,List.forall_mem_singleton.mpr trivial⟩
  exact ⟨plain_grounded exchange _ _,plain_grounded report _ _⟩

theorem succeeding_grounded (exchange : ∀ shown ∈ notes up, Unanswering shown) (past future : Trace) :
    AtEach (Grounded env) past (up ++ succeeding b isProbe) future := by
  rw [atEach_append]
  exact ⟨plain_grounded exchange _ _,plain_grounded (List.forall_mem_singleton.mpr trivial) _ _⟩

-- An error status is one that the backend has answered.
theorem posted_heard (posted : Posted b requestBody up ur) (error : 400 ≤ ur.httpStatus) :
    (ur.httpStatus,ur.body) ∈ heard up := by
  cases posted with
  | unreachable | unwritten | unanswered => cases error
  | answered => exact List.mem_singleton.mpr rfl

theorem streamed_heard (streamed : Streamed keepAlive b requestBody up sr s) (error : 400 ≤ sr.httpStatus) :
    (sr.httpStatus,sr.errorBody) ∈ heard up := by
  cases streamed with
  | unreachable | unwritten | unanswered => cases error
  | refused => exact List.mem_cons_self
  | answered served flowed => cases flowed <;> omega

theorem unary_grounded (unary : Unary env job labels b isProbe more t verdict) (past future : Trace) :
    AtEach (Grounded env) past t future := by
  cases unary with
  | unreachable posted | failedOver posted => exact failing_grounded (posted_unanswering posted) _ _
  | surfaced posted _ error _ answered =>
    rw [atEach_append]
    refine ⟨failing_grounded (posted_unanswering posted) _ _,?_⟩
    refine answered_grounded answered (fun bytes dumped => .inr ⟨by omega,wrapped_shaped ?_ dumped⟩) _
    simp [heard_append,posted_heard posted (by omega)]
  | relayedError posted _ _ error answered =>
    rw [atEach_append]
    refine ⟨succeeding_grounded (posted_unanswering posted) _ _,?_⟩
    refine answered_grounded answered (fun bytes dumped => .inr ⟨error,wrapped_shaped ?_ dumped⟩) _
    simp [heard_append,posted_heard posted error]
  | relayed posted _ _ answered =>
    rw [atEach_append]
    refine ⟨succeeding_grounded (posted_unanswering posted) _ _,?_⟩
    exact answered_grounded answered (fun _ _ => .inl rfl) _

theorem surface_shaped {sr : StreamResult} (came : 400 ≤ sr.httpStatus → (sr.httpStatus,sr.errorBody) ∈ answers)
    (dumped : (surface env sr).2 = some bytes) : 400 ≤ (surface env sr).1 ∧ ErrorBody env answers (surface env sr).1 bytes := by
  unfold surface at dumped ⊢
  split at dumped
  · rename_i error
    rw [if_pos error]
    exact ⟨error,wrapped_shaped (came error) dumped⟩
  · rename_i fine
    rw [if_neg fine]
    split at dumped
    · rename_i timedOut
      rw [if_pos timedOut]
      exact ⟨statusCode_error .upstreamTimeout,errorJson_shaped dumped⟩
    · rename_i prompt
      rw [if_neg prompt]
      exact ⟨statusCode_error .upstreamFailure,errorJson_shaped dumped⟩

theorem stream_grounded (stream : Stream env job labels b isProbe more t verdict) (past future : Trace) :
    AtEach (Grounded env) past t future := by
  have header (delivered : Bool) (t : Trace) (rest : ∀ shown ∈ notes t, Unanswering shown) :
      ∀ shown ∈ notes (.got (.writeHeader job.keepAlive) delivered :: t), Unanswering shown :=
    List.forall_mem_cons.mpr ⟨trivial,rest⟩
  cases stream with
  | failedOver streamed => exact failing_grounded (streamed_unanswering streamed) _ _
  | surfaced streamed _ _ _ answered =>
    rw [atEach_append]
    refine ⟨failing_grounded (streamed_unanswering streamed) _ _,?_⟩
    refine answered_grounded answered (fun bytes dumped => .inr (surface_shaped (fun error => ?_) dumped)) _
    simp [heard_append,streamed_heard streamed error]
  | unopened streamed =>
    rw [atEach_append]
    exact ⟨succeeding_grounded (streamed_unanswering streamed) _ _,plain_grounded (header false [] (List.forall_mem_nil _)) _ _⟩
  | emptied streamed _ _ closing =>
    rw [atEach_append]
    exact ⟨succeeding_grounded (streamed_unanswering streamed) _ _,
      plain_grounded (header true _ (closing_unanswering closing)) _ _⟩
  | abandoned streamed => exact plain_grounded (streamed_unanswering streamed) _ _
  | truncated streamed _ _ _ _ closing =>
    rw [atEach_append]
    exact ⟨failing_grounded (streamed_unanswering streamed) _ _,plain_grounded (closing_unanswering closing) _ _⟩
  | completed streamed =>
    rw [atEach_append]
    exact ⟨succeeding_grounded (streamed_unanswering streamed) _ _,plain_grounded (List.forall_mem_singleton.mpr trivial) _ _⟩

theorem tried_grounded (tried : Tried env job labels b isProbe more t verdict) (past future : Trace) :
    AtEach (Grounded env) past t future := by
  cases tried with
  | stream _ stream => exact stream_grounded stream past future
  | unary _ unary => exact unary_grounded unary past future

theorem grounded_checks (env : Env) (job : Job) (order : List Nat) (outcome : Outcome) (future : Trace) :
    Checks (Grounded env) Unanswering (fun _ => True) env job order outcome future where
  plain := grounded_plain
  aborted := fun _ _ => trivial
  keeps := fun _ _ _ _ => trivial
  exhausted := fun _ _ _ _ answered => answered_grounded answered
    (fun _ dumped => .inr ⟨statusCode_error .noBackend,errorJson_shaped dumped⟩) future
  next := fun _ _ _ _ _ _ after _ _ _ tried => tried_grounded tried _ after
  finish := fun _ _ _ _ _ _ _ _ _ tried => tried_grounded tried _ _

theorem handled_grounded (handled : Handled env req t exit) : AtEach (Grounded env) [] t [] := by
  have quiet {lead : Trace} (silent : notes lead = []) (past future : Trace) : AtEach (Grounded env) past lead future :=
    plain_grounded (by rw [silent]; exact List.forall_mem_nil _) past future
  cases handled with
  | declined lead tail _ own answered =>
    obtain ⟨kind,message,param,rfl,rfl⟩ := own
    rw [atEach_append,atEach_append]
    exact ⟨⟨quiet lead _ _,answered_grounded answered (fun _ dumped => .inr ⟨statusCode_error kind,errorJson_shaped dumped⟩) _⟩,
      quiet tail _ _⟩
  | failed silent => exact quiet silent _ _
  | walked lead tail _ _ _ _ walk =>
    rw [atEach_append,atEach_append]
    exact ⟨⟨quiet lead _ _,(grounded_checks env _ _ _ _).walk walk (fun _ member => member) trivial⟩,quiet tail _ _⟩

-- An event of the gateway's own in a stream: the end, or an error.
theorem emitted_event (emits : Emits env req (.writeChunk .gateway chunk)) :
    chunk = frame (text "[DONE]") ∨ ∃ kind payload, chunk = frame payload ∧ ErrorBody env [] (statusCode kind) payload := by
  generalize point : Wait.writeChunk .gateway chunk = w at emits
  cases emits with
  | done =>
    cases point
    exact .inl rfl
  | broken dumped =>
    cases point
    exact .inr ⟨_,_,rfl,errorJson_shaped dumped⟩
  | _ => cases point

-- The JSON responses that a request writes, whether or not they arrive.
def replies (t : Trace) : List Response := t.filterMap fun
  | .got (.writeJson response) _ => some response
  | _ => none

theorem replies_shaped (path : Path (handleChat env req) t rest) (replied : response ∈ replies t) :
    Shaped env (heard t) response := by
  obtain ⟨event,member,shown⟩ := List.mem_filterMap.mp replied
  split at shown
  · cases shown
    obtain ⟨before,after,rfl⟩ := List.append_of_mem member
    -- The path is completed to a run, and the run says what was heard before the response.
    obtain ⟨more,exit,ends⟩ := completes (fun op => (exec 0 op (construct env.cfg)).1) refusing rest
    have each := handled_grounded (handleChat_runs (path.trans ends))
    rw [List.append_assoc,List.cons_append] at each
    have shaped : Shaped env (heard before) response := each.at_split
    refine shaped.mono ?_
    rw [heard_append]
    exact List.subset_append_left _ _
  · cases shown

-- An error keeps its text on its way through further gateways.
theorem errors_chain (path : Path (handleChat env req) t rest) (replied : response ∈ replies t) (error : 400 ≤ response.status) :
    ∃ value, env.json.dump value = some response.body ∧
      (env.json.parse response.body = some value → ∀ status, wrapUpstreamError env.json response.body status = value) := by
  rcases (replies_shaped path replied).status with fine | ⟨-,value,fields,dumped,found,named,-⟩
  · omega
  · refine ⟨value,dumped,fun reads status => ?_⟩
    simp [wrapUpstreamError,reads,found,named]

theorem errors_chain_refused : ∃ t response value, Runs (handleChat (sampleEnv ["a"]) (chatRequest false)) t (.returned true) ∧
    replies t = [response] ∧ response.status = 503 ∧ (sampleEnv ["a"]).json.dump value = some response.body := by
  obtain ⟨t,path,replied⟩ : ∃ t, Runs (handleChat (sampleEnv ["a"]) (chatRequest false)) t (.returned true) ∧
      (replies t).map Response.status = [503] := alone_runs 0 (List.replicate 2 refusing) _ (by decide +kernel)
  obtain ⟨response,single,status⟩ := List.map_eq_singleton_iff.mp replied
  obtain ⟨value,dumped,-⟩ := errors_chain path (single ▸ List.mem_singleton_self _) (by rw [status]; decide)
  exact ⟨t,response,value,path,single,status,dumped⟩

theorem replying_shaped (chosen : Routes.replying keepAlive status body = .reply response)
    (own : ∀ bytes, body = some bytes → status = 200 ∨ (400 ≤ status ∧ ErrorBody env [] status bytes)) : Shaped env [] response := by
  cases body with
  | none => cases chosen
  | some bytes =>
    cases chosen
    exact ⟨rfl,own bytes rfl⟩

theorem handle_shaped {req : Routes.HttpRequest} (chosen : Routes.handle env draining req = .reply response) :
    Shaped env [] response := by
  unfold Routes.handle Routes.handleModels at chosen
  split at chosen
  · exact replying_shaped chosen fun bytes dumped => .inr ⟨statusCode_error .noBackend,errorJson_shaped dumped⟩
  · split at chosen
    · exact replying_shaped chosen fun _ _ => .inl rfl
    · split at chosen
      · exact replying_shaped chosen fun _ _ => .inl rfl
      · split at chosen
        · cases chosen
        · exact replying_shaped chosen fun bytes dumped => .inr ⟨statusCode_error .notFound,errorJson_shaped dumped⟩

end Errors
section Process
open Server Transition
variable {setup : Setup} {p q : Process} {action : Step} {meets : Process → Step → Prop} {call : Nat}

theorem again_unreplying (keepAlive : Bool) (response : Response) : again keepAlive ≠ .replying response := by
  cases keepAlive <;> nofun

theorem phaseOf_unreplying (w : Gateways) (call : Nat) (response : Response) : phaseOf w call ≠ .replying response := by
  unfold phaseOf
  split
  · nofun
  · exact again_unreplying _ response

def Wrote (env : Env) (trace : List Seen) : Prop := ∀ response delivered, .wrote response delivered ∈ trace → Shaped env [] response

theorem Wrote.append (before : Wrote env trace)
    (own : ∀ response delivered, seen = .wrote response delivered → Shaped env [] response) :
    Wrote env (trace ++ [seen]) := by
  intro response delivered member
  rcases List.mem_append.mp member with old | new
  · exact before response delivered old
  · exact own response delivered (List.mem_singleton.mp new).symm

structure Speaks (env : Env) (session : Session) : Prop where
  wrote : Wrote env session.trace
  writes : ∀ response, session.phase = .replying response → Shaped env [] response

theorem turned_speaks (speaks : Speaks setup.env old) (turned : Turned setup p q old new) (gateway : old.port = .gateway) :
    Speaks setup.env new := by
  obtain ⟨wrote,writes⟩ := speaks
  cases turned with
  | lost => exact ⟨wrote.append nofun,nofun⟩
  | scraped => cases gateway
  | threw => exact ⟨wrote.append nofun,nofun⟩
  | replied chosen => exact ⟨wrote.append nofun,fun response same => Phase.replying.inj same ▸ handle_shaped chosen⟩
  | chatted =>
    refine ⟨Wrote.append (Wrote.append wrote ?_) ?_,fun response same => absurd same (phaseOf_unreplying _ _ _)⟩
    · nofun
    · nofun
  | wrote =>
    refine ⟨wrote.append fun response delivered same => ?_,fun response same => absurd same (again_unreplying _ _)⟩
    cases same
    exact writes _ rfl
  | resumed => exact ⟨wrote,fun response same => absurd same (phaseOf_unreplying _ _ _)⟩

theorem moved_speaks (speaks : ∀ session ∈ p.sessions, session.port = .gateway → Speaks setup.env session)
    (moved : Moved setup p action q) : ∀ session ∈ q.sessions, session.port = .gateway → Speaks setup.env session := by
  obtain same | ⟨port,same⟩ | ⟨j,old,new,found,same,turned⟩ := moved_sessions moved
  · rw [same]
    exact speaks
  · rw [same]
    refine List.forall_mem_append.mpr ⟨speaks,List.forall_mem_singleton.mpr fun _ => ⟨nofun,nofun⟩⟩
  · rw [same]
    intro session member gateway
    obtain member | rfl := List.mem_or_eq_of_mem_set member
    · exact speaks session member gateway
    · have before := (Drain.turned_port turned).symm.trans gateway
      exact turned_speaks (speaks old (List.mem_of_getElem? found) before) turned before

theorem reachable_speaks (path : Server.Reachable setup meets p) :
    ∀ session ∈ p.sessions, session.port = .gateway → Speaks setup.env session :=
  reached_invariant (fun p => ∀ session ∈ p.sessions, session.port = .gateway → Speaks setup.env session)
    (List.forall_mem_nil _) (fun _ _ _ speaks _ ran => moved_speaks speaks (step_moved ran).2) path

-- Every JSON response on the gateway's port, of whatever route and at whatever
-- moment, is a 200 or an error in the shape that clients expect; so is an error
-- that ends a stream.
theorem responses_shaped (path : Server.Reachable setup meets p) :
    (∀ session ∈ p.sessions, session.port = .gateway → ∀ response delivered, .wrote response delivered ∈ session.trace →
      Shaped setup.env [] response) ∧
    ∀ call ∈ p.gateways.threads,
      (∀ response ∈ replies call.trace, Shaped setup.env (heard call.trace) response) ∧
      ∀ chunk delivered, .got (.writeChunk .gateway chunk) delivered ∈ call.trace →
        chunk = text "data: " ++ text "[DONE]" ++ [lf,lf] ∨
          ∃ kind payload, chunk = text "data: " ++ payload ++ [lf,lf] ∧
            ErrorBody setup.env [] (statusCode kind) payload := by
  refine ⟨fun session member gateway => (reachable_speaks path session member gateway).wrote,fun call member => ?_⟩
  have own := reached_path (host setup.env) (reachable_gateways path) call member
  refine ⟨fun response replied => replies_shaped own replied,fun chunk delivered written => ?_⟩
  exact emitted_event ((handleChat_speaks setup.env call.request).path own _ written)

def statuses (trace : List Seen) : List Nat := trace.filterMap fun
  | .wrote response _ => some response.status
  | _ => none

theorem responses_shaped_lost : ∃ p session, Server.Reachable sampleSetup Any p ∧ session ∈ p.sessions ∧
    statuses session.trace = [404] ∧
    ∀ response delivered, .wrote response delivered ∈ session.trace → Shaped sampleSetup.env [] response := by
  obtain ⟨p,path,shown⟩ : ∃ p, Server.Reachable sampleSetup Any p ∧
      p.sessions.map (fun session => (session.port,statuses session.trace)) = [(.gateway,[404])] :=
    reached_shown [.accept .gateway,.read 0 (some ⟨.get,text "/v2",[],true⟩),.wrote 0 true] _ (by decide +kernel)
  obtain ⟨session,member,facts⟩ := List.mem_map.mp (shown ▸ List.mem_singleton_self _)
  obtain ⟨gateway,lost⟩ := Prod.mk.inj facts
  exact ⟨p,session,path,member,lost,(responses_shaped path).1 session member gateway⟩

end Process
end Kvmux.Wire
