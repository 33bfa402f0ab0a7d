import Mathlib.Data.List.Basic
import Kvmux.Gateway
import Kvmux.Handling

namespace Kvmux.Recording
open Coroutine Client Gateway Metrics Routing OpenAi Handling

def metricOf : Op → Option Metric
  | .record metric => some metric
  | _ => none

def recording : Event Op.Reply Wait.Answer → Option Metric
  | .did op _ => metricOf op
  | .got _ _ => none

def recorded (t : Trace) : List Metric := t.filterMap recording

@[simp] theorem recorded_append (first second : Trace) : recorded (first ++ second) = recorded first ++ recorded second :=
  List.filterMap_append

-- Nothing is kept but that every operation is permitted.
def permits (permitted : Op → Bool) : Ledger Op.Reply Wait.Answer Unit where
  allows := fun _ _ => True
  book := fun _ event =>
    match event with
    | .did op _ => if permitted op then some () else none
    | .got _ _ => some ()

theorem permits_booked (booked : (permits permitted).book l (.did op reply) = some after) : permitted op = true := by
  simp only [permits] at booked
  split at booked
  · assumption
  · cases booked

theorem replay_permits (replayed : replay (permits permitted) l t = some after) (member : .did op reply ∈ t) :
    permitted op = true := by
  induction t generalizing l with
  | nil => cases member
  | cons event rest ih =>
    obtain ⟨middle,booked,later⟩ := Option.bind_eq_some_iff.mp replayed
    rcases List.mem_cons.mp member with rfl | old
    · exact permits_booked booked
    · exact ih later old

def labelsOf : Metric → Option Labels
  | .observeTtft labels _ | .observeItl labels _ | .observeE2e labels _ | .observeQueueTime labels _
  | .observeOverhead labels _ | .incAffinitySpills labels _ | .incBackendFailures labels => some labels
  | .incRequestsTotal _ => none

-- Labels made of the route and of names in the configuration.
def configured (env : Env) (labels : Labels) : Bool :=
  decide (labels.route = text "chat_completions") &&
  (decide (labels.backend = []) || env.cfg.backends.any fun conf => decide (conf.name = labels.backend)) &&
  (decide (labels.model = []) || env.cfg.backends.any fun conf => conf.models.contains labels.model)

-- What the terminal recorder writes, and what is written before it.
def terminal : Metric → Bool
  | .incRequestsTotal _ | .observeE2e _ _ => true
  | _ => false

def early (env : Env) (metric : Metric) : Bool := !terminal metric && (labelsOf metric).all (configured env)

-- What the handler may do before its terminal recorder, and what it may do
-- between publishing the gauges and giving its slot back.
def leading (env : Env) : Op → Bool
  | .record metric => early env metric
  | _ => true

def gateless (env : Env) : Op → Bool
  | .record metric => early env metric
  | .enterGate | .resumeGate | .releaseGate | .publishAdmissionGauges => false
  | _ => true

-- What an attempt does under these labels: look at the clock, report to a
-- breaker and record something other than the terminal metrics.
structure Suits (permitted : Op → Bool) (labels : Labels) : Prop where
  now : permitted .now = true
  report : ∀ b report isProbe, permitted (.report b report isProbe) = true
  record : ∀ metric, terminal metric = false → labelsOf metric = some labels → permitted (.record metric) = true

theorem gateless_suits (fits : configured env labels = true) : Suits (gateless env) labels where
  now := rfl
  report := fun _ _ _ => rfl
  record := by
    intro metric plain own
    simp [gateless,early,plain,own,fits]

-- A program that keeps to permitted operations, and what its value is like.
abbrev Records {α : Type} (permitted : Op → Bool) (p : Prog α) (post : α → Prop) : Prop :=
  Keeps (permits permitted) () p fun _ value => post value

theorem Records.bind {p : Prog α} {rest : α → Prog β} (first : Records permitted p middle)
    (second : ∀ value, middle value → Records permitted (rest value) post) : Records permitted (p >>= rest) post :=
  Keeps.bind first fun _ value held => second value held

theorem Records.mono {p : Prog α} (records : Records permitted p post) (implies : ∀ value, post value → weaker value) :
    Records permitted p weaker :=
  Keeps.mono records fun _ value held => implies value held

theorem Records.act {rest : op.Reply → Prog β} (fits : permitted op = true)
    (later : ∀ reply, Records permitted (rest reply) post) : Records permitted (Kvmux.act op >>= rest) post :=
  Keeps.act (fun _ => if_pos fits) fun reply _ => later reply

theorem Records.last (fits : permitted op = true) : Records permitted (Kvmux.act op) fun _ => True :=
  fun _ _ => ⟨(),if_pos fits,trivial⟩

theorem Records.wait {rest : point.Answer → Prog β} (later : ∀ answer, Records permitted (rest answer) post) :
    Records permitted (suspend point >>= rest) post :=
  Keeps.wait (fun _ => rfl) fun answer _ => later answer

theorem Records.did {p : Prog α} (records : Records permitted p post) (path : Runs p t value) (member : .did op reply ∈ t) :
    permitted op = true := by
  obtain ⟨after,replayed,-⟩ := Keeps.runs records (fun _ _ => trivial) path
  exact replay_permits replayed member

theorem Records.runs {p : Prog α} (records : Records permitted p post) (path : Runs p t value) :
    (∀ metric ∈ recorded t, permitted (.record metric) = true) ∧ post value := by
  obtain ⟨after,replayed,held⟩ := Keeps.runs records (fun _ _ => trivial) path
  refine ⟨fun metric member => ?_,held⟩
  obtain ⟨event,inside,same⟩ := List.mem_filterMap.mp member
  cases event with
  | got point answer => cases same
  | did op reply =>
    cases op with
    | record own =>
      cases Option.some.inj same
      exact records.did path inside
    | _ => cases same

theorem Records.widen {p : Prog α} (records : Records permitted p post) (more : ∀ op, permitted op = true → wider op = true) :
    Records wider p post := by
  induction p with
  | ret value => exact records
  | act op next ih =>
    intro reply _
    obtain ⟨_,booked,later⟩ := records reply trivial
    exact ⟨(),if_pos (more op (permits_booked booked)),ih reply later⟩
  | wait point next ih =>
    intro answer _
    obtain ⟨_,-,later⟩ := records answer trivial
    exact ⟨(),rfl,ih answer later⟩

theorem Records.leading {p : Prog α} (records : Records (gateless env) p post) : Records (leading env) p post := by
  refine records.widen fun op fits => ?_
  cases op <;> first | exact fits | rfl

section Attempts
variable {permitted : Op → Bool} {env : Env} {labels : Labels}

theorem respond_records (labels : Labels) (keepAlive : Bool) (status : Nat) (body : Option Bytes) :
    Records permitted (respond labels keepAlive status body) fun outcome => outcome.labels = labels ∧ outcome.finalCode = status := by
  cases body with
  | none => exact ⟨rfl,rfl⟩
  | some body =>
    refine .wait fun delivered => ?_
    cases delivered with
    | true => exact ⟨rfl,rfl⟩
    | false => exact ⟨rfl,rfl⟩

-- An attempt that ends the request leaves it the labels of its backend.
def Ends (labels : Labels) (verdict : Verdict) : Prop := ∀ outcome, verdict = .finish outcome → outcome.labels = labels

theorem ends_finished (labels : Labels) (exit : Exit) : Ends labels (finished labels exit) := by
  intro outcome same
  cases same
  rfl

theorem ends_next (labels : Labels) : Ends labels .next := by
  intro outcome same
  cases same

theorem answer_records (labels : Labels) (keepAlive : Bool) (status : Nat) (body : Option Bytes) :
    Records permitted (answer labels keepAlive status body) (Ends labels) := by
  refine (respond_records labels keepAlive status body).bind ?_
  rintro outcome ⟨own,-⟩ _ same
  cases same
  exact own

theorem begin_records (w : SseWriter) : Records permitted w.begin fun _ => True := by
  unfold SseWriter.begin
  split
  · trivial
  · refine .wait fun delivered => ?_
    cases delivered <;> trivial

theorem finish_records (w : SseWriter) : Records permitted w.finish fun _ => True := by
  unfold SseWriter.finish
  split
  · trivial
  · exact fun _ _ => ⟨(),rfl,trivial⟩

theorem postChat_records (b : Nat) (requestBody : Bytes) : Records permitted (postChat b requestBody) fun _ => True := by
  refine .wait fun connected => ?_
  cases connected with
  | error fault => trivial
  | ok _ =>
    refine .wait fun written => ?_
    cases written with
    | error fault => trivial
    | ok _ =>
      refine .wait fun received => ?_
      cases received <;> trivial

variable (suits : Suits permitted labels)
include suits

theorem observeFrame_records (tAdmitted tNow : Int) (s : SinkState) (ev : SseParser.SseEvent) :
    Records permitted (observeFrame labels tAdmitted tNow s ev) fun _ => True := by
  unfold observeFrame
  split
  · refine Records.act (suits.record _ rfl rfl) fun _ => ?_
    exact .last (suits.record _ rfl rfl)
  · split
    · exact .last (suits.record _ rfl rfl)
    · trivial

theorem forward_records (tAdmitted : Int) (s : SinkState) (ev : SseParser.SseEvent) :
    Records permitted (forward labels tAdmitted s ev) fun _ => True := by
  unfold forward
  refine Records.act suits.now fun tNow => (observeFrame_records suits tAdmitted tNow s ev).bind fun _ _ => ?_
  refine Records.wait fun delivered => ?_
  split
  · trivial
  · trivial

theorem sink_records (tAdmitted : Int) (s : SinkState) (ev : SseParser.SseEvent) :
    Records permitted (sink labels tAdmitted s ev) fun _ => True := by
  unfold sink
  split
  · trivial
  · split
    · exact forward_records suits tAdmitted s ev
    · refine (begin_records s.writer).bind ?_
      rintro ⟨sent,writer⟩ -
      dsimp only
      split
      · exact forward_records suits tAdmitted _ ev
      · trivial

theorem noteFailure_records {rest : Unit → Prog α} (b : Nat) (isProbe : Bool) (later : Records permitted (rest ()) post) :
    Records permitted (noteFailure b isProbe labels >>= rest) post := by
  change Records permitted (act (.report b .failure isProbe) >>= fun _ => act (.record (.incBackendFailures labels)) >>= rest) post
  exact Records.act (suits.report _ _ _) fun _ => Records.act (suits.record _ rfl rfl) fun _ => later

theorem unaryAttempt_records (job : Job) (b : Nat) (isProbe more : Bool) :
    Records permitted (unaryAttempt env job labels b isProbe more) (Ends labels) := by
  unfold unaryAttempt
  refine (postChat_records b job.upstreamText).bind fun ur _ => ?_
  split
  · exact noteFailure_records suits b isProbe (ends_next labels)
  · split
    · refine noteFailure_records suits b isProbe ?_
      split
      · exact ends_next labels
      · exact answer_records _ _ _ _
    · refine Records.act (suits.report _ _ _) fun _ => ?_
      split
      · exact answer_records _ _ _ _
      · exact answer_records _ _ _ _

theorem classifyUnsent_records (job : Job) (b : Nat) (isProbe more : Bool) (sr : StreamResult) (writer : SseWriter) :
    Records permitted (classifyUnsent env job labels b isProbe more sr writer) (Ends labels) := by
  unfold classifyUnsent
  split
  · refine noteFailure_records suits b isProbe ?_
    split
    · exact ends_next labels
    · split
      · exact answer_records _ _ _ _
      · split
        · exact answer_records _ _ _ _
        · exact answer_records _ _ _ _
  · refine Records.act (suits.report _ _ _) fun _ => (begin_records writer).bind ?_
    rintro ⟨sent,writer⟩ -
    dsimp only
    split
    · intro outcome same
      cases same
      rfl
    · refine Records.wait fun delivered => ?_
      split
      · exact ends_finished labels _
      · refine (finish_records writer).bind fun clean _ => ?_
        split
        · exact ends_finished labels _
        · exact ends_finished labels _

theorem classifySent_records (job : Job) (b : Nat) (isProbe : Bool) (sr : StreamResult) (s : SinkState) :
    Records permitted (classifySent env job labels b isProbe sr s) (Ends labels) := by
  unfold classifySent
  split
  · exact ends_finished labels _
  · split
    · refine noteFailure_records suits b isProbe ?_
      dsimp only
      split
      · exact ends_finished labels _
      · refine Records.wait fun delivered => ?_
        split
        · exact (finish_records s.writer).bind fun _ _ => ends_finished labels _
        · exact ends_finished labels _
    · refine Records.act (suits.report _ _ _) fun _ => (finish_records s.writer).bind fun clean _ => ?_
      split
      · exact ends_finished labels _
      · exact ends_finished labels _

theorem streamAttempt_records (job : Job) (b : Nat) (isProbe more : Bool) :
    Records permitted (streamAttempt env job labels b isProbe more) (Ends labels) := by
  have streaming : Records permitted (streamChat (sink labels job.tAdmitted) b job.upstreamText
      {writer := {keepAlive := job.keepAlive}}) fun _ => True := by
    exact streamChat_keeps (D := permits permitted) (J := fun _ _ => True) (fun _ _ _ _ => rfl)
      (fun _ s ev _ => sink_records suits job.tAdmitted s ev) job.upstreamText _ trivial
  unfold streamAttempt
  refine streaming.bind ?_
  rintro ⟨sr,s⟩ -
  dsimp only
  split
  · exact classifyUnsent_records suits job b isProbe more sr s.writer
  · exact classifySent_records suits job b isProbe sr s

theorem attempt_records (job : Job) (b : Nat) (isProbe more : Bool) :
    Records permitted (attempt env job labels b isProbe more) (Ends labels) := by
  unfold attempt
  split
  · exact streamAttempt_records suits job b isProbe more
  · exact unaryAttempt_records suits job b isProbe more

theorem recordSpills_records (spills : Nat) (spillsRecorded : Bool) :
    Records permitted (recordSpills spills spillsRecorded labels) fun _ => True := by
  unfold recordSpills
  split
  · exact .last (suits.record _ rfl rfl)
  · trivial

end Attempts
section Handler
variable {env : Env} {labels : Labels}

theorem snapshot_records (serving : List Nat) : Records (gateless env) (snapshot serving) fun _ => True := by
  induction serving with
  | nil => trivial
  | cons idx rest ih =>
    unfold snapshot
    refine .act rfl fun health => ?_
    split
    · exact ih
    · exact .act rfl fun load => ih.bind fun later _ => trivial

theorem orderCandidates_records (creq : ChatCompletionRequest) (candidates : List Candidate) :
    Records (gateless env) (orderCandidates env creq candidates) fun _ => True := by
  unfold orderCandidates
  split
  · trivial
  · split
    · trivial
    · exact .act rfl fun start => trivial

theorem acquire_records : Records (leading env) acquire fun _ => True := by
  refine .act rfl fun entry => ?_
  cases entry with
  | admitted => trivial
  | queueFull => trivial
  | queued => exact .act rfl fun start => .wait fun _ => .act rfl fun stop => .act rfl fun status => trivial

theorem configured_backend (fits : configured env labels = true) (b : Nat) :
    configured env {labels with backend := backendName env b} = true := by
  simp only [configured,Bool.and_eq_true] at fits ⊢
  refine ⟨⟨fits.1.1,?_⟩,fits.2⟩
  unfold backendName
  cases known : env.cfg.backends[b]? with
  | none => simp
  | some conf =>
    simp only [Option.map_some,Option.getD_some,Bool.or_eq_true,List.any_eq_true]
    exact .inr ⟨conf,List.mem_of_getElem? known,by simp⟩

variable (fits : configured env labels = true)
include fits

theorem exhausted_records (job : Job) :
    Records (gateless env) (exhausted env job labels) fun outcome => configured env outcome.labels = true :=
  (respond_records labels _ _ _).mono fun outcome same => by rw [same.1]; exact fits

theorem walk_records (job : Job) (spills : Nat) (order : List Nat) (attempts : Nat) (spillsRecorded : Bool) :
    Records (gateless env) (walk env job spills order attempts spillsRecorded labels) fun outcome =>
      configured env outcome.labels = true := by
  induction order generalizing attempts spillsRecorded labels with
  | nil => exact exhausted_records fits job
  | cons b rest ih =>
    have named := configured_backend fits b
    unfold walk
    split
    · exact exhausted_records fits job
    · refine (recordSpills_records (gateless_suits named) spills spillsRecorded).bind fun _ _ => Records.act rfl fun dec => ?_
      split
      · exact ih fits _ _
      · refine Records.act rfl fun taken => ?_
        split
        · exact Records.act rfl fun _ => ih fits _ _
        · refine (attempt_records (gateless_suits named) job b _ _).bind fun verdict ends => Records.act rfl fun _ => ?_
          cases verdict with
          | next => exact ih named _ _
          | finish outcome =>
            have own : configured env outcome.labels = true := by
              rw [ends outcome rfl]
              exact named
            exact own

theorem refused_records (keepAlive : Bool) (status : Nat) (body : Option Bytes) :
    Records (gateless env) (respond labels keepAlive status body) fun outcome => configured env outcome.labels = true :=
  (respond_records labels _ _ _).mono fun outcome same => by rw [same.1]; exact fits

-- An admitted request publishes the gauges first and leaves the gate alone from then on.
theorem admitted_records (creq : ChatCompletionRequest) (keepAlive : Bool) : ∃ rest : Int → Prog Outcome,
    admitted env creq keepAlive labels = (do
      let tAdmitted ← act .now
      act .publishAdmissionGauges
      rest tAdmitted) ∧
    ∀ tAdmitted, Records (gateless env) (rest tAdmitted) fun outcome => configured env outcome.labels = true := by
  refine ⟨_,rfl,fun tAdmitted => ?_⟩
  refine (snapshot_records _).bind fun candidates _ => ?_
  split
  · exact refused_records fits keepAlive _ _
  · refine (orderCandidates_records creq candidates).bind fun ordered _ => ?_
    cases ordered with
    | none => exact fits
    | some ordered =>
      dsimp only
      split
      · exact fits
      · exact walk_records fits _ _ _ _ _

theorem serve_records (creq : ChatCompletionRequest) (keepAlive : Bool) :
    Records (leading env) (serve env creq keepAlive labels) fun outcome => configured env outcome.labels = true := by
  unfold serve
  refine acquire_records.bind ?_
  rintro ⟨status,queuedFor⟩ -
  refine Records.act (by simpa [leading,early,terminal,labelsOf] using fits) fun _ => ?_
  cases status with
  | admitted =>
    obtain ⟨rest,same,records⟩ := admitted_records fits creq keepAlive
    dsimp only
    rw [same]
    refine Records.act rfl fun tAdmitted => Records.act rfl fun _ => ?_
    exact (records tAdmitted).leading.bind fun outcome held => .act rfl fun _ => held
  | queueFull => exact (refused_records fits keepAlive _ _).leading
  | queueTimeout => exact (refused_records fits keepAlive _ _).leading

end Handler

-- A request for a model that no backend serves is labelled with what it asked for.
def Unserved (env : Env) (req : Request) (outcome : Outcome) : Prop :=
  outcome.finalCode = 404 ∧ ∃ creq, requested env req = some creq ∧ backendsForModel env creq.model = [] ∧
    outcome.labels = {route := text "chat_completions",model := creq.model}

theorem configured_route (env : Env) : configured env {route := text "chat_completions"} = true := by
  simp [configured]

theorem configured_model (serving : backendsForModel env model ≠ []) :
    configured env {route := text "chat_completions",model} = true := by
  obtain ⟨b,member⟩ := List.exists_mem_of_ne_nil _ serving
  obtain ⟨conf,known,lists⟩ := backendsForModel_lists member
  simp only [configured,decide_true,Bool.true_and,Bool.true_or,Bool.or_eq_true,List.any_eq_true]
  exact .inr ⟨conf,List.mem_of_getElem? known,by simpa using lists⟩

theorem chatBody_records (env : Env) (req : Request) :
    Records (leading env) (chatBody env req {route := text "chat_completions"}) fun outcome =>
      configured env outcome.labels = true ∨ Unserved env req outcome := by
  have plain (status : Nat) (body : Option Bytes) :
      Records (leading env) (respond {route := text "chat_completions"} req.keepAlive status body) fun outcome =>
        configured env outcome.labels = true ∨ Unserved env req outcome :=
    (refused_records (configured_route env) req.keepAlive status body).leading.mono fun outcome held => .inl held
  unfold chatBody
  split
  · exact plain _ _
  · rename_i body found
    split
    · split
      · exact .inl (configured_route env)
      · exact plain _ _
    · rename_i creq parsed
      dsimp only
      split
      · rename_i unserved
        have own : requested env req = some creq := by simp [requested,found,parsed,Except.toOption]
        refine (respond_records _ _ _ _).leading.mono fun outcome same => ?_
        exact .inr ⟨same.2,creq,own,unserved,same.1⟩
      · rename_i serving
        exact (serve_records (configured_model serving) creq req.keepAlive).mono fun outcome held => .inl held

end Kvmux.Recording
