import Mathlib.Data.List.Basic
import Kvmux.Drain
import Kvmux.Terminal
import Kvmux.Wire

namespace Kvmux.Latency
open Coroutine Client SseCodec SseParser Gateway OpenAi Streaming Attempt Handling Terminal Wire

section Meter

-- What the latency instruments are told during a request, next to the frames that
-- the sink writes and the backend whose slot was taken last.
structure Meter where
  holder : Option Nat := none
  overheads : List (Metrics.Labels × Float) := []
  ttfts : List (Metrics.Labels × Float) := []
  itls : List (Metrics.Labels × Float) := []
  frames : List Bytes := []

def Meter.note (m : Meter) : Event Op.Reply Wait.Answer → Meter
  | .did (.record (.observeOverhead labels value)) _ => {m with overheads := m.overheads ++ [(labels,value)]}
  | .did (.record (.observeTtft labels value)) _ => {m with ttfts := m.ttfts ++ [(labels,value)]}
  | .did (.record (.observeItl labels value)) _ => {m with itls := m.itls ++ [(labels,value)]}
  | .did (.tryAcquire b) true => {m with holder := some b}
  | .got (.writeChunk .sink chunk) _ => {m with frames := m.frames ++ [chunk]}
  | _ => m

def metered (t : Trace) : Meter := t.foldl Meter.note {}

def meter : Ledger Op.Reply Wait.Answer Meter := ⟨fun _ _ => True,fun m event => some (m.note event)⟩

theorem replay_meter (m : Meter) (t : Trace) : replay meter m t = some (t.foldl Meter.note m) := by
  induction t generalizing m with
  | nil => rfl
  | cons event rest ih => exact ih (m.note event)

-- A frame that carries a token, or at least is not the end marker.
def isContent (chunk : Bytes) : Bool := chunk != frame (text "[DONE]")

-- The overhead and the time to the first token are told once, with the first frame;
-- every later frame but the end marker is told the time since the frame before it.
structure Settled (labels : Metrics.Labels) (m : Meter) : Prop where
  overheads : m.overheads = m.ttfts
  first : m.ttfts.length = min 1 m.frames.length
  later : m.itls.length = m.frames.tail.countP isContent
  labelled : ∀ told ∈ m.ttfts ++ m.itls, told.1 = labels

theorem settled_blank (labels : Metrics.Labels) (holder : Option Nat) : Settled labels {holder} := ⟨rfl,rfl,rfl,nofun⟩

theorem Settled.blank {m : Meter} (settled : Settled labels m) (none : m.frames = []) : m = {holder := m.holder} := by
  obtain ⟨holder,overheads,ttfts,itls,frames⟩ := m
  obtain ⟨same,first,later,-⟩ := settled
  subst none
  cases same
  cases List.eq_nil_of_length_eq_zero first
  cases List.eq_nil_of_length_eq_zero later
  rfl

theorem content_event (ev : SseEvent) : isContent (frame ev.data) = !ev.isDone := by
  rw [Bool.eq_iff_iff]
  simp [isContent,SseEvent.isDone,frame_inj]

-- The meter while a stream is under way.
structure Fitting (labels : Metrics.Labels) (b : Nat) (m : Meter) (s : SinkState) : Prop where
  settled : Settled labels m
  holder : m.holder = some b
  seen : s.firstFrameSeen = !m.frames.isEmpty
  started : s.firstFrameSeen = true → s.headerStarted = true

theorem Settled.open_ {m : Meter} (settled : Settled labels m) (none : m.frames = []) (value : Float) (chunk : Bytes) :
    Settled labels {m with
      overheads := m.overheads ++ [(labels,value)],ttfts := m.ttfts ++ [(labels,value)],frames := m.frames ++ [chunk]} := by
  rw [settled.blank none]
  exact ⟨rfl,rfl,rfl,by simp⟩

theorem Settled.next {m : Meter} (settled : Settled labels m) (some : m.frames ≠ []) (value : Float)
    (content : isContent chunk = true) :
    Settled labels {m with itls := m.itls ++ [(labels,value)],frames := m.frames ++ [chunk]} := by
  obtain ⟨overheads,first,later,labelled⟩ := settled
  obtain ⟨frame,rest,shape⟩ := List.exists_cons_of_ne_nil some
  rw [shape] at first later
  refine ⟨overheads,?_,?_,?_⟩
  · simpa [shape] using first
  · simpa [shape,content] using later
  · intro told member
    simp only [List.mem_append,List.mem_singleton] at member
    obtain early | early | rfl := member
    · exact labelled told (List.mem_append_left _ early)
    · exact labelled told (List.mem_append_right _ early)
    · rfl

theorem Settled.close {m : Meter} (settled : Settled labels m) (some : m.frames ≠ []) (end_ : isContent chunk = false) :
    Settled labels {m with frames := m.frames ++ [chunk]} := by
  obtain ⟨overheads,first,later,labelled⟩ := settled
  obtain ⟨frame,rest,shape⟩ := List.exists_cons_of_ne_nil some
  rw [shape] at first later
  refine ⟨overheads,?_,?_,labelled⟩
  · simpa [shape] using first
  · simpa [shape,end_] using later

end Meter
section Handler
variable {env : Env} {req : Request} {m : Meter}

theorem plain_unnoted (m : Meter) (op : Op) (reply : op.Reply) (plain : Wire.Plain op) : m.note (.did op reply) = m := by
  cases op with
  | record metric => cases metric <;> first | rfl | exact plain.elim
  | tryAcquire b => exact plain.elim
  | _ => rfl

theorem unframed_unnoted (m : Meter) (point : Wait) (answer : point.Answer) (unframed : Unframed point) :
    m.note (.got point answer) = m := by
  cases point with
  | writeChunk site chunk =>
    cases site with
    | sink => exact unframed.elim
    | gateway => rfl
  | _ => rfl

theorem emitting_keeps {p : Prog α} (emitting : Emitting env req p) (m : Meter) : Keeps meter m p fun after _ => after = m :=
  Confined.keeps emitting meter (fun m op reply plain => congrArg some (plain_unnoted m op reply plain))
    (fun m point answer emits => congrArg some (unframed_unnoted m point answer emits.2))

theorem observeFrame_keeps (tAdmitted tNow : Int) (ev : SseEvent) (fitting : Fitting labels b m s) :
    Keeps meter m (observeFrame labels tAdmitted tNow s ev) fun after _ =>
      after.holder = some b ∧ Settled labels {after with frames := after.frames ++ [frame ev.data]} := by
  obtain ⟨settled,holder,seen,-⟩ := fitting
  unfold observeFrame
  cases already : s.firstFrameSeen with
  | false =>
    have none : m.frames = [] := by simpa [already] using seen
    refine .act (fun _ => rfl) fun _ _ => .act (fun _ => rfl) fun _ _ => ?_
    exact ⟨holder,settled.open_ none _ _⟩
  | true =>
    have some : m.frames ≠ [] := by simpa [already] using seen
    have content := content_event ev
    cases done : ev.isDone with
    | false =>
      rw [done] at content
      exact .act (fun _ => rfl) fun _ _ => ⟨holder,settled.next some _ content⟩
    | true =>
      rw [done] at content
      exact ⟨holder,settled.close some content⟩

theorem forward_keeps (tAdmitted : Int) (ev : SseEvent) (fitting : Fitting labels b m s) (started : s.headerStarted = true) :
    Keeps meter m (forward labels tAdmitted s ev) fun after out => Fitting labels b after out.2 := by
  refine .act (fun _ => rfl) fun tNow _ => (observeFrame_keeps tAdmitted tNow ev fitting).bind fun told _ kept => ?_
  refine .wait (fun _ => rfl) fun delivered _ => ?_
  split
  · exact ⟨kept.2,kept.1,by simp [Meter.note],fun _ => started⟩
  · exact ⟨kept.2,kept.1,by simp [Meter.note],fun _ => started⟩

theorem begin_keeps (w : SseWriter) (m : Meter) : Keeps meter m w.begin fun after _ => after = m := by
  unfold SseWriter.begin
  split
  · rfl
  · refine .wait (fun _ => rfl) fun delivered _ => ?_
    cases delivered <;> rfl

theorem sink_keeps (tAdmitted : Int) (m : Meter) (s : SinkState) (ev : SseEvent) (fitting : Fitting labels b m s) :
    Keeps meter m (sink labels tAdmitted s ev) fun after out => Fitting labels b after out.2 := by
  unfold sink
  split
  · exact fitting
  · split
    · rename_i started
      exact forward_keeps tAdmitted ev fitting started
    · have unseen : s.firstFrameSeen = false := by
        cases already : s.firstFrameSeen with
        | false => rfl
        | true => exact absurd (fitting.started already) ‹_›
      refine (begin_keeps s.writer m).bind ?_
      rintro _ ⟨sent,writer⟩ rfl
      dsimp only
      split
      · exact forward_keeps tAdmitted ev ⟨fitting.settled,fitting.holder,fitting.seen,fun _ => rfl⟩ rfl
      · exact ⟨fitting.settled,fitting.holder,fitting.seen,fitting.started⟩

-- An attempt that is followed by another has told the instruments nothing.
def Attempted (labels : Metrics.Labels) (b : Nat) (after : Meter) (verdict : Verdict) : Prop :=
  Settled labels after ∧ after.holder = some b ∧ (verdict = .next → after = {holder := some b})

theorem blank_attempted (labels : Metrics.Labels) (b : Nat) (verdict : Verdict) : Attempted labels b {holder := some b} verdict :=
  ⟨settled_blank labels (some b),rfl,fun _ => rfl⟩

theorem finish_keeps (w : SseWriter) (m : Meter) : Keeps meter m w.finish fun after _ => after = m := by
  unfold SseWriter.finish
  split
  · rfl
  · exact fun _ _ => ⟨m,rfl,rfl⟩

-- Once the client has been sent a frame there is no other attempt.
theorem classifySent_keeps (job : Job) (labels : Metrics.Labels) (b : Nat) (isProbe : Bool) (sr : StreamResult) (s : SinkState)
    (m : Meter) : Keeps meter m (classifySent env job labels b isProbe sr s) fun after verdict => after = m ∧ verdict ≠ .next := by
  unfold classifySent
  split
  · exact ⟨rfl,nofun⟩
  · split
    · refine fun _ _ => ⟨m,rfl,fun _ _ => ⟨m,rfl,?_⟩⟩
      dsimp only
      split
      · exact ⟨rfl,nofun⟩
      · refine .wait (fun _ => rfl) fun delivered _ => ?_
        split
        · exact (finish_keeps s.writer m).bind fun _ _ same => ⟨same,nofun⟩
        · exact ⟨rfl,nofun⟩
    · refine .act (fun _ => rfl) fun _ _ => (finish_keeps s.writer m).bind fun _ clean same => ?_
      split
      · exact ⟨same,nofun⟩
      · exact ⟨same,nofun⟩

theorem streamAttempt_keeps (fits : Fits env req job) (labels : Metrics.Labels) (b : Nat) (isProbe more : Bool) :
    Keeps meter {holder := some b} (streamAttempt env job labels b isProbe more) (Attempted labels b) := by
  refine (streamChat_keeps (J := Fitting labels b) ?_ (fun m s ev => sink_keeps job.tAdmitted m s ev) _ _ ?_).bind ?_
  · intro m point answer upstream
    cases upstream <;> rfl
  · exact ⟨settled_blank labels _,rfl,rfl,nofun⟩
  · rintro after ⟨sr,s⟩ ⟨settled,holder,seen,started⟩
    dsimp only at seen started ⊢
    split
    · rename_i unsent
      have none : after.frames = [] := by
        cases already : s.firstFrameSeen with
        | false => simpa [already] using seen
        | true => simp [started already] at unsent
      rw [settled.blank none,holder]
      refine (emitting_keeps (classifyUnsent_emits fits labels b isProbe more sr s.writer) _).mono ?_
      rintro _ verdict rfl
      exact blank_attempted labels b verdict
    · refine (classifySent_keeps job labels b isProbe sr s after).mono ?_
      rintro _ verdict ⟨rfl,ends⟩
      exact ⟨settled,holder,fun next => absurd next ends⟩

theorem attempt_keeps (fits : Fits env req job) (labels : Metrics.Labels) (b : Nat) (isProbe more : Bool) :
    Keeps meter {holder := some b} (attempt env job labels b isProbe more) (Attempted labels b) := by
  unfold attempt
  split
  · exact streamAttempt_keeps fits labels b isProbe more
  · refine (emitting_keeps (unaryAttempt_emits fits labels b isProbe more) _).mono ?_
    rintro _ verdict rfl
    exact blank_attempted labels b verdict

-- All under the labels of the backend that the request was sent to last.
def Told (env : Env) (after : Meter) : Prop :=
  ∃ labels, Settled labels after ∧ (after.frames ≠ [] → ∃ b, after.holder = some b ∧ labels.backend = backendName env b)

theorem told_blank (labels : Metrics.Labels) (holder : Option Nat) : Told env {holder} :=
  ⟨labels,settled_blank labels holder,fun some => absurd rfl some⟩

theorem emitting_told {p : Prog Outcome} (labels : Metrics.Labels) (holder : Option Nat) (emitting : Emitting env req p) :
    Keeps meter {holder} p fun after _ => Told env after := by
  refine (emitting_keeps emitting _).mono ?_
  rintro _ outcome rfl
  exact told_blank labels holder

theorem walk_keeps (fits : Fits env req job) (spills : Nat) (order : List Nat) (attempts : Nat) (spillsRecorded : Bool)
    (labels : Metrics.Labels) (holder : Option Nat) :
    Keeps meter {holder} (walk env job spills order attempts spillsRecorded labels) fun after _ => Told env after := by
  induction order generalizing attempts spillsRecorded labels holder with
  | nil => exact emitting_told labels holder (exhausted_emits fits labels)
  | cons b rest ih =>
    unfold walk
    split
    · exact emitting_told labels holder (exhausted_emits fits labels)
    · refine (emitting_keeps (recordSpills_emits _ _ _ : Emitting env req _) _).bind ?_
      rintro _ _ rfl
      refine .act (fun _ => rfl) fun dec _ => ?_
      split
      · exact ih _ _ _ _
      · intro taken _
        cases taken with
        | false => exact ⟨_,rfl,.act (fun _ => rfl) fun _ _ => ih _ _ _ _⟩
        | true =>
          refine ⟨_,rfl,(attempt_keeps fits _ b _ _).bind ?_⟩
          rintro after verdict ⟨settled,held,blank⟩
          refine .act (fun _ => rfl) fun _ _ => ?_
          cases verdict with
          | next =>
            rw [blank rfl]
            exact ih _ _ _ _
          | finish outcome => exact ⟨_,settled,fun _ => ⟨b,held,rfl⟩⟩

theorem snapshot_keeps (serving : List Nat) (m : Meter) : Keeps meter m (snapshot serving) fun after _ => after = m := by
  induction serving with
  | nil => rfl
  | cons idx rest ih =>
    refine .act (fun _ => rfl) fun health _ => ?_
    split
    · exact ih
    · exact .act (fun _ => rfl) fun load _ => ih.bind fun _ _ same => same

theorem admitted_keeps (known : requested env req = some creq) (labels : Metrics.Labels) :
    Keeps meter {} (admitted env creq req.keepAlive labels) fun after _ => Told env after := by
  refine .act (fun _ => rfl) fun tAdmitted _ => .act (fun _ => rfl) fun _ _ => (snapshot_keeps _ {}).bind ?_
  rintro _ candidates rfl
  split
  · exact emitting_told labels none (respond_emits (error_emits .noBackend _ _) : Emitting env req _)
  · refine (emitting_keeps (orderCandidates_emits creq candidates : Emitting env req _) {}).bind ?_
    rintro _ ordered rfl
    cases ordered with
    | none => exact told_blank labels none
    | some ordered =>
      dsimp only
      split
      · exact told_blank labels none
      · rename_i upstreamText dumped
        exact walk_keeps ⟨known,dumped,rfl⟩ _ _ _ _ _ none

theorem serve_keeps (known : requested env req = some creq) (labels : Metrics.Labels) :
    Keeps meter {} (serve env creq req.keepAlive labels) fun after _ => Told env after := by
  unfold serve
  refine (emitting_keeps (acquire_emits : Emitting env req _) {}).bind ?_
  rintro _ ⟨status,queuedFor⟩ rfl
  refine .act (fun _ => rfl) fun _ _ => ?_
  cases status with
  | admitted => exact (admitted_keeps known labels).bind fun after outcome told => .act (fun _ => rfl) fun _ _ => told
  | queueFull => exact emitting_told labels none (respond_emits (error_emits .admission _ _) : Emitting env req _)
  | queueTimeout => exact emitting_told labels none (respond_emits (error_emits .admission _ _) : Emitting env req _)

theorem chatBody_keeps (labels : Metrics.Labels) : Keeps meter {} (chatBody env req labels) fun after _ => Told env after := by
  unfold chatBody
  split
  · exact emitting_told labels none (respond_emits (error_emits .invalidRequest _ _) : Emitting env req _)
  · rename_i body parsed
    split
    · rename_i e failed
      split
      · exact told_blank labels none
      · rename_i parseBody dumped
        refine emitting_told labels none (respond_emits (fun bytes same => ?_) : Emitting env req _)
        cases Option.some.inj same
        exact error_emits e.kind e.message e.param parseBody dumped
    · rename_i creq accepted
      have known : requested env req = some creq := by simp [requested,parsed,accepted,Except.toOption]
      dsimp only
      split
      · exact emitting_told labels none (respond_emits (error_emits .unknownModel _ _) : Emitting env req _)
      · exact serve_keeps known _

theorem handleChat_keeps (env : Env) (req : Request) :
    Keeps meter {} (handleChat env req) fun after _ => Told env after := by
  refine .act (fun _ => rfl) fun tArrive _ => (chatBody_keeps _).bind fun after outcome told => ?_
  refine (emitting_keeps (recordTerminal_emits outcome tArrive : Emitting env req _) after).bind ?_
  rintro _ _ rfl
  exact told

theorem handleChat_told (path : Runs (handleChat env req) t exit) : Told env (metered t) := by
  obtain ⟨after,replayed,told⟩ := (handleChat_keeps env req).runs (fun _ _ => trivial) path
  rw [replay_meter] at replayed
  cases Option.some.inj replayed
  exact told

-- In every run of a chat request the overhead and the time to the first token are
-- told together and once exactly if a frame is forwarded, the time between tokens
-- once for every later frame but the end marker, and all of it under the name of the
-- backend that the request was sent to last.
theorem latency_exact (path : Runs (handleChat env req) t exit) :
    (metered t).overheads = (metered t).ttfts ∧
    (metered t).ttfts.length = min 1 (metered t).frames.length ∧
    (metered t).itls.length = (metered t).frames.tail.countP isContent ∧
    ((metered t).frames ≠ [] → ∃ b labels, (metered t).holder = some b ∧ labels.backend = backendName env b ∧
      ∀ told ∈ (metered t).ttfts ++ (metered t).itls, told.1 = labels) := by
  obtain ⟨labels,settled,named⟩ := handleChat_told path
  refine ⟨settled.overheads,settled.first,settled.later,fun some => ?_⟩
  obtain ⟨b,held,name⟩ := named some
  exact ⟨b,labels,held,name,settled.labelled⟩

section Sample
open Fleet

def tokens : (point : Wait) → point.Answer :=
  obliging ⟨200,false,[{block := text "data: x\n\ndata: y\n\ndata: [DONE]\n\n",done := true}]⟩ ⟨200,[]⟩

-- The first backend refuses the connection; the second one sends two tokens.
theorem latency_exact_retry : ∃ t, Runs (handleChat (patient ["a","b"]) (chatRequest true)) t (.returned true) ∧
    (metered t).frames.length = 3 ∧ (metered t).holder = some 1 ∧ (metered t).ttfts.length = 1 ∧ (metered t).itls.length = 1 ∧
    (metered t).overheads = (metered t).ttfts := by
  obtain ⟨t,path,shown⟩ : ∃ t, Runs (handleChat (patient ["a","b"]) (chatRequest true)) t (.returned true) ∧
      ((metered t).frames,(metered t).holder) = ([frame (text "x"),frame (text "y"),frame (text "[DONE]")],some 1) :=
    alone_runs 0 (refusing :: List.replicate 9 tokens) _ (by decide +kernel)
  obtain ⟨frames,holder⟩ := Prod.mk.inj shown
  obtain ⟨same,first,later,-⟩ := latency_exact path
  rw [frames] at first later
  exact ⟨t,path,by rw [frames]; rfl,holder,first,later.trans (by decide +kernel),same⟩

end Sample
end Handler
section Totals
open Fleet Tally Metrics

inductive Instrument where
  | overhead
  | ttft
  | itl
  | e2e
  | queue
  | requests
  | spills
  | failures
  deriving DecidableEq

def measures : Metric → Instrument × Nat
  | .observeOverhead _ _ => (.overhead,1)
  | .observeTtft _ _ => (.ttft,1)
  | .observeItl _ _ => (.itl,1)
  | .observeE2e _ _ => (.e2e,1)
  | .observeQueueTime _ _ => (.queue,1)
  | .incRequestsTotal _ => (.requests,1)
  | .incAffinitySpills _ n => (.spills,n)
  | .incBackendFailures _ => (.failures,1)

def Instrument.weight (instrument : Instrument) : Op → Nat
  | .record metric => if (measures metric).1 = instrument then (measures metric).2 else 0
  | _ => 0

-- All that an instrument has counted, under whichever labels.
def Instrument.counted (r : Registry Float) : Instrument → Nat
  | .overhead => total (fun entry => entry.2.totalCount) r.overhead
  | .ttft => total (fun entry => entry.2.totalCount) r.ttft
  | .itl => total (fun entry => entry.2.totalCount) r.itl
  | .e2e => total (fun entry => entry.2.totalCount) r.e2e
  | .queue => total (fun entry => entry.2.totalCount) r.queue
  | .requests => total (fun entry => entry.2) r.requestsTotal
  | .spills => total (fun entry => entry.2) r.affinitySpills
  | .failures => total (fun entry => entry.2) r.backendFailures

theorem upsert_total {K V : Type} [DecidableEq K] {before : K → K → Bool} {blank : V} {change : V → V} (value : V → Nat) {n : Nat}
    (none : value blank = 0) (grows : ∀ v, value (change v) = value v + n) (key : K) (map : List (K × V)) :
    total (fun entry => value entry.2) (upsert before key blank change map) = total (fun entry => value entry.2) map + n := by
  induction map with
  | nil => simp [upsert,total,grows,none]
  | cons entry rest ih =>
    obtain ⟨other,held⟩ := entry
    unfold upsert
    split
    · simp only [total,grows]; omega
    · split
      · simp only [total,grows,none]; omega
      · simp only [total,ih]; omega

theorem histFor_total (map : List (Labels × Histogram Float)) (labels : Labels) (bounds : List Float) (seconds : Float) :
    total (fun entry => entry.2.totalCount) (histFor exactly map labels bounds seconds) =
      total (fun entry => entry.2.totalCount) map + 1 :=
  upsert_total Histogram.totalCount rfl (fun _ => rfl) labels map

theorem record_counted (instrument : Instrument) (r : Registry Float) (metric : Metric) :
    instrument.counted (r.record metric) = instrument.counted r + instrument.weight (.record metric) := by
  cases metric with
  | observeOverhead | observeTtft | observeItl | observeE2e | observeQueueTime =>
    cases instrument <;> first | exact histFor_total .. | rfl
  | incRequestsTotal | incAffinitySpills | incBackendFailures =>
    cases instrument <;> first | exact upsert_total id rfl (fun _ => rfl) .. | rfl

theorem exec_counted (instrument : Instrument) (i : Nat) (op : Op) (s : State) :
    instrument.counted (exec i op s).2.registry = instrument.counted s.registry + instrument.weight op := by
  cases op with
  | record metric => exact record_counted instrument s.registry metric
  | publishAdmissionGauges => cases instrument <;> rfl
  | now | enterGate | resumeGate | releaseGate | nextCursor => rfl
  | observedHealth | load | allowRequest | report | tryAcquire | releaseSlot =>
    exact congrArg instrument.counted (onBackend_registry ..)

theorem happen_counted (instrument : Instrument) (event : Happening) (s : State) :
    instrument.counted (happen event s).registry = instrument.counted s.registry := by
  cases event with
  | tick nanoseconds => rfl
  | probed | setHealthForTest => exact congrArg instrument.counted (onBackend_registry ..)

-- The meter reads three of them.
theorem note_told (m : Meter) (event : Event Op.Reply Wait.Answer) :
    (m.note event).overheads.length = m.overheads.length + spent (Instrument.weight .overhead) [event] ∧
    (m.note event).ttfts.length = m.ttfts.length + spent (Instrument.weight .ttft) [event] ∧
    (m.note event).itls.length = m.itls.length + spent (Instrument.weight .itl) [event] := by
  cases event with
  | got point answer =>
    cases point with
    | writeChunk site chunk => cases site <;> exact ⟨rfl,rfl,rfl⟩
    | _ => exact ⟨rfl,rfl,rfl⟩
  | did op reply =>
    cases op with
    | record metric => cases metric <;> simp [Meter.note,spent,Instrument.weight,measures]
    | tryAcquire b => cases reply <;> exact ⟨rfl,rfl,rfl⟩
    | _ => exact ⟨rfl,rfl,rfl⟩

theorem metered_told (t : Trace) :
    (metered t).overheads.length = spent (Instrument.weight .overhead) t ∧
    (metered t).ttfts.length = spent (Instrument.weight .ttft) t ∧ (metered t).itls.length = spent (Instrument.weight .itl) t := by
  induction t using List.reverseRecOn with
  | nil => exact ⟨rfl,rfl,rfl⟩
  | append_singleton init last ih =>
    obtain ⟨overheads,ttfts,itls⟩ := ih
    obtain ⟨overhead,ttft,itl⟩ := note_told (metered init) last
    rw [metered,List.foldl_append,spent_append,spent_append,spent_append]
    exact ⟨overhead.trans (by rw [overheads]),ttft.trans (by rw [ttfts]),itl.trans (by rw [itls])⟩

def forwarded (call : Call) : Bool := !(metered call.trace).frames.isEmpty

theorem Settled.once {m : Meter} (settled : Settled labels m) : m.ttfts.length = (!m.frames.isEmpty).toNat := by
  rw [settled.first]
  cases m.frames <;> simp

-- Every instrument of a process holds what its chat requests have told it, however
-- the requests interleave; and whenever none is in flight, the requests that were sent
-- a frame are counted once each, and so is every later frame but the end marker.
theorem totals_exact (path : Server.Reachable setup meets p) :
    (∀ instrument, Instrument.counted p.gateways.shared.registry instrument =
      total (fun call => spent instrument.weight call.trace) p.gateways.threads) ∧
    (p.inFlight = 0 →
      Instrument.counted p.gateways.shared.registry .ttft = p.gateways.threads.countP forwarded ∧
      Instrument.counted p.gateways.shared.registry .overhead = p.gateways.threads.countP forwarded ∧
      Instrument.counted p.gateways.shared.registry .itl =
        total (fun call => (metered call.trace).frames.tail.countP isContent) p.gateways.threads) := by
  have gateways := Server.reachable_gateways path
  have told (instrument : Instrument) : instrument.counted p.gateways.shared.registry =
      total (fun call => spent instrument.weight call.trace) p.gateways.threads := by
    have all := reached_spent (fun s : State => instrument.counted s.registry) (exec_counted instrument)
      (happen_counted instrument) gateways
    have blank : instrument.counted (construct setup.env.cfg).registry = 0 := by cases instrument <;> rfl
    rwa [blank,Nat.zero_add] at all
  refine ⟨told,fun none => ?_⟩
  have ended := (Drain.reached_counted (Drain.launch_counted setup) path).ended none
  have settled : ∀ call ∈ p.gateways.threads, ∃ labels, Settled labels (metered call.trace) := by
    intro call member
    obtain ⟨exit,code⟩ := ended call member
    obtain ⟨labels,settled,-⟩ := handleChat_told (finished_runs gateways member code)
    exact ⟨labels,settled⟩
  rw [told,told,told,← total_countP]
  refine ⟨total_congr fun call member => ?_,total_congr fun call member => ?_,total_congr fun call member => ?_⟩
  · obtain ⟨labels,settled⟩ := settled call member
    exact (metered_told call.trace).2.1.symm.trans settled.once
  · obtain ⟨labels,settled⟩ := settled call member
    exact ((metered_told call.trace).1.symm.trans (congrArg List.length settled.overheads)).trans settled.once
  · obtain ⟨labels,settled⟩ := settled call member
    exact (metered_told call.trace).2.2.symm.trans settled.later

theorem totals_exact_served : ∃ p, Server.Reachable Server.sampleSetup Transition.Any p ∧ p.inFlight = 0 ∧
    Instrument.counted p.gateways.shared.registry .ttft = 1 ∧ Instrument.counted p.gateways.shared.registry .itl = 1 := by
  obtain ⟨p,path,shown⟩ : ∃ p, Server.Reachable Server.sampleSetup Transition.Any p ∧
      (p.inFlight,p.gateways.threads.countP forwarded,
        total (fun call => (metered call.trace).frames.tail.countP isContent) p.gateways.threads) = (0,1,1) :=
    Server.reached_shown (Server.busy ++ List.replicate 9 (.resume 0 tokens)) _ (by decide +kernel)
  obtain ⟨none,sent⟩ := Prod.mk.inj shown
  obtain ⟨forwarded,later⟩ := Prod.mk.inj sent
  obtain ⟨ttft,-,itl⟩ := (totals_exact path).2 none
  exact ⟨p,path,none,ttft.trans forwarded,itl.trans later⟩

end Totals
end Kvmux.Latency
