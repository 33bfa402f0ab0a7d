import Mathlib.Data.List.Basic
import Kvmux.Gateway

namespace Kvmux.Streaming
open Coroutine CircuitBreaker SseParser SseCodec Client Gateway

-- What a run shows to backends, breakers and the client.
inductive Note where
  | dispatched (b : Nat)
  | headed (b : Nat) (head : Head)
  | responded (b : Nat) (received : Received)
  | wrote (point : Wait) (delivered : Bool)
  | reported (b : Nat) (report : Report) (isProbe : Bool)
  | failure (labels : Metrics.Labels)
  deriving DecidableEq

def note : Event Op.Reply Wait.Answer → Option Note
  | .did (.report b report isProbe) _ => some (.reported b report isProbe)
  | .did (.record (.incBackendFailures labels)) _ => some (.failure labels)
  | .got (.connect b) _ => some (.dispatched b)
  | .got (.readHeader b) (.ok head) => some (.headed b head)
  | .got (.readResponse b) (.ok received) => some (.responded b received)
  | .got (.writeJson response) delivered => some (.wrote (.writeJson response) delivered)
  | .got (.writeHeader keepAlive) delivered => some (.wrote (.writeHeader keepAlive) delivered)
  | .got (.writeChunk site chunk) delivered => some (.wrote (.writeChunk site chunk) delivered)
  | .got .writeLastChunk delivered => some (.wrote .writeLastChunk delivered)
  | _ => none

def notes (t : Trace) : List Note := t.filterMap note

@[simp] theorem notes_nil : notes [] = [] := rfl
@[simp] theorem notes_append (first second : Trace) : notes (first ++ second) = notes first ++ notes second :=
  List.filterMap_append
theorem notes_cons (event : Event Op.Reply Wait.Answer) (rest : Trace) :
    notes (event :: rest) = (note event).toList ++ notes rest := by
  cases shown : note event <;> simp [notes,shown]

-- The event that a note was made of.
inductive Shows : Event Op.Reply Wait.Answer → Note → Prop where
  | reported : Shows (.did (.report b report isProbe) done) (.reported b report isProbe)
  | failure : Shows (.did (.record (.incBackendFailures labels)) done) (.failure labels)
  | dispatched : Shows (.got (.connect b) result) (.dispatched b)
  | headed : Shows (.got (.readHeader b) (.ok head)) (.headed b head)
  | responded : Shows (.got (.readResponse b) (.ok received)) (.responded b received)
  | json : Shows (.got (.writeJson response) delivered) (.wrote (.writeJson response) delivered)
  | header : Shows (.got (.writeHeader keepAlive) delivered) (.wrote (.writeHeader keepAlive) delivered)
  | chunk : Shows (.got (.writeChunk site chunk) delivered) (.wrote (.writeChunk site chunk) delivered)
  | last : Shows (.got .writeLastChunk delivered) (.wrote .writeLastChunk delivered)

theorem note_shows {event : Event Op.Reply Wait.Answer} (same : note event = some shown) : Shows event shown := by
  unfold note at same
  split at same
  all_goals first | cases same; constructor | cases same

theorem notes_shown (member : shown ∈ notes t) : ∃ event ∈ t, Shows event shown := by
  obtain ⟨event,inside,same⟩ := List.mem_filterMap.mp member
  exact ⟨event,inside,note_shows same⟩

def dispatches (ns : List Note) : List Nat := ns.filterMap fun
  | .dispatched b => some b
  | _ => none

def writes (ns : List Note) : List (Wait × Bool) := ns.filterMap fun
  | .wrote point delivered => some (point,delivered)
  | _ => none

-- A failed write delivers nothing.
def sent (ns : List Note) : List Wait := (writes ns).filterMap fun w => if w.2 then some w.1 else none

def reports (ns : List Note) : List (Nat × Report × Bool) := ns.filterMap fun
  | .reported b report isProbe => some (b,report,isProbe)
  | _ => none

@[simp] theorem dispatches_append (first second : List Note) :
    dispatches (first ++ second) = dispatches first ++ dispatches second := List.filterMap_append
@[simp] theorem writes_append (first second : List Note) : writes (first ++ second) = writes first ++ writes second :=
  List.filterMap_append
@[simp] theorem reports_append (first second : List Note) : reports (first ++ second) = reports first ++ reports second :=
  List.filterMap_append
@[simp] theorem sent_append (first second : List Note) : sent (first ++ second) = sent first ++ sent second := by
  simp [sent]

def Unnoted : Op → Prop
  | .report _ _ _ | .record (.incBackendFailures _) => False
  | _ => True

def Unheard : Wait → Prop
  | .turn | .writeRequest _ _ | .readSome _ => True
  | _ => False

abbrev Silent {α : Type} (p : Prog α) : Prop := Confined Unnoted Unheard p

theorem silent_event (event : Event Op.Reply Wait.Answer) (silent : Within Unnoted Unheard event) : note event = none := by
  cases event with
  | did op reply =>
    cases op with
    | report b report isProbe => exact silent.elim
    | record metric => cases metric <;> first | exact silent.elim | rfl
    | _ => rfl
  | got point answer => cases point <;> first | exact silent.elim | rfl

theorem silent_notes (silent : ∀ event ∈ t, Within Unnoted Unheard event) : notes t = [] := by
  simp only [notes,List.filterMap_eq_nil_iff]
  exact fun event member => silent_event event (silent event member)

theorem Silent.notes {p : Prog α} (silent : Silent p) (path : Runs p t value) : notes t = [] :=
  silent_notes (silent.runs path)

theorem passive_unnoted (op : Op) (passive : Passive op) : Unnoted op := by
  cases op with
  | record metric => cases metric <;> first | exact passive.elim | trivial
  | _ => first | exact passive.elim | trivial

theorem looking_silent {p : Prog α} (looking : Looking p) : Silent p :=
  looking.mono passive_unnoted fun _ never => never.elim

theorem passive_notes (passive : ∀ event ∈ t, Within Passive (fun _ => False) event) : notes t = [] := by
  apply silent_notes
  intro event member
  have quiet := passive event member
  cases event with
  | did op reply => exact passive_unnoted op quiet
  | got point answer => exact quiet.elim

-- The body bytes that arrive before the response ends, breaks off or stalls, and
-- whether it stalled.
def arriving : List Read → Bool → Bytes × Bool
  | _,true => ([],false)
  | [],false => ([],true)
  | read :: rest,false =>
    match read.code with
    | .none | .needBuffer => (read.block ++ (arriving rest read.done).1,(arriving rest read.done).2)
    | .operationAborted | .timeout => (read.block,true)
    | .failed => (read.block,false)

def arrived (head : Head) : Bytes := (arriving head.reads head.done).1

def stalled (head : Head) : Bool := (arriving head.reads head.done).2

def events (head : Head) : List SseEvent := decode (arrived head)

theorem readErrorBody_runs (path : Runs (readErrorBody b reads done body) t value) :
    value = body ++ (arriving reads done).1 ∧ ∀ event ∈ t, event = .got (.readSome b) () := by
  induction reads generalizing done body t with
  | nil =>
    cases done with
    | true =>
      obtain ⟨rfl,rfl⟩ := runs_ret.mp path
      simp [arriving]
    | false =>
      obtain ⟨_,rest,rfl,after⟩ := runs_wait.mp path
      obtain ⟨rfl,rfl⟩ := runs_ret.mp after
      simp [arriving]
  | cons read rest ih =>
    cases done with
    | true =>
      obtain ⟨rfl,rfl⟩ := runs_ret.mp path
      simp [arriving]
    | false =>
      obtain ⟨_,tail,rfl,after⟩ := runs_wait.mp path
      cases code : read.code with
      | none | needBuffer =>
        simp only [code] at after
        obtain ⟨rfl,later⟩ := ih after
        exact ⟨by simp [arriving,code],List.forall_mem_cons.mpr ⟨rfl,later⟩⟩
      | operationAborted | timeout | failed =>
        simp only [code] at after
        obtain ⟨rfl,rfl⟩ := runs_ret.mp after
        simp [arriving,code]

section Sink
variable (keepAlive : Bool)

def headerNote (delivered : Bool) : Note := .wrote (.writeHeader keepAlive) delivered

def frameNote (site : Site) (payload : Bytes) (delivered : Bool) : Note := .wrote (.writeChunk site (frame payload)) delivered

-- The header goes out with the first event, and only then.
def opened (started : Bool) : List Note := if started then [] else [headerNote keepAlive true]

def forwarded (started : Bool) (evs : List SseEvent) : List Note :=
  if evs.isEmpty then [] else opened keepAlive started ++ evs.map fun ev => frameNote .sink ev.data true

-- The sink while the client takes everything.
structure Live (started : Bool) (s : SinkState) : Prop where
  writer : s.writer = ⟨keepAlive,started,false⟩
  header : s.headerStarted = started
  alive : s.downstreamDead = false

-- The sink when a write has failed: the header at the first event, or a frame.
inductive Cut (started : Bool) (evs : List SseEvent) (ns : List Note) (s : SinkState) : Prop where
  | refused : started = false → evs ≠ [] → ns = [headerNote keepAlive false] → s.writer = ⟨keepAlive,false,false⟩ →
      s.headerStarted = false → s.downstreamDead = true → Cut started evs ns s
  | lost : evs = taken ++ ev :: rest →
      ns = forwarded keepAlive started taken ++ opened keepAlive (started || !taken.isEmpty) ++ [frameNote .sink ev.data false] →
      s.headerStarted = true → s.downstreamDead = true → Cut started evs ns s

variable {keepAlive}

theorem forwarded_append (started : Bool) (first second : List SseEvent) :
    forwarded keepAlive started (first ++ second) =
      forwarded keepAlive started first ++ forwarded keepAlive (started || !first.isEmpty) second := by
  cases first with
  | nil => simp [forwarded]
  | cons ev rest => cases second <;> simp [forwarded,opened]

theorem Cut.extend (cut : Cut keepAlive started evs ns s) (more : List SseEvent) :
    Cut keepAlive started (evs ++ more) ns s := by
  cases cut with
  | refused unsent some shown writer header dead => exact .refused unsent (by simp [some]) shown writer header dead
  | lost split shown header dead =>
    rw [split,List.append_assoc,List.cons_append]
    exact .lost rfl shown header dead

theorem Cut.after (cut : Cut keepAlive (started || !first.isEmpty) second ns s) :
    Cut keepAlive started (first ++ second) (forwarded keepAlive started first ++ ns) s := by
  cases cut with
  | refused unsent some shown writer header dead =>
    obtain ⟨rfl,none⟩ := Bool.or_eq_false_iff.mp unsent
    obtain rfl : first = [] := by simpa using none
    exact .refused rfl some shown writer header dead
  | lost split shown header dead =>
    rename_i taken ev rest
    have begun : (started || !first.isEmpty || !taken.isEmpty) = (started || !(first ++ taken).isEmpty) := by
      cases first <;> simp
    refine .lost (by rw [split,List.append_assoc]) ?_ header dead
    rw [shown,forwarded_append,begun]
    simp only [List.append_assoc]

theorem forward_runs (path : Runs (forward blabels tAdmitted s ev) t out) :
    notes t = [frameNote .sink ev.data out.1] ∧ out.2.writer = s.writer ∧ out.2.headerStarted = s.headerStarted ∧
      out.2.downstreamDead = (s.downstreamDead || !out.1) := by
  unfold forward at path
  obtain ⟨tNow,rest,rfl,timed⟩ := runs_perform.mp path
  obtain ⟨quiet,_,rest,rfl,observed,writing⟩ := runs_bind.mp timed
  obtain ⟨delivered,rest,rfl,written⟩ := runs_await.mp writing
  have silent := (looking_silent (observeFrame_looking blabels tAdmitted tNow s ev)).notes observed
  cases delivered with
  | true =>
    obtain ⟨rfl,rfl⟩ := runs_ret.mp written
    simp [notes_cons,note,silent,frameNote]
  | false =>
    obtain ⟨rfl,rfl⟩ := runs_ret.mp written
    simp [notes_cons,note,silent,frameNote]

theorem begin_runs {w : SseWriter} (path : Runs w.begin t out) :
    (w.headerSent = true ∧ t = [] ∧ out = (true,w)) ∨
    (w.headerSent = false ∧ t = [.got (.writeHeader w.keepAlive) out.1] ∧ out.2 = {w with headerSent := out.1}) := by
  unfold SseWriter.begin at path
  split at path
  · rename_i sent
    obtain ⟨rfl,rfl⟩ := runs_ret.mp path
    exact .inl ⟨sent,rfl,rfl⟩
  · rename_i unsent
    have unsent : w.headerSent = false := by simpa using unsent
    obtain ⟨delivered,rest,rfl,written⟩ := runs_await.mp path
    cases delivered with
    | true =>
      obtain ⟨rfl,rfl⟩ := runs_ret.mp written
      exact .inr ⟨unsent,rfl,rfl⟩
    | false =>
      obtain ⟨rfl,rfl⟩ := runs_ret.mp written
      exact .inr ⟨unsent,rfl,by rw [← unsent]⟩

theorem sink_runs (live : Live keepAlive started s) (path : Runs (sink blabels tAdmitted s ev) t out) :
    (out.1 = true ∧ Live keepAlive true out.2 ∧ notes t = forwarded keepAlive started [ev]) ∨
    (out.1 = false ∧ Cut keepAlive started [ev] (notes t) out.2) := by
  unfold sink at path
  simp only [live.alive,Bool.false_eq_true,if_false] at path
  cases started with
  | true =>
    simp only [live.header,if_true] at path
    obtain ⟨shown,writer,header,dead⟩ := forward_runs path
    rw [live.alive] at dead
    cases kept : out.1 with
    | true =>
      rw [kept] at shown dead
      exact .inl ⟨rfl,⟨writer.trans live.writer,header.trans live.header,dead⟩,shown⟩
    | false =>
      rw [kept] at shown dead
      exact .inr ⟨rfl,.lost (List.nil_append _).symm shown (header.trans live.header) dead⟩
  | false =>
    simp only [live.header,Bool.false_eq_true,if_false] at path
    obtain ⟨first,⟨sent,writer⟩,rest,rfl,began,sending⟩ := runs_bind.mp path
    rcases begin_runs began with ⟨already,-,-⟩ | ⟨-,rfl,after⟩
    · simp [live.writer] at already
    · rw [live.writer] at after
      cases sent with
      | true =>
        obtain ⟨shown,kept,header,dead⟩ := forward_runs sending
        cases taken : out.1 with
        | true =>
          rw [taken] at shown dead
          refine .inl ⟨rfl,⟨kept.trans after,header,dead⟩,?_⟩
          simp [notes_cons,note,shown,forwarded,opened,headerNote,live.writer]
        | false =>
          rw [taken] at shown dead
          refine .inr ⟨rfl,.lost (List.nil_append _).symm ?_ header dead⟩
          simp [notes_cons,note,shown,forwarded,opened,headerNote,live.writer]
      | false =>
        obtain ⟨rfl,rfl⟩ := runs_ret.mp sending
        refine .inr ⟨rfl,.refused rfl (by simp) ?_ after rfl rfl⟩
        simp [notes_cons,note,headerNote,live.writer]

-- The body loop when every event went out, from a loop that had seen [DONE] or not.
structure Passed (keepAlive started seen : Bool) (evs : List SseEvent) (ns : List Note) (flow : Flow SinkState) : Prop where
  shown : ns = forwarded keepAlive started evs
  live : Live keepAlive (started || !evs.isEmpty) flow.captured
  going : flow.sinkWantsStop = false
  sawDone : flow.sawDone = (seen || evs.any SseEvent.isDone)

def Drained (keepAlive started seen : Bool) (evs : List SseEvent) (ns : List Note) (flow : Flow SinkState) : Prop :=
  Passed keepAlive started seen evs ns flow ∨ (flow.sinkWantsStop = true ∧ Cut keepAlive started evs ns flow.captured)

theorem Passed.none (live : Live keepAlive started flow.captured) (going : flow.sinkWantsStop = false) :
    Passed keepAlive started flow.sawDone [] [] flow :=
  ⟨rfl,by simpa using live,going,by simp⟩

theorem Passed.then (one : Passed keepAlive started seen first ns middle)
    (two : Drained keepAlive (started || !first.isEmpty) middle.sawDone second more flow) :
    Drained keepAlive started seen (first ++ second) (ns ++ more) flow := by
  rcases two with two | ⟨stopped,cut⟩
  · refine .inl ⟨?_,?_,two.going,?_⟩
    · rw [one.shown,two.shown,forwarded_append]
    · have live := two.live
      cases first <;> simpa using live
    · rw [two.sawDone,one.sawDone,List.any_append,Bool.or_assoc]
  · refine .inr ⟨stopped,?_⟩
    rw [one.shown]
    exact cut.after

theorem drainPending_runs (path : Runs (drainPending (sink blabels tAdmitted) queue flow) t after)
    (live : Live keepAlive started flow.captured) (going : flow.sinkWantsStop = false) :
    Drained keepAlive started flow.sawDone queue (notes t) after ∧ after.parser = flow.parser ∧
      after.timedOut = flow.timedOut := by
  induction queue generalizing started flow t with
  | nil =>
    obtain ⟨rfl,rfl⟩ := runs_ret.mp path
    exact ⟨.inl (.none live going),rfl,rfl⟩
  | cons ev rest ih =>
    unfold drainPending at path
    obtain ⟨first,⟨keep,captured⟩,second,rfl,sunk,draining⟩ := runs_bind.mp path
    rcases sink_runs live sunk with ⟨kept,lives,shown⟩ | ⟨stopped,cut⟩
    · obtain rfl : keep = true := kept
      have one : Passed keepAlive started flow.sawDone [ev] (notes first)
          {flow with sawDone := flow.sawDone || ev.isDone,anyFrameForwarded := true,captured} :=
        ⟨shown,by simpa using lives,going,by simp⟩
      obtain ⟨drained,parser,timedOut⟩ := ih draining one.live going
      rw [notes_append]
      exact ⟨one.then drained,parser,timedOut⟩
    · obtain rfl : keep = false := stopped
      obtain ⟨rfl,rfl⟩ := runs_ret.mp draining
      rw [List.append_nil]
      exact ⟨.inr ⟨rfl,cut.extend rest⟩,rfl,rfl⟩

-- The loop over a stretch of the body: the events its bytes complete are drained,
-- and unless the sink stopped it the parser and the timeout flag are up to date.
def Looped (keepAlive started : Bool) (bytes : Bytes) (stalls : Bool) (ns : List Note) (flow after : Flow SinkState) : Prop :=
  Drained keepAlive started flow.sawDone (feed flow.parser bytes).1 ns after ∧
    (after.sinkWantsStop = false →
      after.parser = (feed flow.parser bytes).2 ∧ after.timedOut = (flow.timedOut || stalls))

theorem Looped.over (live : Live keepAlive started flow.captured) (going : flow.sinkWantsStop = false) :
    Looped keepAlive started [] false [] flow flow :=
  ⟨.inl (.none live going),fun _ => ⟨rfl,by simp⟩⟩

theorem Looped.stalled (live : Live keepAlive started flow.captured) (going : flow.sinkWantsStop = false) :
    Looped keepAlive started [] true [] flow {flow with timedOut := true} :=
  ⟨.inl ⟨rfl,by simpa [feed] using live,going,by simp [feed]⟩,fun _ => ⟨rfl,by simp⟩⟩

theorem Looped.after_block (drain : Runs (drainPending (sink blabels tAdmitted) (feed flow.parser block).1
      {flow with parser := (feed flow.parser block).2}) t middle)
    (live : Live keepAlive started flow.captured) (going : flow.sinkWantsStop = false)
    (on : ∀ {begun}, Live keepAlive begun middle.captured → middle.sinkWantsStop = false →
      Looped keepAlive begun bytes stalls ns middle after)
    (off : middle.sinkWantsStop = true → after.sinkWantsStop = true ∧ after.captured = middle.captured ∧ ns = []) :
    Looped keepAlive started (block ++ bytes) stalls (notes t ++ ns) flow after := by
  obtain ⟨drained,parser,timedOut⟩ := drainPending_runs drain live going
  rw [Looped,feed_append]
  rcases drained with passed | ⟨stopped,cut⟩
  · obtain ⟨rest,ends⟩ := on passed.live passed.going
    rw [parser] at rest ends
    rw [timedOut] at ends
    exact ⟨passed.then rest,ends⟩
  · obtain ⟨still,same,rfl⟩ := off stopped
    rw [List.append_nil]
    refine ⟨.inr ⟨still,?_⟩,fun goes => ?_⟩
    · rw [same]
      exact cut.extend _
    · rw [still] at goes
      cases goes

theorem readBody_stopped (path : Runs (readBody (sink blabels tAdmitted) b reads done flow) t after)
    (stopped : flow.sinkWantsStop = true) : t = [] ∧ after = flow := by
  cases reads <;> simpa [readBody,stopped,runs_ret] using path

theorem readBody_runs (path : Runs (readBody (sink blabels tAdmitted) b reads done flow) t after)
    (live : Live keepAlive started flow.captured) (going : flow.sinkWantsStop = false) :
    Looped keepAlive started (arriving reads done).1 (arriving reads done).2 (notes t) flow after := by
  induction reads generalizing started done flow t with
  | nil =>
    unfold readBody at path
    cases done with
    | true =>
      obtain ⟨rfl,rfl⟩ := runs_ret.mp path
      exact .over live going
    | false =>
      rw [if_neg (by simp [going])] at path
      obtain ⟨_,rest,rfl,waited⟩ := runs_await.mp path
      obtain ⟨rfl,rfl⟩ := runs_ret.mp waited
      exact .stalled live going
  | cons read rest ih =>
    unfold readBody at path
    cases done with
    | true =>
      obtain ⟨rfl,rfl⟩ := runs_ret.mp path
      exact .over live going
    | false =>
      rw [if_neg (by simp [going])] at path
      obtain ⟨_,tail,rfl,waited⟩ := runs_await.mp path
      obtain ⟨first,middle,second,rfl,drain,looping⟩ := runs_bind.mp waited
      change Looped keepAlive started _ _ (notes (first ++ second)) flow after
      rw [notes_append]
      cases code : read.code with
      | none | needBuffer =>
        rw [code] at looping
        simp only [arriving,code]
        apply Looped.after_block drain live going
        · exact fun lives goes => ih looping lives goes
        · intro stopped
          obtain ⟨rfl,rfl⟩ := readBody_stopped looping stopped
          exact ⟨stopped,rfl,rfl⟩
      | operationAborted | timeout =>
        rw [code] at looping
        obtain ⟨rfl,rfl⟩ := runs_ret.mp looping
        have stall := Looped.after_block drain live going .stalled fun stopped => ⟨stopped,rfl,rfl⟩
        simpa [arriving,code] using stall
      | failed =>
        rw [code] at looping
        obtain ⟨rfl,rfl⟩ := runs_ret.mp looping
        have last := Looped.after_block drain live going .over fun stopped => ⟨stopped,rfl,rfl⟩
        simpa [arriving,code] using last

theorem flushTail_runs (path : Runs (flushTail (sink blabels tAdmitted) flow) t after)
    (live : Live keepAlive started flow.captured) (going : flow.sinkWantsStop = false) :
    Drained keepAlive started flow.sawDone (flush flow.parser).1 (notes t) after ∧ after.timedOut = flow.timedOut := by
  unfold flushTail at path
  rw [if_neg (by simp [going])] at path
  obtain ⟨drained,-,timedOut⟩ := drainPending_runs path live going
  exact ⟨drained,timedOut⟩

-- A body is passed on as a whole or cut off by a failed write.
inductive Flowed (keepAlive : Bool) (head : Head) (ns : List Note) (sr : StreamResult) (s : SinkState) : Prop where
  | whole : sr.connected = true → sr.httpStatus = head.status → sr.timedOut = stalled head →
      sr.upstreamAborted = (!(events head).any SseEvent.isDone && !stalled head) →
      ns = forwarded keepAlive false (events head) → Live keepAlive (!(events head).isEmpty) s → Flowed keepAlive head ns sr s
  | cut : sr.connected = true → sr.httpStatus = head.status → sr.upstreamAborted = false →
      Cut keepAlive false (events head) ns s → Flowed keepAlive head ns sr s

theorem streamBody_runs (path : Runs (streamBody (sink blabels tAdmitted) b head {writer := {keepAlive}}) t out) :
    Flowed keepAlive head (notes t) out.1 out.2 := by
  unfold streamBody at path
  obtain ⟨first,middle,rest,rfl,reading,flushing⟩ := runs_bind.mp path
  obtain ⟨second,flow,rest,rfl,flushed,ending⟩ := runs_bind.mp flushing
  obtain ⟨rfl,rfl⟩ := runs_ret.mp ending
  obtain ⟨drained,ends⟩ := readBody_runs reading ⟨rfl,rfl,rfl⟩ rfl
  rw [List.append_nil,notes_append]
  rcases drained with passed | ⟨stopped,cut⟩
  · obtain ⟨parser,timedOut⟩ := ends passed.going
    obtain ⟨tail,same⟩ := flushTail_runs flushed passed.live passed.going
    rw [parser] at tail
    rcases passed.then tail with whole | ⟨stopped,cut⟩
    · have timed : flow.timedOut = stalled head := by rw [same,timedOut,Bool.false_or,stalled]
      have done : flow.sawDone = (events head).any SseEvent.isDone := by
        rw [whole.sawDone,Bool.false_or]
        rfl
      refine .whole rfl rfl timed ?_ whole.shown whole.live
      simp [whole.going,timed,done]
    · exact .cut rfl rfl (by simp [stopped]) cut
  · unfold flushTail at flushed
    rw [if_pos stopped] at flushed
    obtain ⟨rfl,rfl⟩ := runs_ret.mp flushed
    rw [notes_nil,List.append_nil]
    exact .cut rfl rfl (by simp [stopped]) (cut.extend _)

def StreamPart : Wait → Prop
  | .writeHeader _ | .writeChunk _ _ => True
  | _ => False

-- The loop shows nothing but parts of a stream written to the client.
def Written (ns : List Note) : Prop := ∀ shown ∈ ns, ∃ point delivered, shown = .wrote point delivered ∧ StreamPart point

theorem Written.append (one : Written first) (two : Written second) : Written (first ++ second) := by
  intro shown member
  rcases List.mem_append.mp member with early | late
  · exact one shown early
  · exact two shown late

theorem Written.dispatches (written : Written ns) : dispatches ns = [] := by
  simp only [Streaming.dispatches,List.filterMap_eq_nil_iff]
  intro shown member
  obtain ⟨point,delivered,rfl,-⟩ := written shown member
  rfl

theorem Written.reports (written : Written ns) : reports ns = [] := by
  simp only [Streaming.reports,List.filterMap_eq_nil_iff]
  intro shown member
  obtain ⟨point,delivered,rfl,-⟩ := written shown member
  rfl

theorem written_single (point : Wait) (delivered : Bool) (part : StreamPart point) : Written [.wrote point delivered] := by
  intro shown member
  exact ⟨point,delivered,List.mem_singleton.mp member,part⟩

theorem opened_written (keepAlive started : Bool) : Written (opened keepAlive started) := by
  cases started with
  | true => exact List.forall_mem_nil _
  | false => exact written_single _ _ trivial

theorem forwarded_written (keepAlive started : Bool) (evs : List SseEvent) : Written (forwarded keepAlive started evs) := by
  unfold forwarded
  split
  · exact List.forall_mem_nil _
  · apply Written.append (opened_written keepAlive started)
    intro shown member
    obtain ⟨ev,-,rfl⟩ := List.mem_map.mp member
    exact ⟨_,_,rfl,trivial⟩

theorem Flowed.written (flowed : Flowed keepAlive head ns sr s) : Written ns := by
  cases flowed with
  | whole _ _ _ _ shown =>
    rw [shown]
    exact forwarded_written keepAlive false _
  | cut _ _ _ cut =>
    cases cut with
    | refused _ _ shown =>
      rw [shown]
      exact written_single _ _ trivial
    | lost _ shown =>
      rw [shown]
      exact ((forwarded_written _ _ _).append (opened_written _ _)).append (written_single _ _ trivial)

-- How the upstream exchange of a streaming attempt can go.
inductive Streamed (keepAlive : Bool) (b : Nat) (requestBody : Bytes) : Trace → StreamResult → SinkState → Prop where
  | unreachable : Streamed keepAlive b requestBody [.got (.connect b) (.error fault)] {} {writer := {keepAlive}}
  | unwritten : Streamed keepAlive b requestBody
      [.got (.connect b) (.ok ()),.got (.writeRequest b requestBody) (.error fault)]
      {connected := true,upstreamAborted := true} {writer := {keepAlive}}
  | unanswered : Streamed keepAlive b requestBody
      [.got (.connect b) (.ok ()),.got (.writeRequest b requestBody) (.ok ()),.got (.readHeader b) (.error fault)]
      {connected := true,upstreamAborted := true} {writer := {keepAlive}}
  | refused : head.status ≥ 400 → (∀ event ∈ reads, event = .got (.readSome b) ()) → Streamed keepAlive b requestBody
      (.got (.connect b) (.ok ()) :: .got (.writeRequest b requestBody) (.ok ()) :: .got (.readHeader b) (.ok head) :: reads)
      {connected := true,httpStatus := head.status,errorBody := arrived head} {writer := {keepAlive}}
  | answered : head.status < 400 → Flowed keepAlive head (notes body) sr s → Streamed keepAlive b requestBody
      (.got (.connect b) (.ok ()) :: .got (.writeRequest b requestBody) (.ok ()) :: .got (.readHeader b) (.ok head) :: body) sr s

theorem streamChat_runs
    (path : Runs (streamChat (sink blabels tAdmitted) b requestBody {writer := {keepAlive}}) t out) :
    Streamed keepAlive b requestBody t out.1 out.2 := by
  unfold streamChat at path
  obtain ⟨connected,rest,rfl,asking⟩ := runs_await.mp path
  cases connected with
  | error fault =>
    obtain ⟨rfl,rfl⟩ := runs_ret.mp asking
    exact .unreachable
  | ok _ =>
    obtain ⟨written,rest,rfl,waiting⟩ := runs_await.mp asking
    cases written with
    | error fault =>
      obtain ⟨rfl,rfl⟩ := runs_ret.mp waiting
      exact .unwritten
    | ok _ =>
      obtain ⟨answer,rest,rfl,reading⟩ := runs_await.mp waiting
      cases answer with
      | error fault =>
        obtain ⟨rfl,rfl⟩ := runs_ret.mp reading
        exact .unanswered
      | ok head =>
        dsimp only at reading
        split at reading
        · rename_i refused
          obtain ⟨reads,errorBody,tail,rfl,read,ending⟩ := runs_bind.mp reading
          obtain ⟨rfl,rfl⟩ := runs_ret.mp ending
          obtain ⟨rfl,only⟩ := readErrorBody_runs read
          rw [List.append_nil]
          exact .refused refused only
        · rename_i accepted
          exact .answered (Nat.lt_of_not_le accepted) (streamBody_runs reading)

end Sink
end Kvmux.Streaming
