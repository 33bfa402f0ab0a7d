import Mathlib.Data.List.Basic
import Kvmux.Streaming

namespace Kvmux.Attempt
open Coroutine SseParser SseCodec Client Gateway OpenAi Streaming

def reply (keepAlive : Bool) (status : Nat) (body : Bytes) : Response := {status,body,keepAlive,retryAfter := status == 429}

inductive Answered (labels : Metrics.Labels) (keepAlive : Bool) (status : Nat) : Option Bytes → Trace → Outcome → Prop where
  | unwritable : Answered labels keepAlive status none [] ⟨.threw,status,labels⟩
  | written : Answered labels keepAlive status (some body) [.got (.writeJson (reply keepAlive status body)) delivered]
      ⟨if delivered then .returned keepAlive else .threw,status,labels⟩

theorem respond_runs (path : Runs (respond labels keepAlive status body) t outcome) :
    Answered labels keepAlive status body t outcome := by
  cases body with
  | none =>
    obtain ⟨rfl,rfl⟩ := runs_ret.mp path
    exact .unwritable
  | some body =>
    unfold respond writeJson at path
    obtain ⟨first,exit,rest,rfl,writing,ending⟩ := runs_bind.mp path
    obtain ⟨delivered,rest,rfl,written⟩ := runs_await.mp writing
    obtain ⟨rfl,rfl⟩ := runs_ret.mp ending
    cases delivered with
    | true =>
      obtain ⟨rfl,rfl⟩ := runs_ret.mp written
      exact .written
    | false =>
      obtain ⟨rfl,rfl⟩ := runs_ret.mp written
      exact .written

theorem answer_runs (path : Runs (answer labels keepAlive status body) t verdict) :
    ∃ outcome, verdict = .finish outcome ∧ Answered labels keepAlive status body t outcome := by
  unfold answer at path
  obtain ⟨first,outcome,rest,rfl,responding,ending⟩ := runs_bind.mp path
  obtain ⟨rfl,rfl⟩ := runs_ret.mp ending
  rw [List.append_nil]
  exact ⟨outcome,rfl,respond_runs responding⟩

def failing (b : Nat) (isProbe : Bool) (labels : Metrics.Labels) : Trace :=
  [.did (.report b .failure isProbe) (),.did (.record (.incBackendFailures labels)) ()]

def succeeding (b : Nat) (isProbe : Bool) : Trace := [.did (.report b .success isProbe) ()]

theorem noteFailure_runs {rest : Unit → Prog α} (path : Runs (noteFailure b isProbe labels >>= rest) t value) :
    ∃ after, t = failing b isProbe labels ++ after ∧ Runs (rest ()) after value := by
  obtain ⟨first,_,second,rfl,noted,after⟩ := runs_bind.mp path
  unfold noteFailure at noted
  obtain ⟨_,tail,rfl,recording⟩ := runs_perform.mp noted
  obtain ⟨_,tail,rfl,ending⟩ := runs_act.mp recording
  obtain ⟨rfl,-⟩ := runs_ret.mp ending
  exact ⟨second,rfl,after⟩

section Unary

-- A non-streaming exchange up to its response, or as far as it got.
inductive Posted (b : Nat) (requestBody : Bytes) : Trace → UnaryResult → Prop where
  | unreachable : Posted b requestBody [.got (.connect b) (.error fault)] {}
  | unwritten : Posted b requestBody [.got (.connect b) (.ok ()),.got (.writeRequest b requestBody) (.error fault)]
      {connected := true}
  | unanswered : Posted b requestBody
      [.got (.connect b) (.ok ()),.got (.writeRequest b requestBody) (.ok ()),.got (.readResponse b) (.error fault)]
      {connected := true}
  | answered : Posted b requestBody
      [.got (.connect b) (.ok ()),.got (.writeRequest b requestBody) (.ok ()),.got (.readResponse b) (.ok received)]
      {connected := true,httpStatus := received.status,body := received.body}

theorem postChat_runs (path : Runs (postChat b requestBody) t ur) : Posted b requestBody t ur := by
  unfold postChat at path
  obtain ⟨connected,rest,rfl,asking⟩ := runs_await.mp path
  cases connected with
  | error fault =>
    obtain ⟨rfl,rfl⟩ := runs_ret.mp asking
    exact .unreachable
  | ok _ =>
    obtain ⟨written,rest,rfl,waiting⟩ := runs_await.mp asking
    cases written with
    | error fault =>
      obtain ⟨rfl,rfl⟩ := runs_ret.mp waiting
      exact .unwritten
    | ok _ =>
      obtain ⟨answer,rest,rfl,reading⟩ := runs_await.mp waiting
      cases answer with
      | error fault =>
        obtain ⟨rfl,rfl⟩ := runs_ret.mp reading
        exact .unanswered
      | ok received =>
        obtain ⟨rfl,rfl⟩ := runs_ret.mp reading
        exact .answered

variable (env : Env) (job : Job) (labels : Metrics.Labels) (b : Nat) (isProbe more : Bool)

def wrapped (bytes : Bytes) (status : Nat) : Option Bytes := env.json.dump (wrapUpstreamError env.json bytes status)

-- A non-streaming attempt. `up` is the exchange with the backend.
inductive Unary : Trace → Verdict → Prop where
  | unreachable : Posted b job.upstreamText up ur → ur.connected = false → Unary (up ++ failing b isProbe labels) .next
  | failedOver : Posted b job.upstreamText up ur → ur.connected = true → ur.httpStatus ≥ 500 → more = true →
      Unary (up ++ failing b isProbe labels) .next
  | surfaced : Posted b job.upstreamText up ur → ur.connected = true → ur.httpStatus ≥ 500 → more = false →
      Answered labels job.keepAlive ur.httpStatus (wrapped env ur.body ur.httpStatus) t outcome →
      Unary (up ++ failing b isProbe labels ++ t) (.finish outcome)
  | relayedError : Posted b job.upstreamText up ur → ur.connected = true → ur.httpStatus < 500 → ur.httpStatus ≥ 400 →
      Answered labels job.keepAlive ur.httpStatus (wrapped env ur.body ur.httpStatus) t outcome →
      Unary (up ++ succeeding b isProbe ++ t) (.finish outcome)
  | relayed : Posted b job.upstreamText up ur → ur.connected = true → ur.httpStatus < 400 →
      Answered labels job.keepAlive 200 (some ur.body) t outcome →
      Unary (up ++ succeeding b isProbe ++ t) (.finish outcome)

variable {env job labels b isProbe more}

theorem unaryAttempt_runs (path : Runs (unaryAttempt env job labels b isProbe more) t verdict) :
    Unary env job labels b isProbe more t verdict := by
  unfold unaryAttempt at path
  obtain ⟨up,ur,rest,rfl,posting,deciding⟩ := runs_bind.mp path
  have posted := postChat_runs posting
  split at deciding
  · rename_i unconnected
    obtain ⟨after,rfl,ending⟩ := noteFailure_runs deciding
    obtain ⟨rfl,rfl⟩ := runs_ret.mp ending
    rw [List.append_nil]
    exact .unreachable posted (by simpa using unconnected)
  · rename_i connected
    have connected : ur.connected = true := by simpa using connected
    split at deciding
    · rename_i failed
      obtain ⟨after,rfl,ending⟩ := noteFailure_runs deciding
      split at ending
      · rename_i again
        obtain ⟨rfl,rfl⟩ := runs_ret.mp ending
        rw [List.append_nil]
        exact .failedOver posted connected failed again
      · rename_i last
        obtain ⟨outcome,rfl,answered⟩ := answer_runs ending
        rw [← List.append_assoc]
        exact .surfaced posted connected failed (by simpa using last) answered
    · rename_i served
      obtain ⟨_,after,rfl,ending⟩ := runs_perform.mp deciding
      have split : ∀ tail : Trace, up ++ .did (.report b .success isProbe) () :: tail = up ++ succeeding b isProbe ++ tail := by
        simp [succeeding]
      split at ending
      · rename_i error
        obtain ⟨outcome,rfl,answered⟩ := answer_runs ending
        rw [split]
        exact .relayedError posted connected (Nat.lt_of_not_le served) error answered
      · rename_i fine
        obtain ⟨outcome,rfl,answered⟩ := answer_runs ending
        rw [split]
        exact .relayed posted connected (Nat.lt_of_not_le fine) answered

end Unary
section Stream

theorem finish_runs {w : SseWriter} (unended : w.ended = false) (path : Runs w.finish t out) :
    t = [.got .writeLastChunk out] := by
  unfold SseWriter.finish at path
  rw [unended] at path
  obtain ⟨delivered,rest,rfl,ending⟩ := runs_wait.mp path
  obtain ⟨rfl,rfl⟩ := runs_ret.mp ending
  rfl

theorem errorJson_some (env : Env) (kind : ErrorKind) (message : String) :
    ∃ payload, errorJson env kind (text message) [] = some payload :=
  Option.isSome_iff_exists.mp ((env.json.dumps _).mpr (makeError_utf8 kind message))

-- A last frame of the gateway's own and the end of the chunked body; the flag
-- tells whether both went out.
inductive Closing (payload : Bytes) : Trace → Bool → Prop where
  | lost : Closing payload [.got (.writeChunk .gateway (frame payload)) false] false
  | ended : Closing payload [.got (.writeChunk .gateway (frame payload)) true,.got .writeLastChunk delivered] delivered

def failed (sr : StreamResult) : Bool := sr.httpStatus ≥ 400 || !sr.connected || sr.timedOut || sr.upstreamAborted

variable (env : Env) (job : Job) (labels : Metrics.Labels) (b : Nat) (isProbe more : Bool)

def surface (sr : StreamResult) : Nat × Option Bytes :=
  if sr.httpStatus ≥ 400 then (sr.httpStatus,wrapped env sr.errorBody sr.httpStatus)
  else if sr.timedOut then (504,errorJson env .upstreamTimeout (text "upstream timed out") [])
  else (502,errorJson env .upstreamFailure (text "upstream connection failed") [])

def midStreamError (timedOut : Bool) : Option Bytes :=
  if timedOut then errorJson env .upstreamTimeout (text "upstream timed out mid-stream") []
  else errorJson env .upstreamFailure (text "upstream aborted mid-stream") []

-- A streaming attempt. `up` is the exchange with the backend, with the frames
-- that were passed on.
inductive Stream : Trace → Verdict → Prop where
  | failedOver : Streamed job.keepAlive b job.upstreamText up sr s → s.headerStarted = false → failed sr = true →
      more = true → Stream (up ++ failing b isProbe labels) .next
  | surfaced : Streamed job.keepAlive b job.upstreamText up sr s → s.headerStarted = false → failed sr = true →
      more = false → Answered labels job.keepAlive (surface env sr).1 (surface env sr).2 t outcome →
      Stream (up ++ failing b isProbe labels ++ t) (.finish outcome)
  | unopened : Streamed job.keepAlive b job.upstreamText up sr s → s.headerStarted = false → failed sr = false →
      Stream (up ++ succeeding b isProbe ++ [.got (.writeHeader job.keepAlive) false]) (.finish ⟨.threw,0,labels⟩)
  | emptied : Streamed job.keepAlive b job.upstreamText up sr s → s.headerStarted = false → failed sr = false →
      Closing (text "[DONE]") t clean →
      Stream (up ++ succeeding b isProbe ++ .got (.writeHeader job.keepAlive) true :: t)
        (finished labels (.returned (clean && job.keepAlive)))
  | abandoned : Streamed job.keepAlive b job.upstreamText up sr s → s.headerStarted = true → s.downstreamDead = true →
      Stream up (finished labels (.returned false))
  | truncated : Streamed job.keepAlive b job.upstreamText up sr s → s.headerStarted = true → s.downstreamDead = false →
      (sr.upstreamAborted || sr.timedOut) = true → midStreamError env sr.timedOut = some payload → Closing payload t clean →
      Stream (up ++ failing b isProbe labels ++ t) (finished labels (.returned false))
  | completed : Streamed job.keepAlive b job.upstreamText up sr s → s.headerStarted = true → s.downstreamDead = false →
      (sr.upstreamAborted || sr.timedOut) = false →
      Stream (up ++ succeeding b isProbe ++ [.got .writeLastChunk clean]) (finished labels (.returned (clean && job.keepAlive)))

variable {env job labels b isProbe more}

theorem Streamed.unsent (streamed : Streamed keepAlive b requestBody t sr s) (unsent : s.headerStarted = false) :
    s.writer = ⟨keepAlive,false,false⟩ := by
  cases streamed with
  | unreachable | unwritten | unanswered | refused => rfl
  | answered _ flowed =>
    cases flowed with
    | whole _ _ _ _ _ live =>
      rw [live.writer]
      rw [live.header] at unsent
      rw [unsent]
    | cut _ _ _ cut =>
      cases cut with
      | refused _ _ _ writer => exact writer
      | lost _ _ started => simp [unsent] at started

theorem Streamed.sent (streamed : Streamed keepAlive b requestBody t sr s) (sent : s.headerStarted = true)
    (alive : s.downstreamDead = false) : ∃ head body, head.status < 400 ∧ t =
      .got (.connect b) (.ok ()) :: .got (.writeRequest b requestBody) (.ok ()) :: .got (.readHeader b) (.ok head) :: body ∧
      notes body = forwarded keepAlive false (events head) ∧ events head ≠ [] ∧ sr.timedOut = stalled head ∧
      sr.upstreamAborted = (!(events head).any SseEvent.isDone && !stalled head) ∧ s.writer = ⟨keepAlive,true,false⟩ := by
  cases streamed with
  | unreachable | unwritten | unanswered | refused => cases sent
  | answered served flowed =>
    rename_i head body
    refine ⟨head,body,served,rfl,?_⟩
    cases flowed with
    | whole _ _ timedOut aborted shown live =>
      have begun := live.header
      rw [sent] at begun
      refine ⟨shown,?_,timedOut,aborted,?_⟩
      · intro none
        simp [none] at begun
      · rw [live.writer,← begun]
    | cut _ _ _ cut =>
      cases cut with
      | refused _ _ _ _ unsent => simp [unsent] at sent
      | lost _ _ _ dead => simp [alive] at dead

theorem classifyUnsent_runs (streamed : Streamed job.keepAlive b job.upstreamText up sr s) (unsent : s.headerStarted = false)
    (path : Runs (classifyUnsent env job labels b isProbe more sr s.writer) t verdict) :
    Stream env job labels b isProbe more (up ++ t) verdict := by
  unfold classifyUnsent at path
  split at path
  · rename_i fails
    obtain ⟨after,rfl,ending⟩ := noteFailure_runs path
    rw [← List.append_assoc]
    split at ending
    · rename_i again
      obtain ⟨rfl,rfl⟩ := runs_ret.mp ending
      rw [List.append_nil]
      exact .failedOver streamed unsent fails again
    · rename_i last
      have last : more = false := by simpa using last
      split at ending
      · rename_i refused
        obtain ⟨outcome,rfl,answered⟩ := answer_runs ending
        refine .surfaced streamed unsent fails last ?_
        rw [surface,if_pos refused]
        exact answered
      · rename_i served
        split at ending
        · rename_i timedOut
          obtain ⟨outcome,rfl,answered⟩ := answer_runs ending
          refine .surfaced streamed unsent fails last ?_
          rw [surface,if_neg served,if_pos timedOut]
          exact answered
        · rename_i timely
          obtain ⟨outcome,rfl,answered⟩ := answer_runs ending
          refine .surfaced streamed unsent fails last ?_
          rw [surface,if_neg served,if_neg timely]
          exact answered
  · rename_i sound
    have sound : failed sr = false := Bool.eq_false_of_not_eq_true sound
    obtain ⟨_,after,rfl,beginning⟩ := runs_perform.mp path
    have joined : ∀ tail : Trace, up ++ .did (.report b .success isProbe) () :: tail = up ++ succeeding b isProbe ++ tail := by
      simp [succeeding]
    rw [joined]
    obtain ⟨first,⟨sent,writer⟩,rest,rfl,began,closing⟩ := runs_bind.mp beginning
    have blank := Streamed.unsent streamed unsent
    rw [blank] at began
    rcases begin_runs began with ⟨already,-,-⟩ | ⟨-,rfl,opened⟩
    · cases already
    · cases sent with
      | false =>
        obtain ⟨rfl,rfl⟩ := runs_ret.mp closing
        exact .unopened streamed unsent sound
      | true =>
        obtain rfl : writer = ⟨job.keepAlive,true,false⟩ := opened
        obtain ⟨delivered,rest,rfl,finishing⟩ := runs_await.mp closing
        cases delivered with
        | false =>
          obtain ⟨rfl,rfl⟩ := runs_ret.mp finishing
          exact .emptied streamed unsent sound .lost
        | true =>
          obtain ⟨last,clean,rest,rfl,ended,ending⟩ := runs_bind.mp finishing
          obtain rfl := finish_runs rfl ended
          cases clean with
          | false =>
            obtain ⟨rfl,rfl⟩ := runs_ret.mp ending
            exact .emptied streamed unsent sound .ended
          | true =>
            obtain ⟨rfl,rfl⟩ := runs_ret.mp ending
            exact .emptied streamed unsent sound .ended

theorem classifySent_runs (streamed : Streamed job.keepAlive b job.upstreamText up sr s) (sent : s.headerStarted = true)
    (path : Runs (classifySent env job labels b isProbe sr s) t verdict) :
    Stream env job labels b isProbe more (up ++ t) verdict := by
  unfold classifySent at path
  split at path
  · rename_i dead
    obtain ⟨rfl,rfl⟩ := runs_ret.mp path
    rw [List.append_nil]
    exact .abandoned streamed sent dead
  · rename_i alive
    have alive : s.downstreamDead = false := by simpa using alive
    have unended : s.writer.ended = false := by
      obtain ⟨_,_,_,_,_,_,_,_,writer⟩ := Streamed.sent streamed sent alive
      rw [writer]
    split at path
    · rename_i broken
      obtain ⟨after,rfl,closing⟩ := noteFailure_runs path
      rw [← List.append_assoc]
      obtain ⟨payload,shown⟩ : ∃ payload, midStreamError env sr.timedOut = some payload := by
        unfold midStreamError
        split
        · exact errorJson_some env _ _
        · exact errorJson_some env _ _
      have error := shown
      unfold midStreamError at error
      dsimp only at closing
      rw [error] at closing
      obtain ⟨delivered,rest,rfl,finishing⟩ := runs_await.mp closing
      cases delivered with
      | false =>
        obtain ⟨rfl,rfl⟩ := runs_ret.mp finishing
        exact .truncated streamed sent alive broken shown .lost
      | true =>
        obtain ⟨last,clean,rest,rfl,ended,ending⟩ := runs_bind.mp finishing
        obtain rfl := finish_runs unended ended
        obtain ⟨rfl,rfl⟩ := runs_ret.mp ending
        exact .truncated streamed sent alive broken shown .ended
    · rename_i sound
      have sound : (sr.upstreamAborted || sr.timedOut) = false := by simpa using sound
      obtain ⟨_,after,rfl,finishing⟩ := runs_perform.mp path
      obtain ⟨last,clean,rest,rfl,ended,ending⟩ := runs_bind.mp finishing
      obtain rfl := finish_runs unended ended
      have joined : up ++ .did (.report b .success isProbe) () :: ([.got .writeLastChunk clean] ++ rest) =
          up ++ succeeding b isProbe ++ .got .writeLastChunk clean :: rest := by
        simp [succeeding]
      rw [joined]
      cases clean with
      | false =>
        obtain ⟨rfl,rfl⟩ := runs_ret.mp ending
        exact .completed streamed sent alive sound
      | true =>
        obtain ⟨rfl,rfl⟩ := runs_ret.mp ending
        exact .completed streamed sent alive sound

theorem streamAttempt_runs (path : Runs (streamAttempt env job labels b isProbe more) t verdict) :
    Stream env job labels b isProbe more t verdict := by
  unfold streamAttempt at path
  obtain ⟨up,⟨sr,s⟩,rest,rfl,streaming,classifying⟩ := runs_bind.mp path
  have streamed : Streamed job.keepAlive b job.upstreamText up sr s := streamChat_runs streaming
  dsimp only at classifying
  split at classifying
  · rename_i unsent
    exact classifyUnsent_runs streamed (by simpa using unsent) classifying
  · rename_i sent
    exact classifySent_runs streamed (by simpa using sent) classifying

end Stream

inductive Tried (env : Env) (job : Job) (labels : Metrics.Labels) (b : Nat) (isProbe more : Bool) (t : Trace)
    (verdict : Verdict) : Prop where
  | stream : job.creq.stream = true → Stream env job labels b isProbe more t verdict → Tried env job labels b isProbe more t verdict
  | unary : job.creq.stream = false → Unary env job labels b isProbe more t verdict → Tried env job labels b isProbe more t verdict

theorem attempt_runs (path : Runs (attempt env job labels b isProbe more) t verdict) :
    Tried env job labels b isProbe more t verdict := by
  unfold attempt at path
  split at path
  · rename_i stream
    exact .stream stream (streamAttempt_runs path)
  · rename_i unary
    exact .unary (by simpa using unary) (unaryAttempt_runs path)

section Shown

-- Headers that did not go out are the only writes of an attempt that is given up.
def Refused (ws : List (Wait × Bool)) : Prop := ∀ w ∈ ws, ∃ keepAlive, w = (.writeHeader keepAlive,false)

theorem sent_refused (refused : Refused (writes ns)) : sent ns = [] := by
  simp only [sent,List.filterMap_eq_nil_iff]
  intro w member
  obtain ⟨keepAlive,rfl⟩ := refused w member
  rfl

theorem refused_nil : Refused [] := List.forall_mem_nil _

theorem Refused.append (one : Refused first) (two : Refused second) : Refused (first ++ second) := by
  intro w member
  rcases List.mem_append.mp member with early | late
  · exact one w early
  · exact two w late

theorem answered_undispatched (answered : Answered labels keepAlive status body t outcome) : dispatches (notes t) = [] := by
  cases answered <;> rfl

-- The exchange of an attempt that has written nothing so far.
theorem posted_quiet (posted : Posted b requestBody t ur) :
    dispatches (notes t) = [b] ∧ writes (notes t) = [] ∧
      ((ur.httpStatus = 0 ∧ ur.body = []) ∨
        ∃ received, .responded b received ∈ notes t ∧ ur.httpStatus = received.status ∧ ur.body = received.body) := by
  cases posted with
  | unreachable | unwritten | unanswered => exact ⟨rfl,rfl,.inl ⟨rfl,rfl⟩⟩
  | answered => exact ⟨rfl,rfl,.inr ⟨_,List.mem_cons_of_mem _ List.mem_cons_self,rfl,rfl⟩⟩

def frameWrite (ev : SseEvent) : Wait := .writeChunk .sink (frame ev.data)

theorem writes_forwarded (keepAlive : Bool) (evs : List SseEvent) (some : evs ≠ []) :
    writes (forwarded keepAlive false evs) = (.writeHeader keepAlive,true) :: (evs.map frameWrite).map (·,true) := by
  have passed : writes (evs.map fun ev => frameNote .sink ev.data true) = (evs.map frameWrite).map (·,true) := by
    simp [writes,frameNote,frameWrite,List.filterMap_map,Function.comp_def]
  cases evs with
  | nil => exact absurd rfl some
  | cons ev rest =>
    rw [forwarded,if_neg (by simp),writes_append,passed]
    rfl

theorem readSome_unnoted (only : ∀ event ∈ t, event = .got (.readSome b) ()) : notes t = [] := by
  simp only [notes,List.filterMap_eq_nil_iff]
  intro event member
  rw [only event member]
  rfl

theorem streamed_dispatched (streamed : Streamed keepAlive b requestBody t sr s) : dispatches (notes t) = [b] := by
  cases streamed with
  | unreachable | unwritten | unanswered => rfl
  | refused error only =>
    rename_i reads head
    change b :: dispatches (notes reads) = [b]
    rw [readSome_unnoted only]
    rfl
  | answered served flowed =>
    rename_i head body
    change b :: dispatches (notes body) = [b]
    rw [flowed.written.dispatches]

theorem streamed_refused (streamed : Streamed keepAlive b requestBody t sr s) (unsent : s.headerStarted = false) :
    Refused (writes (notes t)) := by
  cases streamed with
  | unreachable | unwritten | unanswered => exact refused_nil
  | refused error only =>
    rename_i reads head
    change Refused (writes (notes reads))
    rw [readSome_unnoted only]
    exact refused_nil
  | answered served flowed =>
    rename_i head body
    change Refused (writes (notes body))
    cases flowed with
    | whole _ _ _ _ shown live =>
      have none : events head = [] := by
        have begun := live.header
        rw [unsent] at begun
        simpa using begun
      rw [shown,none]
      exact refused_nil
    | cut _ _ _ cut =>
      cases cut with
      | refused _ _ shown =>
        rw [shown]
        intro w member
        exact ⟨keepAlive,List.mem_singleton.mp member⟩
      | lost _ _ started => simp [unsent] at started

theorem streamed_whole (streamed : Streamed keepAlive b requestBody t sr s) (started : s.headerStarted = true)
    (alive : s.downstreamDead = false) :
    ∃ head, .headed b head ∈ notes t ∧
      writes (notes t) = (.writeHeader keepAlive,true) :: ((events head).map frameWrite).map (·,true) := by
  obtain ⟨head,body,-,rfl,shown,some,-⟩ := Streamed.sent streamed started alive
  refine ⟨head,List.mem_cons_of_mem _ List.mem_cons_self,?_⟩
  change writes (notes body) = _
  rw [shown,writes_forwarded keepAlive _ some]

theorem sent_writes (shown : writes ns = points.map (·,true)) : sent ns = points := by
  rw [sent,shown]
  simp

-- The exchange seemed fine and yet nothing was sent: the client refused the header.
theorem streamed_unopened (streamed : Streamed keepAlive b requestBody t sr s) (unsent : s.headerStarted = false)
    (sound : failed sr = false) :
    ∃ head, head.status < 400 ∧ notes t = [.dispatched b,.headed b head,headerNote keepAlive false] := by
  cases streamed with
  | unreachable | unwritten | unanswered => simp [failed] at sound
  | refused error only => simp [failed] at sound; omega
  | answered served flowed =>
    rename_i head body
    refine ⟨head,served,?_⟩
    cases flowed with
    | whole _ _ timedOut aborted _ live =>
      have none : events head = [] := by
        have begun := live.header
        rw [unsent] at begun
        simpa using begun
      cases stall : stalled head <;> simp [failed,timedOut,aborted,none,stall] at sound
    | cut _ _ _ cut =>
      cases cut with
      | refused _ _ shown =>
        change .dispatched b :: .headed b head :: notes body = _
        rw [shown]
      | lost _ _ started => simp [unsent] at started

theorem unary_next (unary : Unary env job labels b isProbe more t .next) :
    dispatches (notes t) = [b] ∧ Refused (writes (notes t)) := by
  generalize verdict : Verdict.next = v at unary
  cases unary with
  | unreachable posted | failedOver posted =>
    obtain ⟨one,silent,-⟩ := posted_quiet posted
    rw [notes_append,dispatches_append,writes_append,one,silent]
    exact ⟨rfl,refused_nil⟩
  | surfaced | relayedError | relayed => cases verdict

theorem stream_next (stream : Stream env job labels b isProbe more t .next) :
    dispatches (notes t) = [b] ∧ Refused (writes (notes t)) := by
  generalize verdict : Verdict.next = v at stream
  cases stream with
  | failedOver streamed unsent =>
    rw [notes_append,dispatches_append,writes_append,streamed_dispatched streamed]
    exact ⟨rfl,(streamed_refused streamed unsent).append refused_nil⟩
  | surfaced | unopened | emptied | abandoned | truncated | completed => cases verdict

theorem tried_next (tried : Tried env job labels b isProbe more t .next) :
    dispatches (notes t) = [b] ∧ Refused (writes (notes t)) := by
  cases tried with
  | stream _ stream => exact stream_next stream
  | unary _ unary => exact unary_next unary

theorem tried_opens (tried : Tried env job labels b isProbe more t verdict) :
    ∃ answer rest, t = .got (.connect b) answer :: rest := by
  have posted : ∀ {up ur} rest, Posted b job.upstreamText up ur → ∃ answer tail, up ++ rest = .got (.connect b) answer :: tail := by
    intro up ur rest posted
    cases posted <;> exact ⟨_,_,rfl⟩
  have streamed : ∀ {up sr s} rest, Streamed job.keepAlive b job.upstreamText up sr s →
      ∃ answer tail, up ++ rest = .got (.connect b) answer :: tail := by
    intro up sr s rest streamed
    cases streamed <;> exact ⟨_,_,rfl⟩
  cases tried with
  | stream _ stream =>
    cases stream with
    | failedOver up => exact streamed _ up
    | surfaced up | unopened up | emptied up | truncated up | completed up =>
      rw [List.append_assoc]
      exact streamed _ up
    | abandoned up =>
      rw [← List.append_nil t]
      exact streamed _ up
  | unary _ unary =>
    cases unary with
    | unreachable up | failedOver up => exact posted _ up
    | surfaced up | relayedError up | relayed up =>
      rw [List.append_assoc]
      exact posted _ up

end Shown

end Kvmux.Attempt
