import Mathlib.Data.List.Basic
import Kvmux.Surfacing

namespace Kvmux.Unproductive
open Coroutine SseCodec Client Gateway OpenAi Streaming Attempt Attempted Surfacing Fleet

section Timeouts
variable {env : Env} {job : Job} {labels : Metrics.Labels} {b : Nat} {isProbe more : Bool} {answer : Except Fault Unit}

-- How the reading of a body comes to its end.
inductive Ending where
  | complete
  | ranOut
  | aborted
  | failed
  deriving DecidableEq, Repr

def ending : List Read → Bool → Ending
  | _,true => .complete
  | [],false => .ranOut
  | read :: rest,false =>
    match read.code with
    | .none | .needBuffer => ending rest read.done
    | .timeout => .ranOut
    | .operationAborted => .aborted
    | .failed => .failed

def expired (head : Head) : Bool := ending head.reads head.done = .ranOut

def endsCleanly (head : Head) : Bool := ending head.reads head.done = .complete

-- The client takes an aborted read for one that ran out of time.
theorem arriving_stalls (reads : List Read) (done : Bool) :
    (arriving reads done).2 = decide (ending reads done = .ranOut ∨ ending reads done = .aborted) := by
  induction reads generalizing done with
  | nil => cases done <;> rfl
  | cons read rest ih =>
    cases done with
    | true => rfl
    | false =>
      cases code : read.code with
      | none | needBuffer => simpa only [arriving,ending,code] using ih read.done
      | operationAborted | timeout | failed => simp [arriving,ending,code]

theorem expired_stalled (late : expired head = true) : stalled head = true := by
  rw [stalled,arriving_stalls]
  exact decide_eq_true (.inl (of_decide_eq_true late))

theorem endsCleanly_flows (clean : endsCleanly head = true) : stalled head = false := by
  rw [stalled,arriving_stalls,of_decide_eq_true clean]
  rfl

-- The exchange that begins with this connect ran out of its budget, by phase.
inductive RanOut (b : Nat) : Except Fault Unit → Trace → Prop where
  | connecting : RanOut b (.error .timeout) after
  | writing : RanOut b (.ok ()) (.got (.writeRequest b body) (.error .timeout) :: after)
  | answering : RanOut b (.ok ()) (.got (.writeRequest b body) (.ok ()) :: .got (.readHeader b) (.error .timeout) :: after)
  | responding : RanOut b (.ok ()) (.got (.writeRequest b body) (.ok ()) :: .got (.readResponse b) (.error .timeout) :: after)
  | reading : expired head = true →
      RanOut b (.ok ()) (.got (.writeRequest b body) (.ok ()) :: .got (.readHeader b) (.ok head) :: after)

-- The exchange got as far as the head of a streamed response.
inductive Headed (b : Nat) : Except Fault Unit → Trace → Head → Prop where
  | headed : Headed b (.ok ()) (.got (.writeRequest b body) (.ok ()) :: .got (.readHeader b) (.ok head) :: after) head

def TimeoutError (env : Env) (status : Nat) (body : Option Bytes) : Prop :=
  status = 504 ∧ ∃ message param bytes, errorJson env .upstreamTimeout message param = some bytes ∧ body = some bytes

-- A head whose body may run out: of a stream, or of an error that reads like a timeout.
def Blamed (env : Env) (head : Head) : Prop :=
  head.status < 400 ∨ TimeoutError env head.status (wrapped env (arrived head) head.status)

def Unopened (ns : List Note) : Prop := ∀ keepAlive delivered, (.writeHeader keepAlive,delivered) ∉ writes ns

theorem streamed_opened (streamed : Streamed keepAlive b requestBody t sr s) (started : s.headerStarted = true) :
    ¬Unopened (notes t) := by
  intro unopened
  cases alive : s.downstreamDead with
  | false =>
    obtain ⟨head,-,shown⟩ := streamed_whole streamed started alive
    exact unopened keepAlive true (by rw [shown]; exact List.mem_cons_self)
  | true =>
    cases streamed with
    | unreachable | unwritten | unanswered | refused => cases started
    | answered served flowed =>
      rename_i head body
      cases flowed with
      | whole _ _ _ _ _ live => simp [live.alive] at alive
      | cut _ _ _ cut =>
        cases cut with
        | refused _ _ _ _ unsent => simp [unsent] at started
        | @lost taken ev rest split shown =>
          apply unopened keepAlive true
          change _ ∈ writes (notes body)
          rw [shown]
          cases taken with
          | nil => exact List.mem_cons_self
          | cons first others => exact List.mem_cons_self

theorem streamed_late (streamed : Streamed keepAlive b requestBody up sr s)
    (same : up ++ tail = .got (.connect b) answer :: after)
    (ranOut : RanOut b answer after) (unsent : s.headerStarted = false) (unopened : Unopened (notes up)) :
    failed sr = true ∧ (TimeoutError env (surface env sr).1 (surface env sr).2 ↔
      ∃ head, Headed b answer after head ∧ Blamed env head) := by
  have never : ∀ {sr : StreamResult}, sr.httpStatus < 400 → sr.timedOut = false →
      ¬TimeoutError env (surface env sr).1 (surface env sr).2 := by
    rintro sr fine timely ⟨code,-⟩
    simp [surface,Nat.not_le.mpr fine,timely] at code
  cases streamed with
  | unreachable | unwritten | unanswered =>
    cases same
    refine ⟨rfl,fun timeout => absurd timeout (never (by decide) rfl),?_⟩
    rintro ⟨_,headed,-⟩
    cases headed
  | refused error only =>
    rename_i reads head
    cases same
    refine ⟨by simp [failed,error],?_⟩
    rw [surface,if_pos error]
    constructor
    · exact fun timeout => ⟨head,.headed,.inr timeout⟩
    · rintro ⟨_,⟨⟩,blamed⟩
      exact blamed.resolve_left (Nat.not_lt.mpr error)
  | answered served flowed =>
    rename_i head body
    cases same
    have late : expired head = true := by
      cases ranOut with
      | reading late => exact late
    cases flowed with
    | whole connected status timedOut =>
      rw [expired_stalled late] at timedOut
      refine ⟨by simp [failed,timedOut],fun _ => ⟨head,.headed,.inl served⟩,fun _ => ?_⟩
      obtain ⟨payload,shown⟩ := errorJson_some env .upstreamTimeout "upstream timed out"
      rw [surface,if_neg (by rw [status]; omega),if_pos timedOut]
      exact ⟨rfl,_,_,payload,shown,shown⟩
    | cut _ _ _ cut =>
      cases cut with
      | refused _ _ shown =>
        refine absurd ?_ (unopened keepAlive false)
        change _ ∈ writes (notes body)
        rw [shown]
        exact List.mem_singleton.mpr rfl
      | lost _ _ started => simp [unsent] at started

theorem posted_late (posted : Posted b requestBody up ur) (same : up ++ tail = .got (.connect b) answer :: after)
    (ranOut : RanOut b answer after) : ur.httpStatus = 0 ∧ ∀ head, ¬Headed b answer after head := by
  cases posted with
  | unreachable | unwritten | unanswered =>
    cases same
    refine ⟨rfl,fun head headed => ?_⟩
    cases headed
  | answered =>
    cases same
    cases ranOut

theorem unary_late (unary : Unary env job labels b isProbe more t verdict) (finish : verdict ≠ .next)
    (same : t ++ rest = .got (.connect b) answer :: after) (ranOut : RanOut b answer after) :
    ∃ body, Responds job.keepAlive 200 body (notes t) ∧ ∀ head, ¬Headed b answer after head := by
  obtain ⟨up,ur,tail,posted,rfl,-,outcome⟩ := unary_exchange unary
  rw [List.append_assoc] at same
  obtain ⟨none,headless⟩ := posted_late posted same ranOut
  rcases outcome with ⟨next,-⟩ | ⟨-,responds⟩
  · exact absurd next finish
  · rw [relay,if_neg (by omega)] at responds
    exact ⟨_,responds,headless⟩

theorem Unopened.front (unopened : Unopened (first ++ second)) : Unopened first := by
  intro keepAlive delivered member
  apply unopened keepAlive delivered
  rw [writes_append]
  exact List.mem_append_left _ member

theorem Unopened.back (unopened : Unopened (first ++ second)) : Unopened second := by
  intro keepAlive delivered member
  apply unopened keepAlive delivered
  rw [writes_append]
  exact List.mem_append_right _ member

theorem stream_late (stream : Stream env job labels b isProbe more t verdict) (finish : verdict ≠ .next)
    (same : t ++ rest = .got (.connect b) answer :: after) (ranOut : RanOut b answer after) (unopened : Unopened (notes t)) :
    ∃ status body, Responds job.keepAlive status body (notes t) ∧
      (TimeoutError env status body ↔ ∃ head, Headed b answer after head ∧ Blamed env head) := by
  obtain ⟨up,sr,s,tail,streamed,rfl,-,outcome⟩ := stream_exchange stream
  rw [List.append_assoc] at same
  rw [notes_append] at unopened
  have unsent : s.headerStarted = false :=
    Bool.eq_false_of_not_eq_true fun started => streamed_opened streamed started unopened.front
  obtain ⟨fails,timeout⟩ := streamed_late streamed same ranOut unsent unopened.front
  rcases (outcome unsent fails).2 with ⟨next,-⟩ | ⟨-,responds⟩
  · exact absurd next finish
  · exact ⟨_,_,responds,timeout⟩

-- An attempt that ran out of its budget and is the last to be made.
theorem tried_late (tried : Tried env job labels b isProbe more t verdict) (finish : verdict ≠ .next)
    (same : t ++ rest = .got (.connect b) answer :: after) (ranOut : RanOut b answer after) (unopened : Unopened (notes t)) :
    ∃ status body, Responds job.keepAlive status body (notes t) ∧
      (TimeoutError env status body ↔ ∃ head, Headed b answer after head ∧ Blamed env head) := by
  cases tried with
  | stream _ stream => exact stream_late stream finish same ranOut unopened
  | unary _ unary =>
    obtain ⟨body,responds,headless⟩ := unary_late unary finish same ranOut
    refine ⟨200,body,responds,?_,?_⟩
    · rintro ⟨code,-⟩
      cases code
    · rintro ⟨head,headed,-⟩
      exact absurd headed (headless head)

-- Only a backend that a non-streaming request could not reach is given up without another to try.
theorem tried_unreached (tried : Tried env job labels b isProbe false t .next)
    (same : t ++ rest = .got (.connect b) answer :: after) : ∀ head, ¬Headed b answer after head := by
  generalize next : Verdict.next = verdict at tried
  generalize spent : false = more at tried
  cases tried with
  | stream _ stream =>
    cases stream with
    | failedOver _ _ _ again => simp [← spent] at again
    | _ => cases next
  | unary _ unary =>
    cases unary with
    | failedOver _ _ _ again => simp [← spent] at again
    | unreachable posted unconnected =>
      cases posted with
      | unreachable =>
        cases same
        intro head headed
        cases headed
      | _ => cases unconnected
    | _ => cases next

theorem timeouts_surface {req : Request} (path : Runs (handleChat env req) t exit)
    (split : t = past ++ .got (.connect b) answer :: after) (last : dispatches (notes after) = [])
    (ranOut : RanOut b answer after) (unsent : ∀ keepAlive, .writeHeader keepAlive ∉ sent (notes t))
    (intact : ∀ w ∈ writes (notes t), w.2 = true) :
    (∃ body message param, sent (notes t) = [.writeJson (reply req.keepAlive 504 body)] ∧
      errorJson env .upstreamTimeout message param = some body) ↔
      Unrefused after ∧ ∃ head, Headed b answer after head ∧ Blamed env head := by
  have unopened : Unopened (notes t) := by
    intro keepAlive delivered member
    apply unsent keepAlive
    exact List.mem_filterMap.mpr ⟨_,member,if_pos (intact _ member)⟩
  have received : ∀ {status body}, Responds req.keepAlive status body (notes t) →
      ((∃ body message param, sent (notes t) = [.writeJson (reply req.keepAlive 504 body)] ∧
        errorJson env .upstreamTimeout message param = some body) ↔ TimeoutError env status body) := by
    intro status body responds
    constructor
    · rintro ⟨bytes,message,param,only,shown⟩
      obtain ⟨code,own⟩ := (responds.receives intact).mp only
      exact ⟨code,message,param,bytes,shown,own⟩
    · rintro ⟨code,message,param,bytes,shown,own⟩
      exact ⟨bytes,message,param,(responds.receives intact).mpr ⟨code,own⟩,shown⟩
  cases last_attempt path split last with
  | finished keepAlive tried rest silent unrefused refused shown =>
    rw [shown] at unopened
    obtain ⟨status,body,responds,timeout⟩ :=
      tried_late tried (by simp) (by rw [List.cons_append,← rest]) ranOut unopened.back
    rw [keepAlive] at responds
    rw [received (by rw [shown]; exact responds.after refused),timeout]
    simp [unrefused]
  | gaveUp tried rest silent unrefused responds =>
    rw [received responds]
    constructor
    · rintro ⟨code,-⟩
      cases code
    · rintro ⟨all,head,headed,-⟩
      rw [unrefused.mp all] at tried
      exact absurd headed (tried_unreached tried (by rw [List.cons_append,rest]) head)

def runsOut (b : Nat) : Option Fault → Trace → Bool
  | some fault,_ => fault = .timeout
  | none,.got (.writeRequest c _) (.error fault) :: _ => c = b && fault = .timeout
  | none,.got (.writeRequest c _) (.ok _) :: .got (.readHeader d) (.error fault) :: _ => c = b && d = b && fault = .timeout
  | none,.got (.writeRequest c _) (.ok _) :: .got (.readHeader d) (.ok head) :: _ => c = b && d = b && expired head
  | none,.got (.writeRequest c _) (.ok _) :: .got (.readResponse d) (.error fault) :: _ => c = b && d = b && fault = .timeout
  | _,_ => false

theorem runsOut_ranOut (late : runsOut b fault after = true) : RanOut b (connected fault) after := by
  unfold runsOut at late
  split at late
  · obtain rfl := of_decide_eq_true late
    exact .connecting
  · simp only [Bool.and_eq_true,decide_eq_true_eq] at late
    obtain ⟨rfl,rfl⟩ := late
    exact .writing
  · simp only [Bool.and_eq_true,decide_eq_true_eq] at late
    obtain ⟨⟨rfl,rfl⟩,rfl⟩ := late
    exact .answering
  · simp only [Bool.and_eq_true,decide_eq_true_eq] at late
    obtain ⟨⟨rfl,rfl⟩,late⟩ := late
    exact .reading late
  · simp only [Bool.and_eq_true,decide_eq_true_eq] at late
    obtain ⟨⟨rfl,rfl⟩,rfl⟩ := late
    exact .responding
  · cases late

-- A stream of comments that is never finished.
def dawdling : (point : Wait) → point.Answer := obliging ⟨200,false,[{block := text ": ping\n\n"}]⟩ ⟨200,[]⟩

def unanswering : (point : Wait) → point.Answer
  | .readResponse _ => .error .timeout
  | point => dawdling point

def unreaching : (point : Wait) → point.Answer
  | .connect _ => .error .timeout
  | point => dawdling point

theorem timeouts_surface_dawdling : ∃ t past after body head,
    Runs (handleChat (sampleEnv ["a"]) (chatRequest true)) t (.returned true) ∧
    t = past ++ .got (.connect 0) (.ok ()) :: after ∧
    sent (notes t) = [.writeJson (reply true 504 body)] ∧ Headed 0 (.ok ()) after head ∧ Blamed (sampleEnv ["a"]) head := by
  obtain ⟨body,shown⟩ := errorJson_some (sampleEnv ["a"]) .upstreamTimeout "upstream timed out"
  obtain ⟨t,path,seen⟩ : ∃ t, Runs (handleChat (sampleEnv ["a"]) (chatRequest true)) t (.returned true) ∧
      (glimpse 10 t,runsOut 0 none (t.drop 11)) = (⟨some (0,none),[],[(200,text ": ping\n\n")],true,
        written true 504 (errorJson (sampleEnv ["a"]) .upstreamTimeout (text "upstream timed out") [])⟩,true) :=
    alone_runs 0 (List.replicate 8 dawdling) _ (by decide +kernel)
  obtain ⟨seen,late⟩ := Prod.mk.inj seen
  obtain ⟨split,last,-,-,only⟩ := glimpse_split seen
  rw [shown] at only
  have received : sent (notes t) = [.writeJson (reply true 504 body)] := written_sent only
  have intact : ∀ w ∈ writes (notes t), w.2 = true := by
    rw [only]
    exact written_intact
  obtain ⟨-,head,headed,blamed⟩ := (timeouts_surface path split last (runsOut_ranOut late) (by simp [received]) intact).mp
    ⟨body,_,_,received,shown⟩
  exact ⟨t,_,_,body,head,path,split,received,headed,blamed⟩

-- Waiting for the response of a non-streaming request, and connecting for either kind.
theorem timeouts_mistaken :
    (∃ t past after, Runs (handleChat (sampleEnv ["a"]) (chatRequest false)) t (.returned true) ∧
      t = past ++ .got (.connect 0) (.ok ()) :: after ∧ dispatches (notes after) = [] ∧ RanOut 0 (.ok ()) after ∧
      sent (notes t) = [.writeJson (reply true 200 [])]) ∧
    (∃ t past after body, Runs (handleChat (sampleEnv ["a"]) (chatRequest false)) t (.returned true) ∧
      t = past ++ .got (.connect 0) (.error .timeout) :: after ∧ dispatches (notes after) = [] ∧
      sent (notes t) = [.writeJson (reply true 503 body)]) ∧
    (∃ t past after body, Runs (handleChat (sampleEnv ["a"]) (chatRequest true)) t (.returned true) ∧
      t = past ++ .got (.connect 0) (.error .timeout) :: after ∧ dispatches (notes after) = [] ∧
      sent (notes t) = [.writeJson (reply true 502 body)]) := by
  refine ⟨?_,?_,?_⟩
  · obtain ⟨t,path,seen⟩ : ∃ t, Runs (handleChat (sampleEnv ["a"]) (chatRequest false)) t (.returned true) ∧
        (glimpse 10 t,runsOut 0 none (t.drop 11)) = (⟨some (0,none),[],[],true,written true 200 (some [])⟩,true) :=
      alone_runs 0 (List.replicate 8 unanswering) _ (by decide +kernel)
    obtain ⟨seen,late⟩ := Prod.mk.inj seen
    obtain ⟨split,last,-,-,only⟩ := glimpse_split seen
    exact ⟨t,_,_,path,split,last,runsOut_ranOut late,written_sent only⟩
  · obtain ⟨body,shown⟩ := errorJson_some (sampleEnv ["a"]) .noBackend "no eligible backend could serve the request"
    obtain ⟨t,path,seen⟩ : ∃ t, Runs (handleChat (sampleEnv ["a"]) (chatRequest false)) t (.returned true) ∧
        glimpse 10 t = ⟨some (0,some .timeout),[],[],true,written true 503 (gaveUp (sampleEnv ["a"]))⟩ :=
      alone_runs 0 (List.replicate 8 unreaching) _ (by decide +kernel)
    obtain ⟨split,last,-,-,only⟩ := glimpse_split seen
    rw [gaveUp,shown] at only
    exact ⟨t,_,_,body,path,split,last,written_sent only⟩
  · obtain ⟨body,shown⟩ := errorJson_some (sampleEnv ["a"]) .upstreamFailure "upstream connection failed"
    obtain ⟨t,path,seen⟩ : ∃ t, Runs (handleChat (sampleEnv ["a"]) (chatRequest true)) t (.returned true) ∧
        glimpse 10 t = ⟨some (0,some .timeout),[],[],true,
          written true 502 (errorJson (sampleEnv ["a"]) .upstreamFailure (text "upstream connection failed") [])⟩ :=
      alone_runs 0 (List.replicate 8 unreaching) _ (by decide +kernel)
    obtain ⟨split,last,-,-,only⟩ := glimpse_split seen
    rw [shown] at only
    exact ⟨t,_,_,body,path,split,last,written_sent only⟩

end Timeouts
section Empty
variable {env : Env} {job : Job} {labels : Metrics.Labels} {b : Nat} {isProbe more : Bool} {answer : Except Fault Unit}

structure Barren (head : Head) : Prop where
  served : 200 ≤ head.status ∧ head.status < 300
  clean : endsCleanly head = true
  none : events head = []

theorem streamed_barren (streamed : Streamed keepAlive b requestBody up sr s)
    (same : up ++ tail = .got (.connect b) answer :: after) (headed : Headed b answer after head) (barren : Barren head) :
    reports (notes up) = [] ∧ s.headerStarted = false ∧ failed sr = true ∧
      surface env sr = (502,errorJson env .upstreamFailure (text "upstream connection failed") []) := by
  cases streamed with
  | unreachable | unwritten | unanswered =>
    cases same
    cases headed
  | refused error =>
    cases same
    cases headed
    have served := barren.served
    omega
  | answered served flowed =>
    cases same
    cases headed
    refine ⟨flowed.written.reports,?_⟩
    have goes := endsCleanly_flows barren.clean
    cases flowed with
    | whole connected status timedOut aborted _ live =>
      rw [goes] at timedOut
      rw [barren.none,goes] at aborted
      refine ⟨by rw [live.header,barren.none]; rfl,by simp [failed,aborted],?_⟩
      rw [surface,if_neg (by rw [status]; omega),if_neg (by simp [timedOut])]
    | cut _ _ _ cut =>
      rw [barren.none] at cut
      cases cut with
      | refused _ some => exact absurd rfl some
      | lost split => simp at split

theorem stream_barren (stream : Stream env job labels b isProbe more t verdict)
    (same : t ++ rest = .got (.connect b) answer :: after) (headed : Headed b answer after head) (barren : Barren head) :
    reports (notes t) = [(b,.failure,isProbe)] ∧ (verdict ≠ .next → Responds job.keepAlive 502
      (errorJson env .upstreamFailure (text "upstream connection failed") []) (notes t)) := by
  obtain ⟨up,sr,s,tail,streamed,rfl,-,outcome⟩ := stream_exchange stream
  rw [List.append_assoc] at same
  obtain ⟨silent,unsent,fails,error⟩ := streamed_barren streamed same headed barren
  obtain ⟨reported,ends⟩ := outcome unsent fails
  rw [error] at ends
  refine ⟨by rw [notes_append,reports_append,silent,reported]; rfl,fun finish => ?_⟩
  exact (ends.resolve_left fun next => finish next.1).2

theorem unary_headless (unary : Unary env job labels b isProbe more t verdict)
    (same : t ++ rest = .got (.connect b) answer :: after) : ¬Headed b answer after head := by
  obtain ⟨up,ur,tail,posted,rfl,-⟩ := unary_exchange unary
  rw [List.append_assoc] at same
  intro headed
  cases posted <;> cases same <;> cases headed

-- An attempt that meets an event-free stream reports a failure, and is handed on or ends in an error.
theorem tried_barren (tried : Tried env job labels b isProbe more t verdict)
    (same : t ++ rest = .got (.connect b) answer :: after) (headed : Headed b answer after head) (barren : Barren head) :
    reports (notes t) = [(b,.failure,isProbe)] ∧ (verdict ≠ .next → Responds job.keepAlive 502
      (errorJson env .upstreamFailure (text "upstream connection failed") []) (notes t)) := by
  cases tried with
  | stream _ stream => exact stream_barren stream same headed barren
  | unary _ unary => exact absurd headed (unary_headless unary same)

-- The attempt behind a dispatch, with all that follows it.
theorem dispatch_tried {req : Request} (path : Runs (handleChat env req) t exit)
    (split : t = past ++ .got (.connect b) answer :: after) : ∃ job labels isProbe more inner rest verdict,
      Tried env job labels b isProbe more (.got (.connect b) answer :: inner) verdict ∧ after = inner ++ rest := by
  obtain ⟨job,outcome,walked,-,attempting⟩ := handleChat_attempt path split
  obtain ⟨tail,rfl,-⟩ := attempting.behind
  cases attempting.continued with
  | finished tried => exact ⟨job,_,_,_,_,_,_,tried,List.append_assoc _ _ _⟩
  | handedOn tried => exact ⟨job,_,_,_,_,_,_,tried,List.append_assoc _ _ _⟩

theorem empty_stream_fails {req : Request} (path : Runs (handleChat env req) t exit)
    (split : t = past ++ .got (.connect b) answer :: after) (headed : Headed b answer after head) (barren : Barren head) :
    ¬((∃ site, sent (notes t) = [.writeHeader req.keepAlive,.writeChunk site (frame (text "[DONE]")),.writeLastChunk]) ∧
      ∃ isProbe, (reports (notes after)).head? = some (b,.success,isProbe)) ∧
    (∃ isProbe, (reports (notes after)).head? = some (b,.failure,isProbe)) ∧
    (dispatches (notes after) = [] →
      ∃ status body, 502 ≤ status ∧ responses (notes t) = [reply req.keepAlive status body]) := by
  have failure : ∃ isProbe, (reports (notes after)).head? = some (b,.failure,isProbe) := by
    obtain ⟨job,labels,isProbe,more,inner,rest,verdict,tried,rfl⟩ := dispatch_tried path split
    obtain ⟨reported,-⟩ := tried_barren tried (List.cons_append) headed barren
    refine ⟨isProbe,?_⟩
    rw [notes_append,reports_append]
    change (reports (notes (.got (.connect b) answer :: inner)) ++ _).head? = _
    rw [reported]
    rfl
  refine ⟨?_,failure,fun last => ?_⟩
  · rintro ⟨-,isProbe,success⟩
    obtain ⟨other,failed⟩ := failure
    rw [failed] at success
    cases success
  · cases last_attempt path split last with
    | finished keepAlive tried rest silent unrefused refused shown =>
      obtain ⟨-,responds⟩ := tried_barren tried (by rw [List.cons_append,← rest]) headed barren
      obtain ⟨body,error⟩ := errorJson_some env .upstreamFailure "upstream connection failed"
      have responds := (responds (by simp)).after refused
      rw [keepAlive,← shown,error] at responds
      exact ⟨502,body,by decide,responds.answers.mpr ⟨rfl,rfl⟩⟩
    | gaveUp tried rest silent unrefused responds =>
      obtain ⟨body,error⟩ := errorJson_some env .noBackend "no eligible backend could serve the request"
      exact ⟨503,body,by decide,responds.answers.mpr ⟨rfl,error⟩⟩

def headOf (b : Nat) : Trace → Option Head
  | .got (.writeRequest c _) (.ok _) :: .got (.readHeader d) (.ok head) :: _ => if c = b ∧ d = b then some head else none
  | _ => none

theorem headOf_headed (found : headOf b after = some head) : Headed b (.ok ()) after head := by
  unfold headOf at found
  split at found
  · split at found
    · rename_i named
      obtain ⟨rfl,rfl⟩ := named
      cases found
      exact .headed
    · cases found
  · cases found

def blankHead : Head := ⟨200,false,[{block := text ": ping\n\n",code := .needBuffer},{block := text "\n",done := true}]⟩

theorem empty_stream_fails_blank : ∃ t past after,
    Runs (handleChat (sampleEnv ["a"]) (chatRequest true)) t (.returned true) ∧
    t = past ++ .got (.connect 0) (.ok ()) :: after ∧ Headed 0 (.ok ()) after blankHead ∧
    ∃ isProbe, (reports (notes after)).head? = some (0,.failure,isProbe) := by
  obtain ⟨t,path,seen⟩ : ∃ t, Runs (handleChat (sampleEnv ["a"]) (chatRequest true)) t (.returned true) ∧
      (t[10]?.bind dispatchOf,headOf 0 (t.drop 11)) = (some (0,none),some blankHead) :=
    alone_runs 0 (List.replicate 8 (obliging blankHead ⟨200,[]⟩)) _ (by decide +kernel)
  obtain ⟨found,headed⟩ := Prod.mk.inj seen
  have barren : Barren blankHead := ⟨by decide,by decide +kernel,by decide +kernel⟩
  have fails := empty_stream_fails path (split_at found) (headOf_headed headed) barren
  exact ⟨t,_,_,path,split_at found,headOf_headed headed,fails.2.1⟩

-- An empty body of a complete response, to a client that takes everything.
theorem empty_stream_errs : ∃ t past after body,
    Runs (handleChat (sampleEnv ["a"]) (chatRequest true)) t (.returned true) ∧
    t = past ++ .got (.connect 0) (.ok ()) :: after ∧ Headed 0 (.ok ()) after ⟨200,true,[]⟩ ∧ Barren ⟨200,true,[]⟩ ∧
    (∀ w ∈ writes (notes t), w.2 = true) ∧ sent (notes t) = [.writeJson (reply true 502 body)] ∧
    reports (notes t) = [(0,.failure,false)] := by
  obtain ⟨body,shown⟩ := errorJson_some (sampleEnv ["a"]) .upstreamFailure "upstream connection failed"
  obtain ⟨t,path,seen⟩ : ∃ t, Runs (handleChat (sampleEnv ["a"]) (chatRequest true)) t (.returned true) ∧
      (glimpse 10 t,headOf 0 (t.drop 11),decide (reports (notes t) = [(0,.failure,false)])) =
        (⟨some (0,none),[],[(200,[])],true,
          written true 502 (errorJson (sampleEnv ["a"]) .upstreamFailure (text "upstream connection failed") [])⟩,
        some ⟨200,true,[]⟩,true) :=
    alone_runs 0 (List.replicate 8 (obliging ⟨200,true,[]⟩ ⟨200,[]⟩)) _ (by decide +kernel)
  simp only [Prod.mk.injEq] at seen
  obtain ⟨seen,headed,reported⟩ := seen
  obtain ⟨split,-,-,-,only⟩ := glimpse_split seen
  rw [shown] at only
  have barren : Barren ⟨200,true,[]⟩ := ⟨by decide,by decide +kernel,by decide +kernel⟩
  refine ⟨t,_,_,body,path,split,headOf_headed headed,barren,?_,written_sent only,of_decide_eq_true reported⟩
  rw [only]
  exact written_intact

end Empty
end Kvmux.Unproductive
