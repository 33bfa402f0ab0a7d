import Mathlib.Data.List.Basic
import Kvmux.Fleet
import Kvmux.Handling

namespace Kvmux.Honesty
open Coroutine SseParser SseCodec Client Gateway OpenAi Streaming Attempt Handling

abbrev Success (status : Nat) : Prop := 200 ≤ status ∧ status < 300

-- A status is a success or an error, a client takes the header it is sent, and a
-- non-streaming exchange that got a connection gets its response.
def Regular (stream : Bool) : Event Op.Reply Wait.Answer → Prop
  | .got (.writeRequest _ _) (.error _) => stream = true
  | .got (.readResponse _) (.error _) => False
  | .got (.readResponse _) (.ok received) => Success received.status ∨ 400 ≤ received.status
  | .got (.readHeader _) (.ok head) => Success head.status ∨ 400 ≤ head.status
  | .got (.writeHeader _) delivered => delivered = true
  | _ => True

instance (stream : Bool) : DecidablePred (Regular stream) := by
  intro event
  unfold Regular
  split <;> infer_instance

-- The exchange in progress with backend b has shown this.
def InExchange (past : Trace) (b : Nat) (shown : Note) : Prop :=
  ∃ before answer during, past = before ++ .got (.connect b) answer :: during ∧ dispatches (notes during) = [] ∧
    shown ∈ notes during

-- A 200 and a success reported to the breaker rest on what the backend has sent.
def Earned (past : Trace) : Event Op.Reply Wait.Answer → Prop
  | .got (.writeJson response) _ => response.status = 200 →
    ∃ b received, InExchange past b (.responded b received) ∧ Success received.status ∧ response.body = received.body
  | .got (.writeHeader _) _ => ∃ b head, InExchange past b (.headed b head) ∧ Success head.status ∧ events head ≠ []
  | .did (.report b .success _) _ => (∃ received, InExchange past b (.responded b received)) ∨
    ∃ head, InExchange past b (.headed b head) ∧ ∃ ev ∈ events head, ev.isDone = true
  | _ => True

def EarnedIfRegular (stream : Bool) (past : Trace) (event : Event Op.Reply Wait.Answer) (_ : Trace) : Prop :=
  (∀ before ∈ past, Regular stream before) → Regular stream event → Earned past event

def Plain : Note → Prop
  | .reported _ .success _ | .wrote (.writeHeader _) _ => False
  | .wrote (.writeJson response) _ => response.status ≠ 200
  | _ => True

theorem earned_plain (past : Trace) (event : Event Op.Reply Wait.Answer) (future : Trace)
    (plain : ∀ shown, note event = some shown → Plain shown) : EarnedIfRegular stream past event future := by
  intro _ _
  cases event with
  | did op reply =>
    cases op with
    | report b report isProbe =>
      cases report with
      | success => exact (plain _ rfl).elim
      | _ => trivial
    | _ => trivial
  | got point answer =>
    cases point with
    | writeJson response => exact fun two => absurd two (plain _ rfl)
    | writeHeader keepAlive => exact (plain _ rfl).elim
    | _ => trivial

theorem plain_earned (plain : ∀ shown ∈ notes t, Plain shown) (past future : Trace) :
    AtEach (EarnedIfRegular stream) past t future :=
  atEach_notes earned_plain plain past future

theorem answered_plain (answered : Answered labels keepAlive status body t outcome) (other : status ≠ 200) :
    ∀ shown ∈ notes t, Plain shown := by
  cases answered with
  | unwritable => exact List.forall_mem_nil _
  | written => exact List.forall_mem_singleton.mpr other

theorem failing_plain (b : Nat) (isProbe : Bool) (labels : Metrics.Labels) : ∀ shown ∈ notes (failing b isProbe labels), Plain shown :=
  List.forall_mem_cons.mpr ⟨trivial,List.forall_mem_singleton.mpr trivial⟩

theorem closing_plain (closing : Closing payload t clean) : ∀ shown ∈ notes t, Plain shown := by
  cases closing with
  | lost => exact List.forall_mem_singleton.mpr trivial
  | ended => exact List.forall_mem_cons.mpr ⟨trivial,List.forall_mem_singleton.mpr trivial⟩

theorem InExchange.later (seen : InExchange past b shown) (same : dispatches (notes more) = []) :
    InExchange (past ++ more) b shown := by
  obtain ⟨before,answer,during,rfl,none,member⟩ := seen
  refine ⟨before,answer,during ++ more,by simp,by simp [none,same],?_⟩
  rw [notes_append]
  exact List.mem_append_left _ member

theorem posted_plain (posted : Posted b requestBody up ur) : ∀ shown ∈ notes up, Plain shown := by
  cases posted with
  | unreachable | unwritten | unanswered => exact List.forall_mem_singleton.mpr trivial
  | answered => exact List.forall_mem_cons.mpr ⟨trivial,List.forall_mem_singleton.mpr trivial⟩

-- A regular non-streaming exchange that got a connection has a response.
theorem posted_regular (posted : Posted b requestBody up ur) (connected : ur.connected = true)
    (regular : ∀ event ∈ up, Regular false event) (past : Trace) :
    ∃ received, InExchange (past ++ up) b (.responded b received) ∧ ur.httpStatus = received.status ∧
      ur.body = received.body ∧ (Success received.status ∨ 400 ≤ received.status) := by
  cases posted with
  | unreachable => cases connected
  | unwritten => cases regular _ (List.mem_cons_of_mem _ List.mem_cons_self)
  | unanswered => exact (regular _ (List.mem_cons_of_mem _ (List.mem_cons_of_mem _ List.mem_cons_self))).elim
  | answered =>
    rename_i received
    have status := regular _ (List.mem_cons_of_mem _ (List.mem_cons_of_mem _ List.mem_cons_self))
    exact ⟨received,⟨past,_,_,rfl,rfl,List.mem_singleton.mpr rfl⟩,rfl,rfl,status⟩

theorem regular_later {past more : Trace} (regular : ∀ event ∈ past ++ more, Regular stream event) :
    ∀ event ∈ more, Regular stream event :=
  (List.forall_mem_append.mp regular).2

theorem unary_earned (unary : Unary env job labels b isProbe more t verdict) (past future : Trace) :
    AtEach (EarnedIfRegular false) past t future := by
  cases unary with
  | unreachable posted | failedOver posted =>
    rw [atEach_append]
    exact ⟨plain_earned (posted_plain posted) _ _,plain_earned (failing_plain _ _ _) _ _⟩
  | surfaced posted _ error _ answered =>
    rw [atEach_append,atEach_append]
    exact ⟨⟨plain_earned (posted_plain posted) _ _,plain_earned (failing_plain _ _ _) _ _⟩,
      plain_earned (answered_plain answered (by omega)) _ _⟩
  | relayedError posted connected _ error answered =>
    rw [atEach_append,atEach_append]
    refine ⟨⟨plain_earned (posted_plain posted) _ _,⟨?_,trivial⟩⟩,plain_earned (answered_plain answered (by omega)) _ _⟩
    intro regular _
    obtain ⟨received,seen,-⟩ := posted_regular posted connected (regular_later regular) past
    exact .inl ⟨received,seen⟩
  | relayed posted connected served answered =>
    rw [atEach_append,atEach_append]
    refine ⟨⟨plain_earned (posted_plain posted) _ _,⟨?_,trivial⟩⟩,?_⟩
    · intro regular _
      obtain ⟨received,seen,-⟩ := posted_regular posted connected (regular_later regular) past
      exact .inl ⟨received,seen⟩
    · cases answered
      refine ⟨fun regular _ _ => ?_,trivial⟩
      obtain ⟨received,seen,status,body,shape⟩ := posted_regular posted connected
        (List.forall_mem_append.mp (regular_later regular)).1 past
      rw [← List.append_assoc]
      exact ⟨b,received,seen.later rfl,shape.resolve_right (by omega),body⟩

theorem flowed_some (flowed : Flowed keepAlive head ns sr s) (member : shown ∈ ns) : events head ≠ [] := by
  intro none
  cases flowed with
  | whole _ _ _ _ same =>
    rw [same,none] at member
    cases member
  | cut _ _ _ cut =>
    cases cut with
    | refused _ some => exact some none
    | lost split => simp [split] at none

-- The header follows the head of the exchange it belongs to.
theorem body_earned (flowed : Flowed keepAlive head (notes body) sr s) (served : head.status < 400)
    (seen : InExchange past b (.headed b head)) (headed : .got (.readHeader b) (.ok head) ∈ past) (future : Trace) :
    AtEach (EarnedIfRegular stream) past body future := by
  apply atEach_splits
  intro before event after split
  have written : ∀ shown, note event = some shown → ∃ point delivered, shown = .wrote point delivered ∧ StreamPart point := by
    intro shown same
    apply flowed.written
    rw [split]
    exact List.mem_filterMap.mpr ⟨event,by simp,same⟩
  intro regular _
  cases event with
  | did op reply =>
    cases op with
    | report b report isProbe =>
      obtain ⟨_,_,other,_⟩ := written _ rfl
      cases other
    | _ => trivial
  | got point answer =>
    cases point with
    | writeJson response =>
      obtain ⟨_,_,same,part⟩ := written _ rfl
      cases same
      exact part.elim
    | writeHeader other =>
      have quiet : dispatches (notes before) = [] := by
        have none := flowed.written.dispatches
        rw [split,notes_append,dispatches_append] at none
        exact (List.append_eq_nil_iff.mp none).1
      have inside : .wrote (.writeHeader other) answer ∈ notes body := by
        rw [split]
        exact List.mem_filterMap.mpr ⟨.got (.writeHeader other) answer,by simp,rfl⟩
      have status := regular _ (List.mem_append_left before headed)
      exact ⟨b,head,seen.later quiet,status.resolve_right (by omega),flowed_some flowed inside⟩
    | _ => trivial

theorem streamed_earned (streamed : Streamed keepAlive b requestBody up sr s) (past future : Trace) :
    AtEach (EarnedIfRegular stream) past up future := by
  cases streamed with
  | unreachable | unwritten | unanswered => exact plain_earned (List.forall_mem_singleton.mpr trivial) _ _
  | refused error only =>
    refine ⟨fun _ _ => trivial,fun _ _ => trivial,fun _ _ => trivial,plain_earned ?_ _ _⟩
    rw [readSome_unnoted only]
    exact List.forall_mem_nil _
  | answered served flowed =>
    rename_i head body
    refine ⟨fun _ _ => trivial,fun _ _ => trivial,fun _ _ => trivial,?_⟩
    apply body_earned flowed served
    · exact ⟨past,.ok (),[.got (.writeRequest b requestBody) (.ok ()),.got (.readHeader b) (.ok head)],by simp,rfl,
        List.mem_singleton.mpr rfl⟩
    · simp

theorem header_event (shown : headerNote keepAlive delivered ∈ notes t) : .got (.writeHeader keepAlive) delivered ∈ t := by
  obtain ⟨event,member,shows⟩ := notes_shown shown
  cases shows
  exact member

-- With a refused header in the past nothing is asked any more.
theorem unopened_earned (streamed : Streamed keepAlive b requestBody up sr s) (unsent : s.headerStarted = false)
    (sound : failed sr = false) (past : Trace) (event : Event Op.Reply Wait.Answer) (future : Trace) (within : ∀ x ∈ up, x ∈ past) :
    EarnedIfRegular stream past event future := by
  intro regular _
  obtain ⟨head,-,shown⟩ := streamed_unopened streamed unsent sound
  have refused : .got (.writeHeader keepAlive) false ∈ up := header_event (by simp [shown])
  cases regular _ (within _ refused)

theorem surface_error (env : Env) (sr : StreamResult) : (surface env sr).1 ≥ 400 := by
  unfold surface
  split
  · assumption
  · split <;> simp

theorem stream_earned (attempt : Stream env job labels b isProbe more t verdict) (past future : Trace) :
    AtEach (EarnedIfRegular stream) past t future := by
  cases attempt with
  | failedOver streamed =>
    rw [atEach_append]
    exact ⟨streamed_earned streamed _ _,plain_earned (failing_plain _ _ _) _ _⟩
  | surfaced streamed _ _ _ answered =>
    rw [atEach_append,atEach_append]
    refine ⟨⟨streamed_earned streamed _ _,plain_earned (failing_plain _ _ _) _ _⟩,plain_earned (answered_plain answered ?_) _ _⟩
    exact (Nat.lt_of_lt_of_le (by decide) (surface_error env _)).ne'
  | unopened streamed unsent sound =>
    rw [atEach_append,atEach_append]
    refine ⟨⟨streamed_earned streamed _ _,⟨?_,trivial⟩⟩,⟨?_,trivial⟩⟩
    · exact unopened_earned streamed unsent sound _ _ _ (by simp +contextual)
    · exact unopened_earned streamed unsent sound _ _ _ (by simp +contextual)
  | emptied streamed unsent sound closing =>
    rw [atEach_append,atEach_append]
    refine ⟨⟨streamed_earned streamed _ _,⟨?_,trivial⟩⟩,⟨?_,plain_earned (closing_plain closing) _ _⟩⟩
    · exact unopened_earned streamed unsent sound _ _ _ (by simp +contextual)
    · exact unopened_earned streamed unsent sound _ _ _ (by simp +contextual)
  | abandoned streamed => exact streamed_earned streamed _ _
  | truncated streamed _ _ _ _ closing =>
    rw [atEach_append,atEach_append]
    exact ⟨⟨streamed_earned streamed _ _,plain_earned (failing_plain _ _ _) _ _⟩,plain_earned (closing_plain closing) _ _⟩
  | completed streamed started alive sound =>
    rw [atEach_append,atEach_append]
    refine ⟨⟨streamed_earned streamed _ _,⟨fun _ _ => .inr ?_,trivial⟩⟩,plain_earned (List.forall_mem_singleton.mpr trivial) _ _⟩
    obtain ⟨head,body,-,rfl,shown,-,timedOut,aborted,-⟩ := Streamed.sent streamed started alive
    have quiet : dispatches (notes body) = [] := by
      rw [shown]
      exact (forwarded_written _ _ _).dispatches
    refine ⟨head,⟨past,.ok (),_,rfl,quiet,List.mem_cons_self⟩,?_⟩
    obtain ⟨whole,timely⟩ := Bool.or_eq_false_iff.mp sound
    rw [timedOut] at timely
    have done : (events head).any SseEvent.isDone = true := by simpa [aborted,timely] using whole
    simpa using done

theorem tried_earned (tried : Tried env job labels b isProbe more t verdict) (past future : Trace) :
    AtEach (EarnedIfRegular job.creq.stream) past t future := by
  cases tried with
  | stream _ attempt => exact stream_earned attempt past future
  | unary unary attempt =>
    rw [unary]
    exact unary_earned attempt past future

theorem earned_checks (env : Env) (job : Job) (order : List Nat) (outcome : Outcome) (future : Trace) :
    Checks (EarnedIfRegular job.creq.stream) Plain (fun _ => True) env job order outcome future where
  plain := earned_plain
  aborted := fun _ _ => trivial
  keeps := fun _ _ _ _ => trivial
  exhausted := fun past _ _ _ answered => plain_earned (answered_plain answered (by decide)) past future
  next := fun _ _ _ _ _ _ after _ _ _ tried => tried_earned tried _ after
  finish := fun _ _ _ _ _ _ _ _ _ tried => tried_earned tried _ _

def streams (env : Env) (req : Request) : Bool := ((requested env req).map ChatCompletionRequest.stream).getD false

theorem streams_eq (parsed : requested env req = some creq) : streams env req = creq.stream := by
  rw [streams,parsed]
  rfl

theorem handled_earned (handled : Handled env req t exit) : AtEach (EarnedIfRegular (streams env req)) [] t [] := by
  apply handled.checked
  · intro lead silent
    exact plain_earned (by simp [silent])
  · intro labels status body t outcome refusal answered
    exact plain_earned (answered_plain answered (by omega))
  · intro lead tail job order t outcome _ _ parsed _ _ _ walk
    rw [streams_eq parsed]
    exact (earned_checks env job order outcome tail).walk walk (fun b member => member) trivial

theorem no_fabricated_success (path : Runs (handleChat env req) t exit)
    (regular : ∀ event ∈ t, Regular (streams env req) event) (split : t = past ++ event :: after) : Earned past event := by
  have each := handled_earned (handleChat_runs path)
  rw [split] at each regular
  obtain ⟨before,here⟩ := List.forall_mem_append.mp regular
  exact each.at_split before (List.forall_mem_cons.mp here).1

section Sample
open Fleet

def wholeHead : Head := ⟨200,false,[{block := text "data: x\n\ndata: [DONE]\n\n",done := true}]⟩

theorem no_fabricated_success_stream : ∃ past after,
    Runs (handleChat (sampleEnv ["a"]) (chatRequest true)) (past ++ .got (.writeHeader true) true :: after) (.returned true) ∧
      ∃ b head, InExchange past b (.headed b head) ∧ Success head.status ∧ events head ≠ [] := by
  obtain ⟨t,path,seen⟩ : ∃ t, Runs (handleChat (sampleEnv ["a"]) (chatRequest true)) t (.returned true) ∧
      (decide (∀ event ∈ t, Regular true event),decide (headerNote true true ∈ notes t)) = (true,true) :=
    alone_runs 0 (List.replicate 8 (obliging wholeHead ⟨200,[]⟩)) _ (by decide +kernel)
  obtain ⟨regular,shown⟩ := Prod.mk.inj seen
  obtain ⟨past,after,rfl⟩ := List.append_of_mem (header_event (of_decide_eq_true shown))
  have flag : streams (sampleEnv ["a"]) (chatRequest true) = true := by decide +kernel
  refine ⟨past,after,path,?_⟩
  exact no_fabricated_success path (by rw [flag]; exact of_decide_eq_true regular) rfl

def unresponsive : (point : Wait) → point.Answer
  | .readResponse _ => .error .failed
  | point => streamOf "" point

-- A stream that broke off has begun with 200. A lost response and a 304 become
-- 200 as well, and a refused header passes for a success of the backend.
theorem unearned_successes :
    (∃ t, Runs (handleChat (sampleEnv ["a"]) (chatRequest true)) t (.returned false) ∧
      ((notes t).take 4,reports (notes t)) = ([.dispatched 0,.headed 0 brokenHead,headerNote true true,
        frameNote .sink (text "x") true],[(0,.failure,false)])) ∧
    (∃ t, Runs (handleChat (sampleEnv ["a"]) (chatRequest false)) t (.returned true) ∧
      notes t = [.dispatched 0,.reported 0 .success false,.wrote (.writeJson (reply true 200 [])) true]) ∧
    (∃ t, Runs (handleChat (sampleEnv ["a"]) (chatRequest false)) t (.returned true) ∧
      notes t = [.dispatched 0,.responded 0 ⟨304,[]⟩,.reported 0 .success false,
        .wrote (.writeJson (reply true 200 [])) true]) ∧
    (∃ t, Runs (handleChat (sampleEnv ["a"]) (chatRequest true)) t .threw ∧
      notes t = [.dispatched 0,.headed 0 brokenHead,headerNote true false,.reported 0 .success false,headerNote true false]) := by
  refine ⟨?_,?_,?_,?_⟩
  · exact alone_runs 0 (List.replicate 8 breaking) (fun t => ((notes t).take 4,reports (notes t))) (by decide +kernel)
  · exact alone_runs 0 (List.replicate 4 unresponsive) notes (by decide +kernel)
  · exact alone_runs 0 (List.replicate 4 (obliging brokenHead ⟨304,[]⟩)) notes (by decide +kernel)
  · exact alone_runs 0 (List.replicate 8 unopening) notes (by decide +kernel)

end Sample

end Kvmux.Honesty
