import Mathlib.Data.List.Basic
import Kvmux.Fleet
import Kvmux.Handling

namespace Kvmux.Truncation
open Coroutine CircuitBreaker SseParser SseCodec Gateway OpenAi Streaming Attempt Handling

-- A stream that broke off after its first event, seen from the head on: all its
-- events, one error frame and the end of the body, and one failure reported.
structure Noticed (env : Env) (keepAlive : Bool) (past : Trace) (b : Nat) (head : Head) (after : Trace) (exit : Exit) : Prop where
  reported : ∃ before dec body, past = before ++ [.did (.allowRequest b) dec,.did (.tryAcquire b) true,
    .got (.connect b) (.ok ()),.got (.writeRequest b body) (.ok ())] ∧ reports (notes after) = [(b,.failure,Decision.isProbe dec)]
  frames : ∃ payload, env.json.dump (.object [(text "error",.object [
        (text "code",.integer (if stalled head then 504 else 502)),
        (text "message",.string (text (if stalled head then "upstream timed out mid-stream" else "upstream aborted mid-stream"))),
        (text "param",.null),
        (text "type",.string (text (if stalled head then "timeout_error" else "upstream_error")))])]) = some payload ∧
    writes (notes after) = (Wait.writeHeader keepAlive ::
      (events head).map (fun ev => Wait.writeChunk .sink (text "data: " ++ ev.data ++ [lf,lf])) ++
      [Wait.writeChunk .gateway (text "data: " ++ payload ++ [lf,lf]),Wait.writeLastChunk]).map (·,true)
  alone : dispatches (notes after) = []
  closed : exit = .returned false

def NoticesCut (env : Env) (keepAlive : Bool) (exit : Exit) (past : Trace) : Event Op.Reply Wait.Answer → Trace → Prop
  | .got (.readHeader b) (.ok head),after =>
    head.status < 400 → (∀ w ∈ writes (notes after), w.2 = true) → events head ≠ [] →
      (∀ ev ∈ events head, ev.isDone = false) → Noticed env keepAlive past b head after exit
  | _,_ => True

theorem cut_fails (cut : Cut keepAlive started evs ns s) : ∃ point, (point,false) ∈ writes ns := by
  cases cut with
  | refused _ _ shown =>
    rw [shown]
    exact ⟨_,List.mem_singleton.mpr rfl⟩
  | lost _ shown =>
    rw [shown,writes_append]
    exact ⟨_,List.mem_append_right _ (List.mem_singleton.mpr rfl)⟩

theorem notices_plain (past : Trace) (event : Event Op.Reply Wait.Answer) (future : Trace)
    (none : ∀ shown, note event = some shown → ∀ b head, shown ≠ .headed b head) :
    NoticesCut env keepAlive exit past event future := by
  cases event with
  | did op reply => trivial
  | got point answer =>
    cases point with
    | readHeader b =>
      cases answer with
      | error fault => trivial
      | ok head => exact absurd rfl (none _ rfl b head)
    | _ => trivial

def heads (ns : List Note) : List (Nat × Head) := ns.filterMap fun
  | .headed b head => some (b,head)
  | _ => none

theorem heads_append (first second : List Note) : heads (first ++ second) = heads first ++ heads second :=
  List.filterMap_append

theorem unheaded (none : heads (notes t) = []) (past future : Trace) : AtEach (NoticesCut env keepAlive exit) past t future := by
  apply atEach_notes notices_plain
  rintro shown member b head rfl
  cases List.filterMap_eq_nil_iff.mp none _ member

theorem written_unheaded (written : Written ns) : heads ns = [] := by
  apply List.filterMap_eq_nil_iff.mpr
  intro shown member
  obtain ⟨point,delivered,rfl,-⟩ := written shown member
  rfl

-- Of an exchange only an accepted head calls for a notice.
theorem streamed_notices (streamed : Streamed keepAlive b requestBody up sr s) (rest : heads (notes more) = [])
    (flows : ∀ head body, Flowed keepAlive head (notes body) sr s →
      NoticesCut env keepAlive exit (past ++ [.got (.connect b) (.ok ()),.got (.writeRequest b requestBody) (.ok ())])
        (.got (.readHeader b) (.ok head)) (body ++ (more ++ future))) :
    AtEach (NoticesCut env keepAlive exit) past (up ++ more) future := by
  rw [atEach_append]
  refine ⟨?_,unheaded rest _ _⟩
  cases streamed with
  | unreachable => exact ⟨trivial,trivial⟩
  | unwritten => exact ⟨trivial,trivial,trivial⟩
  | unanswered => exact ⟨trivial,trivial,trivial,trivial⟩
  | refused error only =>
    refine ⟨trivial,trivial,fun served => by omega,unheaded ?_ _ _⟩
    rw [readSome_unnoted only]
    rfl
  | answered served flowed =>
    rename_i head body
    refine ⟨trivial,trivial,?_,unheaded (written_unheaded flowed.written) _ _⟩
    have here := flows head body flowed
    rwa [List.append_assoc]

theorem flowed_whole (flowed : Flowed keepAlive head ns sr s) (delivered : ∀ w ∈ writes ns, w.2 = true) :
    sr.timedOut = stalled head ∧ sr.upstreamAborted = (!(events head).any SseEvent.isDone && !stalled head) ∧
      ns = forwarded keepAlive false (events head) ∧ Live keepAlive (!(events head).isEmpty) s := by
  cases flowed with
  | whole _ _ timedOut aborted shown live => exact ⟨timedOut,aborted,shown,live⟩
  | cut _ _ _ cut =>
    obtain ⟨point,failed⟩ := cut_fails cut
    cases delivered _ failed

theorem delivered_part {first second : Trace} (delivered : ∀ w ∈ writes (notes (first ++ second)), w.2 = true) :
    (∀ w ∈ writes (notes first), w.2 = true) ∧ ∀ w ∈ writes (notes second), w.2 = true := by
  rw [notes_append,writes_append] at delivered
  exact List.forall_mem_append.mp delivered

-- While nothing was sent, or the client is gone, there is nothing to notice.
theorem idle_notices (flowed : Flowed keepAlive head (notes body) sr s) (idle : s.headerStarted = false ∨ s.downstreamDead = true) :
    NoticesCut env keepAlive exit past (.got (.readHeader b) (.ok head)) (body ++ more) := by
  intro _ delivered some _
  obtain ⟨-,-,-,live⟩ := flowed_whole flowed (delivered_part delivered).1
  have started : s.headerStarted = true := by simp [live.header,some]
  simp [started,live.alive] at idle

theorem answered_unheaded (answered : Answered labels keepAlive status body t outcome) : heads (notes t) = [] := by
  cases answered <;> rfl

theorem closing_unheaded (closing : Closing payload t clean) : heads (notes t) = [] := by
  cases closing <;> rfl

theorem posted_unheaded (posted : Posted b requestBody t ur) : heads (notes t) = [] := by
  cases posted <;> rfl

theorem stream_next_notices (stream : Stream env job labels b isProbe more t .next) (past future : Trace) :
    AtEach (NoticesCut env job.keepAlive exit) past t future := by
  generalize verdict : Verdict.next = v at stream
  cases stream with
  | failedOver streamed unsent =>
    apply streamed_notices streamed
    · rfl
    · exact fun head body flowed => idle_notices flowed (.inl unsent)
  | surfaced | unopened | emptied | abandoned | truncated | completed => cases verdict

theorem closing_delivered (closing : Closing payload t clean) (delivered : ∀ w ∈ writes (notes t), w.2 = true) :
    notes t = [frameNote .gateway payload true,.wrote .writeLastChunk true] := by
  cases closing with
  | lost => cases delivered _ (List.mem_singleton.mpr rfl)
  | ended =>
    cases clean with
    | true => rfl
    | false => cases delivered _ (List.mem_cons_of_mem _ (List.mem_singleton.mpr rfl))

theorem cut_noticed {env : Env} {keepAlive : Bool} {b : Nat} {head : Head} {before body t future : Trace} {clean : Bool}
    {payload requestBody : Bytes} {labels : Metrics.Labels} (isProbe : Bool)
    (shown : notes body = forwarded keepAlive false (events head)) (some : events head ≠ [])
    (error : midStreamError env (stalled head) = Option.some payload) (closing : Closing payload t clean)
    (delivered : ∀ w ∈ writes (notes t), w.2 = true) (silent : notes future = []) (dec : Decision) (probe : isProbe = dec.isProbe) :
    Noticed env keepAlive ((before ++ [.did (.allowRequest b) dec,.did (.tryAcquire b) true]) ++
        [.got (.connect b) (.ok ()),.got (.writeRequest b requestBody) (.ok ())]) b head
      (body ++ (failing b isProbe labels ++ t ++ future)) (.returned false) := by
  have frames := forwarded_written keepAlive false (events head)
  have after : notes (body ++ (failing b isProbe labels ++ t ++ future)) = forwarded keepAlive false (events head) ++
      [.reported b .failure isProbe,.failure labels,frameNote .gateway payload true,.wrote .writeLastChunk true] := by
    simp only [notes_append,shown,closing_delivered closing delivered,silent,List.append_nil]
    rfl
  refine ⟨⟨before,dec,requestBody,by simp,?_⟩,⟨payload,?_,?_⟩,?_,rfl⟩
  · rw [after,reports_append,frames.reports,probe]
    rfl
  · rw [← error]
    cases stalled head <;> rfl
  · rw [after,writes_append,writes_forwarded keepAlive _ some]
    simp [writes,frameNote,frameWrite,frame]
  · rw [after,dispatches_append,frames.dispatches]
    rfl

theorem stream_finish_notices (stream : Stream env job labels b isProbe more t (.finish outcome)) (dec : Decision)
    (probe : isProbe = dec.isProbe) (silent : notes future = []) :
    AtEach (NoticesCut env job.keepAlive outcome.exit) (before ++ [.did (.allowRequest b) dec,.did (.tryAcquire b) true]) t
      future := by
  generalize verdict : Verdict.finish outcome = v at stream
  cases stream with
  | failedOver => cases verdict
  | surfaced streamed unsent _ _ answered =>
    rw [List.append_assoc]
    apply streamed_notices streamed
    · rw [notes_append,heads_append]
      exact answered_unheaded answered
    · exact fun head body flowed => idle_notices flowed (.inl unsent)
  | unopened streamed unsent =>
    rw [List.append_assoc]
    apply streamed_notices streamed
    · rfl
    · exact fun head body flowed => idle_notices flowed (.inl unsent)
  | emptied streamed unsent _ closing =>
    rw [List.append_assoc]
    apply streamed_notices streamed
    · have none := closing_unheaded closing
      rw [notes_append,heads_append]
      exact none
    · exact fun head body flowed => idle_notices flowed (.inl unsent)
  | abandoned streamed started dead =>
    rw [← List.append_nil t]
    apply streamed_notices streamed
    · rfl
    · exact fun head body flowed => idle_notices flowed (.inr dead)
  | truncated streamed started alive broken error closing =>
    cases verdict
    rw [List.append_assoc]
    apply streamed_notices streamed
    · rw [notes_append,heads_append]
      exact closing_unheaded closing
    · intro head body flowed _ delivered some undone
      obtain ⟨timedOut,-,shown,-⟩ := flowed_whole flowed (delivered_part delivered).1
      rw [timedOut] at error
      exact cut_noticed isProbe shown some error closing (delivered_part (delivered_part (delivered_part delivered).2).1).2
        silent dec probe
  | completed streamed started alive sound =>
    rw [List.append_assoc]
    apply streamed_notices streamed
    · rfl
    · intro head body flowed _ delivered some undone
      obtain ⟨timedOut,aborted,-,-⟩ := flowed_whole flowed (delivered_part delivered).1
      have none : (events head).any SseEvent.isDone = false := by simpa using undone
      cases stall : stalled head <;> simp [timedOut,aborted,none,stall] at sound

theorem unary_unheaded (unary : Unary env job labels b isProbe more t verdict) : heads (notes t) = [] := by
  cases unary with
  | unreachable posted | failedOver posted =>
    rw [notes_append,heads_append,posted_unheaded posted]
    rfl
  | surfaced posted _ _ _ answered | relayedError posted _ _ _ answered | relayed posted _ _ answered =>
    rw [notes_append,notes_append,heads_append,heads_append,posted_unheaded posted,answered_unheaded answered]
    rfl

theorem notices_checks (env : Env) (job : Job) (order : List Nat) (outcome : Outcome) (silent : notes future = []) :
    Checks (NoticesCut env job.keepAlive outcome.exit) (fun shown => ∀ b head, shown ≠ .headed b head) (fun _ => True)
      env job order outcome future where
  plain := notices_plain
  aborted := fun _ _ _ _ => by simp
  keeps := fun _ _ _ _ => trivial
  exhausted := fun past _ _ _ answered => unheaded (answered_unheaded answered) past future
  next := by
    intro past b dec labels more t after _ _ _ tried
    cases tried with
    | stream _ stream => exact stream_next_notices stream _ _
    | unary _ unary => exact unheaded (unary_unheaded unary) _ _
  finish := by
    intro past b dec labels more t _ _ _ tried
    cases tried with
    | stream _ stream => exact stream_finish_notices stream dec rfl silent
    | unary _ unary => exact unheaded (unary_unheaded unary) _ _

theorem handled_notices (handled : Handled env req t exit) : AtEach (NoticesCut env req.keepAlive exit) [] t [] := by
  apply handled.checked
  · intro lead silent
    exact unheaded (by rw [silent]; rfl)
  · intro labels status body t outcome _ answered
    exact unheaded (answered_unheaded answered)
  · intro lead tail job order t outcome _ quiet _ keepAlive _ same walk
    rw [← keepAlive,← same]
    exact (notices_checks env job order outcome quiet).walk walk (fun b member => member) trivial

theorem never_truncated (path : Runs (handleChat env req) t exit)
    (split : t = past ++ .got (.readHeader b) (.ok head) :: after) (success : 200 ≤ head.status ∧ head.status < 300)
    (delivered : ∀ w ∈ writes (notes after), w.2 = true) (forwarded : events head ≠ [])
    (unfinished : ∀ ev ∈ events head, ev.data ≠ text "[DONE]") : Noticed env req.keepAlive past b head after exit := by
  have each := handled_notices (handleChat_runs path)
  rw [split] at each
  have notices := each.at_split
  rw [List.append_nil] at notices
  exact notices (by omega) delivered forwarded fun ev member => by simpa [SseEvent.isDone] using unfinished ev member

section Sample
open Fleet

theorem never_truncated_broken : ∃ past t, Runs (handleChat (sampleEnv ["a"]) (chatRequest true))
      (past ++ .got (.readHeader 0) (.ok brokenHead) :: t) (.returned false) ∧
    Noticed (sampleEnv ["a"]) true past 0 brokenHead t (.returned false) := by
  obtain ⟨t,path,seen⟩ : ∃ t, Runs (handleChat (sampleEnv ["a"]) (chatRequest true)) t (.returned false) ∧
      ((writes (notes t)).all (·.2),decide (.headed 0 brokenHead ∈ notes t)) = (true,true) :=
    alone_runs 0 (List.replicate 8 breaking) _ (by decide +kernel)
  obtain ⟨all,headed⟩ := Prod.mk.inj seen
  obtain ⟨event,member,shows⟩ := notes_shown (of_decide_eq_true headed)
  cases shows
  obtain ⟨past,after,rfl⟩ := List.append_of_mem member
  refine ⟨past,after,path,never_truncated path rfl ⟨by decide,by decide⟩ ?_ (by decide +kernel) (by decide +kernel)⟩
  intro w member
  rw [notes_append,writes_append,List.all_append,Bool.and_eq_true] at all
  exact List.all_eq_true.mp all.2 w member

end Sample

end Kvmux.Truncation
