import Mathlib.Data.List.Basic
import Kvmux.Fleet
import Kvmux.Handling

namespace Kvmux.Failover
open Coroutine CircuitBreaker SseParser SseCodec Gateway OpenAi Streaming Attempt Handling

-- What may follow the frames that were passed on: the end of the body, or one
-- frame of the gateway's own and then the end.
inductive Tail (env : Env) (taken : List SseEvent) : List Wait → Prop where
  | none : Tail env taken []
  | ended : Tail env taken [.writeLastChunk]
  | error : errorJson env kind message [] = some payload → rest = [] ∨ rest = [.writeLastChunk] →
      Tail env taken (.writeChunk .gateway (frame payload) :: rest)
  | done : taken = [] → rest = [] ∨ rest = [.writeLastChunk] →
      Tail env taken (.writeChunk .gateway (frame (text "[DONE]")) :: rest)

-- What the client is given: one response at most, made by the gateway itself or
-- from what the backend asked last has sent.
inductive Delivered (env : Env) (ns : List Note) : List Wait → Prop where
  | nothing : Delivered env ns []
  | own : errorJson env kind message param = some response.body → Delivered env ns [.writeJson response]
  | blank : response.body = [] → Delivered env ns [.writeJson response]
  | relayed : (dispatches ns).getLast? = some b →
      (∃ received, .responded b received ∈ ns ∧ bytes = received.body) ∨ (∃ head, .headed b head ∈ ns ∧ bytes = arrived head) →
      response.body = bytes ∨ wrapped env bytes response.status = some response.body → Delivered env ns [.writeJson response]
  | streamed : (dispatches ns).getLast? = some b → .headed b head ∈ ns → taken <+: events head → Tail env taken tail →
      Delivered env ns (.writeHeader keepAlive :: taken.map frameWrite ++ tail)

-- One response with all its parts, after any number of headers that did not go out.
inductive Complete : List (Wait × Bool) → Prop where
  | json : Refused refused → Complete (refused ++ [(.writeJson response,true)])
  | stream {chunks : List Wait} : Refused refused → (∀ chunk ∈ chunks, ∃ site bytes, chunk = .writeChunk site bytes) →
      Complete (refused ++ (.writeHeader keepAlive,true) :: chunks.map (·,true) ++ [(.writeLastChunk,true)])

theorem Delivered.after (delivered : Delivered env ns ws) (before : List Note) : Delivered env (before ++ ns) ws := by
  have still : ∀ b, (dispatches ns).getLast? = some b → (dispatches (before ++ ns)).getLast? = some b := by
    intro b last
    rw [dispatches_append,List.getLast?_append,last]
    rfl
  cases delivered with
  | nothing => exact .nothing
  | own error => exact .own error
  | blank empty => exact .blank empty
  | relayed last source shape =>
    refine .relayed (still _ last) ?_ shape
    rcases source with ⟨received,member,bytes⟩ | ⟨head,member,bytes⟩
    · exact .inl ⟨received,List.mem_append_right before member,bytes⟩
    · exact .inr ⟨head,List.mem_append_right before member,bytes⟩
  | streamed last member taken tail => exact .streamed (still _ last) (List.mem_append_right before member) taken tail

theorem Complete.after (complete : Complete ws) (before : Refused refused) : Complete (refused ++ ws) := by
  cases complete with
  | json more =>
    rw [← List.append_assoc]
    exact .json (before.append more)
  | stream more chunks =>
    rw [← List.append_assoc,← List.append_assoc]
    exact .stream (before.append more) chunks

theorem answered_complete (answered : Answered labels keepAlive status body t outcome)
    (returned : outcome.exit = .returned true) : Complete (writes (notes t)) := by
  cases answered with
  | unwritable => cases returned
  | written =>
    rename_i body delivered
    cases delivered with
    | true => exact .json refused_nil
    | false => cases returned

theorem answered_sends (answered : Answered labels keepAlive status body t outcome) :
    sent (notes t) = [] ∨ ∃ bytes, body = some bytes ∧ sent (notes t) = [.writeJson (reply keepAlive status bytes)] := by
  cases answered with
  | unwritable => exact .inl rfl
  | written =>
    rename_i body delivered
    cases delivered with
    | true => exact .inr ⟨body,rfl,rfl⟩
    | false => exact .inl rfl

-- Whether the exchange failed or the client refused the header, what is surfaced
-- is the backend's own error or the gateway's.
theorem streamed_surfaces (streamed : Streamed keepAlive b requestBody t sr s)
    (surfaced : (surface env sr).2 = some response.body) (status : response.status = (surface env sr).1)
    (last : (dispatches ns).getLast? = some b) (within : ∀ shown ∈ notes t, shown ∈ ns) : Delivered env ns [.writeJson response] := by
  unfold surface at surfaced status
  split at surfaced
  · rename_i error
    rw [if_pos error] at status
    cases streamed with
    | unreachable | unwritten | unanswered => simp at error
    | refused heavy only =>
      rename_i reads head
      refine .relayed last (.inr ⟨head,within _ ?_,rfl⟩) (.inr ?_)
      · exact List.mem_cons_of_mem _ List.mem_cons_self
      · rw [status]
        exact surfaced
    | answered served flowed =>
      cases flowed with
      | whole _ same => omega
      | cut _ same => omega
  · split at surfaced
    · exact .own surfaced
    · exact .own surfaced

theorem closing_tail (closing : Closing payload t clean)
    (own : (∃ kind message, errorJson env kind message [] = some payload) ∨ (taken = [] ∧ payload = text "[DONE]")) :
    Tail env taken (sent (notes t)) := by
  have tail : ∀ rest, rest = [] ∨ rest = [.writeLastChunk] → Tail env taken (.writeChunk .gateway (frame payload) :: rest) := by
    intro rest shape
    rcases own with ⟨kind,message,error⟩ | ⟨none,rfl⟩
    · exact .error error shape
    · exact .done none shape
  cases closing with
  | lost => exact .none
  | ended =>
    cases clean with
    | true => exact tail _ (.inr rfl)
    | false => exact tail _ (.inl rfl)

theorem closing_whole (closing : Closing payload t true) :
    writes (notes t) = [(.writeChunk .gateway (frame payload),true),(.writeLastChunk,true)] := by
  cases closing
  rfl

-- An attempt that ends the request.
structure Concluded (env : Env) (b : Nat) (ns : List Note) (exit : Exit) : Prop where
  one : dispatches ns = [b]
  delivered : Delivered env ns (sent ns)
  complete : exit = .returned true → Complete (writes ns)

theorem answered_concluded (one : dispatches (notes up) = [b]) (refused : Refused (writes (notes up)))
    (calm : dispatches (notes report) = [] ∧ writes (notes report) = [])
    (answered : Answered labels keepAlive status body t outcome)
    (origin : ∀ bytes, body = some bytes → (dispatches (notes (up ++ report ++ t))).getLast? = some b →
      (∀ shown ∈ notes up, shown ∈ notes (up ++ report ++ t)) →
      Delivered env (notes (up ++ report ++ t)) [.writeJson (reply keepAlive status bytes)]) :
    Concluded env b (notes (up ++ report ++ t)) outcome.exit := by
  have quiet := answered_undispatched answered
  have unsent : sent (notes (up ++ report ++ t)) = sent (notes t) := by
    have silent : sent (notes report) = [] := by rw [sent,calm.2]; rfl
    rw [notes_append,notes_append,sent_append,sent_append,sent_refused refused,silent]
    rfl
  have single : dispatches (notes (up ++ report ++ t)) = [b] := by simp [one,calm.1,quiet]
  refine ⟨single,?_,fun returned => ?_⟩
  · rw [unsent]
    rcases answered_sends answered with none | ⟨bytes,found,json⟩
    · rw [none]
      exact .nothing
    · rw [json]
      apply origin bytes found
      · rw [single]
        rfl
      · intro shown member
        simp [member]
  · have complete := (answered_complete answered returned).after refused
    simpa [calm.2] using complete

theorem unary_finish (unary : Unary env job labels b isProbe more t (.finish outcome)) :
    Concluded env b (notes t) outcome.exit := by
  generalize verdict : Verdict.finish outcome = v at unary
  cases unary with
  | unreachable | failedOver => cases verdict
  | surfaced posted _ error _ answered | relayedError posted _ _ error answered =>
    cases verdict
    obtain ⟨one,silent,source⟩ := posted_quiet posted
    apply answered_concluded one (by rw [silent]; exact refused_nil) ⟨rfl,rfl⟩ answered
    intro bytes found last within
    rcases source with ⟨unanswered,-⟩ | ⟨received,member,-,body⟩
    · omega
    · rw [body] at found
      exact .relayed last (.inl ⟨received,within _ member,rfl⟩) (.inr found)
  | relayed posted _ _ answered =>
    cases verdict
    obtain ⟨one,silent,source⟩ := posted_quiet posted
    apply answered_concluded one (by rw [silent]; exact refused_nil) ⟨rfl,rfl⟩ answered
    intro bytes found last within
    cases Option.some.inj found
    rcases source with ⟨-,empty⟩ | ⟨received,member,-,body⟩
    · exact .blank empty
    · exact .relayed last (.inl ⟨received,within _ member,rfl⟩) (.inl body)

theorem sent_forwarded (keepAlive : Bool) (evs : List SseEvent) (some : evs ≠ []) :
    sent (forwarded keepAlive false evs) = .writeHeader keepAlive :: evs.map frameWrite := by
  rw [sent,writes_forwarded keepAlive evs some]
  simp

theorem streamed_lost (streamed : Streamed keepAlive b requestBody t sr s) (started : s.headerStarted = true)
    (dead : s.downstreamDead = true) :
    ∃ head taken, .headed b head ∈ notes t ∧ taken <+: events head ∧
      sent (notes t) = .writeHeader keepAlive :: taken.map frameWrite := by
  cases streamed with
  | unreachable | unwritten | unanswered | refused => cases started
  | answered served flowed =>
    rename_i head body
    refine ⟨head,?_⟩
    cases flowed with
    | whole _ _ _ _ _ live => simp [live.alive] at dead
    | cut _ _ _ cut =>
      cases cut with
      | refused _ _ _ _ unsent => simp [unsent] at started
      | lost split shown started dead =>
        rename_i taken ev rest
        refine ⟨taken,List.mem_cons_of_mem _ List.mem_cons_self,⟨ev :: rest,split.symm⟩,?_⟩
        change sent (notes body) = _
        rw [shown]
        cases taken with
        | nil => rfl
        | cons first more =>
          rw [sent_append,sent_append,sent_forwarded _ _ (by simp)]
          simp [opened,sent,writes,frameNote]

theorem midStreamError_own (shown : midStreamError env timedOut = some payload) :
    ∃ kind message, errorJson env kind message [] = some payload := by
  unfold midStreamError at shown
  split at shown
  · exact ⟨_,_,shown⟩
  · exact ⟨_,_,shown⟩

theorem stream_concluded (head : Head) (taken : List SseEvent) (single : dispatches ns = [b]) (member : .headed b head ∈ ns)
    (within : taken <+: events head) (tail : Tail env taken rest)
    (shown : sent ns = .writeHeader keepAlive :: taken.map frameWrite ++ rest)
    (complete : exit = .returned true → Complete (writes ns)) : Concluded env b ns exit := by
  refine ⟨single,?_,complete⟩
  rw [shown]
  exact .streamed (by rw [single]; rfl) member within tail

theorem closing_undispatched (closing : Closing payload t clean) : dispatches (notes t) = [] := by
  cases closing <;> rfl

-- The client refused the header of the sink and is sent the gateway's own stream.
theorem emptied_concluded (streamed : Streamed keepAlive b requestBody up sr s) (unsent : s.headerStarted = false)
    (sound : failed sr = false) (closing : Closing (text "[DONE]") t clean) :
    Concluded env b (notes (up ++ succeeding b isProbe ++ .got (.writeHeader keepAlive) true :: t)) (.returned (clean && again)) := by
  obtain ⟨head,-,shown⟩ := streamed_unopened streamed unsent sound
  rw [notes_append,notes_append,shown]
  apply stream_concluded head [] _ _ List.nil_prefix (closing_tail closing (.inr ⟨rfl,rfl⟩)) rfl
  · intro returned
    obtain rfl : clean = true := (Bool.and_eq_true_iff.mp (Exit.returned.inj returned)).1
    have refused : Refused [(.writeHeader keepAlive,false)] := fun w member => ⟨_,List.mem_singleton.mp member⟩
    have complete : Complete ([(.writeHeader keepAlive,false)] ++ (.writeHeader keepAlive,true) ::
        [Wait.writeChunk .gateway (frame (text "[DONE]"))].map (·,true) ++ [(.writeLastChunk,true)]) :=
      .stream refused (List.forall_mem_singleton.mpr ⟨_,_,rfl⟩)
    rw [writes_append]
    change Complete ([(.writeHeader keepAlive,false),(.writeHeader keepAlive,true)] ++ writes (notes t))
    rw [closing_whole closing]
    exact complete
  · change b :: dispatches (notes t) = [b]
    rw [closing_undispatched closing]
  · simp

theorem truncated_concluded (streamed : Streamed keepAlive b requestBody up sr s) (started : s.headerStarted = true)
    (alive : s.downstreamDead = false) (error : midStreamError env timedOut = some payload) (closing : Closing payload t clean) :
    Concluded env b (notes (up ++ failing b isProbe labels ++ t)) (.returned false) := by
  obtain ⟨head,member,shown⟩ := streamed_whole streamed started alive
  have passed : sent (notes up) = .writeHeader keepAlive :: (events head).map frameWrite := sent_writes shown
  rw [notes_append,notes_append]
  apply stream_concluded head (events head) _ _ List.prefix_rfl (closing_tail closing (.inl (midStreamError_own error)))
  · rw [sent_append,sent_append,passed]
    change _ ++ [] ++ _ = _
    rw [List.append_nil]
  · exact fun returned => by cases returned
  · simp only [dispatches_append,streamed_dispatched streamed,closing_undispatched closing]
    rfl
  · simp [member]

theorem frames_chunks (evs : List SseEvent) : ∀ chunk ∈ evs.map frameWrite, ∃ site bytes, chunk = .writeChunk site bytes := by
  intro chunk found
  obtain ⟨ev,-,rfl⟩ := List.mem_map.mp found
  exact ⟨_,_,rfl⟩

theorem completed_concluded (streamed : Streamed keepAlive b requestBody up sr s) (started : s.headerStarted = true)
    (alive : s.downstreamDead = false) (clean again : Bool) :
    Concluded env b (notes (up ++ succeeding b isProbe ++ [.got .writeLastChunk clean])) (.returned (clean && again)) := by
  obtain ⟨head,member,shown⟩ := streamed_whole streamed started alive
  have passed : sent (notes up) = .writeHeader keepAlive :: (events head).map frameWrite := sent_writes shown
  have single : dispatches (notes (up ++ succeeding b isProbe ++ [.got .writeLastChunk clean])) = [b] := by
    simp only [notes_append,dispatches_append,streamed_dispatched streamed]
    rfl
  have inside : .headed b head ∈ notes (up ++ succeeding b isProbe ++ [.got .writeLastChunk clean]) := by simp [member]
  have report : writes (notes (succeeding b isProbe)) = [] := rfl
  cases clean with
  | false =>
    apply stream_concluded head (events head) single inside List.prefix_rfl .none
    · have nothing : sent (notes (succeeding b isProbe)) ++ sent (notes [.got .writeLastChunk false]) = [] := rfl
      rw [notes_append,notes_append,sent_append,sent_append,passed,List.append_assoc,nothing]
    · exact fun returned => by cases returned
  | true =>
    have whole : writes (notes (up ++ succeeding b isProbe ++ [.got .writeLastChunk true])) =
        [] ++ (.writeHeader keepAlive,true) :: ((events head).map frameWrite).map (·,true) ++ [(.writeLastChunk,true)] := by
      simp only [notes_append,writes_append,shown,report,List.append_nil]
      rfl
    apply stream_concluded head (events head) single inside List.prefix_rfl .ended
    · apply sent_writes
      rw [whole]
      simp
      rfl
    · intro _
      rw [whole]
      exact .stream refused_nil (frames_chunks (events head))

theorem stream_finish (stream : Stream env job labels b isProbe more t (.finish outcome)) :
    Concluded env b (notes t) outcome.exit := by
  generalize verdict : Verdict.finish outcome = v at stream
  cases stream with
  | failedOver => cases verdict
  | surfaced streamed unsent _ _ answered =>
    cases verdict
    apply answered_concluded (streamed_dispatched streamed) (streamed_refused streamed unsent) ⟨rfl,rfl⟩ answered
    intro bytes found last within
    exact streamed_surfaces streamed found rfl last within
  | unopened streamed unsent sound =>
    cases verdict
    obtain ⟨head,-,shown⟩ := streamed_unopened streamed unsent sound
    rw [notes_append,notes_append,shown]
    exact ⟨rfl,.nothing,fun returned => by cases returned⟩
  | emptied streamed unsent sound closing =>
    cases verdict
    exact emptied_concluded streamed unsent sound closing
  | abandoned streamed started dead =>
    cases verdict
    obtain ⟨head,taken,member,within,shown⟩ := streamed_lost streamed started dead
    apply stream_concluded head taken (streamed_dispatched streamed) member within .none
    · rw [shown,List.append_nil]
    · exact fun returned => by cases returned
  | truncated streamed started alive broken error closing =>
    cases verdict
    exact truncated_concluded streamed started alive error closing
  | completed streamed started alive sound =>
    cases verdict
    exact completed_concluded streamed started alive _ _

theorem tried_finish (tried : Tried env job labels b isProbe more t (.finish outcome)) :
    Concluded env b (notes t) outcome.exit := by
  cases tried with
  | stream _ stream => exact stream_finish stream
  | unary _ unary => exact unary_finish unary

-- What the client gets from the whole walk.
structure Served (env : Env) (ns : List Note) (exit : Exit) : Prop where
  delivered : Delivered env ns (sent ns)
  complete : exit = .returned true → Complete (writes ns)

theorem Served.after (served : Served env ns exit) (before : List Note) (refused : Refused (writes before)) :
    Served env (before ++ ns) exit := by
  refine ⟨?_,fun returned => ?_⟩
  · rw [sent_append,sent_refused refused]
    exact served.delivered.after before
  · rw [writes_append]
    exact (served.complete returned).after refused

theorem answered_served (own : body = errorJson env kind message param)
    (answered : Answered labels keepAlive status body t outcome) : Served env (notes t) outcome.exit := by
  refine ⟨?_,answered_complete answered⟩
  rcases answered_sends answered with none | ⟨bytes,found,json⟩
  · rw [none]
    exact .nothing
  · rw [json]
    exact .own (own.symm.trans found)

theorem walk_served (walk : Walk env job order attempts t outcome) : Served env (notes t) outcome.exit := by
  induction walk with
  | exhausted _ answered => exact answered_served rfl answered
  | denied _ passive _ _ ih =>
    rw [denied_notes passive]
    exact ih
  | full _ passive _ _ ih =>
    rw [full_notes passive]
    exact ih.after [.reported _ .abort _] refused_nil
  | failedOver _ passive _ tried _ ih =>
    rw [tried_notes passive]
    exact ih.after _ (tried_next tried).2
  | served _ passive _ tried =>
    have concluded := tried_finish tried
    rw [tried_notes passive,notes_nil,List.append_nil]
    exact ⟨concluded.delivered,concluded.complete⟩

theorem handled_served (handled : Handled env req t exit) : Served env (notes t) exit := by
  cases handled with
  | declined lead tail _ own answered =>
    obtain ⟨kind,message,param,-,own⟩ := own
    rw [notes_append,notes_append,lead,tail,List.nil_append,List.append_nil]
    exact answered_served own answered
  | failed silent =>
    rw [silent]
    exact ⟨.nothing,fun returned => by cases returned⟩
  | walked lead tail _ _ _ _ walk =>
    rw [notes_append,notes_append,lead,tail,List.nil_append,List.append_nil]
    exact walk_served walk

theorem walk_dispatches (walk : Walk env job order attempts t outcome) :
    (dispatches (notes t)).Sublist order ∧ (dispatches (notes t)).length ≤ maxAttempts - attempts := by
  induction walk with
  | exhausted _ answered =>
    rw [answered_undispatched answered]
    exact ⟨List.nil_sublist _,Nat.zero_le _⟩
  | denied _ passive _ _ ih =>
    rw [denied_notes passive]
    exact ⟨ih.1.cons _,ih.2⟩
  | full _ passive _ _ ih =>
    rw [full_notes passive]
    exact ⟨ih.1.cons _,ih.2⟩
  | failedOver left passive _ tried _ ih =>
    rw [tried_notes passive,dispatches_append,(tried_next tried).1]
    refine ⟨ih.1.cons_cons _,?_⟩
    have later := ih.2
    simp only [List.length_append,List.length_singleton]
    omega
  | served left passive _ tried =>
    rw [tried_notes passive,dispatches_append,(tried_finish tried).one]
    refine ⟨(List.nil_sublist _).cons_cons _,?_⟩
    change 1 ≤ _
    omega

-- What holds when a request is sent to backend b.
structure Fit (env : Env) (req : Request) (past : Trace) (b : Nat) : Prop where
  offered : Offered env req past b
  granted : ∃ before dec, past = before ++ [.did (.allowRequest b) dec,.did (.tryAcquire b) true] ∧ Decision.allowed dec = true
  unsent : sent (notes past) = []

def FitDispatch (env : Env) (req : Request) (past : Trace) : Event Op.Reply Wait.Answer → Trace → Prop
  | .got (.connect b) _,_ => Fit env req past b
  | _,_ => True

theorem fit_plain (past : Trace) (event : Event Op.Reply Wait.Answer) (future : Trace)
    (none : ∀ shown, note event = some shown → ∀ b, shown ≠ .dispatched b) : FitDispatch env req past event future := by
  cases event with
  | did op reply => trivial
  | got point answer =>
    cases point with
    | connect b => exact absurd rfl (none _ rfl b)
    | _ => trivial

theorem undispatched (none : dispatches (notes t) = []) (past future : Trace) : AtEach (FitDispatch env req) past t future := by
  apply atEach_notes fit_plain
  rintro shown member b rfl
  have found : b ∈ dispatches (notes t) := List.mem_filterMap.mpr ⟨_,member,rfl⟩
  rw [none] at found
  cases found

theorem offered_later (offered : Offered env req past b) (more : Trace) : Offered env req (past ++ more) b :=
  ⟨offered.1,List.mem_append_left more offered.2⟩

-- The dispatch stands first in an attempt, right after the decision and the slot.
theorem tried_fit (tried : Tried env job labels b isProbe more t verdict) (one : dispatches (notes t) = [b])
    (offered : Offered env req past b) (unsent : sent (notes past) = []) (allowed : Decision.allowed dec = true)
    (future : Trace) : AtEach (FitDispatch env req) (past ++ [.did (.allowRequest b) dec,.did (.tryAcquire b) true]) t future := by
  obtain ⟨answer,rest,rfl⟩ := tried_opens tried
  have only : dispatches (notes rest) = [] := (List.cons.inj one).2
  refine ⟨⟨offered_later offered _,⟨past,dec,rfl,allowed⟩,?_⟩,undispatched only _ _⟩
  rw [notes_append,sent_append,unsent]
  rfl

theorem fit_checks (env : Env) (req : Request) (job : Job) (order : List Nat) (outcome : Outcome) (future : Trace) :
    Checks (FitDispatch env req) (fun shown => ∀ b, shown ≠ .dispatched b)
      (fun past => (∀ b ∈ order, Offered env req past b) ∧ sent (notes past) = []) env job order outcome future where
  plain := fit_plain
  aborted := fun _ _ _ => by simp
  keeps := by
    rintro past more ⟨offered,unsent⟩ quiet
    refine ⟨fun b member => offered_later (offered b member) more,?_⟩
    rw [notes_append,sent_append,unsent,quiet]
    rfl
  exhausted := fun past _ _ _ answered => undispatched (answered_undispatched answered) past future
  next := fun past b dec _ _ _ after member inv allowed tried =>
    tried_fit tried (tried_next tried).1 (inv.1 b member) inv.2 allowed after
  finish := fun past b dec _ _ _ member inv allowed tried =>
    tried_fit tried (tried_finish tried).one (inv.1 b member) inv.2 allowed _

theorem handled_fit (handled : Handled env req t exit) : AtEach (FitDispatch env req) [] t [] := by
  apply handled.checked
  · intro lead silent
    exact undispatched (by rw [silent]; rfl)
  · intro labels status body t outcome _ answered
    exact undispatched (answered_undispatched answered)
  · intro lead tail job order t outcome silent _ _ _ offered _ walk
    apply (fit_checks env req _ _ _ _).walk walk fun b member => member
    exact ⟨offered,by rw [silent]; rfl⟩

theorem handled_dispatches (handled : Handled env req t exit) :
    (dispatches (notes t)).length ≤ maxAttempts ∧
      (CursorFits env.cfg.backends.length t → (dispatches (notes t)).Nodup) := by
  cases handled with
  | declined lead tail _ own answered =>
    rw [notes_append,notes_append,lead,tail,List.nil_append,List.append_nil,answered_undispatched answered]
    exact ⟨Nat.zero_le _,fun _ => List.nodup_nil⟩
  | failed silent =>
    rw [silent]
    exact ⟨Nat.zero_le _,fun _ => List.nodup_nil⟩
  | walked lead tail parsed keepAlive offered distinct walk =>
    obtain ⟨sublist,short⟩ := walk_dispatches walk
    rw [notes_append,notes_append,lead,tail,List.nil_append,List.append_nil]
    exact ⟨short,fun fits => sublist.nodup (distinct (cursorFits_append.mp (cursorFits_append.mp fits).1).1)⟩

section Sample
open Fleet

end Sample

end Kvmux.Failover
