import Mathlib.Data.List.Basic
import Kvmux.Attempted

namespace Kvmux.Surfacing
open Coroutine CircuitBreaker Client Gateway OpenAi Streaming Attempt Attempted Fleet

-- What a backend answered, as far as it was read.
def heard (ns : List Note) : List (Nat × Bytes) := ns.filterMap fun
  | .headed _ head => some (head.status,arrived head)
  | .responded _ received => some (received.status,received.body)
  | _ => none

@[simp] theorem heard_append (first second : List Note) : heard (first ++ second) = heard first ++ heard second :=
  List.filterMap_append

-- The responses written to the client, but for streams.
def responses (ns : List Note) : List Response := (writes ns).filterMap fun
  | (.writeJson response,_) => some response
  | _ => none

-- The answer to a request whose candidates are all used up.
def gaveUp (env : Env) : Option Bytes :=
  errorJson env .noBackend (text "no eligible backend could serve the request") []

-- But for stream headers that did not go out, this response is all that is written.
def Responds (keepAlive : Bool) (status : Nat) (body : Option Bytes) (ns : List Note) : Prop :=
  ∃ before delivered, Refused before ∧
    writes ns = before ++ body.toList.map fun body => (.writeJson (reply keepAlive status body),delivered)

section Responds
variable {keepAlive : Bool} {status : Nat} {body : Option Bytes}

theorem answered_responds (answered : Answered labels keepAlive status body t outcome) :
    Responds keepAlive status body (notes t) := by
  cases answered with
  | unwritable => exact ⟨[],true,refused_nil,rfl⟩
  | written =>
    rename_i delivered
    exact ⟨[],delivered,refused_nil,rfl⟩

theorem Responds.after (responds : Responds keepAlive status body second) (refused : Refused (writes first)) :
    Responds keepAlive status body (first ++ second) := by
  obtain ⟨before,delivered,quiet,shown⟩ := responds
  exact ⟨writes first ++ before,delivered,refused.append quiet,by rw [writes_append,shown,List.append_assoc]⟩

theorem Responds.before (responds : Responds keepAlive status body first) (silent : writes second = []) :
    Responds keepAlive status body (first ++ second) := by
  obtain ⟨before,delivered,quiet,shown⟩ := responds
  exact ⟨before,delivered,quiet,by rw [writes_append,silent,List.append_nil,shown]⟩

-- An exchange that wrote nothing, a report, and the answer.
theorem reported_responds (answered : Answered labels keepAlive status body t outcome) (refused : Refused (writes (notes up)))
    (silent : writes (notes reported) = []) : Responds keepAlive status body (notes (up ++ reported ++ t)) := by
  rw [notes_append]
  apply (answered_responds answered).after
  rw [notes_append,writes_append,silent,List.append_nil]
  exact refused

theorem Responds.responses (responds : Responds keepAlive status body ns) :
    responses ns = body.toList.map (reply keepAlive status) := by
  obtain ⟨before,delivered,refused,shown⟩ := responds
  have none : before.filterMap (fun | (.writeJson response,_) => some response | _ => none) = [] := by
    apply List.filterMap_eq_nil_iff.mpr
    intro w member
    obtain ⟨keepAlive,rfl⟩ := refused w member
    rfl
  rw [Surfacing.responses,shown,List.filterMap_append]
  cases body <;> simp [none]

theorem Responds.answers (responds : Responds keepAlive status body ns) :
    Surfacing.responses ns = [reply keepAlive code bytes] ↔ status = code ∧ body = some bytes := by
  rw [responds.responses]
  cases body with
  | none => simp
  | some body =>
    constructor
    · intro same
      have fields := List.head_eq_of_cons_eq same
      exact ⟨congrArg Response.status fields,congrArg (some ∘ Response.body) fields⟩
    · rintro ⟨rfl,same⟩
      rw [same]
      rfl

-- A client that takes everything receives what is written.
theorem Responds.sent (responds : Responds keepAlive status body ns) (intact : ∀ w ∈ writes ns, w.2 = true) :
    sent ns = (Surfacing.responses ns).map .writeJson := by
  rw [responds.responses]
  obtain ⟨before,delivered,refused,shown⟩ := responds
  rw [shown] at intact
  cases before with
  | cons w rest =>
    obtain ⟨keepAlive,rfl⟩ := refused w List.mem_cons_self
    cases intact _ List.mem_cons_self
  | nil =>
    cases body with
    | none => rw [Streaming.sent,shown]; rfl
    | some body =>
      have delivered : delivered = true := intact _ (List.mem_singleton.mpr rfl)
      rw [Streaming.sent,shown,delivered]
      rfl

theorem Responds.receives (responds : Responds keepAlive status body ns) (intact : ∀ w ∈ writes ns, w.2 = true) :
    Streaming.sent ns = [.writeJson (reply keepAlive code bytes)] ↔ status = code ∧ body = some bytes := by
  rw [responds.sent intact,← responds.answers]
  constructor
  · intro same
    obtain ⟨response,only,equal⟩ := List.map_eq_singleton_iff.mp same
    cases equal
    exact only
  · intro only
    rw [only]
    rfl

end Responds
section Errors
variable {env : Env} {job : Job} {labels : Metrics.Labels} {b : Nat} {isProbe more : Bool}

theorem posted_heard (posted : Posted b requestBody t ur) (told : (status,bytes) ∈ heard (notes t)) :
    ur.connected = true ∧ ur.httpStatus = status ∧ ur.body = bytes := by
  cases posted with
  | unreachable | unwritten | unanswered => cases told
  | answered =>
    cases List.mem_singleton.mp told
    exact ⟨rfl,rfl,rfl⟩

theorem posted_refused (posted : Posted b requestBody t ur) : Refused (writes (notes t)) := by
  rw [(posted_quiet posted).2.1]
  exact refused_nil

theorem answered_unheard (answered : Answered labels keepAlive status body t outcome) : heard (notes t) = [] := by
  cases answered <;> rfl

theorem reported_unheard (answered : Answered labels keepAlive status body t outcome) (silent : heard (notes reported) = []) :
    heard (notes (reported ++ t)) = [] := by
  rw [notes_append,heard_append,silent,answered_unheard answered]
  rfl

theorem answered_unreported (answered : Answered labels keepAlive status body t outcome) : reports (notes t) = [] := by
  cases answered <;> rfl

theorem written_unheard (written : Written ns) : heard ns = [] := by
  apply List.filterMap_eq_nil_iff.mpr
  intro shown member
  obtain ⟨point,delivered,rfl,-⟩ := written shown member
  rfl

-- An error status is told with its body, and nothing has reached the client.
theorem streamed_heard (streamed : Streamed keepAlive b requestBody t sr s) (told : (status,bytes) ∈ heard (notes t))
    (error : 400 ≤ status) :
    s.headerStarted = false ∧ failed sr = true ∧ surface env sr = (status,wrapped env bytes status) := by
  cases streamed with
  | unreachable | unwritten | unanswered => cases told
  | refused own only =>
    rename_i reads head
    have silent : heard (notes reads) = [] := by
      rw [readSome_unnoted only]
      rfl
    change (status,bytes) ∈ (head.status,arrived head) :: heard (notes reads) at told
    rw [silent] at told
    cases List.mem_singleton.mp told
    refine ⟨rfl,?_,if_pos own⟩
    simp [failed,own]
  | answered served flowed =>
    rename_i head body
    change (status,bytes) ∈ (head.status,arrived head) :: heard (notes body) at told
    rw [written_unheard flowed.written] at told
    cases List.mem_singleton.mp told
    omega

-- What a non-streaming exchange is answered with when it ends the walk.
def relay (env : Env) (ur : UnaryResult) : Nat × Option Bytes :=
  if ur.httpStatus ≥ 400 then (ur.httpStatus,wrapped env ur.body ur.httpStatus) else (200,some ur.body)

-- A non-streaming attempt is its exchange and what it leads to.
theorem unary_exchange (unary : Unary env job labels b isProbe more t verdict) :
    ∃ up ur tail, Posted b job.upstreamText up ur ∧ t = up ++ tail ∧ heard (notes tail) = [] ∧
      (verdict = .next ∧ (ur.connected = true → more = true) ∨
        (∃ outcome, verdict = .finish outcome) ∧ Responds job.keepAlive (relay env ur).1 (relay env ur).2 (notes t)) := by
  cases unary with
  | unreachable posted unconnected =>
    exact ⟨_,_,_,posted,rfl,rfl,.inl ⟨rfl,fun connected => by simp [unconnected] at connected⟩⟩
  | failedOver posted _ _ again => exact ⟨_,_,_,posted,rfl,rfl,.inl ⟨rfl,fun _ => again⟩⟩
  | surfaced posted _ failed _ answered =>
    refine ⟨_,_,_,posted,List.append_assoc _ _ _,?_,.inr ⟨⟨_,rfl⟩,?_⟩⟩
    · exact reported_unheard answered rfl
    · rw [relay,if_pos (by omega)]
      exact reported_responds answered (posted_refused posted) rfl
  | relayedError posted _ _ error answered =>
    refine ⟨_,_,_,posted,List.append_assoc _ _ _,?_,.inr ⟨⟨_,rfl⟩,?_⟩⟩
    · exact reported_unheard answered rfl
    · rw [relay,if_pos error]
      exact reported_responds answered (posted_refused posted) rfl
  | relayed posted _ fine answered =>
    refine ⟨_,_,_,posted,List.append_assoc _ _ _,?_,.inr ⟨⟨_,rfl⟩,?_⟩⟩
    · exact reported_unheard answered rfl
    · rw [relay,if_neg (by omega)]
      exact reported_responds answered (posted_refused posted) rfl

-- A streaming attempt is its exchange and what follows. An exchange that failed before
-- anything was sent is handed on or answered with its error.
theorem stream_exchange (stream : Stream env job labels b isProbe more t verdict) :
    ∃ up sr s tail, Streamed job.keepAlive b job.upstreamText up sr s ∧ t = up ++ tail ∧ heard (notes tail) = [] ∧
      (s.headerStarted = false → failed sr = true → reports (notes tail) = [(b,.failure,isProbe)] ∧
        (verdict = .next ∧ more = true ∨
          (∃ outcome, verdict = .finish outcome) ∧ Responds job.keepAlive (surface env sr).1 (surface env sr).2 (notes t))) := by
  cases stream with
  | failedOver streamed _ _ again => exact ⟨_,_,_,_,streamed,rfl,rfl,fun _ _ => ⟨rfl,.inl ⟨rfl,again⟩⟩⟩
  | surfaced streamed unsent _ _ answered =>
    refine ⟨_,_,_,_,streamed,List.append_assoc _ _ _,?_,fun _ _ => ⟨?_,.inr ⟨⟨_,rfl⟩,?_⟩⟩⟩
    · exact reported_unheard answered rfl
    · rw [notes_append,reports_append,answered_unreported answered]
      rfl
    · exact reported_responds answered (streamed_refused streamed unsent) rfl
  | unopened streamed _ sound =>
    refine ⟨_,_,_,_,streamed,List.append_assoc _ _ _,rfl,fun _ fails => ?_⟩
    simp [sound] at fails
  | emptied streamed _ sound closing =>
    refine ⟨_,_,_,_,streamed,List.append_assoc _ _ _,by cases closing <;> rfl,fun _ fails => ?_⟩
    simp [sound] at fails
  | abandoned streamed sent =>
    refine ⟨_,_,_,_,streamed,(List.append_nil _).symm,rfl,fun unsent => ?_⟩
    simp [sent] at unsent
  | truncated streamed sent _ _ _ closing =>
    refine ⟨_,_,_,_,streamed,List.append_assoc _ _ _,by cases closing <;> rfl,fun unsent => ?_⟩
    simp [sent] at unsent
  | completed streamed sent =>
    refine ⟨_,_,_,_,streamed,List.append_assoc _ _ _,rfl,fun unsent => ?_⟩
    simp [sent] at unsent

theorem unary_error (unary : Unary env job labels b isProbe more t verdict) (told : (status,bytes) ∈ heard (notes t))
    (error : 400 ≤ status) : verdict = .next ∧ more = true ∨
      (∃ outcome, verdict = .finish outcome) ∧ Responds job.keepAlive status (wrapped env bytes status) (notes t) := by
  obtain ⟨up,ur,tail,posted,rfl,silent,outcome⟩ := unary_exchange unary
  rw [notes_append,heard_append,silent,List.append_nil] at told
  obtain ⟨connected,rfl,rfl⟩ := posted_heard posted told
  rw [relay,if_pos error] at outcome
  exact outcome.imp_left fun ⟨next,again⟩ => ⟨next,again connected⟩

theorem stream_error (stream : Stream env job labels b isProbe more t verdict) (told : (status,bytes) ∈ heard (notes t))
    (error : 400 ≤ status) : verdict = .next ∧ more = true ∨
      (∃ outcome, verdict = .finish outcome) ∧ Responds job.keepAlive status (wrapped env bytes status) (notes t) := by
  obtain ⟨up,sr,s,tail,streamed,rfl,silent,outcome⟩ := stream_exchange stream
  rw [notes_append,heard_append,silent,List.append_nil] at told
  obtain ⟨unsent,fails,shown⟩ := streamed_heard streamed told error
  rw [shown] at outcome
  exact (outcome unsent fails).2

theorem tried_error (tried : Tried env job labels b isProbe more t verdict) (told : (status,bytes) ∈ heard (notes t))
    (error : 400 ≤ status) : verdict = .next ∧ more = true ∨
      (∃ outcome, verdict = .finish outcome) ∧ Responds job.keepAlive status (wrapped env bytes status) (notes t) := by
  cases tried with
  | stream _ stream => exact stream_error stream told error
  | unary _ unary => exact unary_error unary told error

end Errors
section Last
variable {env : Env} {req : Request} {b : Nat} {answer : Except Fault Unit}

-- How a request ends after its last dispatch: with the answer of that attempt, or
-- with none, when nobody is left to be tried. Where the attempt counted on another
-- candidate, that one was refused.
inductive Ended (env : Env) (req : Request) (b : Nat) (answer : Except Fault Unit) (after : Trace) (ns : List Note) : Prop where
  | finished : job.keepAlive = req.keepAlive →
      Tried env job labels b isProbe more (.got (.connect b) answer :: exchange) (.finish outcome) →
      after = exchange ++ rest → notes rest = [] → Unrefused after → Refused (writes before) →
      ns = before ++ notes (.got (.connect b) answer :: exchange) → Ended env req b answer after ns
  | gaveUp : Tried env job labels b isProbe more (.got (.connect b) answer :: exchange) .next →
      after = exchange ++ rest → heard (notes rest) = [] → (Unrefused after ↔ more = false) →
      Responds req.keepAlive 503 (gaveUp env) ns → Ended env req b answer after ns

theorem idle_unheard (idle : Idle t) : heard (notes t) = [] := idle.blank fun _ _ _ => rfl

theorem answered_unrefused (answered : Answered labels keepAlive status body t outcome) : Unrefused t := by
  cases answered with
  | unwritable => exact List.forall_mem_nil _
  | written => exact List.forall_mem_singleton.mpr rfl

theorem last_attempt (path : Runs (handleChat env req) t exit) (split : t = past ++ .got (.connect b) answer :: after)
    (last : dispatches (notes after) = []) : Ended env req b answer after (notes t) := by
  obtain ⟨job,outcome,walked,-,attempting⟩ := handleChat_attempt path split
  obtain ⟨tail,rfl,silent,quiet⟩ := attempting.behind
  have released : Unrefused [.did (.releaseSlot b) ()] := List.forall_mem_singleton.mpr rfl
  rw [split]
  cases attempting.continued with
  | finished tried own =>
    rename_i inner
    refine .finished attempting.keepAlive tried (List.append_assoc inner _ tail) silent ((own.append released).append quiet)
      attempting.before ?_
    rw [List.append_assoc,← List.cons_append,notes_append,notes_append]
    congr 1
    change _ ++ notes tail = _
    rw [silent,List.append_nil]
  | handedOn tried own walking =>
    rename_i labels isProbe attempts rest inner spills spilled last w
    have none : dispatches (notes w) = [] := by
      rw [notes_append,notes_append,dispatches_append,dispatches_append] at last
      exact (List.append_eq_nil_iff.mp (List.append_eq_nil_iff.mp last).1).2
    obtain ⟨lead,end_,labels,rfl,idle,answered,asked,unasked⟩ := walk_idle walking none
    refine .gaveUp tried (List.append_assoc inner _ tail) ?_ ⟨fun unrefused => ?_,fun spent => ?_⟩ ?_
    · change heard (notes (lead ++ end_ ++ tail)) = []
      rw [notes_append,notes_append,silent,List.append_nil,heard_append,idle_unheard idle,answered_unheard answered]
      rfl
    · apply Bool.eq_false_of_not_eq_true
      intro again
      obtain ⟨event,member,refuses⟩ := asked again
      have accepted := unrefused event (by simp [member])
      rw [refuses] at accepted
      cases accepted
    · rw [unasked spent,List.nil_append,List.append_cons]
      exact ((own.append released).append (answered_unrefused answered)).append quiet
    · have ends : notes (past ++ .got (.connect b) answer :: (inner ++ .did (.releaseSlot b) () :: (lead ++ end_) ++ tail)) =
          notes past ++ notes (.got (.connect b) answer :: inner) ++ notes lead ++ notes end_ ++ notes tail := by
        simp [notes_cons,note]
      rw [ends]
      apply Responds.before _ (by rw [silent]; rfl)
      rw [← attempting.keepAlive]
      apply (answered_responds answered).after
      rw [writes_append,writes_append,idle.writes,List.append_nil]
      exact attempting.before.append (tried_next tried).2

theorem last_error (path : Runs (handleChat env req) t exit) (split : t = past ++ .got (.connect b) answer :: after)
    (last : dispatches (notes after) = []) (told : (status,bytes) ∈ heard (notes after)) (error : 400 ≤ status) :
    Unrefused after ∧ Responds req.keepAlive status (wrapped env bytes status) (notes t) ∨
    ¬Unrefused after ∧ Responds req.keepAlive 503 (gaveUp env) (notes t) := by
  cases last_attempt path split last with
  | finished keepAlive tried rest silent unrefused refused shown =>
    rw [rest,notes_append,silent,List.append_nil] at told
    rcases tried_error tried told error with ⟨next,-⟩ | ⟨-,responds⟩
    · cases next
    · rw [shown,← keepAlive]
      exact .inl ⟨unrefused,responds.after refused⟩
  | gaveUp tried rest silent unrefused responds =>
    rw [rest,notes_append,heard_append,silent,List.append_nil] at told
    rcases tried_error tried told error with ⟨-,again⟩ | ⟨⟨_,finish⟩,-⟩
    · refine .inr ⟨fun all => ?_,responds⟩
      have spent := unrefused.mp all
      rw [again] at spent
      cases spent
    · cases finish

theorem errors_surface (path : Runs (handleChat env req) t exit) (split : t = past ++ .got (.connect b) answer :: after)
    (last : dispatches (notes after) = []) (told : (status,bytes) ∈ heard (notes after)) (error : 500 ≤ status) :
    (∃ body, wrapped env bytes status = some body ∧ responses (notes t) = [reply req.keepAlive status body]) ↔
      (wrapUpstreamError env.json bytes status).Utf8 ∧
        (Unrefused after ∨ status = 503 ∧ wrapped env bytes status = gaveUp env) := by
  rw [← env.json.dumps,Option.isSome_iff_exists]
  rcases last_error path split last told (by omega) with ⟨unrefused,responds⟩ | ⟨refused,responds⟩
  · constructor
    · rintro ⟨body,shown,-⟩
      exact ⟨⟨body,shown⟩,.inl unrefused⟩
    · rintro ⟨⟨body,shown⟩,-⟩
      exact ⟨body,shown,responds.answers.mpr ⟨rfl,shown⟩⟩
  · constructor
    · rintro ⟨body,shown,only⟩
      obtain ⟨same,own⟩ := responds.answers.mp only
      exact ⟨⟨body,shown⟩,.inr ⟨same.symm,shown.trans own.symm⟩⟩
    · rintro ⟨⟨body,shown⟩,cause⟩
      obtain ⟨rfl,own⟩ := cause.resolve_left refused
      exact ⟨body,shown,responds.answers.mpr ⟨rfl,own.symm.trans shown⟩⟩

def connected : Option Fault → Except Fault Unit
  | none => .ok ()
  | some fault => .error fault

def dispatchOf : Happened → Option (Nat × Option Fault)
  | .got (.connect b) (.ok _) => some (b,none)
  | .got (.connect b) (.error fault) => some (b,some fault)
  | _ => none

theorem split_at (found : t[k]?.bind dispatchOf = some (b,fault)) :
    t = t.take k ++ .got (.connect b) (connected fault) :: t.drop (k + 1) := by
  obtain ⟨event,here,own⟩ := Option.bind_eq_some_iff.mp found
  have shown : event = .got (.connect b) (connected fault) := by
    unfold dispatchOf at own
    split at own
    · cases own
      rfl
    · cases own
      rfl
    · cases own
  obtain ⟨inside,rfl⟩ := List.getElem?_eq_some_iff.mp here
  rw [← shown,List.getElem_cons_drop,List.take_append_drop]

-- A run seen from its k-th event on.
structure Glimpse where
  dispatch : Option (Nat × Option Fault)
  later : List Nat
  told : List (Nat × Bytes)
  unrefused : Bool
  written : List (Wait × Bool)
  deriving DecidableEq

def glimpse (k : Nat) (t : Trace) : Glimpse where
  dispatch := t[k]?.bind dispatchOf
  later := dispatches (notes (t.drop (k + 1)))
  told := heard (notes (t.drop (k + 1)))
  unrefused := (t.drop (k + 1)).all fun event => !refuses event
  written := writes (notes t)

theorem glimpse_split (seen : glimpse k t = ⟨some (b,fault),later,told,unrefused,written⟩) :
    t = t.take k ++ .got (.connect b) (connected fault) :: t.drop (k + 1) ∧
    dispatches (notes (t.drop (k + 1))) = later ∧ heard (notes (t.drop (k + 1))) = told ∧
    (unrefused = true → Unrefused (t.drop (k + 1))) ∧ writes (notes t) = written := by
  refine ⟨split_at (congrArg Glimpse.dispatch seen),congrArg Glimpse.later seen,congrArg Glimpse.told seen,?_,
    congrArg Glimpse.written seen⟩
  rintro rfl event member
  simpa using List.all_eq_true.mp (congrArg Glimpse.unrefused seen) event member

-- A backend that answers everything with an error, and a second backend that has failed just before.
def erring (status : Nat) (bytes : Bytes) : (point : Wait) → point.Answer :=
  obliging ⟨status,false,[{block := bytes,done := true}]⟩ ⟨status,bytes⟩

def tripped (env : Env) : State :=
  {healthy env 0 with backends := (healthy env 0).backends.modify 1 fun backend =>
    {backend with breaker := onFailure backend.breaker 0 false}}

def written (keepAlive : Bool) (status : Nat) (body : Option Bytes) : List (Wait × Bool) :=
  body.toList.map fun body => (.writeJson (reply keepAlive status body),true)

theorem written_intact : ∀ w ∈ written keepAlive status body, w.2 = true := by
  intro w member
  obtain ⟨bytes,-,rfl⟩ := List.mem_map.mp member
  rfl

theorem written_sent (only : writes ns = written keepAlive status (some body)) :
    sent ns = [.writeJson (reply keepAlive status body)] := by
  rw [sent,only]
  rfl

theorem errors_surface_alone : ∃ t body, Runs (handleChat (sampleEnv ["a"]) (chatRequest true)) t (.returned true) ∧
    wrapped (sampleEnv ["a"]) (text "boom") 500 = some body ∧ responses (notes t) = [reply true 500 body] := by
  obtain ⟨t,path,seen⟩ : ∃ t, Runs (handleChat (sampleEnv ["a"]) (chatRequest true)) t (.returned true) ∧ glimpse 10 t =
      ⟨some (0,none),[],[(500,text "boom")],true,written true 500 (wrapped (sampleEnv ["a"]) (text "boom") 500)⟩ :=
    alone_runs 0 (List.replicate 8 (erring 500 (text "boom"))) _ (by decide +kernel)
  obtain ⟨split,last,told,unrefused,-⟩ := glimpse_split seen
  have valid : (wrapUpstreamError (sampleEnv ["a"]).json (text "boom") 500).Utf8 := by decide +kernel
  obtain ⟨body,shown,only⟩ := (errors_surface path split last (by rw [told]; exact List.mem_cons_self)
    (by decide)).mpr ⟨valid,.inl (unrefused rfl)⟩
  exact ⟨t,body,path,shown,only⟩

-- The next candidate's breaker is open: the error of the only backend that was asked is dropped.
theorem error_dropped : ∃ t past after body,
    Runs (handleChat (sampleEnv ["a","b"]) (chatRequest false)) t (.returned true) ∧
    t = past ++ .got (.connect 0) (.ok ()) :: after ∧ dispatches (notes after) = [] ∧
    heard (notes after) = [(500,text "boom")] ∧ responses (notes t) = [reply true 503 body] := by
  obtain ⟨body,shown⟩ := errorJson_some (sampleEnv ["a","b"]) .noBackend "no eligible backend could serve the request"
  obtain ⟨t,path,seen⟩ : ∃ t, Runs (handleChat (sampleEnv ["a","b"]) (chatRequest false)) t (.returned true) ∧ glimpse 12 t =
      ⟨some (0,none),[],[(500,text "boom")],false,written true 503 (gaveUp (sampleEnv ["a","b"]))⟩ :=
    solo_shown (tripped (sampleEnv ["a","b"])) (List.replicate 8 (erring 500 (text "boom"))) _ (by decide +kernel)
  obtain ⟨split,last,told,-,only⟩ := glimpse_split seen
  refine ⟨t,_,_,body,path,split,last,told,?_⟩
  rw [responses,only,gaveUp,shown]
  rfl

def hasMessage (value : Json) : Bool :=
  match value.find (text "error") with
  | some error => error.contains (text "message")
  | none => false

theorem upstreamError_message (message : Bytes) (status : Nat) : hasMessage (upstreamError message status) = true := by
  have first : (text "error" == text "error") = true := by decide +kernel
  have other : (text "code" == text "message") = false := by decide +kernel
  have own : (text "message" == text "message") = true := by decide +kernel
  simp only [hasMessage,upstreamError,member,Json.find,Json.contains,List.find?,first,other,own,Option.map_some,
    Option.isSome_some]

theorem wrapUpstreamError_message (lib : JsonLib) (bytes : Bytes) (status : Nat) :
    hasMessage (wrapUpstreamError lib bytes status) = true := by
  rcases wrapUpstreamError_cases lib bytes status with ⟨_,-,found,present⟩ | ⟨_,_,-,-,shown⟩ | shown
  · simp only [hasMessage,found,present]
  · rw [shown]
    exact upstreamError_message _ _
  · rw [shown]
    exact upstreamError_message _ _

theorem errors_relayed (parses : ∀ bytes value, env.json.parse bytes = some value → value.Utf8)
    (path : Runs (handleChat env req) t exit) (split : t = past ++ .got (.connect b) answer :: after)
    (last : dispatches (notes after) = []) (unrefused : Unrefused after) (told : (status,bytes) ∈ heard (notes after))
    (error : 400 ≤ status) (intact : ∀ w ∈ writes (notes t), w.2 = true) :
    (∃ body value, sent (notes t) = [.writeJson (reply req.keepAlive status body)] ∧ env.json.dump value = some body ∧
      hasMessage value = true) ↔ CarriesError env.json bytes ∨ ValidUtf8 bytes := by
  rcases last_error path split last told error with ⟨-,responds⟩ | ⟨refused,-⟩
  · rw [← wrapUpstreamError_utf8 parses,← env.json.dumps,Option.isSome_iff_exists]
    constructor
    · rintro ⟨body,value,shown,-⟩
      exact ⟨body,((responds.receives intact).mp shown).2⟩
    · rintro ⟨body,dumped⟩
      have shown := (responds.receives intact).mpr ⟨rfl,dumped⟩
      exact ⟨body,_,shown,dumped,wrapUpstreamError_message env.json bytes status⟩
  · exact absurd unrefused refused

theorem errors_relayed_alone : ∃ t body value,
    Runs (handleChat (sampleEnv ["a"]) (chatRequest false)) t (.returned true) ∧
    sent (notes t) = [.writeJson (reply true 404 body)] ∧ (sampleEnv ["a"]).json.dump value = some body ∧
    hasMessage value = true := by
  obtain ⟨t,path,seen⟩ : ∃ t, Runs (handleChat (sampleEnv ["a"]) (chatRequest false)) t (.returned true) ∧ glimpse 10 t =
      ⟨some (0,none),[],[(404,text "no")],true,written true 404 (wrapped (sampleEnv ["a"]) (text "no") 404)⟩ :=
    alone_runs 0 (List.replicate 8 (erring 404 (text "no"))) _ (by decide +kernel)
  obtain ⟨split,last,told,unrefused,only⟩ := glimpse_split seen
  have parses : ∀ bytes value, (sampleEnv ["a"]).json.parse bytes = some value → value.Utf8 := tableLib_parses (by decide +kernel)
  have intact : ∀ w ∈ writes (notes t), w.2 = true := by
    rw [only]
    exact written_intact
  obtain ⟨body,value,shown⟩ := (errors_relayed parses path split last (unrefused rfl)
    (by rw [told]; exact List.mem_cons_self) (by decide) intact).mpr (.inr (by decide +kernel))
  exact ⟨t,body,value,path,shown⟩

-- A byte that is not UTF-8: the error cannot be serialised, and the request is left without a response.
theorem error_abandoned : ∃ t past after,
    Runs (handleChat (sampleEnv ["a"]) (chatRequest false)) t .threw ∧ t = past ++ .got (.connect 0) (.ok ()) :: after ∧
    dispatches (notes after) = [] ∧ Unrefused after ∧ heard (notes after) = [(404,[255])] ∧ writes (notes t) = [] := by
  obtain ⟨t,path,seen⟩ : ∃ t, Runs (handleChat (sampleEnv ["a"]) (chatRequest false)) t .threw ∧
      glimpse 10 t = ⟨some (0,none),[],[(404,[255])],true,[]⟩ :=
    alone_runs 0 (List.replicate 8 (erring 404 [255])) _ (by decide +kernel)
  obtain ⟨split,last,told,unrefused,silent⟩ := glimpse_split seen
  exact ⟨t,_,_,path,split,last,unrefused rfl,told,silent⟩

end Last
end Kvmux.Surfacing
