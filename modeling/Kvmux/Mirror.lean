import Mathlib.Data.List.Basic
import Kvmux.Fleet
import Kvmux.Handling

namespace Kvmux.Mirror
open Coroutine CircuitBreaker Metrics Client Gateway OpenAi Streaming Attempt

-- The ways an exchange can end before anything was sent to the client.
inductive Fate where
  | unreachable
  | lost
  | response (status : Nat) (body : Bytes)
  deriving DecidableEq

def Fate.Error : Fate → Prop
  | .response status _ => 400 ≤ status
  | _ => True

-- What each fate means for the answers an attempt waits for.
def meets : Fate → Event Op.Reply Wait.Answer → Bool
  | .unreachable,.got (.connect _) (.ok _) => false
  | .lost,.got (.connect _) (.error _) | .lost,.got (.readHeader _) (.ok _) | .lost,.got (.readResponse _) (.ok _) => false
  | .response _ _,.got (.connect _) (.error _) | .response _ _,.got (.writeRequest _ _) (.error _) => false
  | .response _ _,.got (.readHeader _) (.error _) | .response _ _,.got (.readResponse _) (.error _) => false
  | .response status body,.got (.readHeader _) (.ok head) => head.status == status && arrived head == body
  | .response status body,.got (.readResponse _) (.ok received) => received == ⟨status,body⟩
  | _,_ => true

-- An attempt together with what follows when no candidate is left after it: the
-- walk, too, answers that it is exhausted.
def concluded (env : Env) (job : Job) (labels : Labels) (b : Nat) (isProbe more : Bool) : Prog (Option Outcome) := do
  match ← attempt env job labels b isProbe more with
  | .finish outcome => pure (some outcome)
  | .next =>
    if more then pure none
    else do
      let outcome ← exhausted env job labels
      pure (some outcome)

def failures (ns : List Note) : List Labels := ns.filterMap fun
  | .failure labels => some labels
  | _ => none

def statuses (ns : List Note) : List Nat := ns.filterMap fun
  | .wrote (.writeJson response) _ => some response.status
  | _ => none

@[simp] theorem failures_append (first second : List Note) : failures (first ++ second) = failures first ++ failures second :=
  List.filterMap_append
@[simp] theorem statuses_append (first second : List Note) : statuses (first ++ second) = statuses first ++ statuses second :=
  List.filterMap_append

-- Breaker reports, counted failures, whether the next candidate is tried, and
-- the status of the answer.
structure View where
  reports : List (Nat × Report × Bool)
  failures : List Labels
  next : Bool
  status : List Nat
  deriving DecidableEq

def view (t : Trace) (result : Option Outcome) : View :=
  ⟨Streaming.reports (notes t),Mirror.failures (notes t),result.isNone,statuses (notes t)⟩

section Paths
variable (env : Env) (labels : Labels) (b : Nat) (isProbe more : Bool)

-- An error that cannot be serialised is not written.
def relayed (status : Nat) (body : Bytes) : List Nat := if (wrapped env body status).isSome then [status] else []

def failedView (status : List Nat) : View := ⟨[(b,.failure,isProbe)],[labels],more,if more then [] else status⟩

def servedView (status : List Nat) : View := ⟨[(b,.success,isProbe)],[],false,status⟩

def streamView : Fate → View
  | .unreachable | .lost => failedView labels b isProbe more [502]
  | .response status body => failedView labels b isProbe more (relayed env status body)

def unaryView : Fate → View
  | .unreachable => failedView labels b isProbe more [503]
  | .lost => servedView b isProbe [200]
  | .response status body =>
    if 500 ≤ status then failedView labels b isProbe more (relayed env status body)
    else servedView b isProbe (relayed env status body)

theorem views_agree (fate : Fate) :
    streamView env labels b isProbe more fate = unaryView env labels b isProbe more fate ↔
      (fate = .unreachable ∧ more = true) ∨ ∃ status body, fate = .response status body ∧ 500 ≤ status := by
  cases fate with
  | unreachable => cases more <;> simp [streamView,unaryView,failedView]
  | lost => simp [streamView,unaryView,failedView,servedView]
  | response status body =>
    by_cases server : 500 ≤ status
    · simp [streamView,unaryView,server]
    · simp [streamView,unaryView,failedView,servedView,server]

variable {env labels b isProbe more}

theorem unaryView_server {status : Nat} (server : 500 ≤ status) : unaryView env labels b isProbe more (.response status body) =
    failedView labels b isProbe more (relayed env status body) := if_pos server

theorem unaryView_client {status : Nat} (client : status < 500) : unaryView env labels b isProbe more (.response status body) =
    servedView b isProbe (relayed env status body) := if_neg (Nat.not_le_of_lt client)

structure Quiet (ns : List Note) : Prop where
  reports : Streaming.reports ns = []
  failures : Mirror.failures ns = []
  statuses : Mirror.statuses ns = []

theorem view_next (quiet : Quiet (notes up)) :
    view (up ++ failing b isProbe labels) none = failedView labels b isProbe true status := by
  simp only [view,notes_append,reports_append,failures_append,statuses_append,quiet.reports,quiet.failures,quiet.statuses]
  rfl

theorem view_failed (quiet : Quiet (notes up)) (answered : Answered labels keepAlive status body t outcome) :
    view (up ++ failing b isProbe labels ++ t) (some outcome) =
      failedView labels b isProbe false (if body.isSome then [status] else []) := by
  simp only [view,notes_append,reports_append,failures_append,statuses_append,quiet.reports,quiet.failures,quiet.statuses]
  cases answered <;> rfl

theorem view_served (quiet : Quiet (notes up)) (answered : Answered labels keepAlive status body t outcome) :
    view (up ++ succeeding b isProbe ++ t) (some outcome) = servedView b isProbe (if body.isSome then [status] else []) := by
  simp only [view,notes_append,reports_append,failures_append,statuses_append,quiet.reports,quiet.failures,quiet.statuses]
  cases answered <;> rfl

def Fate.posted : Fate → UnaryResult
  | .unreachable => {}
  | .lost => {connected := true}
  | .response status body => {connected := true,httpStatus := status,body}

def Fate.streamed : Fate → StreamResult
  | .unreachable => {}
  | .lost => {connected := true,upstreamAborted := true}
  | .response status body => {connected := true,httpStatus := status,errorBody := body}

-- An event that a fate rules out has not happened.
theorem unmet {fate : Fate} {t : Trace} (met : ∀ event ∈ t, meets fate event) (event : Event Op.Reply Wait.Answer)
    (member : event ∈ t) (never : meets fate event = false) : False := by
  have happened := met event member
  rw [never] at happened
  cases happened

theorem posted_fate (posted : Posted b requestBody t ur) (met : ∀ event ∈ t, meets fate event) :
    Quiet (notes t) ∧ ur = fate.posted := by
  cases posted with
  | unreachable =>
    rename_i fault
    cases fate with
    | unreachable => exact ⟨⟨rfl,rfl,rfl⟩,rfl⟩
    | lost | response => exact (unmet met (.got (.connect b) (.error fault)) List.mem_cons_self rfl).elim
  | unwritten =>
    rename_i fault
    cases fate with
    | lost => exact ⟨⟨rfl,rfl,rfl⟩,rfl⟩
    | unreachable => exact (unmet met (.got (.connect b) (.ok ())) List.mem_cons_self rfl).elim
    | response => exact (unmet met (.got (.writeRequest b requestBody) (.error fault)) (by simp) rfl).elim
  | unanswered =>
    rename_i fault
    cases fate with
    | lost => exact ⟨⟨rfl,rfl,rfl⟩,rfl⟩
    | unreachable => exact (unmet met (.got (.connect b) (.ok ())) List.mem_cons_self rfl).elim
    | response => exact (unmet met (.got (.readResponse b) (.error fault)) (by simp) rfl).elim
  | answered =>
    rename_i received
    cases fate with
    | unreachable => exact (unmet met (.got (.connect b) (.ok ())) List.mem_cons_self rfl).elim
    | lost => exact (unmet met (.got (.readResponse b) (.ok received)) (by simp) rfl).elim
    | response status body =>
      obtain rfl : received = ⟨status,body⟩ := eq_of_beq (met (.got (.readResponse b) (.ok received)) (by simp))
      exact ⟨⟨rfl,rfl,rfl⟩,rfl⟩

theorem headed_fate (met : meets (.response status body) (.got (.readHeader b) (.ok head)) = true) :
    head.status = status ∧ arrived head = body := by
  obtain ⟨code,text⟩ := (Bool.and_eq_true _ _).mp met
  exact ⟨eq_of_beq code,eq_of_beq text⟩

theorem streamed_fate (streamed : Streamed keepAlive b requestBody t sr s) (error : fate.Error)
    (met : ∀ event ∈ t, meets fate event) : Quiet (notes t) ∧ sr = fate.streamed ∧ s.headerStarted = false := by
  cases streamed with
  | unreachable =>
    rename_i fault
    cases fate with
    | unreachable => exact ⟨⟨rfl,rfl,rfl⟩,rfl,rfl⟩
    | lost | response => exact (unmet met (.got (.connect b) (.error fault)) List.mem_cons_self rfl).elim
  | unwritten =>
    rename_i fault
    cases fate with
    | lost => exact ⟨⟨rfl,rfl,rfl⟩,rfl,rfl⟩
    | unreachable => exact (unmet met (.got (.connect b) (.ok ())) List.mem_cons_self rfl).elim
    | response => exact (unmet met (.got (.writeRequest b requestBody) (.error fault)) (by simp) rfl).elim
  | unanswered =>
    rename_i fault
    cases fate with
    | lost => exact ⟨⟨rfl,rfl,rfl⟩,rfl,rfl⟩
    | unreachable => exact (unmet met (.got (.connect b) (.ok ())) List.mem_cons_self rfl).elim
    | response => exact (unmet met (.got (.readHeader b) (.error fault)) (by simp) rfl).elim
  | refused refusal only =>
    rename_i reads head
    cases fate with
    | unreachable => exact (unmet met (.got (.connect b) (.ok ())) List.mem_cons_self rfl).elim
    | lost => exact (unmet met (.got (.readHeader b) (.ok head)) (by simp) rfl).elim
    | response status body =>
      obtain ⟨rfl,rfl⟩ := headed_fate (met (.got (.readHeader b) (.ok head)) (by simp))
      refine ⟨?_,rfl,rfl⟩
      change Quiet (.dispatched b :: .headed b head :: notes reads)
      rw [readSome_unnoted only]
      exact ⟨rfl,rfl,rfl⟩
  | answered served flowed =>
    rename_i head body
    cases fate with
    | unreachable => exact (unmet met (.got (.connect b) (.ok ())) List.mem_cons_self rfl).elim
    | lost => exact (unmet met (.got (.readHeader b) (.ok head)) (by simp) rfl).elim
    | response status body =>
      obtain ⟨rfl,-⟩ := headed_fate (met (.got (.readHeader b) (.ok head)) (by simp))
      exact absurd error (Nat.not_le_of_lt served)

theorem concluded_runs (path : Runs (concluded env job labels b isProbe more) t result) :
    ∃ first verdict rest, t = first ++ rest ∧ Tried env job labels b isProbe more first verdict ∧
      match verdict with
      | .finish outcome => rest = [] ∧ result = some outcome
      | .next => (more = true ∧ rest = [] ∧ result = none) ∨
          (more = false ∧ ∃ outcome payload, result = some outcome ∧
            Answered labels job.keepAlive 503 (some payload) rest outcome) := by
  unfold concluded at path
  obtain ⟨first,verdict,rest,rfl,trying,ending⟩ := runs_bind.mp path
  refine ⟨first,verdict,rest,rfl,attempt_runs trying,?_⟩
  cases verdict with
  | finish outcome =>
    obtain ⟨rfl,rfl⟩ := runs_ret.mp ending
    exact ⟨rfl,rfl⟩
  | next =>
    cases more with
    | true =>
      obtain ⟨rfl,rfl⟩ := runs_ret.mp ending
      exact .inl ⟨rfl,rfl,rfl⟩
    | false =>
      obtain ⟨answering,outcome,last,rfl,responding,ended⟩ := runs_bind.mp ending
      obtain ⟨rfl,rfl⟩ := runs_ret.mp ended
      obtain ⟨payload,shown⟩ := errorJson_some env .noBackend "no eligible backend could serve the request"
      have answered := respond_runs responding
      rw [shown] at answered
      rw [List.append_nil]
      exact .inr ⟨rfl,outcome,payload,rfl,answered⟩

theorem failed_streamed {fate : Fate} (error : fate.Error) : failed fate.streamed = true := by
  cases fate with
  | unreachable | lost => rfl
  | response status body =>
    have error : 400 ≤ status := error
    simp [failed,Fate.streamed,error]

theorem surface_view (error : fate.Error) :
    failedView labels b isProbe false (if (surface env fate.streamed).2.isSome then [(surface env fate.streamed).1] else []) =
      streamView env labels b isProbe false fate := by
  have shown : (errorJson env .upstreamFailure (text "upstream connection failed") []).isSome :=
    Option.isSome_iff_exists.mpr (errorJson_some env _ _)
  cases fate with
  | unreachable | lost => simp [surface,Fate.streamed,streamView,shown]
  | response status body =>
    have error : 400 ≤ status := error
    simp [surface,Fate.streamed,streamView,relayed,error]

theorem stream_view (path : Runs (concluded env job labels b isProbe more) t result) (stream : job.creq.stream = true)
    (error : fate.Error) (met : ∀ event ∈ t, meets fate event) :
    view t result = streamView env labels b isProbe more fate := by
  obtain ⟨first,verdict,rest,rfl,tried,ending⟩ := concluded_runs path
  have early := (List.forall_mem_append.mp met).1
  cases tried with
  | unary plain => simp [stream] at plain
  | stream _ story =>
    cases story with
    | failedOver streamed unsent fails again =>
      obtain ⟨quiet,-,-⟩ := streamed_fate streamed error (List.forall_mem_append.mp early).1
      rcases ending with ⟨-,rfl,rfl⟩ | ⟨last,-⟩
      · rw [List.append_nil,again]
        cases fate <;> exact view_next quiet
      · simp [again] at last
    | surfaced streamed unsent fails last answered =>
      obtain ⟨rfl,rfl⟩ := ending
      rw [List.append_assoc] at early
      obtain ⟨quiet,rfl,-⟩ := streamed_fate streamed error (List.forall_mem_append.mp early).1
      rw [List.append_nil,last,view_failed quiet answered]
      exact surface_view error
    | unopened streamed unsent sound | emptied streamed unsent sound =>
      rw [List.append_assoc] at early
      obtain ⟨-,rfl,-⟩ := streamed_fate streamed error (List.forall_mem_append.mp early).1
      simp [failed_streamed error] at sound
    | abandoned streamed sent =>
      obtain ⟨-,-,unsent⟩ := streamed_fate streamed error early
      simp [unsent] at sent
    | truncated streamed sent | completed streamed sent =>
      rw [List.append_assoc] at early
      obtain ⟨-,-,unsent⟩ := streamed_fate streamed error (List.forall_mem_append.mp early).1
      simp [unsent] at sent

theorem unary_view (path : Runs (concluded env job labels b isProbe more) t result) (plain : job.creq.stream = false)
    (error : fate.Error) (met : ∀ event ∈ t, meets fate event) :
    view t result = unaryView env labels b isProbe more fate := by
  obtain ⟨first,verdict,rest,rfl,tried,ending⟩ := concluded_runs path
  have early := (List.forall_mem_append.mp met).1
  cases tried with
  | stream stream => simp [plain] at stream
  | unary _ story =>
    cases story with
    | unreachable posted unconnected =>
      obtain ⟨quiet,rfl⟩ := posted_fate posted (List.forall_mem_append.mp early).1
      cases fate with
      | lost | response => cases unconnected
      | unreachable =>
        rcases ending with ⟨again,rfl,rfl⟩ | ⟨last,outcome,payload,rfl,answered⟩
        · rw [List.append_nil,again]
          exact view_next quiet
        · rw [last]
          exact view_failed quiet answered
    | failedOver posted _ failing again =>
      obtain ⟨quiet,rfl⟩ := posted_fate posted (List.forall_mem_append.mp early).1
      rcases ending with ⟨-,rfl,rfl⟩ | ⟨last,-⟩
      · cases fate with
        | unreachable | lost => cases failing
        | response status body =>
          have server : 500 ≤ status := failing
          rw [List.append_nil,again,unaryView_server server]
          exact view_next quiet
      · simp [again] at last
    | surfaced posted _ failing last answered =>
      obtain ⟨rfl,rfl⟩ := ending
      rw [List.append_assoc] at early
      obtain ⟨quiet,rfl⟩ := posted_fate posted (List.forall_mem_append.mp early).1
      cases fate with
      | unreachable | lost => cases failing
      | response status body =>
        have server : 500 ≤ status := failing
        rw [List.append_nil,last,unaryView_server server]
        exact view_failed quiet answered
    | relayedError posted _ served refused answered =>
      obtain ⟨rfl,rfl⟩ := ending
      rw [List.append_assoc] at early
      obtain ⟨quiet,rfl⟩ := posted_fate posted (List.forall_mem_append.mp early).1
      cases fate with
      | unreachable | lost => cases refused
      | response status body =>
        have client : status < 500 := served
        rw [List.append_nil,unaryView_client client]
        exact view_served quiet answered
    | relayed posted connected served answered =>
      obtain ⟨rfl,rfl⟩ := ending
      rw [List.append_assoc] at early
      obtain ⟨quiet,rfl⟩ := posted_fate posted (List.forall_mem_append.mp early).1
      cases fate with
      | unreachable => cases connected
      | lost =>
        rw [List.append_nil]
        exact view_served quiet answered
      | response status body => exact absurd error (Nat.not_le_of_lt served)

theorem paths_agree (fate : Fate) (error : fate.Error) (streaming plain : Job) (stream : streaming.creq.stream = true)
    (unary : plain.creq.stream = false) (one : Runs (concluded env streaming labels b isProbe more) t result)
    (other : Runs (concluded env plain labels b isProbe more) t' result') (met : ∀ event ∈ t, meets fate event)
    (met' : ∀ event ∈ t', meets fate event) :
    view t result = view t' result' ↔
      (fate = .unreachable ∧ more = true) ∨ ∃ status body, fate = .response status body ∧ 500 ≤ status := by
  rw [stream_view one stream error met,unary_view other unary error met']
  exact views_agree env labels b isProbe more fate

end Paths

section Sample
open Fleet

def answering (fate : Fate) : (point : Wait) → point.Answer
  | .connect _ => if fate = .unreachable then .error .failed else .ok ()
  | .readHeader _ =>
    match fate with
    | .response status body => .ok ⟨status,false,[{block := body,done := true}]⟩
    | _ => .error .failed
  | .readResponse _ =>
    match fate with
    | .response status body => .ok ⟨status,body⟩
    | _ => .error .failed
  | point => refusing point

def sampleJob (stream : Bool) : Job := ⟨⟨text "m",[],stream,.null⟩,true,0,[]⟩

def fated (fate : Fate) (stream more : Bool) : Option (Trace × Option Outcome) :=
  solo (host (sampleEnv ["a"])) 0 (healthy (sampleEnv ["a"]) 0)
    (concluded (sampleEnv ["a"]) (sampleJob stream) {route := text "chat_completions"} 0 false more)
    (List.replicate 5 (answering fate))

theorem fated_runs (fate : Fate) (stream more : Bool) (seen : View)
    (shown : (fated fate stream more).map (fun out => (out.1.all (meets fate),view out.1 out.2)) =
      some (true,seen)) :
    ∃ t result, Runs (concluded (sampleEnv ["a"]) (sampleJob stream) {route := text "chat_completions"} 0 false more) t result ∧
      (∀ event ∈ t, meets fate event) ∧ view t result = seen := by
  obtain ⟨⟨t,result⟩,ran,same⟩ := Option.map_eq_some_iff.mp shown
  obtain ⟨met,rfl⟩ := Prod.mk.inj same
  exact ⟨t,result,solo_runs _ ran,List.all_eq_true.mp met,rfl⟩

theorem paths_agree_unavailable : ∃ t result t' result',
    Runs (concluded (sampleEnv ["a"]) (sampleJob true) {route := text "chat_completions"} 0 false false) t result ∧
    Runs (concluded (sampleEnv ["a"]) (sampleJob false) {route := text "chat_completions"} 0 false false) t' result' ∧
    (view t result).status = [503] ∧ view t result = view t' result' := by
  let seen := failedView {route := text "chat_completions"} 0 false false [503]
  obtain ⟨t,result,one,met,shown⟩ := fated_runs (.response 503 (text "busy")) true false seen (by decide +kernel)
  obtain ⟨t',result',other,met',-⟩ := fated_runs (.response 503 (text "busy")) false false seen (by decide +kernel)
  refine ⟨t,result,t',result',one,other,by rw [shown]; rfl,?_⟩
  have same := paths_agree (.response 503 (text "busy")) (Nat.le_add_right 400 103) _ _ rfl rfl one other met met'
  exact same.mpr (.inr ⟨503,_,rfl,by decide⟩)

-- The streaming run comes first: a connection that is lost, a backend that
-- cannot be reached, and a 404 while another backend is left.
theorem paths_diverge :
    ((∃ t, Runs (handleChat (sampleEnv ["a"]) (chatRequest true)) t (.returned true) ∧
        (reports (notes t),statuses (notes t)) = ([(0,.failure,false)],[502])) ∧
      ∃ t, Runs (handleChat (sampleEnv ["a"]) (chatRequest false)) t (.returned true) ∧
        (reports (notes t),statuses (notes t)) = ([(0,.success,false)],[200])) ∧
    ((∃ t, Runs (handleChat (sampleEnv ["a"]) (chatRequest true)) t (.returned true) ∧ statuses (notes t) = [502]) ∧
      ∃ t, Runs (handleChat (sampleEnv ["a"]) (chatRequest false)) t (.returned true) ∧ statuses (notes t) = [503]) ∧
    ((∃ t, Runs (handleChat (sampleEnv ["a","b"]) (chatRequest true)) t (.returned true) ∧
        (dispatches (notes t),(reports (notes t)).head?) = ([0,1],some (0,.failure,false))) ∧
      ∃ t, Runs (handleChat (sampleEnv ["a","b"]) (chatRequest false)) t (.returned true) ∧
        (dispatches (notes t),(reports (notes t)).head?) = ([0],some (0,.success,false))) := by
  refine ⟨⟨?_,?_⟩,⟨?_,?_⟩,⟨?_,?_⟩⟩
  · exact alone_runs 0 (List.replicate 4 (answering .lost)) (fun t => (reports (notes t),statuses (notes t)))
      (by decide +kernel)
  · exact alone_runs 0 (List.replicate 4 (answering .lost)) (fun t => (reports (notes t),statuses (notes t)))
      (by decide +kernel)
  · exact alone_runs 0 (List.replicate 2 (answering .unreachable)) (fun t => statuses (notes t)) (by decide +kernel)
  · exact alone_runs 0 (List.replicate 2 (answering .unreachable)) (fun t => statuses (notes t)) (by decide +kernel)
  · exact alone_runs 0 (List.replicate 9 (answering (.response 404 (text "no"))))
      (fun t => (dispatches (notes t),(reports (notes t)).head?)) (by decide +kernel)
  · exact alone_runs 0 (List.replicate 9 (answering (.response 404 (text "no"))))
      (fun t => (dispatches (notes t),(reports (notes t)).head?)) (by decide +kernel)

end Sample
end Kvmux.Mirror
