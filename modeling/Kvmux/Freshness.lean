import Mathlib.Data.List.Basic
import Kvmux.Failover
import Kvmux.Fleet

namespace Kvmux.Freshness
open Coroutine Gateway Streaming Attempt Handling Failover Fleet Transition

def observed (s : State) (b : Nat) : Option HealthState := s.backends[b]?.map Backend.observedHealth

section Health

theorem exec_health (i : Nat) (op : Op) (s : State) :
    (exec i op s).2.backends.map Backend.observedHealth = s.backends.map Backend.observedHealth := by
  cases op with
  | observedHealth b | load b | allowRequest b | report b | tryAcquire b | releaseSlot b =>
    exact onBackend_kept _ s b _ _ fun _ => rfl
  | _ => rfl

theorem observed_map (s : State) (b : Nat) : observed s b = (s.backends.map Backend.observedHealth)[b]? :=
  (List.getElem?_map ..).symm

theorem exec_observed (i : Nat) (op : Op) (s : State) (b : Nat) : observed (exec i op s).2 b = observed s b := by
  rw [observed_map,observed_map,exec_health]

theorem settle_observed (i : Nat) (s : State) (p : Prog Exit) (b : Nat) :
    observed (settle (host env) i s p).1 b = observed s b := by
  induction p generalizing s with
  | ret value => rfl
  | wait point next _ => rfl
  | act action next ih => exact (ih _ _).trans (exec_observed i action s b)

theorem exec_seen (i : Nat) (healthy : (exec i (.observedHealth b) s).1 = .healthy) : observed s b = some .healthy := by
  cases known : s.backends[b]? with
  | none =>
    have dead := congrArg Prod.fst (onBackend_absent known HealthState.dead fun backend => (backend.observedHealth,backend))
    cases dead.symm.trans healthy
  | some backend =>
    have own := congrArg Prod.fst (onBackend_changed known HealthState.dead fun backend => (backend.observedHealth,backend))
    rw [observed,known]
    exact congrArg some (own.symm.trans healthy)

-- A backend that is seen healthy in an uninterrupted step is so at its end.
theorem settle_seen (seen : .did (.observedHealth b) .healthy ∈ (settle (host env) i s p).2.1) :
    observed (settle (host env) i s p).1 b = some .healthy := by
  induction p generalizing s with
  | ret value => cases seen
  | wait point next _ => cases seen
  | act action next ih =>
    rcases List.mem_cons.mp seen with first | later
    · rw [settle_observed]
      injection first with named reply
      subst named
      exact exec_seen i (eq_of_heq reply).symm
    · exact ih _ later

end Health
section Dispatch
variable {env : Env} {w next : Gateways} {action : Action Request Happening Wait.Answer} {call : Call} {i b : Nat}

-- The backend that a request is just being sent to.
def connecting : Prog Exit → List Nat
  | .wait (.connect b) _ => [b]
  | _ => []

def tried (call : Call) : List Nat := dispatches (notes call.trace) ++ connecting call.code

-- A request that may still be sent to a backend on the strength of an earlier look.
-- A backend that was tried is out of the question, unless the order names it again.
structure CountsOn (call : Call) (b : Nat) : Prop where
  unfinished : ¬Finished call
  left : (tried call).length < maxAttempts
  unsent : sent (notes call.trace) = []
  seen : .did (.observedHealth b) .healthy ∈ call.trace
  again : b ∈ tried call → ∃ more next, more ≠ [] ∧ Path call.code more (.wait (.connect b) next)

-- No backend leaves the healthy state while a request counts on it.
def Calm (w : Gateways) : Action Request Happening Wait.Answer → Prop
  | .surround event => ∀ call ∈ w.threads, ∀ b, CountsOn call b → observed w.shared b = some .healthy →
      observed (happen event w.shared) b = some .healthy
  | _ => True

def Current (w : Gateways) : Prop := ∀ call ∈ w.threads, ∀ b, CountsOn call b → observed w.shared b = some .healthy

-- The request that an action lets run.
def moved (w : Gateways) : Action Request Happening Wait.Answer → Option Nat
  | .spawn _ => some w.threads.length
  | .resume i _ => some i
  | .surround _ => none

theorem tried_later (request : Request) (trace more : Trace) {point : Wait} (answer : point.Answer)
    (rest : point.Answer → Prog Exit) :
    tried ⟨request,trace,.wait point rest⟩ <+: dispatches (notes (trace ++ .got point answer :: more)) := by
  have begun : connecting (.wait point rest) <+: dispatches (notes (.got point answer :: more)) := by
    cases point with
    | connect b => exact List.prefix_append [b] _
    | _ => exact List.nil_prefix
  rw [notes_append,dispatches_append]
  exact List.prefix_append_right_inj _ |>.mpr begun

-- Where a resumed request stood before.
theorem CountsOn.earlier {point : Wait} {answer : point.Answer} {rest : point.Answer → Prog Exit}
    (left : (dispatches (notes (trace ++ .got point answer :: more))).length < maxAttempts)
    (unsent : sent (notes (trace ++ .got point answer :: more)) = []) (seen : .did (.observedHealth b) .healthy ∈ trace)
    (again : b ∈ dispatches (notes (trace ++ .got point answer :: more)) →
      ∃ later next, Path (rest answer) later (.wait (.connect b) next)) :
    CountsOn ⟨request,trace,.wait point rest⟩ b := by
  have before := tried_later request trace more answer rest
  refine ⟨?_,Nat.lt_of_le_of_lt before.length_le left,?_,seen,fun member => ?_⟩
  · rintro ⟨exit,ended⟩
    cases ended
  · rw [notes_append,sent_append] at unsent
    exact (List.append_eq_nil_iff.mp unsent).1
  · obtain ⟨later,next,path⟩ := again (before.subset member)
    exact ⟨.got point answer :: later,next,List.cons_ne_nil _ _,.wait path⟩

-- The request that ran: what it has seen healthy is healthy, unless it has tried enough or sent something.
theorem moved_current (current : Current w) (ran : advance (host env) w action = some next) (moves : moved w action = some i)
    (found : next.threads[i]? = some call) (left : (dispatches (notes call.trace)).length < maxAttempts)
    (unsent : sent (notes call.trace) = []) (seen : .did (.observedHealth b) .healthy ∈ call.trace)
    (again : b ∈ dispatches (notes call.trace) → ∃ more next, Path call.code more (.wait (.connect b) next)) :
    observed next.shared b = some .healthy := by
  obtain ⟨request,rfl,rfl⟩ | ⟨j,answers,request,trace,point,rest,rfl,waits,rfl⟩ | ⟨event,rfl,rfl⟩ :=
    advance_cases (host env) ran
  · cases moves
    rw [List.getElem?_append_right (Nat.le_refl _),Nat.sub_self] at found
    cases found
    exact settle_seen seen
  · cases moves
    have inside : i < w.threads.length := (List.getElem?_eq_some_iff.mp waits).1
    rw [List.getElem?_set_self inside] at found
    cases found
    rcases List.mem_append.mp seen with old | new
    · rw [settle_observed]
      refine current _ (List.mem_of_getElem? waits) b (.earlier left unsent old fun member => ?_)
      obtain ⟨more,next,path⟩ := again member
      exact ⟨_,next,(settle_path (host env) i w.shared (rest (answers point))).trans path⟩
    · rcases List.mem_cons.mp new with got | later
      · cases got
      · exact settle_seen later
  · cases moves

theorem current_step (current : Current w) (calm : Calm w action) (ran : advance (host env) w action = some next) :
    Current next := by
  intro call member b counts
  have left : (dispatches (notes call.trace)).length < maxAttempts := by
    have few := counts.left
    rw [tried,List.length_append] at few
    omega
  have own : ∀ {i}, moved w action = some i → next.threads[i]? = some call → observed next.shared b = some .healthy :=
    fun moves found => moved_current current ran moves found left counts.unsent counts.seen fun member => by
      obtain ⟨more,next,-,path⟩ := counts.again (List.mem_append_left _ member)
      exact ⟨more,next,path⟩
  obtain ⟨request,rfl,rfl⟩ | ⟨i,answers,request,trace,point,rest,rfl,waits,rfl⟩ | ⟨event,rfl,rfl⟩ :=
    advance_cases (host env) ran
  · rcases List.mem_append.mp member with old | new
    · rw [settle_observed]
      exact current call old b counts
    · cases List.mem_singleton.mp new
      exact own rfl (by simp)
  · rcases List.mem_or_eq_of_mem_set member with old | rfl
    · rw [settle_observed]
      exact current call old b counts
    · exact own rfl (List.getElem?_set_self (List.getElem?_eq_some_iff.mp waits).1)
  · exact calm call member b counts (current call member b counts)

theorem reached_current (path : Reachable env Calm w) : Current w := by
  apply reached_invariant Current _ _ path
  · exact fun _ member => absurd member List.not_mem_nil
  · exact fun _ _ _ current calm ran => current_step current calm ran

theorem connecting_waits {code : Prog Exit} (dispatching : connecting code = [b]) : ∃ rest, code = .wait (.connect b) rest := by
  cases code with
  | wait point rest =>
    cases point with
    | connect c =>
      cases List.head_eq_of_cons_eq dispatching
      exact ⟨rest,rfl⟩
    | _ => cases dispatching
  | _ => cases dispatching

-- A request on its way to a backend fits the backend, and it is the last that this request tries or the last but one.
theorem connecting_fit (path : Path (handleChat env req) trace code) (dispatching : connecting code = [b]) :
    Fit env req trace b ∧ (dispatches (notes trace)).length < maxAttempts := by
  obtain ⟨rest,rfl⟩ := connecting_waits dispatching
  -- The path is completed to a run, and the run says what was true at the connect.
  obtain ⟨more,exit,ends⟩ := completes (fun op => (exec 0 op (construct env.cfg)).1) refusing (rest (.ok ()))
  have handled : Handled env req (trace ++ .got (.connect b) (.ok ()) :: more) exit :=
    handleChat_runs (path.trans (.wait ends))
  have few := (handled_dispatches handled).1
  rw [notes_append,dispatches_append,List.length_append] at few
  change _ + (dispatches (notes more)).length.succ ≤ _ at few
  exact ⟨(handled_fit handled).at_split,by omega⟩

theorem dispatched_healthy (path : Reachable env Calm w) (ran : advance (host env) w action = some next)
    (moves : moved w action = some i) (found : next.threads[i]? = some call) (dispatching : connecting call.code = [b]) :
    observed next.shared b = some .healthy := by
  have calm : Calm w action := by
    cases action with
    | surround event => cases moves
    | _ => trivial
  have own := reached_path (host env) (path.take action calm ran) call (List.mem_of_getElem? found)
  obtain ⟨fit,left⟩ := connecting_fit own dispatching
  refine moved_current (reached_current path) ran moves found left fit.unsent fit.offered.2 fun _ => ?_
  obtain ⟨rest,here⟩ := connecting_waits dispatching
  exact ⟨[],rest,here ▸ .here⟩

-- A probe that finds a backend healthy disturbs nobody.
theorem probed_healthy_calm (w : Gateways) (c : Nat) : Calm w (.surround (.probed c .healthy)) := by
  intro call _ b _ healthy
  change observed (onBackend w.shared c () fun backend => ((),{backend with health := .healthy})).2 b = _
  cases known : w.shared.backends[c]? with
  | none =>
    rw [onBackend_absent known]
    exact healthy
  | some backend =>
    rw [onBackend_changed known]
    unfold observed at healthy ⊢
    by_cases same : c = b
    · subst same
      have inside := (List.getElem?_eq_some_iff.mp known).1
      rw [List.getElem?_set_self inside]
      rw [known] at healthy
      cases forced : backend.forcedHealth with
      | none => simp [Backend.observedHealth]
      | some state => simpa [Backend.observedHealth,forced] using healthy
    · rw [List.getElem?_set_ne same]
      exact healthy

-- Two healthy backends, a request on its way to the first of them, and one more probe of the second.
def probedAgain (found : HealthState) : List (Action Request Happening Wait.Answer) :=
  [.surround (.probed 0 .healthy),.surround (.probed 1 .healthy),.spawn (chatRequest false),.surround (.probed 1 found)]

def retried (found : HealthState) : Option (List Nat × Option HealthState) :=
  (run (advance (host (sampleEnv ["a","b"]))) (opening (sampleEnv ["a","b"])) (probedAgain found)).bind fun w =>
    (advance (host (sampleEnv ["a","b"])) w (.resume 0 refusing)).bind fun next =>
      next.threads[0]?.map fun call => (connecting call.code,observed next.shared 1)

theorem retried_run (shown : retried found = some (backends,health)) : ∃ w next call,
    run (advance (host (sampleEnv ["a","b"]))) (opening (sampleEnv ["a","b"])) (probedAgain found) = some w ∧
    advance (host (sampleEnv ["a","b"])) w (.resume 0 refusing) = some next ∧ next.threads[0]? = some call ∧
    connecting call.code = backends ∧ observed next.shared 1 = health := by
  unfold retried at shown
  obtain ⟨w,reached,shown⟩ := Option.bind_eq_some_iff.mp shown
  obtain ⟨next,ran,shown⟩ := Option.bind_eq_some_iff.mp shown
  obtain ⟨call,found,shown⟩ := Option.map_eq_some_iff.mp shown
  obtain ⟨same,healthy⟩ := Prod.mk.inj shown
  exact ⟨w,next,call,reached,ran,found,same,healthy⟩

theorem dispatched_healthy_retry : ∃ w next call, Reachable (sampleEnv ["a","b"]) Calm w ∧
    advance (host (sampleEnv ["a","b"])) w (.resume 0 refusing) = some next ∧ next.threads[0]? = some call ∧
    connecting call.code = [1] ∧ observed next.shared 1 = some .healthy := by
  have shown : (retried .healthy).map Prod.fst = some [1] := by decide +kernel
  obtain ⟨⟨_,health⟩,shown,rfl⟩ := Option.map_eq_some_iff.mp shown
  obtain ⟨w,next,call,reached,ran,found,dispatching,-⟩ := retried_run shown
  have calm : ∀ v, ∀ action ∈ probedAgain .healthy, Calm v action := by
    intro v action member
    simp only [probedAgain,List.mem_cons,List.not_mem_nil,or_false] at member
    rcases member with rfl | rfl | rfl | rfl
    · exact probed_healthy_calm v 0
    · exact probed_healthy_calm v 1
    · trivial
    · exact probed_healthy_calm v 1
  have path : Reachable (sampleEnv ["a","b"]) Calm w := run_meets .initial calm reached
  exact ⟨w,next,call,path,ran,found,dispatching,dispatched_healthy path ran rfl found dispatching⟩

-- The second backend dies while the first is tried, and the retry is sent to it all the same.
theorem retry_sent_to_dead : ∃ w next call, Reachable (sampleEnv ["a","b"]) Any w ∧
    advance (host (sampleEnv ["a","b"])) w (.resume 0 refusing) = some next ∧ next.threads[0]? = some call ∧
    connecting call.code = [1] ∧ observed next.shared 1 = some .dead := by
  have shown : retried .dead = some ([1],some .dead) := by decide +kernel
  obtain ⟨w,next,call,reached,ran,found,dispatching,health⟩ := retried_run shown
  exact ⟨w,next,call,run_reached .initial reached,ran,found,dispatching,health⟩

end Dispatch
end Kvmux.Freshness
