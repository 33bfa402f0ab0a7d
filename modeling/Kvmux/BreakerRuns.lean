import Mathlib.Data.List.Basic
import Kvmux.CircuitBreaker
import Kvmux.Transition

namespace Kvmux.BreakerRuns
open CircuitBreaker Transition

-- Overlapping requests over one breaker. `waiting` holds the admitted requests
-- that have not reported, each with the flag its own allow_request returned.
structure Overlap where
  breaker : Breaker
  now : Int
  issued : Nat
  waiting : List (Nat × Bool)
  deriving DecidableEq, Repr

inductive Call where
  | tick (elapsed : Nat)
  | allow
  | report (request : Nat) (report : Report)
  deriving DecidableEq, Repr

def start (threshold : Nat) (window : Int) : Overlap :=
  ⟨{failureThreshold := threshold,openWindow := window},0,0,[]⟩

def enlist (s : Overlap) (decision : Decision) : List (Nat × Bool) :=
  if decision.allowed then (s.issued,decision.isProbe) :: s.waiting else s.waiting

def step (s : Overlap) : Call → Option Overlap
  | .tick elapsed => some {s with now := s.now + elapsed}
  | .allow =>
    let out := allowRequest s.breaker s.now
    some {s with breaker := out.2,issued := s.issued + 1,waiting := enlist s out.1}
  | .report request report =>
    match s.waiting.lookup request with
    | none => none
    | some isProbe => some {s with
        breaker := settleReport s.breaker s.now report isProbe
        waiting := s.waiting.erase (request,isProbe)}

theorem report_cases (ran : step s (.report request report) = some next) :
    ∃ flag, s.waiting.lookup request = some flag ∧ next = {s with
      breaker := settleReport s.breaker s.now report flag
      waiting := s.waiting.erase (request,flag)} := by
  simp only [step] at ran
  split at ran
  · cases ran
  · rename_i flag found
    exact ⟨flag,found,(Option.some.inj ran).symm⟩

-- Requests admitted as the probe that have not reported yet.
def probes (s : Overlap) : Nat := s.waiting.countP (fun entry => entry.2)

-- No request admitted before the trip reports a result into a half-open breaker.
def Timely (s : Overlap) : Call → Prop
  | .report request report =>
    s.waiting.lookup request = some false → report ≠ .abort → s.breaker.state ≠ .halfOpen
  | _ => True

theorem lookup_mem {waiting : List (Nat × Bool)} (found : waiting.lookup request = some flag) :
    (request,flag) ∈ waiting := by
  induction waiting with
  | nil => simp at found
  | cons entry rest ih =>
    rw [List.lookup_cons] at found
    split at found
    · rename_i same
      cases Option.some.inj found
      simp [eq_of_beq same]
    · exact List.mem_cons_of_mem _ (ih found)

-- A report takes its own entry out of the count, and nothing else.
theorem erase_probes {waiting : List (Nat × Bool)} (found : waiting.lookup request = some flag) :
    (waiting.erase (request,flag)).countP (fun entry => entry.2) =
      waiting.countP (fun entry => entry.2) - flag.toNat := by
  have split := List.perm_cons_erase (lookup_mem found)
  have count := split.countP_eq (fun entry => entry.2)
  cases flag <;> simp at count ⊢ <;> omega

theorem probe_counted {waiting : List (Nat × Bool)} (found : waiting.lookup request = some true) :
    0 < waiting.countP (fun entry => entry.2) :=
  List.countP_pos_iff.mpr ⟨_,lookup_mem found,rfl⟩

def Single (s : Overlap) : Prop := probes s = if s.breaker.state = .halfOpen then 1 else 0

theorem single_tick (valid : Single s) (ran : step s (.tick elapsed) = some next) : Single next := by
  cases Option.some.inj ran
  exact valid

theorem single_allow (valid : Single s) (ran : step s .allow = some next) : Single next := by
  cases Option.some.inj ran
  unfold Single probes at valid ⊢
  rcases allow_cases s.breaker s.now with ⟨out,closed⟩ | ⟨out,opened,_⟩ | ⟨out,_⟩
  · simpa [out,enlist,closed] using valid
  · simp only [opened,reduceCtorEq,if_false] at valid
    simp [out,enlist,valid]
  · simpa [out,enlist] using valid

theorem single_report (valid : Single s) (timely : Timely s (.report request report))
    (ran : step s (.report request report) = some next) : Single next := by
  obtain ⟨flag,found,rfl⟩ := report_cases ran
  unfold Single probes at valid ⊢
  dsimp only
  rw [erase_probes found]
  cases flag with
  | true =>
    -- The probe itself: it was the one counted, and its report leaves half-open.
    have counted := probe_counted found
    have settled := probe_settles s.breaker s.now report
    split at valid
    · simp [valid,settled]
    · omega
  | false =>
    by_cases aborted : report = .abort
    · subst report
      simpa [settleReport,abortProbe] using valid
    · have early := timely found aborted
      have stays : (settleReport s.breaker s.now report false).state ≠ .halfOpen :=
        fun promoted => early (report_never_promotes promoted)
      simpa [early,stays] using valid

theorem single_preserved (s : Overlap) (call : Call) (next : Overlap) (valid : Single s)
    (timely : Timely s call) (ran : step s call = some next) : Single next := by
  cases call with
  | tick elapsed => exact single_tick valid ran
  | allow => exact single_allow valid ran
  | report request report => exact single_report valid timely ran

theorem reached_single (path : Reached step Timely (start threshold window) s) : Single s :=
  reached_invariant Single (by simp [Single,probes,start]) single_preserved path

-- The condition is exact. Once a late report has moved the breaker while the
-- probe is out, a second probe is admitted in some continuation of the run.
theorem opened_second (out : 0 < probes s) (opened : s.breaker.state = .opened) :
    ∃ calls next, run step s calls = some next ∧ 2 ≤ probes next := by
  obtain ⟨elapsed,enough⟩ : ∃ elapsed : Nat, s.breaker.openWindow - (s.now - s.breaker.openedAt) ≤ (elapsed : Int) :=
    ⟨_,Int.self_le_toNat _⟩
  have window : s.now + elapsed - s.breaker.openedAt ≥ s.breaker.openWindow := by
    omega
  have promoted : allowRequest s.breaker (s.now + elapsed) =
      (⟨true,true⟩,{s.breaker with state := .halfOpen}) := by
    simp only [allowRequest,opened,if_pos window]
  refine ⟨[.tick elapsed,.allow],_,run_cons rfl (run_cons rfl rfl),?_⟩
  change 2 ≤ (enlist _ (allowRequest s.breaker (s.now + elapsed)).1).countP (fun entry => entry.2)
  rw [promoted]
  simp only [enlist,if_true,List.countP_cons_of_pos]
  exact Nat.succ_le_succ out

-- One more request on a closed breaker: admitted, then failed.
theorem closed_failure (closed : s.breaker.state = .closed) :
    run step s [.allow,.report s.issued .failure] =
      some {s with breaker := onFailure s.breaker s.now false,issued := s.issued + 1} := by
  simp [run,step,allowRequest,closed,enlist,settleReport]

theorem closed_second (out : 0 < probes s) (closed : s.breaker.state = .closed) :
    ∃ calls next, run step s calls = some next ∧ 2 ≤ probes next := by
  generalize gap : s.breaker.failureThreshold - s.breaker.consecutiveFailures = room
  induction room using Nat.strongRecOn generalizing s with
  | ind room ih =>
    have failed := closed_failure closed
    by_cases trips : s.breaker.consecutiveFailures + 1 ≥ s.breaker.failureThreshold
    · obtain ⟨calls,next,ran,two⟩ := opened_second
        (s := {s with breaker := onFailure s.breaker s.now false,issued := s.issued + 1}) out
        (by simp [onFailure,closed,trips])
      exact ⟨_,next,run_append failed ran,two⟩
    · obtain ⟨calls,next,ran,two⟩ := ih (room - 1) (by omega)
        (s := {s with breaker := onFailure s.breaker s.now false,issued := s.issued + 1}) out
        (by simp [onFailure,closed,trips]) (by simp [onFailure,closed,trips]; omega)
      exact ⟨_,next,run_append failed ran,two⟩

-- In half-open the failure count still stands at the threshold, so a late
-- failure always re-opens; this is what the count remembers of the last trip.
def Tripped (s : Overlap) : Prop :=
  s.breaker.state ≠ .closed → s.breaker.failureThreshold ≤ s.breaker.consecutiveFailures

theorem single_probe_half (single : Single s) (found : s.waiting.lookup request = some true) :
    s.breaker.state = .halfOpen := by
  have counted := probe_counted found
  by_contra other
  simp only [Single,probes,if_neg other] at single
  omega

theorem tripped_report (valid : Tripped s) (single : Single s)
    (ran : step s (.report request report) = some next) : Tripped next := by
  obtain ⟨flag,found,rfl⟩ := report_cases ran
  unfold Tripped at valid ⊢
  cases flag with
  | true =>
    have half := single_probe_half single found
    have count := valid (by simp [half])
    cases report <;> simp [settleReport,onSuccess,onFailure,abortProbe,count]
  | false =>
    cases report with
    | success => simp [settleReport,onSuccess]
    | abort => simpa [settleReport,abortProbe] using valid
    | failure =>
      simp only [settleReport,onFailure,Bool.false_eq_true,if_false]
      split
      · exact valid
      · split
        · intro _; assumption
        · intro live
          have := valid live
          simp only
          omega

theorem tripped_allow (valid : Tripped s) (ran : step s .allow = some next) : Tripped next := by
  cases Option.some.inj ran
  unfold Tripped at valid ⊢
  rcases allow_cases s.breaker s.now with ⟨out,_⟩ | ⟨out,opened,_⟩ | ⟨out,_⟩
  · simpa [out] using valid
  · simpa [out,opened] using valid
  · simpa [out] using valid

theorem reached_tripped (path : Reached step Timely (start threshold window) s) : Single s ∧ Tripped s := by
  refine reached_invariant (fun s => Single s ∧ Tripped s)
    ⟨by simp [Single,probes,start],by simp [Tripped,start]⟩ ?_ path
  intro s call next valid timely ran
  refine ⟨single_preserved s call next valid.1 timely ran,?_⟩
  cases call with
  | tick elapsed => cases Option.some.inj ran; exact valid.2
  | allow => exact tripped_allow valid.2 ran
  | report request report => exact tripped_report valid.2 valid.1 ran

theorem late_second (single : Single s) (tripped : Tripped s) (late : ¬ Timely s call)
    (ran : step s call = some next) : ∃ calls last, run step next calls = some last ∧ 2 ≤ probes last := by
  cases call with
  | tick elapsed => exact absurd True.intro late
  | allow => exact absurd True.intro late
  | report request report =>
    simp only [Timely,Classical.not_imp,not_not] at late
    obtain ⟨found,result,half⟩ := late
    simp only [step,found,Option.some.injEq] at ran
    subst next
    simp only [Single,if_pos half] at single
    have out : 0 < (s.waiting.erase (request,false)).countP (fun entry => entry.2) := by
      rw [erase_probes found]
      change 0 < probes s - 0
      omega
    cases report with
    | abort => exact absurd rfl result
    | success => exact closed_second out rfl
    | failure =>
      have reopened : s.breaker.consecutiveFailures + 1 ≥ s.breaker.failureThreshold := by
        have := tripped (by simp [half])
        omega
      exact opened_second out (by simp [settleReport,onFailure,half,reopened])

-- With no late report at most one probe is out in every state reached; and the
-- first late report of a run always leaves room for a second one.
theorem single_probe (threshold : Nat) (window : Int) :
    (∀ s, Reached step Timely (start threshold window) s → probes s ≤ 1) ∧
    (∀ s call next, Reached step Timely (start threshold window) s → ¬ Timely s call →
      step s call = some next → ∃ calls last, run step next calls = some last ∧ 2 ≤ probes last) := by
  constructor
  · intro s path
    have single := reached_single path
    unfold Single at single
    split at single <;> omega
  · intro s call next path late ran
    obtain ⟨single,tripped⟩ := reached_tripped path
    exact late_second single tripped late ran

-- Threshold 1: request 0 stays out while request 1 trips the breaker; request 2
-- is the probe when request 0 fails late, and request 3 becomes a second probe.
def lateRun : List Call :=
  [.allow,.allow,.report 1 .failure,.tick 10,.allow,.report 0 .failure,.tick 10,.allow]

theorem late_failure_two_probes :
    ∃ s, Reached step Any (start 1 10) s ∧ ¬ probes s ≤ 1 :=
  ⟨_,run_reached .initial (show run step (start 1 10) lateRun = some _ from rfl),by decide⟩

theorem single_probe_trip :
    ∃ s, Reached step Timely (start 1 10) s ∧ s.breaker.state = .halfOpen ∧ probes s ≤ 1 := by
  have reached : Reached step Timely (start 1 10)
      ⟨⟨1,10,.halfOpen,1,0⟩,10,2,[(1,true)]⟩ :=
    (((Reached.initial.take .allow True.intro rfl).take (.report 0 .failure) (fun _ _ => by decide) rfl).take
      (.tick 10) True.intro rfl).take .allow True.intro rfl
  exact ⟨_,reached,rfl,(single_probe 1 10).1 _ reached⟩

end Kvmux.BreakerRuns
