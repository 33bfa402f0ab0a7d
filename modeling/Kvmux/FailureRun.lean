import Mathlib.Data.List.Induction
import Kvmux.CircuitBreaker

namespace Kvmux.FailureRun
open CircuitBreaker

inductive Call where
  | allow
  | report (report : Report) (isProbe : Bool)
  deriving DecidableEq, Repr

def build (threshold : Nat) (window : Int) : Breaker := {failureThreshold := threshold,openWindow := window}

-- One call, with what the clock shows when it is made. Flags and times are
-- arbitrary: a report need not belong to an admission, and time may go back.
def call (b : Breaker) (made : Int × Call) : Breaker :=
  match made.2 with
  | .allow => (allowRequest b made.1).2
  | .report report isProbe => settleReport b made.1 report isProbe

def after (threshold : Nat) (window : Int) (calls : List (Int × Call)) : Breaker := calls.foldl call (build threshold window)

def succeeds : Call → Bool
  | .report .success _ => true
  | _ => false

def fails : Call → Bool
  | .report .failure _ => true
  | _ => false

-- The failures reported since the last success, or since construction.
def failuresSince (calls : List (Int × Call)) : Nat :=
  (calls.reverse.takeWhile fun made => !succeeds made.2).countP fun made => fails made.2

theorem failuresSince_snoc (calls : List (Int × Call)) (made : Int × Call) :
    failuresSince (calls ++ [made]) =
      if succeeds made.2 then 0 else failuresSince calls + if fails made.2 then 1 else 0 := by
  unfold failuresSince
  rw [List.reverse_append,List.reverse_singleton,List.singleton_append]
  cases success : succeeds made.2 with
  | true => simp [success]
  | false => simp [success,List.countP_cons]

-- Only a success closes a breaker, and it clears the count; what is counted in
-- any other state does not matter until then.
structure Counted (threshold failures : Nat) (b : Breaker) : Prop where
  limit : b.failureThreshold = threshold
  count : b.state = .closed → b.consecutiveFailures = failures
  below : b.state = .closed → failures < threshold

theorem counted_away (limit : b.failureThreshold = threshold) (away : b.state ≠ .closed) : Counted threshold failures b :=
  ⟨limit,fun closed => absurd closed away,fun closed => absurd closed away⟩

theorem counted_allow (counted : Counted threshold failures b) (now : Int) :
    Counted threshold failures (allowRequest b now).2 := by
  obtain ⟨out,-⟩ | ⟨out,-⟩ | ⟨out,-⟩ := allow_cases b now
  · rwa [out]
  · rw [out]
    exact counted_away counted.limit (by simp)
  · rwa [out]

theorem counted_success (some : 1 ≤ threshold) (counted : Counted threshold failures b) (isProbe : Bool) :
    Counted threshold 0 (onSuccess b isProbe) :=
  ⟨counted.limit,fun _ => rfl,fun _ => some⟩

theorem counted_abort (counted : Counted threshold failures b) (now : Int) (isProbe : Bool) :
    Counted threshold failures (abortProbe b now isProbe) := by
  cases isProbe with
  | true => exact counted_away counted.limit (by simp [abortProbe])
  | false => exact counted

theorem counted_failure (counted : Counted threshold failures b) (now : Int) (isProbe : Bool) :
    Counted threshold (failures + 1) (onFailure b now isProbe) := by
  unfold onFailure
  split
  · exact counted_away counted.limit (by simp)
  · split
    · rename_i opened
      exact counted_away counted.limit (by simp [opened])
    · split
      · exact counted_away counted.limit (by simp)
      · rename_i room
        refine ⟨counted.limit,fun closed => congrArg (· + 1) (counted.count closed),fun closed => ?_⟩
        have count := counted.count closed
        have limit := counted.limit
        omega

theorem counted_call (some : 1 ≤ threshold) (counted : Counted threshold (failuresSince calls) b) (made : Int × Call) :
    Counted threshold (failuresSince (calls ++ [made])) (call b made) := by
  obtain ⟨now,kind⟩ := made
  rw [failuresSince_snoc]
  cases kind with
  | allow => exact counted_allow counted now
  | report report isProbe =>
    cases report with
    | success => exact counted_success some counted isProbe
    | failure => exact counted_failure counted now isProbe
    | abort => exact counted_abort counted now isProbe

theorem counted_after (some : 1 ≤ threshold) (window : Int) (calls : List (Int × Call)) :
    Counted threshold (failuresSince calls) (after threshold window calls) := by
  induction calls using List.reverseRecOn with
  | nil => exact ⟨rfl,fun _ => rfl,fun _ => some⟩
  | append_singleton calls made ih =>
    have last : after threshold window (calls ++ [made]) = call (after threshold window calls) made := by
      rw [after,List.foldl_append]
      rfl
    rw [last]
    exact counted_call some ih made

theorem trips_iff (closed : b.state = .closed) (now : Int) :
    (onFailure b now false).state = .opened ↔ b.failureThreshold ≤ b.consecutiveFailures + 1 := by
  unfold onFailure
  rw [if_neg (by decide),if_neg (by simp [closed])]
  split
  · rename_i trips
    exact ⟨fun _ => trips,fun _ => rfl⟩
  · rename_i room
    exact ⟨fun opened => by simp [closed] at opened,fun trips => absurd trips room⟩

theorem failure_run (threshold : Nat) (window : Int) (some : 1 ≤ threshold) (calls : List (Int × Call)) :
    let b := after threshold window calls
    (b.state = .closed → b.consecutiveFailures = failuresSince calls ∧ b.consecutiveFailures < threshold) ∧
    (threshold ≤ failuresSince calls → b.state ≠ .closed) ∧
    ∀ now, b.state = .closed →
      ((call b (now,.report .failure false)).state = .opened ↔
        failuresSince (calls ++ [(now,.report .failure false)]) = threshold) := by
  have counted := counted_after some window calls
  refine ⟨fun closed => ?_,fun reached closed => ?_,fun now closed => ?_⟩
  · have count := counted.count closed
    exact ⟨count,count ▸ counted.below closed⟩
  · have below := counted.below closed
    omega
  · have trips := trips_iff closed now
    have next : failuresSince (calls ++ [(now,.report .failure false)]) = failuresSince calls + 1 :=
      failuresSince_snoc calls _
    rw [counted.limit,counted.count closed] at trips
    rw [next]
    refine trips.trans ?_
    have below := counted.below closed
    omega

-- Threshold 2: a failure, a success that clears it, and a failure.
def mixed : List (Int × Call) :=
  [(0,.allow),(1,.report .failure false),(2,.report .success false),(3,.report .failure false)]

theorem failure_run_mixed : failuresSince mixed = 1 ∧ (after 2 10 mixed).consecutiveFailures = 1 ∧
    (call (after 2 10 mixed) (4,.report .failure false)).state = .opened := by
  obtain ⟨counts,-,trips⟩ := failure_run 2 10 (by decide) mixed
  have closed : (after 2 10 mixed).state = .closed := by decide
  exact ⟨by decide,(counts closed).1.trans (by decide),(trips 4 closed).mpr (by decide)⟩

end Kvmux.FailureRun
