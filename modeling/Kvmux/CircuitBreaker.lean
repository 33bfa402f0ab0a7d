import Mathlib.Data.List.Basic

namespace Kvmux.CircuitBreaker

inductive BreakerState where
  | closed
  | opened
  | halfOpen
  deriving DecidableEq, Repr

-- Time points of the steady clock and spans of it are integers (nanoseconds).
structure Breaker where
  failureThreshold : Nat
  openWindow : Int
  state : BreakerState := .closed
  consecutiveFailures : Nat := 0
  openedAt : Int := 0
  deriving DecidableEq, Repr

structure Decision where
  allowed : Bool := false
  isProbe : Bool := false
  deriving DecidableEq, Repr

def allowRequest (b : Breaker) (now : Int) : Decision × Breaker :=
  match b.state with
  | .closed => (⟨true,false⟩,b)
  | .opened =>
    if now - b.openedAt ≥ b.openWindow then (⟨true,true⟩,{b with state := .halfOpen})
    else (⟨false,false⟩,b)
  | .halfOpen => (⟨false,false⟩,b)

def onSuccess (b : Breaker) (_isProbe : Bool) : Breaker :=
  {b with state := .closed,consecutiveFailures := 0}

def abortProbe (b : Breaker) (now : Int) (isProbe : Bool) : Breaker :=
  if !isProbe then b else {b with state := .opened,openedAt := now}

def onFailure (b : Breaker) (now : Int) (isProbe : Bool) : Breaker :=
  if isProbe then {b with state := .opened,openedAt := now}
  else if b.state = .opened then b
  else if b.consecutiveFailures + 1 ≥ b.failureThreshold then
    {b with consecutiveFailures := b.consecutiveFailures + 1,state := .opened,openedAt := now}
  else {b with consecutiveFailures := b.consecutiveFailures + 1}

inductive Report where
  | success
  | failure
  | abort
  deriving DecidableEq, Repr

def settleReport (b : Breaker) (now : Int) (report : Report) (isProbe : Bool) : Breaker :=
  match report with
  | .success => onSuccess b isProbe
  | .failure => onFailure b now isProbe
  | .abort => abortProbe b now isProbe

-- The three things an admission request can meet, with everything each one does.
theorem allow_cases (b : Breaker) (now : Int) :
    (allowRequest b now = (⟨true,false⟩,b) ∧ b.state = .closed) ∨
    (allowRequest b now = (⟨true,true⟩,{b with state := .halfOpen}) ∧ b.state = .opened ∧
      now - b.openedAt ≥ b.openWindow) ∨
    (allowRequest b now = (⟨false,false⟩,b) ∧ b.state ≠ .closed) := by
  cases held : b.state with
  | closed => simp [allowRequest,held]
  | halfOpen => simp [allowRequest,held]
  | opened =>
    by_cases elapsed : now - b.openedAt ≥ b.openWindow
    · exact .inr (.inl ⟨by simp only [allowRequest,held,if_pos elapsed],rfl,elapsed⟩)
    · exact .inr (.inr ⟨by simp only [allowRequest,held,if_neg elapsed],by simp⟩)

-- A probe's own report always takes the breaker out of half-open.
theorem probe_settles (b : Breaker) (now : Int) (report : Report) :
    (settleReport b now report true).state ≠ .halfOpen := by
  cases report <;> simp [settleReport,onSuccess,onFailure,abortProbe]

-- No report ever promotes a breaker to half-open.
theorem report_never_promotes (promoted : (settleReport b now report isProbe).state = .halfOpen) :
    b.state = .halfOpen := by
  cases report with
  | success => simp [settleReport,onSuccess] at promoted
  | abort =>
    cases isProbe with
    | true => simp [settleReport,abortProbe] at promoted
    | false => simpa [settleReport,abortProbe] using promoted
  | failure =>
    cases isProbe with
    | true => simp [settleReport,onFailure] at promoted
    | false =>
      simp only [settleReport,onFailure,Bool.false_eq_true,if_false] at promoted
      split at promoted
      · exact promoted
      · split at promoted
        · cases promoted
        · exact promoted

end Kvmux.CircuitBreaker
