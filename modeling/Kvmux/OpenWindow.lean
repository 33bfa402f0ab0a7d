import Mathlib.Data.List.Basic
import Kvmux.BreakerRuns

namespace Kvmux.OpenWindow
open CircuitBreaker BreakerRuns Transition

-- The three ways into Open, and every one of them starts a window.
def trips (s : Overlap) : Call → Prop
  | .report request .failure =>
    s.waiting.lookup request = some true ∨
      (s.waiting.lookup request = some false ∧ s.breaker.state ≠ .opened ∧
        s.breaker.failureThreshold ≤ s.breaker.consecutiveFailures + 1)
  | .report request .abort => s.waiting.lookup request = some true
  | _ => False

def decision (s : Overlap) : Decision := (allowRequest s.breaker s.now).1

def admits (s : Overlap) (call : Call) : Prop := call = .allow ∧ (decision s).allowed = true

theorem report_quiet (s : Overlap) (request : Nat) (report : Report) : ¬ admits s (.report request report) :=
  fun admitted => nomatch admitted.1

-- What the window promises from the state right after a trip at time t.
def Honoured (meets : Overlap → Call → Prop) (window t : Int) (tripped : Overlap) : Prop :=
  (∀ s, Reached step meets tripped s → s.now < t + window → (decision s).allowed = false) ∧
  (∀ s, Reached step (fun s call => meets s call ∧ ¬ admits s call) tripped s →
    (decision s).allowed = true → (decision s).isProbe = true)

-- No request reports a success while the breaker is Open.
def NoLateSuccess (s : Overlap) : Call → Prop
  | .report _ .success => s.breaker.state ≠ .opened
  | _ => True

theorem open_decision (opened : s.breaker.state = .opened) :
    decision s = if s.now - s.breaker.openedAt ≥ s.breaker.openWindow then ⟨true,true⟩ else ⟨false,false⟩ := by
  simp only [decision,allowRequest,opened]
  split <;> rfl

theorem step_clock (ran : step s call = some next) :
    next.breaker.openWindow = s.breaker.openWindow ∧ s.now ≤ next.now := by
  cases call with
  | tick elapsed =>
    cases Option.some.inj ran
    exact ⟨rfl,by dsimp only; omega⟩
  | allow =>
    cases Option.some.inj ran
    refine ⟨?_,Int.le_refl _⟩
    rcases allow_cases s.breaker s.now with ⟨out,_⟩ | ⟨out,_,_⟩ | ⟨out,_⟩ <;> simp [out]
  | report request report =>
    obtain ⟨flag,found,rfl⟩ := report_cases ran
    refine ⟨?_,Int.le_refl _⟩
    cases report <;> simp only [settleReport,onSuccess,onFailure,abortProbe]
    · split
      · rfl
      · split
        · rfl
        · split <;> rfl
    · split <;> rfl

theorem trip_opens (tripped : trips s call) (ran : step s call = some next) :
    next.breaker.state = .opened ∧ next.breaker.openedAt = s.now := by
  cases call with
  | tick elapsed => cases tripped
  | allow => cases tripped
  | report request report =>
    obtain ⟨flag,found,rfl⟩ := report_cases ran
    cases report with
    | success => cases tripped
    | abort =>
      cases Option.some.inj (found.symm.trans tripped)
      exact ⟨rfl,rfl⟩
    | failure =>
      rcases tripped with probe | ⟨plain,live,reached⟩
      · cases Option.some.inj (found.symm.trans probe)
        exact ⟨rfl,rfl⟩
      · cases Option.some.inj (found.symm.trans plain)
        simp [settleReport,onFailure,live,reached]

-- Without a late success only an admission takes the breaker out of Open.
theorem stays_open (opened : s.breaker.state = .opened) (timely : NoLateSuccess s call) (shut : ¬ admits s call)
    (ran : step s call = some next) :
    next.breaker.state = .opened ∧ (next.breaker.openedAt = s.breaker.openedAt ∨ next.breaker.openedAt = s.now) := by
  cases call with
  | tick elapsed =>
    cases Option.some.inj ran
    exact ⟨opened,.inl rfl⟩
  | allow =>
    cases Option.some.inj ran
    rcases allow_cases s.breaker s.now with ⟨out,closed⟩ | ⟨out,_,_⟩ | ⟨out,_⟩
    · simp [opened] at closed
    · exact absurd ⟨rfl,by simp [decision,out]⟩ shut
    · exact ⟨by simpa [out] using opened,.inl (by simp [out])⟩
  | report request report =>
    obtain ⟨flag,found,rfl⟩ := report_cases ran
    cases report with
    | success => exact absurd opened timely
    | abort =>
      cases flag with
      | true => exact ⟨rfl,.inr rfl⟩
      | false => exact ⟨opened,.inl rfl⟩
    | failure =>
      cases flag with
      | true => exact ⟨rfl,.inr rfl⟩
      | false => simp [settleReport,onFailure,opened]

-- Until the window has run out the breaker stays Open, whatever else is reported.
structure Waits (window t : Int) (s : Overlap) : Prop where
  clock : t ≤ s.now
  span : s.breaker.openWindow = window
  shut : s.now < t + window → s.breaker.state = .opened ∧ t ≤ s.breaker.openedAt

theorem Waits.denies (valid : Waits window t s) (inside : s.now < t + window) : (decision s).allowed = false := by
  obtain ⟨opened,since⟩ := valid.shut inside
  have := valid.span
  rw [open_decision opened,if_neg (by omega)]

theorem waits_preserved (s : Overlap) (call : Call) (next : Overlap) (valid : Waits window t s)
    (timely : NoLateSuccess s call) (ran : step s call = some next) : Waits window t next := by
  obtain ⟨span,later⟩ := step_clock ran
  refine ⟨Int.le_trans valid.clock later,span.trans valid.span,?_⟩
  intro inside
  have still : s.now < t + window := by omega
  obtain ⟨opened,since⟩ := valid.shut still
  have denied : ¬ admits s call := by
    intro admitted
    simp [admits,valid.denies still] at admitted
  obtain ⟨stays,moved⟩ := stays_open opened timely denied ran
  refine ⟨stays,?_⟩
  have := valid.clock
  rcases moved with kept | restarted <;> omega

theorem reached_span (path : Reached step meets (start threshold window) s) : s.breaker.openWindow = window :=
  reached_invariant (fun s => s.breaker.openWindow = window) rfl
    (fun _ _ _ valid _ ran => (step_clock ran).1.trans valid) path

theorem trip_honoured (path : Reached step NoLateSuccess (start threshold window) s) (tripped : trips s call)
    (ran : step s call = some next) : Honoured NoLateSuccess window s.now next := by
  obtain ⟨opens,since⟩ := trip_opens tripped ran
  obtain ⟨span,later⟩ := step_clock ran
  constructor
  · intro m after inside
    have begun : Waits window s.now next := ⟨later,span.trans (reached_span path),fun _ => ⟨opens,by omega⟩⟩
    exact (reached_invariant (Waits window s.now) begun waits_preserved after).denies inside
  · intro m after allowed
    have opened : m.breaker.state = .opened :=
      reached_invariant (fun s => s.breaker.state = .opened) opens
        (fun s call next opened met moved => (stays_open opened met.1 met.2 moved).1) after
    rw [open_decision opened] at allowed ⊢
    split at allowed
    · rename_i elapsed
      rw [if_pos elapsed]
    · cases allowed

theorem opened_from (ran : step s call = some next) (opened : next.breaker.state = .opened) :
    trips s call ∨ (s.breaker.state = .opened ∧ ¬ admits s call) := by
  cases call with
  | tick elapsed =>
    cases Option.some.inj ran
    exact .inr ⟨opened,fun admitted => nomatch admitted.1⟩
  | allow =>
    cases Option.some.inj ran
    rcases allow_cases s.breaker s.now with ⟨out,closed⟩ | ⟨out,_,_⟩ | ⟨out,_⟩
    · simp [out,closed] at opened
    · simp [out] at opened
    · exact .inr ⟨by simpa [out] using opened,fun admitted => by simp [admits,decision,out] at admitted⟩
  | report request report =>
    have quiet := report_quiet s request report
    obtain ⟨flag,found,rfl⟩ := report_cases ran
    cases report with
    | success => cases opened
    | abort =>
      cases flag with
      | true => exact .inl found
      | false => exact .inr ⟨opened,quiet⟩
    | failure =>
      cases flag with
      | true => exact .inl (.inl found)
      | false =>
        by_cases was : s.breaker.state = .opened
        · exact .inr ⟨was,quiet⟩
        · by_cases reached : s.breaker.failureThreshold ≤ s.breaker.consecutiveFailures + 1
          · exact .inl (.inr ⟨found,was,reached⟩)
          · simp [settleReport,onFailure,was,reached] at opened

-- An open breaker has been tripped, and nobody was admitted since.
theorem opened_since (path : Reached step meets (start threshold window) s) (opened : s.breaker.state = .opened) :
    ∃ before call tripped, Reached step Any (start threshold window) before ∧ trips before call ∧
      step before call = some tripped ∧ Reached step (fun s call => Any s call ∧ ¬ admits s call) tripped s := by
  induction path with
  | initial => cases opened
  | step prior met ran ih =>
    rename_i s call next
    rcases opened_from ran opened with tripped | ⟨was,quiet⟩
    · have earlier : Reached step Any (start threshold window) s :=
        reached_invariant _ .initial (fun _ _ _ valid _ moved => .step valid True.intro moved) prior
      exact ⟨s,call,next,earlier,tripped,ran,.initial⟩
    · obtain ⟨before,trip,tripped,earlier,trips,tripping,since⟩ := ih was
      exact ⟨before,trip,tripped,earlier,trips,tripping,since.step ⟨True.intro,quiet⟩ ran⟩

-- With no late success every window is honoured; and the first late success of
-- a run breaks the promise of the trip it follows.
theorem window_honoured (threshold : Nat) (window : Int) :
    (∀ s call next, Reached step NoLateSuccess (start threshold window) s → trips s call → step s call = some next →
      Honoured NoLateSuccess window s.now next) ∧
    (∀ s call next, Reached step NoLateSuccess (start threshold window) s → ¬ NoLateSuccess s call →
      step s call = some next → ∃ before trip tripped, Reached step Any (start threshold window) before ∧
        trips before trip ∧ step before trip = some tripped ∧ ¬ Honoured Any window before.now tripped) := by
  constructor
  · intro s call next path tripped ran
    exact trip_honoured path tripped ran
  · intro s call next path late ran
    cases call with
    | tick elapsed => exact absurd True.intro late
    | allow => exact absurd True.intro late
    | report request report =>
      cases report with
      | failure => exact absurd True.intro late
      | abort => exact absurd True.intro late
      | success =>
        obtain ⟨before,trip,tripped,earlier,trips,tripping,since⟩ := opened_since path (not_not.mp late)
        refine ⟨before,trip,tripped,earlier,trips,tripping,fun honoured => ?_⟩
        have after := since.step ⟨True.intro,report_quiet s request .success⟩ ran
        obtain ⟨flag,-,rfl⟩ := report_cases ran
        exact nomatch honoured.2 _ after rfl

-- Threshold 1: request 1 trips the breaker at time 0, request 0 succeeds late,
-- and request 2 is admitted at once and not as a probe.
theorem late_success_reopens :
    ∃ s call next, Reached step Any (start 1 10) s ∧ trips s call ∧ step s call = some next ∧
      ¬ Honoured Any 10 s.now next := by
  have early : run step (start 1 10) [.allow,.allow] = some ⟨⟨1,10,.closed,0,0⟩,0,2,[(1,false),(0,false)]⟩ := rfl
  have late : run step ⟨⟨1,10,.opened,1,0⟩,0,2,[(0,false)]⟩ [.report 0 .success] = some ⟨⟨1,10,.closed,0,0⟩,0,2,[]⟩ := rfl
  refine ⟨_,.report 1 .failure,_,run_reached .initial early,.inr (by decide),rfl,fun honoured => ?_⟩
  exact nomatch honoured.1 _ (run_reached .initial late) (by decide)

theorem window_honoured_trip :
    ∃ s next, Reached step NoLateSuccess (start 1 10) s ∧ step s (.report 0 .failure) = some next ∧
      Honoured NoLateSuccess 10 s.now next := by
  have reached : Reached step NoLateSuccess (start 1 10) ⟨⟨1,10,.closed,0,0⟩,0,1,[(0,false)]⟩ :=
    Reached.initial.take .allow True.intro rfl
  exact ⟨_,_,reached,rfl,(window_honoured 1 10).1 _ (.report 0 .failure) _ reached (.inr (by decide)) rfl⟩

end Kvmux.OpenWindow
