import Mathlib.Data.List.Basic
import Kvmux.Failover
import Kvmux.Fleet

namespace Kvmux.WalkStart
open Coroutine CircuitBreaker Gateway Fleet Streaming Attempt

def change (backends : List Backend) (b : Nat) (f : Backend → Backend) : List Backend :=
  match backends[b]? with
  | none => backends
  | some backend => backends.set b (f backend)

-- A candidate that can be dispatched to: its breaker allows the request and its
-- own slots are not all taken.
def usable (clock : Int) (backends : List Backend) (b : Nat) : Bool :=
  backends[b]?.any fun backend =>
    (allowRequest backend.breaker clock).1.allowed && decide (backend.limiter.active < backend.limiter.maxInFlight)

-- What a walk leaves of a backend that it has examined and passed over: the
-- breaker's decision is taken back if the slots were full.
def passedOver (clock : Int) (backend : Backend) : Backend :=
  let out := allowRequest backend.breaker clock
  if out.1.allowed then {backend with breaker := abortProbe out.2 clock out.1.isProbe} else {backend with breaker := out.2}

def claimed (clock : Int) (backend : Backend) : Backend :=
  {backend with breaker := (allowRequest backend.breaker clock).2,limiter := backend.limiter.tryAcquire.2}

-- The walk up to its first dispatch: the first candidate that is usable when its
-- turn comes.
def search (clock : Int) : List Backend → List Nat → List Backend × Option Nat
  | backends,[] => (backends,none)
  | backends,b :: rest =>
    if usable clock backends b then (change backends b (claimed clock),some b)
    else search clock (change backends b (passedOver clock)) rest

section Known

variable {backends : List Backend} {b : Nat} {backend : Backend}

theorem change_known (known : backends[b]? = some backend) (f : Backend → Backend) :
    change backends b f = backends.set b (f backend) := by
  simp only [change,known]

theorem change_absent (absent : backends[b]? = none) (f : Backend → Backend) : change backends b f = backends := by
  simp only [change,absent]

theorem usable_known (known : backends[b]? = some backend) : usable clock backends b =
    ((allowRequest backend.breaker clock).1.allowed && decide (backend.limiter.active < backend.limiter.maxInFlight)) := by
  simp only [usable,known,Option.any_some]

theorem usable_absent (absent : backends[b]? = none) : usable clock backends b = false := by
  simp only [usable,absent,Option.any_none]

theorem set_known (known : backends[b]? = some backend) (other : Backend) : (backends.set b other)[b]? = some other :=
  List.getElem?_set_self (List.getElem?_eq_some_iff.mp known).1

theorem tryAcquire_free {lim : PerBackendLimiter} (free : lim.active < lim.maxInFlight) : lim.tryAcquire.1 = true := by
  rw [PerBackendLimiter.tryAcquire,if_pos free]

theorem tryAcquire_full {lim : PerBackendLimiter} (full : ¬lim.active < lim.maxInFlight) : lim.tryAcquire = (false,lim) := by
  rw [PerBackendLimiter.tryAcquire,if_neg full]

end Known

theorem attempt_connects (env : Env) (job : Job) (labels : Metrics.Labels) (b : Nat) (isProbe more : Bool) :
    ∃ next, attempt env job labels b isProbe more = .wait (.connect b) next := by
  unfold attempt
  split
  · exact ⟨_,rfl⟩
  · exact ⟨_,rfl⟩

theorem recordSpills_stop (env : Env) (i : Nat) (s : State) (spills : Nat) (recorded : Bool) (labels : Metrics.Labels) :
    ∃ after : State, after.backends = s.backends ∧ after.clock = s.clock ∧ ∀ rest : Unit → Prog Outcome,
      stop (host env) i s (recordSpills spills recorded labels >>= rest) = stop (host env) i after (rest ()) := by
  unfold recordSpills
  split
  · exact ⟨{s with registry := s.registry.record (.incAffinitySpills labels spills)},rfl,rfl,fun _ => rfl⟩
  · exact ⟨s,rfl,rfl,fun _ => rfl⟩

-- Where a walk stands when it first gives up control.
def Standing (env : Env) (job : Job) (labels : Metrics.Labels) (code : Prog Outcome) : Option Nat → Prop
  | none => code = exhausted env job labels
  | some b => ∃ next, code = .wait (.connect b) next

theorem exhausted_stop (env : Env) (job : Job) (labels : Metrics.Labels) (i : Nat) (s : State) :
    stop (host env) i s (exhausted env job labels) = (s,exhausted env job labels) := by
  obtain ⟨payload,shown⟩ := errorJson_some env .noBackend "no eligible backend could serve the request"
  unfold exhausted
  rw [shown]
  rfl

theorem walk_stops (env : Env) (job : Job) (spills i : Nat) (labels : Metrics.Labels) (order : List Nat) (s : State)
    (recorded : Bool) :
    (stop (host env) i s (walk env job spills order 0 recorded labels)).1.backends = (search s.clock s.backends order).1 ∧
    Standing env job labels (stop (host env) i s (walk env job spills order 0 recorded labels)).2
      (search s.clock s.backends order).2 := by
  induction order generalizing s recorded with
  | nil =>
    rw [walk,exhausted_stop]
    exact ⟨rfl,rfl⟩
  | cons b rest ih =>
    rw [walk,if_neg (by decide)]
    obtain ⟨after,backends,clock,spilled⟩ := recordSpills_stop env i s spills recorded {labels with backend := backendName env b}
    rw [spilled,act,stop_perform,← backends,← clock]
    generalize after = s
    cases known : s.backends[b]? with
    | none =>
      have asking : (host env).exec i (.allowRequest b) s = ({},s) := onBackend_absent known _ _
      rw [asking,if_pos (by rfl),search,usable_absent known,if_neg (by simp),change_absent known]
      exact ih s _
    | some backend =>
      have asking : (host env).exec i (.allowRequest b) s = ((allowRequest backend.breaker s.clock).1,
          {s with backends := s.backends.set b {backend with breaker := (allowRequest backend.breaker s.clock).2}}) :=
        onBackend_changed known _ _
      rw [asking,search,change_known known,change_known known,usable_known known]
      cases allowed : (allowRequest backend.breaker s.clock).1.allowed with
      | false =>
        rw [if_pos (by rfl),if_neg (by simp),passedOver,if_neg (by simp [allowed])]
        exact ih {s with backends := _} _
      | true =>
        rw [if_neg (by simp),stop_perform]
        generalize entry : {backend with breaker := (allowRequest backend.breaker s.clock).2} = asked
        generalize later : {s with backends := s.backends.set b asked} = s1
        have found : s1.backends[b]? = some asked := by rw [← later]; exact set_known known asked
        have taking : (host env).exec i (.tryAcquire b) s1 = (asked.limiter.tryAcquire.1,
            {s1 with backends := s1.backends.set b {asked with limiter := asked.limiter.tryAcquire.2}}) :=
          onBackend_changed found _ _
        have slots : asked.limiter = backend.limiter := by rw [← entry]
        rw [taking,slots]
        by_cases free : backend.limiter.active < backend.limiter.maxInFlight
        · rw [tryAcquire_free free,if_neg (by simp),if_pos (by simp [free])]
          obtain ⟨next,connecting⟩ := attempt_connects env job {labels with backend := backendName env b} b
            (allowRequest backend.breaker s.clock).1.isProbe (0 + 1 < maxAttempts && rest != [])
          rw [connecting]
          refine ⟨?_,_,rfl⟩
          rw [← later,← entry]
          exact List.set_set _
        · rw [tryAcquire_full free,if_pos (by rfl),if_neg (by simp [free]),stop_perform]
          have undone : (host env).exec i (.report b .abort (allowRequest backend.breaker s.clock).1.isProbe)
              {s1 with backends := s1.backends.set b {asked with limiter := backend.limiter}} =
              ((),{s with backends := s.backends.set b (passedOver s.clock backend)}) := by
            rw [← later,← entry]
            refine (onBackend_changed (set_known (set_known known _) _) _ _).trans ?_
            rw [passedOver,if_pos allowed,List.set_set,List.set_set]
            rfl
          rw [undone]
          exact ih {s with backends := _} _

-- The backends as a candidate finds them when all before it were passed over.
def examined (clock : Int) (backends : List Backend) (front : List Nat) : List Backend :=
  front.foldl (fun held c => change held c (passedOver clock)) backends

theorem search_found : (search clock backends order).2 = some b ↔
    ∃ front back, order = front ++ b :: back ∧ usable clock (examined clock backends front) b = true ∧
      ∀ before c after, front = before ++ c :: after → usable clock (examined clock backends before) c = false := by
  induction order generalizing backends with
  | nil => simp [search]
  | cons c rest ih =>
    rw [search]
    split
    · rename_i ready
      constructor
      · intro found
        cases Option.some.inj found
        exact ⟨[],rest,rfl,ready,by simp⟩
      · rintro ⟨front,back,same,-,early⟩
        cases front with
        | nil => cases same; rfl
        | cons d front =>
          cases same
          exact absurd (ready.symm.trans (early [] c front rfl)) (by decide)
    · rename_i unready
      rw [ih]
      constructor
      · rintro ⟨front,back,rfl,found,early⟩
        refine ⟨c :: front,back,rfl,found,?_⟩
        intro before d after same
        cases before with
        | nil => cases same; exact Bool.eq_false_iff.mpr unready
        | cons e before => cases same; exact early before d after rfl
      · rintro ⟨front,back,same,found,early⟩
        cases front with
        | nil => cases same; exact absurd found unready
        | cons d front =>
          cases same
          exact ⟨front,back,rfl,found,fun before e after split => early (c :: before) e after (by rw [split]; rfl)⟩

theorem search_none : (search clock backends order).2 = none ↔
    ∀ front b back, order = front ++ b :: back → usable clock (examined clock backends front) b = false := by
  induction order generalizing backends with
  | nil => simp [search]
  | cons c rest ih =>
    rw [search]
    split
    · rename_i ready
      constructor
      · intro found
        cases found
      · intro unready
        exact absurd (ready.symm.trans (unready [] c rest rfl)) (by decide)
    · rename_i unready
      rw [ih]
      constructor
      · intro later front b back same
        cases front with
        | nil => cases same; exact Bool.eq_false_iff.mpr unready
        | cons d front => cases same; exact later front b back rfl
      · intro all front b back same
        exact all (c :: front) b back (by rw [same]; rfl)

-- All that a backend may have lost when it was passed over: the time its open
-- window began.
def Intact (clock : Int) (before after : Backend) : Prop :=
  after = before ∨
  before.breaker.state = .opened ∧ after = {before with breaker := {before.breaker with openedAt := clock}}

theorem passedOver_intact (clock : Int) (backend : Backend) : Intact clock backend (passedOver clock backend) := by
  obtain ⟨asked,-⟩ | ⟨asked,opened,-⟩ | ⟨asked,-⟩ := allow_cases backend.breaker clock
  · left
    simp [passedOver,asked,abortProbe]
  · right
    refine ⟨opened,?_⟩
    simp [passedOver,asked,abortProbe,opened]
  · left
    simp [passedOver,asked]

theorem Intact.trans (first : Intact clock one two) (second : Intact clock two three) : Intact clock one three := by
  rcases first with rfl | ⟨opened,rfl⟩
  · exact second
  · rcases second with rfl | ⟨-,rfl⟩
    · exact .inr ⟨opened,rfl⟩
    · exact .inr ⟨opened,rfl⟩

theorem change_other {j : Nat} (apart : b ≠ j) (f : Backend → Backend) : (change backends b f)[j]? = backends[j]? := by
  cases held : backends[b]? with
  | none => rw [change_absent held]
  | some backend => rw [change_known held,List.getElem?_set_ne apart]

theorem change_intact {j : Nat} (b : Nat) (known : backends[j]? = some before) :
    ∃ after, (change backends b (passedOver clock))[j]? = some after ∧ Intact clock before after := by
  by_cases same : b = j
  · subst j
    rw [change_known known]
    exact ⟨_,set_known known _,passedOver_intact clock before⟩
  · exact ⟨before,by rwa [change_other same],.inl rfl⟩

theorem search_intact (known : backends[j]? = some before) (other : (search clock backends order).2 ≠ some j) :
    ∃ after, (search clock backends order).1[j]? = some after ∧ Intact clock before after := by
  induction order generalizing backends before with
  | nil => exact ⟨before,known,.inl rfl⟩
  | cons c rest ih =>
    rw [search] at other ⊢
    split at other
    · rename_i ready
      have apart : c ≠ j := fun same => other (congrArg some same)
      rw [if_pos ready,change_other apart]
      exact ⟨before,known,.inl rfl⟩
    · rename_i unready
      rw [if_neg unready]
      obtain ⟨middle,there,first⟩ := change_intact c known
      obtain ⟨after,found,second⟩ := ih there other
      exact ⟨after,found,first.trans second⟩

-- The walk's first stretch, from its start to the point where it gives up control.
def started (env : Env) (job : Job) (spills i : Nat) (labels : Metrics.Labels) (order : List Nat) (s : State) :
    State × Prog Outcome :=
  stop (host env) i s (walk env job spills order 0 false labels)

def DispatchesTo (code : Prog Outcome) (b : Nat) : Prop := ∃ next, code = .wait (.connect b) next

theorem exhausted_undispatched (path : Runs (exhausted env job labels) t outcome) : dispatches (notes t) = [] :=
  answered_undispatched (respond_runs path)

theorem standing_dispatches (standing : Standing env job labels code found) : DispatchesTo code b ↔ found = some b := by
  cases found with
  | none =>
    constructor
    · rintro ⟨next,waiting⟩
      obtain ⟨payload,shown⟩ := errorJson_some env .noBackend "no eligible backend could serve the request"
      rw [standing,exhausted,shown] at waiting
      cases waiting
    · intro impossible
      cases impossible
  | some c =>
    obtain ⟨next,rfl⟩ := standing
    constructor
    · rintro ⟨_,same⟩
      cases same
      rfl
    · rintro same
      cases Option.some.inj same
      exact ⟨next,rfl⟩

theorem work_conserving (env : Env) (job : Job) (spills i : Nat) (labels : Metrics.Labels) (order : List Nat) (s : State) :
    (∀ b, DispatchesTo (started env job spills i labels order s).2 b ↔
      ∃ front back, order = front ++ b :: back ∧ usable s.clock (examined s.clock s.backends front) b = true ∧
        ∀ before c after, front = before ++ c :: after → usable s.clock (examined s.clock s.backends before) c = false) ∧
    ((∃ b, DispatchesTo (started env job spills i labels order s).2 b) ↔
      ∃ front b back, order = front ++ b :: back ∧ usable s.clock (examined s.clock s.backends front) b = true) ∧
    ((∀ b, ¬DispatchesTo (started env job spills i labels order s).2 b) →
      ∀ t outcome, Runs (started env job spills i labels order s).2 t outcome → dispatches (notes t) = []) ∧
    ∀ j before, s.backends[j]? = some before → ¬DispatchesTo (started env job spills i labels order s).2 j →
      ∃ after, (started env job spills i labels order s).1.backends[j]? = some after ∧ Intact s.clock before after := by
  obtain ⟨backends,standing⟩ := walk_stops env job spills i labels order s false
  rw [← started] at backends standing
  have toward (b : Nat) := standing_dispatches (b := b) standing
  refine ⟨?_,?_,?_,?_⟩
  · intro b
    rw [toward,search_found]
  · cases found : (search s.clock s.backends order).2 with
    | none =>
      have unready := search_none.mp found
      constructor
      · rintro ⟨b,dispatched⟩
        rw [toward,found] at dispatched
        cases dispatched
      · rintro ⟨front,b,back,same,ready⟩
        exact absurd (ready.symm.trans (unready front b back same)) (by decide)
    | some b =>
      obtain ⟨front,back,same,ready,-⟩ := search_found.mp found
      exact ⟨fun _ => ⟨front,b,back,same,ready⟩,fun _ => ⟨b,(toward b).mpr found⟩⟩
  · intro nowhere t outcome path
    cases found : (search s.clock s.backends order).2 with
    | none =>
      rw [found] at standing
      rw [show _ = _ from standing] at path
      exact exhausted_undispatched path
    | some b => exact absurd ((toward b).mpr found) (nowhere b)
  · intro j before known apart
    rw [backends]
    exact search_intact known (fun found => apart ((toward j).mpr found))

end Kvmux.WalkStart
