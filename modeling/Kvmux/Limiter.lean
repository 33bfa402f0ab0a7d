import Mathlib.Data.List.Basic
import Kvmux.Atomic
import Kvmux.Fleet
import Kvmux.Transition

namespace Kvmux.Limiter
open Atomic Transition Tally Fleet

-- Where a caller of the limiter is: in the loop of try_acquire it has read cur;
-- began and saw are where the order ended, and how far it was seen, at the call.
inductive Spot where
  | idle
  | looping (cur : Int) (began saw : Nat)
  | holding
  deriving DecidableEq, Repr

structure Caller where
  view : Nat := 0
  spot : Spot := .idle
  deriving DecidableEq, Repr

-- What try_acquire returned, and the position whose value decided it.
structure Answer where
  caller : Nat
  began : Nat
  saw : Nat
  position : Nat
  acquired : Bool
  deriving DecidableEq, Repr

structure AtomicLimiter where
  maxInFlight : Int
  active : Cell Int
  callers : List Caller
  answers : List Answer := []
  deriving DecidableEq, Repr

def fresh (maxInFlight : Int) (callers : Nat) : AtomicLimiter where
  maxInFlight := maxInFlight
  active := ⟨0,[]⟩
  callers := List.replicate callers {}

-- One access to the atomic counter at a time. A compare_exchange_weak that fails,
-- be it spuriously, loads the counter anew.
inductive Access where
  | load (k i : Nat)
  | exchange (k : Nat)
  | miss (k i : Nat)
  | giveUp (k : Nat)
  | fetchSub (k : Nat)

def step (s : AtomicLimiter) : Access → Option AtomicLimiter
  | .load k i =>
    match s.callers[k]? with
    | some ⟨view,.idle⟩ =>
      (s.active.read view i).map fun cur => {s with callers := s.callers.set k ⟨i,.looping cur s.active.last view⟩}
    | _ => none
  | .exchange k =>
    match s.callers[k]? with
    | some ⟨_,.looping cur began saw⟩ =>
      if cur < s.maxInFlight ∧ s.active.current = cur then
        some {s with active := s.active.write (cur + 1),callers := s.callers.set k ⟨s.active.last + 1,.holding⟩
                     answers := s.answers ++ [⟨k,began,saw,s.active.last,true⟩]}
      else none
    | _ => none
  | .miss k i =>
    match s.callers[k]? with
    | some ⟨view,.looping cur began saw⟩ =>
      if cur < s.maxInFlight then
        (s.active.read view i).map fun cur => {s with callers := s.callers.set k ⟨i,.looping cur began saw⟩}
      else none
    | _ => none
  | .giveUp k =>
    match s.callers[k]? with
    | some ⟨view,.looping cur began saw⟩ =>
      if cur < s.maxInFlight then none
      else some {s with callers := s.callers.set k ⟨view,.idle⟩,answers := s.answers ++ [⟨k,began,saw,view,false⟩]}
    | _ => none
  | .fetchSub k =>
    match s.callers[k]? with
    | some ⟨_,.holding⟩ =>
      some {s with active := s.active.write (s.active.current - 1),callers := s.callers.set k ⟨s.active.last + 1,.idle⟩}
    | _ => none

section Steps
variable {s next : AtomicLimiter} {access : Access}

-- Everything that an access can do.
inductive Moved (s : AtomicLimiter) : Access → AtomicLimiter → Prop where
  | loaded : s.callers[k]? = some ⟨view,.idle⟩ → s.active.read view i = some cur →
      Moved s (.load k i) {s with callers := s.callers.set k ⟨i,.looping cur s.active.last view⟩}
  | exchanged (k : Nat) : s.callers[k]? = some ⟨view,.looping s.active.current began saw⟩ → s.active.current < s.maxInFlight →
      Moved s (.exchange k)
        {s with active := s.active.write (s.active.current + 1),callers := s.callers.set k ⟨s.active.last + 1,.holding⟩
                answers := s.answers ++ [⟨k,began,saw,s.active.last,true⟩]}
  | missed : s.callers[k]? = some ⟨view,.looping cur began saw⟩ → s.active.read view i = some now →
      Moved s (.miss k i) {s with callers := s.callers.set k ⟨i,.looping now began saw⟩}
  | gaveUp : s.callers[k]? = some ⟨view,.looping cur began saw⟩ → ¬cur < s.maxInFlight →
      Moved s (.giveUp k)
        {s with callers := s.callers.set k ⟨view,.idle⟩,answers := s.answers ++ [⟨k,began,saw,view,false⟩]}
  | released (k : Nat) : s.callers[k]? = some ⟨view,.holding⟩ →
      Moved s (.fetchSub k)
        {s with active := s.active.write (s.active.current - 1),callers := s.callers.set k ⟨s.active.last + 1,.idle⟩}

theorem step_moved (ran : step s access = some next) : Moved s access next := by
  cases access with
  | load k i =>
    simp only [step] at ran
    split at ran
    · rename_i found
      obtain ⟨cur,reads,rfl⟩ := Option.map_eq_some_iff.mp ran
      exact .loaded found reads
    · cases ran
  | exchange k =>
    simp only [step] at ran
    split at ran
    · rename_i found
      split at ran
      · rename_i both
        obtain ⟨room,rfl⟩ := both
        cases Option.some.inj ran
        exact .exchanged k found room
      · cases ran
    · cases ran
  | miss k i =>
    simp only [step] at ran
    split at ran
    · rename_i found
      split at ran
      · obtain ⟨now,reads,rfl⟩ := Option.map_eq_some_iff.mp ran
        exact .missed found reads
      · cases ran
    · cases ran
  | giveUp k =>
    simp only [step] at ran
    split at ran
    · rename_i found
      split at ran
      · cases ran
      · rename_i full
        cases Option.some.inj ran
        exact .gaveUp found full
    · cases ran
  | fetchSub k =>
    simp only [step] at ran
    split at ran
    · rename_i found
      cases Option.some.inj ran
      exact .released k found
    · cases ran

end Steps
section Atomically

-- The limiter as the requests use it: each call is one operation.
structure Shared where
  limiter : PerBackendLimiter
  holds : List Bool

inductive Call where
  | tryAcquire (k : Nat)
  | release (k : Nat)

def atomically (s : Shared) : Call → Option Shared
  | .tryAcquire k =>
    if s.holds[k]? = some false then some ⟨s.limiter.tryAcquire.2,s.holds.set k s.limiter.tryAcquire.1⟩ else none
  | .release k => if s.holds[k]? = some true then some ⟨s.limiter.release,s.holds.set k false⟩ else none

structure Accounted (s : Shared) : Prop where
  active : s.limiter.active = tally (fun _ held => held) s.holds
  room : s.limiter.active ≤ s.limiter.maxInFlight

theorem atomically_accounted {s next : Shared} (accounted : Accounted s) (ran : atomically s call = some next) :
    Accounted next ∧ next.limiter.maxInFlight = s.limiter.maxInFlight := by
  obtain ⟨active,room⟩ := accounted
  cases call with
  | tryAcquire k =>
    simp only [atomically] at ran
    split at ran
    · rename_i found
      cases Option.some.inj ran
      have counts := tally_set (fun _ held => held) found
      by_cases free : s.limiter.active < s.limiter.maxInFlight
      · have taken := counts true
        simp only [PerBackendLimiter.tryAcquire,if_pos free,Bool.toNat_true,Bool.toNat_false] at taken ⊢
        exact ⟨⟨by dsimp only; omega,by dsimp only; omega⟩,trivial⟩
      · simp only [PerBackendLimiter.tryAcquire,if_neg free,set_own found]
        exact ⟨⟨active,room⟩,trivial⟩
    · cases ran
  | release k =>
    simp only [atomically] at ran
    split at ran
    · rename_i found
      cases Option.some.inj ran
      have freed := tally_set (fun _ held => held) found false
      simp only [Bool.toNat_true,Bool.toNat_false] at freed
      exact ⟨⟨by simp only [PerBackendLimiter.release]; omega,by simp only [PerBackendLimiter.release]; omega⟩,rfl⟩
    · cases ran

end Atomically
section Refinement
variable {s next : AtomicLimiter} {meets : AtomicLimiter → Access → Prop}

def holding : Spot → Bool
  | .holding => true
  | _ => false

def limiterAt (limit active : Int) : PerBackendLimiter := ⟨limit,active⟩

theorem limiterAt_room (room : active < limit) : (limiterAt limit active).tryAcquire = (true,limiterAt limit (active + 1)) :=
  if_pos room

theorem limiterAt_full (full : ¬active < limit) : (limiterAt limit active).tryAcquire = (false,limiterAt limit active) :=
  if_neg full

def shared (s : AtomicLimiter) : Shared := ⟨limiterAt s.maxInFlight s.active.current,s.callers.map fun caller => holding caller.spot⟩

theorem holds_at {k : Nat} (found : s.callers[k]? = some caller) : (shared s).holds[k]? = some (holding caller.spot) := by
  simp [shared,found]

theorem shared_fresh (maxInFlight : Int) (n : Nat) :
    shared (fresh maxInFlight n) = ⟨⟨maxInFlight,0⟩,List.replicate n false⟩ := by
  rw [shared,fresh,List.map_replicate]
  rfl

-- Of all accesses only the exchange that succeeds and the fetch_sub are noticed.
theorem moved_atomically (moved : Moved s access next) :
    shared next = shared s ∨ ∃ call, Any (shared s) call ∧ atomically (shared s) call = some (shared next) := by
  cases moved with
  | loaded found | missed found | gaveUp found =>
    refine .inl ?_
    simp only [shared,List.map_set]
    exact congrArg _ (set_own (holds_at found))
  | exchanged k found room =>
    have free : (shared s).holds[k]? = some false := holds_at found
    refine .inr ⟨.tryAcquire k,trivial,?_⟩
    rw [atomically,if_pos free]
    simp only [shared,limiterAt_room room,List.map_set,Cell.current_write,holding]
  | released k found =>
    have held : (shared s).holds[k]? = some true := holds_at found
    refine .inr ⟨.release k,trivial,?_⟩
    rw [atomically,if_pos held]
    simp only [shared,limiterAt,PerBackendLimiter.release,List.map_set,Cell.current_write,holding]

theorem reached_shared (path : Reached step meets (fresh maxInFlight n) s) :
    Reached atomically Any (shared (fresh maxInFlight n)) (shared s) :=
  reached_simulated shared (fun _ _ _ _ ran => moved_atomically (step_moved ran)) path

theorem reached_accounted (nonneg : 0 ≤ maxInFlight) (path : Reached step meets (fresh maxInFlight n) s) :
    Accounted (shared s) ∧ s.maxInFlight = maxInFlight := by
  refine reached_invariant (fun s => Accounted s ∧ s.limiter.maxInFlight = maxInFlight) ⟨⟨?_,nonneg⟩,rfl⟩ ?_ (reached_shared path)
  · rw [shared_fresh,tally_countP,List.countP_replicate]
    rfl
  · intro s call next inv _ ran
    obtain ⟨accounted,same⟩ := atomically_accounted inv.1 ran
    exact ⟨accounted,same.trans inv.2⟩

theorem moved_order (moved : Moved s access next) :
    next.active.order = s.active.order ∨ next.active.order = s.active.order ++ [next.active.current] := by
  cases moved with
  | loaded | missed | gaveUp => exact .inl rfl
  | exchanged | released => exact .inr (by rw [Cell.current_write]; rfl)

theorem reached_range (nonneg : 0 ≤ maxInFlight) (path : Reached step meets (fresh maxInFlight n) s) :
    ∀ active ∈ s.active.order, 0 ≤ active ∧ active ≤ maxInFlight := by
  induction path with
  | initial => exact List.forall_mem_singleton.mpr ⟨Int.le_refl 0,nonneg⟩
  | step before met ran ih =>
    obtain same | grown := moved_order (step_moved ran)
    · rw [same]
      exact ih
    · rw [grown]
      obtain ⟨⟨counted,room⟩,same⟩ := reached_accounted nonneg (.step before met ran)
      simp only [shared,limiterAt] at counted room
      exact List.forall_mem_append.mpr ⟨ih,List.forall_mem_singleton.mpr ⟨by omega,by omega⟩⟩

-- Any number of callers, whose loads may be stale and whose exchanges may fail
-- spuriously, use the limiter as if each call were one operation; no load ever
-- shows a count outside its range.
theorem limiter_atomic (nonneg : 0 ≤ maxInFlight) (path : Reached step meets (fresh maxInFlight n) s) :
    Reached atomically Any ⟨⟨maxInFlight,0⟩,List.replicate n false⟩
      ⟨⟨maxInFlight,s.active.current⟩,s.callers.map fun caller => holding caller.spot⟩ ∧
    s.active.current = s.callers.countP (fun caller => holding caller.spot) ∧
    ∀ active ∈ s.active.order, 0 ≤ active ∧ active ≤ maxInFlight := by
  obtain ⟨⟨counted,-⟩,same⟩ := reached_accounted nonneg path
  refine ⟨?_,?_,reached_range nonneg path⟩
  · have refined := reached_shared path
    rw [shared_fresh,shared,limiterAt,same] at refined
    exact refined
  · rw [tally_countP] at counted
    exact counted.trans (by rw [shared,List.countP_map]; rfl)

-- Two callers race for the only slot: the second loads a stale count, fails its
-- exchange and is refused.
def race : List Access := [.load 0 0,.exchange 0,.load 1 0,.miss 1 1,.giveUp 1]

theorem limiter_atomic_race : ∃ s, run step (fresh 1 2) race = some s ∧ s.active.current = 1 ∧
    s.callers.countP (fun caller => holding caller.spot) = 1 := by
  obtain ⟨s,ran,current⟩ : ∃ s, run step (fresh 1 2) race = some s ∧ s.active.current = 1 :=
    Option.map_eq_some_iff.mp (by decide)
  have counted := (limiter_atomic (by decide) (run_reached .initial ran)).2.1
  exact ⟨s,ran,current,by omega⟩

end Refinement
section Answers
variable {s next : AtomicLimiter} {access : Access} {meets : AtomicLimiter → Access → Prop}

-- An answer is the one that the limiter gives at a position which the caller had
-- not yet gone past when it called; a slot that was granted is counted next.
structure Justified (s : AtomicLimiter) (a : Answer) : Prop where
  seen : a.saw ≤ a.position
  decided : ∃ active, s.active.order[a.position]? = some active ∧ a.acquired = (limiterAt s.maxInFlight active).tryAcquire.1 ∧
    (a.acquired = true → s.active.order[a.position + 1]? = some (limiterAt s.maxInFlight active).tryAcquire.2.active)

def Apart (a b : Answer) : Prop := a.acquired = true → b.acquired = true → a.position < b.position

-- A condition on the callers in the loop: on the view, the value and where it began.
def Caller.Meets (P : Nat → Int → Nat → Nat → Prop) : Caller → Prop
  | ⟨view,.looping cur began saw⟩ => P view cur began saw
  | _ => True

theorem set_meets {callers : List Caller} {P Q : Nat → Int → Nat → Nat → Prop} {k : Nat} {own : Caller}
    (rest : ∀ caller ∈ callers, caller.Meets P) (weaker : ∀ view cur began saw, P view cur began saw → Q view cur began saw)
    (new : own.Meets Q) : ∀ caller ∈ callers.set k own, caller.Meets Q := by
  intro caller member
  obtain member | rfl := List.mem_or_eq_of_mem_set member
  · have before := rest caller member
    obtain ⟨view,spot⟩ := caller
    cases spot with
    | looping cur began saw => exact weaker view cur began saw before
    | idle | holding => trivial
  · exact new

structure Coherent (s : AtomicLimiter) : Prop where
  loops : ∀ caller ∈ s.callers, caller.Meets fun view cur _ saw => s.active.order[view]? = some cur ∧ saw ≤ view
  answered : ∀ a ∈ s.answers, Justified s a
  apart : s.answers.Pairwise Apart

theorem Justified.kept {a : Answer} (justified : Justified s a) (limit : next.maxInFlight = s.maxInFlight)
    (order : ∀ (i : Nat) active, s.active.order[i]? = some active → next.active.order[i]? = some active) : Justified next a := by
  obtain ⟨seen,active,found,decided,counted⟩ := justified
  rw [← limit] at decided counted
  exact ⟨seen,active,order _ _ found,decided,fun acquired => order _ _ (counted acquired)⟩

theorem Justified.before {a : Answer} (justified : Justified s a) (acquired : a.acquired = true) : a.position < s.active.last := by
  obtain ⟨-,active,-,-,counted⟩ := justified
  exact Cell.order_inside (counted acquired)

theorem moved_kept (moved : Moved s access next) : next.maxInFlight = s.maxInFlight ∧
    ∀ (i : Nat) active, s.active.order[i]? = some active → next.active.order[i]? = some active := by
  cases moved with
  | loaded | missed | gaveUp => exact ⟨rfl,fun _ _ found => found⟩
  | exchanged | released => exact ⟨rfl,fun _ _ found => Cell.order_kept found _⟩

theorem moved_coherent (coherent : Coherent s) (moved : Moved s access next) : Coherent next := by
  obtain ⟨limit,order⟩ := moved_kept moved
  obtain ⟨loops,answered,apart⟩ := coherent
  have kept : ∀ a ∈ s.answers, Justified next a := fun a member => (answered a member).kept limit order
  have still : ∀ (view : Nat) cur (_ saw : Nat), s.active.order[view]? = some cur ∧ saw ≤ view →
      next.active.order[view]? = some cur ∧ saw ≤ view := fun _ _ _ _ both => ⟨order _ _ both.1,both.2⟩
  cases moved with
  | loaded found reads =>
    exact ⟨set_meets loops still (Cell.read_some.mp reads).symm,kept,apart⟩
  | missed found reads =>
    obtain ⟨later,here⟩ := Cell.read_some.mp reads
    have seen := (loops _ (List.mem_of_getElem? found)).2
    exact ⟨set_meets loops still ⟨here,Nat.le_trans seen later⟩,kept,apart⟩
  | exchanged k found room =>
    obtain ⟨here,seen⟩ := loops _ (List.mem_of_getElem? found)
    refine ⟨set_meets loops still trivial,List.forall_mem_append.mpr ⟨kept,List.forall_mem_singleton.mpr ?_⟩,?_⟩
    · refine ⟨Nat.le_trans seen (Cell.order_inside here),_,order _ _ (Cell.order_last _),?_,fun _ => ?_⟩
      · rw [limiterAt_room room]
      · rw [limiterAt_room room]
        exact Cell.order_written _ _
    · refine List.pairwise_append.mpr ⟨apart,List.pairwise_singleton _ _,fun a member b last acquired _ => ?_⟩
      cases List.mem_singleton.mp last
      exact (answered a member).before acquired
  | gaveUp found full =>
    obtain ⟨here,seen⟩ := loops _ (List.mem_of_getElem? found)
    refine ⟨set_meets loops still trivial,List.forall_mem_append.mpr ⟨kept,List.forall_mem_singleton.mpr ?_⟩,?_⟩
    · exact ⟨seen,_,here,by rw [limiterAt_full full],nofun⟩
    · refine List.pairwise_append.mpr ⟨apart,List.pairwise_singleton _ _,fun a _ b last _ acquired => ?_⟩
      cases List.mem_singleton.mp last
      cases acquired
  | released => exact ⟨set_meets loops still trivial,kept,apart⟩

theorem fresh_callers (n : Nat) (P : Nat → Int → Nat → Nat → Prop) :
    ∀ caller ∈ (fresh maxInFlight n).callers, caller.Meets P := by
  intro caller member
  cases List.eq_of_mem_replicate member
  trivial

theorem reached_coherent (path : Reached step meets (fresh maxInFlight n) s) : Coherent s :=
  reached_invariant Coherent ⟨fresh_callers n _,nofun,.nil⟩ (fun _ _ _ inv _ ran => moved_coherent inv (step_moved ran)) path

-- Loads that are never stale, as when all callers share one thread.
def Latest (s : AtomicLimiter) : Access → Prop
  | .load _ i | .miss _ i => i = s.active.last
  | _ => True

structure Timely (s : AtomicLimiter) : Prop where
  loops : ∀ caller ∈ s.callers, caller.Meets fun view _ began _ => began ≤ view ∧ view ≤ s.active.last
  answered : ∀ a ∈ s.answers, a.began ≤ a.position

theorem moved_timely (timely : Timely s) (moved : Moved s access next) (latest : Latest s access) : Timely next := by
  obtain ⟨loops,answered⟩ := timely
  cases moved with
  | loaded found reads =>
    cases latest
    exact ⟨set_meets loops (fun _ _ _ _ same => same) ⟨Nat.le_refl _,Nat.le_refl _⟩,answered⟩
  | missed found reads =>
    cases latest
    have own := loops _ (List.mem_of_getElem? found)
    exact ⟨set_meets loops (fun _ _ _ _ same => same) ⟨Nat.le_trans own.1 own.2,Nat.le_refl _⟩,answered⟩
  | exchanged k found room =>
    have own := loops _ (List.mem_of_getElem? found)
    exact ⟨set_meets loops (fun _ _ _ _ both => ⟨both.1,by rw [Cell.last_write]; omega⟩) trivial,
      List.forall_mem_append.mpr ⟨answered,List.forall_mem_singleton.mpr (Nat.le_trans own.1 own.2)⟩⟩
  | gaveUp found full =>
    have own := loops _ (List.mem_of_getElem? found)
    exact ⟨set_meets loops (fun _ _ _ _ same => same) trivial,
      List.forall_mem_append.mpr ⟨answered,List.forall_mem_singleton.mpr own.1⟩⟩
  | released => exact ⟨set_meets loops (fun _ _ _ _ both => ⟨both.1,by rw [Cell.last_write]; omega⟩) trivial,answered⟩

theorem reached_timely (latest : ∀ s access, meets s access → Latest s access)
    (path : Reached step meets (fresh maxInFlight n) s) : Timely s :=
  reached_invariant Timely ⟨fresh_callers n _,nofun⟩
    (fun s access _ inv met ran => moved_timely inv (step_moved ran) (latest s access met)) path

-- Every answer of try_acquire is the one that the limiter gives at a definite
-- point of its history; no two callers are given the same slot, and with loads
-- that are not stale the point lies within the call.
theorem answers_justified (path : Reached step meets (fresh maxInFlight n) s) :
    (∀ a ∈ s.answers, Justified s a) ∧ s.answers.Pairwise Apart ∧
    ((∀ s access, meets s access → Latest s access) → ∀ a ∈ s.answers, a.began ≤ a.position) := by
  have coherent := reached_coherent path
  exact ⟨coherent.answered,coherent.apart,fun latest => (reached_timely latest path).answered⟩

theorem answers_justified_race : ∃ s, run step (fresh 1 2) race = some s ∧
    s.answers = [⟨0,0,0,0,true⟩,⟨1,1,0,1,false⟩] ∧ ∀ a ∈ s.answers, Justified s a := by
  obtain ⟨s,ran,answers⟩ : ∃ s, run step (fresh 1 2) race = some s ∧ s.answers = [⟨0,0,0,0,true⟩,⟨1,1,0,1,false⟩] :=
    Option.map_eq_some_iff.mp (by decide)
  exact ⟨s,ran,answers,(answers_justified (run_reached .initial ran)).1⟩

end Answers
end Kvmux.Limiter
