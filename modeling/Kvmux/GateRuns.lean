import Mathlib.Data.List.Basic
import Kvmux.GlobalGate
import Kvmux.Transition

namespace Kvmux.GateRuns
open GlobalGate Transition Tally

-- The life of one acquire call. A waiter whose timer has fired stays suspended,
-- and in the queue, until its coroutine is resumed.
inductive Status where
  | waiting (fired : Bool)
  | holding
  | released
  | rejected
  | timedOut
  deriving DecidableEq, Repr

structure Calls where
  gate : Gate
  calls : List Status
  deriving DecidableEq, Repr

inductive Act where
  | acquire
  | expire (call : Nat)
  | resume (call : Nat)
  | release (call : Nat)
  deriving DecidableEq, Repr

def Entry.status : Entry → Status
  | .admitted => .holding
  | .queueFull => .rejected
  | .queued => .waiting false

def AdmitStatus.status : AdmitStatus → Status
  | .admitted => .holding
  | .queueFull => .rejected
  | .queueTimeout => .timedOut

def step (s : Calls) : Act → Option Calls
  | .acquire =>
    let out := acquireEntry s.gate s.calls.length
    some ⟨out.2,s.calls ++ [Entry.status out.1]⟩
  | .expire call =>
    if s.calls[call]? = some (.waiting false) ∧ call ∉ s.gate.granted then
      some {s with calls := s.calls.set call (.waiting true)}
    else none
  | .resume call =>
    match s.calls[call]? with
    | some (.waiting fired) =>
      if fired = true ∨ call ∈ s.gate.granted then
        let out := acquireResume s.gate call
        some ⟨out.2,s.calls.set call (AdmitStatus.status out.1)⟩
      else none
    | _ => none
  | .release call =>
    if s.calls[call]? = some .holding then some ⟨release s.gate,s.calls.set call .released⟩ else none

def begin (maxConcurrent queueDepth : Int) : Calls := ⟨start maxConcurrent queueDepth,[]⟩

def Status.phase : Status → Phase
  | .waiting _ => .waiting
  | .holding => .holding
  | _ => .gone

-- A call owns a slot when it was admitted at once, or its granted flag is set,
-- resumed or not, until it releases.
def ownsSlot (g : Gate) (i : Nat) (status : Status) : Bool := holdsSlot g i status.phase

def Valid (maxConcurrent queueDepth : Int) (s : Calls) : Prop :=
  GateInv s.gate (s.calls.map Status.phase) ∧ s.gate.maxConcurrent = maxConcurrent ∧ s.gate.queueDepth = queueDepth

-- What each action does, once it is not refused.
theorem step_cases (ran : step s move = some next) :
    (move = .acquire ∧ next = ⟨(acquireEntry s.gate s.calls.length).2,
      s.calls ++ [Entry.status (acquireEntry s.gate s.calls.length).1]⟩) ∨
    (∃ call, move = .expire call ∧ s.calls[call]? = some (.waiting false) ∧
      next = {s with calls := s.calls.set call (.waiting true)}) ∨
    (∃ call fired, move = .resume call ∧ s.calls[call]? = some (.waiting fired) ∧
      next = ⟨(acquireResume s.gate call).2,s.calls.set call (AdmitStatus.status (acquireResume s.gate call).1)⟩) ∨
    (∃ call, move = .release call ∧ s.calls[call]? = some .holding ∧
      next = ⟨release s.gate,s.calls.set call .released⟩) := by
  cases move with
  | acquire => exact .inl ⟨rfl,(Option.some.inj ran).symm⟩
  | expire call =>
    simp only [step] at ran
    split at ran
    · rename_i armed
      exact .inr (.inl ⟨call,rfl,armed.1,(Option.some.inj ran).symm⟩)
    · cases ran
  | resume call =>
    simp only [step] at ran
    split at ran
    · rename_i fired found
      split at ran
      · exact .inr (.inr (.inl ⟨call,fired,rfl,found,(Option.some.inj ran).symm⟩))
      · cases ran
    · cases ran
  | release call =>
    simp only [step] at ran
    split at ran
    · rename_i holds
      exact .inr (.inr (.inr ⟨call,rfl,holds,(Option.some.inj ran).symm⟩))
    · cases ran

theorem valid_preserved (s : Calls) (act : Act) (next : Calls) (valid : Valid maxConcurrent queueDepth s)
    (_ : Any s act) (ran : step s act = some next) : Valid maxConcurrent queueDepth next := by
  obtain ⟨valid,cap,depth⟩ := valid
  obtain ⟨-,rfl⟩ | ⟨call,-,armed,rfl⟩ | ⟨call,fired,-,found,rfl⟩ | ⟨call,-,holds,rfl⟩ := step_cases ran
  · have entered := entry_inv (i := s.calls.length) (arrive_inv valid) (by simp)
    have fixed := entry_config s.gate s.calls.length
    have same : (s.calls.map Status.phase ++ [Phase.idle]).set s.calls.length
        (acquireEntry s.gate s.calls.length).1.phase =
        (s.calls ++ [Entry.status (acquireEntry s.gate s.calls.length).1]).map Status.phase := by
      cases (acquireEntry s.gate s.calls.length).1 <;> simp [Entry.status,Entry.phase,Status.phase]
    rw [same] at entered
    exact ⟨entered,fixed.1.trans cap,fixed.2.trans depth⟩
  · have same : (s.calls.set call (.waiting true)).map Status.phase = s.calls.map Status.phase := by
      rw [List.map_set]
      exact set_own (by simp [armed,Status.phase])
    exact ⟨by rwa [same],cap,depth⟩
  · have resumed := resume_inv (i := call) valid (by simp [found,Status.phase])
    have fixed := resume_config s.gate call
    have same : (acquireResume s.gate call).1.phase =
        (AdmitStatus.status (acquireResume s.gate call).1).phase := by
      cases (acquireResume s.gate call).1 <;> rfl
    rw [same] at resumed
    exact ⟨by rwa [List.map_set],fixed.1.trans cap,fixed.2.trans depth⟩
  · have freed := release_inv (i := call) valid (by simp [holds,Status.phase])
    have fixed := release_config s.gate
    exact ⟨by rwa [List.map_set],fixed.1.trans cap,fixed.2.trans depth⟩

theorem reached_valid (slots : 1 ≤ maxConcurrent) (depth : 0 ≤ queueDepth)
    (path : Reached step Any (begin maxConcurrent queueDepth) s) : Valid maxConcurrent queueDepth s :=
  reached_invariant (Valid maxConcurrent queueDepth) ⟨start_inv (by omega) depth,rfl,rfl⟩ valid_preserved path

structure Conserved (maxConcurrent queueDepth : Int) (s : Calls) : Prop where
  slots : s.gate.inFlight = tally (ownsSlot s.gate) s.calls
  bounds : 0 ≤ s.gate.inFlight ∧ s.gate.inFlight ≤ maxConcurrent
  queue : ∀ i, i ∈ s.gate.waiters ↔ (∃ fired, s.calls[i]? = some (.waiting fired)) ∧ i ∉ s.gate.granted
  nodup : s.gate.waiters.Nodup
  room : (s.gate.waiters.length : Int) ≤ queueDepth
  full : s.gate.waiters ≠ [] → s.gate.inFlight = maxConcurrent
  once : s.gate.granted.Nodup

theorem waiting_phase (s : Calls) (i : Nat) :
    (s.calls.map Status.phase)[i]? = some .waiting ↔ ∃ fired, s.calls[i]? = some (.waiting fired) := by
  rw [List.getElem?_map]
  cases found : s.calls[i]? with
  | none => simp
  | some status => cases status <;> simp [Status.phase]

theorem valid_conserved (valid : Valid maxConcurrent queueDepth s) : Conserved maxConcurrent queueDepth s := by
  obtain ⟨valid,cap,depth⟩ := valid
  have slots := valid.slots
  rw [tally_map] at slots
  refine ⟨slots,⟨?_,cap ▸ valid.cap⟩,?_,valid.nodup,depth ▸ valid.room,fun queued => (valid.full queued).trans cap,valid.once⟩
  · rw [slots]; exact Int.natCast_nonneg _
  · intro i
    rw [valid.queue i,waiting_phase]

theorem acquire_rejected (ran : step s .acquire = some next)
    (refused : next.calls[s.calls.length]? = some .rejected) :
    (acquireEntry s.gate s.calls.length).1 = .queueFull ∧ next.gate = s.gate := by
  cases Option.some.inj ran
  have entry : Entry.status (acquireEntry s.gate s.calls.length).1 = .rejected := by simpa using refused
  revert entry
  unfold acquireEntry
  split
  · intro entry; cases entry
  · split
    · intro _; exact ⟨rfl,rfl⟩
    · intro entry; cases entry

theorem refused_full (valid : GateInv g phases) (refused : (acquireEntry g waiter).1 = .queueFull) :
    g.inFlight = g.maxConcurrent ∧ (g.waiters.length : Int) = g.queueDepth := by
  unfold acquireEntry at refused
  split at refused
  · cases refused
  · rename_i busy
    split at refused
    · rename_i packed
      have cap := valid.cap
      have room := valid.room
      refine ⟨?_,by omega⟩
      by_cases queued : g.waiters = []
      · have : ¬ g.inFlight < g.maxConcurrent := fun free => busy ⟨free,queued⟩
        omega
      · exact valid.full queued
    · cases refused

theorem resume_outcome (ran : step s (.resume call) = some next) :
    ∃ fired, s.calls[call]? = some (.waiting fired) ∧ next.gate = (acquireResume s.gate call).2 ∧
      next.calls[call]? = some (AdmitStatus.status (acquireResume s.gate call).1) := by
  simp only [step] at ran
  split at ran
  · rename_i fired found
    split at ran
    · cases Option.some.inj ran
      have bound := (List.getElem?_eq_some_iff.mp found).1
      exact ⟨fired,found,rfl,by simp [bound]⟩
    · cases ran
  · cases ran

theorem slots_conserved (slots : 1 ≤ maxConcurrent) (depth : 0 ≤ queueDepth)
    (path : Reached step Any (begin maxConcurrent queueDepth) s) :
    Conserved maxConcurrent queueDepth s ∧
    (∀ next, step s .acquire = some next → next.calls[s.calls.length]? = some .rejected →
      s.gate.inFlight = maxConcurrent ∧ (s.gate.waiters.length : Int) = queueDepth) ∧
    (∀ call next, step s (.resume call) = some next → next.calls[call]? = some .timedOut →
      call ∉ s.gate.granted ∧ s.gate.inFlight = maxConcurrent ∧ next.gate.inFlight = maxConcurrent) ∧
    (∀ call next, step s (.resume call) = some next → call ∈ s.gate.granted →
      next.calls[call]? = some .holding ∧ next.gate = s.gate) := by
  have valid := reached_valid slots depth path
  refine ⟨valid_conserved valid,?_,?_,?_⟩
  · intro next ran refused
    obtain ⟨inv,cap,room⟩ := valid
    have := refused_full inv (acquire_rejected ran refused).1
    exact ⟨this.1.trans cap,this.2.trans room⟩
  · intro call next ran expired
    obtain ⟨fired,found,gate,outcome⟩ := resume_outcome ran
    by_cases granted : call ∈ s.gate.granted
    · rw [outcome] at expired
      simp [acquireResume,granted,AdmitStatus.status] at expired
    · have queued : call ∈ s.gate.waiters := ((valid_conserved valid).queue call).mpr ⟨⟨fired,found⟩,granted⟩
      have taken := (valid_conserved valid).full (List.ne_nil_of_mem queued)
      refine ⟨granted,taken,?_⟩
      rw [gate]
      simpa [acquireResume,granted] using taken
  · intro call next ran granted
    obtain ⟨fired,found,gate,outcome⟩ := resume_outcome ran
    rw [gate,outcome]
    simp [acquireResume,granted,AdmitStatus.status]

-- One slot, one place in the queue: the second call's timer fires, the first
-- releases before it resumes, and a third call meets a full gate.
def race : List Act := [.acquire,.acquire,.expire 1,.release 0]

def raced : Calls := ⟨{maxConcurrent := 1,queueDepth := 1,inFlight := 1,granted := [1]},[.released,.waiting true]⟩

theorem slots_conserved_race : run step (begin 1 1) race = some raced ∧ Conserved 1 1 raced ∧
    ∀ next, step raced (.resume 1) = some next → next.calls[1]? = some .holding := by
  have ran : run step (begin 1 1) race = some raced := by decide
  have held := slots_conserved (by decide) (by decide) (run_reached .initial ran)
  exact ⟨ran,held.1,fun next resumed => (held.2.2.2 1 next resumed (by decide)).1⟩

end Kvmux.GateRuns
