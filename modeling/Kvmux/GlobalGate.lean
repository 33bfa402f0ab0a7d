import Mathlib.Data.List.Basic
import Mathlib.Data.List.Nodup
import Kvmux.Tally

namespace Kvmux.GlobalGate
open Tally

inductive AdmitStatus where
  | admitted
  | queueFull
  | queueTimeout
  deriving DecidableEq, Repr

-- A waiter is named by the acquire call that created it; `granted` lists the
-- waiters whose granted flag has been set.
structure Gate where
  maxConcurrent : Int
  queueDepth : Int
  inFlight : Int := 0
  waiters : List Nat := []
  granted : List Nat := []
  deriving DecidableEq, Repr

inductive Entry where
  | admitted
  | queueFull
  | queued
  deriving DecidableEq, Repr

-- acquire up to its wait: the executor lookup in between does not suspend.
def acquireEntry (g : Gate) (waiter : Nat) : Entry × Gate :=
  if g.inFlight < g.maxConcurrent ∧ g.waiters = [] then
    (.admitted,{g with inFlight := g.inFlight + 1})
  else if (g.waiters.length : Int) ≥ g.queueDepth then (.queueFull,g)
  else (.queued,{g with waiters := g.waiters ++ [waiter]})

-- acquire after its wait, whether the timer fired or was cancelled.
def acquireResume (g : Gate) (waiter : Nat) : AdmitStatus × Gate :=
  if waiter ∈ g.granted then (.admitted,g)
  else (.queueTimeout,{g with waiters := g.waiters.erase waiter})

def release (g : Gate) : Gate :=
  match g.waiters with
  | waiter :: rest => {g with waiters := rest,granted := waiter :: g.granted}
  | [] => {g with inFlight := g.inFlight - 1}

theorem entry_config (g : Gate) (waiter : Nat) :
    (acquireEntry g waiter).2.maxConcurrent = g.maxConcurrent ∧ (acquireEntry g waiter).2.queueDepth = g.queueDepth := by
  unfold acquireEntry
  split
  · exact ⟨rfl,rfl⟩
  · split <;> exact ⟨rfl,rfl⟩

theorem resume_config (g : Gate) (waiter : Nat) :
    (acquireResume g waiter).2.maxConcurrent = g.maxConcurrent ∧ (acquireResume g waiter).2.queueDepth = g.queueDepth := by
  unfold acquireResume
  split <;> exact ⟨rfl,rfl⟩

theorem release_config (g : Gate) :
    (release g).maxConcurrent = g.maxConcurrent ∧ (release g).queueDepth = g.queueDepth := by
  unfold release
  split <;> exact ⟨rfl,rfl⟩

-- Where one acquire call stands, as its caller sees it.
inductive Phase where
  | idle
  | waiting
  | holding
  | gone
  deriving DecidableEq, Repr

def holdsSlot (g : Gate) (i : Nat) (phase : Phase) : Bool :=
  match phase with
  | .holding => true
  | .waiting => decide (i ∈ g.granted)
  | _ => false

structure GateInv (g : Gate) (phases : List Phase) : Prop where
  slots : g.inFlight = tally (holdsSlot g) phases
  cap : g.inFlight ≤ g.maxConcurrent
  queue : ∀ i, i ∈ g.waiters ↔ phases[i]? = some .waiting ∧ i ∉ g.granted
  nodup : g.waiters.Nodup
  room : (g.waiters.length : Int) ≤ g.queueDepth
  full : g.waiters ≠ [] → g.inFlight = g.maxConcurrent
  once : g.granted.Nodup
  entered : ∀ i ∈ g.granted, i < phases.length ∧ phases[i]? ≠ some .idle

def start (maxConcurrent queueDepth : Int) : Gate := {maxConcurrent,queueDepth}

theorem start_inv (slots : 0 ≤ maxConcurrent) (depth : 0 ≤ queueDepth) :
    GateInv (start maxConcurrent queueDepth) [] := by
  refine ⟨rfl,slots,?_,List.nodup_nil,depth,?_,List.nodup_nil,?_⟩
  · simp [start]
  · simp [start]
  · simp [start]

theorem arrive_inv (valid : GateInv g phases) : GateInv g (phases ++ [.idle]) := by
  refine ⟨?_,valid.cap,?_,valid.nodup,valid.room,valid.full,valid.once,?_⟩
  · rw [tally_append]
    simpa [holdsSlot] using valid.slots
  · intro i
    rw [valid.queue i,List.getElem?_append]
    split
    · exact Iff.rfl
    · rename_i beyond
      simp only [List.getElem?_eq_none (Nat.le_of_not_lt beyond),reduceCtorEq,false_and,false_iff,not_and]
      intro found
      have := List.getElem?_eq_some_iff.mp found
      obtain ⟨bound,equal⟩ := this
      simp at equal
  · intro i member
    obtain ⟨bound,started⟩ := valid.entered i member
    refine ⟨by simp; omega,?_⟩
    rwa [List.getElem?_append_left bound]

theorem set_bound {phases : List Phase} {i : Nat} {new : Phase} (old : phases[i]? = some before) (j : Nat) :
    (phases.set i new)[j]? = if j = i then some new else phases[j]? := by
  have bound := (List.getElem?_eq_some_iff.mp old).1
  by_cases same : j = i
  · subst j; simp [bound]
  · simp [same,List.getElem?_set_ne (Ne.symm same)]

-- Moving one call to a new phase keeps every granted waiter an entered one.
theorem entered_set {phases : List Phase} {granted : List Nat}
    (entered : ∀ i ∈ granted, i < phases.length ∧ phases[i]? ≠ some Phase.idle)
    (old : phases[i]? = some before) (started : new ≠ .idle) :
    ∀ j ∈ granted, j < (phases.set i new).length ∧ (phases.set i new)[j]? ≠ some .idle := by
  intro j member
  obtain ⟨bound,past⟩ := entered j member
  refine ⟨by simpa using bound,?_⟩
  rw [set_bound old]
  split
  · simpa using started
  · exact past

theorem idle_unknown (valid : GateInv g phases) (idle : phases[i]? = some .idle) :
    i ∉ g.granted ∧ i ∉ g.waiters := by
  refine ⟨fun member => (valid.entered i member).2 idle,fun member => ?_⟩
  have waiting := ((valid.queue i).mp member).1
  rw [idle] at waiting
  cases waiting

def Entry.phase : Entry → Phase
  | .admitted => .holding
  | .queueFull => .gone
  | .queued => .waiting

-- The three ways an acquire call can begin.
theorem admit_inv (valid : GateInv g phases) (idle : phases[i]? = some .idle) (free : g.inFlight < g.maxConcurrent)
    (empty : g.waiters = []) : GateInv {g with inFlight := g.inFlight + 1} (phases.set i .holding) := by
  refine ⟨?_,?_,?_,valid.nodup,valid.room,by simp [empty],valid.once,entered_set valid.entered idle (by simp)⟩
  · have moved := tally_set (holdsSlot g) idle .holding
    have slots := valid.slots
    change g.inFlight + 1 = (tally (holdsSlot g) (phases.set i .holding) : Int)
    simp only [holdsSlot,Bool.toNat_false,Bool.toNat_true] at moved
    omega
  · change g.inFlight + 1 ≤ g.maxConcurrent
    omega
  · intro j
    rw [set_bound idle]
    by_cases same : j = i
    · subst j; simp [empty]
    · simpa [same] using valid.queue j

theorem refuse_inv (valid : GateInv g phases) (idle : phases[i]? = some .idle) : GateInv g (phases.set i .gone) := by
  refine ⟨?_,valid.cap,?_,valid.nodup,valid.room,valid.full,valid.once,entered_set valid.entered idle (by simp)⟩
  · have moved := tally_set (holdsSlot g) idle .gone
    have slots := valid.slots
    simp only [holdsSlot,Bool.toNat_false] at moved
    omega
  · intro j
    rw [set_bound idle]
    by_cases same : j = i
    · subst j; simp [(idle_unknown valid idle).2]
    · simpa [same] using valid.queue j

theorem enqueue_inv (valid : GateInv g phases) (idle : phases[i]? = some .idle) (taken : g.inFlight = g.maxConcurrent)
    (space : (g.waiters.length : Int) < g.queueDepth) :
    GateInv {g with waiters := g.waiters ++ [i]} (phases.set i .waiting) := by
  obtain ⟨ungranted,unqueued⟩ := idle_unknown valid idle
  refine ⟨?_,valid.cap,?_,?_,?_,fun _ => taken,valid.once,entered_set valid.entered idle (by simp)⟩
  · have moved := tally_set (holdsSlot g) idle .waiting
    have slots := valid.slots
    change g.inFlight = (tally (holdsSlot g) (phases.set i .waiting) : Int)
    simp only [holdsSlot,ungranted,decide_false,Bool.toNat_false] at moved
    omega
  · intro j
    rw [set_bound idle]
    by_cases same : j = i
    · subst j; simp [ungranted]
    · simpa [same] using valid.queue j
  · exact List.nodup_append.mpr ⟨valid.nodup,List.nodup_singleton i,by
      intro a left b right equal
      rw [List.mem_singleton.mp right] at equal
      exact unqueued (equal ▸ left)⟩
  · simp only [List.length_append,List.length_singleton]
    push_cast
    omega

theorem entry_inv (valid : GateInv g phases) (idle : phases[i]? = some .idle) :
    GateInv (acquireEntry g i).2 (phases.set i (acquireEntry g i).1.phase) := by
  unfold acquireEntry
  split
  · rename_i free
    exact admit_inv valid idle free.1 free.2
  · rename_i busy
    split
    · exact refuse_inv valid idle
    · rename_i space
      have taken : g.inFlight = g.maxConcurrent := by
        by_cases empty : g.waiters = []
        · have cap := valid.cap
          have : ¬ g.inFlight < g.maxConcurrent := fun less => busy ⟨less,empty⟩
          omega
        · exact valid.full empty
      exact enqueue_inv valid idle taken (by omega)

def AdmitStatus.phase : AdmitStatus → Phase
  | .admitted => .holding
  | _ => .gone

theorem resume_inv (valid : GateInv g phases) (waits : phases[i]? = some .waiting) :
    GateInv (acquireResume g i).2 (phases.set i (acquireResume g i).1.phase) := by
  unfold acquireResume
  split
  · rename_i granted
    refine ⟨?_,valid.cap,?_,valid.nodup,valid.room,valid.full,valid.once,
      entered_set valid.entered waits (by simp [AdmitStatus.phase])⟩
    · have moved := tally_set (holdsSlot g) waits .holding
      have slots := valid.slots
      change g.inFlight = (tally (holdsSlot g) (phases.set i .holding) : Int)
      simp only [holdsSlot,granted,decide_true] at moved
      omega
    · intro j
      rw [set_bound waits]
      by_cases same : j = i
      · subst j
        have queue := valid.queue i
        simpa [granted,AdmitStatus.phase] using queue
      · simpa [same] using valid.queue j
  · rename_i ungranted
    refine ⟨?_,valid.cap,?_,valid.nodup.erase i,?_,?_,valid.once,
      entered_set valid.entered waits (by simp [AdmitStatus.phase])⟩
    · have moved := tally_set (holdsSlot g) waits .gone
      have slots := valid.slots
      change g.inFlight = (tally (holdsSlot g) (phases.set i .gone) : Int)
      simp only [holdsSlot,ungranted,decide_false] at moved
      omega
    · intro j
      rw [set_bound waits,valid.nodup.mem_erase_iff,valid.queue j]
      by_cases same : j = i <;> simp [same,AdmitStatus.phase]
    · have shorter := List.length_erase_le (a := i) (l := g.waiters)
      have room := valid.room
      change ((g.waiters.erase i).length : Int) ≤ g.queueDepth
      omega
    · intro remaining
      exact valid.full (fun empty => remaining (by simp [empty]))

-- The slot moves from the releaser to the oldest waiter without touching the
-- count: one test turns true at the waiter, one entry turns false at the releaser.
theorem handover_inv (valid : GateInv g phases) (holds : phases[i]? = some .holding) (queued : g.waiters = waiter :: rest) :
    GateInv {g with waiters := rest,granted := waiter :: g.granted} (phases.set i .gone) := by
  have released := tally_set (holdsSlot g) holds .gone
  have slots := valid.slots
  simp only [holdsSlot,Bool.toNat_true,Bool.toNat_false] at released
  have nodup := valid.nodup
  rw [queued,List.nodup_cons] at nodup
  obtain ⟨waits,ungranted⟩ := (valid.queue waiter).mp (by simp [queued])
  have other : waiter ≠ i := by
    intro same
    rw [same,holds] at waits
    cases waits
  have handed := tally_differ (holdsSlot g) (holdsSlot {g with waiters := rest,granted := waiter :: g.granted})
    (show (phases.set i .gone)[waiter]? = some .waiting by rw [set_bound holds,if_neg other,waits])
    (by intro j phase different; cases phase <;> simp [holdsSlot,different])
  simp only [holdsSlot,ungranted,decide_false,Bool.toNat_false,List.mem_cons,true_or,decide_true,
    Bool.toNat_true] at handed
  refine ⟨?_,valid.cap,?_,nodup.2,?_,?_,List.nodup_cons.mpr ⟨ungranted,valid.once⟩,?_⟩
  · change g.inFlight = _
    omega
  · intro j
    have queue := valid.queue j
    rw [set_bound holds]
    rw [queued,List.mem_cons] at queue
    by_cases first : j = waiter
    · subst j; simp [nodup.1]
    · by_cases same : j = i
      · subst j
        rw [holds] at queue
        simpa [first] using queue
      · simpa [first,same] using queue
  · have room := valid.room
    rw [queued,List.length_cons] at room
    change (rest.length : Int) ≤ g.queueDepth
    push_cast at room
    omega
  · intro _
    exact valid.full (by simp [queued])
  · refine entered_set ?_ holds (by decide)
    intro j member
    rcases List.mem_cons.mp member with rfl | earlier
    · exact ⟨(List.getElem?_eq_some_iff.mp waits).1,by simp [waits]⟩
    · exact valid.entered j earlier

theorem vacate_inv (valid : GateInv g phases) (holds : phases[i]? = some .holding) (empty : g.waiters = []) :
    GateInv {g with inFlight := g.inFlight - 1} (phases.set i .gone) := by
  refine ⟨?_,?_,?_,by simp [empty],?_,by simp [empty],valid.once,entered_set valid.entered holds (by decide)⟩
  · have released := tally_set (holdsSlot g) holds .gone
    have slots := valid.slots
    change g.inFlight - 1 = (tally (holdsSlot g) (phases.set i .gone) : Int)
    simp only [holdsSlot,Bool.toNat_true,Bool.toNat_false] at released
    omega
  · have cap := valid.cap
    change g.inFlight - 1 ≤ g.maxConcurrent
    omega
  · intro j
    have queue := valid.queue j
    rw [set_bound holds]
    by_cases same : j = i
    · subst j; simp [empty]
    · simpa [same,empty] using queue
  · have room := valid.room
    simpa [empty] using room

theorem release_inv (valid : GateInv g phases) (holds : phases[i]? = some .holding) :
    GateInv (release g) (phases.set i .gone) := by
  unfold release
  split
  · rename_i waiter rest queued
    exact handover_inv valid holds queued
  · rename_i empty
    exact vacate_inv valid holds empty

end Kvmux.GlobalGate
