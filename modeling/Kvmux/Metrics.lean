import Mathlib.Data.List.Basic
import Kvmux.Bytes

namespace Kvmux.Metrics

structure Labels where
  route : Bytes
  backend : Bytes := []
  model : Bytes := []
  deriving DecidableEq, Repr

def Labels.before (a b : Labels) : Bool :=
  if a.route ≠ b.route then decide (a.route < b.route)
  else if a.backend ≠ b.backend then decide (a.backend < b.backend)
  else decide (a.model < b.model)

structure Histogram (V : Type u) where
  bounds : List V
  counts : List Nat
  totalCount : Nat
  sum : V

def kTtftBuckets : List Float :=
  [0.001,0.005,0.01,0.02,0.04,0.06,0.08,0.1,0.25,0.5,0.75,1.0,2.5,5.0,7.5,10.0]

def kTpotBuckets : List Float := [0.01,0.025,0.05,0.075,0.1,0.15,0.2,0.3,0.4,0.5,0.75,1.0,2.5]

def kDurationBuckets : List Float :=
  [0.01,0.02,0.04,0.08,0.16,0.32,0.64,1.28,2.56,5.12,10.24,20.48,40.96,81.92]

-- An ordered map as the list of its entries in key order.
def upsert [DecidableEq K] (before : K → K → Bool) (key : K) (blank : V) (change : V → V) : List (K × V) → List (K × V)
  | [] => [(key,change blank)]
  | (other,value) :: rest =>
    if other = key then (key,change value) :: rest
    else if before key other then (key,change blank) :: (other,value) :: rest
    else (other,value) :: upsert before key blank change rest

theorem upsert_keys [DecidableEq K] {before : K → K → Bool} {blank : V} {change : V → V} {map : List (K × V)}
    (member : k ∈ (upsert before key blank change map).map Prod.fst) : k = key ∨ k ∈ map.map Prod.fst := by
  induction map with
  | nil => exact .inl (List.mem_singleton.mp member)
  | cons entry rest ih =>
    obtain ⟨other,value⟩ := entry
    unfold upsert at member
    split at member
    · rename_i same
      subst same
      exact .inr member
    · split at member
      · exact List.mem_cons.mp member
      · rcases List.mem_cons.mp member with rfl | later
        · exact .inr List.mem_cons_self
        · exact (ih later).imp_right (List.mem_cons_of_mem other)

section Keys

-- A key order as the standard map asks for it: irreflexive, transitive, and two
-- keys neither of which comes first are one key.
structure Sorting (before : K → K → Bool) : Prop where
  irrefl : ∀ a, before a a = false
  trans : ∀ a b c, before a b = true → before b c = true → before a c = true
  connected : ∀ a b, a ≠ b → before a b = false → before b a = true

theorem bytes_above {a b : Bytes} (apart : a ≠ b) (above : ¬a < b) : b < a :=
  (List.le_iff_lt_or_eq.mp (List.not_lt.mp above)).resolve_right apart.symm

theorem bytes_sorting : Sorting fun a b : Bytes => decide (a < b) := by
  refine ⟨fun a => ?_,fun a b c first second => ?_,fun a b apart above => ?_⟩
  · exact decide_eq_false (List.lt_irrefl a)
  · exact decide_eq_true (List.lt_trans (of_decide_eq_true first) (of_decide_eq_true second))
  · exact decide_eq_true (bytes_above apart (of_decide_eq_false above))

theorem Labels.before_iff (a b : Labels) :
    a.before b = true ↔ a.route < b.route ∨ a.route = b.route ∧
      (a.backend < b.backend ∨ a.backend = b.backend ∧ a.model < b.model) := by
  unfold Labels.before
  by_cases route : a.route = b.route
  · by_cases backend : a.backend = b.backend
    · simp [route,backend,List.lt_irrefl]
    · simp [route,backend,List.lt_irrefl]
  · simp [route]

theorem labels_sorting : Sorting Labels.before := by
  refine ⟨fun a => ?_,fun a b c first second => ?_,fun a b apart above => ?_⟩
  · simp [Labels.before,List.lt_irrefl]
  · rw [Labels.before_iff] at first second ⊢
    rcases first with route | ⟨route,first⟩
    · rcases second with route' | ⟨route',_⟩
      · exact .inl (List.lt_trans route route')
      · exact .inl (route' ▸ route)
    · rcases second with route' | ⟨route',second⟩
      · exact .inl (route ▸ route')
      · refine .inr ⟨route.trans route',?_⟩
        rcases first with backend | ⟨backend,model⟩
        · rcases second with backend' | ⟨backend',_⟩
          · exact .inl (List.lt_trans backend backend')
          · exact .inl (backend' ▸ backend)
        · rcases second with backend' | ⟨backend',model'⟩
          · exact .inl (backend ▸ backend')
          · exact .inr ⟨backend.trans backend',List.lt_trans model model'⟩
  · have later : ¬a.before b = true := by simp [above]
    rw [Labels.before_iff] at later ⊢
    by_cases route : a.route = b.route
    · refine .inr ⟨route.symm,?_⟩
      by_cases backend : a.backend = b.backend
      · have model : a.model ≠ b.model := by
          intro same
          apply apart
          cases a
          cases b
          simp_all
        refine .inr ⟨backend.symm,bytes_above model ?_⟩
        exact fun less => later (.inr ⟨route,.inr ⟨backend,less⟩⟩)
      · exact .inl (bytes_above backend fun less => later (.inr ⟨route,.inl less⟩))
    · exact .inl (bytes_above route fun less => later (.inl less))

def Ordered (before : K → K → Bool) (map : List (K × V)) : Prop := map.Pairwise fun a b => before a.1 b.1 = true

theorem lookup_passes [BEq K] [LawfulBEq K] {k other : K} (apart : k ≠ other) (value : V) (rest : List (K × V)) :
    ((other,value) :: rest).lookup k = rest.lookup k := by
  rw [List.lookup_cons,beq_false_of_ne apart]

theorem ordered_absent [BEq K] [LawfulBEq K] {before : K → K → Bool} (sorting : Sorting before) {map : List (K × V)}
    (above : ∀ entry ∈ map, before key entry.1 = true) : map.lookup key = none := by
  rw [List.lookup_eq_none_iff]
  intro entry member
  have apart : key ≠ entry.1 := by
    intro same
    have self := above entry member
    rw [← same,sorting.irrefl] at self
    cases self
  simpa using apart

theorem upsert_lookup [DecidableEq K] [BEq K] [LawfulBEq K] {before : K → K → Bool} (sorting : Sorting before)
    {map : List (K × V)} (ordered : Ordered before map) (blank : V) (change : V → V) (key k : K) :
    (upsert before key blank change map).lookup k =
      if k = key then some (change ((map.lookup key).getD blank)) else map.lookup k := by
  induction map with
  | nil =>
    by_cases same : k = key
    · simp [upsert,same]
    · rw [if_neg same]
      exact lookup_passes same _ _
  | cons entry rest ih =>
    obtain ⟨other,value⟩ := entry
    obtain ⟨above,later⟩ := List.pairwise_cons.mp ordered
    unfold upsert
    split
    · rename_i same
      subst same
      by_cases own : k = other
      · simp [own]
      · rw [if_neg own,lookup_passes own,lookup_passes own]
    · rename_i apart
      split
      · rename_i less
        by_cases own : k = key
        · have absent : ((other,value) :: rest).lookup key = none := by
            refine ordered_absent sorting (List.forall_mem_cons.mpr ⟨less,?_⟩)
            exact fun entry member => sorting.trans _ _ _ less (above entry member)
          rw [own,List.lookup_cons_self,if_pos rfl,absent,Option.getD_none]
        · rw [if_neg own,lookup_passes own]
      · rw [lookup_passes (Ne.symm apart)]
        by_cases own : k = other
        · rw [own,if_neg apart,List.lookup_cons_self,List.lookup_cons_self]
        · rw [lookup_passes own,lookup_passes own,ih later]

theorem upsert_ordered [DecidableEq K] {before : K → K → Bool} (sorting : Sorting before) {map : List (K × V)}
    (ordered : Ordered before map) (blank : V) (change : V → V) (key : K) :
    Ordered before (upsert before key blank change map) := by
  induction map with
  | nil => exact List.pairwise_singleton _ _
  | cons entry rest ih =>
    obtain ⟨other,value⟩ := entry
    obtain ⟨above,later⟩ := List.pairwise_cons.mp ordered
    unfold upsert
    split
    · rename_i same
      subst same
      exact List.pairwise_cons.mpr ⟨above,later⟩
    · rename_i apart
      split
      · rename_i less
        refine List.pairwise_cons.mpr ⟨List.forall_mem_cons.mpr ⟨less,?_⟩,ordered⟩
        exact fun entry member => sorting.trans _ _ _ less (above entry member)
      · rename_i more
        refine List.pairwise_cons.mpr ⟨fun entry member => ?_,ih later⟩
        rcases upsert_keys (List.mem_map_of_mem member) with same | old
        · rw [same]
          exact sorting.connected _ _ (Ne.symm apart) (Bool.eq_false_iff.mpr more)
        · obtain ⟨entry',member',same⟩ := List.mem_map.mp old
          rw [← same]
          exact above entry' member'

theorem ordered_lookup [BEq K] [LawfulBEq K] {before : K → K → Bool} (sorting : Sorting before) {map : List (K × V)}
    (ordered : Ordered before map) (member : entry ∈ map) : map.lookup entry.1 = some entry.2 := by
  induction map with
  | nil => cases member
  | cons first rest ih =>
    obtain ⟨above,later⟩ := List.pairwise_cons.mp ordered
    rcases List.mem_cons.mp member with rfl | inside
    · exact List.lookup_cons_self
    · have apart : entry.1 ≠ first.1 := by
        intro same
        have self := above entry inside
        rw [same,sorting.irrefl] at self
        cases self
      exact (lookup_passes apart _ _).trans (ih later inside)

theorem upsert_map [DecidableEq K] {before : K → K → Bool} (f : V → W) {change : V → V} (change' : W → W)
    (step : ∀ v, f (change v) = change' (f v)) (blank : V) (key : K) (map : List (K × V)) :
    (upsert before key blank change map).map (fun entry => (entry.1,f entry.2)) =
      upsert before key (f blank) change' (map.map fun entry => (entry.1,f entry.2)) := by
  induction map with
  | nil => simp [upsert,step]
  | cons entry rest ih =>
    obtain ⟨other,value⟩ := entry
    unfold upsert
    split
    · simp [*]
    · split
      · simp [*]
      · simp [*]

end Keys

structure Registry (V : Type u) where
  ttft : List (Labels × Histogram V) := []
  itl : List (Labels × Histogram V) := []
  e2e : List (Labels × Histogram V) := []
  queue : List (Labels × Histogram V) := []
  overhead : List (Labels × Histogram V) := []
  requestsTotal : List (Bytes × Nat) := []
  affinitySpills : List (Labels × Nat) := []
  backendFailures : List (Labels × Nat) := []
  requestsRunning : Int := 0
  requestsWaiting : Int := 0
  ttftBuckets : List V
  tpotBuckets : List V
  durationBuckets : List V

def Registry.create (ttftBuckets tpotBuckets durationBuckets : List V) : Registry V :=
  {ttftBuckets,tpotBuckets,durationBuckets}

inductive RegistryCall (V : Type u) where
  | observeTtft (labels : Labels) (seconds : V)
  | observeItl (labels : Labels) (seconds : V)
  | observeE2e (labels : Labels) (seconds : V)
  | observeQueueTime (labels : Labels) (seconds : V)
  | observeOverhead (labels : Labels) (seconds : V)
  | incRequestsTotal (code : Bytes)
  | incAffinitySpills (labels : Labels) (n : Int)
  | incBackendFailures (labels : Labels) (n : Int)
  | setRequestsRunning (v : Int)
  | setRequestsWaiting (v : Int)

section Recording

-- How a count is advanced is left open: as the whole number that it stands for, or
-- in 64 bits.
variable {V : Type u} [LE V] [DecidableLE V] [Add V] [OfNat V 0] (add : Nat → Int → Nat)

def Histogram.fresh (upperBounds : List V) : Histogram V :=
  {bounds := upperBounds,counts := upperBounds.map fun _ => 0,totalCount := 0,sum := 0}

def Histogram.observe (h : Histogram V) (value : V) : Histogram V :=
  {h with
    sum := h.sum + value
    totalCount := add h.totalCount 1
    counts := h.bounds.zipWith (fun bound count => if value ≤ bound then add count 1 else count) h.counts}

def histFor (m : List (Labels × Histogram V)) (labels : Labels) (buckets : List V) (seconds : V) : List (Labels × Histogram V) :=
  upsert Labels.before labels (.fresh buckets) (·.observe add seconds) m

def Registry.apply (r : Registry V) : RegistryCall V → Registry V
  | .observeTtft labels seconds => {r with ttft := histFor add r.ttft labels r.ttftBuckets seconds}
  | .observeItl labels seconds => {r with itl := histFor add r.itl labels r.tpotBuckets seconds}
  | .observeE2e labels seconds => {r with e2e := histFor add r.e2e labels r.durationBuckets seconds}
  | .observeQueueTime labels seconds => {r with queue := histFor add r.queue labels r.durationBuckets seconds}
  | .observeOverhead labels seconds => {r with overhead := histFor add r.overhead labels r.durationBuckets seconds}
  | .incRequestsTotal code =>
    {r with requestsTotal := upsert (fun a b => decide (a < b)) code 0 (add · 1) r.requestsTotal}
  | .incAffinitySpills labels n => {r with affinitySpills := upsert Labels.before labels 0 (add · n) r.affinitySpills}
  | .incBackendFailures labels n => {r with backendFailures := upsert Labels.before labels 0 (add · n) r.backendFailures}
  | .setRequestsRunning v => {r with requestsRunning := v}
  | .setRequestsWaiting v => {r with requestsWaiting := v}

end Recording

-- What the gateway records of its requests, and how: no count is cut off.
inductive Metric where
  | observeTtft (labels : Labels) (seconds : Float)
  | observeItl (labels : Labels) (seconds : Float)
  | observeE2e (labels : Labels) (seconds : Float)
  | observeQueueTime (labels : Labels) (seconds : Float)
  | observeOverhead (labels : Labels) (seconds : Float)
  | incRequestsTotal (code : Bytes)
  | incAffinitySpills (labels : Labels) (n : Nat)
  | incBackendFailures (labels : Labels)

def Metric.call : Metric → RegistryCall Float
  | .observeTtft labels seconds => .observeTtft labels seconds
  | .observeItl labels seconds => .observeItl labels seconds
  | .observeE2e labels seconds => .observeE2e labels seconds
  | .observeQueueTime labels seconds => .observeQueueTime labels seconds
  | .observeOverhead labels seconds => .observeOverhead labels seconds
  | .incRequestsTotal code => .incRequestsTotal code
  | .incAffinitySpills labels n => .incAffinitySpills labels n
  | .incBackendFailures labels => .incBackendFailures labels 1

def exactly (count : Nat) (n : Int) : Nat := (count + n).toNat

def Registry.record (r : Registry Float) (metric : Metric) : Registry Float := r.apply exactly metric.call

end Kvmux.Metrics
