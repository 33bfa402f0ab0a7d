import Mathlib.Algebra.Ring.Int.Defs
import Mathlib.Algebra.Ring.Nat
import Mathlib.Data.List.Induction
import Mathlib.Data.List.Nodup
import Mathlib.Order.Lattice
import Kvmux.Exposition

namespace Kvmux.Instruments
open TextFormat Metrics
open Exposition (pairs fmtDouble histogramSamples samples)

-- Counts are the 64-bit numbers that the source keeps them in.
def wrap (n : Int) : Nat := (n % 2 ^ 64).toNat

theorem wrap_add (a n : Int) : wrap (wrap a + n) = wrap (a + n) := by
  unfold wrap
  omega

theorem wrap_small {n : Nat} (small : n < 2 ^ 64) : wrap n = n := by
  unfold wrap
  omega

def wrapping (count : Nat) (n : Int) : Nat := wrap (count + n)

section Recording
variable {V : Type u} [LE V] [DecidableLE V] [Add V] [OfNat V 0]

def advance (r : Registry V) (call : RegistryCall V) : Registry V := r.apply wrapping call

def run (r : Registry V) (calls : List (RegistryCall V)) : Registry V := calls.foldl advance r

end Recording

-- What a call is about, and what it records there.
inductive Family where
  | ttft
  | itl
  | e2e
  | queue
  | overhead
  deriving DecidableEq, Repr

inductive Counter where
  | requestsTotal (code : Bytes)
  | affinitySpills (labels : Labels)
  | backendFailures (labels : Labels)
  deriving DecidableEq, Repr

inductive Gauge where
  | requestsRunning
  | requestsWaiting
  deriving DecidableEq, Repr

inductive Instrument where
  | histogram (family : Family) (labels : Labels)
  | counter (which : Counter)
  | gauge (which : Gauge)
  deriving DecidableEq, Repr

inductive Effect (V : Type u) where
  | observe (family : Family) (labels : Labels) (seconds : V)
  | add (counter : Counter) (n : Int)
  | set (gauge : Gauge) (v : Int)

def effectOf : RegistryCall V → Effect V
  | .observeTtft labels seconds => .observe .ttft labels seconds
  | .observeItl labels seconds => .observe .itl labels seconds
  | .observeE2e labels seconds => .observe .e2e labels seconds
  | .observeQueueTime labels seconds => .observe .queue labels seconds
  | .observeOverhead labels seconds => .observe .overhead labels seconds
  | .incRequestsTotal code => .add (.requestsTotal code) 1
  | .incAffinitySpills labels n => .add (.affinitySpills labels) n
  | .incBackendFailures labels n => .add (.backendFailures labels) n
  | .setRequestsRunning v => .set .requestsRunning v
  | .setRequestsWaiting v => .set .requestsWaiting v

def Effect.instrument : Effect V → Instrument
  | .observe family labels _ => .histogram family labels
  | .add counter _ => .counter counter
  | .set gauge _ => .gauge gauge

def Effect.observed (family : Family) (labels : Labels) : Effect V → Option V
  | .observe family' labels' seconds => if family' = family ∧ labels' = labels then some seconds else none
  | .add _ _ => none
  | .set _ _ => none

def Effect.added (counter : Counter) : Effect V → Option Int
  | .observe _ _ _ => none
  | .add counter' n => if counter' = counter then some n else none
  | .set _ _ => none

def observations (family : Family) (labels : Labels) (calls : List (RegistryCall V)) : List V :=
  calls.filterMap fun call => (effectOf call).observed family labels

def increments (counter : Counter) (calls : List (RegistryCall V)) : List Int :=
  calls.filterMap fun call => (effectOf call).added counter

-- The registry read one instrument at a time.
def hist (r : Registry V) : Family → List (Labels × Histogram V)
  | .ttft => r.ttft
  | .itl => r.itl
  | .e2e => r.e2e
  | .queue => r.queue
  | .overhead => r.overhead

def buckets (r : Registry V) : Family → List V
  | .ttft => r.ttftBuckets
  | .itl => r.tpotBuckets
  | .e2e => r.durationBuckets
  | .queue => r.durationBuckets
  | .overhead => r.durationBuckets

def count (r : Registry V) : Counter → Option Nat
  | .requestsTotal code => r.requestsTotal.lookup code
  | .affinitySpills labels => r.affinitySpills.lookup labels
  | .backendFailures labels => r.backendFailures.lookup labels

def level (r : Registry V) : Gauge → Int
  | .requestsRunning => r.requestsRunning
  | .requestsWaiting => r.requestsWaiting

def Family.name : Family → Bytes
  | .ttft => text "kvmux:ttft_seconds"
  | .itl => text "kvmux:inter_token_latency_seconds"
  | .e2e => text "kvmux:e2e_request_latency_seconds"
  | .queue => text "kvmux:request_queue_time_seconds"
  | .overhead => text "kvmux:gateway_overhead_seconds"

def families : List Family := [.ttft,.itl,.e2e,.queue,.overhead]

def Counter.name : Counter → Bytes
  | .requestsTotal _ => text "kvmux:requests_total"
  | .affinitySpills _ => text "kvmux:affinity_spills_total"
  | .backendFailures _ => text "kvmux:backend_failures_total"

def Counter.labels : Counter → List (Bytes × Bytes)
  | .requestsTotal code => [(text "code",code)]
  | .affinitySpills labels => pairs labels
  | .backendFailures labels => pairs labels

def Gauge.name : Gauge → Bytes
  | .requestsRunning => text "kvmux:requests_running"
  | .requestsWaiting => text "kvmux:requests_waiting"

def counterSample (counter : Counter) (n : Nat) : Sample := ⟨counter.name,counter.labels,text (toString n)⟩

def gaugeSample (gauge : Gauge) (v : Int) : Sample := ⟨gauge.name,[],text (toString v)⟩

section Exposing
variable (fmt : V → Bytes)

-- The samples of one instrument, and the instruments in the order of exposition.
def series (r : Registry V) : Instrument → List Sample
  | .histogram family labels => ((hist r family).lookup labels).elim [] (histogramSamples fmt family.name (pairs labels))
  | .counter counter => (count r counter).elim [] fun n => [counterSample counter n]
  | .gauge gauge => [gaugeSample gauge (level r gauge)]

end Exposing

def listed (r : Registry V) : List Instrument :=
  (families.flatMap fun family => (hist r family).map fun entry => .histogram family entry.1) ++
  [.gauge .requestsRunning,.gauge .requestsWaiting] ++
  (r.requestsTotal.map fun entry => .counter (.requestsTotal entry.1)) ++
  (r.affinitySpills.map fun entry => .counter (.affinitySpills entry.1)) ++
  (r.backendFailures.map fun entry => .counter (.backendFailures entry.1))

structure Keyed (r : Registry V) : Prop where
  hist : ∀ family, Ordered Labels.before (hist r family)
  requestsTotal : Ordered (fun a b => decide (a < b)) r.requestsTotal
  affinitySpills : Ordered Labels.before r.affinitySpills
  backendFailures : Ordered Labels.before r.backendFailures

theorem create_keyed (ttftBuckets tpotBuckets durationBuckets : List V) :
    Keyed (Registry.create ttftBuckets tpotBuckets durationBuckets) :=
  ⟨fun family => by cases family <;> exact .nil,.nil,.nil,.nil⟩

section Steps
variable {V : Type u} [LE V] [DecidableLE V] [Add V] [OfNat V 0] {r : Registry V}

theorem buckets_apply (r : Registry V) (call : RegistryCall V) (family : Family) :
    buckets (advance r call) family = buckets r family := by
  cases call <;> rfl

theorem hist_observe {call : RegistryCall V} (effect : effectOf call = .observe family labels seconds) :
    hist (advance r call) family = histFor wrapping (hist r family) labels (buckets r family) seconds := by
  cases call <;> cases effect <;> rfl

theorem hist_other {call : RegistryCall V} (other : ∀ labels seconds, effectOf call ≠ .observe family labels seconds) :
    hist (advance r call) family = hist r family := by
  cases call <;> cases family <;> first | rfl | exact absurd rfl (other _ _)

theorem lookup_apply (keyed : Keyed r) (call : RegistryCall V) (family : Family) (labels : Labels) :
    (hist (advance r call) family).lookup labels =
      ((effectOf call).observed family labels).elim ((hist r family).lookup labels) fun seconds =>
        some ((((hist r family).lookup labels).getD (.fresh (buckets r family))).observe wrapping seconds) := by
  cases effect : effectOf call with
  | observe family' labels' seconds =>
    by_cases own : family' = family
    · subst own
      rw [hist_observe effect,histFor,upsert_lookup labels_sorting (keyed.hist family')]
      by_cases same : labels = labels'
      · simp [Effect.observed,same]
      · simp [Effect.observed,same,Ne.symm same]
    · rw [hist_other (by simp [effect,own])]
      simp [Effect.observed,own]
  | add counter n =>
    rw [hist_other (by simp [effect])]
    rfl
  | set gauge v =>
    rw [hist_other (by simp [effect])]
    rfl

theorem upsert_count [DecidableEq K] [BEq K] [LawfulBEq K] {before : K → K → Bool} (sorting : Metrics.Sorting before)
    {map : List (K × Nat)} (ordered : Ordered before map) (n : Int) (key k : K) :
    (upsert before key 0 (fun count : Nat => wrap (count + n)) map).lookup k =
      (if key = k then some n else none).elim (map.lookup k) fun n => some (wrap ((map.lookup k).getD 0 + n)) := by
  rw [upsert_lookup sorting ordered]
  by_cases same : k = key
  · simp [same]
  · simp [same,Ne.symm same]

theorem count_apply (keyed : Keyed r) (call : RegistryCall V) (counter : Counter) :
    count (advance r call) counter =
      ((effectOf call).added counter).elim (count r counter) fun n => some (wrap ((count r counter).getD 0 + n)) := by
  cases call with
  | incRequestsTotal code =>
    cases counter with
    | requestsTotal code' =>
      simp only [effectOf,Effect.added,Counter.requestsTotal.injEq]
      exact upsert_count bytes_sorting keyed.requestsTotal 1 code code'
    | affinitySpills labels => rfl
    | backendFailures labels => rfl
  | incAffinitySpills labels n =>
    cases counter with
    | requestsTotal code => rfl
    | affinitySpills labels' =>
      simp only [effectOf,Effect.added,Counter.affinitySpills.injEq]
      exact upsert_count labels_sorting keyed.affinitySpills n labels labels'
    | backendFailures labels' => rfl
  | incBackendFailures labels n =>
    cases counter with
    | requestsTotal code => rfl
    | affinitySpills labels' => rfl
    | backendFailures labels' =>
      simp only [effectOf,Effect.added,Counter.backendFailures.injEq]
      exact upsert_count labels_sorting keyed.backendFailures n labels labels'
  | observeTtft labels seconds => cases counter <;> rfl
  | observeItl labels seconds => cases counter <;> rfl
  | observeE2e labels seconds => cases counter <;> rfl
  | observeQueueTime labels seconds => cases counter <;> rfl
  | observeOverhead labels seconds => cases counter <;> rfl
  | setRequestsRunning v => cases counter <;> rfl
  | setRequestsWaiting v => cases counter <;> rfl

theorem level_apply {call : RegistryCall V} {gauge : Gauge} (other : (effectOf call).instrument ≠ .gauge gauge) :
    level (advance r call) gauge = level r gauge := by
  cases call <;> cases gauge <;> first | rfl | exact absurd rfl other

theorem keyed_apply (keyed : Keyed r) (call : RegistryCall V) : Keyed (advance r call) := by
  refine ⟨fun family => ?_,?_,?_,?_⟩
  · by_cases own : ∃ labels seconds, effectOf call = .observe family labels seconds
    · obtain ⟨labels,seconds,effect⟩ := own
      rw [hist_observe effect]
      exact upsert_ordered labels_sorting (keyed.hist family) _ _ _
    · rw [hist_other fun labels seconds effect => own ⟨labels,seconds,effect⟩]
      exact keyed.hist family
  · cases call <;> first | exact keyed.requestsTotal | exact upsert_ordered bytes_sorting keyed.requestsTotal _ _ _
  · cases call <;> first | exact keyed.affinitySpills | exact upsert_ordered labels_sorting keyed.affinitySpills _ _ _
  · cases call <;> first | exact keyed.backendFailures | exact upsert_ordered labels_sorting keyed.backendFailures _ _ _

end Steps
section Runs
variable {V : Type u} [LE V] [DecidableLE V] [Add V] [OfNat V 0]

-- The histogram that a list of observations makes.
def gathered (bounds : List V) (seen : List V) : Histogram V :=
  {bounds,
    counts := bounds.map fun bound => wrap (seen.countP (· ≤ bound)),
    totalCount := wrap seen.length,
    sum := seen.foldl (· + ·) 0}

theorem gathered_observe (bounds seen : List V) (value : V) :
    (gathered bounds seen).observe wrapping value = gathered bounds (seen ++ [value]) := by
  have counts : bounds.zipWith (fun bound count => if value ≤ bound then wrapping count 1 else count)
      (bounds.map fun bound => wrap (seen.countP (· ≤ bound))) =
        bounds.map fun bound => wrap ((seen ++ [value]).countP (· ≤ bound)) := by
    rw [List.zipWith_map_right,List.zipWith_self]
    refine List.map_congr_left fun bound _ => ?_
    rw [List.countP_append]
    by_cases below : value ≤ bound
    · simp [below,wrapping,wrap_add]
    · simp [below]
  have total : wrapping (wrap seen.length) 1 = wrap (seen ++ [value]).length := by
    simp [wrapping,wrap_add]
  simp only [Histogram.observe,gathered,counts,total,List.foldl_append,List.foldl_cons,List.foldl_nil]

theorem gathered_foldl (bounds seen : List V) : seen.foldl (Histogram.observe wrapping) (.fresh bounds) = gathered bounds seen := by
  induction seen using List.reverseRecOn with
  | nil => rfl
  | append_singleton seen value ih => rw [List.foldl_append,ih,← gathered_observe,List.foldl_cons,List.foldl_nil]

theorem wrap_foldl (added : List Int) : added.foldl (fun (count : Nat) n => wrap (count + n)) 0 = wrap added.sum := by
  induction added using List.reverseRecOn with
  | nil => rfl
  | append_singleton added n ih =>
    rw [List.foldl_append,ih,List.foldl_cons,List.foldl_nil,wrap_add,List.sum_append,List.sum_singleton]

variable {r : Registry V}

theorem run_snoc (r : Registry V) (calls : List (RegistryCall V)) (call : RegistryCall V) :
    run r (calls ++ [call]) = advance (run r calls) call := by
  simp [run]

theorem run_keyed (keyed : Keyed r) (calls : List (RegistryCall V)) : Keyed (run r calls) := by
  induction calls using List.reverseRecOn with
  | nil => exact keyed
  | append_singleton calls call ih =>
    rw [run_snoc]
    exact keyed_apply ih call

theorem run_buckets (r : Registry V) (calls : List (RegistryCall V)) (family : Family) :
    buckets (run r calls) family = buckets r family := by
  induction calls using List.reverseRecOn with
  | nil => rfl
  | append_singleton calls call ih => rw [run_snoc,buckets_apply,ih]

-- What is read of one instrument after a run is what the calls about it made of
-- its blank, and nothing before the first of them.
theorem run_gathers (read : Registry V → Option β) (pick : RegistryCall V → Option α) (blank : β) (step : β → α → β)
    (start : read r = none)
    (each : ∀ calls call, read (advance (run r calls) call) =
      (pick call).elim (read (run r calls)) fun a => some (step ((read (run r calls)).getD blank) a))
    (calls : List (RegistryCall V)) :
    read (run r calls) =
      if calls.filterMap pick = [] then none else some ((calls.filterMap pick).foldl step blank) := by
  induction calls using List.reverseRecOn with
  | nil => exact start
  | append_singleton calls call ih =>
    rw [run_snoc,each,ih,List.filterMap_append]
    cases picked : pick call with
    | none => simp [picked]
    | some a =>
      by_cases first : calls.filterMap pick = []
      · simp [picked,first]
      · simp [picked,first]

theorem run_hist (keyed : Keyed r) (start : (hist r family).lookup labels = none) (calls : List (RegistryCall V)) :
    (hist (run r calls) family).lookup labels =
      if observations family labels calls = [] then none
      else some (gathered (buckets r family) (observations family labels calls)) := by
  have whole := run_gathers (fun r => (hist r family).lookup labels) (fun call => (effectOf call).observed family labels)
    (.fresh (buckets r family)) (Histogram.observe wrapping) start (fun calls call => ?_) calls
  · rw [gathered_foldl] at whole
    exact whole
  · rw [lookup_apply (run_keyed keyed calls),run_buckets]

theorem run_count (keyed : Keyed r) (start : count r counter = none) (calls : List (RegistryCall V)) :
    count (run r calls) counter =
      if increments counter calls = [] then none else some (wrap (increments counter calls).sum) := by
  have whole := run_gathers (count · counter) (fun call => (effectOf call).added counter) 0 (fun count n => wrap (count + n)) start
    (fun calls call => count_apply (run_keyed keyed calls) call counter) calls
  rw [wrap_foldl] at whole
  exact whole

end Runs
section Listing
variable {r : Registry V}

theorem family_listed (family : Family) : family ∈ families := by
  cases family <;> decide

theorem entries_nodup {before : K → K → Bool} (sorting : Metrics.Sorting before) {map : List (K × W)}
    (ordered : Ordered before map) {f : K → Instrument} (injective : f.Injective) :
    (map.map fun entry => f entry.1).Nodup := by
  refine List.pairwise_map.mpr (ordered.imp fun {a b} less same => ?_)
  rw [injective same,sorting.irrefl] at less
  cases less

theorem nodup_entries {before : K → K → Bool} (sorting : Metrics.Sorting before) {map : List (K × W)}
    (ordered : Ordered before map) {f : K → Instrument} (injective : f.Injective) (first : others.Nodup)
    (apart : ∀ key, f key ∉ others) : (others ++ map.map fun entry => f entry.1).Nodup := by
  refine first.append (entries_nodup sorting ordered injective) fun instrument earlier own => ?_
  obtain ⟨entry,_,rfl⟩ := List.mem_map.mp own
  exact apart entry.1 earlier

theorem listed_nodup (keyed : Keyed r) : (listed r).Nodup := by
  have histograms : (families.flatMap fun family => (hist r family).map fun entry =>
      Instrument.histogram family entry.1).Nodup := by
    refine List.nodup_flatMap.mpr ⟨fun family _ => ?_,?_⟩
    · exact entries_nodup labels_sorting (keyed.hist family) fun a b same => (Instrument.histogram.inj same).2
    · have distinct : families.Nodup := by decide
      refine distinct.imp fun {a b} apart instrument own others => ?_
      obtain ⟨_,_,rfl⟩ := List.mem_map.mp own
      obtain ⟨_,_,same⟩ := List.mem_map.mp others
      exact apart (Instrument.histogram.inj same).1.symm
  have two : [Instrument.gauge .requestsRunning,.gauge .requestsWaiting].Nodup := by decide
  have gauges := histograms.append two (by simp)
  have requests := nodup_entries bytes_sorting keyed.requestsTotal (f := fun code => .counter (.requestsTotal code))
    (fun a b same => by simpa using same) gauges (by simp)
  have spills := nodup_entries labels_sorting keyed.affinitySpills (f := fun labels => .counter (.affinitySpills labels))
    (fun a b same => by simpa using same) requests (by simp)
  exact nodup_entries labels_sorting keyed.backendFailures (f := fun labels => .counter (.backendFailures labels))
    (fun a b same => by simpa using same) spills (by simp)

theorem entries_read [BEq K] [LawfulBEq K] {before : K → K → Bool} (sorting : Metrics.Sorting before) {map : List (K × W)}
    (ordered : Ordered before map) (emit : K → W → List Sample) :
    (map.flatMap fun entry => (map.lookup entry.1).elim [] (emit entry.1)) = map.flatMap fun entry => emit entry.1 entry.2 := by
  refine List.flatMap_congr fun entry member => ?_
  rw [ordered_lookup sorting ordered member,Option.elim_some]

theorem samples_families (fmt : V → Bytes) (r : Registry V) : samples fmt r =
    (families.flatMap fun family => (hist r family).flatMap fun entry => histogramSamples fmt family.name (pairs entry.1) entry.2) ++
    [gaugeSample .requestsRunning r.requestsRunning,gaugeSample .requestsWaiting r.requestsWaiting] ++
    (r.requestsTotal.map fun entry => counterSample (.requestsTotal entry.1) entry.2) ++
    (r.affinitySpills.map fun entry => counterSample (.affinitySpills entry.1) entry.2) ++
    (r.backendFailures.map fun entry => counterSample (.backendFailures entry.1) entry.2) := by
  simp [samples,Exposition.seriesSamples,families,hist,Family.name,gaugeSample,Gauge.name,counterSample,Counter.name,Counter.labels]

theorem samples_listed (keyed : Keyed r) (fmt : V → Bytes) : samples fmt r = (listed r).flatMap (series fmt r) := by
  have histograms (family : Family) := entries_read labels_sorting (keyed.hist family)
    fun labels => histogramSamples fmt family.name (pairs labels)
  have requests := entries_read bytes_sorting keyed.requestsTotal fun code n => [counterSample (.requestsTotal code) n]
  have spills := entries_read labels_sorting keyed.affinitySpills fun labels n => [counterSample (.affinitySpills labels) n]
  have failures := entries_read labels_sorting keyed.backendFailures fun labels n => [counterSample (.backendFailures labels) n]
  simp only [samples_families,listed,List.flatMap_append,List.flatMap_assoc,List.map_eq_flatMap,List.flatMap_cons,
    List.flatMap_nil,List.append_nil,← histograms,← requests,← spills,← failures]
  rfl

theorem entry_emits [BEq K] [LawfulBEq K] (map : List (K × W)) (key : K) (emit : W → List Sample)
    (full : ∀ value, emit value ≠ []) : (∃ value, (key,value) ∈ map) ↔ (map.lookup key).elim [] emit ≠ [] := by
  cases found : map.lookup key with
  | none =>
    have absent := List.lookup_eq_none_iff.mp found
    refine ⟨fun ⟨value,member⟩ => ?_,fun some => absurd rfl some⟩
    simpa using absent (key,value) member
  | some value =>
    obtain ⟨before,after,split,_⟩ := List.lookup_eq_some_iff.mp found
    exact ⟨fun _ => full value,fun _ => ⟨value,by simp [split]⟩⟩

theorem listed_iff (r : Registry V) (fmt : V → Bytes) (instrument : Instrument) :
    instrument ∈ listed r ↔ series fmt r instrument ≠ [] := by
  cases instrument with
  | histogram family labels =>
    have emits := entry_emits (hist r family) labels (histogramSamples fmt family.name (pairs labels))
      fun value => by simp [histogramSamples]
    simpa [listed,series,family_listed] using emits
  | counter counter =>
    cases counter with
    | requestsTotal code =>
      have emits := entry_emits r.requestsTotal code (fun n => [counterSample (.requestsTotal code) n]) (by simp)
      simpa [listed,series,count] using emits
    | affinitySpills labels =>
      have emits := entry_emits r.affinitySpills labels (fun n => [counterSample (.affinitySpills labels) n]) (by simp)
      simpa [listed,series,count] using emits
    | backendFailures labels =>
      have emits := entry_emits r.backendFailures labels (fun n => [counterSample (.backendFailures labels) n]) (by simp)
      simpa [listed,series,count] using emits
  | gauge gauge => cases gauge <;> simp [listed,series]

end Listing
section Counting
variable {V : Type u}

theorem counts_rise [Preorder V] [DecidableLE V] [Add V] [OfNat V 0] {bounds seen : List V}
    (ascending : bounds.Pairwise (· ≤ ·)) (room : seen.length < 2 ^ 64) :
    (gathered bounds seen).counts.Pairwise (· ≤ ·) ∧
      ∀ count ∈ (gathered bounds seen).counts, count ≤ (gathered bounds seen).totalCount := by
  have within (bound : V) : wrap (seen.countP (· ≤ bound)) = seen.countP (· ≤ bound) :=
    wrap_small (Nat.lt_of_le_of_lt List.countP_le_length room)
  refine ⟨List.pairwise_map.mpr (ascending.imp fun {a b} below => ?_),fun count member => ?_⟩
  · rw [within,within]
    exact List.countP_mono_left fun value _ under => decide_eq_true (le_trans (of_decide_eq_true under) below)
  · obtain ⟨bound,_,rfl⟩ := List.mem_map.mp member
    rw [within]
    exact List.countP_le_length.trans (wrap_small room).ge

variable [LE V] [DecidableLE V] [Add V] [OfNat V 0] {r : Registry V}

theorem series_apply (keyed : Keyed r) (fmt : V → Bytes) {call : RegistryCall V} (other : (effectOf call).instrument ≠ instrument) :
    series fmt (advance r call) instrument = series fmt r instrument := by
  cases instrument with
  | histogram family labels =>
    have silent : (effectOf call).observed family labels = none := by
      cases effect : effectOf call with
      | observe family' labels' seconds => simpa [effect,Effect.instrument,Effect.observed] using other
      | add counter n => rfl
      | set gauge v => rfl
    simp only [series,lookup_apply keyed,silent,Option.elim_none]
  | counter counter =>
    have silent : (effectOf call).added counter = none := by
      cases effect : effectOf call with
      | observe family labels seconds => rfl
      | add counter' n => simpa [effect,Effect.instrument,Effect.added] using other
      | set gauge v => rfl
    simp only [series,count_apply keyed,silent,Option.elim_none]
  | gauge gauge => simp only [series,level_apply other]

theorem gathered_samples (fmt : V → Bytes) (name : Bytes) (labels : List (Bytes × Bytes)) (bounds seen : List V) :
    histogramSamples fmt name labels (gathered bounds seen) =
      (bounds.map fun bound =>
        ⟨name ++ text "_bucket",labels ++ [(text "le",fmt bound)],text (toString (wrap (seen.countP (· ≤ bound))))⟩) ++
      [⟨name ++ text "_bucket",labels ++ [(text "le",text "+Inf")],text (toString (wrap seen.length))⟩,
        ⟨name ++ text "_sum",labels,fmt (seen.foldl (· + ·) 0)⟩,
        ⟨name ++ text "_count",labels,text (toString (wrap seen.length))⟩] := by
  have paired (counts : V → Nat) : bounds.zip (bounds.map counts) = bounds.map fun bound => (bound,counts bound) := by
    rw [List.zip_eq_zipWith,List.zipWith_map_right,List.zipWith_self]
  simp only [histogramSamples,gathered,paired,List.map_map]
  rfl

end Counting

theorem exposition_counts [LinearOrder V] [Add V] [OfNat V 0] (fmt : V → Bytes)
    (ttftBuckets tpotBuckets durationBuckets : List V) (calls : List (RegistryCall V)) :
    let r := run (.create ttftBuckets tpotBuckets durationBuckets) calls
    (samples fmt r = (listed r).flatMap (series fmt r) ∧ (listed r).Nodup ∧
      ∀ instrument, instrument ∈ listed r ↔ series fmt r instrument ≠ []) ∧
    (∀ family labels, let seen := observations family labels calls
      series fmt r (.histogram family labels) =
        if seen = [] then []
        else ((buckets r family).map fun bound => ⟨family.name ++ text "_bucket",pairs labels ++ [(text "le",fmt bound)],
            text (toString (wrap (seen.countP (· ≤ bound))))⟩) ++
          [⟨family.name ++ text "_bucket",pairs labels ++ [(text "le",text "+Inf")],text (toString (wrap seen.length))⟩,
            ⟨family.name ++ text "_sum",pairs labels,fmt (seen.foldl (· + ·) 0)⟩,
            ⟨family.name ++ text "_count",pairs labels,text (toString (wrap seen.length))⟩]) ∧
    (∀ family labels h, (hist r family).lookup labels = some h → (buckets r family).Pairwise (· ≤ ·) →
      (observations family labels calls).length < 2 ^ 64 →
        h.counts.Pairwise (· ≤ ·) ∧ ∀ count ∈ h.counts, count ≤ h.totalCount) ∧
    (∀ counter, let added := increments counter calls
      series fmt r (.counter counter) =
        if added = [] then [] else [⟨counter.name,counter.labels,text (toString (wrap added.sum))⟩]) ∧
    ∀ call instrument, (effectOf call).instrument ≠ instrument →
      series fmt (advance r call) instrument = series fmt r instrument := by
  intro r
  have start := create_keyed ttftBuckets tpotBuckets durationBuckets
  have keyed : Keyed r := run_keyed start calls
  have found (family : Family) (labels : Labels) : (hist r family).lookup labels =
      if observations family labels calls = [] then none
      else some (gathered (buckets r family) (observations family labels calls)) := by
    rw [run_hist start (by cases family <;> rfl),run_buckets]
  refine ⟨⟨samples_listed keyed fmt,listed_nodup keyed,listed_iff r fmt⟩,fun family labels => ?_,
    fun family labels h own ascending room => ?_,fun counter => ?_,fun call instrument other => series_apply keyed fmt other⟩
  · intro seen
    rw [series,found]
    split
    · rfl
    · exact gathered_samples fmt _ _ _ _
  · rw [found] at own
    split at own
    · cases own
    · cases own
      exact counts_rise ascending room
  · intro added
    rw [series,run_count start (by cases counter <;> rfl)]
    split
    · rfl
    · rfl

def unlabelled : Labels := ⟨[],[],[]⟩

theorem negative_increment :
    let calls : List (RegistryCall Nat) := [.incAffinitySpills unlabelled (-1)]
    (increments (.affinitySpills unlabelled) calls).sum = -1 ∧
    series (fun n => text (toString n)) (run (.create [] [] []) calls) (.counter (.affinitySpills unlabelled)) =
      [⟨text "kvmux:affinity_spills_total",pairs unlabelled,text "18446744073709551615"⟩] := by
  decide +kernel

-- The registry that the gateway records in, seen in 64 bits.
section Machine

def machineHistogram (h : Histogram Float) : Histogram Float :=
  {h with counts := h.counts.map fun count : Nat => wrap count,totalCount := wrap h.totalCount}

def machine (r : Registry Float) : Registry Float :=
  {r with
    ttft := r.ttft.map fun entry => (entry.1,machineHistogram entry.2)
    itl := r.itl.map fun entry => (entry.1,machineHistogram entry.2)
    e2e := r.e2e.map fun entry => (entry.1,machineHistogram entry.2)
    queue := r.queue.map fun entry => (entry.1,machineHistogram entry.2)
    overhead := r.overhead.map fun entry => (entry.1,machineHistogram entry.2)
    requestsTotal := r.requestsTotal.map fun entry => (entry.1,wrap entry.2)
    affinitySpills := r.affinitySpills.map fun entry => (entry.1,wrap entry.2)
    backendFailures := r.backendFailures.map fun entry => (entry.1,wrap entry.2)}

theorem wrap_exactly (count : Nat) {n : Int} (up : 0 ≤ n) : wrap (exactly count n) = wrapping (wrap count) n := by
  unfold exactly wrapping
  rw [wrap_add]
  congr 1
  omega

theorem machine_observe (h : Histogram Float) (value : Float) :
    machineHistogram (h.observe exactly value) = (machineHistogram h).observe wrapping value := by
  have counts : (h.bounds.zipWith (fun bound count => if value ≤ bound then exactly count 1 else count) h.counts).map
      (fun count : Nat => wrap count) =
        h.bounds.zipWith (fun bound count => if value ≤ bound then wrapping count 1 else count)
          (h.counts.map fun count : Nat => wrap count) := by
    rw [List.map_zipWith,List.zipWith_map_right]
    congr 1
    funext bound count
    split
    · exact wrap_exactly count (by decide)
    · rfl
  simp only [machineHistogram,Histogram.observe,counts,wrap_exactly h.totalCount (show (0 : Int) ≤ 1 by decide)]

theorem machine_fresh (bounds : List Float) : machineHistogram (.fresh bounds) = .fresh bounds := by
  simp [machineHistogram,Histogram.fresh,wrap]

theorem machine_histFor (m : List (Labels × Histogram Float)) (labels : Labels) (bounds : List Float) (seconds : Float) :
    (histFor exactly m labels bounds seconds).map (fun entry => (entry.1,machineHistogram entry.2)) =
      histFor wrapping (m.map fun entry => (entry.1,machineHistogram entry.2)) labels bounds seconds := by
  rw [histFor,upsert_map _ (·.observe wrapping seconds) fun h => machine_observe h seconds,machine_fresh]
  rfl

theorem machine_count [DecidableEq K] {before : K → K → Bool} {n : Int} (up : 0 ≤ n) (key : K) (m : List (K × Nat)) :
    (upsert before key 0 (exactly · n) m).map (fun entry => (entry.1,wrap entry.2)) =
      upsert before key 0 (wrapping · n) (m.map fun entry => (entry.1,wrap entry.2)) :=
  upsert_map (fun count : Nat => wrap count) _ (fun count => wrap_exactly count up) 0 key m

theorem machine_record (r : Registry Float) (metric : Metric) : machine (r.record metric) = advance (machine r) metric.call := by
  cases metric with
  | observeTtft | observeItl | observeE2e | observeQueueTime | observeOverhead =>
    simp only [machine,Registry.record,Metric.call,Registry.apply,machine_histFor]
    rfl
  | incRequestsTotal | incBackendFailures =>
    simp only [machine,Registry.record,Metric.call,Registry.apply,machine_count (show (0 : Int) ≤ 1 by decide)]
    rfl
  | incAffinitySpills labels n =>
    simp only [machine,Registry.record,Metric.call,Registry.apply,machine_count (Int.natCast_nonneg n)]
    rfl

theorem machine_run (metrics : List Metric) :
    machine (metrics.foldl Registry.record (.create kTtftBuckets kTpotBuckets kDurationBuckets)) =
      run (.create kTtftBuckets kTpotBuckets kDurationBuckets) (metrics.map Metric.call) := by
  induction metrics using List.reverseRecOn with
  | nil => rfl
  | append_singleton metrics metric ih =>
    rw [List.foldl_append,List.map_append,List.foldl_cons,List.foldl_nil,machine_record,ih]
    exact (run_snoc _ _ _).symm

-- What is exposed of it reads as the samples of the run that its records make.
theorem recorded_reads (printed : Exposition.Printed print) (metrics : List Metric) :
    readExposition (Exposition.expose print
        (machine (metrics.foldl Registry.record (.create kTtftBuckets kTpotBuckets kDurationBuckets)))) =
      some (samples (fmtDouble print) (run (.create kTtftBuckets kTpotBuckets kDurationBuckets) (metrics.map Metric.call))) := by
  rw [Exposition.expose_reads printed,machine_run]

end Machine
end Kvmux.Instruments
