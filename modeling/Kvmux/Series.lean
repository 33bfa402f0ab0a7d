import Mathlib.Data.List.Basic
import Kvmux.Fleet
import Kvmux.Recording

namespace Kvmux.Series
open Coroutine Gateway Metrics Handling Recording Fleet Transition

-- Every label set that the configuration alone gives rise to.
def series (env : Env) : List Labels :=
  ([] :: env.cfg.backends.map BackendConfig.name).flatMap fun backend =>
    ([] :: env.cfg.backends.flatMap BackendConfig.models).map fun model =>
      {route := text "chat_completions",backend,model}

-- The label set of a request that names a model no backend serves.
def unservedLabels (env : Env) (req : Request) : Option Labels :=
  (requested env req).bind fun creq =>
    if backendsForModel env creq.model = [] then some {route := text "chat_completions",model := creq.model} else none

-- The label sets of all maps but the end-to-end histogram's, and of that one.
def labelSets (r : Registry Float) : List Labels :=
  (r.ttft ++ r.itl ++ r.queue ++ r.overhead).map Prod.fst ++ (r.affinitySpills ++ r.backendFailures).map Prod.fst

def e2eSets (r : Registry Float) : List Labels := r.e2e.map Prod.fst

theorem configured_listed (fits : configured env labels = true) : labels ∈ series env := by
  obtain ⟨route,backend,model⟩ := labels
  simp only [configured,Bool.and_eq_true,Bool.or_eq_true,decide_eq_true_eq,List.any_eq_true] at fits
  obtain ⟨⟨rfl,backends⟩,models⟩ := fits
  refine List.mem_flatMap.mpr ⟨backend,?_,List.mem_map.mpr ⟨model,?_,rfl⟩⟩
  · rcases backends with rfl | ⟨conf,member,rfl⟩
    · exact List.mem_cons_self
    · exact List.mem_cons_of_mem _ (List.mem_map_of_mem member)
  · rcases models with rfl | ⟨conf,member,lists⟩
    · exact List.mem_cons_self
    · exact List.mem_cons_of_mem _ (List.mem_flatMap.mpr ⟨conf,member,by simpa using lists⟩)

-- A metric adds no label set but its own.
theorem record_labelSets (member : labels ∈ labelSets (r.record metric)) :
    labels ∈ labelSets r ∨ terminal metric = false ∧ labelsOf metric = some labels := by
  simp only [labelSets,List.map_append,List.mem_append] at member ⊢
  cases metric with
  | observeTtft own seconds | observeItl own seconds | observeQueueTime own seconds | observeOverhead own seconds
  | incAffinitySpills own n | incBackendFailures own =>
    simp only [Registry.record,Metric.call,Registry.apply,histFor] at member
    simp only [terminal,labelsOf,Option.some.injEq,true_and]
    grind [upsert_keys]
  | observeE2e own seconds | incRequestsTotal code => exact .inl member

theorem record_e2eSets (member : labels ∈ e2eSets (r.record metric)) :
    labels ∈ e2eSets r ∨ ∃ seconds, metric = .observeE2e labels seconds := by
  cases metric with
  | observeE2e own seconds =>
    rcases upsert_keys member with rfl | old
    · exact .inr ⟨seconds,rfl⟩
    · exact .inl old
  | _ => exact .inl member

-- What the handler of one request may record, the terminal metrics included.
def whole (env : Env) (req : Request) : Op → Bool
  | .record (.observeE2e labels _) => decide (labels ∈ series env) || decide (unservedLabels env req = some labels)
  | .record metric => (labelsOf metric).all fun labels => decide (labels ∈ series env)
  | _ => true

theorem leading_whole (op : Op) (fits : leading env op = true) : whole env req op = true := by
  cases op with
  | record metric =>
    obtain ⟨early,labelled⟩ := Bool.and_eq_true_iff.mp fits
    cases metric with
    | observeE2e labels seconds => cases early
    | incRequestsTotal code => rfl
    | _ => exact decide_eq_true (configured_listed labelled)
  | _ => rfl

theorem unserved_labels (unserved : Unserved env req outcome) : unservedLabels env req = some outcome.labels := by
  obtain ⟨-,creq,known,none,same⟩ := unserved
  rw [unservedLabels,known,Option.bind_some,if_pos none,same]

theorem handleChat_records (env : Env) (req : Request) : Records (whole env req) (handleChat env req) fun _ => True := by
  unfold handleChat
  refine Records.act rfl fun tArrive => ((chatBody_records env req).widen leading_whole).bind fun outcome held => ?_
  have labelled (seconds : Float) : whole env req (.record (.observeE2e outcome.labels seconds)) = true := by
    rcases held with fits | unserved
    · exact Bool.or_eq_true_iff.mpr (.inl (decide_eq_true (configured_listed fits)))
    · exact Bool.or_eq_true_iff.mpr (.inr (decide_eq_true (unserved_labels unserved)))
  unfold recordTerminal
  split
  · exact Records.act rfl fun _ => Records.act rfl fun tEnd => Records.act (labelled _) fun _ => trivial
  · trivial

-- Every label set is the configuration's, or that of one of the requests.
structure Listed (env : Env) (reqs : List Request) (r : Registry Float) : Prop where
  labelled : ∀ labels ∈ labelSets r, labels ∈ series env
  observed : ∀ labels ∈ e2eSets r, labels ∈ series env ++ reqs.filterMap (unservedLabels env)

theorem record_listed (listed : Listed env reqs r) (own : req ∈ reqs) (fits : whole env req (.record metric) = true) :
    Listed env reqs (r.record metric) := by
  constructor
  · intro labels member
    rcases record_labelSets member with old | ⟨early,same⟩
    · exact listed.labelled labels old
    · cases metric with
      | observeE2e other seconds => cases early
      | incRequestsTotal code => cases same
      | _ =>
        cases Option.some.inj same
        exact of_decide_eq_true fits
  · intro labels member
    rcases record_e2eSets member with old | ⟨seconds,rfl⟩
    · exact listed.observed labels old
    · rcases Bool.or_eq_true_iff.mp fits with known | unserved
      · exact List.mem_append_left _ (of_decide_eq_true known)
      · exact List.mem_append_right _ (List.mem_filterMap.mpr ⟨req,own,of_decide_eq_true unserved⟩)

theorem exec_listed (listed : Listed env reqs s.registry) (own : req ∈ reqs) (fits : whole env req op = true) (i : Nat) :
    Listed env reqs (exec i op s).2.registry := by
  cases op with
  | record metric => exact record_listed listed own fits
  | publishAdmissionGauges => exact ⟨listed.labelled,listed.observed⟩
  | now | nextCursor | enterGate | resumeGate | releaseGate => exact listed
  | observedHealth b | load b | allowRequest b | report b | tryAcquire b | releaseSlot b =>
    rw [exec,onBackend_registry]
    exact listed

theorem happen_listed (listed : Listed env reqs s.registry) (event : Happening) : Listed env reqs (happen event s).registry := by
  cases event with
  | tick nanoseconds => exact listed
  | probed b found | setHealthForTest b found =>
    rw [happen,onBackend_registry]
    exact listed

theorem settle_listed {p : Prog Exit} (listed : Listed env reqs s.registry) (own : req ∈ reqs)
    (records : Records (whole env req) p post) (i : Nat) :
    Listed env reqs (settle (host env) i s p).1.registry ∧ Records (whole env req) (settle (host env) i s p).2.2 post := by
  induction p generalizing s with
  | ret value => exact ⟨listed,records⟩
  | wait point next _ => exact ⟨listed,records⟩
  | act op next ih =>
    obtain ⟨_,booked,later⟩ := records (exec i op s).1 trivial
    exact ih _ (exec_listed listed own (permits_booked booked) i) later

theorem Listed.more (listed : Listed env reqs r) (kept : reqs ⊆ others) : Listed env others r := by
  refine ⟨listed.labelled,fun labels member => ?_⟩
  rcases List.mem_append.mp (listed.observed labels member) with known | unserved
  · exact List.mem_append_left _ known
  · obtain ⟨req,inside,same⟩ := List.mem_filterMap.mp unserved
    exact List.mem_append_right _ (List.mem_filterMap.mpr ⟨req,kept inside,same⟩)

-- Every call of a world records no more than its request gives it.
def Bounded (env : Env) (w : Gateways) : Prop :=
  Listed env (w.threads.map Thread.request) w.shared.registry ∧
    ∀ call ∈ w.threads, Records (whole env call.request) call.code fun _ => True

theorem step_bounded {w next : Gateways} (bounded : Bounded env w) (ran : advance (host env) w action = some next) :
    Bounded env next := by
  obtain ⟨listed,calls⟩ := bounded
  obtain ⟨request,-,rfl⟩ | ⟨i,answers,request,trace,point,rest,-,found,rfl⟩ | ⟨event,-,rfl⟩ := advance_cases (host env) ran
  · have arrived : Listed env ((w.threads.map Thread.request) ++ [request]) w.shared.registry :=
      listed.more (List.subset_append_left _ _)
    obtain ⟨ends,remains⟩ := settle_listed arrived (by simp) (handleChat_records env request) w.threads.length
    refine ⟨by rw [List.map_append]; exact ends,fun call member => ?_⟩
    rcases List.mem_append.mp member with old | new
    · exact calls call old
    · cases List.mem_singleton.mp new
      exact remains
  · have inside := List.mem_of_getElem? found
    obtain ⟨_,-,later⟩ := calls _ inside (answers point) trivial
    obtain ⟨ends,remains⟩ := settle_listed listed (List.mem_map_of_mem inside) later i
    have same : (w.threads.map Thread.request).set i request = w.threads.map Thread.request :=
      Tally.set_own (by simp [found])
    refine ⟨by rw [List.map_set,same]; exact ends,fun call member => ?_⟩
    rcases List.mem_or_eq_of_mem_set member with old | rfl
    · exact calls call old
    · exact remains
  · exact ⟨happen_listed listed event,calls⟩

theorem reached_bounded {meets : Gateways → Action Request Happening Wait.Answer → Prop} (path : Reachable env meets w) :
    Bounded env w := by
  refine reached_invariant (Bounded env) ?_ (fun _ _ _ bounded _ ran => step_bounded bounded ran) path
  exact ⟨⟨List.forall_mem_nil _,List.forall_mem_nil _⟩,List.forall_mem_nil _⟩

theorem grid_length {X Y Z : Type} (f : X → Y → Z) (xs : List X) (ys : List Y) :
    (xs.flatMap fun x => ys.map (f x)).length = xs.length * ys.length := by
  induction xs with
  | nil => simp
  | cons x rest ih =>
    rw [List.flatMap_cons,List.length_append,ih,List.length_map,List.length_cons,Nat.succ_mul,Nat.add_comm]

theorem series_bounded {meets : Gateways → Action Request Happening Wait.Answer → Prop} (path : Reachable env meets w) :
    (∀ labels ∈ labelSets w.shared.registry, labels ∈ series env) ∧
    (∀ labels ∈ e2eSets w.shared.registry, labels ∈ series env ∨
      ∃ call ∈ w.threads, unservedLabels env call.request = some labels) ∧
    (series env).length = (env.cfg.backends.length + 1) * ((env.cfg.backends.flatMap BackendConfig.models).length + 1) := by
  obtain ⟨listed,-⟩ := reached_bounded path
  refine ⟨listed.labelled,fun labels member => ?_,?_⟩
  · rcases List.mem_append.mp (listed.observed labels member) with known | unserved
    · exact .inl known
    · obtain ⟨req,inside,same⟩ := List.mem_filterMap.mp unserved
      obtain ⟨call,present,rfl⟩ := List.mem_map.mp inside
      exact .inr ⟨call,present,same⟩
  · rw [series,grid_length,List.length_cons,List.length_cons,List.length_map]

-- A request is served: its label sets are among those of the configuration.
theorem series_bounded_served : ∃ w, Reachable (sampleEnv ["a"]) Any w ∧ labelSets w.shared.registry ≠ [] ∧
    ∀ labels ∈ labelSets w.shared.registry, labels ∈ series (sampleEnv ["a"]) := by
  have ran : (run (advance (host (sampleEnv ["a"]))) (opening (sampleEnv ["a"])) [.spawn (chatRequest false)]).map
      (fun w => labelSets w.shared.registry) = some [{route := text "chat_completions",model := text "m"}] := by decide +kernel
  obtain ⟨w,reached,found⟩ := Option.map_eq_some_iff.mp ran
  have path : Reachable (sampleEnv ["a"]) Any w := run_reached .initial reached
  exact ⟨w,path,by rw [found]; exact List.cons_ne_nil _ _,(series_bounded path).1⟩

-- The only backend serves another model than the one that is asked for.
def elsewhere : Env :=
  {sampleEnv ["a"] with cfg := {(sampleEnv ["a"]).cfg with backends := [{serving "a" with models := [text "n"]}]}}

theorem unknown_model_listed : ∃ w, Reachable elsewhere Any w ∧ ∃ labels ∈ e2eSets w.shared.registry,
    labels.model = text "m" ∧ labels ∉ series elsewhere := by
  have ran : (run (advance (host elsewhere)) (opening elsewhere)
      [.spawn (chatRequest false),.resume 0 (obliging ⟨200,true,[]⟩ ⟨200,[]⟩)]).map
      (fun w => e2eSets w.shared.registry) = some [{route := text "chat_completions",model := text "m"}] := by decide +kernel
  obtain ⟨w,reached,found⟩ := Option.map_eq_some_iff.mp ran
  refine ⟨w,run_reached .initial reached,{route := text "chat_completions",model := text "m"},?_,rfl,by decide +kernel⟩
  rw [found]
  exact List.mem_singleton_self _

end Kvmux.Series
