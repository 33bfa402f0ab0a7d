import Mathlib.Data.List.Basic
import Kvmux.Drain
import Kvmux.WalkStart

namespace Kvmux.Progress
open Coroutine CircuitBreaker GlobalGate Gateway OpenAi Routing Fleet Attempt Handling WalkStart

def StandsAt {α : Type} (code : Prog α) (point : Wait) : Prop := ∃ next, code = .wait point next

-- A backend that a request can be sent to right now.
def Ready (s : State) (b : Nat) : Prop := ∃ backend, s.backends[b]? = some backend ∧ backend.observedHealth = .healthy ∧
  (allowRequest backend.breaker s.clock).1.allowed = true ∧ backend.limiter.active < backend.limiter.maxInFlight

section Arrival
variable {env : Env} {i : Nat} {s : State}

theorem stands_bind {α β : Type} {p : Prog α} (stands : StandsAt (stop (host env) i s p).2 point) (rest : α → Prog β) :
    StandsAt (stop (host env) i s (p >>= rest)).2 point := by
  obtain ⟨next,waits⟩ := stands
  rw [stop_waiting (host env) (Prod.ext rfl waits) rest]
  exact ⟨_,rfl⟩

theorem respond_stands (env : Env) (i : Nat) (s : State) (labels : Metrics.Labels) (keepAlive : Bool) (status : Nat)
    (body : Bytes) :
    StandsAt (stop (host env) i s (respond labels keepAlive status (some body))).2 (.writeJson (reply keepAlive status body)) :=
  ⟨_,rfl⟩

-- What the eligibility check makes of a state.
def candidateOf (s : State) (b : Nat) : Option Candidate := s.backends[b]?.bind fun backend =>
  if backend.observedHealth = .healthy then some ⟨b,backend.limiter.active,backend.limiter.maxInFlight⟩ else none

theorem snapshot_stops (env : Env) (i : Nat) (s : State) (serving : List Nat) :
    stop (host env) i s (snapshot serving) = (s,.ret (serving.filterMap (candidateOf s))) := by
  induction serving with
  | nil => rfl
  | cons b rest ih =>
    rw [snapshot,act,stop_perform]
    cases known : s.backends[b]? with
    | none =>
      have asked : (host env).exec i (.observedHealth b) s = (.dead,s) := onBackend_absent known _ _
      rw [asked,if_pos (show HealthState.dead ≠ .healthy by decide),ih,List.filterMap_cons_none (by simp [candidateOf,known])]
    | some backend =>
      have same : s.backends.set b backend = s.backends := Tally.set_own known
      have asked : (host env).exec i (.observedHealth b) s = (backend.observedHealth,s) := by
        refine (onBackend_changed known _ _).trans ?_
        rw [same]
      rw [asked]
      by_cases healthy : backend.observedHealth = .healthy
      · have loaded : (host env).exec i (.load b) s = ((backend.limiter.active,backend.limiter.maxInFlight),s) := by
          refine (onBackend_changed known _ _).trans ?_
          rw [same]
        have kept : candidateOf s b = some ⟨b,backend.limiter.active,backend.limiter.maxInFlight⟩ := by
          simp [candidateOf,known,healthy]
        rw [if_neg (by simp [healthy]),act,stop_perform,loaded,stop_returned (host env) ih,List.filterMap_cons_some kept]
        rfl
      · rw [if_pos healthy,ih,List.filterMap_cons_none (by simp [candidateOf,known,healthy])]

theorem candidate_index (found : candidateOf s b = some c) : c.backendIndex = b := by
  obtain ⟨backend,-,made⟩ := Option.bind_eq_some_iff.mp found
  split at made
  · cases made
    rfl
  · cases made

-- The candidates are the serving backends found healthy, each once.
theorem candidates_indices (s : State) (serving : List Nat) : (serving.filterMap (candidateOf s)).map Candidate.backendIndex =
    serving.filter fun b => (candidateOf s b).isSome := by
  induction serving with
  | nil => rfl
  | cons b rest ih =>
    cases found : candidateOf s b with
    | none => rw [List.filterMap_cons_none found,ih,List.filter_cons_of_neg (by simp [found])]
    | some c =>
      rw [List.filterMap_cons_some found,List.map_cons,ih,candidate_index found,List.filter_cons_of_pos (by simp [found])]

theorem orderCandidates_stops (i : Nat) (known : requested env req = some creq) (valid : ¬Garbled env req)
    (candidates : List Candidate) (fits : s.cursor.toNat + candidates.length ≤ 2 ^ 64) :
    ∃ after ordered, stop (host env) i s (orderCandidates env creq candidates) = (after,.ret (some ordered)) ∧
      after.backends = s.backends ∧ after.clock = s.clock ∧ ordered.order.Perm (candidates.map Candidate.backendIndex) := by
  cases policy : env.cfg.routing.policy with
  | prefixAffinity =>
    obtain ⟨msgs,fixed⟩ : ∃ msgs : Option (List (Bytes × Bytes)), orderCandidates env creq candidates =
        .ret (msgs.map fun msgs => prefixAffinityOrder env.xxh64 env.cfg.routing.loadThreshold
          (canonicalAffinityString creq.model msgs env.cfg.routing.prefixBytes.1) candidates) := by
      unfold orderCandidates
      rw [policy]
      exact ⟨_,rfl⟩
    cases msgs with
    | none =>
      have ran : Runs (orderCandidates env creq candidates) [] none := by rw [fixed]; exact .here
      exact absurd (unordered_garbled known ran) valid
    | some msgs => exact ⟨s,_,by rw [fixed]; rfl,rfl,rfl,prefixAffinity_perm _ _ _ _⟩
  | roundRobin =>
    unfold orderCandidates
    rw [policy]
    dsimp only
    split
    · rename_i none
      exact ⟨s,{},rfl,rfl,rfl,by rw [none]; exact .nil⟩
    · refine ⟨_,_,rfl,rfl,rfl,?_⟩
      change (roundRobinOrder s.cursor candidates).order.Perm _
      rw [roundRobin_rotation fits]
      exact List.rotate_perm _ _

theorem examined_other (apart : b ∉ front) : (examined clock backends front)[b]? = backends[b]? := by
  induction front generalizing backends with
  | nil => rfl
  | cons c rest ih =>
    have other : c ≠ b := fun same => apart (by simp [same])
    change (examined clock (change backends c (passedOver clock)) rest)[b]? = _
    rw [ih fun member => apart (List.mem_cons_of_mem _ member),change_other other]

theorem usable_same {backends others : List Backend} (same : others[b]? = backends[b]?) :
    usable clock others b = usable clock backends b := by
  rw [usable,same,usable]

-- On distinct candidates the walk finds one that was usable from the start, if there is one.
theorem search_usable (distinct : order.Nodup) (found : (search clock backends order).2 = some b) :
    b ∈ order ∧ usable clock backends b = true := by
  obtain ⟨front,back,rfl,useful,-⟩ := search_found.mp found
  have apart : b ∉ front := fun member => (List.nodup_append.mp distinct).2.2 b member b List.mem_cons_self rfl
  exact ⟨by simp,by rw [← useful,usable_same (examined_other apart)]⟩

theorem search_useless (distinct : order.Nodup) (none : (search clock backends order).2 = none) (member : b ∈ order) :
    usable clock backends b = false := by
  obtain ⟨front,back,rfl⟩ := List.append_of_mem member
  have apart : b ∉ front := fun member => (List.nodup_append.mp distinct).2.2 b member b List.mem_cons_self rfl
  rw [← search_none.mp none front b back rfl,usable_same (examined_other apart)]

theorem walk_stands (env : Env) (job : Job) (spills i : Nat) (labels : Metrics.Labels) (s : State) (distinct : order.Nodup) :
    (∃ b ∈ order, usable s.clock s.backends b = true ∧
      StandsAt (stop (host env) i s (walk env job spills order 0 false labels)).2 (.connect b)) ∨
    ((∀ b ∈ order, usable s.clock s.backends b = false) ∧ ∃ body, StandsAt
      (stop (host env) i s (walk env job spills order 0 false labels)).2 (.writeJson (reply job.keepAlive 503 body))) := by
  obtain ⟨-,standing⟩ := walk_stops env job spills i labels order s false
  cases found : (search s.clock s.backends order).2 with
  | none =>
    obtain ⟨payload,shown⟩ := errorJson_some env .noBackend "no eligible backend could serve the request"
    refine .inr ⟨fun b member => search_useless distinct found member,payload,?_⟩
    rw [found] at standing
    rw [standing,exhausted,shown]
    exact ⟨_,rfl⟩
  | some b =>
    rw [found] at standing
    obtain ⟨member,useful⟩ := search_usable distinct found
    exact .inl ⟨b,member,useful,standing⟩

theorem ready_iff (s : State) (b : Nat) :
    Ready s b ↔ (candidateOf s b).isSome = true ∧ usable s.clock s.backends b = true := by
  cases known : s.backends[b]? with
  | none => simp [Ready,candidateOf,known]
  | some backend =>
    rw [usable_known known]
    by_cases healthy : backend.observedHealth = .healthy
    · simp [Ready,candidateOf,known,healthy]
    · simp [Ready,candidateOf,known,healthy]

-- An error that names the model can be serialised.
theorem modelError_some (known : requested env req = some creq) (valid : ¬Garbled env req) (kind : ErrorKind)
    (before param : String) :
    ∃ payload, errorJson env kind (text before ++ creq.model ++ text "'") (text param) = some payload := by
  obtain ⟨body,found,parsed⟩ := requested_body known
  have sound : body.Utf8 := Classical.not_not.mp fun broken => valid ⟨body,found,broken⟩
  have named : ValidUtf8 creq.model := Json.find_utf8 sound (parsed_model parsed)
  have message : ValidUtf8 (text before ++ creq.model ++ text "'") :=
    utf8_append (utf8_append (text_utf8 _) named) (text_utf8 _)
  exact Option.isSome_iff_exists.mp ((env.json.dumps _).mpr (makeError_valid kind message (text_utf8 _)))

def Vacant (g : Gate) : Prop := g.inFlight < g.maxConcurrent ∧ g.waiters = []

-- Where a request for a known model stands when it first waits.
inductive Served (env : Env) (s : State) (creq : ChatCompletionRequest) (keepAlive : Bool) (stands : Wait → Prop) : Prop where
  | dispatched : Vacant s.gate → b ∈ backendsForModel env creq.model → Ready s b → stands (.connect b) →
      Served env s creq keepAlive stands
  | unserved : Vacant s.gate → (∀ b ∈ backendsForModel env creq.model, ¬Ready s b) →
      stands (.writeJson (reply keepAlive 503 body)) → Served env s creq keepAlive stands
  | queued : ¬Vacant s.gate → s.gate.waiters.length < s.gate.queueDepth → stands .turn →
      Served env s creq keepAlive stands
  | refused : ¬Vacant s.gate → s.gate.queueDepth ≤ s.gate.waiters.length →
      stands (.writeJson (reply keepAlive 429 body)) → Served env s creq keepAlive stands

theorem Served.mono (served : Served env s creq keepAlive stands) (kept : ∀ point, stands point → others point) :
    Served env s creq keepAlive others := by
  cases served with
  | dispatched vacant lists ready at_ => exact .dispatched vacant lists ready (kept _ at_)
  | unserved vacant none at_ => exact .unserved vacant none (kept _ at_)
  | queued full room at_ => exact .queued full room (kept _ at_)
  | refused full filled at_ => exact .refused full filled (kept _ at_)

theorem acquire_vacant (env : Env) (i : Nat) (vacant : Vacant s.gate) : stop (host env) i s acquire =
    ({s with gate := {s.gate with inFlight := s.gate.inFlight + 1}},.ret (.admitted,0)) := by
  have entered : (host env).exec i .enterGate s =
      (.admitted,{s with gate := {s.gate with inFlight := s.gate.inFlight + 1}}) := by
    have entry : acquireEntry s.gate i = (.admitted,{s.gate with inFlight := s.gate.inFlight + 1}) := if_pos vacant
    simp only [host,exec,entry]
  rw [acquire,act,stop_perform,entered]
  rfl

theorem acquire_queued (env : Env) (i : Nat) (full : ¬Vacant s.gate) (room : s.gate.waiters.length < s.gate.queueDepth) :
    StandsAt (stop (host env) i s acquire).2 .turn := by
  have entered : (host env).exec i .enterGate s =
      (.queued,{s with gate := {s.gate with waiters := s.gate.waiters ++ [i]}}) := by
    have entry : acquireEntry s.gate i = (.queued,{s.gate with waiters := s.gate.waiters ++ [i]}) :=
      (if_neg full).trans (if_neg (by omega))
    simp only [host,exec,entry]
  rw [acquire,act,stop_perform,entered]
  exact ⟨_,rfl⟩

theorem acquire_refused (env : Env) (i : Nat) (full : ¬Vacant s.gate) (filled : s.gate.queueDepth ≤ s.gate.waiters.length) :
    stop (host env) i s acquire = (s,.ret (.queueFull,0)) := by
  have entered : (host env).exec i .enterGate s = (.queueFull,s) := by
    have entry : acquireEntry s.gate i = (.queueFull,s.gate) := (if_neg full).trans (if_pos filled)
    simp only [host,exec,entry]
  rw [acquire,act,stop_perform,entered]
  rfl

section Admitted
variable {req : Request} {creq : ChatCompletionRequest} (known : requested env req = some creq) (valid : ¬Garbled env req)
  (fits : s.cursor.toNat + env.cfg.backends.length ≤ 2 ^ 64)
include known valid fits

-- With a slot of the gate the request is sent on at once, or no backend is ready.
theorem admitted_stands (keepAlive : Bool) (labels : Metrics.Labels) :
    (∃ b ∈ backendsForModel env creq.model, Ready s b ∧
      StandsAt (stop (host env) i s (admitted env creq keepAlive labels)).2 (.connect b)) ∨
    ((∀ b ∈ backendsForModel env creq.model, ¬Ready s b) ∧ ∃ body,
      StandsAt (stop (host env) i s (admitted env creq keepAlive labels)).2 (.writeJson (reply keepAlive 503 body))) := by
  unfold admitted
  rw [act,stop_perform,act,stop_perform]
  generalize published : ((host env).exec i .publishAdmissionGauges ((host env).exec i .now s).2).2 = t
  have same (b : Nat) : Ready s b ↔ Ready t b := by rw [← published]; exact Iff.rfl
  have cursor : t.cursor = s.cursor := by rw [← published]; rfl
  generalize listed : backendsForModel env creq.model = serving
  rw [stop_returned (host env) (snapshot_stops env i t serving)]
  split
  · rename_i none
    obtain ⟨payload,shown⟩ := modelError_some known valid .noBackend "no eligible backend for model '" ""
    refine .inr ⟨fun b member ready => ?_,payload,?_⟩
    · have skipped := List.filterMap_eq_nil_iff.mp none b member
      have found := ((ready_iff t b).mp ((same b).mp ready)).1
      simp [skipped] at found
    · rw [show ([] : Bytes) = text "" from rfl,shown]
      exact respond_stands _ _ _ _ _ _ _
  · have fewer : (serving.filterMap (candidateOf t)).length ≤ env.cfg.backends.length := by
      have short := List.length_filterMap_le (candidateOf t) serving
      have all : (backendsForModel env creq.model).length ≤ env.cfg.backends.length := by
        simpa [backendsForModel] using List.length_filter_le _ (List.range env.cfg.backends.length)
      rw [listed] at all
      omega
    obtain ⟨after,ordered,placed,backends,clock,perm⟩ :=
      orderCandidates_stops i known valid (serving.filterMap (candidateOf t)) (by rw [cursor]; omega)
    rw [stop_returned (host env) placed]
    cases dumped : env.json.dump (injectIncludeUsage creq.raw) with
    | none => exact absurd (unsent_garbled known dumped) valid
    | some upstreamText =>
      dsimp only
      have members (b : Nat) : b ∈ ordered.order ↔ b ∈ serving ∧ (candidateOf t b).isSome = true := by
        rw [perm.mem_iff,candidates_indices,List.mem_filter]
      have distinct : ordered.order.Nodup := by
        rw [perm.nodup_iff,candidates_indices,← listed]
        exact (backendsForModel_nodup env creq.model).filter _
      obtain ⟨b,member,useful,connects⟩ | ⟨useless,answers⟩ := walk_stands env
        ⟨creq,keepAlive,((host env).exec i .now s).1,upstreamText⟩ ordered.spills i labels after distinct
      · rw [backends,clock] at useful
        obtain ⟨lists,healthy⟩ := (members b).mp member
        exact .inl ⟨b,lists,(same b).mpr ((ready_iff t b).mpr ⟨healthy,useful⟩),connects⟩
      · refine .inr ⟨fun b member ready => ?_,answers⟩
        obtain ⟨healthy,useful⟩ := (ready_iff t b).mp ((same b).mp ready)
        rw [← clock,← backends,useless b ((members b).mpr ⟨member,healthy⟩)] at useful
        cases useful

theorem serve_stands (keepAlive : Bool) (labels : Metrics.Labels) :
    Served env s creq keepAlive (StandsAt (stop (host env) i s (serve env creq keepAlive labels)).2) := by
  unfold serve
  by_cases vacant : Vacant s.gate
  · rw [stop_returned (host env) (acquire_vacant env i vacant)]
    dsimp only
    rw [act,stop_perform]
    obtain ⟨b,lists,ready,connects⟩ | ⟨none,body,answers⟩ := admitted_stands (i := i) (s := ((host env).exec i
        (.record (.observeQueueTime labels (seconds 0))) {s with gate := {s.gate with inFlight := s.gate.inFlight + 1}}).2)
        known valid fits keepAlive labels
    · exact .dispatched vacant lists ready (stands_bind connects _)
    · exact .unserved vacant none (stands_bind answers _)
  · by_cases room : s.gate.waiters.length < s.gate.queueDepth
    · exact .queued vacant room (stands_bind (acquire_queued env i vacant room) _)
    · have filled : s.gate.queueDepth ≤ s.gate.waiters.length := by omega
      obtain ⟨payload,shown⟩ := errorJson_some env .admission "admission queue is full"
      rw [stop_returned (host env) (acquire_refused env i vacant filled)]
      dsimp only
      rw [act,stop_perform,shown]
      exact .refused vacant filled (respond_stands _ _ _ _ _ _ _)

end Admitted

inductive Arrived (env : Env) (s : State) (req : Request) (stands : Wait → Prop) : Prop where
  | invalid : requested env req = none → stands (.writeJson (reply req.keepAlive 400 body)) → Arrived env s req stands
  | unknown : requested env req = some creq → backendsForModel env creq.model = [] →
      stands (.writeJson (reply req.keepAlive 404 body)) → Arrived env s req stands
  | served : requested env req = some creq → backendsForModel env creq.model ≠ [] →
      Served env s creq req.keepAlive stands → Arrived env s req stands

theorem Arrived.mono (arrived : Arrived env s req stands) (kept : ∀ point, stands point → others point) :
    Arrived env s req others := by
  cases arrived with
  | invalid none at_ => exact .invalid none (kept _ at_)
  | unknown known none at_ => exact .unknown known none (kept _ at_)
  | served known some served => exact .served known some (served.mono kept)

theorem chatBody_arrives (i : Nat) (labels : Metrics.Labels) (valid : ¬Garbled env req)
    (fits : s.cursor.toNat + env.cfg.backends.length ≤ 2 ^ 64) :
    Arrived env s req (StandsAt (stop (host env) i s (chatBody env req labels)).2) := by
  unfold chatBody
  cases read : env.json.parse req.body with
  | none =>
    obtain ⟨payload,shown⟩ := errorJson_some env .invalidRequest "invalid JSON body"
    dsimp only
    rw [shown]
    exact .invalid (by rw [requested,read]; rfl) (respond_stands _ _ _ _ _ _ _)
  | some body =>
    dsimp only
    cases parsed : ChatCompletionRequest.parse body with
    | error e =>
      obtain ⟨payload,shown⟩ := Option.isSome_iff_exists.mp ((env.json.dumps _).mpr (parse_error_utf8 parsed))
      have status : statusCode e.kind = 400 := by
        obtain ⟨message,param,refused⟩ | ⟨creq,accepted,-⟩ := parse_cases body
        · cases refused.symm.trans parsed
          rfl
        · cases accepted.symm.trans parsed
      dsimp only
      rw [shown,status]
      exact .invalid (by rw [requested,read,Option.bind_some,parsed]; rfl) (respond_stands _ _ _ _ _ _ _)
    | ok creq =>
      have known : requested env req = some creq := by rw [requested,read,Option.bind_some,parsed]; rfl
      dsimp only
      split
      · rename_i none
        obtain ⟨payload,shown⟩ := modelError_some known valid .unknownModel "no backend serves model '" "model"
        rw [shown]
        exact .unknown known none (respond_stands _ _ _ _ _ _ _)
      · rename_i some
        exact .served known some (serve_stands known valid fits _ _)

theorem handleChat_arrives (env : Env) (i : Nat) (s : State) (req : Request) (valid : ¬Garbled env req)
    (fits : s.cursor.toNat + env.cfg.backends.length ≤ 2 ^ 64) :
    Arrived env s req (StandsAt (stop (host env) i s (handleChat env req)).2) := by
  rw [handleChat,act,stop_perform]
  exact (chatBody_arrives i _ valid fits).mono fun point stands => stands_bind stands _

end Arrival
section Process
variable {setup : Server.Setup} {p : Server.Process} {meets : Server.Process → Server.Step → Prop} {env : Env} {s : State}
  {req : Request}

inductive Fate where
  | answered (status : Nat)
  | queued
  | dispatched
  deriving DecidableEq

def fate : Wait → Option Fate
  | .writeJson response => some (.answered response.status)
  | .turn => some .queued
  | .connect _ => some .dispatched
  | _ => none

-- What is due to a request that arrives.
inductive Due (env : Env) (s : State) (req : Request) : Fate → Prop where
  | invalid : requested env req = none → Due env s req (.answered 400)
  | unknown : requested env req = some creq → backendsForModel env creq.model = [] → Due env s req (.answered 404)
  | refused : requested env req = some creq → backendsForModel env creq.model ≠ [] →
      s.gate.inFlight = s.gate.maxConcurrent → s.gate.waiters.length = s.gate.queueDepth → Due env s req (.answered 429)
  | queued : requested env req = some creq → backendsForModel env creq.model ≠ [] →
      s.gate.inFlight = s.gate.maxConcurrent → s.gate.waiters.length < s.gate.queueDepth → Due env s req .queued
  | unserved : requested env req = some creq → backendsForModel env creq.model ≠ [] →
      s.gate.inFlight < s.gate.maxConcurrent → (∀ b ∈ backendsForModel env creq.model, ¬Ready s b) →
      Due env s req (.answered 503)
  | dispatched : requested env req = some creq → s.gate.inFlight < s.gate.maxConcurrent →
      b ∈ backendsForModel env creq.model → Ready s b → Due env s req .dispatched

-- The cases exclude each other: a request parses or not, and the gate is full or not.
theorem Due.unique (one : Due env s req first) (two : Due env s req second) : first = second := by
  cases one with
  | invalid none => cases two <;> simp_all
  | unknown known none => cases two <;> simp_all
  | refused known some full filled => cases two <;> simp_all
  | queued known some full room => cases two <;> simp_all
  | unserved known some below unready =>
    cases two with
    | dispatched again _ lists ready =>
      cases Option.some.inj (known.symm.trans again)
      exact absurd ready (unready _ lists)
    | _ => simp_all
  | dispatched known below lists ready =>
    cases two with
    | unserved again _ _ unready =>
      cases Option.some.inj (known.symm.trans again)
      exact absurd ready (unready _ lists)
    | _ => simp_all

theorem Arrived.due (arrived : Arrived env s req stands) (valid : GateInv s.gate phases) :
    ∃ here due, stands here ∧ fate here = some due ∧ Due env s req due ∧ ∀ b, here = .connect b → Ready s b := by
  have cap := valid.cap
  have room := valid.room
  have below (vacant : Vacant s.gate) : s.gate.inFlight < s.gate.maxConcurrent := vacant.1
  have full (taken : ¬Vacant s.gate) : s.gate.inFlight = s.gate.maxConcurrent := by
    by_cases waiting : s.gate.waiters = []
    · have reached : ¬s.gate.inFlight < s.gate.maxConcurrent := fun below => taken ⟨below,waiting⟩
      omega
    · exact valid.full waiting
  cases arrived with
  | invalid none at_ => exact ⟨_,_,at_,rfl,.invalid none,nofun⟩
  | unknown known none at_ => exact ⟨_,_,at_,rfl,.unknown known none,nofun⟩
  | served known some served =>
    cases served with
    | dispatched vacant lists ready at_ =>
      refine ⟨_,_,at_,rfl,.dispatched known (below vacant) lists ready,?_⟩
      rintro _ ⟨⟩
      exact ready
    | unserved vacant unready at_ => exact ⟨_,_,at_,rfl,.unserved known some (below vacant) unready,nofun⟩
    | queued taken left at_ => exact ⟨_,_,at_,rfl,.queued known some (full taken) left,nofun⟩
    | refused taken filled at_ => exact ⟨_,_,at_,rfl,.refused known some (full taken) (by omega),nofun⟩

-- In every reachable state of the process a request that arrives gets what is due to
-- it: it is refused only for what it asks, for a gate and a queue that are full, or
-- because no backend is ready; else it waits its turn or is sent to a ready backend.
theorem arrival_decided (path : Server.Reachable setup meets p) (valid : ¬Garbled setup.env req)
    (fits : p.gateways.shared.cursor.toNat + setup.env.cfg.backends.length ≤ 2 ^ 64) :
    ∃ call here next, (Server.spawned setup.env p.gateways req).threads = p.gateways.threads ++ [call] ∧
      call.code = .wait here next ∧ (∀ due, fate here = some due ↔ Due setup.env p.gateways.shared req due) ∧
      ∀ b, here = .connect b → Ready p.gateways.shared b := by
  obtain ⟨hs,-,inv⟩ := accounts_reached (Capacity.accounts setup.env) (fun _ _ _ _ _ _ _ _ _ _ _ => trivial)
    (Capacity.construct_accounted setup.env.cfg) (Server.reachable_gateways path)
  have arrived := handleChat_arrives setup.env p.gateways.threads.length p.gateways.shared req valid fits
  rw [stop_settle] at arrived
  obtain ⟨here,due,⟨next,waits⟩,fated,own,ready⟩ := arrived.due inv.gate
  refine ⟨_,here,next,rfl,waits,fun other => ⟨fun same => ?_,fun others => ?_⟩,ready⟩
  · cases Option.some.inj (fated.symm.trans same)
    exact own
  · rw [fated,own.unique others]

-- An idle process whose backend was found healthy sends a request on at once.
theorem arrival_decided_idle : ∃ p call here next, Server.Reachable Server.sampleSetup Transition.Any p ∧
    (Server.spawned Server.sampleSetup.env p.gateways (chatRequest true)).threads = p.gateways.threads ++ [call] ∧
    call.code = .wait here next ∧ fate here = some .dispatched := by
  obtain ⟨p,path,shown⟩ : ∃ p, Server.Reachable Server.sampleSetup Transition.Any p ∧
      (p.gateways.shared.cursor.toNat,p.gateways.shared.gate,p.gateways.shared.backends.map fun backend =>
        (backend.observedHealth,(allowRequest backend.breaker p.gateways.shared.clock).1.allowed,backend.limiter)) =
      (0,start 256 64,[(.healthy,true,⟨8,0⟩)]) :=
    Server.reached_shown [.probe 0 Server.fine,.probe 0 Server.fine,.probe 0 Server.fine] _ (by decide +kernel)
  obtain ⟨cursor,rest⟩ := Prod.mk.inj shown
  obtain ⟨gate,backends⟩ := Prod.mk.inj rest
  obtain ⟨backend,only,each⟩ := List.map_eq_singleton_iff.mp backends
  obtain ⟨healthy,rest⟩ := Prod.mk.inj each
  obtain ⟨allowed,limiter⟩ := Prod.mk.inj rest
  obtain ⟨creq,known,model⟩ : ∃ creq, requested Server.sampleSetup.env (chatRequest true) = some creq ∧
      creq.model = text "m" := Option.map_eq_some_iff.mp (by decide +kernel)
  have valid : ¬Garbled Server.sampleSetup.env (chatRequest true) := by
    rintro ⟨body,found,broken⟩
    exact broken (tableLib_parses (by decide +kernel) _ _ found)
  have lists : 0 ∈ backendsForModel Server.sampleSetup.env creq.model := by rw [model]; decide +kernel
  have ready : Ready p.gateways.shared 0 := ⟨backend,by rw [only]; rfl,healthy,allowed,by rw [limiter]; decide⟩
  obtain ⟨call,here,next,threads,waits,decided,-⟩ := arrival_decided path valid (by rw [cursor]; decide)
  exact ⟨p,call,here,next,path,threads,waits,(decided _).mpr (.dispatched known (by rw [gate]; decide) lists ready)⟩

end Process
end Kvmux.Progress
