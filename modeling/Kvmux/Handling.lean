import Mathlib.Data.List.Basic
import Kvmux.Attempt

namespace Kvmux.Handling
open Coroutine CircuitBreaker GlobalGate Gateway OpenAi Routing Streaming Attempt

-- The failover walk over the rest of the order, with the attempts already made.
inductive Walk (env : Env) (job : Job) : List Nat → Nat → Trace → Outcome → Prop where
  | exhausted : order = [] ∨ maxAttempts ≤ attempts →
      Answered labels job.keepAlive 503
        (errorJson env .noBackend (text "no eligible backend could serve the request") []) t outcome →
      Walk env job order attempts t outcome
  | denied : attempts < maxAttempts → (∀ event ∈ spill, Within Passive (fun _ => False) event) →
      Decision.allowed dec = false → Walk env job rest attempts t outcome →
      Walk env job (b :: rest) attempts (spill ++ .did (.allowRequest b) dec :: t) outcome
  | full : attempts < maxAttempts → (∀ event ∈ spill, Within Passive (fun _ => False) event) →
      Decision.allowed dec = true → Walk env job rest attempts t outcome →
      Walk env job (b :: rest) attempts (spill ++ .did (.allowRequest b) dec :: .did (.tryAcquire b) false ::
        .did (.report b .abort dec.isProbe) () :: t) outcome
  | failedOver : attempts < maxAttempts → (∀ event ∈ spill, Within Passive (fun _ => False) event) →
      Decision.allowed dec = true →
      Tried env job labels b dec.isProbe (attempts + 1 < maxAttempts && rest != []) tried .next →
      Walk env job rest (attempts + 1) t outcome →
      Walk env job (b :: rest) attempts (spill ++ .did (.allowRequest b) dec :: .did (.tryAcquire b) true ::
        (tried ++ .did (.releaseSlot b) () :: t)) outcome
  | served : attempts < maxAttempts → (∀ event ∈ spill, Within Passive (fun _ => False) event) →
      Decision.allowed dec = true →
      Tried env job labels b dec.isProbe (attempts + 1 < maxAttempts && rest != []) tried (.finish outcome) →
      Walk env job (b :: rest) attempts (spill ++ .did (.allowRequest b) dec :: .did (.tryAcquire b) true ::
        (tried ++ [.did (.releaseSlot b) ()])) outcome

theorem walk_runs (path : Runs (walk env job spills order attempts spillsRecorded labels) t outcome) :
    Walk env job order attempts t outcome := by
  induction order generalizing attempts spillsRecorded labels t with
  | nil => exact .exhausted (.inl rfl) (respond_runs path)
  | cons b rest ih =>
    unfold walk at path
    split at path
    · rename_i spent
      exact .exhausted (.inr spent) (respond_runs path)
    · rename_i left
      have left : attempts < maxAttempts := Nat.lt_of_not_le left
      obtain ⟨spill,_,tail,rfl,recorded,asking⟩ := runs_bind.mp path
      have spill := (recordSpills_looking spills spillsRecorded _).runs recorded
      obtain ⟨dec,tail,rfl,decided⟩ := runs_perform.mp asking
      split at decided
      · rename_i denied
        exact .denied left spill (by simpa using denied) (ih decided)
      · rename_i allowed
        have allowed : Decision.allowed dec = true := by simpa using allowed
        obtain ⟨taken,tail,rfl,slotted⟩ := runs_perform.mp decided
        cases taken with
        | false =>
          obtain ⟨_,tail,rfl,walking⟩ := runs_perform.mp slotted
          exact .full left spill allowed (ih walking)
        | true =>
          obtain ⟨tried,verdict,tail,rfl,trying,releasing⟩ := runs_bind.mp slotted
          obtain ⟨_,tail,rfl,walking⟩ := runs_perform.mp releasing
          cases verdict with
          | next => exact .failedOver left spill allowed (attempt_runs trying) (ih walking)
          | finish outcome =>
            obtain ⟨rfl,rfl⟩ := runs_ret.mp walking
            exact .served left spill allowed (attempt_runs trying)

section Notes
variable {spill : Trace} (passive : ∀ event ∈ spill, Within Passive (fun _ => False) event)
include passive

theorem denied_notes (b : Nat) (dec : Decision) (t : Trace) :
    notes (spill ++ .did (.allowRequest b) dec :: t) = notes t := by
  rw [notes_append,passive_notes passive]
  rfl

theorem full_notes (b : Nat) (dec : Decision) (t : Trace) :
    notes (spill ++ .did (.allowRequest b) dec :: .did (.tryAcquire b) false :: .did (.report b .abort dec.isProbe) () :: t) =
      .reported b .abort dec.isProbe :: notes t := by
  rw [notes_append,passive_notes passive]
  rfl

theorem tried_notes (b : Nat) (dec : Decision) (tried t : Trace) :
    notes (spill ++ .did (.allowRequest b) dec :: .did (.tryAcquire b) true :: (tried ++ .did (.releaseSlot b) () :: t)) =
      notes tried ++ notes t := by
  rw [notes_append,passive_notes passive]
  exact notes_append tried _

end Notes

section Rule
variable {check : Trace → Event Op.Reply Wait.Answer → Trace → Prop} {Plain : Note → Prop} {Inv : Trace → Prop}

-- A check that only some notes can fail holds of a trace that shows none of them.
theorem atEach_notes
    (plain : ∀ past event future, (∀ shown, note event = some shown → Plain shown) → check past event future)
    (all : ∀ shown ∈ notes t, Plain shown) (past future : Trace) : AtEach check past t future := by
  apply atEach_always
  intro event member past future
  exact plain past event future fun shown same => all shown (List.mem_filterMap.mpr ⟨event,member,same⟩)

-- What has to be said about the parts of a walk to check every event of it.
structure Checks (check : Trace → Event Op.Reply Wait.Answer → Trace → Prop) (Plain : Note → Prop) (Inv : Trace → Prop)
    (env : Env) (job : Job) (order : List Nat) (outcome : Outcome) (future : Trace) : Prop where
  plain : ∀ past event future, (∀ shown, note event = some shown → Plain shown) → check past event future
  aborted : ∀ b isProbe, Plain (.reported b .abort isProbe)
  keeps : ∀ past more, Inv past → sent (notes more) = [] → Inv (past ++ more)
  exhausted : ∀ past labels t, Inv past → Answered labels job.keepAlive 503
    (errorJson env .noBackend (text "no eligible backend could serve the request") []) t outcome → AtEach check past t future
  next : ∀ past b dec labels more t after, b ∈ order → Inv past → Decision.allowed dec = true →
    Tried env job labels b dec.isProbe more t .next →
    AtEach check (past ++ [.did (.allowRequest b) dec,.did (.tryAcquire b) true]) t after
  finish : ∀ past b dec labels more t, b ∈ order → Inv past → Decision.allowed dec = true →
    Tried env job labels b dec.isProbe more t (.finish outcome) →
    AtEach check (past ++ [.did (.allowRequest b) dec,.did (.tryAcquire b) true]) t (.did (.releaseSlot b) () :: future)

theorem Checks.walk (checks : Checks check Plain Inv env job order outcome future) (walk : Walk env job rest attempts t outcome)
    (within : ∀ b ∈ rest, b ∈ order) (inv : Inv past) : AtEach check past t future := by
  have quiet : ∀ {lead}, notes lead = [] → ∀ past future, AtEach check past lead future :=
    fun silent => atEach_notes checks.plain (by simp [silent])
  have calm : ∀ {past lead}, Inv past → notes lead = [] → Inv (past ++ lead) := by
    intro past lead inv silent
    exact checks.keeps past lead inv (by rw [silent]; rfl)
  induction walk generalizing past with
  | exhausted _ answered => exact checks.exhausted past _ _ inv answered
  | denied left passive refusal walk ih =>
    rename_i spill dec rest t outcome b
    have lead : notes (spill ++ [.did (.allowRequest b) dec]) = [] := denied_notes passive b dec []
    rw [List.append_cons,atEach_append]
    exact ⟨quiet lead past _,ih checks (fun other member => within other (List.mem_cons_of_mem b member)) (calm inv lead)⟩
  | full left passive allowed walk ih =>
    rename_i spill dec rest t outcome b
    have lead := passive_notes passive
    have split : ∀ x y z : Event Op.Reply Wait.Answer, spill ++ x :: y :: z :: t = spill ++ ([x,y] ++ ([z] ++ t)) := by simp
    rw [split,atEach_append,atEach_append,atEach_append]
    have abort : ∀ shown ∈ notes [.did (.report b .abort dec.isProbe) ()], Plain shown :=
      List.forall_mem_singleton.mpr (checks.aborted b dec.isProbe)
    refine ⟨quiet lead past _,quiet rfl _ _,atEach_notes checks.plain abort _ _,?_⟩
    apply ih checks fun other member => within other (List.mem_cons_of_mem b member)
    exact checks.keeps _ _ (calm (calm inv lead) rfl) rfl
  | failedOver left passive allowed tried walk ih =>
    rename_i spill dec labels b rest segment t outcome
    have lead := passive_notes passive
    have split : ∀ x y z : Event Op.Reply Wait.Answer,
      spill ++ x :: y :: (segment ++ z :: t) = spill ++ ([x,y] ++ (segment ++ ([z] ++ t))) := by simp
    rw [split,atEach_append,atEach_append,atEach_append,atEach_append]
    refine ⟨quiet lead past _,quiet rfl _ _,?_,quiet rfl _ _,?_⟩
    · exact checks.next _ b dec labels _ segment _ (within b List.mem_cons_self) (calm inv lead) allowed tried
    · apply ih checks fun other member => within other (List.mem_cons_of_mem b member)
      exact calm (checks.keeps _ _ (calm (calm inv lead) rfl) (sent_refused (tried_next tried).2)) rfl
  | served left passive allowed tried =>
    rename_i spill dec labels b rest segment outcome
    have lead := passive_notes passive
    have split : ∀ x y z : Event Op.Reply Wait.Answer,
      spill ++ x :: y :: (segment ++ [z]) = spill ++ ([x,y] ++ (segment ++ [z])) := by simp
    rw [split,atEach_append,atEach_append,atEach_append]
    refine ⟨quiet lead past _,quiet rfl _ _,?_,quiet rfl _ _⟩
    exact checks.finish _ b dec labels _ segment (within b List.mem_cons_self) (calm inv lead) allowed tried

end Rule

theorem acquire_silent : Silent acquire := by
  refine ⟨trivial,fun entry => ?_⟩
  cases entry with
  | admitted => trivial
  | queueFull => trivial
  | queued => exact ⟨trivial,fun _ => ⟨trivial,fun _ => ⟨trivial,fun _ => ⟨trivial,fun _ => trivial⟩⟩⟩⟩

-- The snapshot keeps backends it was given and saw healthy, in their order.
theorem snapshot_runs (path : Runs (snapshot serving) t candidates) :
    (candidates.map Candidate.backendIndex).Sublist serving ∧
      ∀ c ∈ candidates, .did (.observedHealth c.backendIndex) .healthy ∈ t := by
  induction serving generalizing t candidates with
  | nil =>
    obtain ⟨rfl,rfl⟩ := runs_ret.mp path
    simp
  | cons idx rest ih =>
    unfold snapshot at path
    obtain ⟨health,tail,rfl,looking⟩ := runs_perform.mp path
    split at looking
    · obtain ⟨kept,seen⟩ := ih looking
      exact ⟨kept.cons idx,fun c member => List.mem_cons_of_mem _ (seen c member)⟩
    · rename_i healthy
      have healthy : health = .healthy := by simpa using healthy
      obtain ⟨load,tail,rfl,going⟩ := runs_perform.mp looking
      obtain ⟨first,later,second,rfl,snapped,ending⟩ := runs_bind.mp going
      obtain ⟨rfl,rfl⟩ := runs_ret.mp ending
      obtain ⟨kept,seen⟩ := ih snapped
      refine ⟨kept.cons_cons idx,fun c member => ?_⟩
      rcases List.mem_cons.mp member with rfl | other
      · rw [healthy]
        exact List.mem_cons_self
      · rw [List.append_nil]
        exact List.mem_cons_of_mem _ (List.mem_cons_of_mem _ (seen c other))

def cursors (t : Trace) : List UInt64 := t.filterMap fun
  | .did .nextCursor start => some start
  | _ => none

@[simp] theorem cursors_append (first second : Trace) : cursors (first ++ second) = cursors first ++ cursors second :=
  List.filterMap_append

-- The round-robin cursor is a 64-bit word; it does not wrap within a rotation.
def CursorFits (count : Nat) (t : Trace) : Prop := ∀ start ∈ cursors t, start.toNat + count ≤ 2 ^ 64

theorem cursorFits_append : CursorFits count (first ++ second) ↔ CursorFits count first ∧ CursorFits count second := by
  simp [CursorFits,or_imp,forall_and]

theorem orderCandidates_runs (path : Runs (orderCandidates env creq candidates) t (some ordered)) :
    (∀ b ∈ ordered.order, ∃ c ∈ candidates, c.backendIndex = b) ∧
      (CursorFits candidates.length t → (candidates.map Candidate.backendIndex).Nodup → ordered.order.Nodup) := by
  unfold orderCandidates at path
  split at path
  · obtain ⟨rfl,found⟩ := runs_ret.mp path
    obtain ⟨msgs,-,rfl⟩ := Option.map_eq_some_iff.mp found.symm
    have perm := prefixAffinity_perm env.xxh64 env.cfg.routing.loadThreshold
      (canonicalAffinityString creq.model msgs env.cfg.routing.prefixBytes.1) candidates
    refine ⟨fun b member => ?_,fun _ distinct => perm.nodup_iff.mpr distinct⟩
    exact List.mem_map.mp (perm.mem_iff.mp member)
  · split at path
    · obtain ⟨rfl,found⟩ := runs_ret.mp path
      cases Option.some.inj found
      simp
    · obtain ⟨start,tail,rfl,turning⟩ := runs_perform.mp path
      obtain ⟨rfl,found⟩ := runs_ret.mp turning
      cases Option.some.inj found
      refine ⟨fun b member => roundRobin_offered member,fun fits distinct => ?_⟩
      rw [roundRobin_rotation (fits start List.mem_cons_self)]
      exact List.nodup_rotate.mpr distinct

def requested (env : Env) (req : Request) : Option ChatCompletionRequest :=
  (env.json.parse req.body).bind fun body => (ChatCompletionRequest.parse body).toOption

-- A backend that the request may be sent to, as far as `past` shows.
def Offered (env : Env) (req : Request) (past : Trace) (b : Nat) : Prop :=
  (∃ creq conf, requested env req = some creq ∧ env.cfg.backends[b]? = some conf ∧ creq.model ∈ conf.models) ∧
    .did (.observedHealth b) .healthy ∈ past

-- A request is answered without asking a backend, ends in an exception before
-- anything is written, or is walked through the order of its candidates.
inductive Handled (env : Env) (req : Request) : Trace → Exit → Prop where
  | declined : notes lead = [] → notes tail = [] → 400 ≤ status →
      (∃ kind message param, status = statusCode kind ∧ body = errorJson env kind message param) →
      Answered labels req.keepAlive status body t outcome →
      Handled env req (lead ++ t ++ tail) outcome.exit
  | failed : notes t = [] → Handled env req t .threw
  | walked : notes lead = [] → notes tail = [] → requested env req = some job.creq → job.keepAlive = req.keepAlive →
      (∀ b ∈ order, Offered env req lead b) → (CursorFits env.cfg.backends.length lead → order.Nodup) →
      Walk env job order 0 t outcome → Handled env req (lead ++ t ++ tail) outcome.exit

-- A body with text in it that is not UTF-8: serialising parts of it throws.
def Garbled (env : Env) (req : Request) : Prop := ∃ body, env.json.parse req.body = some body ∧ ¬body.Utf8

-- The same of the handler without its terminal recorder, with all that the recorder reads.
inductive Chatted (env : Env) (req : Request) : Trace → Outcome → Prop where
  | declined : notes lead = [] → notes tail = [] → 400 ≤ status →
      (∃ kind message param, status = statusCode kind ∧ body = errorJson env kind message param) →
      Answered labels req.keepAlive status body t outcome →
      Chatted env req (lead ++ t ++ tail) outcome
  | failed : notes t = [] → Garbled env req → Chatted env req t ⟨.threw,0,labels⟩
  | walked : notes lead = [] → notes tail = [] → requested env req = some job.creq → job.keepAlive = req.keepAlive →
      (∀ b ∈ order, Offered env req lead b) → (CursorFits env.cfg.backends.length lead → order.Nodup) →
      Walk env job order 0 t outcome → Chatted env req (lead ++ t ++ tail) outcome

theorem Chatted.handled (chatted : Chatted env req t outcome) : Handled env req t outcome.exit := by
  cases chatted with
  | declined lead tail refusal own answered => exact .declined lead tail refusal own answered
  | failed silent => exact .failed silent
  | walked lead tail parsed keepAlive offered distinct walk => exact .walked lead tail parsed keepAlive offered distinct walk

-- To check every event of a request, say what holds around the walk and of the walk.
theorem Handled.checked {check : Trace → Event Op.Reply Wait.Answer → Trace → Prop} (handled : Handled env req t exit)
    (unnoted : ∀ {lead}, notes lead = [] → ∀ past future, AtEach check past lead future)
    (declined : ∀ {labels status body t outcome}, 400 ≤ status → Answered labels req.keepAlive status body t outcome →
      ∀ past future, AtEach check past t future)
    (walked : ∀ {lead tail job order t outcome}, notes lead = [] → notes tail = [] → requested env req = some job.creq →
      job.keepAlive = req.keepAlive → (∀ b ∈ order, Offered env req lead b) → outcome.exit = exit →
      Walk env job order 0 t outcome → AtEach check lead t tail) :
    AtEach check [] t [] := by
  cases handled with
  | declined lead tail refusal own answered =>
    rw [atEach_append,atEach_append]
    exact ⟨⟨unnoted lead [] _,declined refusal answered _ _⟩,unnoted tail _ _⟩
  | failed silent => exact unnoted silent [] []
  | walked lead tail parsed keepAlive offered distinct walk =>
    rw [atEach_append,atEach_append,List.append_nil]
    exact ⟨⟨unnoted lead [] _,walked lead tail parsed keepAlive offered rfl walk⟩,unnoted tail _ _⟩

theorem backendsForModel_lists (member : b ∈ backendsForModel env model) :
    ∃ conf, env.cfg.backends[b]? = some conf ∧ model ∈ conf.models := by
  simp only [backendsForModel,List.mem_filter] at member
  obtain ⟨-,lists⟩ := member
  split at lists
  · rename_i conf found
    exact ⟨conf,found,by simpa using lists⟩
  · cases lists

theorem backendsForModel_nodup (env : Env) (model : Bytes) : (backendsForModel env model).Nodup :=
  List.nodup_range.filter _

theorem Chatted.around (chatted : Chatted env req t outcome) {first last : Trace} (before : notes first = [])
    (after : notes last = []) : Chatted env req (first ++ t ++ last) outcome := by
  cases chatted with
  | failed silent garbled => exact .failed (by simp [before,silent,after]) garbled
  | declined silent quiet refusal own answered =>
    rename_i lead tail status body labels t
    have joined : first ++ (lead ++ t ++ tail) ++ last = (first ++ lead) ++ t ++ (tail ++ last) := by simp
    rw [joined]
    exact .declined (by simp [before,silent]) (by simp [quiet,after]) refusal own answered
  | walked silent quiet parsed keepAlive offered distinct walk =>
    rename_i lead tail job order t
    have joined : first ++ (lead ++ t ++ tail) ++ last = (first ++ lead) ++ t ++ (tail ++ last) := by simp
    rw [joined]
    refine .walked (by simp [before,silent]) (by simp [quiet,after]) parsed keepAlive ?_ ?_ walk
    · exact fun b member => ⟨(offered b member).1,List.mem_append_right first (offered b member).2⟩
    · exact fun fits => distinct (cursorFits_append.mp fits).2

theorem respond_chatted (refusal : 400 ≤ status)
    (own : ∃ kind message param, status = statusCode kind ∧ body = errorJson env kind message param)
    (path : Runs (respond labels req.keepAlive status body) t outcome) : Chatted env req t outcome := by
  have chatted : Chatted env req ([] ++ t ++ []) outcome := .declined rfl rfl refusal own (respond_runs path)
  simpa using chatted

theorem requested_body (known : requested env req = some creq) :
    ∃ body, env.json.parse req.body = some body ∧ ChatCompletionRequest.parse body = .ok creq := by
  obtain ⟨body,found,parsed⟩ := Option.bind_eq_some_iff.mp known
  refine ⟨body,found,?_⟩
  cases result : ChatCompletionRequest.parse body with
  | error e => simp [result,Except.toOption] at parsed
  | ok other =>
    rw [result] at parsed
    cases Option.some.inj parsed
    rfl

theorem unordered_garbled (known : requested env req = some creq) (path : Runs (orderCandidates env creq candidates) t none) :
    Garbled env req := by
  obtain ⟨body,found,parsed⟩ := requested_body known
  refine ⟨body,found,fun valid => ?_⟩
  have contents := (parsed_utf8 parsed valid).2
  unfold orderCandidates at path
  split at path
  · obtain ⟨rfl,missing⟩ := runs_ret.mp path
    obtain ⟨m,member,none⟩ := (mapM_missing _ _).mp (Option.map_eq_none_iff.mp missing.symm)
    have unwritten := Option.map_eq_none_iff.mp none
    have dumped := (env.json.dumps m.content).mpr (contents m member)
    unfold affinityContent at unwritten
    split at unwritten
    · cases unwritten
    · cases unwritten
    · rw [unwritten] at dumped
      cases dumped
  · split at path
    · obtain ⟨-,missing⟩ := runs_ret.mp path
      cases missing
    · obtain ⟨start,rest,rfl,turning⟩ := runs_perform.mp path
      obtain ⟨-,missing⟩ := runs_ret.mp turning
      cases missing

theorem unsent_garbled (known : requested env req = some creq) (undumped : env.json.dump (injectIncludeUsage creq.raw) = none) :
    Garbled env req := by
  obtain ⟨body,found,parsed⟩ := requested_body known
  refine ⟨body,found,fun valid => ?_⟩
  have dumped := (env.json.dumps _).mpr (injectIncludeUsage_utf8 (parsed_utf8 parsed valid).1)
  rw [undumped] at dumped
  cases dumped

theorem admitted_runs (parsed : requested env req = some creq) (path : Runs (admitted env creq req.keepAlive labels) t outcome) :
    Chatted env req t outcome := by
  unfold admitted at path
  obtain ⟨tAdmitted,rest,rfl,publishing⟩ := runs_perform.mp path
  obtain ⟨_,rest,rfl,snapping⟩ := runs_perform.mp publishing
  obtain ⟨looks,candidates,rest,rfl,snapped,choosing⟩ := runs_bind.mp snapping
  have looked := (looking_silent (snapshot_looking _)).notes snapped
  have silent : notes (.did .now tAdmitted :: .did .publishAdmissionGauges () :: looks) = [] := looked
  obtain ⟨kept,healthy⟩ := snapshot_runs snapped
  split at choosing
  · have chatted := (respond_chatted (by decide) ⟨.noBackend,_,_,rfl,rfl⟩ choosing).around silent notes_nil
    simpa using chatted
  · obtain ⟨turns,ordered,rest,rfl,ordering,walking⟩ := runs_bind.mp choosing
    have turned := (looking_silent (orderCandidates_looking env creq candidates)).notes ordering
    cases ordered with
    | none =>
      obtain ⟨rfl,rfl⟩ := runs_ret.mp walking
      refine .failed ?_ (unordered_garbled parsed ordering)
      rw [← List.cons_append,← List.cons_append,notes_append,silent]
      simp [turned]
    | some ordered =>
      dsimp only at walking
      split at walking
      · rename_i undumped
        obtain ⟨rfl,rfl⟩ := runs_ret.mp walking
        refine .failed ?_ (unsent_garbled parsed undumped)
        rw [← List.cons_append,← List.cons_append,notes_append,silent]
        simp [turned]
      · obtain ⟨offered,distinct⟩ := orderCandidates_runs ordering
        have chatted : Chatted env req ((.did .now tAdmitted :: .did .publishAdmissionGauges () :: looks ++ turns) ++ rest ++ [])
            outcome := by
          refine .walked (by rw [notes_append,silent,turned]; rfl) rfl parsed rfl ?_ ?_ (walk_runs walking)
          · intro b member
            obtain ⟨c,inside,rfl⟩ := offered b member
            obtain ⟨conf,found,lists⟩ := backendsForModel_lists (kept.subset (List.mem_map_of_mem inside))
            exact ⟨⟨creq,conf,parsed,found,lists⟩,by simp [healthy c inside]⟩
          · intro fits
            apply distinct
            · intro start member
              have bound := (cursorFits_append.mp fits).2 start member
              have fewer : candidates.length ≤ env.cfg.backends.length := by
                have short := kept.length_le
                have all : (backendsForModel env creq.model).length ≤ env.cfg.backends.length := by
                  simpa [backendsForModel] using List.length_filter_le _ (List.range env.cfg.backends.length)
                simpa using short.trans all
              omega
            · exact kept.nodup (backendsForModel_nodup env creq.model)
        simpa using chatted

theorem serve_runs (parsed : requested env req = some creq) (path : Runs (serve env creq req.keepAlive labels) t outcome) :
    Chatted env req t outcome := by
  unfold serve at path
  obtain ⟨gate,⟨status,queuedFor⟩,rest,rfl,acquiring,recording⟩ := runs_bind.mp path
  obtain ⟨_,rest,rfl,serving⟩ := runs_perform.mp recording
  have silent : notes (gate ++ [.did (.record (.observeQueueTime labels (seconds queuedFor))) ()]) = [] := by
    rw [notes_append,acquire_silent.notes acquiring]
    rfl
  have joined : ∀ tail : Trace, gate ++ .did (.record (.observeQueueTime labels (seconds queuedFor))) () :: tail =
      gate ++ [.did (.record (.observeQueueTime labels (seconds queuedFor))) ()] ++ tail := by simp
  rw [joined]
  cases status with
  | admitted =>
    obtain ⟨inner,result,rest,rfl,admitting,releasing⟩ := runs_bind.mp serving
    obtain ⟨_,rest,rfl,ending⟩ := runs_perform.mp releasing
    obtain ⟨rfl,rfl⟩ := runs_ret.mp ending
    rw [← List.append_assoc]
    exact (admitted_runs parsed admitting).around silent rfl
  | queueFull =>
    have chatted := (respond_chatted (by decide) ⟨.admission,_,_,rfl,rfl⟩ serving).around silent notes_nil
    simpa using chatted
  | queueTimeout =>
    have chatted := (respond_chatted (by decide) ⟨.admission,_,_,rfl,rfl⟩ serving).around silent notes_nil
    simpa using chatted

theorem chatBody_runs (path : Runs (chatBody env req labels) t outcome) : Chatted env req t outcome := by
  unfold chatBody at path
  split at path
  · exact respond_chatted (by decide) ⟨.invalidRequest,_,_,rfl,rfl⟩ path
  · rename_i body found
    split at path
    · rename_i e refused
      split at path
      · rename_i undumped
        have dumped := (env.json.dumps _).mpr (parse_error_utf8 refused)
        rw [undumped] at dumped
        cases dumped
      · rename_i parseBody dumped
        exact respond_chatted (by cases e.kind <;> decide) ⟨e.kind,e.message,e.param,rfl,dumped.symm⟩ path
    · rename_i creq parsed
      dsimp only at path
      split at path
      · exact respond_chatted (by decide) ⟨.unknownModel,_,_,rfl,rfl⟩ path
      · exact serve_runs (by simp [requested,found,parsed,Except.toOption]) path

theorem handleChat_runs (path : Runs (handleChat env req) t exit) : Handled env req t exit := by
  unfold handleChat at path
  obtain ⟨tArrive,rest,rfl,chatting⟩ := runs_perform.mp path
  obtain ⟨inner,outcome,rest,rfl,chatted,recording⟩ := runs_bind.mp chatting
  obtain ⟨last,_,rest,rfl,recorded,ending⟩ := runs_bind.mp recording
  obtain ⟨rfl,rfl⟩ := runs_ret.mp ending
  have tail := (looking_silent (recordTerminal_looking outcome tArrive)).notes recorded
  have lead : notes [.did .now tArrive] = [] := rfl
  have handled := ((chatBody_runs chatted).around lead tail).handled
  simpa using handled

end Kvmux.Handling
