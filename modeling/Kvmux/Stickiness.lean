import Mathlib.Data.List.Basic
import Mathlib.Data.List.Infix
import Kvmux.Affinity
import Kvmux.AffinityKey
import Kvmux.Wire

namespace Kvmux.Stickiness
open Coroutine Gateway OpenAi Routing Attempt Handling Affinity AffinityKey Wire

section Asking
variable {env : Env} {req : Request}

-- The backends whose breakers a request asks, in turn.
def asked (t : Trace) : List Nat := t.filterMap fun
  | .did (.allowRequest b) _ => some b
  | _ => none

-- The healthy backends of the model as the request finds them, with their loads.
def seen (t : Trace) : List Candidate := t.filterMap fun
  | .did (.load b) load => some ⟨b,load.1,load.2⟩
  | _ => none

@[simp] theorem asked_append (first second : Trace) : asked (first ++ second) = asked first ++ asked second :=
  List.filterMap_append

@[simp] theorem seen_append (first second : Trace) : seen (first ++ second) = seen first ++ seen second :=
  List.filterMap_append

def Aside (t : Trace) : Prop := asked t = [] ∧ seen t = []

theorem Aside.append (one : Aside first) (two : Aside second) : Aside (first ++ second) := by
  simp [Aside,one.1,one.2,two.1,two.2]

theorem relaying_aside {p : Prog α} (relaying : Relaying env req p) (path : Runs p t value) : Aside t := by
  have within := relaying.runs path
  refine ⟨List.filterMap_eq_nil_iff.mpr ?_,List.filterMap_eq_nil_iff.mpr ?_⟩
  · intro event member
    have own := within event member
    cases event with
    | got => rfl
    | did op reply => cases op <;> simp_all [Within,Unrouted]
  · intro event member
    have own := within event member
    cases event with
    | got => rfl
    | did op reply => cases op <;> simp_all [Within,Unrouted]

theorem emitting_aside {p : Prog α} (emitting : Emitting env req p) (path : Runs p t value) : Aside t :=
  relaying_aside (emitting_relays emitting) path

-- The walk asks the backends of its order one after the other, from the first on.
theorem walk_asks (fits : Fits env req job) (path : Runs (walk env job spills order attempts spillsRecorded labels) t outcome) :
    asked t <+: order ∧ seen t = [] ∧ (attempts < maxAttempts → order ≠ [] → asked t ≠ []) := by
  induction order generalizing attempts spillsRecorded labels t with
  | nil =>
    obtain ⟨none,unseen⟩ := emitting_aside (exhausted_emits fits labels) path
    exact ⟨by rw [none],unseen,fun _ some => absurd rfl some⟩
  | cons b rest ih =>
    unfold walk at path
    split at path
    · rename_i spent
      obtain ⟨none,unseen⟩ := emitting_aside (exhausted_emits fits labels) path
      exact ⟨by rw [none]; exact List.nil_prefix,unseen,fun left => absurd left (Nat.not_lt_of_le spent)⟩
    · obtain ⟨spill,_,tail,rfl,recorded,asking⟩ := runs_bind.mp path
      obtain ⟨unasked,unseen⟩ := emitting_aside (recordSpills_emits _ _ _ : Emitting env req _) recorded
      obtain ⟨dec,tail,rfl,decided⟩ := runs_perform.mp asking
      suffices later : asked tail <+: rest ∧ seen tail = [] by
        rw [asked_append,seen_append,unasked,unseen]
        exact ⟨List.cons_prefix_cons.mpr ⟨rfl,later.1⟩,later.2,fun _ _ => List.cons_ne_nil _ _⟩
      split at decided
      · exact ⟨(ih decided).1,(ih decided).2.1⟩
      · obtain ⟨taken,tail,rfl,slotted⟩ := runs_perform.mp decided
        cases taken with
        | false =>
          obtain ⟨_,tail,rfl,walking⟩ := runs_perform.mp slotted
          change asked tail <+: rest ∧ seen tail = []
          exact ⟨(ih walking).1,(ih walking).2.1⟩
        | true =>
          obtain ⟨tried,verdict,tail,rfl,trying,releasing⟩ := runs_bind.mp slotted
          obtain ⟨_,tail,rfl,walking⟩ := runs_perform.mp releasing
          obtain ⟨unasked,unseen⟩ := relaying_aside (attempt_relays fits _ b _ _) trying
          have split : asked tail <+: rest ∧ seen tail = [] := by
            cases verdict with
            | next => exact ⟨(ih walking).1,(ih walking).2.1⟩
            | finish outcome =>
              obtain ⟨rfl,rfl⟩ := runs_ret.mp walking
              exact ⟨List.nil_prefix,rfl⟩
          change asked (tried ++ _ :: tail) <+: rest ∧ seen (tried ++ _ :: tail) = []
          rw [asked_append,seen_append,unasked,unseen]
          exact split

theorem snapshot_seen (path : Runs (snapshot serving) t candidates) : asked t = [] ∧ seen t = candidates := by
  induction serving generalizing t candidates with
  | nil =>
    obtain ⟨rfl,rfl⟩ := runs_ret.mp path
    exact ⟨rfl,rfl⟩
  | cons idx rest ih =>
    unfold snapshot at path
    obtain ⟨health,tail,rfl,looking⟩ := runs_perform.mp path
    split at looking
    · change asked tail = [] ∧ seen tail = candidates
      exact ih looking
    · obtain ⟨load,tail,rfl,going⟩ := runs_perform.mp looking
      obtain ⟨first,later,second,rfl,snapped,ending⟩ := runs_bind.mp going
      obtain ⟨rfl,rfl⟩ := runs_ret.mp ending
      obtain ⟨unasked,listed⟩ := ih snapped
      rw [List.append_nil]
      exact ⟨unasked,congrArg (_ :: ·) listed⟩

-- A request that finds a candidate asks along the order that its policy gives to
-- the candidates it has found.
structure Follows (env : Env) (creq : ChatCompletionRequest) (t : Trace) : Prop where
  distinct : ((seen t).map Candidate.backendIndex).Nodup
  serving : (seen t).map Candidate.backendIndex ⊆ backendsForModel env creq.model
  ordered : ∃ turns ordered, Runs (orderCandidates env creq (seen t)) turns (some ordered) ∧ asked t <+: ordered.order ∧
    (ordered.order ≠ [] → asked t ≠ [])

def Routed (env : Env) (req : Request) (t : Trace) : Prop :=
  (asked t = [] ∧ (seen t = [] ∨ Garbled env req)) ∨ ∃ creq, requested env req = some creq ∧ Follows env creq t

theorem Routed.around (routed : Routed env req t) (before : Aside first) (after : Aside last) :
    Routed env req (first ++ t ++ last) := by
  have turns : asked (first ++ t ++ last) = asked t := by simp [before.1,after.1]
  have views : seen (first ++ t ++ last) = seen t := by simp [before.2,after.2]
  obtain ⟨none,least⟩ | ⟨creq,known,distinct,serving,ordered⟩ := routed
  · exact .inl ⟨turns.trans none,by rw [views]; exact least⟩
  · refine .inr ⟨creq,known,?_,?_,?_⟩
    · rwa [views]
    · rwa [views]
    · rwa [views,turns]

theorem aside_routed (aside : Aside t) : Routed env req t := .inl ⟨aside.1,.inl aside.2⟩

theorem admitted_routed (known : requested env req = some creq) (path : Runs (admitted env creq req.keepAlive labels) t outcome) :
    Routed env req t := by
  unfold admitted at path
  obtain ⟨tAdmitted,rest,rfl,publishing⟩ := runs_perform.mp path
  obtain ⟨_,rest,rfl,snapping⟩ := runs_perform.mp publishing
  obtain ⟨looks,candidates,rest,rfl,snapped,choosing⟩ := runs_bind.mp snapping
  obtain ⟨unasked,listed⟩ := snapshot_seen snapped
  have lead : Aside [.did .now tAdmitted,.did .publishAdmissionGauges ()] := ⟨rfl,rfl⟩
  suffices routed : Routed env req (looks ++ rest) by simpa using routed.around lead (⟨rfl,rfl⟩ : Aside [])
  split at choosing
  · rename_i none
    have answered := emitting_aside (respond_emits (error_emits .noBackend _ _)) choosing
    exact aside_routed (.append ⟨unasked,listed.trans none⟩ answered)
  · obtain ⟨turns,ordered,rest,rfl,ordering,walking⟩ := runs_bind.mp choosing
    have turning := emitting_aside (orderCandidates_emits creq candidates : Emitting env req _) ordering
    cases ordered with
    | none =>
      obtain ⟨rfl,rfl⟩ := runs_ret.mp walking
      exact .inl ⟨by simp [unasked,turning.1],.inr (unordered_garbled known ordering)⟩
    | some ordered =>
      dsimp only at walking
      split at walking
      · rename_i undumped
        obtain ⟨rfl,rfl⟩ := runs_ret.mp walking
        exact .inl ⟨by simp [unasked,turning.1],.inr (unsent_garbled known undumped)⟩
      · rename_i upstreamText dumped
        obtain ⟨along,unseen,asks⟩ := walk_asks ⟨known,dumped,rfl⟩ walking
        have views : seen (looks ++ (turns ++ rest)) = candidates := by simp [listed,turning.2,unseen]
        have turned : asked (looks ++ (turns ++ rest)) = asked rest := by simp [unasked,turning.1]
        obtain ⟨kept,-⟩ := snapshot_runs snapped
        refine .inr ⟨creq,known,?_,?_,turns,ordered,?_,?_,?_⟩
        · rw [views]
          exact kept.nodup (backendsForModel_nodup env creq.model)
        · rw [views]
          exact kept.subset
        · rw [views]
          exact ordering
        · rw [turned]
          exact along
        · rw [turned]
          exact asks (by decide)

theorem respond_routed {body : Option Bytes}
    (own : ∀ bytes, body = some bytes → Emits env req (.writeJson (reply req.keepAlive status bytes)))
    (path : Runs (respond labels req.keepAlive status body) t outcome) : Routed env req t :=
  aside_routed (emitting_aside (respond_emits own) path)

theorem serve_routed (known : requested env req = some creq) (path : Runs (serve env creq req.keepAlive labels) t outcome) :
    Routed env req t := by
  unfold serve at path
  obtain ⟨gate,⟨status,queuedFor⟩,rest,rfl,acquiring,recording⟩ := runs_bind.mp path
  obtain ⟨_,rest,rfl,serving⟩ := runs_perform.mp recording
  have entering := emitting_aside (acquire_emits : Emitting env req _) acquiring
  have lead : Aside (gate ++ [.did (.record (.observeQueueTime labels (seconds queuedFor))) ()]) := entering.append ⟨rfl,rfl⟩
  rw [List.append_cons]
  suffices routed : Routed env req rest by simpa using routed.around lead (⟨rfl,rfl⟩ : Aside [])
  cases status with
  | admitted =>
    obtain ⟨inside,outcome,tail,rfl,admitting,releasing⟩ := runs_bind.mp serving
    obtain ⟨_,tail,rfl,ending⟩ := runs_perform.mp releasing
    obtain ⟨rfl,rfl⟩ := runs_ret.mp ending
    simpa using (admitted_routed known admitting).around (⟨rfl,rfl⟩ : Aside []) (⟨rfl,rfl⟩ : Aside [.did .releaseGate ()])
  | queueFull => exact respond_routed (error_emits .admission _ _) serving
  | queueTimeout => exact respond_routed (error_emits .admission _ _) serving

theorem chatBody_routed (path : Runs (chatBody env req labels) t outcome) : Routed env req t := by
  unfold chatBody at path
  split at path
  · exact respond_routed (error_emits .invalidRequest _ _) path
  · rename_i body parsed
    split at path
    · rename_i e failed
      split at path
      · obtain ⟨rfl,rfl⟩ := runs_ret.mp path
        exact aside_routed ⟨rfl,rfl⟩
      · rename_i parseBody dumped
        refine respond_routed (fun bytes same => ?_) path
        cases Option.some.inj same
        exact error_emits e.kind e.message e.param parseBody dumped
    · rename_i creq accepted
      have known : requested env req = some creq := by simp [requested,parsed,accepted,Except.toOption]
      dsimp only at path
      split at path
      · exact respond_routed (error_emits .unknownModel _ _) path
      · exact serve_routed known path

theorem handleChat_routed (path : Runs (handleChat env req) t exit) : Routed env req t := by
  unfold handleChat at path
  obtain ⟨tArrive,rest,rfl,handling⟩ := runs_perform.mp path
  obtain ⟨inside,outcome,tail,rfl,chatting,recording⟩ := runs_bind.mp handling
  obtain ⟨records,_,tail,rfl,recorded,ending⟩ := runs_bind.mp recording
  obtain ⟨rfl,rfl⟩ := runs_ret.mp ending
  have after := emitting_aside (recordTerminal_emits outcome tArrive : Emitting env req _) recorded
  simpa using (chatBody_routed chatting).around (⟨rfl,rfl⟩ : Aside [.did .now tArrive]) after

end Asking
section Affinity
variable {xxh64 : Bytes → UInt64} {loadThreshold : Float} {key : Bytes} {one two : List Candidate}

-- The best of a ranking is the best of every smaller ranking it belongs to.
theorem rank_head_kept (best : (hrwRank xxh64 word one).head? = some b)
    (fewer : two.map Candidate.backendIndex ⊆ one.map Candidate.backendIndex) (stays : b ∈ two.map Candidate.backendIndex) :
    (hrwRank xxh64 word two).head? = some b := by
  have ranked := hrwRank_sorted xxh64 word one
  have sorted := hrwRank_sorted xxh64 word two
  have inside : b ∈ hrwRank xxh64 word two := (hrwRank_perm xxh64 word two).mem_iff.mpr stays
  cases rank : hrwRank xxh64 word two with
  | nil => simp [rank] at inside
  | cons r rest =>
    have listed : r ∈ hrwRank xxh64 word one :=
      (hrwRank_perm xxh64 word one).mem_iff.mpr (fewer ((hrwRank_perm xxh64 word two).mem_iff.mp (by simp [rank])))
    obtain ⟨others,leads⟩ := List.head?_eq_some_iff.mp best
    rw [leads] at ranked listed
    rw [rank] at sorted inside
    have same : r = b := by
      rcases List.mem_cons.mp listed with same | behind
      · exact same
      · rcases List.mem_cons.mp inside with same | after
        · exact same.symm
        · exact outranks_antisymm xxh64 word (List.rel_of_pairwise_cons sorted after) (List.rel_of_pairwise_cons ranked behind)
    rw [same]
    rfl

-- A choice stands for as long as no load is in its way.
theorem choice_kept (distinct : (one.map Candidate.backendIndex).Nodup) (single : (two.map Candidate.backendIndex).Nodup)
    (fewer : two.map Candidate.backendIndex ⊆ one.map Candidate.backendIndex) (stays : b ∈ two.map Candidate.backendIndex)
    (chosen : (prefixAffinityOrder xxh64 loadThreshold key one).order.head? = some b) :
    (prefixAffinityOrder xxh64 loadThreshold key two).order.head? = some b ∨
      (∃ d ∈ one, d.backendIndex ≠ b ∧ Loaded loadThreshold d) ∨ ∃ d ∈ two, d.backendIndex = b ∧ Loaded loadThreshold d := by
  by_cases crowded : ∃ d ∈ one, d.backendIndex ≠ b ∧ Loaded loadThreshold d
  · exact .inr (.inl crowded)
  by_cases full : ∃ d ∈ two, d.backendIndex = b ∧ Loaded loadThreshold d
  · exact .inr (.inr full)
  refine .inl ?_
  rw [order_head] at chosen ⊢
  have best : (hrwRank xxh64 (xxh64 key) one).head? = some b := by
    cases rank : hrwRank xxh64 (xxh64 key) one with
    | nil => simp [rank] at chosen
    | cons r rest =>
      by_cases same : r = b
      · rw [same]
        rfl
      · -- a leader other than the choice would have been taken, for it is not loaded
        obtain ⟨d,member,rfl⟩ := List.mem_map.mp ((hrwRank_perm xxh64 (xxh64 key) one).mem_iff.mp (by simp [rank] : r ∈ _))
        have free : overloaded loadThreshold one d.backendIndex = false := by
          apply Bool.eq_false_of_not_eq_true
          exact fun loaded => crowded ⟨d,member,same,(overloaded_own distinct member).mp loaded⟩
        simp [rank,free] at chosen
        exact absurd chosen same
  obtain ⟨others,leads⟩ := List.head?_eq_some_iff.mp (rank_head_kept best fewer stays)
  obtain ⟨d,member,rfl⟩ := List.mem_map.mp stays
  have free : overloaded loadThreshold two d.backendIndex = false := by
    apply Bool.eq_false_of_not_eq_true
    exact fun loaded => full ⟨d,member,rfl,(overloaded_own single member).mp loaded⟩
  simp [leads,free]

end Affinity
section Conversation
variable {env : Env} {one two : Request}

def routingKey (env : Env) (req : Request) : Option Bytes :=
  (requested env req).bind fun creq => canonicalKey (affinityContent env) creq env.cfg.routing.prefixBytes.1

-- A further turn of a conversation whose text fills the prefix already.
structure Continues (env : Env) (one two : Request) (creq grown : ChatCompletionRequest) : Prop where
  known : requested env one = some creq
  again : requested env two = some grown
  model : grown.model = creq.model
  messages : ∃ more msgs turns, grown.messages = creq.messages ++ more ∧
    creq.messages.mapM (flattened (affinityContent env)) = some msgs ∧ more.mapM (flattened (affinityContent env)) = some turns ∧
    env.cfg.routing.prefixBytes.1 ≤ (canonicalText creq.model msgs).length

theorem Continues.key (continues : Continues env one two creq grown) : routingKey env one = routingKey env two := by
  obtain ⟨known,again,model,more,msgs,turns,messages,read,added,long⟩ := continues
  have all : grown.messages.mapM (flattened (affinityContent env)) = some (msgs ++ turns) := by
    rw [messages,List.mapM_append,read,added]
    rfl
  rw [routingKey,routingKey,known,again,Option.bind_some,Option.bind_some,canonicalKey,canonicalKey,read,all,model]
  simp only [Option.map_some,canonical_take,canonicalText_append]
  rw [List.take_append_of_le_length (by omega)]

-- Under prefix affinity a request that finds a candidate asks first the head that
-- its key gives to the candidates.
theorem affinity_asks (policy : env.cfg.routing.policy = .prefixAffinity) (path : Runs (handleChat env req) t exit)
    (active : asked t ≠ [] ∨ (seen t ≠ [] ∧ ¬Garbled env req)) : ∃ key, routingKey env req = some key ∧
      ((seen t).map Candidate.backendIndex).Nodup ∧
      (asked t).head? = (prefixAffinityOrder env.xxh64 env.cfg.routing.loadThreshold key (seen t)).order.head? := by
  obtain ⟨none,least⟩ | ⟨creq,known,distinct,-,turns,ordered,ordering,⟨others,along⟩,asks⟩ := handleChat_routed path
  · obtain asks | ⟨found,whole⟩ := active
    · exact absurd none asks
    · exact absurd least (by simp [found,whole])
  · rw [orderCandidates_routes policy] at ordering
    obtain ⟨-,result⟩ := runs_ret.mp ordering
    obtain ⟨key,keyed,rfl⟩ := Option.map_eq_some_iff.mp result.symm
    refine ⟨key,by rw [routingKey,known]; exact keyed,distinct,?_⟩
    cases shown : asked t with
    | cons b rest =>
      rw [← along,shown]
      rfl
    | nil =>
      -- nothing was asked because there was nothing to ask
      have empty : (prefixAffinityOrder env.xxh64 env.cfg.routing.loadThreshold key (seen t)).order = [] :=
        by_contra fun full => asks full shown
      rw [empty]

-- A conversation stays where it is: a further turn asks first the backend that the
-- turn before asked first, as long as the backend is healthy and none has become
-- healthy since, unless the backend is loaded now or another was loaded then.
theorem conversation_sticky (policy : env.cfg.routing.policy = .prefixAffinity) (continues : Continues env one two creq grown)
    (earlier : Runs (handleChat env one) t exit) (later : Runs (handleChat env two) u final) (whole : ¬Garbled env two)
    (chosen : (asked t).head? = some b) (stays : b ∈ (seen u).map Candidate.backendIndex)
    (fewer : (seen u).map Candidate.backendIndex ⊆ (seen t).map Candidate.backendIndex) :
    (asked u).head? = some b ∨ (∃ d ∈ seen t, d.backendIndex ≠ b ∧ Loaded env.cfg.routing.loadThreshold d) ∨
      ∃ d ∈ seen u, d.backendIndex = b ∧ Loaded env.cfg.routing.loadThreshold d := by
  have asks : asked t ≠ [] := by
    intro none
    simp [none] at chosen
  have found : seen u ≠ [] := by
    intro none
    simp [none] at stays
  obtain ⟨key,keyed,distinct,first⟩ := affinity_asks policy earlier (.inl asks)
  obtain ⟨other,again,single,second⟩ := affinity_asks policy later (.inr ⟨found,whole⟩)
  have same := continues.key
  rw [keyed,again] at same
  cases Option.some.inj same
  rw [first] at chosen
  rw [second]
  exact choice_kept distinct single fewer stays chosen

section Sample
open Fleet

-- A model with two backends, and a run that finds both healthy.
theorem handleChat_finds (s : State) (known : requested env req = some creq) (lists : backendsForModel env creq.model = [0,1])
    (whole : ¬Garbled env req) : ∃ t exit, Runs (handleChat env req) t exit ∧ (seen t).map Candidate.backendIndex = [0,1] := by
  obtain ⟨body,parsed,accepted⟩ := requested_body known
  have start : ∃ before q, Path (handleChat env req) before q ∧ seen before = [⟨0,0,8⟩,⟨1,0,8⟩] := by
    unfold handleChat chatBody serve admitted
    simp only [parsed,accepted,lists]
    exact ⟨[.did .now 0,.did .enterGate .admitted,.did (.record _) (),.did .now 0,.did .publishAdmissionGauges (),
      .did (.observedHealth 0) .healthy,.did (.load 0) (0,8),.did (.observedHealth 1) .healthy,.did (.load 1) (0,8)],_,
      .act (.act (.act (.act (.act (.act (.act (.act (.act .here)))))))),rfl⟩
  obtain ⟨before,q,path,both⟩ := start
  obtain ⟨t,exit,rest⟩ := completes (fun op => (exec 0 op s).1) refusing q
  refine ⟨_,exit,path.trans rest,?_⟩
  have found : (seen (before ++ t)).map Candidate.backendIndex = [0,1] ++ (seen t).map Candidate.backendIndex := by
    rw [seen_append,both,List.map_append]
    rfl
  obtain ⟨-,none | garbled⟩ | ⟨other,again,distinct,serving,-⟩ := handleChat_routed (path.trans rest)
  · simp [none] at found
  · exact absurd garbled whole
  · -- A backend is looked at once, so there is no third candidate.
    cases Option.some.inj (known.symm.trans again)
    rw [found] at distinct serving ⊢
    rw [lists] at serving
    have nothing : (seen t).map Candidate.backendIndex = [] := by
      refine List.eq_nil_iff_forall_not_mem.mpr fun i member => ?_
      exact (List.disjoint_of_nodup_append distinct) (serving (List.mem_append_right _ member)) member
    rw [nothing]
    rfl

-- Two turns, and a prefix that the first of them fills.
def turnJson : Json :=
  .object [(text "messages",.array [.object [(text "content",.string (text "hi")),(text "role",.string (text "user"))],
      .object [(text "content",.string (text "hello")),(text "role",.string (text "assistant"))],
      .object [(text "content",.string (text "bye")),(text "role",.string (text "user"))]]),
    (text "model",.string (text "m")),(text "stream",.boolean true)]

def talkEnv : Env :=
  {sampleEnv ["a","b"] with
    cfg := {(sampleEnv ["a","b"]).cfg with routing := {prefixBytes := ⟨8,by decide⟩}}
    json := tableLib [((chatJson true).render,chatJson true),(turnJson.render,turnJson)]}

def said (role content : String) : ChatMessage := ⟨text role,.string (text content)⟩

theorem talk_continues : Continues talkEnv (chatRequest true) ⟨turnJson.render,true⟩
    ⟨text "m",[said "user" "hi"],true,chatJson true⟩
    ⟨text "m",[said "user" "hi",said "assistant" "hello",said "user" "bye"],true,turnJson⟩ := by
  have first : talkEnv.json.parse (chatJson true).render = some (chatJson true) := by simp [talkEnv,tableLib]
  have apart : ((chatJson true).render == turnJson.render) = false := by decide +kernel
  have second : talkEnv.json.parse turnJson.render = some turnJson := by simp [talkEnv,tableLib,apart]
  refine ⟨?_,?_,rfl,[said "assistant" "hello",said "user" "bye"],_,_,rfl,rfl,rfl,by decide +kernel⟩
  · rw [requested,chatRequest,first]
    rfl
  · rw [requested,second]
    rfl

theorem conversation_sticky_talk : ∃ t u exit final b, Runs (handleChat talkEnv (chatRequest true)) t exit ∧
    Runs (handleChat talkEnv ⟨turnJson.render,true⟩) u final ∧ (seen t).map Candidate.backendIndex = [0,1] ∧
    (seen u).map Candidate.backendIndex = [0,1] ∧ (asked t).head? = some b ∧
    ((asked u).head? = some b ∨ (∃ d ∈ seen t, d.backendIndex ≠ b ∧ Loaded talkEnv.cfg.routing.loadThreshold d) ∨
      ∃ d ∈ seen u, d.backendIndex = b ∧ Loaded talkEnv.cfg.routing.loadThreshold d) := by
  have lists : backendsForModel talkEnv (text "m") = [0,1] := by decide +kernel
  have whole : ∀ req, ¬Garbled talkEnv req := by
    rintro req ⟨body,parsed,broken⟩
    exact broken (tableLib_parses (by decide +kernel) _ _ parsed)
  obtain ⟨t,exit,earlier,here⟩ := handleChat_finds (construct talkEnv.cfg) talk_continues.known lists (whole _)
  obtain ⟨u,final,later,there⟩ := handleChat_finds (construct talkEnv.cfg) talk_continues.again lists (whole _)
  obtain ⟨key,-,-,head⟩ := affinity_asks rfl earlier (.inr ⟨by rintro none; simp [none] at here,whole _⟩)
  -- The first asked is one of the two, whichever way the ranks and loads go.
  have perm := prefixAffinity_perm talkEnv.xxh64 talkEnv.cfg.routing.loadThreshold key (seen t)
  rw [here] at perm
  obtain ⟨b,rest,order⟩ := List.exists_cons_of_ne_nil (fun empty => by simp [empty] at perm :
    (prefixAffinityOrder talkEnv.xxh64 talkEnv.cfg.routing.loadThreshold key (seen t)).order ≠ [])
  have chosen : (asked t).head? = some b := by rw [head,order]; rfl
  have listed : b ∈ [0,1] := perm.mem_iff.mp (by rw [order]; exact List.mem_cons_self)
  refine ⟨t,u,exit,final,b,earlier,later,here,there,chosen,?_⟩
  exact conversation_sticky rfl talk_continues earlier later (whole _) chosen (by rw [there]; exact listed) (by simp [here,there])

end Sample
end Conversation
end Kvmux.Stickiness
