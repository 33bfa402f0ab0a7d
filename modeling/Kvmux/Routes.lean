import Mathlib.Data.List.Basic
import Mathlib.Data.List.Infix
import Kvmux.Fleet
import Kvmux.Handling

namespace Kvmux.Routes
open Coroutine Gateway OpenAi Streaming Attempt Handling Fleet

inductive Verb where
  | get
  | post
  | other
  deriving DecidableEq, Repr

structure HttpRequest where
  method : Verb
  target : Bytes
  body : Bytes
  keepAlive : Bool
  deriving DecidableEq, Repr

def card (id : Bytes) : Json :=
  .object [member "created" (.integer 0),member "id" (.string id),member "object" (.string (text "model")),
    member "owned_by" (.string (text "kvmux"))]

-- The ids met so far and the cards made of them.
structure Listing where
  seen : List Bytes := []
  data : List Json := []

def Listing.add (l : Listing) (m : Bytes) : Listing :=
  if l.seen.contains m then l else {seen := l.seen ++ [m],data := l.data ++ [card m]}

def listing (backends : List BackendConfig) : Listing := backends.foldl (fun l b => b.models.foldl Listing.add l) {}

def modelsJson (env : Env) : Json :=
  .object [member "data" (.array (listing env.cfg.backends).data),member "object" (.string (text "list"))]

-- What handling a request leads to: a JSON response that is written next, the
-- chat handler, or an exception before anything is written.
inductive Dispatch where
  | reply (response : Response)
  | chat (request : Request)
  | threw

def replying (keepAlive : Bool) (status : Nat) : Option Bytes → Dispatch
  | none => .threw
  | some body => .reply (Attempt.reply keepAlive status body)

def handleModels (env : Env) (keepAlive : Bool) : Dispatch := replying keepAlive 200 (env.json.dump (modelsJson env))

def handle (env : Env) (draining : Bool) (req : HttpRequest) : Dispatch :=
  if draining then replying false 503 (errorJson env .noBackend (text "gateway is shutting down") [])
  else if req.method = .get ∧ req.target = text "/healthz" then
    replying req.keepAlive 200 (some (text "\x7b\"status\":\"ok\"\x7d"))
  else if req.method = .get ∧ (req.target = text "/v1/models" ∨ text "/v1/models" <+: req.target) then
    handleModels env req.keepAlive
  else if req.method = .post ∧ req.target = text "/v1/chat/completions" then .chat ⟨req.body,req.keepAlive⟩
  else replying req.keepAlive 404 (errorJson env .notFound (text "unknown route") [])

section Models

-- The listing of ids met in order: one card each, where it was met first.
structure Listing.Of (l : Listing) (ids : List Bytes) : Prop where
  seen : l.seen = ids.eraseDups
  data : l.data = l.seen.map card
  distinct : l.seen.Nodup

theorem Listing.Of.add {l : Listing} (faithful : l.Of ids) (m : Bytes) : (l.add m).Of (ids ++ [m]) := by
  have listed : m ∈ l.seen ↔ m ∈ ids := by rw [faithful.seen,List.mem_eraseDups]
  unfold Listing.add
  split
  · rename_i known
    have known : m ∈ ids := listed.mp (by simpa using known)
    refine ⟨?_,faithful.data,faithful.distinct⟩
    rw [faithful.seen,List.eraseDups_append]
    simp [List.removeAll,known]
  · rename_i fresh
    have fresh : m ∉ l.seen := by simpa using fresh
    refine ⟨?_,?_,?_⟩
    · rw [faithful.seen,List.eraseDups_append]
      simp [List.removeAll,mt listed.mpr fresh,List.eraseDups_cons]
    · simp [faithful.data]
    · simpa [List.nodup_append] using ⟨faithful.distinct,fun id member same => fresh (same ▸ member)⟩

theorem Listing.Of.all {l : Listing} (faithful : l.Of ids) (ms : List Bytes) : (ms.foldl Listing.add l).Of (ids ++ ms) := by
  induction ms generalizing l ids with
  | nil => simpa using faithful
  | cons m rest ih => simpa using ih (faithful.add m)

theorem listing_of (backends : List BackendConfig) : (listing backends).Of (backends.flatMap BackendConfig.models) := by
  have folded : ∀ (l : Listing) ids, l.Of ids →
      (backends.foldl (fun l b => b.models.foldl Listing.add l) l).Of (ids ++ backends.flatMap BackendConfig.models) := by
    induction backends with
    | nil => intro l ids faithful; simpa using faithful
    | cons b rest ih =>
      intro l ids faithful
      simpa using ih _ _ (faithful.all b.models)
  simpa [listing] using folded {} [] ⟨rfl,rfl,List.nodup_nil⟩

theorem listing_served (env : Env) (model : Bytes) :
    model ∈ (listing env.cfg.backends).seen ↔ backendsForModel env model ≠ [] := by
  rw [(listing_of env.cfg.backends).seen,List.mem_eraseDups,List.mem_flatMap]
  constructor
  · rintro ⟨conf,member,lists⟩ none
    obtain ⟨b,bound,rfl⟩ := List.mem_iff_getElem.mp member
    have inside : b ∈ backendsForModel env model := by simp [backendsForModel,bound,lists]
    rw [none] at inside
    cases inside
  · intro some
    obtain ⟨b,member⟩ := List.exists_mem_of_ne_nil _ some
    obtain ⟨conf,found,lists⟩ := backendsForModel_lists member
    exact ⟨conf,List.mem_of_getElem? found,lists⟩

-- A request that was put to admission has asked the gate for a slot.
def Entered (t : Trace) : Prop := ∃ entry, .did .enterGate entry ∈ t

theorem serve_enters (path : Runs (serve env creq keepAlive labels) t outcome) : Entered t := by
  unfold serve acquire at path
  obtain ⟨gate,⟨status,queuedFor⟩,rest,rfl,acquiring,-⟩ := runs_bind.mp path
  obtain ⟨entry,tail,rfl,-⟩ := runs_perform.mp acquiring
  exact ⟨entry,List.mem_cons_self⟩

def unknownModel (env : Env) (model : Bytes) : Option Bytes :=
  errorJson env .unknownModel (text "no backend serves model '" ++ model ++ text "'") (text "model")

theorem chatBody_routed (known : requested env req = some creq) (path : Runs (chatBody env req labels) t outcome) :
    (backendsForModel env creq.model ≠ [] ∧ Entered t) ∨
      (backendsForModel env creq.model = [] ∧
        Answered {labels with model := creq.model} req.keepAlive 404 (unknownModel env creq.model) t outcome) := by
  obtain ⟨body,found,parsed⟩ := requested_body known
  unfold chatBody at path
  rw [found] at path
  dsimp only at path
  rw [parsed] at path
  dsimp only at path
  split at path
  · rename_i unserved
    exact .inr ⟨unserved,respond_runs path⟩
  · rename_i served
    exact .inl ⟨served,serve_enters path⟩

theorem answered_unentered (answered : Answered labels keepAlive status body t outcome) : ¬Entered t := by
  rintro ⟨entry,member⟩
  cases answered with
  | unwritable => cases member
  | written => cases List.mem_singleton.mp member

theorem looking_unentered {p : Prog α} (looking : Looking p) (path : Runs p t value) : ¬Entered t := by
  rintro ⟨entry,member⟩
  exact looking.runs path _ member

theorem entered_append : Entered (first ++ second) ↔ Entered first ∨ Entered second := by
  simp only [Entered,List.mem_append,exists_or]

theorem handleChat_parts (path : Runs (handleChat env req) t exit) :
    ∃ tArrive inner last outcome, t = [.did .now tArrive] ++ (inner ++ last) ∧ exit = outcome.exit ∧
      Runs (chatBody env req {route := text "chat_completions"}) inner outcome ∧
      Runs (recordTerminal outcome tArrive) last () := by
  unfold handleChat at path
  obtain ⟨tArrive,rest,rfl,chatting⟩ := runs_perform.mp path
  obtain ⟨inner,outcome,rest,rfl,chatted,recording⟩ := runs_bind.mp chatting
  obtain ⟨last,_,rest,rfl,recorded,ending⟩ := runs_bind.mp recording
  obtain ⟨rfl,rfl⟩ := runs_ret.mp ending
  exact ⟨tArrive,inner,last,outcome,by simp,rfl,chatted,recorded⟩

-- The model list and the chat route agree: a listed model, and no other, is put
-- to admission, and for any other the client is told so without asking a backend.
theorem models_agree (known : requested env req = some creq) (path : Runs (handleChat env req) t exit) :
    (listing env.cfg.backends).data = (env.cfg.backends.flatMap BackendConfig.models).eraseDups.map card ∧
    (listing env.cfg.backends).seen.Nodup ∧
    (creq.model ∈ (listing env.cfg.backends).seen ↔ Entered t) ∧
    (¬Entered t → dispatches (notes t) = [] ∧ ∀ w ∈ writes (notes t), ∃ body,
      unknownModel env creq.model = some body ∧ w.1 = .writeJson (Attempt.reply req.keepAlive 404 body)) := by
  have faithful := listing_of env.cfg.backends
  refine ⟨by rw [faithful.data,faithful.seen],faithful.distinct,?_⟩
  obtain ⟨tArrive,inner,last,outcome,rfl,rfl,chatted,recorded⟩ := handleChat_parts path
  have looking := recordTerminal_looking outcome tArrive
  have around : Entered ([.did .now tArrive] ++ (inner ++ last)) ↔ Entered inner := by
    have before : ¬Entered [.did .now tArrive] := by simp [Entered]
    have after := looking_unentered looking recorded
    rw [entered_append,entered_append]
    simp only [before,after,false_or,or_false]
  have shown : notes ([.did .now tArrive] ++ (inner ++ last)) = notes inner := by
    rw [notes_append,notes_append,(looking_silent looking).notes recorded,List.append_nil]
    rfl
  rw [around,shown,listing_served]
  rcases chatBody_routed known chatted with ⟨served,entered⟩ | ⟨unserved,answered⟩
  · exact ⟨⟨fun _ => entered,fun _ => served⟩,fun never => absurd entered never⟩
  · refine ⟨⟨fun served => absurd unserved served,fun entered => absurd entered (answered_unentered answered)⟩,fun _ => ?_⟩
    refine ⟨answered_undispatched answered,?_⟩
    generalize message : unknownModel env creq.model = body at answered
    cases answered with
    | unwritable => exact List.forall_mem_nil _
    | written => exact List.forall_mem_singleton.mpr ⟨_,rfl,rfl⟩

-- A listed model, whose only backend refuses the connection.
theorem models_agree_listed : ∃ creq t, requested (sampleEnv ["a"]) (chatRequest true) = some creq ∧
    Runs (handleChat (sampleEnv ["a"]) (chatRequest true)) t (.returned true) ∧ creq.model = text "m" ∧ Entered t := by
  obtain ⟨creq,known,model⟩ : ∃ creq, requested (sampleEnv ["a"]) (chatRequest true) = some creq ∧ creq.model = text "m" :=
    Option.map_eq_some_iff.mp (by decide +kernel)
  obtain ⟨t,path,-⟩ : ∃ t, Runs (handleChat (sampleEnv ["a"]) (chatRequest true)) t (.returned true) ∧ () = () :=
    alone_runs 0 (List.replicate 4 refusing) (fun _ => ()) (by decide +kernel)
  have listed : creq.model ∈ (listing (sampleEnv ["a"]).cfg.backends).seen := by
    rw [model]
    decide +kernel
  exact ⟨creq,t,known,path,model,(models_agree known path).2.2.1.mp listed⟩

end Models
end Kvmux.Routes
