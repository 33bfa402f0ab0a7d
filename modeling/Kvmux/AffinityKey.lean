import Mathlib.Data.List.Basic
import Kvmux.Fleet
import Kvmux.Gateway

namespace Kvmux.AffinityKey
open Routing OpenAi Gateway

section Truncation

-- The canonical text of a conversation before it is cut.
def messageText (msg : Bytes × Bytes) : Bytes := msg.1 ++ colon :: msg.2

def canonicalText (model : Bytes) (msgs : List (Bytes × Bytes)) : Bytes := model ++ 0x1f :: msgs.flatMap messageText

-- Appending to a text that is cut at the budget cuts the longer text there.
theorem appendCapped_take (budget : Nat) (whole s : Bytes) :
    appendCapped budget (whole.take budget) s = (whole ++ s).take budget := by
  unfold appendCapped
  rw [List.take_append,List.length_take]
  split
  · rename_i full
    have spent : budget - whole.length = 0 := by omega
    simp [spent]
  · rename_i room
    have fits : min budget whole.length = whole.length := by omega
    rw [fits]

-- One message, or none of it once the budget is spent.
theorem message_take (budget : Nat) (whole : Bytes) (msg : Bytes × Bytes) :
    (if (whole.take budget).length ≥ budget then whole.take budget else
      appendCapped budget (appendCapped budget (appendCapped budget (whole.take budget) msg.1) [colon]) msg.2) =
      (whole ++ messageText msg).take budget := by
  split
  · rename_i full
    rw [List.length_take] at full
    exact (List.take_append_of_le_length (by omega)).symm
  · rw [appendCapped_take,appendCapped_take,appendCapped_take,messageText,List.append_assoc,List.append_assoc,
      List.singleton_append]

theorem messages_take (budget : Nat) (msgs : List (Bytes × Bytes)) (whole : Bytes) :
    msgs.foldl (fun out msg => if out.length ≥ budget then out else
      appendCapped budget (appendCapped budget (appendCapped budget out msg.1) [colon]) msg.2) (whole.take budget) =
      (whole ++ msgs.flatMap messageText).take budget := by
  induction msgs generalizing whole with
  | nil => rw [List.foldl_nil,List.flatMap_nil,List.append_nil]
  | cons msg rest ih => rw [List.foldl_cons,message_take,ih,List.flatMap_cons,List.append_assoc]

theorem canonical_take (model : Bytes) (msgs : List (Bytes × Bytes)) (prefixBytes : Int) :
    canonicalAffinityString model msgs prefixBytes = (canonicalText model msgs).take prefixBytes.toNat := by
  have start := appendCapped_take prefixBytes.toNat [] model
  rw [List.take_nil,List.nil_append] at start
  unfold canonicalAffinityString canonicalText
  dsimp only
  rw [start,appendCapped_take,messages_take,List.append_assoc,List.singleton_append]

theorem canonicalText_append (model : Bytes) (msgs more : List (Bytes × Bytes)) :
    canonicalText model (msgs ++ more) = canonicalText model msgs ++ more.flatMap messageText := by
  simp [canonicalText]

theorem canonicalText_length (model : Bytes) (msgs : List (Bytes × Bytes)) :
    (canonicalText model msgs).length = model.length + 1 + (msgs.map fun msg => (messageText msg).length).sum := by
  simp only [canonicalText,List.length_append,List.length_cons,List.length_flatMap]
  omega

theorem affinity_prefix :
    (∀ model msgs prefixBytes,
      canonicalAffinityString model msgs prefixBytes = (canonicalText model msgs).take (max prefixBytes 0).toNat) ∧
    (∀ xxh64 loadThreshold candidates prefixBytes model msgs model' msgs',
      (canonicalText model msgs).take (max prefixBytes 0).toNat = (canonicalText model' msgs').take (max prefixBytes 0).toNat →
      prefixAffinityOrder xxh64 loadThreshold (canonicalAffinityString model msgs prefixBytes) candidates =
        prefixAffinityOrder xxh64 loadThreshold (canonicalAffinityString model' msgs' prefixBytes) candidates) ∧
    (∀ xxh64 loadThreshold candidates (prefixBytes : Int) model msgs more, prefixBytes ≤ (canonicalText model msgs).length →
      prefixAffinityOrder xxh64 loadThreshold (canonicalAffinityString model (msgs ++ more) prefixBytes) candidates =
        prefixAffinityOrder xxh64 loadThreshold (canonicalAffinityString model msgs prefixBytes) candidates) := by
  have budget : ∀ prefixBytes : Int, (max prefixBytes 0).toNat = prefixBytes.toNat := by omega
  refine ⟨?_,?_,?_⟩
  · intro model msgs prefixBytes
    rw [budget]
    exact canonical_take model msgs prefixBytes
  · intro xxh64 loadThreshold candidates prefixBytes model msgs model' msgs' agree
    rw [budget] at agree
    rw [canonical_take,canonical_take,agree]
  · intro xxh64 loadThreshold candidates prefixBytes model msgs more long
    rw [canonical_take,canonical_take,canonicalText_append,List.take_append_of_le_length (by omega)]

-- A conversation that is longer than the budget, and a further turn.
theorem affinity_prefix_turn :
    canonicalText (text "m") [(text "user",text "hi")] = text "m\x1fuser:hi" ∧
    canonicalAffinityString (text "m") ([(text "user",text "hi")] ++ [(text "assistant",text "yes")]) 8 = text "m\x1fuser:h" ∧
    prefixAffinityOrder (fun _ => 0) 0.8
        (canonicalAffinityString (text "m") ([(text "user",text "hi")] ++ [(text "assistant",text "yes")]) 8) [⟨0,1,8⟩] =
      prefixAffinityOrder (fun _ => 0) 0.8 (canonicalAffinityString (text "m") [(text "user",text "hi")] 8) [⟨0,1,8⟩] := by
  obtain ⟨-,-,extended⟩ := affinity_prefix
  exact ⟨by decide +kernel,by decide +kernel,extended _ _ _ 8 _ _ _ (by decide +kernel)⟩

end Truncation
section Flattening

def contentPart (lib : JsonLib) (part : Json) : Option Bytes :=
  match part.find (text "text") with
  | some (.string value) => some value
  | _ => lib.dump part

def contentToString (lib : JsonLib) (content : Json) : Option Bytes :=
  match content with
  | .string value => some value
  | .null => some []
  | .array parts => (parts.mapM (contentPart lib)).map List.flatten
  | _ => lib.dump content

-- The pairs of role and flattened content, and the string made of them. A
-- content that cannot be serialised throws.
def flattened (flatten : Json → Option Bytes) (m : ChatMessage) : Option (Bytes × Bytes) :=
  (flatten m.content).map fun content => (m.role,content)

def canonicalKey (flatten : Json → Option Bytes) (creq : ChatCompletionRequest) (prefixBytes : Int) : Option Bytes :=
  (creq.messages.mapM (flattened flatten)).map fun msgs => canonicalAffinityString creq.model msgs prefixBytes

def affinityKeyForRequest (env : Env) (creq : ChatCompletionRequest) (prefixBytes : Int) : Option UInt64 :=
  (canonicalKey (contentToString env.json) creq prefixBytes).map env.xxh64

theorem orderCandidates_routes (policy : env.cfg.routing.policy = .prefixAffinity) (creq : ChatCompletionRequest)
    (candidates : List Candidate) :
    orderCandidates env creq candidates =
      pure ((canonicalKey (affinityContent env) creq env.cfg.routing.prefixBytes.1).map fun key =>
        prefixAffinityOrder env.xxh64 env.cfg.routing.loadThreshold key candidates) := by
  unfold orderCandidates
  rw [policy]
  simp only [canonicalKey,Option.map_map]
  rfl

-- A content that is flattened by serialising a part of it that is not valid text.
def Unserialisable (content : Json) : Prop :=
  match content with
  | .string _ | .null => False
  | .array parts => ∃ part ∈ parts, (∀ value, part.find (text "text") ≠ some (.string value)) ∧ ¬part.Utf8
  | other => ¬other.Utf8

theorem dump_none (lib : JsonLib) (value : Json) : lib.dump value = none ↔ ¬value.Utf8 := by
  rw [← lib.dumps value]
  cases lib.dump value <;> simp

theorem contentPart_none (lib : JsonLib) (part : Json) :
    contentPart lib part = none ↔ (∀ value, part.find (text "text") ≠ some (.string value)) ∧ ¬part.Utf8 := by
  unfold contentPart
  split
  · rename_i value found
    simp [found]
  · rename_i other
    rw [dump_none]
    exact ⟨fun broken => ⟨fun value found => other value found,broken⟩,fun both => both.2⟩

theorem contentToString_none (lib : JsonLib) (content : Json) :
    contentToString lib content = none ↔ Unserialisable content := by
  cases content with
  | null | string value => simp [contentToString,Unserialisable]
  | array parts =>
    simp only [contentToString,Unserialisable,Option.map_eq_none_iff,mapM_missing,contentPart_none]
  | boolean value | integer value | float value | object fields => exact dump_none lib _

-- Mapping with something that gives no more, and for some items less.
theorem mapM_shorter {X Y : Type} {f g : X → Option Y} (size : Y → Nat) (strict : X → Prop)
    (each : ∀ x y, f x = some y → ∃ z, g x = some z ∧ size z ≤ size y ∧ (strict x → size z < size y))
    {xs : List X} {ys : List Y} (mapped : xs.mapM f = some ys) :
    ∃ zs, xs.mapM g = some zs ∧ (zs.map size).sum ≤ (ys.map size).sum ∧
      ((∃ x ∈ xs, strict x) → (zs.map size).sum < (ys.map size).sum) := by
  induction xs generalizing ys with
  | nil =>
    cases Option.some.inj mapped
    exact ⟨[],rfl,Nat.le_refl _,by simp⟩
  | cons x rest ih =>
    rw [List.mapM_cons] at mapped
    obtain ⟨y,first,mapped⟩ := Option.bind_eq_some_iff.mp mapped
    obtain ⟨more,later,same⟩ := Option.bind_eq_some_iff.mp mapped
    cases Option.some.inj same
    obtain ⟨z,own,small,less⟩ := each x y first
    obtain ⟨zs,others,smaller,fewer⟩ := ih later
    refine ⟨z :: zs,by rw [List.mapM_cons,own,others]; rfl,?_,?_⟩
    · simp only [List.map_cons,List.sum_cons]
      omega
    · rintro ⟨w,member,holds⟩
      simp only [List.map_cons,List.sum_cons]
      rcases List.mem_cons.mp member with rfl | inside
      · have own := less holds
        omega
      · have rest := fewer ⟨w,inside,holds⟩
        omega

theorem flatten_intercalate (sep : Bytes) (parts : List Bytes) :
    (parts.map List.length).sum ≤ (sep.intercalate parts).length := by
  induction parts with
  | nil => exact Nat.le_refl _
  | cons first rest ih =>
    cases rest with
    | nil => simp [List.intercalate]
    | cons second more =>
      rw [List.intercalate_cons_cons,List.map_cons,List.sum_cons]
      simp only [List.length_append]
      omega

section Compact
variable {env : Env} (compact : env.json.Compact)
include compact

theorem part_shorter (part : Json) (dumped : Bytes) (serialised : env.json.dump part = some dumped) :
    ∃ out, contentPart env.json part = some out ∧ out.length ≤ dumped.length ∧ (False → out.length < dumped.length) := by
  unfold contentPart
  split
  · rename_i value found
    refine ⟨value,rfl,?_,False.elim⟩
    cases part with
    | object fields =>
      obtain ⟨field,first,own⟩ := Option.map_eq_some_iff.mp found
      obtain ⟨inside,quoted,within⟩ := compact.object fields dumped serialised field (List.mem_of_find?_eq_some first)
      rw [own] at quoted
      have longer := compact.string value inside quoted
      have shorter := within.length_le
      omega
    | _ => cases found
  · exact ⟨dumped,serialised,Nat.le_refl _,False.elim⟩

-- The text parts of an array are shorter than its serialised form.
theorem content_shorter (content : Json) (dumped : Bytes) (serialised : affinityContent env content = some dumped) :
    ∃ out, contentToString env.json content = some out ∧ out.length ≤ dumped.length ∧
      (content.isArray = true → out.length < dumped.length) := by
  cases content with
  | array parts =>
    obtain ⟨items,mapped,rfl⟩ := compact.array parts dumped serialised
    obtain ⟨outs,flat,short,-⟩ := mapM_shorter List.length (fun _ => False) (part_shorter compact) mapped
    have joined := flatten_intercalate [44] items
    refine ⟨outs.flatten,by rw [contentToString,flat]; rfl,?_,fun _ => ?_⟩
    · simp only [List.length_flatten,List.length_append,List.length_cons,List.length_nil]
      omega
    · simp only [List.length_flatten,List.length_append,List.length_cons,List.length_nil]
      omega
  | _ => exact ⟨dumped,serialised,Nat.le_refl _,fun array => by cases array⟩

theorem message_shorter (m : ChatMessage) (msg : Bytes × Bytes) (serialised : flattened (affinityContent env) m = some msg) :
    ∃ out, flattened (contentToString env.json) m = some out ∧ (messageText out).length ≤ (messageText msg).length ∧
      (m.content.isArray = true → (messageText out).length < (messageText msg).length) := by
  obtain ⟨dumped,written,rfl⟩ := Option.map_eq_some_iff.mp serialised
  obtain ⟨out,flat,short,less⟩ := content_shorter compact m.content dumped written
  refine ⟨(m.role,out),by rw [flattened,flat]; rfl,?_,fun array => ?_⟩
  · simp only [messageText,List.length_append,List.length_cons]
    omega
  · have fewer := less array
    simp only [messageText,List.length_append,List.length_cons]
    omega

-- An array among the contents makes the text that is routed on the longer one.
theorem messages_shorter {messages : List ChatMessage} {msgs : List (Bytes × Bytes)} (model : Bytes)
    (serialised : messages.mapM (flattened (affinityContent env)) = some msgs) :
    ∃ others, messages.mapM (flattened (contentToString env.json)) = some others ∧
      ((∃ m ∈ messages, m.content.isArray = true) → (canonicalText model others).length < (canonicalText model msgs).length) := by
  obtain ⟨others,flat,-,less⟩ := mapM_shorter (fun msg => (messageText msg).length) (fun m => m.content.isArray = true)
    (message_shorter compact) serialised
  refine ⟨others,flat,fun array => ?_⟩
  rw [canonicalText_length,canonicalText_length]
  exact Nat.add_lt_add_left (less array) _

end Compact

theorem affinityContent_plain (env : Env) (plain : content.isArray = false) :
    affinityContent env content = contentToString env.json content := by
  cases content with
  | array parts => cases plain
  | _ => rfl

theorem flattened_plain (env : Env) {messages : List ChatMessage} (plain : ∀ m ∈ messages, m.content.isArray = false) :
    messages.mapM (flattened (affinityContent env)) = messages.mapM (flattened (contentToString env.json)) := by
  induction messages with
  | nil => rfl
  | cons m rest ih =>
    obtain ⟨first,others⟩ := List.forall_mem_cons.mp plain
    rw [List.mapM_cons,List.mapM_cons,ih others,flattened,flattened,affinityContent_plain env first]

-- Texts that agree under every budget are the same text.
theorem canonical_unique (same : ∀ prefixBytes, canonicalAffinityString model msgs prefixBytes =
    canonicalAffinityString model msgs' prefixBytes) : canonicalText model msgs = canonicalText model msgs' := by
  have long := same (max (canonicalText model msgs).length (canonicalText model msgs').length : Nat)
  rw [canonical_take,canonical_take,Int.toNat_natCast,List.take_of_length_le (Nat.le_max_left _ _),
    List.take_of_length_le (Nat.le_max_right _ _)] at long
  exact long

theorem keys_differ (compact : env.json.Compact) (creq : ChatCompletionRequest)
    (same : ∀ prefixBytes, canonicalKey (affinityContent env) creq prefixBytes =
      canonicalKey (contentToString env.json) creq prefixBytes) :
    (∀ m ∈ creq.messages, m.content.isArray = false) ∨ ∃ m ∈ creq.messages, Unserialisable m.content := by
  cases flat : creq.messages.mapM (flattened (contentToString env.json)) with
  | none =>
    obtain ⟨m,member,none⟩ := (mapM_missing _ _).mp flat
    exact .inr ⟨m,member,(contentToString_none env.json _).mp (Option.map_eq_none_iff.mp none)⟩
  | some msgs =>
    have first := same 0
    rw [canonicalKey,canonicalKey,flat] at first
    obtain ⟨others,serialised,-⟩ := Option.map_eq_some_iff.mp first
    obtain ⟨msgs',own,less⟩ := messages_shorter compact creq.model serialised
    cases own.symm.trans flat
    have texts : canonicalText creq.model others = canonicalText creq.model msgs := by
      apply canonical_unique
      intro prefixBytes
      have cut := same prefixBytes
      rw [canonicalKey,canonicalKey,flat,serialised] at cut
      exact Option.some.inj cut
    refine .inl fun m member => Bool.eq_false_of_not_eq_true fun array => ?_
    have fewer := less ⟨m,member,array⟩
    rw [texts] at fewer
    exact Nat.lt_irrefl _ fewer

theorem flattened_split (whole : (front ++ m :: rest).mapM (flattened flatten) = some out)
    (before : front.mapM (flattened flatten) = some msgs) : ∃ content tail, out = msgs ++ (m.role,content) :: tail := by
  rw [List.mapM_append,before,List.mapM_cons] at whole
  obtain ⟨after,mapped,same⟩ := Option.bind_eq_some_iff.mp ((Option.bind_some _ _).symm.trans whole)
  obtain ⟨msg,own,mapped⟩ := Option.bind_eq_some_iff.mp mapped
  obtain ⟨tail,-,rest⟩ := Option.bind_eq_some_iff.mp mapped
  obtain ⟨content,-,rfl⟩ := Option.map_eq_some_iff.mp own
  cases Option.some.inj rest
  exact ⟨content,tail,(Option.some.inj same).symm⟩

-- Up to the colon after a role the content that follows it does not count.
theorem canonical_shared {prefixBytes : Int} (short : prefixBytes ≤ (canonicalText model (msgs ++ [(role,[])])).length)
    (content : Bytes) (tail : List (Bytes × Bytes)) :
    canonicalAffinityString model (msgs ++ (role,content) :: tail) prefixBytes =
      (canonicalText model (msgs ++ [(role,[])])).take prefixBytes.toNat := by
  have longer : canonicalText model (msgs ++ (role,content) :: tail) =
      canonicalText model (msgs ++ [(role,[])]) ++ (content ++ tail.flatMap messageText) := by
    simp [canonicalText,messageText]
  rw [canonical_take,longer,List.take_append_of_le_length (by omega)]

theorem keys_agree (compact : env.json.Compact) (creq : ChatCompletionRequest) :
    (env.cfg.routing.policy = .prefixAffinity → ∀ candidates, orderCandidates env creq candidates =
      pure ((canonicalKey (affinityContent env) creq env.cfg.routing.prefixBytes.1).map fun key =>
        prefixAffinityOrder env.xxh64 env.cfg.routing.loadThreshold key candidates)) ∧
    (∀ prefixBytes, affinityKeyForRequest env creq prefixBytes =
      (canonicalKey (contentToString env.json) creq prefixBytes).map env.xxh64) ∧
    ((∀ prefixBytes, canonicalKey (affinityContent env) creq prefixBytes =
        canonicalKey (contentToString env.json) creq prefixBytes) ↔
      (∀ m ∈ creq.messages, m.content.isArray = false) ∨ ∃ m ∈ creq.messages, Unserialisable m.content) ∧
    (∀ front m rest msgs (prefixBytes : Int) key, creq.messages = front ++ m :: rest →
      (∀ m ∈ front, m.content.isArray = false) → front.mapM (flattened (contentToString env.json)) = some msgs →
      prefixBytes ≤ (canonicalText creq.model (msgs ++ [(m.role,[])])).length →
      canonicalKey (affinityContent env) creq prefixBytes = some key →
      canonicalKey (contentToString env.json) creq prefixBytes = some key ∧
        affinityKeyForRequest env creq prefixBytes = some (env.xxh64 key)) := by
  refine ⟨fun policy => orderCandidates_routes policy creq,fun _ => rfl,⟨keys_differ compact creq,?_⟩,?_⟩
  · rintro (plain | ⟨m,member,broken⟩) prefixBytes
    · rw [canonicalKey,canonicalKey,flattened_plain env plain]
    · have flat : creq.messages.mapM (flattened (contentToString env.json)) = none := by
        refine (mapM_missing _ _).mpr ⟨m,member,?_⟩
        rw [flattened,(contentToString_none env.json _).mpr broken]
        rfl
      cases serialised : creq.messages.mapM (flattened (affinityContent env)) with
      | none => rw [canonicalKey,canonicalKey,flat,serialised]
      | some msgs =>
        obtain ⟨others,own,-⟩ := messages_shorter compact creq.model serialised
        cases own.symm.trans flat
  · intro front m rest msgs prefixBytes key split plain before short routed
    obtain ⟨out,serialised,rfl⟩ := Option.map_eq_some_iff.mp routed
    obtain ⟨others,flat,-⟩ := messages_shorter compact creq.model serialised
    have same : canonicalKey (contentToString env.json) creq prefixBytes =
        some (canonicalAffinityString creq.model out prefixBytes) := by
      rw [canonicalKey,flat,Option.map_some]
      rw [split] at serialised flat
      obtain ⟨content,tail,rfl⟩ := flattened_split serialised ((flattened_plain env plain).trans before)
      obtain ⟨content',tail',rfl⟩ := flattened_split flat before
      rw [canonical_shared short,canonical_shared short]
    exact ⟨same,by rw [affinityKeyForRequest,same,Option.map_some]⟩

theorem keys_agree_string : ∃ creq, ChatCompletionRequest.parse (Fleet.chatJson true) = .ok creq ∧
    ∀ prefixBytes, affinityKeyForRequest (Fleet.sampleEnv ["a"]) creq prefixBytes =
      (canonicalKey (affinityContent (Fleet.sampleEnv ["a"])) creq prefixBytes).map (Fleet.sampleEnv ["a"]).xxh64 := by
  have compact : (Fleet.sampleEnv ["a"]).json.Compact := tableLib_compact _
  refine ⟨_,rfl,fun prefixBytes => ?_⟩
  obtain ⟨-,hashed,agree,-⟩ := keys_agree compact ⟨text "m",[⟨text "user",.string (text "hi")⟩],true,Fleet.chatJson true⟩
  exact (hashed prefixBytes).trans (congrArg _ (agree.mpr (.inl (List.forall_mem_singleton.mpr rfl)) prefixBytes).symm)

-- A text prompt given as a list of one text part.
def partsJson : Json :=
  .object [(text "messages",.array [.object [(text "content",.array [.object [(text "text",.string (text "hi"))]]),
    (text "role",.string (text "user"))]]),(text "model",.string (text "m"))]

theorem parts_keyed_apart : ∃ creq, ChatCompletionRequest.parse partsJson = .ok creq ∧
    canonicalKey (affinityContent (Fleet.sampleEnv ["a"])) creq 64 = some (text "m\x1fuser:[\x7b\"text\":\"hi\"\x7d]") ∧
    canonicalKey (contentToString (Fleet.sampleEnv ["a"]).json) creq 64 = some (text "m\x1fuser:hi") :=
  ⟨_,rfl,by decide +kernel,by decide +kernel⟩

end Flattening
end Kvmux.AffinityKey
