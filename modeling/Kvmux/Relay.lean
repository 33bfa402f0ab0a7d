import Mathlib.Data.List.Basic
import Kvmux.Terminal

namespace Kvmux.Relay
open Coroutine SseParser SseCodec Gateway Streaming Attempt Handling Truncation Terminal

-- The client was sent a stream and took every part of it.
structure Took (ns : List Note) : Prop where
  opened : ∃ keepAlive, (.writeHeader keepAlive,true) ∈ writes ns
  delivered : ∀ w ∈ writes ns, w.2 = true

def frames (ns : List Note) : List (Site × Bytes) := (sent ns).filterMap chunkOf

def finished (head : Head) : Bool := (events head).any SseEvent.isDone

-- What a client is sent of a backend's stream: its events, and an error behind them
-- if the stream did not come to its end.
inductive Relays (env : Env) (head : Head) (ns : List Note) : Prop where
  | whole : finished head = true → stalled head = false → frames ns = (events head).map passed → Relays env head ns
  | broken : (finished head = false ∨ stalled head = true) → midStreamError env (stalled head) = some payload →
      frames ns = (events head).map passed ++ [(.gateway,frame payload)] → Relays env head ns

-- The backend that was asked last is the one whose stream the client is sent.
def Relayed (env : Env) (ns : List Note) : Prop := ∃ b head, (heads ns).getLast? = some (b,head) ∧ Relays env head ns

section Run
variable {env : Env} {job : Job} {labels : Metrics.Labels} {b : Nat} {isProbe more : Bool} {t : Trace} {later : List Note}

theorem frames_append (ns later : List Note) : frames (ns ++ later) = frames ns ++ frames later := by
  simp [frames]

theorem refused_untaken (ns : List Note) (refused : Refused (writes ns)) : ¬Took ns := by
  rintro ⟨⟨keepAlive,opened⟩,-⟩
  exact refused_unopened refused opened

theorem answered_untaken (ns : List Note) (refused : Refused (writes ns))
    (answered : Answered labels keepAlive status body t outcome) : ¬Took (ns ++ notes t) := by
  rintro ⟨⟨other,opened⟩,-⟩
  rw [writes_append] at opened
  rcases List.mem_append.mp opened with early | late
  · exact refused_unopened refused early
  · obtain ⟨response,same⟩ := answered_writes answered _ late
    cases same

-- What was given up has sent the client nothing.
theorem later_relays (ns : List Note) (refused : Refused (writes ns)) (relays : Took later → Relayed env later)
    (took : Took (ns ++ later)) : Relayed env (ns ++ later) := by
  have unsent : frames ns = [] := by rw [frames,sent_refused refused]; rfl
  have same : frames (ns ++ later) = frames later := by rw [frames_append,unsent,List.nil_append]
  obtain ⟨⟨keepAlive,opened⟩,delivered⟩ := took
  rw [writes_append] at opened delivered
  have opened : (.writeHeader keepAlive,true) ∈ writes later := by
    rcases List.mem_append.mp opened with early | late
    · exact (refused_unopened refused early).elim
    · exact late
  obtain ⟨b,head,last,relays⟩ := relays ⟨⟨keepAlive,opened⟩,(List.forall_mem_append.mp delivered).2⟩
  refine ⟨b,head,by rw [heads_append,List.getLast?_append,last]; rfl,?_⟩
  cases relays with
  | whole done lively shown => exact .whole done lively (same.trans shown)
  | broken cut error shown => exact .broken cut error (same.trans shown)

theorem stream_relays (stream : Stream env job labels b isProbe more t verdict) (took : Took (notes t)) :
    ∃ head, heads (notes t) = [(b,head)] ∧ Relays env head (notes t) := by
  have delivered := took.delivered
  have unwritten : ∀ {up sr} {s : SinkState}, Streamed job.keepAlive b job.upstreamText up sr s →
      s.headerStarted = false → Refused (writes (notes up ++ notes (failing b isProbe labels))) := by
    intro up sr s streamed unsent
    rw [writes_append]
    exact (streamed_refused streamed unsent).append refused_nil
  cases stream with
  | failedOver streamed unsent =>
    rw [notes_append] at took
    exact (refused_untaken _ (unwritten streamed unsent) took).elim
  | surfaced streamed unsent _ _ answered =>
    rw [notes_append,notes_append] at took
    exact (answered_untaken _ (unwritten streamed unsent) answered took).elim
  | unopened streamed =>
    obtain ⟨-,last⟩ := delivered_part delivered
    cases last _ (List.mem_singleton.mpr rfl)
  | emptied streamed unsent sound =>
    obtain ⟨head,-,shown⟩ := streamed_unopened streamed unsent sound
    have early := (delivered_part (delivered_part delivered).1).1
    rw [shown] at early
    cases early _ (List.mem_singleton.mpr rfl)
  | abandoned streamed _ dead =>
    have alive := streamed_alive streamed delivered
    simp [alive] at dead
  | truncated streamed started alive broken error closing =>
    obtain ⟨head,body,-,rfl,shown,some,timedOut,aborted,-⟩ := Streamed.sent streamed started alive
    rename_i payload tail clean
    rw [timedOut,aborted] at broken
    rw [timedOut] at error
    refine ⟨head,?_,.broken ?_ error ?_⟩
    · rw [notes_append,notes_append,heads_append,heads_append,closing_unheaded closing,exchange_heads shown]
      rfl
    · revert broken
      rw [finished]
      cases (events head).any SseEvent.isDone <;> cases stalled head <;> simp
    · have last := closing_delivered closing (delivered_part delivered).2
      rw [notes_append,notes_append,frames_append,frames_append,last]
      change clientFrames body ++ [] ++ _ = _
      rw [clientFrames_passed shown some,List.append_nil]
      rfl
  | completed streamed started alive sound =>
    obtain ⟨head,body,-,rfl,shown,some,timedOut,aborted,-⟩ := Streamed.sent streamed started alive
    rename_i clean
    rw [timedOut,aborted] at sound
    obtain ⟨done,lively⟩ : finished head = true ∧ stalled head = false := by
      revert sound
      rw [finished]
      cases (events head).any SseEvent.isDone <;> cases stalled head <;> simp
    refine ⟨head,?_,.whole done lively ?_⟩
    · rw [notes_append,notes_append,heads_append,heads_append,exchange_heads shown]
      rfl
    · have closed : frames (notes [.got .writeLastChunk clean]) = [] := by cases clean <;> rfl
      rw [notes_append,notes_append,frames_append,frames_append,closed]
      change clientFrames body ++ [] ++ [] = _
      rw [clientFrames_passed shown some,List.append_nil,List.append_nil]

theorem unary_untaken (unary : Unary env job labels b isProbe more t verdict) : ¬Took (notes t) := by
  have unwritten : ∀ {up ur} last, Posted b job.upstreamText up ur → writes (notes last) = [] →
      Refused (writes (notes up ++ notes last)) := by
    intro up ur last posted none
    rw [writes_append,(posted_quiet posted).2.1,none]
    exact refused_nil
  cases unary with
  | unreachable posted | failedOver posted =>
    rw [notes_append]
    exact refused_untaken _ (unwritten _ posted rfl)
  | surfaced posted _ _ _ answered | relayedError posted _ _ _ answered | relayed posted _ _ answered =>
    rw [notes_append,notes_append]
    exact answered_untaken _ (unwritten _ posted rfl) answered

theorem walk_relays (walk : Walk env job order attempts t outcome) (took : Took (notes t)) : Relayed env (notes t) := by
  induction walk with
  | exhausted _ answered => exact (answered_untaken [] refused_nil answered took).elim
  | denied _ passive _ _ ih =>
    rw [denied_notes passive] at took ⊢
    exact ih took
  | full _ passive _ _ ih =>
    rw [full_notes passive] at took ⊢
    exact later_relays [_] refused_nil ih took
  | failedOver _ passive _ tried _ ih =>
    rw [tried_notes passive] at took ⊢
    exact later_relays _ (tried_next tried).2 ih took
  | served _ passive _ tried =>
    rw [tried_notes passive,notes_nil,List.append_nil] at took ⊢
    cases tried with
    | stream _ stream =>
      obtain ⟨head,only,relays⟩ := stream_relays stream took
      exact ⟨_,head,by rw [only]; rfl,relays⟩
    | unary _ unary => exact (unary_untaken unary took).elim

theorem handleChat_relays (path : Runs (handleChat env req) t exit) (took : Took (notes t)) : Relayed env (notes t) := by
  cases handleChat_runs path with
  | declined lead tail _ _ answered =>
    rw [notes_append,notes_append,lead,tail,List.append_nil] at took
    exact (answered_untaken [] refused_nil answered took).elim
  | failed silent =>
    rw [silent] at took
    exact (refused_untaken [] refused_nil took).elim
  | walked lead tail _ _ _ _ walk =>
    rw [notes_append,notes_append,lead,tail,List.append_nil,List.nil_append] at took ⊢
    exact walk_relays walk took

end Run
section Chain

-- The library writes an error of the gateway's own on one line, and not as the sentinel.
def Marking (env : Env) : Prop :=
  ∀ timedOut payload, midStreamError env timedOut = some payload → Plain payload ∧ payload ≠ text "[DONE]"

def GatewayError (payload : Bytes) : Prop := ∃ env timedOut, Marking env ∧ midStreamError env timedOut = some payload

-- A gateway that was sent a stream, and whose client took all that it made of it.
inductive Hop (head : Head) (t : Trace) : Prop where
  | ran : Marking env → Runs (handleChat env req) t exit → (heads (notes t)).getLast? = some (b,head) → Took (notes t) →
      Hop head t

def body (t : Trace) : Bytes := ((clientFrames t).map Prod.snd).flatten

-- What a gateway is sent by the one it is put behind, in whichever blocks.
structure Behind (t : Trace) (head : Head) : Prop where
  status : head.status = 200
  bytes : arrived head = body t
  ended : stalled head = false

-- A stream that came through a number of gateways to the client of the last.
inductive Chain (head : Head) : Nat → Trace → Prop where
  | first : Hop head t → Chain head 1 t
  | next : Chain head n t → Behind t later → Hop later u → Chain head (n + 1) u

structure Carries (t : Trace) (evs : List SseEvent) (errors : List Bytes) : Prop where
  frames : (clientFrames t).map Prod.snd = (evs.map SseEvent.data ++ errors).map frame
  marked : ∀ payload ∈ errors, GatewayError payload

variable {head later : Head} {t : Trace} {n : Nat}

theorem GatewayError.plain (error : GatewayError payload) : Plain payload ∧ payload ≠ text "[DONE]" := by
  obtain ⟨env,timedOut,marking,made⟩ := error
  exact marking timedOut payload made

theorem hop_carries (hop : Hop head t) :
    ∃ errors, Carries t (events head) errors ∧ errors.length = if finished head && !stalled head then 0 else 1 := by
  obtain ⟨marking,path,last,took⟩ := hop
  obtain ⟨b,other,found,relays⟩ := handleChat_relays path took
  cases Option.some.inj (last.symm.trans found)
  cases relays with
  | whole done lively shown =>
    refine ⟨[],⟨?_,List.forall_mem_nil _⟩,by rw [done,lively]; rfl⟩
    rw [clientFrames,← Relay.frames,shown,List.map_map,List.append_nil,List.map_map]
    rfl
  | broken cut error shown =>
    rename_i payload
    refine ⟨[payload],⟨?_,fun e member => ?_⟩,?_⟩
    · rw [clientFrames,← Relay.frames,shown,List.map_append,List.map_map,List.map_append,List.map_map]
      rfl
    · rw [List.mem_singleton.mp member]
      exact ⟨_,_,marking,error⟩
    · rcases cut with undone | stall
      · rw [undone]
        rfl
      · rw [stall,Bool.not_true,Bool.and_false]
        rfl

-- The next gateway reads the events that were written, errors among them.
theorem behind_reads (behind : Behind t later) (carries : Carries t evs errors) (plain : ∀ ev ∈ evs, Plain ev.data) :
    (events later).map SseEvent.data = evs.map SseEvent.data ++ errors := by
  have fits : ∀ payload ∈ evs.map SseEvent.data ++ errors, Plain payload := by
    intro payload member
    rcases List.mem_append.mp member with own | error
    · obtain ⟨ev,inside,rfl⟩ := List.mem_map.mp own
      exact plain ev inside
    · exact (carries.marked payload error).plain.1
  rw [events,behind.bytes,body,carries.frames]
  exact (decode_frames _).trans ((frames_exact _).mpr fits)

theorem Carries.finished (carries : Carries t (events head) errors)
    (reads : (events later).map SseEvent.data = (events head).map SseEvent.data ++ errors) :
    finished later = finished head := by
  have data (head : Head) : Relay.finished head = ((events head).map SseEvent.data).any (· == text "[DONE]") := by
    rw [Relay.finished,List.any_map]
    rfl
  have others : errors.any (· == text "[DONE]") = false := by
    simpa using fun payload member => (carries.marked payload member).plain.2
  rw [data,data,reads,List.any_append,others,Bool.or_false]

theorem chain_carries (chain : Chain head n t) (plain : ∀ ev ∈ events head, Plain ev.data) :
    ∃ errors, Carries t (events head) errors ∧ errors.length = if finished head then (stalled head).toNat else n := by
  induction chain with
  | first hop =>
    obtain ⟨errors,carries,count⟩ := hop_carries hop
    refine ⟨errors,carries,count.trans ?_⟩
    cases finished head <;> cases stalled head <;> rfl
  | @next n t later u _ behind hop ih =>
    obtain ⟨errors,carries,count⟩ := ih
    obtain ⟨added,carried,counted⟩ := hop_carries hop
    have reads := behind_reads behind carries plain
    refine ⟨errors ++ added,⟨?_,List.forall_mem_append.mpr ⟨carries.marked,carried.marked⟩⟩,?_⟩
    · rw [carried.frames,reads,List.append_assoc]
    · rw [List.length_append,count,counted,carries.finished reads,behind.ended]
      cases finished head <;> rfl

-- Through any number of gateways the client is sent the backend's events, whole and in
-- their order, the sentinel exactly if the backend sent it; and of a stream without it
-- every gateway says so.
theorem chain_transparent (chain : Chain head n t) (plain : ∀ ev ∈ events head, Plain ev.data) :
    ∃ errors, Carries t (events head) errors ∧ (errors.length = if finished head then (stalled head).toNat else n) ∧
      (doneFrame ∈ (clientFrames t).map Prod.snd ↔ finished head = true) := by
  obtain ⟨errors,carries,count⟩ := chain_carries chain plain
  refine ⟨errors,carries,count,?_⟩
  have others : text "[DONE]" ∉ errors := fun member => (carries.marked _ member).plain.2 rfl
  rw [carries.frames,doneFrame,List.mem_map_of_injective fun _ _ => frame_inj.mp,List.mem_append,or_iff_left others,finished,
    List.any_eq_true,List.mem_map]
  simp [SseEvent.isDone]

section Sample
open Fleet

def spoken : Bytes := text "data: x\n\ndata: y\n\n: ping\n\ndata: [DONE]\n\n"

-- The first gateway reads the backend in one block, the second one the first in two.
def backendHead : Head := ⟨200,false,[{block := spoken,done := true}]⟩

def gatewayHead : Head :=
  ⟨200,false,[{block := text "data: x\n\ndata:"},{block := text " y\n\ndata: [DONE]\n\n",done := true}]⟩

theorem sample_marks : Marking (sampleEnv ["a"]) := by
  intro timedOut payload made
  have each : ((midStreamError (sampleEnv ["a"]) timedOut).all fun payload =>
      decide (Plain payload ∧ payload ≠ text "[DONE]")) = true := by
    cases timedOut <;> decide +kernel
  rw [made] at each
  exact of_decide_eq_true each

def took (head : Head) (t : Trace) : Bool :=
  (heads (notes t)).getLast? == some (0,head) && decide ((.writeHeader true,true) ∈ writes (notes t)) &&
    (writes (notes t)).all (·.2)

theorem sample_hops (head : Head) (waits : Nat) (sent : List Bytes)
    (shown : (alone (sampleEnv ["a"]) 0 (chatRequest true) (List.replicate waits (obliging head ⟨200,[]⟩))).map
      (fun out => ((took head out.1,(clientFrames out.1).map Prod.snd),out.2)) = some ((true,sent),Exit.returned true)) :
    ∃ t, Hop head t ∧ (clientFrames t).map Prod.snd = sent := by
  obtain ⟨t,path,seen⟩ := alone_runs 0 _ (fun t => (took head t,(clientFrames t).map Prod.snd)) shown
  obtain ⟨taken,shown⟩ := Prod.mk.inj seen
  simp only [took,Bool.and_eq_true,beq_iff_eq,decide_eq_true_eq,List.all_eq_true] at taken
  obtain ⟨⟨last,opened⟩,delivered⟩ := taken
  exact ⟨t,.ran sample_marks path last ⟨⟨true,opened⟩,delivered⟩,shown⟩

theorem chain_transparent_twice : ∃ t u, Chain backendHead 1 t ∧ Chain backendHead 2 u ∧
    (clientFrames u).map Prod.snd = (clientFrames t).map Prod.snd ∧ doneFrame ∈ (clientFrames u).map Prod.snd := by
  obtain ⟨t,first,sent⟩ := sample_hops backendHead 9 [frame (text "x"),frame (text "y"),doneFrame] (by decide +kernel)
  obtain ⟨u,second,again⟩ := sample_hops gatewayHead 10 [frame (text "x"),frame (text "y"),doneFrame] (by decide +kernel)
  have behind : Behind t gatewayHead := ⟨rfl,by rw [body,sent]; decide +kernel,by decide +kernel⟩
  have chain : Chain backendHead 2 u := .next (.first first) behind second
  obtain ⟨errors,-,-,done⟩ := chain_transparent chain (by decide +kernel)
  exact ⟨t,u,.first first,chain,again.trans sent.symm,done.mpr (by decide +kernel)⟩

end Sample
end Chain
end Kvmux.Relay
