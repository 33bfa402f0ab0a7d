import Mathlib.Data.List.Basic
import Kvmux.Mirror
import Kvmux.Truncation

namespace Kvmux.Terminal
open Coroutine SseParser SseCodec Gateway OpenAi Streaming Attempt Truncation

-- The frames that a client was sent, each with who asked for it.
def chunkOf : Wait → Option (Site × Bytes)
  | .writeChunk site chunk => some (site,chunk)
  | _ => none

def clientFrames (t : Trace) : List (Site × Bytes) := (sent (notes t)).filterMap chunkOf

def doneFrame : Bytes := frame (text "[DONE]")

-- What ends a stream: the sentinel, and the frames of the gateway's own.
def terminal (f : Site × Bytes) : Bool := decide (f.1 = .gateway ∨ f.2 = doneFrame)

def LastOnly (p : X → Bool) (xs : List X) : Prop := ∃ init last, xs = init ++ [last] ∧ p last = true ∧ ∀ x ∈ init, p x = false

structure Concluded (b : Nat) (isProbe : Bool) (t : Trace) : Prop where
  once : LastOnly terminal (clientFrames t)
  credited : (.sink,doneFrame) ∈ clientFrames t → reports (notes t) = [(b,.success,isProbe)]

-- The backend sends no sentinel at all, or one with nothing after it, neither an
-- event nor a silence that outlasts the budget.
def EndsOnce (head : Head) : Prop :=
  (∀ ev ∈ events head, ev.isDone = false) ∨ (stalled head = false ∧ LastOnly SseEvent.isDone (events head))

theorem lastOnly_snoc {p : X → Bool} : LastOnly p (xs ++ [x]) ↔ p x = true ∧ ∀ y ∈ xs, p y = false := by
  constructor
  · rintro ⟨init,last,same,marked,others⟩
    obtain ⟨rfl,single⟩ := List.append_inj' same rfl
    cases single
    exact ⟨marked,others⟩
  · rintro ⟨marked,others⟩
    exact ⟨xs,x,rfl,marked,others⟩

theorem lastOnly_map {p : Y → Bool} {f : X → Y} : LastOnly p (xs.map f) ↔ LastOnly (fun x => p (f x)) xs := by
  rcases List.eq_nil_or_concat xs with rfl | ⟨init,last,rfl⟩
  · simp [LastOnly]
  · rw [List.concat_eq_append,List.map_append,List.map_singleton,lastOnly_snoc,lastOnly_snoc]
    simp

theorem LastOnly.any {p : X → Bool} (once : LastOnly p xs) : xs.any p = true := by
  obtain ⟨init,last,rfl,marked,-⟩ := once
  simp [marked]

theorem frame_inj : frame one = frame two ↔ one = two := by simp [frame]

def passed (ev : SseEvent) : Site × Bytes := (.sink,frame ev.data)

theorem terminal_passed (ev : SseEvent) : terminal (passed ev) = ev.isDone := by
  by_cases done : ev.data = text "[DONE]"
  · simp [terminal,passed,doneFrame,SseEvent.isDone,done]
  · simp [terminal,passed,doneFrame,SseEvent.isDone,frame_inj,done]

theorem done_passed (evs : List SseEvent) : (.sink,doneFrame) ∈ evs.map passed ↔ evs.any SseEvent.isDone = true := by
  simp only [List.mem_map,List.any_eq_true]
  constructor
  · rintro ⟨ev,member,same⟩
    refine ⟨ev,member,?_⟩
    rw [← terminal_passed,same]
    rfl
  · rintro ⟨ev,member,done⟩
    refine ⟨ev,member,?_⟩
    have data : ev.data = text "[DONE]" := by simpa [SseEvent.isDone] using done
    rw [passed,data]
    rfl

theorem clientFrames_append (first second : Trace) : clientFrames (first ++ second) = clientFrames first ++ clientFrames second := by
  simp [clientFrames]

theorem clientFrames_passed (shown : notes body = forwarded keepAlive false evs) (some : evs ≠ []) :
    clientFrames body = evs.map passed := by
  have written : writes (notes body) = (.writeHeader keepAlive :: evs.map frameWrite).map (·,true) := by
    rw [shown,writes_forwarded keepAlive evs some]
    rfl
  have one : chunkOf ∘ frameWrite = Option.some ∘ passed := rfl
  rw [clientFrames,sent_writes written,List.filterMap_cons_none rfl,List.filterMap_map,one,List.filterMap_eq_map]

theorem exchange_heads (shown : notes body = forwarded keepAlive false evs) :
    heads (notes (.got (.connect b) (.ok ()) :: .got (.writeRequest b requestBody) (.ok ()) ::
      .got (.readHeader b) (.ok head) :: body)) = [(b,head)] := by
  change (b,head) :: heads (notes body) = [(b,head)]
  rw [shown,written_unheaded (forwarded_written _ _ _)]

-- A stream that was passed on and then closed with an error frame.
theorem truncated_concluded (shown : clientFrames t = (events head).map passed ++ [(.gateway,frame payload)])
    (broken : (!(events head).any SseEvent.isDone && !stalled head || stalled head) = true) :
    Concluded b isProbe t ↔ EndsOnce head := by
  have quiet : LastOnly terminal (clientFrames t) ↔ ∀ ev ∈ events head, ev.isDone = false := by
    have error : terminal (.gateway,frame payload) = true := by simp [terminal]
    rw [shown,lastOnly_snoc]
    simp only [error,true_and,List.forall_mem_map,terminal_passed]
  constructor
  · intro concluded
    exact .inl (quiet.mp concluded.once)
  · rintro (none | ⟨lively,once⟩)
    · refine ⟨quiet.mpr none,fun member => ?_⟩
      rw [shown,List.mem_append,done_passed] at member
      rcases member with done | error
      · obtain ⟨ev,found,done⟩ := List.any_eq_true.mp done
        simp [none ev found] at done
      · simp at error
    · simp [lively,once.any] at broken

theorem completed_concluded (shown : clientFrames t = (events head).map passed)
    (reported : reports (notes t) = [(b,.success,isProbe)])
    (sound : (!(events head).any SseEvent.isDone && !stalled head || stalled head) = false) :
    Concluded b isProbe t ↔ EndsOnce head := by
  have once : LastOnly terminal (clientFrames t) ↔ LastOnly SseEvent.isDone (events head) := by
    rw [shown,lastOnly_map]
    simp only [terminal_passed]
  obtain ⟨done,lively⟩ : (events head).any SseEvent.isDone = true ∧ stalled head = false := by
    revert sound
    cases (events head).any SseEvent.isDone <;> cases stalled head <;> simp
  constructor
  · intro concluded
    exact .inr ⟨lively,once.mp concluded.once⟩
  · rintro (none | ⟨-,last⟩)
    · obtain ⟨ev,found,marked⟩ := List.any_eq_true.mp done
      simp [none ev found] at marked
    · exact ⟨once.mpr last,fun _ => reported⟩

theorem answered_writes (answered : Answered labels keepAlive status body t outcome) :
    ∀ w ∈ writes (notes t), ∃ response, w.1 = .writeJson response := by
  cases answered with
  | unwritable => exact List.forall_mem_nil _
  | written =>
    intro w member
    exact ⟨_,congrArg Prod.fst (List.mem_singleton.mp member)⟩

theorem refused_unopened (refused : Refused ws) (opened : (.writeHeader keepAlive,true) ∈ ws) : False := by
  obtain ⟨other,same⟩ := refused _ opened
  cases same

-- A client that took every write saw the whole stream.
theorem streamed_alive (streamed : Streamed keepAlive b requestBody t sr s) (delivered : ∀ w ∈ writes (notes t), w.2 = true) :
    s.downstreamDead = false := by
  cases streamed with
  | unreachable | unwritten | unanswered | refused => rfl
  | answered _ flowed =>
    obtain ⟨-,-,-,live⟩ := flowed_whole flowed delivered
    exact live.alive

theorem terminal_once (path : Runs (streamAttempt env job labels b isProbe more) t verdict)
    (opened : (.writeHeader keepAlive,true) ∈ writes (notes t)) (delivered : ∀ w ∈ writes (notes t), w.2 = true) :
    ∃ head, heads (notes t) = [(b,head)] ∧ (Concluded b isProbe t ↔ EndsOnce head) := by
  cases streamAttempt_runs path with
  | failedOver streamed unsent =>
    rw [notes_append,writes_append] at opened
    exact (refused_unopened ((streamed_refused streamed unsent).append refused_nil) opened).elim
  | surfaced streamed unsent _ _ answered =>
    rw [notes_append,notes_append,writes_append,writes_append] at opened
    rcases List.mem_append.mp opened with early | late
    · exact (refused_unopened ((streamed_refused streamed unsent).append refused_nil) early).elim
    · obtain ⟨response,other⟩ := answered_writes answered _ late
      cases other
  | unopened streamed =>
    obtain ⟨-,last⟩ := delivered_part delivered
    cases last _ (List.mem_singleton.mpr rfl)
  | emptied streamed unsent sound =>
    obtain ⟨head,-,shown⟩ := streamed_unopened streamed unsent sound
    have early := (delivered_part (delivered_part delivered).1).1
    rw [shown] at early
    cases early _ (List.mem_singleton.mpr rfl)
  | abandoned streamed _ dead =>
    have alive := streamed_alive streamed delivered
    simp [alive] at dead
  | truncated streamed started alive broken error closing =>
    obtain ⟨head,body,-,rfl,shown,some,timedOut,aborted,-⟩ := Streamed.sent streamed started alive
    rename_i sr s payload tail clean
    rw [timedOut,aborted] at broken
    refine ⟨head,?_,@truncated_concluded _ head payload b isProbe ?_ broken⟩
    · rw [notes_append,notes_append,heads_append,heads_append,closing_unheaded closing,exchange_heads shown]
      rfl
    · have last := closing_delivered closing (delivered_part delivered).2
      rw [clientFrames_append,clientFrames_append]
      change clientFrames body ++ [] ++ clientFrames _ = _
      rw [clientFrames_passed shown some,List.append_nil,clientFrames,last]
      rfl
  | completed streamed started alive sound =>
    obtain ⟨head,body,-,rfl,shown,some,timedOut,aborted,-⟩ := Streamed.sent streamed started alive
    rename_i sr s clean
    rw [timedOut,aborted] at sound
    refine ⟨head,?_,completed_concluded ?_ ?_ sound⟩
    · rw [notes_append,notes_append,heads_append,heads_append,exchange_heads shown]
      rfl
    · have closed : clientFrames [.got .writeLastChunk clean] = [] := by cases clean <;> rfl
      rw [clientFrames_append,clientFrames_append,closed]
      change clientFrames body ++ [] ++ [] = _
      rw [clientFrames_passed shown some,List.append_nil,List.append_nil]
    · rw [notes_append,notes_append,reports_append,reports_append]
      change reports (notes body) ++ _ ++ [] = _
      rw [shown,(forwarded_written _ _ _).reports]
      rfl

section Sample
open Fleet Mirror

def attempted (head : Head) (answers : Nat) : Option (Trace × Verdict) :=
  solo (host (sampleEnv ["a"])) 0 (healthy (sampleEnv ["a"]) 0)
    (streamAttempt (sampleEnv ["a"]) (sampleJob true) {route := text "chat_completions"} 0 false false)
    (List.replicate answers (obliging head ⟨200,[]⟩))

theorem attempted_runs (shows : Trace → Prop) [DecidablePred shows] (head : Head) (answers : Nat)
    (shown : (attempted head answers).any (fun out => decide (shows out.1)) = true) :
    ∃ t verdict, Runs (streamAttempt (sampleEnv ["a"]) (sampleJob true) {route := text "chat_completions"} 0 false false)
      t verdict ∧ shows t := by
  cases ran : attempted head answers with
  | none => simp [ran] at shown
  | some out => exact ⟨out.1,out.2,solo_runs _ ran,by simpa [ran] using shown⟩

theorem unmarked (init : List Bool) (marked : (clientFrames t).map terminal = init ++ [last]) (wrong : last = false ∨ true ∈ init) :
    ¬ Concluded b isProbe t := by
  intro concluded
  have once : LastOnly id ((clientFrames t).map terminal) := lastOnly_map.mpr concluded.once
  rw [marked,lastOnly_snoc] at once
  rcases wrong with rfl | earlier
  · cases once.1
  · cases once.2 true earlier

def Delivered (t : Trace) : Prop :=
  (.writeHeader true,true) ∈ writes (notes t) ∧ ∀ w ∈ writes (notes t), w.2 = true

instance : DecidablePred Delivered := fun t =>
  inferInstanceAs (Decidable ((.writeHeader true,true) ∈ writes (notes t) ∧ ∀ w ∈ writes (notes t), w.2 = true))

def doneHead : Head := ⟨200,false,[{block := text "data: x\n\ndata: [DONE]\n\n",done := true}]⟩

theorem terminal_once_done : ∃ t verdict,
    Runs (streamAttempt (sampleEnv ["a"]) (sampleJob true) {route := text "chat_completions"} 0 false false) t verdict ∧
    clientFrames t = [(.sink,frame (text "x")),(.sink,doneFrame)] ∧ Concluded 0 false t := by
  obtain ⟨t,verdict,path,delivered,headed,shown⟩ := attempted_runs
    (fun t => Delivered t ∧ heads (notes t) = [(0,doneHead)] ∧ clientFrames t = [(.sink,frame (text "x")),(.sink,doneFrame)])
    doneHead 9 (by decide +kernel)
  obtain ⟨head,found,concludes⟩ := terminal_once path delivered.1 delivered.2
  rw [headed] at found
  cases found
  refine ⟨t,verdict,path,shown,concludes.mpr (.inr ⟨by decide,[⟨text "x",[]⟩],⟨text "[DONE]",[]⟩,?_,?_,?_⟩)⟩
  · decide +kernel
  · decide
  · decide

-- The backend falls silent after its sentinel, or goes on talking.
def silentHead : Head := ⟨200,false,[{block := text "data: [DONE]\n\n"}]⟩

def talkingHead : Head := ⟨200,false,[{block := text "data: [DONE]\n\ndata: x\n\n",done := true}]⟩

theorem done_not_last :
    (∃ t verdict, Runs (streamAttempt (sampleEnv ["a"]) (sampleJob true) {route := text "chat_completions"} 0 false false)
      t verdict ∧ Delivered t ∧ (clientFrames t).map terminal = [true,true] ∧ reports (notes t) = [(0,.failure,false)] ∧
      ¬ Concluded 0 false t) ∧
    (∃ t verdict, Runs (streamAttempt (sampleEnv ["a"]) (sampleJob true) {route := text "chat_completions"} 0 false false)
      t verdict ∧ Delivered t ∧ (clientFrames t).map terminal = [true,false] ∧ ¬ Concluded 0 false t) := by
  constructor
  · obtain ⟨t,verdict,path,delivered,marked,reported⟩ := attempted_runs
      (fun t => Delivered t ∧ (clientFrames t).map terminal = [true,true] ∧ reports (notes t) = [(0,.failure,false)])
      silentHead 9 (by decide +kernel)
    exact ⟨t,verdict,path,delivered,marked,reported,unmarked [true] marked (.inr (by decide))⟩
  · obtain ⟨t,verdict,path,delivered,marked⟩ := attempted_runs
      (fun t => Delivered t ∧ (clientFrames t).map terminal = [true,false]) talkingHead 9 (by decide +kernel)
    exact ⟨t,verdict,path,delivered,marked,unmarked [true] marked (.inl rfl)⟩

end Sample
end Kvmux.Terminal
