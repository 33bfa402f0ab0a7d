import Mathlib.Data.List.Infix
import Kvmux.Fleet
import Kvmux.Recording

namespace Kvmux.Counting
open Coroutine Client Gateway Metrics Streaming Attempt Handling Recording Fleet

-- The exchanges of a run in their order, each with whether it was a header that
-- the client refused.
def refusals (ns : List Note) : List Bool := ns.filterMap fun
  | .wrote (.writeHeader _) delivered => some (!delivered)
  | .reported _ _ _ | .failure _ => none
  | _ => some false

-- The client refuses the header of the stream and, next, refuses it again.
def Abandoned (ns : List Note) : Prop := [true,true] <:+: refusals ns

instance : DecidablePred Abandoned := fun ns => inferInstanceAs (Decidable ([true,true] <:+: refusals ns))

@[simp] theorem refusals_append (first second : List Note) : refusals (first ++ second) = refusals first ++ refusals second :=
  List.filterMap_append

section Lists

theorem once_not_twice {l : List Bool} (once : l.count true ≤ 1) : ¬[true,true] <:+: l := by
  intro twice
  have fewer := twice.sublist.count_le true
  simp at fewer
  omega

theorem twice_after {first second : List Bool} (once : first.count true ≤ 1) (opens : second.head? ≠ some true) :
    [true,true] <:+: first ++ second ↔ [true,true] <:+: second := by
  induction first with
  | nil => rfl
  | cons x rest ih =>
    rw [List.cons_append,List.infix_cons_iff]
    cases x with
    | false =>
      rw [ih (by simpa using once)]
      simp
    | true =>
      have none : rest.count true = 0 := by simpa using once
      rw [ih (by omega)]
      constructor
      · rintro (start | later)
        · obtain ⟨-,next⟩ := List.cons_prefix_cons.mp start
          cases rest with
          | nil =>
            obtain ⟨tail,same⟩ := next
            rw [List.nil_append] at same
            rw [← same] at opens
            exact absurd rfl opens
          | cons y rest =>
            obtain ⟨rfl,-⟩ := List.cons_prefix_cons.mp next
            simp at none
        · exact later
      · exact .inr

end Lists

section Story

theorem opened_unrefused (keepAlive started : Bool) : (refusals (opened keepAlive started)).count true = 0 := by
  cases started <;> rfl

theorem forwarded_unrefused (keepAlive started : Bool) (evs : List SseParser.SseEvent) :
    (refusals (forwarded keepAlive started evs)).count true = 0 := by
  unfold forwarded
  split
  · rfl
  · have frames : refusals (evs.map fun ev => frameNote .sink ev.data true) = evs.map fun _ => false := by
      simp [refusals,frameNote,List.filterMap_map]
    rw [refusals_append,frames,List.count_append,opened_unrefused]
    simp [List.count_replicate]

theorem flowed_refusals (flowed : Flowed keepAlive head ns sr s) : (refusals ns).count true ≤ 1 := by
  cases flowed with
  | whole _ _ _ _ shown =>
    rw [shown,forwarded_unrefused]
    exact Nat.zero_le 1
  | cut _ _ _ cut =>
    cases cut with
    | refused _ _ shown =>
      rw [shown]
      exact Nat.le_refl 1
    | lost _ shown =>
      rw [shown,refusals_append,refusals_append,List.count_append,List.count_append,forwarded_unrefused,opened_unrefused]
      exact Nat.zero_le 1

theorem streamed_refusals (streamed : Streamed keepAlive b requestBody t sr s) : (refusals (notes t)).count true ≤ 1 := by
  cases streamed with
  | unreachable | unwritten | unanswered => exact Nat.zero_le 1
  | refused error only =>
    rename_i reads head
    change (false :: false :: refusals (notes reads)).count true ≤ 1
    rw [readSome_unnoted only]
    exact Nat.zero_le 1
  | answered served flowed =>
    rename_i head body
    change (false :: false :: refusals (notes body)).count true ≤ 1
    simpa using flowed_refusals flowed

theorem posted_refusals (posted : Posted b requestBody t ur) : (refusals (notes t)).count true = 0 := by
  cases posted <;> rfl

theorem answered_refusals (answered : Answered labels keepAlive status body t outcome) :
    (refusals (notes t)).count true = 0 ∧ (refusals (notes t)).head? ≠ some true ∧ outcome.finalCode = status := by
  cases answered with
  | unwritable => exact ⟨rfl,by decide,rfl⟩
  | written => exact ⟨rfl,by simp [notes,note,refusals],rfl⟩

theorem closing_refusals (closing : Closing payload t clean) : (refusals (notes t)).count true = 0 := by
  cases closing <;> rfl

theorem failing_unrefused (b : Nat) (isProbe : Bool) (labels : Labels) :
    refusals (notes (failing b isProbe labels)) = [] := rfl

theorem lastChunk_unrefused (delivered : Bool) : refusals (notes [.got .writeLastChunk delivered]) = [false] := rfl

theorem succeeding_unrefused (b : Nat) (isProbe : Bool) : refusals (notes (succeeding b isProbe)) = [] := rfl

-- An attempt ends the request without a code only where the client refused the
-- header twice.
inductive Coded (shown : List Bool) : Verdict → Prop where
  | next : shown.count true ≤ 1 → Coded shown .next
  | coded : shown.count true ≤ 1 → outcome.finalCode ≠ 0 → Coded shown (.finish outcome)
  | uncoded : [true,true] <:+: shown → outcome.finalCode = 0 → Coded shown (.finish outcome)

theorem finished_coded (once : shown.count true ≤ 1) (labels : Labels) (exit : Exit) : Coded shown (finished labels exit) :=
  .coded once (Nat.succ_ne_zero 199)

theorem surface_code (env : Env) (sr : StreamResult) : (surface env sr).1 ≠ 0 := by
  unfold surface
  split
  · rename_i refused
    exact Nat.pos_iff_ne_zero.mp (Nat.lt_of_lt_of_le (by decide) refused)
  · split <;> simp

theorem unary_coded (unary : Unary env job labels b isProbe more t verdict) : Coded (refusals (notes t)) verdict := by
  cases unary with
  | unreachable posted | failedOver posted =>
    refine .next ?_
    simp [posted_refusals posted,failing_unrefused]
  | surfaced posted _ failed _ answered =>
    obtain ⟨silent,-,code⟩ := answered_refusals answered
    refine .coded ?_ (by omega)
    simp [posted_refusals posted,failing_unrefused,silent]
  | relayedError posted _ _ failed answered =>
    obtain ⟨silent,-,code⟩ := answered_refusals answered
    refine .coded ?_ (by omega)
    simp [posted_refusals posted,succeeding_unrefused,silent]
  | relayed posted _ _ answered =>
    obtain ⟨silent,-,code⟩ := answered_refusals answered
    refine .coded ?_ (by omega)
    simp [posted_refusals posted,succeeding_unrefused,silent]

theorem stream_coded (stream : Stream env job labels b isProbe more t verdict) : Coded (refusals (notes t)) verdict := by
  cases stream with
  | failedOver streamed =>
    refine .next ?_
    simpa [failing_unrefused] using streamed_refusals streamed
  | surfaced streamed _ _ _ answered =>
    obtain ⟨silent,-,code⟩ := answered_refusals answered
    refine .coded ?_ (by rw [code]; exact surface_code _ _)
    simpa [failing_unrefused,silent] using streamed_refusals streamed
  | unopened streamed unsent sound =>
    obtain ⟨head,-,shown⟩ := streamed_unopened streamed unsent sound
    refine .uncoded ?_ rfl
    rw [notes_append,notes_append,shown]
    exact ⟨[false,false],[],rfl⟩
  | emptied streamed unsent sound closing =>
    obtain ⟨head,-,shown⟩ := streamed_unopened streamed unsent sound
    refine finished_coded ?_ labels _
    rw [notes_append,notes_append,shown,refusals_append,refusals_append,notes_cons,refusals_append]
    simp only [List.count_append,closing_refusals closing]
    exact Nat.le_refl 1
  | abandoned streamed => exact finished_coded (streamed_refusals streamed) labels _
  | truncated streamed _ _ _ _ closing =>
    refine finished_coded ?_ labels _
    simpa [failing_unrefused,closing_refusals closing] using streamed_refusals streamed
  | completed streamed =>
    refine finished_coded ?_ labels _
    simpa [succeeding_unrefused,lastChunk_unrefused] using streamed_refusals streamed

theorem tried_coded (tried : Tried env job labels b isProbe more t verdict) : Coded (refusals (notes t)) verdict := by
  cases tried with
  | stream _ stream => exact stream_coded stream
  | unary _ unary => exact unary_coded unary

theorem tried_dispatches (tried : Tried env job labels b isProbe more t verdict) : (refusals (notes t)).head? = some false := by
  obtain ⟨answer,rest,rfl⟩ := tried_opens tried
  rfl

theorem walk_coded (walk : Walk env job order attempts t outcome) :
    (refusals (notes t)).head? ≠ some true ∧ (outcome.finalCode = 0 ↔ Abandoned (notes t)) := by
  induction walk with
  | exhausted _ answered =>
    obtain ⟨silent,opens,code⟩ := answered_refusals answered
    refine ⟨opens,?_⟩
    rw [code]
    exact ⟨fun uncoded => absurd uncoded (by decide),fun twice => absurd twice (once_not_twice (by omega))⟩
  | denied _ passive _ _ ih =>
    rw [denied_notes passive]
    exact ih
  | full _ passive _ _ ih =>
    rw [full_notes passive]
    exact ih
  | failedOver _ passive _ tried _ ih =>
    rw [tried_notes passive]
    have opens := tried_dispatches tried
    cases tried_coded tried with
    | next once =>
      refine ⟨by simp [opens],?_⟩
      rw [ih.2,Abandoned,Abandoned,refusals_append,twice_after once ih.1]
  | served _ passive _ tried =>
    rw [tried_notes passive,notes_nil,List.append_nil]
    have opens := tried_dispatches tried
    refine ⟨by simp [opens],?_⟩
    cases tried_coded tried with
    | coded once code => exact ⟨fun uncoded => absurd uncoded code,fun twice => absurd twice (once_not_twice once)⟩
    | uncoded twice code => exact ⟨fun _ => twice,fun _ => code⟩

theorem chatted_coded (parses : ∀ bytes value, env.json.parse bytes = some value → value.Utf8)
    (chatted : Chatted env req t outcome) : outcome.finalCode = 0 ↔ Abandoned (notes t) := by
  cases chatted with
  | declined lead tail refusal own answered =>
    obtain ⟨silent,-,code⟩ := answered_refusals answered
    rw [notes_append,notes_append,lead,tail,List.nil_append,List.append_nil]
    exact ⟨fun uncoded => by omega,fun twice => absurd twice (once_not_twice (by omega))⟩
  | failed _ garbled =>
    obtain ⟨body,found,invalid⟩ := garbled
    exact absurd (parses _ _ found) invalid
  | walked lead tail _ _ _ _ walk =>
    rw [notes_append,notes_append,lead,tail,List.nil_append,List.append_nil]
    exact (walk_coded walk).2

end Story

def requestsCounted (t : Trace) : Nat := (recorded t).countP fun
  | .incRequestsTotal _ => true
  | _ => false

def e2eObserved (t : Trace) : Nat := (recorded t).countP fun
  | .observeE2e _ _ => true
  | _ => false

theorem recordTerminal_counts (path : Runs (recordTerminal outcome tArrive) t value) :
    requestsCounted t = (if outcome.finalCode = 0 then 0 else 1) ∧ e2eObserved t = if outcome.finalCode = 0 then 0 else 1 := by
  unfold recordTerminal at path
  split at path
  · rename_i code
    obtain ⟨_,rest,rfl,timing⟩ := runs_perform.mp path
    obtain ⟨tEnd,rest,rfl,observing⟩ := runs_perform.mp timing
    obtain ⟨_,rest,rfl,ending⟩ := runs_act.mp observing
    obtain ⟨rfl,-⟩ := runs_ret.mp ending
    rw [if_neg code]
    exact ⟨rfl,rfl⟩
  · rename_i uncoded
    obtain ⟨rfl,-⟩ := runs_ret.mp path
    rw [if_pos (by simpa using uncoded)]
    exact ⟨rfl,rfl⟩

theorem early_uncounted {counts : Metric → Bool} (last : ∀ metric, counts metric = true → terminal metric = true)
    (early : ∀ metric ∈ recorded t, Recording.early env metric = true) : (recorded t).countP counts = 0 := by
  refine List.countP_eq_zero.mpr fun metric member counted => ?_
  have fits := early metric member
  simp [Recording.early,last metric counted] at fits

theorem counted_once (env : Env) (req : Request) (parses : ∀ bytes value, env.json.parse bytes = some value → value.Utf8)
    (path : Runs (handleChat env req) t exit) :
    (requestsCounted t = 1 ∧ e2eObserved t = 1) ↔ ¬Abandoned (notes t) := by
  unfold handleChat at path
  obtain ⟨tArrive,rest,rfl,chatting⟩ := runs_perform.mp path
  obtain ⟨inner,outcome,rest,rfl,chatted,recording⟩ := runs_bind.mp chatting
  obtain ⟨last,_,rest,rfl,recorded,ending⟩ := runs_bind.mp recording
  obtain ⟨rfl,rfl⟩ := runs_ret.mp ending
  have silent := (looking_silent (recordTerminal_looking outcome tArrive)).notes recorded
  have shown : notes (.did .now tArrive :: (inner ++ (last ++ []))) = notes inner := by
    change notes (inner ++ (last ++ [])) = notes inner
    simp [silent]
  have early := ((chatBody_records env req).runs chatted).1
  have noRequest : requestsCounted inner = 0 := by
    refine early_uncounted (fun metric counted => ?_) early
    cases metric with
    | incRequestsTotal => rfl
    | _ => cases counted
  have noTime : e2eObserved inner = 0 := by
    refine early_uncounted (fun metric counted => ?_) early
    cases metric with
    | observeE2e => rfl
    | _ => cases counted
  obtain ⟨request,time⟩ := recordTerminal_counts recorded
  have requests : requestsCounted (.did .now tArrive :: (inner ++ (last ++ []))) = requestsCounted last := by
    change requestsCounted (inner ++ (last ++ [])) = _
    simpa [requestsCounted] using noRequest
  have times : e2eObserved (.did .now tArrive :: (inner ++ (last ++ []))) = e2eObserved last := by
    change e2eObserved (inner ++ (last ++ [])) = _
    simpa [e2eObserved] using noTime
  rw [requests,times,request,time,shown,← chatted_coded parses (chatBody_runs chatted)]
  by_cases uncoded : outcome.finalCode = 0
  · simp [uncoded]
  · simp [uncoded]

theorem sample_parses (names : List String) (bytes : Bytes) (value : Json) :
    (sampleEnv names).json.parse bytes = some value → value.Utf8 :=
  tableLib_parses (by decide +kernel) bytes value

-- The client takes the stream that one backend sends.
theorem counted_once_streamed : ∃ t, Runs (handleChat (sampleEnv ["a"]) (chatRequest true)) t (.returned true) ∧
    requestsCounted t = 1 ∧ e2eObserved t = 1 := by
  obtain ⟨t,path,seen⟩ : ∃ t, Runs (handleChat (sampleEnv ["a"]) (chatRequest true)) t (.returned true) ∧
      decide (Abandoned (notes t)) = false :=
    alone_runs 0 (List.replicate 8 (obliging ⟨200,false,[{block := text "data: [DONE]\n\n",done := true}]⟩ ⟨200,[]⟩)) _
      (by decide +kernel)
  exact ⟨t,path,(counted_once _ _ (sample_parses ["a"]) path).mpr (of_decide_eq_false seen)⟩

-- The client takes no header: the handler throws before it has set a code.
theorem vanished_uncounted : ∃ t, Runs (handleChat (sampleEnv ["a"]) (chatRequest true)) t .threw ∧
    (requestsCounted t,e2eObserved t) = (0,0) :=
  alone_runs 0 (List.replicate 8 unopening) _ (by decide +kernel)

end Kvmux.Counting
