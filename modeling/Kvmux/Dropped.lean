import Mathlib.Data.List.Basic
import Kvmux.Terminal

namespace Kvmux.Dropped
open Coroutine Splitting SseParser SseCodec Client Gateway Streaming Attempt Truncation Terminal

-- The frame that is still open at the end of a stretch of bytes: as many blank
-- lines have been read to their end before it.
def openFrame (bytes : Bytes) : Nat := ((bytes.splitOn lf).dropLast.map dropTrailingCr).count []

def frameData (bytes : Bytes) (i : Nat) : Option Bytes := ((groups bytes)[i]?.bind groupEvent).map SseEvent.data

-- A cut after k bytes of a body does no harm when the frame it falls into has no
-- field yet, or already all of its data.
def CutKeeps (body : Bytes) (k : Nat) : Prop :=
  let received := body.take k
  frameData received (openFrame received) = none ∨
    frameData received (openFrame received) = frameData body (openFrame received)

instance (body : Bytes) (k : Nat) : Decidable (CutKeeps body k) :=
  inferInstanceAs (Decidable (_ ∨ _))

theorem dropTrailingCr_long (c d : UInt8) (rest : Bytes) : (dropTrailingCr (c :: d :: rest)).head? = some c := by
  unfold dropTrailingCr
  split <;> rfl

-- More bytes on a line that is not blank leave its first byte alone.
theorem dropTrailingCr_head (more : Bytes) (full : dropTrailingCr line ≠ []) :
    (dropTrailingCr (line ++ more)).head? = (dropTrailingCr line).head? := by
  cases line with
  | nil => exact absurd rfl full
  | cons c rest =>
    cases rest with
    | cons d rest => rw [List.cons_append,List.cons_append,dropTrailingCr_long,dropTrailingCr_long]
    | nil =>
      have other : c ≠ cr := by
        rintro rfl
        exact full rfl
      have single : dropTrailingCr [c] = [c] := by simp [dropTrailingCr,other]
      cases more with
      | nil => rfl
      | cons d more => rw [List.cons_append,List.nil_append,dropTrailingCr_long,single,List.head?_cons]

-- A body and what arrived of it, line by line: `before` are the frames closed so
-- far, `begun` the whole lines of the open one, and `tail` the line it broke off in.
structure Sliced (body received : Bytes) (before : List (List Bytes)) (begun : List Bytes) (tail : Bytes) (rest : List Bytes) :
    Prop where
  part : groups received = before ++ ([dropTrailingCr tail].splitOn []).modifyHead (begun ++ ·)
  whole : groups body = before ++ (rest.splitOn []).modifyHead (begun ++ ·)
  index : openFrame received = before.length
  line : ∃ more others, rest = dropTrailingCr (tail ++ more) :: others

theorem sliced (body : Bytes) (k : Nat) : ∃ before begun tail rest, Sliced body (body.take k) before begun tail rest := by
  obtain ⟨ended,tail,received⟩ := splitOn_open lf (body.take k)
  obtain ⟨before,begun,frames⟩ := splitOn_open [] (ended.map dropTrailingCr)
  have all : body.splitOn lf = ended ++ ((body.drop k).splitOn lf).modifyHead (tail ++ ·) := by
    have joined := splitOn_append received (body.drop k)
    rwa [List.take_append_drop] at joined
  refine ⟨before,begun,tail,(((body.drop k).splitOn lf).modifyHead (tail ++ ·)).map dropTrailingCr,?_,?_,?_,?_⟩
  · rw [groups,lines,received,List.map_append,splitOn_append frames]
    rfl
  · rw [groups,lines,all,List.map_append,splitOn_append frames]
  · have count := splitOn_length [] (ended.map dropTrailingCr)
    rw [frames] at count
    simp only [List.length_append,List.length_singleton] at count
    rw [openFrame,received,List.dropLast_concat]
    omega
  · cases parts : (body.drop k).splitOn lf with
    | nil => exact absurd parts (List.splitOn_ne_nil _ _)
    | cons more others => exact ⟨more,others.map dropTrailingCr,rfl⟩

-- The open frame as it arrived and as the body completes it. Fields it has got
-- are never taken back.
theorem Sliced.frames (slice : Sliced body received before begun tail rest) :
    ∃ cut whole more later, groups received = before ++ cut :: more ∧ more.filterMap groupEvent = [] ∧
      groups body = before ++ whole :: later ∧ (cut.any isField = true → whole.any isField = true) := by
  obtain ⟨added,others,split⟩ := slice.line
  have part := slice.part
  have all := slice.whole
  rw [split] at all
  rw [splitOn_cons] at part all
  by_cases blank : dropTrailingCr tail = []
  · rw [if_pos (by simp [blank])] at part
    cases parts : (dropTrailingCr (tail ++ added) :: others).splitOn [] with
    | nil => exact absurd parts (List.splitOn_ne_nil _ _)
    | cons first later =>
      rw [splitOn_cons] at parts
      rw [parts] at all
      refine ⟨begun,begun ++ first,[[]],later,by simpa using part,rfl,all,fun field => by simp [field]⟩
  · have same := dropTrailingCr_head added blank
    have full : dropTrailingCr (tail ++ added) ≠ [] := by
      intro none
      rw [none] at same
      exact blank (List.head?_eq_none_iff.mp same.symm)
    rw [if_neg (by simpa using blank)] at part
    rw [if_neg (by simpa using full)] at all
    cases parts : others.splitOn [] with
    | nil => exact absurd parts (List.splitOn_ne_nil _ _)
    | cons first later =>
      rw [parts] at all
      refine ⟨begun ++ [dropTrailingCr tail],begun ++ dropTrailingCr (tail ++ added) :: first,[],later,
        by simpa using part,rfl,by simpa using all,?_⟩
      simp only [List.any_append,List.any_cons,List.any_nil,Bool.or_false,Bool.or_eq_true,isField,same]
      rintro (early | own)
      · exact .inl early
      · exact .inr (.inl own)

theorem payloads_groups (bytes : Bytes) : payloads bytes = ((groups bytes).filterMap groupEvent).map SseEvent.data := by
  rw [payloads,(decode_groups bytes).1]

theorem groupEvent_field (field : group.any isField = true) : ∃ ev, groupEvent group = some ev :=
  ⟨_,if_pos field⟩

theorem groupEvent_some (found : groupEvent group = some ev) : group.any isField = true := by
  unfold groupEvent at found
  split at found
  · assumption
  · cases found

theorem cut_payloads (body : Bytes) (k : Nat) : payloads (body.take k) <+: payloads body ↔ CutKeeps body k := by
  obtain ⟨before,begun,tail,rest,slice⟩ := sliced body k
  obtain ⟨cut,whole,more,later,part,quiet,all,fields⟩ := slice.frames
  have index := slice.index
  have got : frameData (body.take k) before.length = (groupEvent cut).map SseEvent.data := by
    simp [frameData,part]
  have completed : frameData body before.length = (groupEvent whole).map SseEvent.data := by
    simp [frameData,all]
  rw [CutKeeps,index,got,completed,payloads_groups,payloads_groups,part,all]
  simp only [List.filterMap_append,List.filterMap_cons,quiet,List.map_append]
  rw [List.prefix_append_right_inj]
  cases found : groupEvent cut with
  | none => simp
  | some ev =>
    obtain ⟨full,complete⟩ := groupEvent_field (fields (groupEvent_some found))
    simp [complete]

-- What a client that takes every write is sent of a response.
theorem streamed_payloads (streamed : Streamed keepAlive b requestBody t sr s) (headed : heads (notes t) = [(b,head)])
    (served : head.status < 400) (delivered : ∀ w ∈ writes (notes t), w.2 = true) :
    clientFrames t = (payloads (arrived head)).map fun payload => (.sink,frame payload) := by
  cases streamed with
  | unreachable | unwritten | unanswered => cases headed
  | refused error only =>
    cases (List.cons.inj headed).1
    omega
  | answered accepted flowed =>
    rename_i other body
    cases (List.cons.inj headed).1
    obtain ⟨-,-,shown,-⟩ := flowed_whole flowed delivered
    change clientFrames body = _
    rw [payloads,List.map_map]
    by_cases none : events head = []
    · rw [none] at shown
      rw [clientFrames,shown,show decode (arrived head) = [] from none]
      rfl
    · exact clientFrames_passed shown none

-- A connection that fails after k bytes of a body: what has been forwarded starts
-- what the whole body would have given exactly when the cut keeps its frame.
theorem dropped_payloads (body : Bytes) (k : Nat) :
    (payloads (body.take k) <+: payloads body ↔ CutKeeps body k) ∧
    ∀ blabels tAdmitted b requestBody keepAlive head t out,
      Runs (streamChat (sink blabels tAdmitted) b requestBody {writer := {keepAlive}}) t out →
      heads (notes t) = [(b,head)] → head.status < 400 → arrived head = body.take k →
      (∀ w ∈ writes (notes t), w.2 = true) →
      clientFrames t = (payloads (body.take k)).map fun payload => (.sink,frame payload) := by
  refine ⟨cut_payloads body k,?_⟩
  intro blabels tAdmitted b requestBody keepAlive head t out path headed served cut delivered
  rw [← cut]
  exact streamed_payloads (streamChat_runs path) headed served delivered

section Sample
open Fleet Mirror

-- The connection drops after eight bytes of an event.
def droppedHead : Head := ⟨200,false,[{block := text "data: ab",code := .failed}]⟩

theorem dropped_invents :
    ¬ payloads ((text "data: abc\n\n").take 8) <+: payloads (text "data: abc\n\n") ∧
    ∃ t verdict, Runs (streamAttempt (sampleEnv ["a"]) (sampleJob true) {route := text "chat_completions"} 0 false false)
      t verdict ∧ arrived droppedHead = (text "data: abc\n\n").take 8 ∧ heads (notes t) = [(0,droppedHead)] ∧
      (clientFrames t).head? = some (.sink,frame (text "ab")) := by
  refine ⟨by decide +kernel,?_⟩
  obtain ⟨t,verdict,path,headed,shown⟩ := attempted_runs
    (fun t => heads (notes t) = [(0,droppedHead)] ∧ (clientFrames t).head? = some (.sink,frame (text "ab")))
    droppedHead 9 (by decide +kernel)
  exact ⟨t,verdict,path,by decide,headed,shown⟩

theorem dropped_payloads_between : CutKeeps (text "data: abc\n\ndata: d\n\n") 10 ∧
    payloads ((text "data: abc\n\ndata: d\n\n").take 10) = [text "abc"] ∧
    [text "abc"] <+: payloads (text "data: abc\n\ndata: d\n\n") := by
  have kept : CutKeeps (text "data: abc\n\ndata: d\n\n") 10 := by decide +kernel
  have cut : payloads ((text "data: abc\n\ndata: d\n\n").take 10) = [text "abc"] := by decide +kernel
  have starts := (dropped_payloads (text "data: abc\n\ndata: d\n\n") 10).1.mpr kept
  exact ⟨kept,cut,cut ▸ starts⟩

end Sample
end Kvmux.Dropped
