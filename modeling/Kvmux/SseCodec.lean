import Mathlib.Data.List.Basic
import Kvmux.SseParser

namespace Kvmux.SseCodec
open SseParser Splitting Transducer

def frame (payload : Bytes) : Bytes := text "data: " ++ payload ++ [lf,lf]

-- The payloads that one data line can carry.
def Plain (payload : Bytes) : Prop := lf ∉ payload ∧ payload.getLast? ≠ some cr

instance : DecidablePred Plain := fun payload =>
  inferInstanceAs (Decidable (lf ∉ payload ∧ payload.getLast? ≠ some cr))

theorem feed_plain (p : Parser) {line : Bytes} (plain : lf ∉ line) :
    feed p line = ([],{p with lineBuf := p.lineBuf ++ line}) := by
  induction line generalizing p with
  | nil => simp [feed]
  | cons c rest ih =>
    have other : c ≠ lf := fun same => plain (by simp [same])
    have later := ih {p with lineBuf := p.lineBuf ++ [c]} (fun member => plain (by simp [member]))
    have first : feedByte p c = ([],{p with lineBuf := p.lineBuf ++ [c]}) := by simp [feedByte,other]
    unfold feed at later ⊢
    rw [run_cons,first,later]
    simp

theorem feed_line (p : Parser) {line : Bytes} (plain : lf ∉ line) (rest : Bytes) :
    feed p (line ++ lf :: rest) =
      ((endLine {p with lineBuf := p.lineBuf ++ line}).1 ++ (feed (endLine {p with lineBuf := p.lineBuf ++ line}).2 rest).1,
        (feed (endLine {p with lineBuf := p.lineBuf ++ line}).2 rest).2) := by
  rw [feed_append,feed_plain p plain]
  unfold feed
  rw [run_cons]
  simp [feedByte]

theorem dropTrailingCr_length (line : Bytes) : (dropTrailingCr line).length ≤ line.length := by
  unfold dropTrailingCr
  split <;> simp

theorem dropTrailingCr_data (value : Bytes) : dropTrailingCr (text "data: " ++ value) = text "data: " ++ dropTrailingCr value := by
  cases value with
  | nil => decide
  | cons c rest =>
    unfold dropTrailingCr
    rw [List.getLast?_append_of_ne_nil _ (by simp)]
    split
    · rw [List.dropLast_append_of_ne_nil (by simp)]
    · rfl

theorem data_line (value : Bytes) :
    endLine {fresh with lineBuf := text "data: " ++ value} =
      ([],{fresh with curData := dropTrailingCr value,haveField := true}) := by
  have bytes : text "data: " = [100,97,116,97,58,32] := rfl
  have name : text "data" = [100,97,116,97] := rfl
  rw [endLine_reads,dropTrailingCr_data,bytes]
  simp [processLine,fieldName,fieldValue,stripLeadingSpace,name,colon,space,fresh]

theorem frame_head {line : Bytes} (plain : lf ∉ line) (rest : Bytes) :
    feed fresh (text "data: " ++ line ++ lf :: rest) =
      feed {fresh with curData := dropTrailingCr line,haveField := true} rest := by
  have mark : lf ∉ text "data: " := by decide
  have whole : lf ∉ text "data: " ++ line := by simp [mark,plain]
  rw [feed_line fresh whole,show fresh.lineBuf = [] from rfl,List.nil_append,data_line]
  rfl

theorem endLine_blank (valid : Settled p) (empty : p.lineBuf = []) : (endLine p).2 = fresh := by
  have closed := dispatch_settled valid
  have blank : endLine p = ((dispatch p).1,{(dispatch p).2 with lineBuf := []}) := by
    unfold endLine
    rw [empty]
    rfl
  rw [blank,closed]
  rfl

theorem endLine_settled (valid : Settled p) : Settled (endLine p).2 := processLine_settled p _ valid

-- Whatever came before, two line feeds close the line and the event.
theorem feed_closes (valid : Settled p) (bytes : Bytes) : (feed p (bytes ++ [lf,lf])).2 = fresh := by
  rw [feed_append]
  have inside := feed_settled valid bytes
  exact endLine_blank (endLine_settled inside) rfl

theorem frame_resets (payload : Bytes) : (feed fresh (frame payload)).2 = fresh :=
  feed_closes fresh_settled (text "data: " ++ payload)

theorem feedByte_quiet (c : UInt8) (field : p.haveField = true) (quiet : (feedByte p c).1 = []) :
    (feedByte p c).2.haveField = true := by
  unfold feedByte at quiet ⊢
  split
  · rename_i ends
    rw [if_pos ends] at quiet
    unfold endLine processLine dispatch at quiet ⊢
    split
    · rename_i blank
      simp [blank,field] at quiet
    · split
      · exact field
      · split
        · rfl
        · split <;> rfl
  · exact field

theorem feed_quiet {bytes : Bytes} (field : p.haveField = true) (quiet : (feed p bytes).1 = []) :
    (feed p bytes).2.haveField = true := by
  induction bytes generalizing p with
  | nil => exact field
  | cons c rest ih =>
    unfold feed at quiet ih ⊢
    rw [run_cons] at quiet ⊢
    obtain ⟨first,later⟩ := List.append_eq_nil_iff.mp quiet
    exact ih (feedByte_quiet c field first) later

theorem split_first (payload : Bytes) :
    lf ∉ payload ∨ ∃ line rest, lf ∉ line ∧ payload = line ++ lf :: rest := by
  by_cases inside : lf ∈ payload
  · obtain ⟨line,rest,equal,plain⟩ := List.eq_append_cons_of_mem inside
    exact .inr ⟨line,rest,plain,equal⟩
  · exact .inl inside

-- A frame opens a field and ends with nothing pending, so it emits.
theorem frame_emits (payload : Bytes) : (feed fresh (frame payload)).1 ≠ [] := by
  intro quiet
  obtain ⟨line,rest,plain,equal⟩ : ∃ line rest, lf ∉ line ∧ frame payload = text "data: " ++ line ++ lf :: rest := by
    rcases split_first payload with plain | ⟨line,rest,plain,equal⟩
    · exact ⟨payload,[lf],plain,rfl⟩
    · exact ⟨line,rest ++ [lf,lf],plain,by simp [frame,equal]⟩
  have ends := frame_resets payload
  rw [equal,frame_head plain] at quiet ends
  have open_ := feed_quiet rfl quiet
  rw [ends] at open_
  cases open_

theorem frame_single {payload : Bytes} (plain : lf ∉ payload) :
    (feed fresh (frame payload)).1 = [⟨dropTrailingCr payload,[]⟩] := by
  have head := frame_head plain [lf]
  have closed : (feed {fresh with curData := dropTrailingCr payload,haveField := true} [lf]).1 =
      [⟨dropTrailingCr payload,[]⟩] := rfl
  unfold frame
  rw [show text "data: " ++ payload ++ [lf,lf] = text "data: " ++ payload ++ lf :: [lf] from rfl,head,closed]

def buffered (p : Parser) : Nat := p.lineBuf.length + p.curData.length

def byteCost (c : UInt8) : Nat := if c = lf then 0 else 1

theorem stripLeadingSpace_length (value : Bytes) : (stripLeadingSpace value).length ≤ value.length := by
  cases value with
  | nil => exact Nat.le_refl _
  | cons c rest =>
    change (if c = space then rest else c :: rest).length ≤ (c :: rest).length
    split <;> simp

theorem fieldValue_length {line : Bytes} (named : fieldName line = text "data") :
    (fieldValue line).length + 1 ≤ line.length := by
  have parts := congrArg List.length (List.takeWhile_append_dropWhile (p := (· != colon)) (l := line))
  have name : (line.takeWhile (· != colon)).length = 4 := congrArg List.length named
  have stripped := stripLeadingSpace_length ((line.dropWhile (· != colon)).drop 1)
  rw [List.length_append] at parts
  rw [List.length_drop] at stripped
  unfold fieldValue
  omega

theorem processLine_pays (p : Parser) (line : Bytes) :
    ((processLine p line).1.map (·.data.length)).sum + (processLine p line).2.curData.length ≤
      p.curData.length + line.length := by
  unfold processLine dispatch
  split
  · split <;> simp
  · split
    · simp
    · split
      · rename_i named
        have short := fieldValue_length named
        dsimp only
        split
        · simp; omega
        · simp; omega
      · split <;> simp

theorem feedByte_pays (p : Parser) (c : UInt8) :
    ((feedByte p c).1.map (·.data.length)).sum + buffered (feedByte p c).2 ≤ buffered p + byteCost c := by
  unfold feedByte byteCost
  split
  · have line := processLine_pays p (dropTrailingCr p.lineBuf)
    have short := dropTrailingCr_length p.lineBuf
    simp only [endLine,buffered,List.length_nil]
    omega
  · simp [buffered]
    omega

theorem byteCost_sum (bytes : Bytes) : (bytes.map byteCost).sum ≤ bytes.length := by
  induction bytes with
  | nil => simp
  | cons c rest ih =>
    have : byteCost c ≤ 1 := by unfold byteCost; split <;> omega
    simp only [List.map_cons,List.sum_cons,List.length_cons]
    omega

-- A line feed inside a payload is never paid back, nor is a final carriage return.
theorem frame_short {payload : Bytes} (unfit : ¬ Plain payload) :
    ((feed fresh (frame payload)).1.map (·.data.length)).sum < payload.length := by
  rcases split_first payload with plain | ⟨line,rest,plain,equal⟩
  · have ends : payload.getLast? = some cr := by
      by_cases ends : payload.getLast? = some cr
      · exact ends
      · exact absurd ⟨plain,ends⟩ unfit
    have full : payload ≠ [] := by
      intro empty
      simp [empty] at ends
    have := List.length_pos_iff.mpr full
    rw [frame_single plain]
    simp [dropTrailingCr,ends]
    omega
  · have split : frame payload = text "data: " ++ line ++ lf :: (rest ++ [lf,lf]) := by simp [frame,equal]
    rw [split,frame_head plain,equal]
    have paid := run_bound (fun ev : SseEvent => ev.data.length) buffered byteCost feedByte_pays
      {fresh with curData := dropTrailingCr line,haveField := true} (rest ++ [lf,lf])
    have first := dropTrailingCr_length line
    have later := byteCost_sum rest
    simp only [buffered,fresh,List.length_nil,List.map_append,List.sum_append,List.map_cons,List.map_nil,List.sum_cons,
      List.sum_nil,byteCost,if_true] at paid
    simp only [List.length_append,List.length_cons,feed,fresh]
    omega

theorem frame_exact (payload : Bytes) : ((feed fresh (frame payload)).1.map (·.data) = [payload]) ↔ Plain payload := by
  constructor
  · intro emitted
    by_contra unfit
    have short := frame_short unfit
    have total := congrArg (fun list => (list.map List.length).sum) emitted
    simp only [List.map_map,List.map_cons,List.map_nil,List.sum_cons,List.sum_nil,Function.comp_def] at total
    omega
  · intro plain
    rw [frame_single plain.1]
    simp [dropTrailingCr,plain.2]

theorem flatMap_self {f : X → List X} {xs : List X} (emits : ∀ x, f x ≠ []) (equal : xs.flatMap f = xs) :
    ∀ x ∈ xs, f x = [x] := by
  have long : ∀ ys : List X, ys.length ≤ (ys.flatMap f).length := by
    intro ys
    induction ys with
    | nil => simp
    | cons y rest ih =>
      have := List.length_pos_iff.mpr (emits y)
      simp only [List.flatMap_cons,List.length_append,List.length_cons]
      omega
  induction xs with
  | nil => simp
  | cons x rest ih =>
    rw [List.flatMap_cons] at equal
    cases first : f x with
    | nil => exact absurd first (emits x)
    | cons y more =>
      rw [first,List.cons_append,List.cons.injEq] at equal
      obtain ⟨rfl,tail⟩ := equal
      have count := congrArg List.length tail
      have bound := long rest
      rw [List.length_append] at count
      have none : more = [] := List.length_eq_zero_iff.mp (by omega)
      subst none
      intro z member
      rcases List.mem_cons.mp member with rfl | later
      · exact first
      · exact ih tail z later

def frames (payloads : List Bytes) : Bytes := (payloads.map frame).flatten

theorem feed_frames (payloads : List Bytes) :
    feed fresh (frames payloads) = (payloads.flatMap fun payload => (feed fresh (frame payload)).1,fresh) := by
  have blocks : run feed fresh (payloads.map frame) = feed fresh (frames payloads) := run_blocks fresh (payloads.map frame)
  rw [← blocks,run_reset]
  · rw [List.flatMap_map]
  · intro block member
    obtain ⟨payload,_,rfl⟩ := List.mem_map.mp member
    exact frame_resets payload

theorem frames_exact (payloads : List Bytes) :
    (feed fresh (frames payloads)).1.map (·.data) = payloads ↔ ∀ payload ∈ payloads, Plain payload := by
  rw [feed_frames,List.map_flatMap]
  constructor
  · intro equal payload member
    have emits : ∀ payload, (feed fresh (frame payload)).1.map (·.data) ≠ [] := by
      intro payload
      simpa using frame_emits payload
    exact (frame_exact payload).mp (flatMap_self emits equal payload member)
  · intro plain
    induction payloads with
    | nil => rfl
    | cons payload rest ih =>
      have first := (frame_exact payload).mpr (plain payload (by simp))
      rw [List.flatMap_cons,first,ih fun other member => plain other (by simp [member])]
      rfl

theorem codec_domain (payloads chunks : List Bytes) (split : chunks.flatten = frames payloads) :
    ((run feed fresh chunks).1.map (·.data) = payloads ∧ (run feed fresh chunks).2 = fresh) ↔
      ∀ payload ∈ payloads, Plain payload := by
  have whole : run feed fresh chunks = feed fresh (frames payloads) := by
    rw [← split]
    exact run_blocks fresh chunks
  rw [whole,← frames_exact payloads]
  exact and_iff_left (by rw [feed_frames])

theorem codec_domain_bytewise :
    (run feed fresh ((frames [text "a",[]]).map fun c => [c])).1.map (·.data) = [text "a",[]] :=
  ((codec_domain [text "a",[]] ((frames [text "a",[]]).map fun c => [c]) (by decide)).mpr
    (by decide)).1

def payloads (bytes : Bytes) : List Bytes := (decode bytes).map (·.data)

def restream (bytes : Bytes) : Bytes := frames (payloads bytes)

theorem decode_frames (emitted : List Bytes) : payloads (frames emitted) = (feed fresh (frames emitted)).1.map (·.data) := by
  have idle : (flush fresh).1 = [] := rfl
  unfold payloads decode
  rw [feed_frames]
  simp [idle]

-- A group whose data fits one line: once the leading empty values are dropped,
-- at most one is left, and it does not end in a carriage return.
def OneLine (values : List Bytes) : Prop :=
  match values.dropWhile List.isEmpty with
  | [] => True
  | [value] => value.getLast? ≠ some cr
  | _ => False

theorem joinValues_plain {values : List Bytes} (inline : ∀ value ∈ values, lf ∉ value) :
    Plain (joinValues values) ↔ OneLine values := by
  have kept : ∀ value ∈ values.dropWhile List.isEmpty, lf ∉ value := by
    intro value member
    exact inline value ((List.dropWhile_sublist _).mem member)
  unfold Plain joinValues OneLine
  cases rest : values.dropWhile List.isEmpty with
  | nil => simp [List.intercalate]
  | cons first more =>
    cases more with
    | nil =>
      have inside := kept first (by simp [rest])
      simp [List.intercalate,inside]
    | cons second others => simp [List.intercalate]

theorem fieldValue_inline {line : Bytes} (inline : lf ∉ line) : lf ∉ fieldValue line := by
  intro inside
  have kept : lf ∈ (line.dropWhile (· != colon)).drop 1 := by
    unfold fieldValue stripLeadingSpace at inside
    split at inside
    · cases inside
    · rename_i c rest equal
      rw [equal]
      split at inside
      · exact List.mem_cons_of_mem c inside
      · exact inside
  exact inline ((List.dropWhile_sublist _).mem (List.mem_of_mem_drop kept))

theorem line_inline (member : line ∈ lines bytes) : lf ∉ line := by
  obtain ⟨part,inside,rfl⟩ := List.mem_map.mp member
  intro found
  have kept : lf ∈ part := by
    unfold dropTrailingCr at found
    split at found
    · exact (List.dropLast_sublist _).mem found
    · exact found
  exact (splitOn_mem inside kept).2 rfl

theorem group_inline (member : group ∈ groups bytes) : ∀ value ∈ dataValues group, lf ∉ value := by
  intro value found
  obtain ⟨line,kept,rfl⟩ := List.mem_map.mp found
  have inside := (List.mem_filter.mp kept).1
  exact fieldValue_inline (line_inline (splitOn_mem member inside).1)

theorem group_plain (member : group ∈ groups bytes) :
    (∀ ev, groupEvent group = some ev → Plain ev.data) ↔ OneLine (dataValues group) := by
  rw [← joinValues_plain (group_inline member)]
  unfold groupEvent
  split
  · simp
  · rename_i bare
    have none : dataValues group = [] := valuesOf_bare _ (by simpa using bare)
    rw [none]
    simp [joinValues,List.intercalate,Plain]

theorem restream_transparent (bytes : Bytes) :
    payloads (restream bytes) = payloads bytes ↔ ∀ group ∈ groups bytes, OneLine (dataValues group) := by
  unfold restream
  rw [decode_frames,frames_exact]
  unfold payloads
  rw [(decode_groups bytes).1]
  constructor
  · intro plain group member
    refine (group_plain member).mp fun ev event => plain ev.data ?_
    exact List.mem_map.mpr ⟨ev,List.mem_filterMap.mpr ⟨group,member,event⟩,rfl⟩
  · intro single payload member
    obtain ⟨ev,emitted,rfl⟩ := List.mem_map.mp member
    obtain ⟨group,inside,event⟩ := List.mem_filterMap.mp emitted
    exact (group_plain inside).mpr (single group inside) ev event

theorem restream_splits_lines :
    payloads (text "data: a\ndata: b\n\n") = [text "a\nb"] ∧
    payloads (restream (text "data: a\ndata: b\n\n")) = [text "a"] := by decide

end Kvmux.SseCodec
