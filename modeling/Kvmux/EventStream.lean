import Mathlib.Data.List.Basic
import Kvmux.SseBatch

namespace Kvmux.EventStream
open Splitting Transducer SseParser SseBatch

-- The event-stream format as the standard interprets it. A line ends at a line
-- feed, at a carriage return, or at a pair of them; what is not ended is no line.
def splitLines : Bool → Bytes → Bytes → List Bytes
  | _,_,[] => []
  | afterCr,line,c :: rest =>
    if c = lf then (if afterCr then splitLines false [] rest else line :: splitLines false [] rest)
    else if c = cr then line :: splitLines true [] rest
    else splitLines false (line ++ [c]) rest

def bom : Bytes := [0xEF,0xBB,0xBF]

def withoutBom (bytes : Bytes) : Bytes := if bom <+: bytes then bytes.drop bom.length else bytes

structure Buffers where
  data : Bytes := []
  eventType : Bytes := []
  deriving DecidableEq, Repr

def dropTrailingLf (data : Bytes) : Bytes := if data.getLast? = some lf then data.dropLast else data

-- Dispatching emits the data buffer unless it is empty, and clears both buffers.
def dispatchBuffers (s : Buffers) : List Bytes × Buffers :=
  if s.data = [] then ([],{}) else ([dropTrailingLf s.data],{})

-- The fields id and retry do not touch the buffers, nor do unknown ones.
def interpret (s : Buffers) (line : Bytes) : List Bytes × Buffers :=
  if line = [] then dispatchBuffers s
  else if line.head? = some colon then ([],s)
  else if (batchField line).1 = text "event" then ([],{s with eventType := (batchField line).2})
  else if (batchField line).1 = text "data" then ([],{s with data := s.data ++ (batchField line).2 ++ [lf]})
  else ([],s)

def payloads (bytes : Bytes) : List Bytes := (run interpret {} (splitLines false [] (withoutBom bytes))).1

section Lines

def CrOnlyBeforeLf (bytes : Bytes) : Prop := ∀ i < bytes.length, bytes[i]? = some cr → bytes[i + 1]? = some lf

instance : DecidablePred CrOnlyBeforeLf := fun bytes =>
  inferInstanceAs (Decidable (∀ i < bytes.length, bytes[i]? = some cr → bytes[i + 1]? = some lf))

theorem CrOnlyBeforeLf.tail (paired : CrOnlyBeforeLf (c :: rest)) : CrOnlyBeforeLf rest := by
  intro i bound found
  exact paired (i + 1) (Nat.succ_lt_succ bound) found

theorem CrOnlyBeforeLf.head (paired : CrOnlyBeforeLf (cr :: rest)) : rest.head? = some lf := by
  have next := paired 0 (Nat.zero_lt_succ _) rfl
  rwa [List.head?_eq_getElem?]

def completeLines (bytes : Bytes) : List Bytes := (bytes.splitOn lf).dropLast.map dropTrailingCr

theorem dropTrailingCr_bare (bare : cr ∉ line) : dropTrailingCr line = line := by
  unfold dropTrailingCr
  rw [if_neg fun last => bare (List.mem_of_getLast? last)]

theorem dropTrailingCr_snoc (line : Bytes) : dropTrailingCr (line ++ [cr]) = line := by
  simp [dropTrailingCr]

-- The second part is about a stream whose first line feed closes a pair.
theorem splitLines_complete (paired : CrOnlyBeforeLf bytes) :
    (∀ line, cr ∉ line → splitLines false line bytes =
      ((bytes.splitOn lf).modifyHead (line ++ ·)).dropLast.map dropTrailingCr) ∧
    (bytes.head? = some lf → splitLines true [] bytes = (bytes.splitOn lf).tail.dropLast.map dropTrailingCr) := by
  induction bytes with
  | nil => exact ⟨fun _ _ => rfl,fun head => by cases head⟩
  | cons c rest ih =>
    obtain ⟨first,second⟩ := ih paired.tail
    have later := first [] List.not_mem_nil
    rw [modifyHead_nil] at later
    constructor
    · intro line bare
      rw [splitOn_cons,splitLines]
      by_cases ends : c = lf
      · rw [if_pos ends,if_neg (by decide),later,if_pos (by simp [ends]),List.modifyHead_cons,
          List.dropLast_cons_of_ne_nil (List.splitOn_ne_nil _ _),List.map_cons,List.append_nil,dropTrailingCr_bare bare]
      · have kept : (c == lf) = false := by simpa using ends
        rw [if_neg ends,kept,if_neg Bool.false_ne_true]
        by_cases pair : c = cr
        · subst pair
          have next := paired.head
          cases rest with
          | nil => cases next
          | cons d more =>
            cases Option.some.inj next
            rw [if_pos rfl,second rfl,splitOn_cons,if_pos BEq.rfl]
            simp [List.dropLast_cons_of_ne_nil,dropTrailingCr_snoc]
        · have inside : cr ∉ line ++ [c] := by simp [bare,Ne.symm pair]
          rw [if_neg pair,first _ inside]
          simp [Function.comp_def]
    · intro head
      cases Option.some.inj head
      rw [splitLines,if_pos rfl,if_pos rfl,later,splitOn_cons,if_pos BEq.rfl,List.tail_cons]

-- What feed emits is decided by the lines that a line feed has ended.
theorem feed_complete (p : Parser) (bytes : Bytes) :
    (feed p bytes).1 = (run processLine {p with lineBuf := []}
      (((bytes.splitOn lf).modifyHead (p.lineBuf ++ ·)).dropLast.map dropTrailingCr)).1 := by
  induction bytes generalizing p with
  | nil => rfl
  | cons c rest ih =>
    have first : (feed p (c :: rest)).1 = (feedByte p c).1 ++ (feed (feedByte p c).2 rest).1 := rfl
    rw [first,splitOn_cons]
    by_cases ends : c = lf
    · have read : feedByte p c = endLine p := by simp [feedByte,ends]
      have later := ih (endLine p).2
      rw [show (endLine p).2.lineBuf = [] from rfl,modifyHead_nil] at later
      rw [read,later,if_pos (by simp [ends]),List.modifyHead_cons,List.dropLast_cons_of_ne_nil (List.splitOn_ne_nil _ _),
        List.map_cons,List.append_nil,run_cons,← endLine_reads]
      rfl
    · have read : feedByte p c = ([],{p with lineBuf := p.lineBuf ++ [c]}) := by simp [feedByte,ends]
      have later := ih {p with lineBuf := p.lineBuf ++ [c]}
      rw [read,later,if_neg (by simpa using ends)]
      simp [Function.comp_def]

end Lines
section Groups

-- The groups of lines that a blank line has ended.
def completed (bytes : Bytes) : List (List Bytes) := ((completeLines bytes).splitOn []).dropLast

theorem feed_groups (bytes : Bytes) : (feed fresh bytes).1 = (completed bytes).filterMap groupEvent := by
  have closes : ∀ group, processLine (pending group) [] = ((groupEvent group).toList,pending []) := dispatch_pending
  have parts := run_parts closes (fun group line full => processLine_pending group full) [] (completeLines bytes)
  have fed := feed_complete fresh bytes
  rw [show fresh.lineBuf = [] from rfl,modifyHead_nil] at fed
  rw [modifyHead_nil] at parts
  rw [List.filterMap_eq_flatMap_toList]
  exact fed.trans parts

def groupPayload (group : List Bytes) : Option Bytes :=
  if dataValues group = [] then none else some ([lf].intercalate (dataValues group))

-- The buffers between two lines of a group that has been read so far.
def buffered (group : List Bytes) : Buffers :=
  ⟨(dataValues group).flatMap (· ++ [lf]),(eventValues group).getLast?.getD []⟩

theorem flatMap_ended (some : values ≠ []) : values.flatMap (· ++ [lf]) = [lf].intercalate values ++ [lf] := by
  induction values with
  | nil => exact absurd rfl some
  | cons value rest ih =>
    cases rest with
    | nil => simp [List.intercalate]
    | cons next more =>
      rw [List.flatMap_cons,ih (by simp)]
      simp [List.intercalate]

theorem dispatch_buffered (group : List Bytes) :
    dispatchBuffers (buffered group) = ((groupPayload group).toList,buffered []) := by
  unfold dispatchBuffers groupPayload buffered
  by_cases none : dataValues group = []
  · rw [none]
    rfl
  · rw [flatMap_ended none,if_neg none,if_neg (by simp)]
    simp [dropTrailingLf,dataValues,eventValues,valuesOf]

theorem interpret_buffered (group : List Bytes) (full : line ≠ []) :
    interpret (buffered group) line = ([],buffered (group ++ [line])) := by
  unfold interpret
  rw [if_neg full,batchField_parts]
  split
  · rename_i comment
    have : isField line = false := by simp [isField,comment]
    simp [buffered,dataValues,eventValues,valuesOf_snoc,this]
  · rename_i plain
    have field : isField line = true := by simpa [isField] using plain
    have differ : text "data" ≠ text "event" := by decide
    split
    · rename_i named
      dsimp only at named
      simp [buffered,dataValues,eventValues,valuesOf_snoc,field,named,differ.symm]
    · rename_i other
      dsimp only at other
      split
      · rename_i named
        dsimp only at named
        simp [buffered,dataValues,eventValues,valuesOf_snoc,field,named,differ]
      · rename_i unnamed
        dsimp only at unnamed
        simp [buffered,dataValues,eventValues,valuesOf_snoc,field,other,unnamed]

theorem payloads_groups (plain : ¬bom <+: bytes) (paired : CrOnlyBeforeLf bytes) :
    payloads bytes = (completed bytes).filterMap groupPayload := by
  have closes : ∀ group, interpret (buffered group) [] = ((groupPayload group).toList,buffered []) := dispatch_buffered
  have parts := run_parts closes (fun group line full => interpret_buffered group full) [] (completeLines bytes)
  have read := (splitLines_complete paired).1 [] List.not_mem_nil
  rw [modifyHead_nil] at read parts
  rw [payloads,withoutBom,if_neg plain,read,List.filterMap_eq_flatMap_toList]
  exact parts

end Groups
section Conformance

-- The event has a data field, and an empty first one is its only one.
def Regular (group : List Bytes) : Prop :=
  group.any isField = true → dataValues group ≠ [] ∧ ((dataValues group).head? = some [] → (dataValues group).length = 1)

instance : DecidablePred Regular := fun group =>
  inferInstanceAs (Decidable (group.any isField = true → dataValues group ≠ [] ∧
    ((dataValues group).head? = some [] → (dataValues group).length = 1)))

-- Two readings agree on a list if and only if they agree on every element, when
-- whatever the second one finds the first one finds as well.
theorem filterMap_eq_iff {X Y : Type} {one two : X → Option Y} (more : ∀ x, (two x).isSome → (one x).isSome) (xs : List X) :
    xs.filterMap one = xs.filterMap two ↔ ∀ x ∈ xs, one x = two x := by
  have shorter : ∀ xs : List X, (xs.filterMap two).length ≤ (xs.filterMap one).length := by
    intro xs
    rw [List.length_filterMap_eq_countP,List.length_filterMap_eq_countP]
    exact List.countP_mono_left fun x _ => more x
  refine ⟨fun same => ?_,List.filterMap_congr⟩
  induction xs with
  | nil => exact List.forall_mem_nil _
  | cons x rest ih =>
    have found := more x
    have fewer := shorter rest
    cases first : one x with
    | none =>
      cases second : two x with
      | none =>
        rw [List.filterMap_cons_none first,List.filterMap_cons_none second] at same
        exact List.forall_mem_cons.mpr ⟨first.trans second.symm,ih same⟩
      | some y => simp [first,second] at found
    | some y =>
      cases second : two x with
      | none =>
        rw [List.filterMap_cons_some first,List.filterMap_cons_none second] at same
        have length := congrArg List.length same
        rw [List.length_cons] at length
        omega
      | some z =>
        rw [List.filterMap_cons_some first,List.filterMap_cons_some second] at same
        obtain ⟨rfl,later⟩ := List.cons.inj same
        exact List.forall_mem_cons.mpr ⟨first.trans second.symm,ih later⟩

theorem intercalate_cons (value next : Bytes) (more : List Bytes) :
    [lf].intercalate (value :: next :: more) = value ++ lf :: [lf].intercalate (next :: more) := by
  simp [List.intercalate]

theorem joinValues_shorter (values : List Bytes) : (joinValues values).length ≤ ([lf].intercalate values).length := by
  induction values with
  | nil => exact Nat.le_refl 0
  | cons value rest ih =>
    cases value with
    | cons c more => exact Nat.le_refl _
    | nil =>
      cases rest with
      | nil => exact Nat.le_refl 0
      | cons next more =>
        rw [intercalate_cons]
        exact Nat.le_succ_of_le ih

theorem joinValues_whole (given : values ≠ []) :
    joinValues values = [lf].intercalate values ↔ (values.head? = some [] → values.length = 1) := by
  cases values with
  | nil => exact absurd rfl given
  | cons value rest =>
    cases value with
    | cons c more => exact ⟨fun _ head => absurd head (by simp),fun _ => rfl⟩
    | nil =>
      cases rest with
      | nil => exact ⟨fun _ _ => rfl,fun _ => rfl⟩
      | cons next more =>
        refine ⟨fun same => ?_,fun single => ?_⟩
        · have shorter := joinValues_shorter (next :: more)
          have length := congrArg List.length same
          rw [intercalate_cons,List.nil_append,List.length_cons] at length
          change (joinValues (next :: more)).length = _ at length
          omega
        · cases single rfl

theorem regular_iff (group : List Bytes) : (groupEvent group).map SseEvent.data = groupPayload group ↔ Regular group := by
  unfold groupEvent groupPayload Regular
  cases field : group.any isField with
  | false =>
    have bare : dataValues group = [] := valuesOf_bare _ field
    simp [bare]
  | true =>
    by_cases none : dataValues group = []
    · simp [none]
    · simp [none,joinValues_whole none]

-- However the stream is cut into chunks.
theorem payloads_conform (chunks : List Bytes) (plain : ¬bom <+: chunks.flatten) (paired : CrOnlyBeforeLf chunks.flatten) :
    (run feed fresh chunks).1.map SseEvent.data = payloads chunks.flatten ↔
      ∀ group ∈ completed chunks.flatten, Regular group := by
  have fed : run feed fresh chunks = feed fresh chunks.flatten := run_blocks fresh chunks
  have more : ∀ group, (groupPayload group).isSome → ((groupEvent group).map SseEvent.data).isSome := by
    intro group found
    unfold groupPayload at found
    split at found
    · cases found
    · rename_i given
      have field : group.any isField = true := by
        by_contra bare
        exact given (valuesOf_bare _ (by simpa using bare))
      simp [groupEvent,field]
  rw [fed,feed_groups,payloads_groups plain paired,List.map_filterMap,filterMap_eq_iff more]
  exact forall₂_congr fun group _ => regular_iff group

-- Two frames, cut in the middle of a pair of line ends.
theorem payloads_conform_frames :
    (run feed fresh [text "data: a\r",text "\ndata\n\ndata:\n\n"]).1.map SseEvent.data = [text "a\n",[]] := by
  exact ((payloads_conform _ (by decide) (by decide)).mpr (by decide)).trans (by decide)

-- A field that is no data, and an empty first data field.
theorem payloads_diverge :
    (feed fresh (text "event: ping\n\n")).1.map SseEvent.data = [[]] ∧ payloads (text "event: ping\n\n") = [] ∧
    (feed fresh (text "data:\ndata: x\n\n")).1.map SseEvent.data = [text "x"] ∧
    payloads (text "data:\ndata: x\n\n") = [text "\nx"] := by
  decide

end Conformance
end Kvmux.EventStream
