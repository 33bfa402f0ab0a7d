import Mathlib.Data.List.Basic
import Kvmux.Bytes
import Kvmux.Splitting
import Kvmux.Transducer

namespace Kvmux.SseParser
open Splitting Transducer

structure SseEvent where
  data : Bytes
  event : Bytes := []
  deriving DecidableEq, Repr

def SseEvent.isDone (ev : SseEvent) : Bool := ev.data == text "[DONE]"

structure Parser where
  lineBuf : Bytes := []
  curData : Bytes := []
  curEvent : Bytes := []
  haveField : Bool := false
  deriving DecidableEq, Repr

def fresh : Parser := {}

def stripLeadingSpace : Bytes → Bytes
  | [] => []
  | c :: rest => if c = space then rest else c :: rest

def dropTrailingCr (line : Bytes) : Bytes := if line.getLast? = some cr then line.dropLast else line

def dispatch (p : Parser) : List SseEvent × Parser :=
  if p.haveField then ([⟨p.curData,p.curEvent⟩],{p with curData := [],curEvent := [],haveField := false})
  else ([],p)

def fieldName (line : Bytes) : Bytes := line.takeWhile (· != colon)

-- A line with no colon is a field name with an empty value.
def fieldValue (line : Bytes) : Bytes := stripLeadingSpace ((line.dropWhile (· != colon)).drop 1)

def processLine (p : Parser) (line : Bytes) : List SseEvent × Parser :=
  if line = [] then dispatch p
  else if line.head? = some colon then ([],p)
  else if fieldName line = text "data" then
    let joined := if p.curData.isEmpty then fieldValue line else p.curData ++ lf :: fieldValue line
    ([],{p with haveField := true,curData := joined})
  else if fieldName line = text "event" then ([],{p with haveField := true,curEvent := fieldValue line})
  else ([],{p with haveField := true})

-- A line read to its end: at most one trailing carriage return is dropped.
def endLine (p : Parser) : List SseEvent × Parser :=
  let out := processLine p (dropTrailingCr p.lineBuf)
  (out.1,{out.2 with lineBuf := []})

def feedByte (p : Parser) (c : UInt8) : List SseEvent × Parser :=
  if c = lf then endLine p else ([],{p with lineBuf := p.lineBuf ++ [c]})

def feed (p : Parser) (chunk : Bytes) : List SseEvent × Parser := run feedByte p chunk

-- The buffered partial line counts as a complete one. The flag tells only
-- whether the dispatch after it emitted an event.
def flush (p : Parser) : List SseEvent × Parser × Bool :=
  let line := if p.lineBuf = [] then ([],p) else endLine p
  let last := dispatch line.2
  (line.1 ++ last.1,last.2,line.2.haveField)

def decode (bytes : Bytes) : List SseEvent :=
  let fed := feed fresh bytes
  fed.1 ++ (flush fed.2).1

theorem feed_append (p : Parser) (one two : Bytes) :
    feed p (one ++ two) = ((feed p one).1 ++ (feed (feed p one).2 two).1,(feed (feed p one).2 two).2) :=
  run_append p one two

-- Nothing is pending while no field has been seen.
def Settled (p : Parser) : Prop := p.haveField = false → p.curData = [] ∧ p.curEvent = []

theorem dispatch_settled (valid : Settled p) :
    (dispatch p).2 = {p with curData := [],curEvent := [],haveField := false} := by
  unfold dispatch
  split
  · rfl
  · rename_i idle
    obtain ⟨data,event⟩ := valid (by simpa using idle)
    cases p
    simp_all

theorem processLine_settled (p : Parser) (line : Bytes) (valid : Settled p) : Settled (processLine p line).2 := by
  unfold processLine
  split
  · rw [dispatch_settled valid]
    intro _
    exact ⟨rfl,rfl⟩
  · split
    · exact valid
    · split
      · intro idle; cases idle
      · split <;> (intro idle; cases idle)

theorem feedByte_settled (p : Parser) (c : UInt8) (valid : Settled p) : Settled (feedByte p c).2 := by
  unfold feedByte
  split
  · exact processLine_settled p _ valid
  · exact valid

theorem feed_settled (valid : Settled p) (chunk : Bytes) : Settled (feed p chunk).2 :=
  run_invariant feedByte_settled valid chunk

theorem fresh_settled : Settled fresh := fun _ => ⟨rfl,rfl⟩

-- The same reading stated on whole streams: lines end at a line feed, groups of
-- lines at a blank line, and a group with a field is one event.
def isField (line : Bytes) : Bool := line.head? != some colon

def valuesOf (name : Bytes) (group : List Bytes) : List Bytes :=
  (group.filter fun line => isField line && fieldName line == name).map fieldValue

def dataValues (group : List Bytes) : List Bytes := valuesOf (text "data") group

def eventValues (group : List Bytes) : List Bytes := valuesOf (text "event") group

def joinValues (values : List Bytes) : Bytes := [lf].intercalate (values.dropWhile List.isEmpty)

def groupEvent (group : List Bytes) : Option SseEvent :=
  if group.any isField then some ⟨joinValues (dataValues group),(eventValues group).getLast?.getD []⟩ else none

def lines (bytes : Bytes) : List Bytes := (bytes.splitOn lf).map dropTrailingCr

def groups (bytes : Bytes) : List (List Bytes) := (lines bytes).splitOn []

theorem intercalate_snoc (sep value : Bytes) {values : List Bytes} (some : values ≠ []) :
    sep.intercalate (values ++ [value]) = sep.intercalate values ++ sep ++ value := by
  induction values with
  | nil => exact absurd rfl some
  | cons first rest ih =>
    cases rest with
    | nil => simp [List.intercalate]
    | cons second more =>
      have tail := ih (by simp)
      simp only [List.intercalate,List.cons_append,List.intersperse_cons_cons,List.flatten_cons,List.append_assoc] at tail ⊢
      rw [tail]

theorem joinValues_empty {values : List Bytes} (empty : joinValues values = []) : values.dropWhile List.isEmpty = [] := by
  unfold joinValues at empty
  cases rest : values.dropWhile List.isEmpty with
  | nil => rfl
  | cons first more =>
    have full := List.head_dropWhile_not List.isEmpty (l := values) (by simp [rest])
    cases more <;> simp_all [List.intercalate]

theorem joinValues_snoc (values : List Bytes) (value : Bytes) :
    joinValues (values ++ [value]) =
      if (joinValues values).isEmpty then value else joinValues values ++ lf :: value := by
  split
  · rename_i empty
    have dropped := joinValues_empty (List.isEmpty_iff.mp empty)
    cases value <;> simp [joinValues,List.dropWhile_append,dropped,List.intercalate]
  · rename_i full
    have kept : values.dropWhile List.isEmpty ≠ [] := by
      intro dropped
      exact full (by simp [joinValues,dropped,List.intercalate])
    simp only [joinValues,List.dropWhile_append,List.isEmpty_iff,kept,if_false]
    rw [intercalate_snoc _ _ kept]
    simp

-- The parser between two lines of a group it has read so far.
def pending (group : List Bytes) : Parser :=
  {curData := joinValues (dataValues group),curEvent := (eventValues group).getLast?.getD [],haveField := group.any isField}

theorem valuesOf_bare (name : Bytes) {group : List Bytes} (none : group.any isField = false) : valuesOf name group = [] := by
  simp only [valuesOf,List.map_eq_nil_iff,List.filter_eq_nil_iff]
  intro line member
  have := List.any_eq_false.mp none line member
  simp_all

theorem dispatch_pending (group : List Bytes) : dispatch (pending group) = ((groupEvent group).toList,fresh) := by
  cases field : group.any isField with
  | true => simp [dispatch,groupEvent,pending,field,fresh]
  | false => simp [dispatch,groupEvent,pending,field,dataValues,eventValues,valuesOf_bare _ field,joinValues,List.intercalate,fresh]

theorem valuesOf_snoc (name : Bytes) (group : List Bytes) (line : Bytes) :
    valuesOf name (group ++ [line]) =
      if isField line && fieldName line == name then valuesOf name group ++ [fieldValue line] else valuesOf name group := by
  unfold valuesOf
  split <;> simp_all

theorem processLine_pending (group : List Bytes) {line : Bytes} (full : line ≠ []) :
    processLine (pending group) line = ([],pending (group ++ [line])) := by
  unfold processLine
  rw [if_neg full]
  split
  · rename_i comment
    have : isField line = false := by simp [isField,comment]
    simp [pending,dataValues,eventValues,valuesOf_snoc,this]
  · rename_i plain
    have field : isField line = true := by simpa [isField] using plain
    have differ : text "data" ≠ text "event" := by decide
    split
    · rename_i named
      simp [pending,dataValues,eventValues,valuesOf_snoc,field,named,differ,joinValues_snoc]
    · rename_i other
      split
      · rename_i named
        simp [pending,dataValues,eventValues,valuesOf_snoc,field,named,differ.symm]
      · rename_i unnamed
        simp [pending,dataValues,eventValues,valuesOf_snoc,field,other,unnamed]

-- Reading on from the middle of a group extends the first group still to come.
theorem lines_groups (group ls : List Bytes) :
    (run processLine (pending group) ls).1 ++ (dispatch (run processLine (pending group) ls).2).1 =
      ((ls.splitOn []).modifyHead (group ++ ·)).filterMap groupEvent ∧
    (dispatch (run processLine (pending group) ls).2).2 = fresh := by
  induction ls generalizing group with
  | nil =>
    rw [run_nil,dispatch_pending]
    cases event : groupEvent group <;> simp [event]
  | cons line rest ih =>
    rw [run_cons,splitOn_cons]
    by_cases blank : line = []
    · have closed : processLine (pending group) line = ((groupEvent group).toList,pending []) := by
        rw [blank]; exact dispatch_pending group
      obtain ⟨later,ends⟩ := ih []
      rw [modifyHead_nil] at later
      rw [closed]
      refine ⟨?_,ends⟩
      cases event : groupEvent group <;> simp [blank,event,later]
    · obtain ⟨later,ends⟩ := ih (group ++ [line])
      rw [processLine_pending group blank]
      refine ⟨?_,ends⟩
      simp [blank,later,Function.comp_def]

theorem processLine_buffer (p : Parser) (line buffer : Bytes) :
    processLine {p with lineBuf := buffer} line =
      ((processLine p line).1,{(processLine p line).2 with lineBuf := buffer}) := by
  unfold processLine dispatch
  split
  · split <;> rfl
  · split
    · rfl
    · split
      · rfl
      · split <;> rfl

theorem endLine_reads (p : Parser) : endLine p = processLine {p with lineBuf := []} (dropTrailingCr p.lineBuf) :=
  (processLine_buffer p _ []).symm

theorem flush_line (p : Parser) :
    (flush p).1 = (endLine p).1 ++ (dispatch (endLine p).2).1 ∧ (flush p).2.1 = (dispatch (endLine p).2).2 := by
  unfold flush
  split
  · rename_i empty
    have blank : endLine p = dispatch p := by
      rw [endLine_reads,empty]
      cases p
      simp_all [processLine,dropTrailingCr]
    have idle : dispatch (dispatch p).2 = ([],(dispatch p).2) := by
      unfold dispatch
      split <;> simp_all
    simp [blank,idle]
  · exact ⟨rfl,rfl⟩

-- Reading bytes from the middle of a line extends the first line still to come.
theorem feed_lines (p : Parser) (bytes : Bytes) :
    let read := run processLine {p with lineBuf := []} (((bytes.splitOn lf).modifyHead (p.lineBuf ++ ·)).map dropTrailingCr)
    (feed p bytes).1 ++ (flush (feed p bytes).2).1 = read.1 ++ (dispatch read.2).1 ∧
    (flush (feed p bytes).2).2.1 = (dispatch read.2).2 := by
  induction bytes generalizing p with
  | nil =>
    have last := flush_line p
    rw [endLine_reads] at last
    simpa [feed] using last
  | cons c rest ih =>
    have first : feed p (c :: rest) = ((feedByte p c).1 ++ (feed (feedByte p c).2 rest).1,(feed (feedByte p c).2 rest).2) := rfl
    rw [first,splitOn_cons]
    by_cases ends : c = lf
    · have read : feedByte p c = endLine p := by simp [feedByte,ends]
      have cleared : {(endLine p).2 with lineBuf := []} = (endLine p).2 := rfl
      have later := ih (endLine p).2
      rw [cleared,show (endLine p).2.lineBuf = [] from rfl,modifyHead_nil] at later
      rw [read]
      simp only [ends,BEq.rfl,if_true,List.modifyHead_cons,List.map_cons,List.append_nil,run_cons,← endLine_reads]
      rw [List.append_assoc,later.1,List.append_assoc]
      exact ⟨rfl,later.2⟩
    · have read : feedByte p c = ([],{p with lineBuf := p.lineBuf ++ [c]}) := by simp [feedByte,ends]
      have later := ih {p with lineBuf := p.lineBuf ++ [c]}
      rw [read]
      simpa [ends,Function.comp_def] using later

theorem decode_groups (bytes : Bytes) :
    decode bytes = (groups bytes).filterMap groupEvent ∧ (flush (feed fresh bytes).2).2.1 = fresh := by
  have read := feed_lines fresh bytes
  have whole := lines_groups [] (lines bytes)
  rw [show fresh.lineBuf = [] from rfl,modifyHead_nil] at read
  rw [modifyHead_nil] at whole
  exact ⟨read.1.trans whole.1,read.2.trans whole.2⟩

end Kvmux.SseParser
