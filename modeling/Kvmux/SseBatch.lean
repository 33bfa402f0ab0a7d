import Mathlib.Data.List.TakeDrop
import Kvmux.SseParser

namespace Kvmux.SseBatch
open Splitting Transducer SseParser

def batchField (line : Bytes) : Bytes × Bytes :=
  match line.span (· != colon) with
  | (name,[]) => (name,[])
  | (name,_ :: value) => (name,stripLeadingSpace value)

theorem batchField_parts (line : Bytes) : batchField line = (fieldName line,fieldValue line) := by
  unfold batchField fieldName fieldValue
  rw [List.span_eq_takeWhile_dropWhile]
  cases line.dropWhile (· != colon) <;> rfl

section Flushing

theorem dropTrailingCr_blank (full : line ≠ []) : dropTrailingCr line = [] ↔ line = [cr] := by
  obtain ⟨front,last,rfl⟩ := (List.eq_nil_or_concat line).resolve_left full
  unfold dropTrailingCr
  rw [List.concat_eq_append,List.getLast?_concat,List.dropLast_concat]
  split
  · rename_i ends
    cases Option.some.inj ends
    simp
  · rename_i other
    refine ⟨fun none => by simp at none,fun lone => ?_⟩
    have ends := congrArg List.getLast? lone
    rw [List.getLast?_concat] at ends
    exact absurd ends other

theorem dispatch_events (p : Parser) : (dispatch p).1.length = p.haveField.toNat := by
  unfold dispatch
  split
  · rename_i pending
    rw [pending]
    rfl
  · rename_i idle
    rw [show p.haveField = false by simpa using idle]
    rfl

theorem processLine_silent (p : Parser) (full : line ≠ []) : (processLine p line).1 = [] := by
  unfold processLine
  rw [if_neg full]
  split
  · rfl
  · split
    · rfl
    · split
      · rfl
      · rfl

-- A partial line emits an event only as a lone carriage return, and the flag
-- then tells what the dispatch after it finds: nothing.
theorem flush_cases (p : Parser) :
    p.lineBuf = [cr] ∧ p.haveField = true ∧ (flush p).1.length = 1 ∧ (flush p).2.2 = false ∨
    ¬(p.lineBuf = [cr] ∧ p.haveField = true) ∧ (flush p).1.length = (flush p).2.2.toNat := by
  unfold flush
  by_cases empty : p.lineBuf = []
  · rw [if_pos empty]
    refine .inr ⟨fun lone => by simp [empty] at lone,?_⟩
    exact dispatch_events p
  · rw [if_neg empty]
    by_cases lone : p.lineBuf = [cr]
    · have blank : endLine p = ((dispatch p).1,{(dispatch p).2 with lineBuf := []}) := by
        unfold endLine processLine
        rw [if_pos ((dropTrailingCr_blank empty).mpr lone)]
      rw [blank]
      cases pending : p.haveField with
      | true => exact .inl ⟨lone,rfl,by simp [dispatch,pending],by simp [dispatch,pending]⟩
      | false => exact .inr ⟨by simp,by simp [dispatch,pending]⟩
    · refine .inr ⟨fun both => lone both.1,?_⟩
      have silent : (endLine p).1 = [] := processLine_silent p fun blank => lone ((dropTrailingCr_blank empty).mp blank)
      dsimp only
      rw [silent]
      exact dispatch_events (endLine p).2

theorem flush_reports (chunks : List Bytes) :
    let p := (run feed fresh chunks).2
    ((flush p).1.length ≤ 1 ∧ ((flush p).2.2 = true ↔ (flush p).1 ≠ []) ∧ (flush p).2.1 = fresh) ↔
      ¬(p.lineBuf = [cr] ∧ p.haveField = true) := by
  have fed : run feed fresh chunks = feed fresh chunks.flatten := run_blocks fresh chunks
  have cleared := (decode_groups chunks.flatten).2
  rw [← fed] at cleared
  dsimp only
  generalize (run feed fresh chunks).2 = p at cleared
  rcases flush_cases p with ⟨lone,pending,emits,silent⟩ | ⟨other,emits⟩
  · constructor
    · rintro ⟨-,reports,-⟩
      have some : (flush p).1 ≠ [] := by
        intro none
        rw [none] at emits
        cases emits
      rw [silent] at reports
      cases reports.mpr some
    · exact fun neither => absurd ⟨lone,pending⟩ neither
  · refine ⟨fun _ => other,fun _ => ⟨?_,?_,cleared⟩⟩
    · rw [emits]
      exact Bool.toNat_le _
    · rw [← List.length_pos_iff,emits]
      cases (flush p).2.2 <;> decide

-- A field line, and a carriage return that was not yet followed by its line feed.
theorem flush_unreported :
    let p := (run feed fresh [text "data: x\n\r"]).2
    (flush p).1 = [⟨text "x",[]⟩] ∧ (flush p).2.2 = false := by
  decide +kernel

end Flushing

end Kvmux.SseBatch
