import Mathlib.Data.List.Basic
import Kvmux.Transducer

namespace Splitting

-- Cutting a list at every occurrence of a separator.
variable {X : Type}

theorem splitOn_cons [BEq X] (sep x : X) (rest : List X) :
    (x :: rest).splitOn sep = if x == sep then [] :: rest.splitOn sep else (rest.splitOn sep).modifyHead (x :: ·) := by
  simp [List.splitOn,List.splitOnP_cons_eq_if_modifyHead]

theorem splitOn_mem [BEq X] [LawfulBEq X] {sep x : X} {xs : List X} (member : part ∈ xs.splitOn sep) (found : x ∈ part) :
    x ∈ xs ∧ x ≠ sep := by
  induction xs generalizing part with
  | nil => simp_all
  | cons y rest ih =>
    rw [splitOn_cons] at member
    split at member
    · rcases List.mem_cons.mp member with rfl | later
      · cases found
      · exact ⟨List.mem_cons_of_mem y (ih later found).1,(ih later found).2⟩
    · cases split : rest.splitOn sep with
      | nil => simp [split] at member
      | cons first more =>
        rw [split,List.modifyHead_cons,List.mem_cons] at member
        rcases member with rfl | later
        · rcases List.mem_cons.mp found with rfl | inside
          · exact ⟨List.mem_cons_self,by simp_all⟩
          · have := ih (by simp [split]) inside
            exact ⟨List.mem_cons_of_mem y this.1,this.2⟩
        · have := ih (by simp [split,later]) found
          exact ⟨List.mem_cons_of_mem y this.1,this.2⟩

theorem modifyHead_nil (parts : List (List X)) : parts.modifyHead ([] ++ ·) = parts := by
  cases parts <;> rfl

-- There is always a last part, still open, after the parts that were closed.
theorem splitOn_open [BEq X] (sep : X) (xs : List X) : ∃ closed last, xs.splitOn sep = closed ++ [last] := by
  rcases List.eq_nil_or_concat (xs.splitOn sep) with none | ⟨closed,last,split⟩
  · exact absurd none (List.splitOn_ne_nil _ _)
  · exact ⟨closed,last,by rw [split,List.concat_eq_append]⟩

theorem splitOn_length [BEq X] (sep : X) (xs : List X) : (xs.splitOn sep).length = xs.count sep + 1 := by
  induction xs with
  | nil => rfl
  | cons x rest ih =>
    rw [splitOn_cons,List.count_cons]
    split
    · rw [List.length_cons,ih]
    · rw [List.length_modifyHead,ih]

-- What follows continues the open part and closes it at its first separator.
theorem splitOn_append [BEq X] {sep : X} {xs : List X} (split : xs.splitOn sep = closed ++ [last]) (ys : List X) :
    (xs ++ ys).splitOn sep = closed ++ (ys.splitOn sep).modifyHead (last ++ ·) := by
  induction xs generalizing closed last with
  | nil =>
    obtain ⟨rfl,single⟩ := List.append_inj' (show [] ++ [[]] = closed ++ [last] from split) rfl
    cases single
    rw [modifyHead_nil]
    rfl
  | cons x rest ih =>
    rw [splitOn_cons] at split
    rw [List.cons_append,splitOn_cons]
    obtain ⟨before,tail,parts⟩ := splitOn_open sep rest
    rw [parts] at split
    rw [ih parts]
    split at split
    · rename_i separates
      rw [if_pos separates]
      rw [← List.cons_append] at split
      obtain ⟨rfl,single⟩ := List.append_inj' split rfl
      cases single
      rfl
    · rename_i inside
      rw [if_neg inside]
      cases before with
      | nil =>
        obtain ⟨rfl,single⟩ := List.append_inj' (show [] ++ [x :: tail] = closed ++ [last] from split) rfl
        cases single
        simp [Function.comp_def]
      | cons first others =>
        rw [List.cons_append,List.modifyHead_cons,← List.cons_append] at split
        obtain ⟨rfl,single⟩ := List.append_inj' split rfl
        cases single
        rfl

theorem splitOn_first [BEq X] [LawfulBEq X] {sep : X} {part : List X} (unbroken : sep ∉ part) (rest : List X) :
    (part ++ sep :: rest).splitOn sep = part :: rest.splitOn sep := by
  induction part with
  | nil => rw [List.nil_append,splitOn_cons,if_pos BEq.rfl]
  | cons x more ih =>
    obtain ⟨other,later⟩ := not_or.mp (mt List.mem_cons.mpr unbroken)
    rw [List.cons_append,splitOn_cons,if_neg (by simpa using Ne.symm other),ih later]
    rfl

-- A machine that holds a part until the separator closes it answers for the
-- closed parts, and not for the last one, which is still open.
theorem run_parts [BEq X] [LawfulBEq X] {S O : Type} {step : S → X → List O × S} {hold : List X → S}
    {out : List X → List O} {sep : X}
    (closes : ∀ part, step (hold part) sep = (out part,hold []))
    (holds : ∀ part x, x ≠ sep → step (hold part) x = ([],hold (part ++ [x]))) (part xs : List X) :
    (Transducer.run step (hold part) xs).1 = ((xs.splitOn sep).modifyHead (part ++ ·)).dropLast.flatMap out := by
  induction xs generalizing part with
  | nil => rfl
  | cons x rest ih =>
    rw [Transducer.run_cons,splitOn_cons]
    by_cases ends : x = sep
    · have later := ih []
      rw [modifyHead_nil] at later
      rw [ends,closes,later,if_pos BEq.rfl,List.modifyHead_cons,List.dropLast_cons_of_ne_nil (List.splitOn_ne_nil _ _),
        List.flatMap_cons,List.append_nil]
    · have later := ih (part ++ [x])
      rw [holds part x ends,later,if_neg (by simpa using ends)]
      simp [Function.comp_def]

end Splitting
