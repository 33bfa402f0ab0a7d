import Mathlib.Algebra.Ring.Nat
import Mathlib.Data.List.Basic

namespace Transducer

-- A machine that answers every input with a list of outputs.
variable {S I O : Type} (step : S → I → List O × S)

def run : S → List I → List O × S
  | s,[] => ([],s)
  | s,x :: rest =>
    let one := step s x
    let more := run one.2 rest
    (one.1 ++ more.1,more.2)

variable {step}

@[simp] theorem run_nil (s : S) : run step s [] = ([],s) := rfl

theorem run_cons (s : S) (x : I) (rest : List I) :
    run step s (x :: rest) = ((step s x).1 ++ (run step (step s x).2 rest).1,(run step (step s x).2 rest).2) := rfl

@[simp] theorem run_single (s : S) (x : I) : run step s [x] = step s x := by
  simp [run_cons]

theorem run_append (s : S) (xs ys : List I) :
    run step s (xs ++ ys) =
      ((run step s xs).1 ++ (run step (run step s xs).2 ys).1,(run step (run step s xs).2 ys).2) := by
  induction xs generalizing s with
  | nil => simp
  | cons x rest ih =>
    rw [List.cons_append,run_cons,ih,run_cons]
    simp only [List.append_assoc]

-- Feeding blocks one after another is feeding their concatenation.
theorem run_blocks (s : S) (blocks : List (List I)) : run (run step) s blocks = run step s blocks.flatten := by
  induction blocks generalizing s with
  | nil => rfl
  | cons block rest ih => rw [List.flatten_cons,run_append,run_cons,ih]

theorem run_invariant {Inv : S → Prop} (keeps : ∀ s x, Inv s → Inv (step s x).2) (valid : Inv s) (xs : List I) :
    Inv (run step s xs).2 := by
  induction xs generalizing s with
  | nil => exact valid
  | cons x rest ih => exact ih (keeps s x valid)

theorem run_front {past xs : List I} (early : past <+: xs) (s : S) : (run step s past).1 <+: (run step s xs).1 := by
  obtain ⟨rest,rfl⟩ := early
  rw [run_append]
  exact List.prefix_append _ _

-- Where no input is answered with more than one output, whatever has been
-- emitted at some point is what some of the first inputs emit.
theorem run_early (single : ∀ s x, (step s x).1.length ≤ 1) {xs : List I} {out : List O}
    (early : out <+: (run step s xs).1) : ∃ past, past <+: xs ∧ (run step s past).1 = out := by
  induction xs generalizing s out with
  | nil => exact ⟨[],List.prefix_refl [],(List.prefix_nil.mp early).symm⟩
  | cons x rest ih =>
    rw [run_cons] at early
    cases out with
    | nil => exact ⟨[],List.nil_prefix,rfl⟩
    | cons o more =>
      have shown := single s x
      cases first : (step s x).1 with
      | nil =>
        rw [first,List.nil_append] at early
        obtain ⟨past,within,emits⟩ := ih early
        exact ⟨x :: past,List.cons_prefix_cons.mpr ⟨rfl,within⟩,by rw [run_cons,first,List.nil_append,emits]⟩
      | cons o' others =>
        obtain rfl : others = [] := by
          rw [first,List.length_cons] at shown
          exact List.eq_nil_of_length_eq_zero (by omega)
        rw [first,List.singleton_append] at early
        obtain ⟨rfl,later⟩ := List.cons_prefix_cons.mp early
        obtain ⟨past,within,emits⟩ := ih later
        exact ⟨x :: past,List.cons_prefix_cons.mpr ⟨rfl,within⟩,by rw [run_cons,first,List.singleton_append,emits]⟩

theorem run_reset {xs : List I} (resets : ∀ x ∈ xs, (step s x).2 = s) :
    run step s xs = (xs.flatMap fun x => (step s x).1,s) := by
  induction xs with
  | nil => rfl
  | cons x rest ih =>
    have back := resets x (by simp)
    have later := ih fun y member => resets y (by simp [member])
    rw [run_cons,back,later,List.flatMap_cons]

-- What is emitted is paid for by the inputs, up to what the state holds.
theorem run_bound (weight : O → Nat) (size : S → Nat) (cost : I → Nat)
    (pays : ∀ s x, ((step s x).1.map weight).sum + size (step s x).2 ≤ size s + cost x) (s : S) (xs : List I) :
    ((run step s xs).1.map weight).sum + size (run step s xs).2 ≤ size s + (xs.map cost).sum := by
  induction xs generalizing s with
  | nil => simp
  | cons x rest ih =>
    have first := pays s x
    have later := ih (step s x).2
    simp only [run_cons,List.map_append,List.sum_append,List.map_cons,List.sum_cons]
    omega

end Transducer
