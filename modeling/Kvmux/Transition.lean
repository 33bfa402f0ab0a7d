import Mathlib.Data.List.Basic
import Mathlib.Data.List.Induction

namespace Transition

-- Partial deterministic steps: a refused action has no successor state.
variable {S A : Type} (step : S → A → Option S)

def run : S → List A → Option S
  | s,[] => some s
  | s,action :: rest => (step s action).bind (run · rest)

-- States reached by runs all of whose steps meet a condition on the state
-- before the step. The condition restricts the runs, never the step itself.
inductive Reached (meets : S → A → Prop) (start : S) : S → Prop where
  | initial : Reached meets start start
  | step : Reached meets start s → meets s action → step s action = some next → Reached meets start next

def Any (_ : S) (_ : A) : Prop := True

variable {step}

theorem Reached.take {meets : S → A → Prop} (path : Reached step meets start s) (action : A)
    (met : meets s action) (ran : step s action = some next) : Reached step meets start next := .step path met ran

theorem Reached.trans {meets : S → A → Prop} (one : Reached step meets start s) (two : Reached step meets s next) :
    Reached step meets start next := by
  induction two with
  | initial => exact one
  | step _ met ran ih => exact .step ih met ran

theorem reached_invariant {meets : S → A → Prop} (Inv : S → Prop) (initial : Inv start)
    (keeps : ∀ s action next, Inv s → meets s action → step s action = some next → Inv next)
    (path : Reached step meets start s) : Inv s := by
  induction path with
  | initial => exact initial
  | step _ met ran ih => exact keeps _ _ _ ih met ran

-- Steps that another system takes as well, or does not notice.
theorem reached_simulated {T B : Type} {other : T → B → Option T} {meets : S → A → Prop} {allowed : T → B → Prop} (view : S → T)
    (simulates : ∀ s action next, meets s action → step s action = some next →
      view next = view s ∨ ∃ act, allowed (view s) act ∧ other (view s) act = some (view next))
    (path : Reached step meets start s) : Reached other allowed (view start) (view s) := by
  induction path with
  | initial => exact .initial
  | step _ met ran ih =>
    obtain same | ⟨act,permitted,moved⟩ := simulates _ _ _ met ran
    · rw [same]
      exact ih
    · exact .step ih permitted moved

theorem run_meets {meets : S → A → Prop} {actions : List A} (path : Reached step meets start s)
    (met : ∀ s, ∀ action ∈ actions, meets s action) (ran : run step s actions = some next) :
    Reached step meets start next := by
  induction actions generalizing s with
  | nil => cases Option.some.inj ran; exact path
  | cons action rest ih =>
    obtain ⟨middle,first,remaining⟩ := Option.bind_eq_some_iff.mp ran
    have taken := path.take action (met s action (by simp)) first
    exact ih taken (fun s other member => met s other (by simp [member])) remaining

theorem run_reached {actions : List A} (path : Reached step Any start s)
    (ran : run step s actions = some next) : Reached step Any start next :=
  run_meets path (fun _ _ _ => trivial) ran

theorem run_cons {action : A} {rest : List A} (first : step s action = some middle)
    (remaining : run step middle rest = some next) : run step s (action :: rest) = some next := by
  simp [run,first,remaining]

theorem run_append {one two : List A} (first : run step s one = some middle)
    (second : run step middle two = some next) : run step s (one ++ two) = some next := by
  induction one generalizing s with
  | nil => cases Option.some.inj first; exact second
  | cons action rest ih =>
    obtain ⟨after,head,remaining⟩ := Option.bind_eq_some_iff.mp first
    exact run_cons head (ih remaining)

theorem run_concat {actions : List A} {action : A} :
    run step s (actions ++ [action]) = some next ↔ ∃ middle, run step s actions = some middle ∧ step middle action = some next := by
  induction actions generalizing s with
  | nil => simp [run]
  | cons first rest ih =>
    simp only [List.cons_append,run,Option.bind_eq_some_iff,ih]
    constructor
    · rintro ⟨after,head,middle,remaining,last⟩
      exact ⟨middle,⟨after,head,remaining⟩,last⟩
    · rintro ⟨middle,⟨after,head,remaining⟩,last⟩
      exact ⟨after,head,middle,remaining,last⟩

theorem reached_ran {meets : S → A → Prop} (path : Reached step meets start s) : ∃ actions, run step start actions = some s := by
  induction path with
  | initial => exact ⟨[],rfl⟩
  | step _ _ taken ih =>
    obtain ⟨actions,ran⟩ := ih
    exact ⟨actions ++ [_],run_concat.mpr ⟨_,ran,taken⟩⟩

-- What holds of a state and of the steps that led to it.
theorem run_invariant (Inv : List A → S → Prop) (initial : Inv [] start)
    (keeps : ∀ actions s action next, run step start actions = some s → Inv actions s → step s action = some next →
      Inv (actions ++ [action]) next) {actions : List A} (ran : run step start actions = some s) : Inv actions s := by
  induction actions using List.reverseRecOn generalizing s with
  | nil => cases Option.some.inj ran; exact initial
  | append_singleton actions action ih =>
    obtain ⟨middle,before,last⟩ := run_concat.mp ran
    exact keeps actions middle action s before (ih before) last

end Transition
