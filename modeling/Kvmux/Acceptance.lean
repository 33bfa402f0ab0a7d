import Mathlib.Data.List.Forall2
import Mathlib.Logic.Basic

namespace Acceptance

-- A checker succeeds on exactly the inputs it should accept, and what it then
-- returns is as it should be.
def Meets (result : Except E α) (accepts : Prop) (post : α → Prop) : Prop :=
  match result with
  | .ok value => accepts ∧ post value
  | .error _ => ¬accepts

variable {E α β : Type} {accepts later : Prop}

theorem Meets.pure {post : α → Prop} (holds : post value) : Meets (.ok value : Except E α) True post := ⟨trivial,holds⟩

theorem Meets.bind {result : Except E α} {f : α → Except E β} {between : α → Prop} {post : β → Prop}
    (first : Meets result accepts between) (rest : ∀ value, between value → Meets (f value) later post) :
    Meets (result >>= f) (accepts ∧ later) post := by
  cases result with
  | error e => exact fun both => first both.1
  | ok value =>
    obtain ⟨accepted,holds⟩ := first
    have second := rest value holds
    change Meets (f value) (accepts ∧ later) post
    cases result : f value with
    | error e =>
      rw [result] at second
      exact fun both => second both.2
    | ok final =>
      rw [result] at second
      exact ⟨⟨accepted,second.1⟩,second.2⟩

theorem Meets.iff {result : Except E α} {post : α → Prop} (meets : Meets result accepts post) (same : accepts ↔ later) :
    Meets result later post := by
  rwa [propext same] at meets

theorem Meets.imp {result : Except E α} {post final : α → Prop} (meets : Meets result accepts post)
    (weaker : ∀ value, post value → final value) : Meets result accepts final := by
  cases result with
  | error e => exact meets
  | ok value => exact ⟨meets.1,weaker value meets.2⟩

-- A checker over a list, element by element.
theorem Meets.mapM {f : α → Except E β} {each : α → Prop} {post : α → β → Prop} (meets : ∀ x, Meets (f x) (each x) (post x))
    (xs : List α) : Meets (xs.mapM f) (∀ x ∈ xs, each x) fun ys => List.Forall₂ post xs ys := by
  induction xs with
  | nil => exact (Meets.pure .nil).iff (by simp)
  | cons x rest ih =>
    rw [List.mapM_cons]
    have all : Meets (f x >>= fun y => rest.mapM f >>= fun ys => .ok (y :: ys)) (each x ∧ (∀ x ∈ rest, each x) ∧ True)
        fun ys => List.Forall₂ post (x :: rest) ys :=
      (meets x).bind fun y first => ih.bind fun ys others => .pure (.cons first others)
    exact all.iff (by simp)

theorem Meets.accepts_iff {result : Except E α} {post : α → Prop} (meets : Meets result accepts post) :
    (∃ value, result = .ok value) ↔ accepts := by
  cases result with
  | error e => exact ⟨fun found => absurd found.choose_spec (by simp),fun accepted => absurd accepted meets⟩
  | ok value => exact ⟨fun _ => meets.1,fun _ => ⟨value,rfl⟩⟩

theorem Meets.returns {result : Except E α} {post : α → Prop} (meets : Meets result accepts post) (ok : result = .ok value) :
    accepts ∧ post value := by
  subst ok
  exact meets

end Acceptance
