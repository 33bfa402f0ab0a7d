import Mathlib.Data.List.Basic

namespace Tally

-- How many positions of a list satisfy a test of the position and its entry.
variable {X : Type}

def tally (test : Nat → X → Bool) : List X → Nat
  | [] => 0
  | x :: xs => (test 0 x).toNat + tally (fun i => test (i + 1)) xs

theorem tally_congr (one two : Nat → X → Bool) {xs : List X}
    (same : ∀ i x, xs[i]? = some x → one i x = two i x) : tally one xs = tally two xs := by
  induction xs generalizing one two with
  | nil => rfl
  | cons x xs ih =>
    have head := same 0 x rfl
    have tail := ih (fun i => one (i + 1)) (fun i => two (i + 1)) (fun i y found => same (i + 1) y found)
    simp only [tally,head,tail]

theorem tally_append (test : Nat → X → Bool) (xs : List X) (x : X) :
    tally test (xs ++ [x]) = tally test xs + (test xs.length x).toNat := by
  induction xs generalizing test with
  | nil => simp [tally]
  | cons y ys ih => simp only [List.cons_append,tally,ih,List.length_cons]; omega

theorem tally_set (test : Nat → X → Bool) {xs : List X} {i : Nat} {old : X} (found : xs[i]? = some old) (new : X) :
    tally test (xs.set i new) + (test i old).toNat = tally test xs + (test i new).toNat := by
  induction xs generalizing test i with
  | nil => simp at found
  | cons y ys ih =>
    cases i with
    | zero =>
      cases Option.some.inj found
      simp only [List.set_cons_zero,tally]; omega
    | succ i =>
      have tail := ih (fun i => test (i + 1)) found
      simp only [List.set_cons_succ,tally] at tail ⊢; omega

-- Two tests that differ at one position only.
theorem tally_differ (one two : Nat → X → Bool) {xs : List X} {i : Nat} {x : X} (found : xs[i]? = some x)
    (same : ∀ j y, j ≠ i → one j y = two j y) :
    tally two xs + (one i x).toNat = tally one xs + (two i x).toNat := by
  induction xs generalizing one two i with
  | nil => simp at found
  | cons y ys ih =>
    cases i with
    | zero =>
      cases Option.some.inj found
      have tail : tally (fun i => one (i + 1)) ys = tally (fun i => two (i + 1)) ys := tally_congr _ _
        (fun j z _ => same (j + 1) z (by omega))
      simp only [tally,tail]; omega
    | succ i =>
      have head := same 0 y (by omega)
      have tail := ih (fun i => one (i + 1)) (fun i => two (i + 1)) found
        (fun j z other => same (j + 1) z (by omega))
      simp only [tally,head] at tail ⊢; omega

theorem tally_mono (one two : Nat → X → Bool) {xs : List X}
    (implies : ∀ i x, xs[i]? = some x → one i x = true → two i x = true) : tally one xs ≤ tally two xs := by
  induction xs generalizing one two with
  | nil => exact Nat.le_refl _
  | cons x xs ih =>
    have tail := ih (fun i => one (i + 1)) (fun i => two (i + 1)) (fun i y found => implies (i + 1) y found)
    have head : (one 0 x).toNat ≤ (two 0 x).toNat := by
      cases holds : one 0 x with
      | false => exact Nat.zero_le _
      | true => simp [implies 0 x rfl holds]
    simp only [tally]; omega

theorem tally_zero (test : Nat → X → Bool) {xs : List X}
    (never : ∀ i x, xs[i]? = some x → test i x = false) : tally test xs = 0 := by
  induction xs generalizing test with
  | nil => rfl
  | cons x xs ih =>
    have head := never 0 x rfl
    have tail := ih (fun i => test (i + 1)) (fun i y found => never (i + 1) y found)
    simp [tally,head,tail]

-- Two tests that no entry satisfies both of.
theorem tally_apart (one two either : Nat → X → Bool) {xs : List X}
    (apart : ∀ i x, xs[i]? = some x → (one i x).toNat + (two i x).toNat ≤ (either i x).toNat) :
    tally one xs + tally two xs ≤ tally either xs := by
  induction xs generalizing one two either with
  | nil => exact Nat.le_refl _
  | cons x xs ih =>
    have head := apart 0 x rfl
    have tail := ih (fun i => one (i + 1)) (fun i => two (i + 1)) (fun i => either (i + 1)) (fun i y found => apart (i + 1) y found)
    simp only [tally]; omega

-- Distinct positions that satisfy the test.
theorem tally_members (test : Nat → X → Bool) {xs : List X} {positions : List Nat} (distinct : positions.Nodup)
    (each : ∀ i ∈ positions, ∃ x, xs[i]? = some x ∧ test i x = true) : positions.length ≤ tally test xs := by
  induction positions generalizing test with
  | nil => exact Nat.zero_le _
  | cons i rest ih =>
    obtain ⟨fresh,distinct⟩ := List.nodup_cons.mp distinct
    obtain ⟨x,found,holds⟩ := each i List.mem_cons_self
    have others := ih (fun j y => test j y && j != i) distinct fun j member => by
      obtain ⟨y,known,passes⟩ := each j (List.mem_cons_of_mem _ member)
      have other : j ≠ i := fun same => fresh (same ▸ member)
      exact ⟨y,known,by simp [passes,other]⟩
    have one := tally_differ test (fun j y => test j y && j != i) found (fun j y other => by simp [other])
    simp only [holds,bne_self_eq_false,Bool.and_false,Bool.toNat_true,Bool.toNat_false] at one
    simp only [List.length_cons]; omega

theorem tally_map {Y : Type} (test : Nat → Y → Bool) (f : X → Y) (xs : List X) :
    tally test (xs.map f) = tally (fun i x => test i (f x)) xs := by
  induction xs generalizing test with
  | nil => rfl
  | cons x xs ih => simp only [List.map_cons,tally,ih]

theorem tally_countP (test : X → Bool) (xs : List X) : tally (fun _ => test) xs = xs.countP test := by
  induction xs with
  | nil => rfl
  | cons x xs ih =>
    rw [List.countP_cons,tally,ih]
    cases test x <;> simp [Nat.add_comm]

theorem set_own {xs : List X} {i : Nat} {x : X} (own : xs[i]? = some x) : xs.set i x = xs := by
  obtain ⟨bound,equal⟩ := List.getElem?_eq_some_iff.mp own
  rw [← equal,List.set_getElem_self]

-- The sum of a quantity of the entries.
def total (f : X → Nat) : List X → Nat
  | [] => 0
  | x :: xs => f x + total f xs

theorem total_append (f : X → Nat) (xs ys : List X) : total f (xs ++ ys) = total f xs + total f ys := by
  induction xs with
  | nil => simp [total]
  | cons x xs ih => simp only [List.cons_append,total,ih]; omega

theorem total_set (f : X → Nat) {xs : List X} {i : Nat} {old : X} (found : xs[i]? = some old) (new : X) :
    total f (xs.set i new) + f old = total f xs + f new := by
  induction xs generalizing i with
  | nil => simp at found
  | cons y ys ih =>
    cases i with
    | zero =>
      cases Option.some.inj found
      simp only [List.set_cons_zero,total]; omega
    | succ i =>
      have tail := ih found
      simp only [List.set_cons_succ,total]; omega

theorem total_congr {f g : X → Nat} {xs : List X} (same : ∀ x ∈ xs, f x = g x) : total f xs = total g xs := by
  induction xs with
  | nil => rfl
  | cons x xs ih =>
    obtain ⟨head,tail⟩ := List.forall_mem_cons.mp same
    simp only [total,head,ih tail]

theorem total_countP (test : X → Bool) (xs : List X) : total (fun x => (test x).toNat) xs = xs.countP test := by
  induction xs with
  | nil => rfl
  | cons x xs ih =>
    rw [List.countP_cons,total,ih]
    cases test x <;> simp [Nat.add_comm]

-- Lists kept with the entries of a list, after one of them has grown.
theorem flatMap_set {Y : Type} {f : X → List Y} {xs : List X} {i : Nat} {old new : X} {extra : List Y}
    (found : xs[i]? = some old) (grown : f new = f old ++ extra) : ((xs.set i new).flatMap f).Perm (xs.flatMap f ++ extra) := by
  induction xs generalizing i with
  | nil => simp at found
  | cons x xs ih =>
    cases i with
    | zero =>
      cases Option.some.inj found
      simp only [List.set_cons_zero,List.flatMap_cons,grown,List.append_assoc]
      exact List.Perm.append_left _ List.perm_append_comm
    | succ i =>
      simp only [List.set_cons_succ,List.flatMap_cons,List.append_assoc]
      exact List.Perm.append_left _ (ih found)

end Tally
