import Mathlib.Algebra.Order.BigOperators.Group.Finset
import Mathlib.Data.List.Basic
import Mathlib.Data.List.Perm.Basic

namespace Balance

-- Choices made one after another among the options of a fixed list, and taken
-- in laps of a given size.
variable {X : Type}

def lap (size q : Nat) (picks : List X) : List X := (picks.drop (size * q)).take size

-- No lap makes a choice twice.
def Laps (size : Nat) (picks : List X) : Prop := ∀ q, (lap size q picks).Nodup

theorem take_lap (size q : Nat) (picks : List X) :
    picks.take (size * (q + 1)) = picks.take (size * q) ++ lap size q picks := by
  rw [Nat.mul_succ,List.take_add]
  rfl

theorem laps_map {Y : Type} {f : X → Y} {picks : List X} (apart : ∀ x ∈ picks, ∀ y ∈ picks, f x = f y → x = y) :
    Laps size (picks.map f) ↔ Laps size picks := by
  have within : ∀ q, ∀ x ∈ lap size q picks, x ∈ picks := fun q x early => List.mem_of_mem_drop (List.mem_of_mem_take early)
  have mapped : ∀ q, lap size q (picks.map f) = (lap size q picks).map f := by
    intro q
    rw [lap,lap,List.map_take,List.map_drop]
  constructor
  · intro laps q
    have single := laps q
    rw [mapped] at single
    exact single.of_map
  · intro laps q
    rw [mapped]
    exact (laps q).map_on fun x one y two => apart x (within q x one) y (within q y two)

theorem laps_bounded (size : Nat) (picks : List X) : (∀ q < picks.length, (lap size q picks).Nodup) ↔ Laps size picks := by
  refine ⟨fun laps q => ?_,fun laps q _ => laps q⟩
  rcases Nat.lt_or_ge q picks.length with early | late
  · exact laps q early
  · cases size with
    | zero =>
      rw [lap,List.take_zero]
      exact List.nodup_nil
    | succ n =>
      have beyond : q ≤ (n + 1) * q := Nat.le_mul_of_pos_left q n.succ_pos
      rw [lap,List.drop_of_length_le (by omega),List.take_nil]
      exact List.nodup_nil

variable [DecidableEq X]

instance (size : Nat) (picks : List X) : Decidable (Laps size picks) := decidable_of_iff _ (laps_bounded size picks)

def Level (options picks : List X) : Prop := ∀ a ∈ options, ∀ b ∈ options, picks.count a ≤ picks.count b + 1

instance (options picks : List X) : Decidable (Level options picks) :=
  inferInstanceAs (Decidable (∀ a ∈ options, ∀ b ∈ options, picks.count a ≤ picks.count b + 1))

def Steady (options picks : List X) : Prop := ∀ past, past <+: picks → Level options past

variable {options picks : List X}

section Averages

theorem count_split (inside : ∀ x ∈ picks, x ∈ options) (member : a ∈ options) :
    picks.length = picks.count a + ∑ b ∈ options.toFinset.erase a, picks.count b := by
  have all : ∑ b ∈ options.toFinset, (picks : Multiset X).count b = (picks : Multiset X).card :=
    Multiset.sum_count_eq_card fun x member => List.mem_toFinset.mpr (inside x member)
  simp only [Multiset.coe_card,Multiset.coe_count] at all
  rw [← all,← Finset.add_sum_erase _ _ (List.mem_toFinset.mpr member)]

theorem others_card (distinct : options.Nodup) (member : a ∈ options) :
    (options.toFinset.erase a).card = options.length - 1 := by
  rw [Finset.card_erase_of_mem (List.mem_toFinset.mpr member),List.toFinset_card_of_nodup distinct]

theorem others_mem (other : b ∈ options.toFinset.erase a) : b ∈ options :=
  List.mem_toFinset.mp (Finset.mem_of_mem_erase other)

variable (distinct : options.Nodup) (inside : ∀ x ∈ picks, x ∈ options)
include distinct inside

-- Counts that differ by at most one lie around the average.
theorem level_below (level : Level options picks) (member : a ∈ options) :
    picks.length ≤ options.length * picks.count a + (options.length - 1) := by
  have some := List.length_pos_of_mem member
  have bound : ∑ b ∈ options.toFinset.erase a, picks.count b ≤ (options.length - 1) * (picks.count a + 1) := by
    rw [← others_card distinct member]
    exact Finset.sum_le_card_nsmul _ _ _ fun b other => level b (others_mem other) a member
  have whole := count_split inside member
  obtain ⟨others,size⟩ : ∃ others, options.length = others + 1 := ⟨options.length - 1,by omega⟩
  rw [size,Nat.add_sub_cancel] at bound ⊢
  rw [Nat.mul_add,Nat.mul_one] at bound
  rw [Nat.add_mul,Nat.one_mul]
  omega

theorem level_above (level : Level options picks) (member : a ∈ options) :
    options.length * picks.count a ≤ picks.length + (options.length - 1) := by
  have some := List.length_pos_of_mem member
  have bound : (options.length - 1) * picks.count a ≤ ∑ b ∈ options.toFinset.erase a, (picks.count b + 1) := by
    rw [← others_card distinct member]
    exact Finset.card_nsmul_le_sum _ _ _ fun b other => level a member b (others_mem other)
  rw [Finset.sum_add_distrib,← Finset.card_eq_sum_ones,others_card distinct member] at bound
  have whole := count_split inside member
  obtain ⟨others,size⟩ : ∃ others, options.length = others + 1 := ⟨options.length - 1,by omega⟩
  rw [size,Nat.add_sub_cancel] at bound ⊢
  rw [Nat.add_mul,Nat.one_mul]
  omega

end Averages
section Exactness
variable (distinct : options.Nodup) (inside : ∀ x ∈ picks, x ∈ options)
include distinct inside

-- At the end of a lap the counts are equal, so a lap has room for each option once.
theorem steady_laps (steady : Steady options picks) : Laps options.length picks := by
  intro q
  refine List.nodup_iff_count_le_one.mpr fun a => ?_
  by_cases member : a ∈ options
  · have kept : ∀ n, ∀ x ∈ picks.take n, x ∈ options := fun n x early => inside x (List.mem_of_mem_take early)
    have upper := level_above distinct (kept _) (steady _ (List.take_prefix (options.length * (q + 1)) picks)) member
    have lower := level_below distinct (kept _) (steady _ (List.take_prefix (options.length * q) picks)) member
    rw [take_lap,List.count_append,List.length_append] at upper
    have room : (lap options.length q picks).length ≤ options.length := List.length_take_le _ _
    rcases Nat.lt_or_ge picks.length (options.length * q) with short | long
    · have none : lap options.length q picks = [] := by rw [lap,List.drop_of_length_le (by omega),List.take_nil]
      rw [none,List.count_nil]
      exact Nat.zero_le 1
    · have some := List.length_pos_of_mem member
      rw [List.length_take_of_le long] at upper lower
      have before : q < (picks.take (options.length * q)).count a + 1 := by
        apply Nat.lt_of_mul_lt_mul_left (a := options.length)
        rw [Nat.mul_succ]
        omega
      have after : (picks.take (options.length * q)).count a + (lap options.length q picks).count a < q + 2 := by
        apply Nat.lt_of_mul_lt_mul_left (a := options.length)
        rw [Nat.mul_add options.length q 2]
        omega
      omega
  · have none : a ∉ lap options.length q picks := fun early =>
      member (inside a (List.mem_of_mem_drop (List.mem_of_mem_take early)))
    rw [List.count_eq_zero_of_not_mem none]
    exact Nat.zero_le 1

-- A full lap holds every option once.
theorem lap_full (laps : Laps options.length picks) (full : options.length * (q + 1) ≤ picks.length)
    (member : a ∈ options) : (lap options.length q picks).count a = 1 := by
  have length : (lap options.length q picks).length = options.length := by
    rw [lap,List.length_take,List.length_drop]
    rw [Nat.mul_succ] at full
    omega
  have subset : lap options.length q picks ⊆ options := fun x early =>
    inside x (List.mem_of_mem_drop (List.mem_of_mem_take early))
  have perm := (List.subperm_of_subset (laps q) subset).perm_of_length_le (Nat.le_of_eq length.symm)
  rw [perm.count_eq,List.count_eq_one_of_mem distinct member]

theorem laps_count (laps : Laps options.length picks) (member : a ∈ options) (full : options.length * q ≤ picks.length) :
    (picks.take (options.length * q)).count a = q := by
  induction q with
  | zero => simp
  | succ q ih =>
    have earlier : options.length * q ≤ picks.length := by
      rw [Nat.mul_succ] at full
      omega
    rw [take_lap,List.count_append,ih earlier,lap_full distinct inside laps full member]

-- Between two ends of laps every count is that of the last end, or one more.
theorem laps_around (laps : Laps options.length picks) (early : past <+: picks) (member : a ∈ options) :
    past.length / options.length ≤ past.count a ∧ past.count a ≤ past.length / options.length + 1 := by
  have within := early.length_le
  have whole := List.prefix_iff_eq_take.mp early
  have ended : options.length * (past.length / options.length) ≤ past.length := Nat.mul_div_le _ _
  have split : past = picks.take (options.length * (past.length / options.length)) ++
      (picks.drop (options.length * (past.length / options.length))).take
        (past.length - options.length * (past.length / options.length)) := by
    rw [← List.take_add,Nat.add_sub_cancel' ended,← whole]
  have last : ((picks.drop (options.length * (past.length / options.length))).take
      (past.length - options.length * (past.length / options.length))).count a ≤ 1 := by
    have rest := Nat.mod_lt past.length (List.length_pos_of_mem member)
    rw [Nat.mod_eq_sub] at rest
    have part := List.take_prefix_take_left (Nat.le_of_lt rest) (l := picks.drop (options.length * (past.length / options.length)))
    exact List.nodup_iff_count_le_one.mp ((laps _).sublist part.sublist) a
  have count := congrArg (List.count a) split
  rw [List.count_append,laps_count distinct inside laps member (by omega)] at count
  omega

theorem laps_steady (laps : Laps options.length picks) : Steady options picks := by
  intro past early a member b other
  have one := laps_around distinct inside laps early member
  have two := laps_around distinct inside laps early other
  omega

theorem steady_iff : Steady options picks ↔ Laps options.length picks :=
  ⟨steady_laps distinct inside,laps_steady distinct inside⟩

end Exactness
end Balance
