import Mathlib.Data.List.Basic
import Mathlib.Data.List.Perm.Basic
import Mathlib.Data.List.TakeWhile
import Kvmux.Routing

namespace Kvmux.Affinity
open Routing

section Ranking
variable (xxh64 : Bytes → UInt64) (key : UInt64)

def scored (i : Nat) : Scored := {backendIndex := i,score := xxh64 (wordBytes key ++ wordBytes i.toUInt64)}

def outranks (i j : Nat) : Prop := (scored xxh64 key i).before (scored xxh64 key j) = true

theorem before_iff (a b : Scored) :
    a.before b = true ↔ b.score.toNat < a.score.toNat ∨ (a.score.toNat = b.score.toNat ∧ a.backendIndex ≤ b.backendIndex) := by
  unfold Scored.before
  split
  · rename_i differ
    have other : a.score.toNat ≠ b.score.toNat := fun same => differ (UInt64.toNat_inj.mp same)
    simp [other,UInt64.lt_iff_toNat_lt]
  · rename_i same
    have same : a.score = b.score := not_not.mp same
    simp [same]

theorem before_total (a b : Scored) : a.before b = true ∨ b.before a = true := by
  rw [before_iff,before_iff]
  omega

theorem before_trans (one : Scored.before a b = true) (two : Scored.before b c = true) : a.before c = true := by
  rw [before_iff] at one two ⊢
  omega

-- Higher score first, and among equal scores the lower index, so no two backends tie.
theorem outranks_antisymm (one : outranks xxh64 key i j) (two : outranks xxh64 key j i) : i = j := by
  rw [outranks,before_iff] at one two
  simp only [scored] at one two
  omega

theorem hrwRank_sorted (candidates : List Candidate) : (hrwRank xxh64 key candidates).Pairwise (outranks xxh64 key) := by
  have total : Std.Total fun a b : Scored => a.before b = true := ⟨before_total⟩
  have trans : IsTrans Scored fun a b => a.before b = true := ⟨fun _ _ _ => before_trans⟩
  have sorted := List.pairwise_insertionSort (fun a b : Scored => a.before b = true)
    (candidates.map fun c => scored xxh64 key c.backendIndex)
  refine List.pairwise_map.mpr (sorted.imp_of_mem ?_)
  intro a b first second before
  have own : ∀ s ∈ (candidates.map fun c => scored xxh64 key c.backendIndex).insertionSort fun a b => a.before b = true,
      scored xxh64 key s.backendIndex = s := by
    intro s member
    obtain ⟨c,-,rfl⟩ := List.mem_map.mp ((List.mem_insertionSort _).mp member)
    rfl
  rw [outranks,own a first,own b second]
  exact before

-- A ranking is determined by the backends in it.
theorem ranking_unique {one two : List Nat} (first : one.Pairwise (outranks xxh64 key))
    (second : two.Pairwise (outranks xxh64 key)) (perm : one.Perm two) : one = two :=
  perm.eq_of_pairwise (fun _ _ _ _ => outranks_antisymm xxh64 key) first second

theorem hrwRank_perm_eq {one two : List Candidate}
    (perm : (one.map Candidate.backendIndex).Perm (two.map Candidate.backendIndex)) :
    hrwRank xxh64 key one = hrwRank xxh64 key two := by
  apply ranking_unique xxh64 key (hrwRank_sorted xxh64 key one) (hrwRank_sorted xxh64 key two)
  exact ((hrwRank_perm xxh64 key one).trans perm).trans (hrwRank_perm xxh64 key two).symm

theorem hrwRank_filter {candidates subset : List Candidate} (distinct : (candidates.map Candidate.backendIndex).Nodup)
    (single : (subset.map Candidate.backendIndex).Nodup) (inside : subset ⊆ candidates) :
    hrwRank xxh64 key subset = (hrwRank xxh64 key candidates).filter fun i => decide (i ∈ subset.map Candidate.backendIndex) := by
  apply ranking_unique xxh64 key (hrwRank_sorted xxh64 key subset) ((hrwRank_sorted xxh64 key candidates).filter _)
  refine (hrwRank_perm xxh64 key subset).trans ?_
  have all := hrwRank_perm xxh64 key candidates
  rw [List.perm_ext_iff_of_nodup single ((all.nodup_iff.mpr distinct).filter _)]
  intro i
  rw [List.mem_filter,all.mem_iff,decide_eq_true_iff]
  refine ⟨fun member => ⟨?_,member⟩,fun found => found.2⟩
  obtain ⟨c,offered,rfl⟩ := List.mem_map.mp member
  exact List.mem_map_of_mem (inside offered)

end Ranking

section Head
variable (xxh64 : Bytes → UInt64) (loadThreshold : Float) (affinityKey : Bytes)

theorem guard_stops (p : Nat → Bool) (rank : List Nat) : rank[(rank.takeWhile p).length]? = rank.find? fun i => !p i := by
  induction rank with
  | nil => rfl
  | cons i rest ih =>
    cases skipped : p i with
    | true => simp [skipped,ih]
    | false => simp [skipped]

-- The chosen head: the first backend that is not overloaded, or the first of all.
theorem order_head (candidates : List Candidate) :
    (prefixAffinityOrder xxh64 loadThreshold affinityKey candidates).order.head? =
      ((hrwRank xxh64 (xxh64 affinityKey) candidates).find? fun i => !overloaded loadThreshold candidates i).or
        (hrwRank xxh64 (xxh64 affinityKey) candidates).head? := by
  unfold prefixAffinityOrder
  split
  · rename_i none
    rw [none]
    rfl
  · dsimp only
    rw [guard_stops]
    split
    · rename_i none
      rw [none]
      rfl
    · rename_i chosen found
      rw [found]
      rfl

theorem loadOf_removed (front back : List Candidate) (other : i ≠ c.backendIndex) :
    loadOf (front ++ back) i = loadOf (front ++ c :: back) i := by
  have skipped : (c.backendIndex == i) = false := by simpa using other.symm
  simp [loadOf,List.find?_append,skipped]

-- Removing another backend changes neither what comes first nor what comes first
-- among those that qualify.
theorem find_kept {q q' : Nat → Bool} {rank : List Nat} (agree : ∀ i, i ≠ gone → q' i = q i)
    (found : rank.find? q = some h) (other : h ≠ gone) : (rank.filter fun i => decide (i ≠ gone)).find? q' = some h := by
  obtain ⟨good,front,back,rfl,skipped⟩ := List.find?_eq_some_iff_append.mp found
  have split : (front ++ h :: back).filter (fun i => decide (i ≠ gone)) =
      front.filter (fun i => decide (i ≠ gone)) ++ h :: back.filter (fun i => decide (i ≠ gone)) := by
    simp [other]
  refine List.find?_eq_some_iff_append.mpr ⟨(agree h other).trans good,_,_,split,?_⟩
  intro i member
  obtain ⟨old,kept⟩ := List.mem_filter.mp member
  rw [agree i (of_decide_eq_true kept)]
  exact skipped i old

theorem find_absent {q q' : Nat → Bool} {rank : List Nat} (agree : ∀ i, i ≠ gone → q' i = q i)
    (absent : rank.find? q = none) : (rank.filter fun i => decide (i ≠ gone)).find? q' = none := by
  refine List.find?_eq_none.mpr fun i member => ?_
  obtain ⟨old,kept⟩ := List.mem_filter.mp member
  rw [agree i (of_decide_eq_true kept)]
  exact List.find?_eq_none.mp absent i old

theorem head_filtered {rank : List Nat} (first : rank.head? = some h) (other : h ≠ gone) :
    (rank.filter fun i => decide (i ≠ gone)).head? = some h := by
  cases rank with
  | nil => cases first
  | cons i rest =>
    cases Option.some.inj first
    simp [other]

theorem ranking_removed (key : UInt64) {front back : List Candidate} {c : Candidate}
    (distinct : ((front ++ c :: back).map Candidate.backendIndex).Nodup) :
    hrwRank xxh64 key (front ++ back) = (hrwRank xxh64 key (front ++ c :: back)).filter fun i => decide (i ≠ c.backendIndex) := by
  have fewer : (front ++ back).Sublist (front ++ c :: back) := (List.sublist_cons_self c back).append_left front
  rw [hrwRank_filter xxh64 key distinct (distinct.sublist (fewer.map _)) fewer.subset]
  apply List.filter_congr
  intro i member
  have offered := (hrwRank_perm xxh64 key (front ++ c :: back)).mem_iff.mp member
  have once : c.backendIndex ∉ (front ++ back).map Candidate.backendIndex := by
    have moved : ((front ++ c :: back).map Candidate.backendIndex).Perm
        (c.backendIndex :: (front ++ back).map Candidate.backendIndex) := List.perm_middle.map _
    exact (List.nodup_cons.mp (moved.nodup_iff.mp distinct)).1
  rw [decide_eq_decide]
  constructor
  · rintro kept rfl
    exact once kept
  · intro other
    simp only [List.map_append,List.map_cons,List.mem_append,List.mem_cons] at offered ⊢
    tauto

theorem head_kept {front back : List Candidate} {c : Candidate}
    (distinct : ((front ++ c :: back).map Candidate.backendIndex).Nodup)
    (chosen : (prefixAffinityOrder xxh64 loadThreshold affinityKey (front ++ c :: back)).order.head? = some h)
    (other : h ≠ c.backendIndex) :
    (prefixAffinityOrder xxh64 loadThreshold affinityKey (front ++ back)).order.head? = some h := by
  rw [order_head] at chosen ⊢
  have agree : ∀ i, i ≠ c.backendIndex → (!overloaded loadThreshold (front ++ back) i) =
      !overloaded loadThreshold (front ++ c :: back) i := by
    intro i left
    simp only [overloaded,loadOf_removed front back left]
  rw [ranking_removed xxh64 _ distinct]
  cases found : (hrwRank xxh64 (xxh64 affinityKey) (front ++ c :: back)).find? fun i =>
      !overloaded loadThreshold (front ++ c :: back) i with
  | some first =>
    rw [found,Option.some_or] at chosen
    cases Option.some.inj chosen
    rw [find_kept agree found other,Option.some_or]
  | none =>
    rw [found,Option.none_or] at chosen
    rw [find_absent agree found,Option.none_or,head_filtered chosen other]

end Head

section Order
variable (loadThreshold : Float)

def Loaded (c : Candidate) : Prop := Float.ofInt c.activeRequests ≥ loadThreshold * Float.ofInt c.maxInFlight

variable {loadThreshold} {candidates : List Candidate} (distinct : (candidates.map Candidate.backendIndex).Nodup)
include distinct

theorem loadOf_own (member : c ∈ candidates) : loadOf candidates c.backendIndex = (c.activeRequests,c.maxInFlight) := by
  obtain ⟨front,back,rfl⟩ := List.append_of_mem member
  rw [List.map_append,List.map_cons] at distinct
  have earlier : front.find? (fun d => d.backendIndex == c.backendIndex) = none := by
    refine List.find?_eq_none.mpr fun d inside same => ?_
    have fresh := (List.nodup_append.mp distinct).2.2 _ (List.mem_map_of_mem inside) _ List.mem_cons_self
    exact fresh (eq_of_beq same)
  simp [loadOf,List.find?_append,earlier]

theorem overloaded_own (member : c ∈ candidates) :
    overloaded loadThreshold candidates c.backendIndex = true ↔ Loaded loadThreshold c := by
  simp only [overloaded,loadOf_own distinct member,decide_eq_true_iff,Loaded]

end Order

-- The guard passes over the overloaded leaders of the ranking.
theorem order_spilled (xxh64 : Bytes → UInt64) (loadThreshold : Float) (affinityKey : Bytes) (candidates : List Candidate)
    (ranked : hrwRank xxh64 (xxh64 affinityKey) candidates = leaders ++ chosen :: others)
    (loaded : ∀ i ∈ leaders, overloaded loadThreshold candidates i = true)
    (free : overloaded loadThreshold candidates chosen = false) :
    prefixAffinityOrder xxh64 loadThreshold affinityKey candidates = ⟨chosen :: (leaders ++ others),leaders.length⟩ := by
  have passed : (leaders ++ chosen :: others).takeWhile (overloaded loadThreshold candidates) = leaders := by
    rw [List.takeWhile_append_of_pos loaded,List.takeWhile_cons_of_neg (by simp [free]),List.append_nil]
  have some : candidates ≠ [] := by
    rintro rfl
    cases leaders <;> cases ranked
  simp [prefixAffinityOrder,some,ranked,passed]

theorem order_saturated (xxh64 : Bytes → UInt64) (loadThreshold : Float) (affinityKey : Bytes) (candidates : List Candidate)
    (loaded : ∀ i ∈ hrwRank xxh64 (xxh64 affinityKey) candidates, overloaded loadThreshold candidates i = true) :
    prefixAffinityOrder xxh64 loadThreshold affinityKey candidates =
      ⟨hrwRank xxh64 (xxh64 affinityKey) candidates,candidates.length⟩ := by
  have all := List.takeWhile_eq_self_iff.mpr loaded
  have length := (hrwRank_perm xxh64 (xxh64 affinityKey) candidates).length_eq
  rw [List.length_map] at length
  by_cases none : candidates = []
  · subst none
    rfl
  · simp [prefixAffinityOrder,none,all,length]

theorem affinity_order (xxh64 : Bytes → UInt64) (loadThreshold : Float) (affinityKey : Bytes) (candidates : List Candidate)
    (distinct : (candidates.map Candidate.backendIndex).Nodup) :
    let rank := hrwRank xxh64 (xxh64 affinityKey) candidates
    let out := prefixAffinityOrder xxh64 loadThreshold affinityKey candidates
    out.order.Perm (candidates.map Candidate.backendIndex) ∧
    ((∃ c ∈ candidates, ¬Loaded loadThreshold c) →
      ∃ leaders c others, rank = leaders ++ c.backendIndex :: others ∧ c ∈ candidates ∧ ¬Loaded loadThreshold c ∧
        (∀ d ∈ candidates, d.backendIndex ∈ leaders → Loaded loadThreshold d) ∧
        out.order = c.backendIndex :: (leaders ++ others) ∧ out.spills = leaders.length) ∧
    ((∀ c ∈ candidates, Loaded loadThreshold c) → out.order = rank ∧ out.spills = candidates.length) := by
  have perm := hrwRank_perm xxh64 (xxh64 affinityKey) candidates
  refine ⟨prefixAffinity_perm xxh64 loadThreshold affinityKey candidates,?_,?_⟩
  · rintro ⟨c,member,free⟩
    have some : ((hrwRank xxh64 (xxh64 affinityKey) candidates).find?
        fun i => !overloaded loadThreshold candidates i).isSome := by
      refine List.find?_isSome.mpr ⟨c.backendIndex,perm.mem_iff.mpr (List.mem_map_of_mem member),?_⟩
      have under : overloaded loadThreshold candidates c.backendIndex = false :=
        Bool.eq_false_of_not_eq_true fun loaded => free ((overloaded_own distinct member).mp loaded)
      rw [under]
      rfl
    obtain ⟨chosen,found⟩ := Option.isSome_iff_exists.mp some
    obtain ⟨fits,leaders,others,ranked,loaded⟩ := List.find?_eq_some_iff_append.mp found
    have inside : chosen ∈ hrwRank xxh64 (xxh64 affinityKey) candidates := by simp [ranked]
    obtain ⟨head,offered,rfl⟩ := List.mem_map.mp (perm.mem_iff.mp inside)
    have spilled := order_spilled xxh64 loadThreshold affinityKey candidates ranked (by simpa using loaded) (by simpa using fits)
    refine ⟨leaders,head,others,ranked,offered,?_,?_,congrArg RouteOrder.order spilled,congrArg RouteOrder.spills spilled⟩
    · intro loaded
      simp [(overloaded_own distinct offered).mpr loaded] at fits
    · intro d listed early
      have passed := loaded d.backendIndex early
      exact (overloaded_own distinct listed).mp (by simpa using passed)
  · intro loaded
    have saturated := order_saturated xxh64 loadThreshold affinityKey candidates fun i inside => by
      obtain ⟨c,listed,rfl⟩ := List.mem_map.mp (perm.mem_iff.mp inside)
      exact (overloaded_own distinct listed).mpr (loaded c listed)
    exact ⟨congrArg RouteOrder.order saturated,congrArg RouteOrder.spills saturated⟩

-- The ranking depends on the set of backends alone, ranking fewer backends drops
-- the others from it, and only the loss of the chosen head changes the head.
theorem minimal_reshuffle (xxh64 : Bytes → UInt64) (candidates : List Candidate)
    (distinct : (candidates.map Candidate.backendIndex).Nodup) :
    (∀ key others, (others.map Candidate.backendIndex).Nodup →
      (∀ i, i ∈ others.map Candidate.backendIndex ↔ i ∈ candidates.map Candidate.backendIndex) →
      hrwRank xxh64 key others = hrwRank xxh64 key candidates) ∧
    (∀ key subset, (subset.map Candidate.backendIndex).Nodup → subset ⊆ candidates →
      hrwRank xxh64 key subset =
        (hrwRank xxh64 key candidates).filter fun i => decide (i ∈ subset.map Candidate.backendIndex)) ∧
    (∀ loadThreshold affinityKey front c back h, candidates = front ++ c :: back →
      (prefixAffinityOrder xxh64 loadThreshold affinityKey candidates).order.head? = some h → h ≠ c.backendIndex →
      (prefixAffinityOrder xxh64 loadThreshold affinityKey (front ++ back)).order.head? = some h) := by
  refine ⟨?_,?_,?_⟩
  · intro key others single same
    exact hrwRank_perm_eq xxh64 key ((List.perm_ext_iff_of_nodup single distinct).mpr same)
  · intro key subset single inside
    exact hrwRank_filter xxh64 key distinct single inside
  · rintro loadThreshold affinityKey front c back h rfl chosen other
    exact head_kept xxh64 loadThreshold affinityKey distinct chosen other

-- Three backends with equal scores and loads.
def three : List Candidate := [⟨0,4,8⟩,⟨1,4,8⟩,⟨2,4,8⟩]

theorem three_head : (prefixAffinityOrder (fun _ => 0) 0.8 [] three).order.head? = some 0 := by
  have rank : hrwRank (fun _ => 0) 0 three = [0,1,2] := by decide
  rw [order_head,rank]
  have same : ∀ i ∈ [0,1,2], overloaded 0.8 three i = overloaded 0.8 three 0 := by
    simp [overloaded,loadOf,three]
  cases load : overloaded 0.8 three 0 <;> simp_all

theorem minimal_reshuffle_three :
    hrwRank (fun _ => 0) 0 [⟨2,4,8⟩,⟨0,4,8⟩,⟨1,4,8⟩] = [0,1,2] ∧ hrwRank (fun _ => 0) 0 [⟨0,4,8⟩,⟨2,4,8⟩] = [0,2] ∧
    (prefixAffinityOrder (fun _ => 0) 0.8 [] [⟨0,4,8⟩,⟨1,4,8⟩]).order.head? = some 0 := by
  have rank : hrwRank (fun _ => 0) 0 three = [0,1,2] := by decide
  obtain ⟨permuted,restricted,kept⟩ := minimal_reshuffle (fun _ => 0) three (by decide)
  refine ⟨(permuted 0 [⟨2,4,8⟩,⟨0,4,8⟩,⟨1,4,8⟩] (by decide) ?_).trans rank,?_,?_⟩
  · intro i
    simp [three]
    omega
  · rw [restricted 0 [⟨0,4,8⟩,⟨2,4,8⟩] (by decide) (by decide),rank]
    decide
  · exact kept 0.8 [] [⟨0,4,8⟩,⟨1,4,8⟩] ⟨2,4,8⟩ [] 0 rfl three_head (by decide)

theorem affinity_order_three : (prefixAffinityOrder (fun _ => 0) 0.8 [] three).order.Perm [0,1,2] ∧
    ((∀ c ∈ three, Loaded 0.8 c) → (prefixAffinityOrder (fun _ => 0) 0.8 [] three).spills = 3) := by
  obtain ⟨perm,-,saturated⟩ := affinity_order (fun _ => 0) 0.8 [] three (by decide)
  exact ⟨perm,fun loaded => (saturated loaded).2⟩

end Kvmux.Affinity
