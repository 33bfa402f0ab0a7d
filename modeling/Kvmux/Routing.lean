import Mathlib.Algebra.Ring.Nat
import Mathlib.Data.List.Basic
import Mathlib.Data.List.Rotate
import Mathlib.Data.List.Sort
import Kvmux.Bytes

namespace Kvmux.Routing

structure Candidate where
  backendIndex : Nat
  activeRequests : Int
  maxInFlight : Int
  deriving DecidableEq, Repr

structure RouteOrder where
  order : List Nat := []
  spills : Nat := 0
  deriving DecidableEq, Repr

def appendCapped (budget : Nat) (out s : Bytes) : Bytes :=
  if out.length ≥ budget then out else out ++ s.take (budget - out.length)

def canonicalAffinityString (model : Bytes) (msgs : List (Bytes × Bytes)) (prefixBytes : Int) : Bytes :=
  let budget := prefixBytes.toNat
  let append := appendCapped budget
  msgs.foldl (fun out msg => if out.length ≥ budget then out else append (append (append out msg.1) [colon]) msg.2)
    (append (append [] model) [0x1f])

-- The eight bytes of a 64-bit word as they lie in memory, lowest first.
def wordBytes (word : UInt64) : Bytes := (List.range 8).map fun i => (word >>> (8 * i).toUInt64).toUInt8

structure Scored where
  backendIndex : Nat
  score : UInt64

def Scored.before (a b : Scored) : Bool :=
  if a.score ≠ b.score then decide (a.score > b.score) else decide (a.backendIndex ≤ b.backendIndex)

-- XXH64 itself is a parameter.
def hrwRank (xxh64 : Bytes → UInt64) (key : UInt64) (candidates : List Candidate) : List Nat :=
  let scored := candidates.map fun c =>
    ({backendIndex := c.backendIndex,score := xxh64 (wordBytes key ++ wordBytes c.backendIndex.toUInt64)} : Scored)
  (scored.insertionSort fun a b => a.before b = true).map Scored.backendIndex

def loadOf (candidates : List Candidate) (backendIndex : Nat) : Int × Int :=
  match candidates.find? fun c => c.backendIndex == backendIndex with
  | some c => (c.activeRequests,c.maxInFlight)
  | none => (0,1)

def overloaded (loadThreshold : Float) (candidates : List Candidate) (backendIndex : Nat) : Bool :=
  let load := loadOf candidates backendIndex
  decide (Float.ofInt load.1 ≥ loadThreshold * Float.ofInt load.2)

def prefixAffinityOrder (xxh64 : Bytes → UInt64) (loadThreshold : Float) (affinityKey : Bytes)
    (candidates : List Candidate) : RouteOrder :=
  if candidates = [] then {} else
  let rank := hrwRank xxh64 (xxh64 affinityKey) candidates
  let head := (rank.takeWhile (overloaded loadThreshold candidates)).length
  match rank[head]? with
  | none => ⟨rank,head⟩
  | some chosen => ⟨chosen :: (rank.take head ++ rank.drop (head + 1)),head⟩

def roundRobinOrder (start : UInt64) (candidates : List Candidate) : RouteOrder :=
  ⟨(List.range candidates.length).filterMap fun i =>
    candidates[((start + i.toUInt64) % candidates.length.toUInt64).toNat]?.map Candidate.backendIndex,0⟩

-- Prefix affinity returns every candidate once; round robin does as long as its
-- cursor does not wrap.
theorem hrwRank_perm (xxh64 : Bytes → UInt64) (key : UInt64) (candidates : List Candidate) :
    (hrwRank xxh64 key candidates).Perm (candidates.map Candidate.backendIndex) := by
  have sorted := (List.perm_insertionSort (fun a b => Scored.before a b = true) (candidates.map fun c =>
    ({backendIndex := c.backendIndex,score := xxh64 (wordBytes key ++ wordBytes c.backendIndex.toUInt64)} : Scored))).map
      Scored.backendIndex
  simpa [hrwRank,Function.comp_def] using sorted

theorem prefixAffinity_perm (xxh64 : Bytes → UInt64) (loadThreshold : Float) (affinityKey : Bytes)
    (candidates : List Candidate) :
    (prefixAffinityOrder xxh64 loadThreshold affinityKey candidates).order.Perm (candidates.map Candidate.backendIndex) := by
  unfold prefixAffinityOrder
  split
  · rename_i none
    rw [none]
    exact .nil
  · refine List.Perm.trans ?_ (hrwRank_perm xxh64 (xxh64 affinityKey) candidates)
    dsimp only
    split
    · exact .refl _
    · rename_i chosen found
      obtain ⟨bound,rfl⟩ := List.getElem?_eq_some_iff.mp found
      refine List.perm_middle.symm.trans ?_
      rw [List.cons_getElem_drop_succ,List.take_append_drop]

theorem cursor_pick {start : UInt64} (fits : start.toNat + n ≤ 2 ^ 64) (bound : i < n) :
    ((start + i.toUInt64) % n.toUInt64).toNat = (i + start.toNat) % n := by
  have offset : i.toUInt64.toNat = i := UInt64.toNat_ofNat_of_lt' (by simp [UInt64.size]; omega)
  have sum : (start + i.toUInt64).toNat = i + start.toNat := by
    rw [UInt64.toNat_add,offset,Nat.mod_eq_of_lt (by omega),Nat.add_comm]
  rw [UInt64.toNat_mod,sum]
  rcases Nat.lt_or_ge n (2 ^ 64) with small | large
  · rw [UInt64.toNat_ofNat_of_lt' small]
  · obtain rfl : n = 2 ^ 64 := by omega
    have wrapped : (2 ^ 64).toUInt64.toNat = 0 := rfl
    rw [wrapped,Nat.mod_zero,Nat.mod_eq_of_lt (by omega)]

theorem range_getElem? {X : Type} (xs : List X) : (List.range xs.length).filterMap (xs[·]?) = xs := by
  induction xs with
  | nil => rfl
  | cons x rest ih => simpa [List.range_succ_eq_map,List.filterMap_map,Function.comp_def] using ih

theorem roundRobin_rotation (fits : start.toNat + candidates.length ≤ 2 ^ 64) :
    (roundRobinOrder start candidates).order = (candidates.map Candidate.backendIndex).rotate start.toNat := by
  have picked : ∀ i ∈ List.range candidates.length,
      candidates[((start + i.toUInt64) % candidates.length.toUInt64).toNat]?.map Candidate.backendIndex =
        ((candidates.map Candidate.backendIndex).rotate start.toNat)[i]? := by
    intro i inside
    have bound := List.mem_range.mp inside
    rw [cursor_pick fits bound,List.getElem?_rotate (by simpa using bound),List.getElem?_map,List.length_map]
  simp only [roundRobinOrder]
  rw [List.filterMap_congr picked]
  have whole := range_getElem? ((candidates.map Candidate.backendIndex).rotate start.toNat)
  simpa using whole

theorem roundRobin_offered (member : b ∈ (roundRobinOrder start candidates).order) :
    ∃ c ∈ candidates, c.backendIndex = b := by
  simp only [roundRobinOrder,List.mem_filterMap,Option.map_eq_some_iff] at member
  obtain ⟨i,-,c,found,rfl⟩ := member
  exact ⟨c,List.mem_of_getElem? found,rfl⟩

end Kvmux.Routing
