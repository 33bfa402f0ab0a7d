import Mathlib.Data.List.Basic
import Mathlib.Data.List.GetD
import Mathlib.Data.List.Rotate
import Mathlib.Data.Nat.ModEq
import Kvmux.Balance
import Kvmux.Fleet
import Kvmux.Routing
import Kvmux.Transducer

namespace Kvmux.RoundRobin
open Routing Transducer

def order (cursor : UInt64) (candidates : List Candidate) : RouteOrder × UInt64 :=
  if candidates = [] then ({},cursor) else (roundRobinOrder cursor candidates,cursor + 1)

def call (cursor : UInt64) (candidates : List Candidate) : List RouteOrder × UInt64 :=
  ([(order cursor candidates).1],(order cursor candidates).2)

section Rotations

-- The cursor leaves room for the list at every call.
def Room : UInt64 → List (List Candidate) → Prop
  | _,[] => True
  | cursor,candidates :: rest => cursor.toNat + candidates.length ≤ 2 ^ 64 ∧ Room (order cursor candidates).2 rest

theorem order_rotates (some : candidates ≠ []) (fits : cursor.toNat + candidates.length ≤ 2 ^ 64) :
    (order cursor candidates).1.order = (candidates.map Candidate.backendIndex).rotate cursor.toNat := by
  rw [order,if_neg some]
  exact roundRobin_rotation fits

-- The next call rotates by one more, also where a list of one lets the cursor wrap.
theorem cursor_next {cursor : UInt64} {length : Nat} (fits : cursor.toNat + length ≤ 2 ^ 64) (some : 0 < length) :
    (cursor + 1).toNat % length = (cursor.toNat + 1) % length := by
  have bound := cursor.toNat_lt
  rw [UInt64.toNat_add]
  rcases Nat.lt_or_ge (cursor.toNat + 1) (2 ^ 64) with small | large
  · rw [show (1 : UInt64).toNat = 1 from rfl,Nat.mod_eq_of_lt small]
  · obtain rfl : length = 1 := by omega
    rw [Nat.mod_one,Nat.mod_one]

theorem window_rotates (full : candidates ≠ []) (room : Room cursor (List.replicate m candidates)) (bound : j < m) :
    ∃ out, (run call cursor (List.replicate m candidates)).1[j]? = some out ∧
      out.order = (candidates.map Candidate.backendIndex).rotate (cursor.toNat + j) := by
  induction m generalizing cursor j with
  | zero => exact absurd bound (Nat.not_lt_zero j)
  | succ m ih =>
    obtain ⟨fits,later⟩ := room
    rw [List.replicate_succ,run_cons]
    cases j with
    | zero => exact ⟨_,rfl,order_rotates full fits⟩
    | succ j =>
      obtain ⟨out,found,rotated⟩ := ih later (Nat.lt_of_succ_lt_succ bound)
      refine ⟨out,found,rotated.trans ?_⟩
      have next : (order cursor candidates).2 = cursor + 1 := by rw [order,if_neg full]
      rw [next,← List.rotate_mod,← List.rotate_mod _ (cursor.toNat + (j + 1)),List.length_map,Nat.add_mod,
        cursor_next fits (List.length_pos_of_ne_nil full),← Nat.add_mod]
      congr 2
      omega

theorem calls_length (cursor : UInt64) (calls : List (List Candidate)) : (run call cursor calls).1.length = calls.length := by
  induction calls generalizing cursor with
  | nil => rfl
  | cons candidates rest ih =>
    rw [run_cons,List.length_append,ih,List.length_cons,Nat.add_comm]
    rfl

-- Of as many consecutive offsets as there are places, one leads to a given place.
theorem offset_found {i n : Nat} (place : i < n) (base : Nat) : ∃ j < n, (base + j) % n = i := by
  have residue := Nat.mod_lt base (Nat.zero_lt_of_lt place)
  refine ⟨(i + (n - base % n)) % n,Nat.mod_lt _ (Nat.zero_lt_of_lt place),?_⟩
  have sum : base % n + (i + (n - base % n)) = i + n := by omega
  rw [Nat.add_mod_mod,← Nat.mod_add_mod,sum,Nat.add_mod_right,Nat.mod_eq_of_lt place]

theorem offset_unique {base j k n : Nat} (first : j < n) (second : k < n) (same : (base + j) % n = (base + k) % n) : j = k := by
  have equal : j ≡ k [MOD n] := Nat.ModEq.add_left_cancel' base same
  exact equal.eq_of_lt_of_lt first second

-- The backend at a position of one of the orders of a window.
theorem window_position (full : candidates ≠ []) (room : Room cursor (List.replicate m candidates)) (bound : j < m)
    (position : p < candidates.length) :
    ((run call cursor (List.replicate m candidates)).1[j]?.bind fun out : RouteOrder => out.order[p]?) =
      (candidates.map Candidate.backendIndex)[(p + cursor.toNat + j) % candidates.length]? := by
  obtain ⟨out,found,rotated⟩ := window_rotates full room bound
  rw [found,Option.bind_some,rotated,List.getElem?_rotate (by simpa using position),List.length_map,Nat.add_assoc]

theorem round_robin_fair (before : List (List Candidate)) (candidates : List Candidate) (full : candidates ≠ []) :
    let cursor := (run call 0 before).2
    (cursor.toNat + candidates.length ≤ 2 ^ 64 →
      ∃ k < candidates.length, (order cursor candidates).1.order = (candidates.map Candidate.backendIndex).rotate k) ∧
    ((candidates.map Candidate.backendIndex).Nodup → Room cursor (List.replicate candidates.length candidates) →
      ∀ c ∈ candidates, ∀ p < candidates.length, ∃! j : Nat,
        ((run call cursor (List.replicate candidates.length candidates)).1[j]?.bind fun out : RouteOrder => out.order[p]?) =
          some c.backendIndex) := by
  intro cursor
  constructor
  · intro fits
    refine ⟨cursor.toNat % candidates.length,Nat.mod_lt _ (List.length_pos_of_ne_nil full),?_⟩
    have turned := List.rotate_mod (candidates.map Candidate.backendIndex) cursor.toNat
    rw [List.length_map] at turned
    rw [order_rotates full fits,turned]
  · intro distinct room c member p position
    obtain ⟨i,found⟩ : ∃ i : Nat, (candidates.map Candidate.backendIndex)[i]? = some c.backendIndex :=
      List.getElem?_of_mem (List.mem_map_of_mem member)
    obtain ⟨place,-⟩ := List.getElem?_eq_some_iff.mp found
    obtain ⟨j,bound,leads⟩ := offset_found (by simpa using place) (p + cursor.toNat)
    rw [← leads] at found
    refine ⟨j,(window_position full room bound position).trans found,fun k shown => ?_⟩
    have inside : k < candidates.length := by
      obtain ⟨out,within,-⟩ := Option.bind_eq_some_iff.mp shown
      obtain ⟨short,-⟩ := List.getElem?_eq_some_iff.mp within
      rwa [calls_length,List.length_replicate] at short
    have equal := ((window_position full room inside position).symm.trans shown).trans found.symm
    have target : (p + cursor.toNat + k) % candidates.length < (candidates.map Candidate.backendIndex).length := by
      rw [List.length_map]
      exact Nat.mod_lt _ (List.length_pos_of_ne_nil full)
    exact offset_unique inside bound ((List.getElem?_inj target distinct).mp equal)

-- Three backends after a call on another list.
theorem round_robin_fair_three :
    (order (run call 0 [[⟨7,0,8⟩]]).2 [⟨0,0,8⟩,⟨1,0,8⟩,⟨2,0,8⟩]).1.order = [1,2,0] ∧
    ∃! j : Nat, ((run call (run call 0 [[⟨7,0,8⟩]]).2 (List.replicate 3 [⟨0,0,8⟩,⟨1,0,8⟩,⟨2,0,8⟩])).1[j]?.bind
      fun out : RouteOrder => out.order[1]?) = some 0 := by
  obtain ⟨-,fair⟩ := round_robin_fair [[⟨7,0,8⟩]] [⟨0,0,8⟩,⟨1,0,8⟩,⟨2,0,8⟩] (by decide)
  refine ⟨by decide +kernel,fair (by decide) ?_ ⟨0,0,8⟩ (by decide) 1 (by decide)⟩
  exact ⟨by decide +kernel,by decide +kernel,by decide +kernel,trivial⟩

end Rotations
section Mixed
open Balance Coroutine Gateway OpenAi Fleet

-- A request with the candidates that the gateway found for it.
structure Arrival where
  creq : ChatCompletionRequest
  candidates : List Candidate

theorem orderCandidates_order (policy : env.cfg.routing.policy = .roundRobin) (i : Nat) (s : State)
    (creq : ChatCompletionRequest) (candidates : List Candidate) :
    stop (host env) i s (orderCandidates env creq candidates) =
      ({s with cursor := (order s.cursor candidates).2},.ret (some (order s.cursor candidates).1)) := by
  unfold orderCandidates order
  rw [policy]
  dsimp only
  split
  · rfl
  · rfl

def firstOf : Prog (Option RouteOrder) → Option Nat
  | .ret (some ordered) => ordered.order.head?
  | _ => none

-- The backends ordered first for the requests of one model, as the gateway
-- orders the candidates of one request after another.
def pick (env : Env) (model : Bytes) (s : State) (arrival : Arrival) : List Nat × State :=
  let out := stop (host env) 0 s (orderCandidates env arrival.creq arrival.candidates)
  (if arrival.creq.model = model then (firstOf out.2).toList else [],out.1)

def firsts (env : Env) (model : Bytes) (arrivals : List Arrival) : List Nat :=
  (run (pick env model) (construct env.cfg) arrivals).1

-- The turns at which the requests of one model come: a request takes a turn
-- when its model has candidates, and turns are counted in 64 bits.
def turnsFrom (lists : Bytes → List Nat) (model : Bytes) : Nat → List Bytes → List Nat
  | _,[] => []
  | turn,other :: rest =>
    if lists other = [] then turnsFrom lists model turn rest
    else if other = model then turn :: turnsFrom lists model ((turn + 1) % 2 ^ 64) rest
    else turnsFrom lists model ((turn + 1) % 2 ^ 64) rest

def turns (lists : Bytes → List Nat) (model : Bytes) (arrivals : List Arrival) : List Nat :=
  turnsFrom lists model 0 (arrivals.map fun arrival => arrival.creq.model)

theorem order_first (full : candidates ≠ []) (sized : candidates.length < 2 ^ 64) (cursor : UInt64) :
    (roundRobinOrder cursor candidates).order.head? =
      (candidates.map Candidate.backendIndex)[cursor.toNat % candidates.length]? := by
  have start : ((cursor + (0 : Nat).toUInt64) % candidates.length.toUInt64).toNat = cursor.toNat % candidates.length := by
    rw [show cursor + (0 : Nat).toUInt64 = cursor from UInt64.add_zero cursor,UInt64.toNat_mod,UInt64.toNat_ofNat_of_lt' sized]
  have some := List.length_pos_of_ne_nil full
  have place := Nat.mod_lt cursor.toNat some
  obtain ⟨more,length⟩ : ∃ more, candidates.length = more + 1 := ⟨candidates.length - 1,by omega⟩
  have range : List.range candidates.length = 0 :: (List.range more).map Nat.succ := by rw [length,List.range_succ_eq_map]
  rw [roundRobinOrder]
  dsimp only
  rw [range,List.filterMap_cons,start,List.getElem?_map,List.getElem?_eq_getElem place]
  rfl

section Turns
variable {env : Env} {lists : Bytes → List Nat} {model : Bytes} (policy : env.cfg.routing.policy = .roundRobin)
  (sized : ∀ model, (lists model).length < 2 ^ 64)

theorem turnsFrom_none (none : lists model = []) (turn : Nat) (models : List Bytes) : turnsFrom lists model turn models = [] := by
  induction models generalizing turn with
  | nil => rfl
  | cons other rest ih =>
    unfold turnsFrom
    split
    · exact ih turn
    · rename_i full
      split
      · rename_i same
        rw [same] at full
        exact absurd none full
      · exact ih _

theorem pick_single (env : Env) (model : Bytes) (s : State) (arrival : Arrival) : (pick env model s arrival).1.length ≤ 1 := by
  unfold pick
  dsimp only
  split
  · exact Option.length_toList_le
  · exact Nat.zero_le 1

include policy

theorem pick_idle (none : arrival.candidates = []) (s : State) : pick env model s arrival = ([],s) := by
  unfold pick
  rw [orderCandidates_order policy,none]
  simp [order,firstOf]

include sized

theorem pick_turn (fixed : arrival.candidates.map Candidate.backendIndex = lists arrival.creq.model)
    (full : lists arrival.creq.model ≠ []) (s : State) :
    pick env model s arrival =
      (if arrival.creq.model = model then [(lists model).getD (s.cursor.toNat % (lists model).length) 0] else [],
        {s with cursor := s.cursor + 1}) := by
  have some : arrival.candidates ≠ [] := by
    intro none
    rw [none] at fixed
    exact full fixed.symm
  have length : arrival.candidates.length = (lists arrival.creq.model).length := by rw [← fixed,List.length_map]
  have place := Nat.mod_lt s.cursor.toNat (List.length_pos_of_ne_nil full)
  have first := order_first some (by rw [length]; exact sized _) s.cursor
  rw [fixed,length,List.getElem?_eq_getElem place] at first
  unfold pick
  rw [orderCandidates_order policy,order,if_neg some]
  dsimp only [firstOf]
  rw [first]
  split
  · rename_i same
    subst same
    rw [List.getD_eq_getElem _ _ place]
    rfl
  · rfl

theorem firsts_turns {arrivals : List Arrival}
    (fixed : ∀ arrival ∈ arrivals, arrival.candidates.map Candidate.backendIndex = lists arrival.creq.model) (s : State) :
    (run (pick env model) s arrivals).1 =
      (turnsFrom lists model s.cursor.toNat (arrivals.map fun arrival => arrival.creq.model)).map fun turn =>
        (lists model).getD (turn % (lists model).length) 0 := by
  induction arrivals generalizing s with
  | nil => rfl
  | cons arrival rest ih =>
    obtain ⟨own,others⟩ := List.forall_mem_cons.mp fixed
    rw [run_cons,List.map_cons,turnsFrom]
    by_cases none : lists arrival.creq.model = []
    · have idle : arrival.candidates = [] := List.map_eq_nil_iff.mp (own.trans none)
      rw [pick_idle policy idle,if_pos none]
      exact ih others s
    · have next : (s.cursor + 1).toNat = (s.cursor.toNat + 1) % 2 ^ 64 := UInt64.toNat_add _ _
      rw [pick_turn policy sized own none,if_neg none]
      dsimp only
      rw [ih others,next]
      split
      · rfl
      · rfl

end Turns

theorem spread_evenly (policy : env.cfg.routing.policy = .roundRobin) (distinct : ∀ model, (lists model).Nodup)
    (sized : ∀ model, (lists model).length < 2 ^ 64) {arrivals : List Arrival}
    (fixed : ∀ arrival ∈ arrivals, arrival.candidates.map Candidate.backendIndex = lists arrival.creq.model) (model : Bytes) :
    (∀ past, past <+: arrivals → Level (lists model) (firsts env model past)) ↔
      Laps (lists model).length ((turns lists model arrivals).map (· % (lists model).length)) := by
  have shown : firsts env model arrivals = ((turns lists model arrivals).map (· % (lists model).length)).map
      fun place => (lists model).getD place 0 := by
    rw [firsts,firsts_turns policy sized fixed,List.map_map]
    rfl
  have places : ∀ place ∈ (turns lists model arrivals).map (· % (lists model).length), place < (lists model).length := by
    intro place member
    obtain ⟨turn,taken,rfl⟩ := List.mem_map.mp member
    refine Nat.mod_lt _ (List.length_pos_of_ne_nil fun none => ?_)
    rw [turns,turnsFrom_none none] at taken
    cases taken
  have inside : ∀ b ∈ firsts env model arrivals, b ∈ lists model := by
    intro b member
    rw [shown] at member
    obtain ⟨place,found,rfl⟩ := List.mem_map.mp member
    rw [List.getD_eq_getElem _ _ (places place found)]
    exact List.getElem_mem _
  have steady : (∀ past, past <+: arrivals → Level (lists model) (firsts env model past)) ↔
      Steady (lists model) (firsts env model arrivals) := by
    constructor
    · intro level out early
      obtain ⟨past,within,rfl⟩ := run_early (pick_single env model) early
      exact level past within
    · exact fun steady past within => steady _ (run_front within _)
  rw [steady,steady_iff (distinct model) inside,shown]
  exact laps_map fun x one y two => (List.getD_inj (places x one) (places y two) (distinct model)).mp

def asking (model : String) : Arrival := ⟨{model := text model,messages := [],raw := .null},[⟨0,0,8⟩,⟨1,0,8⟩]⟩

def pair (_ : Bytes) : List Nat := [0,1]

def mixed : List Arrival := [asking "m",asking "n",asking "n",asking "m"]

-- Both models are requested, and each finds the cursor at both its candidates.
theorem spread_evenly_mixed :
    (Laps 2 ((turns pair (text "m") mixed).map (· % 2)) ∧ Level [0,1] (firsts (sampleEnv ["a","b"]) (text "m") mixed)) ∧
    Laps 2 ((turns pair (text "n") mixed).map (· % 2)) ∧ Level [0,1] (firsts (sampleEnv ["a","b"]) (text "n") mixed) := by
  have policy : (sampleEnv ["a","b"]).cfg.routing.policy = .roundRobin := rfl
  have distinct : ∀ model, (pair model).Nodup := fun _ => show [0,1].Nodup by decide
  have sized : ∀ model, (pair model).length < 2 ^ 64 := fun _ => show 2 < 2 ^ 64 by decide
  have fixed : ∀ arrival ∈ mixed, arrival.candidates.map Candidate.backendIndex = pair arrival.creq.model := by
    simp [mixed,asking,pair]
  have one : Laps 2 ((turns pair (text "m") mixed).map (· % 2)) := by decide +kernel
  have two : Laps 2 ((turns pair (text "n") mixed).map (· % 2)) := by decide +kernel
  exact ⟨⟨one,(spread_evenly policy distinct sized fixed (text "m")).mpr one _ (List.prefix_refl _)⟩,
    two,(spread_evenly policy distinct sized fixed (text "n")).mpr two _ (List.prefix_refl _)⟩

-- Two models that take turns: one of them always finds the cursor at its first
-- candidate, the other always at its second.
theorem alternating_uneven :
    firsts (sampleEnv ["a","b"]) (text "m") [asking "m",asking "n",asking "m",asking "n"] = [0,0] ∧
    firsts (sampleEnv ["a","b"]) (text "n") [asking "m",asking "n",asking "m",asking "n"] = [1,1] ∧
    ¬Level [0,1] (firsts (sampleEnv ["a","b"]) (text "m") [asking "m",asking "n",asking "m",asking "n"]) := by
  decide +kernel

end Mixed
end Kvmux.RoundRobin
