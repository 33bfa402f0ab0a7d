import Mathlib.Data.List.Basic

namespace Atomic

-- One atomic object: the values it has had, in its modification order. A reader's
-- view is the position up to which it has seen them; a relaxed load reads there
-- or at any later position, a read-modify-write always at the last one.
structure Cell (V : Type) where
  first : V
  writes : List V := []
  deriving DecidableEq, Repr

variable {V : Type} {c : Cell V} {i view : Nat}

namespace Cell

def order (c : Cell V) : List V := c.first :: c.writes

def last (c : Cell V) : Nat := c.writes.length

def current (c : Cell V) : V := c.writes.getLast?.getD c.first

def write (c : Cell V) (v : V) : Cell V := {c with writes := c.writes ++ [v]}

def read (c : Cell V) (view i : Nat) : Option V := if view ≤ i then c.order[i]? else none

@[simp] theorem last_write (c : Cell V) (v : V) : (c.write v).last = c.last + 1 := List.length_append

@[simp] theorem current_write (c : Cell V) (v : V) : (c.write v).current = v := by simp [current,write]

theorem order_write (c : Cell V) (v : V) : (c.write v).order = c.order ++ [v] := rfl

theorem order_last (c : Cell V) : c.order[c.last]? = some c.current := by
  have ends : c.order.getLast? = some c.current := List.getLast?_cons
  rw [← ends,List.getLast?_eq_getElem?]
  rfl

theorem order_kept (found : c.order[i]? = some v) (w : V) : (c.write w).order[i]? = some v := by
  rw [order_write,List.getElem?_append_left (List.getElem?_eq_some_iff.mp found).1]
  exact found

theorem order_written (c : Cell V) (v : V) : (c.write v).order[c.last + 1]? = some v := by
  rw [← last_write c v,order_last,current_write]

theorem order_inside (found : c.order[i]? = some v) : i ≤ c.last :=
  Nat.le_of_lt_succ (List.getElem?_eq_some_iff.mp found).1

theorem read_some : c.read view i = some v ↔ view ≤ i ∧ c.order[i]? = some v := by
  unfold read
  split
  · rename_i later
    exact ⟨fun found => ⟨later,found⟩,fun both => both.2⟩
  · rename_i early
    exact ⟨nofun,fun both => absurd both.1 early⟩

end Cell
end Atomic
