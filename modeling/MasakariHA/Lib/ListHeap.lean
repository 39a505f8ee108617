import Mathlib.Order.Nat
import MasakariHA.Lib.Ensures

/-!
# Mutable lists

Lists as objects of a heap. Two names for one list are one address, and a list that is extended is
so under all of its names.

* `alloc`, `read`, `extend`, `append`: the operations, with their rules for `Ensures`;
* `Keeps`: the lists that existed are as they were, which new lists and what is done to them leave
  true.
-/

namespace MasakariHA.Lib

/-- The lists by their addresses; those from `next` on are free. -/
structure ListHeap (α : Type) where
  cell : Nat → List α
  next : Nat

namespace ListHeap

variable {ε α : Type}

def empty : ListHeap α := ⟨fun _ => [], 0⟩

/-- The heap with a new list, at the address `next`. -/
def put (h : ListHeap α) (l : List α) : ListHeap α :=
  ⟨Function.update h.cell h.next l, h.next + 1⟩

/-- The heap with more elements in a list. -/
def add (h : ListHeap α) (a : Nat) (l : List α) : ListHeap α :=
  { h with cell := Function.update h.cell a (h.cell a ++ l) }

section Cells

variable {h : ListHeap α} {a b : Nat} {l : List α}

@[simp] theorem put_next : (h.put l).next = h.next + 1 := rfl

@[simp] theorem put_cell_next : (h.put l).cell h.next = l := Function.update_self _ _ _

theorem put_cell_of_ne (hb : b ≠ h.next) : (h.put l).cell b = h.cell b :=
  Function.update_of_ne hb _ _

@[simp] theorem add_next : (h.add a l).next = h.next := rfl

@[simp] theorem add_cell_self : (h.add a l).cell a = h.cell a ++ l := Function.update_self _ _ _

theorem add_cell_of_ne (hb : b ≠ a) : (h.add a l).cell b = h.cell b :=
  Function.update_of_ne hb _ _

end Cells

/-! ## Operations -/

/-- A new list. -/
def alloc (l : List α) : EStateM ε (ListHeap α) Nat := do
  let h ← get
  set (h.put l)
  pure h.next

def read (a : Nat) : EStateM ε (ListHeap α) (List α) := do
  let h ← get
  pure (h.cell a)

/-- `a.extend(l)`. -/
def extend (a : Nat) (l : List α) : EStateM ε (ListHeap α) Unit := modify (·.add a l)

def append (a : Nat) (x : α) : EStateM ε (ListHeap α) Unit := extend a [x]

section Rules

variable {h : ListHeap α} {a : Nat} {l : List α} {E : ε → ListHeap α → Prop}

@[simp] theorem ensures_alloc {Q : Nat → ListHeap α → Prop} :
    Ensures (alloc l) h Q E ↔ Q h.next (h.put l) := by
  simp [alloc]

@[simp] theorem ensures_read {Q : List α → ListHeap α → Prop} :
    Ensures (read a) h Q E ↔ Q (h.cell a) h := by
  simp [read]

@[simp] theorem ensures_extend {Q : Unit → ListHeap α → Prop} :
    Ensures (extend a l) h Q E ↔ Q () (h.add a l) := ensures_modify _ _

@[simp] theorem ensures_append {x : α} {Q : Unit → ListHeap α → Prop} :
    Ensures (append a x) h Q E ↔ Q () (h.add a [x]) := ensures_extend

end Rules

/-! ## Frames -/

/-- The lists of the first heap are in the second one as they were. -/
structure Keeps (h h' : ListHeap α) : Prop where
  next_le : h.next ≤ h'.next
  cell_eq : ∀ a < h.next, h'.cell a = h.cell a

namespace Keeps

variable {h h' h'' : ListHeap α} {a : Nat} {l : List α}

theorem refl (h : ListHeap α) : Keeps h h := ⟨le_rfl, fun _ _ => rfl⟩

theorem trans (hk : Keeps h h') (hk' : Keeps h' h'') : Keeps h h'' where
  next_le := hk.next_le.trans hk'.next_le
  cell_eq a ha := (hk'.cell_eq a (ha.trans_le hk.next_le)).trans (hk.cell_eq a ha)

theorem put (hk : Keeps h h') : Keeps h (h'.put l) where
  next_le := hk.next_le.trans (Nat.le_succ _)
  cell_eq a ha := by
    rw [put_cell_of_ne (ha.trans_le hk.next_le).ne, hk.cell_eq a ha]

/-- A list that is newer may be extended. -/
theorem add (hk : Keeps h h') (ha : h.next ≤ a) : Keeps h (h'.add a l) where
  next_le := hk.next_le
  cell_eq b hb := by rw [add_cell_of_ne (hb.trans_le ha).ne, hk.cell_eq b hb]

end Keeps

end ListHeap

end MasakariHA.Lib
