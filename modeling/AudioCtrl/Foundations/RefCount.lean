import Mathlib.Algebra.BigOperators.Group.Finset.Basic
import Mathlib.Algebra.Order.BigOperators.Group.Multiset
import Mathlib.Data.Multiset.Count
import Mathlib.Tactic

/-!
# Reference counts

The references that some owners hold to objects form a multiset. The counts
kept in the objects are right when each of them is the number of these
references plus the references held outside.
-/

namespace AudioCtrl.RefCount

variable {Obj W : Type*}

/-- The reference behind a pointer that may be null. -/
def refs : Option Obj → Multiset Obj
  | none => 0
  | some o => {o}

@[simp] theorem refs_none : refs (none : Option Obj) = 0 := rfl

@[simp] theorem refs_some (o : Obj) : refs (some o) = {o} := rfl

theorem mem_refs {o : Obj} {p : Option Obj} : o ∈ refs p ↔ p = some o := by
  cases p with
  | none => simp
  | some q => simp [eq_comm]

def cellRefs (live : Finset W) (data : W → Option Obj) : Multiset Obj :=
  ∑ w ∈ live, refs (data w)

theorem mem_cellRefs {live : Finset W} {data : W → Option Obj} {w : W} {o : Obj}
    (hw : w ∈ live) (ho : data w = some o) : o ∈ cellRefs live data :=
  Multiset.mem_sum.mpr ⟨w, hw, mem_refs.mpr ho⟩

section Cells

variable [DecidableEq W]

theorem cellRefs_update_of_notMem {live : Finset W} {w : W} (hw : w ∉ live)
    (data : W → Option Obj) (p : Option Obj) :
    cellRefs live (Function.update data w p) = cellRefs live data := by
  apply Finset.sum_congr rfl
  intro v hv
  have hne : v ≠ w := fun h => hw (h ▸ hv)
  rw [Function.update_of_ne hne]

theorem cellRefs_erase {live : Finset W} {w : W} (hw : w ∈ live) (data : W → Option Obj) :
    cellRefs live data = refs (data w) + cellRefs (live.erase w) data :=
  (Finset.add_sum_erase live (fun v => refs (data v)) hw).symm

theorem cellRefs_update {live : Finset W} {w : W} (hw : w ∈ live)
    (data : W → Option Obj) (p : Option Obj) :
    refs (data w) + cellRefs live (Function.update data w p) = refs p + cellRefs live data := by
  rw [cellRefs_erase hw (Function.update data w p), cellRefs_erase hw data, Function.update_self,
    cellRefs_update_of_notMem (Finset.notMem_erase w live)]
  abel

end Cells

section Counts

variable [DecidableEq Obj]

theorem count_cellRefs (live : Finset W) (data : W → Option Obj) (o : Obj) :
    (cellRefs live data).count o = (live.filter fun w => data w = some o).card := by
  unfold cellRefs
  rw [Multiset.count_sum', Finset.card_filter]
  apply Finset.sum_congr rfl
  intro w _
  cases hd : data w with
  | none => simp
  | some q => simp [Multiset.count_singleton, eq_comm]

def incr (count : Obj → ℕ) (o : Obj) : Obj → ℕ := Function.update count o (count o + 1)

def decr (count : Obj → ℕ) (o : Obj) : Obj → ℕ := Function.update count o (count o - 1)

/-- Each count is the number of references in `held` plus those held outside. -/
def Counted (outside count : Obj → ℕ) (held : Multiset Obj) : Prop :=
  ∀ o, count o = held.count o + outside o

variable {outside count : Obj → ℕ} {held : Multiset Obj} {o : Obj}

theorem counted_zero (outside : Obj → ℕ) : Counted outside outside 0 := by
  intro o
  simp

theorem Counted.pos_of_mem (h : Counted outside count held) (ho : o ∈ held) : 0 < count o := by
  have hpos : 0 < held.count o := Multiset.count_pos.mpr ho
  have := h o
  omega

theorem Counted.pos_of_outside (h : Counted outside count held) (ho : 0 < outside o) :
    0 < count o := by
  have := h o
  omega

theorem Counted.incr (h : Counted outside count held) (o : Obj) :
    Counted outside (incr count o) ({o} + held) := by
  intro q
  have hq := h q
  rw [Multiset.count_add, Multiset.count_singleton]
  by_cases hqo : q = o
  · subst hqo
    rw [RefCount.incr, Function.update_self, if_pos rfl]
    omega
  · rw [RefCount.incr, Function.update_of_ne hqo, if_neg hqo]
    omega

theorem Counted.decr (h : Counted outside count ({o} + held)) :
    Counted outside (decr count o) held := by
  intro q
  have hq := h q
  rw [Multiset.count_add, Multiset.count_singleton] at hq
  by_cases hqo : q = o
  · subst hqo
    rw [if_pos rfl] at hq
    rw [RefCount.decr, Function.update_self]
    omega
  · rw [if_neg hqo] at hq
    rw [RefCount.decr, Function.update_of_ne hqo]
    omega

theorem Counted.incr_outside (h : Counted outside count held) (o : Obj) :
    Counted (RefCount.incr outside o) (RefCount.incr count o) held := by
  intro q
  have hq := h q
  by_cases hqo : q = o
  · subst hqo
    rw [RefCount.incr, RefCount.incr, Function.update_self, Function.update_self]
    omega
  · rw [RefCount.incr, RefCount.incr, Function.update_of_ne hqo, Function.update_of_ne hqo]
    exact hq

theorem Counted.decr_outside (h : Counted outside count held) (ho : 0 < outside o) :
    Counted (RefCount.decr outside o) (RefCount.decr count o) held := by
  intro q
  have hq := h q
  by_cases hqo : q = o
  · subst hqo
    rw [RefCount.decr, RefCount.decr, Function.update_self, Function.update_self]
    omega
  · rw [RefCount.decr, RefCount.decr, Function.update_of_ne hqo, Function.update_of_ne hqo]
    exact hq

end Counts

end AudioCtrl.RefCount
