import Mathlib.Algebra.Order.Group.Multiset
import Mathlib.Tactic.Abel

/-!
# Activations of a callback

A thread that gives a callback to a framework can be called back while it waits
in a call of its own, also in one that the callback made. The activations in
progress form a stack, the innermost first; each is the list of the calls that
it has still to make. Calls are neither lost nor made twice, and without new
activations the stack runs empty.
-/

namespace AudioCtrl

structure Activations (C : Type*) where
  pending : List (List C)
  /-- The calls that have returned, in this order. -/
  made : List C
  deriving DecidableEq, Repr

namespace Activations

variable {C : Type*} {a b : Activations C} {c : C}

def start : Activations C := ⟨[], []⟩

/-- The framework calls back; the activation is going to make `calls`. -/
def enter (a : Activations C) (calls : List C) : Activations C :=
  { a with pending := calls :: a.pending }

/-- The call that the innermost activation is in. -/
def call (a : Activations C) : Option C := a.pending.head?.bind List.head?

def perform : Activations C → Option (Activations C)
  | ⟨(c :: calls) :: rest, made⟩ => some ⟨calls :: rest, made ++ [c]⟩
  | _ => none

def leave : Activations C → Option (Activations C)
  | ⟨[] :: rest, made⟩ => some ⟨rest, made⟩
  | _ => none

theorem call_eq_some : a.call = some c ↔ ∃ calls rest, a.pending = (c :: calls) :: rest := by
  obtain ⟨pending, made⟩ := a
  rcases pending with _ | ⟨_ | ⟨d, calls⟩, rest⟩ <;> simp [call]

theorem perform_eq_some : a.perform = some b ↔
    ∃ c calls rest, a.pending = (c :: calls) :: rest ∧ b = ⟨calls :: rest, a.made ++ [c]⟩ := by
  obtain ⟨pending, made⟩ := a
  rcases pending with _ | ⟨_ | ⟨d, calls⟩, rest⟩ <;> simp [perform, eq_comm]

theorem leave_eq_some : a.leave = some b ↔
    ∃ rest, a.pending = [] :: rest ∧ b = ⟨rest, a.made⟩ := by
  obtain ⟨pending, made⟩ := a
  rcases pending with _ | ⟨_ | ⟨d, calls⟩, rest⟩ <;> simp [leave, eq_comm]

/-! ## The calls of all activations -/

/-- The calls made and still to be made. -/
def total (a : Activations C) : Multiset C :=
  (a.made : Multiset C) + (a.pending.flatten : Multiset C)

@[simp] theorem total_start : (start : Activations C).total = 0 := rfl

theorem total_enter (a : Activations C) (calls : List C) :
    (a.enter calls).total = a.total + (calls : Multiset C) := by
  unfold total enter
  rw [List.flatten_cons, ← Multiset.coe_add]
  abel

theorem total_of_perform (h : a.perform = some b) : b.total = a.total := by
  obtain ⟨c, calls, rest, hpending, rfl⟩ := perform_eq_some.mp h
  unfold total
  rw [hpending, List.flatten_cons, List.flatten_cons, List.cons_append]
  simp only [← Multiset.coe_add, ← Multiset.cons_coe, ← Multiset.singleton_add, Multiset.coe_nil]
  abel

theorem total_of_leave (h : a.leave = some b) : b.total = a.total := by
  obtain ⟨rest, hpending, rfl⟩ := leave_eq_some.mp h
  unfold total
  rw [hpending, List.flatten_cons, List.nil_append]

theorem mem_total_iff : c ∈ a.total ↔ c ∈ a.made ∨ ∃ calls ∈ a.pending, c ∈ calls := by
  rw [total, Multiset.mem_add, Multiset.mem_coe, Multiset.mem_coe, List.mem_flatten]

theorem mem_total_iff_of_idle (h : a.pending = []) : c ∈ a.total ↔ c ∈ a.made := by
  rw [mem_total_iff, h]
  simp

/-! ## What is left to do -/

/-- The calls and returns that are still to come. -/
def left (a : Activations C) : ℕ := a.pending.flatten.length + a.pending.length

theorem left_of_perform (h : a.perform = some b) : b.left + 1 = a.left := by
  obtain ⟨c, calls, rest, hpending, rfl⟩ := perform_eq_some.mp h
  unfold left
  rw [hpending]
  simp only [List.flatten_cons, List.cons_append, List.length_cons, List.length_append]
  omega

theorem left_of_leave (h : a.leave = some b) : b.left + 1 = a.left := by
  obtain ⟨rest, hpending, rfl⟩ := leave_eq_some.mp h
  unfold left
  rw [hpending]
  simp only [List.flatten_cons, List.nil_append, List.length_cons]
  omega

theorem perform_or_leave (h : a.pending ≠ []) :
    (∃ b, a.perform = some b) ∨ ∃ b, a.leave = some b := by
  obtain ⟨pending, made⟩ := a
  rcases pending with _ | ⟨_ | ⟨c, calls⟩, rest⟩
  · exact absurd rfl h
  · exact .inr ⟨_, rfl⟩
  · exact .inl ⟨_, rfl⟩

end Activations
end AudioCtrl
