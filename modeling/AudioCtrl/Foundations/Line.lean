import Mathlib.Data.List.Basic
import Mathlib.Tactic

/-!
# A lossless first-in first-out line

Everything written to the line is at any time split into what the reader has
taken, what has arrived and waits to be taken, and what is still travelling.
The three parts in this order are the history of the line, so no operation can
lose, add or reorder anything.
-/

namespace AudioCtrl

/-- A line whose writer appends on the right and whose reader takes on the left. -/
structure Line (α : Type*) where
  taken : List α
  arrived : List α
  travelling : List α
  deriving DecidableEq, Repr

namespace Line

variable {α : Type*} (l : Line α)

/-- A line on which `xs` has arrived and nothing has been taken. -/
def holding (xs : List α) : Line α := ⟨[], xs, []⟩

def history : List α := l.taken ++ (l.arrived ++ l.travelling)

/-- What the reader has not taken yet, arrived or not. -/
def unread : List α := l.arrived ++ l.travelling

def write (xs : List α) : Line α := { l with travelling := l.travelling ++ xs }

/-- The oldest travelling item arrives. -/
def deliver : Option (Line α) :=
  match l.travelling with
  | [] => none
  | x :: xs => some { l with arrived := l.arrived ++ [x], travelling := xs }

def take (n : ℕ) : Line α :=
  { l with taken := l.taken ++ l.arrived.take n, arrived := l.arrived.drop n }

theorem history_eq : l.history = l.taken ++ l.unread := rfl

@[simp] theorem history_write (xs : List α) : (l.write xs).history = l.history ++ xs := by
  simp [history, write, List.append_assoc]

@[simp] theorem taken_write (xs : List α) : (l.write xs).taken = l.taken := rfl

@[simp] theorem arrived_write (xs : List α) : (l.write xs).arrived = l.arrived := rfl

@[simp] theorem unread_write (xs : List α) : (l.write xs).unread = l.unread ++ xs := by
  simp [unread, write, List.append_assoc]

@[simp] theorem write_nil : l.write [] = l := by simp [write]

@[simp] theorem history_take (n : ℕ) : (l.take n).history = l.history := by
  rw [history, take, List.append_assoc, ← List.append_assoc (l.arrived.take n),
    List.take_append_drop, history]

@[simp] theorem taken_take (n : ℕ) : (l.take n).taken = l.taken ++ l.arrived.take n := rfl

@[simp] theorem arrived_take (n : ℕ) : (l.take n).arrived = l.arrived.drop n := rfl

@[simp] theorem travelling_take (n : ℕ) : (l.take n).travelling = l.travelling := rfl

@[simp] theorem take_zero : l.take 0 = l := by simp [take]

theorem unread_take {n : ℕ} (hn : n ≤ l.arrived.length) : (l.take n).unread = l.unread.drop n := by
  rw [unread, unread, List.drop_append_of_le_length hn]
  rfl

theorem deliver_eq_some {l l' : Line α} :
    l.deliver = some l' ↔
      ∃ x xs, l.travelling = x :: xs ∧ l' = ⟨l.taken, l.arrived ++ [x], xs⟩ := by
  unfold deliver
  cases l.travelling with
  | nil => simp
  | cons x xs => simp [eq_comm]

theorem deliver_spec {l l' : Line α} (h : l.deliver = some l') :
    l'.taken = l.taken ∧ l'.unread = l.unread ∧ l'.history = l.history := by
  obtain ⟨x, xs, ht, rfl⟩ := deliver_eq_some.mp h
  simp [unread, history, ht]

theorem length_taken_add_unread : l.taken.length + l.unread.length = l.history.length := by
  rw [history_eq, List.length_append]

theorem length_arrived_le_unread : l.arrived.length ≤ l.unread.length := by
  rw [unread, List.length_append]
  omega

/-- The next item to be taken is the one at the reader's place in the history. -/
theorem getElem?_history_of_arrived {i : ℕ} {x : α} (h : l.arrived[i]? = some x) :
    l.history[l.taken.length + i]? = some x := by
  have hlt := (List.getElem?_eq_some_iff.mp h).1
  rw [history, List.getElem?_append_right (Nat.le_add_right _ _), Nat.add_sub_cancel_left,
    List.getElem?_append_left hlt, h]

theorem getElem?_history_of_taken {i : ℕ} {x : α} (h : l.taken[i]? = some x) :
    l.history[i]? = some x := by
  rw [history, List.getElem?_append_left (List.getElem?_eq_some_iff.mp h).1, h]

end Line
end AudioCtrl
