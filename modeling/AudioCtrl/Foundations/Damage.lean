import Mathlib.Data.List.InsertIdx
import Mathlib.Tactic

/-!
# Damaged sequences

A sequence is damaged when some of its items are lost, some are inserted and some are
changed. The relation counts each kind of damage and leaves open where it was done,
so further damage at any place is one lemma for each kind.
-/

namespace AudioCtrl

/-- `got` arises from `sent` with at most so many items lost, inserted and changed. -/
inductive Damaged {α : Type*} : ℕ → ℕ → ℕ → List α → List α → Prop
  | nil (l i c : ℕ) : Damaged l i c [] []
  | keep {l i c : ℕ} {sent got : List α} (x : α) (h : Damaged l i c sent got) :
      Damaged l i c (x :: sent) (x :: got)
  | lose {l i c : ℕ} {sent got : List α} (x : α) (h : Damaged l i c sent got) :
      Damaged (l + 1) i c (x :: sent) got
  | insert {l i c : ℕ} {sent got : List α} (y : α) (h : Damaged l i c sent got) :
      Damaged l (i + 1) c sent (y :: got)
  | change {l i c : ℕ} {sent got : List α} (x y : α) (h : Damaged l i c sent got) :
      Damaged l i (c + 1) (x :: sent) (y :: got)

namespace Damaged

variable {α : Type*} {l i c : ℕ} {sent got : List α}

theorem mono (h : Damaged l i c sent got) {l' i' c' : ℕ} (hl : l ≤ l') (hi : i ≤ i')
    (hc : c ≤ c') : Damaged l' i' c' sent got := by
  induction h generalizing l' i' c' with
  | nil => exact .nil l' i' c'
  | keep x h ih => exact .keep x (ih hl hi hc)
  | lose x h ih =>
    obtain ⟨l', rfl⟩ := Nat.exists_eq_add_of_le' (Nat.one_le_of_lt hl)
    exact .lose x (ih (by omega) hi hc)
  | insert y h ih =>
    obtain ⟨i', rfl⟩ := Nat.exists_eq_add_of_le' (Nat.one_le_of_lt hi)
    exact .insert y (ih hl (by omega) hc)
  | change x y h ih =>
    obtain ⟨c', rfl⟩ := Nat.exists_eq_add_of_le' (Nat.one_le_of_lt hc)
    exact .change x y (ih hl hi (by omega))

theorem append_same (h : Damaged l i c sent got) (more : List α) :
    Damaged l i c (sent ++ more) (got ++ more) := by
  induction h with
  | nil l i c =>
    induction more with
    | nil => exact .nil l i c
    | cons x more ih => exact .keep x ih
  | keep x h ih => exact .keep x ih
  | lose x h ih => exact .lose x ih
  | insert y h ih => exact .insert y ih
  | change x y h ih => exact .change x y ih

theorem length_le (h : Damaged l i c sent got) : sent.length ≤ got.length + l := by
  induction h with
  | nil => exact Nat.zero_le _
  | keep | lose | insert | change =>
    simp only [List.length_cons]
    omega

/-! ## Further damage -/

theorem eraseIdx (h : Damaged l i c sent got) (k : ℕ) :
    Damaged (l + 1) i c sent (got.eraseIdx k) := by
  induction h generalizing k with
  | nil l i c => exact .nil (l + 1) i c
  | keep x h ih =>
    cases k with
    | zero => exact .lose x h
    | succ k => exact .keep x (ih k)
  | lose x h ih => exact .lose x (ih k)
  | @insert l i c sent got y h ih =>
    cases k with
    | zero => exact h.mono (Nat.le_succ l) (Nat.le_succ i) (le_refl c)
    | succ k => exact .insert y (ih k)
  | @change l i c sent got x y h ih =>
    cases k with
    | zero => exact (Damaged.lose x h).mono (le_refl _) (le_refl i) (Nat.le_succ c)
    | succ k => exact .change x y (ih k)

theorem insertIdx (h : Damaged l i c sent got) (k : ℕ) (z : α) :
    Damaged l (i + 1) c sent (got.insertIdx k z) := by
  induction h generalizing k with
  | nil l i c =>
    cases k with
    | zero => exact .insert z (.nil l i c)
    | succ k => exact .nil l (i + 1) c
  | keep x h ih =>
    cases k with
    | zero => exact .insert z (.keep x h)
    | succ k => exact .keep x (ih k)
  | lose x h ih => exact .lose x (ih k)
  | insert y h ih =>
    cases k with
    | zero => exact .insert z (.insert y h)
    | succ k => exact .insert y (ih k)
  | change x y h ih =>
    cases k with
    | zero => exact .insert z (.change x y h)
    | succ k => exact .change x y (ih k)

theorem set (h : Damaged l i c sent got) (k : ℕ) (z : α) :
    Damaged l i (c + 1) sent (got.set k z) := by
  induction h generalizing k with
  | nil l i c => exact .nil l i (c + 1)
  | @keep l i c sent got x h ih =>
    cases k with
    | zero => exact .change x z h
    | succ k => exact .keep x (ih k)
  | lose x h ih => exact .lose x (ih k)
  | @insert l i c sent got y h ih =>
    cases k with
    | zero => exact (Damaged.insert z h).mono (le_refl l) (le_refl _) (Nat.le_succ c)
    | succ k => exact .insert y (ih k)
  | @change l i c sent got x y h ih =>
    cases k with
    | zero => exact (Damaged.change x z h).mono (le_refl l) (le_refl i) (Nat.le_succ _)
    | succ k => exact .change x y (ih k)

end Damaged

theorem insertIdx_append_right {α : Type*} (xs ys : List α) (k : ℕ) (z : α) :
    (xs ++ ys).insertIdx (xs.length + k) z = xs ++ ys.insertIdx k z := by
  induction xs with
  | nil => simp
  | cons x xs ih =>
    rw [List.length_cons, Nat.succ_add, List.cons_append, List.insertIdx_succ_cons, ih]
    rfl

end AudioCtrl
