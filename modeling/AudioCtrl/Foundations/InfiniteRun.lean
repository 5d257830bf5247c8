import AudioCtrl.Foundations.PartialRun

/-!
# Infinite runs and fairness

An infinite run of itself says nothing about who goes on. Fairness does: what can be done
from some time on is done at some time (weak), or what can be done again and again
(strong). Where every step reaches a goal, lowers a rank, or is idle and keeps the rank, a
run reaches the goal again and again or is idle from some time on, so it remains to be
shown that a fair run does not stay idle.
-/

namespace AudioCtrl.PartialRun

variable {σ α : Type*} {step : σ → α → Option σ}

structure InfiniteRun (step : σ → α → Option σ) where
  state : ℕ → σ
  action : ℕ → α
  steps : ∀ n, step (state n) (action n) = some (state (n + 1))

/-- Between its steps the system may stay as it is. -/
def stuttering (step : σ → α → Option σ) (s : σ) : Option α → Option σ
  | none => some s
  | some a => step s a

theorem run_stuttering (s : σ) (as : List (Option α)) :
    run (stuttering step) s as = run step s (as.filterMap id) := by
  induction as generalizing s with
  | nil => rfl
  | cons a as ih =>
    cases a with
    | none => exact ih s
    | some a => exact congrArg _ (funext ih)

namespace InfiniteRun

variable (r : InfiniteRun step)

def first (n : ℕ) : List α := (List.range n).map r.action

theorem run_first (n : ℕ) : run step (r.state 0) (r.first n) = some (r.state n) := by
  induction n with
  | zero => rfl
  | succ n ih =>
    rw [first, List.range_succ, List.map_append]
    exact run_trans ih (run_cons_eq_some.mpr ⟨_, r.steps n, rfl⟩)

theorem invariant {Inv : σ → Prop} (cond : σ → α → Prop)
    (hstep : ∀ s a t, Inv s → cond s a → step s a = some t → Inv t) (hstart : Inv (r.state 0))
    (hcond : ∀ n, cond (r.state n) (r.action n)) (n : ℕ) : Inv (r.state n) := by
  induction n with
  | zero => exact hstart
  | succ n ih => exact hstep _ _ _ ih (hcond n) (r.steps n)

theorem forall_later {R : σ → σ → Prop} (hrefl : ∀ s, R s s)
    (hstep : ∀ s t a u, R s t → step t a = some u → R s u) {m n : ℕ} (hle : m ≤ n) :
    R (r.state m) (r.state n) := by
  induction n, hle using Nat.le_induction with
  | base => exact hrefl _
  | succ n _ ih => exact hstep _ _ _ _ ih (r.steps n)

def drop (m : ℕ) : InfiniteRun step where
  state n := r.state (m + n)
  action n := r.action (m + n)
  steps n := r.steps (m + n)

/-! ## Fairness -/

/-- What is ready from some time on is done at some time after it. -/
def WeaklyFair (ready : σ → Prop) (does : σ → α → Prop) : Prop :=
  ∀ n, (∀ m, n ≤ m → ready (r.state m)) → ∃ m, n ≤ m ∧ does (r.state m) (r.action m)

/-- What is ready again and again is done again and again. -/
def StronglyFair (ready : σ → Prop) (does : σ → α → Prop) : Prop :=
  ∀ n, (∀ k, n ≤ k → ∃ m, k ≤ m ∧ ready (r.state m)) → ∃ m, n ≤ m ∧ does (r.state m) (r.action m)

variable {r} {ready : σ → Prop} {does : σ → α → Prop}

theorem WeaklyFair.drop (h : r.WeaklyFair ready does) (m : ℕ) :
    (r.drop m).WeaklyFair ready does := by
  intro n hready
  obtain ⟨k, hk, hdoes⟩ := h (m + n) fun k hk => by
    obtain ⟨i, rfl⟩ := Nat.exists_eq_add_of_le hk
    rw [Nat.add_assoc]
    exact hready (n + i) (Nat.le_add_right n i)
  obtain ⟨i, rfl⟩ := Nat.exists_eq_add_of_le hk
  rw [Nat.add_assoc] at hdoes
  exact ⟨n + i, Nat.le_add_right n i, hdoes⟩

theorem StronglyFair.drop (h : r.StronglyFair ready does) (m : ℕ) :
    (r.drop m).StronglyFair ready does := by
  intro n hready
  obtain ⟨k, hk, hdoes⟩ := h (m + n) fun k hk => by
    obtain ⟨i, rfl⟩ := Nat.exists_eq_add_of_le hk
    obtain ⟨j, hj, hj'⟩ := hready (n + i) (Nat.le_add_right n i)
    exact ⟨m + j, by omega, hj'⟩
  obtain ⟨i, rfl⟩ := Nat.exists_eq_add_of_le hk
  rw [Nat.add_assoc] at hdoes
  exact ⟨n + i, Nat.le_add_right n i, hdoes⟩

/-- A schedule that comes back to a part of the system is fair to it. -/
theorem weaklyFair_of_turns
    (h : ∀ n, ∃ m, n ≤ m ∧ (ready (r.state m) → does (r.state m) (r.action m))) :
    r.WeaklyFair ready does := by
  intro n hready
  obtain ⟨m, hm, hdoes⟩ := h n
  exact ⟨m, hm, hdoes (hready m hm)⟩

/-! ## The rank rule -/

variable (r) in
/-- A run reaches the goal again and again, or all its steps are idle from some time on. -/
theorem recurs_or_idles (goal idle : ℕ → Prop) (μ : σ → ℕ)
    (hstep : ∀ n, goal n ∨ μ (r.state (n + 1)) < μ (r.state n) ∨
      μ (r.state (n + 1)) = μ (r.state n) ∧ idle n) :
    (∀ n, ∃ m, n ≤ m ∧ goal m) ∨ ∃ n, ∀ m, n ≤ m → idle m := by
  by_contra hneither
  push Not at hneither
  obtain ⟨⟨n, hgoal⟩, hbusy⟩ := hneither
  -- Without the goal the rank never rises, and it falls at every step that is not idle.
  have hdown : ∀ k, n ≤ k → ∀ m, k ≤ m → μ (r.state m) ≤ μ (r.state k) := by
    intro k hk m hm
    induction m, hm using Nat.le_induction with
    | base => exact le_refl _
    | succ m hm ih =>
      rcases hstep m with h | h | ⟨h, -⟩
      · exact absurd h (hgoal m (hk.trans hm))
      · omega
      · omega
  have hend : ∀ v k, n ≤ k → μ (r.state k) ≠ v := by
    intro v
    induction v using Nat.strong_induction_on with
    | _ v ih =>
      rintro k hk rfl
      obtain ⟨m, hm, hnot⟩ := hbusy k
      have hle := hdown k hk m hm
      rcases hstep m with h | h | ⟨-, h⟩
      · exact hgoal m (hk.trans hm) h
      · exact ih _ (by omega) (m + 1) (by omega) rfl
      · exact hnot h
  exact hend _ n (le_refl n) rfl

/-! ## Schedules -/

/-- The states that a schedule leads through. -/
def scheduled (step : σ → α → Option σ) (choose : ℕ → σ → α) (s : σ) : ℕ → σ
  | 0 => s
  | n + 1 => (step (scheduled step choose s n) (choose n (scheduled step choose s n))).getD s

def ofSchedule (Inv : σ → Prop) (choose : ℕ → σ → α)
    (h : ∀ n s, Inv s → ∃ t, step s (choose n s) = some t ∧ Inv t) (s : σ) (hs : Inv s) :
    InfiniteRun step where
  state := scheduled step choose s
  action n := choose n (scheduled step choose s n)
  steps n := by
    have hinv : ∀ n, Inv (scheduled step choose s n) := by
      intro n
      induction n with
      | zero => exact hs
      | succ n ih =>
        obtain ⟨t, ht, hinv⟩ := h n _ ih
        rwa [scheduled, ht]
    obtain ⟨t, ht, -⟩ := h n _ (hinv n)
    rw [scheduled, ht]
    rfl

end InfiniteRun
end AudioCtrl.PartialRun
