import Mathlib.Data.List.Basic
import Mathlib.Order.Basic
import Mathlib.Tactic

/-!
# Runs of a partial step function

A system is given by `step : σ → α → Option σ`: in a state, an action either
leads to one next state or is not possible. Nondeterminism lies in the choice
of the actions, so a statement about every list of actions is a statement
about every interleaving. The rules below lift a fact about one step to runs.
-/

namespace AudioCtrl.PartialRun

variable {σ α : Type*} (step : σ → α → Option σ)

/-- Follow the listed actions; `none` when one of them is not possible. -/
def run : σ → List α → Option σ
  | s, [] => some s
  | s, a :: as => (step s a).bind fun t => run t as

/-- Every step that the actions take meets `cond`, read in the state before it. -/
def Meets (cond : σ → α → Prop) : σ → List α → Prop
  | _, [] => True
  | s, a :: as => ∀ t, step s a = some t → cond s a ∧ Meets cond t as

/-- Every action meets `cond` in the state in which it is tried, also one that is
then found impossible. -/
def Allowed (cond : σ → α → Prop) : σ → List α → Prop
  | _, [] => True
  | s, a :: as => cond s a ∧ ∀ t, step s a = some t → Allowed cond t as

@[simp] theorem run_nil (s : σ) : run step s ([] : List α) = some s := rfl

theorem run_cons (s : σ) (a : α) (as : List α) :
    run step s (a :: as) = (step s a).bind fun t => run step t as := rfl

variable {step}

theorem run_cons_eq_some {s t : σ} {a : α} {as : List α} :
    run step s (a :: as) = some t ↔ ∃ u, step s a = some u ∧ run step u as = some t := by
  rw [run_cons, Option.bind_eq_some_iff]

theorem run_append {s : σ} (as bs : List α) :
    run step s (as ++ bs) = (run step s as).bind fun t => run step t bs := by
  induction as generalizing s with
  | nil => rfl
  | cons a as ih =>
    rw [List.cons_append, run_cons, run_cons, Option.bind_assoc]
    exact congrArg _ (funext fun t => ih)

theorem run_trans {s t u : σ} {as bs : List α}
    (h : run step s as = some t) (h' : run step t bs = some u) :
    run step s (as ++ bs) = some u := by
  rw [run_append, h]
  exact h'

theorem meets_cons_of_none {cond : σ → α → Prop} {s : σ} {a : α} {as : List α}
    (h : step s a = none) : Meets step cond s (a :: as) := by
  intro t ht
  rw [h] at ht
  cases ht

theorem meets_cons_iff {cond : σ → α → Prop} {s t : σ} {a : α} {as : List α}
    (h : step s a = some t) : Meets step cond s (a :: as) ↔ cond s a ∧ Meets step cond t as := by
  constructor
  · intro hm
    exact hm t h
  · intro hm u hu
    obtain rfl : t = u := Option.some.inj (h.symm.trans hu)
    exact hm

instance Meets.decidable (cond : σ → α → Prop) [∀ s a, Decidable (cond s a)] :
    ∀ s as, Decidable (Meets step cond s as)
  | _, [] => isTrue trivial
  | s, a :: as =>
    match h : step s a with
    | none => isTrue (meets_cons_of_none h)
    | some t =>
      letI := Meets.decidable cond t as
      decidable_of_iff _ (meets_cons_iff h).symm

theorem Meets.mono {cond cond' : σ → α → Prop} (hc : ∀ s a, cond s a → cond' s a) :
    ∀ {s : σ} {as : List α}, Meets step cond s as → Meets step cond' s as
  | _, [], _ => trivial
  | _, _ :: _, h => fun t ht => ⟨hc _ _ (h t ht).1, (h t ht).2.mono hc⟩

theorem meets_of_forall {cond : σ → α → Prop} {as : List α} (h : ∀ a ∈ as, ∀ s, cond s a) (s : σ) :
    Meets step cond s as := by
  induction as generalizing s with
  | nil => trivial
  | cons a as ih =>
    intro t _
    exact ⟨h a List.mem_cons_self s, ih (fun b hb => h b (List.mem_cons_of_mem a hb)) t⟩

theorem Meets.trans {cond : σ → α → Prop} {s t : σ} {as bs : List α}
    (ha : Meets step cond s as) (hrun : run step s as = some t) (hb : Meets step cond t bs) :
    Meets step cond s (as ++ bs) := by
  induction as generalizing s with
  | nil =>
    cases hrun
    exact hb
  | cons a as ih =>
    obtain ⟨u, hu, hrun⟩ := run_cons_eq_some.mp hrun
    obtain ⟨hcond, hmeets⟩ := (meets_cons_iff hu).mp ha
    exact (meets_cons_iff hu).mpr ⟨hcond, ih hmeets hrun⟩

theorem allowed_cons_iff {cond : σ → α → Prop} {s t : σ} {a : α} {as : List α}
    (h : step s a = some t) :
    Allowed step cond s (a :: as) ↔ cond s a ∧ Allowed step cond t as := by
  constructor
  · intro ha
    exact ⟨ha.1, ha.2 t h⟩
  · intro ha
    refine ⟨ha.1, ?_⟩
    intro u hu
    obtain rfl : t = u := Option.some.inj (h.symm.trans hu)
    exact ha.2

instance Allowed.decidable (cond : σ → α → Prop) [∀ s a, Decidable (cond s a)] :
    ∀ s as, Decidable (Allowed step cond s as)
  | _, [] => isTrue trivial
  | s, a :: as =>
    match h : step s a with
    | none => decidable_of_iff (cond s a)
        ⟨fun hc => ⟨hc, fun _ ht => nomatch h.symm.trans ht⟩, fun ha => ha.1⟩
    | some t =>
      letI := Allowed.decidable cond t as
      decidable_of_iff _ (allowed_cons_iff h).symm

/-- Where the invariant makes every allowed action possible and survives it, a
list of allowed actions runs to its end. -/
theorem exists_run_of_allowed {cond : σ → α → Prop} {Inv : σ → Prop}
    (hstep : ∀ s a, Inv s → cond s a → ∃ t, step s a = some t ∧ Inv t) {s : σ} {as : List α}
    (hs : Inv s) (h : Allowed step cond s as) : ∃ t, run step s as = some t ∧ Inv t := by
  induction as generalizing s with
  | nil => exact ⟨s, rfl, hs⟩
  | cons a as ih =>
    obtain ⟨u, hu, hinv⟩ := hstep s a hs h.1
    obtain ⟨t, ht, hinv'⟩ := ih hinv (h.2 u hu)
    exact ⟨t, run_cons_eq_some.mpr ⟨u, hu, ht⟩, hinv'⟩

/-- An invariant of the steps that meet `cond` holds after every run of such steps. -/
theorem run_invariant_of_meets {cond : σ → α → Prop} {Inv : σ → Prop}
    (hstep : ∀ s a t, Inv s → cond s a → step s a = some t → Inv t) {s t : σ} {as : List α}
    (hs : Inv s) (hm : Meets step cond s as) (h : run step s as = some t) : Inv t := by
  induction as generalizing s with
  | nil =>
    cases h
    exact hs
  | cons a as ih =>
    obtain ⟨u, hu, hrun⟩ := run_cons_eq_some.mp h
    exact ih (hstep s a u hs (hm u hu).1 hu) (hm u hu).2 hrun

/-- An invariant of every step holds after every run. -/
theorem run_invariant {Inv : σ → Prop} (hstep : ∀ s a t, Inv s → step s a = some t → Inv t)
    {s t : σ} {as : List α} (hs : Inv s) (h : run step s as = some t) : Inv t := by
  induction as generalizing s with
  | nil =>
    cases h
    exact hs
  | cons a as ih =>
    obtain ⟨u, hu, hrun⟩ := run_cons_eq_some.mp h
    exact ih (hstep s a u hs hu) hrun

theorem forall_prefix_cons {P : σ → Prop} {s : σ} {a : α} {as : List α} :
    (∀ pre t, pre <+: a :: as → run step s pre = some t → P t) ↔
      P s ∧ ∀ u, step s a = some u → ∀ pre t, pre <+: as → run step u pre = some t → P t := by
  constructor
  · intro h
    refine ⟨h [] s List.nil_prefix rfl, ?_⟩
    intro u hu pre t hpre hrun
    exact h (a :: pre) t (List.cons_prefix_cons.mpr ⟨rfl, hpre⟩)
      (run_cons_eq_some.mpr ⟨u, hu, hrun⟩)
  · rintro ⟨hs, h⟩ pre t hpre hrun
    cases pre with
    | nil =>
      cases hrun
      exact hs
    | cons b pre =>
      obtain ⟨rfl, htail⟩ := List.cons_prefix_cons.mp hpre
      obtain ⟨u, hu, hrun⟩ := run_cons_eq_some.mp hrun
      exact h u hu pre t htail hrun

/-- Where `P` survives exactly the steps that meet `cond`, a run keeps `P` in
all its states if and only if all its steps meet `cond`. -/
theorem forall_prefix_iff_meets (Inv : σ → Prop) {cond : σ → α → Prop} {P : σ → Prop}
    (hinv : ∀ s a t, Inv s → step s a = some t → Inv t)
    (hP : ∀ s a t, Inv s → P s → step s a = some t → (P t ↔ cond s a))
    {s : σ} {as : List α} (hs : Inv s) (hPs : P s) :
    (∀ pre t, pre <+: as → run step s pre = some t → P t) ↔ Meets step cond s as := by
  induction as generalizing s with
  | nil =>
    constructor
    · intro _
      trivial
    · intro _ pre t hpre hrun
      obtain rfl := List.prefix_nil.mp hpre
      cases hrun
      exact hPs
  | cons a as ih =>
    rw [forall_prefix_cons]
    constructor
    · rintro ⟨-, h⟩ u hu
      have hPu : P u := h u hu [] u List.nil_prefix rfl
      exact ⟨(hP s a u hs hPs hu).mp hPu, (ih (hinv s a u hs hu) hPu).mp (h u hu)⟩
    · intro h
      refine ⟨hPs, ?_⟩
      intro u hu
      have hPu : P u := (hP s a u hs hPs hu).mpr (h u hu).1
      exact (ih (hinv s a u hs hu) hPu).mpr (h u hu).2

/-- If every state is stopped or has a step meeting `cond` that lowers the
measure, some run of such steps ends in a stopped state. -/
theorem exists_run_to_stop {cond : σ → α → Prop} {Stopped : σ → Prop} (μ : σ → ℕ)
    (hprog : ∀ s, Stopped s ∨ ∃ a t, step s a = some t ∧ cond s a ∧ μ t < μ s) (s : σ) :
    ∃ as t, run step s as = some t ∧ Meets step cond s as ∧ Stopped t := by
  induction hn : μ s using Nat.strong_induction_on generalizing s with
  | _ n ih =>
    rcases hprog s with hs | ⟨a, t, hstep, hcond, hlt⟩
    · exact ⟨[], s, rfl, trivial, hs⟩
    · obtain ⟨as, u, hrun, hmeets, hstop⟩ := ih (μ t) (hn ▸ hlt) t rfl
      refine ⟨a :: as, u, run_cons_eq_some.mpr ⟨t, hstep, hrun⟩, ?_, hstop⟩
      intro v hv
      obtain rfl : t = v := Option.some.inj (hstep.symm.trans hv)
      exact ⟨hcond, hmeets⟩

theorem run_invariant_of_history {Inv : List α → σ → Prop} {s t : σ} {as : List α}
    (hstep : ∀ as u a v, run step s as = some u → Inv as u → step u a = some v →
      Inv (as ++ [a]) v) (hs : Inv [] s) (h : run step s as = some t) : Inv as t := by
  induction as using List.reverseRecOn generalizing t with
  | nil =>
    cases h
    exact hs
  | append_singleton as a ih =>
    rw [run_append, Option.bind_eq_some_iff] at h
    obtain ⟨u, hu, hlast⟩ := h
    obtain ⟨v, hv, hend⟩ := run_cons_eq_some.mp hlast
    cases hend
    exact hstep as u a t hu (ih hu) hv

theorem run_invariant_of_meets_history {cond : σ → α → Prop} {Inv : List α → σ → Prop}
    (hstep : ∀ done u a v, Inv done u → cond u a → step u a = some v → Inv (done ++ [a]) v)
    {s t : σ} {done as : List α} (hs : Inv done s) (hm : Meets step cond s as)
    (h : run step s as = some t) : Inv (done ++ as) t := by
  induction as generalizing s done with
  | nil =>
    cases h
    rwa [List.append_nil]
  | cons a as ih =>
    obtain ⟨u, hu, hrest⟩ := run_cons_eq_some.mp h
    obtain ⟨hcond, hmeets⟩ := (meets_cons_iff hu).mp hm
    rw [List.append_cons]
    exact ih (hstep done s a u hs hcond hu) hmeets hrest

/-! ## Measures -/

/-- Where every step of a kind lowers the measure, a run of such steps is no longer
than the measure it uses up. -/
theorem length_add_le_of_run {cond : σ → α → Prop} {Inv : σ → Prop} (μ : σ → ℕ)
    (hstep : ∀ s a t, Inv s → cond s a → step s a = some t → Inv t ∧ μ t < μ s) {s t : σ}
    {as : List α} (hs : Inv s) (hm : Meets step cond s as) (h : run step s as = some t) :
    as.length + μ t ≤ μ s := by
  induction as generalizing s with
  | nil =>
    cases h
    exact (Nat.zero_add _).le
  | cons a as ih =>
    obtain ⟨u, hu, hrun⟩ := run_cons_eq_some.mp h
    obtain ⟨hinv, hlt⟩ := hstep s a u hs (hm u hu).1 hu
    have hle := ih hinv (hm u hu).2 hrun
    rw [List.length_cons]
    omega

/-- Where the invariant leaves a state stopped or with a step that lowers the measure and
keeps the invariant, a run of such steps, no longer than the measure, ends in a
stopped state. -/
theorem exists_run_to_stop_of_inv {cond : σ → α → Prop} {Inv Stopped : σ → Prop} (μ : σ → ℕ)
    (hprog : ∀ s, Inv s → Stopped s ∨ ∃ a t, step s a = some t ∧ cond s a ∧ Inv t ∧ μ t < μ s)
    {s : σ} (hs : Inv s) :
    ∃ as t, run step s as = some t ∧ Meets step cond s as ∧ Inv t ∧ Stopped t ∧
      as.length ≤ μ s := by
  induction hn : μ s using Nat.strong_induction_on generalizing s with
  | _ n ih =>
    rcases hprog s hs with hstop | ⟨a, t, hstep, hcond, hinv, hlt⟩
    · exact ⟨[], s, rfl, trivial, hs, hstop, Nat.zero_le _⟩
    · obtain ⟨as, u, hrun, hmeets, hinv', hstop, hle⟩ := ih (μ t) (hn ▸ hlt) hinv rfl
      refine ⟨a :: as, u, run_cons_eq_some.mpr ⟨t, hstep, hrun⟩,
        (meets_cons_iff hstep).mpr ⟨hcond, hmeets⟩, hinv', hstop, ?_⟩
      rw [List.length_cons]
      omega

end AudioCtrl.PartialRun
