import AudioCtrl.Foundations.Outcome
import AudioCtrl.Foundations.PartialRun
import Mathlib.Data.Multiset.Count

/-!
# Handles that are opened and closed

`Adds` says what a program that returns has added to its books. A `Ledger` holds
the handles that were opened and those that were closed. An honest one closes at
most what was opened, apart from handles that nobody opens. So honest ledgers cannot
make up for each other: in a sum everything is closed if and only if it is in each
of them.
-/

namespace AudioCtrl.Bookkeeping

open Ownership

section Programs

universe u v

variable {ε σ α β : Type u} {R : Type v} [AddMonoid R]

/-- Where `prog` returns, it has added `m` to the ledger, and the value meets `post`. -/
def Adds (ledger : σ → R) (prog : EStateM ε σ α) (m : R) (post : α → Prop) : Prop :=
  ∀ s a t, prog.run s = .ok a t → ledger t = ledger s + m ∧ post a

abbrev Quiet (ledger : σ → R) (prog : EStateM ε σ α) : Prop :=
  Adds ledger prog 0 fun _ => True

variable {ledger : σ → R} {prog : EStateM ε σ α} {next : α → EStateM ε σ β} {m n : R}
  {post : α → Prop} {post' : β → Prop}

theorem Adds.pure {a : α} (h : post a) :
    Adds ledger (Pure.pure a : EStateM ε σ α) 0 post := by
  intro s b t hrun
  cases hrun
  exact ⟨(add_zero _).symm, h⟩

theorem quiet_of_eq (h : ∀ s a t, prog.run s = .ok a t → ledger t = ledger s) :
    Quiet ledger prog :=
  fun s a t hrun => ⟨(h s a t hrun).trans (add_zero _).symm, trivial⟩

theorem Adds.mono {post' : α → Prop} (h : Adds ledger prog m post) (hpost : ∀ a, post a → post' a) :
    Adds ledger prog m post' := by
  intro s a t hrun
  obtain ⟨hadded, ha⟩ := h s a t hrun
  exact ⟨hadded, hpost a ha⟩

theorem Adds.bind (hprog : Adds ledger prog m post)
    (hnext : ∀ a, post a → Adds ledger (next a) n post') :
    Adds ledger (prog >>= next) (m + n) post' := by
  intro s b t hrun
  obtain ⟨a, u, hfirst, hsecond⟩ := run_bind_eq_ok hrun
  obtain ⟨hm, ha⟩ := hprog s a u hfirst
  obtain ⟨hn, hb⟩ := hnext a ha u b t hsecond
  exact ⟨by rw [hn, hm, add_assoc], hb⟩

theorem Adds.after (hprog : Adds ledger prog 0 post)
    (hnext : ∀ a, post a → Adds ledger (next a) n post') :
    Adds ledger (prog >>= next) n post' := by
  have h := hprog.bind hnext
  rwa [zero_add] at h

theorem Adds.before (hprog : Adds ledger prog m post)
    (hnext : ∀ a, post a → Adds ledger (next a) 0 post') :
    Adds ledger (prog >>= next) m post' := by
  have h := hprog.bind hnext
  rwa [add_zero] at h

theorem quiet_forM {ι : Type u} {f : ι → EStateM ε σ PUnit} (h : ∀ i, Quiet ledger (f i))
    (l : List ι) : Quiet ledger (l.forM f) := by
  induction l with
  | nil => exact Adds.pure trivial
  | cons i l ih => exact (h i).after fun _ _ => ih

theorem adds_mapM' {ι : Type u} {f : ι → EStateM ε σ α} {added : ι → R}
    (h : ∀ i, Adds ledger (f i) (added i) fun _ => True) (l : List ι) :
    Adds ledger (l.mapM' f) (l.map added).sum fun made => made.length = l.length := by
  induction l with
  | nil => exact Adds.pure rfl
  | cons i l ih =>
    rw [List.mapM'_cons, List.map_cons, List.sum_cons]
    apply Adds.bind (h i)
    intro a _
    apply Adds.before ih
    intro made hmade
    exact Adds.pure (congrArg (· + 1) hmade)

theorem quiet_mapM' {ι : Type u} {f : ι → EStateM ε σ α} (h : ∀ i, Quiet ledger (f i))
    (l : List ι) : Adds ledger (l.mapM' f) 0 fun made => made.length = l.length := by
  have hl := adds_mapM' h l
  rwa [List.sum_eq_zero (by simp)] at hl

end Programs

theorem ledger_of_run {σ ι R : Type*} [AddMonoid R] {step : σ → ι → Option σ} {ledger : σ → R}
    {added : ι → R} (hstep : ∀ s i t, step s i = some t → ledger t = ledger s + added i)
    {l : List ι} {s t : σ} (hrun : PartialRun.run step s l = some t) :
    ledger t = ledger s + (l.map added).sum := by
  induction l generalizing s with
  | nil =>
    cases hrun
    exact (add_zero _).symm
  | cons i l ih =>
    obtain ⟨u, hu, hrun⟩ := PartialRun.run_cons_eq_some.mp hrun
    rw [ih hrun, hstep s i u hu, List.map_cons, List.sum_cons, add_assoc]

/-- The handles that were opened, and those that were closed. -/
abbrev Ledger (κ : Type*) := Multiset κ × Multiset κ

section AllClosed

variable {κ ι : Type*} {own : κ → Prop} {p q : Ledger κ}

/-- Each handle has been closed as often as it was opened. -/
def AllClosed (p : Ledger κ) : Prop := p.1 = p.2

variable [DecidableEq κ]

instance (p : Ledger κ) : Decidable (AllClosed p) := inferInstanceAs (Decidable (_ = _))

/-- Of `own`, only what was opened is closed. Nothing else is opened. -/
structure Honest (own : κ → Prop) (p : Ledger κ) : Prop where
  closed : ∀ k, own k → p.2.count k ≤ p.1.count k
  opened : ∀ k, ¬ own k → p.1.count k = 0

theorem honest_zero (own : κ → Prop) : Honest own 0 where
  closed _ _ := le_rfl
  opened _ _ := rfl

theorem Honest.add (hp : Honest own p) (hq : Honest own q) : Honest own (p + q) where
  closed k hk := by
    rw [Prod.snd_add, Prod.fst_add, Multiset.count_add, Multiset.count_add]
    exact Nat.add_le_add (hp.closed k hk) (hq.closed k hk)
  opened k hk := by
    rw [Prod.fst_add, Multiset.count_add, hp.opened k hk, hq.opened k hk]

theorem Honest.allClosed_add_iff (hp : Honest own p) (hq : Honest own q) :
    AllClosed (p + q) ↔ AllClosed p ∧ AllClosed q := by
  unfold AllClosed
  rw [Prod.fst_add, Prod.snd_add]
  constructor
  · intro h
    have hcount (k : κ) : p.1.count k = p.2.count k ∧ q.1.count k = q.2.count k := by
      have hk := congrArg (Multiset.count k) h
      rw [Multiset.count_add, Multiset.count_add] at hk
      by_cases hown : own k
      · have hpk := hp.closed k hown
        have hqk := hq.closed k hown
        omega
      · have hpk := hp.opened k hown
        have hqk := hq.opened k hown
        omega
    exact ⟨Multiset.ext.mpr fun k => (hcount k).1, Multiset.ext.mpr fun k => (hcount k).2⟩
  · rintro ⟨hp, hq⟩
    rw [hp, hq]

theorem honest_sum {f : ι → Ledger κ} {l : List ι} (h : ∀ i ∈ l, Honest own (f i)) :
    Honest own (l.map f).sum := by
  induction l with
  | nil => exact honest_zero own
  | cons i l ih =>
    rw [List.map_cons, List.sum_cons]
    obtain ⟨hi, hl⟩ := List.forall_mem_cons.mp h
    exact hi.add (ih hl)

/-- No entry makes up for another one. -/
theorem allClosed_sum_iff {f : ι → Ledger κ} {l : List ι} (h : ∀ i ∈ l, Honest own (f i)) :
    AllClosed (l.map f).sum ↔ ∀ i ∈ l, AllClosed (f i) := by
  induction l with
  | nil => exact iff_of_true rfl nofun
  | cons i l ih =>
    obtain ⟨hi, hl⟩ := List.forall_mem_cons.mp h
    rw [List.map_cons, List.sum_cons, hi.allClosed_add_iff (honest_sum hl), ih hl,
      List.forall_mem_cons]

/-- Honest steps that start from closed books close them if and only if each of them does. -/
theorem allClosed_run_iff {σ : Type*} {step : σ → ι → Option σ} {ledger : σ → Ledger κ}
    {added : ι → Ledger κ} (hstep : ∀ s i t, step s i = some t → ledger t = ledger s + added i)
    (hadded : ∀ i, Honest own (added i)) {l : List ι} {s t : σ} (hs : AllClosed (ledger s))
    (hown : Honest own (ledger s)) (hrun : PartialRun.run step s l = some t) :
    AllClosed (ledger t) ↔ ∀ i ∈ l, AllClosed (added i) := by
  have hall : ∀ i ∈ l, Honest own (added i) := fun i _ => hadded i
  rw [ledger_of_run hstep hrun, hown.allClosed_add_iff (honest_sum hall), and_iff_right hs,
    allClosed_sum_iff hall]

end AllClosed

end AudioCtrl.Bookkeeping
