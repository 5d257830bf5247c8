import Mathlib.Algebra.BigOperators.Group.List.Basic
import Mathlib.Tactic

/-!
# Programs that own resources

Resources are the elements of an additive commutative monoid; `holds s r` says
that in the state `s` a program owns exactly `r`. A triple `Yields holds pre prog a post`
says that from any state in which `pre` is owned, next to whatever else is,
`prog` runs without a fault, returns `a` and leaves `post` and the rest owned.
-/

namespace AudioCtrl.Ownership

universe u v

variable {ε σ α β : Type u} {R : Type v} [AddCommMonoid R]

/-- `prog` turns the resources `pre` into `post` and returns `a`. -/
def Yields (holds : σ → R → Prop) (pre : R) (prog : EStateM ε σ α) (a : α) (post : R) : Prop :=
  ∀ rest s, holds s (rest + pre) → ∃ t, prog.run s = .ok a t ∧ holds t (rest + post)

variable {holds : σ → R → Prop} {pre mid post total : R}
  {prog : EStateM ε σ α} {next : α → EStateM ε σ β} {a : α} {b : β}

theorem Yields.run (h : Yields holds pre prog a post) {s : σ} (hs : holds s pre) :
    ∃ t, prog.run s = .ok a t ∧ holds t post := by
  have hs' : holds s (0 + pre) := by rwa [zero_add]
  obtain ⟨t, ht, hpost⟩ := h 0 s hs'
  rw [zero_add] at hpost
  exact ⟨t, ht, hpost⟩

theorem Yields.pure (holds : σ → R → Prop) (a : α) (r : R) :
    Yields holds r (Pure.pure a : EStateM ε σ α) a r :=
  fun _ s hs => ⟨s, rfl, hs⟩

/-- What a program does not need stays owned. -/
theorem Yields.frame (h : Yields holds pre prog a post) (r : R) :
    Yields holds (r + pre) prog a (r + post) := by
  intro rest s hs
  rw [← add_assoc] at hs ⊢
  exact h (rest + r) s hs

theorem Yields.bind (hprog : Yields holds pre prog a mid)
    (hnext : Yields holds mid (next a) b post) : Yields holds pre (prog >>= next) b post := by
  intro rest s hs
  obtain ⟨t, ht, hmid⟩ := hprog rest s hs
  obtain ⟨u, hu, hpost⟩ := hnext rest t hmid
  refine ⟨u, ?_, hpost⟩
  change (match prog.run s with
    | .ok a t => next a t
    | .error e t => .error e t) = _
  rw [ht]
  exact hu

/-- One statement of a longer program: it takes its share of what is owned. -/
theorem Yields.step (frame : R) (hprog : Yields holds pre prog a mid)
    (htotal : total = frame + pre) (hnext : Yields holds (frame + mid) (next a) b post) :
    Yields holds total (prog >>= next) b post := by
  subst htotal
  exact (hprog.frame frame).bind hnext

theorem Yields.ret (h : pre = post) :
    Yields holds pre (Pure.pure a : EStateM ε σ α) a post := by
  subst h
  exact Yields.pure holds a pre

theorem Yields.congr {pre' post' : R} (h : Yields holds pre prog a post) (hpre : pre' = pre)
    (hpost : post = post') : Yields holds pre' prog a post' := by
  subst hpre hpost
  exact h

theorem exists_others {ι : Type*} (res : ι → R) {l : List ι} {k : ℕ} {i : ι}
    (hk : l[k]? = some i) :
    ∃ others, (l.map res).sum = others + res i ∧
      ∀ j, ((l.set k j).map res).sum = others + res j := by
  induction l generalizing k with
  | nil => cases hk
  | cons a l ih =>
    cases k with
    | zero =>
      cases hk
      refine ⟨(l.map res).sum, ?_, ?_⟩
      · rw [List.map_cons, List.sum_cons, add_comm]
      · intro j
        rw [List.set_cons_zero, List.map_cons, List.sum_cons, add_comm]
    | succ k =>
      obtain ⟨others, hsum, hset⟩ := ih hk
      refine ⟨res a + others, ?_, ?_⟩
      · rw [List.map_cons, List.sum_cons, hsum, add_assoc]
      · intro j
        rw [List.set_cons_succ, List.map_cons, List.sum_cons, hset j, add_assoc]

section Loops

variable {ι : Type u}

theorem yields_forM {res : ι → R} {f : ι → EStateM ε σ PUnit} {l : List ι}
    (h : ∀ i ∈ l, Yields holds (res i) (f i) PUnit.unit 0) :
    Yields holds (l.map res).sum (l.forM f) PUnit.unit 0 := by
  induction l with
  | nil => exact Yields.pure holds PUnit.unit 0
  | cons i l ih =>
    rw [List.map_cons, List.sum_cons]
    have hi := h i List.mem_cons_self
    have hl := ih fun j hj => h j (List.mem_cons_of_mem i hj)
    apply Yields.step (l.map res).sum hi (add_comm _ _)
    rwa [add_zero]

end Loops

end AudioCtrl.Ownership
