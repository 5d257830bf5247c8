import AudioCtrl.Foundations.Ownership

/-!
# Programs that may fail

A triple `Settles holds bad ok pre prog a post` decides how a program ends: if
`ok`, it runs as the triple of `Ownership` says, and if not, it fails with one
of the failures `bad`. The condition of a sequence is that of its parts, so the
rules compute it while they go through the program.
-/

namespace AudioCtrl.Ownership

universe u v

variable {ε σ α β : Type u} {R : Type v} [AddCommMonoid R]

/-- `prog` turns the resources `pre` into `post` and returns `a` if `ok`, and fails as
`bad` allows if not. -/
def Settles (holds : σ → R → Prop) (bad : ε → σ → Prop) (ok : Prop) (pre : R)
    (prog : EStateM ε σ α) (a : α) (post : R) : Prop :=
  ∀ rest s, holds s (rest + pre) →
    (ok → ∃ t, prog.run s = .ok a t ∧ holds t (rest + post)) ∧
      (¬ ok → ∃ e t, prog.run s = .error e t ∧ bad e t)

variable {holds : σ → R → Prop} {bad : ε → σ → Prop} {ok ok' : Prop} {pre mid post total : R}
  {prog : EStateM ε σ α} {next : α → EStateM ε σ β} {a : α} {b : β}

theorem Yields.settles (h : Yields holds pre prog a post) (bad : ε → σ → Prop) :
    Settles holds bad True pre prog a post :=
  fun rest s hs => ⟨fun _ => h rest s hs, fun hno => absurd trivial hno⟩

theorem Settles.yields (h : Settles holds bad ok pre prog a post) (hok : ok) :
    Yields holds pre prog a post :=
  fun rest s hs => (h rest s hs).1 hok

theorem Settles.fails (h : Settles holds bad ok pre prog a post) (hno : ¬ ok) {s : σ}
    (hs : holds s pre) : ∃ e t, prog.run s = .error e t ∧ bad e t := by
  have hs' : holds s (0 + pre) := by rwa [zero_add]
  exact (h 0 s hs').2 hno

theorem Settles.congr_ok (h : Settles holds bad ok pre prog a post) (hok : ok ↔ ok') :
    Settles holds bad ok' pre prog a post := by
  rwa [propext hok] at h

theorem Settles.frame (h : Settles holds bad ok pre prog a post) (r : R) :
    Settles holds bad ok (r + pre) prog a (r + post) := by
  intro rest s hs
  rw [← add_assoc] at hs ⊢
  exact h (rest + r) s hs

theorem Settles.bind (hprog : Settles holds bad ok pre prog a mid)
    (hnext : ok → Settles holds bad ok' mid (next a) b post) :
    Settles holds bad (ok ∧ ok') pre (prog >>= next) b post := by
  intro rest s hs
  have hbind : (prog >>= next).run s = match prog.run s with
    | .ok a t => next a t
    | .error e t => .error e t := rfl
  rw [hbind]
  by_cases hok : ok
  · obtain ⟨t, ht, hmid⟩ := (hprog rest s hs).1 hok
    rw [ht, and_iff_right hok]
    exact hnext hok rest t hmid
  · obtain ⟨e, t, ht, hbad⟩ := (hprog rest s hs).2 hok
    rw [ht]
    exact ⟨fun h => absurd h.1 hok, fun _ => ⟨e, t, rfl, hbad⟩⟩

/-- One statement of a longer program that may fail. -/
theorem Settles.step (frame : R) (hprog : Settles holds bad ok pre prog a mid)
    (htotal : total = frame + pre)
    (hnext : ok → Settles holds bad ok' (frame + mid) (next a) b post) :
    Settles holds bad (ok ∧ ok') total (prog >>= next) b post := by
  subst htotal
  exact (hprog.frame frame).bind hnext

theorem Settles.after (frame : R) (hprog : Yields holds pre prog a mid)
    (htotal : total = frame + pre)
    (hnext : Settles holds bad ok (frame + mid) (next a) b post) :
    Settles holds bad ok total (prog >>= next) b post :=
  (Settles.step frame (hprog.settles bad) htotal fun _ => hnext).congr_ok (iff_of_eq (true_and ok))

theorem Settles.only (frame : R) (hprog : Settles holds bad ok pre prog a mid)
    (htotal : total = frame + pre)
    (hnext : ok → Yields holds (frame + mid) (next a) b post) :
    Settles holds bad ok total (prog >>= next) b post :=
  (Settles.step frame hprog htotal fun hok => (hnext hok).settles bad).congr_ok
    (iff_of_eq (and_true ok))

theorem run_bind_eq_ok {s t : σ} (h : (prog >>= next).run s = .ok b t) :
    ∃ a u, prog.run s = .ok a u ∧ (next a).run u = .ok b t := by
  rw [EStateM.run_bind] at h
  cases hprog : prog.run s with
  | ok a u =>
    rw [hprog] at h
    exact ⟨a, u, rfl, h⟩
  | error e u =>
    rw [hprog] at h
    cases h

theorem settles_mapM'_map {ι κ : Type u} {keep : R} {res : ι → R} (g : ι → κ)
    {f : κ → EStateM ε σ α} {val : ι → α} {good : ι → Prop} {l : List ι}
    (h : ∀ i ∈ l, Settles holds bad (good i) keep (f (g i)) (val i) (keep + res i)) :
    Settles holds bad (∀ i ∈ l, good i) keep ((l.map g).mapM' f) (l.map val)
      (keep + (l.map res).sum) := by
  induction l with
  | nil =>
    have hnil : Settles holds bad True keep (pure [] : EStateM ε σ (List α)) [] keep :=
      (Yields.pure holds [] keep).settles bad
    rw [List.map_nil, List.map_nil, List.map_nil, List.sum_nil, add_zero]
    exact hnil.congr_ok (by simp)
  | cons i l ih =>
    have hi := h i List.mem_cons_self
    have hl := ih fun j hj => h j (List.mem_cons_of_mem i hj)
    rw [List.map_cons, List.map_cons, List.map_cons, List.sum_cons, List.mapM'_cons,
      List.forall_mem_cons]
    apply Settles.bind hi
    intro _
    apply Settles.only (res i) hl (by abel)
    intro _
    exact Yields.ret (by abel)

end AudioCtrl.Ownership
