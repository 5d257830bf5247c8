import AudioCtrl.Foundations.Registry
import AudioCtrl.Tray.SystemTray

/-!
# The registry of tray objects

The map `systemTrays` is a registry of raw addresses under the windows of the
objects. Constructions and copies keep it intact. An assignment breaks it when
it gives another window to an object that is entered, a destruction when it
takes the entry of a window that another object still has, or when it leaves
the entry that a failed construction made under the null handle.
-/

namespace AudioCtrl.Tray.Trays

open PartialRun

variable {Addr Window : Type} [DecidableEq Addr] [DecidableEq Window]

/-- Each entry leads to a living tray that has the window of the entry, and each
living tray that has a window finds an entry under it. -/
structure RegistryIntact (s : Trays Addr Window) : Prop where
  entries : ∀ hwnd tray, s.systemTrays hwnd = some tray →
    tray ∈ s.live ∧ (s.object tray).hwnd = hwnd
  windows : ∀ tray ∈ s.live, (s.object tray).hwnd ≠ none →
    s.systemTrays (s.object tray).hwnd ≠ none

def KeepsRegistry (s : Trays Addr Window) : Op Addr Window → Prop
  | .defaultConstruct _ | .construct .. | .copyConstruct .. => True
  | .copyAssign this other =>
    s.systemTrays (s.object this).hwnd = some this → (s.object other).hwnd = (s.object this).hwnd
  | .destroy this =>
    ((s.object this).hwnd ≠ none →
      ∀ tray ∈ s.live, tray ≠ this → (s.object tray).hwnd ≠ (s.object this).hwnd) ∧
    ((s.object this).hwnd = none → s.systemTrays none ≠ some this)

def hwnds (s : Trays Addr Window) : Addr → Option Window := fun tray => (s.object tray).hwnd

variable {s t : Trays Addr Window} {this other : Addr}

omit [DecidableEq Addr] [DecidableEq Window] in
theorem registryIntact_iff : s.RegistryIntact ↔
    Registry.Sound s.live s.hwnds s.systemTrays ∧
      Registry.Covers {hwnd | hwnd ≠ none} s.live s.hwnds s.systemTrays :=
  ⟨fun h => ⟨h.entries, h.windows⟩, fun h => ⟨h.1, h.2⟩⟩

omit [DecidableEq Window] in
theorem hwnds_update (this : Addr) (tray : SystemTray Window) :
    (fun a => (Function.update s.object this tray a).hwnd) =
      Function.update s.hwnds this tray.hwnd := by
  funext a
  by_cases ha : a = this
  · subst ha
    rw [Function.update_self, Function.update_self]
  · rw [Function.update_of_ne ha, Function.update_of_ne ha]
    rfl

omit [DecidableEq Addr] [DecidableEq Window] in
theorem registryIntact_start : (start : Trays Addr Window).RegistryIntact :=
  registryIntact_iff.mpr ⟨Registry.sound_empty _, Registry.covers_empty _ _ _⟩

omit [DecidableEq Window] in
theorem RegistryIntact.place (h : s.RegistryIntact) (hthis : this ∉ s.live)
    (tray : SystemTray Window) (hwindow : tray.hwnd ≠ none → s.systemTrays tray.hwnd ≠ none) :
    (s.place this tray).RegistryIntact := by
  obtain ⟨hsound, hcov⟩ := registryIntact_iff.mp h
  rw [registryIntact_iff]
  unfold hwnds Trays.place
  dsimp only
  rw [hwnds_update]
  exact ⟨hsound.create hthis _, hcov.create hthis hwindow⟩

theorem RegistryIntact.construct (h : s.RegistryIntact) (hthis : this ∉ s.live)
    (items : List SysTrayItem) (title : WString) (window : Option Window) :
    (s.construct this items title window).RegistryIntact := by
  obtain ⟨hsound, hcov⟩ := registryIntact_iff.mp h
  rw [registryIntact_iff]
  unfold hwnds Trays.construct Trays.place
  dsimp only
  rw [hwnds_update]
  exact ⟨hsound.createEntered hthis window, hcov.createEntered hthis window⟩

omit [DecidableEq Window] in
theorem registryIntact_copyAssign_iff (h : s.RegistryIntact) (hthis : this ∈ s.live)
    (hother : other ∈ s.live) :
    (s.copyAssign this other).RegistryIntact ↔ s.KeepsRegistry (.copyAssign this other) := by
  obtain ⟨hsound, hcov⟩ := registryIntact_iff.mp h
  rw [registryIntact_iff]
  unfold hwnds copyAssign
  dsimp only
  rw [hwnds_update]
  exact (and_iff_left (hcov.rekey hother)).trans (hsound.rekey_iff hthis)

theorem registryIntact_destroy_iff (h : s.RegistryIntact) :
    (s.destroy this).RegistryIntact ↔ s.KeepsRegistry (.destroy this) := by
  obtain ⟨hsound, hcov⟩ := registryIntact_iff.mp h
  rw [registryIntact_iff]
  unfold destroy KeepsRegistry
  dsimp only
  by_cases hnull : (s.object this).hwnd = none
  · rw [if_neg (not_not.mpr hnull)]
    have hleave : Registry.Sound (s.live.erase this) s.hwnds s.systemTrays ↔
        s.systemTrays none ≠ some this := by
      rw [← hnull]
      exact hsound.leave_iff
    exact (and_iff_left (hcov.leave this)).trans
      (hleave.trans (by simp [hnull]))
  · rw [if_pos hnull]
    have herase := hcov.erase_iff (a := this) hnull
    exact (and_iff_right (hsound.erase this)).trans (herase.trans (by simp [hnull, hwnds]))

/-- The operations that keep the registry intact, exactly. -/
theorem registryIntact_step_iff {op : Op Addr Window} (h : s.RegistryIntact)
    (hstep : s.step op = some t) : t.RegistryIntact ↔ s.KeepsRegistry op := by
  obtain ⟨hlegal, rfl⟩ := step_eq_some.mp hstep
  cases op with
  | defaultConstruct this =>
    exact iff_of_true (h.place hlegal _ (fun hwindow => absurd rfl hwindow)) trivial
  | construct this items title window =>
    exact iff_of_true (h.construct hlegal.1 items title window) trivial
  | copyConstruct this other =>
    exact iff_of_true (h.place hlegal.1 _ (h.windows other hlegal.2)) trivial
  | copyAssign this other => exact registryIntact_copyAssign_iff h hlegal.1 hlegal.2
  | destroy this => exact registryIntact_destroy_iff h

/-- A run keeps the registry intact in all its states if and only if no assignment in
it gives another window to an object that is entered, and no destruction takes the
window of another object or leaves an entry under the null handle. -/
theorem registry_intact_iff (ops : List (Op Addr Window)) :
    (∀ pre s, pre <+: ops → run step start pre = some s → s.RegistryIntact) ↔
      Meets step KeepsRegistry start ops :=
  forall_prefix_iff_meets (fun _ => True) (fun _ _ _ _ _ => trivial)
    (fun _ _ _ _ h hstep => registryIntact_step_iff h hstep) trivial registryIntact_start

/-- A tray whose window could not be created, destroyed again. -/
theorem registry_dangles :
    ¬ ∀ (ops : List (Op ℕ ℕ)) s, run step start ops = some s → s.RegistryIntact := by
  intro h
  have hintact := h [.construct 0 [] [] none, .destroy 0] _ rfl
  have hentry := hintact.entries none 0 rfl
  exact absurd hentry.1 (by decide)

/-- A copy of a tray, destroyed while the tray lives on. -/
theorem registry_forgets :
    ¬ ∀ (ops : List (Op ℕ ℕ)) s, run step start ops = some s → s.RegistryIntact := by
  intro h
  have hintact := h [.construct 0 [] [] (some 0), .copyConstruct 1 0, .destroy 1] _ rfl
  exact hintact.windows 0 (by decide) (by decide) rfl

end AudioCtrl.Tray.Trays
