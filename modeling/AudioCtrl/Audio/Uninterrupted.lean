import AudioCtrl.Audio.Threads
import AudioCtrl.Foundations.Exclusion
import AudioCtrl.Foundations.PartialRun

/-!
# Threads that are not interrupted

The steps of a thread are the statements of the program. Where `reloadDevices` or
`setMainVolume` runs to its end, a thread that nobody interrupts can take its steps
one after the other and gets to the same world and the same tree.
-/

namespace AudioCtrl.Audio

open PartialRun Exclusion Ownership

variable {Obj Handle Id Volume : Type}

namespace System

variable [DecidableEq Obj] [DecidableEq Id] {deviceOf : Obj → Id}
  {s t u : System Obj Handle Id Volume} {k : ℕ} {pc : Pc Obj Id Volume}

/-- Steps of thread `k` alone lead from `s` to `t`. -/
def Alone (deviceOf : Obj → Id) (k : ℕ) (s t : System Obj Handle Id Volume) : Prop :=
  ∃ actions, (∀ a ∈ actions, ∃ answer, a = Action.thread k answer) ∧
    run (step deviceOf) s actions = some t

theorem Alone.refl (s : System Obj Handle Id Volume) : Alone deviceOf k s s :=
  ⟨[], nofun, rfl⟩

theorem Alone.trans (hst : Alone deviceOf k s t) (htu : Alone deviceOf k t u) :
    Alone deviceOf k s u := by
  obtain ⟨actions, hthread, hrun⟩ := hst
  obtain ⟨actions', hthread', hrun'⟩ := htu
  refine ⟨actions ++ actions', ?_, run_trans hrun hrun'⟩
  intro a ha
  exact (List.mem_append.mp ha).elim (hthread a) (hthread' a)

theorem Alone.head (answer : Answer Obj Handle) (hcrashed : s.crashed = none)
    (hk : s.threads[k]? = some pc) (hstep : s.stepThread deviceOf k pc answer = some t)
    (h : Alone deviceOf k t u) : Alone deviceOf k s u := by
  obtain ⟨actions, hthread, hrun⟩ := h
  refine ⟨.thread k answer :: actions, List.forall_mem_cons.mpr ⟨⟨answer, rfl⟩, hthread⟩, ?_⟩
  rw [run_cons, step, if_pos hcrashed, hk, Option.bind_some, hstep]
  exact hrun

section Goto

omit [DecidableEq Obj] [DecidableEq Id]

theorem goto_goto (s : System Obj Handle Id Volume) (k : ℕ) (pc pc' : Pc Obj Id Volume) :
    (s.goto k pc).goto k pc' = s.goto k pc' := by
  unfold goto
  dsimp only
  rw [List.set_set]

theorem lock_eq_ok {w w' : World Obj Handle Volume} (h : lock.run w = .ok () w') :
    w.locked ≠ true ∧ w' = { w with locked := true } := by
  simp only [EStateM.run, lock] at h
  split at h
  · cases h
  · next hfree =>
    cases h
    exact ⟨hfree, rfl⟩

end Goto

theorem Alone.exec (answer : Answer Obj Handle) {α : Type} {prog : Prog Obj Handle Volume α}
    {a : α} {w : World Obj Handle Volume} {pc' : Pc Obj Id Volume}
    {next : α → System Obj Handle Id Volume → System Obj Handle Id Volume}
    (hrun : prog.run s.world = .ok a w) (hcrashed : s.crashed = none) (hk : k < s.threads.length)
    (hstep : (s.goto k pc).stepThread deviceOf k pc answer = some ((s.goto k pc).exec prog next))
    (hnext : next a { s.goto k pc with world := w } = t.goto k pc')
    (h : Alone deviceOf k (t.goto k pc') u) : Alone deviceOf k (s.goto k pc) u := by
  have hexec := exec_of_run (s := s.goto k pc) hrun next
  rw [hexec, hnext] at hstep
  exact h.head answer hcrashed (List.getElem?_set_self hk) hstep

section SetMainVolume

variable {v : Volume} {w : World Obj Handle Volume}

theorem alone_setDeviceVolume {i : ℕ} {ds : List (Device Obj)} (hcrashed : s.crashed = none)
    (hk : k < s.threads.length) (hi : i ≤ s.deviceEnumerator.deviceCollection.devices.length)
    (hds : s.deviceEnumerator.deviceCollection.devices.drop i = ds)
    (hrun : (ds.forM fun device => device.setDeviceVolume v).run s.world = .ok () w) :
    Alone deviceOf k
      (s.goto k (.setDeviceVolume v i s.deviceEnumerator.deviceCollection.devices.length))
      ({ s with world := w }.goto k .unlockVolume) := by
  induction ds generalizing s i with
  | nil =>
    cases hrun
    have hlength := List.drop_eq_nil_iff.mp hds
    have hlast : i = s.deviceEnumerator.deviceCollection.devices.length := by omega
    apply Alone.head (s := s.goto k _) .nothing hcrashed (List.getElem?_set_self hk) _ (.refl _)
    rw [stepThread, if_pos hlast]
    exact congrArg some (goto_goto s k _ _)
  | cons d ds ih =>
    have hlt : i < s.deviceEnumerator.deviceCollection.devices.length := by
      by_contra hge
      rw [List.drop_eq_nil_of_le (by omega)] at hds
      cases hds
    rw [List.drop_eq_getElem_cons hlt] at hds
    obtain ⟨rfl, hrest⟩ := List.cons.inj hds
    have hd := List.getElem?_eq_getElem hlt
    obtain ⟨_, u, hset, hrun⟩ := run_bind_eq_ok hrun
    have htail := ih (s := { s with world := u }) hcrashed hk hlt hrest hrun
    exact Alone.exec .nothing hset hcrashed hk (stepThread_setDeviceVolume deviceOf hlt.ne hd)
      (goto_goto { s with world := u } k _ _) htail

theorem alone_setMainVolume (hcrashed : s.crashed = none)
    (hk : s.threads[k]? = some (.setMainVolume v))
    (hrun : (s.deviceEnumerator.setMainVolume v).run s.world = .ok () w) :
    Alone deviceOf k s ({ s with world := w, holder := none }.goto k .idle) := by
  unfold DeviceEnumerator.setMainVolume at hrun
  obtain ⟨_, w₁, hlock, hrun⟩ := run_bind_eq_ok hrun
  obtain ⟨_, w₂, hwalk, hunlock⟩ := run_bind_eq_ok hrun
  obtain ⟨hfree, -⟩ := lock_eq_ok hlock
  obtain ⟨hlt, -⟩ := List.getElem?_eq_some_iff.mp hk
  have hstart : s.stepThread deviceOf k (.setMainVolume v) .nothing =
      some ({ s with world := w₁, holder := some k }.goto k
        (.setDeviceVolume v 0 s.deviceEnumerator.deviceCollection.devices.length)) := by
    rw [stepThread, if_neg hfree]
    exact congrArg some (exec_of_run hlock _)
  have hdevices : Alone deviceOf k _ _ := alone_setDeviceVolume
    (s := { s with world := w₁, holder := some k }) hcrashed hlt (Nat.zero_le _) rfl hwalk
  apply Alone.head .nothing hcrashed hk hstart
  apply hdevices.trans
  exact Alone.exec (s := { s with world := w₂, holder := some k }) .nothing hunlock hcrashed hlt
    rfl (goto_goto { s with world := w, holder := none } k _ _) (.refl _)

end SetMainVolume

section ReloadDevices

variable {w : World Obj Handle Volume} {p : Option Obj} {temporary : DeviceCollection Obj}
  {number : ℕ}

theorem alone_releaseDevices {ds : List (Device Obj)} (hcrashed : s.crashed = none)
    (hk : k < s.threads.length) (hds : s.deviceEnumerator.deviceCollection.devices = ds)
    (hrun : (ds.forM Device.destroy).run s.world = .ok () w) :
    Alone deviceOf k (s.goto k (.moveDevices p temporary number))
      (({ s with world := w }.setCollection
        { s.deviceEnumerator.deviceCollection with devices := [] }).goto k
          (.moveDevices p temporary number)) := by
  induction ds generalizing s with
  | nil =>
    cases hrun
    rw [← hds]
    exact .refl _
  | cons d ds ih =>
    obtain ⟨_, u, hdestroy, hrun⟩ := run_bind_eq_ok hrun
    have htail := ih (s := { s with world := u }.setCollection
      { s.deviceEnumerator.deviceCollection with devices := ds }) hcrashed hk rfl hrun
    exact Alone.exec .nothing hdestroy hcrashed hk (stepThread_moveDevices_cons deviceOf hds) rfl
      htail

theorem alone_reloadDevices {c : Obj} {found : List (Endpoint Obj Handle)}
    {this : DeviceEnumerator Obj} (hcrashed : s.crashed = none)
    (hk : s.threads[k]? = some .reload)
    (hlisted : found.map (fun x => deviceOf x.device) = s.os)
    (hrun : (s.deviceEnumerator.reloadDevices (Endpoints.mk c found).reply).run s.world =
      .ok this w) :
    Alone deviceOf k s
      ({ s with
        world := w, deviceEnumerator := this, holder := none,
        enumerations := s.enumerations + 1,
        installs := s.installs ++ [s.enumerations] }.goto k .idle) := by
  unfold DeviceEnumerator.reloadDevices DeviceEnumerator.replaceCollection at hrun
  obtain ⟨_, w₁, hlock, hrun⟩ := run_bind_eq_ok hrun
  obtain ⟨⟨p, tree⟩, w₂, hreplace, hrun⟩ := run_bind_eq_ok hrun
  obtain ⟨p', w₃, henumerate, hreplace⟩ := run_bind_eq_ok hreplace
  obtain ⟨temporary, w₄, hbuild, hreplace⟩ := run_bind_eq_ok hreplace
  obtain ⟨⟨tree', temporary'⟩, w₅, hmove, hreplace⟩ := run_bind_eq_ok hreplace
  obtain ⟨_, w₆, hdestroy, hreplace⟩ := run_bind_eq_ok hreplace
  cases hreplace
  obtain ⟨⟨collection, collection'⟩, w₇, hcollection, hmove⟩ := run_bind_eq_ok hmove
  obtain ⟨⟨devices, devices'⟩, w₈, hdevices, hmove⟩ := run_bind_eq_ok hmove
  cases hmove
  obtain ⟨_, w₉, hforM, hdevices⟩ := run_bind_eq_ok hdevices
  cases hdevices
  obtain ⟨_, w₁₀, hunlock, hrun⟩ := run_bind_eq_ok hrun
  obtain ⟨_, w₁₁, hlocal, hrun⟩ := run_bind_eq_ok hrun
  cases hrun
  obtain ⟨hfree, -⟩ := lock_eq_ok hlock
  obtain ⟨hlt, -⟩ := List.getElem?_eq_some_iff.mp hk
  obtain ⟨_, u, -, hpDevices⟩ := run_bind_eq_ok henumerate
  cases hpDevices
  have hstart : s.stepThread deviceOf k .reload .nothing =
      some ({ s with world := w₁, holder := some k }.goto k .enumerate) := by
    rw [stepThread, if_neg hfree]
    exact congrArg some (exec_of_run hlock _)
  apply Alone.head .nothing hcrashed hk hstart
  -- One statement after the other; each step forgets the place it came from.
  refine Alone.exec (.object c) henumerate (by exact hcrashed) (by exact hlt) (by rfl) (goto_goto
    { s with world := _, holder := some k, enumerations := s.enumerations + 1 } k _ _) ?_
  refine Alone.exec (.devices found) hbuild (by exact hcrashed) (by exact hlt) (if_pos hlisted)
    (goto_goto { s with world := _, holder := _, enumerations := _ } k _ _) ?_
  refine Alone.exec .nothing hcollection (by exact hcrashed) (by exact hlt) (by rfl) (goto_goto
    (setCollection { s with world := _, holder := _, enumerations := _ } _) k _ _) ?_
  refine Alone.trans (alone_releaseDevices (by exact hcrashed) (by exact hlt) (by rfl) hforM) ?_
  refine Alone.exec .nothing hdestroy (by exact hcrashed) (by exact hlt)
    (stepThread_moveDevices_nil deviceOf (by rfl)) (goto_goto (setCollection
      { s with world := _, holder := _, enumerations := _, installs := s.installs ++ [_] } _)
      k _ _) ?_
  refine Alone.exec .nothing hunlock (by exact hcrashed) (by exact hlt) (by rfl) (goto_goto
    (setCollection { s with world := _, holder := none, enumerations := _, installs := _ } _)
    k _ _) ?_
  exact Alone.exec .nothing hlocal (by exact hcrashed) (by exact hlt) (by rfl) (goto_goto
    (setCollection { s with world := _, holder := _, enumerations := _, installs := _ } _)
    k _ _) (.refl _)

end ReloadDevices

end System

end AudioCtrl.Audio
