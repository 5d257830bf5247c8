import AudioCtrl.Audio.Freshness
import AudioCtrl.Foundations.GuardedValue

/-!
# A volume change acts on one tree

The installed tree is a guarded value: `setMainVolume` walks over its devices and
`reloadDevices` updates it. Every step of the system is a step of that value or
leaves it as it is, so a walk under way sees nothing but its own visits.
-/

namespace AudioCtrl.Audio

open RefCount Ownership GuardedValue PartialRun Exclusion

section Calls

variable {Obj Handle Id Volume : Type}

/-- The calls of `SetMasterVolumeLevelScalar` that set every device of the tree once. -/
def DeviceCollection.volumeCalls (this : DeviceCollection Obj) (volume : Volume) :
    List (Option Obj × Volume) :=
  this.devices.map fun device => (device.endpointVolume, volume)

def World.volumeCalls (w : World Obj Handle Volume) : List (Option Obj × Volume) :=
  w.volumes.map fun call => (some call.1, call.2)

/-- How a thread that holds the mutex works on the installed tree. -/
def Pc.mode (installed : DeviceCollection Obj) :
    Pc Obj Id Volume → Mode (Option Obj × Volume)
  | .setDeviceVolume volume i _ => .walking ((installed.volumeCalls volume).drop i)
  | .unlockVolume => .walking []
  | _ => .updating

theorem DeviceCollection.drop_volumeCalls {this : DeviceCollection Obj} {i : ℕ} {d : Device Obj}
    (hd : this.devices[i]? = some d) (v : Volume) :
    (this.volumeCalls v).drop i = (d.endpointVolume, v) :: (this.volumeCalls v).drop (i + 1) := by
  obtain ⟨hlt, rfl⟩ := List.getElem?_eq_some_iff.mp hd
  unfold volumeCalls
  rw [List.drop_eq_getElem_cons (by rwa [List.length_map]), List.getElem_map]

theorem DeviceCollection.drop_length_volumeCalls (this : DeviceCollection Obj) (v : Volume) :
    (this.volumeCalls v).drop this.devices.length = [] := by
  apply List.drop_eq_nil_of_le
  exact (List.length_map _).le

end Calls

namespace System

variable {Obj Handle Id Volume : Type}

def guarded (s : System Obj Handle Id Volume) :
    Guarded (DeviceCollection Obj) (Option Obj × Volume) where
  value := s.deviceEnumerator.deviceCollection
  mode := s.holderPc.elim .free (Pc.mode s.deviceEnumerator.deviceCollection)
  visited := s.world.volumeCalls

variable {deviceOf : Obj → Id} {outside : Obj → ℕ}
  {s t u : System Obj Handle Id Volume} {k : ℕ} {pc pc' : Pc Obj Id Volume}

section Refinement

theorem guarded_of_free (hfree : s.holderPc = none) :
    s.guarded = ⟨s.deviceEnumerator.deviceCollection, .free, s.world.volumeCalls⟩ := by
  unfold guarded
  rw [hfree]
  rfl

theorem guarded_of_holder (hpc : s.holderPc = some pc) :
    s.guarded = ⟨s.deviceEnumerator.deviceCollection,
      pc.mode s.deviceEnumerator.deviceCollection, s.world.volumeCalls⟩ := by
  unfold guarded
  rw [hpc]
  rfl

theorem guarded_stutter (hpc : t.holderPc = s.holderPc)
    (htree : t.deviceEnumerator.deviceCollection = s.deviceEnumerator.deviceCollection)
    (hvolumes : t.world.volumes = s.world.volumes) :
    Relation.ReflGen (Step DeviceCollection.volumeCalls) s.guarded t.guarded := by
  have hsame : t.guarded = s.guarded := by
    unfold guarded World.volumeCalls
    rw [hpc, htree, hvolumes]
  rw [hsame]

theorem holderPc_of_guarded_free (h : s.guarded.mode = .free) : s.holderPc = none := by
  cases hpc : s.holderPc with
  | none => rfl
  | some pc =>
    rw [guarded_of_holder hpc] at h
    cases pc <;> cases h

variable [DecidableEq Obj]

theorem Safe.holderPc_inside (h : Safe outside s) (hk : s.threads[k]? = some pc)
    (hpc : pc.inside = true) : s.holderPc = some pc :=
  holderPc_of_holder (h.inside_holder hk hpc) hk

theorem Safe.guarded_update (h : Safe outside s) (hk : s.threads[k]? = some pc)
    (hin : pc.inside = true) (hmode : ∀ x : DeviceCollection Obj, pc.mode x = .updating)
    (hpc' : t.holderPc = some pc') (hmode' : ∀ x : DeviceCollection Obj, pc'.mode x = .updating)
    (hvolumes : t.world.volumes = s.world.volumes) :
    Relation.ReflGen (Step DeviceCollection.volumeCalls) s.guarded t.guarded := by
  have hcalls : t.world.volumeCalls = s.world.volumeCalls := congrArg (List.map _) hvolumes
  rw [guarded_of_holder (h.holderPc_inside hk hin), guarded_of_holder hpc', hmode, hmode', hcalls]
  exact .single (.change _ _ _)

theorem Safe.guarded_visit (h : Safe outside s) {v : Volume} {i n : ℕ} {d : Device Obj}
    (hk : s.threads[k]? = some (.setDeviceVolume v i n))
    (hd : s.deviceEnumerator.deviceCollection.devices[i]? = some d)
    (hpc' : t.holderPc = some (.setDeviceVolume v (i + 1) n))
    (htree : t.deviceEnumerator.deviceCollection = s.deviceEnumerator.deviceCollection)
    (hcalls : t.world.volumeCalls = s.world.volumeCalls ++ [(d.endpointVolume, v)]) :
    Relation.ReflGen (Step DeviceCollection.volumeCalls) s.guarded t.guarded := by
  rw [guarded_of_holder (h.holderPc_inside hk rfl), guarded_of_holder hpc', htree, hcalls]
  simp only [Pc.mode, DeviceCollection.drop_volumeCalls hd]
  exact .single (.visit _ _ _ _)

/-- Every step of the system is one of the guarded tree, or leaves it as it is. -/
theorem guarded_of_move (h : Safe outside s) (hmove : Move deviceOf s t) :
    Relation.ReflGen (Step DeviceCollection.volumeCalls) s.guarded t.guarded := by
  cases hmove with
  | changeDevices | changeProperty => exact .refl
  | deliver i n hi => exact guarded_stutter (holderPc_append h.mutex) rfl rfl
  | callSetMainVolume v hk =>
    exact guarded_stutter (holderPc_goto h.mutex hk rfl (by rfl) (by rfl)) (by rfl) (by rfl)
  | create k e w hk hv hr =>
    exact guarded_stutter (holderPc_goto h.mutex hk rfl (by rfl) (by rfl)) (by rfl) hv
  | register k w hk hv hr =>
    exact guarded_stutter (holderPc_goto h.mutex hk rfl (by rfl) (by rfl)) (by rfl) hv
  | lockReload k hk hfree =>
    rw [guarded_of_free (holderPc_of_free hfree),
      guarded_of_holder (holderPc_goto_holder hk (by rfl) (by rfl) _)]
    exact .single (.startUpdate _ _)
  | enumerate k c w hk hv =>
    exact h.guarded_update hk rfl (fun _ => rfl)
      (holderPc_goto_holder hk (by exact h.inside_holder hk rfl) (by rfl) _) (fun _ => rfl) hv
  | build k c listed number found w hk hlisted hv =>
    exact h.guarded_update hk rfl (fun _ => rfl)
      (holderPc_goto_holder hk (by exact h.inside_holder hk rfl) (by rfl) _) (fun _ => rfl) hv
  | moveCollection k p temporary number w hk hv =>
    exact h.guarded_update hk rfl (fun _ => rfl)
      (holderPc_goto_holder hk (by exact h.inside_holder hk rfl) (by rfl) _) (fun _ => rfl) hv
  | releaseDevice k p temporary number d ds w hk hd hv =>
    exact h.guarded_update hk rfl (fun _ => rfl) (h.holderPc_inside hk rfl) (fun _ => rfl) hv
  | install k p temporary number w hk hd hv =>
    exact h.guarded_update hk rfl (fun _ => rfl)
      (holderPc_goto_holder hk (by exact h.inside_holder hk rfl) (by rfl) _) (fun _ => rfl) hv
  | unlockReload k p hk =>
    rw [guarded_of_holder (h.holderPc_inside hk rfl), guarded_of_free (holderPc_of_free (by rfl))]
    exact .single (.endUpdate _ _)
  | leaveReload k p w hk hv hr =>
    exact guarded_stutter (holderPc_goto h.mutex hk rfl (by rfl) (by rfl)) (by rfl) hv
  | lockVolume k v hk hfree =>
    rw [guarded_of_free (holderPc_of_free hfree),
      guarded_of_holder (holderPc_goto_holder hk (by rfl) (by rfl) _)]
    exact .single (.startWalk _ v _)
  | setDeviceVolume k v i n d o hk hin hd ho =>
    apply h.guarded_visit hk hd
      (holderPc_goto_holder hk (by exact h.inside_holder hk rfl) (by rfl) _) (by rfl)
    rw [ho]
    exact List.map_append
  | endDevices k v n hk =>
    obtain ⟨hn, -⟩ : n = s.deviceEnumerator.deviceCollection.devices.length ∧ n ≤ _ :=
      h.prepared k _ hk
    rw [guarded_of_holder (h.holderPc_inside hk rfl), guarded_of_holder
      (holderPc_goto_holder hk (by exact h.inside_holder hk rfl) (by rfl) _)]
    simp only [Pc.mode, hn, DeviceCollection.drop_length_volumeCalls]
    exact .refl
  | unlockVolume k hk =>
    rw [guarded_of_holder (h.holderPc_inside hk rfl), guarded_of_free (holderPc_of_free (by rfl))]
    exact .single (.endWalk _ _)

variable [DecidableEq Id]

theorem guarded_of_run {os : List Id} {actions : List (Action Obj Handle Id Volume)}
    (h : run (step deviceOf) (start outside os) actions = some s) :
    Relation.ReflTransGen (Step DeviceCollection.volumeCalls)
      ⟨({} : DeviceCollection Obj), .free, []⟩ s.guarded := by
  have hstep : ∀ (s : System Obj Handle Id Volume) a t,
      Safe outside s ∧ Relation.ReflTransGen (Step DeviceCollection.volumeCalls)
        ⟨({} : DeviceCollection Obj), .free, []⟩ s.guarded → step deviceOf s a = some t →
      Safe outside t ∧ Relation.ReflTransGen (Step DeviceCollection.volumeCalls)
        ⟨({} : DeviceCollection Obj), .free, []⟩ t.guarded := by
    rintro s a t ⟨hsafe, hreach⟩ hst
    have hguarded := guarded_of_move hsafe (stepped_of_step hsafe hst).move
    exact ⟨safe_of_step s a t hsafe hst, hreach.trans hguarded.to_reflTransGen⟩
  exact (run_invariant hstep ⟨safe_start outside os, .refl⟩ h).2

end Refinement

section Walk

/-- Since `s` the threads gave up the references `given`, all of them locals. -/
def GaveUp (s t : System Obj Handle Id Volume) : Prop :=
  ∃ given, (s.threads.map Pc.locals).sum = given + (t.threads.map Pc.locals).sum ∧
    t.world.released = given + s.world.released

theorem GaveUp.refl (s : System Obj Handle Id Volume) : GaveUp s s :=
  ⟨0, (zero_add _).symm, (zero_add _).symm⟩

theorem GaveUp.trans (hst : GaveUp s t) (htu : GaveUp t u) : GaveUp s u := by
  obtain ⟨given, hlocals, hreleased⟩ := hst
  obtain ⟨given', hlocals', hreleased'⟩ := htu
  refine ⟨given + given', ?_, ?_⟩
  · rw [hlocals, hlocals', add_assoc]
  · rw [hreleased', hreleased, ← add_assoc, add_comm given']

theorem GaveUp.goto (hk : s.threads[k]? = some pc) (given : Multiset Obj)
    (hlocals : pc.locals = given + pc'.locals) (hthreads : u.threads = s.threads)
    (hreleased : u.world.released = given + s.world.released) : GaveUp s (u.goto k pc') := by
  obtain ⟨others, hsum, hset⟩ := exists_others Pc.locals hk
  refine ⟨given, ?_, hreleased⟩
  unfold System.goto
  rw [hthreads, hsum, hset, hlocals]
  exact add_left_comm _ _ _

variable [DecidableEq Obj]

/-- A step while a walk is under way releases nothing but locals of another thread. -/
theorem gaveUp_of_move (h : Safe outside s) (hfree : s.guarded.mode ≠ .free)
    (hupdating : s.guarded.mode ≠ .updating) (hmove : Move deviceOf s t) : GaveUp s t := by
  have hnone : s.holder ≠ none := by
    intro hholder
    rw [guarded_of_free (holderPc_of_free hholder)] at hfree
    exact hfree rfl
  have hinside : ∀ (k : ℕ) (pc : Pc Obj Id Volume), s.threads[k]? = some pc → pc.inside = true →
      pc.mode s.deviceEnumerator.deviceCollection ≠ .updating := by
    intro k pc hk hin
    rwa [guarded_of_holder (h.holderPc_inside hk hin)] at hupdating
  cases hmove with
  | changeDevices | changeProperty => exact .refl s
  | deliver i n hi =>
    have hlocals : (callback n : Pc Obj Id Volume).locals = 0 := by cases n <;> rfl
    refine ⟨0, ?_, (zero_add _).symm⟩
    simp only [List.map_append, List.sum_append, List.map_singleton, List.sum_singleton, hlocals,
      zero_add, add_zero]
  | callSetMainVolume v hk =>
    exact GaveUp.goto hk 0 rfl rfl (zero_add _).symm
  | create k e w hk hv hr | register k w hk hv hr =>
    exact GaveUp.goto hk 0 rfl rfl (hr.trans (zero_add _).symm)
  | leaveReload k p w hk hv hr =>
    exact GaveUp.goto hk (refs p) (add_zero _).symm rfl hr
  | setDeviceVolume k v i n d o hk hin hd ho =>
    exact GaveUp.goto hk 0 rfl rfl (zero_add _).symm
  | endDevices k v n hk =>
    exact GaveUp.goto hk 0 rfl rfl (zero_add _).symm
  | unlockVolume k hk =>
    exact GaveUp.goto hk 0 rfl rfl (zero_add _).symm
  | lockReload k hk hholder | lockVolume k v hk hholder => exact absurd hholder hnone
  | enumerate k c w hk | build k c listed number found w hk
  | moveCollection k p temporary number w hk | releaseDevice k p temporary number d ds w hk
  | install k p temporary number w hk | unlockReload k p hk =>
    exact absurd rfl (hinside k _ hk rfl)

theorem Safe.mode_ne_free (h : Safe outside s) (hholder : s.holder = some k) :
    s.guarded.mode ≠ .free := by
  intro hfree
  obtain ⟨pc, hk, -⟩ := (h.mutex k).mp hholder
  have hpc := holderPc_of_holder hholder hk
  rw [holderPc_of_guarded_free hfree] at hpc
  cases hpc

omit [DecidableEq Obj] in
theorem holder_of_move (hholder : s.holder = some k) (hmove : Move deviceOf s t) :
    t.holder = some k ∨ t.holder = none := by
  cases hmove with
  | unlockReload | unlockVolume => exact .inr rfl
  | lockReload j hj hfree | lockVolume j v hj hfree =>
    rw [hholder] at hfree
    cases hfree
  | _ => exact .inl hholder

variable [DecidableEq Id] {v : Volume}

/-- Thread `k` has locked the mutex in `s` to set the volume, and still holds it or has
unlocked it. -/
structure Walking (outside : Obj → ℕ) (k : ℕ) (v : Volume) (s u : System Obj Handle Id Volume) :
    Prop where
  safe : Safe outside u
  walk : Walk DeviceCollection.volumeCalls s.deviceEnumerator.deviceCollection v
    s.world.volumeCalls u.guarded
  gaveUp : GaveUp s u
  holder : u.holder = some k ∨ u.holder = none

theorem walking_of_lock (h : Safe outside s) (hk : s.threads[k]? = some (.setMainVolume v))
    (ht : step deviceOf s (.thread k .nothing) = some t) : Walking outside k v s t := by
  have hsafe := safe_of_step s _ t h ht
  rw [step, if_pos h.crashed, hk, Option.bind_some] at ht
  obtain ⟨-, rfl⟩ := lock_step h ht
  refine ⟨hsafe, ?_, GaveUp.goto hk 0 rfl rfl (zero_add _).symm, .inl rfl⟩
  rw [guarded_of_holder (holderPc_goto_holder hk (by rfl) (by rfl) _)]
  exact Walk.start _ _ v _

/-- While thread `k` holds the mutex, every step is one of the walk. -/
theorem Walking.step (h : Walking outside k v s t) (hheld : t.holder = some k)
    {a : Action Obj Handle Id Volume} (hstep : System.step deviceOf t a = some u) :
    Walking outside k v s u := by
  have hmode := h.safe.mode_ne_free hheld
  have hmove := (stepped_of_step h.safe hstep).move
  have hgaveUp := gaveUp_of_move h.safe hmode h.walk.mode_ne_updating hmove
  exact ⟨safe_of_step t a u h.safe hstep,
    h.walk.step_or_stutter hmode (guarded_of_move h.safe hmove), h.gaveUp.trans hgaveUp,
    holder_of_move hheld hmove⟩

theorem Walking.run (h : Walking outside k v s t) {actions : List (Action Obj Handle Id Volume)}
    (hrun : PartialRun.run (System.step deviceOf) t actions = some u)
    (hheld : Meets (System.step deviceOf) (fun s _ => s.holder = some k) t actions) :
    Walking outside k v s u :=
  run_invariant_of_meets (fun _ _ _ hw hc hst => hw.step hc hst) h hheld hrun

/-- The condition on a step that thread `k` takes while it holds the mutex. -/
def ByHolder (k : ℕ) (s : System Obj Handle Id Volume) (a : Action Obj Handle Id Volume) : Prop :=
  s.holder = some k ∧ a = .thread k .nothing

/-- Thread `k` can unlock the mutex by steps of its own. -/
def Unlocks (deviceOf : Obj → Id) (k : ℕ) (s : System Obj Handle Id Volume) : Prop :=
  ∃ actions t, PartialRun.run (System.step deviceOf) s actions = some t ∧
    Meets (System.step deviceOf) (ByHolder k) s actions ∧ t.holder = none

theorem Unlocks.cons (hheld : s.holder = some k)
    (hstep : System.step deviceOf s (.thread k .nothing) = some t) (h : Unlocks deviceOf k t) :
    Unlocks deviceOf k s := by
  obtain ⟨actions, u, hrun, hmeets, hfree⟩ := h
  refine ⟨.thread k .nothing :: actions, u, run_cons_eq_some.mpr ⟨t, hstep, hrun⟩, ?_, hfree⟩
  exact (meets_cons_iff hstep).mpr ⟨⟨hheld, rfl⟩, hmeets⟩

theorem Safe.unlocks_unlockVolume (h : Safe outside s) (hk : s.threads[k]? = some .unlockVolume) :
    Unlocks deviceOf k s := by
  have hstep : System.step deviceOf s (.thread k .nothing) =
      some ({ s with world := { s.world with locked := false }, holder := none }.goto k .idle) := by
    rw [System.step, if_pos h.crashed, hk]
    rfl
  apply Unlocks.cons (h.inside_holder hk rfl) hstep
  exact ⟨[], _, rfl, trivial, rfl⟩

theorem Safe.unlocks_setDeviceVolume (h : Safe outside s) {i n : ℕ}
    (hk : s.threads[k]? = some (.setDeviceVolume v i n)) : Unlocks deviceOf k s := by
  have hheld := h.inside_holder hk rfl
  induction hm : n - i generalizing s i with
  | zero =>
    obtain ⟨rfl, hle⟩ : n = s.deviceEnumerator.deviceCollection.devices.length ∧ i ≤ _ :=
      h.prepared k _ hk
    have hin : i = s.deviceEnumerator.deviceCollection.devices.length := by omega
    have hstep : System.step deviceOf s (.thread k .nothing) = some (s.goto k .unlockVolume) := by
      rw [System.step, if_pos h.crashed, hk, Option.bind_some, stepThread, if_pos hin]
    apply Unlocks.cons hheld hstep
    exact (safe_of_step s _ _ h hstep).unlocks_unlockVolume (getElem?_set_self hk _)
  | succ m ih =>
    obtain ⟨rfl, hle⟩ : n = s.deviceEnumerator.deviceCollection.devices.length ∧ i ≤ _ :=
      h.prepared k _ hk
    have hin : i ≠ s.deviceEnumerator.deviceCollection.devices.length := by omega
    obtain ⟨d, hd⟩ : ∃ d, s.deviceEnumerator.deviceCollection.devices[i]? = some d :=
      ⟨_, List.getElem?_eq_getElem (by omega)⟩
    obtain ⟨o, ho⟩ := h.volumes.exists_volume (List.mem_of_getElem? hd)
    obtain ⟨hrun, -⟩ := Device.setDeviceVolume_spec ho v h.holds (mem_held hd ho)
    have hstep : System.step deviceOf s (.thread k .nothing) =
        some ({ s with world := { s.world with volumes := s.world.volumes ++ [(o, v)] } }.goto k
          (.setDeviceVolume v (i + 1) s.deviceEnumerator.deviceCollection.devices.length)) := by
      rw [System.step, if_pos h.crashed, hk, Option.bind_some,
        stepThread_setDeviceVolume deviceOf hin hd]
      exact congrArg some (exec_of_run hrun _)
    apply Unlocks.cons hheld hstep
    exact ih (safe_of_step s _ _ h hstep) (getElem?_set_self hk _) hheld (by omega)

/-- The walk under way can always be brought to its end. -/
theorem Walking.unlocks (h : Walking outside k v s u) (hheld : u.holder = some k) :
    Unlocks deviceOf k u := by
  obtain ⟨pc, hk, hin⟩ := (h.safe.mutex k).mp hheld
  have hmode := h.walk.mode_ne_updating
  rw [guarded_of_holder (holderPc_of_holder hheld hk)] at hmode
  cases pc with
  | setDeviceVolume v i n => exact h.safe.unlocks_setDeviceVolume hk
  | unlockVolume => exact h.safe.unlocks_unlockVolume hk
  | create | register | idle | reload | leaveReload | setMainVolume => cases hin
  | enumerate | build | moveCollection | moveDevices | unlockReload => exact absurd rfl hmode

/-- Thread `k` locks the mutex in `s` to set the volume `v`, and `u` is any state up to its
unlock, whatever the other threads did meanwhile. The calls made since are those of
a first part of the tree installed in `s`, of the whole tree once the mutex is
unlocked, and thread `k` can get there by steps of its own. That tree is still
installed, each of its interfaces still counts the tree's references, and what has been
released since are locals of threads that had unlocked the mutex before. -/
theorem setMainVolume_acts_on_installed_tree {os : List Id}
    {before during : List (Action Obj Handle Id Volume)}
    (hs : PartialRun.run (System.step deviceOf) (start outside os) before = some s)
    (hk : s.threads[k]? = some (.setMainVolume v))
    (ht : System.step deviceOf s (.thread k .nothing) = some t)
    (hu : PartialRun.run (System.step deviceOf) t during = some u)
    (hheld : Meets (System.step deviceOf) (fun s _ => s.holder = some k) t during) :
    (∃ done, u.world.volumeCalls = s.world.volumeCalls ++ done ∧
      done <+: s.deviceEnumerator.deviceCollection.volumeCalls v ∧
      (u.holder ≠ some k → done = s.deviceEnumerator.deviceCollection.volumeCalls v)) ∧
    (u.holder = some k → Unlocks deviceOf k u) ∧
    u.deviceEnumerator.deviceCollection = s.deviceEnumerator.deviceCollection ∧
    (∀ o, s.deviceEnumerator.deviceCollection.refs.count o ≤ u.world.count o) ∧
    GaveUp s u ∧ u.crashed = none := by
  have hwalking := (walking_of_lock (safe_of_run hs) hk ht).run hu hheld
  have htree : u.deviceEnumerator.deviceCollection = s.deviceEnumerator.deviceCollection :=
    hwalking.walk.value
  refine ⟨?_, hwalking.unlocks, htree, ?_, hwalking.gaveUp, hwalking.safe.crashed⟩
  · obtain ⟨done, hcalls, hprefix⟩ := hwalking.walk.visited_prefix
    refine ⟨done, hcalls, hprefix, ?_⟩
    intro hne
    have hfree := holderPc_of_free (hwalking.holder.resolve_left hne)
    have hall := hwalking.walk.visited_all (congrArg Guarded.mode (guarded_of_free hfree))
    exact List.append_cancel_left (hcalls.symm.trans hall)
  · intro o
    rw [hwalking.safe.holds.counted o, ← htree]
    unfold held DeviceEnumerator.refs
    simp only [Multiset.count_add]
    omega

end Walk

/-- While the volume is set, the thread that installed the tree releases its `pDevices`. -/
theorem setMainVolume_acts_on_installed_tree_overtakenChange :
    ∃ s t u, run (step fun d : ℕ => d) (start (fun _ => 0) [10]) (overtakenChange.take 19) =
        some s ∧
      step (fun d : ℕ => d) s (.thread 0 .nothing) = some t ∧
      run (step fun d : ℕ => d) t (overtakenChange.drop 20) = some u ∧
      u.world.volumeCalls =
        s.world.volumeCalls ++ s.deviceEnumerator.deviceCollection.volumeCalls 7 ∧
      GaveUp s u := by
  have h : (run (step fun d : ℕ => d) (start (fun _ => 0) [10]) (overtakenChange.take 19)).any
      (fun s => decide (s.threads[0]? = some (.setMainVolume 7)) &&
        (step (fun d : ℕ => d) s (.thread 0 .nothing)).any fun t =>
          decide (Meets (step fun d : ℕ => d) (fun s _ => s.holder = some 0) t
            (overtakenChange.drop 20)) &&
          (run (step fun d : ℕ => d) t (overtakenChange.drop 20)).any fun u =>
            decide (u.holder ≠ some 0)) = true := by decide +kernel
  simp only [Option.any_eq_true, Bool.and_eq_true, decide_eq_true_eq] at h
  obtain ⟨s, hs, hk, t, ht, hheld, u, hu, hfree⟩ := h
  obtain ⟨⟨done, hcalls, -, hall⟩, -, -, -, hgaveUp, -⟩ :=
    setMainVolume_acts_on_installed_tree hs hk ht hu hheld
  refine ⟨s, t, u, hs, ht, hu, ?_, hgaveUp⟩
  rw [hcalls, hall hfree]

end System

end AudioCtrl.Audio
