import AudioCtrl.Audio.TreeOutcomes

/-!
# Setting the volume of a tree

`setMainVolume` walks the devices of the installed tree, whatever reload left it. It
returns where each of them has its endpoint volume. At the first one that has none it calls
a null interface, and the mutex stays locked.
-/

namespace AudioCtrl.Audio

open RefCount Ownership

variable {Obj Handle Volume : Type}

namespace DeviceCollection

/-- Every device of the tree has its endpoint volume. -/
def HasVolumes (this : DeviceCollection Obj) : Prop :=
  ∀ d ∈ this.devices, d.endpointVolume ≠ none

theorem HasVolumes.exists_volume {this : DeviceCollection Obj} (h : this.HasVolumes)
    {d : Device Obj} (hd : d ∈ this.devices) : ∃ o, d.endpointVolume = some o :=
  Option.ne_none_iff_exists'.mp (h d hd)

/-- The calls of `SetMasterVolumeLevelScalar` on a tree that has all of them. -/
def volumesSet (this : DeviceCollection Obj) (volume : Volume) : List (Obj × Volume) :=
  (this.devices.filterMap Device.endpointVolume).map fun o => (o, volume)

end DeviceCollection

variable [DecidableEq Obj] {outside : Obj → ℕ} {locked : Bool} {made : List (Obj × Volume)}
  {held : Multiset Obj} {w : World Obj Handle Volume}

namespace Device

theorem setDeviceVolume_spec {this : Device Obj} {o : Obj} (ho : this.endpointVolume = some o)
    (volume : Volume) (h : Holds outside locked made w held) (hmem : o ∈ held) :
    (this.setDeviceVolume volume).run w =
        .ok () { w with volumes := w.volumes ++ [(o, volume)] } ∧
      Holds outside locked (made ++ [(o, volume)])
        { w with volumes := w.volumes ++ [(o, volume)] } held := by
  constructor
  · unfold setDeviceVolume
    rw [ho, EStateM.run_bind, IUnknownW.call_run (h.counted.pos_of_mem hmem)]
    rfl
  · exact ⟨h.counted, h.balanced, h.lost, h.locked, congrArg (· ++ [(o, volume)]) h.volumes⟩

omit [DecidableEq Obj] in
theorem setDeviceVolume_null {this : Device Obj} (hnone : this.endpointVolume = none)
    (volume : Volume) (w : World Obj Handle Volume) :
    (this.setDeviceVolume volume).run w = .error .nullCall w := by
  unfold setDeviceVolume
  rw [hnone]
  rfl

theorem forM_setDeviceVolume_ok {ds : List (Device Obj)} (volume : Volume)
    (hheld : ∀ d ∈ ds, ∀ o, d.endpointVolume = some o → o ∈ held)
    (hall : ∀ d ∈ ds, d.endpointVolume ≠ none) (h : Holds outside locked made w held) :
    ∃ t, (ds.forM fun device => device.setDeviceVolume volume).run w = .ok () t ∧
      Holds outside locked
        (made ++ (ds.filterMap Device.endpointVolume).map fun o => (o, volume)) t held := by
  induction ds generalizing w made with
  | nil => exact ⟨w, rfl, by simpa using h⟩
  | cons d ds ih =>
    obtain ⟨hfirst, hrest⟩ := List.forall_mem_cons.mp hall
    obtain ⟨hmem, hmems⟩ := List.forall_mem_cons.mp hheld
    obtain ⟨o, ho⟩ := Option.ne_none_iff_exists'.mp hfirst
    obtain ⟨hd, hholds⟩ := setDeviceVolume_spec ho volume h (hmem o ho)
    obtain ⟨t, ht, hfinal⟩ := ih hmems hrest hholds
    refine ⟨t, ?_, ?_⟩
    · change (d.setDeviceVolume volume >>= fun _ =>
        ds.forM fun d => d.setDeviceVolume volume).run w = _
      rw [EStateM.run_bind, hd]
      exact ht
    · rw [List.filterMap_cons_some ho]
      simpa using hfinal

theorem forM_setDeviceVolume_null {ds : List (Device Obj)} (volume : Volume)
    (hheld : ∀ d ∈ ds, ∀ o, d.endpointVolume = some o → o ∈ held)
    (hsome : ∃ d ∈ ds, d.endpointVolume = none) (h : Holds outside locked made w held) :
    ∃ t, (ds.forM fun device => device.setDeviceVolume volume).run w = .error .nullCall t := by
  induction ds generalizing w made with
  | nil =>
    obtain ⟨d, hd, -⟩ := hsome
    cases hd
  | cons d ds ih =>
    obtain ⟨hmem, hmems⟩ := List.forall_mem_cons.mp hheld
    change ∃ t, (d.setDeviceVolume volume >>= fun _ =>
      ds.forM fun d => d.setDeviceVolume volume).run w = _
    cases ho : d.endpointVolume with
    | none =>
      refine ⟨w, ?_⟩
      rw [EStateM.run_bind, setDeviceVolume_null ho]
    | some o =>
      obtain ⟨hd, hholds⟩ := setDeviceVolume_spec ho volume h (hmem o ho)
      have hlater : ∃ d ∈ ds, d.endpointVolume = none := by
        obtain ⟨d', hd', hnone⟩ := hsome
        rcases List.mem_cons.mp hd' with rfl | hd'
        · rw [ho] at hnone
          cases hnone
        · exact ⟨d', hd', hnone⟩
      obtain ⟨t, ht⟩ := ih hmems hlater hholds
      refine ⟨t, ?_⟩
      rw [EStateM.run_bind, hd]
      exact ht

end Device

namespace DeviceEnumerator

variable {e : Obj} {old : DeviceCollection Obj}

omit [DecidableEq Obj] in
theorem endpointVolume_held : ∀ d ∈ old.devices, ∀ o, d.endpointVolume = some o →
    o ∈ ({e} : Multiset Obj) + old.refs := by
  intro d hd o ho
  exact Multiset.mem_add.mpr (.inr (DeviceCollection.mem_refs hd ho))

omit [DecidableEq Obj] in
theorem setMainVolume_run (this : DeviceEnumerator Obj) (volume : Volume)
    (hlocked : w.locked = false) :
    (this.setMainVolume volume).run w =
      (do this.deviceCollection.setMainVolume volume; unlock).run { w with locked := true } := by
  unfold setMainVolume
  rw [EStateM.run_bind, lock_run hlocked]

theorem setMainVolume_ok (volume : Volume) (hall : old.HasVolumes)
    (h : Holds outside false made w ({e} + old.refs)) :
    ∃ t, (setMainVolume ⟨some e, old⟩ volume).run w = .ok () t ∧
      Holds outside false (made ++ old.volumesSet volume) t ({e} + old.refs) := by
  obtain ⟨t, ht, hfinal⟩ :=
    Device.forM_setDeviceVolume_ok volume endpointVolume_held hall (h.setLocked true)
  refine ⟨{ t with locked := false }, ?_, hfinal.setLocked false⟩
  rw [setMainVolume_run _ volume h.locked, EStateM.run_bind]
  unfold DeviceCollection.setMainVolume
  rw [ht]
  rfl

theorem setMainVolume_null (volume : Volume) (hnot : ¬ old.HasVolumes)
    (h : Holds outside false made w ({e} + old.refs)) :
    ∃ t, (setMainVolume ⟨some e, old⟩ volume).run w = .error .nullCall t := by
  have hsome : ∃ d ∈ old.devices, d.endpointVolume = none := by
    simpa [DeviceCollection.HasVolumes] using hnot
  obtain ⟨t, ht⟩ :=
    Device.forM_setDeviceVolume_null volume endpointVolume_held hsome (h.setLocked true)
  refine ⟨t, ?_⟩
  rw [setMainVolume_run _ volume h.locked, EStateM.run_bind]
  unfold DeviceCollection.setMainVolume
  rw [ht]

/-- The next `setMainVolume` calls no null interface exactly on the trees that have all endpoint
volumes. -/
theorem setMainVolume_safe_iff [Nonempty Volume] (h : Holds outside false made w ({e} + old.refs)) :
    (∀ (volume : Volume) t, (setMainVolume ⟨some e, old⟩ volume).run w ≠ .error .nullCall t) ↔
      old.HasVolumes := by
  constructor
  · intro hsafe
    by_contra hnot
    obtain ⟨volume⟩ := ‹Nonempty Volume›
    obtain ⟨t, ht⟩ := setMainVolume_null volume hnot h
    exact hsafe volume t ht
  · intro hall volume t hrun
    obtain ⟨u, hu, -⟩ := setMainVolume_ok volume hall h
    rw [hu] at hrun
    cases hrun

end DeviceEnumerator

end AudioCtrl.Audio
