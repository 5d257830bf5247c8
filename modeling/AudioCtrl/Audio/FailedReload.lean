import AudioCtrl.Audio.MainVolume
import AudioCtrl.Audio.TreeReferences

/-!
# Reloads in which a call fails

A missing interface that a constructor uses at once is called all the same, and
an allocation that fails leaves the mutex locked. The two volume interfaces are
only stored, and a `GetCount` that fails lists nothing, so a tree without them or without
what there is to list is installed like any other. A reload is therefore atomic exactly
where nothing is missing, but for a tree that has been installed before.
-/

namespace AudioCtrl.Audio

open RefCount Ownership

variable {Obj Handle Volume : Type}

section Complete

/-- The object is that of a session of Windows, with every interface. -/
def Session.Complete (this : Session Obj) (x : SessionReply Obj Handle) : Prop :=
  this.sessionControl = x.sessionControl ∧ this.sessionControl ≠ none ∧
    this.sessionControl2 ≠ none ∧ this.audioVolume ≠ none

def SessionEnumerator.Complete (this : SessionEnumerator Obj)
    (x : SessionEnumeratorReply Obj Handle) : Prop :=
  this.sessionManager ≠ none ∧ this.sessionEnumerator ≠ none ∧
    List.Forall₂ Session.Complete this.sessions x.sessions

def Device.Complete (this : Device Obj) (x : DeviceReply Obj Handle) : Prop :=
  this.device = x.device ∧ this.device ≠ none ∧ this.endpointVolume ≠ none ∧
    this.sessionEnumerator.Complete x.sessionEnumerator

/-- The devices and sessions of the tree are, one by one, those that there are, whether
`GetCount` told of them or not, and all their interfaces are there. -/
def DeviceCollection.Complete (this : DeviceCollection Obj) (x : CollectionReply Obj Handle) :
    Prop :=
  List.Forall₂ Device.Complete this.devices x.devices

end Complete

section Delivers

/-- `QueryInterface` delivers the volume of the session. -/
def SessionReply.Delivers (x : SessionReply Obj Handle) : Prop :=
  x.audioVolume ≠ none

/-- `GetCount` succeeds, unless there is nothing to count. -/
def SessionEnumeratorReply.Delivers (x : SessionEnumeratorReply Obj Handle) : Prop :=
  (x.sessions ≠ [] → x.getCount = true) ∧ ∀ session ∈ x.sessions, session.Delivers

/-- The second `Activate` delivers the volume of the device. -/
def DeviceReply.Delivers (x : DeviceReply Obj Handle) : Prop :=
  x.endpointVolume ≠ none ∧ x.sessionEnumerator.Delivers

def CollectionReply.Delivers (x : CollectionReply Obj Handle) : Prop :=
  (x.devices ≠ [] → x.getCount = true) ∧ ∀ device ∈ x.devices, device.Delivers

theorem forall₂_counted_iff {α β : Type} {R : α → β → Prop} {tree : β → α} {delivers : β → Prop}
    {l : List β} {getCount : Bool}
    (h : ∀ x ∈ (if getCount then l else []), (R (tree x) x ↔ delivers x)) :
    List.Forall₂ R ((if getCount then l else []).map tree) l ↔
      (l ≠ [] → getCount = true) ∧ ∀ x ∈ l, delivers x := by
  cases getCount with
  | true =>
    rw [if_pos rfl] at h ⊢
    rw [List.forall₂_map_left_iff, List.forall₂_same, and_iff_right fun _ => rfl]
    exact forall₂_congr h
  | false =>
    rw [if_neg Bool.false_ne_true, List.map_nil, List.forall₂_nil_left_iff]
    constructor
    · rintro rfl
      exact ⟨fun hne => absurd rfl hne, List.forall_mem_nil _⟩
    · rintro ⟨hcount, -⟩
      by_contra hne
      exact Bool.false_ne_true (hcount hne)

theorem SessionReply.Suffices.complete_iff {x : SessionReply Obj Handle} (h : x.Suffices) :
    x.tree.Complete x ↔ x.Delivers := by
  unfold Session.Complete SessionReply.tree SessionReply.Delivers
  rw [and_iff_right rfl, and_iff_right h.1, and_iff_right h.2]

theorem DeviceReply.Suffices.complete_iff {x : DeviceReply Obj Handle} (h : x.Suffices) :
    x.tree.Complete x ↔ x.Delivers := by
  obtain ⟨hdevice, hmanager, henumerator, -, hsessions⟩ := h
  unfold Device.Complete SessionEnumerator.Complete DeviceReply.tree SessionEnumeratorReply.tree
  rw [and_iff_right rfl, and_iff_right hdevice, and_iff_right hmanager,
    and_iff_right henumerator]
  exact and_congr_right fun _ => forall₂_counted_iff fun session hsession =>
    (hsessions session hsession).complete_iff

theorem CollectionReply.Suffices.complete_iff {x : CollectionReply Obj Handle} (h : x.Suffices) :
    x.tree.Complete x ↔ x.Delivers := by
  obtain ⟨-, -, hdevices⟩ := h
  exact forall₂_counted_iff fun device hdevice => (hdevices device hdevice).complete_iff

theorem CollectionReply.mem_of_mem_counted {x : CollectionReply Obj Handle}
    {y : DeviceReply Obj Handle} (h : y ∈ x.counted) : y ∈ x.devices := by
  unfold counted at h
  split_ifs at h
  · exact h
  · cases h

theorem CollectionReply.Delivers.hasVolumes {x : CollectionReply Obj Handle} (h : x.Delivers) :
    x.tree.HasVolumes := by
  intro d hd
  obtain ⟨y, hy, rfl⟩ := List.mem_map.mp hd
  exact (h.2 y (mem_of_mem_counted hy)).1

theorem Endpoints.delivers_reply (x : Endpoints Obj Handle) : x.reply.Delivers := by
  refine ⟨fun _ => rfl, ?_⟩
  intro y hy
  obtain ⟨device, -, rfl⟩ := List.mem_map.mp hy
  refine ⟨Option.some_ne_none _, fun _ => rfl, ?_⟩
  intro z hz
  obtain ⟨session, -, rfl⟩ := List.mem_map.mp hz
  exact Option.some_ne_none _

end Delivers

namespace DeviceEnumerator

variable [DecidableEq Obj]

/-- The object and the world after a call of `reloadDevices`. An exception leaves the
members as they were, and the mutex as well: it is unlocked by hand. -/
def reloaded (this : DeviceEnumerator Obj) (reply : CollectionReply Obj Handle)
    (w : World Obj Handle Volume) : DeviceEnumerator Obj × World Obj Handle Volume :=
  match (this.reloadDevices reply).run w with
  | .ok this w => (this, w)
  | .error _ w => (this, w)

/-- The reload calls no null interface, unlocks the mutex, and leaves the tree as it was or
one that is complete for what there is to list. The volume can be set next without a call of
a null interface. -/
structure Atomic (this : DeviceEnumerator Obj) (reply : CollectionReply Obj Handle)
    (w : World Obj Handle Volume) : Prop where
  calls : ∀ t, (this.reloadDevices reply).run w ≠ .error .nullCall t
  unlocked : (this.reloaded reply w).2.locked = false
  tree : (this.reloaded reply w).1.deviceCollection = this.deviceCollection ∨
    (this.reloaded reply w).1.deviceCollection.Complete reply
  setMainVolume : ∀ volume t,
    ((this.reloaded reply w).1.setMainVolume volume).run (this.reloaded reply w).2 ≠
      .error .nullCall t

variable {outside : Obj → ℕ} {calls : List (Obj × Volume)} {e : Obj} {old : DeviceCollection Obj}
  {x : CollectionReply Obj Handle} {w : World Obj Handle Volume}

/-- Whatever Windows answers, the program holds the references of its objects when the
constructor and later reloads have returned. -/
theorem holds_of_foldlM_reloadDevices {later : List (CollectionReply Obj Handle)}
    {this : DeviceEnumerator Obj} {t : World Obj Handle Volume}
    (h : Holds outside false calls w ({e} + old.refs))
    (hrun : (later.foldlM reloadDevices ⟨some e, old⟩).run w = .ok this t) :
    ∃ installed, this = ⟨some e, installed⟩ ∧
      Holds outside false calls t ({e} + installed.refs) := by
  induction later generalizing w old with
  | nil =>
    cases hrun
    exact ⟨old, rfl, h⟩
  | cons x later ih =>
    rw [List.foldlM_cons] at hrun
    obtain ⟨next, u, hx, hrun⟩ := run_bind_eq_ok hrun
    by_cases hsuffices : x.Suffices
    · obtain ⟨u', hu', hheld⟩ := reloadDevices_of_suffices hsuffices h
      rw [hx] at hu'
      cases hu'
      exact ih hheld hrun
    · obtain ⟨fault, u', hu', -⟩ := reloadDevices_of_not_suffices hsuffices h
      rw [hx] at hu'
      cases hu'

theorem holds_of_constructAndReload {enumerator : Option Obj} {first : CollectionReply Obj Handle}
    {later : List (CollectionReply Obj Handle)} {this : DeviceEnumerator Obj}
    (hrun : (constructAndReload enumerator first later).run (World.start Handle Volume outside) =
      .ok this w) :
    ∃ e installed, this = ⟨some e, installed⟩ ∧
      Holds outside false [] w ({e} + installed.refs) := by
  cases enumerator with
  | none => cases hrun
  | some e =>
    obtain ⟨v, hempty, hall⟩ := constructAndReload_run Handle Volume outside e
    rw [hall] at hrun
    obtain ⟨installed, hthis, hfinal⟩ := holds_of_foldlM_reloadDevices hempty hrun
    exact ⟨e, installed, hthis, hfinal⟩

theorem reloaded_of_ok {this next : DeviceEnumerator Obj} {t : World Obj Handle Volume}
    (hrun : (this.reloadDevices x).run w = .ok next t) : this.reloaded x w = (next, t) := by
  unfold reloaded
  rw [hrun]

theorem reloaded_of_error {this : DeviceEnumerator Obj} {fault : Fault}
    {t : World Obj Handle Volume} (hrun : (this.reloadDevices x).run w = .error fault t) :
    this.reloaded x w = (this, t) := by
  unfold reloaded
  rw [hrun]

theorem atomic_iff_of_suffices [Nonempty Volume] (hx : x.Suffices)
    (h : Holds outside false calls w ({e} + old.refs)) :
    Atomic ⟨some e, old⟩ x w ↔ x.Delivers ∨ x.tree = old ∧ old.HasVolumes := by
  obtain ⟨t, ht, hheld⟩ := reloadDevices_of_suffices hx h
  have hreloaded := reloaded_of_ok ht
  have hsafe := setMainVolume_safe_iff hheld
  constructor
  · intro hatomic
    have htree := hatomic.tree
    have hset := hatomic.setMainVolume
    rw [hreloaded] at htree hset
    rcases htree with rfl | hcomplete
    · exact .inr ⟨rfl, hsafe.mp hset⟩
    · exact .inl (hx.complete_iff.mp hcomplete)
  · intro hok
    have hvolumes : x.tree.HasVolumes := by
      rcases hok with hdelivers | ⟨rfl, hold⟩
      · exact hdelivers.hasVolumes
      · exact hold
    refine ⟨?_, ?_, ?_, ?_⟩
    · intro s hs
      rw [ht] at hs
      cases hs
    · rw [hreloaded]
      exact hheld.locked
    · rw [hreloaded]
      exact hok.symm.imp And.left hx.complete_iff.mpr
    · rw [hreloaded]
      exact hsafe.mpr hvolumes

theorem not_atomic_of_not_suffices (hx : ¬ x.Suffices)
    (h : Holds outside false calls w ({e} + old.refs)) : ¬ Atomic ⟨some e, old⟩ x w := by
  intro hatomic
  obtain ⟨fault, t, ht, hbreaks⟩ := reloadDevices_of_not_suffices hx h
  rcases hbreaks with rfl | ⟨-, hlocked⟩
  · exact hatomic.calls t ht
  · have hunlocked := hatomic.unlocked
    rw [reloaded_of_error ht, hlocked] at hunlocked
    cases hunlocked

/-- From any installed tree, a reload is atomic if and only if each interface that is used
at once and each allocation is there, and so are every volume interface and the count of
every list, unless the answers repeat an installed tree that has all endpoint volumes. -/
theorem reload_atomic_iff [Nonempty Volume] (h : Holds outside false calls w ({e} + old.refs)) :
    Atomic ⟨some e, old⟩ x w ↔ x.Suffices ∧ (x.Delivers ∨ x.tree = old ∧ old.HasVolumes) := by
  by_cases hx : x.Suffices
  · rw [and_iff_right hx]
    exact atomic_iff_of_suffices hx h
  · exact iff_of_false (not_atomic_of_not_suffices hx h) fun hok => hx hok.1

end DeviceEnumerator

section Unplugged

def oneDevice : Endpoints ℕ ℕ :=
  let mixer : AudioSession ℕ ℕ := ⟨6, 7, 8, 20, some 30, some "mixer"⟩
  { collection := 1, devices := [⟨2, 3, 4, 5, [mixer]⟩] }

/-- The device is still found, but it is gone when it is to be activated. -/
def unplugged : CollectionReply ℕ ℕ :=
  let device : DeviceReply ℕ ℕ := ⟨some 10, none, none, ⟨none, [], false, true⟩⟩
  { collection := some 9, devices := [device], getCount := true, allocates := true }

namespace DeviceEnumerator

/-- A reload with the same device there is atomic. -/
theorem reload_atomic_oneDevice :
    ∃ w : World ℕ ℕ ℕ, (constructAndReload (some 0) oneDevice.reply []).run
        (World.start ℕ ℕ fun _ => 0) = .ok ⟨some 0, oneDevice.tree⟩ w ∧
      Atomic ⟨some 0, oneDevice.tree⟩ oneDevice.reply w := by
  obtain ⟨w, hw, h⟩ : ∃ w : World ℕ ℕ ℕ, _ := constructAndReload_spec (fun _ => 0) 0 oneDevice []
  rw [List.getLastD_nil, ← oneDevice.refs_tree] at h
  have hatomic := (reload_atomic_iff h).mpr
    ⟨oneDevice.suffices_reply, .inl oneDevice.delivers_reply⟩
  exact ⟨w, hw, hatomic⟩

/-- The session manager that the first `Activate` did not deliver is called, and the
mutex stays locked. -/
theorem reload_of_unplugged_not_atomic :
    ∃ w t : World ℕ ℕ ℕ, (constructAndReload (some 0) oneDevice.reply []).run
        (World.start ℕ ℕ fun _ => 0) = .ok ⟨some 0, oneDevice.tree⟩ w ∧
      (reloadDevices ⟨some 0, oneDevice.tree⟩ unplugged).run w = .error .nullCall t ∧
      t.locked = true ∧ ¬ Atomic ⟨some 0, oneDevice.tree⟩ unplugged w := by
  have h : (match (constructAndReload (some 0) oneDevice.reply []).run
        (World.start ℕ ℕ fun _ => 0) with
      | .ok this w => decide (this = ⟨some 0, oneDevice.tree⟩) &&
        match (this.reloadDevices unplugged).run w with
        | .error .nullCall t => t.locked
        | _ => false
      | .error _ _ => false) = true := by decide +kernel
  split at h
  · next this w hw =>
    obtain ⟨hthis, hfails⟩ := Bool.and_eq_true_iff.mp h
    obtain rfl := of_decide_eq_true hthis
    split at hfails
    · next t ht => exact ⟨w, t, hw, ht, hfails, fun hatomic => hatomic.calls t ht⟩
    · cases hfails
  · cases h

end DeviceEnumerator

end Unplugged

end AudioCtrl.Audio
