import AudioCtrl.Audio.TreeOutcomes

/-!
# The references of a device tree

Where all calls succeed, Windows is described by the objects it hands out. Such
answers suffice, so a reload returns the tree that they describe; the triple for
any number of reloads follows by induction.
-/

namespace AudioCtrl.Audio

open RefCount Ownership

structure AudioSession (Obj Handle : Type) where
  sessionControl : Obj
  sessionControl2 : Obj
  audioVolume : Obj
  processId : ℕ
  procHandle : Option Handle
  path : Option String

/-- An active render device. -/
structure Endpoint (Obj Handle : Type) where
  device : Obj
  endpointVolume : Obj
  sessionManager : Obj
  sessionEnumerator : Obj
  sessions : List (AudioSession Obj Handle)

/-- What one enumeration finds. -/
structure Endpoints (Obj Handle : Type) where
  collection : Obj
  devices : List (Endpoint Obj Handle)

variable {Obj Handle Volume : Type}

namespace AudioSession

/-- The answers when every call succeeds. -/
def reply (x : AudioSession Obj Handle) : SessionReply Obj Handle :=
  { sessionControl := some x.sessionControl, sessionControl2 := some x.sessionControl2,
    processId := some x.processId, procHandle := x.procHandle, path := x.path,
    audioVolume := some x.audioVolume }

def tree (x : AudioSession Obj Handle) : Session Obj :=
  { sessionControl := some x.sessionControl, sessionControl2 := some x.sessionControl2,
    audioVolume := some x.audioVolume }

def references (x : AudioSession Obj Handle) : Multiset Obj :=
  {x.sessionControl} + {x.sessionControl2} + {x.audioVolume}

end AudioSession

namespace Endpoint

def sessionsReply (x : Endpoint Obj Handle) : SessionEnumeratorReply Obj Handle :=
  { sessionEnumerator := some x.sessionEnumerator,
    sessions := x.sessions.map AudioSession.reply, getCount := true, allocates := true }

def reply (x : Endpoint Obj Handle) : DeviceReply Obj Handle :=
  { device := some x.device, sessionManager := some x.sessionManager,
    endpointVolume := some x.endpointVolume, sessionEnumerator := x.sessionsReply }

def sessionsTree (x : Endpoint Obj Handle) : SessionEnumerator Obj :=
  { sessionManager := some x.sessionManager, sessionEnumerator := some x.sessionEnumerator,
    sessions := x.sessions.map AudioSession.tree }

def tree (x : Endpoint Obj Handle) : Device Obj :=
  { device := some x.device, endpointVolume := some x.endpointVolume,
    sessionEnumerator := x.sessionsTree }

/-- One reference each to the device, its volume, its session manager and its session
enumerator, and those of its sessions. -/
def references (x : Endpoint Obj Handle) : Multiset Obj :=
  {x.device} + {x.endpointVolume} + {x.sessionManager} + {x.sessionEnumerator} +
    (x.sessions.map AudioSession.references).sum

end Endpoint

namespace Endpoints

def reply (x : Endpoints Obj Handle) : CollectionReply Obj Handle :=
  { collection := some x.collection, devices := x.devices.map Endpoint.reply,
    getCount := true, allocates := true }

def tree (x : Endpoints Obj Handle) : DeviceCollection Obj :=
  { collection := some x.collection, devices := x.devices.map Endpoint.tree }

def references (x : Endpoints Obj Handle) : Multiset Obj :=
  {x.collection} + (x.devices.map Endpoint.references).sum

end Endpoints

section Held

theorem AudioSession.refs_tree (x : AudioSession Obj Handle) : x.tree.refs = x.references := rfl

theorem Endpoint.refs_sessionsTree (x : Endpoint Obj Handle) :
    x.sessionsTree.refs =
      {x.sessionManager} + {x.sessionEnumerator} +
        (x.sessions.map AudioSession.references).sum := by
  unfold SessionEnumerator.refs Endpoint.sessionsTree
  rw [List.map_map]
  rfl

theorem Endpoint.refs_tree (x : Endpoint Obj Handle) : x.tree.refs = x.references := by
  have hsessions := x.refs_sessionsTree
  unfold Device.refs Endpoint.tree Endpoint.references
  dsimp only
  rw [hsessions, refs_some, refs_some]
  abel

theorem Endpoints.refs_tree (x : Endpoints Obj Handle) : x.tree.refs = x.references := by
  unfold DeviceCollection.refs Endpoints.tree Endpoints.references
  dsimp only
  rw [List.map_map, refs_some]
  congr 2
  exact List.map_congr_left fun d _ => d.refs_tree

end Held

/-! ## Answers when every call succeeds -/

theorem Endpoint.tree_reply (x : Endpoint Obj Handle) : x.reply.tree = x.tree := by
  have hsessions : x.sessionsReply.counted.map SessionReply.tree =
      x.sessions.map AudioSession.tree := List.map_map
  unfold DeviceReply.tree SessionEnumeratorReply.tree
  change Device.mk _ _ (SessionEnumerator.mk _ _ (x.sessionsReply.counted.map _)) = _
  rw [hsessions]
  rfl

theorem Endpoint.suffices_reply (x : Endpoint Obj Handle) : x.reply.Suffices := by
  refine ⟨nofun, nofun, nofun, fun _ => rfl, ?_⟩
  intro y hy
  obtain ⟨session, -, rfl⟩ := List.mem_map.mp hy
  exact ⟨nofun, nofun⟩

theorem Endpoints.tree_reply (x : Endpoints Obj Handle) : x.reply.tree = x.tree := by
  have hdevices : x.reply.counted.map DeviceReply.tree = x.devices.map Endpoint.tree := by
    change (x.devices.map Endpoint.reply).map DeviceReply.tree = _
    rw [List.map_map]
    exact List.map_congr_left fun d _ => d.tree_reply
  unfold CollectionReply.tree
  rw [hdevices]
  rfl

theorem Endpoints.suffices_reply (x : Endpoints Obj Handle) : x.reply.Suffices := by
  refine ⟨nofun, fun _ => rfl, ?_⟩
  intro y hy
  obtain ⟨device, -, rfl⟩ := List.mem_map.mp hy
  exact device.suffices_reply

variable [DecidableEq Obj] {outside : Obj → ℕ} {locked : Bool} {calls : List (Obj × Volume)}

namespace DeviceEnumerator

theorem buildTree_spec (x : Endpoints Obj Handle) :
    Yields (Holds outside locked calls) {x.collection}
      (buildTree (some x.collection) x.reply : Prog Obj Handle Volume (DeviceCollection Obj))
      x.tree ({x.collection} + x.references) := by
  have hbuild : Yields (Holds outside locked calls) {x.collection}
      (buildTree (some x.collection) x.reply : Prog Obj Handle Volume (DeviceCollection Obj))
      x.reply.tree ({x.collection} + x.reply.tree.refs) :=
    (buildTree_settles x.reply).yields x.suffices_reply
  rw [x.tree_reply, x.refs_tree] at hbuild
  exact hbuild

theorem reloadDevices_spec (e : Obj) (old : DeviceCollection Obj) (x : Endpoints Obj Handle)
    {w : World Obj Handle Volume} (h : Holds outside false calls w ({e} + old.refs)) :
    ∃ t, (reloadDevices ⟨some e, old⟩ x.reply).run w = .ok ⟨some e, x.tree⟩ t ∧
      Holds outside false calls t ({e} + x.references) := by
  rw [← x.refs_tree, ← x.tree_reply]
  exact reloadDevices_of_suffices x.suffices_reply h

theorem foldlM_reloadDevices_spec (e : Obj) (later : List (Endpoints Obj Handle))
    (current : Endpoints Obj Handle) {w : World Obj Handle Volume}
    (h : Holds outside false calls w ({e} + current.references)) :
    ∃ t, ((later.map Endpoints.reply).foldlM reloadDevices ⟨some e, current.tree⟩).run w =
        .ok ⟨some e, (later.getLastD current).tree⟩ t ∧
      Holds outside false calls t ({e} + (later.getLastD current).references) := by
  induction later generalizing current w with
  | nil => exact ⟨w, rfl, h⟩
  | cons x later ih =>
    rw [← current.refs_tree] at h
    obtain ⟨u, hu, hheld⟩ := reloadDevices_spec e current.tree x h
    obtain ⟨t, ht, hfinal⟩ := ih x hheld
    refine ⟨t, ?_, ?_⟩
    · rw [List.map_cons, List.foldlM_cons, EStateM.run_bind, hu, List.getLastD_cons]
      exact ht
    · rw [List.getLastD_cons]
      exact hfinal

theorem constructAndReload_spec (outside : Obj → ℕ) (enumerator : Obj)
    (first : Endpoints Obj Handle) (later : List (Endpoints Obj Handle)) :
    ∃ w, (constructAndReload (some enumerator) first.reply (later.map Endpoints.reply)).run
        (World.start Handle Volume outside) =
          .ok ⟨some enumerator, (later.getLastD first).tree⟩ w ∧
      Holds outside false [] w ({enumerator} + (later.getLastD first).references) := by
  obtain ⟨v, hempty, hrun⟩ := constructAndReload_run Handle Volume outside enumerator
  obtain ⟨s, hs, hfirst⟩ := reloadDevices_spec enumerator {} first hempty
  obtain ⟨t, ht, hlast⟩ := foldlM_reloadDevices_spec enumerator later first hfirst
  refine ⟨t, ?_, hlast⟩
  rw [hrun, List.foldlM_cons, EStateM.run_bind, hs]
  exact ht

/-- After the constructor and any number of reloads the program holds the enumerator and
the tree that was installed last: each count exceeds the references held outside by
its occurrences there, every other reference that was acquired was released again,
and no out-parameter overwrote a pointer. -/
theorem references_after_reloads (outside : Obj → ℕ) (enumerator : Obj)
    (first : Endpoints Obj Handle) (later : List (Endpoints Obj Handle)) :
    ∃ w, (constructAndReload (some enumerator) first.reply (later.map Endpoints.reply)).run
        (World.start Handle Volume outside) =
          .ok ⟨some enumerator, (later.getLastD first).tree⟩ w ∧
      (∀ o, w.count o =
        ({enumerator} + (later.getLastD first).references).count o + outside o) ∧
      w.acquired = w.released + ({enumerator} + (later.getLastD first).references) ∧
      w.lost = [] ∧ w.locked = false := by
  obtain ⟨w, hw, h⟩ := constructAndReload_spec outside enumerator first later
  exact ⟨w, hw, h.counted, h.balanced, h.lost, h.locked⟩

end DeviceEnumerator

end AudioCtrl.Audio
