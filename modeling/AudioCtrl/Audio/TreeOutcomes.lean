import AudioCtrl.Audio.DeviceTree
import AudioCtrl.Foundations.Outcome

/-!
# How the construction of a device tree ends

Whatever Windows answers, each constructor either returns the tree that the
answers describe, or meets a null interface or an allocation that fails. Which
of the two depends on the answers whose interface is used at once; a missing
volume interface is only stored. A failed allocation leaves the mutex as it is.
-/

namespace AudioCtrl.Audio

open RefCount Ownership

variable {Obj Handle Volume : Type}

section Held

/-- The references that the members of an object hold. -/
def Session.refs (this : Session Obj) : Multiset Obj :=
  RefCount.refs this.sessionControl + RefCount.refs this.sessionControl2 +
    RefCount.refs this.audioVolume

def SessionEnumerator.refs (this : SessionEnumerator Obj) : Multiset Obj :=
  RefCount.refs this.sessionManager + RefCount.refs this.sessionEnumerator +
    (this.sessions.map Session.refs).sum

def Device.refs (this : Device Obj) : Multiset Obj :=
  RefCount.refs this.device + RefCount.refs this.endpointVolume + this.sessionEnumerator.refs

def DeviceCollection.refs (this : DeviceCollection Obj) : Multiset Obj :=
  RefCount.refs this.collection + (this.devices.map Device.refs).sum

def DeviceEnumerator.refs (this : DeviceEnumerator Obj) : Multiset Obj :=
  RefCount.refs this.enumerator + this.deviceCollection.refs

@[simp] theorem Session.refs_empty : ({} : Session Obj).refs = 0 := rfl

@[simp] theorem SessionEnumerator.refs_empty : ({} : SessionEnumerator Obj).refs = 0 := rfl

@[simp] theorem Device.refs_empty : ({} : Device Obj).refs = 0 := rfl

@[simp] theorem DeviceCollection.refs_empty : ({} : DeviceCollection Obj).refs = 0 := rfl

theorem DeviceCollection.mem_refs {this : DeviceCollection Obj} {d : Device Obj} {o : Obj}
    (hd : d ∈ this.devices) (ho : d.endpointVolume = some o) : o ∈ this.refs := by
  obtain ⟨i, hi⟩ := List.mem_iff_getElem?.mp hd
  obtain ⟨others, hdevices, -⟩ := exists_others Device.refs hi
  simp [refs, hdevices, Device.refs, ho]

end Held

/-! ## What the answers describe -/

namespace SessionReply

def tree (x : SessionReply Obj Handle) : Session Obj :=
  { sessionControl := x.sessionControl, sessionControl2 := x.sessionControl2,
    audioVolume := x.audioVolume }

/-- The interfaces that the constructor calls are there. -/
def Suffices (x : SessionReply Obj Handle) : Prop :=
  x.sessionControl ≠ none ∧ x.sessionControl2 ≠ none

end SessionReply

namespace SessionEnumeratorReply

def tree (sessionManager : Option Obj) (x : SessionEnumeratorReply Obj Handle) :
    SessionEnumerator Obj :=
  { sessionManager, sessionEnumerator := x.sessionEnumerator,
    sessions := x.counted.map SessionReply.tree }

def Suffices (x : SessionEnumeratorReply Obj Handle) : Prop :=
  x.sessionEnumerator ≠ none ∧ (x.counted ≠ [] → x.allocates = true) ∧
    ∀ session ∈ x.counted, session.Suffices

end SessionEnumeratorReply

namespace DeviceReply

def tree (x : DeviceReply Obj Handle) : Device Obj :=
  { device := x.device, endpointVolume := x.endpointVolume,
    sessionEnumerator := x.sessionEnumerator.tree x.sessionManager }

def Suffices (x : DeviceReply Obj Handle) : Prop :=
  x.device ≠ none ∧ x.sessionManager ≠ none ∧ x.sessionEnumerator.Suffices

end DeviceReply

namespace CollectionReply

def tree (x : CollectionReply Obj Handle) : DeviceCollection Obj :=
  { collection := x.collection, devices := x.counted.map DeviceReply.tree }

def Suffices (x : CollectionReply Obj Handle) : Prop :=
  x.collection ≠ none ∧ (x.counted ≠ [] → x.allocates = true) ∧
    ∀ device ∈ x.counted, device.Suffices

end CollectionReply

theorem count_eq_length {α : Type} (getCount : Bool) (l : List α) :
    (if getCount then l.length else 0) = (if getCount then l else []).length := by
  cases getCount <;> rfl

/-- How a construction fails: at a null interface, or at an allocation that leaves the
mutex as it was. -/
def Breaks (locked : Bool) (fault : Fault) (w : World Obj Handle Volume) : Prop :=
  fault = .nullCall ∨ fault = .badAlloc ∧ w.locked = locked

variable [DecidableEq Obj] {outside : Obj → ℕ} {locked : Bool} {calls : List (Obj × Volume)}

section Vectors

variable {α : Type}

theorem replicate_spec {default : Prog Obj Handle Volume α} {a : α}
    (h : Yields (Holds outside locked calls) 0 default a 0) (n : ℕ) :
    Yields (Holds outside locked calls) 0 ((List.replicate n ()).mapM' fun _ => default)
      (List.replicate n a) 0 := by
  induction n with
  | zero => exact Yields.pure _ [] 0
  | succ n ih =>
    rw [List.replicate_succ, List.replicate_succ, List.mapM'_cons]
    exact Yields.bind h (Yields.bind ih (Yields.pure _ _ 0))

theorem vectorOf_settles {default : Prog Obj Handle Volume α} {a : α}
    (h : Yields (Holds outside locked calls) 0 default a 0) (n : ℕ) (allocates : Bool) :
    Settles (Holds outside locked calls) (Breaks locked) (n ≠ 0 → allocates = true) 0
      (vectorOf n allocates default) (List.replicate n a) 0 := by
  unfold vectorOf
  by_cases hfail : n ≠ 0 ∧ allocates = false
  · rw [if_pos hfail]
    intro rest w hw
    have hno : ¬ (n ≠ 0 → allocates = true) := fun hok => by simp [hok hfail.1] at hfail
    exact ⟨fun hok => absurd hok hno, fun _ => ⟨.badAlloc, w, rfl, .inr ⟨rfl, hw.locked⟩⟩⟩
  · rw [if_neg hfail]
    have hok : n ≠ 0 → allocates = true := fun hn => by simpa using not_and.mp hfail hn
    have hvector : Yields (Holds outside locked calls) 0
        (do Pure.pure PUnit.unit; (List.replicate n ()).mapM' fun _ => default)
        (List.replicate n a) 0 := Yields.bind (Yields.pure _ _ 0) (replicate_spec h n)
    exact (hvector.settles _).congr_ok (iff_of_true trivial hok)

theorem vectorMoveAssign_spec {res : α → Multiset Obj}
    {destroy : α → Prog Obj Handle Volume Unit}
    (h : ∀ a, Yields (Holds outside locked calls) (res a) (destroy a) () 0) (this other : List α) :
    Yields (Holds outside locked calls) ((this.map res).sum + (other.map res).sum)
      (vectorMoveAssign destroy this other) (other, []) (other.map res).sum := by
  apply Yields.step (other.map res).sum (yields_forM fun a _ => h a) (add_comm _ _)
  exact Yields.ret (add_zero _)

theorem zip_replicate_map {β γ : Type} (a : α) (f : β → γ) (l : List β) :
    (List.replicate l.length a).zip (l.map f) = l.map fun b => (a, f b) := by
  induction l with
  | nil => rfl
  | cons b l ih =>
    rw [List.length_cons, List.replicate_succ, List.map_cons, List.zip_cons_cons, ih,
      List.map_cons]

theorem fill_settles {κ : Type} {keep : Multiset Obj} {element : α}
    {load : α → κ → Prog Obj Handle Volume α} {tree : κ → α} {res : κ → Multiset Obj}
    {good : κ → Prop}
    (h : ∀ x, Settles (Holds outside locked calls) (Breaks locked) (good x) keep
      (load element x) (tree x) (keep + res x)) (l : List κ) :
    Settles (Holds outside locked calls) (Breaks locked) (∀ x ∈ l, good x) keep
      (((List.replicate l.length element).zip l).mapM' fun slot => load slot.1 slot.2)
      (l.map tree) (keep + (l.map res).sum) := by
  have hzip := zip_replicate_map element id l
  rw [List.map_id] at hzip
  rw [hzip]
  exact settles_mapM'_map (fun x => (element, x)) fun x _ => h x

/-- How a constructor loads a vector: a default-built one is moved into the empty member,
and then its elements are replaced. -/
theorem loadVector_settles {κ β : Type} (frame : Multiset Obj) {keep total post : Multiset Obj}
    {default : Prog Obj Handle Volume α} {element : α} {held : α → Multiset Obj}
    {destroy : α → Prog Obj Handle Volume Unit} {load : α → κ → Prog Obj Handle Volume α}
    {tree : κ → α} {res : κ → Multiset Obj} {good : κ → Prop} {l : List κ} {allocates : Bool}
    {next : List α → Prog Obj Handle Volume β} {b : β}
    (hdefault : Yields (Holds outside locked calls) 0 default element 0)
    (hdestroy : ∀ a, Yields (Holds outside locked calls) (held a) (destroy a) () 0)
    (helement : held element = 0)
    (hload : ∀ x, Settles (Holds outside locked calls) (Breaks locked) (good x) keep
      (load element x) (tree x) (keep + res x))
    (htotal : total = frame + keep)
    (hnext : Yields (Holds outside locked calls) (frame + keep + (l.map res).sum)
      (next (l.map tree)) b post) :
    Settles (Holds outside locked calls) (Breaks locked)
      ((l ≠ [] → allocates = true) ∧ ∀ x ∈ l, good x) total
      (do
        let temporary ← vectorOf l.length allocates default
        let (elements, temporary) ← vectorMoveAssign destroy [] temporary
        temporary.forM destroy
        let elements ← (elements.zip l).mapM' fun slot => load slot.1 slot.2
        next elements) b post := by
  have hempty : (l.length ≠ 0 → allocates = true) ↔ (l ≠ [] → allocates = true) := by
    rw [ne_eq, List.length_eq_zero_iff]
  have hheld : ((List.replicate l.length element).map held).sum = 0 := by
    rw [List.map_replicate, helement, List.sum_replicate, smul_zero]
  have hmove := vectorMoveAssign_spec hdestroy [] (List.replicate l.length element)
  rw [hheld, List.map_nil, List.sum_nil, add_zero] at hmove
  rw [← hempty]
  apply Settles.step total (vectorOf_settles hdefault l.length allocates) (add_zero _).symm
  intro _
  apply Settles.after total hmove rfl
  apply Settles.after total (yields_forM (l := []) fun a _ => hdestroy a) rfl
  apply Settles.only frame (fill_settles hload l) (by rw [htotal]; abel)
  intro _
  rw [← add_assoc]
  exact hnext

end Vectors

section System

theorem openProcess_spec (processId : ℕ) (procHandle : Option Handle) :
    Yields (Holds outside locked calls) 0
      (openProcess processId procHandle : Prog Obj Handle Volume (Option Handle)) procHandle 0 :=
  fun _ _ h => ⟨_, rfl, h.counted, h.balanced, h.lost, h.locked, h.volumes⟩

theorem printPath_spec (procHandle : Option Handle) (path : Option String) :
    Yields (Holds outside locked calls) 0
      (printPath procHandle path : Prog Obj Handle Volume Unit) () 0 := by
  cases path with
  | none => exact Yields.pure _ () 0
  | some path => exact fun _ _ h => ⟨_, rfl, h.counted, h.balanced, h.lost, h.locked, h.volumes⟩

end System

section Failing

theorem call_settles {α : Type} {data : Option Obj} {ok : Prop} {total post : Multiset Obj}
    {next : Obj → Prog Obj Handle Volume α} {a : α} (frame : Multiset Obj)
    (htotal : total = frame + refs data)
    (hnext : ∀ o, data = some o →
      Settles (Holds outside locked calls) (Breaks locked) ok total (next o) a post) :
    Settles (Holds outside locked calls) (Breaks locked) (data ≠ none ∧ ok) total
      (IUnknownW.call data >>= next) a post := by
  cases data with
  | none =>
    intro rest w _
    exact ⟨fun h => absurd rfl h.1, fun _ => ⟨.nullCall, w, rfl, .inl rfl⟩⟩
  | some o =>
    have hok : (some o ≠ none ∧ ok) ↔ ok := and_iff_right nofun
    have hafter := hnext o rfl
    subst htotal
    exact (Settles.after frame (IUnknownW.call_spec o) rfl hafter).congr_ok hok.symm

theorem call_settles_last {α : Type} {data : Option Obj} {total post : Multiset Obj}
    {next : Obj → Prog Obj Handle Volume α} {a : α} (frame : Multiset Obj)
    (htotal : total = frame + refs data)
    (hnext : ∀ o, data = some o → Yields (Holds outside locked calls) total (next o) a post) :
    Settles (Holds outside locked calls) (Breaks locked) (data ≠ none) total
      (IUnknownW.call data >>= next) a post :=
  (call_settles frame htotal fun o ho => (hnext o ho).settles _).congr_ok
    (iff_of_eq (and_true _))

end Failing

namespace Session

theorem default_spec :
    Yields (Holds outside locked calls) 0
      (default : Prog Obj Handle Volume (Session Obj)) {} 0 := by
  apply Yields.bind (IUnknownW.nullAssign_spec none)
  apply Yields.bind (IUnknownW.nullAssign_spec none)
  exact Yields.pure _ _ 0

theorem moveAssign_spec (this other : Session Obj) :
    Yields (Holds outside locked calls) (this.refs + other.refs)
      (moveAssign this other : Prog Obj Handle Volume (Session Obj × Session Obj)) (other, {})
      other.refs := by
  unfold refs
  apply Yields.step (RefCount.refs this.sessionControl2 + RefCount.refs other.sessionControl2 +
      RefCount.refs this.audioVolume + RefCount.refs other.audioVolume)
    (IUnknownW.moveAssign_spec this.sessionControl other.sessionControl) (by abel)
  apply Yields.step (RefCount.refs other.sessionControl +
      RefCount.refs this.audioVolume + RefCount.refs other.audioVolume)
    (IUnknownW.moveAssign_spec this.sessionControl2 other.sessionControl2)
    (by abel)
  apply Yields.step (RefCount.refs other.sessionControl + RefCount.refs other.sessionControl2)
    (IUnknownW.moveAssign_spec this.audioVolume other.audioVolume) (by abel)
  exact Yields.ret rfl

theorem destroy_spec (this : Session Obj) :
    Yields (Holds outside locked calls) this.refs
      (destroy this : Prog Obj Handle Volume Unit) () 0 := by
  unfold refs
  apply Yields.step (RefCount.refs this.sessionControl + RefCount.refs this.sessionControl2)
    (IUnknownW.destroy_spec this.audioVolume) rfl
  apply Yields.step (RefCount.refs this.sessionControl)
    (IUnknownW.destroy_spec this.sessionControl2) (add_zero _)
  rw [add_zero]
  exact IUnknownW.destroy_spec this.sessionControl

/-- `OpenProcess` and `GetModuleFileNameExW` may fail, and the volume may be missing. -/
theorem construct_settles (x : SessionReply Obj Handle) :
    Settles (Holds outside locked calls) (Breaks locked) x.Suffices
      (RefCount.refs x.sessionControl)
      (construct x.sessionControl x : Prog Obj Handle Volume (Session Obj)) x.tree x.tree.refs := by
  apply Settles.after 0 (IUnknownW.copyAssign_spec none x.sessionControl) (by simp)
  apply call_settles (RefCount.refs x.sessionControl) (by simp)
  intro c _
  apply Settles.after (RefCount.refs x.sessionControl + RefCount.refs x.sessionControl)
    (IUnknownW.outParam_spec x.sessionControl2) (by simp)
  apply call_settles_last (RefCount.refs x.sessionControl + RefCount.refs x.sessionControl) rfl
  intro c2 hc2
  apply Yields.step (RefCount.refs x.sessionControl + RefCount.refs x.sessionControl +
      RefCount.refs x.sessionControl2)
    (openProcess_spec (x.processId.getD 0) x.procHandle) (add_zero _).symm
  apply Yields.step (RefCount.refs x.sessionControl + RefCount.refs x.sessionControl +
      RefCount.refs x.sessionControl2) (printPath_spec x.procHandle x.path) rfl
  rw [hc2]
  apply Yields.step (RefCount.refs x.sessionControl + RefCount.refs x.sessionControl)
    (IUnknownW.call_spec c2) (add_zero _)
  apply Yields.step (RefCount.refs x.sessionControl + RefCount.refs x.sessionControl + {c2})
    (IUnknownW.outParam_spec x.audioVolume) (add_zero _).symm
  apply Yields.step (RefCount.refs x.sessionControl + {c2} + RefCount.refs x.audioVolume)
    (IUnknownW.destroy_spec x.sessionControl) (by abel)
  unfold SessionReply.tree
  rw [hc2]
  exact Yields.ret (add_zero _)

end Session

namespace SessionEnumerator

theorem default_spec :
    Yields (Holds outside locked calls) 0
      (default : Prog Obj Handle Volume (SessionEnumerator Obj)) {} 0 := by
  apply Yields.bind (IUnknownW.nullAssign_spec none)
  apply Yields.bind (IUnknownW.nullAssign_spec none)
  exact Yields.pure _ _ 0

theorem moveAssign_spec (this other : SessionEnumerator Obj) :
    Yields (Holds outside locked calls) (this.refs + other.refs)
      (moveAssign this other :
        Prog Obj Handle Volume (SessionEnumerator Obj × SessionEnumerator Obj)) (other, {})
      other.refs := by
  unfold refs
  apply Yields.step (RefCount.refs this.sessionEnumerator + RefCount.refs other.sessionEnumerator +
      (this.sessions.map Session.refs).sum + (other.sessions.map Session.refs).sum)
    (IUnknownW.moveAssign_spec this.sessionManager other.sessionManager) (by abel)
  apply Yields.step (RefCount.refs other.sessionManager +
      (this.sessions.map Session.refs).sum + (other.sessions.map Session.refs).sum)
    (IUnknownW.moveAssign_spec this.sessionEnumerator other.sessionEnumerator) (by abel)
  apply Yields.step (RefCount.refs other.sessionManager + RefCount.refs other.sessionEnumerator)
    (vectorMoveAssign_spec Session.destroy_spec this.sessions other.sessions) (by abel)
  exact Yields.ret rfl

theorem destroy_spec (this : SessionEnumerator Obj) :
    Yields (Holds outside locked calls) this.refs
      (destroy this : Prog Obj Handle Volume Unit) () 0 := by
  unfold refs
  apply Yields.step (RefCount.refs this.sessionManager + RefCount.refs this.sessionEnumerator)
    (yields_forM fun s _ => Session.destroy_spec s) rfl
  apply Yields.step (RefCount.refs this.sessionManager)
    (IUnknownW.destroy_spec this.sessionEnumerator) (add_zero _)
  rw [add_zero]
  exact IUnknownW.destroy_spec this.sessionManager

theorem getSessionCount_settles (x : SessionEnumeratorReply Obj Handle) :
    Settles (Holds outside locked calls) (Breaks locked) (x.sessionEnumerator ≠ none)
      (RefCount.refs x.sessionEnumerator)
      (getSessionCount x.sessionEnumerator x : Prog Obj Handle Volume ℕ) x.counted.length
      (RefCount.refs x.sessionEnumerator) := by
  have hcount : (if x.getCount then x.sessions.length else 0) = x.counted.length :=
    count_eq_length x.getCount x.sessions
  apply call_settles_last 0 (zero_add _).symm
  intro o _
  rw [hcount]
  exact Yields.pure _ _ _

theorem loadSession_settles (e : Obj) (x : SessionReply Obj Handle) :
    Settles (Holds outside locked calls) (Breaks locked) x.Suffices {e}
      (loadSession (some e) {} x : Prog Obj Handle Volume (Session Obj)) x.tree
      ({e} + x.tree.refs) := by
  apply Settles.after 0 (IUnknownW.call_spec e) (zero_add _).symm
  apply Settles.after {e} (IUnknownW.outParam_spec x.sessionControl) (by simp)
  apply Settles.after {e} (IUnknownW.copyConstruct_spec x.sessionControl) rfl
  apply Settles.only ({e} + RefCount.refs x.sessionControl) (Session.construct_settles x) (by abel)
  intro _
  apply Yields.step ({e} + RefCount.refs x.sessionControl) (Session.moveAssign_spec {} x.tree)
    (by rw [Session.refs_empty, zero_add])
  apply Yields.step ({e} + RefCount.refs x.sessionControl + x.tree.refs) (Session.destroy_spec {})
    (by rw [Session.refs_empty, add_zero])
  apply Yields.step ({e} + x.tree.refs) (IUnknownW.destroy_spec x.sessionControl) (by abel)
  exact Yields.ret (add_zero _)

theorem construct_settles (manager : Option Obj) (x : SessionEnumeratorReply Obj Handle) :
    Settles (Holds outside locked calls) (Breaks locked) (manager ≠ none ∧ x.Suffices)
      (RefCount.refs manager)
      (construct manager x : Prog Obj Handle Volume (SessionEnumerator Obj)) (x.tree manager)
      (x.tree manager).refs := by
  apply Settles.after 0 (IUnknownW.copyAssign_spec none manager) (by simp)
  apply call_settles (RefCount.refs manager) (by simp)
  intro m _
  apply Settles.after (RefCount.refs manager + RefCount.refs manager)
    (IUnknownW.outParam_spec x.sessionEnumerator) (by simp)
  apply Settles.step (RefCount.refs manager + RefCount.refs manager)
    (getSessionCount_settles x) rfl
  intro he
  obtain ⟨e, he⟩ := Option.ne_none_iff_exists'.mp he
  have hload : ∀ y, Settles (Holds outside locked calls) (Breaks locked) y.Suffices
      (RefCount.refs x.sessionEnumerator)
      (loadSession x.sessionEnumerator {} y : Prog Obj Handle Volume (Session Obj)) y.tree
      (RefCount.refs x.sessionEnumerator + y.tree.refs) := by
    rw [he]
    exact loadSession_settles e
  apply loadVector_settles (RefCount.refs manager + RefCount.refs manager)
    Session.default_spec Session.destroy_spec Session.refs_empty hload rfl
  apply Yields.step (RefCount.refs manager + RefCount.refs x.sessionEnumerator +
      (x.counted.map fun y => y.tree.refs).sum) (IUnknownW.destroy_spec manager) (by abel)
  apply Yields.ret
  unfold refs SessionEnumeratorReply.tree
  dsimp only
  rw [add_zero, List.map_map]
  rfl

end SessionEnumerator

namespace Device

theorem default_spec :
    Yields (Holds outside locked calls) 0 (default : Prog Obj Handle Volume (Device Obj)) {} 0 := by
  apply Yields.bind SessionEnumerator.default_spec
  apply Yields.bind (IUnknownW.nullAssign_spec none)
  exact Yields.pure _ _ 0

theorem moveAssign_spec (this other : Device Obj) :
    Yields (Holds outside locked calls) (this.refs + other.refs)
      (moveAssign this other : Prog Obj Handle Volume (Device Obj × Device Obj)) (other, {})
      other.refs := by
  unfold refs
  apply Yields.step (RefCount.refs this.endpointVolume + RefCount.refs other.endpointVolume +
      this.sessionEnumerator.refs + other.sessionEnumerator.refs)
    (IUnknownW.moveAssign_spec this.device other.device) (by abel)
  apply Yields.step (RefCount.refs other.device + this.sessionEnumerator.refs +
      other.sessionEnumerator.refs)
    (IUnknownW.moveAssign_spec this.endpointVolume other.endpointVolume) (by abel)
  apply Yields.step (RefCount.refs other.device + RefCount.refs other.endpointVolume)
    (SessionEnumerator.moveAssign_spec this.sessionEnumerator other.sessionEnumerator) (by abel)
  exact Yields.ret rfl

theorem destroy_spec (this : Device Obj) :
    Yields (Holds outside locked calls) this.refs
      (destroy this : Prog Obj Handle Volume Unit) () 0 := by
  unfold refs
  apply Yields.step (RefCount.refs this.device + RefCount.refs this.endpointVolume)
    (SessionEnumerator.destroy_spec this.sessionEnumerator) rfl
  apply Yields.step (RefCount.refs this.device)
    (IUnknownW.destroy_spec this.endpointVolume) (add_zero _)
  rw [add_zero]
  exact IUnknownW.destroy_spec this.device

theorem construct_settles (x : DeviceReply Obj Handle) :
    Settles (Holds outside locked calls) (Breaks locked) x.Suffices (RefCount.refs x.device)
      (construct x.device x : Prog Obj Handle Volume (Device Obj)) x.tree x.tree.refs := by
  apply Settles.after (RefCount.refs x.device) SessionEnumerator.default_spec (add_zero _).symm
  apply Settles.after 0 (IUnknownW.copyAssign_spec none x.device) (by simp)
  apply call_settles (RefCount.refs x.device) (by simp)
  intro d hd
  apply Settles.after (RefCount.refs x.device + RefCount.refs x.device)
    (IUnknownW.outParam_spec x.sessionManager) (by simp)
  have hcall : Yields (Holds outside locked calls) (RefCount.refs x.device)
      (IUnknownW.call x.device : Prog Obj Handle Volume Obj) d (RefCount.refs x.device) := by
    rw [hd]
    exact IUnknownW.call_spec d
  apply Settles.after (RefCount.refs x.device + RefCount.refs x.sessionManager) hcall (by abel)
  apply Settles.after (RefCount.refs x.device + RefCount.refs x.device +
      RefCount.refs x.sessionManager) (IUnknownW.outParam_spec x.endpointVolume)
    (by rw [add_zero]; abel)
  apply Settles.after (RefCount.refs x.device + RefCount.refs x.device +
      RefCount.refs x.endpointVolume) (IUnknownW.copyConstruct_spec x.sessionManager) (by abel)
  apply Settles.only (RefCount.refs x.device + RefCount.refs x.device +
      RefCount.refs x.endpointVolume + RefCount.refs x.sessionManager)
    (SessionEnumerator.construct_settles x.sessionManager x.sessionEnumerator) (by abel)
  intro _
  apply Yields.step (RefCount.refs x.device + RefCount.refs x.device +
      RefCount.refs x.endpointVolume + RefCount.refs x.sessionManager)
    (SessionEnumerator.moveAssign_spec {} (x.sessionEnumerator.tree x.sessionManager))
    (by rw [SessionEnumerator.refs_empty, zero_add])
  apply Yields.step (RefCount.refs x.device + RefCount.refs x.device +
      RefCount.refs x.endpointVolume + RefCount.refs x.sessionManager +
      (x.sessionEnumerator.tree x.sessionManager).refs) (SessionEnumerator.destroy_spec {})
    (by rw [SessionEnumerator.refs_empty, add_zero])
  apply Yields.step (RefCount.refs x.device + RefCount.refs x.device +
      RefCount.refs x.endpointVolume + (x.sessionEnumerator.tree x.sessionManager).refs)
    (IUnknownW.destroy_spec x.sessionManager) (by rw [add_zero]; abel)
  apply Yields.step (RefCount.refs x.device + RefCount.refs x.endpointVolume +
      (x.sessionEnumerator.tree x.sessionManager).refs)
    (IUnknownW.destroy_spec x.device) (by rw [add_zero]; abel)
  exact Yields.ret (add_zero _)

end Device

namespace DeviceCollection

theorem moveAssign_spec (this other : DeviceCollection Obj) :
    Yields (Holds outside locked calls) (this.refs + other.refs)
      (moveAssign this other :
        Prog Obj Handle Volume (DeviceCollection Obj × DeviceCollection Obj)) (other, {})
      other.refs := by
  unfold refs
  apply Yields.step ((this.devices.map Device.refs).sum + (other.devices.map Device.refs).sum)
    (IUnknownW.moveAssign_spec this.collection other.collection) (by abel)
  apply Yields.step (RefCount.refs other.collection)
    (vectorMoveAssign_spec Device.destroy_spec this.devices other.devices) (by abel)
  exact Yields.ret rfl

theorem destroy_spec (this : DeviceCollection Obj) :
    Yields (Holds outside locked calls) this.refs
      (destroy this : Prog Obj Handle Volume Unit) () 0 := by
  unfold refs
  apply Yields.step (RefCount.refs this.collection)
    (yields_forM fun d _ => Device.destroy_spec d) rfl
  rw [add_zero]
  exact IUnknownW.destroy_spec this.collection

theorem getDeviceCount_settles (x : CollectionReply Obj Handle) :
    Settles (Holds outside locked calls) (Breaks locked) (x.collection ≠ none)
      (RefCount.refs x.collection)
      (getDeviceCount x.collection x : Prog Obj Handle Volume ℕ) x.counted.length
      (RefCount.refs x.collection) := by
  have hcount : (if x.getCount then x.devices.length else 0) = x.counted.length :=
    count_eq_length x.getCount x.devices
  apply call_settles_last 0 (zero_add _).symm
  intro o _
  rw [hcount]
  exact Yields.pure _ _ _

theorem loadDevice_settles (c : Obj) (x : DeviceReply Obj Handle) :
    Settles (Holds outside locked calls) (Breaks locked) x.Suffices {c}
      (loadDevice (some c) {} x : Prog Obj Handle Volume (Device Obj)) x.tree
      ({c} + x.tree.refs) := by
  apply Settles.after 0 (IUnknownW.call_spec c) (zero_add _).symm
  apply Settles.after {c} (IUnknownW.outParam_spec x.device) (by simp)
  apply Settles.after {c} (IUnknownW.copyConstruct_spec x.device) rfl
  apply Settles.only ({c} + RefCount.refs x.device) (Device.construct_settles x) (by abel)
  intro _
  apply Yields.step ({c} + RefCount.refs x.device) (Device.moveAssign_spec {} x.tree)
    (by rw [Device.refs_empty, zero_add])
  apply Yields.step ({c} + RefCount.refs x.device + x.tree.refs) (Device.destroy_spec {})
    (by rw [Device.refs_empty, add_zero])
  apply Yields.step ({c} + x.tree.refs) (IUnknownW.destroy_spec x.device) (by abel)
  exact Yields.ret (add_zero _)

theorem construct_settles (x : CollectionReply Obj Handle) :
    Settles (Holds outside locked calls) (Breaks locked) x.Suffices (RefCount.refs x.collection)
      (construct x.collection x : Prog Obj Handle Volume (DeviceCollection Obj)) x.tree
      x.tree.refs := by
  apply Settles.after 0 (IUnknownW.copyAssign_spec none x.collection) (by simp)
  apply Settles.step (RefCount.refs x.collection) (getDeviceCount_settles x) (by simp)
  intro hc
  obtain ⟨c, hc⟩ := Option.ne_none_iff_exists'.mp hc
  have hload : ∀ y, Settles (Holds outside locked calls) (Breaks locked) y.Suffices
      (RefCount.refs x.collection)
      (loadDevice x.collection {} y : Prog Obj Handle Volume (Device Obj)) y.tree
      (RefCount.refs x.collection + y.tree.refs) := by
    rw [hc]
    exact loadDevice_settles c
  apply loadVector_settles (RefCount.refs x.collection) Device.default_spec Device.destroy_spec
    Device.refs_empty hload rfl
  apply Yields.step (RefCount.refs x.collection + (x.counted.map fun y => y.tree.refs).sum)
    (IUnknownW.destroy_spec x.collection) (by abel)
  apply Yields.ret
  unfold refs CollectionReply.tree
  dsimp only
  rw [add_zero, List.map_map]
  rfl

end DeviceCollection

namespace DeviceEnumerator

theorem enumAudioEndpoints_spec (e : Obj) (collection : Option Obj) :
    Yields (Holds outside locked calls) {e}
      (enumAudioEndpoints (some e) collection : Prog Obj Handle Volume (Option Obj)) collection
      ({e} + RefCount.refs collection) := by
  apply Yields.bind (IUnknownW.call_spec e)
  exact ((IUnknownW.outParam_spec collection).frame {e}).congr (add_zero _).symm rfl

theorem buildTree_settles (x : CollectionReply Obj Handle) :
    Settles (Holds outside locked calls) (Breaks locked) x.Suffices (RefCount.refs x.collection)
      (buildTree x.collection x : Prog Obj Handle Volume (DeviceCollection Obj)) x.tree
      (RefCount.refs x.collection + x.tree.refs) := by
  apply Settles.after 0 (IUnknownW.copyConstruct_spec x.collection) (zero_add _).symm
  rw [zero_add]
  exact (DeviceCollection.construct_settles x).frame (RefCount.refs x.collection)

/-- A rebuild that returns has installed the tree that the answers describe. -/
theorem replaceCollection_settles (e : Obj) (old : DeviceCollection Obj)
    (x : CollectionReply Obj Handle) :
    Settles (Holds outside locked calls) (Breaks locked) x.Suffices ({e} + old.refs)
      (replaceCollection ⟨some e, old⟩ x :
        Prog Obj Handle Volume (Option Obj × DeviceCollection Obj))
      (x.collection, x.tree) ({e} + x.tree.refs + RefCount.refs x.collection) := by
  apply Settles.after old.refs (enumAudioEndpoints_spec e x.collection) (by abel)
  apply Settles.only (old.refs + {e}) (buildTree_settles x) (by abel)
  intro _
  apply Yields.step ({e} + RefCount.refs x.collection)
    (DeviceCollection.moveAssign_spec old x.tree) (by abel)
  apply Yields.step ({e} + RefCount.refs x.collection + x.tree.refs)
    (DeviceCollection.destroy_spec {}) (by rw [DeviceCollection.refs_empty, add_zero])
  exact Yields.ret (by abel)

section Reload

variable {e : Obj} {old : DeviceCollection Obj} {x : CollectionReply Obj Handle}
  {w : World Obj Handle Volume}

omit [DecidableEq Obj] in
theorem lock_run (hlocked : w.locked = false) :
    lock.run w = .ok () { w with locked := true } := by
  simp only [EStateM.run, lock, hlocked, Bool.false_eq_true, if_false]

/-- Where the answers suffice, a reload exchanges the references of the old tree for
those of the new one. -/
theorem reloadDevices_of_suffices (hx : x.Suffices)
    (h : Holds outside false calls w ({e} + old.refs)) :
    ∃ t, (reloadDevices ⟨some e, old⟩ x).run w = .ok ⟨some e, x.tree⟩ t ∧
      Holds outside false calls t ({e} + x.tree.refs) := by
  obtain ⟨u, hu, hheld⟩ :=
    ((replaceCollection_settles e old x).yields hx).run (h.setLocked true)
  obtain ⟨t, ht, hfinal⟩ := IUnknownW.destroy_spec x.collection _ _ (hheld.setLocked false)
  rw [add_zero] at hfinal
  refine ⟨t, ?_, hfinal⟩
  unfold reloadDevices
  rw [EStateM.run_bind, lock_run h.locked]
  dsimp only
  rw [EStateM.run_bind, hu]
  dsimp only
  rw [EStateM.run_bind]
  change EStateM.run (do IUnknownW.destroy x.collection; pure _) _ = _
  rw [EStateM.run_bind, ht]
  rfl

/-- Where the answers do not suffice, it fails while it holds the lock. -/
theorem reloadDevices_of_not_suffices (hx : ¬ x.Suffices)
    (h : Holds outside false calls w ({e} + old.refs)) :
    ∃ fault t, (reloadDevices ⟨some e, old⟩ x).run w = .error fault t ∧ Breaks true fault t := by
  obtain ⟨fault, t, ht, hbreaks⟩ :=
    (replaceCollection_settles e old x).fails hx (h.setLocked true)
  refine ⟨fault, t, ?_, hbreaks⟩
  unfold reloadDevices
  rw [EStateM.run_bind, lock_run h.locked]
  dsimp only
  rw [EStateM.run_bind, ht]

end Reload

variable (Handle Volume) in
theorem constructAndReload_run (outside : Obj → ℕ) (e : Obj) :
    ∃ w : World Obj Handle Volume,
      Holds outside false [] w ({e} + ({} : DeviceCollection Obj).refs) ∧
      ∀ first later, (constructAndReload (some e) first later).run
        (World.start Handle Volume outside) =
          ((first :: later).foldlM reloadDevices ⟨some e, {}⟩).run w := by
  have hstart : Holds outside false [] (World.start Handle Volume outside) 0 :=
    ⟨counted_zero outside, rfl, rfl, rfl, rfl⟩
  obtain ⟨u, hu, hout⟩ := (IUnknownW.outParam_spec (some e)).run hstart
  obtain ⟨w, hw, hcall⟩ := (IUnknownW.call_spec e).run hout
  refine ⟨w, ?_, ?_⟩
  · rw [DeviceCollection.refs_empty, add_zero]
    exact hcall
  · intro first later
    unfold constructAndReload construct
    dsimp only
    rw [EStateM.run_bind, EStateM.run_bind, hu]
    dsimp only
    rw [EStateM.run_bind, hw, List.foldlM_cons, EStateM.run_bind]

end DeviceEnumerator

end AudioCtrl.Audio
