import AudioCtrl.Audio.TreeOutcomes
import AudioCtrl.Foundations.Bookkeeping

/-!
# The process handles of a reload

A session opens a handle of its process and closes it only where the path of the
process could be read. Nothing else in a reload opens or closes handles.
-/

namespace AudioCtrl.Audio

open Bookkeeping

variable {Obj Handle Volume : Type}

/-- The handles that `OpenProcess` returned, and those that `CloseHandle` was given; the
latter may be null. -/
def World.processHandles (w : World Obj Handle Volume) : Ledger (Option Handle) :=
  (w.opened.map fun p => some p.2, w.closed)

def openedHandle (procHandle : Option Handle) : Ledger (Option Handle) :=
  (procHandle.toList.map some, 0)

/-- What is added when the path is printed. -/
def closedHandle (procHandle : Option Handle) (path : Option String) : Ledger (Option Handle) :=
  (0, if path = none then 0 else {procHandle})

def SessionReply.processHandles (x : SessionReply Obj Handle) : Ledger (Option Handle) :=
  openedHandle x.procHandle + closedHandle x.procHandle x.path

def SessionEnumeratorReply.processHandles (x : SessionEnumeratorReply Obj Handle) :
    Ledger (Option Handle) :=
  (x.counted.map SessionReply.processHandles).sum

def DeviceReply.processHandles (x : DeviceReply Obj Handle) : Ledger (Option Handle) :=
  x.sessionEnumerator.processHandles

def CollectionReply.processHandles (x : CollectionReply Obj Handle) : Ledger (Option Handle) :=
  (x.counted.map DeviceReply.processHandles).sum

/-! ## What the program adds -/

section Programs

variable [DecidableEq Obj]

namespace IUnknownW

theorem callAddRef_quiet (data : Option Obj) :
    Quiet World.processHandles (callAddRef data : Prog Obj Handle Volume Unit) := by
  apply quiet_of_eq
  intro w a t hrun
  simp only [EStateM.run, callAddRef] at hrun
  split at hrun <;> cases hrun
  rfl

theorem callRelease_quiet (data : Option Obj) :
    Quiet World.processHandles (callRelease data : Prog Obj Handle Volume Unit) := by
  apply quiet_of_eq
  intro w a t hrun
  simp only [EStateM.run, callRelease] at hrun
  split at hrun <;> cases hrun
  rfl

omit [DecidableEq Obj] in
theorem call_quiet (data : Option Obj) :
    Quiet World.processHandles (call data : Prog Obj Handle Volume Obj) := by
  apply quiet_of_eq
  intro w a t hrun
  cases data with
  | none => cases hrun
  | some o =>
    simp only [EStateM.run, call] at hrun
    split at hrun <;> cases hrun
    rfl

theorem reset_quiet (data : Option Obj) :
    Quiet World.processHandles (reset data : Prog Obj Handle Volume (Option Obj)) := by
  cases data with
  | none => exact Adds.pure trivial
  | some o => exact (callRelease_quiet (some o)).after fun _ _ => Adds.pure trivial

theorem share_quiet (data : Option Obj) :
    Quiet World.processHandles (share data : Prog Obj Handle Volume Unit) := by
  cases data with
  | none => exact Adds.pure trivial
  | some o => exact callAddRef_quiet (some o)

theorem take_quiet (other : Option Obj) :
    Quiet World.processHandles (take other : Prog Obj Handle Volume (Option Obj)) := by
  cases other with
  | none => exact Adds.pure trivial
  | some o =>
    apply (callAddRef_quiet (some o)).after
    intro _ _
    exact (callRelease_quiet (some o)).after fun _ _ => Adds.pure trivial

theorem copyConstruct_quiet (other : Option Obj) :
    Quiet World.processHandles (copyConstruct other : Prog Obj Handle Volume (Option Obj)) :=
  (share_quiet other).after fun _ _ => Adds.pure trivial

theorem copyAssign_quiet (this other : Option Obj) :
    Quiet World.processHandles (copyAssign this other : Prog Obj Handle Volume (Option Obj)) := by
  apply (reset_quiet this).after
  intro _ _
  exact (share_quiet other).after fun _ _ => Adds.pure trivial

theorem moveAssign_quiet (this other : Option Obj) :
    Quiet World.processHandles
      (moveAssign this other : Prog Obj Handle Volume (Option Obj × Option Obj)) := by
  apply (reset_quiet this).after
  intro _ _
  exact (take_quiet other).after fun _ _ => Adds.pure trivial

theorem nullAssign_quiet (this : Option Obj) :
    Quiet World.processHandles (nullAssign this : Prog Obj Handle Volume (Option Obj)) :=
  (reset_quiet this).after fun _ _ => Adds.pure trivial

theorem outParam_quiet (this reply : Option Obj) :
    Quiet World.processHandles (outParam this reply : Prog Obj Handle Volume (Option Obj)) := by
  apply quiet_of_eq
  intro w a t hrun
  cases reply <;> cases hrun <;> rfl

theorem destroy_quiet (data : Option Obj) :
    Quiet World.processHandles (destroy data : Prog Obj Handle Volume Unit) :=
  (reset_quiet data).after fun _ _ => Adds.pure trivial

end IUnknownW

section Vectors

omit [DecidableEq Obj]

variable {α : Type}

theorem vectorOf_quiet {default : Prog Obj Handle Volume α}
    (h : Quiet World.processHandles default) (n : ℕ) (allocates : Bool) :
    Adds World.processHandles (vectorOf n allocates default) 0 fun made => made.length = n := by
  have hmade := quiet_mapM' (fun _ : Unit => h) (List.replicate n ())
  rw [List.length_replicate] at hmade
  unfold vectorOf
  split
  · intro w a t hrun
    cases hrun
  · exact hmade

theorem vectorMoveAssign_quiet {destroy : α → Prog Obj Handle Volume Unit}
    (h : ∀ a, Quiet World.processHandles (destroy a)) (this other : List α) :
    Adds World.processHandles (vectorMoveAssign destroy this other) 0
      fun moved => moved = (other, []) :=
  (quiet_forM h this).after fun _ _ => Adds.pure rfl

theorem fill_adds {κ : Type} {load : α → κ → Prog Obj Handle Volume α}
    {added : κ → Ledger (Option Handle)}
    (h : ∀ element x, Adds World.processHandles (load element x) (added x) fun _ => True)
    {elements : List α} {l : List κ} (hlength : elements.length = l.length) :
    Adds World.processHandles ((elements.zip l).mapM' fun slot => load slot.1 slot.2)
      (l.map added).sum fun _ => True := by
  have hslots := adds_mapM' (fun slot : α × κ => h slot.1 slot.2) (elements.zip l)
  have hsecond : (elements.zip l).map (fun slot => added slot.2) = l.map added := calc
    _ = ((elements.zip l).map Prod.snd).map added := List.map_map.symm
    _ = l.map added := by rw [List.map_snd_zip hlength.ge]
  rw [hsecond] at hslots
  exact hslots.mono fun _ _ => trivial

theorem loadVector_adds {κ β : Type} {default : Prog Obj Handle Volume α}
    {destroy : α → Prog Obj Handle Volume Unit} {load : α → κ → Prog Obj Handle Volume α}
    {added : κ → Ledger (Option Handle)} {l : List κ} {allocates : Bool}
    {next : List α → Prog Obj Handle Volume β} (hdefault : Quiet World.processHandles default)
    (hdestroy : ∀ a, Quiet World.processHandles (destroy a))
    (hload : ∀ element x, Adds World.processHandles (load element x) (added x) fun _ => True)
    (hnext : ∀ elements, Quiet World.processHandles (next elements)) :
    Adds World.processHandles
      (do
        let temporary ← vectorOf l.length allocates default
        let (elements, temporary) ← vectorMoveAssign destroy [] temporary
        temporary.forM destroy
        let elements ← (elements.zip l).mapM' fun slot => load slot.1 slot.2
        next elements) (l.map added).sum fun _ => True := by
  apply (vectorOf_quiet hdefault _ _).after
  intro temporary hlength
  apply (vectorMoveAssign_quiet hdestroy _ _).after
  rintro moved rfl
  apply (quiet_forM hdestroy _).after
  intro _ _
  exact (fill_adds hload hlength).before fun elements _ => hnext elements

end Vectors

section System

omit [DecidableEq Obj]

theorem openProcess_adds (processId : ℕ) (procHandle : Option Handle) :
    Adds World.processHandles
      (openProcess processId procHandle : Prog Obj Handle Volume (Option Handle))
      (openedHandle procHandle) fun returned => returned = procHandle := by
  intro w a t hrun
  cases hrun
  refine ⟨?_, rfl⟩
  cases procHandle <;> simp [World.processHandles, openedHandle, ← Multiset.coe_add]

theorem printPath_adds (procHandle : Option Handle) (path : Option String) :
    Adds World.processHandles (printPath procHandle path : Prog Obj Handle Volume Unit)
      (closedHandle procHandle path) fun _ => True := by
  cases path with
  | none => exact Adds.pure trivial
  | some path =>
    intro w a t hrun
    cases hrun
    refine ⟨?_, trivial⟩
    simp [World.processHandles, closedHandle, ← Multiset.coe_add]

theorem lock_quiet : Quiet World.processHandles (lock : Prog Obj Handle Volume Unit) := by
  apply quiet_of_eq
  intro w a t hrun
  simp only [EStateM.run, lock] at hrun
  split at hrun <;> cases hrun
  rfl

theorem unlock_quiet : Quiet World.processHandles (unlock : Prog Obj Handle Volume Unit) := by
  apply quiet_of_eq
  intro w a t hrun
  cases hrun
  rfl

end System

namespace Session

theorem default_quiet :
    Quiet World.processHandles (default : Prog Obj Handle Volume (Session Obj)) := by
  apply (IUnknownW.nullAssign_quiet none).after
  intro _ _
  exact (IUnknownW.nullAssign_quiet none).after fun _ _ => Adds.pure trivial

theorem moveAssign_quiet (this other : Session Obj) :
    Quiet World.processHandles
      (moveAssign this other : Prog Obj Handle Volume (Session Obj × Session Obj)) := by
  apply (IUnknownW.moveAssign_quiet _ _).after
  intro _ _
  apply (IUnknownW.moveAssign_quiet _ _).after
  intro _ _
  exact (IUnknownW.moveAssign_quiet _ _).after fun _ _ => Adds.pure trivial

theorem destroy_quiet (this : Session Obj) :
    Quiet World.processHandles (destroy this : Prog Obj Handle Volume Unit) := by
  apply (IUnknownW.destroy_quiet _).after
  intro _ _
  exact (IUnknownW.destroy_quiet _).after fun _ _ => IUnknownW.destroy_quiet _

theorem construct_adds (sessionControl : Option Obj) (x : SessionReply Obj Handle) :
    Adds World.processHandles
      (construct sessionControl x : Prog Obj Handle Volume (Session Obj)) x.processHandles
      fun _ => True := by
  apply (IUnknownW.copyAssign_quiet _ _).after
  intro control _
  apply (IUnknownW.call_quiet control).after
  intro _ _
  apply (IUnknownW.outParam_quiet _ _).after
  intro control2 _
  apply (IUnknownW.call_quiet control2).after
  intro _ _
  apply (openProcess_adds _ _).bind
  rintro procHandle rfl
  apply (printPath_adds _ _).before
  intro _ _
  apply (IUnknownW.call_quiet control2).after
  intro _ _
  apply (IUnknownW.outParam_quiet _ _).after
  intro _ _
  exact (IUnknownW.destroy_quiet _).after fun _ _ => Adds.pure trivial

end Session

namespace SessionEnumerator

theorem default_quiet :
    Quiet World.processHandles (default : Prog Obj Handle Volume (SessionEnumerator Obj)) := by
  apply (IUnknownW.nullAssign_quiet none).after
  intro _ _
  exact (IUnknownW.nullAssign_quiet none).after fun _ _ => Adds.pure trivial

theorem moveAssign_quiet (this other : SessionEnumerator Obj) :
    Quiet World.processHandles (moveAssign this other :
      Prog Obj Handle Volume (SessionEnumerator Obj × SessionEnumerator Obj)) := by
  apply (IUnknownW.moveAssign_quiet _ _).after
  intro _ _
  apply (IUnknownW.moveAssign_quiet _ _).after
  intro _ _
  exact (vectorMoveAssign_quiet Session.destroy_quiet _ _).after fun _ _ => Adds.pure trivial

theorem destroy_quiet (this : SessionEnumerator Obj) :
    Quiet World.processHandles (destroy this : Prog Obj Handle Volume Unit) := by
  apply (quiet_forM Session.destroy_quiet _).after
  intro _ _
  exact (IUnknownW.destroy_quiet _).after fun _ _ => IUnknownW.destroy_quiet _

omit [DecidableEq Obj] in
theorem getSessionCount_quiet (enumerator : Option Obj) (x : SessionEnumeratorReply Obj Handle) :
    Adds World.processHandles (getSessionCount enumerator x : Prog Obj Handle Volume ℕ) 0
      fun count => count = x.counted.length :=
  (IUnknownW.call_quiet enumerator).after fun _ _ =>
    Adds.pure (count_eq_length x.getCount x.sessions)

theorem loadSession_adds (enumerator : Option Obj) (element : Session Obj)
    (x : SessionReply Obj Handle) :
    Adds World.processHandles
      (loadSession enumerator element x : Prog Obj Handle Volume (Session Obj)) x.processHandles
      fun _ => True := by
  apply (IUnknownW.call_quiet _).after
  intro _ _
  apply (IUnknownW.outParam_quiet _ _).after
  intro _ _
  apply (IUnknownW.copyConstruct_quiet _).after
  intro _ _
  apply (Session.construct_adds _ x).before
  intro _ _
  apply (Session.moveAssign_quiet _ _).after
  intro _ _
  apply (Session.destroy_quiet _).after
  intro _ _
  exact (IUnknownW.destroy_quiet _).after fun _ _ => Adds.pure trivial

theorem construct_adds (manager : Option Obj) (x : SessionEnumeratorReply Obj Handle) :
    Adds World.processHandles
      (construct manager x : Prog Obj Handle Volume (SessionEnumerator Obj)) x.processHandles
      fun _ => True := by
  apply (IUnknownW.copyAssign_quiet _ _).after
  intro _ _
  apply (IUnknownW.call_quiet _).after
  intro _ _
  apply (IUnknownW.outParam_quiet _ _).after
  intro enumerator _
  apply (getSessionCount_quiet enumerator x).after
  rintro count rfl
  apply loadVector_adds Session.default_quiet Session.destroy_quiet (loadSession_adds enumerator)
  intro sessions
  exact (IUnknownW.destroy_quiet _).after fun _ _ => Adds.pure trivial

end SessionEnumerator

namespace Device

theorem default_quiet :
    Quiet World.processHandles (default : Prog Obj Handle Volume (Device Obj)) := by
  apply SessionEnumerator.default_quiet.after
  intro _ _
  exact (IUnknownW.nullAssign_quiet none).after fun _ _ => Adds.pure trivial

theorem moveAssign_quiet (this other : Device Obj) :
    Quiet World.processHandles
      (moveAssign this other : Prog Obj Handle Volume (Device Obj × Device Obj)) := by
  apply (IUnknownW.moveAssign_quiet _ _).after
  intro _ _
  apply (IUnknownW.moveAssign_quiet _ _).after
  intro _ _
  exact (SessionEnumerator.moveAssign_quiet _ _).after fun _ _ => Adds.pure trivial

theorem destroy_quiet (this : Device Obj) :
    Quiet World.processHandles (destroy this : Prog Obj Handle Volume Unit) := by
  apply (SessionEnumerator.destroy_quiet _).after
  intro _ _
  exact (IUnknownW.destroy_quiet _).after fun _ _ => IUnknownW.destroy_quiet _

theorem construct_adds (device : Option Obj) (x : DeviceReply Obj Handle) :
    Adds World.processHandles
      (construct device x : Prog Obj Handle Volume (Device Obj)) x.processHandles
      fun _ => True := by
  apply SessionEnumerator.default_quiet.after
  intro _ _
  apply (IUnknownW.copyAssign_quiet _ _).after
  intro ownDevice _
  apply (IUnknownW.call_quiet ownDevice).after
  intro _ _
  apply (IUnknownW.outParam_quiet _ _).after
  intro _ _
  apply (IUnknownW.call_quiet ownDevice).after
  intro _ _
  apply (IUnknownW.outParam_quiet _ _).after
  intro _ _
  apply (IUnknownW.copyConstruct_quiet _).after
  intro parameter _
  apply (SessionEnumerator.construct_adds parameter x.sessionEnumerator).before
  intro _ _
  apply (SessionEnumerator.moveAssign_quiet _ _).after
  intro _ _
  apply (SessionEnumerator.destroy_quiet _).after
  intro _ _
  apply (IUnknownW.destroy_quiet _).after
  intro _ _
  exact (IUnknownW.destroy_quiet _).after fun _ _ => Adds.pure trivial

end Device

namespace DeviceCollection

theorem moveAssign_quiet (this other : DeviceCollection Obj) :
    Quiet World.processHandles (moveAssign this other :
      Prog Obj Handle Volume (DeviceCollection Obj × DeviceCollection Obj)) := by
  apply (IUnknownW.moveAssign_quiet _ _).after
  intro _ _
  exact (vectorMoveAssign_quiet Device.destroy_quiet _ _).after fun _ _ => Adds.pure trivial

theorem destroy_quiet (this : DeviceCollection Obj) :
    Quiet World.processHandles (destroy this : Prog Obj Handle Volume Unit) :=
  (quiet_forM Device.destroy_quiet _).after fun _ _ => IUnknownW.destroy_quiet _

omit [DecidableEq Obj] in
theorem getDeviceCount_quiet (collection : Option Obj) (x : CollectionReply Obj Handle) :
    Adds World.processHandles (getDeviceCount collection x : Prog Obj Handle Volume ℕ) 0
      fun count => count = x.counted.length :=
  (IUnknownW.call_quiet collection).after fun _ _ =>
    Adds.pure (count_eq_length x.getCount x.devices)

theorem loadDevice_adds (collection : Option Obj) (element : Device Obj)
    (x : DeviceReply Obj Handle) :
    Adds World.processHandles
      (loadDevice collection element x : Prog Obj Handle Volume (Device Obj)) x.processHandles
      fun _ => True := by
  apply (IUnknownW.call_quiet _).after
  intro _ _
  apply (IUnknownW.outParam_quiet _ _).after
  intro _ _
  apply (IUnknownW.copyConstruct_quiet _).after
  intro _ _
  apply (Device.construct_adds _ x).before
  intro _ _
  apply (Device.moveAssign_quiet _ _).after
  intro _ _
  apply (Device.destroy_quiet _).after
  intro _ _
  exact (IUnknownW.destroy_quiet _).after fun _ _ => Adds.pure trivial

theorem construct_adds (collection : Option Obj) (x : CollectionReply Obj Handle) :
    Adds World.processHandles
      (construct collection x : Prog Obj Handle Volume (DeviceCollection Obj)) x.processHandles
      fun _ => True := by
  apply (IUnknownW.copyAssign_quiet _ _).after
  intro ownCollection _
  apply (getDeviceCount_quiet ownCollection x).after
  rintro count rfl
  apply loadVector_adds Device.default_quiet Device.destroy_quiet (loadDevice_adds ownCollection)
  intro devices
  exact (IUnknownW.destroy_quiet _).after fun _ _ => Adds.pure trivial

end DeviceCollection

namespace DeviceEnumerator

theorem replaceCollection_adds (this : DeviceEnumerator Obj) (x : CollectionReply Obj Handle) :
    Adds World.processHandles
      (replaceCollection this x : Prog Obj Handle Volume (Option Obj × DeviceCollection Obj))
      x.processHandles fun _ => True := by
  have henumerate : Quiet World.processHandles
      (enumAudioEndpoints this.enumerator x.collection : Prog Obj Handle Volume (Option Obj)) :=
    (IUnknownW.call_quiet _).after fun _ _ => IUnknownW.outParam_quiet _ _
  apply henumerate.after
  intro pDevices _
  have hbuild : Adds World.processHandles
      (buildTree pDevices x : Prog Obj Handle Volume (DeviceCollection Obj)) x.processHandles
      fun _ => True :=
    (IUnknownW.copyConstruct_quiet pDevices).after fun _ _ => DeviceCollection.construct_adds _ x
  apply hbuild.before
  intro _ _
  apply (DeviceCollection.moveAssign_quiet _ _).after
  intro _ _
  exact (DeviceCollection.destroy_quiet _).after fun _ _ => Adds.pure trivial

theorem reloadDevices_adds (this : DeviceEnumerator Obj) (x : CollectionReply Obj Handle) :
    Adds World.processHandles
      (reloadDevices this x : Prog Obj Handle Volume (DeviceEnumerator Obj)) x.processHandles
      fun _ => True := by
  apply lock_quiet.after
  intro _ _
  apply (replaceCollection_adds this x).before
  intro _ _
  apply unlock_quiet.after
  intro _ _
  exact (IUnknownW.destroy_quiet _).after fun _ _ => Adds.pure trivial

end DeviceEnumerator

end Programs

/-! ## Which answers close all handles -/

section AllClosed

/-- The path of the process is read if and only if the process is opened. -/
def SessionReply.ClosesHandle (x : SessionReply Obj Handle) : Prop :=
  x.procHandle = none ↔ x.path = none

def CollectionReply.ClosesHandles (x : CollectionReply Obj Handle) : Prop :=
  ∀ device ∈ x.counted, ∀ session ∈ device.sessionEnumerator.counted, session.ClosesHandle

theorem SessionReply.allClosed_iff (x : SessionReply Obj Handle) :
    AllClosed x.processHandles ↔ x.ClosesHandle := by
  unfold AllClosed SessionReply.processHandles SessionReply.ClosesHandle openedHandle closedHandle
  cases x.procHandle <;> cases x.path <;> simp

variable [DecidableEq Handle]

theorem SessionReply.honest (x : SessionReply Obj Handle) :
    Honest (fun h => h ≠ none) x.processHandles where
  closed := by
    intro h hown
    unfold SessionReply.processHandles openedHandle closedHandle
    cases x.procHandle <;> cases x.path <;> simp [hown]
  opened := by
    intro h hown
    obtain rfl := not_not.mp hown
    unfold SessionReply.processHandles openedHandle closedHandle
    cases x.procHandle <;> simp

theorem DeviceReply.honest (x : DeviceReply Obj Handle) :
    Honest (fun h => h ≠ none) x.processHandles :=
  honest_sum fun session _ => session.honest

theorem CollectionReply.honest (x : CollectionReply Obj Handle) :
    Honest (fun h => h ≠ none) x.processHandles :=
  honest_sum fun device _ => device.honest

theorem CollectionReply.allClosed_iff (x : CollectionReply Obj Handle) :
    AllClosed x.processHandles ↔ x.ClosesHandles := by
  have hdevice (device : DeviceReply Obj Handle) : AllClosed device.processHandles ↔
      ∀ session ∈ device.sessionEnumerator.counted, session.ClosesHandle := by
    have hsum := allClosed_sum_iff (l := device.sessionEnumerator.counted)
      fun session _ => session.honest
    simp only [SessionReply.allClosed_iff] at hsum
    exact hsum
  have hsum := allClosed_sum_iff (l := x.counted) fun device _ => device.honest
  simp only [hdevice] at hsum
  exact hsum

theorem World.honest_of_allClosed {w : World Obj Handle Volume} (h : AllClosed w.processHandles) :
    Honest (fun h => h ≠ none) w.processHandles where
  closed k _ := (congrArg (Multiset.count k) h).ge
  opened := by
    intro k hown
    obtain rfl := not_not.mp hown
    apply Multiset.count_eq_zero.mpr
    simp [World.processHandles]

end AllClosed

end AudioCtrl.Audio
