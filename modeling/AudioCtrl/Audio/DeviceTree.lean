import AudioCtrl.Audio.Interfaces

/-!
# The device tree

`Session`, `SessionEnumerator`, `Device`, `DeviceCollection` and
`DeviceEnumerator` with their constructors, their member-wise move assignments
and their destructors. What Windows answers to the calls made while a tree is
built is given beforehand, in the shape of the tree: an interface that a failed
call did not deliver is `none`.
-/

namespace AudioCtrl.Audio

open IUnknownW

/-- The answers to the calls of one `Session` constructor and its `GetSession`. -/
structure SessionReply (Obj Handle : Type) where
  sessionControl : Option Obj
  sessionControl2 : Option Obj
  processId : Option ℕ
  procHandle : Option Handle
  path : Option String
  audioVolume : Option Obj

/-- The answers to the calls of one `SessionEnumerator` constructor: the sessions that
there are, and whether `GetCount` succeeds. -/
structure SessionEnumeratorReply (Obj Handle : Type) where
  sessionEnumerator : Option Obj
  sessions : List (SessionReply Obj Handle)
  getCount : Bool
  allocates : Bool

structure DeviceReply (Obj Handle : Type) where
  device : Option Obj
  sessionManager : Option Obj
  endpointVolume : Option Obj
  sessionEnumerator : SessionEnumeratorReply Obj Handle

/-- The answers to the calls of one `reloadDevices`. -/
structure CollectionReply (Obj Handle : Type) where
  collection : Option Obj
  devices : List (DeviceReply Obj Handle)
  getCount : Bool
  allocates : Bool

/-- The sessions that the constructor gets to know of: none when `GetCount` fails. -/
def SessionEnumeratorReply.counted {Obj Handle : Type} (x : SessionEnumeratorReply Obj Handle) :
    List (SessionReply Obj Handle) :=
  if x.getCount then x.sessions else []

def CollectionReply.counted {Obj Handle : Type} (x : CollectionReply Obj Handle) :
    List (DeviceReply Obj Handle) :=
  if x.getCount then x.devices else []

structure Session (Obj : Type) where
  sessionControl : Option Obj := none
  sessionControl2 : Option Obj := none
  audioVolume : Option Obj := none
  deriving DecidableEq

structure SessionEnumerator (Obj : Type) where
  sessionManager : Option Obj := none
  sessionEnumerator : Option Obj := none
  sessions : List (Session Obj) := []
  deriving DecidableEq

structure Device (Obj : Type) where
  device : Option Obj := none
  endpointVolume : Option Obj := none
  sessionEnumerator : SessionEnumerator Obj := {}
  deriving DecidableEq

structure DeviceCollection (Obj : Type) where
  collection : Option Obj := none
  devices : List (Device Obj) := []
  deriving DecidableEq

structure DeviceEnumerator (Obj : Type) where
  enumerator : Option Obj := none
  deviceCollection : DeviceCollection Obj := {}
  deriving DecidableEq

variable {Obj Handle Volume : Type} [DecidableEq Obj]

section System

omit [DecidableEq Obj]

/-- `std::vector<T>(n)`: the allocation, which only `n = 0` can do without, and then
`n` default constructions. -/
def vectorOf {α : Type} (n : ℕ) (allocates : Bool) (default : Prog Obj Handle Volume α) :
    Prog Obj Handle Volume (List α) := do
  if n ≠ 0 ∧ allocates = false then throw .badAlloc
  (List.replicate n ()).mapM' fun _ => default

/-- Move assignment of a vector: the elements of the target are destroyed, the target
takes the elements of the source. -/
def vectorMoveAssign {α : Type} (destroy : α → Prog Obj Handle Volume Unit) (this other : List α) :
    Prog Obj Handle Volume (List α × List α) := do
  this.forM destroy
  return (other, [])

/-- `OpenProcess`; the handle is null when the call fails. -/
def openProcess (processId : ℕ) (procHandle : Option Handle) :
    Prog Obj Handle Volume (Option Handle) := do
  modify fun w => { w with opened := w.opened ++ (procHandle.map fun h => (processId, h)).toList }
  return procHandle

def closeHandle (procHandle : Option Handle) : Prog Obj Handle Volume Unit :=
  modify fun w => { w with closed := w.closed ++ [procHandle] }

/-- `std::wcout << L"Path: " << path << std::endl`. -/
def print (path : String) : Prog Obj Handle Volume Unit :=
  modify fun w => { w with printed := w.printed ++ [path] }

/-- `if (GetModuleFileNameExW(procHandle, ..) != 0) { CloseHandle(procHandle); std::wcout << .. }`;
`path` is `none` when the call returns 0. -/
def printPath (procHandle : Option Handle) (path : Option String) :
    Prog Obj Handle Volume Unit :=
  match path with
  | none => return ()
  | some path => do
    closeHandle procHandle
    print path

/-- `std::mutex::lock`, by a thread that runs alone. -/
def lock : Prog Obj Handle Volume Unit := fun w =>
  if w.locked then .error .selfLock w else .ok () { w with locked := true }

def unlock : Prog Obj Handle Volume Unit :=
  modify fun w => { w with locked := false }

end System

namespace Session

def default : Prog Obj Handle Volume (Session Obj) := do
  let this : Session Obj := {}
  let sessionControl ← nullAssign this.sessionControl
  let sessionControl2 ← nullAssign this.sessionControl2
  return { this with sessionControl, sessionControl2 }

/-- `Session(IUnknownW<IAudioSessionControl>)`, and the destruction of its parameter.
A failed call only leaves its out-parameter null. -/
def construct (sessionControl : Option Obj) (reply : SessionReply Obj Handle) :
    Prog Obj Handle Volume (Session Obj) := do
  let this : Session Obj := {}
  let control ← copyAssign this.sessionControl sessionControl
  let _ ← call control
  let control2 ← outParam this.sessionControl2 reply.sessionControl2
  let _ ← call control2
  let procHandle ← openProcess (reply.processId.getD 0) reply.procHandle
  printPath procHandle reply.path
  let _ ← call control2
  let audioVolume ← outParam this.audioVolume reply.audioVolume
  destroy sessionControl
  return { sessionControl := control, sessionControl2 := control2, audioVolume }

def moveAssign (this other : Session Obj) : Prog Obj Handle Volume (Session Obj × Session Obj) := do
  let (control, otherControl) ← IUnknownW.moveAssign this.sessionControl other.sessionControl
  let (control2, otherControl2) ← IUnknownW.moveAssign this.sessionControl2 other.sessionControl2
  let (volume, otherVolume) ← IUnknownW.moveAssign this.audioVolume other.audioVolume
  return (⟨control, control2, volume⟩, ⟨otherControl, otherControl2, otherVolume⟩)

def destroy (this : Session Obj) : Prog Obj Handle Volume Unit := do
  IUnknownW.destroy this.audioVolume
  IUnknownW.destroy this.sessionControl2
  IUnknownW.destroy this.sessionControl

end Session

namespace SessionEnumerator

def default : Prog Obj Handle Volume (SessionEnumerator Obj) := do
  let this : SessionEnumerator Obj := {}
  let sessionManager ← nullAssign this.sessionManager
  let sessionEnumerator ← nullAssign this.sessionEnumerator
  return { this with sessionManager, sessionEnumerator }

/-- `getSessionCount`; the count stays 0 when `GetCount` fails. -/
def getSessionCount (sessionEnumerator : Option Obj)
    (reply : SessionEnumeratorReply Obj Handle) : Prog Obj Handle Volume ℕ := do
  let _ ← call sessionEnumerator
  return if reply.getCount then reply.sessions.length else 0

/-- The body of the constructor's loop: one element of `sessions` is replaced. -/
def loadSession (sessionEnumerator : Option Obj) (element : Session Obj)
    (reply : SessionReply Obj Handle) : Prog Obj Handle Volume (Session Obj) := do
  let _ ← call sessionEnumerator
  let sessionControl ← outParam none reply.sessionControl
  let parameter ← copyConstruct sessionControl
  let temporary ← Session.construct parameter reply
  let (element, temporary) ← Session.moveAssign element temporary
  temporary.destroy
  IUnknownW.destroy sessionControl
  return element

/-- `SessionEnumerator(IUnknownW<IAudioSessionManager2>)`, and the destruction of its
parameter. -/
def construct (sessionManager : Option Obj) (reply : SessionEnumeratorReply Obj Handle) :
    Prog Obj Handle Volume (SessionEnumerator Obj) := do
  let this : SessionEnumerator Obj := {}
  let manager ← copyAssign this.sessionManager sessionManager
  let _ ← call manager
  let enumerator ← outParam this.sessionEnumerator reply.sessionEnumerator
  let count ← getSessionCount enumerator reply
  let temporary ← vectorOf count reply.allocates Session.default
  let (sessions, temporary) ← vectorMoveAssign Session.destroy this.sessions temporary
  temporary.forM Session.destroy
  let sessions ← (sessions.zip reply.counted).mapM' fun slot =>
    loadSession enumerator slot.1 slot.2
  IUnknownW.destroy sessionManager
  return { sessionManager := manager, sessionEnumerator := enumerator, sessions }

def moveAssign (this other : SessionEnumerator Obj) :
    Prog Obj Handle Volume (SessionEnumerator Obj × SessionEnumerator Obj) := do
  let (manager, otherManager) ← IUnknownW.moveAssign this.sessionManager other.sessionManager
  let (enumerator, otherEnumerator) ←
    IUnknownW.moveAssign this.sessionEnumerator other.sessionEnumerator
  let (sessions, otherSessions) ← vectorMoveAssign Session.destroy this.sessions other.sessions
  return (⟨manager, enumerator, sessions⟩, ⟨otherManager, otherEnumerator, otherSessions⟩)

def destroy (this : SessionEnumerator Obj) : Prog Obj Handle Volume Unit := do
  this.sessions.forM Session.destroy
  IUnknownW.destroy this.sessionEnumerator
  IUnknownW.destroy this.sessionManager

end SessionEnumerator

namespace Device

def default : Prog Obj Handle Volume (Device Obj) := do
  let sessionEnumerator ← SessionEnumerator.default
  let this : Device Obj := { sessionEnumerator }
  let device ← nullAssign this.device
  return { this with device }

/-- `Device(IUnknownW<IMMDevice>)`, and the destruction of its parameter. -/
def construct (device : Option Obj) (reply : DeviceReply Obj Handle) :
    Prog Obj Handle Volume (Device Obj) := do
  let sessionEnumerator ← SessionEnumerator.default
  let this : Device Obj := { sessionEnumerator }
  let ownDevice ← copyAssign this.device device
  let _ ← call ownDevice
  let sessionManager ← outParam none reply.sessionManager
  let _ ← call ownDevice
  let endpointVolume ← outParam this.endpointVolume reply.endpointVolume
  let parameter ← copyConstruct sessionManager
  let temporary ← SessionEnumerator.construct parameter reply.sessionEnumerator
  let (sessionEnumerator, temporary) ← this.sessionEnumerator.moveAssign temporary
  temporary.destroy
  IUnknownW.destroy sessionManager
  IUnknownW.destroy device
  return { device := ownDevice, endpointVolume, sessionEnumerator }

def moveAssign (this other : Device Obj) : Prog Obj Handle Volume (Device Obj × Device Obj) := do
  let (device, otherDevice) ← IUnknownW.moveAssign this.device other.device
  let (volume, otherVolume) ← IUnknownW.moveAssign this.endpointVolume other.endpointVolume
  let (sessions, otherSessions) ← this.sessionEnumerator.moveAssign other.sessionEnumerator
  return (⟨device, volume, sessions⟩, ⟨otherDevice, otherVolume, otherSessions⟩)

def destroy (this : Device Obj) : Prog Obj Handle Volume Unit := do
  this.sessionEnumerator.destroy
  IUnknownW.destroy this.endpointVolume
  IUnknownW.destroy this.device

/-- `setDeviceVolume`: `SetMasterVolumeLevelScalar` of the endpoint volume. -/
def setDeviceVolume (this : Device Obj) (volume : Volume) : Prog Obj Handle Volume Unit := do
  let endpointVolume ← call this.endpointVolume
  modify fun w => { w with volumes := w.volumes ++ [(endpointVolume, volume)] }

end Device

namespace DeviceCollection

def getDeviceCount (collection : Option Obj) (reply : CollectionReply Obj Handle) :
    Prog Obj Handle Volume ℕ := do
  let _ ← call collection
  return if reply.getCount then reply.devices.length else 0

def loadDevice (collection : Option Obj) (element : Device Obj) (reply : DeviceReply Obj Handle) :
    Prog Obj Handle Volume (Device Obj) := do
  let _ ← call collection
  let pDevice ← outParam none reply.device
  let parameter ← copyConstruct pDevice
  let temporary ← Device.construct parameter reply
  let (element, temporary) ← Device.moveAssign element temporary
  temporary.destroy
  IUnknownW.destroy pDevice
  return element

/-- `DeviceCollection(IUnknownW<IMMDeviceCollection>)`, and the destruction of its
parameter. -/
def construct (collection : Option Obj) (reply : CollectionReply Obj Handle) :
    Prog Obj Handle Volume (DeviceCollection Obj) := do
  let this : DeviceCollection Obj := {}
  let ownCollection ← copyAssign this.collection collection
  let count ← getDeviceCount ownCollection reply
  let temporary ← vectorOf count reply.allocates Device.default
  let (devices, temporary) ← vectorMoveAssign Device.destroy this.devices temporary
  temporary.forM Device.destroy
  let devices ← (devices.zip reply.counted).mapM' fun slot =>
    loadDevice ownCollection slot.1 slot.2
  IUnknownW.destroy collection
  return { collection := ownCollection, devices }

def moveAssign (this other : DeviceCollection Obj) :
    Prog Obj Handle Volume (DeviceCollection Obj × DeviceCollection Obj) := do
  let (collection, otherCollection) ← IUnknownW.moveAssign this.collection other.collection
  let (devices, otherDevices) ← vectorMoveAssign Device.destroy this.devices other.devices
  return (⟨collection, devices⟩, ⟨otherCollection, otherDevices⟩)

def destroy (this : DeviceCollection Obj) : Prog Obj Handle Volume Unit := do
  this.devices.forM Device.destroy
  IUnknownW.destroy this.collection

def setMainVolume (this : DeviceCollection Obj) (volume : Volume) : Prog Obj Handle Volume Unit :=
  this.devices.forM fun device => device.setDeviceVolume volume

end DeviceCollection

namespace DeviceEnumerator

/-- `EnumAudioEndpoints` into the local `pDevices`. -/
def enumAudioEndpoints (enumerator collection : Option Obj) :
    Prog Obj Handle Volume (Option Obj) := do
  let _ ← call enumerator
  outParam none collection

/-- `DeviceCollection(pDevices)`: the parameter is a copy. -/
def buildTree (pDevices : Option Obj) (reply : CollectionReply Obj Handle) :
    Prog Obj Handle Volume (DeviceCollection Obj) := do
  let parameter ← copyConstruct pDevices
  DeviceCollection.construct parameter reply

/-- What `reloadDevices` does while it holds the lock. -/
def replaceCollection (this : DeviceEnumerator Obj) (reply : CollectionReply Obj Handle) :
    Prog Obj Handle Volume (Option Obj × DeviceCollection Obj) := do
  let pDevices ← enumAudioEndpoints this.enumerator reply.collection
  let temporary ← buildTree pDevices reply
  let (deviceCollection, temporary) ← this.deviceCollection.moveAssign temporary
  temporary.destroy
  return (pDevices, deviceCollection)

/-- `reloadDevices`. The local `pDevices` outlives the lock. -/
def reloadDevices (this : DeviceEnumerator Obj) (reply : CollectionReply Obj Handle) :
    Prog Obj Handle Volume (DeviceEnumerator Obj) := do
  lock
  let (pDevices, deviceCollection) ← this.replaceCollection reply
  unlock
  IUnknownW.destroy pDevices
  return { this with deviceCollection }

/-- `DeviceEnumerator()`, with the answer to `CoCreateInstance` and those to the calls
of the first reload. -/
def construct (enumerator : Option Obj) (reply : CollectionReply Obj Handle) :
    Prog Obj Handle Volume (DeviceEnumerator Obj) := do
  let this : DeviceEnumerator Obj := {}
  let enumerator ← outParam this.enumerator enumerator
  let _ ← call enumerator
  reloadDevices { this with enumerator } reply

def setMainVolume (this : DeviceEnumerator Obj) (volume : Volume) :
    Prog Obj Handle Volume Unit := do
  lock
  this.deviceCollection.setMainVolume volume
  unlock

def constructAndReload (enumerator : Option Obj) (first : CollectionReply Obj Handle)
    (later : List (CollectionReply Obj Handle)) :
    Prog Obj Handle Volume (DeviceEnumerator Obj) := do
  let this ← construct enumerator first
  later.foldlM reloadDevices this

end DeviceEnumerator

end AudioCtrl.Audio
