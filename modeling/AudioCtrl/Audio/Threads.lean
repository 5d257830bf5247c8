import AudioCtrl.Audio.TreeReferences

/-!
# The device tree shared by threads

The main thread runs the constructor of `DeviceEnumerator` and then, from the
receive loop, `setMainVolume`; Windows runs the callbacks of the registered
notifier on threads of its own, any number of them at a time. One step of a
thread is one lock, unlock, enumeration, construction, part of the installation,
release or volume call; between two steps any other thread may run and the list
of active devices may change.
-/

namespace AudioCtrl.Audio

inductive Notification
  | defaultDeviceChanged
  | deviceAdded
  | deviceRemoved
  | deviceStateChanged
  | propertyValueChanged
  deriving Repr, DecidableEq

inductive Pc (Obj Id Volume : Type)
  | create
  | register
  | idle
  | reload
  | enumerate
  | build (pDevices : Option Obj) (listed : List Id) (number : ℕ)
  | moveCollection (pDevices : Option Obj) (temporary : DeviceCollection Obj) (number : ℕ)
  | moveDevices (pDevices : Option Obj) (temporary : DeviceCollection Obj) (number : ℕ)
  | unlockReload (pDevices : Option Obj)
  | leaveReload (pDevices : Option Obj)
  | setMainVolume (volume : Volume)
  | setDeviceVolume (volume : Volume) (i n : ℕ)
  | unlockVolume
  deriving DecidableEq

/-- What Windows answers to a thread's step: a new object, or the devices and sessions
found while a tree is built. -/
inductive Answer (Obj Handle : Type)
  | nothing
  | object (o : Obj)
  | devices (found : List (Endpoint Obj Handle))

inductive Action (Obj Handle Id Volume : Type)
  | changeDevices (os : List Id) (notification : Notification)
  | changeProperty
  | deliver (i : ℕ)
  | callSetMainVolume (volume : Volume)
  | thread (k : ℕ) (answer : Answer Obj Handle)

/-- Thread 0 is the main thread. The last three fields are only recorded: who holds the
mutex, how many enumerations there were, and the numbers of those whose tree was
installed. -/
structure System (Obj Handle Id Volume : Type) where
  os : List Id
  registered : Bool
  queue : List Notification
  world : World Obj Handle Volume
  deviceEnumerator : DeviceEnumerator Obj
  threads : List (Pc Obj Id Volume)
  crashed : Option Fault
  holder : Option ℕ
  enumerations : ℕ
  installs : List ℕ

section Callbacks

variable {Obj Id Volume : Type}

def onDefaultDeviceChanged : Pc Obj Id Volume := .reload

def onDeviceAdded : Pc Obj Id Volume := .reload

def onDeviceRemoved : Pc Obj Id Volume := .reload

def onDeviceStateChanged : Pc Obj Id Volume := .reload

/-- `OnPropertyValueChanged`: its call of `reloadDevices` is commented out. -/
def onPropertyValueChanged : Pc Obj Id Volume := .idle

def callback : Notification → Pc Obj Id Volume
  | .defaultDeviceChanged => onDefaultDeviceChanged
  | .deviceAdded => onDeviceAdded
  | .deviceRemoved => onDeviceRemoved
  | .deviceStateChanged => onDeviceStateChanged
  | .propertyValueChanged => onPropertyValueChanged

end Callbacks

namespace System

variable {Obj Handle Id Volume : Type}

/-- The program has not yet begun to construct its `DeviceEnumerator`. -/
def start (outside : Obj → ℕ) (os : List Id) : System Obj Handle Id Volume :=
  { os, registered := false, queue := [], world := World.start Handle Volume outside,
    deviceEnumerator := {}, threads := [.create], crashed := none, holder := none,
    enumerations := 0, installs := [] }

def goto (s : System Obj Handle Id Volume) (k : ℕ) (pc : Pc Obj Id Volume) :
    System Obj Handle Id Volume :=
  { s with threads := s.threads.set k pc }

def setCollection (s : System Obj Handle Id Volume) (collection : DeviceCollection Obj) :
    System Obj Handle Id Volume :=
  { s with deviceEnumerator := { s.deviceEnumerator with deviceCollection := collection } }

/-- Run a piece of the program; a fault stops everything. -/
def exec {α : Type} (s : System Obj Handle Id Volume) (prog : Prog Obj Handle Volume α)
    (next : α → System Obj Handle Id Volume → System Obj Handle Id Volume) :
    System Obj Handle Id Volume :=
  match prog.run s.world with
  | .ok a w => next a { s with world := w }
  | .error fault w => { s with world := w, crashed := some fault }

theorem exec_of_run {α : Type} {s : System Obj Handle Id Volume} {prog : Prog Obj Handle Volume α}
    {a : α} {w : World Obj Handle Volume} (h : prog.run s.world = .ok a w)
    (next : α → System Obj Handle Id Volume → System Obj Handle Id Volume) :
    s.exec prog next = next a { s with world := w } := by
  unfold exec
  rw [h]

variable [DecidableEq Obj] [DecidableEq Id] (deviceOf : Obj → Id)

/-- The next step of thread `k`; a lock waits while the mutex is locked. The vector of
devices is walked by position up to the length it had at first. -/
def stepThread (s : System Obj Handle Id Volume) (k : ℕ) :
    Pc Obj Id Volume → Answer Obj Handle → Option (System Obj Handle Id Volume)
  | .create, .object o =>
    some (s.exec (IUnknownW.outParam s.deviceEnumerator.enumerator (some o)) fun enumerator s =>
      { s with deviceEnumerator := { s.deviceEnumerator with enumerator } }.goto k .register)
  | .register, .nothing =>
    some (s.exec (IUnknownW.call s.deviceEnumerator.enumerator) fun _ s =>
      { s with registered := true }.goto k .reload)
  | .reload, .nothing =>
    if s.world.locked then none else
      some (s.exec lock fun _ s => { s with holder := some k }.goto k .enumerate)
  | .enumerate, .object o =>
    some (s.exec (DeviceEnumerator.enumAudioEndpoints s.deviceEnumerator.enumerator (some o))
      fun pDevices s => { s with enumerations := s.enumerations + 1 }.goto k
        (.build pDevices s.os s.enumerations))
  | .build pDevices listed number, .devices found =>
    if found.map (fun x => deviceOf x.device) = listed then
      some (s.exec (DeviceEnumerator.buildTree pDevices
          { collection := pDevices, devices := found.map Endpoint.reply, getCount := true,
            allocates := true })
        fun temporary s => s.goto k (.moveCollection pDevices temporary number))
    else none
  | .moveCollection pDevices temporary number, .nothing =>
    let this := s.deviceEnumerator.deviceCollection
    some (s.exec (IUnknownW.moveAssign this.collection temporary.collection) fun moved s =>
      (s.setCollection { this with collection := moved.1 }).goto k
        (.moveDevices pDevices { temporary with collection := moved.2 } number))
  | .moveDevices pDevices temporary number, .nothing =>
    let this := s.deviceEnumerator.deviceCollection
    match this.devices with
    | device :: devices =>
      some (s.exec device.destroy fun _ s => s.setCollection { this with devices })
    | [] =>
      some (s.exec (DeviceCollection.destroy { temporary with devices := [] }) fun _ s =>
        ({ s with installs := s.installs ++ [number] }.setCollection
          { this with devices := temporary.devices }).goto k (.unlockReload pDevices))
  | .unlockReload pDevices, .nothing =>
    some (s.exec unlock fun _ s => { s with holder := none }.goto k (.leaveReload pDevices))
  | .leaveReload pDevices, .nothing =>
    some (s.exec (IUnknownW.destroy pDevices) fun _ s => s.goto k .idle)
  | .setMainVolume volume, .nothing =>
    if s.world.locked then none else
      some (s.exec lock fun _ s => { s with holder := some k }.goto k
        (.setDeviceVolume volume 0 s.deviceEnumerator.deviceCollection.devices.length))
  | .setDeviceVolume volume i n, .nothing =>
    if i = n then some (s.goto k .unlockVolume) else
      match s.deviceEnumerator.deviceCollection.devices[i]? with
      | none => some { s with crashed := some .outOfRange }
      | some device =>
        some (s.exec (device.setDeviceVolume volume) fun _ s =>
          s.goto k (.setDeviceVolume volume (i + 1) n))
  | .unlockVolume, .nothing =>
    some (s.exec unlock fun _ s => { s with holder := none }.goto k .idle)
  | _, _ => none

theorem stepThread_moveDevices_cons {s : System Obj Handle Id Volume} {k : ℕ} {p : Option Obj}
    {temporary : DeviceCollection Obj} {number : ℕ} {d : Device Obj} {ds : List (Device Obj)}
    (hd : s.deviceEnumerator.deviceCollection.devices = d :: ds) :
    s.stepThread deviceOf k (.moveDevices p temporary number) .nothing =
      some (s.exec d.destroy fun _ t =>
        t.setCollection { s.deviceEnumerator.deviceCollection with devices := ds }) := by
  simp only [stepThread, hd]

theorem stepThread_moveDevices_nil {s : System Obj Handle Id Volume} {k : ℕ} {p : Option Obj}
    {temporary : DeviceCollection Obj} {number : ℕ}
    (hd : s.deviceEnumerator.deviceCollection.devices = []) :
    s.stepThread deviceOf k (.moveDevices p temporary number) .nothing =
      some (s.exec (DeviceCollection.destroy { temporary with devices := [] }) fun _ t =>
        ({ t with installs := t.installs ++ [number] }.setCollection
          { s.deviceEnumerator.deviceCollection with devices := temporary.devices }).goto k
            (.unlockReload p)) := by
  simp only [stepThread, hd]

theorem stepThread_setDeviceVolume {s : System Obj Handle Id Volume} {k : ℕ} {v : Volume}
    {i n : ℕ} {d : Device Obj} (hin : i ≠ n)
    (hd : s.deviceEnumerator.deviceCollection.devices[i]? = some d) :
    s.stepThread deviceOf k (.setDeviceVolume v i n) .nothing =
      some (s.exec (d.setDeviceVolume v) fun _ s => s.goto k (.setDeviceVolume v (i + 1) n)) := by
  rw [stepThread, if_neg hin, hd]

/-- A change of the list is followed by its notification once the notifier is
registered; a notification is taken from the queue by a new thread. -/
def step (s : System Obj Handle Id Volume) :
    Action Obj Handle Id Volume → Option (System Obj Handle Id Volume)
  | .changeDevices os notification =>
    if notification = .propertyValueChanged then none else
      some { s with os, queue := if s.registered then s.queue ++ [notification] else s.queue }
  | .changeProperty =>
    if s.registered then some { s with queue := s.queue ++ [.propertyValueChanged] } else none
  | .deliver i =>
    s.queue[i]?.map fun notification =>
      { s with queue := s.queue.eraseIdx i, threads := s.threads ++ [callback notification] }
  | .callSetMainVolume volume =>
    match s.threads[0]? with
    | some Pc.idle => some (s.goto 0 (.setMainVolume volume))
    | _ => none
  | .thread k answer =>
    if s.crashed = none then
      s.threads[k]?.bind fun pc => s.stepThread deviceOf k pc answer
    else none

end System

end AudioCtrl.Audio
