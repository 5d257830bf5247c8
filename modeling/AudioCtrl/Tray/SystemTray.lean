import AudioCtrl.Foundations.PartialRun

/-!
# `SystemTray`

A tray object owns a window and an icon. The window procedure is a static
function, so it finds the object of a window in the static map `systemTrays`,
which holds the address of each object under its window. The class declares a
destructor and no copy operations, so the compiler adds member-wise ones. A
window handle, a menu handle and an entry of the map are null when they are
`none`. What Windows answers is given beforehand; the functions return the
calls they make, in order. Execution goes on after `__debugbreak`, as it does
under a debugger.
-/

namespace AudioCtrl.Tray

/-! ## Windows -/

/-- The characters of a `std::wstring`. -/
abbrev WString := List UInt16

def wmDestroy : UInt32 := 0x0002
def wmCommand : UInt32 := 0x0111
def wmUser : UInt32 := 0x0400
def wmLbuttonup : UInt16 := 0x0202
def wmRbuttondown : UInt16 := 0x0204

def nifMessage : UInt32 := 0x1
def nifIcon : UInt32 := 0x2
def nifTip : UInt32 := 0x4

def miimId : UInt32 := 0x2
def miimType : UInt32 := 0x10
def mftString : UInt32 := 0x0
def mftSeparator : UInt32 := 0x800
def mfsUnhilite : UInt32 := 0x0

def tpmLeftbutton : UInt32 := 0x0
def tpmLeftalign : UInt32 := 0x0
def tpmBottomalign : UInt32 := 0x20
def tpmVernegAnimation : UInt32 := 0x2000

def loword (l : UInt64) : UInt16 := (l &&& 0xffff).toUInt16

def hiword (l : UInt64) : UInt16 := ((l >>> 16) &&& 0xffff).toUInt16

/-- What `Shell_NotifyIcon` is given, without the handle of the icon. -/
structure NotifyIconData (Window : Type) where
  hWnd : Option Window
  uID : UInt32
  uFlags : UInt32
  uCallbackMessage : UInt32
  szTip : WString
  deriving DecidableEq, Repr

/-- What `InsertMenuItem` is given, without the fields that are null. -/
structure MenuItemInfo where
  fMask : UInt32
  fType : UInt32
  fState : UInt32
  wID : UInt32
  dwTypeData : WString
  deriving DecidableEq, Repr

/-- The answers to the calls of one `openContextMenu`; `inserts` tells for each place
in the list of items whether `InsertMenuItem` succeeds. -/
structure MenuReply (Menu : Type) where
  clickPoint : Int32 × Int32
  popup : Option Menu
  inserts : ℕ → Bool

/-! ## The class -/

inductive SysTrayItemType where
  | text
  | separator
  deriving DecidableEq, Repr

structure SysTrayItem where
  type : SysTrayItemType
  id : UInt16
  lClick : Bool
  text : WString
  deriving DecidableEq, Repr

structure SystemTray (Window : Type) where
  title : WString
  items : List SysTrayItem
  hwnd : Option Window
  callId : UInt16
  deriving DecidableEq, Repr

/-- The calls out of the methods, and those of the window procedure. -/
inductive Call (Addr Window Menu : Type) where
  | getCursorPos
  | createPopupMenu (popup : Option Menu)
  | insertMenuItem (popup : Option Menu) (item : Int32) (byPosition : Bool) (info : MenuItemInfo)
  | getLastErrorText
  | debugbreak
  | setForegroundWindow (hwnd : Option Window)
  | trackPopupMenu (popup : Option Menu) (flags : UInt32) (point : Int32 × Int32)
      (hwnd : Option Window)
  | destroyMenu (popup : Option Menu)
  | processTrayEvent (tray : Addr) (event : UInt16)
  | processContextMenuEvent (tray : Addr) (menuItem event : UInt16)
  | invokeMenuItem (menuItem : UInt16)
  | postQuitMessage (exitCode : Int32)
  | defWindowProc (hwnd : Option Window) (msg : UInt32) (wParam lParam : UInt64)
  deriving DecidableEq, Repr

namespace SystemTray

variable {Addr Window Menu : Type}

def default : SystemTray Window := { title := [], items := [], hwnd := none, callId := 0 }

/-- `nid.szTip`: 128 characters, of which the last stays 0. -/
def szTip (title : WString) : WString :=
  let charsToCopy := if title.length ≥ 128 then 128 - 1 else title.length
  title.take charsToCopy ++ List.replicate (128 - charsToCopy) 0

/-- The icon that the constructor adds. -/
def notifyIconData (this : SystemTray Window) : NotifyIconData Window :=
  { hWnd := this.hwnd
    uID := 1
    uFlags := nifIcon ||| nifMessage ||| nifTip
    uCallbackMessage := wmUser + this.callId.toUInt32
    szTip := szTip this.title }

/-- The `menuItem` that the loop of `openContextMenu` builds for an item. -/
def menuItemInfo (item : SysTrayItem) : MenuItemInfo :=
  { fMask := miimType ||| (if item.type = .text then miimId else 0)
    fType := if item.type = .text then mftString else mftSeparator
    fState := mfsUnhilite
    wID := if item.type = .text then item.id.toUInt32 else 0
    dwTypeData := item.text }

/-- The body of that loop. -/
def insertItem (popup : Option Menu) (item : SysTrayItem) (inserts : Bool) :
    List (Call Addr Window Menu) :=
  .insertMenuItem popup (-1) true (menuItemInfo item) ::
    if inserts then [] else [.getLastErrorText, .debugbreak]

def openContextMenu (this : SystemTray Window) (reply : MenuReply Menu) :
    List (Call Addr Window Menu) :=
  [.getCursorPos, .createPopupMenu reply.popup] ++
    (this.items.zipIdx.flatMap fun p => insertItem reply.popup p.1 (reply.inserts p.2)) ++
      [.setForegroundWindow this.hwnd,
        .trackPopupMenu reply.popup
          (tpmVernegAnimation ||| tpmLeftalign ||| tpmLeftbutton ||| tpmBottomalign)
          reply.clickPoint this.hwnd]

/-- `processTrayEvent`: the calls it makes and what it returns. -/
def processTrayEvent (this : SystemTray Window) (reply : MenuReply Menu) (event : UInt16) :
    List (Call Addr Window Menu) × Bool :=
  if event = wmRbuttondown then (this.openContextMenu reply, true)
  else if event = wmLbuttonup then
    (.debugbreak :: (this.items.filter SysTrayItem.lClick).map fun item =>
      .invokeMenuItem item.id, true)
  else ([], false)

def processContextMenuEvent (_this : SystemTray Window) (_menuItem _event : UInt16) : Bool := false

end SystemTray

/-! ## The objects of the process -/

/-- All tray objects and the static members. Also recorded are the windows that
`CreateWindowEx` has returned and the icon each object has given to the shell. -/
structure Trays (Addr Window : Type) where
  live : Finset Addr
  object : Addr → SystemTray Window
  rollingCallback : UInt32
  systemTrays : Option Window → Option Addr
  created : Finset Window
  icons : Addr → Option (NotifyIconData Window)

namespace Trays

variable {Addr Window Menu : Type} [DecidableEq Addr] [DecidableEq Window]

def start : Trays Addr Window :=
  { live := ∅
    object := fun _ => .default
    rollingCallback := 1
    systemTrays := fun _ => none
    created := ∅
    icons := fun _ => none }

variable (s : Trays Addr Window)

/-- Storage for a new object, which has given nothing to the shell yet. -/
def place (this : Addr) (tray : SystemTray Window) : Trays Addr Window :=
  { s with
    live := insert this s.live
    object := Function.update s.object this tray
    icons := Function.update s.icons this none }

def defaultConstruct (this : Addr) : Trays Addr Window := s.place this .default

/-- `SystemTray(items, title)`; `window` is what `CreateWindowEx` returns. -/
def construct (this : Addr) (items : List SysTrayItem) (title : WString)
    (window : Option Window) : Trays Addr Window :=
  let tray : SystemTray Window :=
    { title, items, hwnd := window, callId := s.rollingCallback.toUInt16 }
  let s := s.place this tray
  { s with
    rollingCallback := s.rollingCallback + 1
    systemTrays := Function.update s.systemTrays window (some this)
    created := s.created ∪ window.toFinset
    icons := Function.update s.icons this (some tray.notifyIconData) }

/-- The copy constructor of the compiler. -/
def copyConstruct (this other : Addr) : Trays Addr Window := s.place this (s.object other)

/-- The copy assignment of the compiler. -/
def copyAssign (this other : Addr) : Trays Addr Window :=
  { s with object := Function.update s.object this (s.object other) }

def destroy (this : Addr) : Trays Addr Window :=
  let hwnd := (s.object this).hwnd
  let systemTrays :=
    if hwnd ≠ none then Function.update s.systemTrays hwnd none else s.systemTrays
  { s with live := s.live.erase this, systemTrays }

/-- `WndProc`. A window without an entry makes `at` throw. -/
def wndProc (reply : MenuReply Menu) (hwnd : Option Window) (msg : UInt32)
    (wParam lParam : UInt64) : List (Call Addr Window Menu) :=
  match s.systemTrays hwnd with
  | none => [.defWindowProc hwnd msg wParam lParam]
  | some tray =>
    if msg > wmUser then
      let event := loword lParam
      let (calls, result) := (s.object tray).processTrayEvent reply event
      [.processTrayEvent tray event] ++ calls ++
        if result then [] else [.defWindowProc hwnd msg wParam lParam]
    else if msg = wmCommand then
      -- the difference is an `int` that is cut to a `WORD` again
      let menuItem := loword wParam - wmUser.toUInt16
      let event := hiword wParam
      [.processContextMenuEvent tray menuItem event] ++
        if (s.object tray).processContextMenuEvent menuItem event then []
        else [.defWindowProc hwnd msg wParam lParam]
    else if msg = wmDestroy then
      [.postQuitMessage 0, .defWindowProc hwnd msg wParam lParam]
    else [.defWindowProc hwnd msg wParam lParam]

/-- What can happen to tray objects. -/
inductive Op (Addr Window : Type) where
  | defaultConstruct (this : Addr)
  | construct (this : Addr) (items : List SysTrayItem) (title : WString) (window : Option Window)
  | copyConstruct (this other : Addr)
  | copyAssign (this other : Addr)
  | destroy (this : Addr)
  deriving DecidableEq, Repr

def exec : Op Addr Window → Trays Addr Window
  | .defaultConstruct this => s.defaultConstruct this
  | .construct this items title window => s.construct this items title window
  | .copyConstruct this other => s.copyConstruct this other
  | .copyAssign this other => s.copyAssign this other
  | .destroy this => s.destroy this

/-- Objects are constructed in free storage, used while they live, and
`CreateWindowEx` returns no window twice. -/
def Legal : Op Addr Window → Prop
  | .defaultConstruct this => this ∉ s.live
  | .construct this _ _ window => this ∉ s.live ∧ ∀ w ∈ window, w ∉ s.created
  | .copyConstruct this other => this ∉ s.live ∧ other ∈ s.live
  | .copyAssign this other => this ∈ s.live ∧ other ∈ s.live
  | .destroy this => this ∈ s.live

instance : ∀ op, Decidable (s.Legal op)
  | .defaultConstruct _ => inferInstanceAs (Decidable (_ ∉ _))
  | .construct _ _ _ _ => inferInstanceAs (Decidable (_ ∧ _))
  | .copyConstruct _ _ | .copyAssign _ _ => inferInstanceAs (Decidable (_ ∧ _))
  | .destroy _ => inferInstanceAs (Decidable (_ ∈ _))

def step (op : Op Addr Window) : Option (Trays Addr Window) :=
  if s.Legal op then some (s.exec op) else none

variable {s}

theorem step_eq_some {t : Trays Addr Window} {op : Op Addr Window} :
    s.step op = some t ↔ s.Legal op ∧ s.exec op = t := by
  unfold step
  split_ifs with h <;> simp [h]

end Trays
end AudioCtrl.Tray
