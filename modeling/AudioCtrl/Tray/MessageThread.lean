import AudioCtrl.Foundations.Activations
import AudioCtrl.Tray.TrayEvents
import AudioCtrl.Tray.ContextMenu

/-!
# The message thread

`messageThread` constructs a tray, gives the messages of its window to the window
procedure and destroys the tray when the loop ends. Windows calls the window
procedure from inside most of the calls that the thread makes: while the window is
created and has no entry in `systemTrays` yet, in the loop, and from a call that the
window procedure itself has made, such as `TrackPopupMenu` while a menu is open.
-/

namespace AudioCtrl.Tray

open PartialRun

variable {Addr Window Menu : Type}

namespace Call

/-- The calls in which Windows can call the window procedure. -/
def InWindows : Call Addr Window Menu → Prop
  | .getLastErrorText | .debugbreak | .processTrayEvent .. | .processContextMenuEvent ..
  | .invokeMenuItem _ => False
  | _ => True

instance : DecidablePred (InWindows : Call Addr Window Menu → Prop) := fun call => by
  cases call <;> unfold InWindows <;> infer_instance

/-- `PostQuitMessage` makes `GetMessage` return 0. -/
def postsQuit : Call Addr Window Menu → Bool
  | .postQuitMessage _ => true
  | _ => false

def target : Call Addr Window Menu → Option Addr
  | .processTrayEvent tray _ | .processContextMenuEvent tray .. => some tray
  | _ => none

end Call

/-! ## What one activation does -/

namespace SystemTray

variable {this : SystemTray Window} {reply : MenuReply Menu} {event : UInt16}
  {call : Call Addr Window Menu}

/-- The events on which a tray stops in `__debugbreak`. -/
def Breaks (this : SystemTray Window) (reply : MenuReply Menu) (event : UInt16) : Prop :=
  event = wmLbuttonup ∨ event = wmRbuttondown ∧ ∃ i < this.items.length, reply.inserts i = false

theorem debugbreak_mem_openContextMenu_iff :
    .debugbreak ∈ (this.openContextMenu reply : List (Call Addr Window Menu)) ↔
      ∃ i < this.items.length, reply.inserts i = false := by
  have hitem : ∀ (p : SysTrayItem × ℕ), .debugbreak ∈
      (insertItem reply.popup p.1 (reply.inserts p.2) : List (Call Addr Window Menu)) ↔
        reply.inserts p.2 = false := by
    intro p
    cases hinserts : reply.inserts p.2 <;> simp [insertItem]
  simp only [openContextMenu, List.mem_append, List.mem_cons, List.mem_flatMap, reduceCtorEq,
    List.not_mem_nil, or_false, false_or, hitem]
  constructor
  · rintro ⟨⟨item, i⟩, hmem, hfails⟩
    exact ⟨i, (List.mem_zipIdx' hmem).1, hfails⟩
  · rintro ⟨i, hi, hfails⟩
    refine ⟨(this.items[i], i), ?_, hfails⟩
    rw [List.mk_mem_zipIdx_iff_getElem?, List.getElem?_eq_getElem hi]

theorem debugbreak_mem_processTrayEvent_iff :
    .debugbreak ∈ (this.processTrayEvent reply event : List (Call Addr Window Menu) × Bool).1 ↔
      this.Breaks reply event := by
  unfold processTrayEvent Breaks
  split_ifs with hright hleft
  · have hne : wmRbuttondown ≠ wmLbuttonup := by decide
    rw [hright, debugbreak_mem_openContextMenu_iff]
    simp [hne]
  · simp [hleft]
  · simp [hright, hleft]

theorem of_mem_processTrayEvent
    (h : call ∈ (this.processTrayEvent reply event : List (Call Addr Window Menu) × Bool).1) :
    call.target = none ∧ call.postsQuit = false := by
  unfold processTrayEvent at h
  split_ifs at h with hright hleft
  · simp only [openContextMenu, insertItem, List.mem_append, List.mem_cons, List.mem_flatMap,
      List.not_mem_nil, or_false] at h
    rcases h with ((rfl | rfl) | ⟨p, -, hp⟩) | rfl | rfl
    · exact ⟨rfl, rfl⟩
    · exact ⟨rfl, rfl⟩
    · rcases hp with rfl | hp
      · exact ⟨rfl, rfl⟩
      · split_ifs at hp with hinserts
        · cases hp
        · rcases List.mem_pair.mp hp with rfl | rfl <;> exact ⟨rfl, rfl⟩
    · exact ⟨rfl, rfl⟩
    · exact ⟨rfl, rfl⟩
  · rcases List.mem_cons.mp h with rfl | h
    · exact ⟨rfl, rfl⟩
    · obtain ⟨item, -, rfl⟩ := List.mem_map.mp h
      exact ⟨rfl, rfl⟩
  · cases h

end SystemTray

namespace Trays

variable {s : Trays Addr Window} {reply : MenuReply Menu} {a : Addr} {hwnd : Option Window}
  {msg : UInt32} {wParam lParam : UInt64} {call : Call Addr Window Menu}

theorem wndProc_of_none (h : s.systemTrays hwnd = none) :
    (s.wndProc reply hwnd msg wParam lParam : List (Call Addr Window Menu)) =
      [.defWindowProc hwnd msg wParam lParam] := by
  unfold wndProc
  rw [h]

theorem mem_wndProc_iff (h : s.systemTrays hwnd = some a) :
    call ∈ s.wndProc reply hwnd msg wParam lParam ↔
      if wmUser < msg then
        call = .processTrayEvent a (loword lParam) ∨
          call ∈ ((s.object a).processTrayEvent reply (loword lParam)).1 ∨
          ((s.object a).processTrayEvent reply (loword lParam) :
              List (Call Addr Window Menu) × Bool).2 = false ∧
            call = .defWindowProc hwnd msg wParam lParam
      else
        msg = wmCommand ∧ call = .processContextMenuEvent a (loword wParam - wmUser.toUInt16)
            (hiword wParam) ∨
          msg = wmDestroy ∧ call = .postQuitMessage 0 ∨
          call = .defWindowProc hwnd msg wParam lParam := by
  unfold wndProc
  rw [h]
  dsimp only
  split_ifs with huser hresult hcommand hfalse hdestroy
  · simp [hresult]
  · simp [hresult]
  · simp [SystemTray.processContextMenuEvent] at hfalse
  · have hdestroy : wmCommand ≠ wmDestroy := by decide
    simp [hcommand, hdestroy]
  · have hcommand : wmDestroy ≠ wmCommand := by decide
    simp [hdestroy, hcommand]
  · simp [hcommand, hdestroy]

theorem postsQuit_mem_wndProc_iff :
    (∃ call ∈ (s.wndProc reply hwnd msg wParam lParam : List (Call Addr Window Menu)),
        call.postsQuit = true) ↔
      s.systemTrays hwnd ≠ none ∧ msg = wmDestroy := by
  have huser : ¬ wmUser < wmDestroy := by decide
  cases hentry : s.systemTrays hwnd with
  | none =>
    rw [wndProc_of_none hentry]
    simp [Call.postsQuit]
  | some a =>
    simp only [mem_wndProc_iff hentry]
    constructor
    · rintro ⟨call, hcall, hquit⟩
      refine ⟨by simp, ?_⟩
      split_ifs at hcall with hmsg
      · rcases hcall with rfl | hcall | ⟨-, rfl⟩
        · cases hquit
        · rw [(SystemTray.of_mem_processTrayEvent hcall).2] at hquit
          cases hquit
        · cases hquit
      · rcases hcall with ⟨-, rfl⟩ | ⟨hdestroy, -⟩ | rfl
        · cases hquit
        · exact hdestroy
        · cases hquit
    · rintro ⟨-, rfl⟩
      refine ⟨.postQuitMessage 0, ?_, rfl⟩
      rw [if_neg huser]
      exact .inr (.inl ⟨rfl, rfl⟩)

theorem debugbreak_mem_wndProc_iff :
    .debugbreak ∈ (s.wndProc reply hwnd msg wParam lParam : List (Call Addr Window Menu)) ↔
      ∃ a, s.systemTrays hwnd = some a ∧ wmUser < msg ∧
        (s.object a).Breaks reply (loword lParam) := by
  cases hentry : s.systemTrays hwnd with
  | none =>
    rw [wndProc_of_none hentry]
    simp
  | some a =>
    rw [mem_wndProc_iff hentry]
    split_ifs with huser
    · simp [huser, SystemTray.debugbreak_mem_processTrayEvent_iff]
    · simp [huser]

theorem target_of_mem_wndProc (h : call ∈ s.wndProc reply hwnd msg wParam lParam) {b : Addr}
    (htarget : call.target = some b) : s.systemTrays hwnd = some b := by
  cases hentry : s.systemTrays hwnd with
  | none =>
    rw [wndProc_of_none hentry, List.mem_singleton] at h
    rw [h] at htarget
    cases htarget
  | some a =>
    rw [mem_wndProc_iff hentry] at h
    split_ifs at h with huser
    · rcases h with rfl | hcall | ⟨-, rfl⟩
      · exact htarget
      · rw [(SystemTray.of_mem_processTrayEvent hcall).1] at htarget
        cases htarget
      · cases htarget
    · rcases h with ⟨-, rfl⟩ | ⟨-, rfl⟩ | rfl
      · exact htarget
      · cases htarget
      · cases htarget

end Trays

/-- The call of `messageThread` or of the constructor that the thread is in. -/
inductive Pc where
  | createWindowEx
  | shellNotifyIcon
  | getMessage
  | dispatchMessage
  | returned
  deriving DecidableEq, Repr

/-- `activations` are those of the window procedure; `quit` tells that a `WM_QUIT` waits. -/
structure MessageThread (Addr Window Menu : Type) where
  pc : Pc
  trays : Trays Addr Window
  activations : Activations (Call Addr Window Menu)
  quit : Bool

/-- `wndProc` starts an activation, which makes its calls one by one and returns. -/
inductive Action (Window Menu : Type) where
  | windowCreated (window : Option Window)
  | iconAdded
  | gotMessage (result : Int32)
  | dispatched
  | wndProc (reply : MenuReply Menu) (hwnd : Option Window) (msg : UInt32) (wParam lParam : UInt64)
  | callReturns
  | wndProcReturns
  | quitPosted

/-- The steps that the thread takes without a new message. -/
def Action.Own : Action Window Menu → Prop
  | .iconAdded | .dispatched | .callReturns | .wndProcReturns => True
  | .gotMessage result => result ≤ 0
  | .windowCreated _ | .wndProc .. | .quitPosted => False

namespace MessageThread

open Trays (wide exitItem menuOpens)

variable [DecidableEq Addr] [DecidableEq Window] (tray : Addr) (items : List SysTrayItem)
  (title : WString)

/-- The thread has called `CreateWindowEx`. -/
def start : MessageThread Addr Window Menu := ⟨.createWindowEx, .start, .start, false⟩

variable (s : MessageThread Addr Window Menu)

def window : Option Window := (s.trays.object tray).hwnd

def Idle : Prop := s.activations.pending = []

instance : Decidable s.Idle :=
  match h : s.activations.pending with
  | [] => isTrue h
  | _ :: _ => isFalse fun hidle => List.cons_ne_nil _ _ (h.symm.trans hidle)

/-- The thread is in a call in which Windows can call the window procedure. -/
def InWindows : Prop :=
  (s.Idle ∧ s.pc ≠ .returned) ∨ ∃ call ∈ s.activations.call, call.InWindows

instance : Decidable s.InWindows := inferInstanceAs (Decidable (_ ∨ _))

/-- `WM_QUIT` waits when `GetMessage` returns 0. -/
def Enabled : Action Window Menu → Prop
  | .windowCreated _ => s.pc = .createWindowEx ∧ s.Idle
  | .iconAdded => s.pc = .shellNotifyIcon ∧ s.Idle
  | .gotMessage result => s.pc = .getMessage ∧ s.Idle ∧ (result = 0 → s.quit)
  | .dispatched => s.pc = .dispatchMessage ∧ s.Idle
  | .wndProc .. => s.InWindows
  | .callReturns => s.activations.perform.isSome
  | .wndProcReturns => s.activations.leave.isSome
  | .quitPosted => True

instance : DecidablePred s.Enabled := fun action => by
  cases action <;> unfold Enabled <;> infer_instance

def exec : Action Window Menu → MessageThread Addr Window Menu
  | .windowCreated window =>
    { s with pc := .shellNotifyIcon, trays := s.trays.construct tray items title window }
  | .iconAdded => { s with pc := .getMessage }
  | .gotMessage result =>
    if result > 0 then { s with pc := .dispatchMessage }
    else { s with pc := .returned, trays := s.trays.destroy tray }
  | .dispatched => { s with pc := .getMessage }
  | .wndProc reply hwnd msg wParam lParam =>
    { s with activations := s.activations.enter (s.trays.wndProc reply hwnd msg wParam lParam) }
  | .callReturns =>
    { s with
      activations := s.activations.perform.getD s.activations
      quit := s.quit || s.activations.call.any Call.postsQuit }
  | .wndProcReturns => { s with activations := s.activations.leave.getD s.activations }
  | .quitPosted => { s with quit := true }

def step (action : Action Window Menu) : Option (MessageThread Addr Window Menu) :=
  if s.Enabled action then some (s.exec tray items title action) else none

variable {tray items title s} {t : MessageThread Addr Window Menu} {action : Action Window Menu}
  {actions : List (Action Window Menu)}

theorem step_eq_some : s.step tray items title action = some t ↔
    s.Enabled action ∧ s.exec tray items title action = t := by
  unfold step
  split_ifs with h <;> simp [h]

/-! ## The tray and the places of the thread -/

section Trays

variable (tray items title) (window : Option Window) (hwnd : Option Window)

def constructed : Trays Addr Window := Trays.start.construct tray items title window

def traysAt : Pc → Trays Addr Window
  | .createWindowEx => .start
  | .shellNotifyIcon | .getMessage | .dispatchMessage => constructed tray items title window
  | .returned => (constructed tray items title window).destroy tray

theorem constructed_object : (constructed tray items title window).object tray =
    { title, items, hwnd := window, callId := 1 } := by
  unfold constructed Trays.construct Trays.place
  exact Function.update_self ..

theorem constructed_live : (constructed tray items title window).live = {tray} := rfl

theorem constructed_systemTrays : (constructed tray items title window).systemTrays hwnd =
    if hwnd = window then some tray else none := by
  unfold constructed Trays.construct Trays.place
  exact Function.update_apply ..

/-- The destructor leaves an entry that a failed `CreateWindowEx` has made under null. -/
theorem destroyed_systemTrays :
    ((constructed tray items title window).destroy tray).systemTrays hwnd =
      if hwnd = none ∧ window = none then some tray else none := by
  unfold Trays.destroy
  rw [constructed_object]
  dsimp only
  by_cases hnull : window = none
  · rw [if_neg (not_not.mpr hnull), constructed_systemTrays]
    simp [hnull]
  · rw [if_pos hnull, Function.update_apply, constructed_systemTrays]
    by_cases hsame : hwnd = window <;> simp [hsame, hnull]

end Trays

/-- The trays follow the place of the thread, which returns when nothing is in progress. -/
structure Shape (tray : Addr) (items : List SysTrayItem) (title : WString)
    (s : MessageThread Addr Window Menu) : Prop where
  trays : s.trays = traysAt tray items title (s.window tray) s.pc
  idle : s.pc = .returned → s.Idle

theorem shape_start : (start : MessageThread Addr Window Menu).Shape tray items title :=
  ⟨rfl, by simp [start]⟩

theorem Shape.not_returned (h : s.Shape tray items title) (hwindows : s.InWindows) :
    s.pc ≠ .returned := by
  rcases hwindows with ⟨-, hpc⟩ | ⟨call, hcall, -⟩
  · exact hpc
  · intro hpc
    obtain ⟨calls, rest, hpending⟩ := Activations.call_eq_some.mp hcall
    exact List.cons_ne_nil _ _ (hpending.symm.trans (h.idle hpc))

theorem Shape.of_activations (h : s.Shape tray items title) (hpc : t.pc = s.pc)
    (htrays : t.trays = s.trays) (hidle : s.pc = .returned → t.Idle) :
    t.Shape tray items title := by
  constructor
  · unfold window
    rw [hpc, htrays]
    exact h.trays
  · intro hreturned
    exact hidle (hpc ▸ hreturned)

theorem Shape.step (h : s.Shape tray items title)
    (hstep : s.step tray items title action = some t) : t.Shape tray items title := by
  obtain ⟨henabled, rfl⟩ := step_eq_some.mp hstep
  cases action with
  | windowCreated window =>
    have htrays : s.trays = .start := by
      rw [h.trays, henabled.1]
      rfl
    have hwindow : (s.exec tray items title (.windowCreated window)).window tray = window := by
      unfold MessageThread.window exec
      rw [htrays]
      exact congrArg SystemTray.hwnd (constructed_object tray items title window)
    constructor
    · rw [hwindow]
      unfold exec
      rw [htrays]
      rfl
    · intro hpc
      cases hpc
  | iconAdded =>
    constructor
    · have htrays := h.trays
      rw [henabled.1] at htrays
      exact htrays
    · intro hpc
      cases hpc
  | gotMessage result =>
    have htrays := h.trays
    rw [henabled.1] at htrays
    simp only [exec]
    split_ifs with hresult
    · exact ⟨htrays, by simp⟩
    · constructor
      · unfold MessageThread.window at htrays ⊢
        exact congrArg (fun trays => trays.destroy tray) htrays
      · intro _
        exact henabled.2.1
  | dispatched =>
    constructor
    · have htrays := h.trays
      rw [henabled.1] at htrays
      exact htrays
    · intro hpc
      cases hpc
  | wndProc reply hwnd msg wParam lParam =>
    exact h.of_activations rfl rfl fun hpc => absurd hpc (h.not_returned henabled)
  | callReturns =>
    refine h.of_activations rfl rfl ?_
    intro hpc
    obtain ⟨a, ha⟩ := Option.isSome_iff_exists.mp henabled
    obtain ⟨c, calls, rest, hpending, -⟩ := Activations.perform_eq_some.mp ha
    exact absurd (hpending.symm.trans (h.idle hpc)) (List.cons_ne_nil _ _)
  | wndProcReturns =>
    refine h.of_activations rfl rfl ?_
    intro hpc
    obtain ⟨a, ha⟩ := Option.isSome_iff_exists.mp henabled
    obtain ⟨rest, hpending, -⟩ := Activations.leave_eq_some.mp ha
    exact absurd (hpending.symm.trans (h.idle hpc)) (List.cons_ne_nil _ _)
  | quitPosted => exact h.of_activations rfl rfl h.idle

theorem shape_of_run (hrun : run (step tray items title) start actions = some s) :
    s.Shape tray items title :=
  run_invariant (fun _ _ _ h hstep => h.step hstep) shape_start hrun

/-! ## The calls of a run -/

/-- A message reached the window procedure after `CreateWindowEx` had returned its window. -/
def Received (actions : List (Action Window Menu))
    (which : MenuReply Menu → UInt32 → UInt64 → Prop) : Prop :=
  ∃ before hwnd reply msg wParam lParam after,
    actions = before ++ .wndProc reply hwnd msg wParam lParam :: after ∧
      .windowCreated hwnd ∈ before ∧ which reply msg lParam

def answer (s : MessageThread Addr Window Menu) : Action Window Menu →
    List (Call Addr Window Menu)
  | .wndProc reply hwnd msg wParam lParam => s.trays.wndProc reply hwnd msg wParam lParam
  | _ => []

theorem total_of_step (hstep : s.step tray items title action = some t) :
    t.activations.total = s.activations.total + (s.answer action : Multiset _) := by
  obtain ⟨henabled, rfl⟩ := step_eq_some.mp hstep
  cases action with
  | windowCreated | iconAdded | dispatched | quitPosted => exact (add_zero _).symm
  | gotMessage result =>
    simp only [exec]
    split_ifs <;> exact (add_zero _).symm
  | wndProc reply hwnd msg wParam lParam => exact Activations.total_enter _ _
  | callReturns =>
    obtain ⟨a, ha⟩ := Option.isSome_iff_exists.mp henabled
    simp only [exec, ha, Option.getD_some]
    exact (Activations.total_of_perform ha).trans (add_zero _).symm
  | wndProcReturns =>
    obtain ⟨a, ha⟩ := Option.isSome_iff_exists.mp henabled
    simp only [exec, ha, Option.getD_some]
    exact (Activations.total_of_leave ha).trans (add_zero _).symm

/-- Each call of the run belongs to the answer to a message. -/
theorem mem_total_iff {call : Call Addr Window Menu}
    (hrun : run (step tray items title) start actions = some s) :
    call ∈ s.activations.total ↔ ∃ before action after u, actions = before ++ action :: after ∧
      run (step tray items title) start before = some u ∧ call ∈ u.answer action := by
  apply run_invariant_of_history _ _ hrun
  · intro actions u action v hu ih hv
    rw [total_of_step hv, Multiset.mem_add, Multiset.mem_coe, ih]
    constructor
    · rintro (⟨before, first, after, w, rfl, hw, hcall⟩ | hcall)
      · exact ⟨before, first, after ++ [action], w, by simp, hw, hcall⟩
      · exact ⟨actions, action, [], u, rfl, hu, hcall⟩
    · rintro ⟨before, first, after, w, heq, hw, hcall⟩
      rcases List.eq_nil_or_concat after with rfl | ⟨after, last, rfl⟩
      · obtain ⟨rfl, hlast⟩ := List.append_inj' heq rfl
        cases hlast
        rw [hw] at hu
        cases hu
        exact .inr hcall
      · have hsplit : actions ++ [action] = (before ++ first :: after) ++ [last] := by
          rw [heq]
          simp
        obtain ⟨rfl, -⟩ := List.append_inj' hsplit rfl
        exact .inl ⟨before, first, after, w, rfl, hw, hcall⟩
  · simp [start]

theorem windowCreated_mem_iff (hrun : run (step tray items title) start actions = some s)
    (hwnd : Option Window) :
    .windowCreated hwnd ∈ actions ↔ s.pc ≠ .createWindowEx ∧ hwnd = s.window tray := by
  apply run_invariant_of_history _ (by simp [start]) hrun
  intro actions u action v hu ih hv
  have hshape := shape_of_run hu
  obtain ⟨henabled, rfl⟩ := step_eq_some.mp hv
  rw [List.mem_append, ih, List.mem_singleton]
  cases action with
  | windowCreated window =>
    have htrays : u.trays = .start := by
      rw [hshape.trays, henabled.1]
      rfl
    have hwindow : (u.exec tray items title (.windowCreated window)).window tray = window := by
      unfold MessageThread.window exec
      rw [htrays]
      exact congrArg SystemTray.hwnd (constructed_object tray items title window)
    rw [hwindow]
    simp [henabled.1, exec]
  | iconAdded | dispatched =>
    have hpc := henabled.1
    simp [exec, hpc, window]
  | gotMessage result =>
    have hpc := henabled.1
    simp only [exec]
    split_ifs <;> simp [hpc, window, Trays.destroy]
  | wndProc | callReturns | wndProcReturns | quitPosted => simp [exec, window]

/-- The window procedure finds the tray from the return of `CreateWindowEx` on. -/
theorem trays_of_received {u : MessageThread Addr Window Menu} {before after :
      List (Action Window Menu)} {reply : MenuReply Menu} {hwnd : Option Window} {msg : UInt32}
    {wParam lParam : UInt64}
    (hrun : run (step tray items title) start
      (before ++ .wndProc reply hwnd msg wParam lParam :: after) = some s)
    (hu : run (step tray items title) start before = some u) :
    (.windowCreated hwnd ∈ before → u.trays = constructed tray items title hwnd) ∧
      (.windowCreated hwnd ∉ before → u.trays.systemTrays hwnd = none) := by
  have hshape := shape_of_run hu
  have hcreated := windowCreated_mem_iff hu hwnd
  rw [run_append, hu, Option.bind_some] at hrun
  obtain ⟨v, hv, -⟩ := run_cons_eq_some.mp hrun
  have hpc : u.pc ≠ .returned := hshape.not_returned (step_eq_some.mp hv).1
  have htrays := hshape.trays
  constructor
  · intro hmem
    obtain ⟨hcreate, hwindow⟩ := hcreated.mp hmem
    rw [htrays, ← hwindow]
    cases hplace : u.pc with
    | createWindowEx => exact absurd hplace hcreate
    | shellNotifyIcon | getMessage | dispatchMessage => rfl
    | returned => exact absurd hplace hpc
  · intro hmem
    rw [htrays]
    cases hplace : u.pc with
    | createWindowEx => rfl
    | shellNotifyIcon | getMessage | dispatchMessage =>
      have hwindow : hwnd ≠ u.window tray := fun h => hmem (hcreated.mpr ⟨by simp [hplace], h⟩)
      exact (constructed_systemTrays ..).trans (if_neg hwindow)
    | returned => exact absurd hplace hpc

theorem exists_mem_total_iff {kind : Call Addr Window Menu → Prop}
    {which : MenuReply Menu → UInt32 → UInt64 → Prop}
    (hnone : ∀ hwnd msg wParam lParam, ¬ kind (.defWindowProc hwnd msg wParam lParam))
    (hkind : ∀ window reply msg wParam lParam,
      (∃ call ∈ (constructed tray items title window).wndProc reply window msg wParam lParam,
        kind call) ↔ which reply msg lParam)
    (hrun : run (step tray items title) start actions = some s) :
    (∃ call ∈ s.activations.total, kind call) ↔ Received actions which := by
  constructor
  · rintro ⟨call, hcall, hkindcall⟩
    obtain ⟨before, action, after, u, rfl, hu, hanswer⟩ := (mem_total_iff hrun).mp hcall
    cases action with
    | wndProc reply hwnd msg wParam lParam =>
      obtain ⟨hfound, hmissed⟩ := trays_of_received hrun hu
      by_cases hcreated : .windowCreated hwnd ∈ before
      · refine ⟨before, hwnd, reply, msg, wParam, lParam, after, rfl, hcreated, ?_⟩
        rw [answer, hfound hcreated] at hanswer
        exact (hkind hwnd reply msg wParam lParam).mp ⟨call, hanswer, hkindcall⟩
      · rw [answer, Trays.wndProc_of_none (hmissed hcreated), List.mem_singleton] at hanswer
        rw [hanswer] at hkindcall
        exact absurd hkindcall (hnone hwnd msg wParam lParam)
    | _ => cases hanswer
  · rintro ⟨before, hwnd, reply, msg, wParam, lParam, after, rfl, hcreated, hwhich⟩
    obtain ⟨u, hu, -⟩ := Option.bind_eq_some_iff.mp ((run_append before _).symm.trans hrun)
    obtain ⟨call, hcall, hkindcall⟩ := (hkind hwnd reply msg wParam lParam).mpr hwhich
    refine ⟨call, (mem_total_iff hrun).mpr ⟨before, _, after, u, rfl, hu, ?_⟩, hkindcall⟩
    rw [answer, (trays_of_received hrun hu).1 hcreated]
    exact hcall

theorem received_debugbreak_iff (hrun : run (step tray items title) start actions = some s) :
    .debugbreak ∈ s.activations.total ↔ Received actions fun reply msg lParam =>
      wmUser < msg ∧ (loword lParam = wmLbuttonup ∨
        loword lParam = wmRbuttondown ∧ ∃ i < items.length, reply.inserts i = false) := by
  have hexists : .debugbreak ∈ s.activations.total ↔
      ∃ call ∈ s.activations.total, call = .debugbreak := by simp
  rw [hexists]
  refine exists_mem_total_iff (by simp) ?_ hrun
  intro window reply msg wParam lParam
  simp only [exists_eq_right, Trays.debugbreak_mem_wndProc_iff, constructed_systemTrays]
  simp [constructed_object, SystemTray.Breaks]

theorem received_postsQuit_iff (hrun : run (step tray items title) start actions = some s) :
    (∃ call ∈ s.activations.total, call.postsQuit = true) ↔
      Received actions fun _ msg _ => msg = wmDestroy := by
  refine exists_mem_total_iff (by simp [Call.postsQuit]) ?_ hrun
  intro window reply msg wParam lParam
  rw [Trays.postsQuit_mem_wndProc_iff, constructed_systemTrays]
  simp

theorem quit_iff_of_run (hrun : run (step tray items title) start actions = some s) :
    s.quit = true ↔ .quitPosted ∈ actions ∨ ∃ call ∈ s.activations.made, call.postsQuit = true := by
  apply run_invariant_of_history _ (by simp [start, Activations.start]) hrun
  intro actions u action v hu ih hv
  obtain ⟨henabled, rfl⟩ := step_eq_some.mp hv
  rw [List.mem_append, List.mem_singleton]
  cases action with
  | windowCreated | iconAdded | dispatched | wndProc => simpa [exec, Activations.enter] using ih
  | gotMessage result =>
    simp only [exec]
    split_ifs <;> simpa using ih
  | callReturns =>
    obtain ⟨a, ha⟩ := Option.isSome_iff_exists.mp henabled
    obtain ⟨c, calls, rest, hpending, rfl⟩ := Activations.perform_eq_some.mp ha
    have hcall : u.activations.call = some c :=
      Activations.call_eq_some.mpr ⟨calls, rest, hpending⟩
    simp only [exec, ha, hcall, Option.getD_some, Option.any_some, Bool.or_eq_true, ih]
    simp [or_assoc, or_and_right, exists_or]
  | wndProcReturns =>
    obtain ⟨a, ha⟩ := Option.isSome_iff_exists.mp henabled
    obtain ⟨rest, hpending, rfl⟩ := Activations.leave_eq_some.mp ha
    simpa [exec, ha] using ih
  | quitPosted => simp [exec]

/-- The loop has ended: `GetMessage` has failed, or returned 0 for a `WM_QUIT`. -/
theorem returned_of_run (hrun : run (step tray items title) start actions = some s)
    (hpc : s.pc = .returned) : (∃ result < 0, .gotMessage result ∈ actions) ∨ s.quit = true := by
  revert hpc
  apply run_invariant_of_history _ (by simp [start]) hrun
  intro actions u action v hu ih hv hreturned
  obtain ⟨henabled, rfl⟩ := step_eq_some.mp hv
  have hold : u.pc = .returned → (∃ result < 0, .gotMessage result ∈ actions ++ [action]) ∨
      u.quit = true := by
    intro hpc
    rcases ih hpc with ⟨result, hlt, hmem⟩ | hquit
    · exact .inl ⟨result, hlt, List.mem_append_left _ hmem⟩
    · exact .inr hquit
  cases action with
  | windowCreated | iconAdded | dispatched => cases hreturned
  | gotMessage result =>
    simp only [exec] at hreturned ⊢
    split_ifs at hreturned ⊢ with hpos
    rcases Int32.lt_or_eq_of_le (Int32.not_lt.mp hpos) with hneg | rfl
    · exact .inl ⟨result, hneg, by simp⟩
    · exact .inr (henabled.2.2 rfl)
  | wndProc | wndProcReturns => exact hold hreturned
  | callReturns =>
    rcases hold hreturned with hfailed | hquit
    · exact .inl hfailed
    · exact .inr (by simp [exec, hquit])
  | quitPosted => exact .inr rfl

/-- The items of the tray that `messageThread` constructs. -/
def messageThreadItems : List SysTrayItem :=
  [⟨.text, 1, false, wide "Open"⟩, ⟨.separator, 0, false, []⟩, exitItem]

/-- A click with the right button. While its menu is open `Exit` is chosen and the window
destroyed, and `PostQuitMessage` is called. -/
def destroyedInMenu : List (Action ℕ ℕ) :=
  [.windowCreated (some 5), .iconAdded, .gotMessage 1,
      .wndProc menuOpens (some 5) 0x401 0 wmRbuttondown.toUInt64] ++
    List.replicate 7 .callReturns ++
    [.wndProc menuOpens (some 5) wmCommand 2 0, .callReturns, .callReturns, .wndProcReturns,
      .wndProc menuOpens (some 5) wmDestroy 0 0, .callReturns]

/-- The two activations return, and `GetMessage` returns 0. -/
def unwound : List (Action ℕ ℕ) :=
  [.callReturns, .wndProcReturns, .callReturns, .wndProcReturns, .dispatched, .gotMessage 0]

/-- The step of `messageThread`, whose object is at address 0. -/
def stepMain : MessageThread ℕ ℕ ℕ → Action ℕ ℕ → Option (MessageThread ℕ ℕ ℕ) :=
  step 0 messageThreadItems (wide "Audio Control")

/-- The thread returns only when `GetMessage` fails, when somebody else posts `WM_QUIT`, or
when `WM_DESTROY` has reached the window of the tray. With nothing in progress, `WM_QUIT`
waits exactly when one of the last two has happened. -/
theorem returns_only_after_destroy (actions : List (Action Window Menu))
    (hrun : run (step tray items title) start actions = some s) :
    (s.pc = .returned → (∃ result < 0, .gotMessage result ∈ actions) ∨
        .quitPosted ∈ actions ∨ Received actions fun _ msg _ => msg = wmDestroy) ∧
      (s.Idle → (s.quit = true ↔
        .quitPosted ∈ actions ∨ Received actions fun _ msg _ => msg = wmDestroy)) := by
  have hquit := quit_iff_of_run hrun
  have hreceived := received_postsQuit_iff hrun
  have hmade : (∃ call ∈ s.activations.made, call.postsQuit = true) →
      Received actions fun _ msg _ => msg = wmDestroy := by
    rintro ⟨call, hcall, hposts⟩
    exact hreceived.mp ⟨call, Activations.mem_total_iff.mpr (.inl hcall), hposts⟩
  constructor
  · intro hpc
    rcases returned_of_run hrun hpc with hfailed | hwaits
    · exact .inl hfailed
    · exact .inr ((hquit.mp hwaits).imp_right hmade)
  · intro hidle
    rw [hquit, ← hreceived]
    simp only [Activations.mem_total_iff_of_idle hidle]

theorem returns_only_after_destroy_unwound :
    ∃ s, run stepMain start (destroyedInMenu ++ unwound) = some s ∧ s.pc = .returned ∧
      ((∃ result < 0, .gotMessage result ∈ destroyedInMenu ++ unwound) ∨
        .quitPosted ∈ destroyedInMenu ++ unwound ∨
          Received (destroyedInMenu ++ unwound) fun _ msg _ => msg = wmDestroy) := by
  have h : (run stepMain start (destroyedInMenu ++ unwound)).any
      (fun s => decide (s.pc = .returned)) = true := by decide +kernel
  obtain ⟨s, hs, hpc⟩ := (Option.any_eq_true _ _).mp h
  exact ⟨s, hs, of_decide_eq_true hpc,
    (returns_only_after_destroy _ hs).1 (of_decide_eq_true hpc)⟩

/-- The thread is in `__debugbreak`, or has been, only after a click with the left button
has reached the tray, or one with the right button for which an item cannot be inserted
in the menu, and each such click leads there. -/
theorem breaks_iff (actions : List (Action Window Menu))
    (hrun : run (step tray items title) start actions = some s) :
    (s.activations.call = some .debugbreak ∨ .debugbreak ∈ s.activations.made →
        Received actions fun reply msg lParam => wmUser < msg ∧ (loword lParam = wmLbuttonup ∨
          loword lParam = wmRbuttondown ∧ ∃ i < items.length, reply.inserts i = false)) ∧
      (s.Idle → (Received actions fun reply msg lParam => wmUser < msg ∧
          (loword lParam = wmLbuttonup ∨
            loword lParam = wmRbuttondown ∧ ∃ i < items.length, reply.inserts i = false)) →
        .debugbreak ∈ s.activations.made) := by
  rw [← received_debugbreak_iff hrun, Activations.mem_total_iff]
  constructor
  · rintro (hcall | hmade)
    · obtain ⟨calls, rest, hpending⟩ := Activations.call_eq_some.mp hcall
      exact .inr ⟨.debugbreak :: calls, by simp [hpending], List.mem_cons_self⟩
    · exact .inl hmade
  · intro hidle hmem
    rw [← Activations.mem_total_iff] at hmem
    exact (Activations.mem_total_iff_of_idle hidle).mp hmem

/-- A click with the left button. -/
theorem breaks_iff_leftClick :
    Received ([.windowCreated (some 5), .iconAdded, .gotMessage 1,
        .wndProc menuOpens (some 5) 0x401 0 0x202, .callReturns] : List (Action ℕ ℕ))
      fun reply msg lParam => wmUser < msg ∧ (loword lParam = wmLbuttonup ∨
        loword lParam = wmRbuttondown ∧
          ∃ i < messageThreadItems.length, reply.inserts i = false) := by
  have h : (run stepMain start [.windowCreated (some 5), .iconAdded, .gotMessage 1,
      .wndProc menuOpens (some 5) 0x401 0 0x202, .callReturns]).any
        (fun s => decide (s.activations.call = some .debugbreak)) = true := by decide +kernel
  obtain ⟨s, hs, hcall⟩ := (Option.any_eq_true _ _).mp h
  exact (breaks_iff _ hs).1 (.inl (of_decide_eq_true hcall))

/-! ## The tray outlives the activations -/

theorem Shape.constructed (h : s.Shape tray items title) (hcreated : s.pc ≠ .createWindowEx)
    (hpc : s.pc ≠ .returned) : s.trays = constructed tray items title (s.window tray) := by
  have htrays := h.trays
  cases hplace : s.pc with
  | createWindowEx => exact absurd hplace hcreated
  | shellNotifyIcon | getMessage | dispatchMessage =>
    rw [hplace] at htrays
    exact htrays
  | returned => exact absurd hplace hpc

/-- A call is `DefWindowProc`, or made after `CreateWindowEx` by the tray and nothing else. -/
theorem of_mem_total (hrun : run (step tray items title) start actions = some s)
    {call : Call Addr Window Menu} (hcall : call ∈ s.activations.total) :
    (∃ hwnd msg wParam lParam, call = .defWindowProc hwnd msg wParam lParam) ∨
      s.pc ≠ .createWindowEx ∧ ∀ other ∈ call.target, other = tray := by
  obtain ⟨before, action, after, u, rfl, hu, hanswer⟩ := (mem_total_iff hrun).mp hcall
  cases action with
  | wndProc reply hwnd msg wParam lParam =>
    obtain ⟨hfound, hmissed⟩ := trays_of_received hrun hu
    by_cases hcreated : .windowCreated hwnd ∈ before
    · right
      constructor
      · exact ((windowCreated_mem_iff hrun hwnd).mp (List.mem_append_left _ hcreated)).1
      · intro other hother
        have hentry := Trays.target_of_mem_wndProc hanswer hother
        rw [hfound hcreated, constructed_systemTrays, if_pos rfl] at hentry
        exact (Option.some.inj hentry).symm
    · rw [answer, Trays.wndProc_of_none (hmissed hcreated), List.mem_singleton] at hanswer
      exact .inl ⟨hwnd, msg, wParam, lParam, hanswer⟩
  | _ => cases hanswer

/-- However deeply the window procedure is nested, each call that an activation has still to
make is `DefWindowProc` or made while the tray lives, is entered under its window and has the
items and the title it was constructed with. No method is ever called on another object,
and the destructor runs only when no activation is in progress. -/
theorem tray_outlives_callbacks (actions : List (Action Window Menu))
    (hrun : run (step tray items title) start actions = some s) :
    (∀ calls ∈ s.activations.pending, ∀ call ∈ calls,
        (∃ hwnd msg wParam lParam, call = .defWindowProc hwnd msg wParam lParam) ∨
          s.trays.live = {tray} ∧ s.trays.systemTrays (s.window tray) = some tray ∧
            (s.trays.object tray).items = items ∧ (s.trays.object tray).title = title) ∧
      (∀ call ∈ s.activations.total, ∀ other ∈ call.target, other = tray) ∧
      (s.pc = .returned → s.Idle) := by
  have hshape := shape_of_run hrun
  refine ⟨?_, ?_, hshape.idle⟩
  · intro calls hcalls call hcall
    have hpc : s.pc ≠ .returned := by
      intro hpc
      rw [hshape.idle hpc] at hcalls
      cases hcalls
    have htotal : call ∈ s.activations.total :=
      Activations.mem_total_iff.mpr (.inr ⟨calls, hcalls, hcall⟩)
    refine (of_mem_total hrun htotal).imp_right ?_
    rintro ⟨hcreated, -⟩
    rw [hshape.constructed hcreated hpc, constructed_systemTrays, constructed_object]
    exact ⟨constructed_live .., if_pos rfl, rfl, rfl⟩
  · intro call hcall other hother
    rcases of_mem_total hrun hcall with ⟨hwnd, msg, wParam, lParam, rfl⟩ | ⟨-, htarget⟩
    · cases hother
    · exact htarget other hother

/-- The window is destroyed while a menu is open: two activations are in progress. -/
theorem tray_outlives_callbacks_destroyedInMenu :
    ∃ s, run stepMain start destroyedInMenu = some s ∧ s.activations.pending.length = 2 ∧
      ∀ calls ∈ s.activations.pending, ∀ call ∈ calls,
        (∃ hwnd msg wParam lParam, call = .defWindowProc hwnd msg wParam lParam) ∨
          s.trays.live = {0} ∧ s.trays.systemTrays (s.window 0) = some 0 ∧
            (s.trays.object 0).items = messageThreadItems ∧
            (s.trays.object 0).title = wide "Audio Control" := by
  have h : (run stepMain start destroyedInMenu).any
      (fun s => decide (s.activations.pending.length = 2)) = true := by decide +kernel
  obtain ⟨s, hs, hlength⟩ := (Option.any_eq_true _ _).mp h
  exact ⟨s, hs, of_decide_eq_true hlength, (tray_outlives_callbacks _ hs).1⟩

/-! ## The end of the thread -/

/-- The calls and returns in progress, and those of the thread itself. -/
def work (s : MessageThread Addr Window Menu) : ℕ :=
  s.activations.left + match s.pc with
    | .createWindowEx => 3
    | .shellNotifyIcon | .dispatchMessage => 2
    | .getMessage => 1
    | .returned => 0

theorem work_of_step (hown : action.Own) (hstep : s.step tray items title action = some t) :
    t.work < s.work := by
  obtain ⟨henabled, rfl⟩ := step_eq_some.mp hstep
  cases action with
  | windowCreated | wndProc | quitPosted => exact hown.elim
  | iconAdded | dispatched =>
    have hpc := henabled.1
    simp [work, exec, hpc]
  | gotMessage result =>
    have hpc := henabled.1
    have hnot : ¬ result > 0 := Int32.not_lt.mpr hown
    simp [work, exec, hpc, hnot]
  | callReturns =>
    obtain ⟨a, ha⟩ := Option.isSome_iff_exists.mp henabled
    have hleft := Activations.left_of_perform ha
    simp only [work, exec, ha, Option.getD_some]
    omega
  | wndProcReturns =>
    obtain ⟨a, ha⟩ := Option.isSome_iff_exists.mp henabled
    have hleft := Activations.left_of_leave ha
    simp only [work, exec, ha, Option.getD_some]
    omega

/-- Once `WM_QUIT` waits the thread goes on by itself until it has returned. -/
theorem exists_own_step (hcreated : s.pc ≠ .createWindowEx) (hquit : s.quit = true)
    (hpc : s.pc ≠ .returned) :
    ∃ (action : Action Window Menu) (t : MessageThread Addr Window Menu),
      action.Own ∧ s.step tray items title action = some t := by
  by_cases hidle : s.Idle
  · cases hplace : s.pc with
    | createWindowEx => exact absurd hplace hcreated
    | shellNotifyIcon => exact ⟨.iconAdded, _, trivial, step_eq_some.mpr ⟨⟨hplace, hidle⟩, rfl⟩⟩
    | getMessage =>
      exact ⟨.gotMessage 0, _, Int32.le_refl 0,
        step_eq_some.mpr ⟨⟨hplace, hidle, fun _ => hquit⟩, rfl⟩⟩
    | dispatchMessage => exact ⟨.dispatched, _, trivial, step_eq_some.mpr ⟨⟨hplace, hidle⟩, rfl⟩⟩
    | returned => exact absurd hplace hpc
  · rcases Activations.perform_or_leave hidle with ⟨a, ha⟩ | ⟨a, ha⟩
    · exact ⟨.callReturns, _, trivial, step_eq_some.mpr ⟨Option.isSome_iff_exists.mpr ⟨a, ha⟩, rfl⟩⟩
    · exact ⟨.wndProcReturns, _, trivial,
        step_eq_some.mpr ⟨Option.isSome_iff_exists.mpr ⟨a, ha⟩, rfl⟩⟩

/-- The tray has been constructed with this window handle, and `WM_QUIT` waits. -/
structure Closing (tray : Addr) (window : Option Window) (s : MessageThread Addr Window Menu) :
    Prop where
  created : s.pc ≠ .createWindowEx
  quit : s.quit = true
  window : s.window tray = window

theorem Closing.step {window : Option Window} (h : s.Closing tray window) (hown : action.Own)
    (hstep : s.step tray items title action = some t) : t.Closing tray window := by
  obtain ⟨henabled, rfl⟩ := step_eq_some.mp hstep
  cases action with
  | windowCreated | wndProc | quitPosted => exact hown.elim
  | iconAdded | dispatched => exact ⟨by simp [exec], h.quit, h.window⟩
  | gotMessage result =>
    simp only [exec]
    split_ifs
    · exact ⟨by simp, h.quit, h.window⟩
    · exact ⟨by simp, h.quit, h.window⟩
  | callReturns => exact ⟨h.created, by simp [exec, h.quit], h.window⟩
  | wndProcReturns => exact ⟨h.created, h.quit, h.window⟩

/-- After `WM_QUIT` has been posted to a thread whose `CreateWindowEx` has returned, no
schedule of its own steps is longer than the work in progress, and each ends with the
thread returned: the object is destroyed and the registry is empty, but for the entry
under null of a tray whose window could not be created. -/
theorem shuts_down (actions own : List (Action Window Menu)) {t : MessageThread Addr Window Menu}
    (hrun : run (step tray items title) start actions = some s) (hcreated : s.pc ≠ .createWindowEx)
    (hquit : s.quit = true) (hown : ∀ action ∈ own, action.Own)
    (hsteps : run (step tray items title) s own = some t) :
    own.length ≤ s.work ∧
      ((∀ (action : Action Window Menu), action.Own → t.step tray items title action = none) →
        t.pc = .returned ∧ t.trays.live = ∅ ∧ ∀ hwnd, t.trays.systemTrays hwnd =
          if hwnd = none ∧ s.window tray = none then some tray else none) := by
  have hmeets : Meets (step tray items title) (fun _ action => action.Own) s own :=
    meets_of_forall (fun action haction _ => hown action haction) s
  have hclosing : s.Closing tray (s.window tray) := ⟨hcreated, hquit, rfl⟩
  have hend : t.Closing tray (s.window tray) :=
    run_invariant_of_meets (fun _ _ _ h hown hstep => h.step hown hstep) hclosing hmeets hsteps
  have hlength : own.length + t.work ≤ s.work :=
    length_add_le_of_run work
      (fun _ _ _ (_ : True) hown hstep => ⟨trivial, work_of_step hown hstep⟩) trivial hmeets hsteps
  refine ⟨by omega, ?_⟩
  intro hstuck
  have hpc : t.pc = .returned := by
    by_contra hpc
    obtain ⟨action, u, hown, hstep⟩ := exists_own_step hend.created hend.quit hpc
    rw [hstuck action hown] at hstep
    cases hstep
  have htrays := (shape_of_run (run_trans hrun hsteps)).trays
  rw [hpc, hend.window] at htrays
  rw [htrays]
  refine ⟨hpc, ?_, fun hwnd => destroyed_systemTrays tray items title _ hwnd⟩
  exact Finset.erase_singleton tray

theorem shuts_down_unwound :
    ∃ s t, run stepMain start destroyedInMenu = some s ∧ run stepMain s unwound = some t ∧
      unwound.length ≤ s.work ∧ t.pc = .returned := by
  have h : (run stepMain start destroyedInMenu).any (fun s =>
      decide (s.pc ≠ .createWindowEx) && s.quit &&
        (run stepMain s unwound).any fun t => decide (t.pc = .returned)) = true := by
    decide +kernel
  simp only [Option.any_eq_true, Bool.and_eq_true, decide_eq_true_eq] at h
  obtain ⟨s, hs, ⟨hcreated, hquit⟩, t, ht, hpc⟩ := h
  have hown : ∀ action ∈ unwound, action.Own := by
    simp [unwound, Action.Own]
  exact ⟨s, t, hs, ht, (shuts_down _ _ hs hcreated hquit hown ht).1, hpc⟩

end MessageThread
end AudioCtrl.Tray
