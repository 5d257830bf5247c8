import AudioCtrl.Audio.TreeReferences
import AudioCtrl.Audio.Handles
import AudioCtrl.Tray.SystemTray

/-!
# The handles of the whole program

Reloads and right-clicks on the tray alternate in any order while the program runs.
A reload opens the processes of its sessions, a right-click creates a popup that
nobody destroys. A run closes what it opened if and only if each of its operations
does so.
-/

namespace AudioCtrl

open Audio Tray Bookkeeping PartialRun

/-- The objects of both subsystems; `calls` are those of the tray. -/
structure Process (Obj Handle Volume Addr Window Menu : Type) where
  deviceEnumerator : DeviceEnumerator Obj
  world : World Obj Handle Volume
  calls : List (Call Addr Window Menu)

inductive Operation (Obj Handle Window Menu : Type) where
  | reload (reply : CollectionReply Obj Handle)
  | rightClick (tray : SystemTray Window) (reply : MenuReply Menu)

variable {Obj Handle Volume Addr Window Menu : Type}

/-! ## Popup menus -/

namespace Tray.Call

def createdPopup : Call Addr Window Menu → Option Menu
  | .createPopupMenu popup => popup
  | _ => none

def destroyedPopup : Call Addr Window Menu → Option Menu
  | .destroyMenu popup => popup
  | _ => none

end Tray.Call

/-- The menus that `CreatePopupMenu` returned, and those that were destroyed. -/
def popups (calls : List (Call Addr Window Menu)) : Ledger Menu :=
  (calls.filterMap Call.createdPopup, calls.filterMap Call.destroyedPopup)

theorem popups_append (calls calls' : List (Call Addr Window Menu)) :
    popups (calls ++ calls') = popups calls + popups calls' := by
  unfold popups
  rw [List.filterMap_append, List.filterMap_append, ← Multiset.coe_add, ← Multiset.coe_add]
  rfl

theorem popups_insertItem (popup : Option Menu) (item : SysTrayItem) (inserts : Bool) :
    popups (SystemTray.insertItem popup item inserts : List (Call Addr Window Menu)) = 0 := by
  unfold SystemTray.insertItem
  cases inserts <;> rfl

theorem popups_flatMap_eq_zero {ι : Type} {f : ι → List (Call Addr Window Menu)} {l : List ι}
    (h : ∀ i ∈ l, popups (f i) = 0) : popups (l.flatMap f) = 0 := by
  induction l with
  | nil => rfl
  | cons i l ih =>
    obtain ⟨hi, hl⟩ := List.forall_mem_cons.mp h
    rw [List.flatMap_cons, popups_append, hi, ih hl, add_zero]

theorem popups_openContextMenu (this : SystemTray Window) (reply : MenuReply Menu) :
    popups (this.openContextMenu reply : List (Call Addr Window Menu)) =
      ((reply.popup.toList : Multiset Menu), 0) := by
  have hitems : popups ((this.items.zipIdx.flatMap fun p =>
      SystemTray.insertItem reply.popup p.1 (reply.inserts p.2)) :
        List (Call Addr Window Menu)) = 0 :=
    popups_flatMap_eq_zero fun _ _ => popups_insertItem _ _ _
  unfold SystemTray.openContextMenu
  rw [popups_append, popups_append, hitems, add_zero]
  cases reply.popup <;> rfl

namespace Operation

/-- What an operation adds to the process handles and to the popups. -/
def processHandles : Operation Obj Handle Window Menu → Ledger (Option Handle)
  | .reload reply => reply.processHandles
  | .rightClick _ _ => 0

def popups : Operation Obj Handle Window Menu → Ledger Menu
  | .reload _ => 0
  | .rightClick _ reply => (reply.popup.toList, 0)

/-- Each process that is opened has its path read and no other has, and no popup is
created. -/
def Closes : Operation Obj Handle Window Menu → Prop
  | .reload reply => reply.ClosesHandles
  | .rightClick _ reply => reply.popup = none

theorem closes_iff [DecidableEq Handle] (op : Operation Obj Handle Window Menu) :
    op.Closes ↔ AllClosed op.processHandles ∧ AllClosed op.popups := by
  cases op with
  | reload reply => exact (reply.allClosed_iff.symm.trans (and_iff_left rfl).symm)
  | rightClick tray reply =>
    change reply.popup = none ↔ AllClosed 0 ∧ AllClosed (_, _)
    unfold AllClosed
    cases reply.popup <;> simp

theorem honest_processHandles [DecidableEq Handle] (op : Operation Obj Handle Window Menu) :
    Honest (fun h => h ≠ none) op.processHandles := by
  cases op with
  | reload reply => exact reply.honest
  | rightClick tray reply => exact honest_zero _

theorem honest_popups [DecidableEq Menu] (op : Operation Obj Handle Window Menu) :
    Honest (fun _ => True) op.popups := by
  cases op with
  | reload reply => exact honest_zero _
  | rightClick tray reply => exact ⟨fun _ _ => Nat.zero_le _, fun _ hno => absurd trivial hno⟩

end Operation

namespace Process

variable [DecidableEq Obj]

def step (s : Process Obj Handle Volume Addr Window Menu) :
    Operation Obj Handle Window Menu → Option (Process Obj Handle Volume Addr Window Menu)
  | .reload reply =>
    match (s.deviceEnumerator.reloadDevices reply).run s.world with
    | .ok deviceEnumerator world => some { s with deviceEnumerator, world }
    | .error _ _ => none
  | .rightClick tray reply =>
    some { s with calls := s.calls ++ (tray.processTrayEvent reply wmRbuttondown).1 }

omit [DecidableEq Obj] in
/-- Each process handle that was opened has been closed once, no other handle has been,
and each popup has been destroyed. -/
structure AllClosed (s : Process Obj Handle Volume Addr Window Menu) : Prop where
  processHandles : Bookkeeping.AllClosed s.world.processHandles
  popups : Bookkeeping.AllClosed (AudioCtrl.popups s.calls)

variable {s t : Process Obj Handle Volume Addr Window Menu}
  {ops : List (Operation Obj Handle Window Menu)}

theorem processHandles_of_step (s : Process Obj Handle Volume Addr Window Menu)
    (op : Operation Obj Handle Window Menu) (t : Process Obj Handle Volume Addr Window Menu)
    (hstep : s.step op = some t) :
    t.world.processHandles = s.world.processHandles + op.processHandles := by
  cases op with
  | reload reply =>
    simp only [step] at hstep
    split at hstep
    · next this w hrun =>
      cases hstep
      exact (DeviceEnumerator.reloadDevices_adds _ reply _ _ _ hrun).1
    · cases hstep
  | rightClick tray reply =>
    cases hstep
    exact (add_zero _).symm

theorem popups_of_step (s : Process Obj Handle Volume Addr Window Menu)
    (op : Operation Obj Handle Window Menu) (t : Process Obj Handle Volume Addr Window Menu)
    (hstep : s.step op = some t) : popups t.calls = popups s.calls + op.popups := by
  cases op with
  | reload reply =>
    simp only [step] at hstep
    split at hstep <;> cases hstep
    exact (add_zero _).symm
  | rightClick tray reply =>
    cases hstep
    rw [popups_append]
    exact congrArg _ (popups_openContextMenu tray reply)

/-- Everything that a run opened is closed again if and only if each of its operations
closes what it opens. -/
theorem all_closed_iff (hs : s.AllClosed) (hrun : run step s ops = some t) :
    t.AllClosed ↔ ∀ op ∈ ops, op.Closes := by
  classical
  have hhonest : Honest (fun _ => True) (popups s.calls) :=
    ⟨fun k _ => (congrArg (Multiset.count k) hs.popups).ge, fun _ hno => absurd trivial hno⟩
  have hprocess := allClosed_run_iff processHandles_of_step Operation.honest_processHandles
    hs.processHandles (World.honest_of_allClosed hs.processHandles) hrun
  have hmenu := allClosed_run_iff popups_of_step Operation.honest_popups hs.popups hhonest hrun
  constructor
  · intro ht op hop
    exact op.closes_iff.mpr ⟨hprocess.mp ht.processHandles op hop, hmenu.mp ht.popups op hop⟩
  · intro hclean
    exact ⟨hprocess.mpr fun op hop => (op.closes_iff.mp (hclean op hop)).1,
      hmenu.mpr fun op hop => (op.closes_iff.mp (hclean op hop)).2⟩

section Mixer

def mixer (path : Option String) : CollectionReply ℕ ℕ :=
  let session : AudioSession ℕ ℕ := ⟨6, 7, 8, 20, some 30, path⟩
  Endpoints.reply { collection := 1, devices := [⟨2, 3, 4, 5, [session]⟩] }

def click (popup : Option ℕ) : Operation ℕ ℕ ℕ ℕ :=
  .rightClick .default { clickPoint := (0, 0), popup, inserts := fun _ => true }

def enumeratorCreated : Process ℕ ℕ ℕ ℕ ℕ ℕ :=
  { deviceEnumerator := ⟨some 0, {}⟩, world := World.start ℕ ℕ fun _ => 1, calls := [] }

theorem allClosed_enumeratorCreated : enumeratorCreated.AllClosed := ⟨rfl, rfl⟩

theorem all_closed_pathRead :
    ∃ t, run step enumeratorCreated [.reload (mixer (some "mixer")), click none] = some t ∧
      t.AllClosed := by
  have hreturns : (run step enumeratorCreated
      [.reload (mixer (some "mixer")), click none]).isSome = true := by decide +kernel
  obtain ⟨t, ht⟩ := Option.isSome_iff_exists.mp hreturns
  have hcloses : ∀ op ∈ [.reload (mixer (some "mixer")), click none], op.Closes := by
    simp [Operation.Closes, CollectionReply.ClosesHandles, SessionReply.ClosesHandle, mixer, click,
      CollectionReply.counted, SessionEnumeratorReply.counted, Endpoints.reply, Endpoint.reply,
      Endpoint.sessionsReply, AudioSession.reply]
  exact ⟨t, ht, (all_closed_iff allClosed_enumeratorCreated ht).mpr hcloses⟩

/-- The path of the mixer cannot be read, and then its handle is kept; so is the menu. -/
theorem handles_stay_open :
    enumeratorCreated.AllClosed ∧
    ∃ t, run step enumeratorCreated [.reload (mixer none), click (some 40)] = some t ∧
      ¬ Bookkeeping.AllClosed t.world.processHandles ∧
      ¬ Bookkeeping.AllClosed (popups t.calls) := by
  have h : (run step enumeratorCreated [.reload (mixer none), click (some 40)]).any (fun t =>
      decide (¬ Bookkeeping.AllClosed t.world.processHandles ∧
        ¬ Bookkeeping.AllClosed (popups t.calls))) = true := by decide +kernel
  rw [Option.any_eq_true] at h
  obtain ⟨t, ht, hopen⟩ := h
  exact ⟨allClosed_enumeratorCreated, t, ht, of_decide_eq_true hopen⟩

end Mixer

end Process

end AudioCtrl
