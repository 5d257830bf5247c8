import AudioCtrl.Tray.SystemTray

/-!
# Selections in the context menu

A selection comes back as the identifier that was stored in the menu. The
window procedure subtracts `WM_USER` from it, but `openContextMenu` stores the
identifier as it is, so the tray is never told the item that was chosen.
-/

namespace AudioCtrl.Tray

open PartialRun

variable {Addr Window Menu : Type}

namespace SystemTray

variable {this : SystemTray Window} {reply : MenuReply Menu}

theorem insertMenuItem_mem_insertItem_iff {popup popup' : Option Menu} {place : Int32}
    {byPosition inserts : Bool} {info : MenuItemInfo} {item : SysTrayItem} :
    .insertMenuItem popup place byPosition info ∈
        (insertItem popup' item inserts : List (Call Addr Window Menu)) ↔
      popup = popup' ∧ place = -1 ∧ byPosition = true ∧ info = menuItemInfo item := by
  cases inserts <;> simp [insertItem]

/-- The popup holds what the loop built for the items, and nothing else. -/
theorem insertMenuItem_mem_openContextMenu_iff {popup : Option Menu} {place : Int32}
    {byPosition : Bool} {info : MenuItemInfo} :
    .insertMenuItem popup place byPosition info ∈
        (this.openContextMenu reply : List (Call Addr Window Menu)) ↔
      popup = reply.popup ∧ place = -1 ∧ byPosition = true ∧
        ∃ item ∈ this.items, info = menuItemInfo item := by
  simp only [openContextMenu, List.mem_append, List.mem_cons, List.mem_flatMap, reduceCtorEq,
    List.not_mem_nil, or_false, false_or, insertMenuItem_mem_insertItem_iff]
  constructor
  · rintro ⟨⟨item, i⟩, hmem, hpopup, hplace, hby, hinfo⟩
    exact ⟨hpopup, hplace, hby, item, List.fst_mem_of_mem_zipIdx hmem, hinfo⟩
  · rintro ⟨hpopup, hplace, hby, item, hitem, hinfo⟩
    obtain ⟨i, hi, hget⟩ := List.getElem_of_mem hitem
    have hmem : (item, i) ∈ this.items.zipIdx := by
      rw [List.mk_mem_zipIdx_iff_getElem?, List.getElem?_eq_getElem hi, hget]
    exact ⟨(item, i), hmem, hpopup, hplace, hby, hinfo⟩

/-- Windows reports the selection of an item in the popup: the low word of `wParam`
is the `wID` the item was inserted with. -/
structure Selects (Addr : Type) (this : SystemTray Window) (reply : MenuReply Menu)
    (item : SysTrayItem) (wParam : UInt64) : Prop where
  shown : .insertMenuItem reply.popup (-1) true (menuItemInfo item) ∈
    (this.openContextMenu reply : List (Call Addr Window Menu))
  text : item.type = .text
  wID : loword wParam = (menuItemInfo item).wID.toUInt16

theorem Selects.loword_eq {item : SysTrayItem} {wParam : UInt64}
    (h : this.Selects Addr reply item wParam) : loword wParam = item.id := by
  have hwID : (menuItemInfo item).wID = item.id.toUInt32 := if_pos h.text
  rw [h.wID, hwID, UInt16.toUInt16_toUInt32]

end SystemTray

theorem sub_wmUser_ne (id : UInt16) : id - wmUser.toUInt16 ≠ id := by
  intro h
  have hid := id.toNat_lt
  have hnat := congrArg UInt16.toNat h
  have huser : wmUser.toUInt16.toNat = 1024 := by decide
  rw [UInt16.toNat_sub, huser] at hnat
  omega

namespace Trays

variable [DecidableEq Addr] [DecidableEq Window] {s t : Trays Addr Window}
  {reply : MenuReply Menu} {tray : Addr} {hwnd : Option Window} {wParam lParam : UInt64}

omit [DecidableEq Addr] [DecidableEq Window] in
theorem processContextMenuEvent_mem_wndProc_iff {menuItem event : UInt16} :
    .processContextMenuEvent tray menuItem event ∈
        (s.wndProc reply hwnd wmCommand wParam lParam : List (Call Addr Window Menu)) ↔
      s.systemTrays hwnd = some tray ∧ menuItem = loword wParam - wmUser.toUInt16 ∧
        event = hiword wParam := by
  have huser : ¬ wmCommand > wmUser := by decide
  unfold wndProc
  cases s.systemTrays hwnd with
  | none => simp
  | some owner => simp [huser, SystemTray.processContextMenuEvent, eq_comm]

omit [DecidableEq Addr] [DecidableEq Window] in
/-- A selection reaches the tray, with 1024 taken off the identifier. -/
theorem menuItem_of_selection {item : SysTrayItem}
    (hentry : s.systemTrays (s.object tray).hwnd = some tray)
    (hsel : (s.object tray).Selects Addr reply item wParam) :
    .processContextMenuEvent tray (item.id - wmUser.toUInt16) (hiword wParam) ∈
      (s.wndProc reply (s.object tray).hwnd wmCommand wParam lParam :
        List (Call Addr Window Menu)) :=
  processContextMenuEvent_mem_wndProc_iff.mpr ⟨hentry, by rw [hsel.loword_eq], rfl⟩

omit [DecidableEq Addr] [DecidableEq Window] in
/-- No selection in the context menu is processed under the identifier of the item. -/
theorem selection_never_returns_id (s : Trays Addr Window) (tray : Addr) (item : SysTrayItem)
    (shown reply : MenuReply Menu) (wParam lParam : UInt64)
    (hsel : (s.object tray).Selects Addr shown item wParam) :
    ¬ ∃ event, .processContextMenuEvent tray item.id event ∈
      (s.wndProc reply (s.object tray).hwnd wmCommand wParam lParam :
        List (Call Addr Window Menu)) := by
  rintro ⟨event, hcall⟩
  obtain ⟨-, hid, -⟩ := processContextMenuEvent_mem_wndProc_iff.mp hcall
  rw [hsel.loword_eq] at hid
  exact sub_wmUser_ne item.id hid.symm

def wide (text : String) : WString := text.toList.map fun c => c.toNat.toUInt16

def exitItem : SysTrayItem := ⟨.text, 2, false, wide "Exit"⟩

def messageThread (window : Option ℕ) : Op ℕ ℕ :=
  .construct 0 [⟨.text, 1, false, wide "Open"⟩, ⟨.separator, 0, false, []⟩, exitItem]
    (wide "Audio Control") window

/-- All calls of `openContextMenu` succeed. -/
def menuOpens : MenuReply ℕ := ⟨(0, 0), some 3, fun _ => true⟩

theorem selection_never_returns_id_exit :
    ¬ ∃ event, .processContextMenuEvent 0 2 event ∈
      (((start : Trays ℕ ℕ).exec (messageThread (some 5))).wndProc menuOpens (some 5) wmCommand
        2 0 : List (Call ℕ ℕ ℕ)) :=
  selection_never_returns_id ((start : Trays ℕ ℕ).exec (messageThread (some 5))) 0 exitItem
    menuOpens menuOpens 2 0 ⟨by decide, by decide, by decide⟩

/-- The selection of `Exit` is processed as item 64514. -/
theorem exit_not_returned :
    ¬ ∀ (ops : List (Op ℕ ℕ)) s, run step start ops = some s → ∀ tray ∈ s.live,
      ∀ (reply : MenuReply ℕ) item wParam lParam, (s.object tray).Selects ℕ reply item wParam →
        ∃ event, .processContextMenuEvent tray item.id event ∈
          (s.wndProc reply (s.object tray).hwnd wmCommand wParam lParam :
            List (Call ℕ ℕ ℕ)) := by
  intro h
  obtain ⟨event, hcall⟩ := h [messageThread (some 5)] _ rfl 0 (by decide) menuOpens exitItem 2 0
    ⟨by decide, by decide, by decide⟩
  obtain ⟨-, hid, -⟩ := processContextMenuEvent_mem_wndProc_iff.mp hcall
  exact absurd hid (by decide)

end Trays
end AudioCtrl.Tray
