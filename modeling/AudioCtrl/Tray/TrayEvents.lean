import AudioCtrl.Tray.Registry
import Mathlib.Data.List.TakeWhile

/-!
# Messages of the tray icons

An icon sends its messages to the window of its tray, under the number that the
constructor chose: `WM_USER` plus a counter that is cut to 16 bits. The window
procedure takes every message above `WM_USER` for one of them, whatever its
number, and misses the messages of a tray whose counter was cut to 0.
-/

namespace AudioCtrl.Tray

open PartialRun

variable {Addr Window Menu : Type}

namespace SystemTray

theorem processTrayEvent_notMem (this : SystemTray Window) (reply : MenuReply Menu)
    (event : UInt16) (tray : Addr) (event' : UInt16) :
    .processTrayEvent tray event' ∉
      (this.processTrayEvent reply event : List (Call Addr Window Menu) × Bool).1 := by
  unfold processTrayEvent
  split_ifs with hright hleft
  · simp only [openContextMenu, insertItem]
    intro hmem
    simp only [List.mem_append, List.mem_cons, List.mem_flatMap, reduceCtorEq, List.not_mem_nil,
      or_false, false_or] at hmem
    obtain ⟨p, -, hp⟩ := hmem
    split_ifs at hp <;> simp at hp
  · simp
  · simp

end SystemTray

namespace Trays

variable [DecidableEq Addr] [DecidableEq Window] {s t : Trays Addr Window}
  {reply : MenuReply Menu} {tray this : Addr} {hwnd : Option Window} {msg : UInt32}
  {wParam lParam : UInt64}

omit [DecidableEq Addr] [DecidableEq Window] in
theorem processTrayEvent_mem_wndProc_iff {event : UInt16} :
    .processTrayEvent tray event ∈
        (s.wndProc reply hwnd msg wParam lParam : List (Call Addr Window Menu)) ↔
      s.systemTrays hwnd = some tray ∧ wmUser < msg ∧ event = loword lParam := by
  unfold wndProc
  cases s.systemTrays hwnd with
  | none => simp
  | some owner =>
    have hinner := SystemTray.processTrayEvent_notMem (s.object owner) reply (loword lParam)
      tray event
    by_cases huser : wmUser < msg
    · simp only [gt_iff_lt, huser, if_true, List.mem_append, List.mem_singleton, hinner, or_false,
        Call.processTrayEvent.injEq, true_and, Option.some.injEq]
      split_ifs <;> simp [eq_comm (a := owner)]
    · simp only [gt_iff_lt, huser, if_false, false_and, and_false, iff_false]
      split_ifs <;> simp

/-- Trays are constructed and destroyed; a construction from items succeeds. -/
def Op.Uncopied : Op Addr Window → Prop
  | .defaultConstruct _ | .construct _ _ _ (some _) | .destroy _ => True
  | .construct _ _ _ none | .copyConstruct .. | .copyAssign .. => False

/-- Each window belongs to one tray, which is entered under it and has told the shell
its own number. -/
structure WindowsOwned (s : Trays Addr Window) : Prop where
  intact : s.RegistryIntact
  null : s.systemTrays none = none
  entered : ∀ tray ∈ s.live, (s.object tray).hwnd ≠ none →
    s.systemTrays (s.object tray).hwnd = some tray
  created : ∀ tray ∈ s.live, ∀ w ∈ (s.object tray).hwnd, w ∈ s.created
  icon : ∀ tray ∈ s.live, (s.object tray).hwnd ≠ none →
    s.icons tray = some (s.object tray).notifyIconData

omit [DecidableEq Addr] [DecidableEq Window] in
theorem windowsOwned_start : (start : Trays Addr Window).WindowsOwned :=
  ⟨registryIntact_start, rfl, by simp [start], by simp [start], by simp [start]⟩

omit [DecidableEq Addr] [DecidableEq Window] in
theorem WindowsOwned.keepsRegistry (h : s.WindowsOwned) {op : Op Addr Window}
    (hop : op.Uncopied) (hlegal : s.Legal op) : s.KeepsRegistry op := by
  cases op with
  | defaultConstruct | construct | copyConstruct => trivial
  | copyAssign => exact hop.elim
  | destroy this =>
    constructor
    · intro hwindow tray htray hne hsame
      have hentry := h.entered tray htray (hsame ▸ hwindow)
      rw [hsame, h.entered this hlegal hwindow] at hentry
      exact hne (Option.some.inj hentry).symm
    · intro _
      rw [h.null]
      exact nofun

omit [DecidableEq Window] in
theorem mem_live_of_ne {a : Addr} (ha : a ∈ insert this s.live) (hne : a ≠ this) : a ∈ s.live :=
  (Finset.mem_insert.mp ha).resolve_left hne

omit [DecidableEq Window] in
theorem WindowsOwned.defaultConstruct (h : s.WindowsOwned)
    (hintact : (s.defaultConstruct this).RegistryIntact) :
    (s.defaultConstruct this).WindowsOwned := by
  have hself : ((s.defaultConstruct this).object this).hwnd = none := by
    simp [Trays.defaultConstruct, place, SystemTray.default]
  have hother : ∀ a, a ≠ this → (s.defaultConstruct this).object a = s.object a ∧
      (s.defaultConstruct this).icons a = s.icons a := by
    intro a ha
    simp [Trays.defaultConstruct, place, ha]
  refine ⟨hintact, h.null, ?_, ?_, ?_⟩
  · intro a ha hwindow
    have hne : a ≠ this := fun hat => hwindow (hat ▸ hself)
    rw [(hother a hne).1] at hwindow ⊢
    exact h.entered a (mem_live_of_ne ha hne) hwindow
  · intro a ha w hw
    have hne : a ≠ this := by
      rintro rfl
      rw [hself] at hw
      cases hw
    rw [(hother a hne).1] at hw
    exact h.created a (mem_live_of_ne ha hne) w hw
  · intro a ha hwindow
    have hne : a ≠ this := fun hat => hwindow (hat ▸ hself)
    rw [(hother a hne).1] at hwindow ⊢
    rw [(hother a hne).2]
    exact h.icon a (mem_live_of_ne ha hne) hwindow

theorem WindowsOwned.construct (h : s.WindowsOwned) (items : List SysTrayItem) (title : WString)
    {w : Window} (hfresh : w ∉ s.created)
    (hintact : (s.construct this items title (some w)).RegistryIntact) :
    (s.construct this items title (some w)).WindowsOwned := by
  have hself : ((s.construct this items title (some w)).object this).hwnd = some w := by
    simp [Trays.construct, place]
  have hother : ∀ a, a ≠ this → (s.construct this items title (some w)).object a = s.object a ∧
      (s.construct this items title (some w)).icons a = s.icons a := by
    intro a ha
    simp [Trays.construct, place, ha]
  have hentries : ∀ hwnd, hwnd ≠ some w →
      (s.construct this items title (some w)).systemTrays hwnd = s.systemTrays hwnd :=
    fun hwnd hne => Function.update_of_ne hne ..
  refine ⟨hintact, (hentries none nofun).trans h.null, ?_, ?_, ?_⟩
  · intro a ha hwindow
    by_cases hne : a = this
    · subst hne
      rw [hself]
      exact Function.update_self ..
    · have hlive := mem_live_of_ne ha hne
      rw [(hother a hne).1] at hwindow ⊢
      have hold : (s.object a).hwnd ≠ some w := fun hw => hfresh (h.created a hlive w hw)
      rw [hentries _ hold]
      exact h.entered a hlive hwindow
  · intro a ha v hv
    by_cases hne : a = this
    · subst hne
      rw [hself, Option.mem_some_iff] at hv
      simp [Trays.construct, hv]
    · rw [(hother a hne).1] at hv
      exact Finset.mem_union_left _ (h.created a (mem_live_of_ne ha hne) v hv)
  · intro a ha hwindow
    by_cases hne : a = this
    · subst hne
      simp [Trays.construct, place]
    · rw [(hother a hne).1] at hwindow ⊢
      rw [(hother a hne).2]
      exact h.icon a (mem_live_of_ne ha hne) hwindow

theorem WindowsOwned.destroy (h : s.WindowsOwned) (hthis : this ∈ s.live)
    (hintact : (s.destroy this).RegistryIntact) : (s.destroy this).WindowsOwned := by
  have hentries : ∀ hwnd, hwnd ≠ (s.object this).hwnd ∨ hwnd = none →
      (s.destroy this).systemTrays hwnd = s.systemTrays hwnd := by
    intro hwnd hcase
    unfold Trays.destroy
    dsimp only
    split_ifs with hwindow
    · have hne : hwnd ≠ (s.object this).hwnd := by
        rcases hcase with hne | rfl
        · exact hne
        · exact Ne.symm hwindow
      exact Function.update_of_ne hne ..
    · rfl
  refine ⟨hintact, (hentries none (.inr rfl)).trans h.null, ?_, ?_, ?_⟩
  · intro a ha hwindow
    obtain ⟨hne, hlive⟩ := Finset.mem_erase.mp ha
    have hentry := h.entered a hlive hwindow
    change (s.destroy this).systemTrays (s.object a).hwnd = some a
    rw [hentries, hentry]
    left
    intro hsame
    rw [hsame, h.entered this hthis (hsame ▸ hwindow)] at hentry
    exact hne (Option.some.inj hentry).symm
  · intro a ha
    exact h.created a (Finset.mem_of_mem_erase ha)
  · intro a ha
    exact h.icon a (Finset.mem_of_mem_erase ha)

theorem WindowsOwned.step (h : s.WindowsOwned) {op : Op Addr Window} (hop : op.Uncopied)
    (hstep : s.step op = some t) : t.WindowsOwned := by
  obtain ⟨hlegal, rfl⟩ := step_eq_some.mp hstep
  have hintact : (s.exec op).RegistryIntact :=
    (registryIntact_step_iff h.intact hstep).mpr (h.keepsRegistry hop hlegal)
  cases op with
  | defaultConstruct this => exact h.defaultConstruct hintact
  | construct this items title window =>
    cases window with
    | none => exact hop.elim
    | some w => exact h.construct items title (hlegal.2 w rfl) hintact
  | copyConstruct => exact hop.elim
  | copyAssign => exact hop.elim
  | destroy this => exact h.destroy hlegal hintact

theorem windowsOwned_of_run {ops : List (Op Addr Window)} (hops : ∀ op ∈ ops, op.Uncopied)
    (hs : s.WindowsOwned) (hrun : run step s ops = some t) : t.WindowsOwned := by
  induction ops generalizing s with
  | nil =>
    cases hrun
    exact hs
  | cons op ops ih =>
    obtain ⟨u, hu, hrun⟩ := run_cons_eq_some.mp hrun
    exact ih (fun op hop => hops op (List.mem_cons_of_mem _ hop))
      (hs.step (hops op (List.mem_cons_self ..)) hu) hrun

/-- The window procedure calls `processTrayEvent` of `tray`. -/
def GetsTrayEvent (s : Trays Addr Window) (reply : MenuReply Menu) (tray : Addr)
    (hwnd : Option Window) (msg : UInt32) (wParam lParam : UInt64) : Prop :=
  ∃ event, .processTrayEvent tray event ∈
    (s.wndProc reply hwnd msg wParam lParam : List (Call Addr Window Menu))

/-- The message is one that `tray` asked the shell to send. -/
def IsTrayMessage (s : Trays Addr Window) (tray : Addr) (hwnd : Option Window)
    (msg : UInt32) : Prop :=
  hwnd = (s.object tray).hwnd ∧ ∃ nid, s.icons tray = some nid ∧ msg = nid.uCallbackMessage

theorem wmUser_add_toNat (callId : UInt16) :
    (wmUser + callId.toUInt32).toNat = 1024 + callId.toNat := by
  have hid := callId.toNat_lt
  have huser : wmUser.toNat = 1024 := by decide
  rw [UInt32.toNat_add, huser, UInt16.toNat_toUInt32]
  omega

/-- Among the messages to its window a tray gets exactly its own if its counter is not 0
and no other message is above `WM_USER`. -/
theorem above_wmUser_iff (callId : UInt16) (msg : UInt32) :
    (wmUser < msg ↔ msg = wmUser + callId.toUInt32) ↔
      msg < wmUser ∨ callId ≠ 0 ∧ (msg = wmUser ∨ msg = wmUser + callId.toUInt32) := by
  have hadd := wmUser_add_toNat callId
  have huser : wmUser.toNat = 1024 := by decide
  have hzero : callId = 0 ↔ callId.toNat = 0 := UInt16.toNat_inj.symm
  rw [ne_eq, hzero, UInt32.lt_iff_toNat_lt, UInt32.lt_iff_toNat_lt, ← UInt32.toNat_inj,
    ← UInt32.toNat_inj, hadd, huser]
  omega

/-- Among trays that are constructed successfully and never copied, a message is routed
as the shell was told if and only if it is not for the window of the tray, or below
`WM_USER`, or, unless the counter of the tray was cut to 0, `WM_USER` itself or the
number of the tray. -/
theorem tray_events_routed_iff (ops : List (Op Addr Window)) (hops : ∀ op ∈ ops, op.Uncopied)
    (hrun : run step start ops = some s) (htray : tray ∈ s.live)
    (hwindow : (s.object tray).hwnd ≠ none) (reply : MenuReply Menu) (hwnd : Option Window)
    (msg : UInt32) (wParam lParam : UInt64) :
    (s.GetsTrayEvent reply tray hwnd msg wParam lParam ↔ s.IsTrayMessage tray hwnd msg) ↔
      hwnd ≠ (s.object tray).hwnd ∨ msg < wmUser ∨ (s.object tray).callId ≠ 0 ∧
        (msg = wmUser ∨ msg = wmUser + (s.object tray).callId.toUInt32) := by
  have howned := windowsOwned_of_run hops windowsOwned_start hrun
  have hgets : s.GetsTrayEvent reply tray hwnd msg wParam lParam ↔
      s.systemTrays hwnd = some tray ∧ wmUser < msg := by
    simp only [GetsTrayEvent, processTrayEvent_mem_wndProc_iff, exists_and_left, exists_eq,
      and_true]
  by_cases hwnd_eq : hwnd = (s.object tray).hwnd
  · have hentry := howned.entered tray htray hwindow
    have htold : s.IsTrayMessage tray hwnd msg ↔
        msg = wmUser + (s.object tray).callId.toUInt32 := by
      simp only [IsTrayMessage, hwnd_eq, howned.icon tray htray hwindow, Option.some.injEq,
        exists_eq_left', true_and]
      rfl
    rw [hgets, htold, hwnd_eq, hentry]
    simp only [true_and, ne_eq, not_true_eq_false, false_or]
    exact above_wmUser_iff _ msg
  · have hnone : s.systemTrays hwnd ≠ some tray := fun hentry =>
      hwnd_eq (howned.intact.entries hwnd tray hentry).2.symm
    refine iff_of_true (iff_of_false ?_ ?_) (.inl hwnd_eq)
    · rw [hgets]
      exact fun h => hnone h.1
    · exact fun h => hwnd_eq h.1

/-- Two trays, the second without items. -/
def twoTrays : List (Op ℕ ℕ) := [.construct 0 [] [] (some 7), .construct 1 [] [] (some 8)]

def menuFails : MenuReply ℕ := ⟨(0, 0), none, fun _ => false⟩

/-- The second tray and its own message. -/
theorem tray_events_routed_twoTrays :
    ∃ s : Trays ℕ ℕ, run step start twoTrays = some s ∧ 1 ∈ s.live ∧
      ((s.GetsTrayEvent menuFails 1 (some 8) 0x402 0 0x204 ↔
          s.IsTrayMessage 1 (some 8) 0x402) ↔
        some 8 ≠ (s.object 1).hwnd ∨ 0x402 < wmUser ∨ (s.object 1).callId ≠ 0 ∧
          (0x402 = wmUser ∨ 0x402 = wmUser + (s.object 1).callId.toUInt32)) :=
  ⟨_, rfl, by decide, tray_events_routed_iff twoTrays (by simp [twoTrays, Op.Uncopied]) rfl
    (by decide) (by decide) menuFails (some 8) 0x402 0 0x204⟩

/-- The first tray gets a message that only the second one asked for. -/
theorem foreign_message_reaches_tray :
    ¬ ∀ (ops : List (Op ℕ ℕ)) s, (∀ op ∈ ops, op.Uncopied) → run step start ops = some s →
      ∀ tray ∈ s.live, (s.object tray).hwnd ≠ none →
        ∀ (reply : MenuReply ℕ) hwnd msg wParam lParam,
          s.GetsTrayEvent reply tray hwnd msg wParam lParam ↔ s.IsTrayMessage tray hwnd msg := by
  intro h
  have hmsg := h [.construct 0 [] [] (some 7)] _ (by simp [Op.Uncopied]) rfl 0 (by decide)
    (by decide) menuFails (some 7) 0x402 0 0
  obtain ⟨-, nid, hnid, hnumber⟩ := hmsg.mp ⟨0, by decide⟩
  cases hnid
  exact absurd hnumber (by decide)

/-! ## The counter -/

def constructions (ops : List (Op Addr Window)) : ℕ :=
  ops.countP fun op => match op with
    | .construct .. => true
    | _ => false

theorem rollingCallback_of_run {ops : List (Op Addr Window)} (hrun : run step s ops = some t) :
    t.rollingCallback = s.rollingCallback + UInt32.ofNat (constructions ops) := by
  induction ops generalizing s with
  | nil =>
    cases hrun
    exact (UInt32.add_zero _).symm
  | cons op ops ih =>
    obtain ⟨u, hu, hrun⟩ := run_cons_eq_some.mp hrun
    obtain ⟨-, rfl⟩ := step_eq_some.mp hu
    rw [ih hrun]
    cases op with
    | construct this items title window =>
      have hcount : constructions (.construct this items title window :: ops) =
          1 + constructions ops := by
        rw [constructions, List.countP_cons_of_pos rfl, add_comm]
        rfl
      rw [hcount, UInt32.ofNat_add, ← UInt32.add_assoc]
      rfl
    | defaultConstruct | copyConstruct | copyAssign | destroy => rfl

/-- The number of a tray counts the constructions so far, itself included, up to 16 bits:
every 65536th tray has number 0. -/
theorem callId_of_construction {ops : List (Op Addr Window)} (hrun : run step start ops = some s)
    (items : List SysTrayItem) (title : WString) (window : Option Window) :
    ((s.construct this items title window).object this).callId =
      UInt16.ofNat (1 + constructions ops) := by
  have hroll := rollingCallback_of_run hrun
  have hcall : ((s.construct this items title window).object this).callId =
      s.rollingCallback.toUInt16 := by
    simp [Trays.construct, place]
  have hone : (start : Trays Addr Window).rollingCallback.toNat = 1 := rfl
  rw [hcall, hroll]
  apply UInt16.toNat_inj.mp
  rw [UInt32.toNat_toUInt16, UInt32.toNat_add, hone, UInt32.toNat_ofNat', UInt16.toNat_ofNat']
  omega

/-! ## The tip -/

/-- What the shell shows of `szTip`: the characters before the first 0. -/
def tipText (szTip : WString) : WString := szTip.takeWhile fun c => c ≠ 0

/-- The constructor fills the tip but for its last character. -/
theorem szTip_eq (title : WString) : SystemTray.szTip title =
    title.take 127 ++ List.replicate (128 - (title.take 127).length) 0 := by
  unfold SystemTray.szTip
  dsimp only
  rw [List.length_take]
  by_cases hlong : title.length ≥ 128
  · rw [if_pos hlong, Nat.min_eq_left (by omega)]
  · rw [if_neg hlong, Nat.min_eq_right (by omega), List.take_of_length_le (le_refl _),
      List.take_of_length_le (by omega)]

theorem szTip_length (title : WString) : (SystemTray.szTip title).length = 128 := by
  rw [szTip_eq, List.length_append, List.length_replicate, List.length_take]
  omega

theorem tipText_szTip (title : WString) :
    tipText (SystemTray.szTip title) = tipText (title.take 127) := by
  unfold tipText
  rw [szTip_eq, List.takeWhile_append, List.takeWhile_replicate]
  split_ifs with hall hzero
  · simp at hzero
  · rw [List.append_nil]
    exact ((List.takeWhile_prefix _).eq_of_length hall).symm
  · rfl

/-- The tip is cut when the title has more than 127 characters or a 0 among them. -/
theorem tipText_take_eq_iff (title : WString) :
    tipText (title.take 127) = title ↔ title.length ≤ 127 ∧ 0 ∉ title := by
  unfold tipText
  constructor
  · intro h
    have hlen := congrArg List.length h
    have hle := (List.takeWhile_prefix (l := title.take 127) fun c => decide (c ≠ 0)).length_le
    rw [hlen, List.length_take] at hle
    refine ⟨by omega, ?_⟩
    intro hmem
    rw [← h] at hmem
    simpa using List.mem_takeWhile_imp hmem
  · rintro ⟨hle, hzero⟩
    rw [List.take_of_length_le hle, List.takeWhile_eq_self_iff]
    intro c hc
    rw [decide_eq_true_eq]
    rintro rfl
    exact hzero hc

/-- Among trays that are constructed successfully and never copied, each living one has given
the shell a tip of 128 characters that ends within them, and the tip shows its title if
and only if this has at most 127 characters and no 0. -/
theorem tip_shows_title_iff (ops : List (Op Addr Window)) (hops : ∀ op ∈ ops, op.Uncopied)
    (hrun : run step start ops = some s) (htray : tray ∈ s.live)
    (hwindow : (s.object tray).hwnd ≠ none) :
    ∃ nid, s.icons tray = some nid ∧ nid.szTip.length = 128 ∧ 0 ∈ nid.szTip ∧
      (tipText nid.szTip = (s.object tray).title ↔
        (s.object tray).title.length ≤ 127 ∧ 0 ∉ (s.object tray).title) := by
  have howned := windowsOwned_of_run hops windowsOwned_start hrun
  refine ⟨_, howned.icon tray htray hwindow, szTip_length _, ?_, ?_⟩
  · change 0 ∈ SystemTray.szTip (s.object tray).title
    rw [szTip_eq, List.mem_append, List.mem_replicate, List.length_take]
    exact .inr ⟨by omega, rfl⟩
  · change tipText (SystemTray.szTip (s.object tray).title) = _ ↔ _
    rw [tipText_szTip]
    exact tipText_take_eq_iff _

/-- A tray with a title of one character. -/
theorem tip_shows_title_iff_short :
    ∃ s : Trays ℕ ℕ, run step start [.construct 0 [] [0x41] (some 7)] = some s ∧
      ∃ nid, s.icons 0 = some nid ∧ nid.szTip.length = 128 ∧ 0 ∈ nid.szTip ∧
        (tipText nid.szTip = (s.object 0).title ↔
          (s.object 0).title.length ≤ 127 ∧ 0 ∉ (s.object 0).title) :=
  ⟨_, rfl, tip_shows_title_iff [.construct 0 [] [0x41] (some 7)] (by simp [Op.Uncopied]) rfl
    (by decide) (by decide)⟩

end Trays
end AudioCtrl.Tray
