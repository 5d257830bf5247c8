import AudioCtrl.Foundations.PartialRun

/-!
# The lifetime of the notification client

`DeviceEventNotifier` counts its references like any COM object and deletes
itself when the last one is released, but it is a member of `DeviceEnumerator`
and is destroyed with it. The member's own reference, with which the count
starts, is never released, so the object never deletes itself; whether it is
destroyed while clients still refer to it is up to the clients.
-/

namespace AudioCtrl.Audio

open PartialRun

/-- The interface identifiers that `QueryInterface` tells apart. -/
inductive Iid where
  | iUnknown
  | iMMNotificationClient
  | other (guid : ℕ)
  deriving DecidableEq, Repr

inductive HResult where
  | sOk
  | eNoInterface
  deriving DecidableEq, Repr

structure DeviceEventNotifier (Enumerator : Type) where
  cRef : Int32
  enumerator : Option Enumerator
  deriving DecidableEq, Repr

namespace DeviceEventNotifier

variable {Enumerator : Type}

def default : DeviceEventNotifier Enumerator := { enumerator := none, cRef := 1 }

def construct (enumerator : Enumerator) : DeviceEventNotifier Enumerator :=
  { enumerator := some enumerator, cRef := 1 }

variable (this : DeviceEventNotifier Enumerator)

def addRef : DeviceEventNotifier Enumerator × UInt32 :=
  let this := { this with cRef := this.cRef + 1 }
  (this, this.cRef.toUInt32)

/-- `Release`: the object, the result, and whether it runs `delete this`. -/
def release : DeviceEventNotifier Enumerator × UInt32 × Bool :=
  let this := { this with cRef := this.cRef - 1 }
  let ulRef := this.cRef.toUInt32
  (this, ulRef, ulRef = 0)

/-- `QueryInterface`: the object, `*ppvInterface` and the result. -/
def queryInterface (riid : Iid) : DeviceEventNotifier Enumerator × Option Iid × HResult :=
  if .iUnknown = riid then (this.addRef.1, some .iUnknown, .sOk)
  else if riid = .iMMNotificationClient then (this.addRef.1, some .iMMNotificationClient, .sOk)
  else (this, none, .eNoInterface)

end DeviceEventNotifier

/-- How far the enumerator is with its construction and destruction. -/
inductive EnumeratorPhase where
  | membersConstructed
  | notifierAssigned
  | registered
  | constructed
  | unregistered
  | destroyed
  deriving DecidableEq, Repr

/-- The embedded notifier. `outstanding` are the references that clients have obtained
and not released yet. -/
structure NotifierLife (Enumerator : Type) where
  phase : EnumeratorPhase
  eventNotifier : DeviceEventNotifier Enumerator
  outstanding : ℕ
  deletedItself : Bool
  deriving DecidableEq, Repr

inductive NotifierAction (Enumerator : Type) where
  /-- `this->eventNotifier = DeviceEventNotifier(this)`. -/
  | assign (enumerator : Enumerator)
  | registerCallback
  /-- The reload at the end of the constructor returns. -/
  | reload
  /-- It throws, and the members that are constructed already are destroyed. -/
  | reloadThrows
  | unregisterCallback
  | destroyMembers
  | addRef
  | queryInterface (riid : Iid)
  | release
  deriving DecidableEq, Repr

namespace NotifierLife

variable {Enumerator : Type}

/-- The members are constructed, the body of `DeviceEnumerator()` comes next. -/
def start : NotifierLife Enumerator := ⟨.membersConstructed, .default, 0, false⟩

variable (s : NotifierLife Enumerator)

/-- The notifier lives, and its address has been given away. -/
def Published : Prop :=
  s.phase = .registered ∨ s.phase = .constructed ∨ s.phase = .unregistered

instance : Decidable s.Published := inferInstanceAs (Decidable (_ ∨ _))

def advance (before after : EnumeratorPhase) : Option (NotifierLife Enumerator) :=
  if s.phase = before then some { s with phase := after } else none

def addRef : NotifierLife Enumerator :=
  { s with eventNotifier := s.eventNotifier.addRef.1, outstanding := s.outstanding + 1 }

/-- A client has called `QueryInterface`; it has one more reference if it got a pointer. -/
def queryInterface (riid : Iid) : NotifierLife Enumerator :=
  let result := s.eventNotifier.queryInterface riid
  let outstanding := if result.2.1 = none then s.outstanding else s.outstanding + 1
  { s with eventNotifier := result.1, outstanding }

def release : NotifierLife Enumerator :=
  let result := s.eventNotifier.release
  let phase := if result.2.2 then .destroyed else s.phase
  ⟨phase, result.1, s.outstanding - 1, s.deletedItself || result.2.2⟩

def step : NotifierAction Enumerator → Option (NotifierLife Enumerator)
  | .assign enumerator =>
    { s with eventNotifier := .construct enumerator }.advance .membersConstructed .notifierAssigned
  | .registerCallback => s.advance .notifierAssigned .registered
  | .reload => s.advance .registered .constructed
  | .reloadThrows => s.advance .registered .destroyed
  | .unregisterCallback => s.advance .constructed .unregistered
  | .destroyMembers => s.advance .unregistered .destroyed
  | .addRef => if s.Published then some s.addRef else none
  | .queryInterface riid => if s.Published then some (s.queryInterface riid) else none
  | .release => if s.Published ∧ 0 < s.outstanding then some s.release else none

structure ContractKept : Prop where
  counted : s.phase ≠ .destroyed → s.eventNotifier.cRef.toInt = 1 + s.outstanding
  notDeleted : s.deletedItself = false
  notDestroyed : 0 < s.outstanding → s.phase ≠ .destroyed

/-- A step after which the rules are still obeyed: the members are not destroyed while a
client has a reference, and no reference is given out that a `LONG` cannot count. -/
def KeepsContract : NotifierAction Enumerator → Prop
  | .reloadThrows | .destroyMembers => s.outstanding = 0
  | .addRef | .queryInterface .iUnknown | .queryInterface .iMMNotificationClient =>
    s.outstanding + 2 < 2 ^ 31
  | .assign _ | .registerCallback | .reload | .unregisterCallback | .queryInterface (.other _)
  | .release => True

variable {s} {t : NotifierLife Enumerator}

/-! ## The count in a `LONG` -/

theorem int32_add_one_iff {c : Int32} {n : ℕ} (h : c.toInt = 1 + n) :
    (c + 1).toInt = 1 + (n + 1 : ℕ) ↔ n + 2 < 2 ^ 31 := by
  have hlt := c.toInt_lt
  have hone : (1 : Int32).toInt = 1 := by decide
  rw [Int32.toInt_add, h, hone, Int.bmod_def]
  omega

theorem int32_sub_one {c : Int32} {n : ℕ} (h : c.toInt = 1 + (n + 1 : ℕ)) :
    (c - 1).toInt = 1 + n := by
  have hlt := c.toInt_lt
  have hone : (1 : Int32).toInt = 1 := by decide
  rw [Int32.toInt_sub, h, hone, Int.bmod_def]
  omega

theorem toUInt32_ne_zero {c : Int32} {n : ℕ} (h : c.toInt = 1 + n) : c.toUInt32 ≠ 0 := by
  intro hzero
  have hc : c = 0 := by
    obtain ⟨bits⟩ := c
    exact congrArg Int32.ofUInt32 hzero
  rw [hc, Int32.toInt_zero] at h
  omega

/-! ## Steps and runs -/

theorem advance_eq_some {before after : EnumeratorPhase} :
    s.advance before after = some t ↔ s.phase = before ∧ { s with phase := after } = t := by
  unfold advance
  split_ifs with h <;> simp [h]

theorem ContractKept.advance_iff (h : s.ContractKept) {before after : EnumeratorPhase}
    (hadvance : s.advance before after = some t) (hbefore : before ≠ .destroyed) :
    t.ContractKept ↔ (after = .destroyed → s.outstanding = 0) := by
  obtain ⟨rfl, rfl⟩ := advance_eq_some.mp hadvance
  constructor
  · intro ht hafter
    by_contra hpos
    exact ht.notDestroyed (Nat.pos_of_ne_zero hpos) hafter
  · intro hnone
    refine ⟨fun _ => h.counted hbefore, h.notDeleted, ?_⟩
    intro hpos hafter
    have hzero := hnone hafter
    change 0 < s.outstanding at hpos
    omega

theorem Published.phase_ne (h : s.Published) : s.phase ≠ .destroyed := by
  rcases h with h | h | h <;> rw [h] <;> decide

theorem ContractKept.addRef_iff (h : s.ContractKept) (hpub : s.Published) :
    s.addRef.ContractKept ↔ s.outstanding + 2 < 2 ^ 31 := by
  have hcount := int32_add_one_iff (h.counted hpub.phase_ne)
  constructor
  · intro ht
    exact hcount.mp (ht.counted hpub.phase_ne)
  · intro hlt
    exact ⟨fun _ => hcount.mpr hlt, h.notDeleted, fun _ => hpub.phase_ne⟩

theorem ContractKept.queryInterface_iff (h : s.ContractKept) (hpub : s.Published) (riid : Iid) :
    (s.queryInterface riid).ContractKept ↔ s.KeepsContract (.queryInterface riid) := by
  cases riid with
  | iUnknown | iMMNotificationClient => exact h.addRef_iff hpub
  | other guid => exact iff_of_true h trivial

/-- No release is the last one: the member's own reference stays. -/
theorem ContractKept.release (h : s.ContractKept) (hpub : s.Published)
    (hpos : 0 < s.outstanding) : s.release.ContractKept := by
  obtain ⟨n, hn⟩ : ∃ n, s.outstanding = n + 1 := ⟨s.outstanding - 1, by omega⟩
  have hcount := h.counted hpub.phase_ne
  rw [hn] at hcount
  have hcount' := int32_sub_one hcount
  have hkept : s.eventNotifier.release.2.2 = false := by
    have hne := toUInt32_ne_zero hcount'
    simpa [DeviceEventNotifier.release] using hne
  have hphase : s.release.phase = s.phase := by simp [NotifierLife.release, hkept]
  refine ⟨fun _ => ?_, ?_, fun _ => hphase ▸ hpub.phase_ne⟩
  · simpa [NotifierLife.release, DeviceEventNotifier.release, hn] using hcount'
  · simpa [NotifierLife.release, hkept] using h.notDeleted

/-- Nobody has a reference before the address is given away. -/
structure Unpublished (s : NotifierLife Enumerator) : Prop where
  membersConstructed : s.phase = .membersConstructed → s.outstanding = 0
  notifierAssigned : s.phase = .notifierAssigned → s.outstanding = 0

theorem unpublished_start : (start : NotifierLife Enumerator).Unpublished :=
  ⟨fun _ => rfl, fun _ => rfl⟩

theorem contractKept_start : (start : NotifierLife Enumerator).ContractKept := by
  constructor <;> simp [start, DeviceEventNotifier.default]

theorem Unpublished.of_phase (h₀ : s.phase ≠ .membersConstructed)
    (h₁ : s.phase ≠ .notifierAssigned) : s.Unpublished :=
  ⟨fun h => absurd h h₀, fun h => absurd h h₁⟩

theorem Published.unpublished (h : s.Published)
    (hphase : t.phase = s.phase ∨ t.phase = .destroyed) : t.Unpublished := by
  apply Unpublished.of_phase <;> rcases hphase with hphase | hphase <;> rw [hphase]
  · rcases h with h | h | h <;> rw [h] <;> decide
  · decide
  · rcases h with h | h | h <;> rw [h] <;> decide
  · decide

theorem unpublished_step (s : NotifierLife Enumerator) (a : NotifierAction Enumerator)
    (t : NotifierLife Enumerator) (h : s.Unpublished) (hstep : s.step a = some t) :
    t.Unpublished := by
  cases a with
  | assign enumerator =>
    obtain ⟨hbefore, rfl⟩ := advance_eq_some.mp hstep
    exact ⟨nofun, fun _ => h.membersConstructed hbefore⟩
  | registerCallback | reload | reloadThrows | unregisterCallback | destroyMembers =>
    obtain ⟨-, rfl⟩ := advance_eq_some.mp hstep
    exact .of_phase nofun nofun
  | addRef | queryInterface =>
    obtain ⟨hpub, hstep⟩ := Option.ite_none_right_eq_some.mp hstep
    cases hstep
    exact hpub.unpublished (.inl rfl)
  | release =>
    obtain ⟨⟨hpub, -⟩, hstep⟩ := Option.ite_none_right_eq_some.mp hstep
    cases hstep
    apply hpub.unpublished
    unfold NotifierLife.release
    dsimp only
    split_ifs <;> simp

theorem contractKept_step_iff (s : NotifierLife Enumerator) (a : NotifierAction Enumerator)
    (t : NotifierLife Enumerator) (hunpub : s.Unpublished) (h : s.ContractKept)
    (hstep : s.step a = some t) : t.ContractKept ↔ s.KeepsContract a := by
  cases a with
  | assign enumerator =>
    obtain ⟨hphase, rfl⟩ := advance_eq_some.mp hstep
    have hnone : s.outstanding = 0 := hunpub.membersConstructed hphase
    refine iff_of_true ⟨fun _ => ?_, h.notDeleted, fun _ => nofun⟩ trivial
    simp [DeviceEventNotifier.construct, hnone]
  | registerCallback | reload | unregisterCallback =>
    exact (h.advance_iff hstep (by decide)).trans (iff_of_true nofun trivial)
  | reloadThrows | destroyMembers =>
    exact (h.advance_iff hstep (by decide)).trans (forall_prop_of_true rfl)
  | addRef =>
    obtain ⟨hpub, hstep⟩ := Option.ite_none_right_eq_some.mp hstep
    cases hstep
    exact h.addRef_iff hpub
  | queryInterface riid =>
    obtain ⟨hpub, hstep⟩ := Option.ite_none_right_eq_some.mp hstep
    cases hstep
    exact h.queryInterface_iff hpub riid
  | release =>
    obtain ⟨⟨hpub, hpos⟩, hstep⟩ := Option.ite_none_right_eq_some.mp hstep
    cases hstep
    exact iff_of_true (h.release hpub hpos) trivial

/-- Whatever the clients do, the rules are obeyed in all states of a run if and only if
the members are only destroyed when no reference is outstanding and the references
that are given out fit into the `LONG`. -/
theorem contract_kept_iff (actions : List (NotifierAction Enumerator)) :
    (∀ pre s, pre <+: actions → run step start pre = some s → s.ContractKept) ↔
      Meets step KeepsContract start actions :=
  forall_prefix_iff_meets Unpublished unpublished_step contractKept_step_iff
    unpublished_start contractKept_start

/-- A client still has a reference when the enumerator is destroyed. -/
theorem destroyed_under_reference :
    ¬ ∀ (actions : List (NotifierAction ℕ)) s, run step start actions = some s →
      s.ContractKept := by
  intro h
  have hs := h [.assign 0, .registerCallback, .addRef, .reload, .unregisterCallback,
    .destroyMembers] _ rfl
  exact hs.notDestroyed (by decide) rfl

end NotifierLife
end AudioCtrl.Audio
