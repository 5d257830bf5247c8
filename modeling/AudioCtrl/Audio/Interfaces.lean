import AudioCtrl.Audio.ReferenceCounts
import AudioCtrl.Foundations.Ownership

/-!
# Programs over interface pointers

The classes of the device tree hold their wrappers as members, parameters and
locals, which never alias each other. Their code is written over the `data` of
the wrappers; on two different wrappers this agrees with the operations on cells.
-/

namespace AudioCtrl.Audio

open RefCount Ownership

/-- What the program acts on besides its own variables. The references that were
acquired and released, and the pointers that an out-parameter overwrote, are only
recorded, no function reads them. -/
structure World (Obj Handle Volume : Type) where
  count : Obj → ℕ
  acquired : Multiset Obj
  released : Multiset Obj
  lost : List Obj
  locked : Bool
  opened : List (ℕ × Handle)
  closed : List (Option Handle)
  printed : List String
  volumes : List (Obj × Volume)

def World.start {Obj : Type} (Handle Volume : Type) (outside : Obj → ℕ) :
    World Obj Handle Volume :=
  { count := outside, acquired := 0, released := 0, lost := [], locked := false, opened := [],
    closed := [], printed := [], volumes := [] }

abbrev Prog (Obj Handle Volume : Type) := EStateM Fault (World Obj Handle Volume)

variable {Obj Handle Volume : Type} [DecidableEq Obj]

namespace IUnknownW

def callAddRef (data : Option Obj) : Prog Obj Handle Volume Unit := fun w =>
  match addRef data w.count with
  | .error fault => .error fault w
  | .ok count => .ok () { w with count := count, acquired := refs data + w.acquired }

def callRelease (data : Option Obj) : Prog Obj Handle Volume Unit := fun w =>
  match release data w.count with
  | .error fault => .error fault w
  | .ok count => .ok () { w with count := count, released := refs data + w.released }

omit [DecidableEq Obj] in
/-- A method of the interface, called through `operator->`. -/
def call (data : Option Obj) : Prog Obj Handle Volume Obj := fun w =>
  match data with
  | none => .error .nullCall w
  | some o => if w.count o = 0 then .error .deadCall w else .ok o w

/-- `if (this->data != nullptr) { this->data->Release(); this->data = nullptr; }`. -/
def reset (data : Option Obj) : Prog Obj Handle Volume (Option Obj) :=
  if data = none then return data else do
    callRelease data
    return none

/-- `if (this->data != nullptr) this->data->AddRef()`. -/
def share (data : Option Obj) : Prog Obj Handle Volume Unit :=
  if data = none then return () else callAddRef data

/-- The end of both moves; returns what is left in the source. -/
def take (other : Option Obj) : Prog Obj Handle Volume (Option Obj) :=
  if other = none then return other else do
    callAddRef other
    callRelease other
    return none

def copyConstruct (other : Option Obj) : Prog Obj Handle Volume (Option Obj) := do
  share other
  return other

def copyAssign (this other : Option Obj) : Prog Obj Handle Volume (Option Obj) := do
  let _ ← reset this
  share other
  return other

/-- `operator=(IUnknownW<T>&&)`; returns what target and source hold afterwards. -/
def moveAssign (this other : Option Obj) : Prog Obj Handle Volume (Option Obj × Option Obj) := do
  let _ ← reset this
  let left ← take other
  return (other, left)

/-- `operator=(T*&&)` with `nullptr`. -/
def nullAssign (this : Option Obj) : Prog Obj Handle Volume (Option Obj) := do
  let _ ← reset this
  return none

/-- A call with `operator&` as its out-parameter. -/
def outParam (this reply : Option Obj) : Prog Obj Handle Volume (Option Obj) := fun w =>
  let w := { w with lost := this.toList ++ w.lost }
  match reply with
  | none => .ok none w
  | some o => .ok (some o) { w with count := incr w.count o, acquired := {o} + w.acquired }

def destroy (data : Option Obj) : Prog Obj Handle Volume Unit := do
  let _ ← reset data
  return ()

end IUnknownW

/-- The program owns the references `held`: the counts are right, what was acquired
and not released is `held`, and no pointer was lost. The mutex is as told, and
`calls` are the volumes that were set. -/
structure Holds (outside : Obj → ℕ) (locked : Bool) (calls : List (Obj × Volume))
    (w : World Obj Handle Volume) (held : Multiset Obj) : Prop where
  counted : Counted outside w.count held
  balanced : w.acquired = w.released + held
  lost : w.lost = []
  locked : w.locked = locked
  volumes : w.volumes = calls

theorem Holds.congr {outside : Obj → ℕ} {locked : Bool} {calls : List (Obj × Volume)}
    {w : World Obj Handle Volume} {held held' : Multiset Obj}
    (h : Holds outside locked calls w held) (heq : held = held') :
    Holds outside locked calls w held' := by
  subst heq
  exact h

theorem Holds.setLocked {outside : Obj → ℕ} {locked : Bool} {calls : List (Obj × Volume)}
    {w : World Obj Handle Volume} {held : Multiset Obj} (h : Holds outside locked calls w held)
    (locked' : Bool) : Holds outside locked' calls { w with locked := locked' } held :=
  ⟨h.counted, h.balanced, h.lost, rfl, h.volumes⟩

namespace IUnknownW

variable {outside : Obj → ℕ} {locked : Bool} {calls : List (Obj × Volume)}

theorem callAddRef_spec (o : Obj) :
    Yields (Holds outside locked calls) {o}
      (callAddRef (some o) : Prog Obj Handle Volume Unit) () ({o} + {o}) := by
  intro rest w h
  have hadd := addRef_of_pos (h.counted.pos_of_mem (by simp : o ∈ rest + {o}))
  have hheld : {o} + (rest + {o}) = rest + ({o} + {o}) := by abel
  refine ⟨{ w with count := incr w.count o, acquired := {o} + w.acquired }, ?_, ?_, ?_, h.lost,
    h.locked, h.volumes⟩
  · simp only [EStateM.run, callAddRef, hadd, refs_some]
  · rw [← hheld]
    exact h.counted.incr o
  · dsimp only
    rw [h.balanced]
    abel

theorem callRelease_spec (o : Obj) :
    Yields (Holds outside locked calls) {o}
      (callRelease (some o) : Prog Obj Handle Volume Unit) () 0 := by
  intro rest w h
  have hrel := release_of_pos (h.counted.pos_of_mem (by simp : o ∈ rest + {o}))
  have hheld : rest + {o} = {o} + (rest + 0) := by abel
  refine ⟨{ w with count := decr w.count o, released := {o} + w.released }, ?_, ?_, ?_, h.lost,
    h.locked, h.volumes⟩
  · simp only [EStateM.run, callRelease, hrel, refs_some]
  · have hcounted := h.counted
    rw [hheld] at hcounted
    exact hcounted.decr
  · dsimp only
    rw [h.balanced]
    abel

omit [DecidableEq Obj] in
theorem call_run {o : Obj} {w : World Obj Handle Volume} (hpos : 0 < w.count o) :
    (call (some o) : Prog Obj Handle Volume Obj).run w = .ok o w := by
  simp only [EStateM.run, call, if_neg (Nat.pos_iff_ne_zero.mp hpos)]

theorem call_spec (o : Obj) :
    Yields (Holds outside locked calls) {o} (call (some o) : Prog Obj Handle Volume Obj) o {o} :=
  fun rest w h => ⟨w, call_run (h.counted.pos_of_mem (by simp : o ∈ rest + {o})), h⟩

theorem reset_spec (data : Option Obj) :
    Yields (Holds outside locked calls) (refs data)
      (reset data : Prog Obj Handle Volume (Option Obj)) none 0 := by
  cases data with
  | none => exact Yields.pure _ none 0
  | some o =>
    apply Yields.bind (callRelease_spec o)
    exact Yields.pure _ none 0

theorem share_spec (data : Option Obj) :
    Yields (Holds outside locked calls) (refs data)
      (share data : Prog Obj Handle Volume Unit) () (refs data + refs data) := by
  cases data with
  | none => exact Yields.pure _ () 0
  | some o => exact callAddRef_spec o

theorem take_spec (other : Option Obj) :
    Yields (Holds outside locked calls) (refs other)
      (take other : Prog Obj Handle Volume (Option Obj)) none (refs other) := by
  cases other with
  | none => exact Yields.pure _ none 0
  | some o =>
    apply Yields.bind (callAddRef_spec o)
    apply Yields.step {o} (callRelease_spec o) rfl
    exact Yields.ret (add_zero _)

theorem copyConstruct_spec (other : Option Obj) :
    Yields (Holds outside locked calls) (refs other)
      (copyConstruct other : Prog Obj Handle Volume (Option Obj)) other
      (refs other + refs other) := by
  apply Yields.bind (share_spec other)
  exact Yields.pure _ other _

theorem copyAssign_spec (this other : Option Obj) :
    Yields (Holds outside locked calls) (refs this + refs other)
      (copyAssign this other : Prog Obj Handle Volume (Option Obj)) other
      (refs other + refs other) := by
  apply Yields.step (refs other) (reset_spec this) (add_comm _ _)
  apply Yields.step 0 (share_spec other) (by abel)
  exact Yields.ret (by abel)

theorem moveAssign_spec (this other : Option Obj) :
    Yields (Holds outside locked calls) (refs this + refs other)
      (moveAssign this other : Prog Obj Handle Volume (Option Obj × Option Obj)) (other, none)
      (refs other) := by
  apply Yields.step (refs other) (reset_spec this) (add_comm _ _)
  apply Yields.step 0 (take_spec other) (by abel)
  exact Yields.ret (by abel)

theorem nullAssign_spec (this : Option Obj) :
    Yields (Holds outside locked calls) (refs this)
      (nullAssign this : Prog Obj Handle Volume (Option Obj)) none 0 := by
  apply Yields.bind (reset_spec this)
  exact Yields.pure _ none 0

theorem outParam_spec (reply : Option Obj) :
    Yields (Holds outside locked calls) 0
      (outParam none reply : Prog Obj Handle Volume (Option Obj)) reply (refs reply) := by
  intro rest w h
  rw [add_zero] at h
  cases reply with
  | none => exact ⟨w, rfl, by rwa [refs_none, add_zero]⟩
  | some o =>
    rw [refs_some, add_comm rest]
    refine ⟨_, rfl, h.counted.incr o, ?_, h.lost, h.locked, h.volumes⟩
    dsimp only
    rw [h.balanced]
    abel

theorem destroy_spec (data : Option Obj) :
    Yields (Holds outside locked calls) (refs data)
      (destroy data : Prog Obj Handle Volume Unit) () 0 := by
  apply Yields.bind (reset_spec data)
  exact Yields.pure _ () 0

section Released

variable {w t : World Obj Handle Volume}

theorem released_of_outParam {this reply result : Option Obj}
    (h : (outParam this reply).run w = .ok result t) : t.released = w.released := by
  cases reply <;> cases h <;> rfl

omit [DecidableEq Obj] in
theorem released_of_call {data : Option Obj} {o : Obj}
    (h : (call data : Prog Obj Handle Volume Obj).run w = .ok o t) : t.released = w.released := by
  cases data with
  | none => cases h
  | some o =>
    simp only [EStateM.run, call] at h
    split at h <;> cases h
    rfl

theorem released_of_destroy {data : Option Obj}
    (h : (destroy data : Prog Obj Handle Volume Unit).run w = .ok () t) :
    t.released = refs data + w.released := by
  cases data with
  | none =>
    cases h
    exact (zero_add _).symm
  | some o =>
    unfold destroy reset at h
    rw [if_neg nofun, bind_assoc, EStateM.run_bind] at h
    unfold callRelease at h
    cases hrel : release (some o) w.count with
    | error fault => simp [EStateM.run, hrel] at h
    | ok count =>
      simp only [EStateM.run, hrel] at h
      cases h
      rfl

end Released

end IUnknownW

namespace Wrappers

variable {W : Type} [DecidableEq W]

/-- The cells after a program over their data: a fault, or new data and counts. -/
def after {α : Type} (s : Wrappers W Obj) (data : α → W → Option Obj) :
    EStateM.Result Fault (World Obj Handle Volume) α → Except Fault (Wrappers W Obj)
  | .ok a w => .ok { s with data := data a, count := w.count }
  | .error fault _ => .error fault

variable {s : Wrappers W Obj} {w : World Obj Handle Volume} {this other : W}

omit [DecidableEq W] [DecidableEq Obj] in
theorem bind_eq_after {α β : Type} {s' : Wrappers W Obj} {data : α → W → Option Obj}
    {data' : β → W → Option Obj}
    {cells : Except Fault (Wrappers W Obj)} {prog : Prog Obj Handle Volume α}
    {rest : Wrappers W Obj → Except Fault (Wrappers W Obj)}
    {next : α → Prog Obj Handle Volume β} (h : cells = s.after data (prog.run w))
    (hnext : ∀ a w', rest { s with data := data a, count := w'.count } =
      s'.after data' ((next a).run w')) :
    cells >>= rest = s'.after data' ((prog >>= next).run w) := by
  subst h
  rw [EStateM.run_bind]
  cases prog.run w with
  | ok a w' => exact hnext a w'
  | error fault w' => rfl

omit [DecidableEq W] in
theorem callAddRef_eq_after (hw : w.count = s.count) :
    s.callAddRef this = s.after (fun _ => s.data)
      ((IUnknownW.callAddRef (s.data this)).run w) := by
  unfold callAddRef IUnknownW.callAddRef
  simp only [EStateM.run, hw]
  cases addRef (s.data this) s.count with
  | ok count => rfl
  | error fault => rfl

theorem clear_eq_after (hw : w.count = s.count) :
    s.clear this = s.after (fun _ => Function.update s.data this none)
      ((IUnknownW.callRelease (s.data this)).run w) := by
  unfold clear IUnknownW.callRelease
  simp only [EStateM.run, hw]
  cases release (s.data this) s.count with
  | ok count => rfl
  | error fault => rfl

theorem reset_eq_after (hw : w.count = s.count) :
    s.reset this = s.after (fun p => Function.update s.data this p)
      ((IUnknownW.reset (s.data this)).run w) := by
  unfold reset IUnknownW.reset
  by_cases hd : s.data this = none
  · rw [if_pos hd, if_pos hd]
    change _ = Except.ok
      { s with data := Function.update s.data this (s.data this), count := w.count }
    rw [Function.update_eq_self, hw]
  · rw [if_neg hd, if_neg hd, ← bind_pure (s.clear this)]
    exact bind_eq_after (clear_eq_after hw) fun _ w' => rfl

omit [DecidableEq W] in
theorem share_eq_after (hw : w.count = s.count) :
    s.share this = s.after (fun _ => s.data) ((IUnknownW.share (s.data this)).run w) := by
  unfold share IUnknownW.share
  by_cases hd : s.data this = none
  · rw [if_pos hd, if_pos hd]
    change _ = Except.ok { s with data := s.data, count := w.count }
    rw [hw]
  · rw [if_neg hd, if_neg hd]
    exact callAddRef_eq_after hw

theorem take_eq_after (hw : w.count = s.count) (hdata : s.data this = s.data other) :
    s.take this other = s.after (fun p => Function.update s.data other p)
      ((IUnknownW.take (s.data other)).run w) := by
  unfold take IUnknownW.take
  rw [hdata]
  by_cases hd : s.data other = none
  · rw [if_pos hd, if_pos hd]
    change _ = Except.ok
      { s with data := Function.update s.data other (s.data other), count := w.count }
    rw [Function.update_eq_self, hw]
  · rw [if_neg hd, if_neg hd]
    have hadd : s.callAddRef this = _ := callAddRef_eq_after hw
    rw [hdata] at hadd
    apply bind_eq_after hadd
    intro _ w'
    rw [← bind_pure (clear _ other)]
    exact bind_eq_after (clear_eq_after rfl) fun _ w'' => rfl

/-- On two different wrappers the operations on cells do what the programs over the
wrappers' data do, faults included. -/
theorem copyAssign_eq_after (hw : w.count = s.count) (hne : other ≠ this) :
    s.copyAssign this other = s.after (fun p => Function.update s.data this p)
      ((IUnknownW.copyAssign (s.data this) (s.data other)).run w) := by
  apply bind_eq_after (reset_eq_after hw)
  intro p w'
  dsimp only [setData]
  rw [Function.update_of_ne hne, Function.update_idem, ← bind_pure (share _ this)]
  have hshare : share { s with
      data := Function.update s.data this (s.data other), count := w'.count } this = _ :=
    share_eq_after (w := w') rfl
  simp only [Function.update_self] at hshare
  exact bind_eq_after hshare fun _ w'' => rfl

theorem moveAssign_eq_after (hw : w.count = s.count) (hne : other ≠ this) :
    s.moveAssign this other =
      s.after (fun p => Function.update (Function.update s.data this p.1) other p.2)
        ((IUnknownW.moveAssign (s.data this) (s.data other)).run w) := by
  apply bind_eq_after (reset_eq_after hw)
  intro p w'
  dsimp only [setData]
  rw [Function.update_of_ne hne, Function.update_idem, ← bind_pure (take _ this other)]
  have htake : take { s with
      data := Function.update s.data this (s.data other), count := w'.count } this other = _ :=
    take_eq_after (w := w') rfl (by
      dsimp only
      rw [Function.update_self, Function.update_of_ne hne])
  simp only [Function.update_of_ne hne] at htake
  exact bind_eq_after htake fun _ w'' => rfl

theorem copyConstruct_eq_after (hw : w.count = s.count) :
    s.copyConstruct this other =
      after { s with live := insert this s.live } (fun p => Function.update s.data this p)
        ((IUnknownW.copyConstruct (s.data other)).run w) := by
  have hshare : (s.create this (s.data other)).share this = _ := share_eq_after (w := w) hw
  rw [create_data_self] at hshare
  unfold copyConstruct
  rw [← bind_pure (share _ this)]
  exact bind_eq_after hshare fun _ w' => rfl

theorem nullAssign_eq_after (hw : w.count = s.count) :
    s.pointerAssign this none = s.after (fun p => Function.update s.data this p)
      ((IUnknownW.nullAssign (s.data this)).run w) := by
  apply bind_eq_after (reset_eq_after hw)
  intro p w'
  dsimp only [setData]
  rw [Function.update_idem]
  rfl

theorem outParam_eq_after (hw : w.count = s.count) (reply : Option Obj) :
    s.outParam this reply = s.after (fun p => Function.update s.data this p)
      ((IUnknownW.outParam (s.data this) reply).run w) := by
  cases reply with
  | none =>
    change Except.ok (s.setData this none) = Except.ok
      { s with data := Function.update s.data this none, count := w.count }
    rw [hw]
    rfl
  | some o =>
    change Except.ok ({ s with count := incr s.count o }.setData this (some o)) = Except.ok
      { s with data := Function.update s.data this (some o), count := incr w.count o }
    rw [hw]
    rfl

theorem destroy_eq_after (hw : w.count = s.count) :
    s.destroy this =
      after { s with live := s.live.erase this } (fun _ => Function.update s.data this none)
        ((IUnknownW.destroy (s.data this)).run w) := by
  unfold destroy IUnknownW.destroy reset IUnknownW.reset
  by_cases hd : s.data this = none
  · rw [if_pos hd, if_pos hd]
    change Except.ok { s with live := s.live.erase this } = Except.ok
      { s with
        live := s.live.erase this, data := Function.update s.data this none, count := w.count }
    rw [← hd, Function.update_eq_self, hw]
  · rw [if_neg hd, if_neg hd]
    have hclear : s.clear this = s.after (fun _ => Function.update s.data this none)
        ((do IUnknownW.callRelease (s.data this); return none : Prog Obj Handle Volume
          (Option Obj)).run w) := by
      rw [← bind_pure (s.clear this)]
      exact bind_eq_after (clear_eq_after hw) fun _ w' => rfl
    exact bind_eq_after hclear fun _ w' => rfl

end Wrappers

end AudioCtrl.Audio
