import AudioCtrl.Foundations.PartialRun
import AudioCtrl.Foundations.RefCount

/-!
# The wrapper `IUnknownW`

A wrapper is a cell with one field `data`, a pointer to a reference-counted
object. The operations below work on the cells by name, in the order in which
the source reads and writes them, so a wrapper may also be assigned to itself.
References held by anything but a wrapper are counted in `outside`.
-/

namespace AudioCtrl.Audio

open PartialRun RefCount

/-- What stops a program: a call through a null pointer or on an object that is gone, an
exception, a second lock by the same thread, an access behind the end of a vector. -/
inductive Fault
  | nullCall
  | deadCall
  | badAlloc
  | selfLock
  | outOfRange
  deriving Repr, DecidableEq

section Calls

variable {Obj : Type} [DecidableEq Obj]

/-- `p->AddRef()`; an object whose count has reached 0 is gone. -/
def addRef (p : Option Obj) (count : Obj → ℕ) : Except Fault (Obj → ℕ) :=
  match p with
  | none => .error .nullCall
  | some o => if count o = 0 then .error .deadCall else .ok (incr count o)

def release (p : Option Obj) (count : Obj → ℕ) : Except Fault (Obj → ℕ) :=
  match p with
  | none => .error .nullCall
  | some o => if count o = 0 then .error .deadCall else .ok (decr count o)

theorem addRef_of_pos {o : Obj} {count : Obj → ℕ} (h : 0 < count o) :
    addRef (some o) count = .ok (incr count o) :=
  if_neg (Nat.pos_iff_ne_zero.mp h)

theorem release_of_pos {o : Obj} {count : Obj → ℕ} (h : 0 < count o) :
    release (some o) count = .ok (decr count o) :=
  if_neg (Nat.pos_iff_ne_zero.mp h)

end Calls

/-- The wrappers that exist, what they point to, and the objects' counts. -/
structure Wrappers (W Obj : Type) where
  live : Finset W
  data : W → Option Obj
  count : Obj → ℕ
  outside : Obj → ℕ

namespace Wrappers

variable {W Obj : Type} [DecidableEq W] [DecidableEq Obj]

/-- No wrapper exists yet, all references are held outside. -/
def start (outside : Obj → ℕ) : Wrappers W Obj :=
  { live := ∅, data := fun _ => none, count := outside, outside := outside }

def setData (s : Wrappers W Obj) (this : W) (p : Option Obj) : Wrappers W Obj :=
  { s with data := Function.update s.data this p }

/-- Storage for `this` whose `data` a constructor sets first. -/
def create (s : Wrappers W Obj) (this : W) (p : Option Obj) : Wrappers W Obj :=
  { s with live := insert this s.live, data := Function.update s.data this p }

def callAddRef (s : Wrappers W Obj) (this : W) : Except Fault (Wrappers W Obj) := do
  let count ← addRef (s.data this) s.count
  return { s with count := count }

/-- `this->data->Release(); this->data = nullptr`. -/
def clear (s : Wrappers W Obj) (this : W) : Except Fault (Wrappers W Obj) := do
  let count ← release (s.data this) s.count
  return { s with count := count }.setData this none

/-- `if (this->data != nullptr) { this->data->Release(); this->data = nullptr; }`. -/
def reset (s : Wrappers W Obj) (this : W) : Except Fault (Wrappers W Obj) :=
  if s.data this = none then .ok s else s.clear this

/-- `if (this->data != nullptr) this->data->AddRef()`. -/
def share (s : Wrappers W Obj) (this : W) : Except Fault (Wrappers W Obj) :=
  if s.data this = none then .ok s else s.callAddRef this

/-- The end of both moves: the target takes its reference, then the source
gives up its own. -/
def take (s : Wrappers W Obj) (this other : W) : Except Fault (Wrappers W Obj) :=
  if s.data this = none then .ok s else do
    let s ← s.callAddRef this
    s.clear other

def construct (s : Wrappers W Obj) (this : W) : Except Fault (Wrappers W Obj) :=
  .ok (s.create this none)

/-- `IUnknownW(T*)`, and `IUnknownW(T*&&)`, which does the same. -/
def pointerConstruct (s : Wrappers W Obj) (this : W) (data : Option Obj) :
    Except Fault (Wrappers W Obj) :=
  (s.create this data).share this

/-- `IUnknownW(const IUnknownW<T>&)`. -/
def copyConstruct (s : Wrappers W Obj) (this other : W) : Except Fault (Wrappers W Obj) :=
  (s.create this (s.data other)).share this

/-- `IUnknownW(IUnknownW<T>&&)`. -/
def moveConstruct (s : Wrappers W Obj) (this other : W) : Except Fault (Wrappers W Obj) :=
  (s.create this (s.data other)).take this other

/-- `operator=(const IUnknownW<T>&)`. -/
def copyAssign (s : Wrappers W Obj) (this other : W) : Except Fault (Wrappers W Obj) := do
  let s ← s.reset this
  (s.setData this (s.data other)).share this

/-- `operator=(IUnknownW<T>&&)`. -/
def moveAssign (s : Wrappers W Obj) (this other : W) : Except Fault (Wrappers W Obj) := do
  let s ← s.reset this
  (s.setData this (s.data other)).take this other

/-- `operator=(T*&&)`: the reference that came with `other` is released, so it is
no longer held outside. -/
def pointerAssign (s : Wrappers W Obj) (this : W) (other : Option Obj) :
    Except Fault (Wrappers W Obj) := do
  let s ← s.reset this
  let s := s.setData this other
  match other with
  | none => return s
  | some o =>
    let s ← s.callAddRef this
    let count ← release other s.count
    return { s with count := count, outside := decr s.outside o }

/-- A call with `operator&` as its out-parameter: the callee writes the pointer, and
the object it returns has one more reference. -/
def outParam (s : Wrappers W Obj) (this : W) (reply : Option Obj) :
    Except Fault (Wrappers W Obj) :=
  match reply with
  | none => .ok (s.setData this none)
  | some o => .ok ({ s with count := incr s.count o }.setData this (some o))

def destroy (s : Wrappers W Obj) (this : W) : Except Fault (Wrappers W Obj) := do
  let s ← s.reset this
  return { s with live := s.live.erase this }

/-- The wrapper operations, and the two ways in which the references held outside
change on their own. -/
inductive Op (W Obj : Type)
  | construct (this : W)
  | pointerConstruct (this : W) (data : Option Obj)
  | copyConstruct (this other : W)
  | moveConstruct (this other : W)
  | copyAssign (this other : W)
  | moveAssign (this other : W)
  | pointerAssign (this : W) (other : Option Obj)
  | outParam (this : W) (reply : Option Obj)
  | destroy (this : W)
  | outsideObtains (o : Obj)
  | outsideReleases (o : Obj)

def exec (s : Wrappers W Obj) : Op W Obj → Except Fault (Wrappers W Obj)
  | .construct this => s.construct this
  | .pointerConstruct this data => s.pointerConstruct this data
  | .copyConstruct this other => s.copyConstruct this other
  | .moveConstruct this other => s.moveConstruct this other
  | .copyAssign this other => s.copyAssign this other
  | .moveAssign this other => s.moveAssign this other
  | .pointerAssign this other => s.pointerAssign this other
  | .outParam this reply => s.outParam this reply
  | .destroy this => s.destroy this
  | .outsideObtains o => .ok { s with count := incr s.count o, outside := incr s.outside o }
  | .outsideReleases o => do
    let count ← release (some o) s.count
    return { s with count := count, outside := decr s.outside o }

/-- A run stops at the first fault. -/
def step (s : Wrappers W Obj) (op : Op W Obj) : Option (Wrappers W Obj) := (s.exec op).toOption

/-- How the operations are used: constructors on new storage, the others on wrappers
that exist, a raw pointer to an object that is held (for `operator=`, with a
reference from outside that is handed over), `operator&` on an empty wrapper. -/
def Legal (s : Wrappers W Obj) : Op W Obj → Prop
  | .construct this => this ∉ s.live
  | .pointerConstruct this data => this ∉ s.live ∧ ∀ o ∈ data, 0 < s.count o
  | .copyConstruct this other => this ∉ s.live ∧ other ∈ s.live
  | .moveConstruct this other => this ∉ s.live ∧ other ∈ s.live
  | .copyAssign this other => this ∈ s.live ∧ other ∈ s.live
  | .moveAssign this other => this ∈ s.live ∧ other ∈ s.live
  | .pointerAssign this other => this ∈ s.live ∧ ∀ o ∈ other, 0 < s.outside o
  | .outParam this _ => this ∈ s.live ∧ s.data this = none
  | .destroy this => this ∈ s.live
  | .outsideObtains _ => True
  | .outsideReleases o => 0 < s.outside o

instance (s : Wrappers W Obj) : ∀ op, Decidable (s.Legal op)
  | .construct _ => inferInstanceAs (Decidable (_ ∉ _))
  | .pointerConstruct _ _ => inferInstanceAs (Decidable (_ ∧ _))
  | .copyConstruct _ _ | .moveConstruct _ _ => inferInstanceAs (Decidable (_ ∧ _))
  | .copyAssign _ _ | .moveAssign _ _ => inferInstanceAs (Decidable (_ ∧ _))
  | .pointerAssign _ _ => inferInstanceAs (Decidable (_ ∧ _))
  | .outParam _ _ => inferInstanceAs (Decidable (_ ∧ _))
  | .destroy _ => inferInstanceAs (Decidable (_ ∈ _))
  | .outsideObtains _ => isTrue trivial
  | .outsideReleases _ => inferInstanceAs (Decidable (_ < _))

/-- Each count is the number of wrappers at the object plus the outside references. -/
def Conserved (s : Wrappers W Obj) : Prop :=
  Counted s.outside s.count (cellRefs s.live s.data)

end Wrappers

end AudioCtrl.Audio
