import AudioCtrl.Audio.IUnknownW

/-!
# Reference-count conservation of `IUnknownW`

Each operation is taken apart into the fragments it is written from. Emptying a
wrapper keeps the counts right; giving an empty wrapper a pointer leaves one
reference owed, which the `AddRef` that follows pays.
-/

namespace AudioCtrl.Audio.Wrappers

open PartialRun RefCount

variable {W Obj : Type} [DecidableEq W] [DecidableEq Obj]

/-- The counts are right but for the reference of `this`. -/
def Owes (s : Wrappers W Obj) (this : W) : Prop :=
  Counted s.outside s.count (cellRefs (s.live.erase this) s.data)

variable {s t : Wrappers W Obj} {this other : W} {o : Obj}

omit [DecidableEq Obj] in
@[simp] theorem setData_data_self (p : Option Obj) : (s.setData this p).data this = p :=
  Function.update_self ..

omit [DecidableEq Obj] in
theorem setData_data_of_ne (h : other ≠ this) (p : Option Obj) :
    (s.setData this p).data other = s.data other :=
  Function.update_of_ne h ..

omit [DecidableEq Obj] in
@[simp] theorem create_data_self (p : Option Obj) : (s.create this p).data this = p :=
  Function.update_self ..

omit [DecidableEq Obj] in
theorem create_data_of_ne (h : other ≠ this) (p : Option Obj) :
    (s.create this p).data other = s.data other :=
  Function.update_of_ne h ..

omit [DecidableEq W] in
theorem callAddRef_of_pos (hd : s.data this = some o) (hpos : 0 < s.count o) :
    s.callAddRef this = .ok { s with count := incr s.count o } := by
  unfold callAddRef
  rw [hd, addRef_of_pos hpos]
  rfl

theorem clear_of_pos (hd : s.data this = some o) (hpos : 0 < s.count o) :
    s.clear this = .ok ({ s with count := decr s.count o }.setData this none) := by
  unfold clear
  rw [hd, release_of_pos hpos]
  rfl

omit [DecidableEq W] in
theorem conserved_start (outside : Obj → ℕ) : (start outside : Wrappers W Obj).Conserved :=
  counted_zero outside

omit [DecidableEq W] in
theorem Conserved.pos (h : s.Conserved) (hlive : this ∈ s.live) (hd : s.data this = some o) :
    0 < s.count o :=
  h.pos_of_mem (mem_cellRefs hlive hd)

theorem Owes.pos (h : s.Owes this) (hlive : other ∈ s.live) (hne : other ≠ this)
    (hd : s.data other = some o) : 0 < s.count o :=
  h.pos_of_mem (mem_cellRefs (Finset.mem_erase.mpr ⟨hne, hlive⟩) hd)

theorem Conserved.owes_setData (h : s.Conserved) (hlive : this ∈ s.live)
    (hd : s.data this = none) (p : Option Obj) : (s.setData this p).Owes this := by
  have hcells := cellRefs_erase hlive s.data
  rw [hd, refs_none, zero_add] at hcells
  have hsame := cellRefs_update_of_notMem (Finset.notMem_erase this s.live) s.data p
  unfold Conserved at h
  rw [hcells, ← hsame] at h
  exact h

theorem Conserved.owes_create (h : s.Conserved) (hlive : this ∉ s.live) (p : Option Obj) :
    (s.create this p).Owes this := by
  have hsame := cellRefs_update_of_notMem hlive s.data p
  unfold Owes create
  dsimp only
  rw [Finset.erase_insert hlive, hsame]
  exact h

theorem Owes.conserved_of_none (h : s.Owes this) (hlive : this ∈ s.live)
    (hd : s.data this = none) : s.Conserved := by
  unfold Conserved
  rw [cellRefs_erase hlive, hd, refs_none, zero_add]
  exact h

theorem Owes.conserved_incr (h : s.Owes this) (hlive : this ∈ s.live)
    (hd : s.data this = some o) : Conserved { s with count := incr s.count o } := by
  unfold Conserved
  dsimp only
  rw [cellRefs_erase hlive, hd, refs_some]
  exact h.incr o

theorem clear_spec (h : s.Conserved) (hlive : this ∈ s.live) (hd : s.data this = some o) :
    ∃ t, s.clear this = .ok t ∧ t.Conserved ∧ t.live = s.live ∧ t.outside = s.outside ∧
      t.data = Function.update s.data this none := by
  have hcells := cellRefs_update hlive s.data none
  rw [hd, refs_some, refs_none, zero_add] at hcells
  have hcons : Conserved ({ s with count := decr s.count o }.setData this none) := by
    unfold Conserved at h
    rw [← hcells] at h
    exact h.decr
  exact ⟨_, clear_of_pos hd (h.pos hlive hd), hcons, rfl, rfl, rfl⟩

theorem reset_spec (h : s.Conserved) (hlive : this ∈ s.live) :
    ∃ t, s.reset this = .ok t ∧ t.Conserved ∧ t.live = s.live ∧ t.outside = s.outside ∧
      t.data = Function.update s.data this none := by
  cases hd : s.data this with
  | none =>
    have hsame : Function.update s.data this none = s.data := by
      rw [← hd, Function.update_eq_self]
    exact ⟨s, if_pos hd, h, rfl, rfl, hsame.symm⟩
  | some o =>
    have hreset : s.reset this = s.clear this := if_neg (by simp [hd])
    rw [hreset]
    exact clear_spec h hlive hd

theorem share_spec (h : s.Owes this) (hlive : this ∈ s.live)
    (halive : ∀ o, s.data this = some o → 0 < s.count o) :
    ∃ t, s.share this = .ok t ∧ t.Conserved := by
  cases hd : s.data this with
  | none => exact ⟨s, if_pos hd, h.conserved_of_none hlive hd⟩
  | some o =>
    have hshare : s.share this = s.callAddRef this := if_neg (by simp [hd])
    rw [hshare, callAddRef_of_pos hd (halive o hd)]
    exact ⟨_, rfl, h.conserved_incr hlive hd⟩

theorem take_spec (h : s.Owes this) (hthis : this ∈ s.live) (hother : other ∈ s.live)
    (hsource : ∀ o, s.data this = some o → other ≠ this ∧ s.data other = some o) :
    ∃ t, s.take this other = .ok t ∧ t.Conserved := by
  cases hd : s.data this with
  | none => exact ⟨s, if_pos hd, h.conserved_of_none hthis hd⟩
  | some o =>
    obtain ⟨hne, hdo⟩ := hsource o hd
    have hadd := callAddRef_of_pos hd (h.pos hother hne hdo)
    obtain ⟨t, ht, hcons, -⟩ :=
      clear_spec (h.conserved_incr hthis hd) hother hdo
    have htake : s.take this other = s.callAddRef this >>= fun u => u.clear other :=
      if_neg (by simp [hd])
    rw [htake, hadd]
    exact ⟨t, ht, hcons⟩

omit [DecidableEq Obj] in
theorem source_of_setData (hd : s.data this = none) :
    ∀ o, (s.setData this (s.data other)).data this = some o →
      other ≠ this ∧ (s.setData this (s.data other)).data other = some o := by
  intro o ho
  rw [setData_data_self] at ho
  have hne : other ≠ this := by
    rintro rfl
    rw [hd] at ho
    cases ho
  exact ⟨hne, (setData_data_of_ne hne _).trans ho⟩

omit [DecidableEq Obj] in
theorem source_of_create (hthis : this ∉ s.live) (hother : other ∈ s.live) :
    ∀ o, (s.create this (s.data other)).data this = some o →
      other ≠ this ∧ (s.create this (s.data other)).data other = some o := by
  intro o ho
  rw [create_data_self] at ho
  have hne : other ≠ this := fun h => hthis (h ▸ hother)
  exact ⟨hne, (create_data_of_ne hne _).trans ho⟩

theorem construct_spec (h : s.Conserved) (hthis : this ∉ s.live) :
    ∃ t, s.construct this = .ok t ∧ t.Conserved := by
  have howes := h.owes_create hthis none
  have hlive : this ∈ (s.create this none).live := Finset.mem_insert_self ..
  exact ⟨_, rfl, howes.conserved_of_none hlive (create_data_self none)⟩

theorem pointerConstruct_spec (h : s.Conserved) (hthis : this ∉ s.live) {data : Option Obj}
    (hdata : ∀ o ∈ data, 0 < s.count o) :
    ∃ t, s.pointerConstruct this data = .ok t ∧ t.Conserved := by
  apply share_spec (h.owes_create hthis data) (Finset.mem_insert_self ..)
  intro o ho
  rw [create_data_self] at ho
  exact hdata o ho

theorem copyConstruct_spec (h : s.Conserved) (hthis : this ∉ s.live) (hother : other ∈ s.live) :
    ∃ t, s.copyConstruct this other = .ok t ∧ t.Conserved := by
  have howes := h.owes_create hthis (s.data other)
  apply share_spec howes (Finset.mem_insert_self ..)
  intro o ho
  obtain ⟨hne, hdo⟩ := source_of_create hthis hother o ho
  exact howes.pos (Finset.mem_insert_of_mem hother) hne hdo

theorem moveConstruct_spec (h : s.Conserved) (hthis : this ∉ s.live) (hother : other ∈ s.live) :
    ∃ t, s.moveConstruct this other = .ok t ∧ t.Conserved :=
  take_spec (h.owes_create hthis _) (Finset.mem_insert_self ..) (Finset.mem_insert_of_mem hother)
    (source_of_create hthis hother)

theorem copyAssign_spec (h : s.Conserved) (hthis : this ∈ s.live) (hother : other ∈ s.live) :
    ∃ t, s.copyAssign this other = .ok t ∧ t.Conserved := by
  obtain ⟨u, hu, hcons, hlive, -, hdata⟩ := reset_spec h hthis
  have hnone : u.data this = none := by rw [hdata, Function.update_self]
  rw [← hlive] at hthis hother
  have howes := hcons.owes_setData hthis hnone (u.data other)
  have halive : ∀ o, (u.setData this (u.data other)).data this = some o → 0 < u.count o := by
    intro o ho
    obtain ⟨hne, hdo⟩ := source_of_setData hnone o ho
    exact howes.pos hother hne hdo
  obtain ⟨t, ht, hcons'⟩ := share_spec howes hthis halive
  unfold copyAssign
  rw [hu]
  exact ⟨t, ht, hcons'⟩

theorem moveAssign_spec (h : s.Conserved) (hthis : this ∈ s.live) (hother : other ∈ s.live) :
    ∃ t, s.moveAssign this other = .ok t ∧ t.Conserved := by
  obtain ⟨u, hu, hcons, hlive, -, hdata⟩ := reset_spec h hthis
  have hnone : u.data this = none := by rw [hdata, Function.update_self]
  rw [← hlive] at hthis hother
  have howes := hcons.owes_setData hthis hnone (u.data other)
  obtain ⟨t, ht, hcons'⟩ := take_spec howes hthis hother (source_of_setData hnone)
  unfold moveAssign
  rw [hu]
  exact ⟨t, ht, hcons'⟩

theorem pointerAssign_spec (h : s.Conserved) (hthis : this ∈ s.live) {other : Option Obj}
    (hheld : ∀ o ∈ other, 0 < s.outside o) :
    ∃ t, s.pointerAssign this other = .ok t ∧ t.Conserved := by
  obtain ⟨u, hu, hcons, hlive, hout, hdata⟩ := reset_spec h hthis
  have hnone : u.data this = none := by rw [hdata, Function.update_self]
  rw [← hlive] at hthis
  have howes := hcons.owes_setData hthis hnone other
  unfold pointerAssign
  rw [hu]
  cases other with
  | none => exact ⟨_, rfl, howes.conserved_of_none hthis (setData_data_self none)⟩
  | some o =>
    have hpos : 0 < u.outside o := hout ▸ hheld o rfl
    have hd : (u.setData this (some o)).data this = some o := setData_data_self (some o)
    have hadd := callAddRef_of_pos hd (hcons.pos_of_outside hpos)
    have hcons' := howes.conserved_incr hthis hd
    have hrel : release (some o) (incr u.count o) = .ok (decr (incr u.count o) o) :=
      release_of_pos (hcons'.pos hthis hd)
    refine ⟨{ u.setData this (some o) with
      count := decr (incr u.count o) o, outside := decr u.outside o }, ?_,
      hcons'.decr_outside hpos⟩
    change ((u.setData this (some o)).callAddRef this >>= _) = _
    rw [hadd]
    change (release (some o) (incr u.count o) >>= _) = _
    rw [hrel]
    rfl

theorem outParam_spec (h : s.Conserved) (hthis : this ∈ s.live) (hd : s.data this = none)
    (reply : Option Obj) : ∃ t, s.outParam this reply = .ok t ∧ t.Conserved := by
  have howes := h.owes_setData hthis hd reply
  cases reply with
  | none => exact ⟨_, rfl, howes.conserved_of_none hthis (setData_data_self none)⟩
  | some o => exact ⟨_, rfl, howes.conserved_incr hthis (setData_data_self (some o))⟩

theorem destroy_spec (h : s.Conserved) (hthis : this ∈ s.live) :
    ∃ t, s.destroy this = .ok t ∧ t.Conserved := by
  obtain ⟨u, hu, hcons, hlive, -, hdata⟩ := reset_spec h hthis
  have hcells := cellRefs_erase (hlive ▸ hthis : this ∈ u.live) u.data
  rw [hdata, Function.update_self, refs_none, zero_add, ← hdata] at hcells
  unfold destroy
  rw [hu]
  refine ⟨_, rfl, ?_⟩
  unfold Conserved at hcons ⊢
  rw [hcells] at hcons
  exact hcons

/-- A legal operation meets no null pointer and no dead object, and keeps the counts right. -/
theorem exec_spec (h : s.Conserved) (op : Op W Obj) (hlegal : s.Legal op) :
    ∃ t, s.exec op = .ok t ∧ t.Conserved := by
  cases op with
  | construct this => exact construct_spec h hlegal
  | pointerConstruct this data => exact pointerConstruct_spec h hlegal.1 hlegal.2
  | copyConstruct this other => exact copyConstruct_spec h hlegal.1 hlegal.2
  | moveConstruct this other => exact moveConstruct_spec h hlegal.1 hlegal.2
  | copyAssign this other => exact copyAssign_spec h hlegal.1 hlegal.2
  | moveAssign this other => exact moveAssign_spec h hlegal.1 hlegal.2
  | pointerAssign this other => exact pointerAssign_spec h hlegal.1 hlegal.2
  | outParam this reply => exact outParam_spec h hlegal.1 hlegal.2 reply
  | destroy this => exact destroy_spec h hlegal
  | outsideObtains o => exact ⟨_, rfl, h.incr_outside o⟩
  | outsideReleases o =>
    have hrel : release (some o) s.count = .ok (decr s.count o) :=
      release_of_pos (h.pos_of_outside hlegal)
    unfold exec
    dsimp only
    rw [hrel]
    exact ⟨_, rfl, h.decr_outside hlegal⟩

theorem step_spec (s : Wrappers W Obj) (op : Op W Obj) (h : s.Conserved) (hlegal : s.Legal op) :
    ∃ t, s.step op = some t ∧ t.Conserved := by
  obtain ⟨t, ht, hcons⟩ := exec_spec h op hlegal
  exact ⟨t, by rw [step, ht]; rfl, hcons⟩

/-- Every sequence of legal operations runs to its end without a call on a dead object;
then each count is the number of wrappers at the object plus the references held
outside, and only the latter are left when no wrapper is. -/
theorem references_conserved (outside : Obj → ℕ) (ops : List (Op W Obj))
    (h : Allowed step Legal (start outside) ops) :
    ∃ s, run step (start outside) ops = some s ∧
      (∀ o, s.count o = (s.live.filter fun w => s.data w = some o).card + s.outside o) ∧
      (s.live = ∅ → s.count = s.outside) := by
  obtain ⟨s, hrun, hcons⟩ := exists_run_of_allowed step_spec (conserved_start outside) h
  have hcount : ∀ o, s.count o = (s.live.filter fun w => s.data w = some o).card + s.outside o := by
    intro o
    rw [hcons o, count_cellRefs]
  refine ⟨s, hrun, hcount, fun hempty => funext ?_⟩
  intro o
  rw [hcount o, hempty]
  simp

def aliasedAssignments : List (Op ℕ ℕ) :=
  [.outsideObtains 7, .pointerConstruct 0 (some 7), .copyConstruct 1 0, .copyAssign 0 1,
    .moveAssign 1 1, .construct 2, .outParam 2 (some 8), .moveAssign 0 2,
    .pointerAssign 1 (some 7), .copyAssign 0 0, .destroy 2, .destroy 1, .destroy 0]

theorem references_conserved_aliasedAssignments :
    ∃ s, run step (start fun _ => 0) aliasedAssignments = some s ∧
      (∀ o, s.count o = (s.live.filter fun w => s.data w = some o).card + s.outside o) ∧
      (s.live = ∅ → s.count = s.outside) :=
  references_conserved (fun _ => 0) aliasedAssignments (by decide)

end AudioCtrl.Audio.Wrappers
