import AudioCtrl.Audio.ReferenceCounts

/-!
# What an assignment leaves in the wrappers

Both assignments empty the target before they read the source. The pointer that
is read is therefore null if the two are one wrapper, and the one that was
there before if they are not, whatever object they hold. So an assignment has
value semantics exactly when the sides are different wrappers or the wrapper is
empty.
-/

namespace AudioCtrl.Audio.Wrappers

open PartialRun RefCount

variable {W Obj : Type} [DecidableEq W] [DecidableEq Obj]

/-- The states before and after `a = b`, if the assignment copies a value. -/
structure CopiesValue (s t : Wrappers W Obj) (a b : W) : Prop where
  live : t.live = s.live
  target : t.data a = s.data b
  source : t.data b = s.data b
  others : ∀ w, w ≠ a → w ≠ b → t.data w = s.data w
  alive : ∀ o, s.data b = some o → 0 < t.count o

/-- The states before and after `a = std::move(b)`, if the assignment moves a value. -/
structure MovesValue (s t : Wrappers W Obj) (a b : W) : Prop where
  live : t.live = s.live
  target : t.data a = s.data b
  source : b ≠ a → t.data b = none
  others : ∀ w, w ≠ a → w ≠ b → t.data w = s.data w
  alive : ∀ o, s.data b = some o → 0 < t.count o

/-- `a = b` returns and has copied the value. -/
def CopyAssigns (s : Wrappers W Obj) (a b : W) : Prop :=
  ∃ t, s.copyAssign a b = .ok t ∧ CopiesValue s t a b

/-- `a = std::move(b)` returns and has moved the value. -/
def MoveAssigns (s : Wrappers W Obj) (a b : W) : Prop :=
  ∃ t, s.moveAssign a b = .ok t ∧ MovesValue s t a b

variable {s t u : Wrappers W Obj} {this other a b : W}

/-! ## The pointers after the fragments -/

omit [DecidableEq W] in
theorem callAddRef_frame (h : s.callAddRef this = .ok t) :
    t.live = s.live ∧ t.data = s.data := by
  unfold callAddRef at h
  cases hadd : addRef (s.data this) s.count with
  | error f =>
    rw [hadd] at h
    cases h
  | ok count =>
    rw [hadd] at h
    cases h
    exact ⟨rfl, rfl⟩

theorem clear_frame (h : s.clear this = .ok t) :
    t.live = s.live ∧ t.data = Function.update s.data this none := by
  unfold clear at h
  cases hrel : release (s.data this) s.count with
  | error f =>
    rw [hrel] at h
    cases h
  | ok count =>
    rw [hrel] at h
    cases h
    exact ⟨rfl, rfl⟩

omit [DecidableEq W] in
theorem share_frame (h : s.share this = .ok t) : t.live = s.live ∧ t.data = s.data := by
  unfold share at h
  split_ifs at h with hd
  · cases h
    exact ⟨rfl, rfl⟩
  · exact callAddRef_frame h

theorem take_frame (h : s.take this other = .ok t)
    (hsource : s.data this = none → s.data other = none) :
    t.live = s.live ∧ t.data = Function.update s.data other none := by
  unfold take at h
  split_ifs at h with hd
  · cases h
    rw [← hsource hd, Function.update_eq_self]
    exact ⟨rfl, rfl⟩
  · cases hadd : s.callAddRef this with
    | error f =>
      rw [hadd] at h
      cases h
    | ok u =>
      rw [hadd] at h
      obtain ⟨hlive, hdata⟩ := callAddRef_frame hadd
      obtain ⟨hlive', hdata'⟩ := clear_frame h
      rw [hdata] at hdata'
      exact ⟨hlive'.trans hlive, hdata'⟩

/-! ## The pointers after an assignment -/

theorem copyAssign_data (h : s.Conserved) (ha : a ∈ s.live) (hb : b ∈ s.live) :
    ∃ t, s.copyAssign a b = .ok t ∧ t.Conserved ∧ t.live = s.live ∧
      t.data = Function.update s.data a (Function.update s.data a none b) := by
  obtain ⟨u, hu, -, hlive, -, hdata⟩ := reset_spec h ha
  obtain ⟨t, ht, hcons⟩ := copyAssign_spec h ha hb
  have hshare : (u.setData a (u.data b)).share a = .ok t := by
    unfold copyAssign at ht
    rw [hu] at ht
    exact ht
  obtain ⟨hlive', hdata'⟩ := share_frame hshare
  refine ⟨t, ht, hcons, hlive'.trans hlive, ?_⟩
  rw [hdata']
  unfold setData
  dsimp only
  rw [hdata, Function.update_idem]

theorem moveAssign_data (h : s.Conserved) (ha : a ∈ s.live) (hb : b ∈ s.live) :
    ∃ t, s.moveAssign a b = .ok t ∧ t.Conserved ∧ t.live = s.live ∧
      t.data = Function.update
        (Function.update s.data a (Function.update s.data a none b)) b none := by
  obtain ⟨u, hu, -, hlive, -, hdata⟩ := reset_spec h ha
  obtain ⟨t, ht, hcons⟩ := moveAssign_spec h ha hb
  have htake : (u.setData a (u.data b)).take a b = .ok t := by
    unfold moveAssign at ht
    rw [hu] at ht
    exact ht
  have hsource : (u.setData a (u.data b)).data a = none →
      (u.setData a (u.data b)).data b = none := by
    intro hnone
    rw [setData_data_self] at hnone
    by_cases hba : b = a
    · rw [hba, setData_data_self, ← hba]
      exact hnone
    · rw [setData_data_of_ne hba]
      exact hnone
  obtain ⟨hlive', hdata'⟩ := take_frame htake hsource
  refine ⟨t, ht, hcons, hlive'.trans hlive, ?_⟩
  rw [hdata']
  unfold setData
  dsimp only
  rw [hdata, Function.update_idem]

/-! ## Value semantics -/

theorem copyAssigns_iff (h : s.Conserved) (ha : a ∈ s.live) (hb : b ∈ s.live) :
    s.CopyAssigns a b ↔ a ≠ b ∨ s.data a = none := by
  obtain ⟨t, ht, hcons, hlive, hdata⟩ := copyAssign_data h ha hb
  constructor
  · rintro ⟨t', ht', hv⟩
    rw [ht] at ht'
    cases ht'
    by_contra hnot
    push Not at hnot
    obtain ⟨rfl, hheld⟩ := hnot
    have htarget := hv.target
    rw [hdata, Function.update_self, Function.update_self] at htarget
    exact hheld htarget.symm
  · intro hcond
    have hread : Function.update s.data a none b = s.data b := by
      by_cases hba : b = a
      · subst hba
        rw [Function.update_self, hcond.resolve_left (fun hne => hne rfl)]
      · rw [Function.update_of_ne hba]
    rw [hread] at hdata
    have hsource : t.data b = s.data b := by
      rw [hdata]
      by_cases hba : b = a
      · rw [hba, Function.update_self]
      · rw [Function.update_of_ne hba]
    refine ⟨t, ht, hlive, by rw [hdata, Function.update_self], hsource, ?_, ?_⟩
    · intro w hwa _
      rw [hdata, Function.update_of_ne hwa]
    · intro o ho
      exact hcons.pos (hlive.symm ▸ hb) (hsource.trans ho)

theorem moveAssigns_iff (h : s.Conserved) (ha : a ∈ s.live) (hb : b ∈ s.live) :
    s.MoveAssigns a b ↔ a ≠ b ∨ s.data a = none := by
  obtain ⟨t, ht, hcons, hlive, hdata⟩ := moveAssign_data h ha hb
  constructor
  · rintro ⟨t', ht', hv⟩
    rw [ht] at ht'
    cases ht'
    by_contra hnot
    push Not at hnot
    obtain ⟨rfl, hheld⟩ := hnot
    have htarget := hv.target
    rw [hdata, Function.update_self] at htarget
    exact hheld htarget.symm
  · intro hcond
    have htarget : t.data a = s.data b := by
      rw [hdata]
      by_cases hba : b = a
      · subst hba
        rw [Function.update_self, hcond.resolve_left (fun hne => hne rfl)]
      · rw [Function.update_of_ne (Ne.symm hba), Function.update_self, Function.update_of_ne hba]
    refine ⟨t, ht, hlive, htarget, fun _ => by rw [hdata, Function.update_self], ?_, ?_⟩
    · intro w hwa hwb
      rw [hdata, Function.update_of_ne hwb, Function.update_of_ne hwa]
    · intro o ho
      exact hcons.pos (hlive.symm ▸ ha) (htarget.trans ho)

/-- A wrapper assigned to itself gives up its reference for good: what is left is the
wrapper emptied, and an object nobody else held is gone. -/
theorem selfAssign_eq (h : s.Conserved) (ha : a ∈ s.live) :
    ∃ t, s.reset a = .ok t ∧ t.data a = none ∧ s.copyAssign a a = .ok t ∧
      s.moveAssign a a = .ok t := by
  obtain ⟨t, ht, -, -, -, hdata⟩ := reset_spec h ha
  have hnone : t.data a = none := by rw [hdata, Function.update_self]
  have hsame : t.setData a (t.data a) = t := by
    unfold setData
    rw [Function.update_eq_self]
  refine ⟨t, ht, hnone, ?_, ?_⟩
  · unfold copyAssign
    rw [ht]
    change (t.setData a (t.data a)).share a = .ok t
    rw [hsame]
    exact if_pos hnone
  · unfold moveAssign
    rw [ht]
    change (t.setData a (t.data a)).take a a = .ok t
    rw [hsame]
    exact if_pos hnone

/-- In every reachable state, both assignments have value semantics if and only if
the two sides are different wrappers or the wrapper is empty. -/
theorem assignment_by_value_iff (outside : Obj → ℕ) (ops : List (Op W Obj))
    (hallowed : Allowed step Legal (start outside) ops)
    (hrun : run step (start outside) ops = some s) (ha : a ∈ s.live) (hb : b ∈ s.live) :
    (s.CopyAssigns a b ↔ a ≠ b ∨ s.data a = none) ∧
      (s.MoveAssigns a b ↔ a ≠ b ∨ s.data a = none) := by
  obtain ⟨t, ht, hcons⟩ := exists_run_of_allowed step_spec (conserved_start outside) hallowed
  rw [hrun] at ht
  cases ht
  exact ⟨copyAssigns_iff hcons ha hb, moveAssigns_iff hcons ha hb⟩

def twoOfOne : List (Op ℕ ℕ) :=
  [.construct 0, .outParam 0 (some 7), .copyConstruct 1 0, .construct 2, .outParam 2 (some 8)]

theorem assignment_by_value_twoOfOne :
    ∃ s : Wrappers ℕ ℕ, run step (start fun _ => 0) twoOfOne = some s ∧ s.data 1 = some 7 ∧
      (s.CopyAssigns 0 1 ↔ 0 ≠ 1 ∨ s.data 0 = none) ∧
      (s.MoveAssigns 0 1 ↔ 0 ≠ 1 ∨ s.data 0 = none) :=
  ⟨_, rfl, rfl,
    assignment_by_value_iff (fun _ => 0) twoOfOne (by decide) rfl (by decide) (by decide)⟩

/-- The only wrapper of an object, assigned to itself, is empty and the object gone. -/
theorem selfAssign_not_by_value :
    ∃ s : Wrappers ℕ ℕ, Allowed step Legal (start fun _ => 0) [.construct 0, .outParam 0 (some 7)] ∧
      run step (start fun _ => 0) [.construct 0, .outParam 0 (some 7)] = some s ∧
      0 ∈ s.live ∧ ¬ s.CopyAssigns 0 0 ∧ ¬ s.MoveAssigns 0 0 := by
  refine ⟨_, by decide, rfl, by decide, ?_, ?_⟩
  · rintro ⟨t, ht, hv⟩
    cases ht
    exact absurd hv.target (by decide)
  · rintro ⟨t, ht, hv⟩
    cases ht
    exact absurd hv.target (by decide)

end AudioCtrl.Audio.Wrappers
