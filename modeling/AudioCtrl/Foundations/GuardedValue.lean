import Mathlib.Logic.Relation

/-!
# A guarded value

A value that is walked over, item by item, or updated, but never both at a time
and never by two. A walk visits the items that the value has for its argument;
an update may change the value any number of times, also to something unfinished.
-/

namespace AudioCtrl.GuardedValue

inductive Mode (ι : Type*)
  | free
  | walking (rest : List ι)
  | updating

/-- A value `τ`, and all visits to items `ι` so far. -/
structure Guarded (τ ι : Type*) where
  value : τ
  mode : Mode ι
  visited : List ι

variable {τ ν ι : Type*} {items : τ → ν → List ι}

/-- What may happen to the value, with walks for an argument `ν`. -/
inductive Step (items : τ → ν → List ι) : Guarded τ ι → Guarded τ ι → Prop
  | startWalk (x : τ) (v : ν) (is : List ι) :
      Step items ⟨x, .free, is⟩ ⟨x, .walking (items x v), is⟩
  | visit (x : τ) (i : ι) (rest is : List ι) :
      Step items ⟨x, .walking (i :: rest), is⟩ ⟨x, .walking rest, is ++ [i]⟩
  | endWalk (x : τ) (is : List ι) : Step items ⟨x, .walking [], is⟩ ⟨x, .free, is⟩
  | startUpdate (x : τ) (is : List ι) : Step items ⟨x, .free, is⟩ ⟨x, .updating, is⟩
  | change (x y : τ) (is : List ι) : Step items ⟨x, .updating, is⟩ ⟨y, .updating, is⟩
  | endUpdate (x : τ) (is : List ι) : Step items ⟨x, .updating, is⟩ ⟨x, .free, is⟩

/-- A walk over `x` for `v` that began after the visits `is` is under way, or has ended. -/
inductive Walk (items : τ → ν → List ι) (x : τ) (v : ν) (is : List ι) : Guarded τ ι → Prop
  | visiting (done rest : List ι) (h : items x v = done ++ rest) :
      Walk items x v is ⟨x, .walking rest, is ++ done⟩
  | ended : Walk items x v is ⟨x, .free, is ++ items x v⟩

variable {x : τ} {v : ν} {is : List ι} {g g' : Guarded τ ι}

theorem Walk.start (items : τ → ν → List ι) (x : τ) (v : ν) (is : List ι) :
    Walk items x v is ⟨x, .walking (items x v), is⟩ := by
  have h : Walk items x v is ⟨x, .walking (items x v), is ++ []⟩ :=
    .visiting [] (items x v) (List.nil_append _).symm
  rwa [List.append_nil] at h

theorem Walk.step (h : Walk items x v is g) (hmode : g.mode ≠ .free) (hstep : Step items g g') :
    Walk items x v is g' := by
  cases h with
  | ended => exact absurd rfl hmode
  | visiting done rest h =>
    cases hstep with
    | visit x i rest is =>
      rw [List.append_assoc]
      apply Walk.visiting
      rw [h, List.append_assoc]
      rfl
    | endWalk =>
      rw [List.append_nil] at h
      rw [← h]
      exact .ended

theorem Walk.step_or_stutter (h : Walk items x v is g) (hmode : g.mode ≠ .free)
    (hstep : Relation.ReflGen (Step items) g g') : Walk items x v is g' := by
  cases hstep with
  | refl => exact h
  | single hstep => exact h.step hmode hstep

theorem Walk.value (h : Walk items x v is g) : g.value = x := by
  cases h <;> rfl

theorem Walk.mode_ne_updating (h : Walk items x v is g) : g.mode ≠ .updating := by
  cases h <;> exact nofun

theorem Walk.visited_prefix (h : Walk items x v is g) :
    ∃ done, g.visited = is ++ done ∧ done <+: items x v := by
  cases h with
  | visiting done rest h => exact ⟨done, rfl, rest, h.symm⟩
  | ended => exact ⟨items x v, rfl, List.prefix_rfl⟩

/-- A walk that has ended visited every item once, in order. -/
theorem Walk.visited_all (h : Walk items x v is g) (hmode : g.mode = .free) :
    g.visited = is ++ items x v := by
  cases h with
  | visiting => cases hmode
  | ended => rfl

end AudioCtrl.GuardedValue
