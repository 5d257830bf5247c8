import Mathlib.Data.Finset.Basic
import Mathlib.Logic.Function.Basic
import Mathlib.Tactic

/-!
# Registries of raw addresses

A registry maps keys to the addresses of objects it does not own. It is sound
when each address in it belongs to a living object that carries the key of its
entry, and it covers the objects whose key is of some kind when each of them
finds an entry under its key. What breaks either is exact for every operation
but the creation of an object, which breaks neither.
-/

namespace AudioCtrl.Registry

variable {Addr Key : Type*}

/-- Each entry leads to a living object with the key of the entry. -/
def Sound (live : Finset Addr) (key : Addr → Key) (entries : Key → Option Addr) : Prop :=
  ∀ k a, entries k = some a → a ∈ live ∧ key a = k

/-- Each living object with a key in `kind` has an entry under its key. -/
def Covers (kind : Set Key) (live : Finset Addr) (key : Addr → Key)
    (entries : Key → Option Addr) : Prop :=
  ∀ a ∈ live, key a ∈ kind → entries (key a) ≠ none

theorem sound_empty (key : Addr → Key) : Sound ∅ key fun _ => none := by
  intro k a h
  cases h

theorem covers_empty (kind : Set Key) (key : Addr → Key) (entries : Key → Option Addr) :
    Covers kind ∅ key entries := by
  intro a ha
  exact absurd ha (Finset.notMem_empty a)

variable [DecidableEq Addr] {kind : Set Key} {live : Finset Addr} {key : Addr → Key}
  {entries : Key → Option Addr} {a b : Addr} {k : Key}

/-! ## A new object -/

theorem Sound.create (h : Sound live key entries) (ha : a ∉ live) (k : Key) :
    Sound (insert a live) (Function.update key a k) entries := by
  intro k' b hb
  obtain ⟨hlive, hkey⟩ := h k' b hb
  have hne : b ≠ a := fun hba => ha (hba ▸ hlive)
  exact ⟨Finset.mem_insert_of_mem hlive, by rw [Function.update_of_ne hne, hkey]⟩

theorem Covers.create (h : Covers kind live key entries) (ha : a ∉ live)
    (hk : k ∈ kind → entries k ≠ none) :
    Covers kind (insert a live) (Function.update key a k) entries := by
  intro b hb hkind
  rcases Finset.mem_insert.mp hb with rfl | hb
  · rw [Function.update_self] at hkind ⊢
    exact hk hkind
  · have hne : b ≠ a := fun hba => ha (hba ▸ hb)
    rw [Function.update_of_ne hne] at hkind ⊢
    exact h b hb hkind

section Entries

variable [DecidableEq Key]

omit [DecidableEq Addr] in
theorem Sound.enter (h : Sound live key entries) (ha : a ∈ live) :
    Sound live key (Function.update entries (key a) (some a)) := by
  intro k b hb
  by_cases hk : k = key a
  · subst hk
    rw [Function.update_self, Option.some.injEq] at hb
    subst hb
    exact ⟨ha, rfl⟩
  · rw [Function.update_of_ne hk] at hb
    exact h k b hb

omit [DecidableEq Addr] in
theorem Covers.enter (h : Covers kind live key entries) (k : Key) (a : Addr) :
    Covers kind live key (Function.update entries k (some a)) := by
  intro b hb hkind
  by_cases hk : key b = k
  · rw [hk, Function.update_self]
    exact nofun
  · rw [Function.update_of_ne hk]
    exact h b hb hkind

theorem Sound.createEntered (h : Sound live key entries) (ha : a ∉ live) (k : Key) :
    Sound (insert a live) (Function.update key a k) (Function.update entries k (some a)) := by
  have hentered := (h.create ha k).enter (Finset.mem_insert_self a live)
  rwa [Function.update_self] at hentered

theorem Covers.createEntered (h : Covers kind live key entries) (ha : a ∉ live) (k : Key) :
    Covers kind (insert a live) (Function.update key a k)
      (Function.update entries k (some a)) := by
  have hentered := h.enter k a
  apply hentered.create ha
  rw [Function.update_self]
  exact fun _ => nofun

/-! ## The end of an object -/

theorem Sound.erase (h : Sound live key entries) (a : Addr) :
    Sound (live.erase a) key (Function.update entries (key a) none) := by
  intro k b hb
  by_cases hk : k = key a
  · rw [hk, Function.update_self] at hb
    cases hb
  · rw [Function.update_of_ne hk] at hb
    obtain ⟨hlive, hkey⟩ := h k b hb
    have hne : b ≠ a := by
      rintro rfl
      exact hk hkey.symm
    exact ⟨Finset.mem_erase.mpr ⟨hne, hlive⟩, hkey⟩

/-- After an erasure the others are still covered exactly if none of them had its key. -/
theorem Covers.erase_iff (h : Covers kind live key entries) (hkind : key a ∈ kind) :
    Covers kind (live.erase a) key (Function.update entries (key a) none) ↔
      ∀ b ∈ live, b ≠ a → key b ≠ key a := by
  constructor
  · intro hcov b hb hne hkey
    have hentry := hcov b (Finset.mem_erase.mpr ⟨hne, hb⟩) (hkey ▸ hkind)
    rw [hkey, Function.update_self] at hentry
    exact hentry rfl
  · intro halone b hb hbkind
    obtain ⟨hne, hlive⟩ := Finset.mem_erase.mp hb
    rw [Function.update_of_ne (halone b hlive hne)]
    exact h b hlive hbkind

end Entries

theorem Sound.leave_iff (h : Sound live key entries) :
    Sound (live.erase a) key entries ↔ entries (key a) ≠ some a := by
  constructor
  · intro hsound hentry
    exact absurd (hsound _ _ hentry).1 (Finset.notMem_erase a live)
  · intro hentry k b hb
    obtain ⟨hlive, hkey⟩ := h k b hb
    have hne : b ≠ a := by
      rintro rfl
      exact hentry (hkey ▸ hb)
    exact ⟨Finset.mem_erase.mpr ⟨hne, hlive⟩, hkey⟩

theorem Covers.leave (h : Covers kind live key entries) (a : Addr) :
    Covers kind (live.erase a) key entries := by
  intro b hb
  exact h b (Finset.mem_of_mem_erase hb)

/-! ## A new key -/

theorem Sound.rekey_iff (h : Sound live key entries) (ha : a ∈ live) :
    Sound live (Function.update key a k) entries ↔ (entries (key a) = some a → k = key a) := by
  constructor
  · intro hsound hentry
    have hkey := (hsound _ _ hentry).2
    rwa [Function.update_self] at hkey
  · intro hsame k' b hb
    obtain ⟨hlive, hkey⟩ := h k' b hb
    refine ⟨hlive, ?_⟩
    by_cases hba : b = a
    · subst hba
      rw [Function.update_self, hsame (hkey ▸ hb), hkey]
    · rw [Function.update_of_ne hba, hkey]

theorem Covers.rekey (h : Covers kind live key entries) (hb : b ∈ live) :
    Covers kind live (Function.update key a (key b)) entries := by
  intro c hc hkind
  by_cases hca : c = a
  · rw [hca, Function.update_self] at hkind ⊢
    exact h b hb hkind
  · rw [Function.update_of_ne hca] at hkind ⊢
    exact h c hc hkind

end AudioCtrl.Registry
