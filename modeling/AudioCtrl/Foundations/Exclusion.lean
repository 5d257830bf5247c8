import Mathlib.Tactic

/-!
# Mutual exclusion in a list of threads

A thread is given by what it does next; `inside` tells which of these are steps
of a critical section.
-/

namespace AudioCtrl.Exclusion

variable {α : Type} {inside : α → Bool}

/-- Exactly the holder of the mutex is inside. -/
def Exclusive (inside : α → Bool) (holder : Option ℕ) (threads : List α) : Prop :=
  ∀ k, holder = some k ↔ ∃ pc, threads[k]? = some pc ∧ inside pc = true

variable {holder : Option ℕ} {threads : List α} {j k : ℕ} {pc pc' : α}

theorem getElem?_set_cases (h : (threads.set k pc')[j]? = some pc) :
    j = k ∧ pc = pc' ∨ j ≠ k ∧ threads[j]? = some pc := by
  rw [List.getElem?_set] at h
  by_cases hjk : k = j
  · rw [if_pos hjk] at h
    obtain ⟨-, h⟩ := Option.ite_none_right_eq_some.mp h
    exact .inl ⟨hjk.symm, (Option.some.inj h).symm⟩
  · rw [if_neg hjk] at h
    exact .inr ⟨fun hkj => hjk hkj.symm, h⟩

theorem getElem?_set_self (hk : threads[k]? = some pc) (pc' : α) :
    (threads.set k pc')[k]? = some pc' := by
  obtain ⟨hlt, -⟩ := List.getElem?_eq_some_iff.mp hk
  exact List.getElem?_set_self hlt

theorem Exclusive.outside_of_ne (h : Exclusive inside (some k) threads)
    (hj : threads[j]? = some pc) (hjk : j ≠ k) : inside pc = false := by
  by_contra hin
  rw [Bool.not_eq_false] at hin
  exact hjk (Option.some.inj ((h j).mpr ⟨pc, hj, hin⟩)).symm

theorem Exclusive.outside_of_free (h : Exclusive inside none threads)
    (hj : threads[j]? = some pc) : inside pc = false := by
  by_contra hin
  rw [Bool.not_eq_false] at hin
  exact nomatch (h j).mpr ⟨pc, hj, hin⟩

theorem Exclusive.stay (h : Exclusive inside holder threads) (hk : threads[k]? = some pc)
    (hsame : inside pc' = inside pc) : Exclusive inside holder (threads.set k pc') := by
  intro j
  rw [h j]
  constructor
  · rintro ⟨q, hq, hin⟩
    by_cases hjk : j = k
    · subst hjk
      obtain rfl : pc = q := Option.some.inj (hk.symm.trans hq)
      exact ⟨pc', getElem?_set_self hk pc', hsame.trans hin⟩
    · rw [List.getElem?_set_ne fun hkj => hjk hkj.symm]
      exact ⟨q, hq, hin⟩
  · rintro ⟨q, hq, hin⟩
    rcases getElem?_set_cases hq with ⟨rfl, rfl⟩ | ⟨-, hq⟩
    · exact ⟨pc, hk, hsame ▸ hin⟩
    · exact ⟨q, hq, hin⟩

theorem Exclusive.enter (h : Exclusive inside none threads) (hk : threads[k]? = some pc)
    (hin : inside pc' = true) : Exclusive inside (some k) (threads.set k pc') := by
  intro j
  constructor
  · intro hjk
    cases hjk
    exact ⟨pc', getElem?_set_self hk pc', hin⟩
  · rintro ⟨q, hq, hqin⟩
    rcases getElem?_set_cases hq with ⟨rfl, -⟩ | ⟨-, hq⟩
    · rfl
    · rw [h.outside_of_free hq] at hqin
      cases hqin

theorem Exclusive.leave (h : Exclusive inside (some k) threads) (hout : inside pc' = false) :
    Exclusive inside none (threads.set k pc') := by
  intro j
  constructor
  · exact nofun
  · rintro ⟨q, hq, hqin⟩
    rcases getElem?_set_cases hq with ⟨-, rfl⟩ | ⟨hjk, hq⟩
    · rw [hout] at hqin
      cases hqin
    · rw [h.outside_of_ne hq hjk] at hqin
      cases hqin

theorem Exclusive.append (h : Exclusive inside holder threads) (hout : inside pc = false) :
    Exclusive inside holder (threads ++ [pc]) := by
  intro j
  rw [h j]
  constructor
  · rintro ⟨q, hq, hin⟩
    obtain ⟨hlt, -⟩ := List.getElem?_eq_some_iff.mp hq
    exact ⟨q, (List.getElem?_append_left hlt).trans hq, hin⟩
  · rintro ⟨q, hq, hin⟩
    by_cases hlt : j < threads.length
    · rw [List.getElem?_append_left hlt] at hq
      exact ⟨q, hq, hin⟩
    · rw [List.getElem?_append_right (by omega)] at hq
      have hqpc : q = pc := List.mem_singleton.mp (List.mem_of_getElem? hq)
      rw [hqpc, hout] at hin
      cases hin

end AudioCtrl.Exclusion
