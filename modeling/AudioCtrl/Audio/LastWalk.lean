import AudioCtrl.Audio.VolumeCalls

/-!
# The last walk and the active devices

A walk over the devices acts on the tree that was installed when it got the mutex. When
the threads have come to rest the installed tree lists the active devices, so the last
walk has acted on exactly these unless another tree was installed after it got the mutex.
-/

namespace AudioCtrl.Audio

open PartialRun Exclusion

def Pc.replaces {Obj Id Volume : Type} : Pc Obj Id Volume → Bool
  | .moveDevices .. => true
  | _ => false

namespace System

variable {Obj Handle Id Volume : Type} {installs : List ℕ} {tree : DeviceCollection Obj}
  {deviceOf : Obj → Id} {outside : Obj → ℕ} {s t : System Obj Handle Id Volume} {k : ℕ}
  {pc pc' : Pc Obj Id Volume}

/-- Since `tree` was the installed one, after `installs`, another one has been installed, or a
thread is replacing it, or it is still there. -/
structure Since (installs : List ℕ) (tree : DeviceCollection Obj)
    (s : System Obj Handle Id Volume) : Prop where
  grown : installs.length ≤ s.installs.length
  same : s.installs = installs →
    (∃ pc ∈ s.threads, pc.replaces = true) ∨ s.deviceEnumerator.deviceCollection = tree

theorem Since.of_threads (h : Since installs tree s) (hinstalls : t.installs = s.installs)
    (hthreads : ∀ pc ∈ s.threads, pc.replaces = true → pc ∈ t.threads)
    (htree : t.deviceEnumerator.deviceCollection = s.deviceEnumerator.deviceCollection) :
    Since installs tree t := by
  refine ⟨hinstalls ▸ h.grown, ?_⟩
  intro heq
  rcases h.same (hinstalls ▸ heq) with ⟨pc, hpc, hreplaces⟩ | hsame
  · exact .inl ⟨pc, hthreads pc hpc hreplaces, hreplaces⟩
  · exact .inr (htree.trans hsame)

theorem Since.of_set (h : Since installs tree s) (hk : s.threads[k]? = some pc)
    (hpc : pc.replaces = false) (hthreads : t.threads = s.threads.set k pc')
    (hinstalls : t.installs = s.installs)
    (htree : t.deviceEnumerator.deviceCollection = s.deviceEnumerator.deviceCollection) :
    Since installs tree t := by
  apply h.of_threads hinstalls _ htree
  intro q hq hreplaces
  obtain ⟨j, hj⟩ := List.mem_iff_getElem?.mp hq
  have hjk : k ≠ j := by
    rintro rfl
    obtain rfl : pc = q := Option.some.inj (hk.symm.trans hj)
    rw [hpc] at hreplaces
    cases hreplaces
  rw [hthreads]
  exact List.mem_of_getElem? ((List.getElem?_set_ne hjk).trans hj)

theorem since_of_move (h : Since installs tree s) (hmove : Move deviceOf s t) :
    Since installs tree t := by
  cases hmove with
  | changeDevices | changeProperty => exact h.of_threads rfl (fun _ hpc _ => hpc) rfl
  | deliver i n hi => exact h.of_threads rfl (fun _ hpc _ => List.mem_append_left _ hpc) rfl
  | callSetMainVolume v hk | create k e w hk | register k w hk | lockReload k hk
  | enumerate k c w hk | build k c listed number found w hk | unlockReload k p hk
  | leaveReload k p w hk | lockVolume k v hk | setDeviceVolume k v i n d o hk
  | endDevices k v n hk | unlockVolume k hk =>
    exact h.of_set hk rfl rfl rfl rfl
  | moveCollection k p temporary number w hk =>
    exact ⟨h.grown, fun _ => .inl ⟨_, List.mem_of_getElem? (getElem?_set_self hk _), rfl⟩⟩
  | releaseDevice k p temporary number d ds w hk =>
    exact ⟨h.grown, fun _ => .inl ⟨_, List.mem_of_getElem? hk, rfl⟩⟩
  | install k p temporary number w hk =>
    have hgrown := h.grown
    refine ⟨?_, ?_⟩
    · dsimp only [goto, setCollection]
      rw [List.length_append]
      omega
    · intro heq
      have hlength := congrArg List.length heq
      dsimp only [goto, setCollection] at hlength
      rw [List.length_append, List.length_singleton] at hlength
      omega

theorem Since.listed_of_atRest (h : Since installs tree s) (hfresh : Fresh deviceOf s)
    (hrest : AtRest s) (hsame : s.installs = installs) :
    tree.listed deviceOf = s.os.map some := by
  rcases h.same hsame with ⟨pc, hpc, hreplaces⟩ | htree
  · rw [hrest.threads pc hpc] at hreplaces
    cases hreplaces
  · rw [← htree]
    exact hfresh.listed_of_atRest hrest

theorem AtRest.calls_eq (h : AtRest s) : s.waiting = [] ∧ s.calls = s.world.volumeCalls := by
  unfold waiting calls
  cases hmain : s.threads[0]? with
  | none => exact ⟨rfl, List.append_nil _⟩
  | some pc =>
    rw [h.threads pc (List.mem_of_getElem? hmain)]
    exact ⟨rfl, List.append_nil _⟩

variable [DecidableEq Obj] [DecidableEq Id]

theorem since_of_run {u : System Obj Handle Id Volume} (hsafe : Safe outside u)
    {actions : List (Action Obj Handle Id Volume)} (h : run (step deviceOf) u actions = some s) :
    Since u.installs u.deviceEnumerator.deviceCollection s := by
  have hstep : ∀ (x : System Obj Handle Id Volume) a y,
      Safe outside x ∧ Since u.installs u.deviceEnumerator.deviceCollection x →
      step deviceOf x a = some y →
      Safe outside y ∧ Since u.installs u.deviceEnumerator.deviceCollection y := by
    rintro x a y ⟨hx, hsince⟩ hxy
    exact ⟨safe_of_step x a y hx hxy, since_of_move hsince (stepped_of_step hx hxy).move⟩
  exact (run_invariant hstep ⟨hsafe, le_refl _, fun _ => .inr rfl⟩ h).2

/-- When the threads are at rest, the calls made last are those of one walk with the volume
requested last, and it went over exactly the devices that are active now, unless a tree was
installed after the walk had got the mutex. -/
theorem last_walk_of_atRest {os : List Id} {actions : List (Action Obj Handle Id Volume)}
    (h : run (step deviceOf) (start outside os) actions = some s) (hrest : AtRest s) {v : Volume}
    (hv : (requested actions).getLast? = some v) :
    ∃ before a u t earlier, before ++ [a] <+: actions ∧
      run (step deviceOf) (start outside os) before = some u ∧ step deviceOf u a = some t ∧
      u.threads[0]? = some (.setMainVolume v) ∧ u.holder = none ∧ t.holder = some 0 ∧
      s.world.volumeCalls = earlier ++ u.deviceEnumerator.deviceCollection.volumeCalls v ∧
      (s.installs = u.installs →
        u.deviceEnumerator.deviceCollection.listed deviceOf = s.os.map some) := by
  obtain ⟨-, walks, hwalks⟩ := walks_of_run h
  obtain ⟨hwaiting, hcalls⟩ := hrest.calls_eq
  have hlast := hwalks.requests
  rw [hwaiting, List.append_nil] at hlast
  rw [← hlast, List.getLast?_map, Option.map_eq_some_iff] at hv
  obtain ⟨w, hw, rfl⟩ := hv
  obtain ⟨earlier, rfl⟩ := List.getLast?_eq_some_iff.mp hw
  have hget : (earlier ++ [w])[earlier.length]? = some w := by simp
  obtain ⟨before, a, u, t, hbefore, hu, ht, -, hmain, hfree, hholder, htree⟩ :=
    hwalks.locked earlier.length w hget
  refine ⟨before, a, u, t, earlier.flatMap fun w => w.1.volumeCalls w.2, hbefore, hu, ht, hmain,
    hfree, hholder, ?_, ?_⟩
  · rw [← hcalls, hwalks.calls, List.flatMap_append, htree]
    simp
  · intro hsame
    obtain ⟨rest, rfl⟩ := hbefore
    rw [List.append_assoc, run_append, hu] at h
    have hsince := since_of_run (safe_of_run hu) h
    exact hsince.listed_of_atRest (working_of_run (run_trans hu h)).fresh hrest hsame

end System

end AudioCtrl.Audio
