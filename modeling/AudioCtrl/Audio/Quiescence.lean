import AudioCtrl.Audio.Freshness

/-!
# The threads come to rest

As long as the devices stay as they are and nobody sets the volume, what is left to do
is bounded: every step of a thread and every notification delivered uses some of it up.
Where no such step is possible all threads are idle and the installed tree lists the
active devices, so every change reaches the tree under every schedule.
-/

namespace AudioCtrl.Audio

open RefCount Ownership PartialRun Exclusion

section Weights

variable {Obj Handle Id Volume : Type}

def Pc.size : Pc Obj Id Volume → ℕ
  | .build _ listed _ => listed.length
  | .moveCollection _ temporary _ => temporary.devices.length
  | .moveDevices _ temporary _ => temporary.devices.length
  | .setDeviceVolume _ _ n => n
  | _ => 0

/-- What the thread has left to do where no tree has more than `m` devices. -/
def Pc.left (m : ℕ) : Pc Obj Id Volume → ℕ
  | .create => m + 9
  | .register => m + 8
  | .reload => m + 7
  | .enumerate => m + 6
  | .build .. => m + 5
  | .moveCollection .. => m + 4
  | .moveDevices .. => m + 3
  | .unlockReload _ => 2
  | .leaveReload _ => 1
  | .setMainVolume _ => m + 3
  | .setDeviceVolume _ i n => n - i + 2
  | .unlockVolume => 1
  | .idle => 0

/-- A step of a thread, or the delivery of a notification to a new one. -/
def Action.Internal : Action Obj Handle Id Volume → Prop
  | .deliver _ | .thread _ _ => True
  | .changeDevices .. | .changeProperty | .callSetMainVolume _ => False

instance : DecidablePred (Action.Internal : Action Obj Handle Id Volume → Prop)
  | .deliver _ | .thread _ _ => isTrue trivial
  | .changeDevices .. | .changeProperty | .callSetMainVolume _ => isFalse id

theorem callback_left (m : ℕ) (n : Notification) :
    (callback n : Pc Obj Id Volume).left m ≤ m + 7 := by
  cases n with
  | propertyValueChanged => exact Nat.zero_le _
  | defaultDeviceChanged | deviceAdded | deviceRemoved | deviceStateChanged => exact le_refl _

theorem callback_size (n : Notification) : (callback n : Pc Obj Id Volume).size = 0 := by
  cases n <;> rfl

end Weights

namespace System

variable {Obj Handle Id Volume : Type}

def installed (s : System Obj Handle Id Volume) : ℕ :=
  s.deviceEnumerator.deviceCollection.devices.length

/-- All devices, active, installed or listed by a thread. -/
def size (s : System Obj Handle Id Volume) : ℕ :=
  s.os.length + s.installed + (s.threads.map Pc.size).sum

/-- What the threads and the queue have left to do, with the devices to be released. -/
def work (m : ℕ) (s : System Obj Handle Id Volume) : ℕ :=
  s.installed + (s.threads.map (Pc.left m)).sum + s.queue.length * (m + 8)

structure Within (m : ℕ) (s : System Obj Handle Id Volume) : Prop where
  os : s.os.length ≤ m
  installed : s.installed ≤ m
  threads : ∀ pc ∈ s.threads, pc.size ≤ m

theorem within_size (s : System Obj Handle Id Volume) : Within s.size s := by
  refine ⟨?_, ?_, ?_⟩
  · unfold size
    omega
  · unfold size
    omega
  · intro pc hpc
    have hmem : pc.size ∈ s.threads.map Pc.size := List.mem_map_of_mem hpc
    have hle := List.single_le_sum (fun n _ => Nat.zero_le n) _ hmem
    unfold size
    omega

/-- All threads are idle and no notification is queued. -/
structure AtRest (s : System Obj Handle Id Volume) : Prop where
  queue : s.queue = []
  threads : ∀ pc ∈ s.threads, pc = .idle
  holder : s.holder = none

variable {deviceOf : Obj → Id} {outside : Obj → ℕ} {m : ℕ}
  {s t : System Obj Handle Id Volume} {k : ℕ} {pc pc' : Pc Obj Id Volume}

/-! ## Every step uses up some work -/

/-- Thread `k` goes on, and less is left to do. -/
inductive Advance (m k : ℕ) (s t : System Obj Handle Id Volume) : Prop
  | step (pc pc' : Pc Obj Id Volume) (hk : s.threads[k]? = some pc)
      (hthreads : t.threads = s.threads.set k pc') (hos : t.os = s.os)
      (hqueue : t.queue = s.queue) (hsize : pc'.size ≤ m) (hinstalled : t.installed ≤ m)
      (hlt : t.installed + pc'.left m < s.installed + pc.left m)

theorem Advance.goto {u : System Obj Handle Id Volume} (hw : Within m s)
    (hk : s.threads[k]? = some pc) (hthreads : u.threads = s.threads) (hos : u.os = s.os)
    (hqueue : u.queue = s.queue) (htree : u.installed = s.installed) (hsize : pc'.size ≤ m)
    (hlt : pc'.left m < pc.left m) : Advance m k s (u.goto k pc') := by
  have hinstalled : (u.goto k pc').installed = s.installed := htree
  refine .step pc pc' hk (congrArg (fun l => l.set k pc') hthreads) hos hqueue hsize ?_ ?_
  · exact hinstalled ▸ hw.installed
  · omega

theorem Advance.work_lt (hw : Within m s) (h : Advance m k s t) :
    Within m t ∧ t.work m < s.work m ∧ t.os = s.os := by
  obtain ⟨pc, pc', hk, hthreads, hos, hqueue, hsize, hinstalled, hlt⟩ := h
  refine ⟨⟨hos ▸ hw.os, hinstalled, ?_⟩, ?_, hos⟩
  · intro q hq
    rw [hthreads] at hq
    rcases List.mem_or_eq_of_mem_set hq with hq | rfl
    · exact hw.threads q hq
    · exact hsize
  · obtain ⟨others, hsum, hset⟩ := exists_others (Pc.left m) hk
    unfold work
    rw [hthreads, hqueue, hsum, hset]
    omega

theorem advance_of_exec {α : Type} {prog : Prog Obj Handle Volume α}
    {next : α → System Obj Handle Id Volume → System Obj Handle Id Volume}
    (hcrashed : (s.exec prog next).crashed = none)
    (h : ∀ a w, prog.run s.world = .ok a w → Advance m k s (next a { s with world := w })) :
    Advance m k s (s.exec prog next) := by
  unfold exec at hcrashed ⊢
  cases hrun : prog.run s.world with
  | ok a w => exact h a w hrun
  | error fault w => simp [hrun] at hcrashed

variable [DecidableEq Obj]

theorem Safe.length_of_buildTree (h : Safe outside s) {p : Option Obj} {listed : List Id}
    {number : ℕ} (hk : s.threads[k]? = some (.build p listed number))
    {found : List (Endpoint Obj Handle)} {temporary : DeviceCollection Obj}
    {w : World Obj Handle Volume}
    (hrun : (DeviceEnumerator.buildTree p
      { collection := p, devices := found.map Endpoint.reply, getCount := true,
        allocates := true }).run s.world = .ok temporary w) :
    temporary.devices.length = found.length := by
  obtain ⟨others, hsum, -⟩ := exists_others Pc.locals hk
  obtain ⟨c, rfl⟩ : ∃ c, p = some c := h.prepared k _ hk
  have hheld : s.held = s.deviceEnumerator.refs + others + {c} := by
    simp only [held, hsum, refs_some, Pc.locals]
    abel
  obtain ⟨w', hrun', -, -⟩ :=
    run_of_yields (DeviceEnumerator.buildTree_spec ⟨c, found⟩) h.holds hheld
  change _ = EStateM.Result.ok _ w' at hrun'
  obtain ⟨rfl, -⟩ := EStateM.Result.ok.inj (hrun.symm.trans hrun')
  exact List.length_map _

variable [DecidableEq Id]

theorem advance_of_moveDevices (hw : Within m s) {p : Option Obj}
    {temporary : DeviceCollection Obj} {number : ℕ}
    (hk : s.threads[k]? = some (.moveDevices p temporary number))
    (hstep : s.stepThread deviceOf k (.moveDevices p temporary number) .nothing = some t)
    (hcrashed : t.crashed = none) : Advance m k s t := by
  have hinstalled := hw.installed
  have hsize : temporary.devices.length ≤ m := hw.threads _ (List.mem_of_getElem? hk)
  cases hd : s.deviceEnumerator.deviceCollection.devices with
  | cons d ds =>
    have hset : s.threads = s.threads.set k (.moveDevices p temporary number) := by
      obtain ⟨hlt, hget⟩ := List.getElem?_eq_some_iff.mp hk
      rw [← hget, List.set_getElem_self]
    have hlength : s.installed = ds.length + 1 := congrArg List.length hd
    rw [stepThread_moveDevices_cons deviceOf hd] at hstep
    cases hstep
    apply advance_of_exec hcrashed
    intro _ w _
    refine .step _ _ hk hset rfl rfl hsize ?_ ?_
    · change ds.length ≤ m
      omega
    · change ds.length + _ < _
      omega
  | nil =>
    rw [stepThread_moveDevices_nil deviceOf hd] at hstep
    cases hstep
    apply advance_of_exec hcrashed
    intro _ w _
    refine .step _ _ hk rfl rfl rfl (Nat.zero_le _) hsize ?_
    change temporary.devices.length + 2 < s.installed + (m + 3)
    omega

theorem advance_of_setDeviceVolume (h : Safe outside s) (hw : Within m s) {v : Volume} {i n : ℕ}
    (hk : s.threads[k]? = some (.setDeviceVolume v i n))
    (hstep : s.stepThread deviceOf k (.setDeviceVolume v i n) .nothing = some t)
    (hcrashed : t.crashed = none) : Advance m k s t := by
  obtain ⟨hn, hle⟩ : n = s.deviceEnumerator.deviceCollection.devices.length ∧ i ≤ _ :=
    h.prepared k _ hk
  by_cases hin : i = n
  · rw [stepThread, if_pos hin] at hstep
    cases hstep
    exact .goto hw hk rfl rfl rfl rfl (Nat.zero_le _) (by dsimp only [Pc.left]; omega)
  · obtain ⟨d, hd⟩ : ∃ d, s.deviceEnumerator.deviceCollection.devices[i]? = some d :=
      ⟨_, List.getElem?_eq_getElem (by omega)⟩
    rw [stepThread_setDeviceVolume deviceOf hin hd] at hstep
    cases hstep
    apply advance_of_exec hcrashed
    intro _ w _
    exact .goto hw hk rfl rfl rfl rfl (hn.le.trans hw.installed) (by dsimp only [Pc.left]; omega)

/-- A step of a thread uses up some work and makes no list of devices longer than `m`. -/
theorem advance_of_stepThread (h : Safe outside s) (hw : Within m s)
    (hk : s.threads[k]? = some pc) {answer : Answer Obj Handle}
    (hstep : s.stepThread deviceOf k pc answer = some t) (hcrashed : t.crashed = none) :
    Advance m k s t := by
  have hsize := hw.threads pc (List.mem_of_getElem? hk)
  cases answer with
  | nothing =>
    cases pc with
    | register | leaveReload =>
      cases hstep
      apply advance_of_exec hcrashed
      intro _ w _
      exact .goto hw hk rfl rfl rfl rfl (Nat.zero_le _) (Nat.lt_succ_self _)
    | reload =>
      obtain ⟨-, rfl⟩ := lock_step h hstep
      exact .goto hw hk rfl rfl rfl rfl (Nat.zero_le _) (Nat.lt_succ_self _)
    | moveCollection p temporary number =>
      cases hstep
      apply advance_of_exec hcrashed
      intro _ w _
      exact .goto hw hk rfl rfl rfl rfl hsize (Nat.lt_succ_self _)
    | moveDevices p temporary number => exact advance_of_moveDevices hw hk hstep hcrashed
    | unlockReload | unlockVolume =>
      cases hstep
      exact .goto hw hk rfl rfl rfl rfl (Nat.zero_le _) (Nat.lt_succ_self _)
    | setMainVolume v =>
      obtain ⟨-, rfl⟩ := lock_step h hstep
      refine .goto hw hk rfl rfl rfl rfl hw.installed ?_
      exact Nat.lt_succ_of_le (Nat.add_le_add_right hw.installed 2)
    | setDeviceVolume v i n => exact advance_of_setDeviceVolume h hw hk hstep hcrashed
    | create | idle | enumerate | build => cases hstep
  | object o =>
    cases pc with
    | create =>
      cases hstep
      apply advance_of_exec hcrashed
      intro e w _
      exact .goto hw hk rfl rfl rfl rfl (Nat.zero_le _) (Nat.lt_succ_self _)
    | enumerate =>
      cases hstep
      apply advance_of_exec hcrashed
      intro p w _
      exact .goto hw hk rfl rfl rfl rfl hw.os (Nat.lt_succ_self _)
    | _ => cases hstep
  | devices found =>
    cases pc with
    | build p listed number =>
      obtain ⟨hlisted, hstep⟩ := Option.ite_none_right_eq_some.mp hstep
      cases hstep
      apply advance_of_exec hcrashed
      intro temporary w hrun
      have hlength : temporary.devices.length = listed.length := by
        rw [h.length_of_buildTree hk hrun, ← hlisted, List.length_map]
      exact .goto hw hk rfl rfl rfl rfl (hlength.le.trans hsize) (Nat.lt_succ_self _)
    | _ => cases hstep

/-- What is true of the state while only the threads are at work. -/
structure Working (outside : Obj → ℕ) (deviceOf : Obj → Id) (m : ℕ) (os : List Id)
    (s : System Obj Handle Id Volume) : Prop where
  safe : Safe outside s
  fresh : Fresh deviceOf s
  within : Within m s
  os : s.os = os

theorem Working.step {os : List Id} (h : Working outside deviceOf m os s)
    {a : Action Obj Handle Id Volume} (ha : a.Internal) (hstep : step deviceOf s a = some t) :
    Working outside deviceOf m os t ∧ t.work m < s.work m := by
  have hsafe := safe_of_step s a t h.safe hstep
  have hfresh := fresh_of_move h.safe h.fresh (stepped_of_step h.safe hstep).move
  cases a with
  | changeDevices | changeProperty | callSetMainVolume => exact absurd ha id
  | deliver i =>
    obtain ⟨n, hi, rfl⟩ := Option.map_eq_some_iff.mp hstep
    refine ⟨⟨hsafe, hfresh, ⟨h.within.os, h.within.installed, ?_⟩, h.os⟩, ?_⟩
    · intro pc hpc
      rcases List.mem_append.mp hpc with hold | hnew
      · exact h.within.threads pc hold
      · rw [List.mem_singleton.mp hnew, callback_size]
        exact Nat.zero_le _
    · have hleft : (callback n : Pc Obj Id Volume).left m ≤ m + 7 := callback_left m n
      obtain ⟨hlt, -⟩ := List.getElem?_eq_some_iff.mp hi
      have hlength : (s.queue.eraseIdx i).length + 1 = s.queue.length := by
        rw [List.length_eraseIdx_of_lt hlt]
        omega
      unfold work
      dsimp only [System.installed]
      rw [← hlength, Nat.succ_mul, List.map_append, List.sum_append, List.map_singleton,
        List.sum_singleton]
      omega
  | thread k answer =>
    have hthread := hstep
    rw [System.step, if_pos h.safe.crashed] at hthread
    obtain ⟨pc, hk, hthread⟩ := Option.bind_eq_some_iff.mp hthread
    obtain ⟨hwithin, hlt, hos⟩ :=
      (advance_of_stepThread h.safe h.within hk hthread hsafe.crashed).work_lt h.within
    exact ⟨⟨hsafe, hfresh, hwithin, hos.trans h.os⟩, hlt⟩

/-! ## Where no step is possible -/

/-- A thread that is not idle can go on, unless it waits for the mutex. -/
theorem Safe.exists_step (h : Safe outside s) [Nonempty Obj]
    (honto : Function.Surjective deviceOf) (hk : s.threads[k]? = some pc) (hpc : pc ≠ .idle)
    (hfree : pc.inside = false → s.holder = none) :
    ∃ answer t, step deviceOf s (.thread k answer) = some t := by
  have hstep (answer : Answer Obj Handle) : step deviceOf s (.thread k answer) =
      s.stepThread deviceOf k pc answer := by
    rw [step, if_pos h.crashed, hk, Option.bind_some]
  simp only [hstep]
  obtain ⟨o⟩ := ‹Nonempty Obj›
  cases pc with
  | create | enumerate => exact ⟨.object o, _, rfl⟩
  | reload | setMainVolume =>
    have hunlocked := h.free_iff.mpr (hfree rfl)
    refine ⟨.nothing, _, if_neg ?_⟩
    rw [hunlocked]
    exact Bool.false_ne_true
  | build p listed number =>
    obtain ⟨device, hdevice⟩ := honto.hasRightInverse
    refine ⟨.devices (listed.map fun d => ⟨device d, o, o, o, []⟩), _, if_pos ?_⟩
    rw [List.map_map]
    exact List.map_id'' hdevice listed
  | moveDevices p temporary number =>
    cases hd : s.deviceEnumerator.deviceCollection.devices with
    | cons d ds => exact ⟨.nothing, _, stepThread_moveDevices_cons deviceOf hd⟩
    | nil => exact ⟨.nothing, _, stepThread_moveDevices_nil deviceOf hd⟩
  | setDeviceVolume v i n =>
    obtain ⟨hn, hle⟩ : n = s.deviceEnumerator.deviceCollection.devices.length ∧ i ≤ _ :=
      h.prepared k _ hk
    by_cases hin : i = n
    · exact ⟨.nothing, _, if_pos hin⟩
    · obtain ⟨d, hd⟩ : ∃ d, s.deviceEnumerator.deviceCollection.devices[i]? = some d :=
        ⟨_, List.getElem?_eq_getElem (by omega)⟩
      exact ⟨.nothing, _, stepThread_setDeviceVolume deviceOf hin hd⟩
  | register | moveCollection | unlockReload | leaveReload | unlockVolume =>
    exact ⟨.nothing, _, rfl⟩
  | idle => exact absurd rfl hpc

theorem Safe.atRest_or_step (h : Safe outside s) [Nonempty Obj]
    (honto : Function.Surjective deviceOf) :
    AtRest s ∨ ∃ a t, step deviceOf s a = some t ∧ a.Internal := by
  cases hqueue : s.queue with
  | cons n ns =>
    right
    exact ⟨.deliver 0, _, Option.map_eq_some_iff.mpr ⟨n, by rw [hqueue]; rfl, rfl⟩, trivial⟩
  | nil =>
    cases hholder : s.holder with
    | some k =>
      obtain ⟨pc, hk, hin⟩ := (h.mutex k).mp hholder
      have hpc : pc ≠ .idle := by
        rintro rfl
        cases hin
      have hfree : pc.inside = false → s.holder = none := by
        intro hout
        rw [hin] at hout
        cases hout
      obtain ⟨answer, t, ht⟩ := h.exists_step honto hk hpc hfree
      exact .inr ⟨_, t, ht, trivial⟩
    | none =>
      by_cases hidle : ∀ pc ∈ s.threads, pc = .idle
      · exact .inl ⟨hqueue, hidle, hholder⟩
      · push Not at hidle
        obtain ⟨pc, hmem, hpc⟩ := hidle
        obtain ⟨k, hk⟩ := List.mem_iff_getElem?.mp hmem
        obtain ⟨answer, t, ht⟩ := h.exists_step honto hk hpc fun _ => hholder
        exact .inr ⟨_, t, ht, trivial⟩

omit [DecidableEq Obj] [DecidableEq Id] in
theorem Fresh.listed_of_atRest (h : Fresh deviceOf s) (hrest : AtRest s) :
    s.deviceEnumerator.deviceCollection.listed deviceOf = s.os.map some := by
  rcases h.current with (⟨pc, hpc, hwill⟩ | ⟨n, hn, -⟩) | hlatest
  · rw [hrest.threads pc hpc] at hwill
    cases hwill
  · rw [hrest.queue] at hn
    cases hn
  · rwa [latest_of_free hrest.holder] at hlatest

theorem working_of_run {os : List Id} {actions : List (Action Obj Handle Id Volume)}
    (h : run (step deviceOf) (start outside os) actions = some s) :
    Working outside deviceOf s.size s.os s := by
  have hstep : ∀ (s : System Obj Handle Id Volume) a t, Safe outside s ∧ Fresh deviceOf s →
      step deviceOf s a = some t → Safe outside t ∧ Fresh deviceOf t := by
    rintro s a t ⟨hsafe, hfresh⟩ hst
    exact ⟨safe_of_step s a t hsafe hst,
      fresh_of_move hsafe hfresh (stepped_of_step hsafe hst).move⟩
  obtain ⟨hsafe, hfresh⟩ :=
    run_invariant hstep ⟨safe_start outside os, fresh_start outside os⟩ h
  exact ⟨hsafe, hfresh, within_size s, rfl⟩

/-- The threads can always be brought to rest by steps of their own. -/
theorem Working.exists_run_to_rest [Nonempty Obj] (honto : Function.Surjective deviceOf)
    {os : List Id} (h : Working outside deviceOf m os s) :
    ∃ more t, run (System.step deviceOf) s more = some t ∧
      Meets (System.step deviceOf) (fun _ a => a.Internal) s more ∧
        Working outside deviceOf m os t ∧ AtRest t := by
  have hprog : ∀ s : System Obj Handle Id Volume, Working outside deviceOf m os s →
      AtRest s ∨ ∃ a t, System.step deviceOf s a = some t ∧ a.Internal ∧
        Working outside deviceOf m os t ∧ t.work m < s.work m := by
    intro s hs
    rcases hs.safe.atRest_or_step honto with hrest | ⟨a, t, ht, ha⟩
    · exact .inl hrest
    · obtain ⟨hworking, hlt⟩ := hs.step ha ht
      exact .inr ⟨a, t, ht, ha, hworking, hlt⟩
  obtain ⟨more, t, hrun, hmeets, hworking, hrest, -⟩ := exists_run_to_stop_of_inv _ hprog h
  exact ⟨more, t, hrun, hmeets, hworking, hrest⟩

omit [DecidableEq Obj] [DecidableEq Id] in
theorem AtRest.held_eq (h : AtRest s) : s.held = s.deviceEnumerator.refs := by
  have hlocals : (s.threads.map Pc.locals).sum = 0 := by
    apply List.sum_eq_zero
    intro r hr
    obtain ⟨pc, hpc, rfl⟩ := List.mem_map.mp hr
    rw [h.threads pc hpc]
    rfl
  rw [held, hlocals, add_zero]

/-- However the threads are scheduled, the program meets no fault, at most one thread is
between lock and unlock, every count is right for all that the threads and the tree hold,
everything acquired is held or has been released, no pointer was overwritten, and at rest
only the enumerator and the installed tree are held. -/
theorem references_in_every_schedule {os : List Id} {actions : List (Action Obj Handle Id Volume)}
    (h : run (step deviceOf) (start outside os) actions = some s) :
    s.crashed = none ∧
      (∀ (j k : ℕ) (p q : Pc Obj Id Volume), s.threads[j]? = some p → s.threads[k]? = some q →
        p.inside = true → q.inside = true → j = k) ∧
      (∀ o, s.world.count o = s.held.count o + outside o) ∧
      s.world.acquired = s.world.released + s.held ∧ s.world.lost = [] ∧
      (AtRest s → s.held = s.deviceEnumerator.refs) := by
  have hsafe := safe_of_run h
  refine ⟨hsafe.crashed, ?_, hsafe.holds.counted, hsafe.holds.balanced, hsafe.holds.lost,
    AtRest.held_eq⟩
  intro j k p q hj hk hp hq
  exact Option.some.inj ((hsafe.inside_holder hj hp).symm.trans (hsafe.inside_holder hk hq))

theorem references_in_every_schedule_overtakenChange :
    ∃ s, run (step fun d : ℕ => d) (start (fun _ => 0) [10]) overtakenChange = some s ∧
      s.world.acquired = s.world.released + s.held ∧ s.held ≠ 0 := by
  have h : (run (step fun d : ℕ => d) (start (fun _ => 0) [10]) overtakenChange).any
      (fun s => decide (s.held ≠ 0)) = true := by decide +kernel
  obtain ⟨s, hs, hheld⟩ := (Option.any_eq_true _ _).mp h
  exact ⟨s, hs, (references_in_every_schedule hs).2.2.2.1, of_decide_eq_true hheld⟩

/-- From every reachable state, whatever is scheduled, the threads make no more than
`work` steps until a device changes or the volume is set, they can go on unless all are
idle, and when they are the tree lists the active devices. -/
theorem threads_come_to_rest [Nonempty Obj] (honto : Function.Surjective deviceOf) {os : List Id}
    {actions : List (Action Obj Handle Id Volume)}
    (h : run (step deviceOf) (start outside os) actions = some s)
    {more : List (Action Obj Handle Id Volume)} (ht : run (step deviceOf) s more = some t)
    (hm : Meets (step deviceOf) (fun _ a => a.Internal) s more) :
    more.length ≤ s.work s.size ∧
      ((∃ a u, step deviceOf t a = some u ∧ a.Internal) ∨
        AtRest t ∧ t.deviceEnumerator.deviceCollection.listed deviceOf = s.os.map some) := by
  have hstart := working_of_run h
  have hstep : ∀ (u : System Obj Handle Id Volume) a v, Working outside deviceOf s.size s.os u →
      a.Internal → step deviceOf u a = some v →
        Working outside deviceOf s.size s.os v ∧ v.work s.size < u.work s.size :=
    fun u a v hu ha hst => hu.step ha hst
  have hend :=
    run_invariant_of_meets (fun u a v hu ha hst => (hstep u a v hu ha hst).1) hstart hm ht
  have hlength := length_add_le_of_run (work s.size) hstep hstart hm ht
  refine ⟨by omega, ?_⟩
  rcases hend.safe.atRest_or_step honto with hrest | hmore
  · right
    refine ⟨hrest, ?_⟩
    rw [hend.fresh.listed_of_atRest hrest, hend.os]
  · exact .inl hmore

/-- The run in which a device appears during the first reload ends at rest. -/
theorem threads_come_to_rest_overtakenChange :
    ∃ s t, run (step fun d : ℕ => d) (start (fun _ => 0) [10]) (overtakenChange.take 13) =
        some s ∧
      run (step fun d : ℕ => d) s (overtakenChange.drop 13) = some t ∧
      (overtakenChange.drop 13).length ≤ s.work s.size ∧ t.queue = [] := by
  have h : (run (step fun d : ℕ => d) (start (fun _ => 0) [10]) (overtakenChange.take 13)).any
      (fun s => decide (Meets (step fun d : ℕ => d) (fun _ a => a.Internal) s
          (overtakenChange.drop 13)) &&
        (run (step fun d : ℕ => d) s (overtakenChange.drop 13)).any fun t =>
          decide (t.queue = [])) = true := by decide +kernel
  simp only [Option.any_eq_true, Bool.and_eq_true, decide_eq_true_eq] at h
  obtain ⟨s, hs, hm, t, ht, hqueue⟩ := h
  exact ⟨s, t, hs, ht, (threads_come_to_rest Function.surjective_id hs ht hm).1, hqueue⟩

end System

end AudioCtrl.Audio
