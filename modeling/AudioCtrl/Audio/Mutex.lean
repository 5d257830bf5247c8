import AudioCtrl.Audio.MainVolume
import AudioCtrl.Audio.Threads
import AudioCtrl.Foundations.Exclusion

/-!
# Mutual exclusion and references, over all threads

`Move` says what one step can do. Its proof needs that no piece of the program
meets a fault, which rests on the references: the counts are right for the
enumerator, the installed tree and the locals of all threads together, and only
the thread that holds the mutex is at the installed tree.
-/

namespace AudioCtrl.Audio

open RefCount Ownership PartialRun Exclusion

section Locals

variable {Obj Id Volume : Type}

/-- The thread holds `access_mutex`. -/
def Pc.inside : Pc Obj Id Volume → Bool
  | .enumerate | .build .. | .moveCollection .. | .moveDevices .. | .unlockReload _
  | .setDeviceVolume .. | .unlockVolume => true
  | _ => false

def Pc.locals : Pc Obj Id Volume → Multiset Obj
  | .build pDevices _ _ => refs pDevices
  | .moveCollection pDevices temporary _ => refs pDevices + temporary.refs
  | .moveDevices pDevices temporary _ => refs pDevices + temporary.refs
  | .unlockReload pDevices => refs pDevices
  | .leaveReload pDevices => refs pDevices
  | _ => 0

/-- What a thread has found so far, next to `n` installed devices. -/
def Pc.Prepared (n : ℕ) : Pc Obj Id Volume → Prop
  | .build pDevices _ _ => ∃ c, pDevices = some c
  | .moveCollection _ temporary _ => temporary.HasVolumes
  | .moveDevices _ temporary _ => temporary.HasVolumes
  | .setDeviceVolume _ i m => m = n ∧ i ≤ n
  | _ => True

theorem Pc.Prepared.of_outside {pc : Pc Obj Id Volume} {n : ℕ} (h : pc.Prepared n)
    (hout : pc.inside = false) (m : ℕ) : pc.Prepared m := by
  cases pc with
  | setDeviceVolume v i l => cases hout
  | _ => exact h

end Locals

namespace System

variable {Obj Handle Id Volume : Type}

def held (s : System Obj Handle Id Volume) : Multiset Obj :=
  s.deviceEnumerator.refs + (s.threads.map Pc.locals).sum

def holderPc (s : System Obj Handle Id Volume) : Option (Pc Obj Id Volume) :=
  s.holder.bind fun k => s.threads[k]?

/-- What one step can do. Only `setDeviceVolume` sets a volume, and what a step
outside the mutex releases is a local of the thread. -/
inductive Move (deviceOf : Obj → Id) (s : System Obj Handle Id Volume) :
    System Obj Handle Id Volume → Prop
  | changeDevices (os : List Id) (n : Notification) (hn : n ≠ .propertyValueChanged) :
      Move deviceOf s
        { s with os, queue := if s.registered then s.queue ++ [n] else s.queue }
  | changeProperty (hr : s.registered = true) :
      Move deviceOf s { s with queue := s.queue ++ [.propertyValueChanged] }
  | deliver (i : ℕ) (n : Notification) (hi : s.queue[i]? = some n) :
      Move deviceOf s
        { s with queue := s.queue.eraseIdx i, threads := s.threads ++ [callback n] }
  | callSetMainVolume (v : Volume) (hk : s.threads[0]? = some .idle) :
      Move deviceOf s (s.goto 0 (.setMainVolume v))
  | create (k : ℕ) (e : Obj) (w : World Obj Handle Volume) (hk : s.threads[k]? = some .create)
      (hv : w.volumes = s.world.volumes) (hr : w.released = s.world.released) :
      Move deviceOf s
        ({ s with
          world := w,
          deviceEnumerator := { s.deviceEnumerator with enumerator := some e } }.goto k .register)
  | register (k : ℕ) (w : World Obj Handle Volume) (hk : s.threads[k]? = some .register)
      (hv : w.volumes = s.world.volumes) (hr : w.released = s.world.released) :
      Move deviceOf s ({ s with world := w, registered := true }.goto k .reload)
  | lockReload (k : ℕ) (hk : s.threads[k]? = some .reload) (hfree : s.holder = none) :
      Move deviceOf s
        ({ s with world := { s.world with locked := true }, holder := some k }.goto k .enumerate)
  | enumerate (k : ℕ) (c : Obj) (w : World Obj Handle Volume)
      (hk : s.threads[k]? = some .enumerate) (hv : w.volumes = s.world.volumes) :
      Move deviceOf s
        ({ s with world := w, enumerations := s.enumerations + 1 }.goto k
          (.build (some c) s.os s.enumerations))
  | build (k : ℕ) (c : Obj) (listed : List Id) (number : ℕ) (found : List (Endpoint Obj Handle))
      (w : World Obj Handle Volume) (hk : s.threads[k]? = some (.build (some c) listed number))
      (hlisted : found.map (fun x => deviceOf x.device) = listed)
      (hv : w.volumes = s.world.volumes) :
      Move deviceOf s
        ({ s with world := w }.goto k
          (.moveCollection (some c) (Endpoints.tree ⟨c, found⟩) number))
  | moveCollection (k : ℕ) (p : Option Obj) (temporary : DeviceCollection Obj) (number : ℕ)
      (w : World Obj Handle Volume) (hk : s.threads[k]? = some (.moveCollection p temporary number))
      (hv : w.volumes = s.world.volumes) :
      Move deviceOf s
        (({ s with world := w }.setCollection
          { s.deviceEnumerator.deviceCollection with collection := temporary.collection }).goto k
            (.moveDevices p { temporary with collection := none } number))
  | releaseDevice (k : ℕ) (p : Option Obj) (temporary : DeviceCollection Obj) (number : ℕ)
      (d : Device Obj) (ds : List (Device Obj)) (w : World Obj Handle Volume)
      (hk : s.threads[k]? = some (.moveDevices p temporary number))
      (hd : s.deviceEnumerator.deviceCollection.devices = d :: ds)
      (hv : w.volumes = s.world.volumes) :
      Move deviceOf s
        ({ s with world := w }.setCollection
          { s.deviceEnumerator.deviceCollection with devices := ds })
  | install (k : ℕ) (p : Option Obj) (temporary : DeviceCollection Obj) (number : ℕ)
      (w : World Obj Handle Volume) (hk : s.threads[k]? = some (.moveDevices p temporary number))
      (hd : s.deviceEnumerator.deviceCollection.devices = [])
      (hv : w.volumes = s.world.volumes) :
      Move deviceOf s
        (({ s with world := w, installs := s.installs ++ [number] }.setCollection
          { s.deviceEnumerator.deviceCollection with devices := temporary.devices }).goto k
            (.unlockReload p))
  | unlockReload (k : ℕ) (p : Option Obj) (hk : s.threads[k]? = some (.unlockReload p)) :
      Move deviceOf s
        ({ s with world := { s.world with locked := false }, holder := none }.goto k
          (.leaveReload p))
  | leaveReload (k : ℕ) (p : Option Obj) (w : World Obj Handle Volume)
      (hk : s.threads[k]? = some (.leaveReload p)) (hv : w.volumes = s.world.volumes)
      (hr : w.released = refs p + s.world.released) :
      Move deviceOf s ({ s with world := w }.goto k .idle)
  | lockVolume (k : ℕ) (v : Volume) (hk : s.threads[k]? = some (.setMainVolume v))
      (hfree : s.holder = none) :
      Move deviceOf s
        ({ s with world := { s.world with locked := true }, holder := some k }.goto k
          (.setDeviceVolume v 0 s.deviceEnumerator.deviceCollection.devices.length))
  | setDeviceVolume (k : ℕ) (v : Volume) (i n : ℕ) (d : Device Obj) (o : Obj)
      (hk : s.threads[k]? = some (.setDeviceVolume v i n)) (hin : i ≠ n)
      (hd : s.deviceEnumerator.deviceCollection.devices[i]? = some d)
      (ho : d.endpointVolume = some o) :
      Move deviceOf s
        ({ s with world := { s.world with volumes := s.world.volumes ++ [(o, v)] } }.goto k
          (.setDeviceVolume v (i + 1) n))
  | endDevices (k : ℕ) (v : Volume) (n : ℕ)
      (hk : s.threads[k]? = some (.setDeviceVolume v n n)) :
      Move deviceOf s (s.goto k .unlockVolume)
  | unlockVolume (k : ℕ) (hk : s.threads[k]? = some .unlockVolume) :
      Move deviceOf s
        ({ s with world := { s.world with locked := false }, holder := none }.goto k .idle)

variable [DecidableEq Obj] {deviceOf : Obj → Id} {outside : Obj → ℕ}
  {s t : System Obj Handle Id Volume} {k : ℕ} {pc pc' : Pc Obj Id Volume}

/-- The program has met no fault, the counts are right for all it holds, exactly the
holder of the mutex is inside, and every thread has what its next step needs. -/
structure Safe (outside : Obj → ℕ) (s : System Obj Handle Id Volume) : Prop where
  crashed : s.crashed = none
  holds : Holds outside s.holder.isSome s.world.volumes s.world s.held
  mutex : Exclusive Pc.inside s.holder s.threads
  created : s.deviceEnumerator.enumerator = none ∧ s.threads = [.create] ∧
      s.queue = [] ∧ s.registered = false ∨
    ∃ e, s.deviceEnumerator.enumerator = some e ∧ Pc.create ∉ s.threads
  volumes : s.deviceEnumerator.deviceCollection.HasVolumes
  prepared : ∀ (k : ℕ) (pc : Pc Obj Id Volume), s.threads[k]? = some pc →
    pc.Prepared s.deviceEnumerator.deviceCollection.devices.length

theorem safe_start (outside : Obj → ℕ) (os : List Id) :
    Safe outside (start outside os : System Obj Handle Id Volume) where
  crashed := rfl
  holds := ⟨counted_zero outside, rfl, rfl, rfl, rfl⟩
  mutex := by
    intro k
    refine ⟨nofun, ?_⟩
    rintro ⟨pc, hk, hin⟩
    have hpc : pc = .create := List.mem_singleton.mp (List.mem_of_getElem? hk)
    rw [hpc] at hin
    cases hin
  created := .inl ⟨rfl, rfl, rfl, rfl⟩
  volumes := fun d hd => nomatch hd
  prepared := by
    intro k pc hk
    rw [List.mem_singleton.mp (List.mem_of_getElem? hk)]
    trivial

omit [DecidableEq Obj] in
theorem held_goto (u : System Obj Handle Id Volume) (hu : u.threads = s.threads)
    {others : Multiset Obj}
    (hset : ∀ pc, ((s.threads.set k pc).map Pc.locals).sum = others + pc.locals)
    (pc : Pc Obj Id Volume) :
    u.deviceEnumerator.refs + others + pc.locals = (u.goto k pc).held := by
  unfold held goto
  dsimp only
  rw [hu, hset, add_assoc]

omit [DecidableEq Obj] in
theorem mem_held {i : ℕ} {d : Device Obj} {o : Obj}
    (hd : s.deviceEnumerator.deviceCollection.devices[i]? = some d)
    (ho : d.endpointVolume = some o) : o ∈ s.held := by
  have htree := DeviceCollection.mem_refs (List.mem_of_getElem? hd) ho
  simp [held, DeviceEnumerator.refs, htree]

theorem run_of_yields {α : Type} {prog : Prog Obj Handle Volume α} {a : α}
    {pre post rest : Multiset Obj}
    (hy : Yields (Holds outside s.holder.isSome s.world.volumes) pre prog a post)
    (h : Holds outside s.holder.isSome s.world.volumes s.world s.held)
    (hheld : s.held = rest + pre) :
    ∃ w, prog.run s.world = .ok a w ∧ w.volumes = s.world.volumes ∧
      Holds outside s.holder.isSome w.volumes w (rest + post) := by
  obtain ⟨w, hrun, hw⟩ := hy rest s.world (h.congr hheld)
  exact ⟨w, hrun, hw.volumes, hw.counted, hw.balanced, hw.lost, hw.locked, rfl⟩

theorem Safe.free_iff (h : Safe outside s) : s.world.locked = false ↔ s.holder = none := by
  rw [h.holds.locked]
  cases s.holder <;> simp

theorem Safe.inside_holder (h : Safe outside s) (hk : s.threads[k]? = some pc)
    (hpc : pc.inside = true) : s.holder = some k :=
  (h.mutex k).mpr ⟨pc, hk, hpc⟩

section Holder

variable {u : System Obj Handle Id Volume}

omit [DecidableEq Obj]

theorem holderPc_of_holder (hholder : s.holder = some k) (hk : s.threads[k]? = some pc) :
    s.holderPc = some pc := by
  unfold holderPc
  rw [hholder]
  exact hk

theorem holderPc_of_free (hfree : s.holder = none) : s.holderPc = none := by
  unfold holderPc
  rw [hfree]
  rfl

theorem holderPc_goto (hmutex : Exclusive Pc.inside s.holder s.threads)
    (hk : s.threads[k]? = some pc) (hout : pc.inside = false) (hholder : u.holder = s.holder)
    (hthreads : u.threads = s.threads) : (u.goto k pc').holderPc = s.holderPc := by
  unfold holderPc goto
  dsimp only
  rw [hholder, hthreads]
  cases hh : s.holder with
  | none => rfl
  | some j =>
    obtain ⟨q, hq, hin⟩ := (hmutex j).mp hh
    have hjk : k ≠ j := by
      rintro rfl
      rw [hk] at hq
      cases hq
      rw [hout] at hin
      cases hin
    exact List.getElem?_set_ne hjk

theorem holderPc_goto_holder (hk : s.threads[k]? = some pc) (hholder : u.holder = some k)
    (hthreads : u.threads = s.threads) (pc' : Pc Obj Id Volume) :
    (u.goto k pc').holderPc = some pc' := by
  have hself : (u.goto k pc').threads[k]? = some pc' := by
    unfold goto
    rw [hthreads]
    exact getElem?_set_self hk pc'
  exact holderPc_of_holder hholder hself

theorem holderPc_append (hmutex : Exclusive Pc.inside s.holder s.threads)
    {queue : List Notification} :
    holderPc { s with queue, threads := s.threads ++ [pc] } = s.holderPc := by
  unfold holderPc
  dsimp only
  cases hh : s.holder with
  | none => rfl
  | some j =>
    obtain ⟨q, hq, -⟩ := (hmutex j).mp hh
    obtain ⟨hlt, -⟩ := List.getElem?_eq_some_iff.mp hq
    exact List.getElem?_append_left hlt

end Holder

theorem Safe.enumerator (h : Safe outside s) (hk : s.threads[k]? = some pc)
    (hpc : pc ≠ .create) : ∃ e, s.deviceEnumerator.enumerator = some e := by
  rcases h.created with ⟨-, hthreads, -, -⟩ | ⟨e, he, -⟩
  · rw [hthreads] at hk
    exact absurd (List.mem_singleton.mp (List.mem_of_getElem? hk)) hpc
  · exact ⟨e, he⟩

theorem Safe.not_created (h : Safe outside s) (hk : s.threads[k]? = some .create) :
    s.deviceEnumerator.enumerator = none := by
  rcases h.created with ⟨hnone, -, -, -⟩ | ⟨e, -, hmem⟩
  · exact hnone
  · exact absurd (List.mem_of_getElem? hk) hmem

/-- What a step leads to: a move after which the references are right again. -/
structure Stepped (deviceOf : Obj → Id) (outside : Obj → ℕ) (s t : System Obj Handle Id Volume) :
    Prop where
  move : Move deviceOf s t
  crashed : t.crashed = none
  holds : Holds outside t.holder.isSome t.world.volumes t.world t.held

theorem Stepped.goto {u : System Obj Handle Id Volume} {others r : Multiset Obj}
    (hmove : Move deviceOf s (u.goto k pc')) (hcrashed : u.crashed = none)
    (hthreads : u.threads = s.threads)
    (hset : ∀ pc, ((s.threads.set k pc).map Pc.locals).sum = others + pc.locals)
    (hw : Holds outside u.holder.isSome u.world.volumes u.world r)
    (hr : r = u.deviceEnumerator.refs + others + pc'.locals) :
    Stepped deviceOf outside s (u.goto k pc') :=
  ⟨hmove, hcrashed, hw.congr (hr.trans (held_goto u hthreads hset pc'))⟩

theorem Stepped.goto_same {u : System Obj Handle Id Volume} (hk : s.threads[k]? = some pc)
    (hlocals : pc'.locals = pc.locals) (hmove : Move deviceOf s (u.goto k pc'))
    (hcrashed : u.crashed = none) (hthreads : u.threads = s.threads)
    (htree : u.deviceEnumerator = s.deviceEnumerator)
    (hw : Holds outside u.holder.isSome u.world.volumes u.world s.held) :
    Stepped deviceOf outside s (u.goto k pc') := by
  obtain ⟨others, hsum, hset⟩ := exists_others Pc.locals hk
  apply Stepped.goto hmove hcrashed hthreads hset hw
  rw [held, hsum, htree, hlocals, add_assoc]

section Threads

variable [DecidableEq Id]

omit [DecidableEq Id] in
theorem lock_step (h : Safe outside s)
    {next : Unit → System Obj Handle Id Volume → System Obj Handle Id Volume}
    (hstep : (if s.world.locked then none else some (s.exec lock next)) = some t) :
    s.holder = none ∧ t = next () { s with world := { s.world with locked := true } } := by
  by_cases hlocked : s.world.locked = true
  · rw [if_pos hlocked] at hstep
    cases hstep
  · rw [if_neg hlocked] at hstep
    rw [Bool.not_eq_true] at hlocked
    have hlock : lock.run s.world = .ok () { s.world with locked := true } := by
      simp only [EStateM.run, lock, hlocked, Bool.false_eq_true, if_false]
    rw [exec, hlock] at hstep
    exact ⟨h.free_iff.mp hlocked, (Option.some.inj hstep).symm⟩

theorem stepped_create (h : Safe outside s) (hk : s.threads[k]? = some .create) (o : Obj)
    (hstep : s.stepThread deviceOf k .create (.object o) = some t) :
    Stepped deviceOf outside s t := by
  obtain ⟨others, hsum, hset⟩ := exists_others Pc.locals hk
  have hheld : s.held = s.deviceEnumerator.deviceCollection.refs + others + 0 := by
    unfold held DeviceEnumerator.refs
    rw [hsum, h.not_created hk, refs_none, zero_add, add_assoc]
    rfl
  obtain ⟨w, hrun, hv, hw⟩ := run_of_yields (IUnknownW.outParam_spec (some o)) h.holds hheld
  simp only [stepThread, h.not_created hk, exec_of_run hrun] at hstep
  cases hstep
  apply Stepped.goto (.create k o w hk hv (IUnknownW.released_of_outParam hrun)) h.crashed rfl
    hset hw
  simp only [DeviceEnumerator.refs, Pc.locals]
  abel

theorem stepped_register (h : Safe outside s) (hk : s.threads[k]? = some .register)
    (hstep : s.stepThread deviceOf k .register .nothing = some t) :
    Stepped deviceOf outside s t := by
  obtain ⟨others, hsum, hset⟩ := exists_others Pc.locals hk
  obtain ⟨e, he⟩ := h.enumerator hk nofun
  have hheld : s.held = s.deviceEnumerator.deviceCollection.refs + others + {e} := by
    simp only [held, DeviceEnumerator.refs, hsum, he, refs_some, Pc.locals]
    abel
  obtain ⟨w, hrun, hv, hw⟩ := run_of_yields (IUnknownW.call_spec e) h.holds hheld
  simp only [stepThread, he, exec_of_run hrun] at hstep
  cases hstep
  apply Stepped.goto (.register k w hk hv (IUnknownW.released_of_call hrun)) h.crashed rfl hset hw
  simp only [DeviceEnumerator.refs, Pc.locals, he, refs_some]
  abel

theorem stepped_reload (h : Safe outside s) (hk : s.threads[k]? = some .reload)
    (hstep : s.stepThread deviceOf k .reload .nothing = some t) :
    Stepped deviceOf outside s t := by
  obtain ⟨hfree, rfl⟩ := lock_step h hstep
  exact Stepped.goto_same hk rfl (.lockReload k hk hfree) h.crashed rfl rfl (h.holds.setLocked true)

theorem stepped_enumerate (h : Safe outside s) (hk : s.threads[k]? = some .enumerate) (c : Obj)
    (hstep : s.stepThread deviceOf k .enumerate (.object c) = some t) :
    Stepped deviceOf outside s t := by
  obtain ⟨others, hsum, hset⟩ := exists_others Pc.locals hk
  obtain ⟨e, he⟩ := h.enumerator hk nofun
  have hheld : s.held = s.deviceEnumerator.deviceCollection.refs + others + {e} := by
    simp only [held, DeviceEnumerator.refs, hsum, he, refs_some, Pc.locals]
    abel
  obtain ⟨w, hrun, hv, hw⟩ :=
    run_of_yields (DeviceEnumerator.enumAudioEndpoints_spec e c) h.holds hheld
  simp only [stepThread, he, exec_of_run hrun] at hstep
  cases hstep
  apply Stepped.goto (.enumerate k c w hk hv) h.crashed rfl hset hw
  simp only [DeviceEnumerator.refs, Pc.locals, he, refs_some]
  abel

theorem stepped_build (h : Safe outside s) {p : Option Obj} {listed : List Id} {number : ℕ}
    (hk : s.threads[k]? = some (.build p listed number)) (found : List (Endpoint Obj Handle))
    (hstep : s.stepThread deviceOf k (.build p listed number) (.devices found) = some t) :
    Stepped deviceOf outside s t := by
  obtain ⟨others, hsum, hset⟩ := exists_others Pc.locals hk
  obtain ⟨c, rfl⟩ : ∃ c, p = some c := h.prepared k _ hk
  obtain ⟨hlisted, hstep⟩ := Option.ite_none_right_eq_some.mp hstep
  have hheld : s.held = s.deviceEnumerator.refs + others + {c} := by
    simp only [held, hsum, refs_some, Pc.locals]
    abel
  obtain ⟨w, hrun, hv, hw⟩ :=
    run_of_yields (DeviceEnumerator.buildTree_spec ⟨c, found⟩) h.holds hheld
  change some (s.exec (DeviceEnumerator.buildTree (some (Endpoints.mk c found).collection)
    (Endpoints.mk c found).reply) _) = some t at hstep
  rw [exec_of_run hrun] at hstep
  cases hstep
  apply Stepped.goto (.build k c listed number found w hk hlisted hv) h.crashed rfl hset hw
  simp only [Pc.locals, refs_some, Endpoints.refs_tree]

theorem stepped_moveCollection (h : Safe outside s) {p : Option Obj}
    {temporary : DeviceCollection Obj} {number : ℕ}
    (hk : s.threads[k]? = some (.moveCollection p temporary number))
    (hstep : s.stepThread deviceOf k (.moveCollection p temporary number) .nothing = some t) :
    Stepped deviceOf outside s t := by
  obtain ⟨others, hsum, hset⟩ := exists_others Pc.locals hk
  have hheld : s.held = refs s.deviceEnumerator.enumerator +
      (s.deviceEnumerator.deviceCollection.devices.map Device.refs).sum + others + refs p +
      (temporary.devices.map Device.refs).sum +
      (refs s.deviceEnumerator.deviceCollection.collection + refs temporary.collection) := by
    simp only [held, DeviceEnumerator.refs, DeviceCollection.refs, hsum, Pc.locals]
    abel
  obtain ⟨w, hrun, hv, hw⟩ := run_of_yields (IUnknownW.moveAssign_spec _ _) h.holds hheld
  simp only [stepThread, exec_of_run hrun] at hstep
  cases hstep
  apply Stepped.goto (.moveCollection k p temporary number w hk hv) h.crashed rfl hset hw
  simp only [DeviceEnumerator.refs, DeviceCollection.refs, Pc.locals, setCollection,
    refs_none]
  abel

theorem stepped_moveDevices (h : Safe outside s) {p : Option Obj}
    {temporary : DeviceCollection Obj} {number : ℕ}
    (hk : s.threads[k]? = some (.moveDevices p temporary number))
    (hstep : s.stepThread deviceOf k (.moveDevices p temporary number) .nothing = some t) :
    Stepped deviceOf outside s t := by
  obtain ⟨others, hsum, hset⟩ := exists_others Pc.locals hk
  cases hd : s.deviceEnumerator.deviceCollection.devices with
  | cons d ds =>
    have hheld : s.held = refs s.deviceEnumerator.enumerator +
        refs s.deviceEnumerator.deviceCollection.collection + (ds.map Device.refs).sum +
        (s.threads.map Pc.locals).sum + d.refs := by
      simp only [held, DeviceEnumerator.refs, DeviceCollection.refs, hd, List.map_cons,
        List.sum_cons]
      abel
    obtain ⟨w, hrun, hv, hw⟩ := run_of_yields (Device.destroy_spec d) h.holds hheld
    rw [stepThread_moveDevices_cons deviceOf hd, exec_of_run hrun] at hstep
    cases hstep
    refine ⟨.releaseDevice k p temporary number d ds w hk hd hv, h.crashed, hw.congr ?_⟩
    simp only [held, DeviceEnumerator.refs, DeviceCollection.refs, setCollection]
    abel
  | nil =>
    have hheld : s.held = refs s.deviceEnumerator.enumerator +
        refs s.deviceEnumerator.deviceCollection.collection + others + refs p +
        (temporary.devices.map Device.refs).sum +
        ({ temporary with devices := [] } : DeviceCollection Obj).refs := by
      simp only [held, DeviceEnumerator.refs, DeviceCollection.refs, hsum, hd, Pc.locals,
        List.map_nil, List.sum_nil]
      abel
    obtain ⟨w, hrun, hv, hw⟩ := run_of_yields (DeviceCollection.destroy_spec _) h.holds hheld
    rw [stepThread_moveDevices_nil deviceOf hd, exec_of_run hrun] at hstep
    cases hstep
    apply Stepped.goto (.install k p temporary number w hk hd hv) h.crashed rfl hset hw
    simp only [DeviceEnumerator.refs, DeviceCollection.refs, Pc.locals, setCollection]
    abel

theorem stepped_unlockReload (h : Safe outside s) {p : Option Obj}
    (hk : s.threads[k]? = some (.unlockReload p))
    (hstep : s.stepThread deviceOf k (.unlockReload p) .nothing = some t) :
    Stepped deviceOf outside s t := by
  cases hstep
  exact Stepped.goto_same hk rfl (.unlockReload k p hk) h.crashed rfl rfl (h.holds.setLocked false)

theorem stepped_leaveReload (h : Safe outside s) {p : Option Obj}
    (hk : s.threads[k]? = some (.leaveReload p))
    (hstep : s.stepThread deviceOf k (.leaveReload p) .nothing = some t) :
    Stepped deviceOf outside s t := by
  obtain ⟨others, hsum, hset⟩ := exists_others Pc.locals hk
  have hheld : s.held = s.deviceEnumerator.refs + others + refs p := by
    rw [held, hsum, add_assoc]
    rfl
  obtain ⟨w, hrun, hv, hw⟩ := run_of_yields (IUnknownW.destroy_spec p) h.holds hheld
  simp only [stepThread, exec_of_run hrun] at hstep
  cases hstep
  exact Stepped.goto (.leaveReload k p w hk hv (IUnknownW.released_of_destroy hrun)) h.crashed rfl
    hset hw rfl

theorem stepped_setMainVolume (h : Safe outside s) {v : Volume}
    (hk : s.threads[k]? = some (.setMainVolume v))
    (hstep : s.stepThread deviceOf k (.setMainVolume v) .nothing = some t) :
    Stepped deviceOf outside s t := by
  obtain ⟨hfree, rfl⟩ := lock_step h hstep
  exact Stepped.goto_same hk rfl (.lockVolume k v hk hfree) h.crashed rfl rfl
    (h.holds.setLocked true)

theorem stepped_setDeviceVolume (h : Safe outside s) {v : Volume} {i n : ℕ}
    (hk : s.threads[k]? = some (.setDeviceVolume v i n))
    (hstep : s.stepThread deviceOf k (.setDeviceVolume v i n) .nothing = some t) :
    Stepped deviceOf outside s t := by
  obtain ⟨rfl, hle⟩ : n = s.deviceEnumerator.deviceCollection.devices.length ∧ i ≤ _ :=
    h.prepared k _ hk
  by_cases hin : i = s.deviceEnumerator.deviceCollection.devices.length
  · subst hin
    simp only [stepThread, if_true] at hstep
    cases hstep
    exact Stepped.goto_same hk rfl (.endDevices k v _ hk) h.crashed rfl rfl h.holds
  · obtain ⟨d, hd⟩ : ∃ d, s.deviceEnumerator.deviceCollection.devices[i]? = some d :=
      ⟨_, List.getElem?_eq_getElem (by omega)⟩
    obtain ⟨o, ho⟩ := h.volumes.exists_volume (List.mem_of_getElem? hd)
    obtain ⟨hrun, hw⟩ := Device.setDeviceVolume_spec ho v h.holds (mem_held hd ho)
    rw [stepThread_setDeviceVolume deviceOf hin hd, exec_of_run hrun] at hstep
    cases hstep
    exact Stepped.goto_same hk rfl (.setDeviceVolume k v i _ d o hk hin hd ho) h.crashed rfl rfl hw

theorem stepped_unlockVolume (h : Safe outside s) (hk : s.threads[k]? = some .unlockVolume)
    (hstep : s.stepThread deviceOf k .unlockVolume .nothing = some t) :
    Stepped deviceOf outside s t := by
  cases hstep
  exact Stepped.goto_same hk rfl (.unlockVolume k hk) h.crashed rfl rfl (h.holds.setLocked false)

theorem stepped_thread (h : Safe outside s) (hk : s.threads[k]? = some pc)
    {answer : Answer Obj Handle} (hstep : s.stepThread deviceOf k pc answer = some t) :
    Stepped deviceOf outside s t := by
  cases answer with
  | nothing =>
    cases pc with
    | register => exact stepped_register h hk hstep
    | reload => exact stepped_reload h hk hstep
    | moveCollection p temporary number => exact stepped_moveCollection h hk hstep
    | moveDevices p temporary number => exact stepped_moveDevices h hk hstep
    | unlockReload p => exact stepped_unlockReload h hk hstep
    | leaveReload p => exact stepped_leaveReload h hk hstep
    | setMainVolume v => exact stepped_setMainVolume h hk hstep
    | setDeviceVolume v i n => exact stepped_setDeviceVolume h hk hstep
    | unlockVolume => exact stepped_unlockVolume h hk hstep
    | create | idle | enumerate | build => cases hstep
  | object o =>
    cases pc with
    | create => exact stepped_create h hk o hstep
    | enumerate => exact stepped_enumerate h hk o hstep
    | _ => cases hstep
  | devices found =>
    cases pc with
    | build p listed number => exact stepped_build h hk found hstep
    | _ => cases hstep

theorem stepped_of_step (h : Safe outside s) {a : Action Obj Handle Id Volume}
    (hstep : step deviceOf s a = some t) : Stepped deviceOf outside s t := by
  cases a with
  | changeDevices os n =>
    rw [step] at hstep
    obtain ⟨hn, hstep⟩ := Option.ite_none_left_eq_some.mp hstep
    cases hstep
    exact ⟨.changeDevices os n hn, h.crashed, h.holds⟩
  | changeProperty =>
    rw [step] at hstep
    obtain ⟨hr, hstep⟩ := Option.ite_none_right_eq_some.mp hstep
    cases hstep
    exact ⟨.changeProperty hr, h.crashed, h.holds⟩
  | deliver i =>
    obtain ⟨n, hi, rfl⟩ := Option.map_eq_some_iff.mp hstep
    refine ⟨.deliver i n hi, h.crashed, h.holds.congr ?_⟩
    have hlocals : (callback n : Pc Obj Id Volume).locals = 0 := by cases n <;> rfl
    simp only [held, List.map_append, List.sum_append, List.map_singleton, List.sum_singleton,
      hlocals, add_zero]
  | callSetMainVolume v =>
    rw [step] at hstep
    split at hstep
    · next hk =>
      cases hstep
      exact Stepped.goto_same hk rfl (.callSetMainVolume v hk) h.crashed rfl rfl h.holds
    · cases hstep
  | thread k answer =>
    rw [step] at hstep
    obtain ⟨-, hstep⟩ := Option.ite_none_right_eq_some.mp hstep
    obtain ⟨pc, hk, hstep⟩ := Option.bind_eq_some_iff.mp hstep
    exact stepped_thread h hk hstep

end Threads

theorem Safe.created_goto (h : Safe outside s) (hk : s.threads[k]? = some pc)
    (hpc : pc ≠ .create) (hpc' : pc' ≠ .create) :
    ∃ e, s.deviceEnumerator.enumerator = some e ∧ Pc.create ∉ s.threads.set k pc' := by
  rcases h.created with ⟨-, hthreads, -, -⟩ | ⟨e, he, hmem⟩
  · rw [hthreads] at hk
    exact absurd (List.mem_singleton.mp (List.mem_of_getElem? hk)) hpc
  · refine ⟨e, he, ?_⟩
    intro hset
    rcases List.mem_or_eq_of_mem_set hset with hold | hnew
    · exact hmem hold
    · exact hpc' hnew.symm

theorem Safe.prepared_goto (h : Safe outside s)
    (hpc' : pc'.Prepared s.deviceEnumerator.deviceCollection.devices.length) :
    ∀ (j : ℕ) (pc : Pc Obj Id Volume), (s.threads.set k pc')[j]? = some pc →
      pc.Prepared s.deviceEnumerator.deviceCollection.devices.length := by
  intro j pc hj
  rcases getElem?_set_cases hj with ⟨-, rfl⟩ | ⟨-, hj⟩
  · exact hpc'
  · exact h.prepared j pc hj

/-- The holder may replace the installed tree: no other thread is at it. -/
theorem Safe.prepared_others (h : Safe outside s) (hholder : s.holder = some k) (n : ℕ)
    (hpc' : pc'.Prepared n) :
    ∀ (j : ℕ) (pc : Pc Obj Id Volume), (s.threads.set k pc')[j]? = some pc → pc.Prepared n := by
  intro j pc hj
  rcases getElem?_set_cases hj with ⟨-, rfl⟩ | ⟨hjk, hj⟩
  · exact hpc'
  · have hmutex := h.mutex
    rw [hholder] at hmutex
    exact (h.prepared j pc hj).of_outside (hmutex.outside_of_ne hj hjk) n

theorem Safe.mutex_held (h : Safe outside s) (hk : s.threads[k]? = some pc)
    (hpc : pc.inside = true) : Exclusive Pc.inside (some k) s.threads := by
  rw [← h.inside_holder hk hpc]
  exact h.mutex

theorem Safe.mutex_free (h : Safe outside s) (hfree : s.holder = none) :
    Exclusive Pc.inside none s.threads := by
  rw [← hfree]
  exact h.mutex

/-! ## Each move keeps the system safe -/

theorem safe_changeDevices (h : Safe outside s) {os : List Id} {n : Notification}
    (hst : Stepped deviceOf outside s
      { s with os, queue := if s.registered then s.queue ++ [n] else s.queue }) :
    Safe outside { s with os, queue := if s.registered then s.queue ++ [n] else s.queue } := by
  refine ⟨hst.crashed, hst.holds, h.mutex, ?_, h.volumes, h.prepared⟩
  rcases h.created with ⟨he, hthreads, hqueue, hreg⟩ | hright
  · refine .inl ⟨he, hthreads, ?_, hreg⟩
    dsimp only
    rw [hreg, hqueue]
    rfl
  · exact .inr hright

/-- The new thread has not locked the mutex, and needs nothing for its first step. -/
theorem safe_deliver (h : Safe outside s) {i : ℕ} {n : Notification} (hi : s.queue[i]? = some n)
    (hst : Stepped deviceOf outside s
      { s with queue := s.queue.eraseIdx i, threads := s.threads ++ [callback n] }) :
    Safe outside { s with queue := s.queue.eraseIdx i, threads := s.threads ++ [callback n] } := by
  have hout : (callback n : Pc Obj Id Volume).inside = false := by cases n <;> rfl
  have hprep : (callback n : Pc Obj Id Volume).Prepared
      s.deviceEnumerator.deviceCollection.devices.length := by cases n <;> trivial
  have hne : (Pc.create : Pc Obj Id Volume) ≠ callback n := by cases n <;> exact nofun
  refine ⟨hst.crashed, hst.holds, h.mutex.append hout, ?_, h.volumes, ?_⟩
  · rcases h.created with ⟨-, -, hqueue, -⟩ | ⟨e, he, hmem⟩
    · rw [hqueue] at hi
      cases hi
    · refine .inr ⟨e, he, ?_⟩
      intro hcreate
      rcases List.mem_append.mp hcreate with hold | hnew
      · exact hmem hold
      · exact hne (List.mem_singleton.mp hnew)
  · intro j pc hj
    rcases List.mem_append.mp (List.mem_of_getElem? hj) with hold | hnew
    · obtain ⟨i, hi⟩ := List.mem_iff_getElem?.mp hold
      exact h.prepared i pc hi
    · rw [List.mem_singleton.mp hnew]
      exact hprep

/-- The only thread that creates the enumerator is the first one, at its first step. -/
theorem safe_create (h : Safe outside s) (hk : s.threads[k]? = some .create) {e : Obj}
    {w : World Obj Handle Volume}
    (hst : Stepped deviceOf outside s ({ s with
      world := w, deviceEnumerator := { s.deviceEnumerator with enumerator := some e } }.goto k
        .register)) :
    Safe outside ({ s with
      world := w, deviceEnumerator := { s.deviceEnumerator with enumerator := some e } }.goto k
        .register) := by
  refine ⟨hst.crashed, hst.holds, h.mutex.stay hk rfl, ?_, h.volumes, h.prepared_goto trivial⟩
  rcases h.created with ⟨-, hthreads, -, -⟩ | ⟨-, -, hmem⟩
  · refine .inr ⟨e, rfl, ?_⟩
    intro hset
    change Pc.create ∈ s.threads.set k .register at hset
    rw [hthreads] at hset hk
    obtain rfl : k = 0 := by
      cases k with
      | zero => rfl
      | succ k => cases hk
    exact nomatch List.mem_singleton.mp hset
  · exact absurd (List.mem_of_getElem? hk) hmem

/-- The holder alone is at the devices that it releases. -/
theorem safe_releaseDevice (h : Safe outside s) {p : Option Obj} {temporary : DeviceCollection Obj}
    {number : ℕ} {d : Device Obj} {ds : List (Device Obj)} {w : World Obj Handle Volume}
    (hk : s.threads[k]? = some (.moveDevices p temporary number))
    (hd : s.deviceEnumerator.deviceCollection.devices = d :: ds)
    (hst : Stepped deviceOf outside s ({ s with world := w }.setCollection
      { s.deviceEnumerator.deviceCollection with devices := ds })) :
    Safe outside ({ s with world := w }.setCollection
      { s.deviceEnumerator.deviceCollection with devices := ds }) := by
  have hvolumes : ∀ d ∈ ds, d.endpointVolume ≠ none := by
    intro d' hd'
    exact h.volumes d' (hd ▸ List.mem_cons_of_mem d hd')
  have hset : s.threads.set k (.moveDevices p temporary number) = s.threads := by
    obtain ⟨hlt, hget⟩ := List.getElem?_eq_some_iff.mp hk
    rw [← hget, List.set_getElem_self]
  have hthis : (Pc.moveDevices p temporary number : Pc Obj Id Volume).Prepared ds.length :=
    h.prepared k _ hk
  have hprepared := h.prepared_others (h.inside_holder hk rfl) ds.length hthis
  have hcreated : ∃ e, s.deviceEnumerator.enumerator = some e ∧
      Pc.create ∉ s.threads.set k (.moveDevices p temporary number) :=
    h.created_goto hk nofun nofun
  rw [hset] at hcreated hprepared
  exact ⟨hst.crashed, hst.holds, h.mutex, .inr hcreated, hvolumes, hprepared⟩

theorem safe_install (h : Safe outside s) {p : Option Obj} {temporary : DeviceCollection Obj}
    {number : ℕ} {w : World Obj Handle Volume}
    (hk : s.threads[k]? = some (.moveDevices p temporary number))
    (hst : Stepped deviceOf outside s (({ s with
      world := w, installs := s.installs ++ [number] }.setCollection
        { s.deviceEnumerator.deviceCollection with devices := temporary.devices }).goto k
          (.unlockReload p))) :
    Safe outside (({ s with world := w, installs := s.installs ++ [number] }.setCollection
      { s.deviceEnumerator.deviceCollection with devices := temporary.devices }).goto k
        (.unlockReload p)) := by
  have hvolumes : temporary.HasVolumes := h.prepared k _ hk
  exact ⟨hst.crashed, hst.holds, h.mutex.stay hk rfl, .inr (h.created_goto hk nofun nofun),
    hvolumes, h.prepared_others (h.inside_holder hk rfl) _ trivial⟩

theorem Safe.goto_of_stepped (h : Safe outside s) {u : System Obj Handle Id Volume}
    (hst : Stepped deviceOf outside s (u.goto k pc')) (hk : s.threads[k]? = some pc)
    (hpc : pc ≠ .create) (hpc' : pc' ≠ .create) (hthreads : u.threads = s.threads)
    (henumerator : u.deviceEnumerator.enumerator = s.deviceEnumerator.enumerator)
    (hdevices : u.deviceEnumerator.deviceCollection.devices =
      s.deviceEnumerator.deviceCollection.devices)
    (hmutex : Exclusive Pc.inside u.holder (s.threads.set k pc'))
    (hprepared : pc'.Prepared s.deviceEnumerator.deviceCollection.devices.length) :
    Safe outside (u.goto k pc') := by
  have hset : (u.goto k pc').threads = s.threads.set k pc' := by
    unfold goto
    rw [hthreads]
  refine ⟨hst.crashed, hst.holds, ?_, ?_, ?_, ?_⟩
  · rw [hset]
    exact hmutex
  · rw [hset]
    change _ ∨ ∃ e, u.deviceEnumerator.enumerator = some e ∧ _
    rw [henumerator]
    exact .inr (h.created_goto hk hpc hpc')
  · unfold DeviceCollection.HasVolumes
    change ∀ d ∈ u.deviceEnumerator.deviceCollection.devices, _
    rw [hdevices]
    exact h.volumes
  · rw [hset]
    change ∀ (k : ℕ) (pc : Pc Obj Id Volume), _ →
      pc.Prepared u.deviceEnumerator.deviceCollection.devices.length
    rw [hdevices]
    exact h.prepared_goto hprepared

theorem safe_of_stepped (h : Safe outside s) (hst : Stepped deviceOf outside s t) :
    Safe outside t := by
  have hmove := hst.move
  cases hmove with
  | changeDevices os n hn => exact safe_changeDevices h hst
  | changeProperty hr =>
    refine ⟨hst.crashed, hst.holds, h.mutex, ?_, h.volumes, h.prepared⟩
    rcases h.created with ⟨-, -, -, hreg⟩ | hright
    · rw [hreg] at hr
      cases hr
    · exact .inr hright
  | deliver i n hi => exact safe_deliver h hi hst
  | create k e w hk => exact safe_create h hk hst
  | releaseDevice k p temporary number d ds w hk hd => exact safe_releaseDevice h hk hd hst
  | install k p temporary number w hk hd => exact safe_install h hk hst
  | callSetMainVolume v hk | register k w hk | leaveReload k p w hk | endDevices k v n hk =>
    exact h.goto_of_stepped hst hk nofun nofun rfl rfl rfl (h.mutex.stay hk rfl) trivial
  | enumerate k c w hk =>
    exact h.goto_of_stepped hst hk nofun nofun rfl rfl rfl (h.mutex.stay hk rfl) ⟨c, rfl⟩
  | build k c listed number found w hk hlisted =>
    have hvolumes : (Endpoints.tree ⟨c, found⟩).HasVolumes := by
      intro d hd
      obtain ⟨x, -, rfl⟩ := List.mem_map.mp hd
      exact Option.some_ne_none x.endpointVolume
    exact h.goto_of_stepped hst hk nofun nofun rfl rfl rfl (h.mutex.stay hk rfl) hvolumes
  | moveCollection k p temporary number w hk =>
    have hvolumes : temporary.HasVolumes := h.prepared k _ hk
    exact h.goto_of_stepped hst hk nofun nofun rfl rfl rfl (h.mutex.stay hk rfl) hvolumes
  | lockReload k hk hfree =>
    exact h.goto_of_stepped hst hk nofun nofun rfl rfl rfl ((h.mutex_free hfree).enter hk rfl)
      trivial
  | lockVolume k v hk hfree =>
    exact h.goto_of_stepped hst hk nofun nofun rfl rfl rfl ((h.mutex_free hfree).enter hk rfl)
      ⟨rfl, Nat.zero_le _⟩
  | setDeviceVolume k v i n d o hk hin hd ho =>
    obtain ⟨rfl, hle⟩ : n = s.deviceEnumerator.deviceCollection.devices.length ∧ i ≤ _ :=
      h.prepared k _ hk
    exact h.goto_of_stepped hst hk nofun nofun rfl rfl rfl (h.mutex.stay hk rfl) ⟨rfl, by omega⟩
  | unlockReload k p hk | unlockVolume k hk =>
    exact h.goto_of_stepped hst hk nofun nofun rfl rfl rfl ((h.mutex_held hk rfl).leave rfl) trivial

variable [DecidableEq Id]

theorem safe_of_step (s : System Obj Handle Id Volume) (a : Action Obj Handle Id Volume)
    (t : System Obj Handle Id Volume) (h : Safe outside s) (hstep : step deviceOf s a = some t) :
    Safe outside t :=
  safe_of_stepped h (stepped_of_step h hstep)

/-- No run meets a fault, and its references are right in every state. -/
theorem safe_of_run {os : List Id} {actions : List (Action Obj Handle Id Volume)}
    (h : run (step deviceOf) (start outside os) actions = some s) : Safe outside s :=
  run_invariant safe_of_step (safe_start outside os) h

end System

end AudioCtrl.Audio
