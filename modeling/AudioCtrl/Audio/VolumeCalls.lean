import AudioCtrl.Audio.Quiescence
import AudioCtrl.Audio.VolumeWalk

/-!
# All volume calls of a run

Only the receive loop calls `setMainVolume`. In every run the calls of
`SetMasterVolumeLevelScalar` are those of whole walks, one for each request in the order
of the requests, each over the tree that was installed when the request got the mutex.
-/

namespace AudioCtrl.Audio

open PartialRun Exclusion

section Requests

variable {Obj Handle Id Volume : Type}

def Pc.setsVolume : Pc Obj Id Volume → Bool
  | .setMainVolume _ | .setDeviceVolume .. | .unlockVolume => true
  | _ => false

/-- The volume for which the thread is about to take the mutex. -/
def Pc.waiting : Pc Obj Id Volume → List Volume
  | .setMainVolume volume => [volume]
  | _ => []

/-- The calls that the thread has left to make on the installed tree. -/
def Pc.rest (installed : DeviceCollection Obj) : Pc Obj Id Volume → List (Option Obj × Volume)
  | .setDeviceVolume volume i _ => (installed.volumeCalls volume).drop i
  | _ => []

def Action.request : Action Obj Handle Id Volume → Option Volume
  | .callSetMainVolume volume => some volume
  | _ => none

theorem Pc.waiting_of_not_setsVolume {pc : Pc Obj Id Volume} (h : pc.setsVolume = false) :
    pc.waiting = [] := by
  cases pc with
  | setMainVolume v => cases h
  | _ => rfl

theorem Pc.rest_of_outside {pc : Pc Obj Id Volume} (h : pc.inside = false)
    (installed : DeviceCollection Obj) : pc.rest installed = [] := by
  cases pc with
  | setDeviceVolume v i n => cases h
  | _ => rfl

theorem Pc.rest_of_not_setsVolume {pc : Pc Obj Id Volume} (h : pc.setsVolume = false)
    (installed : DeviceCollection Obj) : pc.rest installed = [] := by
  cases pc with
  | setDeviceVolume v i n => cases h
  | _ => rfl

theorem callback_setsVolume (n : Notification) :
    (callback n : Pc Obj Id Volume).setsVolume = false := by
  cases n <;> rfl

end Requests

namespace System

variable {Obj Handle Id Volume : Type}

def requested (actions : List (Action Obj Handle Id Volume)) : List Volume :=
  actions.filterMap Action.request

/-- The request that has not got the mutex yet. -/
def waiting (s : System Obj Handle Id Volume) : List Volume :=
  s.threads[0]?.elim [] Pc.waiting

/-- The calls made so far and those left of the walk under way. -/
def calls (s : System Obj Handle Id Volume) : List (Option Obj × Volume) :=
  s.world.volumeCalls ++ s.threads[0]?.elim [] (Pc.rest s.deviceEnumerator.deviceCollection)

def MainOnly (s : System Obj Handle Id Volume) : Prop :=
  ∀ (k : ℕ) (pc : Pc Obj Id Volume), s.threads[k]? = some pc → pc.setsVolume = true → k = 0

@[simp] theorem requested_append (as bs : List (Action Obj Handle Id Volume)) :
    requested (as ++ bs) = requested as ++ requested bs := List.filterMap_append

variable {deviceOf : Obj → Id} {outside : Obj → ℕ}
  {s t : System Obj Handle Id Volume} {k : ℕ} {pc pc' : Pc Obj Id Volume}

theorem waiting_of_main (hk : s.threads[0]? = some pc) : s.waiting = pc.waiting := by
  unfold waiting
  rw [hk]
  rfl

theorem calls_of_main (hk : s.threads[0]? = some pc) :
    s.calls = s.world.volumeCalls ++ pc.rest s.deviceEnumerator.deviceCollection := by
  unfold calls
  rw [hk]
  rfl

/-! ## What a step does to the requests and the calls -/

/-- A step asks for a volume, gets the mutex for one, or does neither. -/
inductive Effect (s t : System Obj Handle Id Volume) : Prop
  | quiet (hwaiting : t.waiting = s.waiting) (hcalls : t.calls = s.calls)
  | request (v : Volume) (hk : s.threads[0]? = some .idle)
      (hk' : t.threads[0]? = some (.setMainVolume v))
  | lock (v : Volume) (hk : s.threads[0]? = some (.setMainVolume v)) (hfree : s.holder = none)
      (hholder : t.holder = some 0) (hwaiting : t.waiting = [])
      (hcalls : t.calls = s.calls ++ s.deviceEnumerator.deviceCollection.volumeCalls v)

theorem Effect.of_main (hk : s.threads[0]? = some pc) (hk' : t.threads[0]? = some pc')
    (hwaiting : pc'.waiting = pc.waiting)
    (hcalls : t.world.volumeCalls ++ pc'.rest t.deviceEnumerator.deviceCollection =
      s.world.volumeCalls ++ pc.rest s.deviceEnumerator.deviceCollection) : Effect s t := by
  apply Effect.quiet
  · rw [waiting_of_main hk, waiting_of_main hk', hwaiting]
  · rw [calls_of_main hk, calls_of_main hk', hcalls]

theorem MainOnly.set (h : MainOnly s) (hthreads : t.threads = s.threads.set k pc')
    (hpc' : pc'.setsVolume = true → k = 0) : MainOnly t := by
  intro j q hj hq
  rw [hthreads] at hj
  rcases getElem?_set_cases hj with ⟨rfl, rfl⟩ | ⟨-, hj⟩
  · exact hpc' hq
  · exact h j q hj hq

theorem set_moveDevices {p : Option Obj} {temporary : DeviceCollection Obj} {number : ℕ}
    (hk : s.threads[k]? = some (.moveDevices p temporary number)) :
    s.threads = s.threads.set k (.moveDevices p temporary number) := by
  obtain ⟨hlt, hget⟩ := List.getElem?_eq_some_iff.mp hk
  rw [← hget, List.set_getElem_self]

theorem mainOnly_of_move (h : MainOnly s) (hmove : Move deviceOf s t) : MainOnly t := by
  cases hmove with
  | changeDevices | changeProperty => exact h
  | deliver i n hi =>
    intro j q hj hq
    rcases List.mem_append.mp (List.mem_of_getElem? hj) with hold | hnew
    · by_cases hlt : j < s.threads.length
      · exact h j q ((List.getElem?_append_left hlt).symm.trans hj) hq
      · rw [List.getElem?_append_right (by omega)] at hj
        rw [List.mem_singleton.mp (List.mem_of_getElem? hj), callback_setsVolume] at hq
        cases hq
    · rw [List.mem_singleton.mp hnew, callback_setsVolume] at hq
      cases hq
  | callSetMainVolume v hk => exact h.set rfl fun _ => rfl
  | create k e w hk | register k w hk | lockReload k hk | enumerate k c w hk
  | build k c listed number found w hk | moveCollection k p temporary number w hk
  | install k p temporary number w hk | unlockReload k p hk | leaveReload k p w hk
  | unlockVolume k hk =>
    exact h.set rfl (by simp [Pc.setsVolume])
  | releaseDevice k p temporary number d ds w hk =>
    exact h.set (set_moveDevices hk) (by simp [Pc.setsVolume])
  | lockVolume k v hk | setDeviceVolume k v i n d o hk | endDevices k v n hk =>
    exact h.set rfl fun _ => h k _ hk rfl

variable [DecidableEq Obj]

theorem Safe.quiet_set (h : Safe outside s) (hk : s.threads[k]? = some pc)
    (hpc : pc.setsVolume = false) (hpc' : pc'.setsVolume = false)
    (hthreads : t.threads = s.threads.set k pc')
    (htree : t.deviceEnumerator.deviceCollection = s.deviceEnumerator.deviceCollection ∨
      s.holder = some k) (hvolumes : t.world.volumes = s.world.volumes) : Effect s t := by
  have hcalls : t.world.volumeCalls = s.world.volumeCalls := congrArg (List.map _) hvolumes
  by_cases hzero : k = 0
  · subst hzero
    apply Effect.of_main hk (hthreads ▸ getElem?_set_self hk pc')
    · rw [Pc.waiting_of_not_setsVolume hpc, Pc.waiting_of_not_setsVolume hpc']
    · rw [Pc.rest_of_not_setsVolume hpc, Pc.rest_of_not_setsVolume hpc', hcalls]
  · have hmain : t.threads[0]? = s.threads[0]? := by
      rw [hthreads, List.getElem?_set_ne hzero]
    apply Effect.quiet
    · unfold waiting
      rw [hmain]
    · unfold calls
      rw [hmain, hcalls]
      rcases htree with htree | hholder
      · rw [htree]
      · cases hq : s.threads[0]? with
        | none => rfl
        | some q =>
          have hmutex := h.mutex
          rw [hholder] at hmutex
          have hout := hmutex.outside_of_ne hq fun h => hzero h.symm
          simp only [Option.elim_some, Pc.rest_of_outside hout]

theorem Safe.effect_of_move (h : Safe outside s) (hmain : MainOnly s)
    (hmove : Move deviceOf s t) : Effect s t := by
  cases hmove with
  | changeDevices | changeProperty => exact .quiet rfl rfl
  | deliver i n hi =>
    have hsame : ((s.threads ++ [callback n])[0]?.elim [] Pc.waiting = s.waiting) ∧
        ((s.threads ++ [callback n])[0]?.elim []
          (Pc.rest s.deviceEnumerator.deviceCollection) =
            s.threads[0]?.elim [] (Pc.rest s.deviceEnumerator.deviceCollection)) := by
      unfold waiting
      cases s.threads with
      | nil =>
        exact ⟨Pc.waiting_of_not_setsVolume (callback_setsVolume n),
          Pc.rest_of_not_setsVolume (callback_setsVolume n) _⟩
      | cons main others => exact ⟨rfl, rfl⟩
    exact .quiet hsame.1 (congrArg (s.world.volumeCalls ++ ·) hsame.2)
  | callSetMainVolume v hk => exact .request v hk (getElem?_set_self hk _)
  | create k e w hk hv | register k w hk hv | leaveReload k p w hk hv =>
    exact h.quiet_set hk rfl rfl rfl (.inl rfl) hv
  | lockReload k hk => exact h.quiet_set hk rfl rfl rfl (.inl rfl) rfl
  | enumerate k c w hk hv | build k c listed number found w hk hlisted hv
  | moveCollection k p temporary number w hk hv | install k p temporary number w hk hd hv =>
    exact h.quiet_set hk rfl rfl rfl (.inr (h.inside_holder hk rfl)) hv
  | releaseDevice k p temporary number d ds w hk hd hv =>
    exact h.quiet_set hk rfl rfl (set_moveDevices hk) (.inr (h.inside_holder hk rfl)) hv
  | unlockReload k p hk => exact h.quiet_set hk rfl rfl rfl (.inl rfl) rfl
  | lockVolume k v hk hfree =>
    obtain rfl : k = 0 := hmain k _ hk rfl
    have hk' := getElem?_set_self hk
      (.setDeviceVolume v 0 s.deviceEnumerator.deviceCollection.devices.length)
    apply Effect.lock v hk hfree rfl
    · unfold waiting
      dsimp only [goto]
      rw [hk']
      rfl
    · rw [calls_of_main hk, Pc.rest_of_outside rfl, List.append_nil]
      unfold calls
      dsimp only [goto]
      rw [hk']
      rfl
  | setDeviceVolume k v i n d o hk hin hd ho =>
    obtain rfl : k = 0 := hmain k _ hk rfl
    have hvisit := DeviceCollection.drop_volumeCalls hd v
    rw [ho] at hvisit
    apply Effect.of_main hk (getElem?_set_self hk _) (by rfl)
    unfold World.volumeCalls
    dsimp only [goto, Pc.rest]
    rw [hvisit, List.map_append, List.append_assoc]
    rfl
  | endDevices k v n hk =>
    obtain rfl : k = 0 := hmain k _ hk rfl
    obtain ⟨hn, -⟩ : n = s.deviceEnumerator.deviceCollection.devices.length ∧ n ≤ _ :=
      h.prepared 0 _ hk
    apply Effect.of_main hk (getElem?_set_self hk _) (by rfl)
    simp only [Pc.rest, hn, DeviceCollection.drop_length_volumeCalls]
    rfl
  | unlockVolume k hk =>
    obtain rfl : k = 0 := hmain k _ hk rfl
    exact Effect.of_main hk (getElem?_set_self hk _) (by rfl) (by rfl)

variable [DecidableEq Id]

theorem Safe.idle_of_step (h : Safe outside s) (hk : s.threads[0]? = some .idle)
    {a : Action Obj Handle Id Volume} (ha : a.request = none)
    (hstep : step deviceOf s a = some t) : t.threads[0]? = some .idle := by
  have hsafe := safe_of_step s a t h hstep
  obtain ⟨hlt, -⟩ := List.getElem?_eq_some_iff.mp hk
  cases a with
  | changeDevices os n =>
    rw [step] at hstep
    obtain ⟨-, hstep⟩ := Option.ite_none_left_eq_some.mp hstep
    cases hstep
    exact hk
  | changeProperty =>
    rw [step] at hstep
    obtain ⟨-, hstep⟩ := Option.ite_none_right_eq_some.mp hstep
    cases hstep
    exact hk
  | deliver i =>
    obtain ⟨n, -, rfl⟩ := Option.map_eq_some_iff.mp hstep
    exact (List.getElem?_append_left hlt).trans hk
  | callSetMainVolume v => cases ha
  | thread k answer =>
    rw [step, if_pos h.crashed] at hstep
    obtain ⟨pc, hpc, hstep⟩ := Option.bind_eq_some_iff.mp hstep
    by_cases hzero : k = 0
    · subst hzero
      obtain rfl : Pc.idle = pc := Option.some.inj (hk.symm.trans hpc)
      cases answer <;> cases hstep
    · obtain ⟨-, pc', -, hthreads⟩ :=
        advance_of_stepThread h (within_size s) hpc hstep hsafe.crashed
      rw [hthreads, List.getElem?_set_ne hzero]
      exact hk

/-! ## Whole walks -/

/-- In the run of `actions`, request number `i` got the mutex for the walk `w`: it was at
the lock, nobody held the mutex, the next step took it, and the tree of `w` was installed. -/
def GotMutex (deviceOf : Obj → Id) (outside : Obj → ℕ) (os : List Id)
    (actions : List (Action Obj Handle Id Volume)) (i : ℕ)
    (w : DeviceCollection Obj × Volume) : Prop :=
  ∃ before a s t, before ++ [a] <+: actions ∧
    run (step deviceOf) (start outside os) before = some s ∧ step deviceOf s a = some t ∧
    (requested before).length = i + 1 ∧ s.threads[0]? = some (.setMainVolume w.2) ∧
    s.holder = none ∧ t.holder = some 0 ∧ s.deviceEnumerator.deviceCollection = w.1

/-- The requests of a run, all but the waiting one with their walks, and the calls. -/
structure Walks (deviceOf : Obj → Id) (outside : Obj → ℕ) (os : List Id)
    (actions : List (Action Obj Handle Id Volume)) (walks : List (DeviceCollection Obj × Volume))
    (s : System Obj Handle Id Volume) : Prop where
  requests : walks.map Prod.snd ++ s.waiting = requested actions
  calls : s.calls = walks.flatMap fun w => w.1.volumeCalls w.2
  locked : ∀ i w, walks[i]? = some w → GotMutex deviceOf outside os actions i w

theorem GotMutex.append {os : List Id} {actions : List (Action Obj Handle Id Volume)} {i : ℕ}
    {w : DeviceCollection Obj × Volume} (h : GotMutex deviceOf outside os actions i w)
    (a : Action Obj Handle Id Volume) : GotMutex deviceOf outside os (actions ++ [a]) i w := by
  obtain ⟨before, b, s, t, hpre, hrest⟩ := h
  exact ⟨before, b, s, t, hpre.trans (List.prefix_append _ _), hrest⟩

theorem walks_of_step {os : List Id} {actions : List (Action Obj Handle Id Volume)}
    {walks : List (DeviceCollection Obj × Volume)}
    (hrun : run (step deviceOf) (start outside os) actions = some s) (hmain : MainOnly s)
    (hw : Walks deviceOf outside os actions walks s) {a : Action Obj Handle Id Volume}
    (hstep : step deviceOf s a = some t) :
    ∃ walks', Walks deviceOf outside os (actions ++ [a]) walks' t := by
  have hsafe := safe_of_run hrun
  have hmore : requested (actions ++ [a]) = requested actions ++ requested [a] :=
    requested_append _ _
  have hold := fun i w hi => (hw.locked i w hi).append a
  have heffect := hsafe.effect_of_move hmain (stepped_of_step hsafe hstep).move
  cases hrequest : a.request with
  | some v =>
    obtain rfl : a = .callSetMainVolume v := by
      cases a <;> simp_all [Action.request]
    rw [step] at hstep
    split at hstep
    · next hk =>
      cases hstep
      have hk' : (s.goto 0 (.setMainVolume v)).threads[0]? = some (.setMainVolume v) :=
        getElem?_set_self hk _
      have hrequests := hw.requests
      rw [waiting_of_main hk] at hrequests
      refine ⟨walks, ?_, ?_, hold⟩
      · rw [hmore, ← hrequests, waiting_of_main hk']
        exact congrArg (· ++ [v]) (List.append_nil _).symm
      · rw [← hw.calls, calls_of_main hk, calls_of_main hk']
        rfl
    · cases hstep
  | none =>
    have hnone : requested [a] = [] := by
      rw [requested, List.filterMap_cons_none hrequest]
      rfl
    rw [hnone, List.append_nil] at hmore
    cases heffect with
    | quiet hwaiting hcalls =>
      exact ⟨walks, by rw [hwaiting, hmore, hw.requests], hcalls.trans hw.calls, hold⟩
    | request v hk hk' =>
      rw [hsafe.idle_of_step hk hrequest hstep] at hk'
      cases hk'
    | lock v hk hfree hholder hwaiting hcalls =>
      have hrequests := hw.requests
      rw [waiting_of_main hk] at hrequests
      refine ⟨walks ++ [(s.deviceEnumerator.deviceCollection, v)], ?_, ?_, ?_⟩
      · rw [hwaiting, hmore, ← hrequests, List.map_append, List.append_nil]
        rfl
      · rw [hcalls, hw.calls, List.flatMap_append]
        simp
      · intro i w hi
        by_cases hlt : i < walks.length
        · rw [List.getElem?_append_left hlt] at hi
          exact hold i w hi
        · rw [List.getElem?_append_right (by omega), List.getElem?_singleton] at hi
          obtain ⟨hzero, hi⟩ := Option.ite_none_right_eq_some.mp hi
          cases hi
          refine ⟨actions, a, s, t, List.prefix_rfl, hrun, hstep, ?_, hk, hfree, hholder, rfl⟩
          rw [← hrequests, List.length_append, List.length_map]
          change walks.length + 1 = i + 1
          omega

theorem walks_of_run {os : List Id} {actions : List (Action Obj Handle Id Volume)}
    (h : run (step deviceOf) (start outside os) actions = some s) :
    MainOnly s ∧ ∃ walks, Walks deviceOf outside os actions walks s := by
  have hstart : MainOnly (start outside os : System Obj Handle Id Volume) := by
    intro k pc hk hpc
    rw [List.mem_singleton.mp (List.mem_of_getElem? hk)] at hpc
    cases hpc
  apply run_invariant_of_history _ ⟨hstart, [], rfl, rfl, by simp⟩ h
  rintro as u a v hu ⟨hmain, walks, hw⟩ hst
  have hmove := (stepped_of_step (safe_of_run hu) hst).move
  exact ⟨mainOnly_of_move hmain hmove, walks_of_step hu hmain hw hst⟩

/-- In every run, the calls of `SetMasterVolumeLevelScalar` made and left of the walk under
way are those of one whole walk for each request but the waiting one, in the order of the
requests, each over the tree that was installed when its request took the mutex. -/
theorem volume_calls_are_whole_walks {os : List Id}
    {actions : List (Action Obj Handle Id Volume)}
    (h : run (step deviceOf) (start outside os) actions = some s) :
    ∃ walks : List (DeviceCollection Obj × Volume),
      walks.map Prod.snd ++ s.waiting = requested actions ∧
      s.calls = (walks.flatMap fun w => w.1.volumeCalls w.2) ∧
      ∀ i w, walks[i]? = some w → GotMutex deviceOf outside os actions i w := by
  obtain ⟨-, walks, hw⟩ := walks_of_run h
  exact ⟨walks, hw.requests, hw.calls, hw.locked⟩

/-- One request, and a reload that waits for it and ends after it. -/
theorem volume_calls_are_whole_walks_overtakenChange :
    ∃ s, run (step fun d : ℕ => d) (start (fun _ => 0) [10]) overtakenChange = some s ∧
      s.waiting = [] ∧ ∃ walks : List (DeviceCollection ℕ × ℕ),
        walks.map Prod.snd ++ s.waiting = requested overtakenChange ∧
        s.calls = walks.flatMap fun w => w.1.volumeCalls w.2 := by
  have h : (run (step fun d : ℕ => d) (start (fun _ => 0) [10]) overtakenChange).any
      (fun s => decide (s.waiting = [])) = true := by decide +kernel
  obtain ⟨s, hs, hwaiting⟩ := (Option.any_eq_true _ _).mp h
  obtain ⟨walks, hrequests, hcalls, -⟩ := volume_calls_are_whole_walks hs
  exact ⟨s, hs, of_decide_eq_true hwaiting, walks, hrequests, hcalls⟩

end System

end AudioCtrl.Audio
