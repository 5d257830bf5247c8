import AudioCtrl.Audio.LastWalk
import AudioCtrl.Serial.Progress
import AudioCtrl.Serial.WholeReads

/-!
# The whole program

`main()` constructs the `DeviceEnumerator` and then runs the receive loop, both on the
main thread, which is thread 0 of the audio side. The loop goes on only while that thread
is idle, and what it decodes of slider 0 it passes to `setMainVolume`. The device, the two
lines and the notification threads go on at any time. `scale` stands for the division by
`1023.0f`.
-/

namespace AudioCtrl

open PartialRun Serial Audio

structure Program (Obj Handle Id Volume : Type) where
  link : Link
  audio : System Obj Handle Id Volume

namespace Program

inductive Action (Obj Handle Id Volume : Type)
  | link (a : Link.Action)
  | audio (a : Audio.Action Obj Handle Id Volume)

variable {Obj Handle Id Volume : Type}

/-- The device is idle, both lines are empty, and `main()` has not begun. -/
def start (outside : Obj → ℕ) (os : List Id) : Program Obj Handle Id Volume :=
  ⟨Link.start [], System.start outside os⟩

/-- The calls of `deviceEnumerator.setMainVolume` among what the loop does. -/
def volumeRequests (scale : ℕ → Volume) (events : List HostEvent) :
    List (Audio.Action Obj Handle Id Volume) :=
  (events.filterMap HostEvent.volume).map fun value => .callSetMainVolume (scale value)

def Action.onLink : Action Obj Handle Id Volume → Option Link.Action
  | .link a => some a
  | .audio _ => none

variable [DecidableEq Obj] [DecidableEq Id] (scale : ℕ → Volume) (deviceOf : Obj → Id)

/-- One step of the whole program. The receive loop waits for its own call of
`setMainVolume` to return, and nobody else calls it. -/
def step (p : Program Obj Handle Id Volume) :
    Action Obj Handle Id Volume → Option (Program Obj Handle Id Volume)
  | .link (.host n) =>
    match p.audio.threads[0]? with
    | some Pc.idle =>
      if p.audio.crashed = none then
        (p.link.step (.host n)).bind fun link =>
          (run (System.step deviceOf) p.audio
            (volumeRequests scale (p.link.receiver.outputs n))).map fun audio => ⟨link, audio⟩
      else none
    | _ => none
  | .link a => (p.link.step a).map fun link => { p with link }
  | .audio (.callSetMainVolume _) => none
  | .audio a => (p.audio.step deviceOf a).map fun audio => { p with audio }

/-! ## One step -/

inductive Move (p : Program Obj Handle Id Volume) :
    Action Obj Handle Id Volume → Program Obj Handle Id Volume → Prop
  | host (n : ℕ) (link : Link) (audio : System Obj Handle Id Volume)
      (hlink : p.link.step (.host n) = some link)
      (haudio : run (System.step deviceOf) p.audio
        (volumeRequests scale (p.link.receiver.outputs n)) = some audio) :
      Move p (.link (.host n)) ⟨link, audio⟩
  | link (a : Link.Action) (link : Link) (ha : ∀ n, a ≠ .host n)
      (hlink : p.link.step a = some link) : Move p (.link a) { p with link }
  | audio (a : Audio.Action Obj Handle Id Volume) (audio : System Obj Handle Id Volume)
      (ha : a.request = none) (haudio : p.audio.step deviceOf a = some audio) :
      Move p (.audio a) { p with audio }

variable {scale deviceOf} {outside : Obj → ℕ} {p q : Program Obj Handle Id Volume}

theorem move_of_step {a : Action Obj Handle Id Volume} (h : p.step scale deviceOf a = some q) :
    Move scale deviceOf p a q := by
  cases a with
  | link a =>
    cases a with
    | host n =>
      rw [step] at h
      split at h
      · obtain ⟨-, h⟩ := Option.ite_none_right_eq_some.mp h
        obtain ⟨link, hlink, h⟩ := Option.bind_eq_some_iff.mp h
        obtain ⟨audio, haudio, rfl⟩ := Option.map_eq_some_iff.mp h
        exact .host n link audio hlink haudio
      · cases h
    | device | deliverRequest | deliverReply =>
      simp only [step] at h
      obtain ⟨link, hlink, rfl⟩ := Option.map_eq_some_iff.mp h
      exact .link _ link (by simp) hlink
  | audio a =>
    cases a with
    | callSetMainVolume v => cases h
    | changeDevices | changeProperty | deliver | thread =>
      obtain ⟨audio, haudio, rfl⟩ := Option.map_eq_some_iff.mp h
      exact .audio _ audio rfl haudio

omit [DecidableEq Obj] [DecidableEq Id] in
theorem requested_volumeRequests (scale : ℕ → Volume) (events : List HostEvent) :
    System.requested (volumeRequests scale events : List (Audio.Action Obj Handle Id Volume)) =
      (events.filterMap HostEvent.volume).map scale := by
  unfold System.requested volumeRequests
  rw [List.filterMap_map]
  exact congrFun List.filterMap_eq_map _

theorem volumes_of_other {s t : Link} {a : Link.Action} (ha : ∀ n, a ≠ .host n)
    (h : s.step a = some t) : t.receiver.volumes = s.receiver.volumes := by
  cases a with
  | host n => exact absurd rfl (ha n)
  | device =>
    cases h
    rfl
  | deliverRequest | deliverReply =>
    obtain ⟨l, -, rfl⟩ := Option.map_eq_some_iff.mp h
    rfl

theorem volume_of_outputs (r : Receiver) (n : ℕ) :
    (r.outputs n).filterMap HostEvent.volume = [] ∨
      ∃ v, (r.outputs n).filterMap HostEvent.volume = [v] := by
  unfold Receiver.outputs Host.step
  cases r.host.pc with
  | handlePair =>
    rw [Receiver.handleEvents_volume, mainValues_singleton]
    split_ifs
    · exact .inr ⟨_, rfl⟩
    · exact .inl rfl
  | checkPair =>
    left
    dsimp only
    split_ifs <;> rfl
  | firstSend | waitForData | receivePair | receiveSkip => exact .inl rfl

/-! ## Both sides of a run -/

/-- The audio side has come about by a run of its own, whose requests are the values that the
loop has passed on. -/
def Requested (scale : ℕ → Volume) (deviceOf : Obj → Id) (outside : Obj → ℕ) (os : List Id)
    (p : Program Obj Handle Id Volume) : Prop :=
  ∃ as, run (System.step deviceOf) (System.start outside os) as = some p.audio ∧
    System.requested as = p.link.receiver.volumes.map scale

/-- A run of the whole program is a run of the link and a run of the audio side. -/
structure Sides (scale : ℕ → Volume) (deviceOf : Obj → Id) (outside : Obj → ℕ) (os : List Id)
    (actions : List (Action Obj Handle Id Volume)) (p : Program Obj Handle Id Volume) : Prop where
  link : run Link.step (Link.start []) (actions.filterMap Action.onLink) = some p.link
  audio : Requested scale deviceOf outside os p

theorem requested_of_move {os : List Id} (h : Requested scale deviceOf outside os p)
    {a : Action Obj Handle Id Volume} (m : Move scale deviceOf p a q) :
    Requested scale deviceOf outside os q := by
  obtain ⟨as, haudio, hrequested⟩ := h
  cases m with
  | host n link audio hstep hrun =>
    refine ⟨as ++ _, run_trans haudio hrun, ?_⟩
    rw [System.requested_append, requested_volumeRequests, hrequested,
      Link.volumes_of_step hstep, List.map_append]
  | link a link ha hstep =>
    refine ⟨as, haudio, ?_⟩
    rw [hrequested, ← volumes_of_other ha hstep]
  | audio a audio ha hstep =>
    refine ⟨as ++ [a], run_trans haudio (run_cons_eq_some.mpr ⟨audio, hstep, rfl⟩), ?_⟩
    have hnone : System.requested [a] = [] := by
      rw [System.requested, List.filterMap_cons_none ha]
      rfl
    rw [System.requested_append, hnone, List.append_nil, hrequested]

theorem link_of_move {a : Action Obj Handle Id Volume} (m : Move scale deviceOf p a q) :
    (∃ b, a.onLink = some b ∧ p.link.step b = some q.link) ∨ a.onLink = none ∧ q.link = p.link := by
  cases m with
  | host n link audio hstep hrun => exact .inl ⟨.host n, rfl, hstep⟩
  | link a link ha hstep => exact .inl ⟨a, rfl, hstep⟩
  | audio a audio ha hstep => exact .inr ⟨rfl, rfl⟩

theorem sides_of_move {os : List Id} {actions : List (Action Obj Handle Id Volume)}
    (h : Sides scale deviceOf outside os actions p) {a : Action Obj Handle Id Volume}
    (m : Move scale deviceOf p a q) : Sides scale deviceOf outside os (actions ++ [a]) q := by
  refine ⟨?_, requested_of_move h.audio m⟩
  rw [List.filterMap_append]
  rcases link_of_move m with ⟨b, hb, hstep⟩ | ⟨hnone, hlink⟩
  · rw [List.filterMap_cons_some hb]
    exact run_trans h.link (run_cons_eq_some.mpr ⟨q.link, hstep, rfl⟩)
  · rw [List.filterMap_cons_none hnone, List.filterMap_nil, List.append_nil, hlink]
    exact h.link

theorem sides_of_run {os : List Id} {actions : List (Action Obj Handle Id Volume)}
    (h : run (step scale deviceOf) (start outside os) actions = some p) :
    Sides scale deviceOf outside os actions p := by
  apply run_invariant_of_history _ ⟨rfl, [], rfl, rfl⟩ h
  intro as u a v _ hsides hstep
  exact sides_of_move hsides (move_of_step hstep)

/-- All calls that set a volume are those of whole walks, one for each value passed on. -/
theorem Requested.walks {os : List Id} (h : Requested scale deviceOf outside os p) :
    p.audio.crashed = none ∧
      ∃ (as : List (Audio.Action Obj Handle Id Volume))
          (walks : List (DeviceCollection Obj × Volume)),
        run (System.step deviceOf) (System.start outside os) as = some p.audio ∧
        walks.map Prod.snd ++ p.audio.waiting = p.link.receiver.volumes.map scale ∧
        p.audio.calls = (walks.flatMap fun w => w.1.volumeCalls w.2) ∧
        ∀ i w, walks[i]? = some w → System.GotMutex deviceOf outside os as i w := by
  obtain ⟨as, haudio, hrequested⟩ := h
  obtain ⟨-, walks, hwalks⟩ := System.walks_of_run haudio
  exact ⟨(System.safe_of_run haudio).crashed, as, walks, haudio,
    hwalks.requests.trans hrequested, hwalks.calls, hwalks.locked⟩

/-- In every run of the whole program no fault is met, the values that the loop has passed
on were measured on slider 0, in order, and all calls that set a volume are those of whole
walks, one for each of these values in order, over the tree installed when it got the
mutex. -/
theorem volume_follows_slider {os : List Id} {actions : List (Action Obj Handle Id Volume)}
    (h : run (step scale deviceOf) (start outside os) actions = some p) :
    p.audio.crashed = none ∧ p.link.receiver.volumes.Sublist p.link.measured ∧
      (∀ v ∈ p.link.receiver.volumes, v ≤ 1023) ∧
      ∃ (as : List (Audio.Action Obj Handle Id Volume))
          (walks : List (DeviceCollection Obj × Volume)),
        run (System.step deviceOf) (System.start outside os) as = some p.audio ∧
        walks.map Prod.snd ++ p.audio.waiting = p.link.receiver.volumes.map scale ∧
        p.audio.calls = (walks.flatMap fun w => w.1.volumeCalls w.2) ∧
        ∀ i w, walks[i]? = some w → System.GotMutex deviceOf outside os as i w := by
  have hsides := sides_of_run h
  obtain ⟨hsublist, hbounded⟩ := (Link.steady_of_run hsides.link).volumes_sublist
  obtain ⟨hcrashed, hwalks⟩ := hsides.audio.walks
  exact ⟨hcrashed, hsublist, hbounded, hwalks⟩

/-- The constructor installs a tree of one device, the frame of slider 0 is sent and read in
one piece, and the volume is set. -/
def firstVolume : List (Action ℕ ℕ ℕ ℕ) :=
  [Action.audio (.thread 0 (.object 1)), .audio (.thread 0 .nothing),
    .audio (.thread 0 .nothing), .audio (.thread 0 (.object 2)),
    .audio (.thread 0 (.devices [System.plainEndpoint 10]))] ++
    List.replicate 4 (.audio (.thread 0 .nothing)) ++ Link.firstFrame.map Action.link ++
    List.replicate 4 (.audio (.thread 0 .nothing))

theorem volume_follows_slider_firstVolume :
    ∃ p, run (step id fun d : ℕ => d) (start (fun _ => 0) [10]) firstVolume = some p ∧
      p.link.receiver.volumes.Sublist p.link.measured ∧ p.audio.calls = [(some 110, 1000)] := by
  have h : (run (step id fun d : ℕ => d) (start (fun _ => 0) [10]) firstVolume).any
      (fun p => decide (p.audio.calls = [(some 110, 1000)])) = true := by decide +kernel
  obtain ⟨p, hp, hcalls⟩ := (Option.any_eq_true _ _).mp h
  exact ⟨p, hp, (volume_follows_slider hp).2.1, of_decide_eq_true hcalls⟩

/-- Whenever the loop waits and has read all that was sent, without reads of a single byte, and
the threads are at rest, the calls made last are those of one walk that set the value
measured last, on exactly the devices that are active now unless a tree was installed after
the walk had got the mutex. -/
theorem active_devices_follow_slider {os : List Id}
    {actions : List (Action Obj Handle Id Volume)}
    (h : run (step scale deviceOf) (start outside os) actions = some p)
    (hwhole : ∀ a ∈ actions.filterMap Action.onLink, a.NoSingleByte)
    (hwaits : p.link.receiver.host.pc = .waitForData)
    (hread : p.link.receiver.replies.unread = []) (hrest : p.audio.AtRest) {x : ℕ}
    (hx : p.link.measured.getLast? = some x) :
    ∃ (as before : List (Audio.Action Obj Handle Id Volume)) (a : Audio.Action Obj Handle Id Volume)
        (u t : System Obj Handle Id Volume) (earlier : List (Option Obj × Volume)),
      run (System.step deviceOf) (System.start outside os) as = some p.audio ∧
      before ++ [a] <+: as ∧
      run (System.step deviceOf) (System.start outside os) before = some u ∧
      System.step deviceOf u a = some t ∧ u.threads[0]? = some (.setMainVolume (scale x)) ∧
      u.holder = none ∧ t.holder = some 0 ∧
      p.audio.world.volumeCalls =
        earlier ++ u.deviceEnumerator.deviceCollection.volumeCalls (scale x) ∧
      (p.audio.installs = u.installs →
        u.deviceEnumerator.deviceCollection.listed deviceOf = p.audio.os.map some) := by
  have hsides := sides_of_run h
  obtain ⟨as, haudio, hrequested⟩ := hsides.audio
  have hmeets : Meets Link.step (fun _ a => a.NoSingleByte) (Link.start [])
      (actions.filterMap Action.onLink) := meets_of_forall (fun a ha _ => hwhole a ha) _
  have hvolumes := (Link.lossless_of_run hsides.link hmeets).volumes_eq
    (Link.steady_of_run hsides.link) hwaits hread
  have hlast : (System.requested as).getLast? = some (scale x) := by
    rw [hrequested, hvolumes, List.getLast?_map, hx, Option.map_some]
  obtain ⟨before, a, u, t, earlier, hwalk⟩ := System.last_walk_of_atRest haudio hrest hlast
  exact ⟨as, before, a, u, t, earlier, haudio, hwalk⟩

/-- The loop goes on to wait. -/
theorem active_devices_follow_slider_firstVolume :
    ∃ p, run (step id fun d : ℕ => d) (start (fun _ => 0) [10])
        (firstVolume ++ [.link (.host 0), .link (.host 0)]) = some p ∧
      p.link.measured.getLast? = some 1000 ∧ ∃ (u : System ℕ ℕ ℕ ℕ) (earlier : _),
        u.holder = none ∧ p.audio.world.volumeCalls =
          earlier ++ u.deviceEnumerator.deviceCollection.volumeCalls 1000 := by
  have h : (run (step id fun d : ℕ => d) (start (fun _ => 0) [10])
      (firstVolume ++ [.link (.host 0), .link (.host 0)])).any (fun p =>
        decide (p.link.receiver.host.pc = .waitForData ∧ p.link.receiver.replies.unread = [] ∧
          p.link.measured.getLast? = some 1000 ∧ p.audio.queue = [] ∧
          (∀ pc ∈ p.audio.threads, pc = .idle) ∧ p.audio.holder = none)) = true := by
    decide +kernel
  simp only [Option.any_eq_true, decide_eq_true_eq] at h
  obtain ⟨p, hp, hwaits, hread, hx, hqueue, hthreads, hholder⟩ := h
  obtain ⟨-, -, -, u, -, earlier, -, -, -, -, -, hfree, -, hcalls, -⟩ :=
    active_devices_follow_slider hp (by decide) hwaits hread ⟨hqueue, hthreads, hholder⟩ hx
  exact ⟨p, hp, hx, u, earlier, hfree, hcalls⟩

/-! ## The exchange goes on -/

/-- A read of the receive loop does not cut a frame of slider 5, and a skip gets its byte. -/
def ReadsLastFrame (p : Program Obj Handle Id Volume) : Action Obj Handle Id Volume → Prop
  | .link a => p.link.ReadsLastFrame a
  | .audio _ => True

instance (p : Program Obj Handle Id Volume) : ∀ a, Decidable (ReadsLastFrame p a)
  | .link a => inferInstanceAs (Decidable (p.link.ReadsLastFrame a))
  | .audio _ => isTrue trivial

/-- The exchange is alive, and so are the threads. -/
structure Alive (deviceOf : Obj → Id) (outside : Obj → ℕ) (p : Program Obj Handle Id Volume) :
    Prop where
  link : p.link.Progressing
  safe : System.Safe outside p.audio
  fresh : System.Fresh deviceOf p.audio
  main : p.audio.threads ≠ []

omit [DecidableEq Obj] [DecidableEq Id] in
theorem threads_ne_nil_of_move {s t : System Obj Handle Id Volume} (hs : s.threads ≠ [])
    (m : System.Move deviceOf s t) : t.threads ≠ [] := by
  cases m with
  | changeDevices | changeProperty | releaseDevice => exact hs
  | deliver => exact List.append_ne_nil_of_left_ne_nil hs _
  | callSetMainVolume | create | register | lockReload | enumerate | build | moveCollection
  | install | unlockReload | leaveReload | lockVolume | setDeviceVolume | endDevices
  | unlockVolume =>
    simpa [System.goto, System.setCollection] using hs

theorem Alive.of_audio (h : Alive deviceOf outside p)
    {as : List (Audio.Action Obj Handle Id Volume)} {audio : System Obj Handle Id Volume}
    (hrun : run (System.step deviceOf) p.audio as = some audio) {link : Link}
    (hlink : link.Progressing) : Alive deviceOf outside ⟨link, audio⟩ := by
  have hstep : ∀ (s : System Obj Handle Id Volume) a t, System.Safe outside s ∧
      System.Fresh deviceOf s ∧ s.threads ≠ [] → System.step deviceOf s a = some t →
      System.Safe outside t ∧ System.Fresh deviceOf t ∧ t.threads ≠ [] := by
    rintro s a t ⟨hsafe, hfresh, hmain⟩ hst
    have hmove := (System.stepped_of_step hsafe hst).move
    exact ⟨System.safe_of_step s a t hsafe hst, System.fresh_of_move hsafe hfresh hmove,
      threads_ne_nil_of_move hmain hmove⟩
  obtain ⟨hsafe, hfresh, hmain⟩ := run_invariant hstep ⟨h.safe, h.fresh, h.main⟩ hrun
  exact ⟨hlink, hsafe, hfresh, hmain⟩

omit [DecidableEq Id] in
theorem alive_start (deviceOf : Obj → Id) (outside : Obj → ℕ) (os : List Id) :
    Alive deviceOf outside (start outside os : Program Obj Handle Id Volume) :=
  ⟨Link.progressing_start, System.safe_start outside os, System.fresh_start outside os, by
    simp [start, System.start]⟩

theorem alive_of_move (h : Alive deviceOf outside p) {a : Action Obj Handle Id Volume}
    (hcond : ReadsLastFrame p a) (m : Move scale deviceOf p a q) : Alive deviceOf outside q := by
  cases m with
  | host n link audio hstep hrun =>
    have hreads : p.link.ReadsLastFrame (.host n) := hcond
    exact h.of_audio hrun (Link.progressing_of_move h.link hreads (Link.move_of_step hstep))
  | link a link ha hstep =>
    have hreads : p.link.ReadsLastFrame a := hcond
    exact h.of_audio (run_nil _ _)
      (Link.progressing_of_move h.link hreads (Link.move_of_step hstep))
  | audio a audio ha hstep =>
    exact h.of_audio (run_cons_eq_some.mpr ⟨audio, hstep, run_nil _ _⟩) h.link

theorem run_audio {as : List (Audio.Action Obj Handle Id Volume)}
    {audio : System Obj Handle Id Volume} (ha : Meets (System.step deviceOf)
      (fun _ a => a.Internal) p.audio as)
    (hrun : run (System.step deviceOf) p.audio as = some audio) :
    run (step scale deviceOf) p (as.map Action.audio) = some { p with audio } := by
  induction as generalizing p with
  | nil =>
    cases hrun
    rfl
  | cons a as ih =>
    obtain ⟨t, ht, hrun⟩ := run_cons_eq_some.mp hrun
    obtain ⟨hinternal, hmeets⟩ := (meets_cons_iff ht).mp ha
    have hstep : step scale deviceOf p (.audio a) = some { p with audio := t } := by
      cases a with
      | changeDevices | changeProperty | callSetMainVolume => exact absurd hinternal id
      | deliver | thread => exact Option.map_eq_some_iff.mpr ⟨t, ht, rfl⟩
    exact run_cons_eq_some.mpr ⟨_, hstep, ih (p := { p with audio := t }) hmeets hrun⟩

/-- The main thread gets back to the receive loop. -/
theorem Alive.exists_run_to_loop [Nonempty Obj] (honto : Function.Surjective deviceOf)
    (h : Alive deviceOf outside p) (scale : ℕ → Volume) :
    ∃ more audio, run (Program.step scale deviceOf) p more = some { p with audio } ∧
      Meets (Program.step scale deviceOf) ReadsLastFrame p more ∧
      audio.threads[0]? = some .idle ∧ Alive deviceOf outside { p with audio } := by
  have hworking : System.Working outside deviceOf p.audio.size p.audio.os p.audio :=
    ⟨h.safe, h.fresh, System.within_size _, rfl⟩
  obtain ⟨as, audio, hrun, hmeets, -, hrest⟩ := hworking.exists_run_to_rest honto
  have halive := h.of_audio hrun h.link
  refine ⟨as.map .audio, audio, run_audio hmeets hrun, ?_, ?_, halive⟩
  · apply meets_of_forall
    intro a ha s
    obtain ⟨b, -, rfl⟩ := List.mem_map.mp ha
    trivial
  · obtain ⟨main, others, hthreads⟩ := List.exists_cons_of_ne_nil halive.main
    dsimp only at hthreads
    rw [hthreads, List.getElem?_cons_zero, hrest.threads main (by simp [hthreads])]

/-- A step of the link can be taken as soon as the main thread is back in the loop. -/
theorem Alive.exists_link_step [Nonempty Obj] (honto : Function.Surjective deviceOf)
    (h : Alive deviceOf outside p) (scale : ℕ → Volume) {a : Link.Action} {link : Link}
    (hcond : p.link.ReadsLastFrame a) (hstep : p.link.step a = some link) :
    ∃ more audio, run (Program.step scale deviceOf) p more = some ⟨link, audio⟩ ∧
      Meets (Program.step scale deviceOf) ReadsLastFrame p more ∧
      Alive deviceOf outside ⟨link, audio⟩ := by
  obtain ⟨more, audio, hrun, hmeets, hidle, halive⟩ := h.exists_run_to_loop honto scale
  suffices hlast : ∃ audio', Program.step scale deviceOf { p with audio } (.link a) =
      some ⟨link, audio'⟩ by
    obtain ⟨audio', hlast⟩ := hlast
    have hreads : ReadsLastFrame { p with audio } (.link a) := hcond
    have hone : Meets (Program.step scale deviceOf) ReadsLastFrame { p with audio } [.link a] :=
      (meets_cons_iff hlast).mpr ⟨hreads, trivial⟩
    exact ⟨more ++ [.link a], audio', run_trans hrun (run_cons_eq_some.mpr ⟨_, hlast, rfl⟩),
      hmeets.trans hrun hone, alive_of_move halive hreads (move_of_step hlast)⟩
  cases a with
  | host n =>
    have hcalls : ∃ audio', run (System.step deviceOf) audio
        (volumeRequests scale (p.link.receiver.outputs n)) = some audio' := by
      unfold volumeRequests
      rcases volume_of_outputs p.link.receiver n with hnone | ⟨v, hone⟩
      · rw [hnone]
        exact ⟨audio, rfl⟩
      · rw [hone]
        refine ⟨audio.goto 0 (.setMainVolume (scale v)), run_cons_eq_some.mpr ⟨_, ?_, rfl⟩⟩
        simp only [System.step, hidle]
    obtain ⟨audio', hcalls⟩ := hcalls
    have hcrashed : audio.crashed = none := halive.safe.crashed
    refine ⟨audio', ?_⟩
    simp only [Program.step, hidle, if_pos hcrashed, hstep, Option.bind_some, hcalls,
      Option.map_some]
  | device | deliverRequest | deliverReply =>
    refine ⟨audio, ?_⟩
    simp only [Program.step, hstep, Option.map_some]

theorem Alive.exists_link_run [Nonempty Obj] (honto : Function.Surjective deviceOf)
    (h : Alive deviceOf outside p) (scale : ℕ → Volume) {as : List Link.Action} {link : Link}
    (hcond : Meets Link.step Link.ReadsLastFrame p.link as)
    (hrun : run Link.step p.link as = some link) :
    ∃ more audio, run (Program.step scale deviceOf) p more = some ⟨link, audio⟩ ∧
      Meets (Program.step scale deviceOf) ReadsLastFrame p more := by
  induction as generalizing p with
  | nil =>
    cases hrun
    exact ⟨[], p.audio, rfl, trivial⟩
  | cons a as ih =>
    obtain ⟨mid, hstep, hrun⟩ := run_cons_eq_some.mp hrun
    obtain ⟨hfirst, hrest⟩ := (meets_cons_iff hstep).mp hcond
    obtain ⟨more, audio, hmore, hmeets, halive⟩ := h.exists_link_step honto scale hfirst hstep
    obtain ⟨more', audio', hmore', hmeets'⟩ := ih halive hrest hrun
    exact ⟨more ++ more', audio', run_trans hmore hmore', hmeets.trans hmore hmeets'⟩

/-- From every state that the whole program reaches without a read that cuts a frame of
slider 5, and without a skip that gets no byte, it can go on for any number of requests:
no device change and no volume call stops the exchange. -/
theorem exchange_survives_audio [Nonempty Obj] (honto : Function.Surjective deviceOf)
    (k : ℕ) {os : List Id} {actions : List (Action Obj Handle Id Volume)}
    (hm : Meets (step scale deviceOf) ReadsLastFrame (start outside os) actions)
    (h : run (step scale deviceOf) (start outside os) actions = some p) :
    ∃ more q, run (step scale deviceOf) p more = some q ∧
      Meets (step scale deviceOf) ReadsLastFrame p more ∧
      q.link.requests.history.length = p.link.requests.history.length + k := by
  have halive : Alive deviceOf outside p := run_invariant_of_meets
    (fun _ _ _ hinv hcond hstep => alive_of_move hinv hcond (move_of_step hstep))
    (alive_start deviceOf outside os) hm h
  obtain ⟨as, link, hrun, hmeets, -, -, hlength⟩ := halive.link.exists_requests_within k
  obtain ⟨more, audio, hmore, hmeets'⟩ := halive.exists_link_run honto scale hmeets hrun
  exact ⟨more, ⟨link, audio⟩, hmore, hmeets', hlength⟩

theorem exchange_survives_audio_firstVolume :
    ∃ p more q, run (step id fun d : ℕ => d) (start (fun _ => 0) [10]) firstVolume = some p ∧
      run (step id fun d : ℕ => d) p more = some q ∧
      q.link.requests.history.length = p.link.requests.history.length + 2 := by
  have h : (run (step id fun d : ℕ => d) (start (fun _ => 0) [10]) firstVolume).isSome = true := by
    decide +kernel
  obtain ⟨p, hp⟩ := Option.isSome_iff_exists.mp h
  obtain ⟨more, q, hmore, -, hlength⟩ :=
    exchange_survives_audio Function.surjective_id 2 (by decide +kernel) hp
  exact ⟨p, more, q, hp, hmore, hlength⟩

end Program

end AudioCtrl
