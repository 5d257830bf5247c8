import AudioCtrl.Serial.Deadlock
import AudioCtrl.Serial.Resync

/-!
# The next request is always within reach

In a state that is not at rest, some step brings the next request closer: `work`
prices every byte on a line, every frame the device has yet to write and every
statement of the host before its next read. Flow control bounds the work of every
reachable state, so the number of steps to the next request does not depend on how
the state was reached.
-/

namespace AudioCtrl.Serial

open PartialRun

namespace Link

/-- What the device has yet to do for the requests it has or will get. -/
def deviceWork (s : Link) : ℕ :=
  match s.device.pc with
  | .waitRequest => if s.requests.unread.length = 0 then 0 else 56
  | .drainRequests => 55
  | .writeFrame i => 9 * (6 - i)

/-- Steps to the next request, at most. -/
def work (s : Link) : ℕ :=
  Receiver.HostPc.rank s.receiver.host.pc + 3 * s.receiver.replies.arrived.length +
    4 * s.receiver.replies.travelling.length + s.deviceWork + s.requests.arrived.length +
      2 * s.requests.travelling.length

/-- The exchange is alive, and a skip leads back to the start of a frame. -/
structure Progressing (s : Link) : Prop where
  live : s.Live
  skip : s.receiver.host.pc = .receiveSkip → s.receiver.replies.taken.length % 2 = 1

/-! ## Where a rejected pair lies -/

theorem Sound.accepted_of_even {s : Link} (hs : Sound s) {b0 b1 : UInt8}
    (hsuf : [b0, b1] <:+ s.receiver.replies.taken)
    (heven : s.receiver.replies.taken.length % 2 = 0) : rejects b0 b1 = false := by
  obtain ⟨pre, hpre⟩ := hsuf
  have hlen := congrArg List.length hpre
  simp only [List.length_append, List.length_cons, List.length_nil] at hlen
  obtain ⟨j, hj⟩ : ∃ j, pre.length = 2 * j := ⟨pre.length / 2, by omega⟩
  have h0 : s.receiver.replies.taken[2 * j]? = some b0 := by simp [← hpre, ← hj]
  have h1 : s.receiver.replies.taken[2 * j + 1]? = some b1 := by simp [← hpre, ← hj]
  replace h0 := s.receiver.replies.getElem?_history_of_taken h0
  replace h1 := s.receiver.replies.getElem?_history_of_taken h1
  rw [hs.history, frameBytes_even, Option.map_eq_some_iff] at h0
  rw [hs.history, frameBytes_odd, Option.map_eq_some_iff] at h1
  obtain ⟨f, hf, rfl⟩ := h0
  obtain ⟨g, hg, rfl⟩ := h1
  obtain rfl : f = g := Option.some.inj (hf.symm.trans hg)
  exact f.accepted

theorem Sound.not_start_of_odd {s : Link} (hs : Sound s) {b : UInt8} {i : ℕ}
    (hb : s.receiver.replies.arrived[i]? = some b)
    (hodd : (s.receiver.replies.taken.length + i) % 2 = 1) : startsLastFrame b = false := by
  have h := s.receiver.replies.getElem?_history_of_arrived hb
  obtain ⟨j, hj⟩ : ∃ j, s.receiver.replies.taken.length + i = 2 * j + 1 :=
    ⟨(s.receiver.replies.taken.length + i) / 2, by omega⟩
  rw [hs.history, hj, frameBytes_odd, Option.map_eq_some_iff] at h
  obtain ⟨f, -, rfl⟩ := h
  have hge := f.byte1_ge
  have hnot : ¬ f.byte1.toNat < 128 := by omega
  simp [startsLastFrame, hnot]

theorem Sound.even_of_start {s : Link} (hs : Sound s) {b : UInt8} {i : ℕ}
    (hb : s.receiver.replies.arrived[i]? = some b) (hstart : startsLastFrame b = true) :
    (s.receiver.replies.taken.length + i) % 2 = 0 := by
  by_contra hodd
  rw [hs.not_start_of_odd hb (by omega)] at hstart
  cases hstart

theorem progressing_start : Progressing (start []) :=
  ⟨live_start, by simp [start, Receiver.start, Host.initial]⟩

theorem progressing_of_move {s t : Link} {a : Action} (hs : Progressing s)
    (hcond : ReadsLastFrame s a) (m : Move s a t) : Progressing t := by
  have hlive := live_of_move hs.live hcond m
  refine ⟨hlive, ?_⟩
  cases m with
  | host m =>
    cases m with
    | rejectPair b0 b1 hpc hbuf hrej =>
      intro _
      by_contra heven
      have hsuf := hs.live.flow.sound.receiver.buffer_suffix (.inl hpc)
      rw [hbuf] at hsuf
      change ¬ s.receiver.replies.taken.length % 2 = 1 at heven
      rw [hs.live.flow.sound.accepted_of_even hsuf (by omega)] at hrej
      cases hrej
    | firstSend | waitForData | receivePair | emptyRead | shortRead | acceptPair | receiveSkip
    | handlePair => simp
  | spin | wake | drain | drained | frame | deliverRequest => exact hs.skip
  | deliverReply hl =>
    obtain ⟨htaken, -, -⟩ := Line.deliver_spec hl
    dsimp only
    rw [htaken]
    exact hs.skip

/-! ## Every step that is taken brings the request closer -/

/-- The step writes the next request, or does part of the work before it. -/
def Advances (s t : Link) : Prop :=
  t.requests.history.length = s.requests.history.length + 1 ∨
    t.requests.history.length = s.requests.history.length ∧ t.work < s.work

theorem deviceWork_congr {s t : Link} (hpc : t.device.pc = s.device.pc)
    (hunread : t.requests.unread = s.requests.unread) : t.deviceWork = s.deviceWork := by
  unfold deviceWork
  rw [hpc, hunread]

theorem advances_of_silent {s : Link} {r : Receiver} {bytes : List UInt8} (hbytes : bytes = [])
    (hlt : Receiver.HostPc.rank r.host.pc + 3 * r.replies.arrived.length <
      Receiver.HostPc.rank s.receiver.host.pc + 3 * s.receiver.replies.arrived.length)
    (htravelling : r.replies.travelling = s.receiver.replies.travelling) :
    Advances s { s with receiver := r, requests := s.requests.write bytes } := by
  subst hbytes
  right
  rw [Line.write_nil]
  refine ⟨rfl, ?_⟩
  have hdevice := deviceWork_congr (s := s) (t := { s with receiver := r }) rfl rfl
  unfold work
  rw [hdevice]
  dsimp only
  rw [htravelling]
  omega

/-- A host step advances unless it reads nothing where it reads. -/
theorem advances_of_host {s : Link} (hs : Live s) {r : Receiver} {n : ℕ}
    {events : List HostEvent} (m : Receiver.Move s.receiver n events r)
    (hn : s.receiver.host.asks ≠ 0 → n ≠ 0) :
    Advances s { s with
      receiver := r, requests := s.requests.write (events.flatMap HostEvent.written) } := by
  have hsize := hs.size
  cases m with
  | firstSend hpc => exact .inl (by simp [HostEvent.written, hsize])
  | waitForData hpc | emptyRead hpc | shortRead hpc | rejectPair _ _ hpc | acceptPair _ _ hpc =>
    exact advances_of_silent (by simp [HostEvent.written])
      (by simp [Receiver.HostPc.rank, hpc]) rfl
  | handlePair hpc =>
    by_cases hfive : s.receiver.host.slider = 5
    · exact .inl (by simp [hfive, hsize])
    · exact advances_of_silent (by simp [hfive]) (by simp [Receiver.HostPc.rank, hpc]) rfl
  | receivePair hpc hle harr =>
    have hpos := hn (by simp [Receiver.asks_receivePair hpc])
    refine advances_of_silent (by simp [HostEvent.written]) ?_ rfl
    simp only [Receiver.HostPc.rank, hpc, Receiver.emit_host, Receiver.emit_replies,
      Line.arrived_take, List.length_drop]
    omega
  | receiveSkip hpc hle harr =>
    have hpos := hn (by simp [Receiver.asks_receiveSkip hpc, hsize])
    refine advances_of_silent (by simp [HostEvent.written]) ?_ rfl
    simp only [Receiver.HostPc.rank, hpc, Receiver.emit_host, Receiver.emit_replies,
      Line.arrived_take, List.length_drop]
    omega

theorem advances_of_deliverReply {s : Link} {l : Line UInt8}
    (hl : s.receiver.replies.deliver = some l) :
    Advances s { s with receiver := { s.receiver with replies := l } } := by
  obtain ⟨x, xs, ht, rfl⟩ := Line.deliver_eq_some.mp hl
  right
  refine ⟨rfl, ?_⟩
  have hdevice : deviceWork { s with receiver := { s.receiver with
      replies := ⟨s.receiver.replies.taken, s.receiver.replies.arrived ++ [x], xs⟩ } } =
        s.deviceWork := deviceWork_congr rfl rfl
  unfold work
  rw [hdevice]
  simp only [ht, List.length_append, List.length_cons, List.length_nil]
  omega

theorem advances_of_deliverRequest {s : Link} {l : Line UInt8}
    (hl : s.requests.deliver = some l) : Advances s { s with requests := l } := by
  obtain ⟨-, hunread, hhist⟩ := Line.deliver_spec hl
  have hdevice := deviceWork_congr (s := s) (t := { s with requests := l }) rfl hunread
  obtain ⟨x, xs, ht, rfl⟩ := Line.deliver_eq_some.mp hl
  right
  refine ⟨congrArg List.length hhist, ?_⟩
  unfold work
  rw [hdevice]
  simp only [ht, List.length_append, List.length_cons, List.length_nil]
  omega

theorem deviceWork_afterFrame {s : Link} {i : Fin 6} (hpc : s.device.pc = Device.afterFrame i)
    (hnone : s.requests.unread.length = 0) : s.deviceWork + 9 ≤ 9 * (6 - i) := by
  have hi := i.isLt
  unfold deviceWork
  rw [hpc]
  unfold Device.afterFrame
  by_cases hlast : i.val + 1 < 6
  · simp only [hlast, dite_true]
    omega
  · simp only [hlast, dite_false, hnone, if_true]
    omega

theorem advances_of_device {s : Link} (hs : Flow s) (analogRead : AnalogPin → Fin 1024)
    (hwork : s.device.pc = .waitRequest → s.requests.arrived ≠ []) :
    Advances s (s.deviceStep analogRead) := by
  have m := move_of_deviceStep s analogRead
  generalize s.deviceStep analogRead = t at m
  right
  cases m with
  | spin _ hpc hempty => exact absurd hempty (hwork hpc)
  | wake _ hpc hsome =>
    have hpos := List.length_pos_iff.mpr hsome
    have hle := s.requests.length_arrived_le_unread
    have hne : s.requests.unread.length ≠ 0 := by omega
    refine ⟨rfl, ?_⟩
    simp only [work, deviceWork, hpc, if_neg hne]
    omega
  | drain _ hpc hsome =>
    have hpos := List.length_pos_iff.mpr hsome
    refine ⟨by simp, ?_⟩
    have hpc' : s.device.countRead.pc = .drainRequests := hpc
    simp only [work, deviceWork, hpc, hpc', Line.arrived_take, Line.travelling_take,
      List.length_drop]
    omega
  | drained _ hpc hempty =>
    refine ⟨rfl, ?_⟩
    simp only [work, deviceWork, hpc, Fin.val_zero]
    omega
  | frame _ i hpc =>
    refine ⟨rfl, ?_⟩
    have hbusy : s.device.busy = true := by simp [Device.busy, hpc]
    have htok := hs.token
    rw [hbusy, Bool.toNat_true] at htok
    have hnone : s.requests.unread.length = 0 := by omega
    have hold : s.deviceWork = 9 * (6 - i) := by simp [deviceWork, hpc]
    have hnew := deviceWork_afterFrame (s := { receiver := { s.receiver with
        replies := s.receiver.replies.write (sliderFrame analogRead i).bytes }
                                               device := { s.device with pc := Device.afterFrame i }
                                               requests := s.requests
                                               sent := s.sent ++ [sliderFrame analogRead i] })
      rfl hnone
    unfold work
    rw [hold]
    simp only [Line.write, Frame.bytes, List.length_append, List.length_cons, List.length_nil]
      at hnew ⊢
    omega

/-! ## Some step can be taken -/

theorem exists_host_step {s : Link} {n : ℕ} (hasks : n ≤ s.receiver.host.asks)
    (harr : n ≤ s.receiver.replies.arrived.length) : ∃ t, s.step (.host n) = some t := by
  have hr : ∃ r, s.receiver.step n = some r := ⟨_, if_pos ⟨hasks, harr⟩⟩
  obtain ⟨r, hr⟩ := hr
  exact ⟨_, Option.map_eq_some_iff.mpr ⟨r, hr, rfl⟩⟩

theorem exists_advance_of_host {s : Link} (hs : Live s) {n : ℕ}
    (hasks : n ≤ s.receiver.host.asks) (harr : n ≤ s.receiver.replies.arrived.length)
    (hn : s.receiver.host.asks ≠ 0 → n ≠ 0)
    (hkeep : keepsLastFrame (s.receiver.replies.arrived.take n) = true) :
    ∃ a t, s.step a = some t ∧ ReadsLastFrame s a ∧ Advances s t := by
  obtain ⟨t, ht⟩ := exists_host_step hasks harr
  have hcond : ReadsLastFrame s (.host n) := by
    refine ⟨hkeep, ?_⟩
    intro hpc
    exact hn (by simp [Receiver.asks_receiveSkip hpc, hs.size])
  refine ⟨_, t, ht, hcond, ?_⟩
  cases move_of_step ht with
  | host m => exact advances_of_host hs m hn

/-- While the host waits for bytes, the lines or the device do their part. -/
theorem exists_advance_of_waiting {s : Link} (hs : Live s)
    (htoken : s.receiver.host.holdsToken = false)
    (harr : s.receiver.replies.arrived.length < 2) :
    ∃ a t, s.step a = some t ∧ ReadsLastFrame s a ∧ Advances s t := by
  by_cases htravel : s.receiver.replies.travelling = []
  · by_cases hdevice : s.device.pc = .waitRequest ∧ s.requests.arrived = []
    · obtain ⟨hpc, hempty⟩ := hdevice
      cases hreq : s.requests.travelling with
      | nil =>
        have hle := hs.outstanding hpc (by simp [Line.unread, hempty, hreq]) htoken
        simp only [Line.unread, htravel, List.append_nil] at hle
        omega
      | cons x xs =>
        have hl : s.requests.deliver =
            some ⟨s.requests.taken, s.requests.arrived ++ [x], xs⟩ :=
          Line.deliver_eq_some.mpr ⟨x, xs, hreq, rfl⟩
        exact ⟨.deliverRequest, _, Option.map_eq_some_iff.mpr ⟨_, hl, rfl⟩, trivial,
          advances_of_deliverRequest hl⟩
    · refine ⟨.device lowest, _, rfl, trivial, advances_of_device hs.flow lowest ?_⟩
      intro hpc hempty
      exact hdevice ⟨hpc, hempty⟩
  · obtain ⟨x, xs, hcons⟩ := List.exists_cons_of_ne_nil htravel
    have hl : s.receiver.replies.deliver =
        some ⟨s.receiver.replies.taken, s.receiver.replies.arrived ++ [x], xs⟩ :=
      Line.deliver_eq_some.mpr ⟨x, xs, hcons, rfl⟩
    exact ⟨.deliverReply, _, Option.map_eq_some_iff.mpr ⟨_, hl, rfl⟩, trivial,
      advances_of_deliverReply hl⟩

/-- A pair is read whole, or, where it would cut a frame of slider 5, its first byte. -/
theorem exists_advance_of_receivePair {s : Link} (hs : Live s)
    (hpc : s.receiver.host.pc = .receivePair) :
    ∃ a t, s.step a = some t ∧ ReadsLastFrame s a ∧ Advances s t := by
  have hasks := Receiver.asks_receivePair hpc
  rcases hbs : s.receiver.replies.arrived with _ | ⟨b0, _ | ⟨b1, rest⟩⟩
  · exact exists_advance_of_waiting hs (by simp [Host.holdsToken, hpc]) (by simp [hbs])
  · exact exists_advance_of_waiting hs (by simp [Host.holdsToken, hpc]) (by simp [hbs])
  · cases hkeep : keepsLastFrame [b0, b1] with
    | true =>
      exact exists_advance_of_host hs (n := 2) (by omega) (by simp [hbs]) (fun _ => by decide)
        (by simpa [hbs] using hkeep)
    | false =>
      have hstart : startsLastFrame b1 = true := by simpa [keepsLastFrame] using hkeep
      have heven := hs.flow.sound.even_of_start (i := 1) (by simp [hbs]) hstart
      have hfirst := hs.flow.sound.not_start_of_odd (b := b0) (i := 0) (by simp [hbs]) (by omega)
      exact exists_advance_of_host hs (n := 1) (by omega) (by simp [hbs]) (fun _ => by decide)
        (by simp [hbs, keepsLastFrame, hfirst])

theorem exists_advance_of_receiveSkip {s : Link} (hs : Progressing s)
    (hpc : s.receiver.host.pc = .receiveSkip) :
    ∃ a t, s.step a = some t ∧ ReadsLastFrame s a ∧ Advances s t := by
  have hasks := (Receiver.asks_receiveSkip hpc).trans hs.live.size
  rcases hbs : s.receiver.replies.arrived with _ | ⟨b, rest⟩
  · exact exists_advance_of_waiting hs.live (by simp [Host.holdsToken, hpc]) (by simp [hbs])
  · have hodd := hs.skip hpc
    have hfirst := hs.live.flow.sound.not_start_of_odd (b := b) (i := 0) (by simp [hbs])
      (by omega)
    exact exists_advance_of_host hs.live (n := 1) (by omega) (by simp [hbs])
      (fun _ => by decide) (by simp [hbs, keepsLastFrame, hfirst])

/-- In every state of the exchange some step advances it. -/
theorem exists_advance {s : Link} (hs : Progressing s) :
    ∃ a t, s.step a = some t ∧ ReadsLastFrame s a ∧ Advances s t := by
  cases hpc : s.receiver.host.pc with
  | receivePair => exact exists_advance_of_receivePair hs.live hpc
  | receiveSkip => exact exists_advance_of_receiveSkip hs hpc
  | firstSend | waitForData | checkPair | handlePair =>
    exact exists_advance_of_host hs.live (n := 0) (Nat.zero_le _) (Nat.zero_le _)
      (by simp [Host.asks, hpc]) rfl

/-! ## How long the next request takes -/

theorem rank_le (pc : HostPc) : Receiver.HostPc.rank pc ≤ 2 := by
  cases pc <;> decide

theorem Flow.work_le {s : Link} (hs : Flow s) : s.work ≤ 60 := by
  have hrank := rank_le s.receiver.host.pc
  have htok := hs.token
  have hcaught := hs.caughtUp
  have hwindow := hs.window
  unfold work deviceWork
  simp only [Line.unread, List.length_append] at htok hcaught hwindow ⊢
  cases hpc : s.device.pc with
  | waitRequest =>
    dsimp only
    split_ifs <;> omega
  | drainRequests =>
    dsimp only
    rcases hs.rounds.running hpc with ⟨ds, hds, -⟩ | ⟨ds, -, hone⟩
    · have hbusy := Device.busy_of_drained hpc hds
      have hread := hs.busyWindow hbusy
      simp only [Line.unread, List.length_append, Device.frameIndex, hpc] at hread
      omega
    · omega
  | writeFrame i =>
    have hbusy : s.device.busy = true := by simp [Device.busy, hpc]
    have hread := hs.busyWindow hbusy
    simp only [Line.unread, List.length_append, Device.frameIndex, hpc] at hread
    rw [hbusy, Bool.toNat_true] at htok
    dsimp only
    omega

theorem exists_next_request {s : Link} (hs : Progressing s) :
    ∃ more t, run step s more = some t ∧ Meets step ReadsLastFrame s more ∧ Progressing t ∧
      more.length ≤ 61 ∧ t.requests.history.length = s.requests.history.length + 1 := by
  have hprog : ∀ u : Link,
      Progressing u ∧ (u.requests.history.length = s.requests.history.length ∨
        u.requests.history.length = s.requests.history.length + 1) →
      u.requests.history.length = s.requests.history.length + 1 ∨
        ∃ a t, u.step a = some t ∧ ReadsLastFrame u a ∧
          (Progressing t ∧ (t.requests.history.length = s.requests.history.length ∨
            t.requests.history.length = s.requests.history.length + 1)) ∧
          (if t.requests.history.length = s.requests.history.length then t.work + 1 else 0) <
            if u.requests.history.length = s.requests.history.length then u.work + 1 else 0 := by
    rintro u ⟨hu, hsame | hnext⟩
    · right
      obtain ⟨a, t, ht, hcond, hadvances⟩ := exists_advance hu
      refine ⟨a, t, ht, hcond, ⟨progressing_of_move hu hcond (move_of_step ht), ?_⟩, ?_⟩
      · rcases hadvances with h | ⟨h, -⟩ <;> omega
      · rcases hadvances with h | ⟨h, hlt⟩
        · rw [if_neg (by omega), if_pos hsame]
          omega
        · rw [if_pos (by omega), if_pos hsame]
          omega
    · exact .inl hnext
  obtain ⟨more, t, hrun, hmeets, ⟨ht, -⟩, hstop, hle⟩ :=
    exists_run_to_stop_of_inv _ hprog ⟨hs, .inl rfl⟩
  have hwork := hs.live.flow.work_le
  rw [if_pos rfl] at hle
  exact ⟨more, t, hrun, hmeets, ht, by omega, hstop⟩

theorem Progressing.exists_requests_within {s : Link} (hs : Progressing s) (k : ℕ) :
    ∃ more t, run step s more = some t ∧ Meets step ReadsLastFrame s more ∧ Progressing t ∧
      more.length ≤ 61 * k ∧ t.requests.history.length = s.requests.history.length + k := by
  induction k with
  | zero => exact ⟨[], s, rfl, trivial, hs, le_refl _, rfl⟩
  | succ k ih =>
    obtain ⟨more, t, hrun, hmeets, ht, hle, hcount⟩ := ih
    obtain ⟨next, u, hrun', hmeets', hu, hle', hcount'⟩ := exists_next_request ht
    refine ⟨more ++ next, u, run_trans hrun hrun', hmeets.trans hrun hmeets', hu, ?_, ?_⟩
    · rw [List.length_append]
      omega
    · omega

theorem progressing_of_run {actions : List Action} {s : Link}
    (hm : Meets step ReadsLastFrame (start []) actions)
    (h : run step (start []) actions = some s) : Progressing s :=
  run_invariant_of_meets (fun _ _ _ hinv hcond hstep => progressing_of_move hinv hcond
    (move_of_step hstep)) progressing_start hm h

/-- From every state that is reached without a read that cuts a frame of slider 5, and
without a skip that gets no byte, the exchange can go on for any number of requests,
each within 61 steps. -/
theorem exchange_goes_on (k : ℕ) (actions : List Action) {s : Link}
    (hm : Meets step ReadsLastFrame (start []) actions)
    (h : run step (start []) actions = some s) :
    ∃ more t, run step s more = some t ∧ Meets step ReadsLastFrame s more ∧
      more.length ≤ 61 * k ∧ t.requests.history.length = s.requests.history.length + k := by
  obtain ⟨more, t, hrun, hmeets, -, hrest⟩ := (progressing_of_run hm h).exists_requests_within k
  exact ⟨more, t, hrun, hmeets, hrest⟩

theorem exchange_goes_on_firstFrame :
    ∃ s more t, run step (start []) firstFrame = some s ∧ run step s more = some t ∧
      more.length ≤ 61 * 3 ∧ t.requests.history.length = s.requests.history.length + 3 := by
  obtain ⟨more, t, hrun, -, hle, hcount⟩ :=
    exchange_goes_on 3 firstFrame (by decide) rfl
  exact ⟨_, more, t, rfl, hrun, hle, hcount⟩

end Link
end AudioCtrl.Serial
