import AudioCtrl.Serial.Link
import Mathlib.Data.Finset.Card

/-!
# One request at a time

The host's first request and every decoded frame of slider 5 are a token: the
right to have one request on its way, one round under way or one answer of
slider 5 unread. `Flow` counts the token over both programs and both lines.
-/

namespace AudioCtrl.Serial

open PartialRun

namespace Device

/-- The slider whose frame is written next, 0 outside the loop over the sliders. -/
def frameIndex (d : Device) : ℕ :=
  match d.pc with
  | .writeFrame i => i
  | _ => 0

/-- The device has consumed a request and not written frame 5 yet. -/
def busy (d : Device) : Bool :=
  match d.pc with
  | .waitRequest => false
  | .drainRequests => decide (0 < d.drains.headD 0)
  | .writeFrame _ => true

/-- What the drain loops that have ended have read. -/
def endedDrains (d : Device) : List ℕ :=
  match d.pc with
  | .drainRequests => d.drains.tail
  | _ => d.drains

theorem frameIndex_lt (d : Device) : d.frameIndex < 6 := by
  unfold frameIndex
  split <;> omega

theorem frameIndex_of_not_busy {d : Device} (h : d.busy = false) : d.frameIndex = 0 := by
  unfold busy at h
  unfold frameIndex
  split <;> simp_all

theorem busy_of_drained {d : Device} {ds : List ℕ} (hpc : d.pc = .drainRequests)
    (hds : d.drains = 1 :: ds) : d.busy = true := by
  simp [busy, hpc, hds]

end Device

/-- The host is going to send a request before it reads again, `tempBuf` permitting. -/
def Host.holdsToken (h : Host) : Bool :=
  match h.pc with
  | .firstSend => true
  | .checkPair =>
    match h.buffer with
    | [b0, b1] => !rejects b0 b1 && decide (sliderOf b0 = 5)
    | _ => false
  | .handlePair => decide (h.slider = 5)
  | _ => false

/-- After a read the host holds the token if it has read a frame of slider 5. -/
theorem Host.holdsToken_checkPair_iff {h : Host} (hpc : h.pc = .checkPair) :
    h.holdsToken = true ↔
      ∃ b0 b1, h.buffer = [b0, b1] ∧ rejects b0 b1 = false ∧ sliderOf b0 = 5 := by
  simp only [holdsToken, hpc]
  split
  · next b0 b1 hbuf => simp [hbuf]
  · next hbuf =>
    refine iff_of_false (by simp) ?_
    rintro ⟨b0, b1, h, -⟩
    exact hbuf b0 b1 h

namespace Link

/-- The frames of slider 5 that have been sent and not wholly been read. -/
def unreadLastFrames (s : Link) : Finset ℕ :=
  (Finset.range s.sent.length).filter fun j =>
    s.sent[j]?.map Frame.slider = some 5 ∧ s.receiver.replies.taken.length < 2 * j + 2

/-- Each round consumes one request byte of its own. -/
structure OneRequestPerRound (s : Link) : Prop where
  ended : ∀ n ∈ s.device.endedDrains, n = 1
  running : s.device.pc = .drainRequests →
    (∃ ds, s.device.drains = 1 :: ds ∧ s.requests.unread = []) ∨
      ∃ ds, s.device.drains = 0 :: ds ∧ s.requests.arrived.length = 1
  total : s.device.drains.sum = s.requests.taken.length

structure Flow (s : Link) : Prop where
  sound : s.Sound
  slider : ∀ j f, s.sent[j]? = some f → f.slider = j % 6
  place : s.sent.length % 6 = s.device.frameIndex
  tempBuf : s.receiver.host.tempBuf.length ≤ 1
  token : s.requests.unread.length + s.device.busy.toNat +
    s.receiver.host.holdsToken.toNat ≤ 1
  caughtUp : 0 < s.requests.unread.length + s.receiver.host.holdsToken.toNat →
    s.receiver.replies.unread.length = 0
  busyWindow : s.device.busy = true →
    s.receiver.replies.unread.length ≤ 2 * s.device.frameIndex
  window : s.receiver.replies.unread.length ≤ 12
  rounds : s.OneRequestPerRound

theorem flow_start : Flow (start []) where
  sound := sound_start []
  slider := by simp [start]
  place := rfl
  tempBuf := by decide
  token := by decide
  caughtUp := fun _ => rfl
  busyWindow := by simp [start, Device.idle, Device.busy]
  window := by decide
  rounds := ⟨by simp [start, Device.idle, Device.endedDrains], by simp [start, Device.idle], rfl⟩

theorem Sound.length_sent {s : Link} (hs : Sound s) :
    s.receiver.replies.taken.length + s.receiver.replies.unread.length = 2 * s.sent.length := by
  rw [Line.length_taken_add_unread, hs.history, length_frameBytes]

/-! ## Steps of the host -/

theorem Flow.of_host {s : Link} (hs : Flow s) {r : Receiver} {bytes : List UInt8}
    (hsound : Sound { s with receiver := r, requests := s.requests.write bytes })
    (htemp : r.host.tempBuf.length ≤ 1)
    (hunread : r.replies.unread.length ≤ s.receiver.replies.unread.length)
    (htoken : bytes.length + r.host.holdsToken.toNat ≤ s.receiver.host.holdsToken.toNat ∨
      (bytes = [] ∧ s.requests.unread.length + s.device.busy.toNat = 0 ∧
        r.replies.unread.length = 0)) :
    Flow { s with receiver := r, requests := s.requests.write bytes } := by
  have htok := hs.token
  have hle := r.host.holdsToken.toNat_le
  constructor
  · exact hsound
  · exact hs.slider
  · exact hs.place
  · exact htemp
  · dsimp only
    rw [Line.unread_write, List.length_append]
    rcases htoken with h | ⟨rfl, h, -⟩
    · omega
    · simp only [List.length_nil]
      omega
  · dsimp only
    rw [Line.unread_write, List.length_append]
    intro hpos
    rcases htoken with h | ⟨-, -, h⟩
    · have := hs.caughtUp (by omega)
      omega
    · exact h
  · intro hbusy
    exact hunread.trans (hs.busyWindow hbusy)
  · exact hunread.trans hs.window
  · refine ⟨hs.rounds.ended, ?_, hs.rounds.total⟩
    intro hpc
    rcases hs.rounds.running hpc with ⟨ds, hds, hempty⟩ | h
    · have hbusy : s.device.busy = true := Device.busy_of_drained hpc hds
      have hbytes : bytes = [] := by
        rcases htoken with h | h
        · rw [hbusy, Bool.toNat_true] at htok
          exact List.eq_nil_of_length_eq_zero (by omega)
        · exact h.1
      exact .inl ⟨ds, hds, by simp [hempty, hbytes]⟩
    · exact .inr h

/-- When the frame of slider 5 is next to be read, the round is over, no request
is on its way and nothing follows the frame. -/
theorem Flow.last_frame_next {s : Link} (hs : Flow s) {b0 b1 : UInt8}
    (h0 : s.receiver.replies.arrived[0]? = some b0) (h1 : s.receiver.replies.arrived[1]? = some b1)
    (hacc : rejects b0 b1 = false) (hfive : sliderOf b0 = 5) :
    s.requests.unread.length + s.device.busy.toNat = 0 ∧
      s.receiver.replies.unread.length = 2 := by
  have h0' := s.receiver.replies.getElem?_history_of_arrived h0
  have h1' := s.receiver.replies.getElem?_history_of_arrived h1
  rw [hs.sound.history] at h0' h1'
  obtain ⟨j, f, hj, hf, rfl, rfl⟩ := exists_frame_of_accepted h0' h1' hacc
  have hmod : j % 6 = 5 := by
    rw [← hs.slider j f hf, ← f.sliderOf_byte0, hfive]
  have hjlt : j < s.sent.length := (List.getElem?_eq_some_iff.mp hf).1
  have hlen := hs.sound.length_sent
  have hplace := hs.place
  have hwindow := hs.window
  have hidx := s.device.frameIndex_lt
  rw [Nat.add_zero] at hj
  cases hbusy : s.device.busy with
  | true =>
    have := hs.busyWindow hbusy
    omega
  | false =>
    rw [Device.frameIndex_of_not_busy hbusy] at hplace
    have hcaught := hs.caughtUp
    rw [Bool.toNat_false]
    omega

theorem flow_of_host_move {s : Link} (hs : Flow s) {r : Receiver} {n : ℕ}
    {events : List HostEvent} (m : Receiver.Move s.receiver n events r) :
    Flow { s with
      receiver := r, requests := s.requests.write (events.flatMap HostEvent.written) } := by
  have hsound := sound_of_move hs.sound (.host m)
  have htemp := hs.tempBuf
  cases m with
  | firstSend hpc =>
    exact hs.of_host hsound htemp (le_refl _) (.inl (by
      simpa [Host.holdsToken, hpc, HostEvent.written] using htemp))
  | waitForData hpc =>
    exact hs.of_host hsound htemp (le_refl _) (.inl (by
      simp [Host.holdsToken, hpc, HostEvent.written]))
  | receivePair hpc hn harr =>
    refine hs.of_host hsound htemp ?_ ?_
    · rw [Receiver.emit_replies, Line.unread_take _ harr, List.length_drop]
      omega
    · cases htok : Host.holdsToken _ with
      | false => exact .inl (by simp [HostEvent.written])
      | true =>
        obtain ⟨b0, b1, hbuf, hacc, hfive⟩ := (Host.holdsToken_checkPair_iff rfl).mp htok
        change s.receiver.replies.arrived.take n = [b0, b1] at hbuf
        have h2 : n = 2 := by
          have := congrArg List.length hbuf
          simp only [List.length_take, List.length_cons, List.length_nil] at this
          omega
        have harrived := List.take_append_drop n s.receiver.replies.arrived
        rw [hbuf] at harrived
        have h0 : s.receiver.replies.arrived[0]? = some b0 := by rw [← harrived]; rfl
        have h1 : s.receiver.replies.arrived[1]? = some b1 := by rw [← harrived]; rfl
        obtain ⟨hidle, hlast⟩ := hs.last_frame_next h0 h1 hacc hfive
        refine .inr ⟨rfl, hidle, ?_⟩
        rw [Receiver.emit_replies, Line.unread_take _ harr, List.length_drop, hlast, h2]
  | emptyRead hpc hbuf | shortRead hpc hbuf | rejectPair b0 b1 hpc hbuf hrej =>
    exact hs.of_host hsound htemp (le_refl _) (.inl (by simp [Host.holdsToken]))
  | acceptPair b0 b1 hpc hbuf hacc =>
    exact hs.of_host hsound htemp (le_refl _) (.inl (by
      simp [Host.holdsToken, hpc, hbuf, hacc, Host.slider]))
  | receiveSkip hpc hn harr =>
    refine hs.of_host hsound ?_ ?_ (.inl (by simp [Host.holdsToken, HostEvent.written]))
    · simpa using .inl (hn.trans htemp)
    · rw [Receiver.emit_replies, Line.unread_take _ harr, List.length_drop]
      omega
  | handlePair hpc =>
    refine hs.of_host hsound htemp (le_refl _) (.inl ?_)
    rw [Receiver.handleEvents_written]
    by_cases hfive : s.receiver.host.slider = 5
    · simpa [Host.holdsToken, hpc, hfive] using htemp
    · simp [Host.holdsToken, hpc, hfive]

/-! ## Steps of the device and of the lines -/

theorem Flow.of_arrived {s : Link} (hs : Flow s) (hsome : s.requests.arrived ≠ []) :
    s.requests.unread.length = 1 ∧ s.device.busy = false ∧
      s.receiver.host.holdsToken = false := by
  have harr := List.length_pos_iff.mpr hsome
  have hle := s.requests.length_arrived_le_unread
  have htok := hs.token
  refine ⟨by omega, ?_, ?_⟩
  · by_contra h
    rw [Bool.not_eq_false] at h
    rw [h, Bool.toNat_true] at htok
    omega
  · by_contra h
    rw [Bool.not_eq_false] at h
    rw [h, Bool.toNat_true] at htok
    omega

theorem flow_wake {s : Link} (hs : Flow s) (hpc : s.device.pc = .waitRequest)
    (hsome : s.requests.arrived ≠ []) :
    Flow { s with device := ⟨.drainRequests, 0 :: s.device.drains⟩ } := by
  obtain ⟨hunread, hbusy, hhold⟩ := hs.of_arrived hsome
  have hidx : s.device.frameIndex = 0 := by simp [Device.frameIndex, hpc]
  have hcaught := hs.caughtUp (by omega)
  refine ⟨⟨hs.sound.1, hs.sound.2⟩, hs.slider, hs.place.trans hidx, hs.tempBuf, ?_,
    hs.caughtUp, ?_, hs.window, ?_⟩
  · simp [Device.busy, hunread, hhold]
  · simp [Device.busy]
  · refine ⟨?_, fun _ => .inr ⟨s.device.drains, rfl, ?_⟩, ?_⟩
    · simpa [Device.endedDrains, hpc] using hs.rounds.ended
    · have hle := s.requests.length_arrived_le_unread
      have hpos := List.length_pos_iff.mpr hsome
      dsimp only
      omega
    · simpa using hs.rounds.total

theorem flow_drain {s : Link} (hs : Flow s) (hpc : s.device.pc = .drainRequests)
    (hsome : s.requests.arrived ≠ []) :
    Flow { s with device := s.device.countRead, requests := s.requests.take 1 } := by
  obtain ⟨hunread, hbusy, hhold⟩ := hs.of_arrived hsome
  have hcaught := hs.caughtUp (by omega)
  have hone : 1 ≤ s.requests.arrived.length := List.length_pos_iff.mpr hsome
  have hleft : (s.requests.take 1).unread = [] := by
    rw [Line.unread_take _ hone]
    exact List.drop_eq_nil_of_le hunread.le
  obtain ⟨ds, hds⟩ : ∃ ds, s.device.drains = 0 :: ds := by
    rcases hs.rounds.running hpc with ⟨ds, -, hempty⟩ | ⟨ds, hds, -⟩
    · rw [hempty] at hunread
      exact absurd hunread (by decide)
    · exact ⟨ds, hds⟩
  have hdrains : s.device.countRead.drains = 1 :: ds := by simp [Device.countRead, hds]
  have hpc' : s.device.countRead.pc = .drainRequests := hpc
  refine ⟨⟨hs.sound.1, hs.sound.2⟩, hs.slider, ?_, hs.tempBuf, ?_, ?_, ?_, hs.window, ?_⟩
  · simpa [Device.frameIndex, hpc, hpc'] using hs.place
  · simp [hleft, hhold, Bool.toNat_le]
  · exact fun _ => hcaught
  · exact fun _ => hcaught.le.trans (Nat.zero_le _)
  · refine ⟨?_, fun _ => .inl ⟨ds, hdrains, hleft⟩, ?_⟩
    · have hended := hs.rounds.ended
      simpa [Device.endedDrains, hpc, hpc', hds, hdrains] using hended
    · have htotal := hs.rounds.total
      simp only [hdrains, Line.taken_take, List.length_append, List.length_take, List.sum_cons]
      rw [hds, List.sum_cons] at htotal
      omega

theorem flow_drained {s : Link} (hs : Flow s) (hpc : s.device.pc = .drainRequests)
    (hempty : s.requests.arrived = []) :
    Flow { s with device := { s.device with pc := .writeFrame 0 } } := by
  obtain ⟨ds, hds, hleft⟩ : ∃ ds, s.device.drains = 1 :: ds ∧ s.requests.unread = [] := by
    rcases hs.rounds.running hpc with h | ⟨ds, -, hone⟩
    · exact h
    · rw [hempty] at hone
      exact absurd hone (by decide)
  have hbusy := Device.busy_of_drained hpc hds
  have htok := hs.token
  have hwindow := hs.busyWindow hbusy
  rw [hbusy] at htok
  have hidx : s.device.frameIndex = 0 := by simp [Device.frameIndex, hpc]
  refine ⟨⟨hs.sound.1, hs.sound.2⟩, hs.slider, ?_, hs.tempBuf, htok, hs.caughtUp, ?_, hs.window, ?_⟩
  · simpa [Device.frameIndex, hpc] using hs.place
  · intro _
    rw [hidx] at hwindow
    exact hwindow
  · refine ⟨?_, by simp, hs.rounds.total⟩
    have hended := hs.rounds.ended
    simp only [Device.endedDrains, hpc, hds, List.tail_cons] at hended ⊢
    simpa using hended

theorem afterFrame_spec (d : Device) (i : Fin 6) :
    (i.val < 5 ∧ Device.frameIndex { d with pc := Device.afterFrame i } = i.val + 1) ∨
      (i.val = 5 ∧ Device.frameIndex { d with pc := Device.afterFrame i } = 0 ∧
        Device.busy { d with pc := Device.afterFrame i } = false) := by
  have hi := i.isLt
  by_cases h : i.val + 1 < 6
  · exact .inl ⟨by omega, by simp [Device.frameIndex, Device.afterFrame, h]⟩
  · exact .inr ⟨by omega, by simp [Device.frameIndex, Device.afterFrame, h],
      by simp [Device.busy, Device.afterFrame, h]⟩

theorem endedDrains_afterFrame (d : Device) (i : Fin 6) :
    Device.endedDrains { d with pc := Device.afterFrame i } = d.drains := by
  unfold Device.endedDrains Device.afterFrame
  split_ifs <;> rfl

theorem afterFrame_ne_drain (i : Fin 6) : Device.afterFrame i ≠ .drainRequests := by
  unfold Device.afterFrame
  split_ifs <;> simp

theorem flow_frame {s : Link} (hs : Flow s) (analogRead : AnalogPin → Fin 1024) {i : Fin 6}
    (hpc : s.device.pc = .writeFrame i) {t : Link} (hsound : Sound t)
    (ht : t = { receiver := { s.receiver with
        replies := s.receiver.replies.write (sliderFrame analogRead i).bytes }
                device := { s.device with pc := Device.afterFrame i }
                requests := s.requests
                sent := s.sent ++ [sliderFrame analogRead i] }) : Flow t := by
  subst ht
  have hidx : s.device.frameIndex = i.val := by simp [Device.frameIndex, hpc]
  have hbusy : s.device.busy = true := by simp [Device.busy, hpc]
  have hplace := hs.place
  have htok := hs.token
  have hwindow := hs.busyWindow hbusy
  have hunread : (s.receiver.replies.write (sliderFrame analogRead i).bytes).unread.length =
      s.receiver.replies.unread.length + 2 := by
    simp [Frame.bytes]
  have hafter := afterFrame_spec s.device i
  rw [hidx] at hplace hwindow
  rw [hbusy, Bool.toNat_true] at htok
  refine ⟨hsound, ?_, ?_, hs.tempBuf, ?_, ?_, ?_, ?_, ?_⟩
  · intro j f hf
    dsimp only at hf
    rcases Nat.lt_or_ge j s.sent.length with hlt | hge
    · rw [List.getElem?_append_left hlt] at hf
      exact hs.slider j f hf
    · rw [List.getElem?_append_right hge, List.getElem?_singleton] at hf
      split_ifs at hf with hj
      obtain rfl := Option.some.inj hf
      change i.val = j % 6
      omega
  · simp only [List.length_append, List.length_singleton]
    omega
  · have hle := Bool.toNat_le (Device.busy ⟨Device.afterFrame i, s.device.drains⟩)
    dsimp only
    omega
  · intro hpos
    dsimp only at hpos
    omega
  · intro hb
    dsimp only at hb ⊢
    rw [hunread]
    rcases hafter with ⟨-, hnext⟩ | ⟨-, -, hnot⟩
    · omega
    · rw [hnot] at hb
      exact absurd hb (by decide)
  · dsimp only
    omega
  · refine ⟨?_, fun hdrain => absurd hdrain (afterFrame_ne_drain i), hs.rounds.total⟩
    rw [endedDrains_afterFrame]
    simpa [Device.endedDrains, hpc] using hs.rounds.ended

theorem flow_deliverRequest {s : Link} (hs : Flow s) {l : Line UInt8}
    (hl : s.requests.deliver = some l) : Flow { s with requests := l } := by
  obtain ⟨htaken, hunread, -⟩ := Line.deliver_spec hl
  have htok := hs.token
  refine ⟨⟨hs.sound.1, hs.sound.2⟩, hs.slider, hs.place, hs.tempBuf, ?_, ?_, hs.busyWindow,
    hs.window, ?_⟩
  · rwa [← hunread] at htok
  · have hcaught := hs.caughtUp
    rwa [← hunread] at hcaught
  · refine ⟨hs.rounds.ended, ?_, htaken ▸ hs.rounds.total⟩
    intro hpc
    rcases hs.rounds.running hpc with ⟨ds, hds, hempty⟩ | ⟨ds, hds, hone⟩
    · exact .inl ⟨ds, hds, hunread.trans hempty⟩
    · obtain ⟨x, xs, ht, -⟩ := Line.deliver_eq_some.mp hl
      simp only [Line.unread, ht, hone, List.length_append, List.length_cons] at htok
      omega

theorem flow_of_move {s t : Link} {a : Action} (hs : Flow s) (m : Move s a t) : Flow t := by
  have hsound := sound_of_move hs.sound m
  cases m with
  | host m => exact flow_of_host_move hs m
  | spin => exact hs
  | wake analogRead hpc hsome => exact flow_wake hs hpc hsome
  | drain analogRead hpc hsome => exact flow_drain hs hpc hsome
  | drained analogRead hpc hempty => exact flow_drained hs hpc hempty
  | frame analogRead i hpc => exact flow_frame hs analogRead hpc hsound rfl
  | deliverRequest hl => exact flow_deliverRequest hs hl
  | deliverReply hl =>
    obtain ⟨-, hunread, -⟩ := Line.deliver_spec hl
    have hcaught := hs.caughtUp
    have hbusy := hs.busyWindow
    have hwindow := hs.window
    rw [← hunread] at hcaught hbusy hwindow
    exact ⟨hsound, hs.slider, hs.place, hs.tempBuf, hs.token, hcaught, hbusy, hwindow,
      ⟨hs.rounds.1, hs.rounds.2, hs.rounds.3⟩⟩

theorem flow_of_run {actions : List Action} {s : Link}
    (h : run step (start []) actions = some s) : Flow s :=
  run_invariant (fun _ _ _ hinv hstep => flow_of_move hinv (move_of_step hstep)) flow_start h

/-! ## The token, as requests, rounds and unread answers -/

theorem Flow.mem_unreadLastFrames {s : Link} (hs : Flow s) {j : ℕ}
    (hj : j ∈ s.unreadLastFrames) :
    j < s.sent.length ∧ j % 6 = 5 ∧ s.receiver.replies.taken.length < 2 * j + 2 := by
  obtain ⟨hlt, hfive, htaken⟩ := Finset.mem_filter.mp hj
  obtain ⟨f, hf, hslider⟩ := Option.map_eq_some_iff.mp hfive
  exact ⟨Finset.mem_range.mp hlt, (hs.slider j f hf).symm.trans hslider, htaken⟩

/-- An unread answer of slider 5 means that no request is on its way and the
device is idle, and there is only one such answer. -/
theorem Flow.token_le_one {s : Link} (hs : Flow s) :
    s.requests.unread.length + s.device.busy.toNat + s.unreadLastFrames.card ≤ 1 := by
  have htok := hs.token
  have hlen := hs.sound.length_sent
  have hwindow := hs.window
  rcases s.unreadLastFrames.eq_empty_or_nonempty with hnone | ⟨j, hj⟩
  · rw [hnone, Finset.card_empty]
    omega
  · obtain ⟨hlt, hmod, htaken⟩ := hs.mem_unreadLastFrames hj
    have hcard : s.unreadLastFrames.card ≤ 1 := by
      apply Finset.card_le_one.mpr
      intro a ha b hb
      have ha := hs.mem_unreadLastFrames ha
      have hb := hs.mem_unreadLastFrames hb
      omega
    have hcaught := hs.caughtUp
    have hplace := hs.place
    have hidx := s.device.frameIndex_lt
    cases hbusy : s.device.busy with
    | true =>
      have := hs.busyWindow hbusy
      omega
    | false =>
      rw [Bool.toNat_false]
      omega

/-- In every reachable state there is at most one request, round or unread
answer of slider 5, a request on its way finds all replies read, at most twelve
reply bytes are unread, and every round consumes one request of its own. -/
theorem flow_control (actions : List Action) {s : Link}
    (h : run step (start []) actions = some s) :
    s.requests.unread.length + s.device.busy.toNat + s.unreadLastFrames.card ≤ 1 ∧
      (s.requests.unread ≠ [] → s.receiver.replies.unread = []) ∧
      s.receiver.replies.unread.length ≤ 12 ∧ s.OneRequestPerRound := by
  have hs := flow_of_run h
  refine ⟨hs.token_le_one, ?_, hs.window, hs.rounds⟩
  intro hsome
  have hpos := List.length_pos_iff.mpr hsome
  exact List.eq_nil_of_length_eq_zero (hs.caughtUp (by omega))

theorem flow_control_firstFrame :
    ∃ s, run step (start []) firstFrame = some s ∧
      s.requests.unread.length + s.device.busy.toNat + s.unreadLastFrames.card ≤ 1 ∧
      s.OneRequestPerRound ∧ s.device.drains = [1] :=
  ⟨_, rfl, (flow_control firstFrame rfl).1, (flow_control firstFrame rfl).2.2.2, rfl⟩

end Link
end AudioCtrl.Serial
