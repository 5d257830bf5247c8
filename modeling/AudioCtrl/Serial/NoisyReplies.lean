import AudioCtrl.Serial.FlowControl
import AudioCtrl.Serial.Resync

/-!
# Noise in front of the replies

The port may hold anything when the program starts. With reads that are not cut short
the host refines the reference decoder of what is on the line and of whatever may still
follow. The noise then costs at most two frames, the answers of slider 5 survive it, and
the link never comes to rest.
-/

namespace AudioCtrl.Serial

open PartialRun

namespace Receiver

/-- The same receiver, all of its line arrived and `more` behind it. -/
def ahead (r : Receiver) (more : List UInt8) : Receiver :=
  { r with replies := ⟨r.replies.taken, r.replies.unread ++ more, []⟩ }

/-- Bytes that have not arrived yet do not change a step. -/
theorem Move.ahead {r t : Receiver} {n : ℕ} {events : List HostEvent} (m : Move r n events t)
    (more : List UInt8) : Move (r.ahead more) n events (t.ahead more) := by
  have htake (hn : n ≤ r.replies.arrived.length) :
      (r.ahead more).replies.arrived.take n = r.replies.arrived.take n := by
    simp only [Receiver.ahead, Line.unread, List.append_assoc]
    exact List.take_append_of_le_length hn
  have hline (hn : n ≤ r.replies.arrived.length) :
      (r.ahead more).replies.take n =
        ⟨(r.replies.take n).taken, (r.replies.take n).unread ++ more, []⟩ := by
    have hdrop : (r.replies.unread ++ more).drop n = (r.replies.take n).unread ++ more := by
      rw [Line.unread_take _ hn]
      exact List.drop_append_of_le_length (hn.trans r.replies.length_arrived_le_unread)
    have htaken := htake hn
    simp only [Receiver.ahead] at htaken ⊢
    rw [Line.take, htaken, hdrop]
    rfl
  have hlength (hn : n ≤ r.replies.arrived.length) :
      n ≤ (r.ahead more).replies.arrived.length := by
    have hle := r.replies.length_arrived_le_unread
    simp only [Receiver.ahead, List.length_append]
    omega
  cases m with
  | firstSend hpc => exact .firstSend hpc
  | waitForData hpc => exact .waitForData hpc
  | receivePair hpc hn harr =>
    have m := Move.receivePair (r := r.ahead more) hpc hn (hlength harr)
    rw [htake harr, hline harr] at m
    exact m
  | emptyRead hpc hbuf => exact .emptyRead hpc hbuf
  | shortRead hpc hbuf hlen => exact .shortRead hpc hbuf hlen
  | rejectPair b0 b1 hpc hbuf hrej => exact .rejectPair b0 b1 hpc hbuf hrej
  | acceptPair b0 b1 hpc hbuf hacc => exact .acceptPair b0 b1 hpc hbuf hacc
  | receiveSkip hpc hn harr =>
    have m := Move.receiveSkip (r := r.ahead more) hpc hn (hlength harr)
    rw [htake harr, hline harr] at m
    exact m
  | handlePair hpc => exact .handlePair hpc

theorem ahead_write (r : Receiver) (bytes more : List UInt8) :
    ahead { r with replies := r.replies.write bytes } more = r.ahead (bytes ++ more) := by
  simp only [ahead, Line.unread_write, Line.taken_write, List.append_assoc]

/-- The host waits for bytes that are not on the line. -/
def Waits (r : Receiver) : Prop :=
  match r.host.pc with
  | .waitForData | .receivePair => r.replies.unread.length < 2
  | .receiveSkip => r.replies.unread = []
  | _ => False

instance (r : Receiver) : Decidable r.Waits := by
  unfold Waits
  split <;> infer_instance

theorem Refines.decodedAt_of_waits {stream : List UInt8} {r : Receiver}
    (hr : Refines stream (r.ahead [])) (hwaits : r.Waits) :
    r.decodedAt = referenceDecode 0 stream := by
  have hnone : (r.ahead []).remaining = [] := by
    unfold Waits at hwaits
    cases hpc : r.host.pc with
    | waitForData | receivePair =>
      rw [hpc] at hwaits
      simpa [remaining, ahead, hpc] using referenceDecode_of_length_lt hwaits
    | receiveSkip =>
      rw [hpc] at hwaits
      simp [remaining, ahead, hpc, show r.replies.unread = [] from hwaits]
    | firstSend | checkPair | handlePair => simp [hpc] at hwaits
  have htotal := hr.total
  rwa [hnone, List.append_nil] at htotal

end Receiver

namespace Link

/-- Host before its first `com.send`, device idle, `pending` on the way to the device and
`noise` on the way to the host. -/
def noisyStart (pending noise : List UInt8) : Link :=
  ⟨⟨Host.initial, ⟨[], [], noise⟩, []⟩, Device.idle, ⟨[], [], pending⟩, []⟩

/-- The host waits for bytes that are not on the line, and nothing asks the device for more. -/
def Starved (s : Link) : Prop :=
  s.receiver.Waits ∧ s.device.pc = .waitRequest ∧ s.requests.unread = []

instance (s : Link) : Decidable (Starved s) := inferInstanceAs (Decidable (_ ∧ _ ∧ _))

/-- The step does not cut a read short. -/
def ReadsWhole (s : Link) : Action → Prop
  | .host n => s.receiver.ReadsWhole n
  | _ => True

instance (s : Link) : ∀ a, Decidable (ReadsWhole s a)
  | .host _ => inferInstanceAs (Decidable (_ ∨ _))
  | .device _ | .deliverRequest | .deliverReply => isTrue trivial

/-- Frames follow the noise, the host refines the reference decoder, and while nothing asks
the device for more, the answer that makes the host ask is still to be decoded. -/
structure Noisy (noise : List UInt8) (s : Link) : Prop where
  receiver : s.receiver.Sound
  history : s.receiver.replies.history = noise ++ frameBytes s.sent
  slider : ∀ j f, s.sent[j]? = some f → f.slider = j % 6
  place : s.sent.length % 6 = s.device.frameIndex
  refines : ∀ more, Receiver.Refines (s.receiver.replies.history ++ more) (s.receiver.ahead more)
  owed : s.device.pc = .waitRequest → s.requests.unread = [] →
    s.receiver.host.pc = .firstSend ∨ s.sent ≠ [] ∧
      ∀ e ∈ s.receiver.decodedAt, e.1 + 2 ≠ noise.length + 2 * s.sent.length

theorem noisy_start (pending noise : List UInt8) : Noisy noise (noisyStart pending noise) where
  receiver := by constructor <;> simp [noisyStart, Host.initial, Receiver.decodedAt]
  history := by simp [noisyStart, Line.history]
  slider := by simp [noisyStart]
  place := rfl
  refines := fun more => Receiver.refines_start (noise ++ more)
  owed := fun _ _ => .inl rfl

/-! ## Steps of the host -/

theorem Noisy.slider_eq_five {noise : List UInt8} {s : Link} (hs : Noisy noise s)
    (hdev : s.device.pc = .waitRequest) (hpc : s.receiver.host.pc = .handlePair)
    (hlast : s.receiver.replies.taken.length = noise.length + 2 * s.sent.length)
    (hne : s.sent ≠ []) : s.receiver.host.slider = 5 := by
  obtain ⟨b0, b1, hbuf, hacc⟩ := hs.receiver.accepted hpc
  have hsuffix := hs.receiver.buffer_suffix (.inr hpc)
  rw [hbuf] at hsuffix
  obtain ⟨_, b1', h0, -, -, heq⟩ := Receiver.decodedFrom_suffix hsuffix hacc
  have hplace := hs.place
  have hpos := List.length_pos_iff.mpr hne
  rw [show s.device.frameIndex = 0 by simp [Device.frameIndex, hdev]] at hplace
  have hat : s.receiver.replies.taken.length - 2 = noise.length + 2 * (s.sent.length - 1) := by
    omega
  replace h0 := s.receiver.replies.getElem?_history_of_taken h0
  rw [hs.history, hat, List.getElem?_append_right (Nat.le_add_right _ _),
    Nat.add_sub_cancel_left, frameBytes_even, Option.map_eq_some_iff] at h0
  obtain ⟨f, hf, rfl⟩ := h0
  have hfive := hs.slider _ f hf
  have hslider : sliderOf b0 = f.slider := (Prod.ext_iff.mp heq).1.trans f.sliderOf_byte0
  simp only [Host.slider, hbuf, List.getD_cons_zero]
  omega

theorem noisy_of_host_move {noise : List UInt8} {s : Link} (hs : Noisy noise s) {r : Receiver}
    {n : ℕ} {events : List HostEvent} (m : Receiver.Move s.receiver n events r)
    (hcond : s.receiver.ReadsWhole n) :
    Noisy noise { s with
      receiver := r, requests := s.requests.write (events.flatMap HostEvent.written) } := by
  have hline : r.replies.history = s.receiver.replies.history := by simp [m.replies_eq]
  have hsize := (hs.refines []).tempBuf
  refine ⟨Receiver.sound_of_move hs.receiver m, hline.trans hs.history, hs.slider, hs.place, ?_, ?_⟩
  · intro more
    dsimp only
    rw [hline]
    exact Receiver.refines_of_move (hs.refines more) hcond (m.ahead more)
  · intro hdev hnone
    dsimp only at hdev hnone ⊢
    rw [Line.unread_write, List.append_eq_nil_iff] at hnone
    have howed := hs.owed hdev hnone.1
    have hquiet := hnone.2
    cases m with
    | firstSend hpc =>
      have htemp : s.receiver.host.tempBuf = [] := by
        simpa [HostEvent.written] using hquiet
      rw [show (s.receiver.ahead []).host.tempBuf = [] from htemp] at hsize
      exact absurd hsize (by decide)
    | waitForData hpc | emptyRead hpc | shortRead hpc | rejectPair _ _ hpc | acceptPair _ _ hpc
    | receivePair hpc | receiveSkip hpc =>
      right
      simpa [hpc, List.filterMap_cons, HostEvent.decoded] using howed
    | handlePair hpc =>
      have howed : s.sent ≠ [] ∧
          ∀ e ∈ s.receiver.decodedAt, e.1 + 2 ≠ noise.length + 2 * s.sent.length := by
        simpa [hpc] using howed
      right
      refine ⟨howed.1, ?_⟩
      intro e he
      rw [Receiver.decodedAt_emit, Receiver.handleEvents_decoded, List.mem_append] at he
      rcases he with he | he
      · exact howed.2 e he
      · intro hlast
        obtain rfl : e = _ := List.mem_singleton.mp he
        obtain ⟨b0, b1, hbuf, -⟩ := hs.receiver.accepted hpc
        have htwo := (hs.receiver.buffer_suffix (.inr hpc)).length_le
        rw [hbuf] at htwo
        simp only [List.length_cons, List.length_nil] at htwo hlast
        have hfive := hs.slider_eq_five hdev hpc (by omega) howed.1
        rw [Receiver.handleEvents_written, if_pos hfive] at hquiet
        rw [show (s.receiver.ahead []).host.tempBuf = [] from hquiet] at hsize
        exact absurd hsize (by decide)

/-! ## Steps of the device and of the lines -/

theorem Noisy.of_device {noise : List UInt8} {s : Link} (hs : Noisy noise s) {d : Device}
    {l : Line UInt8} (hidx : d.frameIndex = s.device.frameIndex)
    (howed : d.pc = .waitRequest → l.unread = [] →
      s.device.pc = .waitRequest ∧ s.requests.unread = []) :
    Noisy noise { s with device := d, requests := l } :=
  ⟨hs.receiver, hs.history, hs.slider, hs.place.trans hidx.symm, hs.refines,
    fun hdev hnone => hs.owed (howed hdev hnone).1 (howed hdev hnone).2⟩

theorem noisy_frame {noise : List UInt8} {s : Link} (hs : Noisy noise s)
    (analogRead : AnalogPin → Fin 1024) {i : Fin 6} (hpc : s.device.pc = .writeFrame i) :
    Noisy noise { receiver := { s.receiver with
                    replies := s.receiver.replies.write (sliderFrame analogRead i).bytes }
                  device := { s.device with pc := Device.afterFrame i }
                  requests := s.requests
                  sent := s.sent ++ [sliderFrame analogRead i] } := by
  have hidx : s.device.frameIndex = i.val := by simp [Device.frameIndex, hpc]
  have hplace := hs.place
  have hafter := afterFrame_spec s.device i
  rw [hidx] at hplace
  refine ⟨receiver_sound_with_line hs.receiver rfl, ?_, ?_, ?_, ?_, ?_⟩
  · simp [hs.history, frameBytes]
  · intro j f hf
    dsimp only at hf
    rcases Nat.lt_or_ge j s.sent.length with hlt | hge
    · rw [List.getElem?_append_left hlt] at hf
      exact hs.slider j f hf
    · rw [List.getElem?_append_right hge, List.getElem?_singleton] at hf
      split_ifs at hf with hj
      obtain rfl := Option.some.inj hf
      change i.val = j % 6
      omega
  · simp only [List.length_append, List.length_singleton]
    omega
  · intro more
    dsimp only
    rw [Line.history_write, List.append_assoc, Receiver.ahead_write]
    exact hs.refines _
  · intro _ _
    right
    refine ⟨by simp, ?_⟩
    intro e he
    have hbehind := hs.receiver.behind e he
    have htaken := s.receiver.replies.length_taken_add_unread
    rw [hs.history, List.length_append, length_frameBytes] at htaken
    rw [List.length_append, List.length_singleton]
    omega

theorem noisy_of_move {noise : List UInt8} {s t : Link} {a : Action} (hs : Noisy noise s)
    (hcond : ReadsWhole s a) (m : Move s a t) : Noisy noise t := by
  cases m with
  | host m => exact noisy_of_host_move hs m hcond
  | spin => exact hs
  | wake _ hpc => exact hs.of_device (by simp [Device.frameIndex, hpc]) (by simp)
  | drain _ hpc =>
    have hpc' : s.device.countRead.pc = .drainRequests := hpc
    exact hs.of_device (by simp [Device.frameIndex, hpc, hpc']) (by simp [hpc'])
  | drained _ hpc => exact hs.of_device (by simp [Device.frameIndex, hpc]) (by simp)
  | frame analogRead i hpc => exact noisy_frame hs analogRead hpc
  | deliverRequest hl =>
    obtain ⟨-, hunread, -⟩ := Line.deliver_spec hl
    exact hs.of_device rfl fun hdev hnone => ⟨hdev, hunread ▸ hnone⟩
  | @deliverReply l hl =>
    obtain ⟨htaken, hunread, hhist⟩ := Line.deliver_spec hl
    have hahead (more : List UInt8) :
        Receiver.ahead { s.receiver with replies := l } more = s.receiver.ahead more := by
      simp only [Receiver.ahead, htaken, hunread]
    refine ⟨receiver_sound_with_line hs.receiver htaken, hhist.trans hs.history, hs.slider,
      hs.place, ?_, hs.owed⟩
    intro more
    dsimp only
    rw [hhist, hahead]
    exact hs.refines more

/-! ## The noise is overcome -/

theorem mem_framesAt_last {o : ℕ} {fs : List Frame} (hne : fs ≠ []) :
    ∃ e ∈ Receiver.framesAt o fs, e.1 + 2 = o + 2 * fs.length := by
  induction fs generalizing o with
  | nil => exact absurd rfl hne
  | cons f fs ih =>
    by_cases htail : fs = []
    · subst htail
      exact ⟨_, List.mem_singleton_self _, rfl⟩
    · obtain ⟨e, he, heq⟩ := ih (o := o + 2) htail
      refine ⟨e, List.mem_cons_of_mem _ he, ?_⟩
      rw [heq, List.length_cons]
      omega

/-- What the host decodes starts inside the noise, misses at most two frames, and has all the
others in order; a host that waits has decoded them all, and then the device is at work or
has a request. -/
theorem noise_costs_two_frames (pending noise : List UInt8) (actions : List Action) {s : Link}
    (hm : Meets step ReadsWhole (noisyStart pending noise) actions)
    (h : run step (noisyStart pending noise) actions = some s) :
    ¬ Starved s ∧ ∃ k before, k ≤ 2 ∧
      (∀ e ∈ before, e.1 + 2 ≤ noise.length) ∧
      s.receiver.decodedAt <+:
        before ++ Receiver.framesAt (noise.length + 2 * k) (s.sent.drop k) ∧
      (s.receiver.Waits → s.receiver.decodedAt =
        before ++ Receiver.framesAt (noise.length + 2 * k) (s.sent.drop k)) := by
  have hs : Noisy noise s := run_invariant_of_meets (fun _ _ _ hinv hcond hstep =>
    noisy_of_move hinv hcond (move_of_step hstep)) (noisy_start pending noise) hm h
  obtain ⟨k, before, hk, heq, hin⟩ := Receiver.referenceDecode_noise noise 0 s.sent
  have hrefines := hs.refines []
  rw [List.append_nil, hs.history] at hrefines
  have hall (hwaits : s.receiver.Waits) := (hrefines.decodedAt_of_waits hwaits).trans heq
  have htotal := hrefines.total.trans heq
  rw [Nat.zero_add] at hall htotal
  refine ⟨?_, k, before, hk, by simpa using hin, ⟨_, htotal⟩, hall⟩
  rintro ⟨hwaits, hdev, hnone⟩
  rcases hs.owed hdev hnone with hpc | ⟨hne, howed⟩
  · simp [Receiver.Waits, hpc] at hwaits
  · have hplace := hs.place
    have hpos := List.length_pos_iff.mpr hne
    rw [show s.device.frameIndex = 0 by simp [Device.frameIndex, hdev]] at hplace
    have hrest : s.sent.drop k ≠ [] := by
      apply List.ne_nil_of_length_pos
      rw [List.length_drop]
      omega
    obtain ⟨e, he, hlast⟩ := mem_framesAt_last (o := noise.length + 2 * k) hrest
    apply howed e
    · rw [hall hwaits]
      exact List.mem_append_right _ he
    · rw [hlast, List.length_drop]
      omega

def noisyRound : List Action :=
  [Action.host 0, Action.deliverRequest] ++ List.replicate 9 (Action.device lowest) ++
    List.replicate 13 Action.deliverReply ++
    [.host 0, .host 2, .host 0, .host 1, .host 2, .host 0, .host 0]

theorem noise_costs_two_frames_noisyRound :
    ∃ s, run step (noisyStart [] [200]) noisyRound = some s ∧ ¬ Starved s ∧
      s.receiver.decodedAt = [(3, 1, 1023)] := by
  have hrun : (run step (noisyStart [] [200]) noisyRound).any (fun s =>
      decide (s.receiver.decodedAt = [(3, 1, 1023)])) = true := by decide +kernel
  simp only [Option.any_eq_true, decide_eq_true_eq] at hrun
  obtain ⟨s, hs, hdecoded⟩ := hrun
  exact ⟨s, hs, (noise_costs_two_frames [] [200] noisyRound (by decide +kernel) hs).1, hdecoded⟩

end Link
end AudioCtrl.Serial
