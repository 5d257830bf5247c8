import AudioCtrl.Serial.ReceiveLoop

/-!
# Device, host and the two lines between them

The device's `loop()` waits for a request, throws away whatever is in its input
queue and answers with six frames. A step of the whole link is a step of the
host, a step of the device or the delivery of one byte in either direction, in
any order. What the analog pins read is chosen anew at every step.
-/

namespace AudioCtrl.Serial

open PartialRun

/-! ## The device -/

inductive AnalogPin where
  | A0 | A1 | A2 | A3 | A6 | A7
  deriving DecidableEq, Repr

def sliders : Vector AnalogPin 6 := #v[.A0, .A1, .A2, .A3, .A6, .A7]

def getSliderValue (analogRead : AnalogPin → Fin 1024) (index : Fin 6) : ℕ :=
  1023 - (analogRead sliders[index]).val

theorem getSliderValue_lt (analogRead : AnalogPin → Fin 1024) (index : Fin 6) :
    getSliderValue analogRead index < 1024 := by
  unfold getSliderValue
  omega

def sliderFrame (analogRead : AnalogPin → Fin 1024) (i : Fin 6) : Frame :=
  ⟨i, getSliderValue analogRead i, i.isLt, getSliderValue_lt analogRead i⟩

/-- The place in `loop()` that is executed next. -/
inductive DevicePc where
  /-- `while (!Serial.available());` -/
  | waitRequest
  /-- `while (Serial.available()) Serial.read();` -/
  | drainRequests
  | writeFrame (i : Fin 6)
  deriving DecidableEq, Repr

/-- The device. `drains` has an entry for each round so far, the newest first:
the number of request bytes its drain loop has read. -/
structure Device where
  pc : DevicePc
  drains : List ℕ
  deriving DecidableEq, Repr

namespace Device

def idle : Device := ⟨.waitRequest, []⟩

def countRead (d : Device) : Device :=
  { d with drains := d.drains.modifyHead (· + 1) }

/-- The loop over the sliders, after the frame of slider `i`. -/
def afterFrame (i : Fin 6) : DevicePc :=
  if h : i.val + 1 < 6 then .writeFrame ⟨i.val + 1, h⟩ else .waitRequest

/-- One step of `loop()`: the device, its input queue and the frames written. -/
def step (d : Device) (requests : Line UInt8) (analogRead : AnalogPin → Fin 1024) :
    Device × Line UInt8 × List Frame :=
  match d.pc with
  | .waitRequest =>
    if requests.arrived.length = 0 then (d, requests, [])
    else (⟨.drainRequests, 0 :: d.drains⟩, requests, [])
  | .drainRequests =>
    if requests.arrived.length = 0 then ({ d with pc := .writeFrame 0 }, requests, [])
    else (d.countRead, requests.take 1, [])
  | .writeFrame i => ({ d with pc := afterFrame i }, requests, [sliderFrame analogRead i])

end Device

/-! ## The link -/

/-- Both programs, both lines and the frames the device has sent. -/
structure Link where
  receiver : Receiver
  device : Device
  requests : Line UInt8
  sent : List Frame
  deriving DecidableEq, Repr

namespace Link

inductive Action where
  /-- One step of the host, in which `ReadFile` returns `count` bytes. -/
  | host (count : ℕ)
  | device (analogRead : AnalogPin → Fin 1024)
  | deliverRequest
  | deliverReply

/-- Host before its first `com.send`, device idle, `pending` on the way to it. -/
def start (pending : List UInt8) : Link :=
  ⟨Receiver.start [], Device.idle, ⟨[], [], pending⟩, []⟩

def deviceStep (s : Link) (analogRead : AnalogPin → Fin 1024) : Link :=
  let out := s.device.step s.requests analogRead
  { receiver := { s.receiver with replies := s.receiver.replies.write (frameBytes out.2.2) }
    device := out.1
    requests := out.2.1
    sent := s.sent ++ out.2.2 }

def step (s : Link) : Action → Option Link
  | .host count => (s.receiver.step count).map fun r =>
      { s with
        receiver := r
        requests := s.requests.write ((s.receiver.outputs count).flatMap HostEvent.written) }
  | .device analogRead => some (s.deviceStep analogRead)
  | .deliverRequest => s.requests.deliver.map fun l => { s with requests := l }
  | .deliverReply => s.receiver.replies.deliver.map fun l =>
      { s with receiver := { s.receiver with replies := l } }

/-! ## One step -/

inductive Move (s : Link) : Action → Link → Prop
  | host {n : ℕ} {events : List HostEvent} {r : Receiver}
      (m : Receiver.Move s.receiver n events r) :
      Move s (.host n)
        { s with receiver := r, requests := s.requests.write (events.flatMap HostEvent.written) }
  | spin (analogRead : AnalogPin → Fin 1024) (hpc : s.device.pc = .waitRequest)
      (hempty : s.requests.arrived = []) : Move s (.device analogRead) s
  | wake (analogRead : AnalogPin → Fin 1024) (hpc : s.device.pc = .waitRequest)
      (hsome : s.requests.arrived ≠ []) :
      Move s (.device analogRead)
        { s with device := ⟨.drainRequests, 0 :: s.device.drains⟩ }
  | drain (analogRead : AnalogPin → Fin 1024) (hpc : s.device.pc = .drainRequests)
      (hsome : s.requests.arrived ≠ []) :
      Move s (.device analogRead)
        { s with device := s.device.countRead, requests := s.requests.take 1 }
  | drained (analogRead : AnalogPin → Fin 1024) (hpc : s.device.pc = .drainRequests)
      (hempty : s.requests.arrived = []) :
      Move s (.device analogRead) { s with device := { s.device with pc := .writeFrame 0 } }
  | frame (analogRead : AnalogPin → Fin 1024) (i : Fin 6) (hpc : s.device.pc = .writeFrame i) :
      Move s (.device analogRead)
        { receiver := { s.receiver with
            replies := s.receiver.replies.write (sliderFrame analogRead i).bytes }
          device := { s.device with pc := Device.afterFrame i }
          requests := s.requests
          sent := s.sent ++ [sliderFrame analogRead i] }
  | deliverRequest {l : Line UInt8} (hl : s.requests.deliver = some l) :
      Move s .deliverRequest { s with requests := l }
  | deliverReply {l : Line UInt8} (hl : s.receiver.replies.deliver = some l) :
      Move s .deliverReply { s with receiver := { s.receiver with replies := l } }

theorem move_of_deviceStep (s : Link) (analogRead : AnalogPin → Fin 1024) :
    Move s (.device analogRead) (s.deviceStep analogRead) := by
  unfold deviceStep
  cases hpc : s.device.pc with
  | waitRequest =>
    by_cases hempty : s.requests.arrived = []
    · simpa [Device.step, hpc, hempty] using Move.spin analogRead hpc hempty
    · simpa [Device.step, hpc, hempty] using Move.wake analogRead hpc hempty
  | drainRequests =>
    by_cases hempty : s.requests.arrived = []
    · simpa [Device.step, hpc, hempty] using Move.drained analogRead hpc hempty
    · simpa [Device.step, hpc, hempty] using Move.drain analogRead hpc hempty
  | writeFrame i =>
    simpa [Device.step, hpc, frameBytes] using Move.frame analogRead i hpc

theorem move_of_step {s t : Link} {a : Action} (h : s.step a = some t) : Move s a t := by
  cases a with
  | host n =>
    obtain ⟨r, hr, rfl⟩ := Option.map_eq_some_iff.mp h
    exact .host (Receiver.move_of_step hr)
  | device analogRead =>
    cases h
    exact move_of_deviceStep s analogRead
  | deliverRequest =>
    obtain ⟨l, hl, rfl⟩ := Option.map_eq_some_iff.mp h
    exact .deliverRequest hl
  | deliverReply =>
    obtain ⟨l, hl, rfl⟩ := Option.map_eq_some_iff.mp h
    exact .deliverReply hl

/-! ## What the host decodes was sent -/

/-- The replies on the line are the frames sent, and the host reads them soundly. -/
structure Sound (s : Link) : Prop where
  receiver : s.receiver.Sound
  history : s.receiver.replies.history = frameBytes s.sent

theorem sound_start (pending : List UInt8) : Sound (start pending) :=
  ⟨Receiver.sound_start [], rfl⟩

theorem receiver_sound_with_line {r : Receiver} (hr : r.Sound) {l : Line UInt8}
    (htaken : l.taken = r.replies.taken) : Receiver.Sound { r with replies := l } where
  buffer_suffix := fun hpc => htaken ▸ hr.buffer_suffix hpc
  accepted := hr.accepted
  entries := fun e he => htaken ▸ hr.entries e he
  ordered := hr.ordered
  behind := fun e he => htaken ▸ hr.behind e he

theorem sound_of_move {s t : Link} {a : Action} (hs : Sound s) (m : Move s a t) : Sound t := by
  cases m with
  | host m =>
    exact ⟨Receiver.sound_of_move hs.receiver m, by
      rw [← hs.history]
      simp [m.replies_eq]⟩
  | spin | wake | drain | drained | deliverRequest => exact ⟨hs.receiver, hs.history⟩
  | frame analogRead i hpc =>
    exact ⟨receiver_sound_with_line hs.receiver rfl, by simp [hs.history, frameBytes]⟩
  | deliverReply hl =>
    obtain ⟨htaken, -, hhist⟩ := Line.deliver_spec hl
    exact ⟨receiver_sound_with_line hs.receiver htaken, hhist.trans hs.history⟩

theorem sound_of_run {pending : List UInt8} {actions : List Action} {s : Link}
    (h : run step (start pending) actions = some s) : Sound s :=
  run_invariant (fun _ _ _ hinv hstep => sound_of_move hinv (move_of_step hstep))
    (sound_start pending) h

/-- Every decoded pair is a frame sent, found where that frame lies on the line. -/
theorem Sound.exists_frame {s : Link} (hs : Sound s) {e : ℕ × ℕ × ℕ}
    (he : e ∈ s.receiver.decodedAt) : ∃ j f, e = (2 * j, f.pair) ∧ s.sent[j]? = some f := by
  obtain ⟨o, d⟩ := e
  obtain ⟨b0, b1, h0, h1, hacc, hd⟩ := hs.receiver.entries _ he
  have h0' := s.receiver.replies.getElem?_history_of_taken h0
  have h1' := s.receiver.replies.getElem?_history_of_taken h1
  rw [hs.history] at h0' h1'
  obtain ⟨j, f, hj, hf, rfl, rfl⟩ := exists_frame_of_accepted h0' h1' hacc
  refine ⟨j, f, ?_, hf⟩
  dsimp only at hj hd
  rw [hj, hd, f.sliderOf_byte0, f.valueOf_bytes]
  rfl

theorem sublist_of_places {fs : List Frame} {es : List (ℕ × ℕ × ℕ)}
    (hord : es.Pairwise fun e e' => e.1 + 2 ≤ e'.1)
    (hmem : ∀ e ∈ es, ∃ j f, e = (2 * j, f.pair) ∧ fs[j]? = some f) (m : ℕ)
    (hge : ∀ e ∈ es, 2 * m ≤ e.1) :
    (es.map Prod.snd).Sublist ((fs.drop m).map Frame.pair) := by
  induction es generalizing m with
  | nil => exact List.nil_sublist _
  | cons e es ih =>
    obtain ⟨j, f, rfl, hf⟩ := hmem e List.mem_cons_self
    have hmj : m ≤ j := by
      have := hge _ List.mem_cons_self
      dsimp only at this
      omega
    have htail := ih hord.of_cons (fun e he => hmem e (List.mem_cons_of_mem _ he)) (j + 1)
      (fun e he => by
        have := List.rel_of_pairwise_cons hord he
        dsimp only at this
        omega)
    have hdrop : fs.drop j = f :: fs.drop (j + 1) := by
      obtain ⟨hlt, rfl⟩ := List.getElem?_eq_some_iff.mp hf
      exact List.drop_eq_getElem_cons hlt
    have hsub : (f :: fs.drop (j + 1)).Sublist (fs.drop m) := by
      rw [← hdrop, ← Nat.sub_add_cancel hmj, Nat.add_comm, ← List.drop_drop]
      exact List.drop_sublist _ _
    exact (htail.cons_cons f.pair).trans (hsub.map Frame.pair)

/-- However the reads are split and the steps interleaved, the decoded pairs are
a subsequence of the pairs sent, each decoded from the two bytes of its frame. -/
theorem decoded_sublist_sent (pending : List UInt8) (actions : List Action) {s : Link}
    (h : run step (start pending) actions = some s) :
    s.receiver.decoded.Sublist (s.sent.map Frame.pair) ∧
      (∀ e ∈ s.receiver.decodedAt, ∃ j f, e = (2 * j, f.pair) ∧ s.sent[j]? = some f) ∧
      s.receiver.decodedAt.Pairwise fun e e' => e.1 < e'.1 := by
  have hs := sound_of_run h
  have hmem : ∀ e ∈ s.receiver.decodedAt, ∃ j f, e = (2 * j, f.pair) ∧ s.sent[j]? = some f :=
    fun e he => hs.exists_frame he
  refine ⟨?_, hmem, hs.receiver.ordered.imp fun hle => by omega⟩
  simpa [Receiver.decoded] using
    sublist_of_places hs.receiver.ordered hmem 0 fun e _ => Nat.zero_le _

def lowest : AnalogPin → Fin 1024 := fun _ => 0

/-- One request, and the frame of slider 0 sent, delivered and read in one piece. -/
def firstFrame : List Action :=
  [.host 0, .deliverRequest, .device fun _ => 0, .device fun _ => 0, .device fun _ => 0,
    .device fun _ => 23, .deliverReply, .deliverReply, .host 0, .host 2, .host 0, .host 0]

theorem decoded_sublist_sent_firstFrame :
    ∃ s, run step (start []) firstFrame = some s ∧
      s.receiver.decoded.Sublist (s.sent.map Frame.pair) ∧ s.receiver.decoded = [(0, 1000)] :=
  ⟨_, rfl, (decoded_sublist_sent [] firstFrame rfl).1, by decide⟩

end Link
end AudioCtrl.Serial
