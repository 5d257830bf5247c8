import AudioCtrl.Serial.Host

/-!
# What the receive loop does with any stream

`Receiver.Move` lists what one step of `main()` can do, and every invariant is
read off this list. `Sound` is the invariant that holds on every byte stream
and for every split into reads: whatever has been decoded stands in the stream
as two adjacent bytes with the right top bits, each at a place of its own.
-/

namespace AudioCtrl.Serial
namespace Receiver

open PartialRun

/-! ## One step -/

/-- `Move r n events t`: reading `n` bytes leads from `r` to `t` and does `events`. -/
inductive Move (r : Receiver) : ℕ → List HostEvent → Receiver → Prop
  | firstSend (hpc : r.host.pc = .firstSend) :
      Move r 0 [.writeFile r.host.tempBuf]
        (r.emit { r.host with pc := .waitForData } [.writeFile r.host.tempBuf])
  | waitForData (hpc : r.host.pc = .waitForData) :
      Move r 0 [.waitCommEvent] (r.emit { r.host with pc := .receivePair } [.waitCommEvent])
  | receivePair {n : ℕ} (hpc : r.host.pc = .receivePair) (hn : n ≤ 2)
      (harr : n ≤ r.replies.arrived.length) :
      Move r n [.readPair 2 (r.replies.arrived.take n)]
        (emit { r with replies := r.replies.take n }
          { r.host with pc := .checkPair, buffer := r.replies.arrived.take n }
          [.readPair 2 (r.replies.arrived.take n)])
  | emptyRead (hpc : r.host.pc = .checkPair) (hbuf : r.host.buffer = []) :
      Move r 0 [] (r.emit { r.host with pc := .waitForData } [])
  | shortRead (hpc : r.host.pc = .checkPair) (hbuf : r.host.buffer ≠ [])
      (hlen : r.host.buffer.length ≠ 2) :
      Move r 0 [] (r.emit { r.host with pc := .receivePair } [])
  | rejectPair (b0 b1 : UInt8) (hpc : r.host.pc = .checkPair) (hbuf : r.host.buffer = [b0, b1])
      (hrej : rejects b0 b1 = true) :
      Move r 0 [] (r.emit { r.host with pc := .receiveSkip } [])
  | acceptPair (b0 b1 : UInt8) (hpc : r.host.pc = .checkPair) (hbuf : r.host.buffer = [b0, b1])
      (hacc : rejects b0 b1 = false) :
      Move r 0 [] (r.emit { r.host with pc := .handlePair } [])
  | receiveSkip {n : ℕ} (hpc : r.host.pc = .receiveSkip) (hn : n ≤ r.host.tempBuf.length)
      (harr : n ≤ r.replies.arrived.length) :
      Move r n [.readSkip r.host.tempBuf.length (r.replies.arrived.take n)]
        (emit { r with replies := r.replies.take n }
          { r.host with pc := .receivePair, tempBuf := r.replies.arrived.take n }
          [.readSkip r.host.tempBuf.length (r.replies.arrived.take n)])
  | handlePair (hpc : r.host.pc = .handlePair) :
      Move r 0 r.host.handleEvents
        (r.emit { r.host with pc := .receivePair } r.host.handleEvents)

theorem move_of_check {r t : Receiver} (hpc : r.host.pc = .checkPair) (h : r.step 0 = some t) :
    Move r 0 (r.outputs 0) t := by
  obtain ⟨⟨pc, buffer, tempBuf⟩, replies, trace⟩ := r
  change pc = .checkPair at hpc
  subst hpc
  simp only [step, outputs, Nat.zero_le, and_self, if_true, Option.some.injEq, Line.take_zero,
    Host.step] at h ⊢
  subst h
  match buffer with
  | [] => exact .emptyRead rfl rfl
  | [b0] => exact .shortRead rfl (by simp) (by simp)
  | [b0, b1] =>
    cases hrej : rejects b0 b1
    · simpa [hrej] using Move.acceptPair (r := ⟨⟨.checkPair, [b0, b1], tempBuf⟩, replies, trace⟩)
        b0 b1 rfl rfl hrej
    · simpa [hrej] using Move.rejectPair (r := ⟨⟨.checkPair, [b0, b1], tempBuf⟩, replies, trace⟩)
        b0 b1 rfl rfl hrej
  | b0 :: b1 :: b2 :: bs =>
    simpa using Move.shortRead (r := ⟨⟨.checkPair, b0 :: b1 :: b2 :: bs, tempBuf⟩, replies, trace⟩)
      rfl (by simp) (by simp)

/-- Every step is one of the moves. -/
theorem move_of_step {r t : Receiver} {n : ℕ} (h : r.step n = some t) :
    Move r n (r.outputs n) t := by
  have hguard : n ≤ r.host.asks ∧ n ≤ r.replies.arrived.length := by
    by_contra hn
    simp [step, hn] at h
  have hasks := hguard.1
  cases hpc : r.host.pc
  case checkPair =>
    obtain rfl : n = 0 := by simpa [Host.asks, hpc] using hasks
    exact move_of_check hpc h
  case receivePair =>
    simp only [step, outputs, if_pos hguard, Option.some.injEq, Host.step, hpc, Com.receive_eq,
      Com.length_resize] at h ⊢
    subst h
    exact .receivePair hpc (by simpa [Host.asks, hpc] using hasks) hguard.2
  case receiveSkip =>
    simp only [step, outputs, if_pos hguard, Option.some.injEq, Host.step, hpc,
      Com.receive_eq] at h ⊢
    subst h
    exact .receiveSkip hpc (by simpa [Host.asks, hpc] using hasks) hguard.2
  all_goals
    obtain rfl : n = 0 := by simpa [Host.asks, hpc] using hasks
    simp only [step, outputs, if_pos hguard, Option.some.injEq, Line.take_zero, Host.step,
      hpc] at h ⊢
    subst h
  · exact .firstSend hpc
  · exact .waitForData hpc
  · exact .handlePair hpc

theorem exists_move {r t : Receiver} {n : ℕ} (h : r.step n = some t) :
    ∃ events, Move r n events t := ⟨_, move_of_step h⟩

theorem Move.replies_eq {r t : Receiver} {n : ℕ} {events : List HostEvent}
    (m : Move r n events t) : t.replies = r.replies.take n := by
  cases m with
  | receivePair | receiveSkip => rfl
  | _ => exact r.replies.take_zero.symm

@[simp] theorem emit_host (r : Receiver) (host : Host) (events : List HostEvent) :
    (r.emit host events).host = host := rfl

@[simp] theorem emit_replies (r : Receiver) (host : Host) (events : List HostEvent) :
    (r.emit host events).replies = r.replies := rfl

@[simp] theorem decodedAt_with_replies (r : Receiver) (line : Line UInt8) :
    decodedAt { r with replies := line } = r.decodedAt := rfl

@[simp] theorem decodedAt_emit (r : Receiver) (host : Host) (events : List HostEvent) :
    (r.emit host events).decodedAt = r.decodedAt ++
      (events.filterMap HostEvent.decoded).map fun d => (r.replies.taken.length - 2, d) := by
  simp only [decodedAt, emit, List.filterMap_append, List.filterMap_map, List.map_filterMap]
  rfl

@[simp] theorem handleEvents_decoded (h : Host) :
    h.handleEvents.filterMap HostEvent.decoded = [(h.slider, h.value)] := by
  unfold Host.handleEvents
  split_ifs <;> rfl

@[simp] theorem handleEvents_written (h : Host) :
    h.handleEvents.flatMap HostEvent.written = if h.slider = 5 then h.tempBuf else [] := by
  unfold Host.handleEvents
  split_ifs <;> simp [HostEvent.written]

/-! ## Decoding is sound on every stream -/

/-- The bytes the loop has read and not decided on yet. -/
def pending (r : Receiver) : ℕ :=
  match r.host.pc with
  | .checkPair | .handlePair => r.host.buffer.length
  | _ => 0

/-- The pair `e.2` is what the host decodes from the two bytes at place `e.1`. -/
def DecodedFrom (bytes : List UInt8) (e : ℕ × ℕ × ℕ) : Prop :=
  ∃ b0 b1, bytes[e.1]? = some b0 ∧ bytes[e.1 + 1]? = some b1 ∧ rejects b0 b1 = false ∧
    e.2 = (sliderOf b0, valueOf b0 b1)

theorem DecodedFrom.append {bytes : List UInt8} {e : ℕ × ℕ × ℕ} (h : DecodedFrom bytes e)
    (more : List UInt8) : DecodedFrom (bytes ++ more) e := by
  obtain ⟨b0, b1, h0, h1, hrest⟩ := h
  refine ⟨b0, b1, ?_, ?_, hrest⟩
  · rw [List.getElem?_append_left (List.getElem?_eq_some_iff.mp h0).1, h0]
  · rw [List.getElem?_append_left (List.getElem?_eq_some_iff.mp h1).1, h1]

theorem decodedFrom_suffix {bytes : List UInt8} {b0 b1 : UInt8} (h : [b0, b1] <:+ bytes)
    (hacc : rejects b0 b1 = false) :
    DecodedFrom bytes (bytes.length - 2, sliderOf b0, valueOf b0 b1) := by
  obtain ⟨pre, rfl⟩ := h
  exact ⟨b0, b1, by simp, by simp, hacc, rfl⟩

structure Sound (r : Receiver) : Prop where
  buffer_suffix : r.host.pc = .checkPair ∨ r.host.pc = .handlePair →
    r.host.buffer <:+ r.replies.taken
  accepted : r.host.pc = .handlePair → ∃ b0 b1, r.host.buffer = [b0, b1] ∧ rejects b0 b1 = false
  entries : ∀ e ∈ r.decodedAt, DecodedFrom r.replies.taken e
  ordered : r.decodedAt.Pairwise fun e e' => e.1 + 2 ≤ e'.1
  behind : ∀ e ∈ r.decodedAt, e.1 + 2 + r.pending ≤ r.replies.taken.length

theorem sound_start (stream : List UInt8) : Sound (start stream) := by
  constructor <;> simp [start, Host.initial, decodedAt]

theorem Sound.of_no_decode {r t : Receiver} (hs : Sound r) (more : List UInt8)
    (hdec : t.decodedAt = r.decodedAt) (htaken : t.replies.taken = r.replies.taken ++ more)
    (hpend : t.pending ≤ r.pending + more.length)
    (hbuf : t.host.pc = .checkPair ∨ t.host.pc = .handlePair → t.host.buffer <:+ t.replies.taken)
    (hacc : t.host.pc = .handlePair →
      ∃ b0 b1, t.host.buffer = [b0, b1] ∧ rejects b0 b1 = false) : Sound t where
  buffer_suffix := hbuf
  accepted := hacc
  entries := by
    intro e he
    rw [htaken]
    exact (hs.entries e (hdec ▸ he)).append more
  ordered := hdec ▸ hs.ordered
  behind := by
    intro e he
    have hle := hs.behind e (hdec ▸ he)
    rw [htaken, List.length_append]
    omega

theorem sound_of_move {r t : Receiver} {n : ℕ} {events : List HostEvent} (hs : Sound r)
    (m : Move r n events t) : Sound t := by
  cases m with
  | firstSend hpc =>
    apply hs.of_no_decode [] <;> simp [pending, HostEvent.decoded]
  | waitForData hpc =>
    apply hs.of_no_decode [] <;> simp [pending, HostEvent.decoded]
  | receivePair hpc hn harr =>
    apply hs.of_no_decode (r.replies.arrived.take n) <;> simp [pending, HostEvent.decoded]
  | emptyRead hpc hbuf =>
    apply hs.of_no_decode [] <;> simp [pending]
  | shortRead hpc hbuf hlen =>
    apply hs.of_no_decode [] <;> simp [pending]
  | rejectPair b0 b1 hpc hbuf hrej =>
    apply hs.of_no_decode [] <;> simp [pending]
  | acceptPair b0 b1 hpc hbuf hacc =>
    have hsuf := hs.buffer_suffix (.inl hpc)
    exact hs.of_no_decode [] (by simp) (by simp) (by simp [pending, hpc])
      (fun _ => hsuf) (fun _ => ⟨b0, b1, hbuf, hacc⟩)
  | receiveSkip hpc hn harr =>
    apply hs.of_no_decode (r.replies.arrived.take n) <;> simp [pending, HostEvent.decoded]
  | handlePair hpc =>
    obtain ⟨b0, b1, hbuf, hacc⟩ := hs.accepted hpc
    have hsuf := hs.buffer_suffix (.inr hpc)
    rw [hbuf] at hsuf
    have hpend : r.pending = 2 := by simp [pending, hpc, hbuf]
    have hnew : (r.emit { r.host with pc := .receivePair } r.host.handleEvents).decodedAt =
        r.decodedAt ++ [(r.replies.taken.length - 2, sliderOf b0, valueOf b0 b1)] := by
      simp [Host.slider, Host.value, hbuf]
    have hlen : 2 ≤ r.replies.taken.length := hsuf.length_le
    constructor
    · simp
    · simp
    · intro e he
      rw [hnew, List.mem_append, List.mem_singleton] at he
      rcases he with he | rfl
      · exact hs.entries e he
      · exact decodedFrom_suffix hsuf hacc
    · rw [hnew, List.pairwise_append]
      refine ⟨hs.ordered, List.pairwise_singleton _ _, ?_⟩
      intro e he e' he'
      have hle := hs.behind e he
      rw [List.mem_singleton] at he'
      subst he'
      dsimp only
      omega
    · intro e he
      rw [hnew, List.mem_append, List.mem_singleton] at he
      change e.1 + 2 + 0 ≤ r.replies.taken.length
      rcases he with he | rfl
      · have hle := hs.behind e he
        omega
      · dsimp only
        omega

theorem history_of_run {r t : Receiver} {counts : List ℕ} (h : run step r counts = some t) :
    t.replies.history = r.replies.history := by
  have hinv : ∀ (u : Receiver) n v, u.replies.history = r.replies.history → u.step n = some v →
      v.replies.history = r.replies.history := by
    intro u n v hu hstep
    rw [(move_of_step hstep).replies_eq, Line.history_take, hu]
  exact run_invariant hinv rfl h

@[simp] theorem history_start (stream : List UInt8) : (start stream).replies.history = stream := by
  simp [start, Line.holding, Line.history]

/-- Soundness of every run, on whatever stream and however it is split into reads. -/
theorem sound_of_run {r t : Receiver} {counts : List ℕ} (hs : Sound r)
    (h : run step r counts = some t) : Sound t :=
  run_invariant (fun _ _ _ hinv hstep => sound_of_move hinv (move_of_step hstep)) hs h

end Receiver
end AudioCtrl.Serial
