import AudioCtrl.Serial.FlowControl
import AudioCtrl.Serial.ReadSplits

/-!
# When the exchange can end

The next request is sent only when a frame of slider 5 is decoded. A read that
takes the first byte of that frame without the second loses the frame, and a
skip that gets no byte empties the request, so after either the link comes to
rest for good. Runs without such reads never come to rest.
-/

namespace AudioCtrl.Serial

open PartialRun

/-- The byte `0101 dddd` that starts a frame of slider 5. -/
def startsLastFrame (b : UInt8) : Bool := decide (b.toNat < 128) && decide (sliderOf b = 5)

/-- What one `ReadFile` returns does not hold the start of a frame of slider 5
without the byte after it. -/
def keepsLastFrame : List UInt8 → Bool
  | [b] => !startsLastFrame b
  | [_, c] => !startsLastFrame c
  | _ => true

theorem Frame.startsLastFrame_byte0 {f : Frame} (h : f.slider = 5) :
    startsLastFrame f.byte0 = true := by
  simp [startsLastFrame, f.byte0_lt, h]

namespace Link

/-- The host blocks in `waitForData`, the device spins, and nothing is on the lines. -/
def Deadlocked (s : Link) : Prop :=
  s.receiver.host.pc = .waitForData ∧ s.receiver.replies.unread = [] ∧
    s.device.pc = .waitRequest ∧ s.requests.unread = []

instance (s : Link) : Decidable (Deadlocked s) :=
  inferInstanceAs (Decidable (_ ∧ _ ∧ _ ∧ _))

/-- The step does not cut a frame of slider 5 in two and does not skip without
getting a byte. -/
def ReadsLastFrame (s : Link) : Action → Prop
  | .host n => keepsLastFrame (s.receiver.replies.arrived.take n) = true ∧
      Receiver.SkipGetsByte s.receiver n
  | _ => True

instance (s : Link) : ∀ a, Decidable (ReadsLastFrame s a)
  | .host _ => inferInstanceAs (Decidable (_ ∧ (_ → _)))
  | .device _ | .deliverRequest | .deliverReply => isTrue trivial

/-- Something is outstanding: a request, a round, the token or an unread frame 5. -/
structure Live (s : Link) : Prop where
  flow : s.Flow
  size : s.receiver.host.tempBuf.length = 1
  outstanding : s.device.pc = .waitRequest → s.requests.unread.length = 0 →
    s.receiver.host.holdsToken = false → 2 ≤ s.receiver.replies.unread.length

theorem live_start : Live (start []) :=
  ⟨flow_start, rfl, by simp [start, Receiver.start, Host.initial, Host.holdsToken]⟩

theorem Live.not_deadlocked {s : Link} (hs : Live s) : ¬ Deadlocked s := by
  rintro ⟨hpc, hreplies, hdev, hreq⟩
  have hle := hs.outstanding hdev (by rw [hreq]; rfl) (by simp [Host.holdsToken, hpc])
  rw [hreplies] at hle
  exact absurd hle (by decide)

theorem Flow.last_frame {s : Link} (hs : Flow s) (hdev : s.device.pc = .waitRequest)
    (hle : 2 ≤ s.receiver.replies.unread.length) :
    ∃ f : Frame, f.slider = 5 ∧ ∃ pre, s.receiver.replies.unread = pre ++ [f.byte0, f.byte1] := by
  have hlen := hs.sound.length_sent
  have hplace := hs.place
  rw [show s.device.frameIndex = 0 by simp [Device.frameIndex, hdev]] at hplace
  have hne : s.sent ≠ [] := by
    intro hnil
    rw [hnil, List.length_nil] at hlen
    omega
  obtain ⟨fs, f, hsent⟩ : ∃ fs f, s.sent = fs ++ [f] :=
    ⟨_, _, (List.dropLast_append_getLast hne).symm⟩
  have hslider : f.slider = 5 := by
    have hf := hs.slider fs.length f (by simp [hsent])
    rw [hsent, List.length_append, List.length_singleton] at hplace
    omega
  have hhist := hs.sound.history
  rw [Line.history_eq, hsent, frameBytes_append] at hhist
  obtain ⟨pre, hpre⟩ : [f.byte0, f.byte1] <:+ s.receiver.replies.unread :=
    List.suffix_of_suffix_length_le ⟨frameBytes fs, rfl⟩ ⟨_, hhist⟩ hle
  exact ⟨f, hslider, pre, hpre.symm⟩

theorem Flow.read_last_frame {s : Link} (hs : Flow s) (hdev : s.device.pc = .waitRequest)
    (hle : 2 ≤ s.receiver.replies.unread.length) {n : ℕ} (hn : n ≤ 2)
    (harr : n ≤ s.receiver.replies.arrived.length)
    (hkeep : keepsLastFrame (s.receiver.replies.arrived.take n) = true) :
    2 ≤ s.receiver.replies.unread.length - n ∨
      ∃ f : Frame, f.slider = 5 ∧ s.receiver.replies.arrived.take n = [f.byte0, f.byte1] := by
  obtain ⟨f, hslider, pre, hunread⟩ := hs.last_frame hdev hle
  have hstart := f.startsLastFrame_byte0 hslider
  have htake : s.receiver.replies.arrived.take n = s.receiver.replies.unread.take n := by
    rw [Line.unread, List.take_append_of_le_length harr]
  rw [htake, hunread] at hkeep ⊢
  have hcases : n = 0 ∨ n = 1 ∨ n = 2 := by omega
  rcases hcases with rfl | rfl | rfl
  · exact .inl (by simp)
  · cases pre with
    | nil => simp [keepsLastFrame, hstart] at hkeep
    | cons x pre => exact .inl (by simp)
  · rcases pre with _ | ⟨x, _ | ⟨y, pre⟩⟩
    · exact .inr ⟨f, hslider, rfl⟩
    · simp [keepsLastFrame, hstart] at hkeep
    · exact .inl (by simp)

theorem Live.of_host {s : Link} (hs : Live s) {r : Receiver} {bytes : List UInt8}
    (hflow : Flow { s with receiver := r, requests := s.requests.write bytes })
    (htemp : r.host.tempBuf = s.receiver.host.tempBuf)
    (hreplies : r.replies = s.receiver.replies)
    (htoken : s.receiver.host.holdsToken = true → r.host.holdsToken = true ∨ bytes ≠ []) :
    Live { s with receiver := r, requests := s.requests.write bytes } := by
  refine ⟨hflow, htemp ▸ hs.size, ?_⟩
  intro hdev hreq htok
  simp only [Line.unread_write, List.length_append, Nat.add_eq_zero_iff,
    List.length_eq_zero_iff] at hreq
  have hnone : s.receiver.host.holdsToken = false := by
    by_contra h
    rw [Bool.not_eq_false] at h
    rcases htoken h with h | h
    · exact absurd (h.symm.trans htok) (by decide)
    · exact h hreq.2
  have hle := hs.outstanding hdev (by rw [hreq.1]; rfl) hnone
  dsimp only
  rwa [hreplies]

theorem live_of_host_move {s : Link} (hs : Live s) {r : Receiver} {n : ℕ}
    {events : List HostEvent} (m : Receiver.Move s.receiver n events r)
    (hcond : ReadsLastFrame s (.host n)) :
    Live { s with
      receiver := r, requests := s.requests.write (events.flatMap HostEvent.written) } := by
  have hflow := flow_of_host_move hs.flow m
  have hsize := hs.size
  obtain ⟨hkeep, hskip⟩ := hcond
  cases m with
  | firstSend hpc =>
    refine hs.of_host hflow rfl rfl fun _ => .inr ?_
    exact List.ne_nil_of_length_pos (by simp [HostEvent.written, hsize])
  | waitForData hpc | emptyRead hpc hbuf =>
    exact hs.of_host hflow rfl rfl fun h => by simp_all [Host.holdsToken]
  | shortRead hpc hbuf hlen =>
    refine hs.of_host hflow rfl rfl ?_
    intro h
    obtain ⟨b0, b1, hb, -⟩ := (Host.holdsToken_checkPair_iff hpc).mp h
    simp [hb] at hlen
  | rejectPair b0 b1 hpc hbuf hrej =>
    exact hs.of_host hflow rfl rfl fun h => by simp_all [Host.holdsToken]
  | acceptPair b0 b1 hpc hbuf hacc =>
    refine hs.of_host hflow rfl rfl fun h => .inl ?_
    simpa [Host.holdsToken, hpc, hbuf, hacc, Host.slider] using h
  | handlePair hpc =>
    refine hs.of_host hflow rfl rfl fun h => .inr ?_
    have hfive : s.receiver.host.slider = 5 := by simpa [Host.holdsToken, hpc] using h
    rw [Receiver.handleEvents_written, if_pos hfive]
    exact List.ne_nil_of_length_pos (by omega)
  | receivePair hpc hn harr =>
    refine ⟨hflow, hsize, ?_⟩
    intro hdev hreq htok
    have hreq' : s.requests.unread.length = 0 := by simpa [HostEvent.written] using hreq
    have hle := hs.outstanding hdev hreq' (by simp [Host.holdsToken, hpc])
    rcases hs.flow.read_last_frame hdev hle hn harr hkeep with h | ⟨f, hfive, hread⟩
    · rwa [Receiver.emit_replies, Line.unread_take _ harr, List.length_drop]
    · rw [← Bool.not_eq_true] at htok
      exact absurd ((Host.holdsToken_checkPair_iff rfl).mpr
        ⟨f.byte0, f.byte1, hread, f.accepted, by rw [f.sliderOf_byte0, hfive]⟩) htok
  | receiveSkip hpc hn harr =>
    rw [hsize] at hn
    have hone : n = 1 := by
      have := hskip hpc
      omega
    subst hone
    refine ⟨hflow, by simp [harr], ?_⟩
    intro hdev hreq htok
    have hreq' : s.requests.unread.length = 0 := by simpa [HostEvent.written] using hreq
    have hle := hs.outstanding hdev hreq' (by simp [Host.holdsToken, hpc])
    rcases hs.flow.read_last_frame hdev hle (by decide) harr hkeep with h | ⟨f, hfive, hread⟩
    · rwa [Receiver.emit_replies, Line.unread_take _ harr, List.length_drop]
    · have := congrArg List.length hread
      simp only [List.length_take, List.length_cons, List.length_nil] at this
      omega

theorem live_of_move {s t : Link} {a : Action} (hs : Live s) (hcond : ReadsLastFrame s a)
    (m : Move s a t) : Live t := by
  have hflow := flow_of_move hs.flow m
  cases m with
  | host m => exact live_of_host_move hs m hcond
  | spin => exact hs
  | wake analogRead hpc hsome => exact ⟨hflow, hs.size, by simp⟩
  | drain analogRead hpc hsome => exact ⟨hflow, hs.size, by simp [Device.countRead, hpc]⟩
  | drained analogRead hpc hempty => exact ⟨hflow, hs.size, by simp⟩
  | frame analogRead i hpc =>
    refine ⟨hflow, hs.size, fun _ _ _ => ?_⟩
    simp [Frame.bytes]
  | deliverRequest hl =>
    obtain ⟨-, hunread, -⟩ := Line.deliver_spec hl
    have hout := hs.outstanding
    rw [← hunread] at hout
    exact ⟨hflow, hs.size, hout⟩
  | deliverReply hl =>
    obtain ⟨-, hunread, -⟩ := Line.deliver_spec hl
    have hout := hs.outstanding
    rw [← hunread] at hout
    exact ⟨hflow, hs.size, hout⟩

/-- No run comes to rest in which every read keeps the frame of slider 5 whole
and every skip gets its byte. -/
theorem not_deadlocked_of_reads_last_frame (actions : List Action) {s : Link}
    (hm : Meets step ReadsLastFrame (start []) actions)
    (h : run step (start []) actions = some s) : ¬ Deadlocked s :=
  (run_invariant_of_meets (fun _ _ _ hinv hcond hstep => live_of_move hinv hcond
    (move_of_step hstep)) live_start hm h).not_deadlocked

theorem not_deadlocked_firstFrame :
    ∃ s, run step (start []) firstFrame = some s ∧ ¬ Deadlocked s :=
  ⟨_, rfl, not_deadlocked_of_reads_last_frame firstFrame (by decide) rfl⟩

/-- A whole round is sent and delivered, five frames are read in one piece, and
the two bytes of the last one in two reads. -/
def cutLastFrame : List Action :=
  [Action.host 0, Action.deliverRequest] ++ List.replicate 9 (Action.device lowest) ++
    List.replicate 12 Action.deliverReply ++ [Action.host 0] ++
    (List.replicate 5 [Action.host 2, Action.host 0, Action.host 0]).flatten ++
    [Action.host 1, Action.host 0, Action.host 1, Action.host 0, Action.host 0, Action.host 0]

/-- The link can come to rest. -/
theorem exists_deadlock :
    ¬ ∀ actions s, run step (start []) actions = some s → ¬ Deadlocked s := by
  intro h
  have hrun : (run step (start []) cutLastFrame).any (fun s => decide (Deadlocked s)) = true := by
    decide +kernel
  rw [Option.any_eq_true] at hrun
  obtain ⟨s, hs, hdead⟩ := hrun
  exact h cutLastFrame s hs (of_decide_eq_true hdead)

end Link
end AudioCtrl.Serial
