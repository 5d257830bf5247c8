import AudioCtrl.Serial.Serving
import AudioCtrl.Serial.Deadlock
import AudioCtrl.Serial.WholeReads

/-!
# A line that loses bytes

Neither program repeats what it has sent, so on a line that loses bytes the requests,
rounds and answers outstanding can only become fewer. When none is left, the exchange
has ended for good. Before that a lost byte can join the bytes of two frames, but the
two are of one round.
-/

namespace AudioCtrl

def Line.lose {α : Type*} (l : Line α) (i : ℕ) : Line α :=
  { l with travelling := l.travelling.eraseIdx i }

theorem Line.unread_lose_sublist {α : Type*} (l : Line α) (i : ℕ) :
    (l.lose i).unread.Sublist l.unread :=
  (List.Sublist.refl _).append (List.eraseIdx_sublist _ _)

theorem Line.countP_unread_take {α : Type*} (l : Line α) (p : α → Bool) (n : ℕ) :
    (l.arrived.take n).countP p + (l.take n).unread.countP p = l.unread.countP p := by
  have hsplit := congrArg (List.countP p) (List.take_append_drop n l.arrived)
  rw [List.countP_append] at hsplit
  simp only [unread, arrived_take, travelling_take, List.countP_append]
  omega

namespace Serial

theorem Frame.countP_startsLastFrame (f : Frame) :
    f.bytes.countP startsLastFrame = (decide (f.slider = 5)).toNat := by
  have hlow : startsLastFrame f.byte0 = decide (f.slider = 5) := by
    simp [startsLastFrame, f.byte0_lt]
  have hhigh : startsLastFrame f.byte1 = false := by
    have hge := f.byte1_ge
    have hnot : ¬ f.byte1.toNat < 128 := by omega
    simp [startsLastFrame, hnot]
  rw [Frame.bytes, List.countP_cons, hlow, List.countP_cons_of_neg (by simp [hhigh]),
    List.countP_nil]
  cases decide (f.slider = 5) <;> rfl

namespace Link

open PartialRun

/-- A step of the link, or the loss of a travelling byte. -/
inductive LossyAction where
  | link (a : Action)
  | loseRequest (i : ℕ)
  | loseReply (i : ℕ)

def lossyStep (s : Link) : LossyAction → Option Link
  | .link a => s.step a
  | .loseRequest i => some { s with requests := s.requests.lose i }
  | .loseReply i =>
    some { s with receiver := { s.receiver with replies := s.receiver.replies.lose i } }

/-- The requests, rounds and rights to a request, and the unread bytes that start an answer of
slider 5. -/
def outstanding (s : Link) : ℕ :=
  s.requests.unread.length + s.device.busy.toNat + s.receiver.host.holdsToken.toNat +
    s.receiver.replies.unread.countP startsLastFrame

/-- What holds also on a line that loses bytes. -/
structure Lossy (s : Link) : Prop where
  receiver : s.receiver.Sound
  tempBuf : s.receiver.host.tempBuf.length ≤ 1
  serving : Serving s
  writes : WritesRounds s

theorem lossy_start (pending : List UInt8) : Lossy (start pending) where
  receiver := Receiver.sound_start []
  tempBuf := le_refl 1
  serving := serving_start pending
  writes := rfl

theorem outstanding_start (pending : List UInt8) :
    (start pending).outstanding = pending.length + 1 := by
  simp [outstanding, start, Line.unread, Device.idle, Device.busy, Receiver.start, Host.initial,
    Host.holdsToken, Line.holding]

/-! ## What a step passes on -/

theorem one_le_countP_of_token {h : Host} (hpc : h.pc = .checkPair) (hhold : h.holdsToken = true) :
    1 ≤ h.buffer.countP startsLastFrame := by
  obtain ⟨b0, b1, hbuf, hacc, hfive⟩ := (Host.holdsToken_checkPair_iff hpc).mp hhold
  have hstart : startsLastFrame b0 = true := by
    simp [startsLastFrame, ((rejects_eq_false_iff _ _).mp hacc).1, hfive]
  rw [hbuf, List.countP_cons_of_pos hstart]
  omega

/-- The host sends and holds no more tokens than it held and took from the line. -/
theorem held_of_host_move {r t : Receiver} {n : ℕ} {events : List HostEvent}
    (htemp : r.host.tempBuf.length ≤ 1) (m : Receiver.Move r n events t) :
    (events.flatMap HostEvent.written).length + t.host.holdsToken.toNat +
        t.replies.unread.countP startsLastFrame ≤
      r.host.holdsToken.toNat + r.replies.unread.countP startsLastFrame := by
  cases m with
  | firstSend hpc => simpa [Host.holdsToken, hpc, HostEvent.written, add_comm] using htemp
  | waitForData hpc => simp [Host.holdsToken, hpc, HostEvent.written]
  | receivePair hpc hn harr =>
    have hsplit := r.replies.countP_unread_take startsLastFrame n
    have hwritten : [HostEvent.readPair 2 (r.replies.arrived.take n)].flatMap
        HostEvent.written = [] := rfl
    rw [hwritten, Receiver.emit_replies, Receiver.emit_host, List.length_nil]
    cases hhold : Host.holdsToken ⟨.checkPair, r.replies.arrived.take n, r.host.tempBuf⟩ with
    | false =>
      rw [Bool.toNat_false]
      dsimp only
      omega
    | true =>
      have hone := one_le_countP_of_token rfl hhold
      rw [Bool.toNat_true]
      dsimp only at hone ⊢
      omega
  | emptyRead hpc hbuf => simp [Host.holdsToken]
  | shortRead hpc hbuf hlen => simp [Host.holdsToken]
  | rejectPair b0 b1 hpc hbuf hrej => simp [Host.holdsToken]
  | acceptPair b0 b1 hpc hbuf hacc =>
    simp [Host.holdsToken, hpc, hbuf, hacc, Host.slider]
  | receiveSkip hpc hn harr =>
    have hsplit := r.replies.countP_unread_take startsLastFrame n
    have hwritten : [HostEvent.readSkip r.host.tempBuf.length (r.replies.arrived.take n)].flatMap
        HostEvent.written = [] := rfl
    have hhold : Host.holdsToken ⟨.receivePair, r.host.buffer, r.replies.arrived.take n⟩ = false :=
      rfl
    rw [hwritten, Receiver.emit_replies, Receiver.emit_host, List.length_nil, hhold,
      Bool.toNat_false]
    dsimp only
    omega
  | handlePair hpc =>
    have hhold : r.host.holdsToken = decide (r.host.slider = 5) := by
      simp [Host.holdsToken, hpc]
    rw [Receiver.handleEvents_written, hhold]
    split_ifs with hfive
    · simpa [Host.holdsToken, hfive, add_comm] using htemp
    · simp [Host.holdsToken]

/-- Neither a step of a program nor a loss adds to what is outstanding. -/
theorem outstanding_le_of_move {s t : Link} {a : Action} (hs : Lossy s) (m : Move s a t) :
    t.outstanding ≤ s.outstanding := by
  unfold outstanding
  cases m with
  | host m =>
    have htokens := held_of_host_move hs.tempBuf m
    rw [Line.unread_write, List.length_append]
    dsimp only
    omega
  | spin => exact le_refl _
  | wake analogRead hpc hsome =>
    simp [Device.busy]
  | drain analogRead hpc hsome =>
    have hone : 1 ≤ s.requests.arrived.length := List.length_pos_iff.mpr hsome
    have hle := s.requests.length_arrived_le_unread
    have hbusy := s.device.countRead.busy.toNat_le
    rw [Line.unread_take _ hone, List.length_drop]
    dsimp only
    omega
  | drained analogRead hpc hempty =>
    have hbusy := hs.serving.busy_of_drained hpc hempty
    have hle := Bool.toNat_le (Device.busy { s.device with pc := .writeFrame 0 })
    rw [hbusy, Bool.toNat_true]
    dsimp only at hle ⊢
    omega
  | frame analogRead i hpc =>
    have hbusy : s.device.busy = true := by simp [Device.busy, hpc]
    have hle := Bool.toNat_le (Device.busy ⟨Device.afterFrame i, s.device.drains⟩)
    have hbytes := (sliderFrame analogRead i).countP_startsLastFrame
    have hslider : (sliderFrame analogRead i).slider = i.val := rfl
    rw [hslider] at hbytes
    rw [Line.unread_write, List.countP_append, hbytes, hbusy, Bool.toNat_true]
    rcases afterFrame_spec s.device i with ⟨hlt, -⟩ | ⟨hlast, -, hnot⟩
    · rw [decide_eq_false (by omega), Bool.toNat_false]
      dsimp only at hle ⊢
      omega
    · rw [decide_eq_true hlast, hnot, Bool.toNat_true, Bool.toNat_false]
      dsimp only
      omega
  | deliverRequest hl =>
    obtain ⟨-, hunread, -⟩ := Line.deliver_spec hl
    rw [hunread]
  | deliverReply hl =>
    obtain ⟨-, hunread, -⟩ := Line.deliver_spec hl
    rw [hunread]

theorem lossy_of_move {s t : Link} {a : Action} (hs : Lossy s) (m : Move s a t) :
    Lossy t := by
  have hserving := hs.serving.of_move m
  have hwrites := writesRounds_of_move hs.writes m
  cases m with
  | host m =>
    exact ⟨Receiver.sound_of_move hs.receiver m, Receiver.length_tempBuf_le hs.tempBuf m, hserving,
      hwrites⟩
  | spin | wake | drain | drained | deliverRequest =>
    exact ⟨hs.receiver, hs.tempBuf, hserving, hwrites⟩
  | frame analogRead i hpc =>
    exact ⟨receiver_sound_with_line hs.receiver rfl, hs.tempBuf, hserving, hwrites⟩
  | deliverReply hl =>
    obtain ⟨htaken, -, -⟩ := Line.deliver_spec hl
    exact ⟨receiver_sound_with_line hs.receiver htaken, hs.tempBuf, hserving, hwrites⟩

theorem lossy_of_step {s t : Link} {a : LossyAction} (hs : Lossy s)
    (h : s.lossyStep a = some t) : Lossy t ∧ t.outstanding ≤ s.outstanding := by
  cases a with
  | link a =>
    have m := move_of_step h
    exact ⟨lossy_of_move hs m, outstanding_le_of_move hs m⟩
  | loseRequest i =>
    cases h
    refine ⟨⟨hs.receiver, hs.tempBuf, hs.serving.of_same rfl rfl rfl id, hs.writes⟩, ?_⟩
    have hle := (s.requests.unread_lose_sublist i).length_le
    unfold outstanding
    dsimp only
    omega
  | loseReply i =>
    cases h
    refine ⟨⟨receiver_sound_with_line hs.receiver rfl, hs.tempBuf,
      hs.serving.of_same rfl rfl rfl id, hs.writes⟩, ?_⟩
    have hle := (s.receiver.replies.unread_lose_sublist i).countP_le (p := startsLastFrame)
    unfold outstanding
    dsimp only
    omega

theorem lossy_of_run {pending : List UInt8} {actions : List LossyAction} {s : Link}
    (h : run lossyStep (start pending) actions = some s) : Lossy s :=
  run_invariant (fun _ _ _ hs hstep => (lossy_of_step hs hstep).1) (lossy_start pending) h

theorem outstanding_le_of_run {actions : List LossyAction} {s t : Link} (hs : Lossy s)
    (h : run lossyStep s actions = some t) : t.outstanding ≤ s.outstanding := by
  have hstep : ∀ (u : Link) a v, Lossy u ∧ u.outstanding ≤ s.outstanding →
      u.lossyStep a = some v → Lossy v ∧ v.outstanding ≤ s.outstanding := by
    rintro u a v ⟨hu, hle⟩ huv
    obtain ⟨hv, hle'⟩ := lossy_of_step hu huv
    exact ⟨hv, hle'.trans hle⟩
  exact (run_invariant hstep ⟨hs, le_refl _⟩ h).2

/-- Whatever bytes are lost, and with any bytes waiting for the device at the start: what is
outstanding never grows and is at most one more than these bytes, each drain loop that has
ended has read requests of its own, and at most six frames are sent for each request. -/
theorem flow_control_on_lossy_line (pending : List UInt8) (actions more : List LossyAction)
    {s t : Link} (h : run lossyStep (start pending) actions = some s)
    (ht : run lossyStep s more = some t) :
    t.outstanding ≤ s.outstanding ∧ s.outstanding ≤ pending.length + 1 ∧
      (∀ m ∈ s.device.endedDrains, 1 ≤ m) ∧
      s.device.drains.sum = s.requests.taken.length ∧
      s.sent.length ≤ 6 * s.requests.taken.length := by
  have hs := lossy_of_run h
  refine ⟨outstanding_le_of_run hs ht, ?_, hs.serving.ended, hs.serving.total,
    hs.serving.sent_le hs.writes⟩
  rw [← outstanding_start]
  exact outstanding_le_of_run (lossy_start pending) h

def requestLost : List LossyAction := [.link (.host 0), .loseRequest 0]

def waiting : List LossyAction :=
  [.link (.device lowest), .link (.host 0), .link (.host 0), .link (.host 0)]

theorem flow_control_on_lossy_line_requestLost :
    ∃ s t, run lossyStep (start [7]) requestLost = some s ∧ run lossyStep s waiting = some t ∧
      t.outstanding ≤ s.outstanding ∧ s.outstanding ≤ 2 :=
  ⟨_, _, rfl, rfl, (flow_control_on_lossy_line [7] requestLost waiting rfl rfl).1,
    (flow_control_on_lossy_line [7] requestLost waiting rfl rfl).2.1⟩

/-! ## The end of the exchange -/

theorem Lossy.waits {s : Link} (hs : Lossy s) (hnone : s.outstanding = 0) :
    s.device.pc = .waitRequest ∧ s.requests.arrived = [] := by
  unfold outstanding at hnone
  have hbusy : s.device.busy = false := by
    cases hb : s.device.busy with
    | false => rfl
    | true =>
      rw [hb, Bool.toNat_true] at hnone
      omega
  have harrived : s.requests.arrived = [] := by
    have hle := s.requests.length_arrived_le_unread
    exact List.eq_nil_of_length_eq_zero (by omega)
  refine ⟨?_, harrived⟩
  cases hpc : s.device.pc with
  | waitRequest => rfl
  | drainRequests =>
    rw [hs.serving.busy_of_drained hpc harrived] at hbusy
    cases hbusy
  | writeFrame i => simp [Device.busy, hpc] at hbusy

theorem written_of_host_move {r t : Receiver} {n : ℕ} {events : List HostEvent}
    (m : Receiver.Move r n events t) :
    t.written = r.written ++ events.flatMap HostEvent.written := by
  cases m <;> simp [Receiver.written, Receiver.emit, List.flatMap_append, List.flatMap_map]

theorem ended_of_step {s t : Link} {a : LossyAction} (hs : Lossy s) (hnone : s.outstanding = 0)
    (h : s.lossyStep a = some t) :
    t.sent = s.sent ∧ t.receiver.written = s.receiver.written := by
  obtain ⟨hwait, hempty⟩ := hs.waits hnone
  cases a with
  | link a =>
    cases move_of_step h with
    | @host n events r m =>
      have htokens := held_of_host_move hs.tempBuf m
      unfold outstanding at hnone
      have hnothing : events.flatMap HostEvent.written = [] :=
        List.eq_nil_of_length_eq_zero (by omega)
      refine ⟨rfl, ?_⟩
      rw [written_of_host_move m, hnothing, List.append_nil]
    | spin | deliverRequest | deliverReply => exact ⟨rfl, rfl⟩
    | wake analogRead hpc hsome => exact absurd hempty hsome
    | drain analogRead hpc hsome => exact absurd hempty hsome
    | drained analogRead hpc =>
      rw [hwait] at hpc
      cases hpc
    | frame analogRead i hpc =>
      rw [hwait] at hpc
      cases hpc
  | loseRequest | loseReply =>
    cases h
    exact ⟨rfl, rfl⟩

/-- When a loss, or a read that cuts a frame, has left nothing outstanding, the exchange has
ended for good: in every continuation the device waits, no frame is sent and the host
sends no request any more. -/
theorem lost_exchange_is_final (pending : List UInt8) (actions more : List LossyAction)
    {s t : Link} (h : run lossyStep (start pending) actions = some s) (hnone : s.outstanding = 0)
    (ht : run lossyStep s more = some t) :
    t.device.pc = .waitRequest ∧ t.sent = s.sent ∧
      t.receiver.written = s.receiver.written ∧ t.outstanding = 0 := by
  have hstep : ∀ (u : Link) a v, (Lossy u ∧ u.outstanding = 0) ∧ u.sent = s.sent ∧
      u.receiver.written = s.receiver.written → u.lossyStep a = some v →
      (Lossy v ∧ v.outstanding = 0) ∧ v.sent = s.sent ∧
        v.receiver.written = s.receiver.written := by
    rintro u a v ⟨⟨hu, hzero⟩, hsent, hwritten⟩ huv
    obtain ⟨hv, hle⟩ := lossy_of_step hu huv
    obtain ⟨hsent', hwritten'⟩ := ended_of_step hu hzero huv
    exact ⟨⟨hv, by omega⟩, hsent'.trans hsent, hwritten'.trans hwritten⟩
  obtain ⟨⟨hlossy, hzero⟩, hsent, hwritten⟩ :=
    run_invariant hstep ⟨⟨lossy_of_run h, hnone⟩, rfl, rfl⟩ ht
  exact ⟨(hlossy.waits hzero).1, hsent, hwritten, hzero⟩

theorem lost_exchange_is_final_requestLost :
    ∃ s t, run lossyStep (start []) requestLost = some s ∧ s.outstanding = 0 ∧
      run lossyStep s waiting = some t ∧ t.sent = [] ∧ t.receiver.written = [0] :=
  have h := lost_exchange_is_final [] requestLost waiting rfl (by decide) rfl
  ⟨_, _, rfl, by decide, rfl, h.2.1, h.2.2.1⟩

end Link
end Serial
end AudioCtrl
