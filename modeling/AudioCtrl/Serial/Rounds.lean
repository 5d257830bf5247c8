import AudioCtrl.Serial.WholeReads
import AudioCtrl.Serial.StrayRequests

/-!
# Rounds

A request stands for one round: the device answers it with the six sliders in
order, and the host asks again when it has decoded the last one. Where no read
returns a single byte, the decoded pairs are whole rounds, each of them measured
after the round before it was decoded.
-/

namespace AudioCtrl.Serial.Link

open PartialRun

theorem writesRounds_of_run {pending : List UInt8} {actions : List Action} {s : Link}
    (h : run step (start pending) actions = some s) : WritesRounds s :=
  run_invariant (fun _ _ _ hinv hstep => writesRounds_of_move hinv (move_of_step hstep)) (by rfl) h

/-- The host has sent one request at its start and one after every six pairs; `n` bytes
were waiting for the device before. -/
structure Polls (n : ℕ) (s : Link) : Prop where
  accepted : s.receiver.host.pc = .checkPair → ∀ b0 b1, s.receiver.host.buffer = [b0, b1] →
    rejects b0 b1 = false
  noSkip : s.receiver.host.pc ≠ .receiveSkip
  tempBuf : s.receiver.host.tempBuf.length = 1
  written : s.requests.history.length + (decide (s.receiver.host.pc = .firstSend)).toNat =
    n + 1 + s.receiver.decoded.length / 6

theorem polls_start (pending : List UInt8) : Polls pending.length (start pending) where
  accepted := by simp [start, Receiver.start, Host.initial]
  noSkip := by simp [start, Receiver.start, Host.initial]
  tempBuf := rfl
  written := by simp [start, Receiver.start, Host.initial, Line.history, Receiver.decoded,
    Receiver.decodedAt]

theorem Polls.of_silent {n : ℕ} {s : Link} (hp : Polls n s) {r : Receiver} {bytes : List UInt8}
    (hbytes : bytes = []) (hfirst : s.receiver.host.pc ≠ .firstSend)
    (hdecoded : r.decoded = s.receiver.decoded)
    (haccepted : r.host.pc = .checkPair → ∀ b0 b1, r.host.buffer = [b0, b1] →
      rejects b0 b1 = false)
    (hpc : r.host.pc ≠ .receiveSkip ∧ r.host.pc ≠ .firstSend)
    (htemp : r.host.tempBuf = s.receiver.host.tempBuf) :
    Polls n { s with receiver := r, requests := s.requests.write bytes } := by
  have hwritten := hp.written
  refine ⟨haccepted, hpc.1, htemp ▸ hp.tempBuf, ?_⟩
  simp only [hfirst, decide_false, Bool.toNat_false] at hwritten
  simp [hbytes, hpc.2, hdecoded, hwritten]

theorem polls_of_host_move {n : ℕ} {s : Link} (hp : Polls n s) (hl : Lossless s) (hs : Sound s)
    (hsliders : ∀ j f, s.sent[j]? = some f → f.slider = j % 6) {r : Receiver} {count : ℕ}
    {events : List HostEvent} (hcount : count ≠ 1) (m : Receiver.Move s.receiver count events r) :
    Polls n { s with
      receiver := r, requests := s.requests.write (events.flatMap HostEvent.written) } := by
  cases m with
  | firstSend hpc =>
    have hwritten := hp.written
    have htemp := hp.tempBuf
    have hnone : [HostEvent.writeFile s.receiver.host.tempBuf].filterMap HostEvent.decoded = [] :=
      rfl
    refine ⟨by simp, by simp, htemp, ?_⟩
    simp only [hpc, decide_true, Bool.toNat_true] at hwritten
    simp [HostEvent.written, htemp, hnone, hwritten]
  | waitForData hpc =>
    exact hp.of_silent (by simp [HostEvent.written]) (by simp [hpc]) (by simp [HostEvent.decoded])
      (by simp) (by simp) rfl
  | receivePair hpc hn harr =>
    refine hp.of_silent (by simp [HostEvent.written]) (by simp [hpc])
      (by simp [HostEvent.decoded]) ?_ (by simp) rfl
    intro _ b0 b1 hbuf
    have htake : s.receiver.replies.arrived.take count = [b0, b1] := hbuf
    have hsplit := List.take_append_drop count s.receiver.replies.arrived
    rw [htake] at hsplit
    obtain ⟨f, -, rfl, rfl⟩ := hl.next_frame hs hsplit.symm
    exact f.accepted
  | emptyRead hpc hbuf =>
    exact hp.of_silent rfl (by simp [hpc]) (by simp) (by simp) (by simp) rfl
  | shortRead hpc hbuf hlen =>
    exact hp.of_silent rfl (by simp [hpc]) (by simp) (by simp) (by simp) rfl
  | rejectPair b0 b1 hpc hbuf hrej =>
    rw [hp.accepted hpc b0 b1 hbuf] at hrej
    cases hrej
  | acceptPair b0 b1 hpc hbuf hacc =>
    exact hp.of_silent rfl (by simp [hpc]) (by simp) (by simp) (by simp) rfl
  | receiveSkip hpc => exact absurd hpc hp.noSkip
  | handlePair hpc =>
    have hwritten := hp.written
    have hinHand : s.receiver.inHand = some (s.receiver.host.slider, s.receiver.host.value) := by
      simp [Receiver.inHand, hpc]
    obtain ⟨-, hslider⟩ := hl.inHand_slider hs hsliders hinHand
    refine ⟨by simp, by simp, hp.tempBuf, ?_⟩
    simp only [hpc, reduceCtorEq, decide_false, Bool.toNat_false] at hwritten
    simp only [Receiver.emit_host, reduceCtorEq, decide_false, Bool.toNat_false,
      Receiver.decoded_emit, Receiver.handleEvents_decoded, Receiver.handleEvents_written,
      Line.history_write, List.length_append, List.length_singleton]
    split_ifs with hlast
    · rw [hp.tempBuf]
      omega
    · rw [List.length_nil]
      omega

theorem polls_of_run {pending : List UInt8} {actions : List Action} {s : Link}
    (h : run step (start pending) actions = some s)
    (hm : Meets step (fun _ a => a.NoSingleByte) (start pending) actions) :
    Polls pending.length s := by
  have hstep : ∀ (s : Link) a t,
      (Steady s ∧ Lossless s ∧ Tokens (pending.length + 1) s) ∧ Polls pending.length s →
      a.NoSingleByte → s.step a = some t →
      (Steady t ∧ Lossless t ∧ Tokens (pending.length + 1) t) ∧ Polls pending.length t := by
    rintro s a t ⟨⟨hs, hl, htokens⟩, hp⟩ ha hst
    have m := move_of_step hst
    refine ⟨⟨steady_of_move hs m, (lossless_step_iff hs hl hst).mpr ha, tokens_of_move htokens m⟩,
      ?_⟩
    cases m with
    | host m => exact polls_of_host_move hp hl hs.sound htokens.slider ha m
    | spin | wake | drained | frame | deliverReply =>
      exact ⟨hp.accepted, hp.noSkip, hp.tempBuf, hp.written⟩
    | drain analogRead hpc hsome =>
      refine ⟨hp.accepted, hp.noSkip, hp.tempBuf, ?_⟩
      simp only [Line.history_take]
      exact hp.written
    | deliverRequest hl =>
      obtain ⟨-, -, hhist⟩ := Line.deliver_spec hl
      refine ⟨hp.accepted, hp.noSkip, hp.tempBuf, ?_⟩
      rw [hhist]
      exact hp.written
  exact (run_invariant_of_meets hstep
    ⟨⟨steady_start pending, lossless_start pending, tokens_start pending⟩, polls_start pending⟩
    hm h).2

/-- In a run without reads of a single byte the host decodes the sliders 0 to 5 in turn, and
sends one request at its start and one after each six pairs. The device has begun no more
rounds than there were requests: where no bytes were waiting for it at the start, each
round is measured after the one before it was decoded. -/
theorem pairs_come_in_rounds (pending : List UInt8) (actions : List Action) {s : Link}
    (h : run step (start pending) actions = some s)
    (hm : Meets step (fun _ a => a.NoSingleByte) (start pending) actions) :
    (∀ (i : ℕ) (d : ℕ × ℕ), s.receiver.decoded[i]? = some d → d.1 = i % 6) ∧
      s.requests.history.length + (decide (s.receiver.host.pc = .firstSend)).toNat =
        pending.length + 1 + s.receiver.decoded.length / 6 ∧
      s.sent.length ≤ 6 * (pending.length + 1 + s.receiver.decoded.length / 6) := by
  have hl := lossless_of_run h hm
  have hwritten := (polls_of_run h hm).written
  have hsent := (tokens_of_run h).serving.sent_le (writesRounds_of_run h)
  have hhist := s.requests.length_taken_add_unread
  refine ⟨?_, hwritten, by omega⟩
  intro i d hd
  have htake : (s.sent.take (s.receiver.replies.taken.length / 2))[i]?.map Frame.pair = some d := by
    rw [← List.getElem?_map, ← hl.decoded,
      List.getElem?_append_left (List.getElem?_eq_some_iff.mp hd).1, hd]
  obtain ⟨f, hf, rfl⟩ := Option.map_eq_some_iff.mp htake
  have hlt := (List.getElem?_eq_some_iff.mp hf).1
  rw [List.length_take] at hlt
  rw [List.getElem?_take_of_lt (by omega)] at hf
  exact (tokens_of_run h).slider i f hf

theorem pairs_come_in_rounds_firstFrame :
    ∃ s, run step (start [7]) firstFrame = some s ∧ s.receiver.decoded.length = 1 ∧
      (∀ (i : ℕ) (d : ℕ × ℕ), s.receiver.decoded[i]? = some d → d.1 = i % 6) ∧
      s.sent.length ≤ 12 :=
  ⟨_, rfl, by decide, (pairs_come_in_rounds [7] firstFrame rfl (by decide)).1,
    (pairs_come_in_rounds [7] firstFrame rfl (by decide)).2.2⟩

end AudioCtrl.Serial.Link
