import AudioCtrl.Serial.Serving
import AudioCtrl.Serial.WholeReads
import Mathlib.Order.Interval.Finset.Nat

/-!
# Stray bytes on the request line

Bytes that wait in the device's input queue when the program starts are requests
like any other. Each of them is one more token, so they cost at most one round each:
the rounds and the unread replies stay bounded, and no round starts without a byte
of its own.
-/

namespace AudioCtrl.Serial

open PartialRun

namespace Link

def decodedLast (s : Link) : ℕ := (s.receiver.decoded.filter fun d => d.1 = 5).length

/-- At most `n` requests, rounds, rights to a request and unread answers of slider 5. -/
structure Tokens (n : ℕ) (s : Link) : Prop where
  sound : s.Sound
  slider : ∀ j f, s.sent[j]? = some f → f.slider = j % 6
  place : s.sent.length % 6 = s.device.frameIndex
  tempBuf : s.receiver.host.tempBuf.length ≤ 1
  woken : s.device.pc = .drainRequests →
    ∃ m ds, s.device.drains = m :: ds ∧ (m = 0 → s.requests.arrived ≠ [])
  token : s.requests.unread.length + s.device.busy.toNat + s.receiver.host.holdsToken.toNat +
    s.unreadLastFrames.card ≤ n
  ended : ∀ m ∈ s.device.endedDrains, 1 ≤ m
  total : s.device.drains.sum = s.requests.taken.length
  written : s.requests.history.length + (decide (s.receiver.host.pc = .firstSend)).toNat ≤
    n + s.decodedLast

theorem tokens_start (pending : List UInt8) : Tokens (pending.length + 1) (start pending) where
  sound := sound_start pending
  slider := by simp [start]
  place := rfl
  tempBuf := le_refl 1
  woken := by simp [start, Device.idle]
  token := by simp [start, Line.unread, Device.idle, Device.busy, Receiver.start, Host.initial,
    Host.holdsToken, unreadLastFrames]
  ended := by simp [start, Device.idle, Device.endedDrains]
  total := rfl
  written := by simp [start, Line.history, Receiver.start, Host.initial]

theorem Tokens.serving {n : ℕ} {s : Link} (hs : Tokens n s) : Serving s :=
  ⟨hs.slider, hs.place, hs.woken, hs.ended, hs.total⟩

theorem unreadLastFrames_subset {s t : Link} (hsent : t.sent = s.sent)
    (htaken : s.receiver.replies.taken.length ≤ t.receiver.replies.taken.length) :
    t.unreadLastFrames ⊆ s.unreadLastFrames := by
  intro j hj
  obtain ⟨hlt, hfive, hunread⟩ := Finset.mem_filter.mp hj
  rw [hsent] at hlt hfive
  exact Finset.mem_filter.mpr ⟨hlt, hfive, htaken.trans_lt hunread⟩

/-! ## Steps of the host -/

theorem Tokens.of_host {n : ℕ} {s : Link} (hs : Tokens n s) {r : Receiver} {bytes : List UInt8}
    (hsound : Sound { s with receiver := r, requests := s.requests.write bytes })
    (htemp : r.host.tempBuf.length ≤ 1)
    (htoken : bytes.length + r.host.holdsToken.toNat +
      (unreadLastFrames { s with receiver := r }).card ≤
        s.receiver.host.holdsToken.toNat + s.unreadLastFrames.card)
    (hwritten : bytes.length + (decide (r.host.pc = .firstSend)).toNat + s.decodedLast ≤
      (decide (s.receiver.host.pc = .firstSend)).toNat + decodedLast { s with receiver := r }) :
    Tokens n { s with receiver := r, requests := s.requests.write bytes } := by
  have htok := hs.token
  have hwrite := hs.written
  refine ⟨hsound, hs.slider, hs.place, htemp, hs.woken, ?_, hs.ended, hs.total, ?_⟩
  · change (s.requests.write bytes).unread.length + _ + _ +
      (unreadLastFrames { s with receiver := r }).card ≤ n
    rw [Line.unread_write, List.length_append]
    dsimp only
    omega
  · change (s.requests.write bytes).history.length + _ ≤
      n + decodedLast { s with receiver := r }
    rw [Line.history_write, List.length_append]
    dsimp only
    omega

theorem Tokens.of_silent {n : ℕ} {s : Link} (hs : Tokens n s) {r : Receiver} {bytes : List UInt8}
    (hsound : Sound { s with receiver := r, requests := s.requests.write bytes })
    (hbytes : bytes = []) (hpc : r.host.pc ≠ .firstSend) (htemp : r.host.tempBuf.length ≤ 1)
    (hdec : r.decoded = s.receiver.decoded)
    (htaken : s.receiver.replies.taken.length ≤ r.replies.taken.length)
    (htoken : r.host.holdsToken = true → s.receiver.host.holdsToken = true ∨
      (unreadLastFrames { s with receiver := r }).card < s.unreadLastFrames.card) :
    Tokens n { s with receiver := r, requests := s.requests.write bytes } := by
  have hcard := Finset.card_le_card
    (unreadLastFrames_subset (s := s) (t := { s with receiver := r }) rfl htaken)
  subst hbytes
  apply hs.of_host hsound htemp
  · cases hhold : r.host.holdsToken with
    | false =>
      rw [Bool.toNat_false, List.length_nil]
      omega
    | true =>
      have hle := s.receiver.host.holdsToken.toNat_le
      rw [Bool.toNat_true, List.length_nil]
      rcases htoken hhold with h | h
      · rw [h, Bool.toNat_true]
        omega
      · omega
  · have hsame : decodedLast { s with receiver := r } = s.decodedLast := by
      unfold decodedLast
      rw [hdec]
    rw [hsame, decide_eq_false hpc, Bool.toNat_false, List.length_nil]
    omega

theorem Tokens.card_lt_of_read {n : ℕ} {s : Link} (hs : Tokens n s) {b0 b1 : UInt8}
    (h0 : s.receiver.replies.arrived[0]? = some b0) (h1 : s.receiver.replies.arrived[1]? = some b1)
    (hacc : rejects b0 b1 = false) (hfive : sliderOf b0 = 5) {r : Receiver}
    (htaken : r.replies.taken.length = s.receiver.replies.taken.length + 2) :
    (unreadLastFrames { s with receiver := r }).card < s.unreadLastFrames.card := by
  have h0' := s.receiver.replies.getElem?_history_of_arrived h0
  have h1' := s.receiver.replies.getElem?_history_of_arrived h1
  rw [hs.sound.history] at h0' h1'
  obtain ⟨j, f, hj, hf, rfl, rfl⟩ := exists_frame_of_accepted h0' h1' hacc
  rw [f.sliderOf_byte0] at hfive
  apply Finset.card_lt_card
  refine ⟨unreadLastFrames_subset rfl (by dsimp only; omega), ?_⟩
  intro hsub
  have hmem : j ∈ s.unreadLastFrames := by
    refine Finset.mem_filter.mpr ⟨Finset.mem_range.mpr (List.getElem?_eq_some_iff.mp hf).1, ?_, ?_⟩
    · rw [hf, Option.map_some, hfive]
    · omega
  have hnot := (Finset.mem_filter.mp (hsub hmem)).2.2
  dsimp only at hnot
  omega

theorem Tokens.of_send {n : ℕ} {s : Link} (hs : Tokens n s) {r : Receiver} {bytes : List UInt8}
    (hsound : Sound { s with receiver := r, requests := s.requests.write bytes })
    (hbytes : bytes = s.receiver.host.tempBuf) (hpc : r.host.pc ≠ .firstSend)
    (htemp : r.host.tempBuf = s.receiver.host.tempBuf) (hreplies : r.replies = s.receiver.replies)
    (hhold : r.host.holdsToken = false) (hheld : s.receiver.host.holdsToken = true)
    (hdec : 1 + s.decodedLast ≤ (decide (s.receiver.host.pc = .firstSend)).toNat +
      decodedLast { s with receiver := r }) :
    Tokens n { s with receiver := r, requests := s.requests.write bytes } := by
  have hsize := hs.tempBuf
  subst hbytes
  apply hs.of_host hsound (htemp ▸ hsize)
  · have hsame : unreadLastFrames { s with receiver := r } = s.unreadLastFrames := by
      unfold unreadLastFrames
      rw [hreplies]
    rw [hsame, hhold, hheld, Bool.toNat_false, Bool.toNat_true]
    omega
  · rw [decide_eq_false hpc, Bool.toNat_false]
    omega

theorem decodedLast_emit (s : Link) (host : Host) (events : List HostEvent) :
    decodedLast { s with receiver := s.receiver.emit host events } =
      s.decodedLast + ((events.filterMap HostEvent.decoded).filter fun d => d.1 = 5).length := by
  unfold decodedLast
  rw [Receiver.decoded_emit, List.filter_append, List.length_append]

theorem tokens_of_host_move {n : ℕ} {s : Link} (hs : Tokens n s) {r : Receiver} {c : ℕ}
    {events : List HostEvent} (m : Receiver.Move s.receiver c events r) :
    Tokens n { s with
      receiver := r, requests := s.requests.write (events.flatMap HostEvent.written) } := by
  have hsound := sound_of_move hs.sound (.host m)
  have htemp := hs.tempBuf
  cases m with
  | firstSend hpc =>
    apply hs.of_send hsound (by simp [HostEvent.written]) (by simp) rfl rfl rfl
      (by simp [Host.holdsToken, hpc])
    rw [decodedLast_emit, hpc]
    simp only [decide_true, Bool.toNat_true]
    omega
  | waitForData | emptyRead | shortRead | rejectPair =>
    exact hs.of_silent hsound (by simp [HostEvent.written]) (by simp) htemp
      (by simp [HostEvent.decoded]) (le_refl _) (by simp [Host.holdsToken])
  | acceptPair b0 b1 hpc hbuf hacc =>
    apply hs.of_silent hsound rfl (by simp) htemp (by simp) (le_refl _)
    intro hhold
    left
    simpa [Host.holdsToken, hpc, hbuf, hacc, Host.slider] using hhold
  | receivePair hpc hn harr =>
    apply hs.of_silent hsound (by simp [HostEvent.written]) (by simp) htemp
      (by simp [HostEvent.decoded]) (by simp)
    intro hhold
    right
    obtain ⟨b0, b1, hbuf, hacc, hfive⟩ := (Host.holdsToken_checkPair_iff rfl).mp hhold
    change s.receiver.replies.arrived.take c = [b0, b1] at hbuf
    rcases hbs : s.receiver.replies.arrived with _ | ⟨x0, _ | ⟨x1, rest⟩⟩
    · simp [hbs] at hbuf
    · have hlen := congrArg List.length hbuf
      simp only [hbs, List.length_take, List.length_cons, List.length_nil] at hlen
      omega
    · have hlen := congrArg List.length hbuf
      rw [List.length_take_of_le harr] at hlen
      obtain rfl : c = 2 := hlen
      rw [hbs] at hbuf
      cases hbuf
      exact hs.card_lt_of_read (by rw [hbs]; rfl) (by rw [hbs]; rfl) hacc hfive (by simp [hbs])
  | receiveSkip hpc hn harr =>
    apply hs.of_silent hsound (by simp [HostEvent.written]) (by simp) _
      (by simp [HostEvent.decoded]) (by simp) (by simp [Host.holdsToken])
    simp only [Receiver.emit_host, List.length_take]
    omega
  | handlePair hpc =>
    by_cases hfive : s.receiver.host.slider = 5
    · apply hs.of_send hsound (by simp [hfive]) (by simp) rfl rfl rfl
        (by simp [Host.holdsToken, hpc, hfive])
      rw [decodedLast_emit, Receiver.handleEvents_decoded]
      simp [hfive, Nat.add_comm]
    · apply hs.of_host hsound htemp
      · rw [Receiver.handleEvents_written, if_neg hfive, List.length_nil]
        exact Nat.add_le_add (Nat.zero_le _) (le_refl _)
      · rw [Receiver.handleEvents_written, if_neg hfive, decodedLast_emit,
          Receiver.handleEvents_decoded]
        simp [hfive]

/-! ## Steps of the device and of the lines -/

theorem tokens_wake {n : ℕ} {s : Link} (hs : Tokens n s) (hpc : s.device.pc = .waitRequest)
    (hsome : s.requests.arrived ≠ []) :
    Tokens n { s with device := ⟨.drainRequests, 0 :: s.device.drains⟩ } := by
  obtain ⟨hslider, hplace, hwoken, hended, htotal⟩ := hs.serving.wake hpc hsome
  have htok := hs.token
  have hbusy : s.device.busy = false := by simp [Device.busy, hpc]
  rw [hbusy] at htok
  exact ⟨⟨hs.sound.1, hs.sound.2⟩, hslider, hplace, hs.tempBuf, hwoken, htok, hended, htotal,
    hs.written⟩

theorem tokens_drain {n : ℕ} {s : Link} (hs : Tokens n s) (hpc : s.device.pc = .drainRequests)
    (hsome : s.requests.arrived ≠ []) :
    Tokens n { s with device := s.device.countRead, requests := s.requests.take 1 } := by
  obtain ⟨hslider, hplace, hwoken, hended, htotal⟩ := hs.serving.drain hpc hsome
  have hone : 1 ≤ s.requests.arrived.length := List.length_pos_iff.mpr hsome
  have hle := s.requests.length_arrived_le_unread
  have htok := hs.token
  have hbusy := s.device.countRead.busy.toNat_le
  refine ⟨⟨hs.sound.1, hs.sound.2⟩, hslider, hplace, hs.tempBuf, hwoken, ?_, hended, htotal, ?_⟩
  · change (s.requests.take 1).unread.length + s.device.countRead.busy.toNat +
      s.receiver.host.holdsToken.toNat + s.unreadLastFrames.card ≤ n
    rw [Line.unread_take _ hone, List.length_drop]
    omega
  · have hwritten := hs.written
    simpa [decodedLast] using hwritten

theorem tokens_drained {n : ℕ} {s : Link} (hs : Tokens n s) (hpc : s.device.pc = .drainRequests)
    (hempty : s.requests.arrived = []) :
    Tokens n { s with device := { s.device with pc := .writeFrame 0 } } := by
  obtain ⟨hslider, hplace, hwoken, hended, htotal⟩ := hs.serving.drained hpc hempty
  have htok := hs.token
  rw [hs.serving.busy_of_drained hpc hempty] at htok
  exact ⟨⟨hs.sound.1, hs.sound.2⟩, hslider, hplace, hs.tempBuf, hwoken, htok, hended, htotal,
    hs.written⟩

theorem card_unreadLastFrames_append {s t : Link} {f : Frame} (hsent : t.sent = s.sent ++ [f])
    (htaken : t.receiver.replies.taken = s.receiver.replies.taken) :
    t.unreadLastFrames.card ≤ s.unreadLastFrames.card + (decide (f.slider = 5)).toNat := by
  have hsub : t.unreadLastFrames ⊆
      s.unreadLastFrames ∪ if f.slider = 5 then {s.sent.length} else ∅ := by
    intro j hj
    obtain ⟨hlt, hfive, hunread⟩ := Finset.mem_filter.mp hj
    rw [hsent, List.length_append, List.length_singleton, Finset.mem_range] at hlt
    rw [hsent] at hfive
    rw [htaken] at hunread
    by_cases hold : j < s.sent.length
    · rw [List.getElem?_append_left hold] at hfive
      exact Finset.mem_union_left _
        (Finset.mem_filter.mpr ⟨Finset.mem_range.mpr hold, hfive, hunread⟩)
    · obtain rfl : j = s.sent.length := by omega
      have hslider : f.slider = 5 := by simpa using hfive
      apply Finset.mem_union_right
      rw [if_pos hslider]
      exact Finset.mem_singleton_self _
  have hcard := (Finset.card_le_card hsub).trans (Finset.card_union_le _ _)
  split_ifs at hcard with hslider <;> simpa [hslider] using hcard

theorem tokens_frame {n : ℕ} {s : Link} (hs : Tokens n s) (analogRead : AnalogPin → Fin 1024)
    {i : Fin 6} (hpc : s.device.pc = .writeFrame i) {t : Link} (hsound : Sound t)
    (ht : t = { receiver := { s.receiver with
        replies := s.receiver.replies.write (sliderFrame analogRead i).bytes }
                device := { s.device with pc := Device.afterFrame i }
                requests := s.requests
                sent := s.sent ++ [sliderFrame analogRead i] }) : Tokens n t := by
  have hcard := card_unreadLastFrames_append (s := s) (t := t) (by rw [ht]) (by rw [ht]; rfl)
  subst ht
  obtain ⟨hsliders, hplace, hwoken, hended, htotal⟩ := hs.serving.frame analogRead hpc
    { s.receiver with replies := s.receiver.replies.write (sliderFrame analogRead i).bytes }
  have hbusy : s.device.busy = true := by simp [Device.busy, hpc]
  have htok := hs.token
  have hslider : (sliderFrame analogRead i).slider = i.val := rfl
  rw [hbusy, Bool.toNat_true] at htok
  rw [hslider] at hcard
  refine ⟨hsound, hsliders, hplace, hs.tempBuf, hwoken, ?_, hended, htotal, hs.written⟩
  have hle := Bool.toNat_le (Device.busy ⟨Device.afterFrame i, s.device.drains⟩)
  dsimp only at hcard ⊢
  rcases afterFrame_spec s.device i with ⟨hlt, -⟩ | ⟨hlast, -, hnot⟩
  · rw [decide_eq_false (by omega), Bool.toNat_false] at hcard
    omega
  · rw [decide_eq_true hlast, Bool.toNat_true] at hcard
    rw [hnot, Bool.toNat_false]
    omega

theorem tokens_of_move {n : ℕ} {s t : Link} {a : Action} (hs : Tokens n s) (m : Move s a t) :
    Tokens n t := by
  have hsound := sound_of_move hs.sound m
  cases m with
  | host m => exact tokens_of_host_move hs m
  | spin => exact hs
  | wake analogRead hpc hsome => exact tokens_wake hs hpc hsome
  | drain analogRead hpc hsome => exact tokens_drain hs hpc hsome
  | drained analogRead hpc hempty => exact tokens_drained hs hpc hempty
  | frame analogRead i hpc => exact tokens_frame hs analogRead hpc hsound rfl
  | deliverRequest hl =>
    obtain ⟨hslider, hplace, hwoken, hended, htotal⟩ := hs.serving.of_move (.deliverRequest hl)
    obtain ⟨-, hunread, hhist⟩ := Line.deliver_spec hl
    have htok := hs.token
    have hwritten := hs.written
    rw [← hunread] at htok
    rw [← hhist] at hwritten
    exact ⟨hsound, hslider, hplace, hs.tempBuf, hwoken, htok, hended, htotal, hwritten⟩
  | @deliverReply l hl =>
    obtain ⟨htaken, -, -⟩ := Line.deliver_spec hl
    have hcard := Finset.card_le_card (unreadLastFrames_subset (s := s)
      (t := { s with receiver := { s.receiver with replies := l } }) rfl (by rw [htaken]))
    have htok := hs.token
    refine ⟨hsound, hs.slider, hs.place, hs.tempBuf, hs.woken, ?_, hs.ended, hs.total, hs.written⟩
    exact le_trans (Nat.add_le_add_left hcard _) htok

theorem tokens_of_run {pending : List UInt8} {actions : List Action} {s : Link}
    (h : run step (start pending) actions = some s) : Tokens (pending.length + 1) s :=
  run_invariant (fun _ _ _ hinv hstep => tokens_of_move hinv (move_of_step hstep))
    (tokens_start pending) h

/-! ## What the tokens bound -/

/-- Every six unread frames contain an answer of slider 5. -/
theorem Tokens.unread_le {n : ℕ} {s : Link} (hs : Tokens n s) :
    s.receiver.replies.unread.length ≤ 12 * n := by
  have hlen := hs.sound.length_sent
  have hplace := hs.place
  have hidx := s.device.frameIndex_lt
  have htok := hs.token
  generalize hrounds : s.sent.length / 6 = rounds
  generalize hread : s.receiver.replies.taken.length / 12 = read
  have hsub : (Finset.Ico read rounds).image (fun p => 6 * p + 5) ⊆ s.unreadLastFrames := by
    intro j hj
    obtain ⟨p, hp, rfl⟩ := Finset.mem_image.mp hj
    obtain ⟨hlow, hhigh⟩ := Finset.mem_Ico.mp hp
    have hlt : 6 * p + 5 < s.sent.length := by omega
    refine Finset.mem_filter.mpr ⟨Finset.mem_range.mpr hlt, ?_, by omega⟩
    have hslider := hs.slider _ _ (List.getElem?_eq_getElem hlt)
    rw [List.getElem?_eq_getElem hlt, Option.map_some, hslider]
    congr 1
    omega
  have hcard := Finset.card_le_card hsub
  have hinj : Function.Injective fun p : ℕ => 6 * p + 5 := by
    intro p q h
    change 6 * p + 5 = 6 * q + 5 at h
    omega
  rw [Finset.card_image_of_injective _ hinj, Nat.card_Ico] at hcard
  cases hbusy : s.device.busy with
  | true =>
    rw [hbusy, Bool.toNat_true] at htok
    omega
  | false =>
    rw [Device.frameIndex_of_not_busy hbusy] at hplace
    omega

theorem Tokens.rounds_le {n : ℕ} {s : Link} (hs : Tokens n s) :
    s.device.endedDrains.length ≤ n + s.decodedLast := by
  have hended := hs.serving.endedDrains_le
  have hwritten := hs.written
  have hhist := s.requests.length_taken_add_unread
  omega

/-- With any bytes waiting for the device when the program starts, in every reachable state
there are at most one request, round or unread answer more than there were bytes, at
most twelve reply bytes for each of them are unread, and there were at most as many
rounds as bytes, plus one, plus the answers of slider 5 that the host has decoded. -/
theorem stray_requests_bounded (pending : List UInt8) (actions : List Action) {s : Link}
    (h : run step (start pending) actions = some s) :
    s.requests.unread.length + s.device.busy.toNat + s.unreadLastFrames.card ≤
        pending.length + 1 ∧
      s.receiver.replies.unread.length ≤ 12 * (pending.length + 1) ∧
      s.device.endedDrains.length ≤ pending.length + 1 + s.decodedLast := by
  have hs := tokens_of_run h
  have htok := hs.token
  exact ⟨by omega, hs.unread_le, hs.rounds_le⟩

theorem stray_requests_bounded_firstFrame :
    ∃ s, run step (start [7]) firstFrame = some s ∧
      s.receiver.replies.unread.length ≤ 24 ∧ s.device.endedDrains.length ≤ 2 + s.decodedLast :=
  ⟨_, rfl, (stray_requests_bounded [7] firstFrame rfl).2⟩

end Link
end AudioCtrl.Serial
