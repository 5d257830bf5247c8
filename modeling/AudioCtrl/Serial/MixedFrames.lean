import AudioCtrl.Serial.LossyLine

/-!
# Pairs on a line that loses bytes

After a loss the host can take the first byte of one frame and the second byte of a
later one for a pair. Each byte read is traced to its place among the bytes sent.
A round is sent only when the answers of slider 5 before it have been decoded, and
these lie before the pair, so the two bytes are of one round.
-/

namespace AudioCtrl.Serial.Link

open PartialRun

def fives (es : List (ℕ × ℕ × ℕ)) : ℕ := es.countP fun e => e.2.1 = 5

@[simp] theorem fives_append (es es' : List (ℕ × ℕ × ℕ)) :
    fives (es ++ es') = fives es + fives es' := List.countP_append

def byteAt (fs : List Frame) (p : ℕ) : Option UInt8 := (frameBytes fs)[p]?

theorem lt_of_byteAt {fs : List Frame} {p : ℕ} {b : UInt8} (h : byteAt fs p = some b) :
    p < 2 * fs.length := by
  rw [← length_frameBytes]
  exact (List.getElem?_eq_some_iff.mp h).1

theorem byteAt_append {fs : List Frame} {p : ℕ} (hp : p < 2 * fs.length) (gs : List Frame) :
    byteAt (fs ++ gs) p = byteAt fs p := by
  rw [← length_frameBytes] at hp
  rw [byteAt, byteAt, frameBytes_append, List.getElem?_append_left hp]

/-- `taken` and `unread` are the places of the reply bytes that the host has read and has not
read; the second byte of a pair was sent in a round that the pairs of slider 5 decoded
before it, or the `n` bytes waiting at the start, have allowed. -/
structure Traced (n : ℕ) (s : Link) (taken unread : List ℕ) : Prop where
  takenBytes : taken.map (byteAt s.sent) = s.receiver.replies.taken.map some
  unreadBytes : unread.map (byteAt s.sent) = s.receiver.replies.unread.map some
  increasing : (taken ++ unread).Pairwise (· < ·)
  mixed : ∀ i e, s.receiver.decodedAt[i]? = some e → ∀ p, taken[e.1 + 1]? = some p →
    p < 12 * (n + 1 + fives (s.receiver.decodedAt.take i))

variable {n : ℕ} {s t : Link} {taken unread : List ℕ}

theorem exists_byteAt {fs : List Frame} {ps : List ℕ} {bs : List UInt8}
    (h : ps.map (byteAt fs) = bs.map some) {p : ℕ} (hp : p ∈ ps) : ∃ b, byteAt fs p = some b := by
  have hmem : byteAt fs p ∈ bs.map some := h ▸ List.mem_map_of_mem hp
  obtain ⟨b, -, hb⟩ := List.mem_map.mp hmem
  exact ⟨b, hb.symm⟩

theorem Traced.lt_of_mem (h : Traced n s taken unread) {p : ℕ} (hp : p ∈ taken ++ unread) :
    p < 2 * s.sent.length := by
  rcases List.mem_append.mp hp with hp | hp
  · obtain ⟨b, hb⟩ := exists_byteAt h.takenBytes hp
    exact lt_of_byteAt hb
  · obtain ⟨b, hb⟩ := exists_byteAt h.unreadBytes hp
    exact lt_of_byteAt hb

theorem Traced.length_taken (h : Traced n s taken unread) :
    taken.length = s.receiver.replies.taken.length := by
  have hlen := congrArg List.length h.takenBytes
  rwa [List.length_map, List.length_map] at hlen

theorem Traced.of_same (h : Traced n s taken unread) (hsent : t.sent = s.sent)
    (htaken : t.receiver.replies.taken = s.receiver.replies.taken)
    (hunread : t.receiver.replies.unread = s.receiver.replies.unread)
    (hdecoded : t.receiver.decodedAt = s.receiver.decodedAt) : Traced n t taken unread := by
  refine ⟨?_, ?_, h.increasing, ?_⟩
  · rw [hsent, htaken]
    exact h.takenBytes
  · rw [hsent, hunread]
    exact h.unreadBytes
  · rw [hdecoded]
    exact h.mixed

theorem Traced.lose (h : Traced n s taken unread) (hsent : t.sent = s.sent)
    (htaken : t.receiver.replies.taken = s.receiver.replies.taken)
    (hunread : t.receiver.replies.unread.Sublist s.receiver.replies.unread)
    (hdecoded : t.receiver.decodedAt = s.receiver.decodedAt) :
    ∃ unread', Traced n t taken unread' := by
  have hsub := hunread.map some
  rw [← h.unreadBytes] at hsub
  obtain ⟨unread', hsub', heq⟩ := List.sublist_map_iff.mp hsub
  refine ⟨unread', ?_, ?_, h.increasing.sublist ((List.Sublist.refl taken).append hsub'), ?_⟩
  · rw [hsent, htaken]
    exact h.takenBytes
  · rw [hsent]
    exact heq.symm
  · rw [hdecoded]
    exact h.mixed

theorem Traced.send (h : Traced n s taken unread) {f : Frame} (hsent : t.sent = s.sent ++ [f])
    (htaken : t.receiver.replies.taken = s.receiver.replies.taken)
    (hunread : t.receiver.replies.unread = s.receiver.replies.unread ++ f.bytes)
    (hdecoded : t.receiver.decodedAt = s.receiver.decodedAt) :
    Traced n t taken (unread ++ [2 * s.sent.length, 2 * s.sent.length + 1]) := by
  have hold : ∀ ps : List ℕ, (∀ p ∈ ps, p ∈ taken ++ unread) →
      ps.map (byteAt t.sent) = ps.map (byteAt s.sent) := by
    intro ps hps
    apply List.map_congr_left
    intro p hp
    rw [hsent]
    exact byteAt_append (h.lt_of_mem (hps p hp)) [f]
  have hfirst : byteAt t.sent (2 * s.sent.length) = some f.byte0 := by
    rw [byteAt, frameBytes_even, hsent]
    simp
  have hsecond : byteAt t.sent (2 * s.sent.length + 1) = some f.byte1 := by
    rw [byteAt, frameBytes_odd, hsent]
    simp
  refine ⟨?_, ?_, ?_, ?_⟩
  · rw [hold taken fun p hp => List.mem_append_left _ hp, htaken]
    exact h.takenBytes
  · rw [List.map_append, hold unread fun p hp => List.mem_append_right _ hp, h.unreadBytes,
      hunread, List.map_append, Frame.bytes]
    simp [hfirst, hsecond]
  · rw [← List.append_assoc, List.pairwise_append]
    refine ⟨h.increasing, by simp, ?_⟩
    intro p hp q hq
    have hlt := h.lt_of_mem hp
    simp only [List.mem_cons, List.not_mem_nil, or_false] at hq
    omega
  · rw [hdecoded]
    exact h.mixed

/-! ## Steps of the host -/

theorem decodedAt_of_move {r r' : Receiver} {c : ℕ} {events : List HostEvent}
    (m : Receiver.Move r c events r') :
    c ≤ r.replies.arrived.length ∧ (r'.decodedAt = r.decodedAt ∨
      ∃ d, r'.decodedAt = r.decodedAt ++ [(r.replies.taken.length - 2, d)]) := by
  cases m with
  | firstSend | waitForData | emptyRead | shortRead | rejectPair | acceptPair =>
    exact ⟨Nat.zero_le _, .inl (by simp [HostEvent.decoded])⟩
  | receivePair hpc hn harr | receiveSkip hpc hn harr =>
    exact ⟨harr, .inl (by simp [HostEvent.decoded])⟩
  | handlePair hpc =>
    exact ⟨Nat.zero_le _, .inr ⟨(r.host.slider, r.host.value), by simp⟩⟩

theorem Traced.read (h : Traced n s taken unread) (hsound : s.receiver.Sound)
    (hrounds : s.sent.length ≤ 6 * (n + 1 + fives s.receiver.decodedAt)) {c : ℕ}
    (hc : c ≤ s.receiver.replies.arrived.length) (hsent : t.sent = s.sent)
    (hreplies : t.receiver.replies = s.receiver.replies.take c)
    (hdecoded : t.receiver.decodedAt = s.receiver.decodedAt ∨
      ∃ d, t.receiver.decodedAt =
        s.receiver.decodedAt ++ [(s.receiver.replies.taken.length - 2, d)]) :
    Traced n t (taken ++ unread.take c) (unread.drop c) := by
  have hunread : s.receiver.replies.unread.take c = s.receiver.replies.arrived.take c :=
    List.take_append_of_le_length hc
  have hplaces : (taken ++ unread.take c) ++ unread.drop c = taken ++ unread := by
    rw [List.append_assoc, List.take_append_drop]
  have hold : ∀ i e, s.receiver.decodedAt[i]? = some e → ∀ p,
      (taken ++ unread.take c)[e.1 + 1]? = some p →
        p < 12 * (n + 1 + fives (s.receiver.decodedAt.take i)) := by
    intro i e he p hp
    have hbehind := hsound.behind e (List.mem_of_getElem? he)
    have hlen := h.length_taken
    rw [List.getElem?_append_left (by omega)] at hp
    exact h.mixed i e he p hp
  refine ⟨?_, ?_, hplaces ▸ h.increasing, ?_⟩
  · rw [hsent, hreplies, Line.taken_take, List.map_append, List.map_append, h.takenBytes,
      List.map_take, h.unreadBytes, ← List.map_take, hunread]
  · rw [hsent, hreplies, Line.unread_take _ hc, List.map_drop, h.unreadBytes, ← List.map_drop]
  · rcases hdecoded with hsame | ⟨d, hnew⟩
    · rw [hsame]
      exact hold
    · rw [hnew]
      intro i e he p hp
      by_cases hi : i < s.receiver.decodedAt.length
      · rw [List.getElem?_append_left hi] at he
        rw [List.take_append_of_le_length hi.le]
        exact hold i e he p hp
      · have hlt := h.lt_of_mem (hplaces ▸ List.mem_append_left _ (List.mem_of_getElem? hp))
        obtain rfl : i = s.receiver.decodedAt.length := by
          have hbound := (List.getElem?_eq_some_iff.mp he).1
          rw [List.length_append, List.length_singleton] at hbound
          omega
        rw [List.take_left]
        omega

/-! ## Requests and pairs of slider 5 -/

/-- The requests are at most the bytes waiting at the start, the first one and one for each
pair of slider 5. -/
def Asked (n : ℕ) (s : Link) : Prop :=
  s.requests.taken.length + s.requests.unread.length +
    (decide (s.receiver.host.pc = .firstSend)).toNat ≤ n + 1 + fives s.receiver.decodedAt

theorem asked_of_host_move {r r' : Receiver} {c : ℕ} {events : List HostEvent}
    (htemp : r.host.tempBuf.length ≤ 1) (m : Receiver.Move r c events r') :
    (events.flatMap HostEvent.written).length + (decide (r'.host.pc = .firstSend)).toNat +
        fives r.decodedAt ≤
      (decide (r.host.pc = .firstSend)).toNat + fives r'.decodedAt := by
  cases m with
  | firstSend hpc =>
    simpa [hpc, HostEvent.written, HostEvent.decoded, List.filterMap_cons, add_comm] using htemp
  | waitForData hpc | receivePair hpc | receiveSkip hpc =>
    simp [hpc, HostEvent.written, HostEvent.decoded, List.filterMap_cons]
  | emptyRead hpc | shortRead hpc | rejectPair _ _ hpc | acceptPair _ _ hpc => simp [hpc]
  | handlePair hpc =>
    rw [Receiver.handleEvents_written, Receiver.decodedAt_emit, Receiver.handleEvents_decoded,
      fives_append]
    split_ifs with hfive
    · simpa [hpc, hfive, fives, add_comm] using htemp
    · simp [hpc, hfive, fives]

theorem asked_start (pending : List UInt8) : Asked pending.length (start pending) := by
  simp [Asked, start, Line.unread, Receiver.start, Host.initial]

theorem asked_of_step {a : LossyAction} (hs : Lossy s) (hasked : Asked n s)
    (h : s.lossyStep a = some t) : Asked n t := by
  unfold Asked at hasked ⊢
  cases a with
  | link a =>
    cases move_of_step h with
    | host m =>
      have hmove := asked_of_host_move hs.tempBuf m
      rw [Line.taken_write, Line.unread_write, List.length_append]
      dsimp only
      omega
    | drain analogRead hpc hsome =>
      have hone : 1 ≤ s.requests.arrived.length := List.length_pos_iff.mpr hsome
      have hle := s.requests.length_arrived_le_unread
      rw [Line.taken_take, Line.unread_take _ hone, List.length_append, List.length_take,
        List.length_drop]
      dsimp only
      omega
    | deliverRequest hl =>
      obtain ⟨htaken, hunread, -⟩ := Line.deliver_spec hl
      rw [htaken, hunread]
      exact hasked
    | spin | wake | drained | frame | deliverReply => exact hasked
  | loseRequest i =>
    cases h
    have hle := (s.requests.unread_lose_sublist i).length_le
    have htaken : (s.requests.lose i).taken = s.requests.taken := rfl
    rw [htaken]
    dsimp only
    omega
  | loseReply i =>
    cases h
    exact hasked

/-! ## All steps -/

theorem traced_of_step {a : LossyAction} (hs : Lossy s) (hasked : Asked n s)
    (h : Traced n s taken unread) (hstep : s.lossyStep a = some t) :
    ∃ taken' unread', Traced n t taken' unread' := by
  cases a with
  | link a =>
    cases move_of_step hstep with
    | host m =>
      have hrounds := hs.serving.sent_le hs.writes
      unfold Asked at hasked
      obtain ⟨hc, hdecoded⟩ := decodedAt_of_move m
      exact ⟨_, _, h.read hs.receiver (by omega) hc rfl m.replies_eq hdecoded⟩
    | spin => exact ⟨taken, unread, h⟩
    | wake | drain | drained | deliverRequest =>
      exact ⟨taken, unread, h.of_same rfl rfl rfl rfl⟩
    | frame analogRead i hpc => exact ⟨_, _, h.send rfl rfl (by simp) rfl⟩
    | deliverReply hl =>
      obtain ⟨htaken, hunread, -⟩ := Line.deliver_spec hl
      exact ⟨taken, unread, h.of_same rfl htaken hunread rfl⟩
  | loseRequest i =>
    cases hstep
    exact ⟨taken, unread, h.of_same rfl rfl rfl rfl⟩
  | loseReply i =>
    cases hstep
    obtain ⟨unread', h'⟩ := h.lose (t := { s with receiver := { s.receiver with
      replies := s.receiver.replies.lose i } }) rfl rfl
        (s.receiver.replies.unread_lose_sublist i) rfl
    exact ⟨taken, unread', h'⟩

theorem traced_of_run {pending : List UInt8} {actions : List LossyAction}
    (h : run lossyStep (start pending) actions = some s) :
    Lossy s ∧ ∃ taken unread, Traced pending.length s taken unread := by
  have hstep : ∀ (u : Link) a v, (Lossy u ∧ Asked pending.length u) ∧
      (∃ taken unread, Traced pending.length u taken unread) → u.lossyStep a = some v →
      (Lossy v ∧ Asked pending.length v) ∧
        ∃ taken unread, Traced pending.length v taken unread := by
    rintro u a v ⟨⟨hlossy, hasked⟩, taken, unread, htraced⟩ huv
    exact ⟨⟨(lossy_of_step hlossy huv).1, asked_of_step hlossy hasked huv⟩,
      traced_of_step hlossy hasked htraced huv⟩
  have hstart : Traced pending.length (start pending) [] [] :=
    ⟨rfl, rfl, List.Pairwise.nil, by simp [start, Receiver.start, Receiver.decodedAt]⟩
  obtain ⟨⟨hlossy, -⟩, htraced⟩ :=
    run_invariant hstep ⟨⟨lossy_start pending, asked_start pending⟩, [], [], hstart⟩ h
  exact ⟨hlossy, htraced⟩

/-! ## Where a pair comes from -/

theorem exists_frame_of_high {fs : List Frame} {p : ℕ} {b1 : UInt8} (h : byteAt fs p = some b1)
    (hhigh : 128 ≤ b1.toNat) : ∃ k g, p = 2 * k + 1 ∧ fs[k]? = some g ∧ b1 = g.byte1 := by
  rcases Nat.even_or_odd' p with ⟨k, rfl | rfl⟩
  · rw [byteAt, frameBytes_even, Option.map_eq_some_iff] at h
    obtain ⟨g, -, rfl⟩ := h
    have hlt := g.byte0_lt
    omega
  · rw [byteAt, frameBytes_odd, Option.map_eq_some_iff] at h
    obtain ⟨g, hg, rfl⟩ := h
    exact ⟨k, g, rfl, hg, rfl⟩

theorem valueOf_mixed (f g : Frame) :
    valueOf f.byte0 g.byte1 = f.value / 64 * 64 + g.value % 64 := by
  have hf := f.value_lt
  rw [valueOf_eq, f.byte0_toNat, g.byte1_toNat]
  omega

theorem Traced.byte (h : Traced n s taken unread) {o : ℕ} {b : UInt8}
    (hb : s.receiver.replies.taken[o]? = some b) :
    ∃ p, taken[o]? = some p ∧ byteAt s.sent p = some b := by
  have hmap := congrArg (fun bs => bs[o]?) h.takenBytes
  simp only [List.getElem?_map, hb, Option.map_some] at hmap
  exact Option.map_eq_some_iff.mp hmap

theorem Traced.lt_of_lt (h : Traced n s taken unread) {o o' p p' : ℕ} (hp : taken[o]? = some p)
    (hp' : taken[o']? = some p') (hlt : o < o') : p < p' := by
  have hpairs := h.increasing.sublist (List.sublist_append_left taken unread)
  obtain ⟨ho, rfl⟩ := List.getElem?_eq_some_iff.mp hp
  obtain ⟨ho', rfl⟩ := List.getElem?_eq_some_iff.mp hp'
  exact List.pairwise_iff_getElem.mp hpairs o o' ho ho' hlt

theorem Traced.frames (h : Traced n s taken unread) (hs : Lossy s) {e : ℕ × ℕ × ℕ}
    (he : e ∈ s.receiver.decodedAt) :
    ∃ j k f g, taken[e.1]? = some (2 * j) ∧ taken[e.1 + 1]? = some (2 * k + 1) ∧
      s.sent[j]? = some f ∧ s.sent[k]? = some g ∧
      e.2 = (f.slider, f.value / 64 * 64 + g.value % 64) := by
  obtain ⟨b0, b1, h0, h1, hacc, hpair⟩ := hs.receiver.entries e he
  obtain ⟨hlow, hhigh⟩ := (rejects_eq_false_iff _ _).mp hacc
  obtain ⟨p, hp, hb0⟩ := h.byte h0
  obtain ⟨q, hq, hb1⟩ := h.byte h1
  obtain ⟨j, f, rfl, hf, rfl⟩ := exists_frame_of_low hb0 hlow
  obtain ⟨k, g, rfl, hg, rfl⟩ := exists_frame_of_high hb1 hhigh
  rw [f.sliderOf_byte0, valueOf_mixed] at hpair
  exact ⟨j, k, f, g, hp, hq, hf, hg, hpair⟩

theorem length_le_of_increasing {ms : List ℕ} (h : ms.Pairwise (· < ·)) {m : ℕ}
    (hlt : ∀ k ∈ ms, k < m) : ms.length ≤ m := by
  have hnodup : ms.Nodup := h.imp ne_of_lt
  have hsub : ms ⊆ List.range m := fun k hk => List.mem_range.mpr (hlt k hk)
  simpa using (List.subperm_of_subset hnodup hsub).length_le

/-- A pair of slider 5 starts in the last frame of a round. -/
theorem Traced.place_of_five (h : Traced n s taken unread) (hs : Lossy s) {e : ℕ × ℕ × ℕ}
    (he : e ∈ s.receiver.decodedAt) (hfive : e.2.1 = 5) :
    ∃ m, taken[e.1]? = some (2 * (6 * m + 5)) ∧ taken.getD e.1 0 / 12 = m := by
  obtain ⟨j, k, f, g, hj, -, hf, -, hpair⟩ := h.frames hs he
  have hslider := hs.serving.slider j f hf
  rw [hpair] at hfive
  refine ⟨j / 6, ?_, ?_⟩
  · rw [hj]
    congr 1
    dsimp only at hfive
    omega
  · rw [List.getD_eq_getElem?_getD, hj, Option.getD_some]
    omega

/-- Each pair of slider 5 that was decoded before a pair ends a round before the round of its
first byte. -/
theorem Traced.fives_le (h : Traced n s taken unread) (hs : Lossy s) {i j : ℕ} {e : ℕ × ℕ × ℕ}
    (he : s.receiver.decodedAt[i]? = some e) (hj : taken[e.1]? = some (2 * j)) :
    fives (s.receiver.decodedAt.take i) ≤ j / 6 := by
  have hordered := hs.receiver.ordered
  have hmem : ∀ e' ∈ (s.receiver.decodedAt.take i).filter fun e' => e'.2.1 = 5,
      e' ∈ s.receiver.decodedAt ∧ e'.2.1 = 5 ∧ e'.1 + 2 ≤ e.1 := by
    intro e' he'
    obtain ⟨htake, hfive⟩ := List.mem_filter.mp he'
    refine ⟨List.mem_of_mem_take htake, of_decide_eq_true hfive, ?_⟩
    obtain ⟨i', hi', rfl⟩ := List.mem_take_iff_getElem.mp htake
    obtain ⟨hi, rfl⟩ := List.getElem?_eq_some_iff.mp he
    exact List.pairwise_iff_getElem.mp hordered i' i _ hi (by omega)
  have hincreasing : (((s.receiver.decodedAt.take i).filter fun e' => e'.2.1 = 5).map
      fun e' => taken.getD e'.1 0 / 12).Pairwise (· < ·) := by
    rw [List.pairwise_map]
    have hsub := (List.filter_sublist (p := fun e' : ℕ × ℕ × ℕ => decide (e'.2.1 = 5))).trans
      (List.take_sublist i s.receiver.decodedAt)
    refine (hordered.sublist hsub).imp_of_mem ?_
    intro e1 e2 he1 he2 hlt
    obtain ⟨hmem1, hfive1, -⟩ := hmem e1 he1
    obtain ⟨hmem2, hfive2, -⟩ := hmem e2 he2
    obtain ⟨m1, hm1, hdiv1⟩ := h.place_of_five hs hmem1 hfive1
    obtain ⟨m2, hm2, hdiv2⟩ := h.place_of_five hs hmem2 hfive2
    have hplaces := h.lt_of_lt hm1 hm2 (by omega)
    rw [hdiv1, hdiv2]
    omega
  have hbelow : ∀ m ∈ ((s.receiver.decodedAt.take i).filter fun e' => e'.2.1 = 5).map
      fun e' => taken.getD e'.1 0 / 12, m < j / 6 := by
    intro m hm
    obtain ⟨e', he', rfl⟩ := List.mem_map.mp hm
    obtain ⟨hmem', hfive', hlt⟩ := hmem e' he'
    obtain ⟨m', hm', hdiv'⟩ := h.place_of_five hs hmem' hfive'
    have hplaces := h.lt_of_lt hm' hj (by omega)
    rw [hdiv']
    omega
  have hlength := length_le_of_increasing hincreasing hbelow
  rwa [List.length_map, ← List.countP_eq_length_filter] at hlength

/-- However many bytes are lost in both directions: the pairs decoded are in the order of the
frames sent and do not overlap, each has the slider and the upper four bits of one frame
and the lower six bits of that frame or a later one, and without bytes waiting for the
device at the start the two frames are of one round; each such byte can put a round
between them. -/
theorem losses_mix_one_round (pending : List UInt8) (actions : List LossyAction) {s : Link}
    (h : run lossyStep (start pending) actions = some s) :
    ∃ first second : ℕ → ℕ, ∀ (i : ℕ) (d : ℕ × ℕ), s.receiver.decoded[i]? = some d →
      (∃ f g, s.sent[first i]? = some f ∧ s.sent[second i]? = some g ∧
        d = (f.slider, f.value / 64 * 64 + g.value % 64)) ∧
      first i ≤ second i ∧ second i / 6 ≤ first i / 6 + pending.length ∧
      ∀ i' < i, second i' < first i := by
  obtain ⟨hs, taken, unread, htraced⟩ := traced_of_run h
  refine ⟨fun i => taken.getD (s.receiver.decodedAt.getD i default).1 0 / 2,
    fun i => taken.getD ((s.receiver.decodedAt.getD i default).1 + 1) 0 / 2, ?_⟩
  have hplaces : ∀ (i : ℕ) (e : ℕ × ℕ × ℕ), s.receiver.decodedAt[i]? = some e → ∃ j k f g,
      taken[e.1]? = some (2 * j) ∧ taken[e.1 + 1]? = some (2 * k + 1) ∧
        s.sent[j]? = some f ∧ s.sent[k]? = some g ∧
        e.2 = (f.slider, f.value / 64 * 64 + g.value % 64) ∧
        taken.getD (s.receiver.decodedAt.getD i default).1 0 / 2 = j ∧
        taken.getD ((s.receiver.decodedAt.getD i default).1 + 1) 0 / 2 = k := by
    intro i e he
    obtain ⟨j, k, f, g, hj, hk, hf, hg, hpair⟩ := htraced.frames hs (List.mem_of_getElem? he)
    refine ⟨j, k, f, g, hj, hk, hf, hg, hpair, ?_, ?_⟩
    · simp only [List.getD_eq_getElem?_getD, he, Option.getD_some, hj]
      omega
    · simp only [List.getD_eq_getElem?_getD, he, Option.getD_some, hk]
      omega
  intro i d hd
  rw [Receiver.decoded, List.getElem?_map, Option.map_eq_some_iff] at hd
  obtain ⟨e, he, rfl⟩ := hd
  obtain ⟨j, k, f, g, hj, hk, hf, hg, hpair, hfirst, hsecond⟩ := hplaces i e he
  have hle := htraced.lt_of_lt hj hk (by omega)
  have hmixed := htraced.mixed i e he _ hk
  have hfives := htraced.fives_le hs he hj
  dsimp only
  rw [hfirst, hsecond]
  refine ⟨⟨f, g, hf, hg, hpair⟩, by omega, by omega, ?_⟩
  intro i' hi'
  obtain ⟨hi, rfl⟩ := List.getElem?_eq_some_iff.mp he
  obtain ⟨j', k', f', g', hj', hk', -, -, -, -, hsecond'⟩ :=
    hplaces i' _ (List.getElem?_eq_getElem (hi'.trans hi))
  have horder := List.pairwise_iff_getElem.mp hs.receiver.ordered i' i (hi'.trans hi) hi hi'
  have hlt := htraced.lt_of_lt hk' hj (by omega)
  rw [hsecond']
  omega

/-- The second byte of the first frame and the first byte of the second one are lost. -/
def joinedFrames : List LossyAction :=
  [.link (.host 0), .link .deliverRequest, .link (.device lowest), .link (.device lowest),
    .link (.device lowest), .link (.device lowest), .link (.device fun _ => Fin.last 1023),
    .loseReply 1, .loseReply 1, .link .deliverReply, .link .deliverReply, .link (.host 0),
    .link (.host 2), .link (.host 0), .link (.host 0)]

/-- The values 1023 and 0 were measured. -/
theorem losses_mix_one_round_joinedFrames :
    ∃ s, run lossyStep (start []) joinedFrames = some s ∧ s.receiver.decoded = [(0, 960)] ∧
      ∃ first second : ℕ → ℕ, (∃ f g, s.sent[first 0]? = some f ∧ s.sent[second 0]? = some g ∧
          (0, 960) = (f.slider, f.value / 64 * 64 + g.value % 64)) ∧
        first 0 ≤ second 0 ∧ second 0 / 6 ≤ first 0 / 6 := by
  have hrun : (run lossyStep (start []) joinedFrames).any
      (fun s => decide (s.receiver.decoded = [(0, 960)])) = true := by decide +kernel
  simp only [Option.any_eq_true, decide_eq_true_eq] at hrun
  obtain ⟨s, hs, hdecoded⟩ := hrun
  obtain ⟨first, second, hplaces⟩ := losses_mix_one_round [] joinedFrames hs
  obtain ⟨hframes, hle, hround, -⟩ := hplaces 0 (0, 960) (by rw [hdecoded]; rfl)
  exact ⟨s, hs, hdecoded, first, second, hframes, hle, hround⟩

end AudioCtrl.Serial.Link
