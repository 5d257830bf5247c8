import AudioCtrl.Serial.FlowControl

/-!
# Reads that lose nothing, and the values that reach the volume

A `ReadFile` that returns a single byte is the only one that loses a frame. Runs
without such reads decode every frame they read, and the values of slider 0 that
the host passes to `setMainVolume` are those that the device measured, with at most
the last one missing. In every run, cut reads or not, the value is the newest one
at the moment it is passed on.
-/

namespace AudioCtrl.Serial

open PartialRun

def mainValues (ds : List (ℕ × ℕ)) : List ℕ := (ds.filter fun d => d.1 = 0).map Prod.snd

@[simp] theorem mainValues_append (ds es : List (ℕ × ℕ)) :
    mainValues (ds ++ es) = mainValues ds ++ mainValues es := by
  rw [mainValues, List.filter_append, List.map_append]
  rfl

@[simp] theorem mainValues_singleton (d : ℕ × ℕ) :
    mainValues [d] = if d.1 = 0 then [d.2] else [] := by
  by_cases h : d.1 = 0 <;> simp [mainValues, h]

theorem mainValues_sublist {ds es : List (ℕ × ℕ)} (h : ds.Sublist es) :
    (mainValues ds).Sublist (mainValues es) :=
  (h.filter _).map _

theorem mainValues_eq_nil {ds : List (ℕ × ℕ)} (h : ∀ d ∈ ds, d.1 ≠ 0) : mainValues ds = [] := by
  rw [mainValues, List.filter_eq_nil_iff.mpr fun d hd => by simpa using h d hd, List.map_nil]

theorem length_mainValues {fs : List Frame} (h : ∀ j f, fs[j]? = some f → f.slider = j % 6) :
    (mainValues (fs.map Frame.pair)).length = (fs.length + 5) / 6 := by
  induction fs using List.reverseRecOn with
  | nil => rfl
  | append_singleton fs f ih =>
    have hfs : ∀ j g, fs[j]? = some g → g.slider = j % 6 := fun j g hg =>
      h j g (by rwa [List.getElem?_append_left (List.getElem?_eq_some_iff.mp hg).1])
    have hf : f.slider = fs.length % 6 := h fs.length f (by simp)
    rw [List.map_append, mainValues_append, List.length_append, ih hfs, List.length_append]
    simp only [List.map_singleton, mainValues_singleton, Frame.pair, hf, List.length_singleton]
    split_ifs <;> simp <;> omega

namespace HostEvent

def volume : HostEvent → Option ℕ
  | setMainVolume value => some value
  | _ => none

end HostEvent

namespace Receiver

def volumes (r : Receiver) : List ℕ := r.trace.filterMap fun p => p.2.volume

/-- The pair that has been read and will be decoded before the next read. -/
def inHand (r : Receiver) : Option (ℕ × ℕ) :=
  match r.host.pc with
  | .checkPair =>
    match r.host.buffer with
    | [b0, b1] => if rejects b0 b1 then none else some (sliderOf b0, valueOf b0 b1)
    | _ => none
  | .handlePair => some (r.host.slider, r.host.value)
  | _ => none

@[simp] theorem volumes_emit (r : Receiver) (host : Host) (events : List HostEvent) :
    (r.emit host events).volumes = r.volumes ++ events.filterMap HostEvent.volume := by
  simp only [volumes, emit, List.filterMap_append, List.filterMap_map]
  rfl

@[simp] theorem volumes_with_replies (r : Receiver) (line : Line UInt8) :
    volumes { r with replies := line } = r.volumes := rfl

@[simp] theorem decoded_emit (r : Receiver) (host : Host) (events : List HostEvent) :
    (r.emit host events).decoded = r.decoded ++ events.filterMap HostEvent.decoded := by
  simp [decoded]

@[simp] theorem decoded_with_replies (r : Receiver) (line : Line UInt8) :
    decoded { r with replies := line } = r.decoded := rfl

@[simp] theorem handleEvents_volume (h : Host) :
    h.handleEvents.filterMap HostEvent.volume = mainValues [(h.slider, h.value)] := by
  rw [mainValues_singleton]
  unfold Host.handleEvents
  split_ifs <;> rfl

theorem volumes_eq_of_move {r t : Receiver} {n : ℕ} {events : List HostEvent}
    (hr : r.volumes = mainValues r.decoded) (m : Move r n events t) :
    t.volumes = mainValues t.decoded := by
  cases m with
  | handlePair hpc =>
    rw [volumes_emit, decoded_emit, handleEvents_volume, handleEvents_decoded, mainValues_append,
      hr]
  | firstSend | waitForData | receivePair | emptyRead | shortRead | rejectPair | acceptPair
  | receiveSkip =>
    simpa [List.filterMap_cons, HostEvent.volume, HostEvent.decoded, mainValues] using hr

/-- A skip leaves as many bytes in `tempBuf` as it gets, and it asks for no more than it has. -/
theorem length_tempBuf_le {r t : Receiver} {n : ℕ} {events : List HostEvent}
    (hr : r.host.tempBuf.length ≤ 1) (m : Move r n events t) : t.host.tempBuf.length ≤ 1 := by
  cases m with
  | receiveSkip hpc hn harr =>
    simp only [emit_host, List.length_take]
    omega
  | firstSend | waitForData | receivePair | emptyRead | shortRead | rejectPair | acceptPair
  | handlePair => exact hr

end Receiver

namespace Link

def measured (s : Link) : List ℕ := mainValues (s.sent.map Frame.pair)

def Action.NoSingleByte : Action → Prop
  | .host n => n ≠ 1
  | .device _ | .deliverRequest | .deliverReply => True

instance : ∀ a : Action, Decidable a.NoSingleByte
  | .host _ => inferInstanceAs (Decidable (_ ≠ _))
  | .device _ | .deliverRequest | .deliverReply => isTrue trivial

/-- Each frame that has been read is decoded or in hand, and none is read in part. -/
structure Lossless (s : Link) : Prop where
  whole : 2 ∣ s.receiver.replies.taken.length
  decoded : s.receiver.decoded ++ s.receiver.inHand.toList =
    (s.sent.take (s.receiver.replies.taken.length / 2)).map Frame.pair

/-- What both results need of every state: the replies are sound, a skip asks for at
most one byte, and what is passed on was decoded. -/
structure Steady (s : Link) : Prop where
  sound : s.Sound
  tempBuf : s.receiver.host.tempBuf.length ≤ 1
  volumes : s.receiver.volumes = mainValues s.receiver.decoded

theorem steady_start (pending : List UInt8) : Steady (start pending) :=
  ⟨sound_start pending, le_refl 1, rfl⟩

theorem steady_of_move {s t : Link} {a : Action} (hs : Steady s) (m : Move s a t) : Steady t := by
  have hsound := sound_of_move hs.sound m
  cases m with
  | host m =>
    exact ⟨hsound, Receiver.length_tempBuf_le hs.tempBuf m,
      Receiver.volumes_eq_of_move hs.volumes m⟩
  | spin | wake | drain | drained | frame | deliverRequest | deliverReply =>
    exact ⟨hsound, hs.tempBuf, hs.volumes⟩

theorem steady_of_run {pending : List UInt8} {actions : List Action} {s : Link}
    (h : run step (start pending) actions = some s) : Steady s :=
  run_invariant (fun _ _ _ hinv hstep => steady_of_move hinv (move_of_step hstep))
    (steady_start pending) h

/-! ## Which reads lose a frame -/

theorem lossless_start (pending : List UInt8) : Lossless (start pending) :=
  ⟨dvd_zero 2, by simp [start, Receiver.start, Receiver.decoded, Receiver.decodedAt,
    Receiver.inHand, Host.initial]⟩

theorem Sound.half_taken_le {s : Link} (hs : Sound s) :
    s.receiver.replies.taken.length / 2 ≤ s.sent.length := by
  have hlen := hs.length_sent
  omega

theorem Lossless.of_same {s t : Link} (hl : Lossless s) (hs : Sound s)
    (htaken : t.receiver.replies.taken = s.receiver.replies.taken)
    (hdec : t.receiver.decoded ++ t.receiver.inHand.toList =
      s.receiver.decoded ++ s.receiver.inHand.toList) (hsent : s.sent <+: t.sent) :
    Lossless t := by
  obtain ⟨more, hmore⟩ := hsent
  refine ⟨htaken ▸ hl.whole, ?_⟩
  rw [hdec, hl.decoded, htaken, ← hmore, List.take_append_of_le_length hs.half_taken_le]

theorem Lossless.next_frame {s : Link} (hl : Lossless s) (hs : Sound s) {b0 b1 : UInt8}
    {rest : List UInt8} (harr : s.receiver.replies.arrived = b0 :: b1 :: rest) :
    ∃ f, s.sent[s.receiver.replies.taken.length / 2]? = some f ∧ b0 = f.byte0 ∧
      b1 = f.byte1 := by
  have hwhole := Nat.mul_div_cancel' hl.whole
  have h0 := s.receiver.replies.getElem?_history_of_arrived (i := 0) (x := b0) (by simp [harr])
  have h1 := s.receiver.replies.getElem?_history_of_arrived (i := 1) (x := b1) (by simp [harr])
  rw [hs.history, Nat.add_zero, ← hwhole, frameBytes_even, Option.map_eq_some_iff] at h0
  rw [hs.history, ← hwhole, frameBytes_odd, Option.map_eq_some_iff] at h1
  obtain ⟨f, hf, rfl⟩ := h0
  obtain ⟨g, hg, rfl⟩ := h1
  obtain rfl : f = g := Option.some.inj (hf.symm.trans hg)
  exact ⟨f, hf, rfl, rfl⟩

theorem Lossless.of_pair {s t : Link} (hl : Lossless s) (hs : Sound s) {b0 b1 : UInt8}
    {rest : List UInt8} (harr : s.receiver.replies.arrived = b0 :: b1 :: rest)
    (htaken : t.receiver.replies.taken = s.receiver.replies.taken ++ [b0, b1])
    (hold : s.receiver.inHand = none) (hdec : t.receiver.decoded = s.receiver.decoded)
    (hpc : t.receiver.host.pc = .checkPair) (hbuf : t.receiver.host.buffer = [b0, b1])
    (hsent : t.sent = s.sent) : Lossless t := by
  obtain ⟨f, hf, rfl, rfl⟩ := hl.next_frame hs harr
  have hlen : t.receiver.replies.taken.length = s.receiver.replies.taken.length + 2 := by
    simp [htaken]
  have hwhole := hl.whole
  have hhalf : t.receiver.replies.taken.length / 2 = s.receiver.replies.taken.length / 2 + 1 := by
    omega
  have hnew : t.receiver.inHand = some f.pair := by
    simp [Receiver.inHand, hpc, hbuf, f.accepted, Frame.pair]
  have hdecoded := hl.decoded
  rw [hold, Option.toList_none, List.append_nil] at hdecoded
  refine ⟨by omega, ?_⟩
  rw [hdec, hnew, hdecoded, hhalf, hsent, List.take_add_one, hf, List.map_append]
  rfl

theorem Lossless.not_of_one {s t : Link} (hl : Lossless s)
    (hlen : t.receiver.replies.taken.length = s.receiver.replies.taken.length + 1) :
    ¬ Lossless t := by
  intro ht
  have hs := hl.whole
  have ht := ht.whole
  omega

theorem lossless_host_move_iff {s : Link} (hs : Steady s) (hl : Lossless s) {r : Receiver} {n : ℕ}
    {events : List HostEvent} (m : Receiver.Move s.receiver n events r) :
    Lossless { s with
      receiver := r, requests := s.requests.write (events.flatMap HostEvent.written) } ↔
        n ≠ 1 := by
  cases m with
  | firstSend hpc | waitForData hpc =>
    apply iff_of_true _ (by simp)
    exact hl.of_same hs.sound rfl (by simp [Receiver.inHand, hpc, HostEvent.decoded])
      List.prefix_rfl
  | emptyRead hpc hbuf =>
    apply iff_of_true _ (by simp)
    exact hl.of_same hs.sound rfl (by simp [Receiver.inHand, hpc, hbuf]) List.prefix_rfl
  | shortRead hpc hbuf hlen =>
    apply iff_of_true _ (by simp)
    have hnone : s.receiver.inHand = none := by
      unfold Receiver.inHand
      rw [hpc]
      rcases hb : s.receiver.host.buffer with _ | ⟨b0, _ | ⟨b1, _ | ⟨b2, rest⟩⟩⟩
      all_goals first | rfl | simp [hb] at hlen
    exact hl.of_same hs.sound rfl (by rw [hnone]; simp [Receiver.inHand]) List.prefix_rfl
  | rejectPair b0 b1 hpc hbuf hrej =>
    apply iff_of_true _ (by simp)
    exact hl.of_same hs.sound rfl (by simp [Receiver.inHand, hpc, hbuf, hrej]) List.prefix_rfl
  | acceptPair b0 b1 hpc hbuf hacc =>
    apply iff_of_true _ (by simp)
    exact hl.of_same hs.sound rfl
      (by simp [Receiver.inHand, hpc, hbuf, hacc, Host.slider, Host.value]) List.prefix_rfl
  | handlePair hpc =>
    apply iff_of_true _ (by simp)
    exact hl.of_same hs.sound rfl (by simp [Receiver.inHand, hpc]) List.prefix_rfl
  | receivePair hpc hn harr =>
    have hnone : s.receiver.inHand = none := by simp [Receiver.inHand, hpc]
    have hcases : n = 0 ∨ n = 1 ∨ n = 2 := by omega
    rcases hcases with rfl | rfl | rfl
    · apply iff_of_true _ (by simp)
      exact hl.of_same hs.sound (by simp)
        (by rw [hnone]; simp [Receiver.inHand, HostEvent.decoded]) List.prefix_rfl
    · apply iff_of_false _ (fun h => h rfl)
      exact hl.not_of_one (by simp [harr])
    · apply iff_of_true _ (by simp)
      rcases hbs : s.receiver.replies.arrived with _ | ⟨b0, _ | ⟨b1, rest⟩⟩
      · simp [hbs] at harr
      · simp [hbs] at harr
      · exact hl.of_pair hs.sound hbs (by simp [hbs]) hnone (by simp [HostEvent.decoded]) rfl
          (by simp) rfl
  | receiveSkip hpc hn harr =>
    have hnone : s.receiver.inHand = none := by simp [Receiver.inHand, hpc]
    have htemp := hs.tempBuf
    have hcases : n = 0 ∨ n = 1 := by omega
    rcases hcases with rfl | rfl
    · apply iff_of_true _ (by simp)
      exact hl.of_same hs.sound (by simp)
        (by rw [hnone]; simp [Receiver.inHand, HostEvent.decoded]) List.prefix_rfl
    · apply iff_of_false _ (fun h => h rfl)
      exact hl.not_of_one (by simp [harr])

/-- Among all steps only the read of a single byte loses part of a frame. -/
theorem lossless_step_iff {s t : Link} {a : Action} (hs : Steady s) (hl : Lossless s)
    (h : s.step a = some t) : Lossless t ↔ a.NoSingleByte := by
  cases move_of_step h with
  | host m => exact lossless_host_move_iff hs hl m
  | spin | wake | drain | drained | deliverRequest =>
    exact iff_of_true (hl.of_same hs.sound rfl rfl List.prefix_rfl) trivial
  | frame analogRead i hpc =>
    exact iff_of_true (hl.of_same hs.sound rfl rfl (List.prefix_append _ _)) trivial
  | deliverReply hl' =>
    obtain ⟨htaken, -, -⟩ := Line.deliver_spec hl'
    exact iff_of_true (hl.of_same hs.sound htaken rfl List.prefix_rfl) trivial

theorem lossless_of_run {pending : List UInt8} {actions : List Action} {s : Link}
    (h : run step (start pending) actions = some s)
    (hm : Meets step (fun _ a => a.NoSingleByte) (start pending) actions) : Lossless s := by
  have hstep : ∀ (s : Link) a t, Steady s ∧ Lossless s → a.NoSingleByte →
      s.step a = some t → Steady t ∧ Lossless t := by
    rintro s a t ⟨hs, hl⟩ ha hst
    exact ⟨steady_of_move hs (move_of_step hst), (lossless_step_iff hs hl hst).mpr ha⟩
  exact (run_invariant_of_meets hstep ⟨steady_start pending, lossless_start pending⟩ hm h).2

/-- How far the device can be ahead of the host that has read `k` frames. -/
theorem Flow.sent_le {s : Link} (hs : Flow s) {k : ℕ}
    (hk : s.receiver.replies.taken.length = 2 * k) :
    s.sent.length ≤ k + 6 ∧ (k % 6 = 1 → s.sent.length ≤ k + 5) := by
  have hlen := hs.sound.length_sent
  have hwindow := hs.window
  have hplace := hs.place
  refine ⟨by omega, ?_⟩
  intro hmod
  cases hbusy : s.device.busy with
  | true =>
    have := hs.busyWindow hbusy
    omega
  | false =>
    rw [Device.frameIndex_of_not_busy hbusy] at hplace
    omega

theorem Flow.length_mainValues_take {s : Link} (hs : Flow s) {n : ℕ} (hn : n ≤ s.sent.length) :
    (mainValues ((s.sent.take n).map Frame.pair)).length = (n + 5) / 6 := by
  have hsliders : ∀ j f, (s.sent.take n)[j]? = some f → f.slider = j % 6 := by
    intro j f hf
    have hlt := (List.getElem?_eq_some_iff.mp hf).1
    rw [List.length_take] at hlt
    rw [List.getElem?_take_of_lt (by omega)] at hf
    exact hs.slider j f hf
  rw [length_mainValues hsliders, List.length_take, Nat.min_eq_left hn]

theorem Lossless.inHand_slider {s : Link} (hl : Lossless s) (hs : Sound s)
    (hsliders : ∀ j f, s.sent[j]? = some f → f.slider = j % 6) {d : ℕ × ℕ}
    (hd : s.receiver.inHand = some d) :
    s.receiver.decoded.length + 1 = s.receiver.replies.taken.length / 2 ∧
      d.1 = s.receiver.decoded.length % 6 := by
  have hdecoded := hl.decoded
  rw [hd, Option.toList_some] at hdecoded
  have hlen := congrArg List.length hdecoded
  rw [List.length_append, List.length_singleton, List.length_map, List.length_take,
    Nat.min_eq_left hs.half_taken_le] at hlen
  have hlast := congrArg (fun ds => ds[s.receiver.decoded.length]?) hdecoded
  simp only [List.getElem?_append_right (le_refl _), Nat.sub_self, List.getElem?_cons_zero,
    List.getElem?_map] at hlast
  obtain ⟨f, hf, hpair⟩ := Option.map_eq_some_iff.mp hlast.symm
  rw [List.getElem?_take_of_lt (by omega)] at hf
  refine ⟨hlen, ?_⟩
  rw [← hpair]
  exact hsliders _ f hf

/-- Where no frame is lost, the values passed on are the first of those measured. -/
theorem Lossless.volumes_first {s : Link} (hl : Lossless s) (hs : Steady s) (hflow : Flow s) :
    s.receiver.volumes <+: s.measured ∧ s.measured.length ≤ s.receiver.volumes.length + 1 := by
  have hdecoded := hl.decoded
  generalize hk : s.receiver.replies.taken.length / 2 = k at hdecoded
  have htaken : s.receiver.replies.taken.length = 2 * k := by
    have := hl.whole
    omega
  have hkle : k ≤ s.sent.length := hk ▸ hs.sound.half_taken_le
  obtain ⟨hsix, hfive⟩ := hflow.sent_le htaken
  have hread := hflow.length_mainValues_take hkle
  have hall := hflow.length_mainValues_take (le_refl s.sent.length)
  rw [List.take_length] at hall
  have hsplit : s.measured = s.receiver.volumes ++ mainValues s.receiver.inHand.toList ++
      mainValues ((s.sent.drop k).map Frame.pair) := by
    rw [hs.volumes, ← mainValues_append, hdecoded, ← mainValues_append, ← List.map_append,
      List.take_append_drop]
    rfl
  refine ⟨⟨_, (List.append_assoc _ _ _).symm.trans hsplit.symm⟩, ?_⟩
  rw [← hdecoded, mainValues_append, List.length_append, ← hs.volumes] at hread
  change s.measured.length = _ at hall
  cases hd : s.receiver.inHand with
  | none =>
    rw [hd, Option.toList_none] at hread
    change _ + 0 = _ at hread
    omega
  | some d =>
    obtain ⟨hpos, hslider⟩ := hl.inHand_slider hflow.sound hflow.slider hd
    rw [hd, Option.toList_some, mainValues_singleton] at hread
    split_ifs at hread with hzero
    · simp only [List.length_singleton] at hread
      omega
    · simp only [List.length_nil] at hread
      omega

/-- A host that has read all and waits has passed on all values measured. -/
theorem Lossless.volumes_eq {s : Link} (hl : Lossless s) (hs : Steady s)
    (hwaits : s.receiver.host.pc = .waitForData) (hread : s.receiver.replies.unread = []) :
    s.receiver.volumes = s.measured := by
  have hdecoded := hl.decoded
  have hnone : s.receiver.inHand = none := by simp [Receiver.inHand, hwaits]
  have htaken : s.receiver.replies.taken = frameBytes s.sent := by
    have hhistory := hs.sound.history
    rwa [Line.history_eq, hread, List.append_nil] at hhistory
  rw [hnone, Option.toList_none, List.append_nil, htaken, length_frameBytes,
    Nat.mul_div_cancel_left _ Nat.two_pos, List.take_length] at hdecoded
  rw [hs.volumes, hdecoded, measured]

/-- In a run without reads of a single byte, the values passed to `setMainVolume` are the
values measured on slider 0, in order and without a gap, and at most the last one is
still to come. -/
theorem volumes_prefix_measured (actions : List Action) {s : Link}
    (h : run step (start []) actions = some s)
    (hm : Meets step (fun _ a => a.NoSingleByte) (start []) actions) :
    s.receiver.volumes <+: s.measured ∧ s.measured.length ≤ s.receiver.volumes.length + 1 :=
  (lossless_of_run h hm).volumes_first (steady_of_run h) (flow_of_run h)

theorem volumes_prefix_measured_firstFrame :
    ∃ s, run step (start []) firstFrame = some s ∧ s.receiver.volumes <+: s.measured ∧
      s.measured.length ≤ s.receiver.volumes.length + 1 ∧ s.receiver.volumes = [1000] :=
  ⟨_, rfl, (volumes_prefix_measured firstFrame rfl (by decide)).1,
    (volumes_prefix_measured firstFrame rfl (by decide)).2, by decide⟩

/-- In every run the values passed on are among those measured, in order, and below 1024. -/
theorem Steady.volumes_sublist {s : Link} (hs : Steady s) :
    s.receiver.volumes.Sublist s.measured ∧ ∀ v ∈ s.receiver.volumes, v ≤ 1023 := by
  have hsublist : s.receiver.volumes.Sublist s.measured := by
    rw [hs.volumes]
    apply mainValues_sublist
    simpa [Receiver.decoded] using sublist_of_places hs.sound.receiver.ordered
      (fun e he => hs.sound.exists_frame he) 0 fun e _ => Nat.zero_le _
  refine ⟨hsublist, ?_⟩
  intro v hv
  obtain ⟨d, hd, rfl⟩ := List.mem_map.mp (hsublist.subset hv)
  obtain ⟨f, -, rfl⟩ := List.mem_map.mp (List.mem_filter.mp hd).1
  exact Nat.le_of_lt_succ f.value_lt

theorem volumes_of_step {s t : Link} {n : ℕ} (h : s.step (.host n) = some t) :
    t.receiver.volumes =
      s.receiver.volumes ++ (s.receiver.outputs n).filterMap HostEvent.volume := by
  obtain ⟨r, hr, rfl⟩ := Option.map_eq_some_iff.mp h
  obtain ⟨-, hr⟩ := Option.ite_none_right_eq_some.mp hr
  cases hr
  rw [Receiver.volumes_emit, Receiver.volumes_with_replies]

theorem Flow.getLast?_measured {s : Link} (hs : Flow s) {j : ℕ} {f : Frame}
    (hf : s.sent[j]? = some f) (hzero : f.slider = 0)
    (htaken : s.receiver.replies.taken.length = 2 * (j + 1)) :
    s.measured.getLast? = some f.value := by
  have hj : j % 6 = 0 := (hs.slider j f hf).symm.trans hzero
  have hle := (hs.sent_le htaken).2 (by omega)
  obtain ⟨hlt, rfl⟩ := List.getElem?_eq_some_iff.mp hf
  have hlater : mainValues ((s.sent.drop (j + 1)).map Frame.pair) = [] := by
    apply mainValues_eq_nil
    intro d hd
    obtain ⟨g, hg, rfl⟩ := List.mem_map.mp hd
    obtain ⟨i, hi⟩ := List.mem_iff_getElem?.mp hg
    have hlt := (List.getElem?_eq_some_iff.mp hi).1
    rw [List.length_drop] at hlt
    rw [List.getElem?_drop] at hi
    change g.slider ≠ 0
    rw [hs.slider _ g hi]
    omega
  have hsent : s.sent = s.sent.take j ++ ([s.sent[j]] ++ s.sent.drop (j + 1)) := by
    rw [List.singleton_append, ← List.drop_eq_getElem_cons hlt, List.take_append_drop]
  have hsplit : s.measured = mainValues ((s.sent.take j).map Frame.pair) ++ [s.sent[j].value] := by
    have hmeasured := congrArg (fun fs => mainValues (List.map Frame.pair fs)) hsent
    change s.measured = _ at hmeasured
    simpa only [List.map_append, mainValues_append, hlater, List.append_nil, List.map_singleton,
      mainValues_singleton, Frame.pair, hzero, if_true] using hmeasured
  rw [hsplit, List.getLast?_concat]

/-- When a step passes a value to `setMainVolume`, the device has sent no newer value of
slider 0, whatever the reads before were. -/
theorem volume_is_newest (actions : List Action) {s t : Link} {a : Action}
    (h : run step (start []) actions = some s) (ht : s.step a = some t) :
    t.receiver.volumes = s.receiver.volumes ∨
      ∃ v, t.receiver.volumes = s.receiver.volumes ++ [v] ∧ t.measured.getLast? = some v := by
  have hsound := (flow_of_run h).sound.receiver
  have hflow := flow_of_move (flow_of_run h) (move_of_step ht)
  cases move_of_step ht with
  | host m =>
    cases m with
    | handlePair hpc =>
      rw [Receiver.volumes_emit, Receiver.handleEvents_volume, mainValues_singleton]
      by_cases hzero : s.receiver.host.slider = 0
      · right
        rw [if_pos hzero]
        refine ⟨_, rfl, ?_⟩
        obtain ⟨b0, b1, hbuf, -⟩ := hsound.accepted hpc
        have htwo := (hsound.buffer_suffix (.inr hpc)).length_le
        rw [hbuf] at htwo
        have hentry : (s.receiver.replies.taken.length - 2, s.receiver.host.slider,
            s.receiver.host.value) ∈ (s.receiver.emit { s.receiver.host with pc := .receivePair }
              s.receiver.host.handleEvents).decodedAt := by
          rw [Receiver.decodedAt_emit, Receiver.handleEvents_decoded]
          exact List.mem_append_right _ (List.mem_singleton.mpr rfl)
        obtain ⟨j, f, hplace, hf⟩ := hflow.sound.exists_frame hentry
        obtain ⟨hj, hpair⟩ := Prod.ext_iff.mp hplace
        obtain ⟨hslider, hvalue⟩ := Prod.ext_iff.mp hpair
        change s.receiver.host.value = f.value at hvalue
        rw [hvalue]
        apply hflow.getLast?_measured hf (hslider.symm.trans hzero)
        change s.receiver.replies.taken.length = _
        change s.receiver.replies.taken.length - 2 = _ at hj
        simp only [List.length_cons, List.length_nil] at htwo
        omega
      · left
        rw [if_neg hzero, List.append_nil]
    | firstSend | waitForData | receivePair | emptyRead | shortRead | rejectPair | acceptPair
    | receiveSkip => exact .inl (by simp [List.filterMap_cons, HostEvent.volume])
  | spin | wake | drain | drained | frame | deliverRequest | deliverReply => exact .inl rfl

theorem volume_is_newest_firstFrame :
    ∃ s t, run step (start []) firstFrame.dropLast = some s ∧ s.step (.host 0) = some t ∧
      (t.receiver.volumes = s.receiver.volumes ∨
        ∃ v, t.receiver.volumes = s.receiver.volumes ++ [v] ∧ t.measured.getLast? = some v) ∧
      t.receiver.volumes = [1000] := by
  have h : (run step (start []) firstFrame.dropLast).any (fun s =>
      (s.step (.host 0)).any fun t => decide (t.receiver.volumes = [1000])) = true := by decide
  simp only [Option.any_eq_true, decide_eq_true_eq] at h
  obtain ⟨s, hs, t, ht, hvolumes⟩ := h
  exact ⟨s, t, hs, ht, volume_is_newest _ hs ht, hvolumes⟩

end Link
end AudioCtrl.Serial
