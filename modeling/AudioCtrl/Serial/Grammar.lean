import AudioCtrl.Serial.ReadSplits

/-!
# Which pairs the loop accepts

A pair is a frame if the device writes it for some slider and value. The loop
tests the top bits only, so it also accepts pairs with a slider index of 6 or 7
and pairs whose second byte has the bit below the top bit set. A stream without
such a pair is decoded by the frame grammar, however it is split into reads, and
no other stream is.
-/

namespace AudioCtrl.Serial

/-- The two bytes are those the device writes for some slider and value. -/
def IsFrame (b0 b1 : UInt8) : Prop := ∃ f : Frame, f.bytes = [b0, b1]

theorem isFrame_iff (b0 b1 : UInt8) :
    IsFrame b0 b1 ↔ b0.toNat < 0x60 ∧ 0x80 ≤ b1.toNat ∧ b1.toNat < 0xC0 := by
  constructor
  · rintro ⟨f, hf⟩
    have hs := f.slider_lt
    have hv := f.value_lt
    have h0 := f.byte0_toNat
    have h1 := f.byte1_toNat
    obtain ⟨rfl, rfl⟩ : f.byte0 = b0 ∧ f.byte1 = b1 := by simpa [Frame.bytes] using hf
    omega
  · rintro ⟨h0, h1, h2⟩
    have hslider : b0.toNat / 16 < 6 := by omega
    have hvalue : b0.toNat % 16 * 64 + b1.toNat % 64 < 1024 := by omega
    refine ⟨⟨_, _, hslider, hvalue⟩, ?_⟩
    have hbyte0 : Frame.byte0 ⟨_, _, hslider, hvalue⟩ = b0 := by
      apply UInt8.toNat_inj.mp
      rw [Frame.byte0_toNat]
      dsimp only
      omega
    have hbyte1 : Frame.byte1 ⟨_, _, hslider, hvalue⟩ = b1 := by
      apply UInt8.toNat_inj.mp
      rw [Frame.byte1_toNat]
      dsimp only
      omega
    rw [Frame.bytes, hbyte0, hbyte1]

theorem decode_bytes {f : Frame} {b0 b1 : UInt8} (h : f.bytes = [b0, b1]) :
    (sliderOf b0, valueOf b0 b1) = f.pair := by
  obtain ⟨rfl, rfl⟩ : f.byte0 = b0 ∧ f.byte1 = b1 := by simpa [Frame.bytes] using h
  rw [f.sliderOf_byte0, f.valueOf_bytes]
  rfl

namespace HostEvent

/-- Everything the host does but read and wait. -/
def isOutput : HostEvent → Bool
  | waitCommEvent | readPair .. | readSkip .. => false
  | writeFile _ | coutEndl | coutTab | coutSlider .. | setMainVolume _ => true

end HostEvent

namespace Receiver

open PartialRun

def pairAt (r : Receiver) (place : ℕ) : List UInt8 := (r.replies.taken.drop place).take 2

def acceptedBytes (r : Receiver) : List UInt8 := r.decodedAt.flatMap fun e => r.pairAt e.1

/-- The loop has followed the grammar: re-encoding what it decoded gives the bytes it
decoded from, what it handles now is a frame, and all it has printed, set and sent
since its first request it did right after a frame. -/
structure FollowsGrammar (r : Receiver) : Prop where
  frames : ∃ fs : List Frame, r.decoded = fs.map Frame.pair ∧ r.acceptedBytes = frameBytes fs
  handled : r.host.pc = .handlePair → ∃ f : Frame, r.host.buffer = f.bytes
  outputs : ∀ p ∈ r.trace, p.2.isOutput = true →
    p = (0, .writeFile [0]) ∨ ∃ f : Frame, r.pairAt (p.1 - 2) = f.bytes

/-! ## Every output belongs to a decoded pair -/

structure Attributed (r : Receiver) : Prop where
  first : r.host.pc = .firstSend → r.host.tempBuf = [0] ∧ r.replies.taken = []
  outputs : ∀ p ∈ r.trace, p.2.isOutput = true →
    p = (0, .writeFile [0]) ∨ ∃ e ∈ r.decodedAt, p.1 - 2 = e.1

theorem attributed_start (stream : List UInt8) : Attributed (start stream) := by
  constructor <;> simp [start, Host.initial, Line.holding]

theorem Attributed.emit {r : Receiver} (hr : Attributed r) (line : Line UInt8) {host : Host}
    {events : List HostEvent} (hpc : host.pc ≠ .firstSend)
    (hnew : ∀ e ∈ events, e.isOutput = true →
      (line.taken.length, e) = (0, .writeFile [0]) ∨
        events.filterMap HostEvent.decoded ≠ []) :
    Attributed (Receiver.emit { r with replies := line } host events) where
  first h := absurd h hpc
  outputs := by
    intro p hp hout
    rw [decodedAt_emit]
    simp only [Receiver.emit, List.mem_append, List.mem_map] at hp
    rcases hp with hp | ⟨e, he, rfl⟩
    · rcases hr.outputs p hp hout with hfirst | ⟨e, he, hplace⟩
      · exact .inl hfirst
      · exact .inr ⟨e, List.mem_append_left _ he, hplace⟩
    · rcases hnew e he hout with hfirst | hdecoded
      · exact .inl hfirst
      · obtain ⟨d, hd⟩ := List.exists_mem_of_ne_nil _ hdecoded
        exact .inr ⟨_, List.mem_append_right _ (List.mem_map_of_mem hd), rfl⟩

theorem attributed_of_move {r t : Receiver} {n : ℕ} {events : List HostEvent}
    (hr : Attributed r) (m : Move r n events t) : Attributed t := by
  cases m with
  | firstSend hpc =>
    obtain ⟨htemp, htaken⟩ := hr.first hpc
    apply hr.emit r.replies (by simp)
    intro e he _
    rw [List.mem_singleton] at he
    rw [he, htemp, htaken]
    exact .inl rfl
  | handlePair hpc =>
    apply hr.emit r.replies (by simp)
    intro e _ _
    exact .inr (by simp)
  | receivePair | receiveSkip => exact hr.emit _ (by simp) (by simp [HostEvent.isOutput])
  | waitForData | emptyRead | shortRead | rejectPair | acceptPair =>
    exact hr.emit r.replies (by simp) (by simp [HostEvent.isOutput])

theorem attributed_of_run {r t : Receiver} {counts : List ℕ} (hr : Attributed r)
    (h : run step r counts = some t) : Attributed t :=
  run_invariant (fun _ _ _ hinv hstep => attributed_of_move hinv (move_of_step hstep)) hr h

/-! ## Streams without other pairs -/

/-- Adjacent bytes that pass the check are a frame. -/
def FramesOnly (stream : List UInt8) : Prop :=
  stream.IsChain fun b0 b1 => rejects b0 b1 = false → b0.toNat < 0x60 ∧ b1.toNat < 0xC0

theorem FramesOnly.isFrame {stream : List UInt8} (h : FramesOnly stream) {i : ℕ} {b0 b1 : UInt8}
    (h0 : stream[i]? = some b0) (h1 : stream[i + 1]? = some b1) (hacc : rejects b0 b1 = false) :
    IsFrame b0 b1 := by
  rw [List.getElem?_eq_some_iff] at h0 h1
  obtain ⟨_, rfl⟩ := h0
  obtain ⟨hlt, rfl⟩ := h1
  obtain ⟨hlow, hhigh⟩ := List.isChain_iff_getElem.mp h i hlt hacc
  exact (isFrame_iff _ _).mpr ⟨hlow, ((rejects_eq_false_iff _ _).mp hacc).2, hhigh⟩

theorem pairAt_eq {r : Receiver} {i : ℕ} {b0 b1 : UInt8} (h0 : r.replies.taken[i]? = some b0)
    (h1 : r.replies.taken[i + 1]? = some b1) : r.pairAt i = [b0, b1] := by
  rw [List.getElem?_eq_some_iff] at h0 h1
  obtain ⟨_, rfl⟩ := h0
  obtain ⟨hlt, rfl⟩ := h1
  rw [pairAt, List.drop_eq_getElem_cons (by omega), List.drop_eq_getElem_cons (by omega)]
  rfl

theorem exists_frame_of_decoded {stream : List UInt8} (hstream : FramesOnly stream)
    {counts : List ℕ} {r : Receiver} (h : run step (start stream) counts = some r) :
    ∀ e ∈ r.decodedAt, ∃ f : Frame, e.2 = f.pair ∧ r.pairAt e.1 = f.bytes := by
  have hs := sound_of_run (sound_start stream) h
  have hhist : r.replies.history = stream := (history_of_run h).trans (history_start stream)
  intro e he
  obtain ⟨b0, b1, h0, h1, hacc, hd⟩ := hs.entries e he
  have hs0 := r.replies.getElem?_history_of_taken h0
  have hs1 := r.replies.getElem?_history_of_taken h1
  rw [hhist] at hs0 hs1
  obtain ⟨f, hf⟩ := hstream.isFrame hs0 hs1 hacc
  exact ⟨f, hd.trans (decode_bytes hf), (pairAt_eq h0 h1).trans hf.symm⟩

theorem exists_frames {r : Receiver} (entries : List (ℕ × ℕ × ℕ))
    (h : ∀ e ∈ entries, ∃ f : Frame, e.2 = f.pair ∧ r.pairAt e.1 = f.bytes) :
    ∃ fs : List Frame, entries.map Prod.snd = fs.map Frame.pair ∧
      (entries.flatMap fun e => r.pairAt e.1) = frameBytes fs := by
  induction entries with
  | nil => exact ⟨[], rfl, rfl⟩
  | cons e entries ih =>
    obtain ⟨f, hpair, hbytes⟩ := h e (List.mem_cons_self ..)
    obtain ⟨fs, hpairs, hall⟩ := ih fun e he => h e (List.mem_cons_of_mem _ he)
    refine ⟨f :: fs, by rw [List.map_cons, List.map_cons, hpair, hpairs], ?_⟩
    rw [List.flatMap_cons, hbytes, hall]
    rfl

theorem followsGrammar_of_framesOnly {stream : List UInt8} (hstream : FramesOnly stream)
    {counts : List ℕ} {r : Receiver} (h : run step (start stream) counts = some r) :
    FollowsGrammar r where
  frames := exists_frames r.decodedAt (exists_frame_of_decoded hstream h)
  handled := by
    intro hpc
    have hs := sound_of_run (sound_start stream) h
    obtain ⟨b0, b1, hbuf, hacc⟩ := hs.accepted hpc
    obtain ⟨pre, htaken⟩ := hs.buffer_suffix (.inr hpc)
    have hhist : r.replies.history = stream := (history_of_run h).trans (history_start stream)
    have h0 := r.replies.getElem?_history_of_taken (i := pre.length) (x := b0)
      (by simp [← htaken, hbuf])
    have h1 := r.replies.getElem?_history_of_taken (i := pre.length + 1) (x := b1)
      (by simp [← htaken, hbuf])
    rw [hhist] at h0 h1
    obtain ⟨f, hf⟩ := hstream.isFrame h0 h1 hacc
    exact ⟨f, hbuf.trans hf.symm⟩
  outputs := by
    intro p hp hout
    rcases (attributed_of_run (attributed_start stream) h).outputs p hp hout with
      hfirst | ⟨e, he, hplace⟩
    · exact .inl hfirst
    · obtain ⟨f, -, hf⟩ := exists_frame_of_decoded hstream h e he
      exact .inr ⟨f, hplace ▸ hf⟩

/-! ## Streams with another pair -/

theorem exists_run_handlePair {r : Receiver} {b0 b1 : UInt8} {xs : List UInt8}
    (hpc : r.host.pc = .receivePair) (harr : r.replies.arrived = b0 :: b1 :: xs)
    (hacc : rejects b0 b1 = false) :
    ∃ t, run step r [2, 0] = some t ∧ t.host.pc = .handlePair ∧ t.host.buffer = [b0, b1] := by
  have hread := Move.receivePair hpc (le_refl 2) (by simp [harr])
  have haccept := Move.acceptPair (r := Receiver.emit { r with replies := r.replies.take 2 }
    { r.host with pc := .checkPair, buffer := r.replies.arrived.take 2 }
    [.readPair 2 (r.replies.arrived.take 2)]) b0 b1 rfl (by simp [harr]) hacc
  exact ⟨_, hread.run_cons (haccept.run_cons rfl), rfl, by simp [harr]⟩

/-- The decoder follows the grammar in all runs on a stream if and only if each two
adjacent bytes that pass the check have a slider index below 6 in the first and a
clear second bit in the second. -/
theorem follows_grammar_iff (stream : List UInt8) :
    (∀ counts r, run step (start stream) counts = some r → FollowsGrammar r) ↔
      stream.IsChain fun b0 b1 => rejects b0 b1 = false → b0.toNat < 0x60 ∧ b1.toNat < 0xC0 := by
  constructor
  · intro hfollows
    rw [List.isChain_iff_forall_rel_of_append_cons_cons]
    intro b0 b1 pre post hstream hacc
    obtain ⟨t, hrun, htpc, htarr, -⟩ := exists_run_start stream
    obtain ⟨counts, u, hu, hupc, huarr, -⟩ :=
      exists_run_singles pre (b0 :: b1 :: post) htpc (htarr.trans hstream)
    obtain ⟨v, hv, hvpc, hvbuf⟩ := exists_run_handlePair hupc huarr hacc
    obtain ⟨f, hf⟩ := (hfollows _ v (run_trans hrun (run_trans hu hv))).handled hvpc
    obtain ⟨hlow, -, hhigh⟩ := (isFrame_iff b0 b1).mp ⟨f, hf.symm.trans hvbuf⟩
    exact ⟨hlow, hhigh⟩
  · intro hstream counts r h
    exact followsGrammar_of_framesOnly hstream h

/-- The bytes `0110 0000 1000 0000` are decoded as a reading of a slider 6. -/
theorem decodes_slider_six :
    ¬ ∀ stream counts r, run step (start stream) counts = some r → FollowsGrammar r := by
  intro h
  obtain ⟨fs, hpairs, -⟩ := (h [0x60, 0x80] [0, 0, 2, 0, 0] _ rfl).frames
  have hmem : (6, 0) ∈ fs.map Frame.pair := hpairs ▸ by decide
  obtain ⟨f, -, hf⟩ := List.mem_map.mp hmem
  have hslider : f.slider = 6 := congrArg Prod.fst hf
  have hlt := f.slider_lt
  omega

end Receiver
end AudioCtrl.Serial
