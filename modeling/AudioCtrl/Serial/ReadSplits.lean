import AudioCtrl.Serial.ReceiveLoop
import Mathlib.Data.List.Chain

/-!
# How the split into reads changes what the loop does

The number of bytes a `ReadFile` returns is the port's choice. Two things go
wrong for some choices. A skip that gets no byte leaves `tempBuf` empty for
ever, so later skips and requests are empty too. A pair that arrives in two
reads is dropped, so two runs on one stream agree only if the stream has no
pair to decode. Both conditions are exact.
-/

namespace AudioCtrl.Serial
namespace Receiver

open PartialRun

/-- The moves are possible: what `Move` lists is what `step` does. -/
theorem Move.step_eq {r t : Receiver} {n : ℕ} {events : List HostEvent} (m : Move r n events t) :
    r.step n = some t := by
  cases m with
  | firstSend hpc | waitForData hpc | handlePair hpc => simp [step, outputs, Host.step, hpc]
  | receivePair hpc hn harr => simp [step, outputs, Host.step, Host.asks, hpc, hn, harr]
  | emptyRead hpc hbuf => simp [step, outputs, Host.step, hpc, hbuf]
  | shortRead hpc hbuf hlen => simp [step, outputs, Host.step, hpc, hbuf, hlen]
  | rejectPair b0 b1 hpc hbuf hrej => simp [step, outputs, Host.step, hpc, hbuf, hrej]
  | acceptPair b0 b1 hpc hbuf hacc => simp [step, outputs, Host.step, hpc, hbuf, hacc]
  | receiveSkip hpc hn harr => simp [step, outputs, Host.step, Host.asks, hpc, hn, harr]

theorem Move.run_cons {r t u : Receiver} {n : ℕ} {events : List HostEvent} {counts : List ℕ}
    (m : Move r n events t) (h : run step t counts = some u) :
    run step r (n :: counts) = some u :=
  run_cons_eq_some.mpr ⟨t, m.step_eq, h⟩

/-! ## The buffer for requests and skips -/

/-- `tempBuf` can still be skipped into and sent: it holds one byte, every skip
so far asked for one byte and every request so far wrote one byte. -/
structure TempBufUsable (r : Receiver) : Prop where
  size : r.host.tempBuf.length = 1
  skips : ∀ place asked got, (place, HostEvent.readSkip asked got) ∈ r.trace → asked = 1
  sends : ∀ place bytes, (place, HostEvent.writeFile bytes) ∈ r.trace → bytes.length = 1

/-- A `ReadFile` that skips returns at least one byte. -/
def SkipGetsByte (r : Receiver) (count : ℕ) : Prop := r.host.pc = .receiveSkip → count ≠ 0

theorem tempBufUsable_start (stream : List UInt8) : TempBufUsable (start stream) := by
  constructor <;> simp [start, Host.initial]

theorem TempBufUsable.emit {r : Receiver} (hr : TempBufUsable r) (line : Line UInt8) {host : Host}
    {events : List HostEvent} (htemp : host.tempBuf.length = 1)
    (hskip : ∀ asked got, HostEvent.readSkip asked got ∈ events → asked = 1)
    (hsend : ∀ bytes, HostEvent.writeFile bytes ∈ events → bytes = r.host.tempBuf) :
    TempBufUsable (Receiver.emit { r with replies := line } host events) where
  size := htemp
  skips := by
    intro place asked got he
    simp only [Receiver.emit, List.mem_append, List.mem_map, Prod.mk.injEq] at he
    rcases he with he | ⟨e, he, -, rfl⟩
    · exact hr.skips place asked got he
    · exact hskip asked got he
  sends := by
    intro place bytes he
    simp only [Receiver.emit, List.mem_append, List.mem_map, Prod.mk.injEq] at he
    rcases he with he | ⟨e, he, -, rfl⟩
    · exact hr.sends place bytes he
    · rw [hsend bytes he]
      exact hr.size

theorem handleEvents_no_skip (h : Host) (asked : ℕ) (got : List UInt8) :
    HostEvent.readSkip asked got ∉ h.handleEvents := by
  unfold Host.handleEvents
  split_ifs <;> simp

theorem handleEvents_sends (h : Host) {bytes : List UInt8}
    (hb : HostEvent.writeFile bytes ∈ h.handleEvents) : bytes = h.tempBuf := by
  unfold Host.handleEvents at hb
  split_ifs at hb <;> simp_all

/-- Among all steps only a skip without a byte makes `tempBuf` unusable. -/
theorem tempBufUsable_step_iff {r t : Receiver} {n : ℕ} (hr : TempBufUsable r)
    (h : r.step n = some t) : TempBufUsable t ↔ SkipGetsByte r n := by
  have hsize := hr.size
  obtain ⟨events, m⟩ := exists_move h
  cases m with
  | receiveSkip hpc hn harr =>
    rw [hsize] at hn
    constructor
    · intro ht _ h0
      have h1 := ht.size
      simp [h0] at h1
    · intro hb
      have h1 : n = 1 := by
        have := hb hpc
        omega
      apply hr.emit (r.replies.take n)
      · simp [h1, h1 ▸ harr]
      · simp [hsize]
      · simp
  | handlePair hpc =>
    refine iff_of_true (hr.emit r.replies hsize ?_ ?_) (by simp [SkipGetsByte, hpc])
    · intro asked got he
      exact absurd he (handleEvents_no_skip _ _ _)
    · intro bytes he
      exact handleEvents_sends _ he
  | receivePair hpc hn harr =>
    exact iff_of_true (hr.emit _ hsize (by simp) (by simp)) (by simp [SkipGetsByte, hpc])
  | firstSend hpc | waitForData hpc | emptyRead hpc | shortRead hpc | rejectPair _ _ hpc
  | acceptPair _ _ hpc =>
    exact iff_of_true (hr.emit r.replies hsize (by simp) (by simp))
      (by simp [SkipGetsByte, hpc])

/-- A run keeps `tempBuf` usable in all its states if and only if no skip in it
comes back without a byte. -/
theorem tempBuf_usable_iff (stream : List UInt8) (counts : List ℕ) :
    (∀ pre r, pre <+: counts → run step (start stream) pre = some r → TempBufUsable r) ↔
      Meets step SkipGetsByte (start stream) counts :=
  forall_prefix_iff_meets (fun _ => True) (fun _ _ _ _ _ => trivial)
    (fun _ _ _ _ hr h => tempBufUsable_step_iff hr h) trivial (tempBufUsable_start stream)

/-- Two bytes with a set top bit, then a skip that gets nothing. -/
theorem tempBuf_not_always_usable :
    ¬ ∀ stream counts r, run step (start stream) counts = some r → TempBufUsable r := by
  intro h
  have hr := h [0x80, 0x80] [0, 0, 2, 0, 0] _ rfl
  exact absurd hr.size (by decide)

/-! ## Runs that split every frame -/

/-- The loop is back at `waitForData` and has consumed all that has arrived. -/
def Drained (r : Receiver) : Prop := r.host.pc = .waitForData ∧ r.replies.arrived = []

theorem exists_run_single {r : Receiver} {x : UInt8} {xs : List UInt8}
    (hpc : r.host.pc = .receivePair) (harr : r.replies.arrived = x :: xs) :
    ∃ t, run step r [1, 0] = some t ∧ t.host.pc = .receivePair ∧ t.replies.arrived = xs ∧
      t.decodedAt = r.decodedAt := by
  have hread := Move.receivePair hpc (by decide : 1 ≤ 2) (by simp [harr])
  have hdrop := Move.shortRead (r := emit { r with replies := r.replies.take 1 }
    { r.host with pc := .checkPair, buffer := r.replies.arrived.take 1 }
    [.readPair 2 (r.replies.arrived.take 1)]) rfl (by simp [harr]) (by simp [harr])
  exact ⟨_, hread.run_cons (hdrop.run_cons rfl), rfl, by simp [harr],
    by simp [HostEvent.decoded]⟩

theorem exists_run_pair {r : Receiver} {b0 b1 : UInt8} {xs : List UInt8}
    (hpc : r.host.pc = .receivePair) (harr : r.replies.arrived = b0 :: b1 :: xs)
    (hacc : rejects b0 b1 = false) :
    ∃ t, run step r [2, 0, 0] = some t ∧ t.host.pc = .receivePair ∧ t.replies.arrived = xs ∧
      t.decodedAt ≠ [] := by
  have hread := Move.receivePair hpc (le_refl 2) (by simp [harr])
  have haccept := Move.acceptPair (r := emit { r with replies := r.replies.take 2 }
    { r.host with pc := .checkPair, buffer := r.replies.arrived.take 2 }
    [.readPair 2 (r.replies.arrived.take 2)]) b0 b1 rfl (by simp [harr]) hacc
  refine ⟨_, hread.run_cons (haccept.run_cons ((Move.handlePair rfl).run_cons rfl)), rfl,
    by simp [harr], by simp⟩

theorem exists_run_empty {r : Receiver} (hpc : r.host.pc = .receivePair)
    (harr : r.replies.arrived = []) :
    ∃ t, run step r [0, 0] = some t ∧ t.Drained ∧ t.decodedAt = r.decodedAt := by
  have hread := Move.receivePair hpc (Nat.zero_le 2) (Nat.zero_le _)
  have hback := Move.emptyRead (r := emit { r with replies := r.replies.take 0 }
    { r.host with pc := .checkPair, buffer := r.replies.arrived.take 0 }
    [.readPair 2 (r.replies.arrived.take 0)]) rfl (by simp)
  exact ⟨_, hread.run_cons (hback.run_cons rfl), ⟨rfl, by simp [harr]⟩,
    by simp [HostEvent.decoded]⟩

theorem exists_run_singles (xs ys : List UInt8) {r : Receiver} (hpc : r.host.pc = .receivePair)
    (harr : r.replies.arrived = xs ++ ys) :
    ∃ counts t, run step r counts = some t ∧ t.host.pc = .receivePair ∧
      t.replies.arrived = ys ∧ t.decodedAt = r.decodedAt := by
  induction xs generalizing r with
  | nil => exact ⟨[], r, rfl, hpc, harr, rfl⟩
  | cons x xs ih =>
    obtain ⟨t, hrun, htpc, htarr, htdec⟩ := exists_run_single hpc harr
    obtain ⟨counts, u, hrun', hupc, huarr, hudec⟩ := ih htpc htarr
    exact ⟨[1, 0] ++ counts, u, run_trans hrun hrun', hupc, huarr, hudec.trans htdec⟩

/-- Every stream can be consumed byte by byte from any state that reads a pair. -/
theorem exists_run_drained {r : Receiver} (hpc : r.host.pc = .receivePair) :
    ∃ counts t, run step r counts = some t ∧ t.Drained ∧ t.decodedAt = r.decodedAt := by
  obtain ⟨counts, t, hrun, htpc, htarr, htdec⟩ :=
    exists_run_singles r.replies.arrived [] hpc (List.append_nil _).symm
  obtain ⟨u, hrun', hdrained, hudec⟩ := exists_run_empty htpc htarr
  exact ⟨counts ++ [0, 0], u, run_trans hrun hrun', hdrained, hudec.trans htdec⟩

theorem exists_run_start (stream : List UInt8) :
    ∃ t, run step (start stream) [0, 0] = some t ∧ t.host.pc = .receivePair ∧
      t.replies.arrived = stream ∧ t.decodedAt = [] :=
  ⟨_, rfl, rfl, by simp [start, Line.holding], rfl⟩

/-! ## Independence of the split -/

theorem decodedAt_eq_nil {stream : List UInt8}
    (hchain : stream.IsChain fun b0 b1 => rejects b0 b1 = true) {counts : List ℕ} {r : Receiver}
    (h : run step (start stream) counts = some r) : r.decodedAt = [] := by
  have hs := sound_of_run (sound_start stream) h
  have hhist : r.replies.history = stream := (history_of_run h).trans (history_start stream)
  apply List.eq_nil_iff_forall_not_mem.mpr
  intro e he
  obtain ⟨b0, b1, h0, h1, hacc, -⟩ := hs.entries e he
  replace h0 := r.replies.getElem?_history_of_taken h0
  replace h1 := r.replies.getElem?_history_of_taken h1
  rw [hhist, List.getElem?_eq_some_iff] at h0 h1
  obtain ⟨_, rfl⟩ := h0
  obtain ⟨hlt, rfl⟩ := h1
  have hrej := List.isChain_iff_getElem.mp hchain e.1 hlt
  rw [hacc] at hrej
  exact absurd hrej (by decide)

/-- All complete runs on a stream decode the same pairs if and only if the
stream has no two adjacent bytes that the host would accept. -/
theorem split_independent_iff (stream : List UInt8) :
    (∀ counts counts' r r', run step (start stream) counts = some r →
      run step (start stream) counts' = some r' → r.Drained → r'.Drained →
        r.decoded = r'.decoded) ↔
      stream.IsChain fun b0 b1 => rejects b0 b1 = true := by
  constructor
  · intro hsame
    rw [List.isChain_iff_forall_rel_of_append_cons_cons]
    intro b0 b1 pre post hstream
    by_contra hacc
    rw [Bool.not_eq_true] at hacc
    obtain ⟨t, hrun, htpc, htarr, htdec⟩ := exists_run_start stream
    obtain ⟨counts, r, hr, hdrained, hrdec⟩ := exists_run_drained htpc
    obtain ⟨counts₁, u, hu, hupc, huarr, -⟩ :=
      exists_run_singles pre (b0 :: b1 :: post) htpc (htarr.trans hstream)
    obtain ⟨v, hv, hvpc, -, hvdec⟩ := exists_run_pair hupc huarr hacc
    obtain ⟨counts₂, r', hr', hdrained', hrdec'⟩ := exists_run_drained hvpc
    have heq := hsame _ _ r r' (run_trans hrun hr)
      (run_trans hrun (run_trans hu (run_trans hv hr'))) hdrained hdrained'
    simp only [decoded, hrdec, htdec, hrdec', List.map_nil] at heq
    exact hvdec (List.map_eq_nil_iff.mp heq.symm)
  · intro hchain counts counts' r r' hr hr' _ _
    rw [decoded, decoded, decodedAt_eq_nil hchain hr, decodedAt_eq_nil hchain hr']

/-- One frame, read whole and read byte by byte. -/
theorem decoding_depends_on_split :
    ¬ ∀ stream counts counts' r r', run step (start stream) counts = some r →
      run step (start stream) counts' = some r' → r.Drained → r'.Drained →
        r.decoded = r'.decoded := by
  intro h
  have heq := h [0x00, 0x80] [0, 0, 2, 0, 0, 0, 0] [0, 0, 1, 0, 1, 0, 0, 0] _ _ rfl rfl
    ⟨rfl, rfl⟩ ⟨rfl, rfl⟩
  exact absurd heq (by decide)

end Receiver
end AudioCtrl.Serial
