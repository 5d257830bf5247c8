import AudioCtrl.Serial.ReadSplits

/-!
# Resynchronisation after noise

When no read is cut short the loop computes a function of the stream: the
reference decoder below, which steps over two bytes after a decoded pair and
over three after a rejected one. The loop refines it, and on noise followed by
frames it loses at most two frames and then stays aligned.
-/

namespace AudioCtrl.Serial
namespace Receiver

open PartialRun

/-! ## The reference decoder -/

/-- The pairs decoded from a stream whose first byte is at place `o`. -/
def referenceDecode (o : ℕ) : List UInt8 → List (ℕ × ℕ × ℕ)
  | [] => []
  | [_] => []
  | b0 :: b1 :: bs =>
    if rejects b0 b1 then
      match bs with
      | [] => []
      | _ :: rest => referenceDecode (o + 3) rest
    else (o, sliderOf b0, valueOf b0 b1) :: referenceDecode (o + 2) bs

def framesAt (o : ℕ) : List Frame → List (ℕ × ℕ × ℕ)
  | [] => []
  | f :: fs => (o, f.pair) :: framesAt (o + 2) fs

@[simp] theorem map_snd_framesAt (o : ℕ) (fs : List Frame) :
    (framesAt o fs).map Prod.snd = fs.map Frame.pair := by
  induction fs generalizing o with
  | nil => rfl
  | cons f fs ih => simp [framesAt, ih]

@[simp] theorem referenceDecode_nil (o : ℕ) : referenceDecode o [] = [] := by
  unfold referenceDecode
  rfl

theorem referenceDecode_of_length_lt {o : ℕ} {bs : List UInt8} (h : bs.length < 2) :
    referenceDecode o bs = [] := by
  match bs with
  | [] => exact referenceDecode_nil o
  | [_] =>
    unfold referenceDecode
    rfl

theorem referenceDecode_reject {o : ℕ} {b0 b1 : UInt8} {bs : List UInt8}
    (h : rejects b0 b1 = true) :
    referenceDecode o (b0 :: b1 :: bs) = referenceDecode (o + 3) bs.tail := by
  cases bs with
  | nil => simp [referenceDecode, h]
  | cons => simp [referenceDecode, h]

theorem referenceDecode_accept {o : ℕ} {b0 b1 : UInt8} {bs : List UInt8}
    (h : rejects b0 b1 = false) :
    referenceDecode o (b0 :: b1 :: bs) =
      (o, sliderOf b0, valueOf b0 b1) :: referenceDecode (o + 2) bs := by
  cases bs with
  | nil => simp [referenceDecode, h]
  | cons => simp [referenceDecode, h]

theorem referenceDecode_frames (o : ℕ) (fs : List Frame) :
    referenceDecode o (frameBytes fs) = framesAt o fs := by
  induction fs generalizing o with
  | nil => exact referenceDecode_nil o
  | cons f fs ih =>
    rw [frameBytes_cons, referenceDecode_accept f.accepted, ih, f.sliderOf_byte0, f.valueOf_bytes]
    rfl

/-- A first byte that does not start a frame costs the next frame and realigns. -/
theorem referenceDecode_misaligned {o : ℕ} {b : UInt8} (fs : List Frame)
    (hrej : ∀ f : Frame, rejects b f.byte0 = true) :
    referenceDecode o (b :: frameBytes fs) = framesAt (o + 3) fs.tail := by
  cases fs with
  | nil => exact referenceDecode_of_length_lt (by simp)
  | cons f fs =>
    rw [frameBytes_cons, referenceDecode_reject (hrej f), List.tail_cons, referenceDecode_frames,
      List.tail_cons]

theorem rejects_byte0 (b : UInt8) (f : Frame) : rejects b f.byte0 = true := by
  by_contra hacc
  rw [Bool.not_eq_true, rejects_eq_false_iff] at hacc
  have hlow := f.byte0_lt
  omega

/-- After noise at most two frames are missing, and what is decoded in the
noise lies wholly inside it. -/
theorem referenceDecode_noise : ∀ (g : List UInt8) (o : ℕ) (fs : List Frame),
    ∃ k noise, k ≤ 2 ∧
      referenceDecode o (g ++ frameBytes fs) =
        noise ++ framesAt (o + g.length + 2 * k) (fs.drop k) ∧
      ∀ e ∈ noise, e.1 + 2 ≤ o + g.length
  | [], o, fs => ⟨0, [], by simp, by simp [referenceDecode_frames], by simp⟩
  | [x], o, fs => by
    refine ⟨1, [], by simp, ?_, by simp⟩
    rw [List.singleton_append, referenceDecode_misaligned fs (rejects_byte0 x), List.drop_one]
    rfl
  | [x, y], o, fs => by
    cases hrej : rejects x y with
    | false =>
      refine ⟨0, [(o, sliderOf x, valueOf x y)], by simp, ?_, by simp⟩
      simp [referenceDecode_accept hrej, referenceDecode_frames]
    | true =>
      refine ⟨2, [], by simp, ?_, by simp⟩
      rw [List.cons_append, List.singleton_append, referenceDecode_reject hrej]
      cases fs with
      | nil => simp [framesAt]
      | cons f fs =>
        rw [frameBytes_cons, List.tail_cons, referenceDecode_misaligned fs (rejects_byte0 _),
          List.drop_succ_cons, List.drop_one]
        rfl
  | x :: y :: z :: g, o, fs => by
    cases hrej : rejects x y with
    | false =>
      obtain ⟨k, noise, hk, heq, hin⟩ := referenceDecode_noise (z :: g) (o + 2) fs
      refine ⟨k, (o, sliderOf x, valueOf x y) :: noise, hk, ?_, ?_⟩
      · rw [List.cons_append, List.cons_append, referenceDecode_accept hrej, heq]
        simp only [List.cons_append, List.length_cons]
        congr 4
        omega
      · intro e he
        simp only [List.length_cons] at hin ⊢
        rcases List.mem_cons.mp he with rfl | he
        · dsimp only
          omega
        · have hle := hin e he
          omega
    | true =>
      obtain ⟨k, noise, hk, heq, hin⟩ := referenceDecode_noise g (o + 3) fs
      refine ⟨k, noise, hk, ?_, ?_⟩
      · rw [List.cons_append, List.cons_append, referenceDecode_reject hrej, List.cons_append,
          List.tail_cons, heq]
        simp only [List.length_cons]
        congr 2
        omega
      · intro e he
        have hle := hin e he
        simp only [List.length_cons]
        omega

/-! ## The loop computes the reference decoder -/

/-- The port waits for the bytes asked for and returns all of them. -/
def ReadsAll (r : Receiver) (count : ℕ) : Prop := count = r.host.asks

/-- No read is cut short, but a read of a pair may come back empty. -/
def ReadsWhole (r : Receiver) (count : ℕ) : Prop :=
  count = r.host.asks ∨ (r.host.pc = .receivePair ∧ count = 0)

/-- Fewer bytes are left than the next `ReadFile` asks for. -/
def Stalled (r : Receiver) : Prop := r.replies.arrived.length < r.host.asks

/-- What the reference decoder still finds when the loop continues from `r`. -/
def remaining (r : Receiver) : List (ℕ × ℕ × ℕ) :=
  let place := r.replies.taken.length
  let rest := r.replies.arrived
  match r.host.pc with
  | .checkPair =>
    match r.host.buffer with
    | [b0, b1] =>
      if rejects b0 b1 then referenceDecode (place + 1) rest.tail
      else (place - 2, sliderOf b0, valueOf b0 b1) :: referenceDecode place rest
    | _ => referenceDecode place rest
  | .handlePair => (place - 2, r.host.slider, r.host.value) :: referenceDecode place rest
  | .receiveSkip => referenceDecode (place + 1) rest.tail
  | _ => referenceDecode place rest

/-- The loop has decoded a first part of what the reference decoder finds, and
what is left of the stream decodes to the second part. -/
structure Refines (stream : List UInt8) (r : Receiver) : Prop where
  tempBuf : r.host.tempBuf.length = 1
  buffer : r.host.pc = .checkPair → r.host.buffer = [] ∨ ∃ b0 b1, r.host.buffer = [b0, b1]
  total : r.decodedAt ++ r.remaining = referenceDecode 0 stream

theorem refines_start (stream : List UInt8) : Refines stream (start stream) where
  tempBuf := rfl
  buffer := by simp [start, Host.initial]
  total := rfl

theorem asks_receivePair {h : Host} (hpc : h.pc = .receivePair) : h.asks = 2 := by
  simp [Host.asks, hpc]

theorem asks_receiveSkip {h : Host} (hpc : h.pc = .receiveSkip) : h.asks = h.tempBuf.length := by
  simp [Host.asks, hpc]

theorem remaining_receivePair {r : Receiver} (hpc : r.host.pc = .receivePair)
    (harr : 2 ≤ r.replies.arrived.length) (events : List HostEvent) :
    (emit { r with replies := r.replies.take 2 }
      { r.host with pc := .checkPair, buffer := r.replies.arrived.take 2 } events).remaining =
        r.remaining := by
  match hbs : r.replies.arrived with
  | [] => simp [hbs] at harr
  | [_] => simp [hbs] at harr
  | b0 :: b1 :: rest =>
    cases hrej : rejects b0 b1 with
    | false => simp [remaining, hpc, hbs, hrej, referenceDecode_accept]
    | true => simp [remaining, hpc, hbs, hrej, referenceDecode_reject]

theorem refines_of_move {stream : List UInt8} {r t : Receiver} {n : ℕ} {events : List HostEvent}
    (hr : Refines stream r) (hcond : ReadsWhole r n) (m : Move r n events t) :
    Refines stream t := by
  have htotal := hr.total
  cases m with
  | firstSend hpc | waitForData hpc =>
    exact ⟨hr.tempBuf, by simp,
      by simpa [remaining, hpc, List.filterMap_cons, HostEvent.decoded] using htotal⟩
  | receivePair hpc hn harr =>
    have hcases : n = 2 ∨ n = 0 := by
      rcases hcond with h | h
      · exact .inl (h.trans (asks_receivePair hpc))
      · exact .inr h.2
    rcases hcases with rfl | rfl
    · refine ⟨hr.tempBuf, fun _ => .inr ?_, ?_⟩
      · rcases hbs : r.replies.arrived with _ | ⟨b0, _ | ⟨b1, rest⟩⟩
        · simp [hbs] at harr
        · simp [hbs] at harr
        · exact ⟨b0, b1, by simp⟩
      · rw [remaining_receivePair hpc harr]
        simpa [List.filterMap_cons, HostEvent.decoded] using htotal
    · exact ⟨hr.tempBuf, fun _ => .inl (by simp),
        by simpa [remaining, hpc, List.filterMap_cons, HostEvent.decoded] using htotal⟩
  | emptyRead hpc hbuf =>
    exact ⟨hr.tempBuf, by simp, by simpa [remaining, hpc, hbuf] using htotal⟩
  | shortRead hpc hbuf hlen =>
    rcases hr.buffer hpc with h | ⟨b0, b1, h⟩
    · exact absurd h hbuf
    · simp [h] at hlen
  | rejectPair b0 b1 hpc hbuf hrej =>
    exact ⟨hr.tempBuf, by simp, by simpa [remaining, hpc, hbuf, hrej] using htotal⟩
  | acceptPair b0 b1 hpc hbuf hacc =>
    exact ⟨hr.tempBuf, by simp,
      by simpa [remaining, hpc, hbuf, hacc, Host.slider, Host.value] using htotal⟩
  | receiveSkip hpc hn harr =>
    have hone : n = 1 := by
      rcases hcond with h | h
      · rw [h, asks_receiveSkip hpc, hr.tempBuf]
      · exact absurd (hpc.symm.trans h.1) (by decide)
    subst hone
    refine ⟨by simp [harr], by simp, ?_⟩
    have hlen : min 1 r.replies.arrived.length = 1 := by omega
    simpa [remaining, hpc, List.filterMap_cons, HostEvent.decoded, hlen] using htotal
  | handlePair hpc =>
    exact ⟨hr.tempBuf, by simp, by simpa [remaining, hpc] using htotal⟩

/-- A stalled loop has decoded everything the reference decoder finds. -/
theorem Refines.decodedAt_of_stalled {stream : List UInt8} {r : Receiver} (hr : Refines stream r)
    (hstall : Stalled r) : r.decodedAt = referenceDecode 0 stream := by
  have hnone : r.remaining = [] := by
    unfold Stalled Host.asks at hstall
    split at hstall
    · next hpc =>
      rw [Com.length_resize] at hstall
      simpa [remaining, hpc] using referenceDecode_of_length_lt hstall
    · next hpc =>
      rw [hr.tempBuf, Nat.lt_one_iff, List.length_eq_zero_iff] at hstall
      simp [remaining, hpc, hstall]
    · exact absurd hstall (Nat.not_lt_zero _)
  rw [← hr.total, hnone, List.append_nil]

/-- Refinement of every run without a cut read. -/
theorem refines_of_run {stream : List UInt8} {r : Receiver} {counts : List ℕ}
    (h : run step (start stream) counts = some r)
    (hm : Meets step ReadsWhole (start stream) counts) : Refines stream r :=
  run_invariant_of_meets (fun _ _ _ hinv hcond hstep => refines_of_move hinv hcond
    (move_of_step hstep)) (refines_start stream) hm h

/-! ## The loop does run until it stalls -/

/-- Steps the loop can take before it reads again. -/
def HostPc.rank : HostPc → ℕ
  | .firstSend => 2
  | .waitForData => 1
  | .receivePair => 0
  | .checkPair => 2
  | .receiveSkip => 1
  | .handlePair => 1

/-- Every full read uses up bytes, every other step comes closer to a read. -/
def fuel (r : Receiver) : ℕ := 3 * r.replies.arrived.length + HostPc.rank r.host.pc

theorem fuel_lt_of_move {r t : Receiver} {events : List HostEvent}
    (m : Move r r.host.asks events t) : t.fuel < r.fuel := by
  generalize hn : r.host.asks = n at m
  cases m with
  | firstSend hpc | waitForData hpc | emptyRead hpc | shortRead hpc | rejectPair _ _ hpc
  | acceptPair _ _ hpc | handlePair hpc => simp [fuel, HostPc.rank, hpc]
  | receivePair hpc hn' harr =>
    rw [asks_receivePair hpc] at hn
    subst hn
    simp only [fuel, HostPc.rank, hpc, emit_host, emit_replies, Line.arrived_take,
      List.length_drop]
    omega
  | receiveSkip hpc hn' harr =>
    simp only [fuel, HostPc.rank, hpc, emit_host, emit_replies, Line.arrived_take,
      List.length_drop]
    omega

theorem stalled_or_progress (r : Receiver) :
    Stalled r ∨ ∃ n t, r.step n = some t ∧ ReadsAll r n ∧ t.fuel < r.fuel := by
  by_cases hstall : Stalled r
  · exact .inl hstall
  · have hstep : ∃ t, r.step r.host.asks = some t :=
      ⟨_, if_pos ⟨le_refl _, Nat.not_lt.mp hstall⟩⟩
    obtain ⟨t, ht⟩ := hstep
    exact .inr ⟨r.host.asks, t, ht, rfl, fuel_lt_of_move (move_of_step ht)⟩

/-- On noise followed by frames, with reads that wait for all the bytes they ask
for, the loop comes to a stop, and whenever it stops it has decoded pairs from
inside the noise and then all frames but the first `k ≤ 2`. -/
theorem resync_after_noise (g : List UInt8) (fs : List Frame) :
    (∃ counts r, run step (start (g ++ frameBytes fs)) counts = some r ∧
      Meets step ReadsAll (start (g ++ frameBytes fs)) counts ∧ Stalled r) ∧
    ∀ counts r, run step (start (g ++ frameBytes fs)) counts = some r →
      Meets step ReadsAll (start (g ++ frameBytes fs)) counts → Stalled r →
        ∃ k noise, k ≤ 2 ∧
          r.decodedAt = noise ++ framesAt (g.length + 2 * k) (fs.drop k) ∧
          r.decoded = noise.map Prod.snd ++ (fs.drop k).map Frame.pair ∧
          ∀ e ∈ noise, e.1 + 2 ≤ g.length ∧ DecodedFrom g e := by
  constructor
  · exact exists_run_to_stop fuel stalled_or_progress _
  · intro counts r hrun hmeets hstall
    have hwhole : Meets step ReadsWhole (start (g ++ frameBytes fs)) counts :=
      hmeets.mono fun _ _ h => .inl h
    have hdec := (refines_of_run hrun hwhole).decodedAt_of_stalled hstall
    obtain ⟨k, noise, hk, heq, hin⟩ := referenceDecode_noise g 0 fs
    rw [heq, Nat.zero_add] at hdec
    refine ⟨k, noise, hk, hdec, by simp [decoded, hdec], ?_⟩
    intro e he
    have hle : e.1 + 2 ≤ g.length := by simpa using hin e he
    have hsound := sound_of_run (sound_start _) hrun
    obtain ⟨b0, b1, h0, h1, hrest⟩ := hsound.entries e (by simp [hdec, he])
    replace h0 := r.replies.getElem?_history_of_taken h0
    replace h1 := r.replies.getElem?_history_of_taken h1
    rw [history_of_run hrun, history_start, List.getElem?_append_left (by omega)] at h0 h1
    exact ⟨hle, b0, b1, h0, h1, hrest⟩

end Receiver
end AudioCtrl.Serial
