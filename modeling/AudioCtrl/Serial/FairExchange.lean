import AudioCtrl.Serial.FairSchedules
import AudioCtrl.Serial.Rounds

/-!
# What every fair run of the link comes to

Under every fair schedule the exchange goes on without an end. Where no read returns a
single byte, the values of slider 0 reach the volume one after the other. Such a
schedule is to let all parts of the link take turns.
-/

namespace AudioCtrl.Serial

open PartialRun

namespace Link

variable {r : InfiniteRun (stuttering step)}

/-! ## Reads that lose nothing -/

def WholeReads (r : InfiniteRun (stuttering step)) : Prop :=
  ∀ n a, r.action n = some a → a.NoSingleByte

/-- What is known of every state that a run without reads of a single byte meets. -/
structure Whole (s : Link) : Prop where
  flow : Flow s
  steady : Steady s
  lossless : Lossless s
  polls : Polls 0 s

theorem whole_of_infiniteRun (hstart : r.state 0 = start []) (n : ℕ)
    (hwhole : ∀ k < n, ∀ a, r.action k = some a → a.NoSingleByte) : Whole (r.state n) := by
  have hrun := r.run_first n
  rw [hstart, run_stuttering] at hrun
  have hmeets : Meets step (fun _ a => a.NoSingleByte) (start []) ((r.first n).filterMap id) := by
    refine meets_of_forall ?_ _
    intro a ha _
    obtain ⟨b, hb, rfl⟩ := List.mem_filterMap.mp ha
    obtain ⟨k, hlt, hk⟩ := List.mem_map.mp hb
    exact hwhole k (List.mem_range.mp hlt) a hk
  exact ⟨flow_of_run hrun, steady_of_run hrun, lossless_of_run hrun hmeets,
    polls_of_run hrun hmeets⟩

theorem WholeReads.whole (hwhole : WholeReads r) (hstart : r.state 0 = start []) (n : ℕ) :
    Whole (r.state n) :=
  whole_of_infiniteRun hstart n fun k _ => hwhole k

/-- A read that is not cut takes whole frames, so it cuts none of slider 5. -/
theorem Whole.readsLastFrame {s t : Link} (hs : Whole s) {a : Action} (ha : a.NoSingleByte)
    (h : s.step a = some t) : ReadsLastFrame s a := by
  cases a with
  | device | deliverRequest | deliverReply => trivial
  | host n =>
    refine ⟨?_, fun hpc => absurd hpc hs.polls.noSkip⟩
    cases move_of_step h with
    | host m =>
      cases m with
      | receiveSkip hpc => exact absurd hpc hs.polls.noSkip
      | receivePair hpc hn harr =>
        have hne : n ≠ 1 := ha
        rcases hbs : s.receiver.replies.arrived with _ | ⟨b0, _ | ⟨b1, rest⟩⟩
        · simp [keepsLastFrame]
        · obtain rfl : n = 0 := by
            rw [hbs, List.length_singleton] at harr
            omega
          rfl
        · obtain ⟨f, -, rfl, rfl⟩ := hs.lossless.next_frame hs.flow.sound hbs
          have hcases : n = 0 ∨ n = 2 := by omega
          rcases hcases with rfl | rfl
          · rfl
          · have hge := f.byte1_ge
            have hnot : ¬ f.byte1.toNat < 128 := by omega
            simp [keepsLastFrame, startsLastFrame, hnot]
      | firstSend | waitForData | emptyRead | shortRead | rejectPair | acceptPair | handlePair =>
        rfl

theorem readsLastFrames_of_wholeReads (hstart : r.state 0 = start []) (hwhole : WholeReads r) :
    ReadsLastFrames r := by
  intro n a ha
  have hstep := r.steps n
  rw [ha] at hstep
  exact (hwhole.whole hstart n).readsLastFrame (hwhole n a ha) hstep

theorem Whole.requests_le {s : Link} (hs : Whole s) :
    s.requests.history.length ≤ s.measured.length + 1 := by
  have hwritten := hs.polls.written
  have hdecoded := congrArg List.length hs.lossless.decoded
  have hmeasured := hs.flow.length_mainValues_take (le_refl s.sent.length)
  rw [List.length_append, List.length_map, List.length_take] at hdecoded
  rw [List.take_length] at hmeasured
  change s.measured.length = _ at hmeasured
  omega

theorem getElem?_eq_of_initial {l l' : List ℕ} (h : l <+: l') {j : ℕ} (hj : j < l.length) :
    l[j]? = l'[j]? := by
  obtain ⟨rest, rfl⟩ := h
  exact (List.getElem?_append_left hj).symm

theorem Extends.measured {s t : Link} (h : Extends s t) : s.measured <+: t.measured := by
  obtain ⟨more, hmore⟩ := h.2
  refine ⟨mainValues (more.map Frame.pair), ?_⟩
  rw [Link.measured, Link.measured, ← hmore, List.map_append, mainValues_append]

/-- Where requests are written without an end, the device measures without an end, and each
value of slider 0 is passed on in its turn. -/
theorem measurements_arrive (hstart : r.state 0 = start []) (hwhole : WholeReads r)
    (hrequests : ∀ k, ∃ n, k ≤ (r.state n).requests.history.length) :
    (∀ k, ∃ n, k ≤ (r.state n).measured.length) ∧
      ∀ n j v : ℕ, (r.state n).measured[j]? = some v →
        ∃ m, n ≤ m ∧ (r.state m).receiver.volumes[j]? = some v := by
  have hmeasured (k : ℕ) : ∃ n, k ≤ (r.state n).measured.length := by
    obtain ⟨n, hn⟩ := hrequests (k + 1)
    have hle := (hwhole.whole hstart n).requests_le
    exact ⟨n, by omega⟩
  refine ⟨hmeasured, ?_⟩
  intro n j v hv
  obtain ⟨k, hk⟩ := hmeasured (j + 2)
  have hs := hwhole.whole hstart (max n k)
  obtain ⟨hfirst, hlength⟩ := hs.lossless.volumes_first hs.steady hs.flow
  have hlater := (extends_of_le r (le_max_left n k)).measured
  have hle := (extends_of_le r (le_max_right n k)).measured.length_le
  refine ⟨max n k, le_max_left n k, ?_⟩
  have hshort : j < (r.state (max n k)).receiver.volumes.length := by omega
  rw [getElem?_eq_of_initial hfirst hshort,
    ← getElem?_eq_of_initial hlater (List.getElem?_eq_some_iff.mp hv).1, hv]

/-! ## Taking turns -/

/-- Every other step is one of the host, in which a read returns all it asks for or
nothing. -/
def turn (n : ℕ) (s : Link) : Option Action :=
  match n % 6 with
  | 1 => some (.device lowest)
  | 3 => if s.requests.travelling = [] then none else some .deliverRequest
  | 5 => if s.receiver.replies.travelling = [] then none else some .deliverReply
  | _ =>
    let asks := s.receiver.host.asks
    some (.host (if asks ≤ s.receiver.replies.arrived.length then asks else 0))

theorem turn_even {n : ℕ} (hn : n % 2 = 0) (s : Link) :
    turn n s = some (.host (if s.receiver.host.asks ≤ s.receiver.replies.arrived.length then
      s.receiver.host.asks else 0)) := by
  have hcases : n % 6 = 0 ∨ n % 6 = 2 ∨ n % 6 = 4 := by omega
  rcases hcases with h | h | h <;> simp only [turn, h]

theorem turn_device {n : ℕ} (hn : n % 6 = 1) (s : Link) : turn n s = some (.device lowest) := by
  simp only [turn, hn]

theorem turn_deliverRequest {n : ℕ} (hn : n % 6 = 3) (s : Link) :
    turn n s = if s.requests.travelling = [] then none else some .deliverRequest := by
  simp only [turn, hn]

theorem turn_deliverReply {n : ℕ} (hn : n % 6 = 5) (s : Link) :
    turn n s = if s.receiver.replies.travelling = [] then none else some .deliverReply := by
  simp only [turn, hn]

theorem odd_turns {n : ℕ} (hn : n % 2 = 1) : n % 6 = 1 ∨ n % 6 = 3 ∨ n % 6 = 5 := by omega

theorem turn_odd {n : ℕ} (hn : n % 2 = 1) (s : Link) (c : ℕ) : turn n s ≠ some (.host c) := by
  rcases odd_turns hn with h | h | h
  · rw [turn_device h]
    simp
  · rw [turn_deliverRequest h]
    split_ifs <;> simp
  · rw [turn_deliverReply h]
    split_ifs <;> simp

theorem exists_deliver {l : Line UInt8} (h : l.travelling ≠ []) : ∃ l', l.deliver = some l' := by
  obtain ⟨x, xs, hcons⟩ := List.exists_cons_of_ne_nil h
  exact ⟨_, Line.deliver_eq_some.mpr ⟨x, xs, hcons, rfl⟩⟩

theorem exists_turn (n : ℕ) (s : Link) : ∃ t, stuttering step s (turn n s) = some t := by
  rcases Nat.mod_two_eq_zero_or_one n with hn | hn
  · rw [turn_even hn]
    apply exists_host_step
    · split_ifs <;> omega
    · split_ifs <;> omega
  · rcases odd_turns hn with h | h | h
    · rw [turn_device h]
      exact ⟨_, rfl⟩
    · rw [turn_deliverRequest h]
      split_ifs with hempty
      · exact ⟨s, rfl⟩
      · obtain ⟨l, hl⟩ := exists_deliver hempty
        exact ⟨_, Option.map_eq_some_iff.mpr ⟨l, hl, rfl⟩⟩
    · rw [turn_deliverReply h]
      split_ifs with hempty
      · exact ⟨s, rfl⟩
      · obtain ⟨l, hl⟩ := exists_deliver hempty
        exact ⟨_, Option.map_eq_some_iff.mpr ⟨l, hl, rfl⟩⟩

def takingTurns : InfiniteRun (stuttering step) :=
  .ofSchedule (fun _ => True) turn (fun n s _ => (exists_turn n s).imp fun _ ht => ⟨ht, trivial⟩)
    (start []) trivial

theorem ReadReady.other_step {s t : Link} (hs : ReadReady s) {a : Option Action}
    (ha : ∀ n, a ≠ some (.host n)) (h : stuttering step s a = some t) : ReadReady t := by
  cases a with
  | none =>
    cases h
    exact hs
  | some a =>
    have hstep : s.step a = some t := h
    cases move_of_step hstep with
    | host m => exact absurd rfl (ha _)
    | spin | wake | drain | drained | frame | deliverRequest => exact hs
    | deliverReply hl =>
      obtain ⟨x, xs, ht, rfl⟩ := Line.deliver_eq_some.mp hl
      refine ⟨hs.1, hs.2.trans ?_⟩
      simp

theorem fair_takingTurns : Fair takingTurns where
  host := InfiniteRun.weaklyFair_of_turns fun n => by
    refine ⟨2 * n, by omega, ?_⟩
    intro _
    exact ⟨_, turn_even (by omega) _⟩
  read := by
    intro n hready
    obtain ⟨m, hm, hread⟩ := hready n (le_refl n)
    have hdoes (k : ℕ) (hk : k % 2 = 0) (hread : ReadReady (takingTurns.state k)) :
        ∃ c, c ≠ 0 ∧ takingTurns.action k = some (.host c) := by
      refine ⟨(takingTurns.state k).receiver.host.asks, hread.1.ne', ?_⟩
      have hturn := turn_even hk (takingTurns.state k)
      rwa [if_pos hread.2] at hturn
    rcases Nat.mod_two_eq_zero_or_one m with heven | hodd
    · exact ⟨m, hm, hdoes m heven hread⟩
    · have hnext := hread.other_step (turn_odd hodd _) (takingTurns.steps m)
      exact ⟨m + 1, by omega, hdoes (m + 1) (by omega) hnext⟩
  device := InfiniteRun.weaklyFair_of_turns fun n => by
    refine ⟨6 * n + 1, by omega, ?_⟩
    intro _
    exact ⟨lowest, turn_device (Nat.mul_add_mod 6 n 1) _⟩
  deliverRequest := InfiniteRun.weaklyFair_of_turns fun n => by
    refine ⟨6 * n + 3, by omega, ?_⟩
    intro hready
    exact (turn_deliverRequest (Nat.mul_add_mod 6 n 3) _).trans (if_neg hready)
  deliverReply := InfiniteRun.weaklyFair_of_turns fun n => by
    refine ⟨6 * n + 5, by omega, ?_⟩
    intro hready
    exact (turn_deliverReply (Nat.mul_add_mod 6 n 5) _).trans (if_neg hready)

theorem wholeReads_takingTurns : WholeReads takingTurns := by
  intro n
  induction n using Nat.strong_induction_on with
  | _ n ih =>
    intro a ha
    have hs := whole_of_infiniteRun rfl n ih
    rcases Nat.mod_two_eq_zero_or_one n with hn | hn
    · have hturn : turn n (takingTurns.state n) = some a := ha
      rw [turn_even hn] at hturn
      cases hturn
      have hasks : (takingTurns.state n).receiver.host.asks ≠ 1 := by
        have hskip := hs.polls.noSkip
        unfold Host.asks
        cases hpc : (takingTurns.state n).receiver.host.pc with
        | receiveSkip => exact absurd hpc hskip
        | receivePair => simp
        | firstSend | waitForData | checkPair | handlePair => simp
      change (if _ then _ else _) ≠ 1
      split_ifs
      · exact hasks
      · decide
    · cases a with
      | host c => exact absurd ha (turn_odd hn _ c)
      | device | deliverRequest | deliverReply => trivial

/-! ## The results -/

/-- Whatever else happens between its steps, in every fair run of the link in which no read
cuts a frame of slider 5 and no skip gets no byte the host sends one request after the
other without an end. -/
theorem exchange_never_ends (hstart : r.state 0 = start []) (hfair : Fair r)
    (hreads : ReadsLastFrames r) (k : ℕ) : ∃ n, k ≤ (r.state n).requests.history.length :=
  hfair.requests_reach (hstart ▸ live_start) hreads k

theorem exchange_never_ends_takingTurns :
    takingTurns.state 0 = start [] ∧ ∃ n, 3 ≤ (takingTurns.state n).requests.history.length :=
  ⟨rfl, exchange_never_ends rfl fair_takingTurns
    (readsLastFrames_of_wholeReads rfl wholeReads_takingTurns) 3⟩

/-- In every fair run in which no `ReadFile` returns a single byte the device measures
without an end, and every value it measures on slider 0 is passed to `setMainVolume` in its
turn. -/
theorem every_measurement_arrives (hstart : r.state 0 = start []) (hfair : Fair r)
    (hwhole : WholeReads r) :
    (∀ k, ∃ n, k ≤ (r.state n).measured.length) ∧
      ∀ n j v : ℕ, (r.state n).measured[j]? = some v →
        ∃ m, n ≤ m ∧ (r.state m).receiver.volumes[j]? = some v := by
  have hreads := readsLastFrames_of_wholeReads hstart hwhole
  exact measurements_arrive hstart hwhole (hfair.requests_reach (hstart ▸ live_start) hreads)

theorem every_measurement_arrives_takingTurns :
    ∃ n, 2 ≤ (takingTurns.state n).measured.length ∧
      ∃ m v, (takingTurns.state m).receiver.volumes[1]? = some v := by
  obtain ⟨hmeasured, harrive⟩ :=
    every_measurement_arrives rfl fair_takingTurns wholeReads_takingTurns
  obtain ⟨n, hn⟩ := hmeasured 2
  have hv := List.getElem?_eq_getElem (Nat.lt_of_lt_of_le Nat.one_lt_two hn)
  obtain ⟨m, -, hm⟩ := harrive n 1 _ hv
  exact ⟨n, hn, m, _, hm⟩

end Link
end AudioCtrl.Serial
