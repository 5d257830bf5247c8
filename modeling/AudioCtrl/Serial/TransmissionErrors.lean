import AudioCtrl.Serial.ErrorAccount
import AudioCtrl.Serial.LossyLine

/-!
# The link on a line with errors

In both directions travelling bytes are lost, inserted and changed at any time. However the
reads are cut, each error costs a bounded number of frames: the account of the replies is
kept through every step of the link and through every error.
-/

namespace AudioCtrl

def Line.insert {α : Type*} (l : Line α) (i : ℕ) (x : α) : Line α :=
  { l with travelling := l.travelling.insertIdx i x }

def Line.change {α : Type*} (l : Line α) (i : ℕ) (x : α) : Line α :=
  { l with travelling := l.travelling.set i x }

namespace Serial

/-- A single byte came where `com.receive(buffer)` asked for two. -/
def HostEvent.cut : HostEvent → Bool
  | readPair _ got => got.length == 1
  | _ => false

namespace Host

/-- What the next byte is read for. -/
def hand (h : Host) : Hand := if h.pc = .receiveSkip then .skip else .first

/-- The pair that has been read and is not handled yet. -/
def held (h : Host) : List UInt8 :=
  if h.pc = .handlePair ∨ h.pc = .checkPair ∧ h.buffer.length = 2 then h.buffer else []

theorem hand_cases (h : Host) : h.hand = .first ∨ h.hand = .skip := by
  unfold hand
  split_ifs
  · exact .inr rfl
  · exact .inl rfl

theorem handleEvents_cut (h : Host) : h.handleEvents.countP HostEvent.cut = 0 := by
  unfold Host.handleEvents
  split_ifs <;> rfl

end Host

namespace Receiver

/-- The reads of the run that a single byte came back from in place of a pair. -/
def cutReads (r : Receiver) : ℕ := r.trace.countP fun p => p.2.cut

@[simp] theorem cutReads_emit (r : Receiver) (host : Host) (events : List HostEvent) :
    (r.emit host events).cutReads = r.cutReads + events.countP HostEvent.cut := by
  simp only [cutReads, emit, List.countP_append, List.countP_map]
  rfl

@[simp] theorem cutReads_with_replies (r : Receiver) (line : Line UInt8) :
    cutReads { r with replies := line } = r.cutReads := rfl

def undecided (r : Receiver) : List UInt8 := r.host.held ++ r.replies.unread

variable {r t : Receiver} {fs : List Frame} {budget credit : ℕ} {A : Account}

theorem covers_pair {b0 b1 : UInt8} {stream : List UInt8} {decoded : List (ℕ × ℕ)}
    (h : A.Covers budget credit fs .first decoded (b0 :: b1 :: stream)) :
    ∃ B : Account, B.Covers budget credit fs ((Hand.second b0).next b1)
      (decoded ++ (Hand.second b0).yields b1) stream := by
  obtain ⟨B, hB⟩ := h.read
  obtain ⟨C, hC⟩ := hB.read
  exact ⟨C, by simpa [Hand.next, Hand.yields] using hC⟩

/-- A step of the host keeps the account, at two frames for the read of a single byte. -/
theorem covers_of_move {n : ℕ} {events : List HostEvent} (hs : r.Sound)
    (htemp : r.host.tempBuf.length ≤ 1) (hskip : SkipGetsByte r n) (m : Move r n events t)
    (h : A.Covers (budget + 2 * r.cutReads) credit fs r.host.hand r.decoded r.undecided) :
    ∃ B : Account, B.Covers (budget + 2 * t.cutReads) credit fs t.host.hand t.decoded
      t.undecided := by
  cases m with
  | firstSend hpc | waitForData hpc =>
    exact ⟨A, by simpa [undecided, Host.hand, Host.held, hpc, HostEvent.cut, HostEvent.decoded,
      List.filterMap_cons] using h⟩
  | emptyRead hpc hbuf | shortRead hpc hbuf hlen =>
    exact ⟨A, by simpa [undecided, Host.hand, Host.held, *] using h⟩
  | acceptPair b0 b1 hpc hbuf hacc =>
    exact ⟨A, by simpa [undecided, Host.hand, Host.held, hpc, hbuf] using h⟩
  | rejectPair b0 b1 hpc hbuf hrej =>
    have hpair := covers_pair (by simpa [undecided, Host.hand, Host.held, hpc, hbuf] using h)
    simpa [undecided, Host.hand, Host.held, Hand.next, Hand.yields, hrej] using hpair
  | handlePair hpc =>
    obtain ⟨b0, b1, hbuf, hacc⟩ := hs.accepted hpc
    have hpair := covers_pair (by simpa [undecided, Host.hand, Host.held, hpc, hbuf] using h)
    simpa [undecided, Host.hand, Host.held, Hand.next, Hand.yields, hacc, Host.slider, Host.value,
      hbuf, Host.handleEvents_cut] using hpair
  | receiveSkip hpc hn harr =>
    obtain rfl : n = 1 := by
      have hne := hskip hpc
      omega
    obtain ⟨x, rest, harrived⟩ := List.exists_cons_of_length_pos harr
    have hbefore : A.Covers (budget + 2 * r.cutReads) credit fs .skip r.decoded
        (x :: (rest ++ r.replies.travelling)) := by
      simpa [undecided, Host.hand, Host.held, hpc, Line.unread, harrived] using h
    have hread := hbefore.read
    simpa [undecided, Host.hand, Host.held, hpc, Line.unread, harrived, Hand.next, Hand.yields,
      HostEvent.cut, HostEvent.decoded, List.filterMap_cons] using hread
  | receivePair hpc hn harr =>
    have hcases : n = 0 ∨ n = 1 ∨ n = 2 := by omega
    rcases hcases with rfl | rfl | rfl
    · exact ⟨A, by simpa [undecided, Host.hand, Host.held, hpc, HostEvent.cut, HostEvent.decoded,
        List.filterMap_cons] using h⟩
    · obtain ⟨x, rest, harrived⟩ := List.exists_cons_of_length_pos harr
      have hbefore : A.Covers (budget + 2 * r.cutReads) credit fs .first r.decoded
          (x :: (rest ++ r.replies.travelling)) := by
        simpa [undecided, Host.hand, Host.held, hpc, Line.unread, harrived] using h
      have hdrop := hbefore.drop
      simpa [undecided, Host.hand, Host.held, hpc, Line.unread, harrived, HostEvent.cut,
        HostEvent.decoded, List.filterMap_cons, Nat.mul_add, Nat.add_assoc] using hdrop
    · rcases harrived : r.replies.arrived with _ | ⟨x, _ | ⟨y, rest⟩⟩
      · simp [harrived] at harr
      · simp [harrived] at harr
      · exact ⟨A, by simpa [undecided, Host.hand, Host.held, hpc, Line.unread, harrived,
          HostEvent.cut, HostEvent.decoded, List.filterMap_cons] using h⟩

end Receiver

namespace Link

open PartialRun

/-! ## Errors -/

/-- What happens to the bytes travelling on one of the lines. -/
inductive LineError where
  | loseRequest (i : ℕ)
  | insertRequest (i : ℕ) (b : UInt8)
  | changeRequest (i : ℕ) (b : UInt8)
  | loseReply (i : ℕ)
  | insertReply (i : ℕ) (b : UInt8)
  | changeReply (i : ℕ) (b : UInt8)

def suffer (s : Link) : LineError → Link
  | .loseRequest i => { s with requests := s.requests.lose i }
  | .insertRequest i b => { s with requests := s.requests.insert i b }
  | .changeRequest i b => { s with requests := s.requests.change i b }
  | .loseReply i =>
    { s with receiver := { s.receiver with replies := s.receiver.replies.lose i } }
  | .insertReply i b =>
    { s with receiver := { s.receiver with replies := s.receiver.replies.insert i b } }
  | .changeReply i b =>
    { s with receiver := { s.receiver with replies := s.receiver.replies.change i b } }

inductive NoisyAction where
  | link (a : Action)
  | error (e : LineError)

def noisyStep (s : Link) : NoisyAction → Option Link
  | .link a => s.step a
  | .error e => some (s.suffer e)

namespace NoisyAction

/-- The frames an error among the replies can cost. -/
def cost : NoisyAction → ℕ
  | error (.loseReply _) | error (.insertReply ..) => 2
  | error (.changeReply ..) => 3
  | _ => 0

/-- The pairs that such an error can bring in, in halves. -/
def falsePairs : NoisyAction → ℕ
  | error (.loseReply _) => 1
  | error (.insertReply ..) | error (.changeReply ..) => 2
  | _ => 0

end NoisyAction

def frameCosts (actions : List NoisyAction) : ℕ := (actions.map NoisyAction.cost).sum

def pairCosts (actions : List NoisyAction) : ℕ := (actions.map NoisyAction.falsePairs).sum

@[simp] theorem frameCosts_append (actions : List NoisyAction) (a : NoisyAction) :
    frameCosts (actions ++ [a]) = frameCosts actions + a.cost := by
  simp [frameCosts]

@[simp] theorem pairCosts_append (actions : List NoisyAction) (a : NoisyAction) :
    pairCosts (actions ++ [a]) = pairCosts actions + a.falsePairs := by
  simp [pairCosts]

def SkipsByte (s : Link) : NoisyAction → Prop
  | .link (.host n) => Receiver.SkipGetsByte s.receiver n
  | _ => True

instance (s : Link) : ∀ a, Decidable (SkipsByte s a)
  | .link (.host _) => inferInstanceAs (Decidable (_ → _))
  | .link (.device _) | .link .deliverRequest | .link .deliverReply | .error _ => isTrue trivial

/-- The account of the replies is balanced after `actions`. -/
structure Balanced (actions : List NoisyAction) (s : Link) : Prop where
  receiver : s.receiver.Sound
  tempBuf : s.receiver.host.tempBuf.length ≤ 1
  account : ∃ A : Account, A.Covers (frameCosts actions + 2 * s.receiver.cutReads)
    (pairCosts actions) s.sent s.receiver.host.hand s.receiver.decoded s.receiver.undecided
  volumes : s.receiver.volumes = mainValues s.receiver.decoded

theorem balanced_start (pending : List UInt8) : Balanced [] (start pending) where
  receiver := Receiver.sound_start []
  tempBuf := le_refl 1
  volumes := rfl
  account := ⟨⟨[], none, [], 0, 0, 0⟩, .nil 0 0 0, List.Sublist.refl [], List.Sublist.refl [],
    le_refl 0, le_refl 0⟩

variable {s t : Link} {actions : List NoisyAction}

theorem Balanced.of_same (hs : Balanced actions s) {a : NoisyAction}
    (hreceiver : t.receiver = s.receiver) (hsent : t.sent = s.sent) :
    Balanced (actions ++ [a]) t := by
  obtain ⟨A, hA⟩ := hs.account
  refine ⟨hreceiver ▸ hs.receiver, hreceiver ▸ hs.tempBuf, ⟨A, ?_⟩, hreceiver ▸ hs.volumes⟩
  rw [hreceiver, hsent, frameCosts_append, pairCosts_append]
  exact hA.weaken (by omega) (by omega)

theorem Balanced.of_line (hs : Balanced actions s) {a : NoisyAction} {l : Line UInt8}
    (htaken : l.taken = s.receiver.replies.taken)
    (haccount : ∀ A : Account, A.Covers (frameCosts actions + 2 * s.receiver.cutReads)
      (pairCosts actions) s.sent s.receiver.host.hand s.receiver.decoded s.receiver.undecided →
      ∃ B : Account, B.Covers (frameCosts actions + 2 * s.receiver.cutReads + a.cost)
        (pairCosts actions + a.falsePairs) t.sent s.receiver.host.hand s.receiver.decoded
        (s.receiver.host.held ++ l.unread))
    (hreceiver : t.receiver = { s.receiver with replies := l }) :
    Balanced (actions ++ [a]) t := by
  obtain ⟨A, hA⟩ := hs.account
  obtain ⟨B, hB⟩ := haccount A hA
  refine ⟨?_, hreceiver ▸ hs.tempBuf, ⟨B, ?_⟩, hreceiver ▸ hs.volumes⟩
  · rw [hreceiver]
    exact receiver_sound_with_line hs.receiver htaken
  · rw [hreceiver, frameCosts_append, pairCosts_append, Nat.add_right_comm]
    exact hB

theorem balanced_of_move {a : Action} (hs : Balanced actions s)
    (hskip : SkipsByte s (.link a)) (m : Move s a t) : Balanced (actions ++ [.link a]) t := by
  cases m with
  | host m =>
    obtain ⟨A, hA⟩ := hs.account
    obtain ⟨B, hB⟩ := Receiver.covers_of_move hs.receiver hs.tempBuf hskip m hA
    refine ⟨Receiver.sound_of_move hs.receiver m, Receiver.length_tempBuf_le hs.tempBuf m,
      ⟨B, ?_⟩, Receiver.volumes_eq_of_move hs.volumes m⟩
    rwa [frameCosts_append, pairCosts_append]
  | spin | wake | drain | drained | deliverRequest => exact hs.of_same rfl rfl
  | frame analogRead i hpc =>
    refine hs.of_line (Line.taken_write _ _) ?_ rfl
    intro A hA
    rw [Line.unread_write, ← List.append_assoc]
    exact hA.send (sliderFrame analogRead i)
  | deliverReply hl =>
    obtain ⟨htaken, hunread, -⟩ := Line.deliver_spec hl
    refine hs.of_line htaken ?_ rfl
    intro A hA
    rw [hunread]
    exact ⟨A, hA⟩

theorem balanced_of_error (hs : Balanced actions s) (e : LineError) :
    Balanced (actions ++ [.error e]) (s.suffer e) := by
  cases e with
  | loseRequest | insertRequest | changeRequest => exact hs.of_same rfl rfl
  | loseReply i =>
    refine hs.of_line (l := s.receiver.replies.lose i) rfl ?_ rfl
    intro A hA
    rw [Receiver.undecided, Line.unread, ← List.append_assoc] at hA
    rw [Line.unread, ← List.append_assoc]
    exact hA.lose i
  | insertReply i b =>
    refine hs.of_line (l := s.receiver.replies.insert i b) rfl ?_ rfl
    intro A hA
    rw [Receiver.undecided, Line.unread, ← List.append_assoc] at hA
    rw [Line.unread, ← List.append_assoc]
    exact hA.insert i b
  | changeReply i b =>
    refine hs.of_line (l := s.receiver.replies.change i b) rfl ?_ rfl
    intro A hA
    rw [Receiver.undecided, Line.unread, ← List.append_assoc] at hA
    rw [Line.unread, ← List.append_assoc]
    exact hA.change i b

theorem balanced_of_step {a : NoisyAction} (hs : Balanced actions s) (hskip : SkipsByte s a)
    (h : s.noisyStep a = some t) : Balanced (actions ++ [a]) t := by
  cases a with
  | link a => exact balanced_of_move hs hskip (move_of_step h)
  | error e =>
    cases h
    exact balanced_of_error hs e

theorem balanced_of_run {pending : List UInt8} (hskip : Meets noisyStep SkipsByte (start pending)
    actions) (h : run noisyStep (start pending) actions = some s) : Balanced actions s :=
  run_invariant_of_meets_history (fun _ _ _ _ hu hcond huv => balanced_of_step hu hcond huv)
    (balanced_start pending) hskip h

theorem Balanced.good_frames (hs : Balanced actions s) :
    ∃ good : List Frame, good.Sublist s.sent ∧ (good.map Frame.pair).Sublist s.receiver.decoded ∧
      2 * s.sent.length ≤ 2 * good.length + 2 * (frameCosts actions + 2 * s.receiver.cutReads) +
        s.receiver.undecided.length ∧
      2 * s.receiver.decoded.length ≤ 2 * good.length + pairCosts actions := by
  obtain ⟨A, hA⟩ := hs.account
  have hpairs := hA.pairs
  exact ⟨A.good, (List.sublist_append_left _ _).trans hA.order, hA.among,
    hA.length_le s.receiver.host.hand_cases, by omega⟩

theorem length_mainValues_le {ds es : List (ℕ × ℕ)} (h : ds.Sublist es) :
    (mainValues es).length + ds.length ≤ (mainValues ds).length + es.length := by
  have hcount := h.le_countP fun d => decide (d.1 = 0)
  have hlength := h.length_le
  simp only [mainValues, List.length_map, ← List.countP_eq_length_filter]
  omega

theorem Balanced.volumes_le (hs : Balanced actions s) : ∀ v ∈ s.receiver.volumes, v ≤ 1023 := by
  intro v hv
  rw [hs.volumes, mainValues, Receiver.decoded] at hv
  obtain ⟨d, hd, rfl⟩ := List.mem_map.mp hv
  obtain ⟨e, he, rfl⟩ := List.mem_map.mp (List.mem_filter.mp hd).1
  obtain ⟨b0, b1, -, -, -, hpair⟩ := hs.receiver.entries e he
  rw [hpair, valueOf_eq]
  omega

theorem Balanced.good_volumes (hs : Balanced actions s) :
    ∃ good : List ℕ, good.Sublist s.measured ∧ good.Sublist s.receiver.volumes ∧
      2 * s.measured.length ≤ 2 * good.length +
        2 * (frameCosts actions + 2 * s.receiver.cutReads) + s.receiver.undecided.length ∧
      2 * s.receiver.volumes.length ≤ 2 * good.length + pairCosts actions := by
  obtain ⟨good, hsent, hdecoded, hframes, hpairs⟩ := hs.good_frames
  have hmissing := length_mainValues_le (hsent.map Frame.pair)
  have hfalse := length_mainValues_le hdecoded
  rw [List.length_map, List.length_map] at hmissing
  rw [List.length_map] at hfalse
  rw [hs.volumes, measured]
  exact ⟨_, mainValues_sublist (hsent.map Frame.pair), mainValues_sublist hdecoded, by omega,
    by omega⟩

/-- Whatever bytes are lost, inserted and changed in both directions and however the reads are
cut, as long as no skip comes back without a byte: all frames sent but some have been decoded
as they were sent and in their order, or are still on the line. A lost byte, an inserted byte
and a read of a single byte cost at most two frames each and a changed byte three; an inserted
or changed byte and two lost ones bring in at most one pair that was not sent. -/
theorem errors_cost_few_frames (pending : List UInt8) (actions : List NoisyAction) {s : Link}
    (h : run noisyStep (start pending) actions = some s)
    (hskip : Meets noisyStep SkipsByte (start pending) actions) :
    ∃ good : List Frame, good.Sublist s.sent ∧ (good.map Frame.pair).Sublist s.receiver.decoded ∧
      2 * s.sent.length ≤ 2 * good.length + 2 * (frameCosts actions + 2 * s.receiver.cutReads) +
        s.receiver.undecided.length ∧
      2 * s.receiver.decoded.length ≤ 2 * good.length + pairCosts actions :=
  (balanced_of_run hskip h).good_frames

/-- The first byte of the first frame is lost. -/
def firstByteLost : List NoisyAction :=
  [.link (.host 0), .link .deliverRequest, .link (.device lowest), .link (.device lowest),
    .link (.device lowest), .link (.device lowest), .link (.device lowest), .error (.loseReply 0),
    .link .deliverReply, .link .deliverReply, .link .deliverReply, .link (.host 0),
    .link (.host 2), .link (.host 0), .link (.host 1)]

/-- It costs two frames. -/
theorem errors_cost_few_frames_firstByteLost :
    ∃ s, run noisyStep (start []) firstByteLost = some s ∧ s.sent.length = 2 ∧
      s.receiver.decoded = [] ∧
      s.sent.length ≤ frameCosts firstByteLost + 2 * s.receiver.cutReads := by
  have hrun : (run noisyStep (start []) firstByteLost).any (fun s =>
      decide (s.sent.length = 2 ∧ s.receiver.decoded = [] ∧ s.receiver.undecided = [])) = true := by
    decide +kernel
  simp only [Option.any_eq_true, decide_eq_true_eq] at hrun
  obtain ⟨s, hs, hsent, hdecoded, hundecided⟩ := hrun
  obtain ⟨good, -, hamong, hframes, -⟩ :=
    errors_cost_few_frames [] firstByteLost hs (by decide +kernel)
  rw [hdecoded, List.sublist_nil, List.map_eq_nil_iff] at hamong
  simp only [hamong, hundecided, List.length_nil] at hframes
  exact ⟨s, hs, hsent, hdecoded, by omega⟩

end Link
end Serial
end AudioCtrl
