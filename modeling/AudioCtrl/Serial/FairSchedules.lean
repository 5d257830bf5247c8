import AudioCtrl.Foundations.InfiniteRun
import AudioCtrl.Serial.Progress

/-!
# Fair schedules of the link

That the exchange can go on does not mean that it does. It does where no part of the link
is left out for ever: what travels arrives, a device that has something to do goes on, the
host returns from calls that have nothing to wait for, and reads that could return all
they ask for do not return nothing for ever. Only a host that polls an empty port and a
device that spins leave the work to the next request as it is, and a fair schedule has
more than these two.
-/

namespace AudioCtrl.Serial

open PartialRun

/-! ## What a step of the host leaves to do -/

namespace Host

/-- The host waits, or has read nothing and goes on to wait. -/
def Polls (h : Host) : Prop :=
  h.pc = .waitForData ∨ h.pc = .receivePair ∨ h.pc = .checkPair ∧ h.buffer = []

/-- The steps before the next read that is not a mere poll. -/
def work (h : Host) : ℕ :=
  match h.pc with
  | .checkPair => if h.buffer = [] then 0 else 2
  | .receiveSkip | .handlePair => 1
  | .firstSend | .waitForData | .receivePair => 0

theorem work_le (h : Host) : h.work ≤ 2 := by
  unfold work
  cases h.pc with
  | checkPair =>
    dsimp only
    split_ifs <;> omega
  | firstSend | waitForData | receivePair | receiveSkip | handlePair => simp

def Sends (h : Host) : Prop := h.pc = .firstSend ∨ h.pc = .handlePair ∧ h.slider = 5

theorem Polls.holdsToken {h : Host} (hp : h.Polls) : h.holdsToken = false := by
  rcases hp with hpc | hpc | ⟨hpc, hbuf⟩
  · simp [Host.holdsToken, hpc]
  · simp [Host.holdsToken, hpc]
  · simp [Host.holdsToken, hpc, hbuf]

end Host

namespace Receiver

def work (r : Receiver) : ℕ :=
  r.host.work + 3 * r.replies.arrived.length + 4 * r.replies.travelling.length

/-- A step of the host writes a request, does part of the work, or polls. -/
theorem work_of_move {r t : Receiver} {n : ℕ} {events : List HostEvent} (m : Move r n events t)
    (hskip : SkipGetsByte r n) :
    r.host.Sends ∨ t.work < r.work ∨ t.work = r.work ∧ n = 0 ∧ r.host.Polls := by
  cases m with
  | firstSend hpc => exact .inl (.inl hpc)
  | waitForData hpc =>
    refine .inr (.inr ⟨?_, rfl, .inl hpc⟩)
    simp [work, Host.work, hpc]
  | receivePair hpc hn harr =>
    rcases n.eq_zero_or_pos with rfl | hpos
    · refine .inr (.inr ⟨?_, rfl, .inr (.inl hpc)⟩)
      simp [work, Host.work, hpc]
    · refine .inr (.inl ?_)
      have hnone : r.host.work = 0 := by simp [Host.work, hpc]
      unfold work
      grw [Host.work_le]
      simp only [hnone, emit_replies, Line.arrived_take, Line.travelling_take, List.length_drop]
      omega
  | emptyRead hpc hbuf =>
    refine .inr (.inr ⟨?_, rfl, .inr (.inr ⟨hpc, hbuf⟩)⟩)
    simp [work, Host.work, hpc, hbuf]
  | shortRead hpc hbuf hlen => exact .inr (.inl (by simp [work, Host.work, hpc, hbuf]))
  | rejectPair b0 b1 hpc hbuf | acceptPair b0 b1 hpc hbuf =>
    exact .inr (.inl (by simp [work, Host.work, hpc, hbuf]))
  | receiveSkip hpc hn harr =>
    have hpos := hskip hpc
    refine .inr (.inl ?_)
    simp only [work, Host.work, hpc, emit_host, emit_replies, Line.arrived_take,
      Line.travelling_take, List.length_drop]
    omega
  | handlePair hpc =>
    by_cases hfive : r.host.slider = 5
    · exact .inl (.inr ⟨hpc, hfive⟩)
    · exact .inr (.inl (by simp [work, Host.work, hpc]))

theorem polls_of_move {r t : Receiver} {events : List HostEvent} (m : Move r 0 events t)
    (hpolls : r.host.Polls) :
    t.host.Polls ∧ t.replies = r.replies ∧ events.flatMap HostEvent.written = [] := by
  cases m with
  | waitForData => exact ⟨.inr (.inl rfl), rfl, rfl⟩
  | receivePair => exact ⟨.inr (.inr ⟨rfl, rfl⟩), Line.take_zero _, rfl⟩
  | emptyRead => exact ⟨.inl rfl, rfl, rfl⟩
  | firstSend hpc | shortRead hpc | rejectPair _ _ hpc | acceptPair _ _ hpc | receiveSkip hpc
  | handlePair hpc =>
    rcases hpolls with h | h | ⟨h, hbuf⟩ <;> simp_all

theorem pc_of_poll {r t : Receiver} {n : ℕ} {events : List HostEvent} (m : Move r n events t) :
    (r.host.pc = .waitForData → t.host.pc = .receivePair) ∧
      (r.host.pc = .checkPair → r.host.buffer = [] → t.host.pc = .waitForData) := by
  cases m <;> simp_all

theorem written_of_move {r t : Receiver} {n : ℕ} {events : List HostEvent} (m : Move r n events t)
    (hno : ¬ r.host.Sends) : events.flatMap HostEvent.written = [] := by
  cases m with
  | firstSend hpc => exact absurd (.inl hpc) hno
  | handlePair hpc =>
    have hfive : r.host.slider ≠ 5 := fun hfive => hno (.inr ⟨hpc, hfive⟩)
    rw [handleEvents_written, if_neg hfive]
  | waitForData | receivePair | emptyRead | shortRead | rejectPair | acceptPair | receiveSkip => rfl

end Receiver

namespace Link

/-- What is to be done before the next request, with polls and spins left out. -/
def effort (s : Link) : ℕ :=
  s.receiver.work + s.deviceWork + s.requests.arrived.length + 2 * s.requests.travelling.length

/-- Neither the host nor the device does anything but wait in the step. -/
def Idle (s : Link) : Option Action → Prop
  | none => True
  | some (.host n) => n = 0 ∧ s.receiver.host.Polls
  | some (.device _) => s.device.pc = .waitRequest ∧ s.requests.arrived = []
  | some .deliverRequest | some .deliverReply => False

/-- The link after an idle step: only the host may have gone on, from poll to poll. -/
structure Waited (s t : Link) : Prop where
  requests : t.requests = s.requests
  device : t.device = s.device
  replies : t.receiver.replies = s.receiver.replies
  host : t.receiver.host = s.receiver.host ∨ s.receiver.host.Polls ∧ t.receiver.host.Polls

theorem Waited.refl (s : Link) : Waited s s := ⟨rfl, rfl, rfl, .inl rfl⟩

theorem Waited.trans {s t u : Link} (h : Waited s t) (h' : Waited t u) : Waited s u := by
  refine ⟨h'.requests.trans h.requests, h'.device.trans h.device, h'.replies.trans h.replies, ?_⟩
  rcases h.host with heq | ⟨hs, ht⟩
  · rw [← heq]
    exact h'.host
  · rcases h'.host with heq | ⟨-, hu⟩
    · rw [heq]
      exact .inr ⟨hs, ht⟩
    · exact .inr ⟨hs, hu⟩

theorem effort_of_silent (s : Link) (r : Receiver) :
    effort { s with receiver := r, requests := s.requests.write [] } =
      r.work + s.deviceWork + s.requests.arrived.length + 2 * s.requests.travelling.length := by
  rw [Line.write_nil]
  rfl

theorem effort_lt_of_advances {s t : Link} (h : Advances s t)
    (hhost : t.receiver.host = s.receiver.host) :
    t.requests.history.length = s.requests.history.length + 1 ∨ t.effort < s.effort := by
  rcases h with h | ⟨-, hlt⟩
  · exact .inl h
  · right
    unfold work at hlt
    unfold effort Receiver.work
    rw [hhost] at hlt ⊢
    omega

theorem deviceStep_of_spins {s : Link} (hpc : s.device.pc = .waitRequest)
    (hempty : s.requests.arrived = []) (analogRead : AnalogPin → Fin 1024) :
    s.deviceStep analogRead = s := by
  unfold deviceStep
  simp [Device.step, hpc, hempty, frameBytes]

theorem length_written_of_sends {r t : Receiver} {n : ℕ} {events : List HostEvent}
    (m : Receiver.Move r n events t) (hsends : r.host.Sends) (hsize : r.host.tempBuf.length = 1) :
    (events.flatMap HostEvent.written).length = 1 := by
  cases m with
  | firstSend hpc => simp [HostEvent.written, hsize]
  | handlePair hpc =>
    rcases hsends with h | ⟨-, hfive⟩
    · rw [hpc] at h
      cases h
    · rw [Receiver.handleEvents_written, if_pos hfive, hsize]
  | waitForData hpc | receivePair hpc | emptyRead hpc | shortRead hpc | rejectPair _ _ hpc
  | acceptPair _ _ hpc | receiveSkip hpc =>
    rcases hsends with h | ⟨h, -⟩ <;> simp [hpc] at h

/-- A step writes a request, does part of the work before it, or is idle. -/
theorem effort_of_step {s t : Link} {a : Action} (hs : Live s) (hcond : ReadsLastFrame s a)
    (h : s.step a = some t) :
    t.requests.history.length = s.requests.history.length + 1 ∨ t.effort < s.effort ∨
      t.effort = s.effort ∧ Idle s (some a) := by
  have hadvance (hadvances : Advances s t) (hhost : t.receiver.host = s.receiver.host) :
      t.requests.history.length = s.requests.history.length + 1 ∨ t.effort < s.effort ∨
        t.effort = s.effort ∧ Idle s (some a) :=
    (effort_lt_of_advances hadvances hhost).imp_right .inl
  cases a with
  | host n =>
    cases move_of_step h with
    | host m =>
      by_cases hsends : s.receiver.host.Sends
      · left
        simp only [Line.history_write, List.length_append,
          length_written_of_sends m hsends hs.size]
      · right
        rw [Receiver.written_of_move m hsends, effort_of_silent]
        unfold effort
        rcases Receiver.work_of_move m hcond.2 with habs | hlt | ⟨heq, hpolls⟩
        · exact absurd habs hsends
        · left
          omega
        · right
          exact ⟨by omega, hpolls⟩
  | device analogRead =>
    cases h
    by_cases hspin : s.device.pc = .waitRequest ∧ s.requests.arrived = []
    · rw [deviceStep_of_spins hspin.1 hspin.2]
      exact .inr (.inr ⟨rfl, hspin⟩)
    · exact hadvance (advances_of_device hs.flow analogRead
        fun hpc hempty => hspin ⟨hpc, hempty⟩) rfl
  | deliverRequest =>
    obtain ⟨l, hl, rfl⟩ := Option.map_eq_some_iff.mp h
    exact hadvance (advances_of_deliverRequest hl) rfl
  | deliverReply =>
    obtain ⟨l, hl, rfl⟩ := Option.map_eq_some_iff.mp h
    exact hadvance (advances_of_deliverReply hl) rfl

theorem pc_of_poll {s t : Link} {n : ℕ} (h : s.step (.host n) = some t) :
    (s.receiver.host.pc = .waitForData → t.receiver.host.pc = .receivePair) ∧
      (s.receiver.host.pc = .checkPair → s.receiver.host.buffer = [] →
        t.receiver.host.pc = .waitForData) := by
  cases move_of_step h with
  | host m => exact Receiver.pc_of_poll m

theorem eq_of_idle {s t : Link} {a : Option Action} (h : stuttering step s a = some t)
    (hidle : Idle s a) (ha : ∀ n, a ≠ some (.host n)) : t = s := by
  cases a with
  | none => exact (Option.some.inj h).symm
  | some a =>
    cases a with
    | host n => exact absurd rfl (ha n)
    | device analogRead =>
      cases h
      exact deviceStep_of_spins hidle.1 hidle.2 analogRead
    | deliverRequest | deliverReply => exact absurd hidle id

theorem waited_of_idle {s t : Link} {a : Option Action} (h : stuttering step s a = some t)
    (hidle : Idle s a) : Waited s t := by
  by_cases ha : ∀ n, a ≠ some (.host n)
  · rw [eq_of_idle h hidle ha]
    exact .refl s
  · push Not at ha
    obtain ⟨n, rfl⟩ := ha
    obtain ⟨rfl, hpolls⟩ := hidle
    have hstep : s.step (.host 0) = some t := h
    cases move_of_step hstep with
    | host m =>
      obtain ⟨hpolls', hline, hwritten⟩ := Receiver.polls_of_move m hpolls
      refine ⟨?_, rfl, hline, .inr ⟨hpolls, hpolls'⟩⟩
      dsimp only
      rw [hwritten, Line.write_nil]

/-! ## Fair runs -/

/-- The host's next step is no read, and if it is `WaitCommEvent` a byte is there. -/
def HostReady (s : Link) : Prop :=
  match s.receiver.host.pc with
  | .waitForData => s.receiver.replies.arrived ≠ []
  | .receivePair | .receiveSkip => False
  | .firstSend | .checkPair | .handlePair => True

/-- The host's next step is a read that can return all it asks for. -/
def ReadReady (s : Link) : Prop :=
  0 < s.receiver.host.asks ∧ s.receiver.host.asks ≤ s.receiver.replies.arrived.length

/-- No part of the link is left out for ever. Anything may happen between its steps. -/
structure Fair (r : InfiniteRun (stuttering step)) : Prop where
  host : r.WeaklyFair HostReady fun _ a => ∃ n, a = some (.host n)
  read : r.StronglyFair ReadReady fun _ a => ∃ n, n ≠ 0 ∧ a = some (.host n)
  device : r.WeaklyFair (fun s => ¬ (s.device.pc = .waitRequest ∧ s.requests.arrived = []))
    fun _ a => ∃ analogRead, a = some (.device analogRead)
  deliverRequest : r.WeaklyFair (fun s => s.requests.travelling ≠ [])
    fun _ a => a = some .deliverRequest
  deliverReply : r.WeaklyFair (fun s => s.receiver.replies.travelling ≠ [])
    fun _ a => a = some .deliverReply

theorem Fair.drop {r : InfiniteRun (stuttering step)} (h : Fair r) (m : ℕ) : Fair (r.drop m) :=
  ⟨h.host.drop m, h.read.drop m, h.device.drop m, h.deliverRequest.drop m, h.deliverReply.drop m⟩

variable {r : InfiniteRun (stuttering step)}

/-- A run that is idle all the time does not leave the state it starts in, polls apart. -/
theorem waited_of_idle_run (hidle : ∀ n, Idle (r.state n) (r.action n)) (n : ℕ) :
    Waited (r.state 0) (r.state n) := by
  apply r.invariant Idle _ (.refl _) hidle
  intro s a t hs hi hstep
  exact hs.trans (waited_of_idle hstep hi)

theorem Fair.answer_waits (hfair : Fair r) (hidle : ∀ n, Idle (r.state n) (r.action n))
    (hlive : Live (r.state 0)) (htoken : (r.state 0).receiver.host.holdsToken = false) :
    2 ≤ (r.state 0).receiver.replies.arrived.length := by
  have hwaited := waited_of_idle_run hidle
  have hrequests : (r.state 0).requests.travelling = [] := by
    by_contra hne
    obtain ⟨m, -, hm⟩ := hfair.deliverRequest 0 fun m _ => by
      dsimp only
      rwa [(hwaited m).requests]
    have hi := hidle m
    rw [hm] at hi
    exact hi
  have hreplies : (r.state 0).receiver.replies.travelling = [] := by
    by_contra hne
    obtain ⟨m, -, hm⟩ := hfair.deliverReply 0 fun m _ => by
      dsimp only
      rwa [(hwaited m).replies]
    have hi := hidle m
    rw [hm] at hi
    exact hi
  have hdevice : (r.state 0).device.pc = .waitRequest ∧ (r.state 0).requests.arrived = [] := by
    by_contra hbusy
    obtain ⟨m, -, analogRead, hm⟩ := hfair.device 0 fun m _ => by
      dsimp only
      rwa [(hwaited m).requests, (hwaited m).device]
    have hi := hidle m
    rw [hm, Idle, (hwaited m).requests, (hwaited m).device] at hi
    exact hbusy hi
  have hunread : (r.state 0).requests.unread.length = 0 := by
    rw [Line.unread, hdevice.2, hrequests]
    rfl
  have hle := hlive.outstanding hdevice.1 hunread htoken
  rwa [Line.unread, hreplies, List.append_nil] at hle

theorem Fair.read_ready (hfair : Fair r) (hidle : ∀ n, Idle (r.state n) (r.action n))
    (hpolls : (r.state 0).receiver.host.Polls)
    (harrived : 2 ≤ (r.state 0).receiver.replies.arrived.length) :
    ∃ m, ReadReady (r.state m) := by
  have hwaited := waited_of_idle_run hidle
  by_contra hnone
  push Not at hnone
  have hbytes (m : ℕ) : 2 ≤ (r.state m).receiver.replies.arrived.length := by
    rwa [(hwaited m).replies]
  have hpc (m : ℕ) : (r.state m).receiver.host.pc = .waitForData ∨
      (r.state m).receiver.host.pc = .checkPair ∧ (r.state m).receiver.host.buffer = [] := by
    have hle := hbytes m
    have hpolls' : (r.state m).receiver.host.Polls := by
      rcases (hwaited m).host with heq | ⟨-, h⟩
      · rwa [heq]
      · exact h
    rcases hpolls' with h | h | h
    · exact .inl h
    · have hasks := Receiver.asks_receivePair h
      exact absurd ⟨by omega, by omega⟩ (hnone m)
    · exact .inr h
  have hready (m : ℕ) : HostReady (r.state m) := by
    unfold HostReady
    rcases hpc m with h | ⟨h, -⟩
    · rw [h]
      exact List.ne_nil_of_length_pos (Nat.lt_of_lt_of_le Nat.two_pos (hbytes m))
    · rw [h]
      trivial
  -- The host goes on again and again, but from `checkPair` only once.
  have hends := r.recurs_or_idles (fun _ => False) (fun n => ∀ c, r.action n ≠ some (.host c))
    (fun s => if s.receiver.host.pc = .checkPair then 1 else 0) fun n => by
      by_cases ha : ∀ c, r.action n ≠ some (.host c)
      · rw [eq_of_idle (r.steps n) (hidle n) ha]
        exact .inr (.inr ⟨rfl, ha⟩)
      · push Not at ha
        obtain ⟨c, hc⟩ := ha
        have hstep := r.steps n
        rw [hc] at hstep
        obtain ⟨hread, hwait⟩ := pc_of_poll (n := c) hstep
        rcases hpc n with h | ⟨h, hbuf⟩
        · have hnext := hread h
          rcases hpc (n + 1) with h' | ⟨h', -⟩
          · rw [hnext] at h'
            cases h'
          · rw [hnext] at h'
            cases h'
        · rw [if_pos h, hwait h hbuf]
          exact .inr (.inl Nat.one_pos)
  rcases hends with hgoal | ⟨k, hk⟩
  · obtain ⟨-, -, habs⟩ := hgoal 0
    exact habs
  · obtain ⟨m, hm, c, hc⟩ := hfair.host k fun m _ => hready m
    exact hk m hm c hc

/-- A fair run of an exchange that is alive does not stay idle. -/
theorem Fair.not_idles (hfair : Fair r) (hlive : Live (r.state 0)) :
    ¬ ∀ n, Idle (r.state n) (r.action n) := by
  intro hidle
  have hwaited := waited_of_idle_run hidle
  have hread (h : ∀ k, 0 ≤ k → ∃ m, k ≤ m ∧ ReadReady (r.state m)) : False := by
    obtain ⟨m, -, n, hn, ha⟩ := hfair.read 0 h
    have hi := hidle m
    rw [ha] at hi
    exact hn hi.1
  by_cases hpolls : (r.state 0).receiver.host.Polls
  · have harrived := hfair.answer_waits hidle hlive hpolls.holdsToken
    apply hread
    intro k _
    have hpolls' : (r.state k).receiver.host.Polls := by
      rcases (hwaited k).host with heq | ⟨-, h⟩
      · rwa [heq]
      · exact h
    obtain ⟨m, hm⟩ := (hfair.drop k).read_ready (fun n => hidle (k + n)) hpolls'
      ((hwaited k).replies ▸ harrived)
    exact ⟨k + m, Nat.le_add_right k m, hm⟩
  · have hhost (n : ℕ) : (r.state n).receiver.host = (r.state 0).receiver.host := by
      rcases (hwaited n).host with heq | ⟨h, -⟩
      · exact heq
      · exact absurd h hpolls
    by_cases hskip : (r.state 0).receiver.host.pc = .receiveSkip
    · have harrived := hfair.answer_waits hidle hlive (by simp [Host.holdsToken, hskip])
      have hasks := (Receiver.asks_receiveSkip hskip).trans hlive.size
      have hready : ReadReady (r.state 0) := ⟨by omega, by omega⟩
      apply hread
      intro k _
      refine ⟨k, le_refl k, ?_⟩
      unfold ReadReady
      rwa [hhost k, (hwaited k).replies]
    · obtain ⟨m, -, n, ha⟩ := hfair.host 0 fun m _ => by
        unfold HostReady
        rw [hhost m]
        cases hpc : (r.state 0).receiver.host.pc with
        | receiveSkip => exact absurd hpc hskip
        | waitForData => exact absurd (.inl hpc) hpolls
        | receivePair => exact absurd (.inr (.inl hpc)) hpolls
        | firstSend | checkPair | handlePair => trivial
      have hi := hidle m
      rw [ha, Idle, hhost m] at hi
      exact hpolls hi.2

/-! ## The exchange -/

/-- Each step meets the condition under which the exchange stays alive. -/
def ReadsLastFrames (r : InfiniteRun (stuttering step)) : Prop :=
  ∀ n a, r.action n = some a → ReadsLastFrame (r.state n) a

theorem live_of_infiniteRun (hlive : Live (r.state 0)) (hreads : ReadsLastFrames r) (n : ℕ) :
    Live (r.state n) := by
  apply r.invariant (fun s a => ∀ b, a = some b → ReadsLastFrame s b) _ hlive hreads
  intro s a t hs hcond hstep
  cases a with
  | none =>
    cases hstep
    exact hs
  | some a => exact live_of_move hs (hcond a rfl) (move_of_step hstep)

theorem sends_or_idles (hlive : Live (r.state 0)) (hreads : ReadsLastFrames r) :
    (∀ n, ∃ m, n ≤ m ∧ (r.state (m + 1)).requests.history.length =
      (r.state m).requests.history.length + 1) ∨
      ∃ n, ∀ m, n ≤ m → Idle (r.state m) (r.action m) := by
  apply r.recurs_or_idles _ _ effort
  intro n
  have hstep := r.steps n
  cases ha : r.action n with
  | none =>
    rw [ha] at hstep
    rw [← Option.some.inj hstep]
    exact .inr (.inr ⟨rfl, trivial⟩)
  | some a =>
    rw [ha] at hstep
    exact effort_of_step (live_of_infiniteRun hlive hreads n) (hreads n a ha) hstep

/-- Nothing that was written to the device or sent by it is ever unwritten. -/
def Extends (s t : Link) : Prop :=
  s.requests.history.length ≤ t.requests.history.length ∧ s.sent <+: t.sent

theorem extends_of_step {s t : Link} {a : Option Action} (h : stuttering step s a = some t) :
    Extends s t := by
  cases a with
  | none =>
    cases h
    exact ⟨le_refl _, List.prefix_rfl⟩
  | some a =>
    have hstep : s.step a = some t := h
    cases move_of_step hstep with
    | host m => exact ⟨by simp, List.prefix_rfl⟩
    | spin | wake | drained => exact ⟨le_refl _, List.prefix_rfl⟩
    | drain => exact ⟨by simp, List.prefix_rfl⟩
    | frame => exact ⟨le_refl _, List.prefix_append _ _⟩
    | deliverRequest hl =>
      obtain ⟨-, -, hhist⟩ := Line.deliver_spec hl
      exact ⟨(congrArg List.length hhist).ge, List.prefix_rfl⟩
    | deliverReply hl => exact ⟨le_refl _, List.prefix_rfl⟩

theorem extends_of_le (r : InfiniteRun (stuttering step)) {m n : ℕ} (hle : m ≤ n) :
    Extends (r.state m) (r.state n) := by
  apply r.forall_later (R := Extends) (fun s => ⟨le_refl _, List.prefix_rfl⟩) _ hle
  intro s t a u h hstep
  obtain ⟨hcount, hsent⟩ := extends_of_step hstep
  exact ⟨h.1.trans hcount, h.2.trans hsent⟩

theorem requests_reach (h : ∀ n, ∃ m, n ≤ m ∧ (r.state (m + 1)).requests.history.length =
    (r.state m).requests.history.length + 1) (k : ℕ) :
    ∃ n, k ≤ (r.state n).requests.history.length := by
  induction k with
  | zero => exact ⟨0, Nat.zero_le _⟩
  | succ k ih =>
    obtain ⟨n, hn⟩ := ih
    obtain ⟨m, hm, hcount⟩ := h n
    have hle := (extends_of_le r hm).1
    exact ⟨m + 1, by omega⟩

theorem Fair.requests_reach (hfair : Fair r) (hlive : Live (r.state 0))
    (hreads : ReadsLastFrames r) (k : ℕ) : ∃ n, k ≤ (r.state n).requests.history.length := by
  rcases sends_or_idles hlive hreads with hsends | ⟨n, hidle⟩
  · exact Link.requests_reach hsends k
  · have hnot := (hfair.drop n).not_idles (live_of_infiniteRun hlive hreads n)
    exact absurd (fun m => hidle (n + m) (Nat.le_add_right n m)) hnot

end Link
end AudioCtrl.Serial
