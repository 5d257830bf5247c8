import AudioCtrl.Serial.FlowControl

/-!
# What the device does for its requests

The device leaves its wait only for a request, has read at least one when the drain
loop ends, and then writes the six frames in order. None of this depends on
the host or on what becomes of the replies.
-/

namespace AudioCtrl.Serial.Link

open PartialRun

/-- The device's side of the exchange. -/
structure Serving (s : Link) : Prop where
  slider : ∀ j f, s.sent[j]? = some f → f.slider = j % 6
  place : s.sent.length % 6 = s.device.frameIndex
  woken : s.device.pc = .drainRequests →
    ∃ m ds, s.device.drains = m :: ds ∧ (m = 0 → s.requests.arrived ≠ [])
  ended : ∀ m ∈ s.device.endedDrains, 1 ≤ m
  total : s.device.drains.sum = s.requests.taken.length

theorem serving_start (pending : List UInt8) : Serving (start pending) where
  slider := by simp [start]
  place := rfl
  woken := by simp [start, Device.idle]
  ended := by simp [start, Device.idle, Device.endedDrains]
  total := rfl

theorem Serving.of_same {s t : Link} (hs : Serving s) (hdevice : t.device = s.device)
    (hsent : t.sent = s.sent) (htaken : t.requests.taken = s.requests.taken)
    (harrived : s.requests.arrived ≠ [] → t.requests.arrived ≠ []) : Serving t := by
  refine ⟨hsent ▸ hs.slider, ?_, ?_, ?_, ?_⟩
  · rw [hsent, hdevice]
    exact hs.place
  · rw [hdevice]
    intro hpc
    obtain ⟨m, ds, hds, hwoken⟩ := hs.woken hpc
    exact ⟨m, ds, hds, fun hm => harrived (hwoken hm)⟩
  · rw [hdevice]
    exact hs.ended
  · rw [hdevice, htaken]
    exact hs.total

theorem Serving.wake {s : Link} (hs : Serving s) (hpc : s.device.pc = .waitRequest)
    (hsome : s.requests.arrived ≠ []) :
    Serving { s with device := ⟨.drainRequests, 0 :: s.device.drains⟩ } := by
  have hidx : s.device.frameIndex = 0 := by simp [Device.frameIndex, hpc]
  refine ⟨hs.slider, hs.place.trans hidx, fun _ => ⟨0, s.device.drains, rfl, fun _ => hsome⟩,
    ?_, ?_⟩
  · simpa [Device.endedDrains, hpc] using hs.ended
  · simpa using hs.total

theorem Serving.drain {s : Link} (hs : Serving s) (hpc : s.device.pc = .drainRequests)
    (hsome : s.requests.arrived ≠ []) :
    Serving { s with device := s.device.countRead, requests := s.requests.take 1 } := by
  obtain ⟨m, ds, hds, -⟩ := hs.woken hpc
  have hcount : s.device.countRead = ⟨.drainRequests, (m + 1) :: ds⟩ := by
    unfold Device.countRead
    rw [hds, ← hpc]
    rfl
  have hone : 1 ≤ s.requests.arrived.length := List.length_pos_iff.mpr hsome
  have hidx : s.device.frameIndex = 0 := by simp [Device.frameIndex, hpc]
  rw [hcount]
  refine ⟨hs.slider, hs.place.trans hidx, fun _ => ⟨m + 1, ds, rfl, by simp⟩, ?_, ?_⟩
  · simpa [Device.endedDrains, hpc, hds] using hs.ended
  · have htotal := hs.total
    rw [hds, List.sum_cons] at htotal
    simp only [List.sum_cons, Line.taken_take, List.length_append, List.length_take]
    omega

theorem Serving.busy_of_drained {s : Link} (hs : Serving s) (hpc : s.device.pc = .drainRequests)
    (hempty : s.requests.arrived = []) : s.device.busy = true := by
  obtain ⟨m, ds, hds, hwoken⟩ := hs.woken hpc
  have hpos : 0 < m := Nat.pos_of_ne_zero fun hm => hwoken hm hempty
  simp [Device.busy, hpc, hds, hpos]

theorem Serving.drained {s : Link} (hs : Serving s) (hpc : s.device.pc = .drainRequests)
    (hempty : s.requests.arrived = []) :
    Serving { s with device := { s.device with pc := .writeFrame 0 } } := by
  obtain ⟨m, ds, hds, hwoken⟩ := hs.woken hpc
  have hpos : 0 < m := Nat.pos_of_ne_zero fun hm => hwoken hm hempty
  have hidx : s.device.frameIndex = 0 := by simp [Device.frameIndex, hpc]
  refine ⟨hs.slider, hs.place.trans hidx, by simp, ?_, hs.total⟩
  have hended := hs.ended
  simp only [Device.endedDrains, hpc, hds, List.tail_cons] at hended ⊢
  exact List.forall_mem_cons.mpr ⟨hpos, hended⟩

theorem Serving.frame {s : Link} (hs : Serving s) (analogRead : AnalogPin → Fin 1024) {i : Fin 6}
    (hpc : s.device.pc = .writeFrame i) (receiver : Receiver) :
    Serving { receiver
              device := { s.device with pc := Device.afterFrame i }
              requests := s.requests
              sent := s.sent ++ [sliderFrame analogRead i] } := by
  have hidx : s.device.frameIndex = i.val := by simp [Device.frameIndex, hpc]
  have hplace := hs.place
  have hslider : (sliderFrame analogRead i).slider = i.val := rfl
  rw [hidx] at hplace
  refine ⟨?_, ?_, fun hdrain => absurd hdrain (afterFrame_ne_drain i), ?_, hs.total⟩
  · intro j f hf
    dsimp only at hf
    rcases Nat.lt_or_ge j s.sent.length with hlt | hge
    · rw [List.getElem?_append_left hlt] at hf
      exact hs.slider j f hf
    · rw [List.getElem?_append_right hge, List.getElem?_singleton] at hf
      split_ifs at hf with hj
      obtain rfl := Option.some.inj hf
      rw [hslider]
      omega
  · have hafter := afterFrame_spec s.device i
    simp only [List.length_append, List.length_singleton]
    omega
  · rw [endedDrains_afterFrame]
    simpa [Device.endedDrains, hpc] using hs.ended

theorem Serving.of_move {s t : Link} {a : Action} (hs : Serving s) (m : Move s a t) :
    Serving t := by
  cases m with
  | host => exact hs.of_same rfl rfl rfl id
  | spin => exact hs
  | wake analogRead hpc hsome => exact hs.wake hpc hsome
  | drain analogRead hpc hsome => exact hs.drain hpc hsome
  | drained analogRead hpc hempty => exact hs.drained hpc hempty
  | frame analogRead i hpc => exact hs.frame analogRead hpc _
  | deliverRequest hl =>
    obtain ⟨x, xs, -, rfl⟩ := Line.deliver_eq_some.mp hl
    exact hs.of_same rfl rfl rfl fun _ =>
      List.append_ne_nil_of_right_ne_nil _ (List.cons_ne_nil _ _)
  | deliverReply => exact hs.of_same rfl rfl rfl id

/-! ## Rounds -/

theorem length_le_sum {ms : List ℕ} (h : ∀ m ∈ ms, 1 ≤ m) : ms.length ≤ ms.sum := by
  induction ms with
  | nil => exact le_refl _
  | cons m ms ih =>
    obtain ⟨hm, hms⟩ := List.forall_mem_cons.mp h
    have hle := ih hms
    rw [List.length_cons, List.sum_cons]
    omega

theorem Serving.endedDrains_le {s : Link} (hs : Serving s) :
    s.device.endedDrains.length ≤ s.requests.taken.length := by
  have hended := length_le_sum hs.ended
  have htotal := hs.total
  have hsum : s.device.endedDrains.sum ≤ s.device.drains.sum := by
    unfold Device.endedDrains
    split
    · exact s.device.drains.tail_sublist.sum_le_sum fun _ _ => Nat.zero_le _
    · exact le_refl _
  omega

def framesLeft (d : Device) : ℕ :=
  match d.pc with
  | .waitRequest => 0
  | .drainRequests => 6
  | .writeFrame i => 6 - i

def WritesRounds (s : Link) : Prop :=
  s.sent.length + framesLeft s.device = 6 * s.device.drains.length

theorem writesRounds_of_move {s t : Link} {a : Action} (hs : WritesRounds s) (m : Move s a t) :
    WritesRounds t := by
  unfold WritesRounds at hs ⊢
  cases m with
  | host | spin | deliverRequest | deliverReply => exact hs
  | wake analogRead hpc hsome =>
    simp only [framesLeft, hpc, List.length_cons] at hs ⊢
    omega
  | drain analogRead hpc hsome =>
    simp only [framesLeft, hpc, Device.countRead, List.length_modifyHead] at hs ⊢
    exact hs
  | drained analogRead hpc hempty =>
    simp only [framesLeft, hpc] at hs ⊢
    exact hs
  | frame analogRead i hpc =>
    simp only [framesLeft, hpc] at hs
    simp only [Device.afterFrame, List.length_append, List.length_singleton]
    split_ifs with hlast
    · simp only [framesLeft]
      omega
    · simp only [framesLeft]
      omega

theorem Serving.sent_le {s : Link} (hs : Serving s) (hwrites : WritesRounds s) :
    s.sent.length ≤ 6 * s.requests.taken.length := by
  have hended := hs.endedDrains_le
  unfold WritesRounds framesLeft at hwrites
  unfold Device.endedDrains at hended
  cases hpc : s.device.pc with
  | waitRequest | writeFrame i =>
    simp only [hpc] at hwrites hended
    omega
  | drainRequests =>
    simp only [hpc, List.length_tail] at hwrites hended
    omega

end AudioCtrl.Serial.Link
