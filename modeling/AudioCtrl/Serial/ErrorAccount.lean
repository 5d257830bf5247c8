import AudioCtrl.Foundations.Damage
import AudioCtrl.Serial.Resync

/-!
# What transmission errors cost

The host finds the boundaries of frames by their top bits. It is between two pairs, in a
pair or before a skip, and the line is between two frames or inside one; how many frames
can still go wrong is a number for each combination. Every error raises it by a bounded
amount, every byte read without an error pays from it for the frame that went wrong.
-/

namespace AudioCtrl.Serial

/-- What the loop takes the next byte of its stream for. -/
inductive Hand where
  | first
  | second (b0 : UInt8)
  | skip

namespace Hand

def next : Hand → UInt8 → Hand
  | first, b => second b
  | second b0, b => if rejects b0 b then skip else first
  | skip, _ => first

def yields : Hand → UInt8 → List (ℕ × ℕ)
  | second b0, b => if rejects b0 b then [] else [(sliderOf b0, valueOf b0 b)]
  | first, _ | skip, _ => []

/-- The frames that can go wrong without a further error; `inside` is the frame whose second
byte comes next on the line. -/
def owed : Hand → Option Frame → ℕ
  | first, none => 0
  | first, some _ => 2
  | second _, none => 1
  | second b0, some f => if b0 = f.byte0 then 0 else if b0.toNat < 128 then 1 else 3
  | skip, none => 2
  | skip, some _ => 1

/-- The same for pairs that were not sent, in halves. -/
def spurious : Hand → Option Frame → ℕ
  | second b0, none => if b0.toNat < 128 then 1 else 0
  | second b0, some f => if b0 = f.byte0 then 0 else if b0.toNat < 128 then 2 else 0
  | first, _ | skip, _ => 0

variable (hand : Hand) (f : Frame) (inside : Option Frame) (z : UInt8)

/-! ## A byte that arrives as it was sent -/

theorem yields_byte0 : hand.yields f.byte0 = [] := by
  cases hand with
  | first | skip => rfl
  | second b0 => simp [yields, Receiver.rejects_byte0]

theorem next_byte0 : (hand.next f.byte0).owed (some f) ≤ hand.owed none ∧
    (hand.next f.byte0).spurious (some f) ≤ hand.spurious none := by
  cases hand with
  | first | skip => simp [next, owed, spurious]
  | second b0 => simp [next, owed, spurious, Receiver.rejects_byte0]

theorem next_byte1 : hand = second f.byte0 ∨
    (hand.next f.byte1).owed none + 1 ≤ hand.owed (some f) ∧
      2 * (hand.yields f.byte1).length + (hand.next f.byte1).spurious none ≤
        hand.spurious (some f) := by
  have hge := f.byte1_ge
  cases hand with
  | first | skip => simp [next, yields, owed, spurious, hge]
  | second b0 =>
    by_cases hb : b0 = f.byte0
    · exact .inl (hb ▸ rfl)
    · have hrej : rejects b0 f.byte1 = false ↔ b0.toNat < 128 := by
        simp [rejects_eq_false_iff, hge]
      by_cases hlow : b0.toNat < 128
      · simp [next, yields, owed, spurious, hb, hlow, hrej.mpr hlow]
      · have hrej' : rejects b0 f.byte1 = true := by
          rwa [← Bool.not_eq_false, hrej]
        simp [next, yields, owed, spurious, hb, hlow, hrej']

theorem next_second_byte0 : (second f.byte0).next f.byte1 = first ∧
    (second f.byte0).yields f.byte1 = [f.pair] := by
  simp [next, yields, f.accepted, Frame.pair]

/-! ## Errors -/

theorem owed_lost : hand.owed (some f) ≤ hand.owed none + 2 ∧
    hand.owed none + 1 ≤ hand.owed (some f) + 2 := by
  cases hand with
  | first | skip => simp [owed]
  | second b0 =>
    simp only [owed]
    split_ifs <;> omega

theorem spurious_lost : hand.spurious (some f) ≤ hand.spurious none + 1 ∧
    hand.spurious none ≤ hand.spurious (some f) + 1 := by
  cases hand with
  | first | skip => simp [spurious]
  | second b0 =>
    have hlow := f.byte0_lt
    by_cases hb : b0 = f.byte0
    · simp [spurious, hb, hlow]
    · simp only [spurious, if_neg hb]
      split_ifs <;> omega

theorem owed_second_le (b0 : UInt8) : (second b0).owed (some f) ≤ 3 := by
  simp only [owed]
  split_ifs <;> decide

theorem spurious_second_le (b0 : UInt8) (inside : Option Frame) :
    (second b0).spurious inside ≤ 2 := by
  cases inside <;> simp only [spurious] <;> split_ifs <;> decide

theorem owed_inserted : (hand.next z).owed inside ≤ hand.owed inside + 2 := by
  cases hand with
  | first =>
    cases inside with
    | none => simp [next, owed]
    | some f => exact (owed_second_le f z).trans (by simp [owed])
  | second b0 =>
    cases inside <;> simp only [next, owed] <;> split_ifs <;> simp
  | skip => cases inside <;> simp [next, owed]

theorem spurious_inserted : 2 * (hand.yields z).length + (hand.next z).spurious inside ≤
    hand.spurious inside + 2 := by
  cases hand with
  | first => simpa [yields, next, spurious] using spurious_second_le z inside
  | second b0 => cases hrej : rejects b0 z <;> simp [next, yields, spurious, hrej]
  | skip => simp [next, yields, spurious]

theorem owed_changed : (hand.next z).owed (some f) ≤ hand.owed none + 3 ∧
    (hand.next z).owed none + 1 ≤ hand.owed (some f) + 3 := by
  cases hand with
  | first => exact ⟨owed_second_le f z, by simp [next, owed]⟩
  | second b0 => cases hrej : rejects b0 z <;> simp [next, owed, hrej]
  | skip => simp [next, owed]

theorem spurious_changed :
    2 * (hand.yields z).length + (hand.next z).spurious (some f) ≤ hand.spurious none + 2 ∧
      2 * (hand.yields z).length + (hand.next z).spurious none ≤ hand.spurious (some f) + 2 := by
  cases hand with
  | first => exact ⟨by simpa [yields, next, spurious] using spurious_second_le z (some f),
      by simpa [yields, next, spurious] using spurious_second_le z none⟩
  | second b0 => cases hrej : rejects b0 z <;> simp [next, yields, spurious, hrej]
  | skip => simp [next, yields, spurious]

end Hand

/-! ## The account of a stream -/

/-- The frames that were decoded as they were sent, the frame of which the line has passed on
the first byte only, the frames still to come, and the errors among the bytes still to come. -/
structure Account where
  good : List Frame
  inside : Option Frame
  rest : List Frame
  lost : ℕ
  inserted : ℕ
  changed : ℕ

/-- The bytes that the line has not passed on. -/
def Account.bytes (A : Account) : List UInt8 :=
  A.inside.toList.map Frame.byte1 ++ frameBytes A.rest

/-- With `budget` for frames and `credit` for pairs the account is balanced: `fs` have been sent,
the loop has decoded `decoded` and takes the next byte of `stream` for `hand`. -/
structure Account.Covers (A : Account) (budget credit : ℕ) (fs : List Frame) (hand : Hand)
    (decoded : List (ℕ × ℕ)) (stream : List UInt8) : Prop where
  damaged : Damaged A.lost A.inserted A.changed A.bytes stream
  order : (A.good ++ (A.inside.toList ++ A.rest)).Sublist fs
  among : (A.good.map Frame.pair).Sublist decoded
  frames : fs.length + hand.owed A.inside + (2 * A.lost + 2 * A.inserted + 3 * A.changed) ≤
    A.good.length + (A.inside.toList.length + A.rest.length) + budget
  pairs : 2 * decoded.length + hand.spurious A.inside + (A.lost + 2 * A.inserted + 2 * A.changed) ≤
    2 * A.good.length + credit

namespace Account

variable {A : Account} {budget credit : ℕ} {fs : List Frame} {hand : Hand}
  {decoded : List (ℕ × ℕ)} {stream : List UInt8}

theorem Covers.weaken (h : A.Covers budget credit fs hand decoded stream) {budget' credit' : ℕ}
    (hb : budget ≤ budget') (hc : credit ≤ credit') :
    A.Covers budget' credit' fs hand decoded stream where
  damaged := h.damaged
  order := h.order
  among := h.among
  frames := h.frames.trans (Nat.add_le_add_left hb _)
  pairs := h.pairs.trans (Nat.add_le_add_left hc _)

/-- A balanced account follows where the frames decoded are the same and `d` pays for the rest. -/
theorem Covers.move (h : A.Covers budget credit fs hand decoded stream) {B : Account}
    {hand' : Hand} {new : List (ℕ × ℕ)} {stream' : List UInt8} {d : ℕ}
    (hgood : B.good = A.good)
    (hdamaged : Damaged B.lost B.inserted B.changed B.bytes stream')
    (horder : (B.inside.toList ++ B.rest).Sublist (A.inside.toList ++ A.rest))
    (hframes : hand'.owed B.inside + (2 * B.lost + 2 * B.inserted + 3 * B.changed) +
        (A.inside.toList.length + A.rest.length) ≤
      hand.owed A.inside + (2 * A.lost + 2 * A.inserted + 3 * A.changed) +
        (B.inside.toList.length + B.rest.length) + d)
    (hpairs : 2 * new.length + hand'.spurious B.inside +
        (B.lost + 2 * B.inserted + 2 * B.changed) ≤
      hand.spurious A.inside + (A.lost + 2 * A.inserted + 2 * A.changed)) :
    B.Covers (budget + d) credit fs hand' (decoded ++ new) stream' where
  damaged := hdamaged
  order := by
    rw [hgood]
    exact ((List.Sublist.refl _).append horder).trans h.order
  among := by
    rw [hgood]
    exact h.among.trans (List.sublist_append_left _ _)
  frames := by
    have hle := h.frames
    rw [hgood]
    omega
  pairs := by
    have hle := h.pairs
    rw [hgood, List.length_append]
    omega

theorem bytes_cons {b : UInt8} {bs : List UInt8} (h : A.bytes = b :: bs) :
    (∃ f rest, A.inside = none ∧ A.rest = f :: rest ∧ b = f.byte0 ∧
      bs = f.byte1 :: frameBytes rest) ∨
    ∃ f, A.inside = some f ∧ b = f.byte1 ∧ bs = frameBytes A.rest := by
  obtain ⟨good, inside, rest, lost, inserted, changed⟩ := A
  cases inside with
  | some f =>
    simp only [bytes, Option.toList_some, List.map_cons, List.map_nil, List.cons_append,
      List.nil_append, List.cons.injEq] at h
    exact .inr ⟨f, rfl, h.1.symm, h.2.symm⟩
  | none =>
    cases rest with
    | nil => simp [bytes] at h
    | cons f rest =>
      simp only [bytes, Option.toList_none, List.map_nil, List.nil_append, frameBytes_cons,
        List.cons.injEq] at h
      exact .inl ⟨f, rest, rfl, rfl, h.1.symm, h.2.symm⟩

theorem Covers.advance (h : A.Covers budget credit fs hand decoded stream) {b : UInt8}
    {bs : List UInt8} (hbytes : A.bytes = b :: bs) {l i c : ℕ} {stream' : List UInt8}
    (hdamaged : Damaged l i c bs stream') {hand' : Hand} {new : List (ℕ × ℕ)} (d : ℕ)
    (hbegin : ∀ f, b = f.byte0 →
      hand'.owed (some f) + (2 * l + 2 * i + 3 * c) ≤
        hand.owed none + (2 * A.lost + 2 * A.inserted + 3 * A.changed) + d ∧
      2 * new.length + hand'.spurious (some f) + (l + 2 * i + 2 * c) ≤
        hand.spurious none + (A.lost + 2 * A.inserted + 2 * A.changed))
    (hend : ∀ f, A.inside = some f → b = f.byte1 →
      hand'.owed none + 1 + (2 * l + 2 * i + 3 * c) ≤
        hand.owed (some f) + (2 * A.lost + 2 * A.inserted + 3 * A.changed) + d ∧
      2 * new.length + hand'.spurious none + (l + 2 * i + 2 * c) ≤
        hand.spurious (some f) + (A.lost + 2 * A.inserted + 2 * A.changed)) :
    ∃ B : Account, B.lost = l ∧
      B.Covers (budget + d) credit fs hand' (decoded ++ new) stream' := by
  rcases bytes_cons hbytes with ⟨f, rest, hinside, hrest, hb, hbs⟩ | ⟨f, hinside, hb, hbs⟩
  · obtain ⟨howed, hspurious⟩ := hbegin f hb
    refine ⟨⟨A.good, some f, rest, l, i, c⟩, rfl, ?_⟩
    refine h.move rfl ?_ ?_ ?_ ?_
    · simpa [bytes, ← hbs] using hdamaged
    · simp [hinside, hrest]
    · simp only [hinside, hrest, Option.toList_none, Option.toList_some, List.length_nil,
        List.length_cons]
      omega
    · rwa [hinside]
  · obtain ⟨howed, hspurious⟩ := hend f hinside hb
    refine ⟨⟨A.good, none, A.rest, l, i, c⟩, rfl, ?_⟩
    refine h.move rfl ?_ ?_ ?_ ?_
    · simpa [bytes, ← hbs] using hdamaged
    · simp
    · simp only [hinside, Option.toList_none, Option.toList_some, List.length_nil,
        List.length_singleton]
      omega
    · rwa [hinside]

theorem Covers.lost_one (h : A.Covers budget credit fs hand decoded stream) {b : UInt8}
    {bs : List UInt8} (hbytes : A.bytes = b :: bs) {l : ℕ} (hlost : A.lost = l + 1)
    (hdamaged : Damaged l A.inserted A.changed bs stream) :
    ∃ B : Account, B.lost = l ∧ B.Covers budget credit fs hand decoded stream := by
  rw [← List.append_nil decoded]
  apply h.advance hbytes hdamaged 0
  · intro f hb
    have howed := (hand.owed_lost f).1
    have hspurious := (hand.spurious_lost f).1
    rw [List.length_nil]
    omega
  · intro f hinside hb
    have howed := (hand.owed_lost f).2
    have hspurious := (hand.spurious_lost f).2
    rw [List.length_nil]
    omega

theorem Covers.read_changed (h : A.Covers budget credit fs hand decoded stream) {b z : UInt8}
    {bs stream' : List UInt8} (hbytes : A.bytes = b :: bs) {c : ℕ} (hchanged : A.changed = c + 1)
    (hdamaged : Damaged A.lost A.inserted c bs stream') :
    ∃ B : Account, B.Covers budget credit fs (hand.next z) (decoded ++ hand.yields z) stream' := by
  refine (h.advance hbytes hdamaged 0 ?_ ?_).imp fun B hB => hB.2
  · intro f hb
    have howed := (hand.owed_changed f z).1
    have hspurious := (hand.spurious_changed f z).1
    omega
  · intro f hinside hb
    have howed := (hand.owed_changed f z).2
    have hspurious := (hand.spurious_changed f z).2
    omega

theorem Covers.read_inserted (h : A.Covers budget credit fs hand decoded stream) {z : UInt8}
    {stream' : List UInt8} {i : ℕ} (hinserted : A.inserted = i + 1)
    (hdamaged : Damaged A.lost i A.changed A.bytes stream') :
    ∃ B : Account, B.Covers budget credit fs (hand.next z) (decoded ++ hand.yields z) stream' := by
  have howed := hand.owed_inserted A.inside z
  have hspurious := hand.spurious_inserted A.inside z
  refine ⟨⟨A.good, A.inside, A.rest, A.lost, i, A.changed⟩, ?_⟩
  refine h.move (d := 0) rfl hdamaged (List.Sublist.refl _) ?_ ?_
  · dsimp only
    omega
  · dsimp only
    omega

theorem Covers.read_good (h : A.Covers budget credit fs hand decoded stream) {f : Frame}
    (hinside : A.inside = some f) (hhand : hand = .second f.byte0) {stream' : List UInt8}
    (hdamaged : Damaged A.lost A.inserted A.changed (frameBytes A.rest) stream') :
    ∃ B : Account, B.Covers budget credit fs (hand.next f.byte1)
      (decoded ++ hand.yields f.byte1) stream' := by
  obtain ⟨hnext, hyields⟩ := Hand.next_second_byte0 f
  have hframes := h.frames
  have hpairs := h.pairs
  have horder := h.order
  rw [hinside] at hframes hpairs horder
  rw [hhand, hnext, hyields]
  refine ⟨⟨A.good ++ [f], none, A.rest, A.lost, A.inserted, A.changed⟩, ?_, ?_, ?_, ?_, ?_⟩
  · simpa [bytes] using hdamaged
  · simpa using horder
  · rw [List.map_append]
    exact h.among.append (List.Sublist.refl _)
  · simp only [Hand.owed, Option.toList_none, Option.toList_some, List.length_append,
      List.length_nil, List.length_singleton] at hframes ⊢
    omega
  · simp only [Hand.spurious, List.length_append, List.length_singleton] at hpairs ⊢
    omega

theorem Covers.read_kept (h : A.Covers budget credit fs hand decoded stream) {b : UInt8}
    {bs stream' : List UInt8} (hbytes : A.bytes = b :: bs)
    (hdamaged : Damaged A.lost A.inserted A.changed bs stream') :
    ∃ B : Account, B.Covers budget credit fs (hand.next b) (decoded ++ hand.yields b) stream' := by
  by_cases hgood : ∃ f, A.inside = some f ∧ hand = .second f.byte0
  · obtain ⟨f, hinside, hhand⟩ := hgood
    rcases bytes_cons hbytes with ⟨_, _, hnone, -⟩ | ⟨g, hsome, rfl, rfl⟩
    · rw [hinside] at hnone
      cases hnone
    · obtain rfl : f = g := Option.some.inj (hinside.symm.trans hsome)
      exact h.read_good hinside hhand hdamaged
  · refine (h.advance hbytes hdamaged 0 ?_ ?_).imp fun B hB => hB.2
    · rintro f rfl
      have hnext := hand.next_byte0 f
      rw [hand.yields_byte0, List.length_nil]
      omega
    · rintro f hinside rfl
      rcases hand.next_byte1 f with hhand | hnext
      · exact absurd ⟨f, hinside, hhand⟩ hgood
      · omega

/-- The next byte of the stream is one of three kinds, once the losses before it have taken
place. -/
theorem Covers.consume {x : UInt8} {P : Prop}
    (h : A.Covers budget credit fs hand decoded (x :: stream))
    (hkept : ∀ (A : Account) bs, A.Covers budget credit fs hand decoded (x :: stream) →
      A.bytes = x :: bs → Damaged A.lost A.inserted A.changed bs stream → P)
    (hinserted : ∀ (A : Account) i, A.Covers budget credit fs hand decoded (x :: stream) →
      A.inserted = i + 1 → Damaged A.lost i A.changed A.bytes stream → P)
    (hchanged : ∀ (A : Account) b bs c, A.Covers budget credit fs hand decoded (x :: stream) →
      A.bytes = b :: bs → A.changed = c + 1 → Damaged A.lost A.inserted c bs stream → P) : P := by
  induction hlost : A.lost using Nat.strong_induction_on generalizing A with
  | _ n ih =>
    have hdamaged := h.damaged
    generalize hbytes : A.bytes = sent, hi : A.inserted = i, hc : A.changed = c at hdamaged
    rw [hlost] at hdamaged
    cases hdamaged with
    | keep _ hrest => exact hkept A _ h hbytes (by rwa [hlost, hi, hc])
    | insert _ hrest => exact hinserted A _ h hi (by rwa [hlost, hc, hbytes])
    | change b _ hrest => exact hchanged A b _ _ h hbytes hc (by rwa [hlost, hi])
    | @lose l _ _ _ _ b hrest =>
      obtain ⟨B, hB, hcovers⟩ := h.lost_one hbytes hlost (by rwa [hi, hc])
      exact ih l (Nat.lt_succ_self l) hcovers hB

theorem Covers.read {x : UInt8} (h : A.Covers budget credit fs hand decoded (x :: stream)) :
    ∃ B : Account, B.Covers budget credit fs (hand.next x) (decoded ++ hand.yields x) stream := by
  apply h.consume
  · intro A bs h hbytes hdamaged
    exact h.read_kept hbytes hdamaged
  · intro A i h hinserted hdamaged
    exact h.read_inserted hinserted hdamaged
  · intro A b bs c h hbytes hchanged hdamaged
    exact h.read_changed hbytes hchanged hdamaged

/-! ## Errors, further frames and reads of a single byte -/

theorem Covers.send (h : A.Covers budget credit fs hand decoded stream) (f : Frame) :
    ∃ B : Account, B.Covers budget credit (fs ++ [f]) hand decoded (stream ++ f.bytes) := by
  have hframes := h.frames
  refine ⟨⟨A.good, A.inside, A.rest ++ [f], A.lost, A.inserted, A.changed⟩, ?_, ?_, h.among, ?_,
    h.pairs⟩
  · have happend := h.damaged.append_same f.bytes
    simpa [bytes, Frame.bytes] using happend
  · have happend := h.order.append (List.Sublist.refl [f])
    simpa using happend
  · simp only [List.length_append, List.length_singleton]
    omega

theorem Covers.lose {read : List UInt8} (k : ℕ)
    (h : A.Covers budget credit fs hand decoded (read ++ stream)) :
    ∃ B : Account, B.Covers (budget + 2) (credit + 1) fs hand decoded
      (read ++ stream.eraseIdx k) := by
  have hframes := h.frames
  have hpairs := h.pairs
  refine ⟨⟨A.good, A.inside, A.rest, A.lost + 1, A.inserted, A.changed⟩, ?_, h.order, h.among,
    ?_, ?_⟩
  · have herase := h.damaged.eraseIdx (read.length + k)
    rwa [List.eraseIdx_append_of_length_le (Nat.le_add_right _ _), Nat.add_sub_cancel_left]
      at herase
  · dsimp only
    omega
  · dsimp only
    omega

theorem Covers.insert {read : List UInt8} (k : ℕ) (z : UInt8)
    (h : A.Covers budget credit fs hand decoded (read ++ stream)) :
    ∃ B : Account, B.Covers (budget + 2) (credit + 2) fs hand decoded
      (read ++ stream.insertIdx k z) := by
  have hframes := h.frames
  have hpairs := h.pairs
  refine ⟨⟨A.good, A.inside, A.rest, A.lost, A.inserted + 1, A.changed⟩, ?_, h.order, h.among,
    ?_, ?_⟩
  · have hinsert := h.damaged.insertIdx (read.length + k) z
    rwa [insertIdx_append_right] at hinsert
  · dsimp only
    omega
  · dsimp only
    omega

theorem Covers.change {read : List UInt8} (k : ℕ) (z : UInt8)
    (h : A.Covers budget credit fs hand decoded (read ++ stream)) :
    ∃ B : Account, B.Covers (budget + 3) (credit + 2) fs hand decoded
      (read ++ stream.set k z) := by
  have hframes := h.frames
  have hpairs := h.pairs
  refine ⟨⟨A.good, A.inside, A.rest, A.lost, A.inserted, A.changed + 1⟩, ?_, h.order, h.among,
    ?_, ?_⟩
  · have hset := h.damaged.set (read.length + k) z
    rwa [List.set_append_right _ _ (Nat.le_add_right _ _), Nat.add_sub_cancel_left] at hset
  · dsimp only
    omega
  · dsimp only
    omega

/-- A byte that is read between two pairs and dropped is a loss; it makes no pair. -/
theorem Covers.drop {x : UInt8} (h : A.Covers budget credit fs .first decoded (x :: stream)) :
    ∃ B : Account, B.Covers (budget + 2) credit fs .first decoded stream := by
  rw [← List.append_nil decoded]
  apply h.consume
  · intro A bs h hbytes hdamaged
    refine (h.advance hbytes hdamaged 2 ?_ ?_).imp fun B hB => hB.2
    · intro f hb
      simp only [Hand.owed, Hand.spurious, List.length_nil]
      omega
    · intro f hinside hb
      simp only [Hand.owed, Hand.spurious, List.length_nil]
      omega
  · intro A i h hinserted hdamaged
    refine ⟨⟨A.good, A.inside, A.rest, A.lost, i, A.changed⟩, ?_⟩
    refine h.move rfl hdamaged (List.Sublist.refl _) ?_ ?_
    · dsimp only
      omega
    · simp only [List.length_nil]
      omega
  · intro A b bs c h hbytes hchanged hdamaged
    refine (h.advance hbytes hdamaged 2 ?_ ?_).imp fun B hB => hB.2
    · intro f hb
      simp only [Hand.owed, Hand.spurious, List.length_nil]
      omega
    · intro f hinside hb
      simp only [Hand.owed, Hand.spurious, List.length_nil]
      omega

theorem Covers.length_le (h : A.Covers budget credit fs hand decoded stream)
    (hhand : hand = .first ∨ hand = .skip) :
    2 * fs.length ≤ 2 * A.good.length + 2 * budget + stream.length := by
  have hlength := h.damaged.length_le
  have hframes := h.frames
  have howed : A.inside.toList.length ≤ 2 * hand.owed A.inside := by
    cases hinside : A.inside <;> rcases hhand with rfl | rfl <;> simp [Hand.owed]
  rw [bytes, List.length_append, List.length_map, length_frameBytes] at hlength
  omega

end Account
end AudioCtrl.Serial
