import AudioCtrl.Audio.Mutex

/-!
# No device change is lost

Either some thread has yet to enumerate, or a notification that makes one do so
is queued, or the latest enumeration found the devices that are active now. The
latest enumeration is the holder's, if it has made one, and else the installed
tree: whoever enumerates holds the mutex until its tree is installed.
-/

namespace AudioCtrl.Audio

open PartialRun Exclusion

section Threads

variable {Obj Id Volume : Type}

def DeviceCollection.listed (deviceOf : Obj → Id) (this : DeviceCollection Obj) :
    List (Option Id) :=
  this.devices.map fun d => d.device.map deviceOf

def Pc.willEnumerate : Pc Obj Id Volume → Bool
  | .create | .register | .reload | .enumerate => true
  | _ => false

/-- The devices of the thread's own enumeration, else those of the installed tree. -/
def Pc.latest (deviceOf : Obj → Id) (installed : List (Option Id)) :
    Pc Obj Id Volume → List (Option Id)
  | .build _ listed _ => listed.map some
  | .moveCollection _ temporary _ => temporary.listed deviceOf
  | .moveDevices _ temporary _ => temporary.listed deviceOf
  | _ => installed

/-- The number of the enumeration whose tree the thread is about to install. -/
def Pc.number : Pc Obj Id Volume → Option ℕ
  | .build _ _ number => some number
  | .moveCollection _ _ number => some number
  | .moveDevices _ _ number => some number
  | _ => none

/-- The main thread has left the constructor. -/
def Pc.inReceiveLoop : Pc Obj Id Volume → Bool
  | .idle | .setMainVolume _ | .setDeviceVolume .. | .unlockVolume => true
  | _ => false

end Threads

namespace System

variable {Obj Handle Id Volume : Type}

/-- The constructor has returned and no notification is queued or being handled. -/
def Settled (s : System Obj Handle Id Volume) : Prop :=
  (∃ pc, s.threads[0]? = some pc ∧ pc.inReceiveLoop = true) ∧ s.queue = [] ∧
    ∀ (k : ℕ) (pc : Pc Obj Id Volume), k ≠ 0 → s.threads[k]? = some pc → pc = .idle

theorem settled_iff (s : System Obj Handle Id Volume) :
    s.Settled ↔ ((∃ pc ∈ s.threads.head?, pc.inReceiveLoop = true) ∧ s.queue = []) ∧
      ∀ pc ∈ s.threads.tail, pc = .idle := by
  unfold Settled
  rw [and_assoc]
  cases s.threads with
  | nil => simp
  | cons main others =>
    apply and_congr (by simp)
    apply and_congr_right
    intro _
    constructor
    · intro h pc hpc
      obtain ⟨k, hk⟩ := List.mem_iff_getElem?.mp hpc
      exact h (k + 1) pc (Nat.succ_ne_zero k) hk
    · intro h k pc hk hpc
      cases k with
      | zero => exact absurd rfl hk
      | succ k => exact h pc (List.mem_of_getElem? hpc)

instance [DecidableEq Obj] [DecidableEq Id] [DecidableEq Volume]
    (s : System Obj Handle Id Volume) : Decidable s.Settled :=
  decidable_of_iff _ (settled_iff s).symm

def latest (deviceOf : Obj → Id) (s : System Obj Handle Id Volume) : List (Option Id) :=
  s.holderPc.elim (s.deviceEnumerator.deviceCollection.listed deviceOf)
    (Pc.latest deviceOf (s.deviceEnumerator.deviceCollection.listed deviceOf))

def Pending (s : System Obj Handle Id Volume) : Prop :=
  (∃ pc ∈ s.threads, pc.willEnumerate = true) ∨ ∃ n ∈ s.queue, n ≠ .propertyValueChanged

/-- Nothing has changed since the latest enumeration, or another one is yet to come. Before
the notifier is registered the constructor's own is. -/
structure Fresh (deviceOf : Obj → Id) (s : System Obj Handle Id Volume) : Prop where
  unregistered : s.registered = false →
    s.queue = [] ∧ (s.threads = [.create] ∨ s.threads = [.register])
  current : s.Pending ∨ s.latest deviceOf = s.os.map some

/-- Enumerations are installed in the order in which they were made. -/
structure Ordered (s : System Obj Handle Id Volume) : Prop where
  sorted : s.installs.Pairwise (· < ·)
  made : ∀ m ∈ s.installs, m < s.enumerations
  next : ∀ (k : ℕ) (pc : Pc Obj Id Volume) (n : ℕ), s.threads[k]? = some pc →
    pc.number = some n → n < s.enumerations ∧ ∀ m ∈ s.installs, m < n

variable {deviceOf : Obj → Id} {outside : Obj → ℕ}
  {s t u : System Obj Handle Id Volume} {k : ℕ} {pc pc' : Pc Obj Id Volume}

section Ordered

theorem ordered_start (outside : Obj → ℕ) (os : List Id) :
    Ordered (start outside os : System Obj Handle Id Volume) where
  sorted := List.Pairwise.nil
  made := nofun
  next := by
    intro k pc n hk hn
    rw [List.mem_singleton.mp (List.mem_of_getElem? hk)] at hn
    cases hn

theorem Ordered.goto (h : Ordered s) (hk : s.threads[k]? = some pc)
    (hpc' : ∀ n, pc'.number = some n → pc.number = some n) :
    ∀ (j : ℕ) (q : Pc Obj Id Volume) (n : ℕ), (s.threads.set k pc')[j]? = some q →
      q.number = some n → n < s.enumerations ∧ ∀ m ∈ s.installs, m < n := by
  intro j q n hj hn
  rcases getElem?_set_cases hj with ⟨-, rfl⟩ | ⟨-, hj⟩
  · exact h.next k pc n hk (hpc' n hn)
  · exact h.next j q n hj hn

variable [DecidableEq Obj]

theorem Safe.eq_of_number (h : Safe outside s) (hholder : s.holder = some k) {j n : ℕ}
    (hj : s.threads[j]? = some pc) (hn : pc.number = some n) : j = k := by
  have hin : pc.inside = true := by
    cases pc with
    | build | moveCollection | moveDevices => rfl
    | _ => cases hn
  exact Option.some.inj ((h.inside_holder hj hin).symm.trans hholder)

/-- The holder's enumeration is later than all that are installed. -/
theorem ordered_install (h : Safe outside s) (ho : Ordered s) {p : Option Obj}
    {temporary : DeviceCollection Obj} {number : ℕ} {w : World Obj Handle Volume}
    (hk : s.threads[k]? = some (.moveDevices p temporary number)) :
    Ordered (({ s with world := w, installs := s.installs ++ [number] }.setCollection
      { s.deviceEnumerator.deviceCollection with devices := temporary.devices }).goto k
        (.unlockReload p)) := by
  have hholder := h.inside_holder hk rfl
  obtain ⟨hlt, hall⟩ := ho.next k _ number hk rfl
  refine ⟨?_, ?_, ?_⟩
  · apply List.pairwise_append.mpr
    refine ⟨ho.sorted, List.pairwise_singleton _ _, ?_⟩
    intro m hm n hn
    rw [List.mem_singleton.mp hn]
    exact hall m hm
  · intro m hm
    rcases List.mem_append.mp hm with hold | hnew
    · exact ho.made m hold
    · rw [List.mem_singleton.mp hnew]
      exact hlt
  · intro j q n hj hn
    rcases getElem?_set_cases hj with ⟨-, rfl⟩ | ⟨hjk, hj⟩
    · cases hn
    · exact absurd (h.eq_of_number hholder hj hn) hjk

theorem ordered_enumerate (h : Safe outside s) (ho : Ordered s) {c : Obj}
    {w : World Obj Handle Volume} (hk : s.threads[k]? = some .enumerate) :
    Ordered ({ s with world := w, enumerations := s.enumerations + 1 }.goto k
      (.build (some c) s.os s.enumerations)) := by
  have hholder := h.inside_holder hk rfl
  refine ⟨ho.sorted, fun m hm => Nat.lt_succ_of_lt (ho.made m hm), ?_⟩
  intro j q n hj hn
  rcases getElem?_set_cases hj with ⟨-, rfl⟩ | ⟨hjk, hj⟩
  · cases hn
    exact ⟨Nat.lt_succ_self _, ho.made⟩
  · exact absurd (h.eq_of_number hholder hj hn) hjk

theorem ordered_of_move (h : Safe outside s) (ho : Ordered s) (hmove : Move deviceOf s t) :
    Ordered t := by
  cases hmove with
  | changeDevices | changeProperty => exact ⟨ho.sorted, ho.made, ho.next⟩
  | deliver i n hi =>
    refine ⟨ho.sorted, ho.made, ?_⟩
    intro j q m hj hm
    rcases List.mem_append.mp (List.mem_of_getElem? hj) with hold | hnew
    · obtain ⟨i, hi⟩ := List.mem_iff_getElem?.mp hold
      exact ho.next i q m hi hm
    · rw [List.mem_singleton.mp hnew] at hm
      cases n <;> cases hm
  | enumerate k c w hk => exact ordered_enumerate h ho hk
  | install k p temporary number w hk => exact ordered_install h ho hk
  | releaseDevice => exact ⟨ho.sorted, ho.made, ho.next⟩
  | build k c listed number found w hk | moveCollection k p temporary number w hk =>
    exact ⟨ho.sorted, ho.made, ho.goto hk fun n hn => hn⟩
  | callSetMainVolume v hk | create k e w hk | register k w hk | lockReload k hk
  | unlockReload k p hk | leaveReload k p w hk | lockVolume k v hk
  | setDeviceVolume k v i n d o hk | endDevices k v n hk | unlockVolume k hk =>
    exact ⟨ho.sorted, ho.made, ho.goto hk nofun⟩

end Ordered

section Fresh

theorem latest_of_holder (hholder : s.holder = some k) (hk : s.threads[k]? = some pc) :
    s.latest deviceOf =
      pc.latest deviceOf (s.deviceEnumerator.deviceCollection.listed deviceOf) := by
  unfold latest
  rw [holderPc_of_holder hholder hk]
  rfl

theorem latest_of_free (hfree : s.holder = none) :
    s.latest deviceOf = s.deviceEnumerator.deviceCollection.listed deviceOf := by
  unfold latest
  rw [holderPc_of_free hfree]
  rfl

theorem latest_congr (hpc : u.holderPc = s.holderPc)
    (htree : u.deviceEnumerator.deviceCollection = s.deviceEnumerator.deviceCollection) :
    u.latest deviceOf = s.latest deviceOf := by
  unfold latest
  rw [hpc, htree]

theorem latest_goto_holder (hk : s.threads[k]? = some pc) (hholder : u.holder = some k)
    (hthreads : u.threads = s.threads) (pc' : Pc Obj Id Volume) :
    (u.goto k pc').latest deviceOf =
      pc'.latest deviceOf (u.deviceEnumerator.deviceCollection.listed deviceOf) := by
  unfold latest
  rw [holderPc_goto_holder hk hholder hthreads pc']
  rfl

theorem mem_eraseIdx_of_ne {α : Type} {l : List α} {i : ℕ} {a b : α} (hi : l[i]? = some a)
    (hb : b ∈ l) (hne : b ≠ a) : b ∈ l.eraseIdx i := by
  obtain ⟨j, hj⟩ := List.mem_iff_getElem?.mp hb
  apply List.mem_eraseIdx_iff_getElem?.mpr
  refine ⟨j, ?_, hj⟩
  rintro rfl
  rw [hi] at hj
  exact hne (Option.some.inj hj).symm

theorem pending_goto (hp : s.Pending) (hk : s.threads[k]? = some pc)
    (hpc : pc.willEnumerate = true → pc'.willEnumerate = true)
    (hthreads : u.threads = s.threads) (hqueue : u.queue = s.queue) :
    (u.goto k pc').Pending := by
  rcases hp with ⟨q, hq, hwill⟩ | ⟨n, hn, hne⟩
  · left
    obtain ⟨j, hj⟩ := List.mem_iff_getElem?.mp hq
    by_cases hjk : k = j
    · subst hjk
      rw [hk] at hj
      cases hj
      refine ⟨pc', ?_, hpc hwill⟩
      unfold goto
      rw [hthreads]
      exact List.mem_of_getElem? (getElem?_set_self hk pc')
    · refine ⟨q, ?_, hwill⟩
      unfold goto
      rw [hthreads]
      exact List.mem_of_getElem? ((List.getElem?_set_ne hjk).trans hj)
  · right
    refine ⟨n, ?_, hne⟩
    unfold goto
    rw [hqueue]
    exact hn

theorem pending_self (hk : s.threads[k]? = some pc) (hpc' : pc'.willEnumerate = true)
    (hthreads : u.threads = s.threads) : (u.goto k pc').Pending := by
  left
  refine ⟨pc', ?_, hpc'⟩
  unfold goto
  rw [hthreads]
  exact List.mem_of_getElem? (getElem?_set_self hk pc')

theorem fresh_start (outside : Obj → ℕ) (os : List Id) :
    Fresh deviceOf (start outside os : System Obj Handle Id Volume) where
  unregistered := fun _ => ⟨rfl, .inl rfl⟩
  current := .inl (.inl ⟨.create, List.mem_singleton.mpr rfl, rfl⟩)

theorem Fresh.registered (hf : Fresh deviceOf s) (hk : s.threads[k]? = some pc)
    (hcreate : pc ≠ .create) (hregister : pc ≠ .register) : s.registered = true := by
  by_contra hr
  rw [Bool.not_eq_true] at hr
  have hmem := List.mem_of_getElem? hk
  rcases (hf.unregistered hr).2 with hthreads | hthreads
  · rw [hthreads] at hmem
    exact hcreate (List.mem_singleton.mp hmem)
  · rw [hthreads] at hmem
    exact hregister (List.mem_singleton.mp hmem)

theorem Fresh.goto (hf : Fresh deviceOf s) (hk : s.threads[k]? = some pc)
    (hcreate : pc ≠ .create) (hregister : pc ≠ .register)
    (hpc : pc.willEnumerate = true → pc'.willEnumerate = true)
    (hlatest : (u.goto k pc').latest deviceOf = s.latest deviceOf)
    (hthreads : u.threads = s.threads) (hqueue : u.queue = s.queue) (hos : u.os = s.os)
    (hreg : u.registered = s.registered) : Fresh deviceOf (u.goto k pc') where
  unregistered := by
    intro hr
    change u.registered = false at hr
    rw [hreg, hf.registered hk hcreate hregister] at hr
    cases hr
  current := by
    rcases hf.current with hp | hl
    · exact .inl (pending_goto hp hk hpc hthreads hqueue)
    · right
      rw [hlatest, hl]
      exact congrArg _ hos.symm

variable [DecidableEq Obj]

theorem Safe.latest_inside (h : Safe outside s) (hk : s.threads[k]? = some pc)
    (hpc : pc.inside = true) :
    s.latest deviceOf =
      pc.latest deviceOf (s.deviceEnumerator.deviceCollection.listed deviceOf) :=
  latest_of_holder (h.inside_holder hk hpc) hk

theorem Fresh.goto_inside (hf : Fresh deviceOf s) (h : Safe outside s)
    (hk : s.threads[k]? = some pc) (hin : pc.inside = true) (hpc : pc.willEnumerate = false)
    (hlatest : pc'.latest deviceOf (u.deviceEnumerator.deviceCollection.listed deviceOf) =
      pc.latest deviceOf (s.deviceEnumerator.deviceCollection.listed deviceOf))
    (hholder : u.holder = s.holder) (hthreads : u.threads = s.threads)
    (hqueue : u.queue = s.queue) (hos : u.os = s.os) (hreg : u.registered = s.registered) :
    Fresh deviceOf (u.goto k pc') := by
  have hcreate : pc ≠ .create := by
    rintro rfl
    cases hin
  have hregister : pc ≠ .register := by
    rintro rfl
    cases hin
  have hwill : pc.willEnumerate = true → pc'.willEnumerate = true := by
    intro htrue
    rw [hpc] at htrue
    cases htrue
  have hsame : (u.goto k pc').latest deviceOf = s.latest deviceOf := by
    rw [latest_goto_holder hk (hholder.trans (h.inside_holder hk hin)) hthreads,
      h.latest_inside hk hin, hlatest]
  exact hf.goto hk hcreate hregister hwill hsame hthreads hqueue hos hreg

/-! ## Each move keeps the list current, or an enumeration to come -/

omit [DecidableEq Obj] in
/-- Before the registration a change is left to the constructor's own enumeration, and
after it to its notification. -/
theorem fresh_changeDevices (hf : Fresh deviceOf s) {os : List Id} {n : Notification}
    (hn : n ≠ .propertyValueChanged) :
    Fresh deviceOf
      { s with os, queue := if s.registered then s.queue ++ [n] else s.queue } := by
  cases hr : s.registered with
  | true =>
    have hmem : n ∈ s.queue ++ [n] := List.mem_append_right _ (List.mem_singleton.mpr rfl)
    exact ⟨nofun, .inl (.inr ⟨n, hmem, hn⟩)⟩
  | false =>
    obtain ⟨hqueue, hthreads⟩ := hf.unregistered hr
    have hpending : ∃ pc ∈ s.threads, pc.willEnumerate = true := by
      rcases hthreads with hthreads | hthreads <;> rw [hthreads]
      · exact ⟨.create, List.mem_singleton.mpr rfl, rfl⟩
      · exact ⟨.register, List.mem_singleton.mpr rfl, rfl⟩
    exact ⟨fun _ => ⟨hqueue, hthreads⟩, .inl (.inl hpending)⟩

/-- The notification that leaves the queue runs a reload, unless it is about a property. -/
theorem fresh_deliver (h : Safe outside s) (hf : Fresh deviceOf s) {i : ℕ} {n : Notification}
    (hi : s.queue[i]? = some n) :
    Fresh deviceOf
      { s with queue := s.queue.eraseIdx i, threads := s.threads ++ [callback n] } := by
  have hreg : s.registered = true := by
    by_contra hr
    rw [Bool.not_eq_true] at hr
    rw [(hf.unregistered hr).1] at hi
    cases hi
  refine ⟨fun hfalse => (nomatch hreg.symm.trans hfalse), ?_⟩
  rcases hf.current with (⟨q, hq, hwill⟩ | ⟨m, hm, hne⟩) | hl
  · exact .inl (.inl ⟨q, List.mem_append_left _ hq, hwill⟩)
  · left
    by_cases hmn : m = n
    · subst hmn
      left
      refine ⟨callback m, List.mem_append_right _ (List.mem_singleton.mpr rfl), ?_⟩
      cases m <;> first | rfl | exact absurd rfl hne
    · exact .inr ⟨m, mem_eraseIdx_of_ne hi hm hmn, hne⟩
  · right
    rw [← hl]
    exact latest_congr (holderPc_append h.mutex) rfl

omit [DecidableEq Obj] in
theorem fresh_create (hf : Fresh deviceOf s) (hk : s.threads[k]? = some .create) {e : Obj}
    {w : World Obj Handle Volume} :
    Fresh deviceOf ({ s with
      world := w, deviceEnumerator := { s.deviceEnumerator with enumerator := some e } }.goto k
        .register) := by
  refine ⟨?_, .inl (pending_self hk rfl rfl)⟩
  intro hr
  obtain ⟨hqueue, hthreads⟩ := hf.unregistered hr
  refine ⟨hqueue, .inr ?_⟩
  rcases hthreads with hthreads | hthreads
  · rw [hthreads] at hk
    cases k with
    | zero =>
      change s.threads.set 0 .register = _
      rw [hthreads]
      rfl
    | succ k => cases hk
  · rw [hthreads] at hk
    exact nomatch List.mem_singleton.mp (List.mem_of_getElem? hk)

/-- While the old tree is released the latest enumeration is in the temporary. -/
theorem fresh_releaseDevice (h : Safe outside s) (hf : Fresh deviceOf s) {p : Option Obj}
    {temporary : DeviceCollection Obj} {number : ℕ} {ds : List (Device Obj)}
    {w : World Obj Handle Volume}
    (hk : s.threads[k]? = some (.moveDevices p temporary number)) :
    Fresh deviceOf ({ s with world := w }.setCollection
      { s.deviceEnumerator.deviceCollection with devices := ds }) := by
  refine ⟨hf.unregistered, ?_⟩
  rcases hf.current with hp | hl
  · exact .inl hp
  · right
    rw [h.latest_inside hk rfl] at hl
    have hpc := holderPc_of_holder (h.inside_holder hk rfl) hk
    change s.holderPc.elim _ _ = _
    rw [hpc]
    exact hl

theorem fresh_of_move (h : Safe outside s) (hf : Fresh deviceOf s) (hmove : Move deviceOf s t) :
    Fresh deviceOf t := by
  cases hmove with
  | changeDevices os n hn => exact fresh_changeDevices hf hn
  | changeProperty hr =>
    refine ⟨fun hfalse => (nomatch hr.symm.trans hfalse), ?_⟩
    rcases hf.current with (hp | ⟨n, hn, hne⟩) | hl
    · exact .inl (.inl hp)
    · exact .inl (.inr ⟨n, List.mem_append_left _ hn, hne⟩)
    · exact .inr hl
  | deliver i n hi => exact fresh_deliver h hf hi
  | create k e w hk => exact fresh_create hf hk
  | register k w hk => exact ⟨nofun, .inl (pending_self hk rfl rfl)⟩
  | lockReload k hk hfree =>
    refine hf.goto hk nofun nofun (fun _ => rfl) ?_ rfl rfl rfl rfl
    rw [latest_of_free hfree]
    exact latest_goto_holder hk (by rfl) (by rfl) _
  | enumerate k c w hk =>
    refine ⟨?_, .inr ?_⟩
    · intro hr
      change s.registered = false at hr
      rw [hf.registered hk nofun nofun] at hr
      cases hr
    · exact latest_goto_holder hk (by exact h.inside_holder hk rfl) (by rfl) _
  | build k c listed number found w hk hlisted =>
    refine hf.goto_inside h hk rfl rfl ?_ rfl rfl rfl rfl rfl
    simp only [Pc.latest, DeviceCollection.listed, Endpoints.tree, ← hlisted, List.map_map]
    rfl
  | releaseDevice k p temporary number d ds w hk => exact fresh_releaseDevice h hf hk
  | moveCollection k p temporary number w hk | install k p temporary number w hk
  | setDeviceVolume k v i n d o hk | endDevices k v n hk =>
    exact hf.goto_inside h hk rfl rfl rfl rfl rfl rfl rfl rfl
  | lockVolume k v hk hfree =>
    refine hf.goto hk nofun nofun nofun ?_ rfl rfl rfl rfl
    rw [latest_of_free hfree]
    exact latest_goto_holder hk (by rfl) (by rfl) _
  | unlockReload k p hk | unlockVolume k hk =>
    refine hf.goto hk nofun nofun nofun ?_ rfl rfl rfl rfl
    rw [h.latest_inside hk rfl]
    exact latest_of_free rfl
  | callSetMainVolume v hk | leaveReload k p w hk =>
    refine hf.goto hk nofun nofun nofun ?_ rfl rfl rfl rfl
    exact latest_congr (holderPc_goto h.mutex hk rfl (by rfl) (by rfl)) (by rfl)

omit [DecidableEq Obj] in
theorem Settled.not_pending (h : s.Settled) : ¬ s.Pending := by
  obtain ⟨⟨main, hmain, hloop⟩, hqueue, hidle⟩ := h
  rintro (⟨pc, hpc, hwill⟩ | ⟨n, hn, -⟩)
  · obtain ⟨k, hk⟩ := List.mem_iff_getElem?.mp hpc
    by_cases hk0 : k = 0
    · subst hk0
      rw [hk] at hmain
      cases hmain
      cases main <;> cases hloop <;> cases hwill
    · rw [hidle k pc hk0 hk] at hwill
      cases hwill
  · rw [hqueue] at hn
    cases hn

omit [DecidableEq Obj] in
theorem Settled.latest (h : s.Settled) :
    s.latest deviceOf = s.deviceEnumerator.deviceCollection.listed deviceOf := by
  obtain ⟨⟨main, hmain, hloop⟩, -, hidle⟩ := h
  unfold System.latest
  cases hpc : s.holderPc with
  | none => rfl
  | some pc =>
    obtain ⟨k, -, hk⟩ := Option.bind_eq_some_iff.mp hpc
    by_cases hk0 : k = 0
    · subst hk0
      rw [hk] at hmain
      cases hmain
      cases main <;> first | rfl | cases hloop
    · rw [hidle k pc hk0 hk]
      rfl

variable [DecidableEq Id]

/-- In every run the trees are installed in the order of their enumerations, and whenever
the constructor has returned and no notification is queued or being handled, the
installed tree lists the devices that are active. -/
theorem installed_tree_current {os : List Id} {actions : List (Action Obj Handle Id Volume)}
    (h : run (step deviceOf) (start outside os) actions = some s) :
    s.installs.Pairwise (· < ·) ∧
      (s.Settled →
        s.deviceEnumerator.deviceCollection.listed deviceOf = s.os.map some) := by
  have hstep : ∀ (s : System Obj Handle Id Volume) a t,
      Safe outside s ∧ Ordered s ∧ Fresh deviceOf s → step deviceOf s a = some t →
        Safe outside t ∧ Ordered t ∧ Fresh deviceOf t := by
    rintro s a t ⟨hsafe, hordered, hfresh⟩ hst
    have hmove := (stepped_of_step hsafe hst).move
    exact ⟨safe_of_step s a t hsafe hst, ordered_of_move hsafe hordered hmove,
      fresh_of_move hsafe hfresh hmove⟩
  obtain ⟨-, hordered, hfresh⟩ := run_invariant hstep
    ⟨safe_start outside os, ordered_start outside os, fresh_start outside os⟩ h
  refine ⟨hordered.sorted, ?_⟩
  intro hsettled
  rcases hfresh.current with hp | hl
  · exact absurd hp hsettled.not_pending
  · rw [← hsettled.latest]
    exact hl

end Fresh

/-- A render device without sessions, all of whose interfaces are different objects. -/
def plainEndpoint (d : ℕ) : Endpoint ℕ ℕ :=
  { device := d, endpointVolume := d + 100, sessionManager := d + 200,
    sessionEnumerator := d + 300, sessions := [] }

/-- A device appears between the constructor's enumeration and its installation, and
the volume is set while the tree is replaced. -/
def overtakenChange : List (Action ℕ ℕ ℕ ℕ) :=
  [.thread 0 (.object 1), .thread 0 .nothing, .thread 0 .nothing, .thread 0 (.object 2),
    .changeDevices [10, 11] .deviceAdded, .deliver 0, .thread 0 (.devices [plainEndpoint 10]),
    .thread 0 .nothing, .thread 0 .nothing, .thread 0 .nothing, .thread 1 .nothing,
    .thread 0 .nothing, .callSetMainVolume 7, .thread 1 (.object 3),
    .thread 1 (.devices [plainEndpoint 10, plainEndpoint 11]), .thread 1 .nothing,
    .thread 1 .nothing, .thread 1 .nothing, .thread 1 .nothing, .thread 0 .nothing,
    .thread 1 .nothing, .thread 0 .nothing, .thread 0 .nothing, .thread 0 .nothing,
    .thread 0 .nothing]

theorem installed_tree_current_overtakenChange :
    ∃ s, run (step fun d : ℕ => d) (start (fun _ => 0) [10]) overtakenChange = some s ∧
      s.Settled ∧ s.installs.Pairwise (· < ·) ∧
      s.deviceEnumerator.deviceCollection.listed (fun d : ℕ => d) = s.os.map some := by
  have h : (run (step fun d : ℕ => d) (start (fun _ => 0) [10]) overtakenChange).any
      (fun s => decide s.Settled) = true := by decide +kernel
  obtain ⟨s, hs, hsettled⟩ := (Option.any_eq_true _ _).mp h
  obtain ⟨hinstalls, hlisted⟩ := installed_tree_current hs
  exact ⟨s, hs, of_decide_eq_true hsettled, hinstalls, hlisted (of_decide_eq_true hsettled)⟩

end System

end AudioCtrl.Audio
