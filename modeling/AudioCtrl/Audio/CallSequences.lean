import AudioCtrl.Audio.FailedReload

/-!
# Sequences of calls, whatever Windows answers

After its constructor the enumerator is reloaded and asked to set the volume in any order,
and any COM call and any allocation of a reload may fail. Which sequences return is exact,
and so is what one that returns has set and still holds. Any other stops at its first bad
call: a null interface is called, or the mutex stays locked and blocks every later call.
-/

namespace AudioCtrl.Audio

variable {Obj Handle Volume : Type}

/-- A call of a member function, with the answers to what it calls. -/
inductive EnumeratorCall (Obj Handle Volume : Type)
  | reloadDevices (reply : CollectionReply Obj Handle)
  | setMainVolume (volume : Volume)

namespace DeviceEnumerator

variable [DecidableEq Obj]

def perform (this : DeviceEnumerator Obj) :
    EnumeratorCall Obj Handle Volume → Prog Obj Handle Volume (DeviceEnumerator Obj)
  | .reloadDevices reply => this.reloadDevices reply
  | .setMainVolume volume => do
    this.setMainVolume volume
    return this

def lifetime (enumerator : Option Obj) (first : CollectionReply Obj Handle)
    (calls : List (EnumeratorCall Obj Handle Volume)) :
    Prog Obj Handle Volume (DeviceEnumerator Obj) := do
  let this ← constructAndReload enumerator first []
  calls.foldlM perform this

omit [DecidableEq Obj] in
/-- Every reload gets the answers it needs, and the volume is set only on trees that have
the interfaces for it. -/
def Feasible (tree : DeviceCollection Obj) : List (EnumeratorCall Obj Handle Volume) → Prop
  | [] => True
  | .reloadDevices x :: calls => x.Suffices ∧ Feasible x.tree calls
  | .setMainVolume _ :: calls => tree.HasVolumes ∧ Feasible tree calls

def lastTree (tree : DeviceCollection Obj) :
    List (EnumeratorCall Obj Handle Volume) → DeviceCollection Obj
  | [] => tree
  | .reloadDevices x :: calls => lastTree x.tree calls
  | .setMainVolume _ :: calls => lastTree tree calls

/-- The volumes set, each on all devices of the tree that is installed then. -/
def allVolumesSet (tree : DeviceCollection Obj) :
    List (EnumeratorCall Obj Handle Volume) → List (Obj × Volume)
  | [] => []
  | .reloadDevices x :: calls => allVolumesSet x.tree calls
  | .setMainVolume volume :: calls => tree.volumesSet volume ++ allVolumesSet tree calls

variable {outside : Obj → ℕ} {made : List (Obj × Volume)} {e : Obj}
  {old : DeviceCollection Obj} {w : World Obj Handle Volume}

theorem foldlM_perform_ok {calls : List (EnumeratorCall Obj Handle Volume)}
    (hcalls : Feasible old calls) (h : Holds outside false made w ({e} + old.refs)) :
    ∃ t, (calls.foldlM perform ⟨some e, old⟩).run w = .ok ⟨some e, lastTree old calls⟩ t ∧
      Holds outside false (made ++ allVolumesSet old calls) t
        ({e} + (lastTree old calls).refs) := by
  induction calls generalizing w old made with
  | nil => exact ⟨w, rfl, by simpa [allVolumesSet, lastTree] using h⟩
  | cons c calls ih =>
    rw [List.foldlM_cons]
    cases c with
    | reloadDevices x =>
      obtain ⟨hx, hrest⟩ := hcalls
      obtain ⟨u, hu, hheld⟩ := reloadDevices_of_suffices hx h
      obtain ⟨t, ht, hfinal⟩ := ih hrest hheld
      refine ⟨t, ?_, hfinal⟩
      rw [EStateM.run_bind, perform, hu]
      exact ht
    | setMainVolume volume =>
      obtain ⟨hall, hrest⟩ := hcalls
      obtain ⟨u, hu, hheld⟩ := setMainVolume_ok volume hall h
      obtain ⟨t, ht, hfinal⟩ := ih hrest hheld
      refine ⟨t, ?_, ?_⟩
      · rw [EStateM.run_bind, perform, EStateM.run_bind, hu]
        exact ht
      · rw [List.append_assoc] at hfinal
        exact hfinal

theorem foldlM_perform_breaks {calls : List (EnumeratorCall Obj Handle Volume)}
    (hcalls : ¬ Feasible old calls) (h : Holds outside false made w ({e} + old.refs)) :
    ∃ fault t, (calls.foldlM perform ⟨some e, old⟩).run w = .error fault t ∧
      Breaks true fault t := by
  induction calls generalizing w old made with
  | nil => exact absurd trivial hcalls
  | cons c calls ih =>
    rw [List.foldlM_cons]
    cases c with
    | reloadDevices x =>
      by_cases hx : x.Suffices
      · obtain ⟨u, hu, hheld⟩ := reloadDevices_of_suffices hx h
        obtain ⟨fault, t, ht, hbreaks⟩ := ih (fun hrest => hcalls ⟨hx, hrest⟩) hheld
        refine ⟨fault, t, ?_, hbreaks⟩
        rw [EStateM.run_bind, perform, hu]
        exact ht
      · obtain ⟨fault, t, ht, hbreaks⟩ := reloadDevices_of_not_suffices hx h
        refine ⟨fault, t, ?_, hbreaks⟩
        rw [EStateM.run_bind, perform, ht]
    | setMainVolume volume =>
      by_cases hall : old.HasVolumes
      · obtain ⟨u, hu, hheld⟩ := setMainVolume_ok volume hall h
        obtain ⟨fault, t, ht, hbreaks⟩ := ih (fun hrest => hcalls ⟨hall, hrest⟩) hheld
        refine ⟨fault, t, ?_, hbreaks⟩
        rw [EStateM.run_bind, perform, EStateM.run_bind, hu]
        exact ht
      · obtain ⟨t, ht⟩ := setMainVolume_null volume hall h
        refine ⟨.nullCall, t, ?_, .inl rfl⟩
        rw [EStateM.run_bind, perform, EStateM.run_bind, ht]

theorem perform_of_locked (this : DeviceEnumerator Obj) (hlocked : w.locked = true)
    (c : EnumeratorCall Obj Handle Volume) : (this.perform c).run w = .error .selfLock w := by
  have hlock : lock.run w = .error .selfLock w := by
    simp only [EStateM.run, lock, hlocked, if_true]
  cases c with
  | reloadDevices x =>
    unfold perform reloadDevices
    rw [EStateM.run_bind, hlock]
  | setMainVolume volume =>
    unfold perform setMainVolume
    rw [EStateM.run_bind, EStateM.run_bind, hlock]

variable (Handle Volume) in
theorem lifetime_run (outside : Obj → ℕ) (e : Obj) :
    ∃ w : World Obj Handle Volume,
      Holds outside false [] w ({e} + ({} : DeviceCollection Obj).refs) ∧
      ∀ first calls, (lifetime (some e) first calls).run (World.start Handle Volume outside) =
        ((EnumeratorCall.reloadDevices first :: calls).foldlM perform ⟨some e, {}⟩).run w := by
  obtain ⟨w, hw, hall⟩ := constructAndReload_run Handle Volume outside e
  refine ⟨w, hw, ?_⟩
  intro first calls
  have hfirst := hall first []
  rw [List.foldlM_cons] at hfirst
  unfold lifetime
  rw [EStateM.run_bind, hfirst, List.foldlM_cons, EStateM.run_bind, EStateM.run_bind, perform]
  cases (reloadDevices ⟨some e, {}⟩ first).run w <;> rfl

/-- Whatever COM calls and allocations fail: the constructor and the calls after it return if
and only if every reload gets the answers it needs and the volume is set only on trees with
all volume interfaces. Then every setting was made on all devices of the tree installed
at that time, in order, and only the enumerator and the last tree hold references. Else a
null interface was called, or an allocation failed and every further call of the object
blocks on its own mutex. -/
theorem lifetime_returns_iff (outside : Obj → ℕ) (e : Obj) (first : CollectionReply Obj Handle)
    (calls : List (EnumeratorCall Obj Handle Volume)) :
    ((∃ this w, (lifetime (some e) first calls).run (World.start Handle Volume outside) =
        .ok this w) ↔ first.Suffices ∧ Feasible first.tree calls) ∧
    (∀ this w, (lifetime (some e) first calls).run (World.start Handle Volume outside) =
        .ok this w →
      this = ⟨some e, lastTree first.tree calls⟩ ∧
        Holds outside false (allVolumesSet first.tree calls) w
          ({e} + (lastTree first.tree calls).refs)) ∧
    ∀ fault w, (lifetime (some e) first calls).run (World.start Handle Volume outside) =
        .error fault w →
      fault = .nullCall ∨ fault = .badAlloc ∧
        ∀ (this : DeviceEnumerator Obj) (c : EnumeratorCall Obj Handle Volume),
          (this.perform c).run w = .error .selfLock w := by
  obtain ⟨v, hv, hrun⟩ := lifetime_run Handle Volume outside e
  rw [hrun]
  by_cases hcalls : Feasible {} (EnumeratorCall.reloadDevices first :: calls)
  · obtain ⟨t, ht, hfinal⟩ := foldlM_perform_ok hcalls hv
    rw [ht]
    refine ⟨iff_of_true ⟨_, t, rfl⟩ hcalls, ?_, ?_⟩
    · intro this w hw
      cases hw
      exact ⟨rfl, hfinal⟩
    · intro fault w hw
      cases hw
  · obtain ⟨fault, t, ht, hbreaks⟩ := foldlM_perform_breaks hcalls hv
    rw [ht]
    refine ⟨iff_of_false ?_ hcalls, ?_, ?_⟩
    · rintro ⟨this, w, hw⟩
      cases hw
    · intro this w hw
      cases hw
    · intro fault' w hw
      cases hw
      rcases hbreaks with rfl | ⟨rfl, hlocked⟩
      · exact .inl rfl
      · exact .inr ⟨rfl, fun this c => perform_of_locked this hlocked c⟩

/-- The volume of one device is set, and then the device is gone while it is found. -/
theorem lifetime_returns_iff_unplugged :
    (∃ this w, (lifetime (some 0) oneDevice.reply [.setMainVolume 7]).run
        (World.start ℕ ℕ fun _ => 0) = .ok this w ∧ w.volumes = [(3, 7)]) ∧
      ¬ ∃ this w, (lifetime (some 0) oneDevice.reply
        [.setMainVolume 7, .reloadDevices unplugged]).run
          (World.start ℕ ℕ fun _ => 0) = .ok this w := by
  have hall : oneDevice.reply.tree.HasVolumes := by
    unfold DeviceCollection.HasVolumes
    decide
  constructor
  · obtain ⟨hreturns, hok, -⟩ :=
      lifetime_returns_iff (fun _ => 0) 0 oneDevice.reply [.setMainVolume 7]
    obtain ⟨this, w, hrun⟩ := hreturns.mpr ⟨oneDevice.suffices_reply, hall, trivial⟩
    have hset := (hok this w hrun).2.volumes
    exact ⟨this, w, hrun, hset⟩
  · intro hreturned
    have hfeasible := (lifetime_returns_iff (fun _ => 0) 0 oneDevice.reply
      [.setMainVolume 7, .reloadDevices unplugged]).1.mp hreturned
    obtain ⟨-, -, ⟨-, -, hlisted⟩, -⟩ := hfeasible
    obtain ⟨-, hmanager, -⟩ := hlisted _ (List.mem_singleton_self _)
    exact hmanager rfl

end DeviceEnumerator

end AudioCtrl.Audio
