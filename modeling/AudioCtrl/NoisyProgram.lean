import AudioCtrl.Program
import AudioCtrl.Serial.TransmissionErrors

/-!
# The whole program on a line with errors

Errors on the serial line reach the devices only as the values that `main()` passes on.
A run of the program with errors is a run of the link with errors and a run of the audio
side, so whatever holds for every run of the audio side holds here too, and the account of
the errors becomes one of volume settings.
-/

namespace AudioCtrl.Program

open PartialRun Serial Audio

inductive NoisyAction (Obj Handle Id Volume : Type)
  | program (a : Action Obj Handle Id Volume)
  | error (e : Link.LineError)

variable {Obj Handle Id Volume : Type}

/-- The part of a run that the link takes, errors included. -/
def NoisyAction.onLink : NoisyAction Obj Handle Id Volume → Option Link.NoisyAction
  | .program a => a.onLink.map .link
  | .error e => some (.error e)

variable [DecidableEq Obj] [DecidableEq Id] (scale : ℕ → Volume) (deviceOf : Obj → Id)

def noisyStep (p : Program Obj Handle Id Volume) :
    NoisyAction Obj Handle Id Volume → Option (Program Obj Handle Id Volume)
  | .program a => p.step scale deviceOf a
  | .error e => some { p with link := p.link.suffer e }

/-- The receive loop does not skip without getting a byte. -/
def SkipsByte (p : Program Obj Handle Id Volume) : NoisyAction Obj Handle Id Volume → Prop
  | .program (.link a) => p.link.SkipsByte (.link a)
  | _ => True

instance (p : Program Obj Handle Id Volume) : ∀ a, Decidable (SkipsByte p a)
  | .program (.link a) => inferInstanceAs (Decidable (p.link.SkipsByte (.link a)))
  | .program (.audio _) | .error _ => isTrue trivial

variable {scale deviceOf} {outside : Obj → ℕ} {p q : Program Obj Handle Id Volume}

/-- Both sides of a run with errors. -/
structure NoisySides (scale : ℕ → Volume) (deviceOf : Obj → Id) (outside : Obj → ℕ)
    (os : List Id) (actions : List (NoisyAction Obj Handle Id Volume))
    (p : Program Obj Handle Id Volume) : Prop where
  link : Link.Balanced (actions.filterMap NoisyAction.onLink) p.link
  audio : Requested scale deviceOf outside os p

theorem noisySides_of_step {os : List Id} {actions : List (NoisyAction Obj Handle Id Volume)}
    (h : NoisySides scale deviceOf outside os actions p) {a : NoisyAction Obj Handle Id Volume}
    (hskip : SkipsByte p a) (hstep : p.noisyStep scale deviceOf a = some q) :
    NoisySides scale deviceOf outside os (actions ++ [a]) q := by
  cases a with
  | program a =>
    have m := move_of_step hstep
    refine ⟨?_, requested_of_move h.audio m⟩
    rw [List.filterMap_append]
    rcases link_of_move m with ⟨b, hb, hlink⟩ | ⟨hnone, hlink⟩
    · have honLink : NoisyAction.onLink (.program a) = some (.link b) := by
        rw [NoisyAction.onLink, hb, Option.map_some]
      have hreads : p.link.SkipsByte (.link b) := by
        cases a with
        | link c =>
          cases hb
          exact hskip
        | audio c => cases hb
      rw [List.filterMap_cons_some honLink]
      exact Link.balanced_of_move h.link hreads (Link.move_of_step hlink)
    · have honLink : NoisyAction.onLink (.program a) = none := by
        rw [NoisyAction.onLink, hnone, Option.map_none]
      rw [List.filterMap_cons_none honLink, List.filterMap_nil, List.append_nil, hlink]
      exact h.link
  | error e =>
    cases hstep
    refine ⟨?_, ?_⟩
    · rw [List.filterMap_append]
      exact Link.balanced_of_error h.link e
    · obtain ⟨as, haudio, hrequested⟩ := h.audio
      refine ⟨as, haudio, ?_⟩
      cases e <;> exact hrequested

theorem noisySides_of_run {os : List Id} {actions : List (NoisyAction Obj Handle Id Volume)}
    (hskip : Meets (noisyStep scale deviceOf) SkipsByte (start outside os) actions)
    (h : run (noisyStep scale deviceOf) (start outside os) actions = some p) :
    NoisySides scale deviceOf outside os actions p := by
  have hstep : ∀ (done : List (NoisyAction Obj Handle Id Volume)) u a v,
      NoisySides scale deviceOf outside os done u → SkipsByte u a →
      noisyStep scale deviceOf u a = some v →
      NoisySides scale deviceOf outside os (done ++ [a]) v :=
    fun _ _ _ _ hu hcond huv => noisySides_of_step hu hcond huv
  have hstart : NoisySides scale deviceOf outside os []
      (start outside os : Program Obj Handle Id Volume) :=
    ⟨Link.balanced_start [], [], rfl, rfl⟩
  exact run_invariant_of_meets_history hstep hstart hskip h

/-- Whatever errors the line makes and however the reads are cut, as long as no skip comes back
without a byte: no fault is met, every volume call is one of a whole walk over the tree
installed when it got the mutex, no walk has a value above 1023, and all settings but few
are those measured on slider 0, in order. A byte lost or inserted and a read of a single byte
cost at most two settings each, a changed byte three, and an inserted or changed byte and
two lost ones bring in at most one that was not measured. -/
theorem errors_cost_few_settings {os : List Id}
    {actions : List (NoisyAction Obj Handle Id Volume)}
    (h : run (noisyStep scale deviceOf) (start outside os) actions = some p)
    (hskip : Meets (noisyStep scale deviceOf) SkipsByte (start outside os) actions) :
    p.audio.crashed = none ∧ (∀ v ∈ p.link.receiver.volumes, v ≤ 1023) ∧
      ∃ (as : List (Audio.Action Obj Handle Id Volume))
          (walks : List (DeviceCollection Obj × Volume)) (good : List ℕ),
        run (System.step deviceOf) (System.start outside os) as = some p.audio ∧
        walks.map Prod.snd ++ p.audio.waiting = p.link.receiver.volumes.map scale ∧
        p.audio.calls = (walks.flatMap fun w => w.1.volumeCalls w.2) ∧
        (∀ i w, walks[i]? = some w → System.GotMutex deviceOf outside os as i w) ∧
        good.Sublist p.link.measured ∧
        (good.map scale).Sublist (walks.map Prod.snd ++ p.audio.waiting) ∧
        2 * p.link.measured.length ≤ 2 * good.length +
          2 * (Link.frameCosts (actions.filterMap NoisyAction.onLink) +
            2 * p.link.receiver.cutReads) + p.link.receiver.undecided.length ∧
        2 * (walks.length + p.audio.waiting.length) ≤
          2 * good.length + Link.pairCosts (actions.filterMap NoisyAction.onLink) := by
  have hsides := noisySides_of_run hskip h
  obtain ⟨hcrashed, as, walks, hrun, hrequests, hcalls, hlocked⟩ := hsides.audio.walks
  obtain ⟨good, hmeasured, hvolumes, hmissing, hfalse⟩ := hsides.link.good_volumes
  have hcount := congrArg List.length hrequests
  simp only [List.length_append, List.length_map] at hcount
  refine ⟨hcrashed, hsides.link.volumes_le, as, walks, good, hrun, hrequests, hcalls, hlocked,
    hmeasured, ?_, hmissing, by omega⟩
  rw [hrequests]
  exact hvolumes.map scale

def changedVolume : List (NoisyAction ℕ ℕ ℕ ℕ) :=
  (firstVolume.take 15).map NoisyAction.program ++ [.error (.changeReply 1 128)] ++
    (firstVolume.drop 15).map NoisyAction.program

/-- The value 1000 was measured. -/
theorem errors_cost_few_settings_changedVolume :
    ∃ p, run (noisyStep id fun d : ℕ => d) (start (fun _ => 0) [10]) changedVolume = some p ∧
      p.audio.calls = [(some 110, 960)] ∧ p.audio.crashed = none ∧
      ∃ good : List ℕ, good.Sublist p.link.measured ∧
        2 * p.link.measured.length ≤ 2 * good.length +
          2 * (Link.frameCosts (changedVolume.filterMap NoisyAction.onLink) +
            2 * p.link.receiver.cutReads) + p.link.receiver.undecided.length := by
  have h : (run (noisyStep id fun d : ℕ => d) (start (fun _ => 0) [10]) changedVolume).any
      (fun p => decide (p.audio.calls = [(some 110, 960)])) = true := by decide +kernel
  obtain ⟨p, hp, hcalls⟩ := (Option.any_eq_true _ _).mp h
  obtain ⟨hcrashed, -, as, walks, good, -, -, -, -, hgood, -, hmissing, -⟩ :=
    errors_cost_few_settings hp (by decide +kernel)
  exact ⟨p, hp, of_decide_eq_true hcalls, hcrashed, good, hgood, hmissing⟩

end AudioCtrl.Program
