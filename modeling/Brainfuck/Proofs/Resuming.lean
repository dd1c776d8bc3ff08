import Brainfuck.Proofs.Bench
import Brainfuck.Proofs.Refit

/-!
# Brainfuck.Proofs.Resuming

Interrupting and resuming makes no difference to what a program does.

The owner of a machine steps it, starts runs and goes on after they have
returned, changes limit and delay, and anyone cancels and resets, in any order
and between any two atomic actions.  A run can so be stopped in four places:
before a step by the cancel flag or by the limit, inside a read, and inside a
delay.

What none of this touches is the undisturbed machine (`Machine.undisturbed`),
which is the machine without limit, delay and cancellation.  Either a deed gives
out the record of a step, and the undisturbed machine takes the same step, or
the undisturbed machine is what it was (`executes_of_act`).  So a history
of such deeds is a beginning of the one run of the undisturbed machine
(`prefix_of_isOnCourse`).
-/

namespace Brainfuck

/-- The deeds of those who only step, run, interrupt and resume. -/
def Deed.isOnCourse : Deed → Bool
  | .step | .start | .advance | .finish | .setLimit _ | .setDelay _ => true
  | .handle .cancel | .handle .reset => true
  | _ => false

/-- The machine with nothing that could stop a run of it or slow it down. -/
def Machine.undisturbed (m : Machine) : Machine := m.refit .reset none 0

theorem Wiring.respects_reset (w : Wiring) : Respects .reset w where
  emit _ := rfl
  post _ _ := rfl
  byte b rest hb := by
    obtain ⟨-, q, hq, rfl⟩ := (intake_eq_byte_iff _ _ _).mp hb
    exact (intake_eq_byte_iff _ _ _).mpr ⟨rfl, q, hq, rfl⟩
  ended he := by
    obtain ⟨-, hempty, hclosed⟩ := (intake_eq_ended_iff _).mp he
    exact (intake_eq_ended_iff _).mpr ⟨rfl, hempty, hclosed⟩

theorem Machine.undisturbed_free (m : Machine) : m.undisturbed.Free := ⟨rfl, rfl⟩

/-! ## one deed -/

namespace Bench

/-- A deed that may interrupt, but executes nothing, leaves the undisturbed machine. -/
theorem undisturbed_of_idle {b : Bench} {m : Machine} {d : Deed} (hm : b.session = .machine m)
    (hd : d.isOnCourse = true) (hrecord : b.record? d = none) :
    ∃ m', (b.act d).session = .machine m' ∧ m'.undisturbed = m.undisturbed := by
  have hsame : (b.act d).session = b.session →
      ∃ m', (b.act d).session = .machine m' ∧ m'.undisturbed = m.undisturbed :=
    fun h => ⟨m, h.trans hm, rfl⟩
  cases d with
  | step => exact hsame (session_of_idle (.inl rfl) hrecord)
  | advance => exact hsame (session_of_idle (.inr rfl) hrecord)
  | handle op =>
    rw [act_handle, session_mapWiring, hm]
    cases op with
    | cancel | reset => exact ⟨_, rfl, rfl⟩
    | _ => cases hd
  | start | setLimit | setDelay =>
    cases b with
    | running r => exact hsame rfl
    | resting s =>
      obtain rfl : s = .machine m := hm
      exact ⟨_, rfl, rfl⟩
  | finish =>
    cases b with
    | resting s => exact hsame rfl
    | running r =>
      have hact : (running r).act .finish =
        if r.result?.isSome then resting (.machine r.machine) else running r := rfl
      refine hsame ?_
      rw [hact]
      split <;> rfl
  | feed | view | hand | setMode | release | drop => cases hd

/-- The undisturbed machine takes the steps that a deed gives out. -/
theorem executes_of_act {b : Bench} {m : Machine} {d : Deed} (hm : b.session = .machine m)
    (hd : d.isOnCourse = true) :
    ∃ m', (b.act d).session = .machine m' ∧
      m.undisturbed.Executes (b.record? d).toList m'.undisturbed := by
  cases hrecord : b.record? d with
  | none =>
    obtain ⟨m', hm', heq⟩ := undisturbed_of_idle hm hd hrecord
    exact ⟨m', hm', heq ▸ .nil _⟩
  | some s =>
    obtain ⟨m₁, m', hm₁, hstep, hm'⟩ := step_of_record? hrecord
    obtain rfl := Session.machine.inj (hm.symm.trans hm₁)
    exact ⟨m', hm', .cons (Machine.step_refit hstep (Wiring.respects_reset _)) (.nil _)⟩

/-! ## a history -/

theorem executes_of_isOnCourse {b : Bench} {m : Machine} {ds : List Deed}
    (hm : b.session = .machine m) (hds : ∀ d ∈ ds, d.isOnCourse = true) :
    ∃ m', (b.play ds).session = .machine m' ∧
      m.undisturbed.Executes (b.records ds) m'.undisturbed := by
  induction ds generalizing b m with
  | nil => exact ⟨m, hm, .nil _⟩
  | cons d ds ih =>
    obtain ⟨hd, hds⟩ := List.forall_mem_cons.mp hds
    obtain ⟨m₁, hm₁, hex⟩ := executes_of_act hm hd
    obtain ⟨m', hm', hex'⟩ := ih hm₁ hds
    rw [play_cons, records_cons]
    exact ⟨m', hm', hex.append hex'⟩

/-- However a machine is stepped, run, interrupted and resumed, the steps it has
taken are the first ones of a single run, and it stands where that run stands
after as many steps. -/
theorem prefix_of_isOnCourse (m : Machine) (ds : List Deed)
    (hds : ∀ d ∈ ds, d.isOnCourse = true) :
    let ss := (resting (.machine m)).records ds
    ∃ m', ((resting (.machine m)).play ds).session = .machine m' ∧
      (m.undisturbed.run ss.length).seen.toList = ss ∧
      (m.undisturbed.run ss.length).machine = m'.undisturbed ∧
      ∀ fuel, ss.length ≤ fuel → ss <+: (m.undisturbed.run fuel).seen.toList := by
  intro ss
  obtain ⟨m', hm', hex⟩ := executes_of_isOnCourse (b := resting (.machine m)) rfl hds
  have hrun : m.undisturbed.run ss.length = m'.undisturbed.runFrom _ _ 0 :=
    Machine.runFrom_of_executes hex m.undisturbed_free _ _ 0
  obtain ⟨hseen, hmachine⟩ := m'.undisturbed.runFrom_zero (#[] ++ ss.toArray) _
  refine ⟨m', hm', ?_, by rw [hrun, hmachine], fun fuel hfuel => ?_⟩
  · rw [hrun, hseen]
    simp
  · exact Machine.prefix_of_executes hex m.undisturbed_free hfuel

/-- A run that is cancelled inside a read, then inside a delay, then stopped by
the limit, and at last stepped to its end. -/
theorem resumed_after_interruptions :
    let m := Machine.load ⟨#[',', '+', '.']⟩
      ⟨.blank 1 .strict, (Wiring.fresh.supply [64]).closeInput⟩
    let run (n : Nat) : List Deed := .start :: List.replicate n .advance
    let ds : List Deed :=
      run 3 ++ [.handle .cancel, .advance, .finish, .handle .reset, .setDelay 5] ++
      run 4 ++ [.handle .cancel, .advance, .finish, .handle .reset, .setLimit (some 2)] ++
      run 8 ++ [.finish, .step]
    (∀ d ∈ ds, d.isOnCourse = true) ∧
      ∃ m', ((resting (.machine m)).play ds).session = .machine m' ∧
        (m.undisturbed.run 3).seen.toList = (resting (.machine m)).records ds ∧
        (m.undisturbed.run 3).machine = m'.undisturbed ∧
        (m.undisturbed.run 3).machine.device.wiring.emitted = [65] := by
  intro m run ds
  have hds : ∀ d ∈ ds, d.isOnCourse = true := by decide
  have hlength : ((resting (.machine m)).records ds).length = 3 := by decide +kernel
  obtain ⟨m', hm', hseen, hmachine, -⟩ := prefix_of_isOnCourse m ds hds
  rw [hlength] at hseen hmachine
  exact ⟨hds, m', hm', hseen, hmachine, by decide +kernel⟩

end Bench

end Brainfuck
