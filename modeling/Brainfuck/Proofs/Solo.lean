import Brainfuck.Proofs.Bench
import Brainfuck.Proofs.Running

/-!
# Brainfuck.Proofs.Solo

A run in atomic actions, when nobody else acts in between.

`Machine.run` looks at the limit and the cancel flag once before each step, and
does not know of pauses; a `Runner` does all this in actions of its own.  Left
alone, the runner comes to the machine that the run leaves behind, gives out the
same records, and returns the same result (`comes_of_run`).  Only what others do
can make a difference, and that is what histories are for.
-/

namespace Brainfuck

namespace Runner

/-- `r.Comes ss r'`: left alone, the run `r` comes to `r'`, and executes the
steps `ss` on its way. -/
def Comes (r : Runner) (ss : List Step) (r' : Runner) : Prop :=
  ∃ n, (Bench.running r).play (List.replicate n .advance) = .running r' ∧
    (Bench.running r).records (List.replicate n .advance) = ss

theorem comes_refl (r : Runner) : r.Comes [] r := ⟨0, rfl, rfl⟩

/-- An action that executes nothing. -/
theorem Comes.quiet {r r₁ r' : Runner} {ss : List Step} {p : Progress} (h : r.advance = (p, r₁))
    (hp : ∀ s, p ≠ .moved (some (.stepTaken s))) (h' : r₁.Comes ss r') : r.Comes ss r' := by
  obtain ⟨n, hplay, hrecords⟩ := h'
  have hact : (Bench.running r).act .advance = .running r₁ := by rw [Bench.act, h]
  have hrecord : (Bench.running r).record? .advance = none := by
    rw [Bench.record?, h]
    split
    · next s hs => exact absurd hs (hp s)
    · rfl
  refine ⟨n + 1, ?_, ?_⟩
  · rw [List.replicate_succ, Bench.play_cons, hact, hplay]
  · rw [List.replicate_succ, Bench.records_cons, hact, hrecord, hrecords]
    rfl

/-- An action that executes an instruction. -/
theorem Comes.stepped {r r₁ r' : Runner} {s : Step} {ss : List Step}
    (h : r.advance = (.moved (some (.stepTaken s)), r₁)) (h' : r₁.Comes ss r') :
    r.Comes (s :: ss) r' := by
  obtain ⟨n, hplay, hrecords⟩ := h'
  have hact : (Bench.running r).act .advance = .running r₁ := by rw [Bench.act, h]
  have hrecord : (Bench.running r).record? .advance = some s := by rw [Bench.record?, h]
  refine ⟨n + 1, ?_, ?_⟩
  · rw [List.replicate_succ, Bench.play_cons, hact, hplay]
  · rw [List.replicate_succ, Bench.records_cons, hact, hrecord, hrecords]
    rfl

end Runner

namespace Machine

variable {m m' : Machine}

open Runner (Comes comes_refl)

/-! ## before a step -/

/-- What stops a run before a step stops the runner, with the same fault. -/
theorem comes_of_halt {ending : Ending} {last : List Notice} (h : m.halt? = some (ending, last)) :
    ∃ fault, ending = .returned fault ∧ Comes ⟨m, .testEnd⟩ [] ⟨m, .returned fault⟩ := by
  unfold halt? at h
  split at h
  · next hf =>
    cases h
    exact ⟨none, rfl, .quiet (Runner.advance_testEnd_of_finished hf) nofun (comes_refl _)⟩
  · next hf =>
    have hend := Runner.advance_testEnd (Bool.not_eq_true _ ▸ hf)
    split at h
    · next hc =>
      cases h
      exact ⟨some _, rfl, .quiet hend nofun
        (.quiet (Runner.advance_testCancel_of_cancelled hc) nofun (comes_refl _))⟩
    · next hc =>
      have hcancel := Runner.advance_testCancel (Bool.not_eq_true _ ▸ hc)
      split at h
      · cases h
      · next limit hl =>
        split at h
        · next hle =>
          cases h
          exact ⟨some _, rfl, .quiet hend nofun (.quiet hcancel nofun
            (.quiet (Runner.advance_testLimit_of_le hl hle) nofun (comes_refl _)))⟩
        · cases h

/-- What does not stop a run lets the runner execute. -/
theorem comes_of_not_halt (h : m.halt? = none) {ss : List Step} {r : Runner}
    (h' : Comes ⟨m, .execute⟩ ss r) : Comes ⟨m, .testEnd⟩ ss r := by
  obtain ⟨hf, hc, hl⟩ := halt?_eq_none_iff.mp h
  exact .quiet (Runner.advance_testEnd hf) nofun (.quiet (Runner.advance_testCancel hc) nofun
    (.quiet (Runner.advance_testLimit hl) nofun h'))

/-! ## a run -/

/-- After a step the runner sits out the delay, unless someone has asked to stop. -/
theorem comes_of_step {s : Step} (h : m.step = (.stepped s, m'))
    (hcancelled : m.device.wiring.cancelled = false) {ss : List Step} {r : Runner}
    (h' : Comes ⟨m', .testEnd⟩ ss r) : Comes ⟨m, .execute⟩ (s :: ss) r := by
  refine .stepped (Runner.advance_execute_of_stepped h) ?_
  split
  · exact h'
  · obtain ⟨-, -, -, -, hc, -⟩ := frame_of_step h
    exact .quiet (Runner.advance_pause (hc.trans hcancelled)) nofun h'

/-- What a run of `m` leaves behind, and has given out after `seen`, is what the
runner comes to, gives out and returns. -/
def Mirrors (m : Machine) (seen : Array Step) (run : Run) : Prop :=
  ∃ ss phase, run.seen = seen ++ ss.toArray ∧ Comes ⟨m, .testEnd⟩ ss ⟨run.machine, phase⟩ ∧
    ∀ fault, run.ending = .returned fault → phase = .returned fault

theorem mirrors_of_halt {ending : Ending} {last : List Notice} (h : m.halt? = some (ending, last))
    (seen : Array Step) (log : Array Notice) : m.Mirrors seen ⟨ending, m, seen, log⟩ := by
  obtain ⟨fault, rfl, hcomes⟩ := comes_of_halt h
  refine ⟨[], _, by simp, hcomes, fun fault' h' => ?_⟩
  rw [Ending.returned_inj h']

theorem mirrors_runFrom (m : Machine) (seen : Array Step) (log : Array Notice) (fuel : Nat) :
    m.Mirrors seen (m.runFrom seen log fuel) := by
  induction fuel generalizing m seen log with
  | zero =>
    cases hh : m.halt? with
    | some x =>
      simp only [runFrom, hh]
      exact mirrors_of_halt hh _ _
    | none =>
      simp only [runFrom, hh]
      exact ⟨[], .testEnd, by simp, comes_refl _, fun fault h => by cases fault <;> cases h⟩
  | succ fuel ih =>
    cases hh : m.halt? with
    | some x =>
      simp only [runFrom, hh]
      exact mirrors_of_halt hh _ _
    | none =>
      obtain ⟨hf, hc, -⟩ := halt?_eq_none_iff.mp hh
      obtain ⟨h, _⟩ | ⟨c, a, j, d, _, _, h⟩ | ⟨c, fault, _, _, h⟩ | ⟨c, _, _, h⟩ := m.step_cases
      · rw [hf] at h
        cases h
      · simp only [runFrom, hh, h]
        obtain ⟨ss, phase, hseen, hcomes, hend⟩ := ih (m.proceeded j d)
          (seen.push { m.sight c with action := a }) (log.push (.stepTaken _))
        refine ⟨_ :: ss, phase, ?_, comes_of_not_halt hh (comes_of_step h hc hcomes), hend⟩
        rw [hseen, push_append_toArray]
      · have hexecute := Runner.advance_execute_of_failed h
        simp only [runFrom, hh, h]
        refine ⟨[], .returned (some fault), by simp,
          comes_of_not_halt hh (.quiet hexecute (by simp) (comes_refl _)), fun fault' he => ?_⟩
        rw [← Ending.returned_inj (f := some fault) he]
      · simp only [runFrom, hh, h]
        exact ⟨[], .execute, by simp, comes_of_not_halt hh (comes_refl _),
          fun fault he => by cases fault <;> cases he⟩

/-- A runner that is left alone does what a run does. -/
theorem comes_of_run (m : Machine) (fuel : Nat) :
    ∃ phase, Comes (.start m) (m.run fuel).seen.toList ⟨(m.run fuel).machine, phase⟩ ∧
      ∀ fault, (m.run fuel).ending = .returned fault → phase = .returned fault := by
  obtain ⟨ss, phase, hseen, hcomes, hend⟩ :=
    m.mirrors_runFrom #[] #[.runStarted m.program.size m.ip m.delay] fuel
  rw [← run] at hseen hcomes hend
  have hss : (m.run fuel).seen.toList = ss := by
    rw [hseen]
    simp
  exact ⟨phase, hss ▸ hcomes, hend⟩

end Machine

end Brainfuck
