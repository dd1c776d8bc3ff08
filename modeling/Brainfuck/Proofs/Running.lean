import Brainfuck.Proofs.Halting

/-!
# Brainfuck.Proofs.Running

A run that nothing hinders, no step limit and no cancellation (`Machine.Free`).
Every execution is permitted to it, and it halts exactly where the program stops:

* `runFrom_of_executes` — fuel for an execution is used up by it, step for step;
* `returns_iff` — a run returns exactly when an execution reaches a machine
  that stops;
* `Returns.unique` — it returns one thing only.
-/

namespace Brainfuck

namespace Machine

/-- `m.Stops fault`: a run that has come to `m` returns there, without a fault
because the program has ended, or with the fault of the next step. -/
def Stops (m : Machine) : Option Fault → Prop
  | none => m.isFinished = true
  | some fault => m.step = (.failed fault, m)

/-- Nothing but its program can end a run of this machine. -/
structure Free (m : Machine) : Prop where
  limit : m.limit = none
  cancelled : m.device.wiring.cancelled = false

variable {m m' : Machine} {ss : List Step}

theorem Free.of_step {s : Step} (h : m.step = (.stepped s, m')) (hm : m.Free) : m'.Free := by
  obtain ⟨-, -, hlimit, -, hcancelled, -⟩ := frame_of_step h
  exact ⟨hlimit.trans hm.limit, hcancelled.trans hm.cancelled⟩

theorem Free.permits (hm : m.Free) (n : Nat) : m.Permits n := by
  refine .inr ⟨hm.cancelled, ?_⟩
  rw [hm.limit]
  nofun

/-! ## a machine that stops -/

theorem Stops.not_stepped {fault : Option Fault} {s : Step} (h : m.Stops fault) :
    m.step ≠ (.stepped s, m') := by
  intro hs
  cases fault with
  | none => rw [Stops, isFinished_of_step hs] at h; cases h
  | some f => rw [Stops, hs] at h; cases h

theorem Stops.unique {f g : Option Fault} (h : m.Stops f) (h' : m.Stops g) : f = g := by
  cases f with
  | none =>
    cases g with
    | none => rfl
    | some g =>
      rw [Stops, step_eq_finished_iff.mpr ⟨rfl, h⟩] at h'
      cases h'
  | some f =>
    cases g with
    | none =>
      rw [Stops, step_eq_finished_iff.mpr ⟨rfl, h'⟩] at h
      cases h
    | some g =>
      rw [Stops] at h h'
      rw [h] at h'
      cases h'
      rfl

/-- An execution that reaches a machine that stops is as long as any. -/
theorem Executes.length_le_of_stops {m₁ m₂ : Machine} {ts : List Step} {fault : Option Fault}
    (h : m.Executes ss m₁) (hstop : m₁.Stops fault) (h' : m.Executes ts m₂) :
    ts.length ≤ ss.length := by
  obtain hle | hle := Nat.le_total ts.length ss.length
  · exact hle
  · obtain ⟨us, rfl, hu⟩ := h.continues h' hle
    cases hu with
    | nil => simp
    | cons head _ => exact absurd head hstop.not_stepped

/-- A program whose next step fails has not ended. -/
theorem Stops.isFinished_eq_false {fault : Fault} (h : m.Stops (some fault)) :
    m.isFinished = false := by
  cases hfinished : m.isFinished with
  | false => rfl
  | true =>
    have hstop : m.Stops none := hfinished
    exact nomatch hstop.unique h

/-- A run that has not been cancelled halts where its program ends, where a step
fails that the limit still allows, or else at the limit. -/
theorem halts_iff (hcancelled : m.device.wiring.cancelled = false) {fault : Option Fault} :
    m.Halts fault ↔
      (m.Stops fault ∧ (fault = none ∨ ∀ limit, m.limit = some limit → m.steps < limit)) ∨
      ∃ limit, m.limit = some limit ∧ fault = some (.stepLimit limit) ∧ m.isFinished = false ∧
        limit ≤ m.steps := by
  constructor
  · intro h
    cases h with
    | step hhalt hstep => exact .inl ⟨hstep, .inr (halt?_eq_none_iff.mp hhalt).2.2⟩
    | test hhalt =>
      cases hfinished : m.isFinished with
      | true =>
        rw [halt?_of_isFinished hfinished] at hhalt
        obtain rfl : none = fault :=
          Ending.returned_inj (congrArg Prod.fst (Option.some.inj hhalt))
        exact .inl ⟨hfinished, .inl rfl⟩
      | false =>
        simp only [halt?, hfinished, hcancelled, Bool.false_eq_true, if_false] at hhalt
        cases hlimit : m.limit with
        | none => simp [hlimit] at hhalt
        | some limit =>
          by_cases hle : limit ≤ m.steps
          · simp only [hlimit, hle, if_true] at hhalt
            obtain rfl : some (.stepLimit limit) = fault :=
              Ending.returned_inj (congrArg Prod.fst (Option.some.inj hhalt))
            exact .inr ⟨limit, rfl, rfl, rfl, hle⟩
          · simp [hlimit, hle] at hhalt
  · intro h
    obtain ⟨hstop, hlt⟩ | ⟨limit, hlimit, rfl, hfinished, hle⟩ := h
    · cases fault with
      | none => exact .test (halt?_of_isFinished hstop)
      | some f =>
        have hlt : ∀ limit, m.limit = some limit → m.steps < limit := by simpa using hlt
        exact .step (halt?_eq_none_iff.mpr ⟨hstop.isFinished_eq_false, hcancelled, hlt⟩) hstop
    · have hhalt : m.halt? = some (.returned (some (.stepLimit limit)), []) := by
        simp [halt?, hfinished, hcancelled, hlimit, hle, Ending.returned]
      exact .test hhalt

theorem Free.halts_iff (hm : m.Free) {fault : Option Fault} : m.Halts fault ↔ m.Stops fault := by
  rw [Machine.halts_iff hm.cancelled, hm.limit]
  simp

/-! ## a run and its execution -/

/-- A run goes through every execution, and hands out its records. -/
theorem runFrom_of_executes (h : m.Executes ss m') (hm : m.Free) (seen : Array Step)
    (log : Array Notice) (fuel : Nat) :
    m.runFrom seen log (ss.length + fuel) =
      m'.runFrom (seen ++ ss.toArray) (log ++ (ss.map Notice.stepTaken).toArray) fuel :=
  runFrom_of_permits h (hm.permits _) seen log fuel

/-- Without fuel a run gives out nothing, and goes nowhere. -/
theorem runFrom_zero (m : Machine) (seen : Array Step) (log : Array Notice) :
    (m.runFrom seen log 0).seen = seen ∧ (m.runFrom seen log 0).machine = m := by
  rw [runFrom]
  cases m.halt? <;> exact ⟨rfl, rfl⟩

/-- A run with fuel enough for an execution begins with the records of it. -/
theorem prefix_of_executes (h : m.Executes ss m') (hm : m.Free) {fuel : Nat}
    (hfuel : ss.length ≤ fuel) : ss <+: (m.run fuel).seen.toList := by
  obtain ⟨rest, rfl⟩ := Nat.exists_eq_add_of_le hfuel
  rw [run, runFrom_of_executes h hm]
  obtain ⟨ts, hseen, -⟩ := m'.affords_runFrom (#[] ++ ss.toArray) _ rest
  rw [hseen]
  exact ⟨ts, by simp⟩

/-- A run returns exactly when an execution reaches a machine that stops. -/
theorem returns_iff (hm : m.Free) {fault : Option Fault} :
    m.Returns fault ss m' ↔ m.Executes ss m' ∧ m'.Stops fault := by
  rw [returns_iff_halts]
  constructor
  · intro h
    obtain ⟨hex, -, hhalts⟩ := h
    exact ⟨hex, (hex.preserves Free.of_step hm).halts_iff.mp hhalts⟩
  · intro h
    obtain ⟨hex, hstop⟩ := h
    exact ⟨hex, hm.permits _, (hex.preserves Free.of_step hm).halts_iff.mpr hstop⟩

/-- A run returns one result, after one sequence of steps, with one machine. -/
theorem Returns.unique (hm : m.Free) {f g : Option Fault} {ts : List Step} {m'' : Machine}
    (h : m.Returns f ss m') (h' : m.Returns g ts m'') : f = g ∧ ss = ts ∧ m' = m'' := by
  obtain ⟨hex, hstop⟩ := (returns_iff hm).mp h
  obtain ⟨hex', hstop'⟩ := (returns_iff hm).mp h'
  obtain ⟨us, rfl, hu⟩ := hex.continues hex' (hex'.length_le_of_stops hstop' hex)
  cases hu with
  | nil => exact ⟨hstop.unique hstop', by simp, rfl⟩
  | cons head _ => exact absurd head hstop.not_stepped

end Machine

end Brainfuck
