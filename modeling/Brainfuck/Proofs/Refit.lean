import Brainfuck.Proofs.Running

/-!
# Brainfuck.Proofs.Refit

A machine refitted with other wiring, another limit and another delay.

An instruction asks three things of the wiring: to queue a byte of output, to
tell the listeners of a change, and for a byte of input.  A change of the wiring
that respects these (`Wiring.Respects`) cannot be noticed by the program:

* `step_refit`, `Stops.refit` — the refitted machine takes the same step, to the
  refitted machine, and stops with the same fault;
* `step_of_refit`, `Executes.of_refit` — and the other way round, for a machine
  that neither waits for input nor is cancelled.

Cancelling and waiting are left out on purpose: those are what the wiring is for.
-/

namespace Brainfuck

/-- A change `f` of the wiring that an instruction executed with the wiring `w`
does not notice. -/
structure Wiring.Respects (f : Wiring → Wiring) (w : Wiring) : Prop where
  emit : ∀ b, f (w.emit b) = (f w).emit b
  post : ∀ v c, f (Wiring.post v c) = (f v).post c
  byte : ∀ b rest, w.intake = .byte b rest → (f w).intake = .byte b (f rest)
  ended : w.intake = .ended → (f w).intake = .ended

namespace Machine

/-- The machine with other wiring, another limit and another delay. -/
def refit (m : Machine) (f : Wiring → Wiring) (limit : Option Nat) (delay : Nat) : Machine :=
  { m with
    device := { m.device with wiring := f m.device.wiring }
    limit := limit
    delay := delay }

variable {m m' : Machine} {f : Wiring → Wiring} {limit : Option Nat} {delay : Nat}

/-! ## the machine, then the refitted machine -/

theorem Performs.refit {i : Instruction} {a : Action} {j : Nat} {d : Device}
    (h : m.Performs i a j d) (hf : Wiring.Respects f m.device.wiring) :
    (m.refit f limit delay).Performs i a j { d with wiring := f d.wiring } := by
  -- Only the instructions that mutate the tape have to be looked at: there the
  -- change of the wiring has to move past the announcement.
  cases h with
  | move h => rw [Device.announce, hf.post]; exact .move h
  | increment => rw [Device.increment, Device.announce, hf.post]; exact .increment
  | decrement => rw [Device.decrement, Device.announce, hf.post]; exact .decrement
  | write => rw [Device.write, Device.announce, hf.post, hf.emit]; exact .write
  | readByte h =>
    have hbyte : (m.refit f limit delay).device.wiring.intake = _ := hf.byte _ _ h
    rw [Device.announce, hf.post]
    exact .readByte hbyte
  | readEnd h => rw [Device.announce, hf.post]; exact .readEnd (hf.ended h)
  | enterLoop h => exact .enterLoop h
  | jumpForward h hj => exact .jumpForward h hj
  | passStart h hj hm => exact .passStart h hj hm
  | exitLoop h => exact .exitLoop h
  | jumpBack h hj => exact .jumpBack h hj
  | passEnd h hj hm => exact .passEnd h hj hm
  | comment => exact .comment

theorem step_refit {s : Step} (h : m.step = (.stepped s, m'))
    (hf : Wiring.Respects f m.device.wiring) :
    (m.refit f limit delay).step = (.stepped s, m'.refit f limit delay) := by
  obtain ⟨c, a, j, d, hc, hp, rfl, rfl⟩ := step_eq_stepped_iff.mp h
  exact step_eq_stepped_iff.mpr ⟨c, a, j, _, hc, hp.refit hf, rfl, rfl⟩

theorem not_cancelled_of_stops {fault : Option Fault} (h : m.Stops fault)
    (hm : m.device.wiring.cancelled = false) (ip : Nat) : fault ≠ some (.cancelled ip) := by
  intro heq
  subst heq
  obtain ⟨-, c, -, hfail⟩ := step_eq_failed_iff.mp h
  cases hfail with
  | read hc hi =>
    rw [(Wiring.intake_eq_cancelled_iff _).mp hi] at hm
    cases hm

theorem Stops.refit {fault : Option Fault} (h : m.Stops fault)
    (hm : m.device.wiring.cancelled = false) : (m.refit f limit delay).Stops fault := by
  cases fault with
  | none => exact h
  | some fault =>
    obtain ⟨-, c, hc, hfail⟩ := step_eq_failed_iff.mp h
    refine step_eq_failed_iff.mpr ⟨rfl, c, hc, ?_⟩
    cases hfail with
    | move hc hmove => exact .move hc hmove
    | read => exact absurd rfl (not_cancelled_of_stops h hm _)
    | loopStart hc hv hj hmode => exact .loopStart hc hv hj hmode
    | loopEnd hc hv hj hmode => exact .loopEnd hc hv hj hmode

/-! ## the refitted machine, then the machine -/

/-- A machine that has all its input takes a step or stops. -/
theorem stepped_or_stops (hclosed : m.device.wiring.input.closed = true) :
    (∃ s m', m.step = (.stepped s, m')) ∨ ∃ fault, m.Stops fault := by
  obtain ⟨h, _⟩ | ⟨c, a, j, d, _, _, h⟩ | ⟨c, fault, _, _, h⟩ | ⟨c, _, hw, _⟩ := m.step_cases
  · exact .inr ⟨none, h⟩
  · exact .inl ⟨_, _, h⟩
  · exact .inr ⟨some fault, h⟩
  · obtain ⟨-, -, hopen⟩ := (Wiring.intake_eq_waiting_iff _).mp hw.2
    rw [hclosed] at hopen
    cases hopen

theorem step_of_refit {s : Step} {m₁ : Machine}
    (h : (m.refit f limit delay).step = (.stepped s, m₁)) (hf : ∀ w, Wiring.Respects f w)
    (hcancelled : m.device.wiring.cancelled = false)
    (hclosed : m.device.wiring.input.closed = true) :
    ∃ m', m.step = (.stepped s, m') ∧ m₁ = m'.refit f limit delay := by
  cases stepped_or_stops hclosed with
  | inl hstep =>
    obtain ⟨s', m', hstep⟩ := hstep
    rw [step_refit hstep (hf _)] at h
    obtain ⟨hs, rfl⟩ := Prod.mk.inj h
    obtain rfl := StepResult.stepped.inj hs
    exact ⟨m', hstep, rfl⟩
  | inr hstop =>
    obtain ⟨fault, hstop⟩ := hstop
    exact absurd h (hstop.refit hcancelled).not_stepped

theorem stops_of_refit {fault : Option Fault} (h : (m.refit f limit delay).Stops fault)
    (hf : ∀ w, Wiring.Respects f w) (hcancelled : m.device.wiring.cancelled = false)
    (hclosed : m.device.wiring.input.closed = true) : m.Stops fault := by
  cases stepped_or_stops hclosed with
  | inl hstep =>
    obtain ⟨s', m', hstep⟩ := hstep
    exact absurd (step_refit hstep (hf _)) h.not_stepped
  | inr hstop =>
    obtain ⟨fault', hstop⟩ := hstop
    exact (hstop.refit hcancelled).unique h ▸ hstop

theorem Executes.of_refit {ss : List Step} {m₁ : Machine}
    (h : (m.refit f limit delay).Executes ss m₁) (hf : ∀ w, Wiring.Respects f w)
    (hcancelled : m.device.wiring.cancelled = false)
    (hclosed : m.device.wiring.input.closed = true) :
    ∃ m', m.Executes ss m' ∧ m₁ = m'.refit f limit delay := by
  induction ss generalizing m with
  | nil =>
    cases h
    exact ⟨m, .nil m, rfl⟩
  | cons s ss ih =>
    cases h with
    | cons head tail =>
      obtain ⟨m₂, hstep, rfl⟩ := step_of_refit head hf hcancelled hclosed
      obtain ⟨-, -, -, -, hc, hi⟩ := frame_of_step hstep
      obtain ⟨m', hex, heq⟩ := ih tail (hc.trans hcancelled) (hi.trans hclosed)
      exact ⟨m', .cons hstep hex, heq⟩

end Machine

end Brainfuck
