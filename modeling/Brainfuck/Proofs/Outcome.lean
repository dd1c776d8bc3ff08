import Brainfuck.Proofs.Cancelling
import Brainfuck.Proofs.Refit

/-!
# Brainfuck.Proofs.Outcome

What a run returns, told from what happens when the machine is stepped by hand.

Stepped by hand, a machine that has all its input comes to a machine that stops
after some number of steps, or goes on for ever.  A run looks before each step
first at the end of the program and then at the step limit, so the end of the
program is found in time if the last step uses the limit up, but a fault only
if a step is left to fail (`Machine.InTime`):

* `exists_executes` — stepping by hand goes on for as long as one likes, or stops;
* `returns_iff_of_limit`, `exists_returns_of_limit` — what a run returns that has a
  limit, and that it returns;
* `accounts_of_run` — what a run hands out, counts and logs of its steps.

Others may ask a run to stop.  Then it can return a fault although its program
has ended, but only from the delay after the last step:

* `Runner.Acts`, `preserved_of_play` — what the next action of a run can be, and what
  all of them keep;
* `timely_of_play` — what the phase of a run says about where its machine stands;
* `exists_last_action`, `cancelled_of_finished` — the action with which a run has
  returned, and what it was if the program has ended;
* `outcome_of_run` — all of it for one machine.
-/

namespace Brainfuck

namespace Machine

variable {m m' : Machine} {ss : List Step} {limit : Nat}

/-! ## stepping by hand -/

/-- A run of `m` under this limit finds out, after `k` steps, that the program has
ended, or that the next step fails. -/
def InTime (m : Machine) (limit k : Nat) : Option Fault → Prop
  | none => k = 0 ∨ m.steps + k ≤ limit
  | some _ => m.steps + k < limit

/-- Wherever stepping `m` by hand comes to a stop, that is too late for the limit. -/
def Overdue (m : Machine) (limit : Nat) : Prop :=
  ∀ fault ss m', m.Executes ss m' → m'.Stops fault → ¬ m.InTime limit ss.length fault

/-- A machine that has all its input executes as many steps as one likes, unless it
comes to a stop before. -/
theorem exists_executes (hclosed : m.device.wiring.input.closed = true) (n : Nat) :
    ∃ ss m', m.Executes ss m' ∧ (ss.length = n ∨ ss.length < n ∧ ∃ fault, m'.Stops fault) := by
  induction n generalizing m with
  | zero => exact ⟨[], m, .nil m, .inl rfl⟩
  | succ n ih =>
    obtain ⟨s, m₁, hstep⟩ | hstop := stepped_or_stops hclosed
    · obtain ⟨-, -, -, -, -, hclosed₁⟩ := frame_of_step hstep
      obtain ⟨ss, m', hex, hlength⟩ := ih (hclosed₁.trans hclosed)
      refine ⟨s :: ss, m', .cons hstep hex, ?_⟩
      rw [List.length_cons]
      obtain h | ⟨h, hstop⟩ := hlength
      · exact .inl (by omega)
      · exact .inr ⟨by omega, hstop⟩
    · exact ⟨[], m, .nil m, .inr ⟨Nat.succ_pos n, hstop⟩⟩

theorem Executes.cancelled_eq (h : m.Executes ss m') :
    m'.device.wiring.cancelled = m.device.wiring.cancelled := by
  induction h with
  | nil => rfl
  | cons head _ ih =>
    obtain ⟨-, -, -, -, hcancelled, -⟩ := frame_of_step head
    exact ih.trans hcancelled

/-! ## under a limit -/

theorem halts_iff_of_limit (hcancelled : m.device.wiring.cancelled = false)
    (hlimit : m.limit = some limit) {fault : Option Fault} :
    m.Halts fault ↔
      (m.Stops fault ∧ (fault = none ∨ m.steps < limit)) ∨
      (fault = some (.stepLimit limit) ∧ m.isFinished = false ∧ limit ≤ m.steps) := by
  rw [halts_iff hcancelled, hlimit]
  simp

theorem permits_iff_of_limit (hcancelled : m.device.wiring.cancelled = false)
    (hlimit : m.limit = some limit) (n : Nat) : m.Permits n ↔ n = 0 ∨ m.steps + n ≤ limit := by
  simp [Permits, hcancelled, hlimit]

/-- Where the limit is used up, the program has not ended yet exactly if it never
ends, nor fails, in time. -/
theorem overdue_iff (hex : m.Executes ss m') (hlength : ss.length = limit - m.steps) :
    m.Overdue limit ↔ m'.isFinished = false := by
  constructor
  · intro hoverdue
    cases hfinished : m'.isFinished with
    | false => rfl
    | true =>
      have hintime : m.InTime limit ss.length none := by
        show ss.length = 0 ∨ m.steps + ss.length ≤ limit
        omega
      exact absurd hintime (hoverdue none ss m' hex hfinished)
  · intro hfinished fault ts m₂ hex₂ hstop hintime
    -- Whoever comes to a stop has come by `m'`, and goes on from there.
    have hle : ss.length ≤ ts.length := hex₂.length_le_of_stops hstop hex
    obtain ⟨us, rfl, hrest⟩ := hex.continues hex₂ hle
    rw [List.length_append] at hintime
    cases fault with
    | some f =>
      have hlt : m.steps + (ss.length + us.length) < limit := hintime
      omega
    | none =>
      have hlate : ss.length + us.length = 0 ∨ m.steps + (ss.length + us.length) ≤ limit := hintime
      have hnil : us = [] := List.eq_nil_of_length_eq_zero (by omega)
      subst hnil
      cases hrest
      rw [Stops, hfinished] at hstop
      cases hstop

/-- **What a run returns that has a limit.**  It returns what stepping by hand comes
to, if that is in time, and otherwise the limit, when it has used it up. -/
theorem returns_iff_of_limit (hcancelled : m.device.wiring.cancelled = false)
    (hlimit : m.limit = some limit) {fault : Option Fault} :
    m.Returns fault ss m' ↔ m.Executes ss m' ∧
      (m'.Stops fault ∧ m.InTime limit ss.length fault ∨
        fault = some (.stepLimit limit) ∧ m.Overdue limit ∧ ss.length = limit - m.steps) := by
  rw [returns_iff_halts, permits_iff_of_limit hcancelled hlimit]
  apply and_congr_right
  intro hex
  obtain ⟨-, -, hlimit', -⟩ := hex.frame
  rw [halts_iff_of_limit (hex.cancelled_eq.trans hcancelled) (hlimit'.trans hlimit), hex.steps_eq]
  constructor
  · intro h
    obtain ⟨hpermits, ⟨hstop, hlt⟩ | ⟨rfl, hfinished, hle⟩⟩ := h
    · cases fault with
      | none => exact .inl ⟨hstop, hpermits⟩
      | some f =>
        have hlt : m.steps + ss.length < limit := by simpa using hlt
        exact .inl ⟨hstop, hlt⟩
    · have hlength : ss.length = limit - m.steps := by omega
      exact .inr ⟨rfl, (overdue_iff hex hlength).mpr hfinished, hlength⟩
  · intro h
    obtain ⟨hstop, hintime⟩ | ⟨rfl, hoverdue, hlength⟩ := h
    · cases fault with
      | none => exact ⟨hintime, .inl ⟨hstop, .inl rfl⟩⟩
      | some f =>
        have hlt : m.steps + ss.length < limit := hintime
        exact ⟨.inr (Nat.le_of_lt hlt), .inl ⟨hstop, .inr hlt⟩⟩
    · have hfinished := (overdue_iff hex hlength).mp hoverdue
      exact ⟨by omega, .inr ⟨rfl, hfinished, by omega⟩⟩

/-- At the limit a step that would fail is not tried. -/
example : ((({ Machine.load ⟨#['+', '<']⟩ (.blank 1 .strict) with limit := some 1 } : Machine).run
    9).ending = .failed (.stepLimit 1)) := by decide

/-- A run that has a limit, and all its input, returns. -/
theorem exists_returns_of_limit (hcancelled : m.device.wiring.cancelled = false)
    (hclosed : m.device.wiring.input.closed = true) (hlimit : m.limit = some limit) :
    ∃ fault ss m', m.Returns fault ss m' := by
  obtain ⟨ss, m', hex, hlength | ⟨hlt, fault, hstop⟩⟩ := exists_executes hclosed (limit - m.steps)
  · cases hfinished : m'.isFinished with
    | true =>
      have hintime : m.InTime limit ss.length none := by
        show ss.length = 0 ∨ m.steps + ss.length ≤ limit
        omega
      have hstop : m'.Stops none := hfinished
      have hret := (returns_iff_of_limit hcancelled hlimit).mpr ⟨hex, .inl ⟨hstop, hintime⟩⟩
      exact ⟨none, ss, m', hret⟩
    | false =>
      have hoverdue := (overdue_iff hex hlength).mpr hfinished
      have hret := (returns_iff_of_limit hcancelled hlimit).mpr ⟨hex, .inr ⟨rfl, hoverdue, hlength⟩⟩
      exact ⟨_, ss, m', hret⟩
  · have hintime : m.InTime limit ss.length fault := by
      cases fault with
      | none => exact .inr (by omega)
      | some f =>
        show m.steps + ss.length < limit
        omega
    have hret := (returns_iff_of_limit hcancelled hlimit).mpr ⟨hex, .inl ⟨hstop, hintime⟩⟩
    exact ⟨fault, ss, m', hret⟩

/-! ## what a run logs -/

/-- The records of a log that tell of a step. -/
def traces (log : Array Notice) : List Notice := log.toList.filter (·.level = .trace)

theorem traces_append (log : Array Notice) (ns : List Notice) :
    traces (log ++ ns.toArray) = traces log ++ ns.filter (·.level = .trace) := by
  simp [traces]

theorem traces_push (log : Array Notice) (s : Step) :
    traces (log.push (.stepTaken s)) = traces log ++ [.stepTaken s] := by
  simp [traces, Notice.level]

/-- What a run logs when a test stops it is no trace. -/
theorem traces_of_halt? {x : Ending × List Notice} (h : m.halt? = some x) (log : Array Notice) :
    traces (log ++ x.2.toArray) = traces log := by
  have hlast : x.2.filter (·.level = .trace) = [] := by
    unfold halt? at h
    repeat' split at h
    all_goals cases h
    all_goals rfl
  rw [traces_append, hlast, List.append_nil]

/-- A run logs one trace for each step that it hands out. -/
theorem traces_of_runFrom (m : Machine) (seen : Array Step) (log : Array Notice) (fuel : Nat) :
    ∃ ss : List Step, (m.runFrom seen log fuel).seen = seen ++ ss.toArray ∧
      traces (m.runFrom seen log fuel).log = traces log ++ ss.map .stepTaken := by
  induction fuel generalizing m seen log with
  | zero =>
    rw [runFrom]
    cases hhalt : m.halt? with
    | some x => exact ⟨[], by simp, by simpa using traces_of_halt? hhalt log⟩
    | none => exact ⟨[], by simp, by simp⟩
  | succ fuel ih =>
    rw [runFrom]
    cases hhalt : m.halt? with
    | some x => exact ⟨[], by simp, by simpa using traces_of_halt? hhalt log⟩
    | none =>
      obtain ⟨result, next⟩ := m.step
      cases result with
      | stepped s =>
        obtain ⟨ss, hseen, hlog⟩ := ih next (seen.push s) (log.push (.stepTaken s))
        refine ⟨s :: ss, ?_, ?_⟩
        · rw [← push_append_toArray]
          exact hseen
        · rw [traces_push, List.append_assoc] at hlog
          exact hlog
      | finished | waiting | failed => exact ⟨[], by simp, by simp⟩

/-- A run hands out what it executes, counts it, and logs a trace of it. -/
theorem accounts_of_run (m : Machine) (fuel : Nat) :
    let r := m.run fuel
    m.Executes r.seen.toList r.machine ∧ r.machine.steps = m.steps + r.seen.size ∧
      traces r.log = r.seen.toList.map .stepTaken := by
  intro r
  have hex := m.executes_run fuel
  obtain ⟨ss, hseen, hlog⟩ :=
    m.traces_of_runFrom #[] #[.runStarted m.program.size m.ip m.delay] fuel
  rw [← run] at hseen hlog
  have hstart : traces #[.runStarted m.program.size m.ip m.delay] = [] := rfl
  have hss : r.seen.toList = ss := by simp [r, hseen]
  rw [hstart, List.nil_append, ← hss] at hlog
  exact ⟨hex, hex.steps_eq, hlog⟩

end Machine

/-! ## when others may cancel -/

namespace Runner

/-- `r.Acts r'`: the next action of a run leads from `r` to `r'`. -/
inductive Acts : Runner → Runner → Prop where
  | ended {m : Machine} (h : m.isFinished = true) : Acts ⟨m, .testEnd⟩ ⟨m, .returned none⟩
  | goesOn {m : Machine} (h : m.isFinished = false) : Acts ⟨m, .testEnd⟩ ⟨m, .testCancel⟩
  | noticed {m : Machine} (h : m.device.wiring.cancelled = true) :
    Acts ⟨m, .testCancel⟩ ⟨m, .returned (some (.cancelled m.ip))⟩
  | unasked {m : Machine} : Acts ⟨m, .testCancel⟩ ⟨m, .testLimit⟩
  | limited {m : Machine} (limit : Nat) :
    Acts ⟨m, .testLimit⟩ ⟨m, .returned (some (.stepLimit limit))⟩
  | unlimited {m : Machine} : Acts ⟨m, .testLimit⟩ ⟨m, .execute⟩
  | finished {m : Machine} (h : m.isFinished = true) : Acts ⟨m, .execute⟩ ⟨m, .testEnd⟩
  | waits {m : Machine} : Acts ⟨m, .execute⟩ ⟨m, .execute⟩
  | failed {m : Machine} {fault : Fault} (h : m.step = (.failed fault, m)) :
    Acts ⟨m, .execute⟩ ⟨m, .returned (some fault)⟩
  | stepped {m m' : Machine} {s : Step} {phase : Phase} (h : m.step = (.stepped s, m'))
      (hphase : phase = .testEnd ∨ phase = .pause ∧ m'.delay ≠ 0) :
    Acts ⟨m, .execute⟩ ⟨m', phase⟩
  | woken {m : Machine} (h : m.device.wiring.cancelled = true) :
    Acts ⟨m, .pause⟩ ⟨m, .returned (some (.cancelled m.ip))⟩
  | rested {m : Machine} : Acts ⟨m, .pause⟩ ⟨m, .testEnd⟩
  | rests {m : Machine} {fault : Option Fault} :
    Acts ⟨m, .returned fault⟩ ⟨m, .returned fault⟩

theorem acts_advance (r : Runner) : r.Acts r.advance.2 := by
  obtain ⟨m, phase⟩ := r
  cases phase with
  | testEnd =>
    cases hf : m.isFinished with
    | true => rw [advance_testEnd_of_finished hf]; exact .ended hf
    | false => rw [advance_testEnd hf]; exact .goesOn hf
  | testCancel =>
    cases hc : m.device.wiring.cancelled with
    | true => rw [advance_testCancel_of_cancelled hc]; exact .noticed hc
    | false => rw [advance_testCancel hc]; exact .unasked
  | testLimit =>
    by_cases hl : ∃ limit, m.limit = some limit ∧ limit ≤ m.steps
    · obtain ⟨limit, hl, hle⟩ := hl
      rw [advance_testLimit_of_le hl hle]
      exact .limited limit
    · have hlt : ∀ limit, m.limit = some limit → m.steps < limit :=
        fun limit h => Nat.lt_of_not_le fun hle => hl ⟨limit, h, hle⟩
      rw [advance_testLimit hlt]
      exact .unlimited
  | execute =>
    obtain ⟨hf, h⟩ | ⟨c, a, j, d, _, _, h⟩ | ⟨c, fault, _, _, h⟩ | ⟨c, _, _, h⟩ := m.step_cases
    · rw [advance_execute_of_finished h]; exact .finished hf
    · rw [advance_execute_of_stepped h]
      by_cases hzero : (m.proceeded j d).delay = 0
      · rw [if_pos hzero]; exact .stepped h (.inl rfl)
      · rw [if_neg hzero]; exact .stepped h (.inr ⟨rfl, hzero⟩)
    · rw [advance_execute_of_failed h]; exact .failed h
    · rw [advance_execute_of_waiting h]; exact .waits
  | pause =>
    cases hc : m.device.wiring.cancelled with
    | true => rw [advance_pause_of_cancelled hc]; exact .woken hc
    | false => rw [advance_pause hc]; exact .rested
  | returned fault => exact .rests

/-- The phase of a run says where its machine stands. -/
structure Timely (r : Runner) : Prop where
  /-- From the look at the end of the program on, there is an instruction to execute. -/
  looked : r.phase = .testCancel ∨ r.phase = .testLimit ∨ r.phase = .execute →
    r.machine.isFinished = false
  /-- A delay follows an instruction. -/
  paused : r.phase = .pause → r.machine.delay ≠ 0 ∧ r.machine.ip ≤ r.machine.program.size

variable {r r' : Runner}

theorem timely_start (m : Machine) : (start m).Timely where
  looked := by simp [start]
  paused := nofun

theorem Timely.rewired (h : r.Timely) (w : Wiring) : (r.mapWiring fun _ => w).Timely :=
  ⟨h.looked, h.paused⟩

theorem Acts.timely (h : r.Acts r') (hr : r.Timely) : r'.Timely := by
  cases h with
  | goesOn hf => exact ⟨fun _ => hf, nofun⟩
  | unasked => exact ⟨fun _ => hr.looked (.inl rfl), nofun⟩
  | unlimited => exact ⟨fun _ => hr.looked (.inr (.inl rfl)), nofun⟩
  | waits => exact hr
  | stepped hstep hphase =>
    obtain rfl | ⟨rfl, hdelay⟩ := hphase
    · exact ⟨by simp, nofun⟩
    · obtain ⟨c, a, j, d, hc, hp, -, rfl⟩ := Machine.step_eq_stepped_iff.mp hstep
      exact ⟨by simp, fun _ => ⟨hdelay, hp.target_lt hc⟩⟩
  | _ => exact ⟨by simp, nofun⟩

/-- An action leaves the program and the delay of a run as they are. -/
theorem Acts.frame (h : r.Acts r') :
    r'.machine.program = r.machine.program ∧ r'.machine.delay = r.machine.delay := by
  cases h with
  | stepped hstep _ =>
    obtain ⟨hprogram, -, -, hdelay, -⟩ := Machine.frame_of_step hstep
    exact ⟨hprogram, hdelay⟩
  | _ => exact ⟨rfl, rfl⟩

/-- Only the end of a delay can return a fault although the program has ended. -/
theorem Acts.phase_eq_pause {fault : Fault} (h : r.Acts r') (hr : r.Timely)
    (hresult : r.result? = none) (hreturns : r'.result? = some (some fault))
    (hfinished : r'.machine.isFinished = true) :
    r.phase = .pause ∧ r.wiring.cancelled = true ∧ fault = .cancelled r.machine.ip ∧
      r'.machine = r.machine := by
  cases h with
  | woken hc =>
    cases hreturns
    exact ⟨rfl, hc, rfl, rfl⟩
  -- In these phases the run has just seen that the program goes on.
  | noticed => exact absurd hfinished (by simp [hr.looked])
  | limited => exact absurd hfinished (by simp [hr.looked])
  | failed => exact absurd hfinished (by simp [hr.looked])
  | stepped _ hphase => obtain rfl | ⟨rfl, -⟩ := hphase <;> cases hreturns
  | rests => cases hresult
  | ended | goesOn | unasked | unlimited | finished | waits | rested => cases hreturns

end Runner

namespace Bench

open Runner

variable {m : Machine} {r r' : Runner} {ds : List Deed} {result : Option Fault}

/-- While a run is in progress, it does its next action, or others change its connections. -/
theorem act_running_cases {d : Deed} (r : Runner) (hd : d ≠ .finish) :
    d = .advance ∨ ∃ w, (running r).act d = running (r.mapWiring fun _ => w) := by
  cases hadvance : d.isAdvance with
  | true => exact .inl (Deed.eq_advance hadvance)
  | false =>
    obtain ⟨-, hact⟩ := act_running (r := r) hadvance hd
    exact .inr hact

/-- What the actions of a run keep, and what does not speak of connections, holds
however long it goes on. -/
theorem preserved_of_play {P : Runner → Prop} (hacts : ∀ r r', r.Acts r' → P r → P r')
    (hwires : ∀ r w, P r → P (r.mapWiring fun _ => w)) (hP : P r) (hds : .finish ∉ ds)
    (hplay : (running r).play ds = running r') : P r' := by
  induction ds generalizing r with
  | nil =>
    cases hplay
    exact hP
  | cons d ds ih =>
    obtain ⟨hd, hrest⟩ := List.ne_and_not_mem_of_not_mem_cons hds
    rw [play_cons] at hplay
    obtain rfl | ⟨w, hact⟩ := act_running_cases r (Ne.symm hd)
    · exact ih (hacts r _ r.acts_advance hP) hrest hplay
    · rw [hact] at hplay
      exact ih (hwires r w hP) hrest hplay

theorem timely_of_play (hds : .finish ∉ ds) (hplay : (running (.start m)).play ds = running r) :
    r.Timely ∧ r.machine.program = m.program ∧ r.machine.delay = m.delay := by
  refine preserved_of_play
    (P := fun r => r.Timely ∧ r.machine.program = m.program ∧ r.machine.delay = m.delay)
    (fun r r' hacts hr => ?_) (fun r w hr => ?_) ⟨timely_start m, rfl, rfl⟩ hds hplay
  · obtain ⟨htimely, hprogram, hdelay⟩ := hr
    obtain ⟨hprogram', hdelay'⟩ := hacts.frame
    exact ⟨hacts.timely htimely, hprogram'.trans hprogram, hdelay'.trans hdelay⟩
  · obtain ⟨htimely, hprogram, hdelay⟩ := hr
    exact ⟨htimely.rewired w, hprogram, hdelay⟩

/-- After it has returned, a run stays as it is. -/
theorem returned_of_play (hr : r.result? = some result) (hds : .finish ∉ ds)
    (hplay : (running r).play ds = running r') :
    r'.result? = some result ∧ r'.machine.unwired = r.machine.unwired := by
  refine preserved_of_play
    (P := fun x => x.result? = some result ∧ x.machine.unwired = r.machine.unwired)
    (fun x y hacts hx => ?_) (fun x w hx => hx) ⟨hr, rfl⟩ hds hplay
  cases hacts with
  | rests => exact hx
  | _ => cases hx.1

/-- A run that has returned has done so with some action of its own. -/
theorem exists_last_action (hresult : r.result? = none) (hds : .finish ∉ ds)
    (hplay : (running r).play ds = running r') (hreturns : r'.result? = some result) :
    ∃ ds₁ ds₂ r₁ r₂, ds = ds₁ ++ .advance :: ds₂ ∧ (running r).play ds₁ = running r₁ ∧
      r₁.result? = none ∧ r₁.Acts r₂ ∧ r₂.result? = some result ∧
      r'.machine.unwired = r₂.machine.unwired := by
  induction ds generalizing r with
  | nil =>
    cases hplay
    cases hresult.symm.trans hreturns
  | cons d ds ih =>
    obtain ⟨hd, hrest⟩ := List.ne_and_not_mem_of_not_mem_cons hds
    rw [play_cons] at hplay
    obtain rfl | ⟨w, hact⟩ := act_running_cases r (Ne.symm hd)
    · have hnext : (running r.advance.2).play ds = running r' := hplay
      cases hresult' : r.advance.2.result? with
      | none =>
        obtain ⟨ds₁, ds₂, r₁, r₂, rfl, hplay₁, hlast⟩ := ih hresult' hrest hnext
        exact ⟨.advance :: ds₁, ds₂, r₁, r₂, rfl, hplay₁, hlast⟩
      | some result' =>
        obtain ⟨heq, hunwired⟩ := returned_of_play hresult' hrest hnext
        obtain rfl : result' = result := Option.some.inj (heq.symm.trans hreturns)
        exact ⟨[], ds, r, _, rfl, rfl, hresult, r.acts_advance, hresult', hunwired⟩
    · rw [hact] at hplay
      obtain ⟨ds₁, ds₂, r₁, r₂, rfl, hplay₁, hlast⟩ :=
        ih (r := r.mapWiring fun _ => w) hresult hrest hplay
      refine ⟨d :: ds₁, ds₂, r₁, r₂, rfl, ?_, hlast⟩
      rw [play_cons, hact, hplay₁]

/-- A run can return a fault whose program has ended, but only a cancellation, and
only out of the delay that follows the last step. -/
theorem cancelled_of_finished {fault : Fault} (hds : .finish ∉ ds)
    (hplay : (running (.start m)).play ds = running r) (hresult : r.result? = some (some fault))
    (hfinished : r.machine.isFinished = true) :
    m.delay ≠ 0 ∧ fault = .cancelled m.program.size ∧ r.machine.ip = m.program.size ∧
      ∃ ds₁ ds₂ r₁, ds = ds₁ ++ .advance :: ds₂ ∧ (running (.start m)).play ds₁ = running r₁ ∧
        r₁.isPausing = true ∧ r₁.machine.isFinished = true ∧ r₁.wiring.cancelled = true := by
  obtain ⟨ds₁, ds₂, r₁, r₂, rfl, hplay₁, hgoing, hacts, hreturns, hunwired⟩ :=
    exists_last_action (r := .start m) rfl hds hplay hresult
  have hds₁ : .finish ∉ ds₁ := fun h => hds (List.mem_append_left _ h)
  obtain ⟨htimely, hprogram, hdelay⟩ := timely_of_play hds₁ hplay₁
  have hfinished₂ : r₂.machine.isFinished = true := by
    rw [← Machine.isFinished_unwired, ← hunwired, Machine.isFinished_unwired, hfinished]
  obtain ⟨hphase, hcancelled, rfl, hmachine⟩ :=
    hacts.phase_eq_pause htimely hgoing hreturns hfinished₂
  obtain ⟨hnonzero, hle⟩ := htimely.paused hphase
  have hfinished₁ : r₁.machine.isFinished = true := hmachine ▸ hfinished₂
  have hip₁ : r₁.machine.ip = m.program.size := by
    have hge : r₁.machine.program.size ≤ r₁.machine.ip := by
      simpa [Machine.isFinished] using hfinished₁
    rw [← hprogram]
    omega
  have hip : r.machine.ip = r₁.machine.ip := by
    rw [← Machine.ip_unwired, hunwired, Machine.ip_unwired, hmachine]
  have hpausing : r₁.isPausing = true := by simp [isPausing, hphase]
  exact ⟨hdelay ▸ hnonzero, by rw [hip₁], hip.trans hip₁,
    ds₁, ds₂, r₁, rfl, hplay₁, hpausing, hfinished₁, hcancelled⟩

end Bench

/-! ## one run -/

namespace Machine

open Bench

/-- **The outcome of a run.**  On its own and with all its input, a run with a limit
returns, and what it returns is what stepping by hand comes to, if that is in time,
and otherwise the limit; a run without a limit returns exactly what stepping by hand
comes to.  However far a run has come, it has handed out what it has executed,
counted it, and logged one trace for each step.  And if others may cancel, it
returns a fault at the end of its program only out of the delay after the last step. -/
theorem outcome_of_run (m : Machine) :
    (m.device.wiring.cancelled = false → m.device.wiring.input.closed = true →
      (∀ limit, m.limit = some limit →
        (∃ fault ss m', m.Returns fault ss m') ∧
          ∀ fault ss m', m.Returns fault ss m' ↔ m.Executes ss m' ∧
            (m'.Stops fault ∧ m.InTime limit ss.length fault ∨
              fault = some (.stepLimit limit) ∧ m.Overdue limit ∧
                ss.length = limit - m.steps)) ∧
        (m.limit = none →
          ∀ fault ss m', m.Returns fault ss m' ↔ m.Executes ss m' ∧ m'.Stops fault)) ∧
      (∀ fuel, let r := m.run fuel
        m.Executes r.seen.toList r.machine ∧ r.machine.steps = m.steps + r.seen.size ∧
          traces r.log = r.seen.toList.map .stepTaken) ∧
      ∀ ds r fault, .finish ∉ ds → (running (.start m)).play ds = running r →
        r.result? = some (some fault) → r.machine.isFinished = true →
        m.delay ≠ 0 ∧ fault = .cancelled m.program.size ∧ r.machine.ip = m.program.size ∧
          ∃ ds₁ ds₂ r₁, ds = ds₁ ++ .advance :: ds₂ ∧
            (running (.start m)).play ds₁ = running r₁ ∧ r₁.isPausing = true ∧
            r₁.machine.isFinished = true ∧ r₁.wiring.cancelled = true := by
  refine ⟨fun hcancelled hclosed => ⟨fun limit hlimit => ⟨?_, fun fault ss m' => ?_⟩,
    fun hlimit fault ss m' => ?_⟩, m.accounts_of_run,
    fun ds r fault hds hplay hresult hfinished => ?_⟩
  · exact exists_returns_of_limit hcancelled hclosed hlimit
  · exact returns_iff_of_limit hcancelled hlimit
  · have hfree : m.Free := ⟨hlimit, hcancelled⟩
    exact returns_iff hfree
  · exact cancelled_of_finished hds hplay hresult hfinished

/-- A program that ends with the last step it may take; and, when the run is
cancelled in the delay after that step, a fault although the program has ended. -/
theorem ended_at_the_limit_or_cancelled_behind_the_end :
    let m : Machine :=
      { Machine.load ⟨#['+']⟩ ⟨.blank 1 .strict, Wiring.fresh.closeInput⟩ with
        delay := 5, limit := some 1 }
    let s : Step := ⟨0, '+', 0, 0, .incremented 0 1⟩
    let ds : List Deed :=
      [.advance, .advance, .advance, .advance, .handle .cancel, .advance]
    m.Returns none [s] m.step.2 ∧
      ∃ r, (running (.start m)).play ds = running r ∧ r.result? = some (some (.cancelled 1)) ∧
        r.machine.ip = 1 ∧ ∃ ds₁ ds₂, ds = ds₁ ++ .advance :: ds₂ := by
  intro m s ds
  obtain ⟨hreturns, -, hcancel⟩ := outcome_of_run m
  obtain ⟨hlimit, -⟩ := hreturns rfl rfl
  have hex : m.Executes [s] m.step.2 := .cons rfl (.nil _)
  have hstop : m.step.2.Stops none := rfl
  have hintime : m.InTime 1 [s].length none := .inr (Nat.le_refl 1)
  have hds : .finish ∉ ds := by simp [ds]
  obtain ⟨r, hplay, hresult, hfinished⟩ : ∃ r, (running (.start m)).play ds = running r ∧
      r.result? = some (some (.cancelled 1)) ∧ r.machine.isFinished = true :=
    ⟨_, rfl, by decide +kernel, by decide +kernel⟩
  obtain ⟨-, -, hip, ds₁, ds₂, -, hsplit, -⟩ := hcancel ds r _ hds hplay hresult hfinished
  exact ⟨((hlimit 1 rfl).2 none [s] _).mpr ⟨hex, .inl ⟨hstop, hintime⟩⟩,
    r, hplay, hresult, hip, ds₁, ds₂, hsplit⟩

end Machine

end Brainfuck
