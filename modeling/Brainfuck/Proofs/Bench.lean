import Brainfuck.Session
import Brainfuck.Proofs.Execution

/-!
# Brainfuck.Proofs.Bench

Everything that can happen to a tape in its life, in atomic deeds.

A `Bench` holds a session, or a run that is in progress on the machine of one.
While a run is in progress its owner can do nothing but wait for it, but others
still hold handles and change feeds.  A deed that does not apply to what is on
the bench, or would have to wait, changes nothing; so any list of deeds, in any
order, is a history, and every history of a tape is such a list.

`Bench.play` plays a history, and `Bench.gather` collects what its deeds gave
out, each seen from the bench it was done on.

* `act_handle` — what a handle does depends on the wiring alone, and changes
  nothing else;
* `step_of_record?`, `session_of_idle` — a deed of the machine executes the step
  whose record it gives out, or leaves the machine as it is.
-/

namespace Brainfuck

/-- A session, or a run in progress on the machine of one. -/
inductive Bench where
  | resting (session : Session)
  | running (runner : Runner)

/-- The atomic deeds of those who have a handle or a change feed, of the owner, and of a run. -/
inductive Deed where
  | handle (op : HandleOp)
  | feed (id : Nat) (op : FeedOp)
  | view (op : ViewOp)
  | hand (op : TapeOp)
  | step
  | setLimit (limit : Option Nat)
  | setDelay (ms : Nat)
  | setMode (mode : BracketMode)
  | start
  /-- The run does its next atomic action. -/
  | advance
  /-- The owner goes on after the run has returned. -/
  | finish
  | release
  | drop

namespace Bench

/-- What a handle on the bench is a handle of. -/
def session : Bench → Session
  | .resting s => s
  | .running r => .machine r.machine

/-- The connections, which are always there. -/
def wiring (b : Bench) : Wiring := b.session.wiring

/-- Changes the connections. -/
def mapWiring (b : Bench) (f : Wiring → Wiring) : Bench :=
  match b with
  | .resting s => .resting (s.mapWiring f)
  | .running r => .running (r.mapWiring f)

/-- Does a deed. -/
def act : Bench → Deed → Bench
  | b, .handle op => b.mapWiring fun _ => (b.session.handle op).session.wiring
  | b, .feed id op =>
    match b.session.feed? id op with
    | some o => b.mapWiring fun _ => o.session.wiring
    | none => b
  | .resting s, .view op =>
    match s.device? with
    | some d => .resting (s.view d op).session
    | none => .resting s
  | .resting (.tape d), .hand .read => .resting (.tape d.read.2)
  | .resting (.tape d), .hand op => .resting (Session.byHand d op).session
  | .resting (.machine m), .step => .resting (.machine m.step.2)
  | .resting (.machine m), .setLimit limit => .resting (.machine { m with limit := limit })
  | .resting (.machine m), .setDelay ms => .resting (.machine { m with delay := ms })
  | .resting (.machine m), .setMode mode => .resting (.machine { m with mode := mode })
  | .resting (.machine m), .start => .running (.start m)
  | .running r, .advance => .running r.advance.2
  | .running r, .finish =>
    if r.result?.isSome then .resting (.machine r.machine) else .running r
  | .resting (.machine m), .release => .resting (.tape m.device)
  | .resting s, .drop => .resting (.dropped s.wiring)
  | b, _ => b

/-- The record of the instruction that a deed executes on a machine. -/
def record? : Bench → Deed → Option Step
  | .resting (.machine m), .step =>
    match m.step.1 with
    | .stepped s => some s
    | _ => none
  | .running r, .advance =>
    match r.advance.1 with
    | .moved (some (.stepTaken s)) => some s
    | _ => none
  | _, _ => none

/-- Plays a history. -/
def play (b : Bench) (ds : List Deed) : Bench := ds.foldl act b

/-- Collects what the deeds of a history gave out. -/
def gather {α : Type} (f : Bench → Deed → List α) : Bench → List Deed → List α
  | _, [] => []
  | b, d :: ds => f b d ++ gather f (b.act d) ds

/-- The records of all instructions executed in a history. -/
def records (b : Bench) (ds : List Deed) : List Step := gather (fun b d => (b.record? d).toList) b ds

theorem play_cons (b : Bench) (d : Deed) (ds : List Deed) :
    b.play (d :: ds) = (b.act d).play ds := rfl

theorem gather_cons {α : Type} (f : Bench → Deed → List α) (b : Bench) (d : Deed)
    (ds : List Deed) : gather f b (d :: ds) = f b d ++ gather f (b.act d) ds := rfl

theorem records_cons (b : Bench) (d : Deed) (ds : List Deed) :
    b.records (d :: ds) = (b.record? d).toList ++ (b.act d).records ds := rfl

end Bench

/-! ## what a handle does depends on the wiring alone -/

@[simp] theorem Session.wiring_mapWiring (s : Session) (f : Wiring → Wiring) :
    (s.mapWiring f).wiring = f s.wiring := by
  cases s <;> rfl

namespace Bench

@[simp] theorem wiring_mapWiring (b : Bench) (f : Wiring → Wiring) :
    (b.mapWiring f).wiring = f b.wiring := by
  cases b with
  | resting s => cases s <;> rfl
  | running r => rfl

end Bench

/-- The wiring after an operation through a handle. -/
def Wiring.handled (w : Wiring) (op : HandleOp) : Wiring :=
  ((Session.dropped w).handle op).session.wiring

namespace Wiring

/-- Draining takes the byte of output that has waited longest, if there is one. -/
theorem handled_drain (w : Wiring) :
    w.handled .drain =
      match w.output.take? with
      | some (_, q) => { w with output := q }
      | none => w := by
  rw [handled, Session.handle, Session.wiring, drain]
  cases w.output.take? with
  | some x => rfl
  | none => cases w.output.closed <;> rfl

/-- Draining takes nothing out of the record of the output, and leaves the rest as it is. -/
theorem exists_handled_drain (w : Wiring) :
    ∃ q, w.handled .drain = { w with output := q } ∧ q.items = w.output.items := by
  rw [handled_drain]
  split
  · next q hq => exact ⟨q, rfl, (Pipe.items_closed_of_take? hq).1⟩
  · exact ⟨w.output, rfl, rfl⟩

theorem handled_drainNow (w : Wiring) : w.handled .drainNow = w.handled .drain := by
  rw [handled, handled, Session.handle, Session.handle]
  cases (Session.dropped w).wiring.drain <;> rfl

end Wiring

namespace Session

theorem wiring_of_device? {s : Session} {dev : Device} (h : s.device? = some dev) :
    s.wiring = dev.wiring := by
  cases s <;> cases h <;> rfl

/-- Whoever looks changes at most who listens. -/
theorem exists_session_view (s : Session) (dev : Device) (op : ViewOp) :
    ∃ a, (s.view dev op).session = s.mapWiring fun w => { w with audience := a } := by
  cases op with
  | subscribe => exact ⟨dev.wiring.audience.subscribe.2, rfl⟩
  | valueAt index =>
    rw [view]
    cases dev.valueAt index <;> exact ⟨s.wiring.audience, by cases s <;> rfl⟩
  | value | capacity | policy | inspect => exact ⟨s.wiring.audience, by cases s <;> rfl⟩

theorem wiring_handle (s : Session) (op : HandleOp) :
    (s.handle op).session.wiring = s.wiring.handled op := by
  cases op with
  | drain | drainNow =>
    have hw : (Session.dropped s.wiring).wiring = s.wiring := rfl
    rw [Wiring.handled, handle, handle, hw]
    cases s.wiring.drain <;> cases s <;> rfl
  | _ => cases s <;> rfl

end Session

namespace Bench

theorem act_handle (b : Bench) (op : HandleOp) :
    b.act (.handle op) = b.mapWiring (·.handled op) := by
  have h : b.act (.handle op) = b.mapWiring fun _ => b.wiring.handled op := by
    rw [act, Session.wiring_handle]
    rfl
  rw [h]
  cases b with
  | resting s => cases s <;> rfl
  | running r => rfl

theorem session_mapWiring (b : Bench) (f : Wiring → Wiring) :
    (b.mapWiring f).session = b.session.mapWiring f := by
  cases b <;> rfl

end Bench

/-! ## the atomic actions of a run -/

namespace Runner

variable {m : Machine}

theorem phase_of_result? {r : Runner} {fault : Option Fault} (h : r.result? = some fault) :
    r.phase = .returned fault := by
  unfold result? at h
  split at h
  · next f hf => rw [hf, Option.some.inj h]
  · cases h

theorem advance_testEnd_of_finished (h : m.isFinished = true) :
    advance ⟨m, .testEnd⟩ = (.moved (some (.runFinished m.steps)), ⟨m, .returned none⟩) := by
  simp only [advance, h, if_true]

theorem advance_testEnd (h : m.isFinished = false) :
    advance ⟨m, .testEnd⟩ = (.moved none, ⟨m, .testCancel⟩) := by
  simp only [advance, h, Bool.false_eq_true, if_false]

theorem advance_testCancel_of_cancelled (h : m.device.wiring.cancelled = true) :
    advance ⟨m, .testCancel⟩ =
      (.moved (some (.runCancelled m.ip)), ⟨m, .returned (some (.cancelled m.ip))⟩) := by
  simp only [advance, wiring, h, if_true]

theorem advance_testCancel (h : m.device.wiring.cancelled = false) :
    advance ⟨m, .testCancel⟩ = (.moved none, ⟨m, .testLimit⟩) := by
  simp only [advance, wiring, h, Bool.false_eq_true, if_false]

theorem advance_testLimit_of_le {limit : Nat} (h : m.limit = some limit) (hle : limit ≤ m.steps) :
    advance ⟨m, .testLimit⟩ = (.moved none, ⟨m, .returned (some (.stepLimit limit))⟩) := by
  simp only [advance, h, hle, if_true]

theorem advance_testLimit (h : ∀ limit, m.limit = some limit → m.steps < limit) :
    advance ⟨m, .testLimit⟩ = (.moved none, ⟨m, .execute⟩) := by
  unfold advance
  cases hl : m.limit with
  | none => rfl
  | some limit => exact if_neg (Nat.not_le_of_lt (h limit hl))

theorem advance_pause_of_cancelled (h : m.device.wiring.cancelled = true) :
    advance ⟨m, .pause⟩ = (.moved none, ⟨m, .returned (some (.cancelled m.ip))⟩) := by
  simp only [advance, wiring, h, if_true]

theorem advance_pause (h : m.device.wiring.cancelled = false) :
    advance ⟨m, .pause⟩ = (.moved none, ⟨m, .testEnd⟩) := by
  simp only [advance, wiring, h, Bool.false_eq_true, if_false]

theorem advance_execute_of_stepped {m' : Machine} {s : Step} (h : m.step = (.stepped s, m')) :
    advance ⟨m, .execute⟩ =
      (.moved (some (.stepTaken s)), ⟨m', if m'.delay = 0 then .testEnd else .pause⟩) := by
  simp only [advance, h]

theorem advance_execute_of_failed {m' : Machine} {fault : Fault}
    (h : m.step = (.failed fault, m')) :
    advance ⟨m, .execute⟩ = (.moved none, ⟨m', .returned (some fault)⟩) := by
  simp only [advance, h]

theorem advance_execute_of_waiting {m' : Machine} (h : m.step = (.waiting, m')) :
    advance ⟨m, .execute⟩ = (.blocked, ⟨m', .execute⟩) := by
  simp only [advance, h]

theorem advance_execute_of_finished {m' : Machine} (h : m.step = (.finished, m')) :
    advance ⟨m, .execute⟩ = (.moved none, ⟨m', .testEnd⟩) := by
  simp only [advance, h]

/-- An atomic action of a run either executes an instruction and gives out its
record, or leaves the machine as it is. -/
theorem advance_cases (r : Runner) :
    (∃ s m', r.machine.step = (.stepped s, m') ∧
      r.advance.1 = .moved (some (.stepTaken s)) ∧ r.advance.2.machine = m') ∨
    (∀ s, r.advance.1 ≠ .moved (some (.stepTaken s))) ∧ r.advance.2.machine = r.machine := by
  obtain ⟨m, phase⟩ := r
  cases phase with
  | testEnd =>
    refine .inr ?_
    cases h : m.isFinished with
    | true => simp [advance_testEnd_of_finished h]
    | false => simp [advance_testEnd h]
  | testCancel =>
    refine .inr ?_
    cases h : m.device.wiring.cancelled with
    | true => simp [advance_testCancel_of_cancelled h]
    | false => simp [advance_testCancel h]
  | testLimit =>
    refine .inr ?_
    by_cases h : ∃ limit, m.limit = some limit ∧ limit ≤ m.steps
    · obtain ⟨limit, hl, hle⟩ := h
      simp [advance_testLimit_of_le hl hle]
    · have hlt : ∀ limit, m.limit = some limit → m.steps < limit :=
        fun limit hl => Nat.lt_of_not_le fun hle => h ⟨limit, hl, hle⟩
      simp [advance_testLimit hlt]
  | execute =>
    obtain ⟨_, h⟩ | ⟨c, a, j, d, _, _, h⟩ | ⟨c, fault, _, _, h⟩ | ⟨c, _, _, h⟩ := m.step_cases
    · exact .inr (by simp [advance_execute_of_finished h])
    · exact .inl ⟨_, _, h, by simp [advance_execute_of_stepped h]⟩
    · exact .inr (by simp [advance_execute_of_failed h])
    · exact .inr (by simp [advance_execute_of_waiting h])
  | pause =>
    refine .inr ?_
    cases h : m.device.wiring.cancelled with
    | true => simp [advance_pause_of_cancelled h]
    | false => simp [advance_pause h]
  | returned fault => exact .inr ⟨nofun, rfl⟩

end Runner

namespace Bench

/-- A deed that gives out a record executes the step of that record. -/
theorem step_of_record? {b : Bench} {d : Deed} {s : Step} (h : b.record? d = some s) :
    ∃ m m', b.session = .machine m ∧ m.step = (.stepped s, m') ∧
      (b.act d).session = .machine m' := by
  unfold record? at h
  split at h
  · next m =>
    split at h
    · next s' hs =>
      obtain rfl := Option.some.inj h
      exact ⟨m, m.step.2, rfl, Prod.ext hs rfl, rfl⟩
    · cases h
  · next r =>
    split at h
    · next s' hs =>
      obtain rfl := Option.some.inj h
      obtain ⟨s₁, m', hstep, hadv, hm'⟩ | ⟨hno, -⟩ := r.advance_cases
      · rw [hadv] at hs
        cases hs
        exact ⟨r.machine, m', rfl, hstep, congrArg Session.machine hm'⟩
      · exact absurd hs (hno _)
    · cases h
  · cases h

/-- A step that is not executed changes nothing but the phase of a run. -/
theorem session_of_idle {b : Bench} {d : Deed} (hd : d = .step ∨ d = .advance)
    (h : b.record? d = none) : (b.act d).session = b.session := by
  obtain rfl | rfl := hd
  · match b with
    | .resting (.tape _) | .resting (.dropped _) | .running _ => rfl
    | .resting (.machine m) =>
      obtain ⟨_, hs⟩ | ⟨_, _, _, _, _, _, hs⟩ | ⟨_, _, _, _, hs⟩ | ⟨_, _, _, hs⟩ := m.step_cases
      · simp only [act, hs, session]
      · simp [record?, hs] at h
      · simp only [act, hs, session]
      · simp only [act, hs, session]
  · match b with
    | .resting (.tape _) | .resting (.dropped _) | .resting (.machine _) => rfl
    | .running r =>
      obtain ⟨s, _, _, hadv, _⟩ | ⟨_, hm⟩ := r.advance_cases
      · simp [record?, hadv] at h
      · exact congrArg Session.machine hm

end Bench

end Brainfuck
