import Brainfuck.Proofs.Bench
import Brainfuck.Proofs.Refit

/-!
# Brainfuck.Proofs.Timing

When input comes and when output is taken makes no difference to a run.

While a machine runs, a feeder supplies bytes in chunks of any size and then
announces the end, and others take output, all at any moment.  At every moment
the machine can be compared with its settled form (`Machine.settled`): the same
machine, as if everything the feeder has still to do were done, and no output
had ever been taken.

* The feeder and the drainers do not change the settled form at all.
* The machine and its settled form take the same steps.

So the settled form of the last moment is where the settled form of the first
one leads on its own (`follows_of_interleaving`), and the run returns what it
returns when all input is there from the beginning
(`returns_of_interleaving`).  A machine that waits has no step; this is where
the end of the input must not be announced before the last byte.
-/

namespace Brainfuck

/-! ## interleavings -/

/-- The operations of those who take output. -/
def HandleOp.isDrain : HandleOp → Bool
  | .hasOutput | .drain | .drainNow | .drainAll | .emitted => true
  | _ => false

/-- `Interleaving script ds`: in the history `ds` one run advances, a feeder
supplies the bytes of `script` in order and announces the end of the input only
after the last, and others take output, in any order and up to any point. -/
inductive Interleaving : List UInt8 → List Deed → Prop where
  | nil {script : List UInt8} : Interleaving script []
  | advance {script : List UInt8} {ds : List Deed} (h : Interleaving script ds) :
    Interleaving script (.advance :: ds)
  | supply {chunk script : List UInt8} {ds : List Deed} (h : Interleaving script ds) :
    Interleaving (chunk ++ script) (.handle (.supply chunk) :: ds)
  | closeInput {ds : List Deed} (h : Interleaving [] ds) :
    Interleaving [] (.handle .closeInput :: ds)
  | drain {script : List UInt8} {op : HandleOp} {ds : List Deed} (hop : op.isDrain = true)
      (h : Interleaving script ds) :
    Interleaving script (.handle op :: ds)

/-! ## the settled wiring -/

/-- The pipe as if nothing had ever been taken out, and its end not announced. -/
def Pipe.untouched {α : Type} (p : Pipe α) : Pipe α := ⟨p.items, 0, false, Nat.zero_le _⟩

/-- The wiring as if the bytes of `script` had been supplied, the end of the
input announced, and no output taken. -/
def Wiring.settle (script : List UInt8) (w : Wiring) : Wiring :=
  { w with input := (w.input.append script).close, output := w.output.untouched }

namespace Wiring

theorem settle_supply (script chunk : List UInt8) (w : Wiring) :
    settle script (w.supply chunk) = settle (chunk ++ script) w := by
  simp [settle, supply, Pipe.append, Pipe.close, List.append_toArray, Array.append_assoc]

theorem settle_closeInput (script : List UInt8) (w : Wiring) :
    settle script w.closeInput = settle script w := rfl

/-- Taking output leaves the input as it is, and takes nothing out of the record. -/
theorem handled_of_isDrain {op : HandleOp} (hop : op.isDrain = true) (w : Wiring) :
    (w.handled op).input = w.input ∧ (w.handled op).output.untouched = w.output.untouched ∧
      (w.handled op).cancelled = w.cancelled ∧ (w.handled op).audience = w.audience := by
  have hdrain : (w.handled .drain).input = w.input ∧
      (w.handled .drain).output.untouched = w.output.untouched ∧
      (w.handled .drain).cancelled = w.cancelled ∧ (w.handled .drain).audience = w.audience := by
    obtain ⟨q, hq, hitems⟩ := w.exists_handled_drain
    rw [hq]
    exact ⟨rfl, by simp only [Pipe.untouched, hitems], rfl, rfl⟩
  cases op with
  | drain => exact hdrain
  | drainNow => rw [handled_drainNow]; exact hdrain
  | hasOutput | emitted | drainAll => exact ⟨rfl, rfl, rfl, rfl⟩
  | supply | closeInput | closeOutput | cancel | reset | isCancelled | pause => cases hop

theorem settle_handled {op : HandleOp} (hop : op.isDrain = true) (script : List UInt8)
    (w : Wiring) : settle script (w.handled op) = settle script w := by
  obtain ⟨hi, ho, hc, ha⟩ := handled_of_isDrain hop w
  rw [settle, hi, ho, hc, ha]
  rfl

/-- A reader notices nothing, unless it would have been told of the end while
bytes were still to come. -/
theorem respects_settle {script : List UInt8} {w : Wiring}
    (h : w.input.closed = true → script = []) : Respects (settle script) w where
  emit _ := rfl
  post _ _ := rfl
  byte b rest hb := by
    obtain ⟨hc, q, hq, rfl⟩ := (intake_eq_byte_iff _ _ _).mp hb
    exact (intake_eq_byte_iff _ _ _).mpr
      ⟨hc, _, Pipe.take?_close (Pipe.take?_append hq script), rfl⟩
  ended he := by
    obtain ⟨hc, hempty, hclosed⟩ := (intake_eq_ended_iff _).mp he
    refine (intake_eq_ended_iff _).mpr ⟨hc, ?_, rfl⟩
    rw [settle, Pipe.pending_close, Pipe.pending_append, hempty, h hclosed]
    rfl

end Wiring

namespace Machine

/-- The machine as if the bytes of `script` had been supplied, the end of the
input announced, no output taken, and without delay or limit. -/
def settled (script : List UInt8) (m : Machine) : Machine := m.refit (Wiring.settle script) none 0

end Machine

/-! ## one deed -/

/-- What holds of a run while its feeder has still to supply `script`. -/
structure Attuned (script : List UInt8) (r : Runner) : Prop where
  free : r.machine.Free
  /-- The end of the input is announced only after the last byte. -/
  closed : r.machine.device.wiring.input.closed = true → script = []
  /-- A run that has returned stands where its settled form stops. -/
  stops : ∀ fault, r.phase = .returned fault → (r.machine.settled script).Stops fault

theorem attuned_start {script : List UInt8} {m : Machine} (hm : m.Free)
    (hclosed : m.device.wiring.input.closed = true → script = []) : Attuned script (.start m) :=
  ⟨hm, hclosed, fun _ h => nomatch h⟩

/-- The deeds `ds` lead to a run whose feeder has still to supply `script'`, and
whose settled form the former settled form reaches with the steps they give out. -/
def Follows (script : List UInt8) (r : Runner) (ds : List Deed) (script' : List UInt8) : Prop :=
  ∃ r', (Bench.running r).play ds = .running r' ∧ Attuned script' r' ∧
    (r.machine.settled script).Executes ((Bench.running r).records ds)
      (r'.machine.settled script')

/-- It is enough to look at what one deed gives out. -/
theorem follows_of_act {script script' : List UInt8} {r r' : Runner} {d : Deed}
    (hact : (Bench.running r).act d = .running r') (hr' : Attuned script' r')
    (hex : (r.machine.settled script).Executes ((Bench.running r).record? d).toList
      (r'.machine.settled script')) : Follows script r [d] script' := by
  refine ⟨r', hact, hr', ?_⟩
  rw [Bench.records_cons]
  exact hex.append (.nil _)

/-- One deed leads to a run that is attuned again, and the others follow from there. -/
theorem Follows.cons {script script₁ : List UInt8} {r : Runner} {d : Deed} {ds : List Deed}
    (hd : Follows script r [d] script₁)
    (hrest : ∀ {r₁ : Runner}, Attuned script₁ r₁ → ∃ script', Follows script₁ r₁ ds script') :
    ∃ script', Follows script r (d :: ds) script' := by
  obtain ⟨r₁, hact, hr₁, hex⟩ := hd
  obtain ⟨script', r', hplay, hr', hex'⟩ := hrest hr₁
  have hact : (Bench.running r).act d = .running r₁ := hact
  refine ⟨script', r', by rw [Bench.play_cons, hact, hplay], hr', ?_⟩
  rw [Bench.records_cons, hact]
  rw [Bench.records_cons] at hex
  exact (List.append_nil _ ▸ hex).append hex'

/-- An action that only moves on to another phase. -/
theorem follows_of_phase {script : List UInt8} {r : Runner} {phase : Phase} {n : Option Notice}
    (hr : Attuned script r) (hadv : r.advance = (.moved n, { r with phase := phase }))
    (hn : ∀ s, n ≠ some (.stepTaken s))
    (hphase : ∀ fault, phase = .returned fault → (r.machine.settled script).Stops fault) :
    Follows script r [.advance] script := by
  have hrecord : (Bench.running r).record? .advance = none := by
    rw [Bench.record?, hadv]
    split
    · next s h => exact absurd (Progress.moved.inj h) (hn s)
    · rfl
  have hact : (Bench.running r).act .advance = .running { r with phase := phase } := by
    rw [Bench.act, hadv]
  refine follows_of_act hact ⟨hr.free, hr.closed, hphase⟩ ?_
  rw [hrecord]
  exact .nil _

/-- An action that changes nothing. -/
theorem follows_of_idle {script : List UInt8} {r : Runner} {p : Progress}
    (hr : Attuned script r) (hadv : r.advance = (p, r)) (hp : ∀ n, p ≠ .moved n) :
    Follows script r [.advance] script := by
  have hrecord : (Bench.running r).record? .advance = none := by
    rw [Bench.record?, hadv]
    cases p with
    | moved n => exact absurd rfl (hp n)
    | _ => rfl
  refine follows_of_act (by rw [Bench.act, hadv]) hr ?_
  rw [hrecord]
  exact .nil _

/-- The run executes an instruction, or finds that it cannot. -/
theorem follows_execute {script : List UInt8} {m : Machine} (hr : Attuned script ⟨m, .execute⟩) :
    Follows script ⟨m, .execute⟩ [.advance] script := by
  obtain ⟨hf, h⟩ | ⟨c, a, j, d, _, _, h⟩ | ⟨c, fault, _, _, h⟩ | ⟨c, _, _, h⟩ := m.step_cases
  · exact follows_of_phase hr (Runner.advance_execute_of_finished h) (by simp) (by simp)
  · have hexecute := Runner.advance_execute_of_stepped h
    -- The settled form takes the same step, since the feeder has not been cut off.
    have hstep : (m.settled script).step = (.stepped _, (m.proceeded j d).settled script) :=
      Machine.step_refit h (Wiring.respects_settle hr.closed)
    obtain ⟨-, -, -, -, -, hclosed⟩ := Machine.frame_of_step h
    have hrecord : (Bench.running ⟨m, .execute⟩).record? .advance =
        some { m.sight c with action := a } := by rw [Bench.record?, hexecute]
    have hact : (Bench.running ⟨m, .execute⟩).act .advance =
        .running ⟨m.proceeded j d, if (m.proceeded j d).delay = 0 then .testEnd else .pause⟩ := by
      rw [Bench.act, hexecute]
    refine follows_of_act hact
      ⟨hr.free.of_step h, fun hc => hr.closed (hclosed ▸ hc), fun fault hp => ?_⟩ ?_
    · dsimp only at hp
      split at hp <;> cases hp
    · rw [hrecord]
      exact .cons hstep (.nil _)
  · have hstop : m.Stops (some fault) := h
    refine follows_of_phase hr (Runner.advance_execute_of_failed h) (by simp) fun f hf => ?_
    cases hf
    exact hstop.refit hr.free.cancelled
  · exact follows_of_idle hr (Runner.advance_execute_of_waiting h) (by simp)

/-- The run goes on, whatever it does next. -/
theorem follows_advance {script : List UInt8} {r : Runner} (hr : Attuned script r) :
    Follows script r [.advance] script := by
  obtain ⟨m, phase⟩ := r
  have hcancelled : m.device.wiring.cancelled = false := hr.free.cancelled
  have hlimit : m.limit = none := hr.free.limit
  cases phase with
  | testEnd =>
    cases hf : m.isFinished with
    | true =>
      refine follows_of_phase hr (Runner.advance_testEnd_of_finished hf) nofun fun f hp => ?_
      cases hp
      exact hf
    | false => exact follows_of_phase hr (Runner.advance_testEnd hf) nofun nofun
  | testCancel => exact follows_of_phase hr (Runner.advance_testCancel hcancelled) nofun nofun
  | testLimit =>
    have hadv := Runner.advance_testLimit (m := m) (by rw [hlimit]; nofun)
    exact follows_of_phase hr hadv nofun nofun
  | execute => exact follows_execute hr
  | pause => exact follows_of_phase hr (Runner.advance_pause hcancelled) nofun nofun
  | returned fault => exact follows_of_idle hr rfl nofun

/-- What someone else does through a handle does not show in the settled form. -/
theorem follows_handle {script script' : List UInt8} {r : Runner} {op : HandleOp}
    (hr : Attuned script r)
    (hcancelled : (r.machine.device.wiring.handled op).cancelled =
      r.machine.device.wiring.cancelled)
    (hclosed : (r.machine.device.wiring.handled op).input.closed = true → script' = [])
    (hsettle : (r.machine.device.wiring.handled op).settle script' =
      r.machine.device.wiring.settle script) :
    Follows script r [.handle op] script' := by
  have heq : (r.mapWiring (·.handled op)).machine.settled script' = r.machine.settled script := by
    simp only [Machine.settled, Machine.refit, Runner.mapWiring, Machine.mapWiring, hsettle]
  have hact : (Bench.running r).act (.handle op) = .running (r.mapWiring (·.handled op)) := by
    rw [Bench.act_handle]
    rfl
  refine follows_of_act hact
    ⟨⟨hr.free.limit, hcancelled.trans hr.free.cancelled⟩, hclosed, ?_⟩ ?_
  · rw [heq]
    exact hr.stops
  · rw [heq]
    exact .nil _

/-! ## the whole interleaving -/

theorem follows_of_interleaving {script : List UInt8} {ds : List Deed}
    (h : Interleaving script ds) {r : Runner} (hr : Attuned script r) :
    ∃ script', Follows script r ds script' := by
  induction h generalizing r with
  | nil => exact ⟨_, r, rfl, hr, .nil _⟩
  | advance _ ih => exact (follows_advance hr).cons ih
  | @supply chunk script ds _ ih =>
    refine (follows_handle hr rfl (fun hc => ?_) (Wiring.settle_supply _ _ _)).cons ih
    exact (List.append_eq_nil_iff.mp (hr.closed hc)).2
  | closeInput _ ih =>
    exact (follows_handle hr rfl (fun _ => rfl) (Wiring.settle_closeInput _ _)).cons ih
  | drain hop _ ih =>
    obtain ⟨hinput, -, hcancelled, -⟩ := Wiring.handled_of_isDrain hop r.machine.device.wiring
    refine (follows_handle hr hcancelled (fun hc => ?_) (Wiring.settle_handled hop _ _)).cons ih
    rw [hinput] at hc
    exact hr.closed hc

/-- Two machines that a program and those who listen to it cannot tell apart:
they differ in their pipes at most by what has been supplied and taken. -/
structure Machine.Agrees (m m' : Machine) : Prop where
  tape : m.device.tape = m'.device.tape
  ip : m.ip = m'.ip
  steps : m.steps = m'.steps
  emitted : m.device.wiring.emitted = m'.device.wiring.emitted
  audience : m.device.wiring.audience = m'.device.wiring.audience

theorem Machine.agrees_of_settled {m m' : Machine} {script script' : List UInt8}
    (h : m.settled script = m'.settled script') : m.Agrees m' where
  tape := congrArg (·.device.tape) h
  ip := congrArg (·.ip) h
  steps := congrArg (·.steps) h
  emitted := congrArg (·.device.wiring.emitted) h
  audience := congrArg (·.device.wiring.audience) h

/-- A machine with all its input returns where its settled form stops. -/
theorem Machine.returns_of_settled {m m₁ : Machine} {ss : List Step} {fault : Option Fault}
    (hm : m.Free) (hclosed : m.device.wiring.input.closed = true)
    (hex : (m.settled []).Executes ss m₁) (hstop : m₁.Stops fault) :
    ∃ m', m.Returns fault ss m' ∧ m.Executes ss m' ∧ m'.settled [] = m₁ := by
  have hrespects : ∀ w, Wiring.Respects (Wiring.settle []) w :=
    fun _ => Wiring.respects_settle fun _ => rfl
  obtain ⟨m', hex', rfl⟩ := hex.of_refit hrespects hm.cancelled hclosed
  have hframe : m'.Free ∧ m'.device.wiring.input.closed = true := by
    refine hex'.preserves (P := fun m => m.Free ∧ m.device.wiring.input.closed = true)
      (fun hs hP => ?_) ⟨hm, hclosed⟩
    obtain ⟨-, -, -, -, -, hi⟩ := frame_of_step hs
    exact ⟨hP.1.of_step hs, hi.trans hP.2⟩
  have hstop' := stops_of_refit hstop hrespects hframe.1.cancelled hframe.2
  exact ⟨m', (returns_iff hm).mpr ⟨hex', hstop'⟩, hex', rfl⟩

/-- A run that returns, however the input has come and the output been taken
meanwhile, has done what it does alone with all the input. -/
theorem returns_of_interleaving {m : Machine} {script : List UInt8} {ds : List Deed} {r : Runner}
    {fault : Option Fault} (hm : m.Free)
    (hclosed : m.device.wiring.input.closed = true → script = [])
    (hds : Interleaving script ds)
    (hplay : (Bench.running (.start m)).play ds = .running r)
    (hresult : r.result? = some fault) :
    ∃ m', (m.mapWiring fun w => (w.supply script).closeInput).Returns fault
        ((Bench.running (.start m)).records ds) m' ∧
      m'.Agrees r.machine ∧
      ∀ (k : Nat) (b : UInt8),
        (((Bench.running (.start m)).records ds).filterMap Step.byteRead?)[k]? = some b →
        b = (m.device.wiring.input.pending ++ script)[k]?.getD 0 := by
  obtain ⟨script', r', hplay', hr', hex⟩ := follows_of_interleaving hds (attuned_start hm hclosed)
  obtain rfl : r = r' := Bench.running.inj (hplay.symm.trans hplay')
  have hstop := hr'.stops fault (Runner.phase_of_result? hresult)
  -- With everything supplied the machine is its own settled form, up to the output taken.
  have hsettled : (m.mapWiring fun w => (w.supply script).closeInput).settled [] =
      m.settled script := by
    simp only [Machine.settled, Machine.refit, Machine.mapWiring, Wiring.settle_closeInput,
      Wiring.settle_supply, List.append_nil]
  have hfree : (m.mapWiring fun w => (w.supply script).closeInput).Free :=
    ⟨hm.limit, hm.cancelled⟩
  rw [show (Runner.start m).machine = m from rfl, ← hsettled] at hex
  obtain ⟨m', hret, hex', heq⟩ := Machine.returns_of_settled hfree rfl hex hstop
  refine ⟨m', hret, Machine.agrees_of_settled heq, fun k b hb => ?_⟩
  rw [hex'.getElem?_byteRead rfl hb]
  simp only [Machine.mapWiring, Wiring.closeInput, Wiring.supply, Pipe.pending_close,
    Pipe.pending_append]

/-- The program waits for its input, and what it writes is taken before it ends. -/
theorem echo_fed_late :
    let m := Machine.load ⟨#[',', '.']⟩ (.blank 1 .strict)
    let ds : List Deed := List.replicate 4 .advance ++ .handle (.supply [65]) ::
      List.replicate 5 .advance ++ [.handle .drain, .handle .closeInput, .advance]
    m.Free ∧ m.device.wiring.input.closed = false ∧ Interleaving [65] ds ∧
      ∃ r m', (Bench.running (.start m)).play ds = .running r ∧ r.result? = some none ∧
        r.wiring.output.pending = [] ∧
        (m.mapWiring fun w => (w.supply [65]).closeInput).Returns none
          ((Bench.running (.start m)).records ds) m' ∧
        m'.device.tape.value = 65 ∧ m'.device.wiring.emitted = [65] := by
  intro m ds
  have hm : m.Free := ⟨rfl, rfl⟩
  have hds : Interleaving [65] ds := by
    iterate 4 apply Interleaving.advance
    refine @Interleaving.supply [65] [] _ ?_
    iterate 5 apply Interleaving.advance
    exact .drain rfl (.closeInput (.advance .nil))
  obtain ⟨_, r, hplay, -⟩ := follows_of_interleaving hds (attuned_start hm fun h => nomatch h)
  have hlast : (match (Bench.running (.start m)).play ds with
      | .running r => decide (r.result? = some none ∧ r.wiring.output.pending = [] ∧
          r.machine.device.tape.value = 65 ∧ r.wiring.emitted = [65])
      | .resting _ => false) = true := by
    decide +kernel
  rw [hplay] at hlast
  obtain ⟨hresult, hdrained, hvalue, hemitted⟩ := of_decide_eq_true hlast
  obtain ⟨m', hret, hagrees, -⟩ := returns_of_interleaving hm (fun h => nomatch h) hds hplay hresult
  exact ⟨hm, rfl, hds, r, m', hplay, hresult, hdrained, hret, hagrees.tape ▸ hvalue,
    hagrees.emitted.trans hemitted⟩

end Brainfuck
