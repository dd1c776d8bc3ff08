import Brainfuck.Command.Launch
import Brainfuck.Proofs.Cancelling

/-!
# Brainfuck.Proofs.Turns

What can happen to a job from one moment to the next.

An event is a turn of the worker, a turn of the clerk, or something done to the
connections by others.  `Job.Works` and `Job.Serves` say all that a turn of the two
can be, so that later proofs look at their cases and not into the job again.

* `works_work`, `serves_of_canServe`, `rewired_of_not_canServe` — what each event is;
* `turn_of_act`, `preserved_of_foldl` — what every turn keeps holds in the end;
* `Works.eq_of_sent`, `Turn.exists_write`, `Serves.frame`, `Turn.sent` — what the two
  parties leave alone;
* `Serves.rank_lt`, `rank_act` — each turn of the clerk brings the end nearer.
-/

namespace Brainfuck

/-! ## one action of a run -/

namespace Runner

variable {r : Runner}

theorem result?_congr {r' : Runner} (h : r'.phase = r.phase) : r'.result? = r.result? := by
  rw [result?, h, result?]

theorem advance_of_result? {fault : Option Fault} (h : r.result? = some fault) :
    r.advance = (.over, r) := by
  obtain ⟨m, phase⟩ := r
  obtain rfl := phase_of_result? h
  rfl

theorem advance_ne_over (h : r.result? = none) : r.advance.1 ≠ .over := by
  obtain ⟨m, phase⟩ := r
  cases phase with
  | returned fault => cases h
  | _ =>
    unfold advance
    grind

/-- One action writes one byte at most. -/
theorem output_of_advance (r : Runner) :
    r.advance.2.wiring.output = r.wiring.output ∨
      ∃ b, r.advance.2.wiring.output = r.wiring.output.put b := by
  obtain ⟨s, m', hstep, -, rfl⟩ | ⟨-, hm⟩ := r.advance_cases
  · obtain ⟨-, h⟩ | ⟨b, -, h⟩ := Machine.output_of_step hstep
    · exact .inl h
    · exact .inr ⟨b, h⟩
  · exact .inl (congrArg (·.device.wiring.output) hm)

theorem cancelled_of_advance (h : r.wiring.cancelled = true) :
    r.advance.2.wiring.cancelled = true :=
  Bench.cancelled_of_act (b := .running r) (d := .advance) h nofun

end Runner

/-! ## one byte of output -/

namespace Wiring

variable {w : Wiring}

theorem hasOutput_eq_false_iff : w.hasOutput = false ↔ w.output.pending = [] := by
  have hle := w.output.taken_le
  simp only [hasOutput, Pipe.isEmpty, Pipe.pending, Bool.not_eq_false', beq_iff_eq,
    List.drop_eq_nil_iff, Array.length_toList]
  omega

theorem drain_eq_ended_iff : w.drain = .ended ↔ w.output.pending = [] ∧ w.output.closed = true := by
  rw [← Pipe.take?_eq_none_iff, drain]
  cases w.output.take? <;> cases w.output.closed <;> simp

theorem drain_eq_waiting_iff :
    w.drain = .waiting ↔ w.output.pending = [] ∧ w.output.closed = false := by
  rw [← Pipe.take?_eq_none_iff, drain]
  cases w.output.take? <;> cases w.output.closed <;> simp

/-- Whoever gets a byte gets the one that has waited longest. -/
theorem output_of_drain {b : UInt8} {rest : Wiring} (h : w.drain = .byte b rest) :
    w.output.pending = b :: rest.output.pending ∧ rest.emitted = w.emitted ∧
      rest.output.closed = w.output.closed ∧ rest.cancelled = w.cancelled := by
  unfold drain at h
  split at h
  · next b' q hq =>
    cases h
    obtain ⟨hitems, hclosed⟩ := Pipe.items_closed_of_take? hq
    exact ⟨Pipe.pending_of_take? hq, congrArg Array.toList hitems, hclosed, rfl⟩
  · split at h <;> cases h

end Wiring

/-! ## stages -/

/-- How many turns the clerk needs at most from a stage on, when so many bytes wait. -/
def Stage.rest (waiting : Nat) : Stage → Nat
  | .draining => waiting + 5
  | .polling | .stopping _ => 4
  | .flushing _ => 3
  | .reporting _ => 2
  | .ending _ => 1
  | .exited _ => 0

namespace Job

/-! ## turns -/

/-- What the worker can do next.  A table that cannot be written is a request to stop. -/
inductive Works (j : Job) : Job → Prop where
  | begins (hduty : j.duty = .heading) (hdebug : j.order.debug = false) :
    Works j { j with duty := .running }
  | heads (bytes : List UInt8) (sink : Sink) (hduty : j.duty = .heading)
      (hdebug : j.order.debug = true) (hwrite : j.stdout.write bytes = (true, sink)) :
    Works j { j with duty := .running, stdout := sink }
  | headsInVain (bytes : List UInt8) (sink : Sink) (hduty : j.duty = .heading)
      (hdebug : j.order.debug = true) (hwrite : j.stdout.write bytes = (false, sink)) :
    Works j ({ j with duty := .running, stdout := sink }.mapWiring .cancel)
  | advances (hduty : j.duty = .running) (hresult : j.runner.result? = none)
      (hquiet : j.order.debug = true → ∀ s, j.runner.advance.1 ≠ .moved (some (.stepTaken s))) :
    Works j { j with runner := j.runner.advance.2 }
  | shows (s : Step) (bytes : List UInt8) (sink : Sink) (hduty : j.duty = .running)
      (hdebug : j.order.debug = true) (hstep : j.runner.advance.1 = .moved (some (.stepTaken s)))
      (hwrite : j.stdout.write bytes = (true, sink)) :
    Works j { j with runner := j.runner.advance.2, rows := j.rows + 1, stdout := sink }
  | showsInVain (s : Step) (bytes : List UInt8) (sink : Sink) (hduty : j.duty = .running)
      (hdebug : j.order.debug = true) (hstep : j.runner.advance.1 = .moved (some (.stepTaken s)))
      (hwrite : j.stdout.write bytes = (false, sink)) :
    Works j ({ j with
      runner := j.runner.advance.2, rows := j.rows + 1, stdout := sink }.mapWiring .cancel)
  | returns (fault : Option Fault) (hduty : j.duty = .running)
      (hresult : j.runner.result? = some fault) :
    Works j { j with duty := .sending }
  | sends (hduty : j.duty = .sending) :
    Works j { j with channel := j.runner.result?, duty := .closing }
  | closes (hduty : j.duty = .closing) : Works j ({ j with duty := .gone }.mapWiring .closeOutput)
  | rests (hduty : j.duty = .gone) : Works j j

/-- What the clerk can do next.  In debug mode it throws the output away; otherwise a
byte that cannot be written is a reason to stop, and later one to exit. -/
inductive Serves (j : Job) : Job → Prop where
  | discards (b : UInt8) (rest : Wiring) (hstage : j.stage = .draining)
      (hdrain : j.wiring.drain = .byte b rest) (hdebug : j.order.debug = true) :
    Serves j (j.mapWiring fun _ => rest)
  | carries (b : UInt8) (rest : Wiring) (sink : Sink) (hstage : j.stage = .draining)
      (hdrain : j.wiring.drain = .byte b rest) (hdebug : j.order.debug = false)
      (hwrite : j.stdout.write [b] = (true, sink)) :
    Serves j { j.mapWiring fun _ => rest with stdout := sink }
  | carriesInVain (b : UInt8) (rest : Wiring) (sink : Sink) (hstage : j.stage = .draining)
      (hdrain : j.wiring.drain = .byte b rest) (hdebug : j.order.debug = false)
      (hwrite : j.stdout.write [b] = (false, sink)) :
    Serves j ({ j.mapWiring fun _ => rest with
      stdout := sink, stage := .stopping .sinkFailed }.mapWiring .cancel)
  | turns (hstage : j.stage = .draining) (hpending : j.wiring.output.pending = []) :
    Serves j { j with stage := .polling }
  | misses (hstage : j.stage = .polling) (hchannel : j.channel = none) :
    Serves j { j with stage := .draining }
  | receives (result : Option Fault) (hstage : j.stage = .polling)
      (hchannel : j.channel = some result) :
    Serves j { j with channel := none, stage := .flushing ⟨some result, false⟩ }
  | expires (hstage : j.stage = .draining) :
    Serves j ({ j with stage := .stopping .deadline }.mapWiring .cancel)
  | stops (result : Option (Option Fault)) (hstage : j.stage = .stopping .deadline)
      (hresult : result = none ∨ result = j.channel) :
    Serves j { j with channel := none, stage := .flushing ⟨result, true⟩ }
  | quits (hstage : j.stage = .stopping .sinkFailed) :
    Serves j { j with channel := none, stage := .exited 1 }
  | passes (v : Verdict) (hstage : j.stage = .flushing v) (hdebug : j.order.debug = true) :
    Serves j { j with stage := .reporting v }
  | flushes (v : Verdict) (sink : Sink) (hstage : j.stage = .flushing v)
      (hdebug : j.order.debug = false)
      (hwrite : j.stdout.write j.wiring.output.pending = (true, sink)) :
    Serves j { j.mapWiring fun _ => j.wiring.drainAll.2 with stdout := sink, stage := .reporting v }
  | flushesInVain (v : Verdict) (sink : Sink) (hstage : j.stage = .flushing v)
      (hdebug : j.order.debug = false)
      (hwrite : j.stdout.write j.wiring.output.pending = (false, sink)) :
    Serves j { j.mapWiring fun _ => j.wiring.drainAll.2 with stdout := sink, stage := .exited 1 }
  | reports (v : Verdict) (hstage : j.stage = .reporting v) : Serves j (j.report v)
  | finishes (code : Nat) (sink : Sink) (hstage : j.stage = .ending code)
      (hwrite : j.stdout.write [newline] = (true, sink)) :
    Serves j { j with stdout := sink, stage := .exited code }
  | finishesInVain (code : Nat) (sink : Sink) (hstage : j.stage = .ending code)
      (hwrite : j.stdout.write [newline] = (false, sink)) :
    Serves j { j with stdout := sink, stage := .exited 1 }

/-- What others can do: they change connections, but leave the output alone and do
not withdraw a request to stop. -/
def Rewired (j j' : Job) : Prop :=
  ∃ w : Wiring, j' = j.mapWiring (fun _ => w) ∧ w.output = j.wiring.output ∧
    (j.wiring.cancelled = true → w.cancelled = true)

/-- What can happen to a job from one moment to the next. -/
def Turn (j j' : Job) : Prop := j.Works j' ∨ j.Serves j' ∨ j.Rewired j'

/-- Whether an event is something that the clerk can do now. -/
def canServe (j : Job) : Event → Bool
  | .drain => j.stage = .draining ∧ (j.wiring.hasOutput ∨ j.wiring.output.closed)
  | .giveUp => j.stage = .draining ∧ ¬ j.wiring.hasOutput
  | .poll => j.stage = .polling
  | .expire => j.stage = .draining ∧ 0 < j.order.timeout
  | .collect =>
    match j.stage, j.channel with
    | .stopping _, some _ => true
    | _, _ => false
  | .abandon =>
    match j.stage with
    | .stopping _ => true
    | _ => false
  | .leave =>
    match j.stage with
    | .flushing _ | .reporting _ | .ending _ => true
    | _ => false
  | .work | .feed _ | .endInput | .interrupt => false

variable {j j' : Job} {e : Event}

theorem rewired_refl (j : Job) : j.Rewired j := ⟨j.wiring, rfl, rfl, id⟩

/-- Lines of the table are written, or the machine is asked to stop. -/
theorem print_cases (j : Job) (lines : String) : ∃ bytes sink,
    j.stdout.write bytes = (true, sink) ∧ j.print lines = { j with stdout := sink } ∨
    j.stdout.write bytes = (false, sink) ∧
      j.print lines = { j with stdout := sink }.mapWiring .cancel := by
  rw [print]
  split
  · next sink h => exact ⟨_, sink, .inl ⟨h, rfl⟩⟩
  · next sink h => exact ⟨_, sink, .inr ⟨h, rfl⟩⟩

theorem works_head (h : j.duty = .heading) : j.Works j.head := by
  cases hdebug : j.order.debug with
  | true =>
    rw [head, if_pos hdebug]
    obtain ⟨bytes, sink, ⟨hwrite, hprint⟩ | ⟨hwrite, hprint⟩⟩ :=
      print_cases { j with duty := .running } (Trace.header ++ "\n" ++ Trace.rule ++ "\n")
    · rw [hprint]
      exact .heads bytes sink h hdebug hwrite
    · rw [hprint]
      exact .headsInVain bytes sink h hdebug hwrite
  | false =>
    rw [head, if_neg (by simp [hdebug])]
    exact .begins h hdebug

theorem works_advance (h : j.duty = .running) : j.Works j.advance := by
  obtain ⟨order, runner, duty, rows, channel, stage, stdout, stderr⟩ := j
  cases hresult : runner.result? with
  | some fault =>
    rw [advance, Runner.advance_of_result? hresult]
    exact .returns fault h hresult
  | none =>
    have hover := Runner.advance_ne_over hresult
    rw [advance]
    split
    · next s r hadv =>
      have hr : runner.advance.2 = r := congrArg Prod.snd hadv
      have hstep := congrArg Prod.fst hadv
      subst hr
      split
      · next hdebug =>
        obtain ⟨bytes, sink, ⟨hwrite, hprint⟩ | ⟨hwrite, hprint⟩⟩ :=
          print_cases ⟨order, runner.advance.2, duty, rows + 1, channel, stage, stdout, stderr⟩
            (Trace.row rows s ++ "\n")
        · rw [hprint]
          exact .shows s bytes sink h hdebug hstep hwrite
        · rw [hprint]
          exact .showsInVain s bytes sink h hdebug hstep hwrite
      · next hdebug => exact .advances h hresult fun hd => absurd hd hdebug
    · next r hadv => exact absurd (congrArg Prod.fst hadv) hover
    · -- The report is not of a step, so there is no row to show.
      next p r hquiet _ hadv =>
      have hr : runner.advance.2 = r := congrArg Prod.snd hadv
      subst hr
      refine .advances h hresult fun _ s hs => ?_
      exact hquiet s ((congrArg Prod.fst hadv).symm.trans hs)

theorem works_work (j : Job) : j.Works j.work := by
  unfold work
  split
  · next hduty => exact works_head hduty
  · next hduty => exact works_advance hduty
  · next hduty => exact .sends hduty
  · next hduty => exact .closes hduty
  · next hduty => exact .rests hduty

theorem serves_carry {b : UInt8} {rest : Wiring} (hstage : j.stage = .draining)
    (hdrain : j.wiring.drain = .byte b rest) :
    j.Serves ((j.mapWiring fun _ => rest).carry b) := by
  cases hdebug : j.order.debug with
  | true =>
    have hcarry : (j.mapWiring fun _ => rest).carry b = j.mapWiring fun _ => rest := if_pos hdebug
    rw [hcarry]
    exact .discards b rest hstage hdrain hdebug
  | false =>
    rw [carry, if_neg (by simp [mapWiring, hdebug])]
    split
    · next sink hwrite => exact .carries b rest sink hstage hdrain hdebug hwrite
    · next sink hwrite => exact .carriesInVain b rest sink hstage hdrain hdebug hwrite

theorem serves_stopped {cause : StopCause} {result : Option (Option Fault)}
    (hstage : j.stage = .stopping cause) (hresult : result = none ∨ result = j.channel) :
    j.Serves (j.stopped result cause) := by
  cases cause with
  | deadline => exact .stops result hstage hresult
  | sinkFailed => exact .quits hstage

theorem serves_flush {v : Verdict} (hstage : j.stage = .flushing v) : j.Serves (j.flush v) := by
  cases hdebug : j.order.debug with
  | true =>
    rw [flush, if_pos hdebug]
    exact .passes v hstage hdebug
  | false =>
    rw [flush, if_neg (by simp [hdebug])]
    dsimp only
    split
    · next sink hwrite => exact .flushes v sink hstage hdebug hwrite
    · next sink hwrite => exact .flushesInVain v sink hstage hdebug hwrite

theorem serves_finish {code : Nat} (hstage : j.stage = .ending code) :
    j.Serves (j.finish code) := by
  rw [finish]
  split
  · next sink hwrite => exact .finishes code sink hstage hwrite
  · next sink hwrite => exact .finishesInVain code sink hstage hwrite

/-- What the clerk can do now it does when the event happens. -/
theorem serves_of_canServe (h : j.canServe e = true) : j.Serves (j.act e) := by
  cases e with
  | drain =>
    obtain ⟨hstage, hready⟩ := of_decide_eq_true h
    rw [act, if_pos hstage, drain]
    split
    · next b rest hdrain => exact serves_carry hstage hdrain
    · next hdrain => exact .turns hstage (Wiring.drain_eq_ended_iff.mp hdrain).1
    · next hdrain =>
      obtain ⟨hpending, hopen⟩ := Wiring.drain_eq_waiting_iff.mp hdrain
      rw [Wiring.hasOutput_eq_false_iff.mpr hpending, hopen] at hready
      simp at hready
  | giveUp =>
    obtain ⟨hstage, hnone⟩ := of_decide_eq_true h
    rw [act, if_pos ⟨hstage, hnone⟩]
    exact .turns hstage (Wiring.hasOutput_eq_false_iff.mp (Bool.not_eq_true _ ▸ hnone))
  | poll =>
    have hstage : j.stage = .polling := of_decide_eq_true h
    rw [act, if_pos hstage, poll]
    split
    · next result hchannel => exact .receives result hstage hchannel
    · next hchannel => exact .misses hstage hchannel
  | expire =>
    obtain ⟨hstage, htimeout⟩ := of_decide_eq_true h
    rw [act, if_pos ⟨hstage, htimeout⟩]
    exact .expires hstage
  | collect =>
    rw [canServe] at h
    split at h
    · next cause result hstage hchannel =>
      simp only [act, hstage, hchannel]
      exact serves_stopped hstage (.inr hchannel.symm)
    · cases h
  | abandon =>
    rw [canServe] at h
    split at h
    · next cause hstage =>
      simp only [act, hstage]
      exact serves_stopped hstage (.inl rfl)
    · cases h
  | leave =>
    rw [canServe] at h
    cases hstage : j.stage with
    | flushing v =>
      simp only [act, hstage]
      exact serves_flush hstage
    | reporting v =>
      simp only [act, hstage]
      exact .reports v hstage
    | ending code =>
      simp only [act, hstage]
      exact serves_finish hstage
    | _ =>
      rw [hstage] at h
      cases h
  | _ => cases h

/-- What the clerk cannot do now does not happen. -/
theorem rewired_of_not_canServe (he : e ≠ .work) (h : j.canServe e = false) :
    j.Rewired (j.act e) := by
  have hsame : j.act e = j → j.Rewired (j.act e) := by
    intro hact
    rw [hact]
    exact rewired_refl j
  cases e with
  | work => exact absurd rfl he
  | feed bytes => exact ⟨_, rfl, rfl, id⟩
  | endInput => exact ⟨_, rfl, rfl, id⟩
  | interrupt => exact ⟨_, rfl, rfl, fun _ => rfl⟩
  | drain =>
    have hnot := of_decide_eq_false h
    refine hsame ?_
    rw [act]
    split
    · next hstage =>
      obtain ⟨hnone, hopen⟩ := not_or.mp fun hready => hnot ⟨hstage, hready⟩
      rw [drain, Wiring.drain_eq_waiting_iff.mpr
        ⟨Wiring.hasOutput_eq_false_iff.mp (Bool.not_eq_true _ ▸ hnone), Bool.not_eq_true _ ▸ hopen⟩]
    · rfl
  | giveUp => exact hsame (if_neg (of_decide_eq_false h))
  | poll => exact hsame (if_neg (of_decide_eq_false h))
  | expire => exact hsame (if_neg (of_decide_eq_false h))
  | collect =>
    refine hsame ?_
    rw [canServe] at h
    rw [act]
    grind
  | abandon =>
    refine hsame ?_
    rw [canServe] at h
    rw [act]
    grind
  | leave =>
    refine hsame ?_
    rw [canServe] at h
    rw [act]
    grind

theorem turn_of_act (j : Job) (e : Event) : j.Turn (j.act e) := by
  by_cases he : e = .work
  · subst he
    exact .inl j.works_work
  · cases h : j.canServe e with
    | true => exact .inr (.inl (serves_of_canServe h))
    | false => exact .inr (.inr (rewired_of_not_canServe he h))

theorem rewired_of_hear? {c : Change} (h : j.hear? = some (c, j')) : j.Rewired j' := by
  unfold hear? at h
  split at h
  · cases h
  · split at h
    · cases h
      exact ⟨_, rfl, rfl, id⟩
    · cases h

/-- What every turn keeps holds in the end, whatever has happened. -/
theorem preserved_of_foldl {α : Type} {f : Job → α → Job} (hf : ∀ j a, Turn j (f j a))
    {P : Job → Prop} (hstep : ∀ {j j'}, P j → j.Turn j' → P j') (h : P j) (as : List α) :
    P (as.foldl f j) := by
  induction as generalizing j with
  | nil => exact h
  | cons a as ih => exact ih (hstep h (hf j a))

/-- Once it has sent the result, the worker has only the output to close. -/
theorem Works.eq_of_sent (h : j.Works j') (hduty : j.duty = .closing ∨ j.duty = .gone) :
    j' = { j with duty := .gone }.mapWiring .closeOutput ∨ j' = j := by
  cases h with
  | closes _ => exact .inl rfl
  | rests _ => exact .inr rfl
  | begins hd | heads _ _ hd | headsInVain _ _ hd | advances hd | shows _ _ _ hd
  | showsInVain _ _ _ hd | returns _ hd | sends hd =>
    rw [hd] at hduty
    simp at hduty

/-! ## what a turn leaves -/

/-- The sink is only written to, once a turn. -/
theorem Turn.exists_write (h : j.Turn j') : ∃ bytes, j'.stdout = (j.stdout.write bytes).2 := by
  have hsame : j'.stdout = j.stdout → ∃ bytes, j'.stdout = (j.stdout.write bytes).2 :=
    fun h => ⟨[], h⟩
  have hwrote : ∀ {bytes ok}, j.stdout.write bytes = (ok, j'.stdout) →
      ∃ bytes, j'.stdout = (j.stdout.write bytes).2 :=
    fun {bytes _} hwrite => ⟨bytes, (congrArg Prod.snd hwrite).symm⟩
  obtain h | h | ⟨w, rfl, -, -⟩ := h
  · cases h with
    | heads _ _ _ _ hwrite | headsInVain _ _ _ _ hwrite | shows _ _ _ _ _ _ hwrite
    | showsInVain _ _ _ _ _ _ hwrite => exact hwrote hwrite
    | begins | advances | returns | sends | closes | rests => exact hsame rfl
  · cases h with
    | carries _ _ _ _ _ _ hwrite | carriesInVain _ _ _ _ _ _ hwrite | flushes _ _ _ _ hwrite
    | flushesInVain _ _ _ _ hwrite | finishes _ _ _ hwrite | finishesInVain _ _ _ hwrite =>
      exact hwrote hwrite
    | discards | turns | misses | receives | expires | stops | quits | passes | reports =>
      exact hsame rfl
  · exact hsame rfl

/-- The clerk leaves alone what the worker does and what is run. -/
theorem Serves.frame (h : j.Serves j') :
    j'.order = j.order ∧ j'.duty = j.duty ∧ j'.runner.phase = j.runner.phase := by
  cases h <;> exact ⟨rfl, rfl, rfl⟩

/-- What has been sent has been sent for ever. -/
theorem Turn.sent (h : j.Turn j') (hduty : j.duty = .closing ∨ j.duty = .gone) :
    j'.duty = .closing ∨ j'.duty = .gone := by
  obtain h | h | ⟨w, rfl, -, -⟩ := h
  · obtain rfl | rfl := h.eq_of_sent hduty
    · exact .inr rfl
    · exact hduty
  · exact h.frame.2.1.symm ▸ hduty
  · exact hduty

/-! ## how much the clerk has left to do -/

/-- How many turns the clerk needs at most, if the result is there when it looks. -/
def rank (j : Job) : Nat := j.stage.rest j.wiring.output.pending.length

theorem rank_le (j : Job) : j.rank ≤ j.wiring.output.pending.length + 5 := by
  unfold rank Stage.rest
  split <;> omega

theorem stage_of_exit? {code : Nat} (h : j.exit? = some code) : j.stage = .exited code := by
  unfold exit? at h
  split at h
  · next hstage => rw [hstage, Option.some.inj h]
  · cases h

theorem exists_exit?_of_rank (h : j.rank = 0) : ∃ code, j.exit? = some code := by
  unfold rank Stage.rest at h
  split at h
  case h_7 code hstage => exact ⟨code, by rw [exit?, hstage]⟩
  all_goals omega

/-- Each turn brings the clerk nearer to the end. -/
theorem Serves.rank_lt (h : j.Serves j') (hready : j.stage = .polling → j.channel ≠ none) :
    j'.rank < j.rank := by
  cases h with
  | discards b rest hstage hdrain | carries b rest _ hstage hdrain =>
    obtain ⟨hpending, -⟩ := Wiring.output_of_drain hdrain
    show j.stage.rest rest.output.pending.length < _
    simp [rank, hstage, hpending, Stage.rest]
  | misses hstage hchannel => exact absurd hchannel (hready hstage)
  | carriesInVain _ _ _ hstage | turns hstage | receives _ hstage | expires hstage
  | stops _ hstage | quits hstage | passes _ hstage | flushes _ _ hstage
  | flushesInVain _ _ hstage | reports _ hstage | finishes _ _ hstage
  | finishesInVain _ _ hstage => simp [rank, hstage, Stage.rest, mapWiring, report]

theorem Rewired.rank_eq (h : j.Rewired j') : j'.rank = j.rank := by
  obtain ⟨w, rfl, houtput, -⟩ := h
  exact congrArg (fun q => j.stage.rest q.pending.length) houtput

/-- Once it has sent the result, the worker gives the clerk no more to do. -/
theorem Works.rank_eq (h : j.Works j') (hduty : j.duty = .closing ∨ j.duty = .gone) :
    j'.rank = j.rank := by
  obtain rfl | rfl := h.eq_of_sent hduty <;> rfl

/-- Each turn of the clerk brings the end nearer, and nothing else takes it back, unless
the clerk misses the result or the worker has output for it. -/
theorem rank_act (hwork : j.work.rank = j.rank) (hready : j.stage = .polling → j.channel ≠ none)
    (e : Event) : (j.act e).rank + (if j.canServe e then 1 else 0) ≤ j.rank := by
  cases hserve : j.canServe e with
  | true => exact (serves_of_canServe hserve).rank_lt hready
  | false =>
    refine Nat.le_of_eq ?_
    by_cases he : e = .work
    · subst he
      exact hwork
    · exact (rewired_of_not_canServe he hserve).rank_eq

end Job

end Brainfuck
