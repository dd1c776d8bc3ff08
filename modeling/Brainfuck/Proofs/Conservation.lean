import Brainfuck.Proofs.Bench

/-!
# Brainfuck.Proofs.Conservation

No byte is lost, duplicated or reordered between those who supply it and those
who get it.

What a history has supplied, read, written and drained is collected from what
each deed shows to the one who does it: the argument of a supply, the cell after
a read, the cell at a write, the answer of a drain.  Against these stand the two
queues and the log:

* `laws_of_act` — every deed obeys the law of the input (`InputLaw`) and the law
  of the output (`OutputLaw`);
* `input_of_play`, `log_of_play`, `output_of_play` — so does every history;
* `bytes_conserved` — what this means for one that begins with a blank tape.

Handles may be copied, and may outlive the tape; a deed says what is done, not by
whom, so a history stands for all the ways to share it out.
-/

namespace Brainfuck

/-! ## what a deed shows -/

/-- The bytes that an answer hands over. -/
def Answer.handedOver : Answer → List UInt8
  | .drained b => b.toList
  | .bytes bs => bs
  | _ => []

namespace Bench

/-- The bytes that a deed supplies. -/
def supplied (_ : Bench) : Deed → List UInt8
  | .handle (.supply bytes) => bytes
  | _ => []

/-- Whether a deed reads, and the read succeeds. -/
def reads : Bench → Deed → Bool
  | .resting (.tape d), .hand .read => d.read.1 = .done
  | b, d => ((b.record? d).bind Step.byteRead?).isSome

/-- The byte in the current cell after a successful read. -/
def stored? (b : Bench) (d : Deed) : Option UInt8 :=
  if b.reads d then (b.act d).session.device?.map (·.tape.value) else none

/-- The bytes that a deed takes from the input: what it has read, unless
nothing waited there to be taken. -/
def popped (b : Bench) (d : Deed) : List UInt8 :=
  if b.wiring.input.pending = [] then [] else (b.stored? d).toList

/-- The bytes that a deed writes. -/
def written : Bench → Deed → List UInt8
  | .resting (.tape d), .hand .write => [d.tape.value]
  | b, d => ((b.record? d).bind Step.byteWritten?).toList

/-- The bytes that a deed drains.  To look at the log drains nothing. -/
def drained (b : Bench) : Deed → List UInt8
  | .handle .emitted => []
  | .handle op => (b.session.handle op).answer.handedOver
  | _ => []

end Bench

/-! ## deeds that leave the queues alone -/

/-- The deeds that neither use a handle nor change the tape. -/
def Deed.isQuiet : Deed → Bool
  | .handle _ | .hand _ | .step | .advance => false
  | _ => true

namespace Session

/-- A change feed is all that its listener can change. -/
theorem wiring_of_feed? {s : Session} {id : Nat} {op : FeedOp} {o : Outcome}
    (h : s.feed? id op = some o) : ∃ a, o.session.wiring = { s.wiring with audience := a } := by
  cases op with
  | receive | receiveAll =>
    obtain ⟨⟨_, a⟩, -, rfl⟩ := Option.map_eq_some_iff.mp h
    exact ⟨a, by cases s <;> rfl⟩
  | unsubscribe =>
    rw [feed?] at h
    split at h
    · obtain rfl := Option.some.inj h
      exact ⟨s.wiring.audience.unsubscribe id, by cases s <;> rfl⟩
    · cases h

end Session

namespace Bench

theorem wiring_of_isQuiet {d : Deed} (hd : d.isQuiet = true) (b : Bench) :
    ∃ a, (b.act d).wiring = { b.wiring with audience := a } := by
  cases d with
  | feed id op =>
    rw [act]
    split
    · next o ho =>
      rw [wiring_mapWiring]
      exact Session.wiring_of_feed? ho
    · exact ⟨_, rfl⟩
  | view op =>
    cases b with
    | running r => exact ⟨_, rfl⟩
    | resting s =>
      cases hs : s.device? with
      | none => simp only [act, hs]; exact ⟨_, rfl⟩
      | some dev =>
        obtain ⟨a, ha⟩ := s.exists_session_view dev op
        refine ⟨a, ?_⟩
        simp only [act, hs, wiring, session, ha, Session.wiring_mapWiring]
  | finish =>
    cases b with
    | resting s => exact ⟨_, rfl⟩
    | running r =>
      refine ⟨r.machine.device.wiring.audience, ?_⟩
      simp only [act]
      split <;> rfl
  | setLimit | setDelay | setMode | start | release | drop =>
    cases b with
    | resting s => cases s <;> exact ⟨_, rfl⟩
    | running r => exact ⟨_, rfl⟩
  | handle | hand | step | advance => cases hd

theorem record?_eq_none {b : Bench} {d : Deed} (hstep : d ≠ .step) (hadvance : d ≠ .advance) :
    b.record? d = none := by
  unfold record?
  split
  · exact absurd rfl hstep
  · exact absurd rfl hadvance
  · rfl

/-- A deed that changes nothing by hand reads and writes what its record says. -/
theorem reads_of_not_hand {d : Deed} (b : Bench) (hd : ∀ op, d ≠ .hand op) :
    b.reads d = ((b.record? d).bind Step.byteRead?).isSome ∧
      b.written d = ((b.record? d).bind Step.byteWritten?).toList := by
  constructor
  · unfold reads
    split
    · exact absurd rfl (hd _)
    · rfl
  · unfold written
    split
    · exact absurd rfl (hd _)
    · rfl

/-! ## the two laws for one deed -/

/-- The law of the input: a deed that does not read leaves what waits there, and
supplies behind it; a deed that reads takes the byte that has waited longest, or
finds that none waits and that the end has been announced. -/
inductive InputLaw (b : Bench) (d : Deed) : Prop where
  | idle (hstored : b.stored? d = none)
      (h : (b.act d).wiring.input.pending = b.wiring.input.pending ++ b.supplied d)
  | taken {v : UInt8} (hstored : b.stored? d = some v) (hsupplied : b.supplied d = [])
      (h : b.wiring.input.pending = v :: (b.act d).wiring.input.pending)
  | ended (hstored : b.stored? d = some 0) (hsupplied : b.supplied d = [])
      (hempty : b.wiring.input.pending = []) (hclosed : b.wiring.input.closed = true)
      (h : (b.act d).wiring.input.pending = [])

/-- The law of the output: what a deed writes is logged, and what it drains was
queued first. -/
structure OutputLaw (b : Bench) (d : Deed) : Prop where
  log : (b.act d).wiring.emitted = b.wiring.emitted ++ b.written d
  queue : b.wiring.output.pending ++ b.written d = b.drained d ++ (b.act d).wiring.output.pending

theorem stored?_of_not_reads {b : Bench} {d : Deed} (h : b.reads d = false) :
    b.stored? d = none := by
  rw [stored?, h]
  rfl

theorem inputLaw_of_unchanged {b : Bench} {d : Deed} (hreads : b.reads d = false)
    (hsupplied : b.supplied d = []) (h : (b.act d).wiring.input = b.wiring.input) :
    b.InputLaw d := by
  refine .idle (stored?_of_not_reads hreads) ?_
  rw [h, hsupplied, List.append_nil]

theorem outputLaw_of_unchanged {b : Bench} {d : Deed} (hwritten : b.written d = [])
    (hdrained : b.drained d = []) (h : (b.act d).wiring.output = b.wiring.output) :
    b.OutputLaw d where
  log := by rw [Wiring.emitted, h, hwritten, List.append_nil, Wiring.emitted]
  queue := by rw [h, hwritten, hdrained, List.append_nil, List.nil_append]

theorem outputLaw_of_put {b : Bench} {d : Deed} {v : UInt8} (hwritten : b.written d = [v])
    (hdrained : b.drained d = []) (h : (b.act d).wiring.output = b.wiring.output.put v) :
    b.OutputLaw d where
  log := by
    rw [Wiring.emitted, h, hwritten]
    exact Wiring.emitted_emit _ _
  queue := by rw [h, hwritten, hdrained, Pipe.pending_put, List.nil_append]

theorem laws_of_isQuiet {d : Deed} (hd : d.isQuiet = true) (b : Bench) :
    b.InputLaw d ∧ b.OutputLaw d := by
  obtain ⟨a, ha⟩ := b.wiring_of_isQuiet hd
  have hrecord : b.record? d = none :=
    record?_eq_none (fun h => by subst h; cases hd) (fun h => by subst h; cases hd)
  obtain ⟨hreads, hwritten⟩ := b.reads_of_not_hand (d := d) fun _ h => by subst h; cases hd
  rw [hrecord] at hreads hwritten
  have hsupplied : b.supplied d = [] := by cases d <;> first | rfl | cases hd
  have hdrained : b.drained d = [] := by cases d <;> first | rfl | cases hd
  exact ⟨inputLaw_of_unchanged hreads hsupplied (by rw [ha]),
    outputLaw_of_unchanged hwritten hdrained (by rw [ha])⟩

end Bench

/-! ## handles -/

/-- No handle changes the log. -/
theorem Wiring.emitted_handled (w : Wiring) (op : HandleOp) :
    (w.handled op).emitted = w.emitted := by
  cases op with
  | drain | drainNow =>
    obtain ⟨q, hq, hitems⟩ := w.exists_handled_drain
    simp only [handled_drainNow, hq, emitted, hitems]
  | _ => rfl

namespace Bench

/-- Through a handle the input is only supplied, never read. -/
theorem input_handled (b : Bench) (op : HandleOp) :
    (b.wiring.handled op).input.pending =
      b.wiring.input.pending ++ b.supplied (.handle op) := by
  cases op with
  | supply bytes => exact Pipe.pending_append _ _
  | drain | drainNow =>
    obtain ⟨q, hq, -⟩ := b.wiring.exists_handled_drain
    simp only [Wiring.handled_drainNow, hq]
    exact (List.append_nil _).symm
  | _ => exact (List.append_nil _).symm

/-- Whoever drains gets what has waited longest, or everything. -/
theorem output_handled (b : Bench) (op : HandleOp) :
    b.wiring.output.pending =
      b.drained (.handle op) ++ (b.wiring.handled op).output.pending := by
  have hw : b.session.wiring = b.wiring := rfl
  cases op with
  | drain | drainNow =>
    simp only [drained, Wiring.handled_drainNow, Wiring.handled_drain, Session.handle, hw,
      Wiring.drain]
    cases ht : b.wiring.output.take? with
    | some x => exact Pipe.pending_of_take? ht
    | none => cases b.wiring.output.closed <;> rfl
  | drainAll =>
    have hrest : (b.wiring.handled .drainAll).output.pending = [] := Pipe.pending_takeAll _
    rw [hrest, List.append_nil]
    rfl
  | pause =>
    simp only [drained, Session.handle, hw]
    cases b.wiring.cancelled <;> rfl
  | _ => rfl

theorem laws_of_handle (b : Bench) (op : HandleOp) :
    b.InputLaw (.handle op) ∧ b.OutputLaw (.handle op) := by
  have hwiring : (b.act (.handle op)).wiring = b.wiring.handled op := by
    rw [act_handle, wiring_mapWiring]
  have hrecord : b.record? (.handle op) = none := record?_eq_none nofun nofun
  obtain ⟨hreads, hwritten⟩ := b.reads_of_not_hand (d := .handle op) nofun
  rw [hrecord] at hreads hwritten
  have hwritten : b.written (.handle op) = [] := hwritten
  refine ⟨.idle (stored?_of_not_reads hreads) ?_, ⟨?_, ?_⟩⟩
  · rw [hwiring, input_handled]
  · rw [hwiring, hwritten, Wiring.emitted_handled, List.append_nil]
  · rw [hwiring, hwritten, List.append_nil]
    exact b.output_handled op

/-! ## instructions -/

/-- A deed that executes an instruction. -/
theorem laws_of_record? {b : Bench} {d : Deed} {s : Step} (hrecord : b.record? d = some s)
    (hreads : b.reads d = s.byteRead?.isSome) (hwritten : b.written d = s.byteWritten?.toList)
    (hsupplied : b.supplied d = []) (hdrained : b.drained d = []) :
    b.InputLaw d ∧ b.OutputLaw d := by
  obtain ⟨m, m', hm, hstep, hm'⟩ := step_of_record? hrecord
  have hw : b.wiring = m.device.wiring := congrArg Session.wiring hm
  have hw' : (b.act d).wiring = m'.device.wiring := congrArg Session.wiring hm'
  have hstored : ∀ v, s.byteRead? = some v → b.stored? d = some v := by
    intro v hv
    rw [hv] at hreads
    rw [stored?, hreads, hm', ← Machine.value_of_step hstep hv]
    rfl
  constructor
  · obtain ⟨ha, h⟩ | ⟨v, ha, h⟩ | ⟨ha, hempty, h, hclosed⟩ := Machine.input_of_step hstep
    · rw [ha] at hreads
      refine .idle (stored?_of_not_reads hreads) ?_
      rw [hw, hw', h, hsupplied, List.append_nil]
    · exact .taken (hstored v ha) hsupplied (by rw [hw, hw', h])
    · exact .ended (hstored 0 ha) hsupplied (by rw [hw, hempty]) (by rw [hw, hclosed])
        (by rw [hw', h])
  · obtain ⟨ha, h⟩ | ⟨v, ha, h⟩ := Machine.output_of_step hstep
    · rw [ha] at hwritten
      exact outputLaw_of_unchanged hwritten hdrained (by rw [hw, hw', h])
    · rw [ha] at hwritten
      exact outputLaw_of_put hwritten hdrained (by rw [hw, hw', h])

/-- A deed that executes the next instruction, or finds that it cannot. -/
theorem laws_of_instruction {d : Deed} (hd : d = .step ∨ d = .advance) (b : Bench) :
    b.InputLaw d ∧ b.OutputLaw d := by
  have hhand : ∀ op, d ≠ .hand op := by obtain rfl | rfl := hd <;> nofun
  have hsupplied : b.supplied d = [] := by obtain rfl | rfl := hd <;> rfl
  have hdrained : b.drained d = [] := by obtain rfl | rfl := hd <;> rfl
  obtain ⟨hreads, hwritten⟩ := b.reads_of_not_hand hhand
  cases hrecord : b.record? d with
  | none =>
    rw [hrecord] at hreads hwritten
    have hw : (b.act d).wiring = b.wiring := by rw [wiring, session_of_idle hd hrecord, wiring]
    exact ⟨inputLaw_of_unchanged hreads hsupplied (by rw [hw]),
      outputLaw_of_unchanged hwritten hdrained (by rw [hw])⟩
  | some s =>
    rw [hrecord] at hreads hwritten
    exact laws_of_record? hrecord hreads hwritten hsupplied hdrained

end Bench

/-! ## changes by hand -/

/-- A read that fails or waits changes nothing.  One that succeeds stores the
byte that has waited longest, or zero at the end of the input. -/
theorem Device.read_cases (d : Device) :
    (∃ answer, answer ≠ .done ∧ d.read = (answer, d)) ∨
    (∃ v q, d.wiring.input.take? = some (v, q) ∧ d.read =
      (.done, Device.announce ⟨d.tape.store v, { d.wiring with input := q }⟩ .inputRead)) ∨
    (d.wiring.input.pending = [] ∧ d.wiring.input.closed = true ∧
      d.read = (.done, Device.announce ⟨d.tape.store 0, d.wiring⟩ .inputRead)) := by
  unfold read
  cases hi : d.wiring.intake with
  | waiting => exact .inl ⟨.waiting, nofun, rfl⟩
  | cancelled => exact .inl ⟨.refused .cancelled, nofun, rfl⟩
  | byte v rest =>
    obtain ⟨-, q, hq, rfl⟩ := (Wiring.intake_eq_byte_iff _ _ _).mp hi
    exact .inr (.inl ⟨v, q, hq, rfl⟩)
  | ended =>
    obtain ⟨-, hempty, hclosed⟩ := (Wiring.intake_eq_ended_iff _).mp hi
    exact .inr (.inr ⟨hempty, hclosed, rfl⟩)

namespace Bench

theorem stored?_of_read {dev dev' : Device} (h : dev.read = (.done, dev')) :
    (resting (.tape dev)).stored? (.hand .read) = some dev'.tape.value := by
  have hreads : (resting (.tape dev)).reads (.hand .read) = true :=
    decide_eq_true (congrArg Prod.fst h)
  rw [stored?, if_pos hreads, act, h]
  rfl

theorem laws_of_read (dev : Device) :
    (resting (.tape dev)).InputLaw (.hand .read) ∧ (resting (.tape dev)).OutputLaw (.hand .read) := by
  obtain ⟨answer, hanswer, h⟩ | ⟨v, q, hq, h⟩ | ⟨hempty, hclosed, h⟩ := dev.read_cases
  · have hreads : dev.read.1 ≠ .done := by rwa [h]
    exact ⟨inputLaw_of_unchanged (decide_eq_false hreads) rfl (by rw [act, h]),
      outputLaw_of_unchanged rfl rfl (by rw [act, h])⟩
  · have hstored := stored?_of_read h
    rw [Device.announce, Tape.value_store] at hstored
    refine ⟨.taken hstored rfl ?_, outputLaw_of_unchanged rfl rfl (by rw [act, h]; rfl)⟩
    rw [act, h]
    exact Pipe.pending_of_take? hq
  · have hstored := stored?_of_read h
    rw [Device.announce, Tape.value_store] at hstored
    refine ⟨.ended hstored rfl hempty hclosed ?_,
      outputLaw_of_unchanged rfl rfl (by rw [act, h]; rfl)⟩
    rw [act, h]
    exact hempty

theorem laws_of_hand (b : Bench) (op : TapeOp) :
    b.InputLaw (.hand op) ∧ b.OutputLaw (.hand op) := by
  match b with
  | .running _ | .resting (.machine _) | .resting (.dropped _) =>
    cases op <;> exact ⟨inputLaw_of_unchanged rfl rfl rfl, outputLaw_of_unchanged rfl rfl rfl⟩
  | .resting (.tape dev) =>
    cases op with
    | increment | decrement | load =>
      exact ⟨inputLaw_of_unchanged rfl rfl rfl, outputLaw_of_unchanged rfl rfl rfl⟩
    | move dir =>
      have hact : ((resting (.tape dev)).act (.hand (.move dir))).wiring.input = dev.wiring.input ∧
          ((resting (.tape dev)).act (.hand (.move dir))).wiring.output = dev.wiring.output := by
        simp only [act, Session.byHand, Device.move]
        cases dev.tape.move? dir <;> exact ⟨rfl, rfl⟩
      exact ⟨inputLaw_of_unchanged rfl rfl hact.1, outputLaw_of_unchanged rfl rfl hact.2⟩
    | write => exact ⟨inputLaw_of_unchanged rfl rfl rfl, outputLaw_of_put rfl rfl rfl⟩
    | read => exact laws_of_read dev

/-! ## histories -/

theorem laws_of_act (b : Bench) (d : Deed) : b.InputLaw d ∧ b.OutputLaw d := by
  cases d with
  | handle op => exact b.laws_of_handle op
  | hand op => exact b.laws_of_hand op
  | step => exact laws_of_instruction (.inl rfl) b
  | advance => exact laws_of_instruction (.inr rfl) b
  | _ => exact laws_of_isQuiet rfl b

theorem input_of_act (b : Bench) (d : Deed) :
    b.wiring.input.pending ++ b.supplied d = b.popped d ++ (b.act d).wiring.input.pending := by
  unfold popped
  cases (b.laws_of_act d).1 with
  | idle hstored h => simp [hstored, h]
  | taken hstored hsupplied h => simp [hstored, hsupplied, h]
  | ended hstored hsupplied hempty _ h => simp [hsupplied, hempty, h]

/-- What waited and was supplied is what was taken and still waits. -/
theorem input_of_play (b : Bench) (ds : List Deed) :
    b.wiring.input.pending ++ gather supplied b ds =
      gather popped b ds ++ (b.play ds).wiring.input.pending := by
  induction ds generalizing b with
  | nil => simp [gather, play]
  | cons d ds ih =>
    calc b.wiring.input.pending ++ gather supplied b (d :: ds)
        = (b.wiring.input.pending ++ b.supplied d) ++ gather supplied (b.act d) ds := by
          rw [gather_cons, List.append_assoc]
      _ = b.popped d ++ ((b.act d).wiring.input.pending ++ gather supplied (b.act d) ds) := by
          rw [input_of_act, List.append_assoc]
      _ = gather popped b (d :: ds) ++ (b.play (d :: ds)).wiring.input.pending := by
          rw [ih, gather_cons, play_cons, List.append_assoc]

theorem log_of_play (b : Bench) (ds : List Deed) :
    (b.play ds).wiring.emitted = b.wiring.emitted ++ gather written b ds := by
  induction ds generalizing b with
  | nil => simp [gather, play]
  | cons d ds ih =>
    rw [play_cons, ih, (b.laws_of_act d).2.log, gather_cons, List.append_assoc]

/-- What waited and was written is what was drained and still waits. -/
theorem output_of_play (b : Bench) (ds : List Deed) :
    b.wiring.output.pending ++ gather written b ds =
      gather drained b ds ++ (b.play ds).wiring.output.pending := by
  induction ds generalizing b with
  | nil => simp [gather, play]
  | cons d ds ih =>
    calc b.wiring.output.pending ++ gather written b (d :: ds)
        = (b.wiring.output.pending ++ b.written d) ++ gather written (b.act d) ds := by
          rw [gather_cons, List.append_assoc]
      _ = b.drained d ++ ((b.act d).wiring.output.pending ++ gather written (b.act d) ds) := by
          rw [(b.laws_of_act d).2.queue, List.append_assoc]
      _ = gather drained b (d :: ds) ++ (b.play (d :: ds)).wiring.output.pending := by
          rw [ih, gather_cons, play_cons, List.append_assoc]

/-- Whoever drains is told of the end only when it has been announced and nothing is queued. -/
theorem ended_of_drain {b : Bench} (h : (b.session.handle .drain).answer = .drained none) :
    b.wiring.output.closed = true ∧ b.wiring.output.pending = [] := by
  have hw : b.session.wiring = b.wiring := rfl
  simp only [Session.handle, hw, Wiring.drain] at h
  cases ht : b.wiring.output.take? with
  | some x => simp [ht, Session.tell] at h
  | none =>
    cases hclosed : b.wiring.output.closed with
    | false => simp [ht, hclosed, Session.tell] at h
    | true => exact ⟨rfl, (Pipe.take?_eq_none_iff _).mp ht⟩

/-- Whatever happens to a tape, and whoever does it: the bytes supplied are those
read, in order, and those still queued; a read that takes none finds the input
at its end; the log holds every byte written, which are those drained, in order,
and those still queued; it only grows; and a drain is told of the end only at
the end. -/
theorem bytes_conserved (capacity : Nat) (policy : PointerPolicy) (ds : List Deed) :
    let start := resting (.tape (.blank capacity policy))
    let b := start.play ds
    gather supplied start ds = gather popped start ds ++ b.wiring.input.pending ∧
      (∀ d v, b.stored? d = some v →
        b.wiring.input.pending = v :: (b.act d).wiring.input.pending ∨
          v = 0 ∧ b.wiring.input.pending = [] ∧ b.wiring.input.closed = true) ∧
      b.wiring.emitted = gather written start ds ∧
      b.wiring.emitted = gather drained start ds ++ b.wiring.output.pending ∧
      (∀ ds', b.wiring.emitted <+: (b.play ds').wiring.emitted) ∧
      ((b.session.handle .drain).answer = .drained none →
        b.wiring.output.closed = true ∧ b.wiring.output.pending = []) := by
  intro start b
  have hlog : b.wiring.emitted = gather written start ds := log_of_play start ds
  refine ⟨start.input_of_play ds, fun d v hv => ?_, hlog, ?_, fun ds' => ?_, ended_of_drain⟩
  · cases (b.laws_of_act d).1 with
    | idle hstored _ =>
      rw [hstored] at hv
      cases hv
    | taken hstored _ h =>
      rw [hstored] at hv
      obtain rfl := Option.some.inj hv
      exact .inl h
    | ended hstored _ hempty hclosed _ =>
      rw [hstored] at hv
      exact .inr ⟨(Option.some.inj hv).symm, hempty, hclosed⟩
  · rw [hlog]
    exact start.output_of_play ds
  · exact ⟨_, (log_of_play b ds').symm⟩

end Bench

end Brainfuck
