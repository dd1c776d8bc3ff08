import Brainfuck.Proofs.Mirroring

/-!
# Brainfuck.Proofs.Replay

The records of a machine are enough to do again what it has done.

A `Replica` is kept by someone who has copied the tape once and then sees nothing
but the actions in the records: not the program, not its brackets, and not the
bytes that wait for it.  `Replica.follow` does again what an action says, and each
record must show what the replica has come to just before (`Replica.Shows`):

* `Performs.redo`, `Performs.truthful` — an action says all that its instruction
  does, and nothing that is not so;
* `follow_of_step` — for one step;
* `replica_of_idle`, `replays_of_act` — nobody else can change what is replayed;
* `replays_of_play` — so it is for every history;
* `Replays.eq_replay`, `Replays.at_record` — what a replay says of each record;
* `trace_determines_run` — all of it together.
-/

namespace Brainfuck

/-! ## doing again what an action says -/

/-- The position from which execution goes on, after an action at position `ip`. -/
def Action.next (a : Action) (ip : Nat) : Nat :=
  match a with
  | .jumpedForward target | .jumpedBack target => target + 1
  | _ => ip + 1

/-- Puts a value into the current cell of a copy. -/
def Picture.store (p : Picture) (v : UInt8) : Picture :=
  { p with cells := p.cells.setIfInBounds p.pointer v }

/-- Does again to a copy of the tape what an action says. -/
def Picture.redo (p : Picture) : Action → Picture
  | .moved target => { p with pointer := target, mark := max p.mark target }
  | .incremented _ after | .decremented _ after => p.store after
  | .read byte => p.store byte
  | .wrote _ | .jumpedForward _ | .enteredLoop | .jumpedBack _ | .exitedLoop | .fellThrough
  | .ignored => p

/-- What there is to replay of a machine. -/
structure Replica where
  picture : Picture
  ip : Nat
  output : List UInt8
deriving DecidableEq

/-- What there is to replay of this machine. -/
def Machine.replica (m : Machine) : Replica :=
  ⟨m.device.tape.picture, m.ip, m.device.wiring.emitted⟩

/-- What the action of a record says of the cell that the instruction has met. -/
def Step.Truthful (s : Step) : Prop :=
  match s.action with
  | .incremented before after => before = s.cell ∧ after = s.cell + 1
  | .decremented before after => before = s.cell ∧ after = s.cell - 1
  | .wrote byte => byte = s.cell
  | .enteredLoop | .jumpedBack _ => s.cell ≠ 0
  | .jumpedForward _ | .exitedLoop => s.cell = 0
  | .moved _ | .read _ | .fellThrough | .ignored => True

namespace Replica

/-- Does again what an action says. -/
def follow (r : Replica) (a : Action) : Replica :=
  ⟨r.picture.redo a, a.next r.ip, r.output ++ a.byteWritten?.toList⟩

/-- Does again what the records say, one after the other. -/
def replay (r : Replica) (ss : List Step) : Replica := ss.foldl (fun r s => r.follow s.action) r

/-- The record shows what the replica has come to. -/
structure Shows (r : Replica) (s : Step) : Prop where
  ip : s.ip = r.ip
  pointer : s.pointer = r.picture.pointer
  cell : r.picture.cells[r.picture.pointer]? = some s.cell

/-- `r.Replays ss r'`: each record of `ss` is true, and shows what the records
before it have made of `r`; all of them make `r'` of it. -/
inductive Replays : Replica → List Step → Replica → Prop where
  | nil (r : Replica) : Replays r [] r
  | cons {r r' : Replica} {s : Step} {ss : List Step} (shows : r.Shows s) (truthful : s.Truthful)
      (rest : Replays (r.follow s.action) ss r') : Replays r (s :: ss) r'

variable {r r₁ r' : Replica} {s : Step} {ss ts : List Step}

theorem Replays.append (h : r.Replays ss r₁) (h' : r₁.Replays ts r') : r.Replays (ss ++ ts) r' := by
  induction h with
  | nil => exact h'
  | cons hshows htruthful _ ih => exact .cons hshows htruthful (ih h')

theorem Replays.eq_replay (h : r.Replays ss r') : r' = r.replay ss := by
  induction h with
  | nil => rfl
  | cons _ _ _ ih => exact ih

/-- What a replay says of a record in its midst. -/
theorem Replays.at_record (h : r.Replays (ss ++ s :: ts) r') :
    (r.replay ss).Shows s ∧ s.Truthful ∧ ((r.replay ss).follow s.action).Replays ts r' := by
  induction ss generalizing r with
  | nil =>
    cases h with
    | cons hshows htruthful hrest => exact ⟨hshows, htruthful, hrest⟩
  | cons s₀ ss ih =>
    cases h with
    | cons _ _ hrest => exact ih hrest

/-- One record tells where the next one is. -/
theorem Replays.ip_eq_next {t : Step} (h : r.Replays (ss ++ s :: t :: ts) r') :
    t.ip = s.action.next s.ip := by
  obtain ⟨hshows, -, hrest⟩ := h.at_record
  cases hrest with
  | cons hshows' _ _ => rw [hshows'.ip, hshows.ip, follow]

end Replica

/-! ## instructions -/

namespace Machine

variable {m m' : Machine} {i : Instruction} {a : Action} {j : Nat} {d : Device}

/-- An action says what its instruction does to the tape. -/
theorem Performs.redo (h : m.Performs i a j d) : m.device.tape.picture.redo a = d.tape.picture := by
  have hstore (v : UInt8) : m.device.tape.picture.store v = (m.device.tape.store v).picture :=
    (congrArg (Picture.mk · _ _) (m.device.tape.cells_store v)).symm
  cases h with
  | move h =>
    obtain ⟨index, -, rfl⟩ := Option.map_eq_some_iff.mp h
    rfl
  | increment | decrement => exact hstore _
  | readByte => exact hstore _
  | readEnd => exact hstore 0
  | write | enterLoop | jumpForward | passStart | exitLoop | jumpBack | passEnd | comment => rfl

/-- It says where execution goes on. -/
theorem Performs.next (h : m.Performs i a j d) : a.next m.ip = j + 1 := by
  cases h <;> rfl

/-- It says what is written. -/
theorem Performs.emitted (h : m.Performs i a j d) :
    d.wiring.emitted = m.device.wiring.emitted ++ a.byteWritten?.toList := by
  obtain ⟨ha, houtput⟩ | ⟨b, ha, houtput⟩ := h.output
  · rw [ha, Wiring.emitted, houtput, Option.toList_none, List.append_nil, Wiring.emitted]
  · rw [ha, Wiring.emitted, houtput]
    exact Wiring.emitted_emit _ b

/-- It says nothing else. -/
theorem Performs.truthful {c : Char} (h : m.Performs i a j d) :
    ({ m.sight c with action := a } : Step).Truthful := by
  cases h with
  | increment | decrement => exact ⟨rfl, rfl⟩
  | write => exact rfl
  | enterLoop h | jumpForward h | exitLoop h | jumpBack h => exact h
  | move | readByte | readEnd | passStart | passEnd | comment => trivial

/-- A step does what its record says, and the record shows the machine before it. -/
theorem follow_of_step {s : Step} (h : m.step = (.stepped s, m')) :
    m.replica.Shows s ∧ s.Truthful ∧ m.replica.follow s.action = m'.replica := by
  obtain ⟨c, a, j, d, -, hp, rfl, rfl⟩ := step_eq_stepped_iff.mp h
  have hcell : m.device.tape.cells[m.device.tape.pointer]? = some m.device.tape.value :=
    Array.getElem?_eq_getElem m.device.tape.pointer_lt
  have hfollow : m.replica.follow a = (m.proceeded j d).replica := by
    rw [Replica.follow, replica, hp.redo, hp.next, ← hp.emitted]
    rfl
  exact ⟨⟨rfl, rfl, hcell⟩, hp.truthful, hfollow⟩

end Machine

/-! ## histories -/

namespace Bench

variable {b : Bench} {m : Machine} {d : Deed} {ds : List Deed}

/-- What is replayed changes only with a record, as long as the machine has its tape. -/
theorem replica_of_idle (hm : b.session = .machine m) (hrecord : b.record? d = none)
    (hrelease : d ≠ .release) (hdrop : d ≠ .drop) :
    ∃ m', (b.act d).session = .machine m' ∧ m'.replica = m.replica := by
  have hsame : (b.act d).session = b.session →
      ∃ m', (b.act d).session = .machine m' ∧ m'.replica = m.replica :=
    fun h => ⟨m, h.trans hm, rfl⟩
  cases d with
  | step => exact hsame (session_of_idle (.inl rfl) hrecord)
  | advance => exact hsame (session_of_idle (.inr rfl) hrecord)
  | handle op =>
    rw [act_handle, session_mapWiring, hm]
    refine ⟨m.mapWiring (·.handled op), rfl, ?_⟩
    exact congrArg (Replica.mk _ _) (Wiring.emitted_handled _ op)
  | feed id op =>
    cases ho : b.session.feed? id op with
    | none => exact hsame (by simp only [act, ho])
    | some o =>
      obtain ⟨audience, hwiring⟩ := Session.wiring_of_feed? ho
      have hact : b.act (.feed id op) = b.mapWiring fun _ => o.session.wiring := by
        simp only [act, ho]
      rw [hact, session_mapWiring, hwiring, hm]
      exact ⟨_, rfl, rfl⟩
  | view op =>
    cases b with
    | running r => exact hsame rfl
    | resting s =>
      obtain rfl : s = .machine m := hm
      obtain ⟨audience, hview⟩ := (Session.machine m).exists_session_view m.device op
      exact ⟨_, hview, rfl⟩
  | hand op =>
    cases b with
    | running r => exact hsame (by cases op <;> rfl)
    | resting s =>
      obtain rfl : s = .machine m := hm
      exact hsame (by cases op <;> rfl)
  | start | setLimit | setDelay | setMode =>
    cases b with
    | running r => exact hsame rfl
    | resting s =>
      obtain rfl : s = .machine m := hm
      exact ⟨_, rfl, rfl⟩
  | finish =>
    cases b with
    | resting s => exact hsame (by cases s <;> rfl)
    | running r =>
      have hact : ((running r).act .finish).session = (running r).session := by
        rw [act]
        split <;> rfl
      exact hsame hact
  | release => exact absurd rfl hrelease
  | drop => exact absurd rfl hdrop

theorem replays_of_act (hm : b.session = .machine m) (hrelease : d ≠ .release) (hdrop : d ≠ .drop) :
    ∃ m', (b.act d).session = .machine m' ∧ m.replica.Replays (b.record? d).toList m'.replica := by
  cases hrecord : b.record? d with
  | none =>
    obtain ⟨m', hm', heq⟩ := replica_of_idle hm hrecord hrelease hdrop
    exact ⟨m', hm', heq ▸ .nil _⟩
  | some s =>
    obtain ⟨m₁, m', hm₁, hstep, hm'⟩ := step_of_record? hrecord
    obtain rfl := Session.machine.inj (hm.symm.trans hm₁)
    obtain ⟨hshows, htruthful, hfollow⟩ := Machine.follow_of_step hstep
    exact ⟨m', hm', .cons hshows htruthful (hfollow ▸ .nil _)⟩

theorem replays_of_play (hm : b.session = .machine m) (hrelease : .release ∉ ds)
    (hdrop : .drop ∉ ds) :
    ∃ m', (b.play ds).session = .machine m' ∧
      m.replica.Replays (b.records ds) m'.replica := by
  induction ds generalizing b m with
  | nil => exact ⟨m, hm, .nil _⟩
  | cons d ds ih =>
    obtain ⟨hrelease₁, hrelease⟩ := List.ne_and_not_mem_of_not_mem_cons hrelease
    obtain ⟨hdrop₁, hdrop⟩ := List.ne_and_not_mem_of_not_mem_cons hdrop
    obtain ⟨m₁, hm₁, hreplays⟩ := replays_of_act hm (Ne.symm hrelease₁) (Ne.symm hdrop₁)
    obtain ⟨m', hm', hrest⟩ := ih hm₁ hrelease hdrop
    rw [play_cons, records_cons]
    exact ⟨m', hm', hreplays.append hrest⟩

/-- **The records determine the run.**  However a machine is stepped and run, and
whatever others do with its connections meanwhile: replaying the actions of the
records on a copy of its tape, one meets each record where it was made, and ends
with the tape, the position and the output that the machine ends with.  Each
record tells where the next one is, and none says what is not so. -/
theorem trace_determines_run (hm : b.session = .machine m) (hrelease : .release ∉ ds)
    (hdrop : .drop ∉ ds) :
    let ss := b.records ds
    (∃ m', (b.play ds).session = .machine m' ∧ m'.replica = m.replica.replay ss) ∧
      (∀ s ts, ss = s :: ts → s.ip = m.ip) ∧
      (∀ us s t ts, ss = us ++ s :: t :: ts → t.ip = s.action.next s.ip) ∧
      ∀ us s ts, ss = us ++ s :: ts → (m.replica.replay us).Shows s ∧ s.Truthful := by
  intro ss
  obtain ⟨m', hm', hreplays⟩ := replays_of_play hm hrelease hdrop
  refine ⟨⟨m', hm', hreplays.eq_replay⟩, fun s ts hss => ?_, fun us s t ts hss => ?_,
    fun us s ts hss => ?_⟩
  · have h : m.replica.Replays ([] ++ s :: ts) m'.replica := hss ▸ hreplays
    exact h.at_record.1.ip
  · have h : m.replica.Replays (us ++ s :: t :: ts) m'.replica := hss ▸ hreplays
    exact h.ip_eq_next
  · have h : m.replica.Replays (us ++ s :: ts) m'.replica := hss ▸ hreplays
    obtain ⟨hshows, htruthful, -⟩ := h.at_record
    exact ⟨hshows, htruthful⟩

/-- A loop that is stepped and then run, waits for its input, and is stopped behind
the jump back. -/
theorem replayed_without_program_or_input :
    let m := Machine.load ⟨#['-', '[', ',', '.', ']']⟩ (.blank 1 .strict)
    let b := resting (.machine m)
    let ds : List Deed :=
      [.step, .step, .step, .handle (.supply [65]), .setLimit (some 4), .start] ++
      List.replicate 8 .advance ++ [.handle .drain] ++ List.replicate 3 .advance ++
      [.finish, .step, .step]
    .release ∉ ds ∧ .drop ∉ ds ∧ (b.records ds).length = 5 ∧
      ∃ m', (b.play ds).session = .machine m' ∧ m'.replica = ⟨⟨#[65], 0, 0⟩, 2, [65]⟩ := by
  intro m b ds
  have hrelease : .release ∉ ds := by simp [ds]
  have hdrop : .drop ∉ ds := by simp [ds]
  obtain ⟨⟨m', hm', hreplay⟩, -⟩ := trace_determines_run (b := b) rfl hrelease hdrop
  have hend : m.replica.replay (b.records ds) = ⟨⟨#[65], 0, 0⟩, 2, [65]⟩ := by decide +kernel
  exact ⟨hrelease, hdrop, by decide +kernel, m', hm', hreplay.trans hend⟩

end Bench

end Brainfuck
