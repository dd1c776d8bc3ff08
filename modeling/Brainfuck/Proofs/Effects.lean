import Brainfuck.Proofs.Conservation
import Brainfuck.Proofs.Reach

/-!
# Brainfuck.Proofs.Effects

What a deed can do to the session on the bench, said once.

A deed depends on what is on the bench, and there are many combinations, but only
a few things ever come of them (`Bench.Effect`).  What a history keeps, it keeps
because each of these does; so proofs about histories need not ask again what
every single deed does:

* `hand_cases`, `instruction_cases` — the deeds that can change a tape;
* `effect_of_act` — all deeds.
-/

namespace Brainfuck

/-! ## changes by hand -/

/-- `d.Works d'`: with one mutation by hand, `d` becomes `d'`. -/
structure Device.Works (d d' : Device) : Prop where
  touches : d.tape.Touches d'.tape
  cancelled : d'.wiring.cancelled = d.wiring.cancelled
  audience : ∃ c, d'.wiring.audience = d.wiring.audience.post c

namespace Device

theorem works_announce (d : Device) {t : Tape} (w : Wiring) (htape : d.tape.Touches t)
    (hcancelled : w.cancelled = d.wiring.cancelled) (haudience : w.audience = d.wiring.audience)
    (kind : ChangeKind) : d.Works (announce ⟨t, w⟩ kind) where
  touches := htape
  cancelled := hcancelled
  audience := ⟨_, congrArg (Audience.post · _) haudience⟩

/-- A move that is refused changes nothing. -/
theorem move_eq_or_works (d : Device) (dir : Direction) :
    (d.move dir).2 = d ∨ d.Works (d.move dir).2 := by
  rw [move]
  cases h : d.tape.move? dir with
  | none => exact .inl rfl
  | some t => exact .inr (d.works_announce d.wiring (Tape.touches_of_move? h) rfl rfl .pointerMoved)

/-- So does a read that is refused, or would have to wait. -/
theorem read_eq_or_works (d : Device) : d.read.2 = d ∨ d.Works d.read.2 := by
  obtain ⟨answer, -, h⟩ | ⟨v, q, -, h⟩ | ⟨-, -, h⟩ := d.read_cases <;> rw [h]
  · exact .inl rfl
  · exact .inr (d.works_announce { d.wiring with input := q } (.store v) rfl rfl .inputRead)
  · exact .inr (d.works_announce d.wiring (.store 0) rfl rfl .inputRead)

end Device

namespace Bench

variable {b : Bench} {d : Deed}

theorem session_of_move (dev : Device) (dir : Direction) :
    ((resting (.tape dev)).act (.hand (.move dir))).session = .tape (dev.move dir).2 := by
  simp only [act, Session.byHand]
  cases h : dev.move dir with
  | mk answer dev' => cases answer <;> rfl

/-- Who changes a tape by hand mutates it, binds it to a program, or is refused. -/
theorem hand_cases (b : Bench) (op : TapeOp) :
    (b.act (.hand op)).session = b.session ∨
    (∃ dev p, b.session = .tape dev ∧ (b.act (.hand op)).session = .machine (.load p dev)) ∨
    ∃ dev dev', b.session = .tape dev ∧ (b.act (.hand op)).session = .tape dev' ∧
      dev.Works dev' := by
  match b with
  | .running _ | .resting (.machine _) | .resting (.dropped _) =>
    exact .inl (by cases op <;> rfl)
  | .resting (.tape dev) =>
    cases op with
    | move dir =>
      rw [session_of_move]
      obtain h | h := dev.move_eq_or_works dir
      · exact .inl (congrArg Session.tape h)
      · exact .inr (.inr ⟨dev, _, rfl, rfl, h⟩)
    | increment =>
      have hworks : dev.Works dev.increment := dev.works_announce _ (.store _) rfl rfl _
      exact .inr (.inr ⟨dev, _, rfl, rfl, hworks⟩)
    | decrement =>
      have hworks : dev.Works dev.decrement := dev.works_announce _ (.store _) rfl rfl _
      exact .inr (.inr ⟨dev, _, rfl, rfl, hworks⟩)
    | write =>
      have hworks : dev.Works dev.write :=
        dev.works_announce (dev.wiring.emit dev.tape.value) .same rfl rfl _
      exact .inr (.inr ⟨dev, _, rfl, rfl, hworks⟩)
    | read =>
      obtain h | h := dev.read_eq_or_works
      · exact .inl (congrArg Session.tape h)
      · exact .inr (.inr ⟨dev, _, rfl, rfl, h⟩)
    | load p => exact .inr (.inl ⟨dev, p, rfl, rfl⟩)

/-- A deed of the machine executes one instruction or none. -/
theorem instruction_cases (hd : d = .step ∨ d = .advance) (b : Bench) :
    (b.act d).session = b.session ∨
    ∃ m s m', b.session = .machine m ∧ m.step = (.stepped s, m') ∧
      (b.act d).session = .machine m' := by
  cases hrecord : b.record? d with
  | none => exact .inl (session_of_idle hd hrecord)
  | some s =>
    obtain ⟨m, m', hm, hstep, hm'⟩ := step_of_record? hrecord
    exact .inr ⟨m, s, m', hm, hstep, hm'⟩

/-! ## all deeds -/

/-- What becomes of the session. -/
inductive Effect (b : Bench) (d : Deed) : Prop where
  | handled {op : HandleOp} (hd : d = .handle op)
      (h : (b.act d).session = b.session.mapWiring (·.handled op))
  /-- At most those who listen have changed, or their feeds. -/
  | listened (a : Audience)
      (h : (b.act d).session = b.session.mapWiring fun w => { w with audience := a })
  | stepped {m m' : Machine} {s : Step} (hm : b.session = .machine m)
      (hstep : m.step = (.stepped s, m')) (h : (b.act d).session = .machine m')
  | worked {dev dev' : Device} (hdev : b.session = .tape dev) (hworks : dev.Works dev')
      (h : (b.act d).session = .tape dev')
  | loaded {dev : Device} (p : Program) (hdev : b.session = .tape dev)
      (h : (b.act d).session = .machine (.load p dev))
  | adjusted {m : Machine} (limit : Option Nat) (delay : Nat) (mode : BracketMode)
      (hm : b.session = .machine m)
      (h : (b.act d).session = .machine { m with limit := limit, delay := delay, mode := mode })
  | released {m : Machine} (hm : b.session = .machine m) (h : (b.act d).session = .tape m.device)
  | dropped (h : (b.act d).session = .dropped b.wiring)

theorem effect_of_same (h : (b.act d).session = b.session) : b.Effect d := by
  refine .listened b.wiring.audience ?_
  rw [h, wiring]
  cases b.session <;> rfl

theorem effect_of_act (b : Bench) (d : Deed) : b.Effect d := by
  cases d with
  | handle op => exact .handled rfl (by rw [act_handle, session_mapWiring])
  | feed id op =>
    cases ho : b.session.feed? id op with
    | none => exact effect_of_same (by simp only [act, ho])
    | some o =>
      obtain ⟨a, ha⟩ := Session.wiring_of_feed? ho
      refine .listened a ?_
      simp only [act, ho, session_mapWiring, ha]
      cases b.session <;> rfl
  | view op =>
    cases b with
    | running r => exact effect_of_same rfl
    | resting s =>
      cases hs : s.device? with
      | none => exact effect_of_same (by simp only [act, hs])
      | some dev =>
        obtain ⟨a, ha⟩ := s.exists_session_view dev op
        exact .listened a (by simp only [act, hs]; exact ha)
  | hand op =>
    obtain h | ⟨dev, p, hdev, h⟩ | ⟨dev, dev', hdev, h, hworks⟩ := b.hand_cases op
    · exact effect_of_same h
    · exact .loaded p hdev h
    · exact .worked hdev hworks h
  | step =>
    obtain h | ⟨m, s, m', hm, hstep, h⟩ := instruction_cases (.inl rfl) b
    · exact effect_of_same h
    · exact .stepped hm hstep h
  | advance =>
    obtain h | ⟨m, s, m', hm, hstep, h⟩ := instruction_cases (.inr rfl) b
    · exact effect_of_same h
    · exact .stepped hm hstep h
  | finish =>
    cases b with
    | resting s => exact effect_of_same (by cases s <;> rfl)
    | running r =>
      refine effect_of_same ?_
      rw [act]
      split <;> rfl
  | setLimit | setDelay | setMode | start =>
    cases b with
    | running r => exact effect_of_same rfl
    | resting s =>
      cases s with
      | machine m => exact .adjusted _ _ _ rfl rfl
      | tape | dropped => exact effect_of_same rfl
  | release =>
    cases b with
    | running r => exact effect_of_same rfl
    | resting s =>
      cases s with
      | machine m => exact .released rfl rfl
      | tape | dropped => exact effect_of_same rfl
  | drop =>
    cases b with
    | running r => exact effect_of_same rfl
    | resting s => cases s <;> exact .dropped rfl

end Bench

end Brainfuck
