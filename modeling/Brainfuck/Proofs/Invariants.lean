import Brainfuck.Proofs.Listeners
import Brainfuck.Proofs.Words

/-!
# Brainfuck.Proofs.Invariants

What is true of a tape and of the machine it is bound to at every point of their
lives.

* `tape_of_act`, `visited_of_play` — a deed does at most one thing to the tape
  (`Tape.Touches`), so the places where its pointer has stood account for its
  mark and for the cells that are not zero;
* `position_of_act`, `position_of_play` — the position of a machine is in its
  program or right behind it, also when the tape goes from one program to the next;
* `subscribe?_of_play` — the ids of the listeners are used up by subscribing, and by
  nothing else;
* `invariants_of_play` — and with these it is known what breaks down on plain memory
  (`Brainfuck.Proofs.Words`): nothing but the subscription for which there is no id left;
* `ids_run_out` — which can come, on a tape that nobody has ever changed.
-/

namespace Brainfuck

/-! ## what is true of a tape and of a machine -/

/-- A tape of this capacity and policy whose pointer has stood on the cells `held`,
one after the other. -/
structure Tape.Charted (t : Tape) (capacity : Nat) (policy : PointerPolicy) (held : List Nat) :
    Prop where
  capacity : t.capacity = max capacity 1
  policy : t.policy = policy
  pointer_le : t.pointer ≤ t.mark
  mark_lt : t.mark < t.capacity
  mark : held.max? = some t.mark
  zero : ∀ i < t.capacity, i ∉ held → t.value? i = some 0

/-- A machine in its program, or right behind it, where no step does anything. -/
structure Machine.Placed (m : Machine) : Prop where
  ip_le : m.ip ≤ m.program.size
  finished_iff : m.isFinished = true ↔ m.ip = m.program.size
  step : m.isFinished = true → m.step = (.finished, m)

theorem Tape.Visited.charted {t t' : Tape} {held : List Nat} (h : t'.Visited held)
    (hframe : t'.policy = t.policy ∧ t'.capacity = t.capacity) {capacity : Nat}
    {policy : PointerPolicy} (ht : t = .blank capacity policy) :
    t'.Charted capacity policy held where
  capacity := by rw [hframe.2, ht, capacity_blank]
  policy := by rw [hframe.1, ht]; rfl
  pointer_le := t'.pointer_le
  mark_lt := t'.mark_lt
  mark := List.max?_eq_some_iff.mpr ⟨h.mark, h.le_mark⟩
  zero i hi hheld := by rw [value?_eq_cell hi, h.zero i hheld]

theorem Machine.placed_of_ip_le {m : Machine} (h : m.ip ≤ m.program.size) : m.Placed where
  ip_le := h
  finished_iff := by
    rw [isFinished, decide_eq_true_iff]
    exact ⟨fun hf => Nat.le_antisymm h hf, fun heq => Nat.le_of_eq heq.symm⟩
  step hf := step_eq_finished_iff.mpr ⟨rfl, hf⟩

namespace Bench

/-! ## the tape -/

/-- Where the pointer stands after a deed, unless the tape has been dropped. -/
def stands (b : Bench) (d : Deed) : List Nat := ((b.act d).tape?.map (·.pointer)).toList

variable {b : Bench} {d : Deed}

/-- What a deed does to a tape is one operation or none. -/
theorem tape_of_act {t' : Tape} (ht' : (b.act d).tape? = some t') :
    ∃ t, b.tape? = some t ∧ t.Touches t' := by
  rw [tape?] at ht'
  cases b.effect_of_act d with
  | handled _ h | listened _ h =>
    rw [h, Session.tape?_mapWiring] at ht'
    exact ⟨t', ht', .same⟩
  | @stepped m _ _ hm hstep h =>
    rw [h] at ht'
    cases ht'
    exact ⟨m.device.tape, by rw [tape?, hm]; rfl, Machine.touches_of_step hstep⟩
  | @worked dev _ hdev hworks h =>
    rw [h] at ht'
    cases ht'
    exact ⟨dev.tape, by rw [tape?, hdev]; rfl, hworks.touches⟩
  | loaded _ hs h | adjusted _ _ _ hs h | released hs h =>
    rw [h] at ht'
    cases ht'
    exact ⟨_, by rw [tape?, hs]; rfl, .same⟩
  | dropped h =>
    rw [h] at ht'
    cases ht'

/-- The places where the pointer has stood are those where it stands after each deed. -/
theorem visited_of_play {ds : List Deed} {t' : Tape} (ht' : (b.play ds).tape? = some t') :
    ∃ t, b.tape? = some t ∧ (t'.policy = t.policy ∧ t'.capacity = t.capacity) ∧
      ∀ held, t.Visited held → t'.Visited (held ++ gather stands b ds) := by
  induction ds generalizing b with
  | nil => exact ⟨t', ht', ⟨rfl, rfl⟩, fun held h => by simpa [gather] using h⟩
  | cons d ds ih =>
    obtain ⟨t₁, ht₁, hframe, hvisited⟩ := ih ht'
    obtain ⟨t, ht, htouches⟩ := tape_of_act ht₁
    obtain ⟨hpolicy, hcapacity⟩ := htouches.policy_capacity
    refine ⟨t, ht, ⟨hframe.1.trans hpolicy, hframe.2.trans hcapacity⟩, fun held h => ?_⟩
    have hstands : b.stands d = [t₁.pointer] := by
      rw [stands, ht₁]
      rfl
    rw [gather_cons, hstands, ← List.append_assoc]
    exact hvisited _ (htouches.visited h)

end Bench

/-! ## the position -/

/-- The program of a machine and the position in it. -/
def Session.position? : Session → Option (Program × Nat)
  | .machine m => some (m.program, m.ip)
  | .tape _ | .dropped _ => none

@[simp] theorem Session.position?_mapWiring (s : Session) (f : Wiring → Wiring) :
    (s.mapWiring f).position? = s.position? := by
  cases s <;> rfl

theorem Session.device?_subscribe {s : Session} {dev : Device} (h : s.device? = some dev) :
    (s.view dev .subscribe).session.device? = some dev.subscribed := by
  cases s <;> cases h <;> rfl

namespace Bench

variable {b : Bench} {d : Deed} {p : Program} {i : Nat}

/-- A deed leaves the position as it is, or leads to one in the program or right behind it. -/
theorem position_of_act (hpos : (b.act d).session.position? = some (p, i)) :
    b.session.position? = some (p, i) ∨ i ≤ p.size := by
  cases b.effect_of_act d with
  | handled _ h | listened _ h =>
    rw [h, Session.position?_mapWiring] at hpos
    exact .inl hpos
  | stepped _ hstep h =>
    obtain ⟨c, _, j, _, hc, hp, -, rfl⟩ := Machine.step_eq_stepped_iff.mp hstep
    rw [h] at hpos
    cases hpos
    exact .inr (hp.target_lt hc)
  | loaded _ _ h =>
    rw [h] at hpos
    cases hpos
    exact .inr (Nat.zero_le _)
  | adjusted _ _ _ hm h =>
    rw [h] at hpos
    rw [hm]
    exact .inl hpos
  | worked _ _ h | released _ h | dropped h =>
    rw [h] at hpos
    cases hpos

theorem position_of_play {ds : List Deed}
    (hb : ∀ p i, b.session.position? = some (p, i) → i ≤ p.size)
    (h : (b.play ds).session.position? = some (p, i)) : i ≤ p.size := by
  induction ds generalizing b with
  | nil => exact hb p i h
  | cons d ds ih => exact ih (fun p i hpos => (position_of_act hpos).elim (hb p i) id) h

/-! ## the ids of the listeners -/

/-- A subscription breaks down once all words but the last have been given out as ids. -/
theorem subscribe?_of_play {dev : Device} (hdev : dev.wiring.audience.nextId = 0)
    {ds : List Deed} {d' : Device}
    (hd' : ((resting (.tape dev)).play ds).session.device? = some d') :
    d'.plain.subscribe? =
      if (gather joined (resting (.tape dev)) ds).length + 1 < Word.bound then
        some (d'.wiring.audience.nextId, d'.subscribed.plain)
      else none := by
  have haudience : ((resting (.tape dev)).play ds).audience = d'.wiring.audience := by
    rw [audience, wiring, Session.wiring_of_device? hd']
  have hstart : (resting (.tape dev)).audience.nextId = 0 := hdev
  have hnext : d'.wiring.audience.nextId = (gather joined (resting (.tape dev)) ds).length := by
    rw [← haudience, nextId_of_play, hstart, Nat.zero_add]
  rw [Device.subscribe?_plain, hnext]

/-- Who comes where nobody listens, and leaves again, leaves nothing behind but an id that
is used up. -/
theorem act_visit {dev : Device} (hdev : dev.wiring.audience.ids = []) :
    let id := dev.wiring.audience.nextId
    ∃ dev', ((resting (.tape dev)).act (.view .subscribe)).act (.feed id .unsubscribe) =
        resting (.tape dev') ∧ dev'.tape = dev.tape ∧ dev'.wiring.audience.ids = [] ∧
      dev'.wiring.audience.nextId = id + 1 := by
  intro id
  have hcome : (resting (.tape dev)).act (.view .subscribe) = resting (.tape dev.subscribed) := rfl
  have hids : dev.subscribed.wiring.audience.ids = [id] := by
    have h : dev.subscribed.wiring.audience.ids = _ := Audience.ids_subscribe _
    rw [h, hdev, List.nil_append]
  have hhas : dev.subscribed.wiring.audience.has id = true :=
    Audience.has_iff_mem_ids.mpr (hids ▸ List.mem_singleton_self id)
  have hfeed : (Session.tape dev.subscribed).feed? id .unsubscribe = some _ := if_pos hhas
  have hgone : (dev.subscribed.wiring.audience.unsubscribe id).ids = [] := by
    rw [Audience.ids_unsubscribe, hids]
    simp
  refine ⟨{ dev with wiring := { dev.wiring with
    audience := dev.subscribed.wiring.audience.unsubscribe id } }, ?_, rfl, hgone, rfl⟩
  rw [hcome]
  simp only [act, session, hfeed]
  rfl

/-- So many listeners, the first of them under this id, who come and leave again one
after the other. -/
def visits (id : Nat) : Nat → List Deed
  | 0 => []
  | n + 1 => .view .subscribe :: .feed id .unsubscribe :: visits (id + 1) n

theorem play_visits {dev : Device} (hdev : dev.wiring.audience.ids = []) (n : Nat) :
    let start := resting (.tape dev)
    let ds := visits dev.wiring.audience.nextId n
    start.records ds = [] ∧ ∃ dev', start.play ds = resting (.tape dev') ∧ dev'.tape = dev.tape ∧
      dev'.wiring.audience.ids = [] ∧
      dev'.wiring.audience.nextId = dev.wiring.audience.nextId + n := by
  -- On the number of the listeners, so that a long history of them need not be computed.
  induction n generalizing dev with
  | zero => exact ⟨rfl, dev, rfl, rfl, hdev, rfl⟩
  | succ n ih =>
    intro start ds
    let id := dev.wiring.audience.nextId
    have hds : ds = .view .subscribe :: .feed id .unsubscribe :: visits (id + 1) n := rfl
    obtain ⟨left, hleft, htape₁, hids₁, hnext₁⟩ := act_visit hdev
    obtain ⟨hrecords, dev', hplay, htape, hids, hnext⟩ := ih hids₁
    rw [hnext₁] at hrecords hplay hnext
    refine ⟨?_, dev', ?_, htape.trans htape₁, hids, ?_⟩
    · rw [hds, records_cons, records_cons, hleft]
      exact hrecords
    · rw [hds, play_cons, play_cons, hleft]
      exact hplay
    · rw [hnext]
      exact Nat.succ_add_eq_add_succ id n

/-! ## histories -/

/-- Whatever happens to a tape that can be addressed, and whoever does it: capacity and
policy stay; the mark is the furthest place where the pointer has stood, and cells where
it has never stood are zero; a machine is in its program or right behind it, and is
finished exactly there; and on plain memory no change by hand breaks down, nor does a
step while the machine's count of steps is a word, and a subscription does so if and only
if the number of subscriptions, with this one, is no word. -/
theorem invariants_of_play {capacity : Nat} {policy : PointerPolicy} {dev : Device}
    (hdev : Device.blank? capacity policy = some dev) (ds : List Deed) :
    let start := resting (.tape dev)
    let b := start.play ds
    (∀ t, b.tape? = some t → t.Charted capacity policy (0 :: gather stands start ds)) ∧
      (∀ m, b.session = .machine m → m.Placed ∧
        (m.program.size < Word.bound → m.steps + 1 < Word.bound →
          m.plain.step? = some (m.step.1, m.step.2.plain))) ∧
      ∀ d, b.session.device? = some d → d.Sturdy ∧
        (b.session.view d .subscribe).session.device? = some d.subscribed ∧
        d.plain.subscribe? =
          if (gather joined start ds).length + 1 < Word.bound then
            some (d.wiring.audience.nextId, d.subscribed.plain)
          else none := by
  intro start b
  obtain ⟨t₀, ht₀, rfl⟩ := Option.map_eq_some_iff.mp hdev
  obtain ⟨hcapacity, hblank⟩ : capacity < Tape.capacityBound ∧ Tape.blank capacity policy = t₀ := by
    rw [Tape.blank?] at ht₀
    split at ht₀
    · next h => exact ⟨h, Option.some.inj ht₀⟩
    · cases ht₀
  have hcharted : ∀ t, b.tape? = some t → t.Charted capacity policy (0 :: gather stands start ds) := by
    intro t ht
    obtain ⟨t₁, ht₁, hframe, hvisited⟩ := visited_of_play ht
    obtain rfl : t₀ = t₁ := Option.some.inj ht₁
    refine (hvisited [0] ?_).charted hframe hblank.symm
    rw [← hblank]
    exact Tape.visited_blank capacity policy
  have hwords : ∀ d, b.session.device? = some d → d.tape.capacity < Word.bound := by
    intro d hd
    have hd : b.tape? = some d.tape := by rw [tape?, Session.tape?, hd]; rfl
    rw [(hcharted _ hd).capacity]
    have hbound : Tape.capacityBound < Word.bound := by decide
    exact Nat.max_lt.mpr ⟨Nat.lt_trans hcapacity hbound, by decide⟩
  have hposition : ∀ m, b.session = .machine m → m.ip ≤ m.program.size := by
    intro m hm
    have hstart : ∀ p i, start.session.position? = some (p, i) → i ≤ p.size := by
      intro p i h
      cases h
    have hpos : (start.play ds).session.position? = some (m.program, m.ip) := congrArg _ hm
    exact position_of_play hstart hpos
  refine ⟨hcharted, fun m hm => ?_, fun d hd => ?_⟩
  · refine ⟨Machine.placed_of_ip_le (hposition m hm), fun hprogram hsteps => ?_⟩
    exact Machine.step?_plain ⟨hposition m hm, hprogram, hwords _ (by rw [hm]; rfl), hsteps⟩
  · exact ⟨Device.sturdy_of_capacity (hwords d hd), Session.device?_subscribe hd,
      subscribe?_of_play rfl hd⟩

/-- The pointer leaves a blank tape to the left, a program brings it back to the first
cell, and the cell between has never been used. -/
theorem finished_beside_unused_cell :
    let ds : List Deed :=
      [.hand (.move .left), .hand .increment, .hand (.load ⟨#['+', '>']⟩), .start, .advance,
        .advance, .advance, .advance, .advance, .advance, .advance, .advance, .advance, .finish]
    ∃ dev, Device.blank? 3 .wrap = some dev ∧
      let b := (resting (.tape dev)).play ds
      ∃ m, b.session = .machine m ∧ m.isFinished = true ∧
        m.ip = 2 ∧ m.device.tape.mark = 2 ∧ m.device.tape.value? 1 = some 0 ∧
        m.step = (.finished, m) ∧ m.plain.step? = some (.finished, m.plain) ∧ m.device.Sturdy := by
  intro ds
  refine ⟨_, rfl, ?_⟩
  intro b
  obtain ⟨m, hm, hprogram, hip, hsteps⟩ : ∃ m, b.session = .machine m ∧
      m.program = ⟨#['+', '>']⟩ ∧ m.ip = 2 ∧ m.steps = 2 :=
    ⟨_, rfl, by decide +kernel, by decide +kernel, by decide +kernel⟩
  obtain ⟨hcharted, hmachine, hdevice⟩ := invariants_of_play (rfl : Device.blank? 3 .wrap = _) ds
  obtain ⟨hplaced, hplain⟩ := hmachine m hm
  have hfinished : m.isFinished = true := hplaced.finished_iff.mpr (by rw [hip, hprogram]; rfl)
  have hstep := hplaced.step hfinished
  have htape := hcharted m.device.tape (by rw [tape?, hm]; rfl)
  have hmark : some 2 = some m.device.tape.mark := Eq.trans (by decide +kernel) htape.mark
  have hzero := htape.zero 1 (by rw [htape.capacity]; decide) (by decide +kernel)
  have hplain := hplain (by rw [hprogram]; decide) (by rw [hsteps]; decide)
  rw [hstep] at hplain
  exact ⟨m, hm, hfinished, hip, (Option.some.inj hmark).symm, hzero, hstep, hplain,
    (hdevice m.device (by rw [hm]; rfl)).1⟩

/-- `2 ^ 64 - 1` listeners come and leave again one after the other, and the next one
finds no id left, on a tape that nobody has changed and no program has run on. -/
theorem ids_run_out :
    ∃ dev, Device.blank? 1 .strict = some dev ∧
      let start := resting (.tape dev)
      let ds := visits 0 (Word.bound - 1)
      start.records ds = [] ∧ ∃ d, start.play ds = resting (.tape d) ∧ d.tape = dev.tape ∧
        d.wiring.audience.size = 0 ∧ d.plain.subscribe? = none := by
  refine ⟨_, rfl, ?_⟩
  obtain ⟨hrecords, d, hplay, htape, hids, hnext⟩ :=
    @play_visits (.blank 1 .strict) rfl (Word.bound - 1)
  refine ⟨hrecords, d, hplay, htape, ?_, ?_⟩
  · rw [Audience.size_eq_length_ids, hids, List.length_nil]
  · have hfull : ¬d.wiring.audience.nextId + 1 < Word.bound := by
      rw [hnext]
      decide
    rw [Device.subscribe?_plain, if_neg hfull]

end Bench

end Brainfuck
