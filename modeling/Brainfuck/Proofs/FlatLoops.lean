import Brainfuck.Proofs.Running

/-!
# Brainfuck.Proofs.FlatLoops

Programs whose loops are not nested mean what they look like.

A flat program is a list of items, each a single character or a loop around
characters.  Its meaning needs no positions to jump to: a loop is "while the
current cell is not zero, do the body" (`Means`).  The machine has no such
notion; it scans the text anew at every bracket, lands on the partner, goes on
behind it, and after a jump back does not look at the opening bracket again.

* `reaches_of_means` — the machine does what the items mean;
* `means_or_goes_on` — items that mean nothing keep the machine busy for ever;
* `returns_iff_means` — so a run returns exactly what the items mean.

The invariant that ties the two together is `Poised`: whenever the meaning is at
a loop, the machine stands at either of its two brackets.  Which one does not
matter, because both decide by the same cell and lead to the same places.
-/

namespace Brainfuck

/-! ## what flat programs mean -/

/-- What a program can see of its device: the memory, the input still to be
read, and the output written so far. -/
structure Scene where
  tape : Tape
  input : List UInt8
  output : List UInt8

/-- What a program can see of a device. -/
def Device.scene (d : Device) : Scene := ⟨d.tape, d.wiring.input.pending, d.wiring.emitted⟩

theorem Device.scene_write (d : Device) :
    d.write.scene = { d.scene with output := d.scene.output ++ [d.tape.value] } := by
  rw [Device.write, Device.announce, Device.scene, Wiring.emitted_post, Wiring.emitted_emit]
  rfl

/-- The effect of a character that is no bracket, when all input has been
supplied; `none` where the tape refuses the move. -/
def Scene.act (s : Scene) : Char → Option Scene
  | '<' => (s.tape.move? .left).map fun t => { s with tape := t }
  | '>' => (s.tape.move? .right).map fun t => { s with tape := t }
  | '+' => some { s with tape := s.tape.increment }
  | '-' => some { s with tape := s.tape.decrement }
  | '.' => some { s with output := s.output ++ [s.tape.value] }
  | ',' =>
    match s.input with
    | [] => some { s with tape := s.tape.store 0 }
    | b :: rest => some { s with tape := s.tape.store b, input := rest }
  | _ => some s

/-- A character that is no bracket. -/
structure Plain where
  char : Char
  ne_open : char ≠ '['
  ne_close : char ≠ ']'

/-- A piece of a flat program. -/
inductive Item where
  | char (c : Plain)
  | loop (body : List Plain)

/-- The text of a piece. -/
def Item.text : Item → List Char
  | .char c => [c.char]
  | .loop body => '[' :: (body.map Plain.char ++ [']'])

/-- The text of a flat program. -/
def flatText (items : List Item) : List Char := items.flatMap Item.text

/-- What executing a piece of program comes to, if it comes to an end. -/
inductive Finish where
  | done (s : Scene)
  /-- The tape refuses the move at this position. -/
  | stuck (position : Nat) (s : Scene)

/-- Executes characters from position `i` on, one after the other. -/
def straight (i : Nat) : List Plain → Scene → Finish
  | [], s => .done s
  | c :: cs, s =>
    match s.act c.char with
    | some s' => straight (i + 1) cs s'
    | none => .stuck i s

/-- `Means i items s f`: executing the items, whose text begins at position `i`,
comes to `f`.  Items that run for ever mean nothing. -/
inductive Means : Nat → List Item → Scene → Finish → Prop where
  | nil {i : Nat} {s : Scene} : Means i [] s (.done s)
  | char {i : Nat} {c : Plain} {items : List Item} {s s' : Scene} {f : Finish}
      (h : s.act c.char = some s') (rest : Means (i + 1) items s' f) :
    Means i (.char c :: items) s f
  | charStuck {i : Nat} {c : Plain} {items : List Item} {s : Scene}
      (h : s.act c.char = none) :
    Means i (.char c :: items) s (.stuck i s)
  | loopDone {i : Nat} {body : List Plain} {items : List Item} {s : Scene} {f : Finish}
      (h : s.tape.value = 0) (rest : Means (i + body.length + 2) items s f) :
    Means i (.loop body :: items) s f
  | loopAgain {i : Nat} {body : List Plain} {items : List Item} {s s' : Scene} {f : Finish}
      (h : s.tape.value ≠ 0) (hbody : straight (i + 1) body s = .done s')
      (again : Means i (.loop body :: items) s' f) :
    Means i (.loop body :: items) s f
  | loopStuck {i p : Nat} {body : List Plain} {items : List Item} {s s' : Scene}
      (h : s.tape.value ≠ 0) (hbody : straight (i + 1) body s = .stuck p s') :
    Means i (.loop body :: items) s (.stuck p s')

namespace Machine

variable {m m' : Machine} {text : List Char}

/-! ## the machine in a text -/

/-- The machine executes this text, can read on to the end of its input, and is
not hindered. -/
structure Ready (text : List Char) (m : Machine) : Prop where
  text_eq : m.program.chars.toList = text
  free : m.Free
  closed : m.device.wiring.input.closed = true

theorem Ready.of_step {s : Step} (h : m.step = (.stepped s, m')) (hm : m.Ready text) :
    m'.Ready text := by
  obtain ⟨hprogram, -, -, -, -, hclosed⟩ := frame_of_step h
  exact ⟨by rw [hprogram, hm.text_eq], hm.free.of_step h, hclosed.trans hm.closed⟩

/-- The text from the machine's position on decides its next instruction. -/
theorem current?_of_drop {c : Char} {rest : List Char}
    (h : m.program.chars.toList.drop m.ip = c :: rest) : m.current? = some c := by
  rw [current?, Program.at?, ← Array.getElem?_toList, ← Nat.add_zero m.ip, ← List.getElem?_drop, h]
  rfl

theorem Ready.at? (hm : m.Ready text) (i : Nat) : m.program.at? i = text[i]? := by
  rw [Program.at?, ← hm.text_eq, Array.getElem?_toList]

theorem Ready.current? (hm : m.Ready text) {c : Char} {rest : List Char}
    (h : text.drop m.ip = c :: rest) : m.current? = some c := by
  rw [← hm.text_eq] at h
  exact current?_of_drop h

theorem drop_succ_of_drop {i : Nat} {c : Char} {rest : List Char} (h : text.drop i = c :: rest) :
    text.drop (i + 1) = rest := by
  rw [← List.drop_drop, h]
  rfl

theorem drop_add_of_drop {i : Nat} {cs rest : List Char} (h : text.drop i = cs ++ rest) :
    text.drop (i + cs.length) = rest := by
  rw [← List.drop_drop, h, List.drop_left]

/-! ## one character -/

/-- Where a character has an effect, the instruction is performed to that effect. -/
theorem exists_performs_of_act (hm : m.Ready text) {c : Plain} {s : Scene}
    (h : m.device.scene.act c.char = some s) :
    ∃ a d, m.Performs (Instruction.ofChar c.char) a m.ip d ∧ d.scene = s := by
  unfold Scene.act at h
  split at h
  · next hc =>
    rw [hc]
    obtain ⟨t, ht, rfl⟩ := Option.map_eq_some_iff.mp h
    exact ⟨_, _, .move ht, rfl⟩
  · next hc =>
    rw [hc]
    obtain ⟨t, ht, rfl⟩ := Option.map_eq_some_iff.mp h
    exact ⟨_, _, .move ht, rfl⟩
  · next hc =>
    rw [hc]
    exact ⟨_, _, .increment, Option.some.inj h⟩
  · next hc =>
    rw [hc]
    exact ⟨_, _, .decrement, Option.some.inj h⟩
  · next hc =>
    rw [hc]
    exact ⟨_, _, .write, by rw [Device.scene_write]; exact Option.some.inj h⟩
  · next hc =>
    rw [hc]
    split at h
    · next hinput =>
      have hended := (Wiring.intake_eq_ended_iff _).mpr ⟨hm.free.cancelled, hinput, hm.closed⟩
      exact ⟨_, _, .readEnd hended, Option.some.inj h⟩
    · next b rest hinput =>
      obtain ⟨q, hq, rfl⟩ := Pipe.exists_take?_of_pending hinput
      have hbyte := (Wiring.intake_eq_byte_iff _ _ b).mpr ⟨hm.free.cancelled, q, hq, rfl⟩
      refine ⟨_, _, .readByte hbyte, ?_⟩
      rw [← Option.some.inj h]
      simp [Device.scene, Device.announce, Wiring.emitted, Wiring.post]
  · have hcomment : Instruction.ofChar c.char = .comment := by
      have hopen := c.ne_open
      have hclose := c.ne_close
      unfold Instruction.ofChar
      split <;> simp_all
    rw [hcomment]
    exact ⟨_, _, .comment, Option.some.inj h⟩

theorem exists_step_of_act (hm : m.Ready text) {c : Plain} (hc : m.current? = some c.char)
    {s : Scene} (h : m.device.scene.act c.char = some s) :
    ∃ st m', m.step = (.stepped st, m') ∧ m'.ip = m.ip + 1 ∧ m'.device.scene = s := by
  obtain ⟨a, d, hp, hd⟩ := exists_performs_of_act hm h
  exact ⟨_, _, step_eq_stepped_iff.mpr ⟨_, a, m.ip, d, hc, hp, rfl, rfl⟩, rfl, hd⟩

/-- Where a character has no effect, it is a move, and it fails. -/
theorem stops_of_act {c : Plain} (hc : m.current? = some c.char)
    (h : m.device.scene.act c.char = none) :
    m.Stops (some (.pointerOutOfBounds m.ip m.device.tape.pointer c.char)) := by
  refine step_eq_failed_iff.mpr ⟨rfl, _, hc, ?_⟩
  unfold Scene.act at h
  split at h
  · next hc =>
    rw [hc]
    exact .move rfl (Option.map_eq_none_iff.mp h)
  · next hc =>
    rw [hc]
    exact .move rfl (Option.map_eq_none_iff.mp h)
  · cases h
  · cases h
  · cases h
  · split at h <;> cases h
  · cases h

/-! ## a body -/

/-- What the machine has to reach for a piece of program to have come to `f`. -/
def Reaches (m : Machine) : Finish → Prop
  | .done s => ∃ ss m', m.Executes ss m' ∧ m'.Stops none ∧ m'.device.scene = s
  | .stuck p s => ∃ ss m' c, m.Executes ss m' ∧
      m'.Stops (some (.pointerOutOfBounds p s.tape.pointer c)) ∧ m'.device.scene = s ∧
      m'.program.at? p = some c

theorem Executes.reaches {ss : List Step} (h : m.Executes ss m') {f : Finish}
    (hf : m'.Reaches f) : m.Reaches f := by
  cases f with
  | done s =>
    obtain ⟨ts, m₂, hex, hrest⟩ := hf
    exact ⟨ss ++ ts, m₂, h.append hex, hrest⟩
  | stuck p s =>
    obtain ⟨ts, m₂, c, hex, hrest⟩ := hf
    exact ⟨ss ++ ts, m₂, c, h.append hex, hrest⟩

theorem reaches_stuck {c : Plain} (hc : m.current? = some c.char)
    (h : m.device.scene.act c.char = none) : m.Reaches (.stuck m.ip m.device.scene) :=
  ⟨[], m, c.char, .nil m, stops_of_act hc h, rfl, hc⟩

theorem executes_of_straight {body : List Plain} {rest : List Char} {s : Scene} (hm : m.Ready text)
    (hcode : text.drop m.ip = body.map Plain.char ++ rest)
    (h : straight m.ip body m.device.scene = .done s) :
    ∃ ss m', m.Executes ss m' ∧ m'.Ready text ∧ m'.ip = m.ip + body.length ∧
      m'.device.scene = s := by
  induction body generalizing m with
  | nil => exact ⟨[], m, .nil m, hm, rfl, Finish.done.inj h⟩
  | cons c body ih =>
    rw [straight] at h
    split at h
    · next s' hact =>
      obtain ⟨st, m₁, hstep, hip, hscene⟩ := exists_step_of_act hm (hm.current? hcode) hact
      have hcode₁ : text.drop m₁.ip = body.map Plain.char ++ rest := by
        rw [hip]
        exact drop_succ_of_drop hcode
      rw [← hip, ← hscene] at h
      obtain ⟨ss, m₂, hex, hm₂, hip₂, hs⟩ := ih (hm.of_step hstep) hcode₁ h
      refine ⟨st :: ss, m₂, .cons hstep hex, hm₂, ?_, hs⟩
      rw [hip₂, hip, List.length_cons]
      omega
    · cases h

theorem reaches_of_straight {body : List Plain} {rest : List Char} {p : Nat} {s : Scene}
    (hm : m.Ready text) (hcode : text.drop m.ip = body.map Plain.char ++ rest)
    (h : straight m.ip body m.device.scene = .stuck p s) : m.Reaches (.stuck p s) := by
  induction body generalizing m with
  | nil => cases h
  | cons c body ih =>
    rw [straight] at h
    split at h
    · next s' hact =>
      obtain ⟨st, m₁, hstep, hip, hscene⟩ := exists_step_of_act hm (hm.current? hcode) hact
      have hcode₁ : text.drop m₁.ip = body.map Plain.char ++ rest := by
        rw [hip]
        exact drop_succ_of_drop hcode
      rw [← hip, ← hscene] at h
      exact (Executes.cons hstep (.nil m₁)).reaches (ih (hm.of_step hstep) hcode₁ h)
    · next hact =>
      rw [← h]
      exact reaches_stuck (hm.current? hcode) hact

/-! ## a loop -/

theorem firstFrom?_of_plain (i : Nat) (body : List Plain) (rest : List Char) :
    Program.firstFrom? ']' i (body.map Plain.char ++ ']' :: rest) = some (i + body.length) := by
  induction body generalizing i with
  | nil => simp [Program.firstFrom?]
  | cons c body ih =>
    rw [List.map_cons, List.cons_append, Program.firstFrom?, if_neg c.ne_close, ih,
      List.length_cons]
    congr 1
    omega

/-- The text holds a loop at position `i`. -/
def LoopAt (text : List Char) (i : Nat) (body : List Plain) (rest : List Char) : Prop :=
  text.drop i = '[' :: (body.map Plain.char ++ ']' :: rest)

theorem LoopAt.firstClose? {i : Nat} {body : List Plain} {rest : List Char} (hm : m.Ready text)
    (h : LoopAt text i body rest) : m.program.firstClose? i = some (i + body.length + 1) := by
  rw [Program.firstClose?, hm.text_eq, h, Program.firstFrom?, if_neg (by decide),
    firstFrom?_of_plain]
  congr 1
  omega

theorem LoopAt.lastOpen? {i : Nat} {body : List Plain} {rest : List Char} (hm : m.Ready text)
    (h : LoopAt text i body rest) : m.program.lastOpen? (i + body.length + 1) = some i := by
  have hat : ∀ k, m.program.at? (i + k) = ('[' :: (body.map Plain.char ++ ']' :: rest))[k]? := by
    intro k
    rw [hm.at?, ← h, List.getElem?_drop]
  refine (Program.lastOpen?_eq_some_iff _ _ _).mpr ⟨by omega, hat 0, fun k hik hk hopen => ?_⟩
  obtain ⟨n, rfl⟩ : ∃ n, k = i + (n + 1) := ⟨k - i - 1, by omega⟩
  have hn : n < (body.map Plain.char).length := by rw [List.length_map]; omega
  rw [hat, List.getElem?_cons_succ, List.getElem?_append_left hn, List.getElem?_map] at hopen
  obtain ⟨c, -, hc⟩ := Option.map_eq_some_iff.mp hopen
  exact c.ne_open hc

theorem LoopAt.drop_close {i : Nat} {body : List Plain} {rest : List Char}
    (h : LoopAt text i body rest) : text.drop (i + body.length + 1) = ']' :: rest := by
  have hbody := drop_add_of_drop (drop_succ_of_drop h)
  rwa [List.length_map, Nat.add_right_comm] at hbody

/-- At either bracket of a loop, a zero cell leads behind the loop. -/
theorem leave_loop {i : Nat} {body : List Plain} {rest : List Char} (hm : m.Ready text)
    (hloop : LoopAt text i body rest) (hip : m.ip = i ∨ m.ip = i + body.length + 1)
    (h : m.device.tape.value = 0) :
    ∃ st m', m.step = (.stepped st, m') ∧ m'.ip = i + body.length + 2 ∧
      m'.device.scene = m.device.scene := by
  cases hip with
  | inl hip =>
    subst hip
    have hc : m.current? = some '[' := hm.current? hloop
    have hp : m.Performs .loopStart _ _ _ := .jumpForward h (LoopAt.firstClose? hm hloop)
    exact ⟨_, _, step_eq_stepped_iff.mpr ⟨_, _, _, _, hc, hp, rfl, rfl⟩, rfl, rfl⟩
  | inr hip =>
    have hc : m.current? = some ']' := hm.current? (hip ▸ hloop.drop_close)
    have hp : m.Performs .loopEnd _ _ _ := .exitLoop h
    exact ⟨_, _, step_eq_stepped_iff.mpr ⟨_, _, _, _, hc, hp, rfl, rfl⟩, by
      rw [proceeded, hip], rfl⟩

/-- At either bracket of a loop, a cell that is not zero leads into the body. -/
theorem enter_loop {i : Nat} {body : List Plain} {rest : List Char} (hm : m.Ready text)
    (hloop : LoopAt text i body rest) (hip : m.ip = i ∨ m.ip = i + body.length + 1)
    (h : m.device.tape.value ≠ 0) :
    ∃ st m', m.step = (.stepped st, m') ∧ m'.ip = i + 1 ∧
      m'.device.scene = m.device.scene := by
  cases hip with
  | inl hip =>
    subst hip
    have hc : m.current? = some '[' := hm.current? hloop
    have hp : m.Performs .loopStart _ _ _ := .enterLoop h
    exact ⟨_, _, step_eq_stepped_iff.mpr ⟨_, _, _, _, hc, hp, rfl, rfl⟩, rfl, rfl⟩
  | inr hip =>
    have hc : m.current? = some ']' := hm.current? (hip ▸ hloop.drop_close)
    have hp : m.Performs .loopEnd _ _ _ := .jumpBack h (hip ▸ LoopAt.lastOpen? hm hloop)
    exact ⟨_, _, step_eq_stepped_iff.mpr ⟨_, _, _, _, hc, hp, rfl, rfl⟩, rfl, rfl⟩

/-! ## all items -/

/-- The machine stands where the items that begin at position `i` go on: at
their beginning or, if they begin with a loop, at its closing bracket. -/
def Poised (i : Nat) (items : List Item) (m : Machine) : Prop :=
  m.ip = i ∨ ∃ body rest, items = .loop body :: rest ∧ m.ip = i + body.length + 1

theorem Poised.of_char {i : Nat} {c : Plain} {items : List Item}
    (h : m.Poised i (.char c :: items)) : m.ip = i := by
  cases h with
  | inl h => exact h
  | inr h =>
    obtain ⟨body, rest, heq, -⟩ := h
    cases heq

theorem Poised.of_loop {i : Nat} {body : List Plain} {items : List Item}
    (h : m.Poised i (.loop body :: items)) : m.ip = i ∨ m.ip = i + body.length + 1 := by
  cases h with
  | inl h => exact .inl h
  | inr h =>
    obtain ⟨body', rest, heq, hip⟩ := h
    cases heq
    exact .inr hip

theorem loopAt_of_flatText {i : Nat} {body : List Plain} {items : List Item}
    (h : text.drop i = flatText (.loop body :: items)) : LoopAt text i body (flatText items) := by
  rw [LoopAt, h, flatText, List.flatMap_cons, Item.text, flatText]
  simp

/-- The text behind a loop. -/
theorem LoopAt.drop_next {i : Nat} {body : List Plain} {rest : List Char}
    (h : LoopAt text i body rest) : text.drop (i + body.length + 2) = rest :=
  drop_succ_of_drop h.drop_close

/-- The machine does what the items mean. -/
theorem reaches_of_means {i : Nat} {items : List Item} {s : Scene} {f : Finish}
    (h : Means i items s f) (hm : m.Ready text) (hcode : text.drop i = flatText items)
    (hip : m.Poised i items) (hs : m.device.scene = s) : m.Reaches f := by
  induction h generalizing m with
  | @nil i s =>
    refine ⟨[], m, .nil m, ?_, hs⟩
    have hip : m.ip = i := by
      cases hip with
      | inl h => exact h
      | inr h =>
        obtain ⟨body, rest, heq, -⟩ := h
        cases heq
    have hlen : text.length ≤ m.ip := by
      rw [hip]
      exact List.drop_eq_nil_iff.mp hcode
    rw [Stops, ← current?_eq_none_iff, current?, hm.at?]
    exact List.getElem?_eq_none hlen
  | char h rest ih =>
    obtain rfl := hip.of_char
    obtain rfl := hs
    obtain ⟨st, m₁, hstep, hip₁, hs₁⟩ := exists_step_of_act hm (hm.current? hcode) h
    exact (Executes.cons hstep (.nil m₁)).reaches
      (ih (hm.of_step hstep) (drop_succ_of_drop hcode) (.inl hip₁) hs₁)
  | charStuck h =>
    obtain rfl := hip.of_char
    obtain rfl := hs
    exact reaches_stuck (hm.current? hcode) h
  | loopDone h rest ih =>
    have hloop := loopAt_of_flatText hcode
    obtain rfl := hs
    obtain ⟨st, m₁, hstep, hip₁, hs₁⟩ := leave_loop hm hloop hip.of_loop h
    exact (Executes.cons hstep (.nil m₁)).reaches
      (ih (hm.of_step hstep) hloop.drop_next (.inl hip₁) hs₁)
  | loopAgain h hbody again ih =>
    have hloop := loopAt_of_flatText hcode
    obtain rfl := hs
    obtain ⟨st, m₁, hstep, hip₁, hs₁⟩ := enter_loop hm hloop hip.of_loop h
    rw [← hip₁, ← hs₁] at hbody
    obtain ⟨ss, m₂, hex, hm₂, hip₂, hs₂⟩ := executes_of_straight (hm.of_step hstep)
      (hip₁ ▸ drop_succ_of_drop hloop) hbody
    refine (Executes.cons hstep hex).reaches (ih hm₂ hcode (.inr ⟨_, _, rfl, ?_⟩) hs₂)
    rw [hip₂, hip₁, Nat.add_right_comm]
  | loopStuck h hbody =>
    have hloop := loopAt_of_flatText hcode
    obtain rfl := hs
    obtain ⟨st, m₁, hstep, hip₁, hs₁⟩ := enter_loop hm hloop hip.of_loop h
    rw [← hip₁, ← hs₁] at hbody
    exact (Executes.cons hstep (.nil m₁)).reaches
      (reaches_of_straight (hm.of_step hstep) (hip₁ ▸ drop_succ_of_drop hloop) hbody)

/-- Items that mean nothing keep the machine busy for any number of steps. -/
theorem means_or_goes_on (n : Nat) {i : Nat} {items : List Item} (hm : m.Ready text)
    (hcode : text.drop i = flatText items) (hip : m.Poised i items) :
    (∃ f, Means i items m.device.scene f) ∨ ∃ ss m', n ≤ ss.length ∧ m.Executes ss m' := by
  induction n generalizing m i items with
  | zero => exact .inr ⟨[], m, Nat.zero_le _, .nil m⟩
  | succ n ih =>
    cases items with
    | nil => exact .inl ⟨_, .nil⟩
    | cons item items =>
      cases item with
      | char c =>
        obtain rfl := hip.of_char
        cases hact : m.device.scene.act c.char with
        | none => exact .inl ⟨_, .charStuck hact⟩
        | some s =>
          obtain ⟨st, m₁, hstep, hip₁, hs₁⟩ := exists_step_of_act hm (hm.current? hcode) hact
          cases ih (hm.of_step hstep) (drop_succ_of_drop hcode) (.inl hip₁) with
          | inl h =>
            obtain ⟨f, hf⟩ := h
            exact .inl ⟨f, .char hact (hs₁ ▸ hf)⟩
          | inr h =>
            obtain ⟨ss, m₂, hn, hex⟩ := h
            exact .inr ⟨st :: ss, m₂, Nat.succ_le_succ hn, .cons hstep hex⟩
      | loop body =>
        have hloop := loopAt_of_flatText hcode
        by_cases h : m.device.tape.value = 0
        · obtain ⟨st, m₁, hstep, hip₁, hs₁⟩ := leave_loop hm hloop hip.of_loop h
          cases ih (hm.of_step hstep) hloop.drop_next (.inl hip₁) with
          | inl hf =>
            obtain ⟨f, hf⟩ := hf
            exact .inl ⟨f, .loopDone h (hs₁ ▸ hf)⟩
          | inr hex =>
            obtain ⟨ss, m₂, hn, hex⟩ := hex
            exact .inr ⟨st :: ss, m₂, Nat.succ_le_succ hn, .cons hstep hex⟩
        · obtain ⟨st, m₁, hstep, hip₁, hs₁⟩ := enter_loop hm hloop hip.of_loop h
          cases hbody : straight (i + 1) body m.device.scene with
          | stuck p s => exact .inl ⟨_, .loopStuck h hbody⟩
          | done s =>
            have hbody₁ := hbody
            rw [← hip₁, ← hs₁] at hbody₁
            obtain ⟨ss, m₂, hex, hm₂, hip₂, rfl⟩ := executes_of_straight (hm.of_step hstep)
              (hip₁ ▸ drop_succ_of_drop hloop) hbody₁
            have hip₂ : m₂.ip = i + body.length + 1 := by
              rw [hip₂, hip₁, Nat.add_right_comm]
            cases ih hm₂ hcode (.inr ⟨_, _, rfl, hip₂⟩) with
            | inl hf =>
              obtain ⟨f, hf⟩ := hf
              exact .inl ⟨f, .loopAgain h hbody hf⟩
            | inr hex₂ =>
              obtain ⟨ts, m₃, hn, hex₂⟩ := hex₂
              refine .inr ⟨st :: (ss ++ ts), m₃, ?_, .cons hstep (hex.append hex₂)⟩
              rw [List.length_cons, List.length_append]
              omega

/-! ## the run -/

/-- A run of flat items returns only what they mean: without a fault where they
are done, with the fault of the move where they are stuck. -/
theorem means_of_returns {items : List Item} {fault : Option Fault} {ss : List Step}
    (hm : m.Ready (flatText items)) (hip : m.ip = 0) (h : m.Returns fault ss m') :
    (fault = none ∧ Means 0 items m.device.scene (.done m'.device.scene)) ∨
    ∃ p c, fault = some (.pointerOutOfBounds p m'.device.tape.pointer c) ∧
      (flatText items)[p]? = some c ∧ Means 0 items m.device.scene (.stuck p m'.device.scene) := by
  obtain ⟨hex, hstop⟩ := (returns_iff hm.free).mp h
  -- Items that mean nothing would keep the run going for one step too many.
  obtain ⟨f, hf⟩ : ∃ f, Means 0 items m.device.scene f := by
    cases means_or_goes_on (ss.length + 1) hm List.drop_zero (.inl hip) with
    | inl hf => exact hf
    | inr hex' =>
      obtain ⟨ts, m₂, hlen, hex'⟩ := hex'
      exact absurd (hex.length_le_of_stops hstop hex') (by omega)
  have hreach := reaches_of_means hf hm List.drop_zero (.inl hip) rfl
  cases f with
  | done s =>
    obtain ⟨ts, m₂, hex₂, hstop₂, rfl⟩ := hreach
    have hret := (returns_iff hm.free).mpr ⟨hex₂, hstop₂⟩
    obtain ⟨rfl, -, rfl⟩ := h.unique hm.free hret
    exact .inl ⟨rfl, hf⟩
  | stuck p s =>
    obtain ⟨ts, m₂, c, hex₂, hstop₂, rfl, hc⟩ := hreach
    have hret := (returns_iff hm.free).mpr ⟨hex₂, hstop₂⟩
    obtain ⟨rfl, -, rfl⟩ := h.unique hm.free hret
    rw [(hex.preserves Ready.of_step hm).at?] at hc
    exact .inr ⟨p, c, rfl, hc, hf⟩

/-- **Loops of flat programs.** From the beginning of a flat program, with all
input supplied, a run that nothing hinders returns without a fault in exactly
the scene the items mean, and it returns out of bounds at exactly the move, in
exactly the scene, where they are stuck. -/
theorem returns_iff_means (m : Machine) (items : List Item)
    (htext : m.program.chars.toList = flatText items) (hip : m.ip = 0) (hfree : m.Free)
    (hclosed : m.device.wiring.input.closed = true) :
    (∀ T, (∃ ss m', m.Returns none ss m' ∧ m'.device.scene = T) ↔
      Means 0 items m.device.scene (.done T)) ∧
    (∀ p q c T,
      (∃ ss m', m.Returns (some (.pointerOutOfBounds p q c)) ss m' ∧ m'.device.scene = T) ↔
        Means 0 items m.device.scene (.stuck p T) ∧ q = T.tape.pointer ∧
          (flatText items)[p]? = some c) := by
  have hm : m.Ready (flatText items) := ⟨htext, hfree, hclosed⟩
  refine ⟨fun T => ⟨fun h => ?_, fun h => ?_⟩, fun p q c T => ⟨fun h => ?_, fun h => ?_⟩⟩
  · obtain ⟨ss, m', hret, rfl⟩ := h
    obtain ⟨-, h⟩ | ⟨_, _, hfault, -⟩ := means_of_returns hm hip hret
    · exact h
    · cases hfault
  · obtain ⟨ss, m', hex, hstop, hs⟩ := reaches_of_means h hm List.drop_zero (.inl hip) rfl
    exact ⟨ss, m', (returns_iff hfree).mpr ⟨hex, hstop⟩, hs⟩
  · obtain ⟨ss, m', hret, rfl⟩ := h
    obtain ⟨hfault, -⟩ | ⟨p', c', hfault, hc, h⟩ := means_of_returns hm hip hret
    · cases hfault
    · cases hfault
      exact ⟨h, rfl, hc⟩
  · obtain ⟨h, rfl, hc⟩ := h
    obtain ⟨ss, m', c', hex, hstop, hs, hc'⟩ := reaches_of_means h hm List.drop_zero (.inl hip) rfl
    rw [(hex.preserves Ready.of_step hm).at?, hc] at hc'
    cases hc'
    exact ⟨ss, m', (returns_iff hfree).mpr ⟨hex, hstop⟩, hs⟩

/-- Two bytes are written in a loop that counts down, and then the tape refuses
the move at position 5. -/
theorem stuck_after_countdown :
    let comma : Plain := ⟨',', by decide, by decide⟩
    let body : List Plain := [⟨'.', by decide, by decide⟩, ⟨'-', by decide, by decide⟩]
    let left : Plain := ⟨'<', by decide, by decide⟩
    let items : List Item := [.char comma, .loop body, .char left]
    let m := load ⟨#[',', '[', '.', '-', ']', '<']⟩
      ⟨.blank 2 .strict, (Wiring.fresh.supply [2]).closeInput⟩
    m.program.chars.toList = flatText items ∧ m.ip = 0 ∧ m.Free ∧
      m.device.wiring.input.closed = true ∧
      ∃ T, T.output = [2, 1] ∧ Means 0 items m.device.scene (.stuck 5 T) := by
  intro comma body left items m
  have htext : m.program.chars.toList = flatText items := rfl
  have hfree : m.Free := ⟨rfl, rfl⟩
  have hmeans := returns_iff_means m items htext rfl hfree rfl
  have hret : m.Returns (some (.pointerOutOfBounds 5 0 '<')) (m.run 20).seen.toList
      (m.run 20).machine := ⟨20, by decide, rfl, rfl⟩
  exact ⟨htext, rfl, hfree, rfl, _, by decide, ((hmeans.2 _ _ _ _).mp ⟨_, _, hret, rfl⟩).1⟩

end Machine

end Brainfuck
