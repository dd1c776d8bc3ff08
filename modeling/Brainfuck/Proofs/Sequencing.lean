import Brainfuck.Proofs.Relocation

/-!
# Brainfuck.Proofs.Sequencing

Two programs one after the other on one tape, and the two texts in one.

The scans for partners look at the whole text, so a program may do something else
when another text stands before or behind it.  Two conditions rule this out: no
opening bracket of the first program looks beyond its end (`Program.Closes`), and
no closing bracket of the second beyond its beginning (`Program.Opens`).  The
brackets need not be nested properly for this.

* `embeds_append_left`, `embeds_append_right` — then both programs are embedded
  in their concatenation, the second one shifted;
* `relocate_seam` — a machine at the end of the first program stands at the
  beginning of the second;
* `returns_append_iff` — so a run of the concatenation is a run of the first
  program and, if that one ends, a run of the second on the same tape.
-/

namespace Brainfuck

/-- The texts of two programs, one behind the other. -/
instance : Append Program := ⟨fun p q => ⟨p.chars ++ q.chars⟩⟩

namespace Program

variable {p q : Program} {i : Nat}

theorem size_append (p q : Program) : (p ++ q).size = p.size + q.size := Array.size_append

theorem at?_append_left (h : i < p.size) : (p ++ q).at? i = p.at? i :=
  Array.getElem?_append_left h

theorem at?_append_right (p q : Program) (i : Nat) : (p ++ q).at? (p.size + i) = q.at? i := by
  have h : (p.chars ++ q.chars)[p.size + i]? = q.chars[p.size + i - p.size]? :=
    Array.getElem?_append_right (Nat.le_add_right _ _)
  rw [Nat.add_sub_cancel_left] at h
  exact h

/-- Every opening bracket is followed by a closing one. -/
def Closes (p : Program) : Prop := ∀ i, p.at? i = some '[' → ∃ j, i < j ∧ p.at? j = some ']'

/-- Every closing bracket is preceded by an opening one. -/
def Opens (p : Program) : Prop := ∀ i, p.at? i = some ']' → ∃ j, j < i ∧ p.at? j = some '['

/-- The first of two programs stands at its own positions. -/
theorem embeds_append_left (hp : p.Closes) (q : Program) :
    p.Embeds (p ++ q) (fun _ => true) id where
  kept i c hc _ := ⟨(at?_append_left (lt_size_of_at? hc)).trans hc, rfl⟩
  omitted _ _ _ h := nomatch h
  behind i hc hnone := by
    obtain ⟨j, hij, hj⟩ := hp i hc
    exact absurd hj ((p.firstClose?_eq_none_iff i).mp hnone j (Nat.le_of_lt hij))
  before _ _ _ := rfl

/-- The second of two programs stands behind the first. -/
theorem embeds_append_right (hq : q.Opens) (p : Program) :
    q.Embeds (p ++ q) (fun _ => true) (p.size + ·) where
  kept i c hc _ := ⟨(at?_append_right p q i).trans hc, rfl⟩
  omitted _ _ _ h := nomatch h
  behind _ _ _ := by
    refine (firstClose?_eq_none_iff _ _).mpr fun j hj => ?_
    rw [← size_append] at hj
    rw [((p ++ q).at?_eq_none_iff j).mpr hj]
    nofun
  before i hc hnone := by
    obtain ⟨j, hji, hj⟩ := hq i hc
    exact absurd hj ((q.lastOpen?_eq_none_iff i).mp hnone j hji)

end Program

/-! ## nothing is left out -/

theorem Step.renumber_id (s : Step) : s.renumber id = s := by
  obtain ⟨ip, c, pointer, cell, action⟩ := s
  cases action <;> rfl

theorem Fault.renumber_id (fault : Fault) : fault.renumber id = fault := by
  cases fault <;> rfl

theorem relocated_all (r : Nat → Nat) (ss : List Step) :
    relocated (fun _ => true) r ss = ss.map (Step.renumber r) := by
  rw [relocated, List.filter_eq_self.mpr fun _ _ => rfl]

theorem relocated_id (ss : List Step) : relocated (fun _ => true) id ss = ss := by
  rw [relocated_all, List.map_congr_left fun s _ => s.renumber_id, List.map_id']

namespace Machine

/-- A program at its start, with this bracket mode and nothing to hinder it. -/
def loadIn (mode : BracketMode) (program : Program) (device : Device) : Machine :=
  { load program device with mode := mode }

variable {mode : BracketMode} {p q : Program} {d : Device} {m m' : Machine} {ss : List Step}

theorem loadIn_free (hd : d.wiring.cancelled = false) : (loadIn mode p d).Free := ⟨rfl, hd⟩

/-- The steps of a loaded machine are those it has executed. -/
theorem steps_of_loadIn (h : (loadIn mode p d).Executes ss m') : m'.steps = ss.length :=
  h.steps_eq.trans (Nat.zero_add _)

/-! ## the seam -/

/-- At the end of the first program begins the second. -/
theorem relocate_seam (h : (loadIn mode p d).Executes ss m) (hf : m.Stops none) (k : Nat) :
    m.relocate (p ++ q) id k = (loadIn mode q m.device).relocate (p ++ q) (p.size + ·) k := by
  obtain ⟨hprogram, hmode, hlimit, hdelay⟩ := h.frame
  have hip : m.ip = p.size := by
    have hle := h.ip_le (Nat.zero_le _)
    have hge : m.program.size ≤ m.ip := of_decide_eq_true hf
    rw [hprogram] at hle hge
    exact Nat.le_antisymm hle hge
  simp only [relocate, loadIn, load, id_eq, hip, hmode, hlimit, hdelay, Nat.add_zero]

theorem size_le_shift (p q : Program) (i : Nat) (hi : q.size ≤ i) :
    (p ++ q).size ≤ p.size + i := by
  rw [Program.size_append]
  exact Nat.add_le_add_left hi _

/-! ## the run -/

/-- What the first program executes, the concatenation executes. -/
theorem executes_append (hp : p.Closes) (h : (loadIn mode p d).Executes ss m) (q : Program) :
    (loadIn mode (p ++ q) d).Executes ss (m.relocate (p ++ q) id m.steps) := by
  have hex := h.relocate (Program.embeds_append_left hp q) 0
  rw [relocated_id, Nat.zero_add, ← steps_of_loadIn h] at hex
  exact hex

/-- If the first program fails, so does the concatenation, in the same way. -/
theorem returns_append_of_failed {fault : Fault} (hd : d.wiring.cancelled = false)
    (hp : p.Closes) (h : (loadIn mode p d).Returns (some fault) ss m) (q : Program) :
    (loadIn mode (p ++ q) d).Returns (some fault) ss { m with program := p ++ q } := by
  obtain ⟨hex, hstop⟩ := (returns_iff (loadIn_free hd)).mp h
  have he : m.program.Embeds (p ++ q) (fun _ => true) id :=
    hex.frame.1 ▸ Program.embeds_append_left hp q
  have hstop' := hstop.relocate (k := m.steps) he
  rw [Fault.renumber_id] at hstop'
  exact (returns_iff (loadIn_free hd)).mpr ⟨executes_append hp hex q, hstop'⟩

/-- If the first program ends, the concatenation goes on with the second one, on
the device that the first has left. -/
theorem returns_append_of_finished {f : Option Fault} {ts : List Step}
    (hd : d.wiring.cancelled = false) (hp : p.Closes) (hq : q.Opens)
    (h : (loadIn mode p d).Returns none ss m) (h' : (loadIn mode q m.device).Returns f ts m') :
    (loadIn mode (p ++ q) d).Returns (f.map (Fault.renumber (p.size + ·)))
      (ss ++ ts.map (Step.renumber (p.size + ·)))
      { m' with program := p ++ q, ip := p.size + m'.ip, steps := m.steps + m'.steps } := by
  obtain ⟨hex, hstop⟩ := (returns_iff (loadIn_free hd)).mp h
  have hm : m.Free := hex.preserves Free.of_step (loadIn_free hd)
  have hex' := ((returns_iff (loadIn_free hm.cancelled)).mp h').1
  have hq' := returns_relocate (loadIn_free hm.cancelled) (Program.embeds_append_right hq p)
    (size_le_shift p q) h' m.steps
  rw [relocated_all, List.length_map, ← steps_of_loadIn hex', ← relocate_seam hex hstop] at hq'
  have hseam : (m.relocate (p ++ q) id m.steps).Free := ⟨hm.limit, hm.cancelled⟩
  obtain ⟨hrest, hstop'⟩ := (returns_iff hseam).mp hq'
  exact (returns_iff (loadIn_free hd)).mpr ⟨(executes_append hp hex q).append hrest, hstop'⟩

/-- A run of the concatenation that returns has failed in the first program, or
come to its end and returned from the second. -/
theorem returns_of_append {g : Option Fault} {us : List Step} {n : Machine}
    (hd : d.wiring.cancelled = false) (hp : p.Closes) (hq : q.Opens)
    (h : (loadIn mode (p ++ q) d).Returns g us n) :
    (∃ fault m, (loadIn mode p d).Returns (some fault) us m ∧ g = some fault ∧
      n = { m with program := p ++ q }) ∨
    ∃ ss m f ts m', (loadIn mode p d).Returns none ss m ∧
      (loadIn mode q m.device).Returns f ts m' ∧
      g = f.map (Fault.renumber (p.size + ·)) ∧
      us = ss ++ ts.map (Step.renumber (p.size + ·)) ∧
      n = { m' with program := p ++ q, ip := p.size + m'.ip, steps := m.steps + m'.steps } := by
  obtain ⟨hex, hstop⟩ := (returns_iff (loadIn_free hd)).mp h
  have he := Program.embeds_append_left hp q
  obtain ⟨ss, m, us', hex₁, rfl, hus, hend⟩ :=
    Executes.of_relocate (m := loadIn mode p d) (k := 0) he hex
  rw [relocated_id, Nat.zero_add, ← steps_of_loadIn hex₁] at hus
  rw [relocated_id]
  have hm : m.Free := hex₁.preserves Free.of_step (loadIn_free hd)
  cases hf : m.isFinished with
  | true =>
    -- The rest is a run of the second program from the seam.
    rw [relocate_seam hex₁ hf] at hus
    have hseam : ((loadIn mode q m.device).relocate (p ++ q) (p.size + ·) m.steps).Free :=
      ⟨rfl, hm.cancelled⟩
    have hrest := (returns_iff hseam).mpr ⟨hus, hstop⟩
    obtain ⟨f, ts, m', hret, rfl, rfl, rfl⟩ := returns_of_relocate (loadIn_free hm.cancelled)
      (Program.embeds_append_right hq p) (size_le_shift p q) hrest
    have hex' := ((returns_iff (loadIn_free hm.cancelled)).mp hret).1
    refine .inr ⟨ss, m, f, ts, m', (returns_iff (loadIn_free hd)).mpr ⟨hex₁, hf⟩, hret, rfl,
      by rw [relocated_all], ?_⟩
    rw [relocate, relocated_all, List.length_map, ← steps_of_loadIn hex']
  | false =>
    -- The run has come no further than the first program, and stops there.
    obtain rfl : us' = [] := hend.resolve_right (by rw [hf]; exact Bool.false_ne_true)
    cases hus
    have he₁ : m.program.Embeds (p ++ q) (fun _ => true) id := hex₁.frame.1 ▸ he
    obtain ⟨ss', m₁, hskip, hss', -, hstop'⟩ := Stops.of_relocate he₁ hstop
    rw [relocated_id] at hss'
    subst hss'
    cases hskip
    obtain hf' | ⟨fault, hfault, rfl⟩ := hstop'
    · exact absurd (hf.symm.trans hf') Bool.false_ne_true
    · rw [Fault.renumber_id, List.append_nil]
      exact .inl ⟨fault, m, (returns_iff (loadIn_free hd)).mpr ⟨hex₁, hfault⟩, rfl, rfl⟩

/-- **Two programs in turn.** When no scan for a partner crosses the seam, a run
of the concatenation fails as the first program fails; and if the first program
ends, it returns what the second one returns on the tape handed over, shifted by
the length of the first, after as many steps as the two together. -/
theorem returns_append_iff (mode : BracketMode) (p q : Program) (d : Device) (hp : p.Closes)
    (hq : q.Opens) (hd : d.wiring.cancelled = false) (g : Option Fault) (us : List Step)
    (n : Machine) :
    (loadIn mode (p ++ q) d).Returns g us n ↔
      (∃ fault m, (loadIn mode p d).Returns (some fault) us m ∧ g = some fault ∧
        n = { m with program := p ++ q }) ∨
      ∃ ss m f ts m', (loadIn mode p d).Returns none ss m ∧
        (loadIn mode q m.device).Returns f ts m' ∧
        g = f.map (Fault.renumber (p.size + ·)) ∧
        us = ss ++ ts.map (Step.renumber (p.size + ·)) ∧
        n = { m' with program := p ++ q, ip := p.size + m'.ip, steps := m.steps + m'.steps } := by
  constructor
  · intro h
    exact returns_of_append hd hp hq h
  · intro h
    obtain ⟨fault, m, h, rfl, rfl⟩ | ⟨ss, m, f, ts, m', h, h', rfl, rfl, rfl⟩ := h
    · exact returns_append_of_failed hd hp h q
    · exact returns_append_of_finished hd hp hq h h'

/-- The first program writes two bytes and ends.  The second one fails at its last
bracket, which stands at position 10 of both texts together. -/
theorem unmatched_behind_the_seam :
    let p : Program := ⟨#[',', '[', '.', '-', ']', ']']⟩
    let q : Program := ⟨#['+', '[', '-', ']', '[']⟩
    let d : Device := ⟨.blank 1 .strict, (Wiring.fresh.supply [2]).closeInput⟩
    p.Closes ∧ q.Opens ∧ d.wiring.cancelled = false ∧
      ∃ us n, (loadIn .strict (p ++ q) d).Returns (some (.unmatchedBracket 10 .opening)) us n ∧
        n.device.wiring.emitted = [2, 1] ∧ n.steps = 13 := by
  intro p q d
  have hp : p.Closes := by
    intro i hi
    have hopen : ∀ i < 6, p.at? i = some '[' → i < 4 := by decide
    exact ⟨4, hopen i (Program.lt_size_of_at? hi) hi, rfl⟩
  have hq : q.Opens := by
    intro i hi
    have hclose : ∀ i < 5, q.at? i = some ']' → 1 < i := by decide
    exact ⟨1, hclose i (Program.lt_size_of_at? hi) hi, rfl⟩
  let first := (loadIn .strict p d).run 20
  let second := (loadIn .strict q first.machine.device).run 20
  have hfirst : (loadIn .strict p d).Returns none first.seen.toList first.machine :=
    ⟨20, by decide +kernel, rfl, rfl⟩
  have hsecond : (loadIn .strict q first.machine.device).Returns
      (some (.unmatchedBracket 4 .opening)) second.seen.toList second.machine :=
    ⟨20, by decide +kernel, rfl, rfl⟩
  exact ⟨hp, hq, rfl, _, _, (returns_append_iff .strict p q d hp hq rfl _ _ _).mpr
    (.inr ⟨_, _, _, _, _, hfirst, hsecond, rfl, rfl, rfl⟩), by decide +kernel, by decide +kernel⟩

end Machine

end Brainfuck
