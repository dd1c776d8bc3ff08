import Brainfuck.Proofs.Relocation

/-!
# Brainfuck.Proofs.Comments

Comments make no difference to what a program does.

A program without its comments (`Program.bare`) is shorter, so every position of
the program becomes another one: the number of instructions before it
(`Program.rank`).  With this renumbering the program is embedded in its bare
text, as `bare_embeds` says, and a machine and its bare form go through the same
steps:

* `relocated_eq_bareSteps` — of an execution, exactly the records of comments
  are left out;
* `runs_alike_without_comments` — the records, the result and the device of the
  bare program are those of the program, renumbered.

The two do not keep pace with each other.  Between two instructions the machine
passes any number of comments, and the bare machine stands still meanwhile.
-/

namespace Brainfuck

/-! ## the bare text -/

/-- The characters that are instructions. -/
def alphabet : List Char := ['<', '>', '+', '-', '.', ',', '[', ']']

/-- Whether a character is an instruction. -/
def isInstruction (c : Char) : Bool := alphabet.contains c

theorem isInstruction_eq_false_iff {c : Char} :
    isInstruction c = false ↔ Instruction.ofChar c = .comment := by
  unfold Instruction.ofChar
  split <;> simp_all [isInstruction, alphabet]

namespace Program

/-- The program without its comments. -/
def bare (p : Program) : Program := ⟨p.chars.filter isInstruction⟩

/-- The number of instructions before position `i`. -/
def rank (p : Program) (i : Nat) : Nat := (p.chars.toList.take i).countP isInstruction

variable {p : Program} {i : Nat} {c : Char}

theorem rank_zero (p : Program) : p.rank 0 = 0 := rfl

theorem rank_succ (h : p.at? i = some c) :
    p.rank (i + 1) = p.rank i + if isInstruction c then 1 else 0 := by
  rw [at?, ← Array.getElem?_toList] at h
  rw [rank, List.take_add_one, h, Option.toList_some, List.countP_append, List.countP_singleton,
    rank]

theorem rank_of_size_le (h : p.size ≤ i) : p.rank i = p.bare.size := by
  rw [rank, List.take_of_length_le h, List.countP_eq_length_filter, bare, size,
    ← Array.toList_filter, Array.length_toList]

/-- An instruction stands in the bare text behind the instructions before it. -/
theorem at?_bare (h : p.at? i = some c) (hc : isInstruction c = true) :
    p.bare.at? (p.rank i) = some c := by
  rw [at?, ← Array.getElem?_toList] at h
  obtain ⟨hlt, hget⟩ := List.getElem?_eq_some_iff.mp h
  have hsplit : p.chars.toList = p.chars.toList.take i ++ c :: p.chars.toList.drop (i + 1) := by
    rw [← hget, ← List.drop_eq_getElem_cons hlt, List.take_append_drop]
  have hfilter : p.bare.chars.toList =
      (p.chars.toList.take i).filter isInstruction ++
        c :: (p.chars.toList.drop (i + 1)).filter isInstruction := by
    rw [bare, Array.toList_filter, ← List.filter_cons_of_pos hc, ← List.filter_append, ← hsplit]
  rw [at?, ← Array.getElem?_toList, hfilter, rank, List.countP_eq_length_filter,
    List.getElem?_append_right (Nat.le_refl _), Nat.sub_self]
  rfl

/-- A program stands in its bare text. -/
theorem bare_embeds (p : Program) : p.Embeds p.bare isInstruction p.rank where
  kept i c hc hkeep := ⟨at?_bare hc hkeep, by rw [rank_succ hc, if_pos hkeep]⟩
  omitted i c hc homit :=
    ⟨isInstruction_eq_false_iff.mp homit, by rw [rank_succ hc, homit]; rfl⟩
  behind _ _ _ := by
    rw [rank_of_size_le (Nat.le_refl _), firstClose?_eq_none_iff]
    intro j hj
    rw [(p.bare.at?_eq_none_iff j).mpr hj]
    nofun
  before _ _ _ := rfl

end Program

/-! ## the records that are left -/

/-- The records without those of comments, renumbered to the bare text of `p`. -/
def Program.bareSteps (p : Program) (ss : List Step) : List Step :=
  (ss.filter fun s => s.action ≠ .ignored).map (Step.renumber p.rank)

namespace Machine

variable {m m' : Machine} {ss : List Step}

/-- Comments, and only they, are ignored. -/
theorem Performs.ignored_iff {i : Instruction} {a : Action} {j : Nat} {d : Device}
    (h : m.Performs i a j d) : a = .ignored ↔ i = .comment := by
  cases h with
  | comment => exact ⟨fun _ => rfl, fun _ => rfl⟩
  | _ => exact ⟨nofun, nofun⟩

theorem ignored_of_step {s : Step} (h : m.step = (.stepped s, m')) :
    decide (s.action ≠ .ignored) = isInstruction s.instruction := by
  obtain ⟨c, a, j, d, -, hp, rfl, rfl⟩ := step_eq_stepped_iff.mp h
  have hcomment : isInstruction c = false ↔ a = .ignored :=
    isInstruction_eq_false_iff.trans hp.ignored_iff.symm
  show decide (a ≠ .ignored) = isInstruction c
  rw [Bool.eq_iff_iff, decide_eq_true_iff, ne_eq, ← hcomment, Bool.not_eq_false]

theorem relocated_eq_bareSteps (h : m.Executes ss m') (p : Program) :
    relocated isInstruction p.rank ss = p.bareSteps ss := by
  rw [relocated, Program.bareSteps]
  congr 1
  induction h with
  | nil => rfl
  | cons head _ ih => rw [List.filter_cons, List.filter_cons, ih, ignored_of_step head]

/-! ## the run -/

/-- **Comments are irrelevant.** From the beginning of a program and with nothing
to hinder the run, the program without its comments executes the same steps but
for the ignored ones, returns the same result at the same moment, and leaves the
same device behind, with every position renumbered. -/
theorem runs_alike_without_comments (m : Machine) (hip : m.ip = 0) (hm : m.Free) :
    let p := m.program
    let n : Machine := { m with program := p.bare }
    (∀ ts d j, (∃ n', n.Executes ts n' ∧ n'.device = d ∧ n'.ip = j) ↔
      ∃ ss m', m.Executes ss m' ∧ p.bareSteps ss = ts ∧ m'.device = d ∧ p.rank m'.ip = j) ∧
    (∀ g ts d j, (∃ n', n.Returns g ts n' ∧ n'.device = d ∧ n'.ip = j) ↔
      ∃ fault ss m', m.Returns fault ss m' ∧ fault.map (Fault.renumber p.rank) = g ∧
        p.bareSteps ss = ts ∧ m'.device = d ∧ p.rank m'.ip = j) := by
  intro p n
  have he := m.program.bare_embeds
  have hend : ∀ i, p.size ≤ i → p.bare.size ≤ p.rank i :=
    fun i hi => Nat.le_of_eq (Program.rank_of_size_le hi).symm
  have hn : n = m.relocate p.bare p.rank m.steps := by
    rw [relocate, hip, Program.rank_zero, ← hip]
  rw [hn]
  refine ⟨fun ts d j => ⟨fun h => ?_, fun h => ?_⟩, fun g ts d j => ⟨fun h => ?_, fun h => ?_⟩⟩
  · obtain ⟨n', hex, rfl, rfl⟩ := h
    obtain ⟨ss, m', hex', hss, rfl⟩ := executes_of_relocate he hend hex
    exact ⟨ss, m', hex', relocated_eq_bareSteps hex' p ▸ hss, rfl, rfl⟩
  · obtain ⟨ss, m', hex, rfl, rfl, rfl⟩ := h
    have hex' := hex.relocate he m.steps
    rw [relocated_eq_bareSteps hex] at hex'
    exact ⟨_, hex', rfl, rfl⟩
  · obtain ⟨n', hret, rfl, rfl⟩ := h
    obtain ⟨fault, ss, m', hret', hg, hss, rfl⟩ := returns_of_relocate hm he hend hret
    have hex' := ((returns_iff hm).mp hret').1
    exact ⟨fault, ss, m', hret', hg, relocated_eq_bareSteps hex' p ▸ hss, rfl, rfl⟩
  · obtain ⟨fault, ss, m', hret, rfl, rfl, rfl, rfl⟩ := h
    have hret' := returns_relocate hm he hend hret m.steps
    rw [relocated_eq_bareSteps ((returns_iff hm).mp hret).1] at hret'
    exact ⟨_, hret', rfl, rfl⟩

/-- The move at position 9 fails, which is position 5 without the comments, after
two rounds of a loop with comments inside. -/
theorem stuck_without_comments :
    let m := load ⟨#[',', 'a', '[', 'b', '.', '-', ' ', ']', '!', '<']⟩
      ⟨.blank 2 .strict, (Wiring.fresh.supply [2]).closeInput⟩
    m.ip = 0 ∧ m.Free ∧ m.program.bare.chars = #[',', '[', '.', '-', ']', '<'] ∧
      m.Returns (some (.pointerOutOfBounds 9 0 '<')) (m.run 30).seen.toList (m.run 30).machine ∧
      ∃ n', ({ m with program := m.program.bare } : Machine).Returns
          (some (.pointerOutOfBounds 5 0 '<'))
          (m.program.bareSteps (m.run 30).seen.toList) n' ∧
        n'.device.wiring.emitted = [2, 1] ∧ n'.ip = 5 := by
  intro m
  have hm : m.Free := ⟨rfl, rfl⟩
  have hret : m.Returns (some (.pointerOutOfBounds 9 0 '<')) (m.run 30).seen.toList
      (m.run 30).machine := ⟨30, by decide +kernel, rfl, rfl⟩
  obtain ⟨n', hret', hdevice, hip⟩ := ((runs_alike_without_comments m rfl hm).2 _ _ _ _).mpr
    ⟨_, _, _, hret, rfl, rfl, rfl, rfl⟩
  refine ⟨rfl, hm, by decide +kernel, hret, n', hret', ?_, ?_⟩
  · rw [hdevice]
    decide +kernel
  · rw [hip]
    decide +kernel

end Machine

end Brainfuck
