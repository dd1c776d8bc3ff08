import Mathlib.Data.Nat.Init
import Brainfuck.Proofs.Running

/-!
# Brainfuck.Proofs.Relocation

A program that stands in another text, at other positions.

A machine has two uses for its text: the character at its position, and the scan
for the partner of a bracket.  A renumbering of positions embeds a program in
another text (`Program.Embeds`) when both come out the same there.  Comments may
be left out on the way; everything else is kept.

The machine relocated to the other text (`Machine.relocate`) then does what the
machine does, with all positions renumbered and without the comments left out:

* `step_relocate`, `Executes.relocate`, `Stops.relocate` — from the program to
  the other text;
* `Executes.of_relocate`, `Stops.of_relocate` — and back.  What is executed in
  the other text is executed by the program, until the program has ended.

The other text may hold more than the program.  Where it does not, the two
machines return together (`returns_relocate`, `returns_of_relocate`).
-/

namespace Brainfuck

/-! ## renumbering -/

/-- The action, with the position it jumps to renumbered. -/
def Action.renumber (r : Nat → Nat) : Action → Action
  | .jumpedForward j => .jumpedForward (r j)
  | .jumpedBack j => .jumpedBack (r j)
  | a => a

/-- The record, with its positions renumbered. -/
def Step.renumber (r : Nat → Nat) (s : Step) : Step :=
  { s with ip := r s.ip, action := s.action.renumber r }

/-- The fault, with its position renumbered. -/
def Fault.renumber (r : Nat → Nat) : Fault → Fault
  | .pointerOutOfBounds ip pointer instruction => .pointerOutOfBounds (r ip) pointer instruction
  | .unmatchedBracket ip bracket => .unmatchedBracket (r ip) bracket
  | .stepLimit limit => .stepLimit limit
  | .cancelled ip => .cancelled (r ip)

/-- The records of the characters that are kept, renumbered. -/
def relocated (keep : Char → Bool) (r : Nat → Nat) (ss : List Step) : List Step :=
  (ss.filter fun s => keep s.instruction).map (Step.renumber r)

section

variable {keep : Char → Bool} {r : Nat → Nat}

theorem relocated_cons_of_keep {s : Step} (h : keep s.instruction = true) (ss : List Step) :
    relocated keep r (s :: ss) = s.renumber r :: relocated keep r ss := by
  simp only [relocated, List.filter_cons, h, if_true, List.map_cons]

theorem relocated_cons_of_omit {s : Step} (h : keep s.instruction = false) (ss : List Step) :
    relocated keep r (s :: ss) = relocated keep r ss := by
  simp only [relocated, List.filter_cons, h, Bool.false_eq_true, if_false]

theorem relocated_append (ss ts : List Step) :
    relocated keep r (ss ++ ts) = relocated keep r ss ++ relocated keep r ts := by
  rw [relocated, List.filter_append, List.map_append, relocated, relocated]

end

/-! ## a program in another text -/

/-- `p.Embeds q keep r`: the kept characters of `p` stand in `q`, one behind the
other, at the positions that `r` gives, and only comments are left out.  Where a
bracket of `p` finds no partner in `p`, it finds none in the rest of `q` either. -/
structure Program.Embeds (p q : Program) (keep : Char → Bool) (r : Nat → Nat) : Prop where
  kept : ∀ i c, p.at? i = some c → keep c = true → q.at? (r i) = some c ∧ r (i + 1) = r i + 1
  omitted : ∀ i c, p.at? i = some c → keep c = false →
    Instruction.ofChar c = .comment ∧ r (i + 1) = r i
  behind : ∀ i, p.at? i = some '[' → p.firstClose? i = none → q.firstClose? (r p.size) = none
  before : ∀ i, p.at? i = some ']' → p.lastOpen? i = none → q.lastOpen? (r 0) = none

namespace Program.Embeds

variable {p q : Program} {keep : Char → Bool} {r : Nat → Nat} {i : Nat} {c : Char}

/-- What is no comment is kept. -/
theorem keep_of_ne_comment (he : p.Embeds q keep r) (hc : p.at? i = some c)
    (h : Instruction.ofChar c ≠ .comment) : keep c = true := by
  cases hk : keep c with
  | true => rfl
  | false => exact absurd (he.omitted i c hc hk).1 h

theorem succ_of_ne_comment (he : p.Embeds q keep r) (hc : p.at? i = some c)
    (h : Instruction.ofChar c ≠ .comment) : r (i + 1) = r i + 1 :=
  (he.kept i c hc (he.keep_of_ne_comment hc h)).2

/-- The forward scan finds in the other text what it finds in the program, and
goes on behind the program where it finds nothing there. -/
theorem firstClose?_or (he : p.Embeds q keep r) (hi : i ≤ p.size) :
    q.firstClose? (r i) = ((p.firstClose? i).map r).or (q.firstClose? (r p.size)) := by
  -- The scan starts at the end of the program and then one character earlier each time.
  induction hi using Nat.decreasingInduction with
  | self =>
    have hnone : p.firstClose? p.size = none :=
      (p.firstClose?_eq_none_iff _).mpr fun j hj => by
        rw [(p.at?_eq_none_iff j).mpr hj]
        nofun
    rw [hnone]
    rfl
  | of_succ i hi ih =>
    obtain ⟨c, hc⟩ : ∃ c, p.at? i = some c := by
      rw [← Option.ne_none_iff_exists', ne_eq, p.at?_eq_none_iff]
      exact Nat.not_le_of_lt hi
    rw [firstClose?_of_at? hc]
    cases hk : keep c with
    | true =>
      obtain ⟨hat, hnext⟩ := he.kept i c hc hk
      rw [firstClose?_of_at? hat]
      split
      · rfl
      · rw [← hnext, ih]
    | false =>
      obtain ⟨hcomment, hnext⟩ := he.omitted i c hc hk
      have hne : c ≠ ']' := by rintro rfl; cases hcomment
      rw [if_neg hne, ← hnext, ih]

/-- The backward scan finds in the other text what it finds in the program, and
goes on before the program where it finds nothing there. -/
theorem lastOpen?_or (he : p.Embeds q keep r) (hi : i ≤ p.size) :
    q.lastOpen? (r i) = ((p.lastOpen? i).map r).or (q.lastOpen? (r 0)) := by
  induction i with
  | zero => rfl
  | succ i ih =>
    have ih := ih (Nat.le_of_succ_le hi)
    obtain ⟨c, hc⟩ : ∃ c, p.at? i = some c := by
      rw [← Option.ne_none_iff_exists', ne_eq, p.at?_eq_none_iff]
      exact Nat.not_le_of_lt hi
    rw [lastOpen?, hc]
    cases hk : keep c with
    | true =>
      obtain ⟨hat, hnext⟩ := he.kept i c hc hk
      rw [hnext, lastOpen?, hat]
      split
      · rfl
      · exact ih
    | false =>
      obtain ⟨hcomment, hnext⟩ := he.omitted i c hc hk
      have hne : some c ≠ some '[' := by rintro ⟨⟩; cases hcomment
      rw [if_neg hne, hnext, ih]

/-- An opening bracket finds the same partner in both texts. -/
theorem firstClose?_eq (he : p.Embeds q keep r) (hc : p.at? i = some '[') :
    q.firstClose? (r i) = (p.firstClose? i).map r := by
  rw [he.firstClose?_or (Nat.le_of_lt (lt_size_of_at? hc))]
  cases h : p.firstClose? i with
  | some j => rfl
  | none => rw [he.behind i hc h]; rfl

/-- A closing bracket finds the same partner in both texts. -/
theorem lastOpen?_eq (he : p.Embeds q keep r) (hc : p.at? i = some ']') :
    q.lastOpen? (r i) = (p.lastOpen? i).map r := by
  rw [he.lastOpen?_or (Nat.le_of_lt (lt_size_of_at? hc))]
  cases h : p.lastOpen? i with
  | some j => rfl
  | none => rw [he.before i hc h]; rfl

end Program.Embeds

namespace Machine

/-- The machine with its program in the text `q`, its position renumbered, and
this many steps taken. -/
def relocate (m : Machine) (q : Program) (r : Nat → Nat) (steps : Nat) : Machine :=
  { m with program := q, ip := r m.ip, steps := steps }

variable {m m' : Machine} {q : Program} {keep : Char → Bool} {r : Nat → Nat} {k : Nat} {c : Char}

/-! ## one instruction -/

/-- A kept instruction is performed in the other text as it is in the program. -/
theorem Performs.relocate {a : Action} {j : Nat} {d : Device}
    (h : m.Performs (Instruction.ofChar c) a j d) (he : m.program.Embeds q keep r)
    (hc : m.current? = some c) (hkeep : keep c = true) :
    (m.relocate q r k).Performs (Instruction.ofChar c) (a.renumber r) (r j) d ∧
      r (j + 1) = r j + 1 := by
  have hnext : r (m.ip + 1) = r m.ip + 1 := (he.kept _ _ hc hkeep).2
  generalize hi : Instruction.ofChar c = i at h ⊢
  cases h with
  | move h => exact ⟨.move h, hnext⟩
  | increment => exact ⟨.increment, hnext⟩
  | decrement => exact ⟨.decrement, hnext⟩
  | write => exact ⟨.write, hnext⟩
  | readByte h => exact ⟨.readByte h, hnext⟩
  | readEnd h => exact ⟨.readEnd h, hnext⟩
  | enterLoop h => exact ⟨.enterLoop h, hnext⟩
  | exitLoop h => exact ⟨.exitLoop h, hnext⟩
  | comment => exact ⟨.comment, hnext⟩
  | @jumpForward j h hj =>
    obtain rfl := Instruction.eq_of_symbol? hi rfl
    have hclose : q.firstClose? (r m.ip) = some (r j) := by rw [he.firstClose?_eq hc, hj]; rfl
    obtain ⟨-, hat, -⟩ := (Program.firstClose?_eq_some_iff _ _ _).mp hj
    exact ⟨.jumpForward h hclose, he.succ_of_ne_comment hat (by decide)⟩
  | passStart h hj hm =>
    obtain rfl := Instruction.eq_of_symbol? hi rfl
    have hclose : q.firstClose? (r m.ip) = none := by rw [he.firstClose?_eq hc, hj]; rfl
    exact ⟨.passStart h hclose hm, hnext⟩
  | @jumpBack j h hj =>
    obtain rfl := Instruction.eq_of_symbol? hi rfl
    have hopening : q.lastOpen? (r m.ip) = some (r j) := by rw [he.lastOpen?_eq hc, hj]; rfl
    obtain ⟨-, hat, -⟩ := (Program.lastOpen?_eq_some_iff _ _ _).mp hj
    exact ⟨.jumpBack h hopening, he.succ_of_ne_comment hat (by decide)⟩
  | passEnd h hj hm =>
    obtain rfl := Instruction.eq_of_symbol? hi rfl
    have hopening : q.lastOpen? (r m.ip) = none := by rw [he.lastOpen?_eq hc, hj]; rfl
    exact ⟨.passEnd h hopening hm, hnext⟩

theorem Fails.relocate {fault : Fault} (h : m.Fails c fault) (he : m.program.Embeds q keep r)
    (hc : m.current? = some c) : (m.relocate q r k).Fails c (fault.renumber r) := by
  cases h with
  | move hi h => exact .move hi h
  | read hi h => exact .read hi h
  | loopStart hi h hj hm =>
    obtain rfl := Instruction.eq_of_symbol? hi rfl
    have hclose : q.firstClose? (r m.ip) = none := by rw [he.firstClose?_eq hc, hj]; rfl
    exact .loopStart hi h hclose hm
  | loopEnd hi h hj hm =>
    obtain rfl := Instruction.eq_of_symbol? hi rfl
    have hopening : q.lastOpen? (r m.ip) = none := by rw [he.lastOpen?_eq hc, hj]; rfl
    exact .loopEnd hi h hopening hm

theorem Fails.ne_comment {fault : Fault} (h : m.Fails c fault) :
    Instruction.ofChar c ≠ .comment := by
  cases h with
  | move hi | read hi | loopStart hi | loopEnd hi => rw [hi]; nofun

theorem current?_relocate (he : m.program.Embeds q keep r) (hc : m.current? = some c)
    (hkeep : keep c = true) : (m.relocate q r k).current? = some c :=
  (he.kept _ _ hc hkeep).1

/-! ## from the program to the other text -/

/-- Of a step nothing is to be seen in the other text if its comment is left out,
and otherwise the same step. -/
theorem step_relocate {s : Step} (h : m.step = (.stepped s, m')) (he : m.program.Embeds q keep r)
    (k : Nat) :
    (keep s.instruction = true ∧
      (m.relocate q r k).step = (.stepped (s.renumber r), m'.relocate q r (k + 1))) ∨
    (keep s.instruction = false ∧ m'.relocate q r k = m.relocate q r k) := by
  obtain ⟨c, a, j, d, hc, hp, rfl, rfl⟩ := step_eq_stepped_iff.mp h
  cases hkeep : keep c with
  | true =>
    refine .inl ⟨hkeep, ?_⟩
    obtain ⟨hp', hj⟩ := hp.relocate (k := k) he hc hkeep
    refine step_eq_stepped_iff.mpr
      ⟨c, _, _, d, current?_relocate he hc hkeep, hp', rfl, ?_⟩
    simp only [Machine.relocate, proceeded, hj]
  | false =>
    refine .inr ⟨hkeep, ?_⟩
    obtain ⟨hi, hnext⟩ := he.omitted _ _ hc hkeep
    rw [hi] at hp
    cases hp
    simp only [Machine.relocate, proceeded, hnext]

theorem Executes.relocate {ss : List Step} (h : m.Executes ss m')
    (he : m.program.Embeds q keep r) (k : Nat) :
    (m.relocate q r k).Executes (relocated keep r ss)
      (m'.relocate q r (k + (relocated keep r ss).length)) := by
  induction h generalizing k with
  | nil m => exact .nil _
  | @cons m m₁ m₂ s ss head _ ih =>
    have he₁ : m₁.program.Embeds q keep r := (frame_of_step head).1 ▸ he
    obtain ⟨hkeep, hstep⟩ | ⟨homit, heq⟩ := step_relocate head he k
    · have hrest := ih he₁ (k + 1)
      rw [relocated_cons_of_keep hkeep, List.length_cons, Nat.add_comm _ 1, ← Nat.add_assoc]
      exact .cons hstep hrest
    · rw [relocated_cons_of_omit homit, ← heq]
      exact ih he₁ k

theorem Stops.relocate {fault : Fault} (h : m.Stops (some fault))
    (he : m.program.Embeds q keep r) :
    (m.relocate q r k).Stops (some (fault.renumber r)) := by
  obtain ⟨-, c, hc, hfail⟩ := step_eq_failed_iff.mp h
  have hkeep := he.keep_of_ne_comment hc hfail.ne_comment
  exact step_eq_failed_iff.mpr
    ⟨rfl, c, current?_relocate he hc hkeep, hfail.relocate he hc⟩

theorem waiting_relocate (he : m.program.Embeds q keep r) (hc : m.current? = some c)
    (hw : m.Waits c) : (m.relocate q r k).step = (.waiting, m.relocate q r k) := by
  have hkeep := he.keep_of_ne_comment hc (by rw [hw.1]; nofun)
  exact step_eq_waiting_iff.mpr ⟨rfl, c, current?_relocate he hc hkeep, hw⟩

/-! ## from the other text back to the program -/

/-- The machine executes the comments that are left out, up to a character that
is kept or the end of the program; in the other text it stays where it is. -/
theorem exists_skip (he : m.program.Embeds q keep r) (k : Nat) :
    ∃ ss m', m.Executes ss m' ∧ relocated keep r ss = [] ∧
      m'.relocate q r k = m.relocate q r k ∧ ∀ c, m'.current? = some c → keep c = true := by
  -- Every comment that is skipped brings the machine nearer to the end of its program.
  induction hn : m.program.size - m.ip generalizing m with
  | zero =>
    have hnone : m.current? = none :=
      current?_eq_none_iff.mpr (decide_eq_true (Nat.le_of_sub_eq_zero hn))
    exact ⟨[], m, .nil m, rfl, rfl, fun c hc => by rw [hnone] at hc; cases hc⟩
  | succ n ih =>
    cases hc : m.current? with
    | none => exact ⟨[], m, .nil m, rfl, rfl, fun c h => by rw [hc] at h; cases h⟩
    | some c =>
      cases hkeep : keep c with
      | true =>
        refine ⟨[], m, .nil m, rfl, rfl, fun c' h => ?_⟩
        rw [hc] at h
        exact Option.some.inj h ▸ hkeep
      | false =>
        have hp : m.Performs (Instruction.ofChar c) .ignored m.ip m.device := by
          rw [(he.omitted _ _ hc hkeep).1]
          exact .comment
        have hstep := step_eq_stepped_iff.mpr ⟨c, _, _, _, hc, hp, rfl, rfl⟩
        obtain ⟨ss, m', hex, hss, heq, hcur⟩ :=
          ih (m := m.proceeded m.ip m.device) he (by simp only [proceeded]; omega)
        obtain ⟨hk, -⟩ | ⟨-, hsame⟩ := step_relocate hstep he k
        · exact absurd (hkeep.symm.trans hk) Bool.false_ne_true
        · exact ⟨_, m', .cons hstep hex, (relocated_cons_of_omit hkeep ss).trans hss,
            heq.trans hsame, hcur⟩

/-- At a character that is kept, the machine does what it does in the other text,
unless its program has ended. -/
theorem step_of_relocate {t : Step} {n : Machine} (he : m.program.Embeds q keep r)
    (hcur : ∀ c, m.current? = some c → keep c = true)
    (h : (m.relocate q r k).step = (.stepped t, n)) :
    m.isFinished = true ∨ ∃ s m', m.step = (.stepped s, m') ∧ keep s.instruction = true ∧
      t = s.renumber r ∧ n = m'.relocate q r (k + 1) := by
  obtain ⟨hf, -⟩ | ⟨c, a, j, d, hc, -, hstep⟩ | ⟨c, fault, -, -, hstep⟩ | ⟨c, hc, hw, -⟩ :=
    m.step_cases
  · exact .inl hf
  · refine .inr ⟨_, _, hstep, hcur c hc, ?_⟩
    obtain ⟨-, hstep'⟩ | ⟨homit, -⟩ := step_relocate hstep he k
    · rw [hstep'] at h
      obtain ⟨hs, rfl⟩ := Prod.mk.inj h
      exact ⟨(StepResult.stepped.inj hs).symm, rfl⟩
    · exact absurd ((hcur c hc).symm.trans homit) nofun
  · have hstop : m.Stops (some fault) := hstep
    exact absurd h (hstop.relocate he).not_stepped
  · rw [waiting_relocate he hc hw] at h
    cases h

/-- What is executed in the other text begins with what the program executes, and
goes on beyond it only when the program has ended. -/
theorem Executes.of_relocate {ts : List Step} {n : Machine} (he : m.program.Embeds q keep r)
    (h : (m.relocate q r k).Executes ts n) :
    ∃ ss m' us, m.Executes ss m' ∧ ts = relocated keep r ss ++ us ∧
      (m'.relocate q r (k + (relocated keep r ss).length)).Executes us n ∧
      (us = [] ∨ m'.isFinished = true) := by
  induction ts generalizing m k with
  | nil => exact ⟨[], m, [], .nil m, rfl, h, .inl rfl⟩
  | cons t ts ih =>
    cases h with
    | @cons _ n₁ _ _ _ head tail =>
      obtain ⟨ss₀, m₁, hskip, hss₀, heq, hcur⟩ := exists_skip he k
      have he₁ : m₁.program.Embeds q keep r := hskip.frame.1 ▸ he
      rw [← heq] at head
      obtain hf | ⟨s, m₂, hstep, hkeep, rfl, rfl⟩ := step_of_relocate he₁ hcur head
      · refine ⟨ss₀, m₁, t :: ts, hskip, by rw [hss₀]; rfl, ?_, .inr hf⟩
        rw [hss₀]
        exact .cons head tail
      · have he₂ : m₂.program.Embeds q keep r := (frame_of_step hstep).1 ▸ he₁
        obtain ⟨ss, m', us, hex, rfl, hus, hend⟩ := ih he₂ tail
        have hss : relocated keep r (ss₀ ++ s :: ss) = s.renumber r :: relocated keep r ss := by
          rw [relocated_append, hss₀, relocated_cons_of_keep hkeep, List.nil_append]
        refine ⟨ss₀ ++ s :: ss, m', us, hskip.append (.cons hstep hex), ?_, ?_, hend⟩
        · rw [hss]
          rfl
        · rwa [hss, List.length_cons, Nat.add_comm _ 1, ← Nat.add_assoc]

/-- Where the machine stops in the other text, it stops in the program, after
comments that are left out, or the program has ended. -/
theorem Stops.of_relocate {g : Option Fault} (he : m.program.Embeds q keep r)
    (h : (m.relocate q r k).Stops g) :
    ∃ ss m', m.Executes ss m' ∧ relocated keep r ss = [] ∧
      m'.relocate q r k = m.relocate q r k ∧
      (m'.Stops none ∨ ∃ fault, m'.Stops (some fault) ∧ g = some (fault.renumber r)) := by
  obtain ⟨ss, m₁, hskip, hss, heq, hcur⟩ := exists_skip he k
  have he₁ : m₁.program.Embeds q keep r := hskip.frame.1 ▸ he
  refine ⟨ss, m₁, hskip, hss, heq, ?_⟩
  rw [← heq] at h
  obtain ⟨hf, -⟩ | ⟨c, a, j, d, hc, -, hstep⟩ | ⟨c, fault, -, -, hstep⟩ | ⟨c, hc, hw, -⟩ :=
    m₁.step_cases
  · exact .inl hf
  · obtain ⟨-, hstep'⟩ | ⟨homit, -⟩ := step_relocate hstep he₁ k
    · exact absurd hstep' h.not_stepped
    · exact absurd ((hcur c hc).symm.trans homit) nofun
  · have hstop : m₁.Stops (some fault) := hstep
    exact .inr ⟨fault, hstop, h.unique (hstop.relocate he₁)⟩
  · have hwait := waiting_relocate (k := k) he₁ hc hw
    cases g with
    | none => rw [step_eq_finished_iff.mpr ⟨rfl, h⟩] at hwait; cases hwait
    | some g => rw [Stops, hwait] at h; cases h

/-! ## a text that ends with the program -/

/-- Where nothing follows the program in the other text, the machine is at the end
of both at once. -/
theorem Stops.relocate_none (hend : ∀ i, m.program.size ≤ i → q.size ≤ r i) (h : m.Stops none) :
    (m.relocate q r k).Stops none :=
  decide_eq_true (hend _ (of_decide_eq_true h))

theorem executes_of_relocate {ts : List Step} {n : Machine} (he : m.program.Embeds q keep r)
    (hend : ∀ i, m.program.size ≤ i → q.size ≤ r i) (h : (m.relocate q r k).Executes ts n) :
    ∃ ss m', m.Executes ss m' ∧ relocated keep r ss = ts ∧
      n = m'.relocate q r (k + ts.length) := by
  obtain ⟨ss, m', us, hex, rfl, hus, hfinished⟩ := Executes.of_relocate he h
  rw [← hex.frame.1] at hend
  have hnil : us = [] := by
    cases hfinished with
    | inl hnil => exact hnil
    | inr hf =>
      have hstop := Stops.relocate_none (k := k + (relocated keep r ss).length) hend hf
      cases hus with
      | nil => rfl
      | cons head _ => exact absurd head hstop.not_stepped
  subst hnil
  cases hus
  exact ⟨ss, m', hex, (List.append_nil _).symm, by rw [List.append_nil]⟩

theorem returns_relocate {fault : Option Fault} {ss : List Step} (hm : m.Free)
    (he : m.program.Embeds q keep r) (hend : ∀ i, m.program.size ≤ i → q.size ≤ r i)
    (h : m.Returns fault ss m') (k : Nat) :
    (m.relocate q r k).Returns (fault.map (Fault.renumber r)) (relocated keep r ss)
      (m'.relocate q r (k + (relocated keep r ss).length)) := by
  obtain ⟨hex, hstop⟩ := (returns_iff hm).mp h
  have hfree : (m.relocate q r k).Free := ⟨hm.limit, hm.cancelled⟩
  refine (returns_iff hfree).mpr ⟨hex.relocate he k, ?_⟩
  rw [← hex.frame.1] at he hend
  cases fault with
  | none => exact hstop.relocate_none hend
  | some fault => exact hstop.relocate he

theorem returns_of_relocate {g : Option Fault} {ts : List Step} {n : Machine} (hm : m.Free)
    (he : m.program.Embeds q keep r) (hend : ∀ i, m.program.size ≤ i → q.size ≤ r i)
    (h : (m.relocate q r k).Returns g ts n) :
    ∃ fault ss m', m.Returns fault ss m' ∧ fault.map (Fault.renumber r) = g ∧
      relocated keep r ss = ts ∧ n = m'.relocate q r (k + ts.length) := by
  have hfree : (m.relocate q r k).Free := ⟨hm.limit, hm.cancelled⟩
  obtain ⟨hex, hstop⟩ := (returns_iff hfree).mp h
  obtain ⟨ss, m₁, hex₁, rfl, rfl⟩ := executes_of_relocate he hend hex
  rw [← hex₁.frame.1] at he hend
  -- Comments left out behind the last instruction are still to be executed here.
  obtain ⟨ss', m', hskip, hss', hsame, hstop'⟩ := Stops.of_relocate he hstop
  have hex' := hex₁.append hskip
  have hss : relocated keep r (ss ++ ss') = relocated keep r ss := by
    rw [relocated_append, hss', List.append_nil]
  obtain hf | ⟨fault, hfault, rfl⟩ := hstop'
  · rw [← hskip.frame.1] at hend
    have hg : g = none := hstop.unique (hsame ▸ hf.relocate_none hend)
    exact ⟨none, _, m', (returns_iff hm).mpr ⟨hex', hf⟩, hg.symm, hss, hsame.symm⟩
  · exact ⟨some fault, _, m', (returns_iff hm).mpr ⟨hex', hfault⟩, rfl, hss, hsame.symm⟩

end Machine

end Brainfuck
