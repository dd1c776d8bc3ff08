import Brainfuck.Machine.Runner
import Brainfuck.Report
import Brainfuck.Proofs.Halting

/-!
# Brainfuck.Proofs.Excerpts

An excerpt is cut out of the text by bytes and pointed into by characters.  Both
countings agree for every text, so the caret of a report stands under the character
that is to blame.

* `Excerpt.around?_eq` — the excerpt around a position, in characters;
* `Machine.Raises.culprit` — the fault of a machine blames a character of its program,
  a move or a bracket, where that character stands;
* `caret_under_the_culprit` — the window, the caret, and both together in a report.
-/

namespace Brainfuck

open Text

/-! ## the character to blame -/

/-- The position and the character that made a step fail.  Nothing in the program is
to blame for a step limit or a cancellation. -/
def Fault.culprit? : Fault → Option (Nat × Char)
  | .pointerOutOfBounds ip _ instruction => some (ip, instruction)
  | .unmatchedBracket ip .opening => some (ip, '[')
  | .unmatchedBracket ip .closing => some (ip, ']')
  | .stepLimit _ => none
  | .cancelled _ => none

namespace Machine

/-- `m.Raises fault`: a fault that comes out of `m`, from a single step, from a run
on its own, or from an atomic action of a run in which others act in between. -/
inductive Raises (m : Machine) (fault : Fault) : Prop where
  | step {m' : Machine} (h : m.step = (.failed fault, m'))
  | run {ss : List Step} {m' : Machine} (h : m.Returns (some fault) ss m')
  | action {r : Runner} (hr : r.machine = m) (hresult : r.result? = none)
      (h : r.advance.2.result? = some (some fault))

variable {m m' : Machine} {fault : Fault} {ip : Nat} {c : Char}

theorem Executes.program_eq {ss : List Step} (h : m.Executes ss m') : m'.program = m.program := by
  induction h with
  | nil => rfl
  | cons head _ ih => exact ih.trans (frame_of_step head).1

/-- A step that blames a character has met it: it is a move or a bracket. -/
theorem Fails.culprit {x : Char} (h : m.Fails x fault) (hculprit : fault.culprit? = some (ip, c)) :
    ip = m.ip ∧ c = x ∧ c ∈ ['<', '>', '[', ']'] := by
  cases h with
  | @move dir hi _ =>
    cases hculprit
    cases dir with
    | left =>
      obtain rfl := Instruction.eq_of_symbol? hi rfl
      exact ⟨rfl, rfl, by decide⟩
    | right =>
      obtain rfl := Instruction.eq_of_symbol? hi rfl
      exact ⟨rfl, rfl, by decide⟩
  | read => cases hculprit
  | loopStart hi =>
    cases hculprit
    obtain rfl := Instruction.eq_of_symbol? hi rfl
    exact ⟨rfl, rfl, by decide⟩
  | loopEnd hi =>
    cases hculprit
    obtain rfl := Instruction.eq_of_symbol? hi rfl
    exact ⟨rfl, rfl, by decide⟩

theorem culprit_of_step (h : m.step = (.failed fault, m'))
    (hculprit : fault.culprit? = some (ip, c)) :
    m.program.at? ip = some c ∧ c ∈ ['<', '>', '[', ']'] := by
  obtain ⟨-, x, hx, hfails⟩ := step_eq_failed_iff.mp h
  obtain ⟨rfl, rfl, hmem⟩ := hfails.culprit hculprit
  exact ⟨hx, hmem⟩

/-- The tests before a step blame no character. -/
theorem culprit?_of_halt? {last : List Notice} (h : m.halt? = some (.failed fault, last)) :
    fault.culprit? = none := by
  unfold halt? at h
  split at h
  · cases h
  · split at h
    · cases h
      rfl
    · split at h
      · cases h
      · split at h
        · cases h
          rfl
        · cases h

/-- An action of a run that returns with such a fault is the execution of a step. -/
theorem exists_step_of_advance {r : Runner} (hresult : r.result? = none)
    (h : r.advance.2.result? = some (some fault)) (hculprit : fault.culprit? = some (ip, c)) :
    ∃ m', r.machine.step = (.failed fault, m') := by
  obtain ⟨m, phase⟩ := r
  cases phase with
  | returned => cases hresult
  | testEnd =>
    simp only [Runner.advance] at h
    split at h <;> cases h
  | testCancel =>
    simp only [Runner.advance] at h
    split at h <;> cases h
    cases hculprit
  | testLimit =>
    simp only [Runner.advance] at h
    split at h
    · cases h
    · split at h <;> cases h
      cases hculprit
  | execute =>
    simp only [Runner.advance] at h
    split at h
    · cases h
    · cases h
    · next fault' m' hstep =>
      cases h
      exact ⟨m', hstep⟩
    · next s m' hstep =>
      by_cases hdelay : m'.delay = 0 <;> simp [Runner.result?, hdelay] at h
  | pause =>
    simp only [Runner.advance] at h
    split at h <;> cases h
    cases hculprit

/-- Whatever a machine is made to do, a character it blames stands in its program where
the fault says, and is a move or a bracket. -/
theorem Raises.culprit (h : m.Raises fault) (hculprit : fault.culprit? = some (ip, c)) :
    m.program.at? ip = some c ∧ c ∈ ['<', '>', '[', ']'] := by
  cases h with
  | step h => exact culprit_of_step h hculprit
  | run h =>
    obtain ⟨hex, -, hhalts⟩ := returns_iff_halts.mp h
    cases hhalts with
    | test htest => simp [culprit?_of_halt? htest] at hculprit
    | step _ hstep =>
      rw [← hex.program_eq]
      exact culprit_of_step hstep hculprit
  | action hr hresult h =>
    subst hr
    obtain ⟨m', hstep⟩ := exists_step_of_advance hresult h hculprit
    exact culprit_of_step hstep hculprit

end Machine

/-! ## the excerpt, in characters -/

namespace Excerpt

/-- The character above the caret. -/
def pointed? (e : Excerpt) : Option Char := e.snippet.toList[e.caret.toList.idxOf '^']?

/-- The characters that an excerpt shows, as they stand in the text. -/
def window (code : String) (pos : Nat) : List Char :=
  (code.toList.take (min (pos + reach + 1) code.length)).drop (pos - reach)

theorem around?_eq {code : String} {pos : Nat} (h : pos + reach + 1 < wordBound) :
    around? code pos = some ⟨String.ofList ((window code pos).map flat),
      String.ofList (List.replicate (min pos reach) ' ' ++ ['^'])⟩ := by
  have horder : pos - reach ≤ min (pos + reach + 1) code.length ∨
      code.length ≤ min (pos + reach + 1) code.length := by omega
  have hcaret : pos - (pos - reach) = min pos reach := by omega
  rw [around?, if_pos h]
  simp only [(slice?_byteIndex horder).2, Option.map_some, String.toList_ofList, hcaret]
  rfl

theorem length_window_le (code : String) (pos : Nat) : (window code pos).length ≤ 2 * reach + 1 := by
  rw [window, List.length_drop, List.length_take]
  omega

/-- The place of an excerpt is behind as many characters of its window as the caret is
behind blanks. -/
theorem window_getElem? (code : String) (pos : Nat) :
    (window code pos)[min pos reach]? = code.toList[pos]? := by
  have hplace : pos - reach + min pos reach = pos := by omega
  rw [window, List.getElem?_drop, hplace, List.getElem?_take]
  split
  · rfl
  · next hge =>
    have hend : code.toList.length ≤ pos := by
      rw [String.length_toList]
      omega
    exact (List.getElem?_eq_none hend).symm

theorem idxOf_caret (n : Nat) : (List.replicate n ' ' ++ ['^']).idxOf '^' = n := by
  simp [List.idxOf_append, List.mem_replicate]

theorem pointed?_of_around? {code : String} {pos : Nat} {e : Excerpt}
    (h : around? code pos = some e) (hpos : pos + reach + 1 < wordBound) :
    e.pointed? = code.toList[pos]?.map flat := by
  rw [around?_eq hpos] at h
  obtain rfl := Option.some.inj h
  rw [pointed?, String.toList_ofList, String.toList_ofList, idxOf_caret, List.getElem?_map,
    window_getElem?]

/-- A move and a bracket are shown as they are. -/
theorem flat_of_mem {c : Char} (h : c ∈ ['<', '>', '[', ']']) : flat c = c := by
  simp only [List.mem_cons, List.not_mem_nil, or_false] at h
  obtain rfl | rfl | rfl | rfl := h <;> rfl

end Excerpt

theorem Report.ofFault_eq (program : Option String) (code : String) {fault : Fault} {ip : Nat}
    {c : Char} (h : fault.culprit? = some (ip, c)) :
    ∃ headline, ofFault program code fault = located headline code ip := by
  cases fault with
  | pointerOutOfBounds => cases h; exact ⟨_, rfl⟩
  | unmatchedBracket _ bracket => cases bracket <;> cases h <;> exact ⟨_, rfl⟩
  | stepLimit => cases h
  | cancelled => cases h

theorem Program.ofText_at? (code : String) (i : Nat) :
    (Program.ofText code).at? i = code.toList[i]? := by
  simp [Program.ofText, Program.at?]

open Excerpt in
/-- **The caret stands under the culprit.**  For every text and every position behind
which 33 more still fit in 64 bits, the bytes between which an excerpt is cut are in
order and are boundaries of characters; the excerpt shows the characters from 32 before
the position to 32 behind it, as far as the text has them, with its line breaks and tabs
as spaces; and the caret, after as many blanks as there are characters shown before the
position, points at the character of the position.  So when a machine that is given the
text stops at a move or a bracket, the report shows this character above the caret. -/
theorem caret_under_the_culprit (code : String) :
    (∀ pos, pos + 33 < wordBound →
      byteIndex code (pos - 32) ≤ byteIndex code (min (pos + 33) code.length) ∧
      IsBoundary code (byteIndex code (pos - 32)) ∧
      IsBoundary code (byteIndex code (min (pos + 33) code.length)) ∧
      ∃ e, around? code pos = some e ∧
        e.snippet.toList =
          ((code.toList.take (min (pos + 33) code.length)).drop (pos - 32)).map flat ∧
        e.snippet.length ≤ 65 ∧
        e.caret.toList = List.replicate (min pos 32) ' ' ++ ['^'] ∧
        e.pointed? = code.toList[pos]?.map flat) ∧
    ∀ (m : Machine) (fault : Fault) (ip : Nat) (c : Char), m.program = .ofText code →
      m.Raises fault → fault.culprit? = some (ip, c) →
      ip < code.length ∧ code.toList[ip]? = some c ∧ c ∈ ['<', '>', '[', ']'] ∧
        (ip + 33 < wordBound → ∃ e, around? code ip = some e ∧ e.pointed? = some c ∧
          ∀ program, ∃ headline, Report.ofFault program code fault =
            some (headline ++ "\n  " ++ e.snippet ++ "\n  " ++ e.caret ++ "\n")) := by
  constructor
  · intro pos hpos
    have hfits : pos + reach + 1 < wordBound := hpos
    have horder : pos - 32 ≤ min (pos + 33) code.length ∨
        code.length ≤ min (pos + 33) code.length := by omega
    refine ⟨(slice?_byteIndex horder).1, isBoundary_byteIndex _ _, isBoundary_byteIndex _ _, _,
      around?_eq hfits, by simp [window, reach], ?_, by simp [reach],
      pointed?_of_around? (around?_eq hfits) hfits⟩
    simpa using! length_window_le code pos
  · intro m fault ip c hm hraises hculprit
    obtain ⟨hat, hmem⟩ := hraises.culprit hculprit
    rw [hm, Program.ofText_at?] at hat
    have hlt : ip < code.toList.length := (List.getElem?_eq_some_iff.mp hat).1
    rw [String.length_toList] at hlt
    refine ⟨hlt, hat, hmem, fun hip => ?_⟩
    have hfits : ip + reach + 1 < wordBound := hip
    have haround : around? code ip = some _ := around?_eq hfits
    refine ⟨_, haround, ?_, fun program => ?_⟩
    · rw [pointed?_of_around? haround hfits, hat, Option.map_some, flat_of_mem hmem]
    · obtain ⟨headline, hreport⟩ := Report.ofFault_eq program code hculprit
      rw [hreport, Report.located, haround]
      exact ⟨_, rfl⟩

/-- A move off a strict tape, behind a line break and two characters of more than one
byte. -/
theorem caret_behind_wide_characters :
    let code := "é\n→<"
    let m : Machine := .load (.ofText code) (.blank 2 .strict)
    let fault : Fault := .pointerOutOfBounds 3 0 '<'
    (3 + 33 < wordBound ∧ m.program = .ofText code ∧ m.Raises fault ∧
      fault.culprit? = some (3, '<')) ∧
    IsBoundary code (byteIndex code (min (3 + 33) code.length)) ∧ 3 < code.length ∧
      ∃ e, Excerpt.around? code 3 = some e ∧ e.snippet = "é →<" ∧ e.caret = "   ^" ∧
        e.pointed? = some '<' := by
  intro code m fault
  have hraises : m.Raises fault := .run ⟨4, by decide +kernel, rfl, rfl⟩
  obtain ⟨hwindow, hculprit⟩ := caret_under_the_culprit code
  obtain ⟨-, -, hstop, e, he, hsnippet, -, hcaret, -⟩ := hwindow 3 (by decide)
  obtain ⟨hlt, -, -, hreport⟩ := hculprit m fault 3 '<' rfl hraises rfl
  obtain ⟨e', he', hpointed, -⟩ := hreport (by decide)
  obtain rfl : e = e' := Option.some.inj (he.symm.trans he')
  refine ⟨⟨by decide, rfl, hraises, rfl⟩, hstop, hlt, e, he, ?_, ?_, hpointed⟩
  · exact String.toList_inj.mp (hsnippet.trans (by decide))
  · exact String.toList_inj.mp (hcaret.trans (by decide))

end Brainfuck
