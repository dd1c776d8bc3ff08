import Brainfuck.Trace
import Brainfuck.Proofs.Numerals

/-!
# Brainfuck.Proofs.Rows

A row of the table of steps is one line, and it can be read in one way only.

Its columns grow with their numbers, and an instruction may look like the bar between
two columns, so a reader cannot go by places or by bars.  What there is to go by is that
no digit ever follows a number:

* `decimal_append_inj`, `column_append_inj` — a number, and a column, ends where its
  digits end, whatever stands behind it;
* `Action.text_inj` — no two actions are described alike;
* `Trace.row_eq_iff` — what two steps have in common that are shown by the same row;
* `OneLine`, `oneLine_escaped`, `Trace.oneLine_row` — texts without line breaks;
* `Trace.each_row_one_line_one_step` — both for all rows.
-/

namespace Brainfuck

namespace Text

/-! ## where a number ends -/

/-- The text does not begin with a digit, so a number before it ends where it begins. -/
def EndsNumber (s : String) : Prop := ∀ c, s.toList.head? = some c → c.isDigit = false

theorem endsNumber_append {lead : String} (h : lead.toList.head? = some ' ') (rest : String) :
    EndsNumber (lead ++ rest) := by
  simp [EndsNumber, h]

theorem isDigit_of_mem_decimal {n : Nat} {c : Char} (h : c ∈ (decimal n).toList) : c.isDigit := by
  rw [decimal, String.toList_ofList] at h
  exact Nat.isDigit_of_mem_toDigits (by decide) (by decide) h

theorem decimal_inj {n m : Nat} : decimal n = decimal m ↔ n = m := by
  constructor
  · intro h
    have hdigits : Nat.toDigits 10 n = Nat.toDigits 10 m := String.ofList_inj.mp h
    calc
      n = Nat.ofDigitChars 10 (Nat.toDigits 10 n) 0 := Nat.ofDigitChars_ten_toDigits.symm
      _ = Nat.ofDigitChars 10 (Nat.toDigits 10 m) 0 := by rw [hdigits]
      _ = m := Nat.ofDigitChars_ten_toDigits
  · rintro rfl
    rfl

theorem dropWhile_decimal_append (n : Nat) {rest : String} (h : EndsNumber rest) :
    (decimal n ++ rest).toList.dropWhile Char.isDigit = rest.toList := by
  rw [String.toList_append]
  exact dropWhile_append_of_head? (fun _ => isDigit_of_mem_decimal) h

/-- A number of any length can be told from what stands behind it. -/
theorem decimal_append_inj {n m : Nat} {a b : String} (ha : EndsNumber a) (hb : EndsNumber b) :
    decimal n ++ a = decimal m ++ b ↔ n = m ∧ a = b := by
  constructor
  · intro h
    have hrest : a = b := by
      rw [← String.toList_inj, ← dropWhile_decimal_append n ha, h, dropWhile_decimal_append m hb]
    subst hrest
    exact ⟨decimal_inj.mp ((String.append_left_inj a).mp h), rfl⟩
  · rintro ⟨rfl, rfl⟩
    rfl

theorem toString_append_inj {c d : Char} {a b : String} :
    c.toString ++ a = d.toString ++ b ↔ c = d ∧ a = b := by
  simp [← String.toList_inj]

/-! ## texts on one line -/

/-- The characters that end a line. -/
def lineBreaks : List Char := ['\n', '\x0b', '\x0c', '\r', '\u0085', '\u2028', '\u2029']

/-- The text has no line break. -/
def OneLine (s : String) : Prop := ∀ c ∈ s.toList, c ∉ lineBreaks

instance (s : String) : Decidable (OneLine s) :=
  List.decidableBAll (· ∉ lineBreaks) s.toList

theorem isBlank_of_mem_lineBreaks : ∀ c ∈ lineBreaks, isBlank c = true :=
  List.all_eq_true.mp (by decide)

theorem isHidden_of_mem_lineBreaks : ∀ c ∈ lineBreaks, isHidden c = true :=
  List.all_eq_true.mp (by decide +kernel)

theorem oneLine_ofList {cs : List Char} :
    OneLine (String.ofList cs) ↔ cs.all (· ∉ lineBreaks) = true := by
  simp only [OneLine, String.toList_ofList, List.all_eq_true, decide_eq_true_eq]

@[simp] theorem oneLine_append {s t : String} : OneLine (s ++ t) ↔ OneLine s ∧ OneLine t := by
  simp only [OneLine, String.toList_append, List.forall_mem_append]

theorem oneLine_toString {c : Char} : OneLine c.toString ↔ c ∉ lineBreaks := by
  simp [OneLine]

theorem digitChar_not_mem_lineBreaks (d : Nat) : d.digitChar ∉ lineBreaks := by
  simp [lineBreaks, Nat.digitChar_ne]

theorem oneLine_toDigits {base : Nat} (hbase : 1 < base) (n : Nat) :
    OneLine (String.ofList (Nat.toDigits base n)) := by
  induction n using Nat.strongRecOn with
  | ind n ih =>
    rw [Nat.toDigits_eq_if hbase]
    have hlast : ∀ d : Nat, OneLine (String.ofList [d.digitChar]) := fun d =>
      oneLine_ofList.mpr (by simp [digitChar_not_mem_lineBreaks])
    split
    · exact hlast n
    · next hge =>
      have hpos : 0 < n := by omega
      rw [String.ofList_append, oneLine_append]
      exact ⟨ih _ (Nat.div_lt_self hpos hbase), hlast _⟩

@[simp] theorem oneLine_decimal (n : Nat) : OneLine (decimal n) := oneLine_toDigits (by decide) n

/-- Quoting leaves no line break: those that have no letter of their own are hidden. -/
theorem oneLine_escaped {quote : Char} (hquote : quote ∉ lineBreaks) (c : Char) :
    OneLine (escaped quote c) := by
  unfold escaped
  split
  · decide
  split
  · decide
  split
  · decide
  split
  · decide
  split
  · next h =>
    have hbackslash : '\\' ∉ lineBreaks := by decide
    have hc : c ∉ lineBreaks := by
      obtain rfl | rfl := h
      · exact hquote
      · exact hbackslash
    exact oneLine_ofList.mpr (by simp [hc, hbackslash])
  split
  · rw [codePoint, oneLine_append, oneLine_append]
    exact ⟨⟨by decide, oneLine_toDigits (by decide) _⟩, by decide⟩
  · next hshown =>
    rw [oneLine_toString]
    exact fun hc => hshown (isHidden_of_mem_lineBreaks c hc)

@[simp] theorem oneLine_quotedChar (c : Char) : OneLine (quotedChar c) := by
  rw [quotedChar, oneLine_append, oneLine_append]
  exact ⟨⟨by decide, oneLine_escaped (by decide) c⟩, by decide⟩

end Text

open Text

/-! ## descriptions of actions -/

namespace Action

/-- The first six characters of a description, which tell the kinds of actions apart. -/
def lead : Action → String
  | .moved _ => "Moved "
  | .incremented _ _ => "Increm"
  | .decremented _ _ => "Decrem"
  | .wrote _ => "Output"
  | .read _ => "Read b"
  | .jumpedForward _ => "Cell i"
  | .enteredLoop => "Enter "
  | .jumpedBack _ => "Cell !"
  | .exitedLoop => "Exit l"
  | .fellThrough => "No mat"
  | .ignored => "Ignore"

theorem take_text (a : Action) : a.text.toList.take 6 = a.lead.toList := by
  cases a <;> unfold text lead <;> simp

theorem text_inj {a b : Action} : a.text = b.text ↔ a = b := by
  refine ⟨fun h => ?_, congrArg text⟩
  have hlead : a.lead = b.lead := by
    rw [← String.toList_inj, ← take_text, ← take_text, h]
  -- The leads leave the eleven pairs of one kind, in which the numbers have to agree.
  cases a <;> cases b <;> simp only [lead, String.reduceEq] at hlead
  case moved.moved | jumpedForward.jumpedForward | jumpedBack.jumpedBack =>
    unfold text at h
    rw [String.append_right_inj, decimal_inj] at h
    rw [h]
  case read.read =>
    unfold text at h
    rw [String.append_right_inj, decimal_inj, UInt8.toNat_inj] at h
    rw [h]
  case incremented.incremented | decremented.decremented =>
    have hends : ∀ rest, EndsNumber (" to " ++ rest) := endsNumber_append rfl
    unfold text at h
    simp only [String.append_assoc] at h
    rw [String.append_right_inj, decimal_append_inj (hends _) (hends _), String.append_right_inj,
      decimal_inj, UInt8.toNat_inj, UInt8.toNat_inj] at h
    rw [h.1, h.2]
  case wrote.wrote =>
    have hends : ∀ rest, EndsNumber (" (" ++ rest) := endsNumber_append rfl
    unfold text at h
    simp only [String.append_assoc] at h
    rw [String.append_right_inj, decimal_append_inj (hends _) (hends _), UInt8.toNat_inj] at h
    rw [h.1]
  all_goals rfl

theorem oneLine_text (a : Action) : OneLine a.text := by
  cases a <;> unfold text <;>
    simp only [oneLine_append, oneLine_decimal, oneLine_quotedChar, and_true] <;> and_intros
  all_goals exact oneLine_ofList.mpr (by decide)

end Action

/-! ## rows -/

namespace Trace

theorem endsNumber_pad (k : Nat) {s : String} (h : EndsNumber s) :
    EndsNumber (String.ofList (List.replicate k ' ') ++ s) := by
  cases k with
  | zero => simpa using h
  | succ k => simp [EndsNumber, List.replicate_succ]

/-- A column can be told from what stands behind it, also where it has grown and the
padding is gone. -/
theorem column_append_inj {width n m : Nat} {a b : String} (ha : EndsNumber a)
    (hb : EndsNumber b) : column width n ++ a = column width m ++ b ↔ n = m ∧ a = b := by
  constructor
  · intro h
    rw [column, column, String.append_assoc, String.append_assoc,
      decimal_append_inj (endsNumber_pad _ ha) (endsNumber_pad _ hb)] at h
    obtain ⟨rfl, hrest⟩ := h
    exact ⟨rfl, (String.append_right_inj _).mp hrest⟩
  · rintro ⟨rfl, rfl⟩
    rfl

theorem shown_eq_iff {c d : Char} : shown c = shown d ↔ c = d ∨ isBlank c ∧ isBlank d := by
  -- The space is white space itself, so nothing else is shown as one.
  have hspace : isBlank ' ' = true := rfl
  unfold shown
  split <;> split <;> grind

theorem row_eq_iff {index index' : Nat} {s s' : Step} :
    row index s = row index' s' ↔
      index = index' ∧ s.ip = s'.ip ∧ s.pointer = s'.pointer ∧ s.cell = s'.cell ∧
        shown s.instruction = shown s'.instruction ∧ s.action = s'.action := by
  have hbar : ∀ rest, EndsNumber (" | " ++ rest) := endsNumber_append rfl
  have hwide : ∀ rest, EndsNumber (" |  " ++ rest) := endsNumber_append rfl
  simp only [row, String.append_assoc]
  rw [column_append_inj (hbar _) (hbar _), String.append_right_inj,
    column_append_inj (hbar _) (hbar _), String.append_right_inj,
    column_append_inj (hbar _) (hbar _), String.append_right_inj,
    column_append_inj (hwide _) (hwide _), String.append_right_inj, UInt8.toNat_inj,
    toString_append_inj, String.append_right_inj, Action.text_inj]

theorem shown_not_mem_lineBreaks (c : Char) : shown c ∉ lineBreaks := by
  unfold shown
  split
  · decide
  · next hblank => exact fun hc => hblank (isBlank_of_mem_lineBreaks c hc)

theorem oneLine_column (width n : Nat) : OneLine (column width n) := by
  have hspace : ' ' ∉ lineBreaks := by decide
  rw [column, oneLine_append, oneLine_ofList]
  exact ⟨oneLine_decimal n, by simp [hspace]⟩

theorem oneLine_row (index : Nat) (s : Step) : OneLine (row index s) := by
  have hbar : OneLine " | " := by decide
  have hwide : OneLine " |  " ∧ OneLine "    | " := by decide
  simp only [row, oneLine_append, oneLine_column, oneLine_toString, shown_not_mem_lineBreaks,
    Action.oneLine_text, hbar, hwide, not_false_eq_true, and_true]

example : row 10000 ⟨1234, '|', 7, 255, .wrote 10⟩ =
    "10000 | 1234 | 7   | 255  |  |    | Output byte 10 ('\\n')" := by
  decide +kernel

/-- **One line, one step.**  For every number and every step, the row has none of the
characters that end a line; and two rows are equal exactly if they have the same number
and show the same position, pointer, cell and action, and the same instruction or white
space for white space. -/
theorem each_row_one_line_one_step (index : Nat) (s : Step) :
    (∀ c ∈ ['\n', '\x0b', '\x0c', '\r', '\u0085', '\u2028', '\u2029'],
      c ∉ (row index s).toList) ∧
    ∀ (index' : Nat) (s' : Step), row index s = row index' s' ↔
      index = index' ∧ s.ip = s'.ip ∧ s.pointer = s'.pointer ∧ s.cell = s'.cell ∧
        s.action = s'.action ∧ (s.instruction = s'.instruction ∨
          isBlank s.instruction ∧ isBlank s'.instruction) := by
  constructor
  · intro c hbreak hc
    exact oneLine_row index s c hc hbreak
  · intro index' s'
    rw [row_eq_iff, shown_eq_iff, and_comm (b := s.action = s'.action)]

/-- A line separator and a tab as instructions, in columns that are too narrow and before
a byte that would end the line: one row for both, and another one for a bar. -/
theorem separator_like_tab_unlike_bar :
    let s : Step := ⟨18446744073709551615, '\u2028', 1000, 255, .wrote 0x85⟩
    '\u2028' ∉ (row 10000 s).toList ∧ '\u0085' ∉ (row 10000 s).toList ∧
      row 10000 s = row 10000 { s with instruction := '\t' } ∧
      row 10000 s ≠ row 10000 { s with instruction := '|' } ∧
      row 10000 s ≠ row 1000 s := by
  intro s
  obtain ⟨hline, hrow⟩ := each_row_one_line_one_step 10000 s
  refine ⟨hline _ (by decide), hline _ (by decide), ?_, ?_, ?_⟩
  · exact (hrow _ _).mpr ⟨rfl, rfl, rfl, rfl, rfl, .inr ⟨rfl, rfl⟩⟩
  · intro h
    obtain ⟨-, -, -, -, -, hinstruction⟩ := (hrow _ _).mp h
    exact absurd hinstruction (by decide)
  · intro h
    exact absurd ((hrow _ _).mp h).1 (by decide)

end Trace

end Brainfuck
