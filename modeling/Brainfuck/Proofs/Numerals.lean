import Brainfuck.Settings
import Brainfuck.Text.Blank

/-!
# Brainfuck.Proofs.Numerals

What a text has to look like to be a number or one of the words for a setting.

The readers go through a text once and stop at the first thing wrong.  Here the
texts that they accept are described as a whole, and what such a text denotes is
said by place value and letter by letter:

* `IsNumeral`, `readWord_eq_ok_iff` — numbers of 64 bits;
* `Spells`, `PointerPolicy.ofWord_eq_ok_iff`, `BracketMode.ofWord_eq_ok_iff` — words in
  any mixture of upper and lower case;
* `IsTrimmed`, `isTrimmed_iff` — texts without the white space around them.
-/

namespace Brainfuck

namespace Text

/-! ## numbers -/

/-- A decimal digit. -/
def IsDigit (c : Char) : Prop := '0' ≤ c ∧ c ≤ '9'

/-- The number that decimal digits spell, each by its place. -/
def spelled : List Char → Nat
  | [] => 0
  | c :: cs => (c.toNat - '0'.toNat) * Nat.pow 10 cs.length + spelled cs

/-- `IsNumeral cs n`: the characters are a plus sign or none and then one or more
decimal digits, of which any number may be leading zeros, and the digits spell `n`,
which is below `2 ^ 64`. -/
def IsNumeral (cs : List Char) (n : Nat) : Prop :=
  ∃ sign digits, cs = sign ++ digits ∧ (sign = [] ∨ sign = ['+']) ∧ digits ≠ [] ∧
    (∀ c ∈ digits, IsDigit c) ∧ spelled digits = n ∧ n < wordBound

theorem digit?_eq_some_iff {c : Char} {d : Nat} :
    digit? c = some d ↔ IsDigit c ∧ c.toNat - '0'.toNat = d := by
  unfold digit? IsDigit
  split
  · next h => simp [h]
  · next h => simp [h]

theorem digit?_eq_none_iff {c : Char} : digit? c = none ↔ ¬ IsDigit c := by
  unfold digit? IsDigit
  split
  · next h => simp [h]
  · next h => simp [h]

theorem not_isDigit_plus : ¬ IsDigit '+' := by
  unfold IsDigit
  decide

/-- What has been read already is not lost when more digits follow, so a number that
is too large in the middle is too large in the end. -/
theorem readDigits_eq_ok_iff {value n : Nat} (hvalue : value < wordBound) (cs : List Char) :
    readDigits value cs = .ok n ↔
      (∀ c ∈ cs, IsDigit c) ∧ value * Nat.pow 10 cs.length + spelled cs = n ∧ n < wordBound := by
  induction cs generalizing value with
  | nil =>
    have hone : value * Nat.pow 10 0 + 0 = value := Nat.mul_one value
    simp only [readDigits, spelled, List.length_nil, Except.ok.injEq, hone]
    constructor
    · rintro rfl
      exact ⟨by simp, rfl, hvalue⟩
    · rintro ⟨-, h, -⟩
      exact h
  | cons c cs ih =>
    rw [readDigits]
    cases hd : digit? c with
    | none =>
      have hc := digit?_eq_none_iff.mp hd
      simp [hc]
    | some d =>
      obtain ⟨hc, rfl⟩ := digit?_eq_some_iff.mp hd
      have hten : Nat.pow 10 (cs.length + 1) = Nat.pow 10 cs.length * 10 := rfl
      have hplaces : value * Nat.pow 10 (cs.length + 1) +
          (c.toNat - '0'.toNat) * Nat.pow 10 cs.length =
          (value * 10 + (c.toNat - '0'.toNat)) * Nat.pow 10 cs.length := by
        rw [hten, Nat.add_mul, Nat.mul_assoc, Nat.mul_comm 10]
      simp only [spelled, List.length_cons, List.mem_cons, forall_eq_or_imp, hc, true_and,
        ← Nat.add_assoc, hplaces]
      split
      · next hlt => exact ih hlt
      · next hge =>
        have hpos : 0 < Nat.pow 10 cs.length := Nat.pow_pos (by decide)
        have hgrows := Nat.le_mul_of_pos_right (value * 10 + (c.toNat - '0'.toNat)) hpos
        simp only [reduceCtorEq, false_iff, not_and]
        intro _ h
        omega

theorem isNumeral_cons_plus {cs : List Char} {n : Nat} :
    IsNumeral ('+' :: cs) n ↔
      cs ≠ [] ∧ (∀ c ∈ cs, IsDigit c) ∧ spelled cs = n ∧ n < wordBound := by
  constructor
  · rintro ⟨sign, digits, hcs, rfl | rfl, hne, hdigits, hn⟩
    · rw [List.nil_append] at hcs
      subst hcs
      exact absurd (hdigits '+' (by simp)) not_isDigit_plus
    · obtain rfl : cs = digits := by simpa using hcs
      exact ⟨hne, hdigits, hn⟩
  · rintro ⟨hne, hdigits, hn⟩
    exact ⟨['+'], cs, rfl, .inr rfl, hne, hdigits, hn⟩

theorem isNumeral_cons_of_ne {c : Char} (hc : c ≠ '+') {cs : List Char} {n : Nat} :
    IsNumeral (c :: cs) n ↔
      (∀ x ∈ c :: cs, IsDigit x) ∧ spelled (c :: cs) = n ∧ n < wordBound := by
  constructor
  · rintro ⟨sign, digits, hcs, rfl | rfl, -, hdigits, hn⟩
    · rw [List.nil_append] at hcs
      subst hcs
      exact ⟨hdigits, hn⟩
    · exact absurd (List.cons.inj hcs).1 hc
  · intro h
    exact ⟨[], c :: cs, rfl, .inl rfl, by simp, h⟩

/-- **Numbers.**  The reader accepts exactly the numerals of 64 bits, and reads what
they spell. -/
theorem readWord_eq_ok_iff (s : String) (n : Nat) :
    readWord s = .ok n ↔ IsNumeral s.toList n := by
  have hread : ∀ cs, readDigits 0 cs = .ok n ↔
      (∀ c ∈ cs, IsDigit c) ∧ 0 * Nat.pow 10 cs.length + spelled cs = n ∧ n < wordBound :=
    fun cs => readDigits_eq_ok_iff (by decide) cs
  simp only [Nat.zero_mul, Nat.zero_add] at hread
  unfold readWord
  split
  · next h => simp [h, IsNumeral]
  · next h => simp [h, isNumeral_cons_plus]
  · next digits hne h => rw [h, isNumeral_cons_plus, hread, and_iff_right hne]
  · next hne _ hplus =>
    cases h : s.toList with
    | nil => exact absurd h hne
    | cons c cs =>
      have hc : c ≠ '+' := by
        rintro rfl
        exact hplus cs h
      rw [hread, isNumeral_cons_of_ne hc]

example : readWord "+00018446744073709551615" = .ok 18446744073709551615 ∧
    readWord "18446744073709551616" = .error .tooLarge ∧
    readWord "1 0" = .error .invalidDigit := by
  refine ⟨?_, ?_, ?_⟩ <;> rfl

/-! ## words -/

/-- `Spells word cs`: the characters are those of a word in lower case, each of them
in lower or in upper case. -/
def Spells : List Char → List Char → Prop
  | [], [] => True
  | w :: word, c :: cs => (c = w ∨ c = w.toUpper) ∧ Spells word cs
  | _, _ => False

theorem toNat_toUpper {w : Char} (hw : 'a' ≤ w ∧ w ≤ 'z') : w.toUpper.toNat + 32 = w.toNat := by
  have hlow : 97 ≤ w.val.toNat := hw.1
  have hhigh : w.val.toNat ≤ 122 := hw.2
  have hshift : ('A'.val - 'a'.val).toNat = 4294967264 := by decide
  delta Char.toUpper
  rw [dif_pos (show 'a'.val ≤ w.val ∧ w.val ≤ 'z'.val from hw), Char.toNat,
    UInt32.toNat_add, hshift, Char.toNat]
  omega

theorem toNat_toLower {c : Char} (hc : 'A' ≤ c ∧ c ≤ 'Z') : c.toLower.toNat = c.toNat + 32 := by
  have hhigh : c.val.toNat ≤ 90 := hc.2
  have hshift : ('a'.val - 'A'.val).toNat = 32 := by decide
  delta Char.toLower
  rw [dif_pos (show 'A'.val ≤ c.val ∧ c.val ≤ 'Z'.val from hc), Char.toNat,
    UInt32.toNat_add, hshift, Char.toNat]
  omega

theorem toLower_eq_self {c : Char} (hc : ¬ ('A' ≤ c ∧ c ≤ 'Z')) : c.toLower = c :=
  dif_neg hc

theorem toLower_eq_iff {w c : Char} (hw : 'a' ≤ w ∧ w ≤ 'z') :
    c.toLower = w ↔ c = w ∨ c = w.toUpper := by
  have hupper := toNat_toUpper hw
  have hlow : 97 ≤ w.toNat := hw.1
  have hhigh : w.toNat ≤ 122 := hw.2
  rw [← Char.toNat_inj, ← Char.toNat_inj, ← Char.toNat_inj]
  by_cases hc : 'A' ≤ c ∧ c ≤ 'Z'
  · have hlower := toNat_toLower hc
    have hle : c.toNat ≤ 90 := hc.2
    omega
  · rw [toLower_eq_self hc]
    have houtside : ¬ (65 ≤ c.toNat ∧ c.toNat ≤ 90) := hc
    omega

theorem spells_iff {word : List Char} (hword : ∀ w ∈ word, 'a' ≤ w ∧ w ≤ 'z') (cs : List Char) :
    Spells word cs ↔ cs.map Char.toLower = word := by
  induction word generalizing cs with
  | nil => cases cs <;> simp [Spells]
  | cons w word ih =>
    cases cs with
    | nil => simp [Spells]
    | cons c cs =>
      obtain ⟨hw, hrest⟩ := List.forall_mem_cons.mp hword
      rw [Spells, List.map_cons, List.cons.injEq, toLower_eq_iff hw, ih hrest]

/-! ## white space around a text -/

/-- `IsTrimmed cs core`: the characters are `core` with white space before and behind
it, and `core` neither begins nor ends with white space. -/
def IsTrimmed (cs core : List Char) : Prop :=
  ∃ front back, cs = front ++ core ++ back ∧ (∀ c ∈ front ++ back, isBlank c = true) ∧
    (∀ c, core.head? = some c → isBlank c = false) ∧
    ∀ c, core.getLast? = some c → isBlank c = false

theorem dropWhile_append_of_head? {α : Type} {p : α → Bool} {front rest : List α}
    (hfront : ∀ a ∈ front, p a = true) (hrest : ∀ a, rest.head? = some a → p a = false) :
    (front ++ rest).dropWhile p = rest := by
  rw [List.dropWhile_append_of_pos hfront]
  cases rest with
  | nil => rfl
  | cons a rest =>
    have ha := hrest a rfl
    simp [ha]

theorem IsTrimmed.eq_trim {s : String} {core : List Char} (h : IsTrimmed s.toList core) :
    (trim s).toList = core := by
  obtain ⟨front, back, hs, hblank, hhead, hlast⟩ := h
  have hfront : ∀ c ∈ front, isBlank c = true := fun c hc => hblank c (by simp [hc])
  have hback : ∀ c ∈ back.reverse, isBlank c = true := fun c hc => hblank c (by simp_all)
  rw [trim, String.toList_ofList, hs]
  cases core with
  | nil =>
    have hall : (front ++ back ++ []).dropWhile isBlank = [] :=
      dropWhile_append_of_head? hblank (by simp)
    simp only [List.append_nil] at hall ⊢
    rw [hall]
    rfl
  | cons c core =>
    have hdropped : (front ++ (c :: core) ++ back).dropWhile isBlank = (c :: core) ++ back := by
      rw [List.append_assoc]
      exact dropWhile_append_of_head? hfront (by simpa using hhead)
    have hlast' : ∀ x, (c :: core).reverse.head? = some x → isBlank x = false := by
      simpa only [List.head?_reverse] using hlast
    rw [hdropped, List.reverse_append, dropWhile_append_of_head? hback hlast', List.reverse_reverse]

theorem head?_dropWhile {α : Type} {p : α → Bool} {as : List α} {a : α}
    (h : (as.dropWhile p).head? = some a) : p a = false := by
  have hnot := List.head?_dropWhile_not p as
  rw [h] at hnot
  simpa using hnot

theorem isTrimmed_trim (s : String) : IsTrimmed s.toList (trim s).toList := by
  rw [trim, String.toList_ofList]
  generalize hrest : s.toList.dropWhile isBlank = rest
  generalize hcore : (rest.reverse.dropWhile isBlank).reverse = core
  have hs : s.toList = s.toList.takeWhile isBlank ++ rest := by
    rw [← hrest, List.takeWhile_append_dropWhile]
  have hsplit : rest = core ++ (rest.reverse.takeWhile isBlank).reverse := by
    rw [← hcore, ← List.reverse_append, List.takeWhile_append_dropWhile, List.reverse_reverse]
  refine ⟨s.toList.takeWhile isBlank, (rest.reverse.takeWhile isBlank).reverse, ?_, ?_, ?_, ?_⟩
  · rw [List.append_assoc, ← hsplit, ← hs]
  · intro c hc
    rw [List.mem_append, List.mem_reverse] at hc
    obtain hc | hc := hc
    · exact List.all_eq_true.mp List.all_takeWhile c hc
    · exact List.all_eq_true.mp List.all_takeWhile c hc
  · intro c hc
    have hhead : rest.head? = some c := by
      rw [hsplit, List.head?_append, hc]
      rfl
    rw [← hrest] at hhead
    exact head?_dropWhile hhead
  · intro c hc
    rw [← hcore, List.getLast?_reverse] at hc
    exact head?_dropWhile hc

/-- **White space.**  A text without the white space around it is what is left when
all of it has been taken away, and only it. -/
theorem isTrimmed_iff (s : String) (core : List Char) :
    IsTrimmed s.toList core ↔ (trim s).toList = core := by
  constructor
  · exact IsTrimmed.eq_trim
  · rintro rfl
    exact isTrimmed_trim s

end Text

/-! ## the words for settings -/

open Text

/-- Comparing without regard to case is comparing letter by letter. -/
theorem spells_toList_iff {word : String} (hword : ∀ w ∈ word.toList, 'a' ≤ w ∧ w ≤ 'z')
    (s : String) : Spells word.toList s.toList ↔ s.toLower = word := by
  rw [spells_iff hword, ← String.toList_map, String.toList_inj]
  rfl

theorem PointerPolicy.ofWord_eq_ok_iff (s : String) (p : PointerPolicy) :
    ofWord s = .ok p ↔ Spells p.word.toList s.toList := by
  have hall : p.word.toList.all (fun w => 'a' ≤ w ∧ w ≤ 'z') = true := by cases p <;> decide
  have hword : ∀ w ∈ p.word.toList, 'a' ≤ w ∧ w ≤ 'z' := by
    simpa only [List.all_eq_true, decide_eq_true_eq] using hall
  rw [spells_toList_iff hword, ofWord]
  split <;> cases p <;> simp_all [word]

theorem BracketMode.ofWord_eq_ok_iff (s : String) (m : BracketMode) :
    ofWord s = .ok m ↔ Spells m.word.toList s.toList := by
  have hall : m.word.toList.all (fun w => 'a' ≤ w ∧ w ≤ 'z') = true := by cases m <;> decide
  have hword : ∀ w ∈ m.word.toList, 'a' ≤ w ∧ w ≤ 'z' := by
    simpa only [List.all_eq_true, decide_eq_true_eq] using hall
  rw [spells_toList_iff hword, ofWord]
  split <;> cases m <;> simp_all [word]

end Brainfuck
