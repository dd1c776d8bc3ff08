/-!
# Brainfuck.Text.Utf8

A text is stored in bytes, one to four for each character.  A reader counts its
characters; a piece is taken out of it by its bytes, and only where characters
meet, because a byte inside a character starts no text.

* `byteIndex_eq` — the byte at which a character starts is the size of the text before it;
* `fromUTF8?_eq_some_iff` — bytes are the text whose bytes they are, and no other;
* `slice?_eq_some_iff` — what taking a piece out gives, and from where to where it succeeds.
-/

namespace Brainfuck.Text

/-- Each character with the byte at which it starts, the first of them at `start`. -/
def positioned (start : Nat) : List Char → List (Nat × Char)
  | [] => []
  | c :: rest => (start, c) :: positioned (start + c.utf8Size) rest

/-- The byte at which a character starts; for a place behind the text, the end of it. -/
def byteIndex (s : String) (index : Nat) : Nat :=
  match (positioned 0 s.toList)[index]? with
  | some (byte, _) => byte
  | none => s.utf8ByteSize

/-- Whether a character starts at a byte, or the text ends there. -/
def IsBoundary (s : String) (byte : Nat) : Prop := (⟨byte⟩ : String.Pos.Raw).IsValid s

instance (s : String) (byte : Nat) : Decidable (IsBoundary s byte) :=
  inferInstanceAs (Decidable ((⟨byte⟩ : String.Pos.Raw).IsValid s))

/-- The piece of a text from one byte to before another, if both are boundaries in
this order. -/
def slice? (s : String) (start stop : Nat) : Option String :=
  if start ≤ stop ∧ IsBoundary s start ∧ IsBoundary s stop then
    String.fromUTF8? (s.toUTF8.extract start stop)
  else none

/-! ## from characters to bytes -/

theorem positioned_getElem? (start index : Nat) (cs : List Char) :
    (positioned start cs)[index]? =
      cs[index]?.map ((start + (String.ofList (cs.take index)).utf8ByteSize, ·)) := by
  induction cs generalizing start index with
  | nil => simp [positioned]
  | cons c cs ih =>
    cases index with
    | zero => simp [positioned]
    | succ index =>
      have hsize : (String.ofList (c :: cs.take index)).utf8ByteSize =
          c.utf8Size + (String.ofList (cs.take index)).utf8ByteSize := by
        rw [← List.singleton_append, String.ofList_append, String.utf8ByteSize_append]
        simp
      simp only [positioned, List.getElem?_cons_succ, ih, List.take_succ_cons, hsize, Nat.add_assoc]

/-- A character starts behind the text before it. -/
theorem byteIndex_eq (s : String) (index : Nat) :
    byteIndex s index = (String.ofList (s.toList.take index)).utf8ByteSize := by
  rw [byteIndex, positioned_getElem?]
  cases h : s.toList[index]? with
  | some c => simp
  | none =>
    have hle : s.toList.length ≤ index := List.getElem?_eq_none_iff.mp h
    simp [List.take_of_length_le hle]

/-! ## pieces of a text -/

theorem isBoundary_iff {s : String} {byte : Nat} :
    IsBoundary s byte ↔ ∃ before after, s = before ++ after ∧ byte = before.utf8ByteSize := by
  rw [IsBoundary, String.Pos.Raw.isValid_iff_exists_append]
  simp [String.Pos.Raw.ext_iff]

theorem isBoundary_byteIndex (s : String) (index : Nat) : IsBoundary s (byteIndex s index) := by
  refine isBoundary_iff.mpr
    ⟨String.ofList (s.toList.take index), String.ofList (s.toList.drop index), ?_, byteIndex_eq s index⟩
  rw [← String.ofList_append, List.take_append_drop, String.ofList_toList]

/-- Two boundaries in order cut a text into three. -/
theorem exists_pieces {s : String} {start stop : Nat} (hle : start ≤ stop)
    (hstart : IsBoundary s start) (hstop : IsBoundary s stop) :
    ∃ before piece after, s = before ++ piece ++ after ∧ start = before.utf8ByteSize ∧
      stop = (before ++ piece).utf8ByteSize := by
  obtain ⟨before, rest, rfl, rfl⟩ := isBoundary_iff.mp hstart
  obtain hbefore | ⟨-, hrest⟩ := String.Pos.Raw.isValid_append.mp hstop
  · have hge : stop ≤ before.utf8ByteSize := hbefore.le_utf8ByteSize
    exact ⟨before, "", rest, by simp, rfl, by simpa using Nat.le_antisymm hge hle⟩
  · have hcut : IsBoundary rest (stop - before.utf8ByteSize) := hrest
    obtain ⟨piece, after, rfl, hsize⟩ := isBoundary_iff.mp hcut
    refine ⟨before, piece, after, by rw [String.append_assoc], rfl, ?_⟩
    rw [String.utf8ByteSize_append]
    omega

/-- The bytes of a text are the text. -/
theorem fromUTF8?_toByteArray (s : String) : String.fromUTF8? s.toByteArray = some s := by
  rw [String.fromUTF8?, dif_pos s.isValidUTF8]
  rfl

theorem slice?_append (before piece after : String) :
    slice? (before ++ piece ++ after) before.utf8ByteSize (before ++ piece).utf8ByteSize =
      some piece := by
  have hstart : IsBoundary (before ++ piece ++ after) before.utf8ByteSize :=
    isBoundary_iff.mpr ⟨before, piece ++ after, String.append_assoc, rfl⟩
  have hstop : IsBoundary (before ++ piece ++ after) (before ++ piece).utf8ByteSize :=
    isBoundary_iff.mpr ⟨before ++ piece, after, rfl, rfl⟩
  have hle : before.utf8ByteSize ≤ (before ++ piece).utf8ByteSize := by
    rw [String.utf8ByteSize_append]
    exact Nat.le_add_right _ _
  have hbytes : (before ++ piece ++ after).toUTF8.extract before.utf8ByteSize
      (before ++ piece).utf8ByteSize = piece.toByteArray := calc
    _ = (before.toByteArray ++ (piece.toByteArray ++ after.toByteArray)).extract
          (before.toByteArray.size + 0) (before.toByteArray.size + piece.toByteArray.size) := by
      simp only [String.toUTF8_eq_toByteArray, String.toByteArray_append, ByteArray.append_assoc,
        String.utf8ByteSize_append, String.size_toByteArray, Nat.add_zero]
    _ = (piece.toByteArray ++ after.toByteArray).extract 0 piece.toByteArray.size :=
      ByteArray.extract_append_size_add
    _ = piece.toByteArray := ByteArray.extract_append_eq_left rfl
  rw [slice?, if_pos ⟨hle, hstart, hstop⟩, hbytes, fromUTF8?_toByteArray]

/-- A piece is what stands between the two boundaries. -/
theorem slice?_eq_some_iff {s piece : String} {start stop : Nat} :
    slice? s start stop = some piece ↔ ∃ before after, s = before ++ piece ++ after ∧
      start = before.utf8ByteSize ∧ stop = (before ++ piece).utf8ByteSize := by
  constructor
  · intro h
    have hguard : start ≤ stop ∧ IsBoundary s start ∧ IsBoundary s stop := by
      unfold slice? at h
      split at h
      · assumption
      · cases h
    obtain ⟨hle, hstart, hstop⟩ := hguard
    obtain ⟨before, piece', after, rfl, rfl, rfl⟩ := exists_pieces hle hstart hstop
    rw [slice?_append] at h
    obtain rfl := Option.some.inj h
    exact ⟨before, after, rfl, rfl, rfl⟩
  · intro h
    obtain ⟨before, after, rfl, rfl, rfl⟩ := h
    exact slice?_append before piece after

/-- The characters from one place to before another.  The first place may lie behind
the second if both lie behind the text. -/
theorem slice?_byteIndex {s : String} {start stop : Nat} (h : start ≤ stop ∨ s.length ≤ stop) :
    byteIndex s start ≤ byteIndex s stop ∧
      slice? s (byteIndex s start) (byteIndex s stop) =
        some (String.ofList ((s.toList.take stop).drop start)) := by
  have hbefore : (s.toList.take stop).take start = s.toList.take start := by
    rw [List.take_take]
    obtain hle | hend := h
    · rw [Nat.min_eq_left hle]
    · rw [← String.length_toList] at hend
      obtain hlt | hle := Nat.lt_or_ge stop start
      · rw [Nat.min_eq_right (Nat.le_of_lt hlt), List.take_of_length_le hend,
          List.take_of_length_le (Nat.le_trans hend (Nat.le_of_lt hlt))]
      · rw [Nat.min_eq_left hle]
  have hstop : String.ofList (s.toList.take stop) =
      String.ofList (s.toList.take start) ++ String.ofList ((s.toList.take stop).drop start) := by
    rw [← String.ofList_append, ← hbefore, List.take_append_drop]
  have htext : s = String.ofList (s.toList.take start) ++
      String.ofList ((s.toList.take stop).drop start) ++ String.ofList (s.toList.drop stop) := by
    rw [← hstop, ← String.ofList_append, List.take_append_drop, String.ofList_toList]
  rw [byteIndex_eq, byteIndex_eq]
  constructor
  · rw [hstop, String.utf8ByteSize_append]
    exact Nat.le_add_right _ _
  · exact slice?_eq_some_iff.mpr ⟨_, _, htext, rfl, congrArg _ hstop⟩

end Brainfuck.Text
