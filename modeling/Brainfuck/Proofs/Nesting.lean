import Brainfuck.Proofs.Execution

/-!
# Brainfuck.Proofs.Nesting

For which texts the search of a machine is right about nesting.

A machine takes the nearest bracket of the other kind for the partner of a bracket.
The partner by nesting is found by counting: a bracket of the same kind on the way
opens one more level, a bracket of the other kind closes one (`Bracket.nested?`).
Both look away from the bracket, through the characters that it faces
(`Program.facing`).

* `Bracket.nearest?_eq_nested?_iff` — the two agree on what a bracket faces exactly
  when the first bracket there, if any is of the other kind, is of that kind
  (`Bracket.Near`);
* `Bracket.Settled`, `Bracket.settled_iff` — the sequences of brackets in which that
  is so for each of them;
* `Program.scansRightly_iff` — the texts for which the search is right everywhere;
* `scan_right_iff_and_jumps` — these texts, and what a jump reports.
-/

namespace Brainfuck

namespace Bracket

/-- The bracket that a character is. -/
def ofChar? : Char → Option Bracket
  | '[' => some .opening
  | ']' => some .closing
  | _ => none

/-- The other kind. -/
def other : Bracket → Bracket
  | .opening => .closing
  | .closing => .opening

/-- How far it is from a bracket of kind `b` to its partner by nesting, in the
characters that it faces, while `depth` brackets of its own kind are open. -/
def nested? (b : Bracket) (depth : Nat) : List Char → Option Nat
  | [] => none
  | c :: rest =>
    if ofChar? c = some b then (b.nested? (depth + 1) rest).map (· + 1)
    else if ofChar? c = some b.other then
      match depth with
      | 0 => some 1
      | depth + 1 => (b.nested? depth rest).map (· + 1)
    else (b.nested? depth rest).map (· + 1)

/-- How far it is to the nearest bracket of the other kind. -/
def nearest? (b : Bracket) : List Char → Option Nat
  | [] => none
  | c :: rest => if ofChar? c = some b.other then some 1 else (b.nearest? rest).map (· + 1)

/-- If there is a bracket of the other kind at all, the first bracket is one. -/
def Near (b : Bracket) (bs : List Bracket) : Prop := b.other ∉ bs ∨ bs.head? = some b.other

/-- In a sequence of brackets, what each of them faces is near. -/
def Settled (bs : List Bracket) : Prop :=
  ∀ before b after, bs = before ++ b :: after →
    match b with
    | .opening => opening.Near after
    | .closing => closing.Near before.reverse

end Bracket

namespace Program

/-- The bracket at a position. -/
def bracketAt? (p : Program) (i : Nat) : Option Bracket := (p.at? i).bind Bracket.ofChar?

/-- The brackets of a text in order, without all other characters. -/
def brackets (p : Program) : List Bracket := p.chars.toList.filterMap Bracket.ofChar?

/-- The characters that a bracket at position `i` faces, the nearest first. -/
def facing (p : Program) (i : Nat) : Bracket → List Char
  | .opening => p.chars.toList.drop (i + 1)
  | .closing => (p.chars.toList.take i).reverse

/-- The position that is `d` characters away from position `i`, on the side which a
bracket faces. -/
def ahead (i d : Nat) : Bracket → Nat
  | .opening => i + d
  | .closing => i - d

/-- The position of the partner by nesting of the bracket at position `i`. -/
def nestedPartner? (p : Program) (i : Nat) (b : Bracket) : Option Nat :=
  (b.nested? 0 (p.facing i b)).map (ahead i · b)

/-- The position that the search of a machine finds for the bracket at position `i`. -/
def scannedPartner? (p : Program) (i : Nat) : Bracket → Option Nat
  | .opening => p.firstClose? i
  | .closing => p.lastOpen? i

/-- The search finds the partner by nesting, or none where there is none, for every
bracket of the text. -/
def ScansRightly (p : Program) : Prop :=
  ∀ i b, p.bracketAt? i = some b → p.scannedPartner? i b = p.nestedPartner? i b

end Program

/-! ## what one bracket faces -/

namespace Bracket

theorem ofChar?_eq_opening_iff (c : Char) : ofChar? c = some .opening ↔ c = '[' := by
  unfold ofChar?
  split <;> simp_all

theorem ofChar?_eq_closing_iff (c : Char) : ofChar? c = some .closing ↔ c = ']' := by
  unfold ofChar?
  split <;> simp_all

theorem other_ne (b : Bracket) : b.other ≠ b := by
  cases b <;> decide

theorem eq_or_eq_other (a b : Bracket) : a = b ∨ a = b.other := by
  cases a <;> cases b <;> decide

/-- A character is a bracket of one kind, of the other, or none. -/
theorem ofChar?_cases (b : Bracket) (c : Char) :
    ofChar? c = none ∨ ofChar? c = some b ∨ ofChar? c = some b.other := by
  cases h : ofChar? c with
  | none => exact .inl rfl
  | some a =>
    obtain rfl | rfl := a.eq_or_eq_other b
    · exact .inr (.inl rfl)
    · exact .inr (.inr rfl)

section searches

variable {b : Bracket} {c : Char} (cs : List Char)

theorem nested?_cons_none (depth : Nat) (h : ofChar? c = none) :
    b.nested? depth (c :: cs) = (b.nested? depth cs).map (· + 1) := by
  simp [nested?, h]

theorem nested?_cons_own (depth : Nat) (h : ofChar? c = some b) :
    b.nested? depth (c :: cs) = (b.nested? (depth + 1) cs).map (· + 1) := by
  simp [nested?, h]

theorem nested?_zero_cons_other (h : ofChar? c = some b.other) :
    b.nested? 0 (c :: cs) = some 1 := by
  simp [nested?, h, other_ne]

theorem nested?_succ_cons_other (depth : Nat) (h : ofChar? c = some b.other) :
    b.nested? (depth + 1) (c :: cs) = (b.nested? depth cs).map (· + 1) := by
  simp [nested?, h, other_ne]

theorem nearest?_cons_other (h : ofChar? c = some b.other) : b.nearest? (c :: cs) = some 1 := by
  rw [nearest?, if_pos h]

theorem nearest?_cons_of_ne (h : ofChar? c ≠ some b.other) :
    b.nearest? (c :: cs) = (b.nearest? cs).map (· + 1) := by
  rw [nearest?, if_neg h]

end searches

variable {b : Bracket} {cs : List Char}

theorem map_succ_inj {x y : Option Nat} : x.map (· + 1) = y.map (· + 1) ↔ x = y :=
  (Option.map_injective fun _ _ => Nat.succ.inj).eq_iff

theorem nested?_pos {depth d : Nat} (h : b.nested? depth cs = some d) : 0 < d := by
  cases cs with
  | nil => cases h
  | cons c rest =>
    have hpos : ∀ x : Option Nat, x.map (· + 1) = some d → 0 < d := by
      intro x hx
      obtain ⟨e, -, rfl⟩ := Option.map_eq_some_iff.mp hx
      exact Nat.succ_pos e
    unfold nested? at h
    split at h
    · exact hpos _ h
    · split at h
      · cases depth with
        | zero => cases h; exact Nat.one_pos
        | succ depth => exact hpos _ h
      · exact hpos _ h

theorem nested?_le {depth d : Nat} (h : b.nested? depth cs = some d) : d ≤ cs.length := by
  induction cs generalizing depth d with
  | nil => cases h
  | cons c rest ih =>
    have hle : ∀ depth, (b.nested? depth rest).map (· + 1) = some d → d ≤ rest.length + 1 := by
      intro depth hx
      obtain ⟨e, he, rfl⟩ := Option.map_eq_some_iff.mp hx
      exact Nat.succ_le_succ (ih he)
    unfold nested? at h
    split at h
    · exact hle _ h
    · split at h
      · cases depth with
        | zero => cases h; exact Nat.succ_le_succ (Nat.zero_le _)
        | succ depth => exact hle _ h
      · exact hle _ h

theorem nearest?_le {d : Nat} (h : b.nearest? cs = some d) : d ≤ cs.length := by
  induction cs generalizing d with
  | nil => cases h
  | cons c rest ih =>
    unfold nearest? at h
    split at h
    · cases h
      exact Nat.succ_le_succ (Nat.zero_le _)
    · obtain ⟨e, he, rfl⟩ := Option.map_eq_some_iff.mp h
      exact Nat.succ_le_succ (ih he)

theorem nested?_eq_none (depth : Nat) (h : b.other ∉ cs.filterMap ofChar?) :
    b.nested? depth cs = none := by
  induction cs generalizing depth with
  | nil => rfl
  | cons c rest ih =>
    obtain hc | hc | hc := b.ofChar?_cases c
    · rw [List.filterMap_cons_none hc] at h
      rw [nested?_cons_none rest depth hc, ih depth h, Option.map_none]
    · rw [List.filterMap_cons_some hc, List.mem_cons, not_or] at h
      rw [nested?_cons_own rest depth hc, ih (depth + 1) h.2, Option.map_none]
    · rw [List.filterMap_cons_some hc, List.mem_cons, not_or] at h
      exact absurd rfl h.1

theorem nearest?_eq_none_iff : b.nearest? cs = none ↔ b.other ∉ cs.filterMap ofChar? := by
  induction cs with
  | nil => simp [nearest?]
  | cons c rest ih =>
    obtain hc | hc | hc := b.ofChar?_cases c
    · rw [nearest?_cons_of_ne rest (by simp [hc]), Option.map_eq_none_iff, ih,
        List.filterMap_cons_none hc]
    · rw [nearest?_cons_of_ne rest (by simp [hc, (other_ne b).symm]), Option.map_eq_none_iff, ih,
        List.filterMap_cons_some hc, List.mem_cons, not_or, and_iff_right (other_ne b)]
    · simp [nearest?_cons_other rest hc, List.filterMap_cons_some hc]

/-- Within an inner loop the nearest bracket of the other kind is not the partner. -/
theorem nearest?_ne_nested?_succ (depth : Nat) (h : b.other ∈ cs.filterMap ofChar?) :
    b.nearest? cs ≠ b.nested? (depth + 1) cs := by
  induction cs generalizing depth with
  | nil => simp at h
  | cons c rest ih =>
    obtain hc | hc | hc := b.ofChar?_cases c
    · rw [List.filterMap_cons_none hc] at h
      rw [nearest?_cons_of_ne rest (by simp [hc]), nested?_cons_none rest _ hc]
      exact fun heq => ih depth h (map_succ_inj.mp heq)
    · rw [List.filterMap_cons_some hc, List.mem_cons, or_iff_right (other_ne b)] at h
      rw [nearest?_cons_of_ne rest (by simp [hc, (other_ne b).symm]), nested?_cons_own rest _ hc]
      exact fun heq => ih (depth + 1) h (map_succ_inj.mp heq)
    · -- The nearest is one away, and the partner lies behind a loop that is still open.
      rw [nearest?_cons_other rest hc, nested?_succ_cons_other rest depth hc]
      intro heq
      obtain ⟨d, hd, hone⟩ := Option.map_eq_some_iff.mp heq.symm
      have hpos := nested?_pos hd
      omega

/-- The two searches agree exactly when what the bracket faces is near. -/
theorem nearest?_eq_nested?_iff :
    b.nearest? cs = b.nested? 0 cs ↔ b.Near (cs.filterMap ofChar?) := by
  by_cases hmem : b.other ∈ cs.filterMap ofChar?
  case neg => simp [nearest?_eq_none_iff.mpr hmem, nested?_eq_none 0 hmem, Near, hmem]
  rw [Near, or_iff_right (not_not_intro hmem)]
  induction cs with
  | nil => simp at hmem
  | cons c rest ih =>
    obtain hc | hc | hc := b.ofChar?_cases c
    · rw [List.filterMap_cons_none hc] at hmem ⊢
      rw [nearest?_cons_of_ne rest (by simp [hc]), nested?_cons_none rest _ hc,
        map_succ_inj, ih hmem]
    · rw [List.filterMap_cons_some hc] at hmem ⊢
      rw [List.mem_cons, or_iff_right (other_ne b)] at hmem
      rw [nearest?_cons_of_ne rest (by simp [hc, (other_ne b).symm]), nested?_cons_own rest _ hc,
        map_succ_inj, List.head?_cons, Option.some_inj]
      exact iff_of_false (nearest?_ne_nested?_succ 0 hmem) (other_ne b).symm
    · simp [nearest?_cons_other rest hc, nested?_zero_cons_other rest hc,
        List.filterMap_cons_some hc]

/-! ## sequences of brackets -/

theorem near_of_append {b : Bracket} {bs tail : List Bracket} (h : b.Near (bs ++ tail)) :
    b.Near bs := by
  cases bs with
  | nil => exact .inl List.not_mem_nil
  | cons a rest =>
    obtain h | h := h
    · exact .inl fun hmem => h (List.mem_append_left tail hmem)
    · exact .inr h

/-- As `Settled`, and each closing bracket has an opening one right before it. -/
def Paired (bs : List Bracket) : Prop :=
  ∀ before b after, bs = before ++ b :: after →
    match b with
    | .opening => opening.Near after
    | .closing => before.getLast? = some .opening

variable {bs : List Bracket}

theorem settled_cons_closing_iff : Settled (.closing :: bs) ↔ Settled bs := by
  constructor
  · intro h before b after hbs
    have hb := h (.closing :: before) b after (by rw [hbs, List.cons_append])
    cases b with
    | opening => exact hb
    | closing =>
      rw [List.reverse_cons] at hb
      exact near_of_append hb
  · intro h before b after hbs
    cases before with
    | nil =>
      obtain ⟨rfl, rfl⟩ := List.cons.inj hbs
      exact .inl List.not_mem_nil
    | cons a before =>
      obtain ⟨rfl, rfl⟩ := List.cons.inj hbs
      have hb := h before b after rfl
      cases b with
      | opening => exact hb
      | closing =>
        -- Looking back, the new bracket is seen last, so it is first only where all are closing.
        show closing.Near _
        rw [List.reverse_cons]
        obtain hb | hb := hb
        · exact .inl (by simpa [other] using hb)
        · exact .inr (by rw [List.head?_append, hb, Option.some_or])

theorem settled_of_paired (h : Paired bs) : Settled bs := by
  intro before b after hbs
  have hb := h before b after hbs
  cases b with
  | opening => exact hb
  | closing => exact .inr (List.head?_reverse.trans hb)

/-- Behind an opening bracket there is always one to be found, so that it has to be
the nearest bracket. -/
theorem paired_of_settled (h : Settled (.opening :: bs)) : Paired (.opening :: bs) := by
  intro before b after hbs
  have hb := h before b after hbs
  cases b with
  | opening => exact hb
  | closing =>
    have hmem : closing.other ∈ before.reverse := by
      cases before with
      | nil => cases hbs
      | cons a before =>
        obtain ⟨rfl, -⟩ := List.cons.inj hbs
        simp [other]
    exact List.head?_reverse.symm.trans (hb.resolve_left (not_not_intro hmem))

theorem not_paired_cons_closing : ¬ Paired (.closing :: bs) := by
  intro h
  have hfirst := h [] .closing bs rfl
  cases hfirst

theorem paired_pair_iff : Paired (.opening :: .closing :: bs) ↔ Paired bs := by
  constructor
  · intro h before b after hbs
    have hb := h (.opening :: .closing :: before) b after (by rw [hbs]; rfl)
    cases b with
    | opening => exact hb
    | closing =>
      cases before with
      | nil => cases hb
      | cons a before => simpa using hb
  · intro h before b after hbs
    match before with
    | [] =>
      cases hbs
      exact .inr rfl
    | [_] =>
      cases hbs
      rfl
    | _ :: _ :: before =>
      cases hbs
      have hb := h before b after rfl
      cases b with
      | opening => exact hb
      | closing =>
        cases before with
        | nil => cases hb
        | cons a before => simpa using hb

theorem paired_replicate_opening (n : Nat) : Paired (List.replicate n .opening) := by
  intro before b after hbs
  have hall : ∀ a ∈ before ++ b :: after, a = .opening := fun a ha =>
    List.eq_of_mem_replicate (hbs ▸ ha)
  obtain rfl : b = .opening := hall b (List.mem_append_right before List.mem_cons_self)
  refine .inl fun hmem => ?_
  have hclosing := hall closing (List.mem_append_right before (List.mem_cons_of_mem _ hmem))
  cases hclosing

/-- Pairs, and then opening brackets. -/
theorem exists_of_paired (bs : List Bracket) (h : Paired bs) : ∃ pairs opened,
    bs = (List.replicate pairs [.opening, .closing]).flatten ++ List.replicate opened .opening :=
  match bs with
  | [] => ⟨0, 0, rfl⟩
  | .closing :: _ => absurd h not_paired_cons_closing
  | [.opening] => ⟨0, 1, rfl⟩
  | .opening :: .closing :: rest => by
    obtain ⟨pairs, opened, hrest⟩ := exists_of_paired rest (paired_pair_iff.mp h)
    exact ⟨pairs + 1, opened, by rw [hrest]; rfl⟩
  | .opening :: .opening :: rest => by
    obtain hnone | hnext : opening.Near (.opening :: rest) := h [] .opening _ rfl
    · have hall : ∀ a ∈ opening :: rest, a = .opening := fun a ha =>
        (a.eq_or_eq_other .opening).resolve_right fun hother => hnone (hother ▸ ha)
      refine ⟨0, (opening :: rest).length + 1, ?_⟩
      rw [List.replicate_succ, ← List.eq_replicate_of_mem hall]
      rfl
    · cases hnext

theorem paired_of_pairs (pairs opened : Nat) :
    Paired ((List.replicate pairs [.opening, .closing]).flatten ++
      List.replicate opened .opening) := by
  induction pairs with
  | zero => exact paired_replicate_opening opened
  | succ pairs ih => exact paired_pair_iff.mpr ih

/-- Closing brackets, then pairs, and then opening brackets. -/
theorem settled_iff (bs : List Bracket) : Settled bs ↔ ∃ closed pairs opened,
    bs = List.replicate closed .closing ++ (List.replicate pairs [.opening, .closing]).flatten ++
      List.replicate opened .opening := by
  constructor
  · intro h
    induction bs with
    | nil => exact ⟨0, 0, 0, rfl⟩
    | cons b bs ih =>
      cases b with
      | opening =>
        obtain ⟨pairs, opened, hbs⟩ := exists_of_paired _ (paired_of_settled h)
        exact ⟨0, pairs, opened, hbs⟩
      | closing =>
        obtain ⟨closed, pairs, opened, hbs⟩ := ih (settled_cons_closing_iff.mp h)
        exact ⟨closed + 1, pairs, opened, by rw [hbs]; rfl⟩
  · intro h
    obtain ⟨closed, pairs, opened, rfl⟩ := h
    induction closed with
    | zero => exact settled_of_paired (paired_of_pairs pairs opened)
    | succ closed ih => exact settled_cons_closing_iff.mpr ih

end Bracket

/-! ## all brackets of a text -/

namespace Program

variable {p : Program} {i : Nat}

theorem bracketAt?_eq_some_iff {b : Bracket} : p.bracketAt? i = some b ↔
    ∃ front c back, p.chars.toList = front ++ c :: back ∧ front.length = i ∧
      Bracket.ofChar? c = some b := by
  rw [bracketAt?, Option.bind_eq_some_iff]
  constructor
  · intro h
    obtain ⟨c, hc, hb⟩ := h
    rw [at?, ← Array.getElem?_toList] at hc
    obtain ⟨hlt, rfl⟩ := List.getElem?_eq_some_iff.mp hc
    refine ⟨p.chars.toList.take i, _, p.chars.toList.drop (i + 1), ?_,
      List.length_take_of_le (Nat.le_of_lt hlt), hb⟩
    rw [← List.drop_eq_getElem_cons hlt, List.take_append_drop]
  · intro h
    obtain ⟨front, c, back, hchars, rfl, hb⟩ := h
    refine ⟨c, ?_, hb⟩
    rw [at?, ← Array.getElem?_toList, hchars, List.getElem?_append_right (Nat.le_refl _),
      Nat.sub_self, List.getElem?_cons_zero]

theorem firstFrom?_closing (i : Nat) (cs : List Char) :
    firstFrom? ']' (i + 1) cs = (Bracket.opening.nearest? cs).map (i + ·) := by
  induction cs generalizing i with
  | nil => rfl
  | cons c rest ih =>
    rw [firstFrom?, Bracket.nearest?, Bracket.other]
    simp only [Bracket.ofChar?_eq_closing_iff]
    split
    · rfl
    · rw [ih, Option.map_map]
      congr 1
      funext d
      simp only [Function.comp_apply]
      omega

theorem lastOpen?_eq_map (hi : i ≤ p.size) :
    p.lastOpen? i = (Bracket.closing.nearest? (p.facing i .closing)).map (i - ·) := by
  induction i with
  | zero => rfl
  | succ i ih =>
    have hat : p.at? i = some p.chars[i] := Array.getElem?_eq_getElem hi
    have hface : p.facing (i + 1) .closing = p.chars[i] :: p.facing i .closing := by
      rw [facing, facing, List.take_succ_eq_append_getElem hi, List.reverse_append]
      rfl
    rw [lastOpen?, hat, hface, Bracket.nearest?, Bracket.other]
    simp only [Bracket.ofChar?_eq_opening_iff, Option.some_inj]
    split
    · rfl
    · rw [ih (Nat.le_of_succ_le hi), Option.map_map]
      congr 1
      funext d
      simp only [Function.comp_apply]
      omega

theorem scannedPartner?_eq_map {b : Bracket} (h : p.bracketAt? i = some b) :
    p.scannedPartner? i b = (b.nearest? (p.facing i b)).map (ahead i · b) := by
  obtain ⟨c, hc, hb⟩ := Option.bind_eq_some_iff.mp h
  cases b with
  | opening =>
    obtain rfl := (Bracket.ofChar?_eq_opening_iff c).mp hb
    rw [scannedPartner?, firstClose?_of_at? hc, if_neg (by decide)]
    exact firstFrom?_closing i _
  | closing => exact lastOpen?_eq_map (Nat.le_of_lt (lt_size_of_at? hc))

/-- Different distances lead to different positions, as long as they stay in the text. -/
theorem ahead_inj {b : Bracket} {d e : Nat} (hd : d ≤ (p.facing i b).length)
    (he : e ≤ (p.facing i b).length) : ahead i d b = ahead i e b ↔ d = e := by
  cases b with
  | opening => exact Nat.add_left_cancel_iff
  | closing =>
    have hle : (p.facing i .closing).length ≤ i := by
      rw [facing, List.length_reverse]
      exact List.length_take_le i p.chars.toList
    simp only [ahead]
    omega

theorem scanned_eq_nested_iff {b : Bracket} (h : p.bracketAt? i = some b) :
    p.scannedPartner? i b = p.nestedPartner? i b ↔
      b.Near ((p.facing i b).filterMap Bracket.ofChar?) := by
  rw [← Bracket.nearest?_eq_nested?_iff, scannedPartner?_eq_map h, nestedPartner?]
  cases hx : b.nearest? (p.facing i b) with
  | none => simp [eq_comm (a := none)]
  | some d =>
    cases hy : b.nested? 0 (p.facing i b) with
    | none => simp
    | some e =>
      simp only [Option.map_some, Option.some_inj]
      exact ahead_inj (Bracket.nearest?_le hx) (Bracket.nested?_le hy)

theorem facing_of_split {front back : List Char} {c : Char}
    (h : p.chars.toList = front ++ c :: back) (b : Bracket) :
    p.facing front.length b = match b with
      | .opening => back
      | .closing => front.reverse := by
  cases b with
  | opening => rw [facing, h, List.append_cons, List.drop_left' (by simp)]
  | closing => rw [facing, h, List.take_left]

/-- The search is right for a whole text exactly when its brackets are settled. -/
theorem scansRightly_iff_settled (p : Program) : p.ScansRightly ↔ Bracket.Settled p.brackets := by
  constructor
  · intro h before b after hbs
    obtain ⟨front, rest, hchars, hfront, hrest⟩ := List.filterMap_eq_append_iff.mp hbs
    obtain ⟨comment, c, back, rfl, hcomment, hc, hback⟩ := List.filterMap_eq_cons_iff.mp hrest
    rw [← List.append_assoc] at hchars
    have hbefore : (front ++ comment).filterMap Bracket.ofChar? = before := by
      rw [List.filterMap_append, List.filterMap_eq_nil_iff.mpr hcomment, List.append_nil, hfront]
    have hb := bracketAt?_eq_some_iff.mpr ⟨_, c, back, hchars, rfl, hc⟩
    have hnear := (scanned_eq_nested_iff hb).mp (h _ b hb)
    rw [facing_of_split hchars] at hnear
    cases b with
    | opening => exact hback ▸ hnear
    | closing => rwa [List.filterMap_reverse, hbefore] at hnear
  · intro h i b hb
    obtain ⟨front, c, back, hchars, rfl, hc⟩ := bracketAt?_eq_some_iff.mp hb
    have hsettled := h (front.filterMap Bracket.ofChar?) b (back.filterMap Bracket.ofChar?)
      (by rw [brackets, hchars, List.filterMap_append, List.filterMap_cons_some hc])
    rw [scanned_eq_nested_iff hb, facing_of_split hchars]
    cases b with
    | opening => exact hsettled
    | closing => rwa [List.filterMap_reverse]

/-- The search is right for closing brackets, then pairs, and then opening brackets,
and for nothing else. -/
theorem scansRightly_iff (p : Program) : p.ScansRightly ↔ ∃ closed pairs opened,
    p.brackets = List.replicate closed .closing ++
      (List.replicate pairs [.opening, .closing]).flatten ++ List.replicate opened .opening := by
  rw [scansRightly_iff_settled, Bracket.settled_iff]

end Program

/-! ## jumps -/

namespace Machine

variable {m m' : Machine} {s : Step} {target : Nat}

/-- A jump forward goes behind the closing bracket that the search finds. -/
theorem step_jumpedForward (h : m.step = (.stepped s, m')) (ha : s.action = .jumpedForward target) :
    m.current? = some '[' ∧ m.program.scannedPartner? m.ip .opening = some target ∧
      m'.ip = target + 1 := by
  obtain ⟨c, a, j, d, hc, hp, rfl, rfl⟩ := step_eq_stepped_iff.mp h
  obtain rfl : a = .jumpedForward target := ha
  generalize hi : Instruction.ofChar c = i at hp
  cases hp with
  | jumpForward _ hj =>
    obtain rfl := Instruction.eq_of_symbol? hi rfl
    exact ⟨hc, hj, rfl⟩

/-- A jump back goes behind the opening bracket that the search finds. -/
theorem step_jumpedBack (h : m.step = (.stepped s, m')) (ha : s.action = .jumpedBack target) :
    m.current? = some ']' ∧ m.program.scannedPartner? m.ip .closing = some target ∧
      m'.ip = target + 1 := by
  obtain ⟨c, a, j, d, hc, hp, rfl, rfl⟩ := step_eq_stepped_iff.mp h
  obtain rfl : a = .jumpedBack target := ha
  generalize hi : Instruction.ofChar c = i at hp
  cases hp with
  | jumpBack _ hj =>
    obtain rfl := Instruction.eq_of_symbol? hi rfl
    exact ⟨hc, hj, rfl⟩

/-- For every text the partners that a machine finds are the partners by nesting, at
every bracket, exactly when the brackets of the text are closing ones, then pairs,
and then opening ones.  Right or not, a jump reports the partner found: the nearest
bracket of the other kind, behind which the machine goes on. -/
theorem scan_right_iff_and_jumps :
    (∀ p : Program, p.ScansRightly ↔ ∃ closed pairs opened,
      p.brackets = List.replicate closed .closing ++
        (List.replicate pairs [.opening, .closing]).flatten ++ List.replicate opened .opening) ∧
    ∀ (m m' : Machine) (s : Step), m.step = (.stepped s, m') → ∀ target,
      (s.action = .jumpedForward target →
        m.current? = some '[' ∧ m.program.scannedPartner? m.ip .opening = some target ∧
          m.ip < target ∧ m.program.at? target = some ']' ∧
          (∀ k, m.ip ≤ k → k < target → m.program.at? k ≠ some ']') ∧ m'.ip = target + 1) ∧
      (s.action = .jumpedBack target →
        m.current? = some ']' ∧ m.program.scannedPartner? m.ip .closing = some target ∧
          target < m.ip ∧ m.program.at? target = some '[' ∧
          (∀ k, target < k → k < m.ip → m.program.at? k ≠ some '[') ∧ m'.ip = target + 1) := by
  refine ⟨Program.scansRightly_iff, fun m m' s h target => ⟨fun ha => ?_, fun ha => ?_⟩⟩
  · obtain ⟨hc, hscan, hip⟩ := step_jumpedForward h ha
    obtain ⟨hle, hclose, hnone⟩ := (Program.firstClose?_eq_some_iff _ _ _).mp hscan
    have hne : m.ip ≠ target := by
      rintro heq
      rw [← heq] at hclose
      exact absurd (hc.symm.trans hclose) (by decide)
    exact ⟨hc, hscan, Nat.lt_of_le_of_ne hle hne, hclose, hnone, hip⟩
  · obtain ⟨hc, hscan, hip⟩ := step_jumpedBack h ha
    obtain ⟨hlt, hopen, hnone⟩ := (Program.lastOpen?_eq_some_iff _ _ _).mp hscan
    exact ⟨hc, hscan, hlt, hopen, hnone, hip⟩

/-- The search is right for `]a[]b[`, and in `[[]]` it takes the outer loop out of the
inner bracket. -/
theorem jumped_out_of_the_wrong_loop :
    (Program.mk #[']', 'a', '[', ']', 'b', '[']).ScansRightly ∧
      let m : Machine := .load ⟨#['[', '[', ']', ']']⟩ (.blank 1 .wrap)
      m.program.nestedPartner? 0 .opening = some 3 ∧
        m.step.1 = .stepped ⟨0, '[', 0, 0, .jumpedForward 2⟩ ∧
        m.program.at? 2 = some ']' ∧ m.step.2.ip = 3 := by
  obtain ⟨hright, hjumps⟩ := scan_right_iff_and_jumps
  refine ⟨(hright _).mpr ⟨1, 1, 1, by decide +kernel⟩, ?_⟩
  intro m
  obtain ⟨-, -, -, hclose, -, hip⟩ :=
    (hjumps m m.step.2 ⟨0, '[', 0, 0, .jumpedForward 2⟩ rfl 2).1 rfl
  exact ⟨by decide +kernel, rfl, hclose, hip⟩

end Machine

end Brainfuck
