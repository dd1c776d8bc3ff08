import Brainfuck.Proofs.Failing
import Brainfuck.Proofs.FlatLoops
import Brainfuck.Proofs.Reach

/-!
# Brainfuck.Proofs.StraightLine

What a sequence of moves and counts does to a tape, in numbers.

A `Stroke` is one of the four instructions `<`, `>`, `+` and `-`.  Where the pointer
stands after some strokes is a matter of counting the moves (`Stroke.offset`), and
what has become of a cell is a matter of counting the strokes that were made while
the pointer stood on it (`Stroke.hits`).  The pointer counts modulo the capacity,
whatever that is, and each cell modulo 256 (`Tape.After`):

* `stroke?_eq_none_iff`, `after_of_stroke?` — one stroke;
* `After.append`, `after_of_strokes?` — many strokes, if all of them are made;
* `strokes?_of_wrap`, `exists_strokes?_iff` — when all of them are made;
* `first_refused_iff` — and which of them is the first that is not;
* `returns_of_strokes?`, `returns_of_refused` — a program that is nothing but strokes;
* `straight_line_closed_form` — all of it together.
-/

namespace Brainfuck

/-- An instruction that moves the pointer or counts the current cell. -/
inductive Stroke where
  | move (dir : Direction)
  | increment
  | decrement
deriving DecidableEq, Repr

namespace Stroke

/-- The character of a stroke. -/
def symbol : Stroke → Char
  | .move .left => '<'
  | .move .right => '>'
  | .increment => '+'
  | .decrement => '-'

/-- How far a stroke moves the pointer to the right. -/
def shift : Stroke → Int
  | .move .left => -1
  | .move .right => 1
  | .increment | .decrement => 0

/-- How far the strokes move the pointer to the right, all together. -/
def offset (ss : List Stroke) : Int := ss.count (.move .right) - ss.count (.move .left)

/-- How often the stroke `op` is made while the pointer stands on cell `i` of `c` cells
in a circle, when it begins at `p`. -/
def hits (op : Stroke) (c i : Nat) : Int → List Stroke → Nat
  | _, [] => 0
  | p, s :: ss => (if s = op ∧ p % c = i then 1 else 0) + hits op c i (p + s.shift) ss

theorem offset_cons (s : Stroke) (ss : List Stroke) : offset (s :: ss) = s.shift + offset ss := by
  rw [offset, offset, List.count_cons, List.count_cons]
  cases s with
  | move dir => cases dir <;> simp [shift] <;> omega
  | increment | decrement => simp [shift]

theorem offset_nil : offset [] = 0 := rfl

theorem offset_append (ss ts : List Stroke) : offset (ss ++ ts) = offset ss + offset ts := by
  rw [offset, offset, offset, List.count_append, List.count_append]
  omega

theorem offset_singleton (s : Stroke) : offset [s] = s.shift := by
  rw [offset_cons, offset_nil, Int.add_zero]

theorem hits_append (op : Stroke) (c i : Nat) (p : Int) (ss ts : List Stroke) :
    hits op c i p (ss ++ ts) = hits op c i p ss + hits op c i (p + offset ss) ts := by
  induction ss generalizing p with
  | nil => simp [hits, offset_nil]
  | cons s ss ih =>
    rw [List.cons_append, hits, hits, ih, offset_cons, Nat.add_assoc, Int.add_assoc]

/-- On a circle it does not matter how often the pointer has been around. -/
theorem hits_emod (op : Stroke) (c i : Nat) (p : Int) (ss : List Stroke) :
    hits op c i (p % c) ss = hits op c i p ss := by
  have hcongr : ∀ q, q % (c : Int) = p % c → hits op c i q ss = hits op c i p ss := by
    induction ss generalizing p with
    | nil => exact fun _ _ => rfl
    | cons s ss ih =>
      intro q hq
      have hnext : (q + s.shift) % (c : Int) = (p + s.shift) % c := by
        rw [← Int.emod_add_emod q, hq, Int.emod_add_emod]
      rw [hits, hits, hq, ih _ _ hnext]
  exact hcongr _ (Int.emod_emod p c)

end Stroke

namespace Tape

open Stroke

/-- Makes one stroke, unless the tape refuses it. -/
def stroke? (t : Tape) : Stroke → Option Tape
  | .move dir => t.move? dir
  | .increment => some t.increment
  | .decrement => some t.decrement

/-- Makes the strokes one after the other, unless the tape refuses one of them. -/
def strokes? (t : Tape) : List Stroke → Option Tape
  | [] => some t
  | s :: ss => (t.stroke? s).bind fun t' => t'.strokes? ss

/-- These strokes, counted without going around, leave the pointer on the tape. -/
def Inside (t : Tape) (ss : List Stroke) : Prop :=
  0 ≤ t.pointer + offset ss ∧ t.pointer + offset ss < t.capacity

instance (t : Tape) (ss : List Stroke) : Decidable (t.Inside ss) :=
  inferInstanceAs (Decidable (_ ∧ _))

/-- `t.After ss t'`: pointer and cells of `t'` are what counting says that the strokes
make of `t`. -/
structure After (t : Tape) (ss : List Stroke) (t' : Tape) : Prop where
  policy : t'.policy = t.policy
  capacity : t'.capacity = t.capacity
  pointer : (t'.pointer : Int) = (t.pointer + offset ss) % t.capacity
  cell : ∀ i, ((t'.cell i).toNat : Int) =
    ((t.cell i).toNat + hits .increment t.capacity i t.pointer ss -
      hits .decrement t.capacity i t.pointer ss) % 256

variable {t t₁ t' : Tape} {s : Stroke} {ss ts : List Stroke}

/-! ## one stroke -/

theorem pointer_lt_capacity (t : Tape) : t.pointer < t.capacity := t.pointer_lt

theorem pointer_emod (t : Tape) : (t.pointer : Int) % t.capacity = t.pointer := by
  have hlt := t.pointer_lt_capacity
  exact Int.emod_eq_of_lt (by omega) (by omega)

theorem inside_singleton_iff :
    t.Inside [s] ↔ 0 ≤ t.pointer + s.shift ∧ t.pointer + s.shift < t.capacity := by
  rw [Inside, offset_singleton]

/-- A tape refuses a stroke only if it is strict, and the stroke would leave it. -/
theorem stroke?_eq_none_iff : t.stroke? s = none ↔ t.policy = .strict ∧ ¬ t.Inside [s] := by
  have hlt := t.pointer_lt_capacity
  rw [inside_singleton_iff]
  cases s with
  | move dir =>
    rw [stroke?, move?_eq_none_iff]
    refine and_congr_right fun _ => ?_
    cases dir with
    | left => simp only [shift]; omega
    | right => simp only [shift]; omega
  | increment | decrement =>
    simp only [stroke?, shift, reduceCtorEq, false_iff, not_and]
    omega

theorem policy_capacity_of_stroke? (h : t.stroke? s = some t') :
    t'.policy = t.policy ∧ t'.capacity = t.capacity := by
  have htouches : t.Touches t' := by
    cases s with
    | move dir => exact touches_of_move? h
    | increment | decrement =>
      obtain rfl := Option.some.inj h
      exact .store _
  exact htouches.policy_capacity

/-- A move changes the pointer by one, on a circle. -/
theorem pointer_of_move? {dir : Direction} (h : t.move? dir = some t') :
    (t'.pointer : Int) = (t.pointer + (Stroke.move dir).shift) % t.capacity := by
  have hlt := t.pointer_lt_capacity
  have hsize : t.cells.size = t.capacity := rfl
  obtain ⟨index, hindex, rfl⟩ := Option.map_eq_some_iff.mp h
  show (index.val : Int) = _
  cases dir with
  | left =>
    rw [target?] at hindex
    split at hindex
    · have hval : index.val = t.pointer - 1 := (congrArg Fin.val (Option.some.inj hindex)).symm
      rw [shift, Int.emod_eq_of_lt (by omega) (by omega)]
      omega
    · split at hindex
      · cases hindex
      · have hval : index.val = t.cells.size - 1 :=
          (congrArg Fin.val (Option.some.inj hindex)).symm
        -- To the left of the first cell it is a whole round less one.
        rw [shift, ← Int.add_emod_right, Int.emod_eq_of_lt (by omega) (by omega)]
        omega
  | right =>
    rw [target?] at hindex
    split at hindex
    · have hval : index.val = t.pointer + 1 := (congrArg Fin.val (Option.some.inj hindex)).symm
      rw [shift, Int.emod_eq_of_lt (by omega) (by omega)]
      omega
    · split at hindex
      · cases hindex
      · have hval : index.val = 0 := (congrArg Fin.val (Option.some.inj hindex)).symm
        -- To the right of the last cell a whole round is complete.
        rw [shift, ← Int.sub_emod_right, Int.emod_eq_of_lt (by omega) (by omega)]
        omega

theorem toNat_sub_one (v : UInt8) : ((v - 1).toNat : Int) = (v.toNat - 1) % 256 := by
  have hsub : (v - 1).toNat = (256 - 1 + v.toNat) % 256 := UInt8.toNat_sub v 1
  omega

theorem hits_singleton (t : Tape) (op s : Stroke) (i : Nat) :
    hits op t.capacity i t.pointer [s] = if s = op ∧ i = t.pointer then 1 else 0 := by
  have hstay : (t.pointer : Int) % t.capacity = i ↔ i = t.pointer := by
    rw [pointer_emod]
    omega
  simp only [hits, hstay, Nat.add_zero]

/-- A stroke that is made counts the current cell, modulo 256, and no other. -/
theorem cell_of_stroke? (h : t.stroke? s = some t') (i : Nat) :
    ((t'.cell i).toNat : Int) =
      ((t.cell i).toNat + hits .increment t.capacity i t.pointer [s] -
        hits .decrement t.capacity i t.pointer [s]) % 256 := by
  have hlt := (t.cell i).toNat_lt
  rw [hits_singleton, hits_singleton]
  cases s with
  | move dir =>
    obtain ⟨index, -, rfl⟩ := Option.map_eq_some_iff.mp h
    simp only [cell_seek, reduceCtorEq, false_and, if_false]
    omega
  | increment =>
    obtain rfl := Option.some.inj h
    rw [increment, cell_store, value_eq_cell]
    by_cases hi : i = t.pointer
    · simp [hi]
    · simp only [hi, reduceCtorEq, and_false, if_false]
      omega
  | decrement =>
    obtain rfl := Option.some.inj h
    rw [decrement, cell_store, value_eq_cell]
    by_cases hi : i = t.pointer
    · simp [hi, toNat_sub_one]
    · simp only [hi, reduceCtorEq, and_false, if_false]
      omega

theorem after_of_stroke? (h : t.stroke? s = some t') : t.After [s] t' where
  policy := (policy_capacity_of_stroke? h).1
  capacity := (policy_capacity_of_stroke? h).2
  pointer := by
    rw [offset_singleton]
    cases s with
    | move dir => exact pointer_of_move? h
    | increment | decrement =>
      obtain rfl := Option.some.inj h
      rw [shift, Int.add_zero, pointer_emod]
      rfl
  cell := cell_of_stroke? h

/-! ## many strokes -/

theorem After.nil (t : Tape) : t.After [] t where
  policy := rfl
  capacity := rfl
  pointer := by rw [offset_nil, Int.add_zero, pointer_emod]
  cell i := by
    have hlt := (t.cell i).toNat_lt
    simp only [hits]
    omega

/-- Counting goes on where the strokes so far have led. -/
theorem After.append (h : t.After ss t₁) (h' : t₁.After ts t') : t.After (ss ++ ts) t' where
  policy := h'.policy.trans h.policy
  capacity := h'.capacity.trans h.capacity
  pointer := by
    rw [h'.pointer, h.capacity, h.pointer, Int.emod_add_emod, offset_append, Int.add_assoc]
  cell i := by
    have hss := h.cell i
    have hts := h'.cell i
    rw [h.capacity, h.pointer, hits_emod, hits_emod] at hts
    rw [hits_append, hits_append]
    omega

theorem after_of_strokes? (h : t.strokes? ss = some t') : t.After ss t' := by
  induction ss generalizing t with
  | nil =>
    obtain rfl := Option.some.inj h
    exact .nil t
  | cons s ss ih =>
    obtain ⟨t₁, hfirst, hrest⟩ := Option.bind_eq_some_iff.mp h
    exact (after_of_stroke? hfirst).append (ih hrest)

/-- A tape that wraps around refuses nothing. -/
theorem strokes?_of_wrap (ht : t.policy = .wrap) (ss : List Stroke) :
    ∃ t', t.strokes? ss = some t' := by
  induction ss generalizing t with
  | nil => exact ⟨t, rfl⟩
  | cons s ss ih =>
    cases hfirst : t.stroke? s with
    | none =>
      obtain ⟨hstrict, -⟩ := stroke?_eq_none_iff.mp hfirst
      cases ht.symm.trans hstrict
    | some t₁ =>
      obtain ⟨hpolicy, -⟩ := policy_capacity_of_stroke? hfirst
      obtain ⟨t', hrest⟩ := ih (hpolicy.trans ht)
      exact ⟨t', by rw [strokes?, hfirst, Option.bind_some, hrest]⟩

/-! ## many strokes on a strict tape -/

theorem inside_nil (t : Tape) : t.Inside [] := by
  have hlt := t.pointer_lt_capacity
  rw [Inside, offset_nil]
  omega

/-- Behind strokes that end inside, counting goes on where they have led. -/
theorem After.inside_append_iff (h : t.After ss t') (hinside : t.Inside ss) (ts : List Stroke) :
    t.Inside (ss ++ ts) ↔ t'.Inside ts := by
  have hpointer : (t'.pointer : Int) = t.pointer + offset ss :=
    h.pointer.trans (Int.emod_eq_of_lt hinside.1 hinside.2)
  rw [Inside, Inside, hpointer, h.capacity, offset_append, Int.add_assoc]

/-- A strict tape makes a stroke only if it ends inside. -/
theorem inside_of_stroke? (ht : t.policy = .strict) (h : t.stroke? s = some t') : t.Inside [s] := by
  by_cases hinside : t.Inside [s]
  · exact hinside
  · rw [stroke?_eq_none_iff.mpr ⟨ht, hinside⟩] at h
    cases h

/-- A strict tape makes the strokes exactly if they stay inside all the way. -/
theorem exists_strokes?_iff (ht : t.policy = .strict) :
    (∃ t', t.strokes? ss = some t') ↔ ∀ us, us <+: ss → t.Inside us := by
  induction ss generalizing t with
  | nil =>
    refine ⟨fun _ us hus => ?_, fun _ => ⟨t, rfl⟩⟩
    rw [List.prefix_nil.mp hus]
    exact t.inside_nil
  | cons s ss ih =>
    cases hfirst : t.stroke? s with
    | none =>
      obtain ⟨-, houtside⟩ := stroke?_eq_none_iff.mp hfirst
      simp only [strokes?, hfirst, Option.bind_none, reduceCtorEq, exists_false, false_iff]
      exact fun h => houtside (h [s] ⟨ss, rfl⟩)
    | some t₁ =>
      have hinside := inside_of_stroke? ht hfirst
      have hafter := after_of_stroke? hfirst
      simp only [strokes?, hfirst, Option.bind_some]
      rw [ih (hafter.policy.trans ht)]
      constructor
      · intro h us hus
        obtain rfl | ⟨vs, rfl, hvs⟩ := List.prefix_cons_iff.mp hus
        · exact t.inside_nil
        · exact (hafter.inside_append_iff hinside vs).mpr (h vs hvs)
      · intro h us hus
        have hus' : s :: us <+: s :: ss := List.prefix_cons_iff.mpr (.inr ⟨us, rfl, hus⟩)
        exact (hafter.inside_append_iff hinside us).mp (h (s :: us) hus')

/-- The first stroke that a strict tape refuses is the first that leaves it. -/
theorem first_refused_iff (ht : t.policy = .strict) :
    (∃ t', t.strokes? ss = some t' ∧ t'.stroke? s = none) ↔
      (∀ us, us <+: ss → t.Inside us) ∧ ¬ t.Inside (ss ++ [s]) := by
  rw [← exists_strokes?_iff ht]
  cases hss : t.strokes? ss with
  | none => simp
  | some t' =>
    have hafter := after_of_strokes? hss
    have hinside : t.Inside ss := (exists_strokes?_iff ht).mp ⟨t', hss⟩ ss (List.prefix_refl ss)
    simp only [Option.some.injEq, exists_eq_left', exists_eq', true_and]
    rw [stroke?_eq_none_iff, hafter.inside_append_iff hinside, hafter.policy]
    simp [ht]

/-- If not all strokes are made, one of them is the first that is refused. -/
theorem exists_first_refused (h : t.strokes? ss = none) :
    ∃ us s vs t', ss = us ++ s :: vs ∧ t.strokes? us = some t' ∧ t'.stroke? s = none := by
  induction ss generalizing t with
  | nil => cases h
  | cons s ss ih =>
    cases hfirst : t.stroke? s with
    | none => exact ⟨[], s, ss, t, rfl, rfl, hfirst⟩
    | some t₁ =>
      rw [strokes?, hfirst, Option.bind_some] at h
      obtain ⟨us, s', vs, t', rfl, hus, hrefused⟩ := ih h
      refine ⟨s :: us, s', vs, t', rfl, ?_, hrefused⟩
      rw [strokes?, hfirst, Option.bind_some, hus]

end Tape

/-! ## programs of strokes -/

namespace Machine

variable {m : Machine} {t' : Tape} {s : Stroke} {ss : List Stroke} {rest : List Char}

theorem exists_step_of_stroke? (hc : m.current? = some s.symbol)
    (h : m.device.tape.stroke? s = some t') :
    ∃ st m', m.step = (.stepped st, m') ∧ m'.ip = m.ip + 1 ∧ m'.device.tape = t' := by
  obtain ⟨a, d, hp, hd⟩ :
      ∃ a d, m.Performs (Instruction.ofChar s.symbol) a m.ip d ∧ d.tape = t' := by
    cases s with
    | move dir => cases dir <;> exact ⟨_, _, .move h, rfl⟩
    | increment => exact ⟨_, _, .increment, Option.some.inj h⟩
    | decrement => exact ⟨_, _, .decrement, Option.some.inj h⟩
  exact ⟨_, _, step_eq_stepped_iff.mpr ⟨_, a, m.ip, d, hc, hp, rfl, rfl⟩, rfl, hd⟩

theorem stops_of_stroke? (hc : m.current? = some s.symbol) (h : m.device.tape.stroke? s = none) :
    m.Stops (some (.pointerOutOfBounds m.ip m.device.tape.pointer s.symbol)) := by
  refine step_eq_failed_iff.mpr ⟨rfl, _, hc, ?_⟩
  cases s with
  | move dir => cases dir <;> exact .move rfl h
  | increment | decrement => cases h

/-- The machine executes the strokes that its tape makes. -/
theorem executes_of_strokes?
    (htext : m.program.chars.toList.drop m.ip = ss.map Stroke.symbol ++ rest)
    (h : m.device.tape.strokes? ss = some t') :
    ∃ ts m', m.Executes ts m' ∧ m'.program.chars.toList.drop m'.ip = rest ∧
      m'.ip = m.ip + ss.length ∧ m'.device.tape = t' := by
  induction ss generalizing m with
  | nil => exact ⟨[], m, .nil m, htext, rfl, Option.some.inj h⟩
  | cons s ss ih =>
    obtain ⟨t₁, hfirst, hrest⟩ := Option.bind_eq_some_iff.mp h
    obtain ⟨st, m₁, hstep, hip, rfl⟩ := exists_step_of_stroke? (current?_of_drop htext) hfirst
    obtain ⟨hprogram, -⟩ := frame_of_step hstep
    have htext₁ : m₁.program.chars.toList.drop m₁.ip = ss.map Stroke.symbol ++ rest := by
      rw [hprogram, hip]
      exact drop_succ_of_drop htext
    obtain ⟨ts, m', hex, htext', hip', htape⟩ := ih htext₁ hrest
    refine ⟨st :: ts, m', .cons hstep hex, htext', ?_, htape⟩
    rw [hip', hip, List.length_cons]
    omega

/-- A program that is nothing but strokes ends as its tape does. -/
theorem returns_of_strokes? (hm : m.Free)
    (htext : m.program.chars.toList.drop m.ip = ss.map Stroke.symbol)
    (h : m.device.tape.strokes? ss = some t') :
    ∃ ts m', m.Returns none ts m' ∧ m'.device.tape = t' := by
  rw [← List.append_nil (ss.map _)] at htext
  obtain ⟨ts, m', hex, htext', -, htape⟩ := executes_of_strokes? htext h
  have hstop : m'.Stops none := by
    have hle := List.drop_eq_nil_iff.mp htext'
    rw [Array.length_toList] at hle
    exact decide_eq_true hle
  exact ⟨ts, m', (returns_iff hm).mpr ⟨hex, hstop⟩, htape⟩

/-- Where its tape refuses a stroke, the program fails. -/
theorem returns_of_refused {us vs : List Stroke} (hm : m.Free)
    (htext : m.program.chars.toList.drop m.ip = (us ++ s :: vs).map Stroke.symbol)
    (hus : m.device.tape.strokes? us = some t') (hs : t'.stroke? s = none) :
    ∃ ts m', m.Returns (some (.pointerOutOfBounds (m.ip + us.length) t'.pointer s.symbol)) ts m' ∧
      m'.device.tape = t' := by
  rw [List.map_append, List.map_cons] at htext
  obtain ⟨ts, m', hex, htext', hip, rfl⟩ := executes_of_strokes? htext hus
  have hstop := stops_of_stroke? (current?_of_drop htext') hs
  rw [hip] at hstop
  exact ⟨ts, m', (returns_iff hm).mpr ⟨hex, hstop⟩, rfl⟩

end Machine

/-- **Straight-line programs in closed form.**  A tape that wraps around makes all
strokes.  A strict tape makes them exactly if counting stays on the tape all the way,
and otherwise the first stroke it refuses is the one that ends the shortest prefix
that leaves.  Where the strokes are made, pointer and cells are what counting says.
A program that is nothing but strokes ends as its tape does, and fails where and with
what its tape refuses. -/
theorem straight_line_closed_form (t : Tape) (ss : List Stroke) :
    (t.policy = .wrap → ∃ t', t.strokes? ss = some t' ∧ t.After ss t') ∧
      (t.policy = .strict →
        ((∃ t', t.strokes? ss = some t') ↔ ∀ us, us <+: ss → t.Inside us) ∧
          (∀ t', t.strokes? ss = some t' → t.After ss t') ∧
          (t.strokes? ss = none →
            ∃ us s vs t', ss = us ++ s :: vs ∧ t.strokes? us = some t' ∧ t'.stroke? s = none ∧
              t.After us t' ∧ (∀ ws, ws <+: us → t.Inside ws) ∧ ¬ t.Inside (us ++ [s]))) ∧
      ∀ m : Machine, m.Free → m.device.tape = t →
        m.program.chars.toList.drop m.ip = ss.map Stroke.symbol →
        (∀ t', t.strokes? ss = some t' → ∃ ts m', m.Returns none ts m' ∧ m'.device.tape = t') ∧
          ∀ us s vs t', ss = us ++ s :: vs → t.strokes? us = some t' → t'.stroke? s = none →
            ∃ ts m', m.Returns
              (some (.pointerOutOfBounds (m.ip + us.length) t'.pointer s.symbol)) ts m' ∧
              m'.device.tape = t' := by
  refine ⟨fun hwrap => ?_, fun hstrict => ⟨Tape.exists_strokes?_iff hstrict, fun t' h => ?_,
    fun h => ?_⟩, fun m hm htape htext => ⟨fun t' h => ?_, fun us s vs t' hss hus hs => ?_⟩⟩
  · obtain ⟨t', h⟩ := Tape.strokes?_of_wrap hwrap ss
    exact ⟨t', h, Tape.after_of_strokes? h⟩
  · exact Tape.after_of_strokes? h
  · obtain ⟨us, s, vs, t', hss, hus, hs⟩ := Tape.exists_first_refused h
    obtain ⟨hinside, houtside⟩ := (Tape.first_refused_iff hstrict).mp ⟨t', hus, hs⟩
    exact ⟨us, s, vs, t', hss, hus, hs, Tape.after_of_strokes? hus, hinside, houtside⟩
  · subst htape
    exact Machine.returns_of_strokes? hm htext h
  · subst htape hss
    exact Machine.returns_of_refused hm htext hus hs

/-- A pointer that goes around three cells, and a cell that goes below zero and back;
and a strict tape of two cells, which refuses the second move. -/
theorem around_three_cells_and_off_two :
    let around : List Stroke := [.move .left, .decrement, .move .left, .move .left, .move .left,
      .increment, .increment]
    let off : List Stroke := [.move .right, .increment, .move .right, .decrement]
    let m := Machine.load ⟨#['>', '+', '>', '-']⟩ (.blank 2 .strict)
    (∃ t', (Tape.blank 3 .wrap).strokes? around = some t' ∧ (t'.pointer : Int) = (0 - 4) % 3 ∧
      ((t'.cell 2).toNat : Int) = (0 + 2 - 1) % 256) ∧
    m.program.chars.toList.drop m.ip = off.map Stroke.symbol ∧
      ∃ ts m', m.Returns (some (.pointerOutOfBounds 2 1 '>')) ts m' ∧
        m'.device.tape.pointer = 1 := by
  intro around off m
  obtain ⟨hwrap, -, -⟩ := straight_line_closed_form (.blank 3 .wrap) around
  obtain ⟨t', hstrokes, hafter⟩ := hwrap rfl
  have hpointer : (t'.pointer : Int) = (0 - 4) % 3 := hafter.pointer.trans (by decide)
  have hcell : ((t'.cell 2).toNat : Int) = (0 + 2 - 1) % 256 :=
    (hafter.cell 2).trans (by decide)
  obtain ⟨-, -, hmachine⟩ := straight_line_closed_form (.blank 2 .strict) off
  have htext : m.program.chars.toList.drop m.ip = off.map Stroke.symbol := by decide
  obtain ⟨-, hrefused⟩ := hmachine m ⟨rfl, rfl⟩ rfl htext
  obtain ⟨ts, m', hreturns, htape⟩ :=
    hrefused [.move .right, .increment] (.move .right) [.decrement] _ rfl rfl rfl
  exact ⟨⟨t', hstrokes, hpointer, hcell⟩, htext, ts, m', hreturns, by rw [htape]; rfl⟩

end Brainfuck
