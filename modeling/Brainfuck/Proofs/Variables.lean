import Brainfuck.Proofs.Numerals
import Brainfuck.Settings.Environment

/-!
# Brainfuck.Proofs.Variables

Settings from environment variables, in order and up to the first bad one.

There is one variable for each field of the settings, so a variable also serves as
the name of its field (`Variable.Field`, `Settings.get`, `Settings.set`).  What the value
of a variable denotes is said without the reader (`Variable.Denotes`), and what the
variables do to the settings is said field by field (`Settings.Overlaid`):

* `Variable.read?_eq_some_iff`, `Variable.Denotes.unique` — one value;
* `Variable.assign?_eq_map` — one variable sets its field and no other;
* `Settings.heeds_override` — some variables, one after the other;
* `environment_in_order` — all of them.
-/

namespace Brainfuck

open Text

/-! ## fields -/

/-- The values of the field that belongs to a variable. -/
def Variable.Field : Variable → Type
  | .tapeSize => Nat
  | .stepDelay => Nat
  | .maxSteps => Option Nat
  | .timeout => Nat
  | .pointerPolicy => PointerPolicy
  | .bracketMode => BracketMode

namespace Settings

/-- The field that belongs to a variable. -/
def get (s : Settings) : (v : Variable) → v.Field
  | .tapeSize => s.tapeSize
  | .stepDelay => s.stepDelay
  | .maxSteps => s.maxSteps
  | .timeout => s.timeout
  | .pointerPolicy => s.pointerPolicy
  | .bracketMode => s.bracketMode

/-- Sets the field that belongs to a variable. -/
def set (s : Settings) : (v : Variable) → v.Field → Settings
  | .tapeSize, n => { s with tapeSize := n }
  | .stepDelay, n => { s with stepDelay := n }
  | .maxSteps, limit => { s with maxSteps := limit }
  | .timeout, n => { s with timeout := n }
  | .pointerPolicy, p => { s with pointerPolicy := p }
  | .bracketMode, m => { s with bracketMode := m }

@[simp] theorem get_set (s : Settings) (v : Variable) (x : v.Field) : (s.set v x).get v = x := by
  cases v <;> rfl

theorem get_set_of_ne (s : Settings) {v u : Variable} (h : u ≠ v) (x : v.Field) :
    (s.set v x).get u = s.get u := by
  cases v <;> cases u <;> first | rfl | exact absurd rfl h

end Settings

/-! ## the value of a variable -/

namespace Variable

/-- `v.Spelled cs x`: the characters spell the value `x` for the field of the variable. -/
def Spelled : (v : Variable) → List Char → v.Field → Prop
  | .tapeSize, cs, n => IsNumeral cs n
  | .stepDelay, cs, n => IsNumeral cs n
  | .maxSteps, cs, limit => ∃ n, limit = some n ∧ IsNumeral cs n
  | .timeout, cs, n => IsNumeral cs n
  | .pointerPolicy, cs, p => Spells p.word.toList cs
  | .bracketMode, cs, m => Spells m.word.toList cs

/-- `v.Denotes raw x`: without the white space around it, the text spells `x`. -/
def Denotes (v : Variable) (raw : String) (x : v.Field) : Prop :=
  ∃ core, IsTrimmed raw.toList core ∧ v.Spelled core x

/-- The text denotes something. -/
def Valid (v : Variable) (raw : String) : Prop := ∃ x, v.Denotes raw x

/-- The variable is not there, or its value is valid. -/
def Accepted (lookup : String → Option String) (v : Variable) : Prop :=
  ∀ raw, lookup v.key = some raw → v.Valid raw

/-- Reads a value without white space around it. -/
def read? : (v : Variable) → String → Option v.Field
  | .tapeSize, value => (readWord value).toOption
  | .stepDelay, value => (readWord value).toOption
  | .maxSteps, value => (readWord value).toOption.map some
  | .timeout, value => (readWord value).toOption
  | .pointerPolicy, value => (PointerPolicy.ofWord value).toOption
  | .bracketMode, value => (BracketMode.ofWord value).toOption

theorem toOption_eq_some_iff {ε α : Type} {e : Except ε α} {a : α} :
    e.toOption = some a ↔ e = .ok a := by
  cases e <;> simp [Except.toOption]

theorem readLimit_eq_some_iff {value : String} {limit : Option Nat} :
    (readWord value).toOption.map some = some limit ↔
      ∃ n, limit = some n ∧ IsNumeral value.toList n := by
  simp only [Option.map_eq_some_iff, toOption_eq_some_iff, readWord_eq_ok_iff]
  constructor
  · rintro ⟨n, hn, rfl⟩
    exact ⟨n, rfl, hn⟩
  · rintro ⟨n, rfl, hn⟩
    exact ⟨n, hn, rfl⟩

theorem read?_eq_some_iff (v : Variable) (value : String) (x : v.Field) :
    v.read? value = some x ↔ v.Spelled value.toList x := by
  cases v with
  | tapeSize | stepDelay | timeout =>
    exact toOption_eq_some_iff.trans (readWord_eq_ok_iff value x)
  | maxSteps => exact readLimit_eq_some_iff
  | pointerPolicy => exact toOption_eq_some_iff.trans (PointerPolicy.ofWord_eq_ok_iff value x)
  | bracketMode => exact toOption_eq_some_iff.trans (BracketMode.ofWord_eq_ok_iff value x)

theorem denotes_iff (v : Variable) (raw : String) (x : v.Field) :
    v.Denotes raw x ↔ v.read? (trim raw) = some x := by
  simp only [Denotes, isTrimmed_iff, read?_eq_some_iff, exists_eq_left']

theorem not_valid_iff (v : Variable) (raw : String) :
    ¬ v.Valid raw ↔ v.read? (trim raw) = none := by
  simp only [Valid, denotes_iff, not_exists, Option.eq_none_iff_forall_ne_some, ne_eq]

theorem Denotes.unique {v : Variable} {raw : String} {x y : v.Field} (hx : v.Denotes raw x)
    (hy : v.Denotes raw y) : x = y := by
  rw [denotes_iff] at hx hy
  rw [hx] at hy
  exact Option.some.inj hy

theorem assign?_eq_map (v : Variable) (s : Settings) (value : String) :
    v.assign? s value = (v.read? value).map (s.set v) := by
  cases v with
  | maxSteps =>
    rw [assign?, read?]
    cases readWord value <;> rfl
  | _ => rfl

theorem mem_all (v : Variable) : v ∈ all := by
  cases v <;> decide

theorem nodup_all : all.Nodup := by decide

/-- What is logged about a variable that is there. -/
def notice? (lookup : String → Option String) (v : Variable) : Option Notice :=
  (lookup v.key).map (.variableUsed v.key)

end Variable

/-! ## several variables -/

namespace Settings

/-- `s'` is `s` with the variables `vs` over it: the fields of those that are there
hold what their values denote, and all other fields are as they were. -/
structure Overlaid (lookup : String → Option String) (vs : List Variable) (s s' : Settings) :
    Prop where
  present : ∀ v ∈ vs, ∀ raw, lookup v.key = some raw → v.Denotes raw (s'.get v)
  absent : ∀ v, (v ∈ vs → lookup v.key = none) → s'.get v = s.get v

namespace Overlaid

variable {lookup : String → Option String} {v : Variable} {vs : List Variable} {s s' : Settings}

theorem nil (s : Settings) : Overlaid lookup [] s s := ⟨by simp, fun _ _ => rfl⟩

theorem accepted (h : Overlaid lookup vs s s') (hv : v ∈ vs) : v.Accepted lookup :=
  fun raw hraw => ⟨s'.get v, h.present v hv raw hraw⟩

theorem cons_none (hv : lookup v.key = none) (h : Overlaid lookup vs s s') :
    Overlaid lookup (v :: vs) s s' where
  present u hu raw hraw := by
    obtain rfl | hu := List.mem_cons.mp hu
    · rw [hv] at hraw
      cases hraw
    · exact h.present u hu raw hraw
  absent u hu := h.absent u fun hmem => hu (List.mem_cons_of_mem v hmem)

theorem cons_some {raw : String} {x : v.Field} (hv : lookup v.key = some raw)
    (hx : v.Denotes raw x) (hnot : v ∉ vs) (h : Overlaid lookup vs (s.set v x) s') :
    Overlaid lookup (v :: vs) s s' where
  present u hu raw' hraw := by
    obtain rfl | hu := List.mem_cons.mp hu
    · rw [hv] at hraw
      obtain rfl := Option.some.inj hraw
      rw [h.absent u fun hmem => absurd hmem hnot, get_set]
      exact hx
    · exact h.present u hu raw' hraw
  absent u hu := by
    have hne : u ≠ v := by
      rintro rfl
      have hnone := hu List.mem_cons_self
      rw [hv] at hnone
      cases hnone
    rw [h.absent u fun hmem => hu (List.mem_cons_of_mem v hmem), get_set_of_ne s hne]

end Overlaid

variable {lookup : String → Option String} {v : Variable} {raw : String}

theorem override_of_none (h : lookup v.key = none) (vs : List Variable) (s : Settings) :
    override lookup (v :: vs) s = override lookup vs s := by
  rw [override, h]

theorem override_of_invalid (h : lookup v.key = some raw) (hraw : ¬ v.Valid raw)
    (vs : List Variable) (s : Settings) :
    override lookup (v :: vs) s = ⟨s, some ⟨v.key, raw⟩, [.variableUsed v.key raw]⟩ := by
  have hread := (v.not_valid_iff raw).mp hraw
  simp only [override, h, Variable.assign?_eq_map, hread, Option.map_none]

theorem override_of_denotes {x : v.Field} (h : lookup v.key = some raw) (hx : v.Denotes raw x)
    (vs : List Variable) (s : Settings) :
    override lookup (v :: vs) s =
      { override lookup vs (s.set v x) with
        log := .variableUsed v.key raw :: (override lookup vs (s.set v x)).log } := by
  rw [Variable.denotes_iff] at hx
  simp only [override, h, Variable.assign?_eq_map, hx, Option.map_some]

/-- `Heeds lookup vs s o`: `o` is what looking at the variables `vs` in order comes to.
Either all of them are accepted, or nothing is looked at behind the first one that is
not. -/
inductive Heeds (lookup : String → Option String) (vs : List Variable) (s : Settings) :
    Overridden → Prop where
  | whole {s' : Settings} (h : Overlaid lookup vs s s') :
    Heeds lookup vs s ⟨s', none, vs.filterMap (Variable.notice? lookup)⟩
  | upTo {before after : List Variable} {v : Variable} {raw : String} {s' : Settings}
      (hvs : vs = before ++ v :: after) (hraw : lookup v.key = some raw) (hinvalid : ¬ v.Valid raw)
      (h : Overlaid lookup before s s') :
    Heeds lookup vs s
      ⟨s', some ⟨v.key, raw⟩, (before ++ [v]).filterMap (Variable.notice? lookup)⟩

variable {vs : List Variable} {s : Settings} {o : Overridden}

theorem Heeds.cons_none (hv : lookup v.key = none) (h : Heeds lookup vs s o) :
    Heeds lookup (v :: vs) s o := by
  have hnotice : Variable.notice? lookup v = none := by
    rw [Variable.notice?, hv]
    rfl
  cases h with
  | whole h =>
    have hwhole := Heeds.whole (h.cons_none hv)
    rwa [List.filterMap_cons_none hnotice] at hwhole
  | @upTo before after u _ _ hvs hraw hinvalid h =>
    have hsplit : v :: vs = (v :: before) ++ u :: after := by rw [hvs, List.cons_append]
    have hupTo := Heeds.upTo hsplit hraw hinvalid (h.cons_none hv)
    rwa [List.cons_append, List.filterMap_cons_none hnotice] at hupTo

theorem Heeds.cons_some {x : v.Field} (hv : lookup v.key = some raw) (hx : v.Denotes raw x)
    (hnot : v ∉ vs) (h : Heeds lookup vs (s.set v x) o) :
    Heeds lookup (v :: vs) s { o with log := .variableUsed v.key raw :: o.log } := by
  have hnotice : Variable.notice? lookup v = some (.variableUsed v.key raw) := by
    rw [Variable.notice?, hv]
    rfl
  cases h with
  | whole h =>
    have hwhole := Heeds.whole (h.cons_some hv hx hnot)
    rwa [List.filterMap_cons_some hnotice] at hwhole
  | @upTo before after u _ _ hvs hraw hinvalid h =>
    have hsplit : v :: vs = (v :: before) ++ u :: after := by rw [hvs, List.cons_append]
    have hnot' : v ∉ before := by
      intro hmem
      rw [hvs] at hnot
      exact hnot (List.mem_append_left _ hmem)
    have hupTo := Heeds.upTo hsplit hraw hinvalid (h.cons_some hv hx hnot')
    rwa [List.cons_append, List.filterMap_cons_some hnotice] at hupTo

/-- Some variables, one after the other. -/
theorem heeds_override (lookup : String → Option String) (hvs : vs.Nodup) (s : Settings) :
    Heeds lookup vs s (override lookup vs s) := by
  induction vs generalizing s with
  | nil => exact .whole (.nil s)
  | cons v vs ih =>
    obtain ⟨hnot, hrest⟩ := List.nodup_cons.mp hvs
    cases hlookup : lookup v.key with
    | none =>
      rw [override_of_none hlookup]
      exact (ih hrest s).cons_none hlookup
    | some raw =>
      by_cases hvalid : v.Valid raw
      · obtain ⟨x, hx⟩ := hvalid
        rw [override_of_denotes hlookup hx]
        exact (ih hrest (s.set v x)).cons_some hlookup hx hnot
      · rw [override_of_invalid hlookup hvalid]
        have hsplit : v :: vs = [] ++ v :: vs := rfl
        have hupTo := Heeds.upTo hsplit hlookup hvalid (.nil s)
        have hnotice : Variable.notice? lookup v = some (.variableUsed v.key raw) := by
          rw [Variable.notice?, hlookup]
          rfl
        rwa [List.nil_append, List.filterMap_cons_some hnotice] at hupTo

end Settings

/-- **The environment.**  The variables are looked at in a fixed order.  If the values of
all that are there are valid, their fields are set to what the values denote, and no
other field is.  Otherwise the first one that is not valid is reported, with its text as
it stands; the fields of those before it are set, no other field is, and nothing behind
it is looked at. -/
theorem environment_in_order (s : Settings) (lookup : String → Option String) :
    let o := s.ofEnvironment lookup
    Variable.all.map Variable.key = ["BF_TAPE_SIZE", "BF_STEP_DELAY_MS", "BF_MAX_STEPS",
      "BF_TIMEOUT_MS", "BF_POINTER_POLICY", "BF_BRACKET_MODE"] ∧
    (∀ (v : Variable) raw x y, v.Denotes raw x → v.Denotes raw y → x = y) ∧
    (((∀ v : Variable, v.Accepted lookup) ∧ o.invalid = none ∧
        (∀ v : Variable, ∀ raw, lookup v.key = some raw → v.Denotes raw (o.settings.get v)) ∧
        (∀ v : Variable, lookup v.key = none → o.settings.get v = s.get v) ∧
        o.log = Variable.all.filterMap (Variable.notice? lookup)) ∨
      ∃ before v after raw, Variable.all = before ++ v :: after ∧
        (∀ u ∈ before, u.Accepted lookup) ∧ lookup v.key = some raw ∧ ¬ v.Valid raw ∧
        o.invalid = some ⟨v.key, raw⟩ ∧
        (∀ u ∈ before, ∀ raw, lookup u.key = some raw → u.Denotes raw (o.settings.get u)) ∧
        (∀ u, (u ∈ before → lookup u.key = none) → o.settings.get u = s.get u) ∧
        o.log = (before ++ [v]).filterMap (Variable.notice? lookup)) := by
  intro o
  refine ⟨rfl, fun v raw x y hx hy => hx.unique hy, ?_⟩
  have hheeds : Settings.Heeds lookup Variable.all s o :=
    Settings.heeds_override lookup Variable.nodup_all s
  clear_value o
  cases hheeds with
  | whole h =>
    refine .inl ⟨fun v => h.accepted v.mem_all, rfl, fun v => h.present v v.mem_all, ?_, rfl⟩
    intro v hnone
    exact h.absent v fun _ => hnone
  | @upTo before after v raw s' hvs hraw hinvalid h =>
    exact .inr ⟨before, v, after, raw, hvs, fun u hu => h.accepted hu, hraw, hinvalid, rfl,
      h.present, h.absent, rfl⟩

/-- Seven with a sign, leading zeros and a tab before it; and a sign without digits,
behind which a good value does not count. -/
theorem reads_seven_and_stops_at_a_lone_sign :
    let seven : String → Option String := fun key =>
      if key = "BF_TAPE_SIZE" then some "\t+007 " else none
    let sign : String → Option String := fun key =>
      if key = "BF_MAX_STEPS" then some " +" else if key = "BF_TIMEOUT_MS" then some "1" else none
    ((Settings.default.ofEnvironment seven).settings.tapeSize = 7 ∧
      Variable.tapeSize.Denotes "\t+007 " (Settings.default.ofEnvironment seven).settings.tapeSize) ∧
    (Settings.default.ofEnvironment sign).settings.timeout = 2000 ∧
      ∃ (v : Variable) (raw : String), ¬ v.Valid raw ∧
        (Settings.default.ofEnvironment sign).invalid = some ⟨v.key, raw⟩ := by
  intro seven sign
  obtain ⟨-, -, hseven⟩ := environment_in_order .default seven
  obtain ⟨-, -, hsign⟩ := environment_in_order .default sign
  have hvalid : (Settings.default.ofEnvironment seven).invalid = none := by decide
  have hinvalid : (Settings.default.ofEnvironment sign).invalid ≠ none := by decide
  refine ⟨⟨by decide, ?_⟩, by decide, ?_⟩
  · obtain ⟨-, -, hpresent, -⟩ | ⟨_, _, _, _, -, -, -, -, hreported, -⟩ := hseven
    · exact hpresent .tapeSize "\t+007 " rfl
    · rw [hvalid] at hreported
      cases hreported
  · obtain ⟨-, hnone, -⟩ | ⟨_, v, _, raw, -, -, -, hraw, hreported, -⟩ := hsign
    · exact absurd hnone hinvalid
    · exact ⟨v, raw, hraw, hreported⟩

end Brainfuck
