/-!
# Brainfuck.Pipe

A first-in first-out pipe that keeps a record of its whole life.  Besides the
items themselves it stores how many of them have been taken out, so the items
still waiting are a view (`pending`) and not a second copy:

```
items = (already taken) ++ pending
```

Program input, program output and every change feed are pipes.

* `pending_put`, `pending_append` — new items wait behind the old ones;
* `take?_eq_none_iff` — nothing can be taken exactly when nothing waits;
* `pending_of_take?` — what is taken is the item that has waited longest;
* `items_closed_of_take?` — the record only grows.
-/

namespace Brainfuck

/-- Everything ever put into the pipe, oldest first, and how much of it has
been taken out again.  A closed pipe promises that no writer will come back;
putting items into it is still possible, the promise binds only readers that
would otherwise wait. -/
structure Pipe (α : Type) where
  /-- All items ever put in. -/
  items : Array α
  /-- How many of them have been taken out. -/
  taken : Nat
  closed : Bool
  taken_le : taken ≤ items.size

namespace Pipe

variable {α : Type}

/-- A pipe nobody has used yet. -/
def empty : Pipe α := ⟨#[], 0, false, Nat.zero_le _⟩

/-- The items that wait to be taken, oldest first. -/
def pending (p : Pipe α) : List α := p.items.toList.drop p.taken

/-- Whether no item waits. -/
def isEmpty (p : Pipe α) : Bool := p.taken == p.items.size

/-- Adds one item behind all others. -/
def put (p : Pipe α) (a : α) : Pipe α :=
  ⟨p.items.push a, p.taken, p.closed, by
    rw [Array.size_push]; exact Nat.le_succ_of_le p.taken_le⟩

/-- Adds several items, in order, behind all others. -/
def append (p : Pipe α) (as : List α) : Pipe α :=
  ⟨p.items ++ as.toArray, p.taken, p.closed, by
    rw [Array.size_append]; exact Nat.le_add_right_of_le p.taken_le⟩

/-- Announces the end of the pipe. -/
def close (p : Pipe α) : Pipe α := { p with closed := true }

/-- Takes the item that has waited longest. -/
def take? (p : Pipe α) : Option (α × Pipe α) :=
  if h : p.taken < p.items.size then
    some (p.items[p.taken], ⟨p.items, p.taken + 1, p.closed, h⟩)
  else none

/-- Takes everything that waits. -/
def takeAll (p : Pipe α) : List α × Pipe α :=
  (p.pending, ⟨p.items, p.items.size, p.closed, Nat.le_refl _⟩)

/-! ## what the operations do to the waiting items -/

@[simp] theorem pending_empty : (empty : Pipe α).pending = [] := rfl

@[simp] theorem pending_put (p : Pipe α) (a : α) : (p.put a).pending = p.pending ++ [a] := by
  have h := p.taken_le
  simp [pending, put, List.drop_append_of_le_length, h]

@[simp] theorem pending_append (p : Pipe α) (as : List α) :
    (p.append as).pending = p.pending ++ as := by
  have h := p.taken_le
  simp [pending, append, List.drop_append_of_le_length, h]

@[simp] theorem pending_close (p : Pipe α) : p.close.pending = p.pending := rfl

@[simp] theorem pending_takeAll (p : Pipe α) : p.takeAll.2.pending = [] := by
  simp [pending, takeAll]

theorem take?_eq_none_iff (p : Pipe α) : p.take? = none ↔ p.pending = [] := by
  simp [take?, pending]

theorem pending_of_take? {p q : Pipe α} {a : α} (h : p.take? = some (a, q)) :
    p.pending = a :: q.pending := by
  unfold take? at h
  split at h
  · next hlt =>
    obtain ⟨rfl, rfl⟩ := Prod.mk.inj (Option.some.inj h)
    simp only [pending]
    rw [List.drop_eq_getElem_cons (by simpa using hlt), Array.getElem_toList]
  · cases h

theorem exists_take?_of_pending {p : Pipe α} {a : α} {as : List α} (h : p.pending = a :: as) :
    ∃ q, p.take? = some (a, q) ∧ q.pending = as := by
  cases ht : p.take? with
  | none =>
    rw [(take?_eq_none_iff p).mp ht] at h
    cases h
  | some x =>
    obtain ⟨b, q⟩ := x
    have hp := pending_of_take? ht
    rw [h] at hp
    obtain ⟨rfl, rfl⟩ := List.cons.inj hp
    exact ⟨q, rfl, rfl⟩

/-- What is put in later does not change what is taken now. -/
theorem take?_append {p q : Pipe α} {a : α} (h : p.take? = some (a, q)) (as : List α) :
    (p.append as).take? = some (a, q.append as) := by
  unfold take? at h
  split at h
  · next hlt =>
    obtain ⟨rfl, rfl⟩ := Prod.mk.inj (Option.some.inj h)
    have hlt' : p.taken < (p.items ++ as.toArray).size := by
      rw [Array.size_append]
      exact Nat.lt_add_right _ hlt
    simp only [take?, append, dif_pos hlt', Array.getElem_append_left hlt]
  · cases h

theorem take?_close {p q : Pipe α} {a : α} (h : p.take? = some (a, q)) :
    p.close.take? = some (a, q.close) := by
  unfold take? at h
  split at h
  · next hlt =>
    obtain ⟨rfl, rfl⟩ := Prod.mk.inj (Option.some.inj h)
    exact dif_pos hlt
  · cases h

/-- Taking an item changes neither the record nor the announcement of the end. -/
theorem items_closed_of_take? {p q : Pipe α} {a : α} (h : p.take? = some (a, q)) :
    q.items = p.items ∧ q.closed = p.closed := by
  unfold take? at h
  split at h
  · obtain ⟨rfl, rfl⟩ := Prod.mk.inj (Option.some.inj h)
    exact ⟨rfl, rfl⟩
  · cases h

end Pipe

end Brainfuck
