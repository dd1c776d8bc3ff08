import Brainfuck.Pipe

/-!
# Brainfuck.Change

What observers of a tape are told.  After every mutation each listener gets a
`Change`, a snapshot of the place where it happened.  A listener's feed is a
pipe of its own, so nobody has to wait for a listener that does not read.

* `feed?_subscribe_self` — a new listener's id is new, and its feed is empty;
* `feed?_post` — a change goes to the end of every feed;
* `feed?_of_receive?`, `feed?_of_receiveAll?`, `feed?_unsubscribe_of_ne` — what one listener does
  leaves the other feeds alone.
-/

namespace Brainfuck

/-- The kinds of mutation. -/
inductive ChangeKind where
  | pointerMoved
  | cellIncremented
  | cellDecremented
  | outputWritten
  | inputRead
deriving DecidableEq, Repr

/-- The word for a kind of mutation. -/
def ChangeKind.word : ChangeKind → String
  | .pointerMoved => "PointerMoved"
  | .cellIncremented => "CellIncremented"
  | .cellDecremented => "CellDecremented"
  | .outputWritten => "OutputWritten"
  | .inputRead => "InputRead"

/-- A snapshot taken right after a mutation. -/
structure Change where
  kind : ChangeKind
  pointer : Nat
  value : UInt8
  mark : Nat
deriving DecidableEq, Repr

/-- Someone who is told of changes. -/
structure Listener where
  id : Nat
  feed : Pipe Change

/-- All listeners of one tape, in the order in which they subscribed. -/
structure Audience where
  nextId : Nat
  listeners : List Listener
  /-- Ids are given out in order, so the next one is new. -/
  id_lt : ∀ l ∈ listeners, l.id < nextId

namespace Audience

/-- Nobody listens yet. -/
def empty : Audience := ⟨0, [], nofun⟩

/-- The number of listeners. -/
def size (a : Audience) : Nat := a.listeners.length

/-- Adds a listener and tells its id.  Ids are never used twice. -/
def subscribe (a : Audience) : Nat × Audience :=
  (a.nextId, ⟨a.nextId + 1, a.listeners ++ [⟨a.nextId, .empty⟩], by
    intro l hl
    obtain hl | hl := List.mem_append.mp hl
    · exact Nat.lt_succ_of_lt (a.id_lt l hl)
    · rw [List.mem_singleton.mp hl]
      exact Nat.lt_succ_self _⟩)

/-- Whether a listener with this id is there. -/
def has (a : Audience) (id : Nat) : Bool := a.listeners.any (·.id == id)

/-- Removes the listener with this id. -/
def unsubscribe (a : Audience) (id : Nat) : Audience :=
  { a with
    listeners := a.listeners.filter (·.id != id)
    id_lt := fun l hl => a.id_lt l ((List.mem_filter.mp hl).1) }

/-- Tells every listener of a change. -/
def post (a : Audience) (c : Change) : Audience :=
  { a with
    listeners := a.listeners.map fun l => { l with feed := l.feed.put c }
    id_lt := by
      intro l hl
      obtain ⟨l', hl', rfl⟩ := List.mem_map.mp hl
      exact a.id_lt l' hl' }

/-- The feed of the listener with this id. -/
def feed? (a : Audience) (id : Nat) : Option (Pipe Change) :=
  (a.listeners.find? (·.id == id)).map (·.feed)

/-- Replaces the feed of the listener with this id. -/
def setFeed (a : Audience) (id : Nat) (feed : Pipe Change) : Audience :=
  { a with
    listeners := a.listeners.map fun l => if l.id == id then { l with feed := feed } else l
    id_lt := by
      intro l hl
      obtain ⟨l', hl', rfl⟩ := List.mem_map.mp hl
      split <;> exact a.id_lt l' hl' }

/-- Takes the next change from one listener's feed: `none` if there is no such
listener, and no change if nothing is pending. -/
def receive? (a : Audience) (id : Nat) : Option (Option Change × Audience) :=
  (a.feed? id).map fun feed =>
    match feed.take? with
    | none => (none, a)
    | some (c, rest) => (some c, a.setFeed id rest)

/-- Takes all pending changes from one listener's feed. -/
def receiveAll? (a : Audience) (id : Nat) : Option (List Change × Audience) :=
  (a.feed? id).map fun feed => (feed.pending, a.setFeed id feed.takeAll.2)

@[simp] theorem size_post (a : Audience) (c : Change) : (a.post c).size = a.size := by
  simp [size, post]

@[simp] theorem size_subscribe (a : Audience) : a.subscribe.2.size = a.size + 1 := by
  simp [size, subscribe]

/-! ## what the operations do to one feed -/

/-- Nobody has the id that the next listener gets. -/
theorem find?_nextId (a : Audience) : a.listeners.find? (·.id == a.nextId) = none := by
  rw [List.find?_eq_none]
  intro l hl
  rw [beq_iff_eq]
  exact Nat.ne_of_lt (a.id_lt l hl)

theorem feed?_subscribe_self (a : Audience) : a.subscribe.2.feed? a.nextId = some .empty := by
  simp [feed?, subscribe, List.find?_append, find?_nextId]

/-- Whoever listens is not disturbed by a new listener. -/
theorem feed?_subscribe {a : Audience} {id : Nat} {feed : Pipe Change}
    (h : a.feed? id = some feed) : a.subscribe.2.feed? id = some feed := by
  obtain ⟨l, hl, rfl⟩ := Option.map_eq_some_iff.mp h
  simp [feed?, subscribe, List.find?_append, hl]

theorem feed?_unsubscribe_of_ne {id id' : Nat} (h : id' ≠ id) (a : Audience) :
    (a.unsubscribe id').feed? id = a.feed? id := by
  have hp : (fun l : Listener => decide ((l.id != id') = true ∧ (l.id == id) = true)) =
      fun l => l.id == id := by
    funext l
    by_cases hl : l.id = id
    · subst hl
      simpa using h.symm
    · simp [hl]
  rw [feed?, feed?, unsubscribe, List.find?_filter, hp]

theorem feed?_post (a : Audience) (c : Change) (id : Nat) :
    (a.post c).feed? id = (a.feed? id).map (·.put c) := by
  simp only [feed?, post, List.find?_map, Option.map_map, Function.comp_def]

theorem feed?_setFeed (a : Audience) (id id' : Nat) (feed' : Pipe Change) :
    (a.setFeed id' feed').feed? id =
      (a.feed? id).map fun feed => if id = id' then feed' else feed := by
  have hid : ((fun l : Listener => l.id == id) ∘
      fun l => if l.id == id' then { l with feed := feed' } else l) = fun l => l.id == id := by
    funext l
    rw [Function.comp_apply]
    split <;> rfl
  rw [feed?, feed?, setFeed, List.find?_map, hid]
  cases hl : a.listeners.find? (·.id == id) with
  | none => rfl
  | some l =>
    obtain rfl : l.id = id := by simpa using List.find?_some hl
    by_cases h : l.id = id' <;> simp [h]

/-- What one listener takes comes from the front of its own feed. -/
theorem feed?_of_receive? {a a' : Audience} {id id' : Nat} {c : Option Change} {feed : Pipe Change}
    (hr : a.receive? id' = some (c, a')) (hf : a.feed? id = some feed) :
    ∃ feed', a'.feed? id = some feed' ∧
      feed.pending = (if id' = id then c.toList else []) ++ feed'.pending := by
  obtain ⟨taken, htaken, hr⟩ := Option.map_eq_some_iff.mp hr
  cases ht : taken.take? with
  | none =>
    rw [ht] at hr
    obtain ⟨rfl, rfl⟩ := Prod.mk.inj hr
    exact ⟨feed, hf, by simp⟩
  | some x =>
    obtain ⟨c, rest⟩ := x
    rw [ht] at hr
    obtain ⟨rfl, rfl⟩ := Prod.mk.inj hr
    rw [feed?_setFeed, hf]
    refine ⟨_, rfl, ?_⟩
    by_cases h : id' = id
    · subst h
      obtain rfl := Option.some.inj (htaken.symm.trans hf)
      simpa using Pipe.pending_of_take? ht
    · simp [h, Ne.symm h]

theorem feed?_of_receiveAll? {a a' : Audience} {id id' : Nat} {cs : List Change}
    {feed : Pipe Change} (hr : a.receiveAll? id' = some (cs, a')) (hf : a.feed? id = some feed) :
    ∃ feed', a'.feed? id = some feed' ∧
      feed.pending = (if id' = id then cs else []) ++ feed'.pending := by
  obtain ⟨taken, htaken, hr⟩ := Option.map_eq_some_iff.mp hr
  obtain ⟨rfl, rfl⟩ := Prod.mk.inj hr
  rw [feed?_setFeed, hf]
  refine ⟨_, rfl, ?_⟩
  by_cases h : id' = id
  · subst h
    obtain rfl := Option.some.inj (htaken.symm.trans hf)
    simp
  · simp [h, Ne.symm h]

end Audience

end Brainfuck
