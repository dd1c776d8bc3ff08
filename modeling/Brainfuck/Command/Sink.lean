/-!
# Brainfuck.Command.Sink

Where the output of a command goes.  A sink takes writes up to some point, and
from then on every write fails, as when nobody reads any more.  A write of no
bytes is not attempted, so it cannot fail.

* `written_write_of_ok` — a write that succeeds adds its bytes behind the others;
* `written_write_of_fail` — a write that fails adds nothing;
* `fails_forever` — once a write has failed, every attempted write fails.
-/

namespace Brainfuck

/-- A place for output that may stop taking it. -/
structure Sink where
  written : Array UInt8
  /-- How many more writes succeed, if the sink stops at some point. -/
  room : Option Nat
  failed : Bool
deriving DecidableEq, Repr

namespace Sink

/-- A sink that takes everything. -/
def unlimited : Sink := ⟨#[], none, false⟩

/-- A sink that takes this many writes. -/
def limited (writes : Nat) : Sink := ⟨#[], some writes, false⟩

/-- Writes some bytes, and tells whether that worked. -/
def write (s : Sink) (bytes : List UInt8) : Bool × Sink :=
  if bytes.isEmpty then (true, s)
  else
    match s with
    | ⟨written, none, failed⟩ => (true, ⟨written ++ bytes, none, failed⟩)
    | ⟨written, some (n + 1), failed⟩ => (true, ⟨written ++ bytes, some n, failed⟩)
    | ⟨written, some 0, _⟩ => (false, ⟨written, some 0, true⟩)

/-! ## what a write does -/

theorem written_write_of_ok {s t : Sink} {bytes : List UInt8} (h : s.write bytes = (true, t)) :
    t.written.toList = s.written.toList ++ bytes := by
  obtain ⟨written, room, failed⟩ := s
  unfold write at h
  split at h
  · next hb =>
    obtain rfl := (Prod.mk.inj h).2
    simp [List.isEmpty_iff.1 hb]
  · rcases room with _ | _ | n <;> simp at h
    all_goals subst h; simp

theorem written_write_of_fail {s t : Sink} {bytes : List UInt8} (h : s.write bytes = (false, t)) :
    t.written = s.written ∧ t.failed = true ∧ t.room = some 0 := by
  obtain ⟨written, room, failed⟩ := s
  unfold write at h
  split at h
  · simp at h
  · rcases room with _ | _ | n <;> simp at h
    subst h
    exact ⟨rfl, rfl, rfl⟩

theorem fails_forever {s : Sink} (h : s.room = some 0) (bytes : List UInt8) :
    (s.write bytes).1 = bytes.isEmpty ∧ (s.write bytes).2.room = some 0 := by
  obtain ⟨written, room, failed⟩ := s
  subst h
  unfold write
  split <;> simp_all

end Sink

end Brainfuck
