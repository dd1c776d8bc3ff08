import Brainfuck.Proofs.Refit

/-!
# Brainfuck.Proofs.Unread

Input that is never read makes no difference to a run.

`Machine.fed` is the machine with another queue of input.  As long as both queues
begin with the bytes that the program reads, the two machines take the same steps,
and what one takes off its queue the other takes off the other:

* `Executes.never_past_end_iff` — an execution never reads past the end exactly
  when the bytes it reads are those that leave the queue;
* `Performs.fed`, `step_fed` — one step of both machines;
* `runFrom_fed` — all steps of a run, however it comes to its end;
* `unread_input_is_irrelevant` — the same for any input that agrees as far as it
  is read.
-/

namespace Brainfuck

/-- The device with another queue of input. -/
def Device.fed (d : Device) (q : Pipe UInt8) : Device :=
  { d with wiring := { d.wiring with input := q } }

/-- The machine with another queue of input. -/
def Machine.fed (m : Machine) (q : Pipe UInt8) : Machine := { m with device := m.device.fed q }

/-- What a run leaves behind, with another queue of input. -/
def Run.fed (r : Run) (q : Pipe UInt8) : Run := { r with machine := r.machine.fed q }

namespace Machine

/-- The bytes that wait for the machine. -/
def queued (m : Machine) : List UInt8 := m.device.wiring.input.pending

/-- None of the steps `ss` that `m` executes reads when nothing is queued. -/
def NeverPastEnd (m : Machine) (ss : List Step) : Prop :=
  ∀ us s ts m₁, ss = us ++ s :: ts → m.Executes us m₁ → s.byteRead?.isSome = true →
    m₁.queued ≠ []

variable {m m' : Machine} {s : Step} {ss : List Step} {q : Pipe UInt8} {as bs : List UInt8}

/-! ## what is read, and what leaves the queue -/

theorem filterMap_byteRead?_cons (s : Step) (ss : List Step) :
    (s :: ss).filterMap Step.byteRead? = s.byteRead?.toList ++ ss.filterMap Step.byteRead? := by
  cases hread : s.byteRead? with
  | none => rw [List.filterMap_cons_none hread]; rfl
  | some b => rw [List.filterMap_cons_some hread]; rfl

/-- What a step reads leaves the queue, unless it reads past the end. -/
theorem queued_of_step (h : m.step = (.stepped s, m')) :
    m.queued = s.byteRead?.toList ++ m'.queued ∨ s.byteRead?.isSome = true ∧ m.queued = [] := by
  obtain ⟨hread, hsame⟩ | ⟨b, hread, hpop⟩ | ⟨hread, hempty, -⟩ := input_of_step h
  · rw [hread]
    exact .inl hsame.symm
  · rw [hread]
    exact .inl hpop
  · rw [hread]
    exact .inr ⟨rfl, hempty⟩

/-- To look at the first step, and then at the others. -/
theorem never_past_end_cons_iff (head : m.step = (.stepped s, m')) :
    m.NeverPastEnd (s :: ss) ↔
      (s.byteRead?.isSome = true → m.queued ≠ []) ∧ m'.NeverPastEnd ss := by
  constructor
  · intro hnever
    refine ⟨hnever [] s ss m rfl (.nil m), fun us t ts m₁ hss hex => ?_⟩
    exact hnever (s :: us) t ts m₁ (congrArg (s :: ·) hss) (.cons head hex)
  · intro hnever us t ts m₁ hss hex hread
    obtain ⟨hfirst, hrest⟩ := hnever
    cases hex with
    | nil =>
      obtain ⟨rfl, -⟩ := List.cons.inj hss
      exact hfirst hread
    | cons head' tail' =>
      obtain ⟨rfl, hss'⟩ := List.cons.inj hss
      rw [head] at head'
      obtain ⟨-, rfl⟩ := Prod.mk.inj head'
      exact hrest _ t ts m₁ hss' tail' hread

/-- An execution never reads past the end exactly when the bytes it reads are those
that leave the queue. -/
theorem Executes.never_past_end_iff (h : m.Executes ss m') :
    m.NeverPastEnd ss ↔ m.queued = ss.filterMap Step.byteRead? ++ m'.queued := by
  induction h with
  | nil => simp [NeverPastEnd]
  | @cons m m₁ m' s ss head _ ih =>
    rw [never_past_end_cons_iff head, ih, filterMap_byteRead?_cons, List.append_assoc]
    obtain hpop | ⟨hread, hempty⟩ := queued_of_step head
    · have hfirst : s.byteRead?.isSome = true → m.queued ≠ [] := by
        intro hread hempty
        obtain ⟨b, hb⟩ := Option.isSome_iff_exists.mp hread
        simp [hb, hempty] at hpop
      rw [hpop, List.append_cancel_left_eq, ← hpop]
      exact ⟨fun h => h.2, fun h => ⟨hfirst, h⟩⟩
    · obtain ⟨b, hb⟩ := Option.isSome_iff_exists.mp hread
      simp [hb, hempty]

/-! ## the machine, and the machine with the other queue -/

/-- An instruction takes off the other queue what it takes off its own. -/
theorem Performs.fed {i : Instruction} {a : Action} {j : Nat} {d : Device}
    (h : m.Performs i a j d) (hqueued : m.queued = a.byteRead?.toList ++ as)
    (hq : q.pending = a.byteRead?.toList ++ bs) :
    ∃ q', (m.fed q).Performs i a j (d.fed q') ∧ q'.pending = bs := by
  cases h with
  | readByte hbyte =>
    obtain ⟨q', htake, hpending⟩ := Pipe.exists_take?_of_pending hq
    obtain ⟨hcancelled, p, -, rfl⟩ := (Wiring.intake_eq_byte_iff _ _ _).mp hbyte
    have hbyte' : (m.fed q).device.wiring.intake =
        .byte _ { (m.fed q).device.wiring with input := q' } :=
      (Wiring.intake_eq_byte_iff _ _ _).mpr ⟨hcancelled, q', htake, rfl⟩
    exact ⟨q', .readByte hbyte', hpending⟩
  | readEnd hended =>
    have hempty : m.queued = [] := ((Wiring.intake_eq_ended_iff _).mp hended).2.1
    rw [hempty] at hqueued
    cases hqueued
  | move h => exact ⟨q, .move h, hq⟩
  | increment => exact ⟨q, .increment, hq⟩
  | decrement => exact ⟨q, .decrement, hq⟩
  | write => exact ⟨q, .write, hq⟩
  | enterLoop h => exact ⟨q, .enterLoop h, hq⟩
  | jumpForward h hj => exact ⟨q, .jumpForward h hj, hq⟩
  | passStart h hj hm => exact ⟨q, .passStart h hj hm, hq⟩
  | exitLoop h => exact ⟨q, .exitLoop h, hq⟩
  | jumpBack h hj => exact ⟨q, .jumpBack h hj, hq⟩
  | passEnd h hj hm => exact ⟨q, .passEnd h hj hm, hq⟩
  | comment => exact ⟨q, .comment, hq⟩

theorem Fails.fed {c : Char} {fault : Fault} (h : m.Fails c fault) (q : Pipe UInt8) :
    (m.fed q).Fails c fault := by
  cases h with
  | move hc hmove => exact .move hc hmove
  | read hc hi =>
    have hcancelled : m.device.wiring.cancelled = true := (Wiring.intake_eq_cancelled_iff _).mp hi
    exact .read hc ((Wiring.intake_eq_cancelled_iff _).mpr hcancelled)
  | loopStart hc hv hj hmode => exact .loopStart hc hv hj hmode
  | loopEnd hc hv hj hmode => exact .loopEnd hc hv hj hmode

/-- Both machines take the same step, if both queues begin with what it reads. -/
theorem step_fed (h : m.step = (.stepped s, m')) (hqueued : m.queued = s.byteRead?.toList ++ as)
    (hq : q.pending = s.byteRead?.toList ++ bs) :
    m'.queued = as ∧ ∃ q', (m.fed q).step = (.stepped s, m'.fed q') ∧ q'.pending = bs := by
  have has : m'.queued = as := by
    obtain hpop | ⟨hread, hempty⟩ := queued_of_step h
    · exact List.append_cancel_left (hpop.symm.trans hqueued)
    · obtain ⟨b, hb⟩ := Option.isSome_iff_exists.mp hread
      simp [hb, hempty] at hqueued
  obtain ⟨c, a, j, d, hc, hp, rfl, rfl⟩ := step_eq_stepped_iff.mp h
  obtain ⟨q', hp', hpending⟩ := hp.fed hqueued hq
  exact ⟨has, q', step_eq_stepped_iff.mpr ⟨c, a, j, _, hc, hp', rfl, rfl⟩, hpending⟩

theorem halt?_fed (m : Machine) (q : Pipe UInt8) : (m.fed q).halt? = m.halt? := rfl

/-! ## runs -/

/-- A run on another queue goes the same way, if the queue begins with the bytes
that the run reads. -/
theorem runFrom_fed {seen : Array Step} {log : Array Notice} {fuel : Nat}
    (hclosed : m.device.wiring.input.closed = true)
    (hseen : (m.runFrom seen log fuel).seen = seen ++ ss.toArray)
    (hqueued : m.queued = ss.filterMap Step.byteRead? ++ (m.runFrom seen log fuel).machine.queued)
    (hq : q.pending = ss.filterMap Step.byteRead? ++ bs) :
    ∃ q', (m.fed q).runFrom seen log fuel = (m.runFrom seen log fuel).fed q' ∧ q'.pending = bs := by
  -- Whatever ends the run ends both; until then each step takes the same off both queues.
  induction fuel generalizing m seen log ss q with
  | zero =>
    have hidle : (m.runFrom seen log 0).seen = seen := by
      rw [runFrom]
      cases m.halt? <;> rfl
    obtain rfl : ss = [] := by simpa [hidle] using hseen
    refine ⟨q, ?_, hq⟩
    rw [runFrom, runFrom, halt?_fed]
    cases m.halt? <;> rfl
  | succ fuel ih =>
    cases hhalt : m.halt? with
    | some x =>
      have hhalt' : (m.fed q).halt? = some x := hhalt
      rw [runFrom_of_halt? hhalt] at hseen ⊢
      obtain rfl : ss = [] := by simpa using hseen
      exact ⟨q, runFrom_of_halt? hhalt' seen log _, hq⟩
    | none =>
      have hhalt' : (m.fed q).halt? = none := hhalt
      obtain ⟨s, m₁, hstep⟩ | ⟨fault, hstop⟩ := stepped_or_stops hclosed
      · obtain ⟨-, -, -, -, -, hclosed'⟩ := frame_of_step hstep
        rw [runFrom_of_step hhalt hstep] at hseen hqueued ⊢
        obtain ⟨ts, hts, -⟩ := m₁.affords_runFrom (seen.push s) (log.push (.stepTaken s)) fuel
        obtain rfl : ss = s :: ts := by
          rw [hts, push_append_toArray] at hseen
          simpa using (congrArg Array.toList hseen).symm
        rw [filterMap_byteRead?_cons, List.append_assoc] at hqueued hq
        obtain ⟨hqueued', q', hstep', hq'⟩ := step_fed hstep hqueued hq
        rw [runFrom_of_step hhalt' hstep']
        exact ih (hclosed'.trans hclosed) hts hqueued' hq'
      · cases fault with
        | none =>
          rw [Stops, (halt?_eq_none_iff.mp hhalt).1] at hstop
          cases hstop
        | some fault =>
          obtain ⟨-, c, hc, hfails⟩ := step_eq_failed_iff.mp hstop
          have hstop' : (m.fed q).step = (.failed fault, m.fed q) :=
            step_eq_failed_iff.mpr ⟨rfl, c, hc, hfails.fed q⟩
          rw [runFrom_of_failed hhalt hstop] at hseen ⊢
          obtain rfl : ss = [] := by simpa using hseen
          exact ⟨q, runFrom_of_failed hhalt' hstop' seen log fuel, hq⟩

/-- **Unread input makes no difference.**  If a run has all its input, pops `k` bytes
and never reads when none is left, then on any other input with the same first `k`
bytes it returns the same, has executed the same steps, has logged the same, and
leaves the same machine behind, with its tape, its output and its listeners; what
waits for that machine is the other input without its first `k` bytes. -/
theorem unread_input_is_irrelevant (m : Machine) (q : Pipe UInt8) (fuel k : Nat)
    (hclosed : m.device.wiring.input.closed = true)
    (hpops : (m.run fuel).machine.queued.length + k = m.queued.length)
    (hnever : m.NeverPastEnd (m.run fuel).seen.toList)
    (hagree : q.pending.take k = m.queued.take k) :
    ∃ q', (m.fed q).run fuel = (m.run fuel).fed q' ∧ q'.pending = q.pending.drop k := by
  have hseen : (m.run fuel).seen = #[] ++ (m.run fuel).seen.toList.toArray := by simp
  have hqueued := (m.executes_run fuel).never_past_end_iff.mp hnever
  have hk : ((m.run fuel).seen.toList.filterMap Step.byteRead?).length = k := by
    rw [hqueued, List.length_append] at hpops
    omega
  have hread : m.queued.take k = (m.run fuel).seen.toList.filterMap Step.byteRead? := by
    rw [hqueued, ← hk, List.take_left]
  have hq : q.pending =
      (m.run fuel).seen.toList.filterMap Step.byteRead? ++ q.pending.drop k := by
    rw [← hread, ← hagree, List.take_append_drop]
  exact runFrom_fed hclosed hseen hqueued hq

/-- A loop that echoes its input up to the first zero, and what follows the zero. -/
theorem echoes_up_to_the_first_zero :
    let m := Machine.load ⟨",[.,]".toList.toArray⟩
      ⟨.blank 1 .strict, (Wiring.fresh.supply [1, 0, 9]).closeInput⟩
    let q : Pipe UInt8 := (Pipe.empty.append [1, 0, 77, 5]).close
    (m.run 9).ending = .finished ∧ (m.run 9).machine.queued = [9] ∧
      ∃ q', (m.fed q).run 9 = (m.run 9).fed q' ∧ q'.pending = [77, 5] := by
  intro m q
  have hfinished : (m.run 9).ending = .finished := by decide +kernel
  have hqueued : (m.run 9).machine.queued = [9] := by decide +kernel
  have hread : m.queued = (m.run 9).seen.toList.filterMap Step.byteRead? ++ [9] := by
    decide +kernel
  have hnever : m.NeverPastEnd (m.run 9).seen.toList := by
    rw [(m.executes_run 9).never_past_end_iff, hqueued]
    exact hread
  exact ⟨hfinished, hqueued,
    unread_input_is_irrelevant m q 9 2 rfl (by decide +kernel) hnever (by decide +kernel)⟩

end Machine

end Brainfuck
