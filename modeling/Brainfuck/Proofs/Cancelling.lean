import Brainfuck.Proofs.Effects

/-!
# Brainfuck.Proofs.Cancelling

A request to stop stays until it is withdrawn, and stops a run within one
instruction.

The flag is looked at in three places, between two steps, inside a read and at
the end of a delay, and others may raise it between any two atomic actions.  So
a run can be past its last look when the flag goes up: then it has the step limit
to look at and one instruction to execute, and no more.  `Runner.Winds` lists what
the next action of a run can be while the flag is up, and `Runner.Drifts` strings
such actions together with whatever others do to the connections meanwhile:

* `cancelled_of_act`, `popped_of_cancelled` — the flag stays up, and no byte is
  taken from the input;
* `drifts_of_play` — the history of a run under the flag is a drift;
* `Drifts.credit`, `Drifts.rest`, `Drifts.executes`, `Drifts.sound` — a drift
  executes one instruction at most, is over after four actions, and leaves the
  machine as the instruction has left it;
* `Drifts.of_start` — a run that only begins then executes nothing;
* `cancelled_until_reset` — all of this for every history without a reset.
-/

namespace Brainfuck

/-- The machine with connections that nobody has used: what others cannot change
while it runs. -/
def Machine.unwired (m : Machine) : Machine := m.mapWiring fun _ => .fresh

@[simp] theorem Machine.ip_unwired (m : Machine) : m.unwired.ip = m.ip := rfl

@[simp] theorem Machine.isFinished_unwired (m : Machine) : m.unwired.isFinished = m.isFinished := rfl

/-! ## the flag -/

namespace Machine

variable {m m' : Machine} {s : Step}

/-- An instruction that is performed under the flag does not read. -/
theorem Performs.byteRead?_of_cancelled {i : Instruction} {a : Action} {j : Nat} {d : Device}
    (h : m.Performs i a j d) (hm : m.device.wiring.cancelled = true) : a.byteRead? = none := by
  cases h with
  | readByte hi =>
    rw [((Wiring.intake_eq_byte_iff _ _ _).mp hi).1] at hm
    cases hm
  | readEnd hi =>
    rw [((Wiring.intake_eq_ended_iff _).mp hi).1] at hm
    cases hm
  | _ => rfl

theorem byteRead?_of_cancelled (h : m.step = (.stepped s, m'))
    (hm : m.device.wiring.cancelled = true) : s.byteRead? = none := by
  obtain ⟨c, a, j, d, -, hp, rfl, -⟩ := step_eq_stepped_iff.mp h
  exact hp.byteRead?_of_cancelled hm

/-- Under the flag no instruction waits. -/
theorem step_ne_waiting_of_cancelled (hm : m.device.wiring.cancelled = true) :
    m.step ≠ (.waiting, m') := by
  intro h
  obtain ⟨-, c, -, -, hw⟩ := step_eq_waiting_iff.mp h
  rw [(Wiring.intake_eq_waiting_iff _).mp hw |>.1] at hm
  cases hm

/-- A read that is cancelled is cancelled where it stands. -/
theorem ip_of_cancelled {ip : Nat} (h : m.step = (.failed (.cancelled ip), m')) : ip = m.ip := by
  obtain ⟨-, c, -, hfail⟩ := step_eq_failed_iff.mp h
  cases hfail with
  | read => rfl

end Machine

theorem Device.read_of_cancelled {d : Device} (h : d.wiring.cancelled = true) :
    d.read = (.refused .cancelled, d) := by
  simp only [read, (Wiring.intake_eq_cancelled_iff _).mpr h]

theorem Wiring.cancelled_handled {w : Wiring} {op : HandleOp} (hop : op ≠ .reset)
    (h : w.cancelled = true) : (w.handled op).cancelled = true := by
  cases op with
  | reset => exact absurd rfl hop
  | drain | drainNow =>
    obtain ⟨q, hq, -⟩ := w.exists_handled_drain
    simp only [handled_drainNow, hq, h]
  | cancel => rfl
  | _ => exact h

namespace Bench

variable {b : Bench} {d : Deed}

/-- Only a reset takes the flag down. -/
theorem cancelled_of_act (h : b.wiring.cancelled = true) (hd : d ≠ .handle .reset) :
    (b.act d).wiring.cancelled = true := by
  rw [wiring] at h ⊢
  cases b.effect_of_act d with
  | handled hop hact =>
    rw [hact, Session.wiring_mapWiring]
    exact Wiring.cancelled_handled (fun he => hd (he ▸ hop)) h
  | listened _ hact =>
    rw [hact, Session.wiring_mapWiring]
    exact h
  | stepped hm hstep hact =>
    obtain ⟨-, -, -, -, hcancelled, -⟩ := Machine.frame_of_step hstep
    rw [hm] at h
    rw [hact]
    exact hcancelled.trans h
  | worked hdev hworks hact =>
    rw [hdev] at h
    rw [hact]
    exact hworks.cancelled.trans h
  | loaded _ hs hact | adjusted _ _ _ hs hact | released hs hact =>
    rw [hs] at h
    rw [hact]
    exact h
  | dropped hact =>
    rw [hact]
    exact h

theorem cancelled_of_play {ds : List Deed} (h : b.wiring.cancelled = true)
    (hds : .handle .reset ∉ ds) : (b.play ds).wiring.cancelled = true := by
  induction ds generalizing b with
  | nil => exact h
  | cons d ds ih =>
    obtain ⟨hd, hds⟩ := List.ne_and_not_mem_of_not_mem_cons hds
    exact ih (cancelled_of_act h (Ne.symm hd)) hds

/-- Under the flag nothing is read. -/
theorem byteRead?_of_record? {s : Step} (h : b.wiring.cancelled = true)
    (hrecord : b.record? d = some s) : s.byteRead? = none := by
  obtain ⟨m, m', hm, hstep, -⟩ := step_of_record? hrecord
  rw [wiring, hm] at h
  exact Machine.byteRead?_of_cancelled hstep h

theorem reads_of_cancelled (h : b.wiring.cancelled = true) : b.reads d = false := by
  have hrecord : ((b.record? d).bind Step.byteRead?).isSome = false := by
    cases hrecord : b.record? d with
    | none => rfl
    | some s =>
      rw [Option.bind_some, byteRead?_of_record? h hrecord]
      rfl
  unfold reads
  split
  · next dev =>
    have h : dev.wiring.cancelled = true := h
    rw [Device.read_of_cancelled h]
    rfl
  · exact hrecord

theorem popped_of_cancelled {ds : List Deed} (h : b.wiring.cancelled = true)
    (hds : .handle .reset ∉ ds) : gather popped b ds = [] := by
  induction ds generalizing b with
  | nil => rfl
  | cons d ds ih =>
    obtain ⟨hd, hds⟩ := List.ne_and_not_mem_of_not_mem_cons hds
    have hpopped : b.popped d = [] := by
      rw [popped, stored?_of_not_reads (reads_of_cancelled h)]
      exact ite_self []
    rw [gather_cons, hpopped, ih (cancelled_of_act h (Ne.symm hd)) hds]
    rfl

theorem byteRead?_of_play {ds : List Deed} (h : b.wiring.cancelled = true)
    (hds : .handle .reset ∉ ds) : ∀ s ∈ b.records ds, s.byteRead? = none := by
  induction ds generalizing b with
  | nil => nofun
  | cons d ds ih =>
    obtain ⟨hd, hds⟩ := List.ne_and_not_mem_of_not_mem_cons hds
    intro s hs
    rw [records_cons, List.mem_append, Option.mem_toList] at hs
    obtain hs | hs := hs
    · exact byteRead?_of_record? h hs
    · exact ih (cancelled_of_act h (Ne.symm hd)) hds s hs

end Bench

/-! ## the actions of a run under the flag -/

/-- The number of instructions that a run may still execute under the flag. -/
def Phase.credit : Phase → Nat
  | .testLimit | .execute => 1
  | .testEnd | .testCancel | .pause | .returned _ => 0

/-- The number of actions after which a run under the flag has returned. -/
def Phase.rest : Phase → Nat
  | .testLimit => 4
  | .execute => 3
  | .testEnd => 2
  | .testCancel | .pause => 1
  | .returned _ => 0

theorem Phase.credit_le (phase : Phase) : phase.credit ≤ 1 := by
  cases phase <;> simp [credit]

theorem Phase.rest_le (phase : Phase) : phase.rest ≤ 4 := by
  cases phase <;> simp [rest]

namespace Runner

theorem exists_result?_of_rest {r : Runner} (h : r.phase.rest = 0) :
    ∃ fault, r.result? = some fault := by
  obtain ⟨m, phase⟩ := r
  cases phase with
  | returned fault => exact ⟨fault, rfl⟩
  | _ => cases h

/-- `r.Winds s r'`: under the flag the next action of `r` executes `s`, if anything,
and leads to `r'`. -/
inductive Winds : Runner → Option Step → Runner → Prop where
  | ended {m : Machine} (h : m.isFinished = true) : Winds ⟨m, .testEnd⟩ none ⟨m, .returned none⟩
  | goesOn {m : Machine} (h : m.isFinished = false) : Winds ⟨m, .testEnd⟩ none ⟨m, .testCancel⟩
  | noticed {m : Machine} : Winds ⟨m, .testCancel⟩ none ⟨m, .returned (some (.cancelled m.ip))⟩
  | limited {m : Machine} (limit : Nat) :
    Winds ⟨m, .testLimit⟩ none ⟨m, .returned (some (.stepLimit limit))⟩
  | unlimited {m : Machine} : Winds ⟨m, .testLimit⟩ none ⟨m, .execute⟩
  | finished {m : Machine} : Winds ⟨m, .execute⟩ none ⟨m, .testEnd⟩
  | failed {m : Machine} {fault : Fault} (h : m.step = (.failed fault, m)) :
    Winds ⟨m, .execute⟩ none ⟨m, .returned (some fault)⟩
  | stepped {m m' : Machine} {s : Step} {phase : Phase} (h : m.step = (.stepped s, m'))
      (hphase : phase = .testEnd ∨ phase = .pause) : Winds ⟨m, .execute⟩ (some s) ⟨m', phase⟩
  | woken {m : Machine} : Winds ⟨m, .pause⟩ none ⟨m, .returned (some (.cancelled m.ip))⟩
  | rests {m : Machine} {fault : Option Fault} :
    Winds ⟨m, .returned fault⟩ none ⟨m, .returned fault⟩

theorem winds_advance {r : Runner} (h : r.wiring.cancelled = true) :
    r.Winds ((Bench.running r).record? .advance) r.advance.2 := by
  obtain ⟨m, phase⟩ := r
  have hm : m.device.wiring.cancelled = true := h
  rw [Bench.record?]
  cases phase with
  | testEnd =>
    cases hf : m.isFinished with
    | true => rw [advance_testEnd_of_finished hf]; exact .ended hf
    | false => rw [advance_testEnd hf]; exact .goesOn hf
  | testCancel => rw [advance_testCancel_of_cancelled hm]; exact .noticed
  | testLimit =>
    by_cases hl : ∃ limit, m.limit = some limit ∧ limit ≤ m.steps
    · obtain ⟨limit, hl, hle⟩ := hl
      rw [advance_testLimit_of_le hl hle]
      exact .limited limit
    · have hlt : ∀ limit, m.limit = some limit → m.steps < limit :=
        fun limit h => Nat.lt_of_not_le fun hle => hl ⟨limit, h, hle⟩
      rw [advance_testLimit hlt]
      exact .unlimited
  | execute =>
    obtain ⟨_, h⟩ | ⟨c, a, j, d, _, _, h⟩ | ⟨c, fault, _, _, h⟩ | ⟨c, _, _, h⟩ := m.step_cases
    · rw [advance_execute_of_finished h]; exact .finished
    · rw [advance_execute_of_stepped h]
      refine .stepped h ?_
      split
      · exact .inl rfl
      · exact .inr rfl
    · rw [advance_execute_of_failed h]; exact .failed h
    · exact absurd h (Machine.step_ne_waiting_of_cancelled hm)
  | pause => rw [advance_pause_of_cancelled hm]; exact .woken
  | returned fault => exact .rests

/-- `r.Drifts ss n r'`: under the flag `r` comes to `r'` with `n` actions, which
execute the steps `ss`, while others do as they like with the connections. -/
inductive Drifts (r : Runner) : List Step → Nat → Runner → Prop where
  | refl : Drifts r [] 0 r
  | rewired {ss : List Step} {n : Nat} {r' : Runner} (h : Drifts r ss n r') (w : Wiring) :
    Drifts r ss n (r'.mapWiring fun _ => w)
  | advanced {ss : List Step} {n : Nat} {r' r'' : Runner} {s : Option Step} (h : Drifts r ss n r')
      (hr : r'.Winds s r'') : Drifts r (ss ++ s.toList) (n + 1) r''

variable {r r' : Runner} {ss : List Step} {n : Nat}

/-- Each action uses up its part of the credit and brings the run nearer to its return. -/
theorem Winds.credit_rest {s : Option Step} (h : r.Winds s r') :
    s.toList.length + r'.phase.credit ≤ r.phase.credit ∧ r'.phase.rest ≤ r.phase.rest - 1 := by
  cases h with
  | stepped _ hphase => obtain rfl | rfl := hphase <;> simp [Phase.credit, Phase.rest]
  | _ => simp [Phase.credit, Phase.rest]

theorem Drifts.credit_rest (h : r.Drifts ss n r') :
    ss.length + r'.phase.credit ≤ r.phase.credit ∧ r'.phase.rest ≤ r.phase.rest - n := by
  induction h with
  | refl => exact ⟨Nat.le_of_eq (Nat.zero_add _), Nat.le_refl _⟩
  | rewired _ w ih => exact ih
  | advanced _ hr ih =>
    obtain ⟨hcredit, hrest⟩ := hr.credit_rest
    rw [List.length_append]
    omega

theorem Drifts.length_le (h : r.Drifts ss n r') : ss.length ≤ 1 :=
  Nat.le_trans (Nat.le_of_add_right_le h.credit_rest.1) r.phase.credit_le

/-- What a drift has executed it has executed at once, on the machine as it was. -/
theorem Drifts.executes (h : r.Drifts ss n r') :
    ∃ m m' : Machine, m.unwired = r.machine.unwired ∧ m.Executes ss m' ∧
      r'.machine.unwired = m'.unwired := by
  induction h with
  | refl => exact ⟨r.machine, r.machine, rfl, .nil _, rfl⟩
  | rewired _ w ih => exact ih
  | @advanced ss n r' r'' s h hr ih =>
    cases s with
    | none =>
      have hmachine : r''.machine = r'.machine := by cases hr <;> rfl
      rw [Option.toList_none, List.append_nil, hmachine]
      exact ih
    | some s =>
      have hstep : r'.machine.step = (.stepped s, r''.machine) := by
        cases hr with
        | stepped h _ => exact h
      obtain rfl : ss = [] := by
        have hlength := (h.advanced hr).length_le
        rw [List.length_append, Option.toList_some, List.length_singleton] at hlength
        exact List.length_eq_zero_iff.mp (Nat.le_zero.mp (Nat.le_of_succ_le_succ hlength))
      obtain ⟨m, m', hm, hex, hm'⟩ := ih
      cases hex
      exact ⟨r'.machine, r''.machine, hm'.trans hm, .cons hstep (.nil _), rfl⟩

/-- A run that has returned without a fault stands at the end of the program, and
one that has been cancelled says where it stands. -/
structure Sound (r : Runner) : Prop where
  ended : r.phase = .returned none → r.machine.isFinished = true
  cancelled : ∀ ip, r.phase = .returned (some (.cancelled ip)) → ip = r.machine.ip

theorem Winds.sound {s : Option Step} (h : r.Winds s r') (hr : r.Sound) : r'.Sound := by
  cases h with
  | ended h => exact ⟨fun _ => h, nofun⟩
  | noticed | woken =>
    refine ⟨nofun, fun ip h => ?_⟩
    cases h
    rfl
  | failed h =>
    refine ⟨nofun, fun ip hip => ?_⟩
    cases hip
    exact Machine.ip_of_cancelled h
  | stepped _ hphase => obtain rfl | rfl := hphase <;> exact ⟨nofun, nofun⟩
  | rests => exact hr
  | _ => exact ⟨nofun, nofun⟩

theorem Drifts.sound (h : r.Drifts ss n r') (hr : r.Sound) : r'.Sound := by
  induction h with
  | refl => exact hr
  | rewired _ w ih => exact ⟨ih.ended, ih.cancelled⟩
  | advanced _ hr ih => exact hr.sound ih

end Runner

/-! ## a run that begins under the flag -/

/-- What a run returns that begins under the flag. -/
def Machine.refusal (m : Machine) : Option Fault :=
  if m.isFinished then none else some (.cancelled m.ip)

@[simp] theorem Machine.refusal_unwired (m : Machine) : m.unwired.refusal = m.refusal := rfl

namespace Runner

variable {r : Runner} {m : Machine} {ss : List Step} {n : Nat}

/-- A run that begins under the flag executes nothing. -/
theorem Drifts.idle_of_start (h : (start m).Drifts ss n r) :
    ss = [] ∧ r.machine.unwired = m.unwired := by
  obtain rfl : ss = [] :=
    List.length_eq_zero_iff.mp (Nat.le_zero.mp (Nat.le_of_add_right_le h.credit_rest.1))
  obtain ⟨m₁, m', hm, hex, hm'⟩ := h.executes
  cases hex
  exact ⟨rfl, hm'.trans hm⟩

theorem Drifts.phase_of_start (h : (start m).Drifts ss n r) :
    r.phase = .testEnd ∨ r.phase = .testCancel ∧ m.isFinished = false ∨
      r.phase = .returned m.refusal := by
  induction h with
  | refl => exact .inl rfl
  | rewired _ w ih => exact ih
  | @advanced ss n r' r'' s h hr ih =>
    obtain ⟨-, hunwired⟩ := h.idle_of_start
    have hfinished : r'.machine.isFinished = m.isFinished := by
      rw [← Machine.isFinished_unwired, hunwired, Machine.isFinished_unwired]
    have hrefusal : r'.machine.refusal = m.refusal := by
      rw [← Machine.refusal_unwired, hunwired, Machine.refusal_unwired]
    cases hr with
    | ended hf =>
      refine .inr (.inr ?_)
      rw [← hrefusal, Machine.refusal, if_pos hf]
    | goesOn hf => exact .inr (.inl ⟨rfl, hfinished.symm.trans hf⟩)
    | noticed =>
      obtain h | ⟨-, h⟩ | h := ih
      · cases h
      · refine .inr (.inr ?_)
        rw [← hrefusal, Machine.refusal, hfinished, h]
        rfl
      · cases h
    | finished => exact .inl rfl
    | rests => exact ih
    | limited | unlimited | failed | stepped | woken =>
      obtain h | ⟨h, -⟩ | h := ih <;> cases h

/-- It finds out in two actions what it returns. -/
theorem Drifts.result?_of_start (h : (start m).Drifts ss n r) (hn : 2 ≤ n) :
    r.result? = some m.refusal := by
  have hrest : r.phase.rest = 0 := by
    have hrest : r.phase.rest ≤ 2 - n := h.credit_rest.2
    omega
  obtain h | ⟨h, -⟩ | h := h.phase_of_start
  · rw [h] at hrest
    cases hrest
  · rw [h] at hrest
    cases hrest
  · rw [result?, h]

end Runner

/-! ## histories -/

/-- Whether a deed is the next action of a run. -/
def Deed.isAdvance : Deed → Bool
  | .advance => true
  | _ => false

theorem Deed.eq_advance {d : Deed} (h : d.isAdvance = true) : d = .advance := by
  cases d with
  | advance => rfl
  | _ => cases h

namespace Bench

/-- Others can change nothing of a run but its connections. -/
theorem act_running {r : Runner} {d : Deed} (hd : d.isAdvance = false) (hfinish : d ≠ .finish) :
    (running r).record? d = none ∧
      ∃ w, (running r).act d = .running (r.mapWiring fun _ => w) := by
  have hrecord : (running r).record? d = none := by
    cases d with
    | advance => cases hd
    | _ => rfl
  refine ⟨hrecord, ?_⟩
  have hsame : (running r).act d = running r →
      ∃ w, (running r).act d = .running (r.mapWiring fun _ => w) := fun h => ⟨r.wiring, h⟩
  cases d with
  | handle op => exact ⟨_, rfl⟩
  | feed id op =>
    rw [act]
    split
    · exact ⟨_, rfl⟩
    · exact ⟨r.wiring, rfl⟩
  | advance => cases hd
  | finish => exact absurd rfl hfinish
  | hand op => cases op <;> exact hsame rfl
  | _ => exact hsame rfl

/-- A run goes on drifting. -/
theorem drifts_of_drifts {r r₁ : Runner} {ss : List Step} {n : Nat} {ds : List Deed}
    (h : r.Drifts ss n r₁) (hr₁ : r₁.wiring.cancelled = true) (hreset : .handle .reset ∉ ds)
    (hfinish : .finish ∉ ds) :
    ∃ r', (running r₁).play ds = running r' ∧
      r.Drifts (ss ++ (running r₁).records ds) (n + ds.countP Deed.isAdvance) r' := by
  induction ds generalizing ss n r₁ with
  | nil => exact ⟨r₁, rfl, by simpa [records, gather] using h⟩
  | cons d ds ih =>
    obtain ⟨hd, hreset⟩ := List.ne_and_not_mem_of_not_mem_cons hreset
    obtain ⟨hdf, hfinish⟩ := List.ne_and_not_mem_of_not_mem_cons hfinish
    have hup : ((running r₁).act d).wiring.cancelled = true :=
      cancelled_of_act hr₁ (Ne.symm hd)
    obtain ⟨r₂, hact, hdrift⟩ : ∃ r₂, (running r₁).act d = running r₂ ∧
        r.Drifts (ss ++ ((running r₁).record? d).toList)
          (n + if d.isAdvance then 1 else 0) r₂ := by
      cases hadv : d.isAdvance with
      | true =>
        obtain rfl := Deed.eq_advance hadv
        exact ⟨_, rfl, h.advanced (Runner.winds_advance hr₁)⟩
      | false =>
        obtain ⟨hrecord, w, hact⟩ := act_running hadv (Ne.symm hdf)
        refine ⟨_, hact, ?_⟩
        rw [hrecord, Option.toList_none, List.append_nil]
        exact h.rewired w
    rw [hact] at hup
    obtain ⟨r', hplay, hdrift'⟩ := ih hdrift hup hreset hfinish
    refine ⟨r', by rw [play_cons, hact, hplay], ?_⟩
    rw [records_cons, hact, List.countP_cons, ← List.append_assoc, ← Nat.add_assoc,
      Nat.add_right_comm]
    exact hdrift'

theorem drifts_of_play {r : Runner} {ds : List Deed} (hr : r.wiring.cancelled = true)
    (hreset : .handle .reset ∉ ds) (hfinish : .finish ∉ ds) :
    ∃ r', (running r).play ds = running r' ∧
      r.Drifts ((running r).records ds) (ds.countP Deed.isAdvance) r' := by
  obtain ⟨r', hplay, hdrift⟩ := drifts_of_drifts .refl hr hreset hfinish
  rw [List.nil_append, Nat.zero_add] at hdrift
  exact ⟨r', hplay, hdrift⟩

/-! ## until a reset -/

/-- What the flag means to whoever asks a tape or its handles, and to a run that
begins while it is up. -/
structure Refuses (b : Bench) : Prop where
  /-- No read takes a byte, or touches a cell or a feed. -/
  read : ∀ dev, b.session.device? = some dev → dev.read = (.refused .cancelled, dev)
  /-- No one may sleep. -/
  pause : b.session.handle .pause = b.session.tell (.refused .cancelled)
  /-- A run executes nothing, whatever others do meanwhile. -/
  run : ∀ m, b = resting (.machine m) → ∀ ds, .handle .reset ∉ ds → .finish ∉ ds →
    ∃ r, (b.act .start).play ds = running r ∧ (b.act .start).records ds = [] ∧
      r.machine.unwired = m.unwired ∧
      (2 ≤ ds.countP Deed.isAdvance → r.result? = some m.refusal)

theorem refuses_of_cancelled {b : Bench} (h : b.wiring.cancelled = true) : b.Refuses where
  read dev hdev := by
    rw [wiring, Session.wiring_of_device? hdev] at h
    exact Device.read_of_cancelled h
  pause := by
    have h : b.session.wiring.cancelled = true := h
    rw [Session.handle, if_pos h]
  run m hm ds hreset hfinish := by
    subst hm
    obtain ⟨r, hplay, hdrift⟩ := drifts_of_play (r := .start m) h hreset hfinish
    obtain ⟨hrecords, hunwired⟩ := hdrift.idle_of_start
    exact ⟨r, hplay, hrecords, hunwired, hdrift.result?_of_start⟩

/-- Once someone has asked to stop, and until someone withdraws it, whatever happens:
the flag is up, and whoever asks is refused; no byte is taken from the input; and
the run that was in progress executes one more instruction at most, which is no read,
returns after four of its actions at most, and leaves the machine where that
instruction has left it. -/
theorem cancelled_until_reset (b : Bench) (ds : List Deed) (hds : .handle .reset ∉ ds) :
    let b₀ := b.act (.handle .cancel)
    let b' := b₀.play ds
    b'.wiring.cancelled = true ∧ b'.Refuses ∧ gather popped b₀ ds = [] ∧
      b'.wiring.input.pending = b.wiring.input.pending ++ gather supplied b₀ ds ∧
      ∀ r, b = running r → r.result? = none → .finish ∉ ds →
        ∃ (m m' : Machine) (r' : Runner), b' = running r' ∧
          m.unwired = r.machine.unwired ∧ m.Executes (b₀.records ds) m' ∧
          r'.machine.unwired = m'.unwired ∧ (b₀.records ds).length ≤ 1 ∧
          (∀ s ∈ b₀.records ds, s.byteRead? = none) ∧
          (4 ≤ ds.countP Deed.isAdvance → ∃ fault, r'.result? = some fault) ∧
          (r'.result? = some none → m'.isFinished = true) ∧
          ∀ ip, r'.result? = some (some (.cancelled ip)) → ip = m'.ip := by
  intro b₀ b'
  have hb₀ : b₀.wiring = b.wiring.cancel := by
    simp only [b₀, act_handle, wiring_mapWiring]
    rfl
  have hup₀ : b₀.wiring.cancelled = true := by rw [hb₀]; rfl
  have hup : b'.wiring.cancelled = true := cancelled_of_play hup₀ hds
  have hpopped := popped_of_cancelled hup₀ hds
  have hinput : b₀.wiring.input.pending ++ gather supplied b₀ ds =
      gather popped b₀ ds ++ b'.wiring.input.pending := input_of_play b₀ ds
  rw [hpopped, List.nil_append, hb₀] at hinput
  refine ⟨hup, refuses_of_cancelled hup, hpopped, hinput.symm, fun r hr hresult hfinish => ?_⟩
  have hrunning : b₀ = running (r.mapWiring .cancel) := by
    simp only [b₀, hr, act_handle]
    rfl
  rw [hrunning] at hup₀
  obtain ⟨r', hplay, hdrift⟩ := drifts_of_play hup₀ hds hfinish
  rw [← hrunning] at hplay hdrift
  obtain ⟨m, m', hm, hex, hm'⟩ := hdrift.executes
  -- A run that has not returned says nothing yet about where it stands.
  have hsound : (r.mapWiring .cancel).Sound := by
    have hphase : ∀ fault, r.phase ≠ .returned fault := by
      intro fault h
      rw [Runner.result?, h] at hresult
      cases hresult
    exact ⟨fun h => absurd h (hphase _), fun ip h => absurd h (hphase _)⟩
  have hsound' := hdrift.sound hsound
  refine ⟨m, m', r', hplay, hm, hex, hm', hdrift.length_le, ?_, fun hcount => ?_, fun h => ?_,
    fun ip h => ?_⟩
  · exact hrunning ▸ byteRead?_of_play hup₀ hds
  · have hrest := hdrift.credit_rest.2
    have hle : (r.mapWiring Wiring.cancel).phase.rest ≤ 4 := Phase.rest_le _
    have hzero : r'.phase.rest = 0 := by omega
    exact Runner.exists_result?_of_rest hzero
  · have hfinished := hsound'.ended (Runner.phase_of_result? h)
    rwa [← Machine.isFinished_unwired, hm'] at hfinished
  · rw [hsound'.cancelled ip (Runner.phase_of_result? h), ← Machine.ip_unwired, hm',
      Machine.ip_unwired]

/-- A request that comes when the run has just looked at the flag: one more
instruction, and then the run stops in its delay, while a byte waits that the
program would have read next. -/
theorem stopped_behind_one_more :
    let m : Machine := { Machine.load ⟨#['+', ',']⟩ (.blank 1 .strict) with delay := 5 }
    let b := (running (.start m)).play [.advance, .advance]
    let b₀ := b.act (.handle .cancel)
    let ds : List Deed :=
      [.advance, .handle (.supply [65]), .advance, .handle .drainNow, .advance, .advance]
    .handle .reset ∉ ds ∧ .finish ∉ ds ∧ (b₀.records ds).length = 1 ∧
      ∃ r', b₀.play ds = running r' ∧ r'.result? = some (some (.cancelled 1)) ∧
        r'.machine.ip = 1 ∧ (b₀.play ds).wiring.input.pending = [65] := by
  intro m b b₀ ds
  have hreset : .handle .reset ∉ ds := by simp [ds]
  have hfinish : .finish ∉ ds := by simp [ds]
  obtain ⟨-, -, -, hinput, hrun⟩ := cancelled_until_reset b ds hreset
  obtain ⟨-, m', r', hplay, -, -, hm', -, -, -, -, hip⟩ := hrun _ rfl rfl hfinish
  have hlength : (b₀.records ds).length = 1 := by decide +kernel
  obtain ⟨r, hr, hresult⟩ : ∃ r, b₀.play ds = running r ∧
      r.result? = some (some (.cancelled 1)) := ⟨_, rfl, by decide +kernel⟩
  obtain rfl : r' = r := Bench.running.inj (hplay.symm.trans hr)
  refine ⟨hreset, hfinish, hlength, r', hplay, hresult, ?_, hinput⟩
  rw [← Machine.ip_unwired, hm', Machine.ip_unwired]
  exact (hip 1 hresult).symm

end Bench

end Brainfuck
