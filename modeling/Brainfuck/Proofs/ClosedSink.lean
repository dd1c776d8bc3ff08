import Brainfuck.Proofs.Posting

/-!
# Brainfuck.Proofs.ClosedSink

What a command still does when nobody reads its output any more.

A write that fails is noticed by whoever has written.  If that is the clerk, it
stops at once.  If it is the worker, at its table of steps, then the machine is
asked to stop, which the clerk cannot tell from any other request to stop.

* `Ended.of_turn` — a clerk that has noticed says nothing more and exits;
* `Traced.of_turn` — what is left of a run whose table could not be written: it ends
  by itself or as cancelled, and the clerk goes on;
* `aftermath_of_fails` — after a failed write it is one or the other;
* `said_of_play` — what is said from then on;
* `Traced.chores_play`, `Prompt.rank_play` — how soon the worker and the clerk are done;
* `after_a_failed_write` — all of this for every run;
* `talks_about_a_closed_sink` — a run that is not quiet.
-/

namespace Brainfuck

namespace Sink

variable {s t : Sink} {bytes : List UInt8}

theorem room_write (h : s.room = some 0) (bytes : List UInt8) : (s.write bytes).2.room = some 0 :=
  (fails_forever h bytes).2

theorem failed_of_ok (h : s.write bytes = (true, t)) : t.failed = s.failed := by
  obtain ⟨written, room, failed⟩ := s
  unfold write at h
  split at h
  · cases h
    rfl
  · rcases room with _ | _ | n <;> cases h <;> rfl

end Sink

/-- A way to return that says nothing about the program: it has ended, or has been cancelled. -/
def Mild : Option Fault → Prop
  | none | some (.cancelled _) => True
  | _ => False

theorem Phase.rest_le_of_credit {phase : Phase} (h : phase.credit = 0) : phase.rest ≤ 2 := by
  cases phase with
  | testLimit | execute => cases h
  | testEnd | testCancel | pause | returned => simp [rest]

namespace Runner

variable {r : Runner}

theorem Winds.mild {r' : Runner} {s : Option Step} (h : r.Winds s r')
    (hcredit : r.phase.credit = 0) (hmild : ∀ result, r.result? = some result → Mild result) :
    ∀ result, r'.result? = some result → Mild result := by
  cases h with
  | ended _ | noticed | woken =>
    intro result hresult
    cases hresult
    trivial
  | goesOn _ | finished => nofun
  | limited _ | failed _ | unlimited | stepped _ _ => cases hcredit
  | rests => exact hmild

/-- A run that is past its last look at the flag goes on, under the flag, to look
again, and returns without another instruction. -/
theorem winds_down (hcancelled : r.wiring.cancelled = true) (hcredit : r.phase.credit = 0)
    (hmild : ∀ result, r.result? = some result → Mild result) :
    (∀ s, r.advance.1 ≠ .moved (some (.stepTaken s))) ∧ r.advance.2.phase.credit = 0 ∧
      r.advance.2.phase.rest ≤ r.phase.rest - 1 ∧
      ∀ result, r.advance.2.result? = some result → Mild result := by
  have hwinds := winds_advance hcancelled
  obtain ⟨hused, hrest⟩ := hwinds.credit_rest
  rw [hcredit] at hused
  refine ⟨fun s hs => ?_, by omega, hrest, hwinds.mild hcredit hmild⟩
  rw [Bench.record?, hs] at hused
  simp at hused

/-- After a step the run looks at the flag before it goes on. -/
theorem phase_of_stepTaken {s : Step} (h : r.advance.1 = .moved (some (.stepTaken s))) :
    r.advance.2.phase = .testEnd ∨ r.advance.2.phase = .pause := by
  obtain ⟨m, phase⟩ := r
  cases phase with
  | execute =>
    obtain ⟨s', m', hstep, -, -⟩ | ⟨hquiet, -⟩ := advance_cases ⟨m, .execute⟩
    · rw [advance_execute_of_stepped hstep]
      dsimp only
      split
      · exact .inl rfl
      · exact .inr rfl
    · exact absurd h (hquiet s)
  | _ =>
    unfold advance at h
    grind

end Runner

namespace Job

variable {j j' : Job}

/-! ## a clerk that has noticed -/

/-- The clerk has noticed that the sink has failed, or has exited because of it. -/
def Ended (j : Job) : Prop := j.stage = .stopping .sinkFailed ∨ j.stage = .exited 1

theorem Works.stage_eq (h : j.Works j') : j'.stage = j.stage := by
  cases h <;> rfl

theorem Ended.of_turn (hj : j.Ended) (h : j.Turn j') : j'.Ended := by
  obtain h | h | ⟨w, rfl, -, -⟩ := h
  · rw [Ended, h.stage_eq]
    exact hj
  · cases h with
    | quits => exact .inr rfl
    | discards _ _ hs | carries _ _ _ hs | carriesInVain _ _ _ hs | turns hs | misses hs
    | receives _ hs | expires hs | stops _ hs | passes _ hs | flushes _ _ hs
    | flushesInVain _ _ hs | reports _ hs | finishes _ _ hs | finishesInVain _ _ hs =>
      obtain h | h := hj <;> cases hs.symm.trans h
  · exact hj

/-! ## a table that could not be written -/

/-- A run whose table could not be written. -/
structure Traced (j : Job) : Prop where
  debug : j.order.debug = true
  cancelled : j.wiring.cancelled = true
  begun : j.duty ≠ .heading
  credit : j.runner.phase.credit = 0
  mild : ∀ result, j.runner.result? = some result → Mild result
  code : ∀ code, j.stage = .exited code → code = 1

theorem Traced.of_works (hj : j.Traced) (h : j.Works j') : j'.Traced := by
  have hdown := Runner.winds_down hj.cancelled hj.credit hj.mild
  cases h with
  | begins hduty | heads _ _ hduty | headsInVain _ _ hduty => exact absurd hduty hj.begun
  | advances hduty _ _ =>
    obtain ⟨-, hcredit, -, hmild⟩ := hdown
    exact ⟨hj.debug, Runner.cancelled_of_advance hj.cancelled, hj.begun, hcredit, hmild, hj.code⟩
  | shows s _ _ _ _ hstep | showsInVain s _ _ _ _ hstep => exact absurd hstep (hdown.1 s)
  | returns | sends => exact { hj with begun := nofun }
  | closes => exact ⟨hj.debug, hj.cancelled, nofun, hj.credit, hj.mild, hj.code⟩
  | rests => exact hj

theorem Serves.cancelled (h : j.Serves j') (hj : j.wiring.cancelled = true) :
    j'.wiring.cancelled = true := by
  cases h with
  | discards _ _ _ hdrain | carries _ _ _ _ hdrain =>
    exact (Wiring.output_of_drain hdrain).2.2.2.trans hj
  | carriesInVain | expires => rfl
  | _ => exact hj

theorem Traced.of_serves (hj : j.Traced) (hroom : j.stdout.room = some 0) (h : j.Serves j') :
    j'.Traced := by
  obtain ⟨horder, hduty, hphase⟩ := h.frame
  have hresult : j'.runner.result? = j.runner.result? := Runner.result?_congr hphase
  refine ⟨horder.symm ▸ hj.debug, h.cancelled hj.cancelled, hduty.symm ▸ hj.begun,
    hphase.symm ▸ hj.credit, hresult.symm ▸ hj.mild, ?_⟩
  cases h with
  | discards => exact hj.code
  | carries _ _ _ _ _ hdebug | carriesInVain _ _ _ _ _ hdebug | flushes _ _ _ hdebug
  | flushesInVain _ _ _ hdebug => cases hj.debug.symm.trans hdebug
  | finishes _ _ _ hwrite =>
    cases (congrArg Prod.fst hwrite).symm.trans (Sink.fails_forever hroom [newline]).1
  | quits | finishesInVain => exact fun code hs => (Stage.exited.inj hs).symm
  | turns | misses | receives | expires | stops | passes | reports =>
    intro code hs
    cases hs

/-! ## after a failed write -/

/-- A write has failed, and either the clerk or the machine knows. -/
structure Aftermath (j : Job) : Prop where
  room : j.stdout.room = some 0
  noticed : j.Ended ∨ j.Traced

theorem room_of_turn (h : j.Turn j') (hroom : j.stdout.room = some 0) :
    j'.stdout.room = some 0 := by
  obtain ⟨bytes, hwrite⟩ := h.exists_write
  rw [hwrite]
  exact Sink.room_write hroom bytes

theorem Traced.of_turn (hj : j.Traced) (hroom : j.stdout.room = some 0) (h : j.Turn j') :
    j'.Traced := by
  obtain h | h | ⟨w, rfl, -, hcancelled⟩ := h
  · exact hj.of_works h
  · exact hj.of_serves hroom h
  · exact { hj with cancelled := hcancelled hj.cancelled }

theorem Aftermath.of_turn (hj : j.Aftermath) (h : j.Turn j') : j'.Aftermath where
  room := room_of_turn h hj.room
  noticed := hj.noticed.imp (·.of_turn h) (·.of_turn hj.room h)

/-- The worker has failed to write lines of its table, and the run looks at its flag
before it does anything else. -/
theorem aftermath_of_lost {bytes : List UInt8} {sink : Sink} (hdebug : j.order.debug = true)
    (hduty : j.duty = .running) (hphase : j.runner.phase = .testEnd ∨ j.runner.phase = .pause)
    (hunsent : j.Unsent) (hwrite : j.stdout.write bytes = (false, sink)) :
    ({ j with stdout := sink }.mapWiring .cancel).Aftermath := by
  have hcredit : j.runner.phase.credit = 0 := by
    obtain h | h := hphase <;> rw [h] <;> rfl
  have hresult : j.runner.result? = none := by
    obtain h | h := hphase <;> rw [Runner.result?, h]
  refine ⟨(Sink.written_write_of_fail hwrite).2.2, .inr ⟨hdebug, rfl, ?_, hcredit, ?_, ?_⟩⟩
  · intro hheading
    cases hduty.symm.trans hheading
  · intro result (hreturned : j.runner.result? = some result)
    cases hresult.symm.trans hreturned
  · intro code (hstage : j.stage = .exited code)
    exact hunsent.code code (by rw [hstage]; rfl)

theorem Works.aftermath (hposted : j.Posted) (h : j.Works j') (hok : j.stdout.failed = false)
    (hfail : j'.stdout.failed = true) : j'.Aftermath := by
  cases h with
  | headsInVain bytes sink hduty hdebug hwrite =>
    rw [Posted, hduty] at hposted
    exact aftermath_of_lost (j := { j with duty := .running }) hdebug rfl (.inl hposted.1)
      (hposted.2.congr rfl rfl) hwrite
  | showsInVain s bytes sink hduty hdebug hstep hwrite =>
    rw [Posted, hduty] at hposted
    exact aftermath_of_lost
      (j := { j with runner := j.runner.advance.2, rows := j.rows + 1 }) hdebug hduty
      (Runner.phase_of_stepTaken hstep) (hposted.congr rfl rfl) hwrite
  | heads _ _ _ _ hwrite | shows _ _ _ _ _ _ hwrite =>
    cases hfail.symm.trans ((Sink.failed_of_ok hwrite).trans hok)
  | begins | advances | returns | sends | closes | rests => cases hok.symm.trans hfail

/-- The clerk stops as soon as it has failed to write. -/
theorem Serves.aftermath (h : j.Serves j') (hok : j.stdout.failed = false)
    (hfail : j'.stdout.failed = true) : j'.Aftermath := by
  cases h with
  | carriesInVain _ _ _ _ _ _ hwrite =>
    exact ⟨(Sink.written_write_of_fail hwrite).2.2, .inl (.inl rfl)⟩
  | flushesInVain _ _ _ _ hwrite | finishesInVain _ _ _ hwrite =>
    exact ⟨(Sink.written_write_of_fail hwrite).2.2, .inl (.inr rfl)⟩
  | carries _ _ _ _ _ _ hwrite | flushes _ _ _ _ hwrite | finishes _ _ _ hwrite =>
    cases hfail.symm.trans ((Sink.failed_of_ok hwrite).trans hok)
  | discards | turns | misses | receives | expires | stops | quits | passes | reports =>
    cases hok.symm.trans hfail

/-- Whoever fails to write notices. -/
theorem aftermath_of_fails (hposted : j.Posted) (h : j.Turn j') (hok : j.stdout.failed = false)
    (hfail : j'.stdout.failed = true) : j'.Aftermath := by
  obtain h | h | ⟨w, rfl, -, -⟩ := h
  · exact h.aftermath hposted hok hfail
  · exact h.aftermath hok hfail
  · cases hok.symm.trans hfail

/-- What every turn keeps holds in the end. -/
theorem preserved_of_play {P : Job → Prop} (hstep : ∀ {j j'}, P j → j.Turn j' → P j') (h : P j)
    (es : List Event) : P (j.play es) :=
  preserved_of_foldl turn_of_act hstep h es

/-- At every moment of a run the result is where it belongs, and if a write has failed
somebody knows. -/
theorem aftermath_of_failed (o : Order) (m : Machine) (room : Nat) (es : List Event)
    (hfailed : ((start o m (.limited room)).play es).stdout.failed = true) :
    ((start o m (.limited room)).play es).Posted ∧
      ((start o m (.limited room)).play es).Aftermath := by
  have hall : ((start o m (.limited room)).play es).Posted ∧
      (((start o m (.limited room)).play es).stdout.failed = true →
        ((start o m (.limited room)).play es).Aftermath) := by
    refine preserved_of_play
      (P := fun j => j.Posted ∧ (j.stdout.failed = true → j.Aftermath)) ?_
      ⟨posted_start o m (.limited room), fun h => absurd h Bool.false_ne_true⟩ es
    intro j j' hj hturn
    refine ⟨hj.1.of_turn hturn, fun hfail => ?_⟩
    cases hok : j.stdout.failed with
    | true => exact (hj.2 hok).of_turn hturn
    | false => exact aftermath_of_fails hj.1 hturn hok hfail
  exact ⟨hall.1, hall.2 hfailed⟩

/-! ## what is said -/

/-- What the clerk can say about a run whose table could not be written. -/
def remarks (o : Order) : List String :=
  ["", "Execution aborted: cancelled\n", Order.farewell.late o]

theorem Turn.order_eq (h : j.Turn j') : j'.order = j.order := by
  obtain h | h | ⟨w, rfl, -, -⟩ := h
  · cases h <;> rfl
  · exact h.frame.1
  · rfl

theorem Works.stderr_eq (h : j.Works j') : j'.stderr = j.stderr := by
  cases h <;> rfl

/-- Only the clerk speaks, and only once, on its way to the end. -/
theorem Turn.stderr_cases (h : j.Turn j') :
    (j'.stderr = j.stderr ∧ (j.stage.code?.isSome = true → j'.stage.code?.isSome = true)) ∨
      ∃ v, j.stage = .reporting v ∧ j'.stderr = j.stderr ++ (j.order.farewell v).1 ∧
        j'.stage.code?.isSome = true := by
  have hbusy : ∀ {stage}, j.stage = stage → stage.code? = none → j'.stderr = j.stderr →
      j'.stderr = j.stderr ∧ (j.stage.code?.isSome = true → j'.stage.code?.isSome = true) := by
    intro stage hstage hcode hstderr
    refine ⟨hstderr, fun hsome => ?_⟩
    rw [hstage, hcode] at hsome
    cases hsome
  obtain h | h | ⟨w, rfl, -, -⟩ := h
  · exact .inl ⟨h.stderr_eq, fun hsome => h.stage_eq.symm ▸ hsome⟩
  · cases h with
    | reports v hstage => exact .inr ⟨v, hstage, rfl, rfl⟩
    | finishes | finishesInVain => exact .inl ⟨rfl, fun _ => rfl⟩
    | discards _ _ hs | carries _ _ _ hs | carriesInVain _ _ _ hs | turns hs | misses hs
    | receives _ hs | expires hs | stops _ hs | quits hs | passes _ hs | flushes _ _ hs
    | flushesInVain _ _ hs => exact .inl (hbusy hs rfl rfl)
  · exact .inl ⟨rfl, id⟩

theorem farewell_mem_remarks (o : Order) {v : Verdict}
    (h : ∀ result, v.result = some result → Mild result) : (o.farewell v).1 ∈ remarks o := by
  obtain ⟨result, timedOut⟩ := v
  match result with
  | none => cases timedOut <;> simp [Order.farewell, remarks]
  | some none => simp [Order.farewell, remarks]
  | some (some (.cancelled ip)) => cases timedOut <;> simp [Order.farewell, remarks]
  | some (some (.pointerOutOfBounds ip pointer c)) => exact (h _ rfl).elim
  | some (some (.unmatchedBracket ip bracket)) => exact (h _ rfl).elim
  | some (some (.stepLimit limit)) => exact (h _ rfl).elim

/-- After a failed write one thing is said at most, and it is not about the program. -/
theorem said_of_play (hposted : j.Posted) (hj : j.Aftermath) (es : List Event) :
    ∃ said ∈ remarks j.order, (j.play es).stderr = j.stderr ++ said ∧
      (j.stage.code?.isSome = true ∨ j.order.debug = false → said = "") := by
  induction es generalizing j with
  | nil => exact ⟨"", by simp [remarks], (String.append_empty).symm, fun _ => rfl⟩
  | cons e es ih =>
    have hturn := j.turn_of_act e
    obtain ⟨said, hsaid, hstderr, hquiet⟩ := ih (hposted.of_turn hturn) (hj.of_turn hturn)
    rw [hturn.order_eq] at hsaid hquiet
    show ∃ said ∈ remarks j.order, ((j.act e).play es).stderr = j.stderr ++ said ∧ _
    rw [hstderr]
    obtain ⟨hsame, hkept⟩ | ⟨v, hstage, hspoken, hsome⟩ := hturn.stderr_cases
    · rw [hsame]
      exact ⟨said, hsaid, rfl, fun h => hquiet (h.imp_left hkept)⟩
    · -- Having spoken, the clerk is on its way to the end and says nothing later.
      rw [hspoken, hquiet (.inl hsome), String.append_empty]
      have htraced : j.Traced := hj.noticed.resolve_left fun hended => by
        obtain h | h := hended <;> cases hstage.symm.trans h
      refine ⟨_, farewell_mem_remarks j.order fun result hresult => ?_, rfl, fun h => ?_⟩
      · exact htraced.mild result (hposted.sent_of_known (by rw [hstage]; exact hresult)).2
      · rw [hstage, htraced.debug] at h
        obtain ⟨⟨⟩⟩ | ⟨⟨⟩⟩ := h

/-! ## how soon it is over -/

/-- The number of turns that the worker needs to send the result of a run that is
winding down. -/
def chores (j : Job) : Nat :=
  match j.duty with
  | .heading | .running => j.runner.phase.rest + 2
  | .sending => 1
  | .closing | .gone => 0

theorem sent_of_chores (h : j.chores = 0) : j.duty = .closing ∨ j.duty = .gone := by
  unfold chores at h
  split at h
  case h_4 hduty => exact .inl hduty
  case h_5 hduty => exact .inr hduty
  all_goals omega

theorem Traced.chores_le (hj : j.Traced) : j.chores ≤ 4 := by
  have hrest := Phase.rest_le_of_credit hj.credit
  unfold chores
  split <;> omega

/-- Each turn of the worker brings the result nearer. -/
theorem Traced.chores_lt (hj : j.Traced) (h : j.Works j') : j'.chores ≤ j.chores - 1 := by
  have hdown := Runner.winds_down hj.cancelled hj.credit hj.mild
  cases h with
  | begins hduty | heads _ _ hduty | headsInVain _ _ hduty => exact absurd hduty hj.begun
  | advances hduty hresult _ =>
    have hpos : j.runner.phase.rest ≠ 0 := fun hzero => by
      obtain ⟨result, hsome⟩ := Runner.exists_result?_of_rest hzero
      cases hresult.symm.trans hsome
    have hrest := hdown.2.2.1
    simp only [chores, hduty]
    omega
  | shows s _ _ _ _ hstep | showsInVain s _ _ _ _ hstep => exact absurd hstep (hdown.1 s)
  | returns _ hduty _ =>
    simp only [chores, hduty]
    omega
  | sends hduty | closes hduty | rests hduty => simp [chores, hduty, mapWiring]

theorem Traced.chores_act (hj : j.Traced) (e : Event) :
    (j.act e).chores ≤ j.chores - if e = .work then 1 else 0 := by
  split
  · next he =>
    subst he
    exact hj.chores_lt j.works_work
  · next he =>
    have hframe : (j.act e).duty = j.duty ∧ (j.act e).runner.phase = j.runner.phase := by
      cases hserve : j.canServe e with
      | true => exact (serves_of_canServe hserve).frame.2
      | false =>
        obtain ⟨w, hact, -⟩ := rewired_of_not_canServe he hserve
        rw [hact]
        exact ⟨rfl, rfl⟩
    rw [chores, chores, hframe.1, hframe.2]
    exact Nat.le_refl _

theorem Traced.chores_play (hj : j.Traced) (hroom : j.stdout.room = some 0) (es : List Event) :
    (j.play es).chores ≤ j.chores - es.count .work := by
  induction es generalizing j with
  | nil => exact Nat.le_refl _
  | cons e es ih =>
    have hturn := j.turn_of_act e
    have hnext := hj.chores_act e
    have hrest : ((j.act e).play es).chores ≤ _ :=
      ih (hj.of_turn hroom hturn) (room_of_turn hturn hroom)
    rw [List.count_cons]
    show ((j.act e).play es).chores ≤ _
    simp only [beq_iff_eq]
    omega

/-- How many of these events are something that the clerk can do when they happen. -/
def served (j : Job) : List Event → Nat
  | [] => 0
  | e :: es => (if j.canServe e then 1 else 0) + (j.act e).served es

/-- The clerk does not have to wait for the worker any more. -/
structure Prompt (j : Job) : Prop where
  posted : j.Posted
  ready : j.Ended ∨ j.duty = .closing ∨ j.duty = .gone

theorem Prompt.of_turn (hj : j.Prompt) (h : j.Turn j') : j'.Prompt :=
  ⟨hj.posted.of_turn h, hj.ready.imp (·.of_turn h) h.sent⟩

theorem Prompt.channel_of_polling (hj : j.Prompt) (hstage : j.stage = .polling) :
    j.channel ≠ none := by
  obtain ⟨hclosing, hgone, -⟩ | ⟨-, result, hsent⟩ := hj.posted.unsent_or_sent
  · obtain (h | h) | h | h := hj.ready
    · cases hstage.symm.trans h
    · cases hstage.symm.trans h
    · exact absurd h hclosing
    · exact absurd h hgone
  · rw [hsent.waiting (by rw [hstage]; rfl)]
    nofun

theorem Prompt.rank_work (hj : j.Prompt) : j.work.rank = j.rank := by
  obtain hended | hduty := hj.ready
  · have hstage := j.works_work.stage_eq
    rw [rank, rank, hstage]
    obtain h | h := hended <;> rw [h] <;> rfl
  · exact j.works_work.rank_eq hduty

theorem Prompt.rank_play (hj : j.Prompt) (es : List Event) :
    (j.play es).rank + j.served es ≤ j.rank := by
  induction es generalizing j with
  | nil => exact Nat.le_refl _
  | cons e es ih =>
    have hnext := rank_act hj.rank_work hj.channel_of_polling e
    have hrest : ((j.act e).play es).rank + (j.act e).served es ≤ _ :=
      ih (hj.of_turn (j.turn_of_act e))
    rw [served]
    show ((j.act e).play es).rank + _ ≤ _
    omega

/-- A clerk that can do nothing has exited. -/
theorem exists_exit?_of_idle (h : ∀ e, j.canServe e = false) : ∃ code, j.exit? = some code := by
  cases hstage : j.stage with
  | exited code => exact ⟨code, by rw [exit?, hstage]⟩
  | draining =>
    have hdrain := of_decide_eq_false (h .drain)
    have hgiveUp := of_decide_eq_false (h .giveUp)
    exact absurd ⟨hstage, fun houtput => hdrain ⟨hstage, .inl houtput⟩⟩ hgiveUp
  | polling => exact absurd hstage (of_decide_eq_false (h .poll))
  | stopping cause =>
    have habandon := h .abandon
    simp [canServe, hstage] at habandon
  | flushing v | reporting v | ending code =>
    have hleave := h .leave
    simp [canServe, hstage] at hleave

/-! ## the command -/

theorem code_of_aftermath (hj : j.Aftermath) {code : Nat} (h : j.exit? = some code) : code = 1 := by
  have hstage := stage_of_exit? h
  obtain (h | h) | htraced := hj.noticed
  · cases hstage.symm.trans h
  · exact (Stage.exited.inj (hstage.symm.trans h))
  · exact htraced.code code hstage

/-- As soon as the worker has had four turns, the clerk does not have to wait for it. -/
theorem prompt_of_play (hposted : j.Posted) (hj : j.Aftermath) {es : List Event}
    (hes : 4 ≤ es.count .work) : (j.play es).Prompt := by
  refine ⟨preserved_of_play Posted.of_turn hposted es, ?_⟩
  obtain hended | htraced := hj.noticed
  · exact .inl (preserved_of_play Ended.of_turn hended es)
  · refine .inr (sent_of_chores ?_)
    have hle := htraced.chores_le
    have hplay := htraced.chores_play hj.room es
    omega

/-- Once a write has failed, whatever happens next: the exit code can only be 1; without
the table of steps nothing more is said; with it one thing can be said, and only that
the run was cancelled, or that the time is up; and once the worker has had four turns
the clerk can have only so many more, and has exited when it can have none. -/
theorem after_a_failed_write (o : Order) (m : Machine) (room : Nat) (es : List Event) :
    let j := (launch o m false (.limited room)).play es
    j.stdout.failed = true →
      (∀ es' code, (j.play es').exit? = some code → code = 1) ∧
      (o.debug = false → ∀ es', (j.play es').stderr = j.stderr) ∧
      (∀ es', ∃ said ∈ ["", "Execution aborted: cancelled\n", Order.farewell.late o],
        (j.play es').stderr = j.stderr ++ said) ∧
      ∀ es₁ es₂, 4 ≤ es₁.count .work →
        let k := j.play es₁
        k.served es₂ ≤ k.wiring.output.pending.length + 5 ∧
          ((∀ e, (k.play es₂).canServe e = false) → (k.play es₂).exit? = some 1) := by
  intro j hfailed
  obtain ⟨hposted, haftermath⟩ : j.Posted ∧ j.Aftermath := aftermath_of_failed o m room es hfailed
  have horder : j.order = o :=
    preserved_of_play (P := fun j => j.order = o) (fun hj h => h.order_eq.trans hj) rfl es
  have hafter : ∀ es', (j.play es').Aftermath := preserved_of_play Aftermath.of_turn haftermath
  refine ⟨fun es' code hcode => code_of_aftermath (hafter es') hcode, fun hdebug es' => ?_,
    fun es' => ?_, fun es₁ es₂ hwork => ?_⟩
  · obtain ⟨said, -, hstderr, hquiet⟩ := said_of_play hposted haftermath es'
    rw [hstderr, hquiet (.inr (horder ▸ hdebug)), String.append_empty]
  · obtain ⟨said, hsaid, hstderr, -⟩ := said_of_play hposted haftermath es'
    exact ⟨said, horder ▸ hsaid, hstderr⟩
  · intro k
    refine ⟨?_, fun hidle => ?_⟩
    · have hrank := (prompt_of_play hposted haftermath hwork).rank_play es₂
      exact Nat.le_trans (Nat.le_of_add_left_le hrank) k.rank_le
    · obtain ⟨code, hcode⟩ := exists_exit?_of_idle hidle
      have hend : (k.play es₂).Aftermath := preserved_of_play Aftermath.of_turn (hafter es₁) es₂
      rw [hcode, code_of_aftermath hend hcode]

/-- `+.` without the table: the first byte cannot be written, and the clerk exits
without a word. -/
theorem exits_at_the_first_byte :
    let m : Machine := .load ⟨#['+', '.']⟩ (.blank 3 .strict)
    let j := (launch ⟨"bf", "+.", false, 2000⟩ m false (.limited 0)).play
      (List.replicate 9 .work ++ [.drain])
    let k := (j.play (List.replicate 4 .work)).play [.abandon]
    j.stdout.failed = true ∧ (∀ e, k.canServe e = false) ∧ k.exit? = some 1 ∧
      (j.play (List.replicate 4 .work ++ [.abandon])).stderr = j.stderr := by
  intro m j k
  have hfailed : j.stdout.failed = true := by decide +kernel
  have hidle : ∀ e, k.canServe e = false := by
    have hstage : k.stage = .exited 1 := by decide +kernel
    intro e
    cases e <;> simp [canServe, hstage]
  refine ⟨hfailed, hidle, ?_⟩
  -- From here on the run is not computed any more, so that it may stay as it is written.
  dsimp only [k, j] at hfailed hidle ⊢
  obtain ⟨-, hquiet, -, hsoon⟩ := after_a_failed_write ⟨"bf", "+.", false, 2000⟩ m 0 _ hfailed
  exact ⟨(hsoon _ [.abandon] (by decide)).2 hidle, hquiet rfl _⟩

/-- A closed sink does not end every run quietly: with the table of steps the clerk takes
the machine that was asked to stop for one that the user has cancelled. -/
theorem talks_about_a_closed_sink :
    let w : World :=
      ⟨"bf", ["run", "-d", "+."], fun _ => .error .notFound, "", none, ⟨fun _ => none⟩⟩
    let m : Machine := .load ⟨#['+', '.']⟩ (.blank 30000 .strict)
    let j := (launch ⟨"bf", "+.", true, 2000⟩ m false (.limited 0)).play [.work]
    let k := j.play (List.replicate 5 .work ++ [.giveUp, .poll, .leave, .leave, .leave])
    Launch.ofWorld w = .job ⟨"bf", "+.", true, 2000⟩ m false ∧ j.stdout.failed = true ∧
      j.stderr = "" ∧ k.exit? = some 1 ∧ k.stderr = "Execution aborted: cancelled\n" := by
  intro w m j k
  exact ⟨rfl, by decide +kernel, by decide +kernel, by decide +kernel, by decide +kernel⟩

end Job

end Brainfuck
