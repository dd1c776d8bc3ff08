import Brainfuck.Proofs.Posting

/-!
# Brainfuck.Proofs.Printing

The command writes the output of a program once, in order, and ends the line.

Output reaches the sink by two ways, a byte at a time while the program runs and
all that is left at the end.  Nothing is lost between the two, because whatever is
written by a program is in the pipe before its result is in the channel, and what
was in the pipe before the result is still there, or in the sink.

* `Balanced.of_turn` — what has been written and what waits is what was emitted, as
  long as output is carried;
* `Concluding.of_turn` — what is left to do with a result, up to the exit;
* `Sealed.of_turn` — the output is closed by nobody but a worker that is done;
* `prints_output_once` — what the command has written when it exits, and that a
  closed output means that the result is there.
-/

namespace Brainfuck

theorem Sink.failed_write {s : Sink} (h : s.failed = true) (bytes : List UInt8) :
    (s.write bytes).2.failed = true := by
  obtain ⟨written, room, failed⟩ := s
  unfold write
  split
  · exact h
  · rcases room with _ | _ | n
    · exact h
    · rfl
    · exact h

namespace Job

variable {j j' : Job}

/-! ## a job with a listener -/

/-- Something happens to a job: an event, or, for `none`, the listener hears of the
next change of the tape if there is one. -/
def happen (j : Job) : Option Event → Job
  | some e => j.act e
  | none =>
    match j.hear? with
    | some (_, j') => j'
    | none => j

/-- What a list of such things does. -/
def follow (j : Job) (ts : List (Option Event)) : Job := ts.foldl happen j

theorem rewired_happen_none (j : Job) : j.Rewired (j.happen none) := by
  rw [happen]
  split
  · next h => exact rewired_of_hear? h
  · exact rewired_refl j

theorem turn_of_happen (j : Job) (t : Option Event) : j.Turn (j.happen t) := by
  cases t with
  | some e => exact j.turn_of_act e
  | none => exact .inr (.inr j.rewired_happen_none)

/-- What every turn keeps holds in the end. -/
theorem preserved_of_follow {P : Job → Prop} (hstep : ∀ {j j'}, P j → j.Turn j' → P j')
    (h : P j) (ts : List (Option Event)) : P (j.follow ts) :=
  preserved_of_foldl turn_of_happen hstep h ts

/-- A sink that has failed has failed for ever. -/
theorem Turn.failed (h : j.Turn j') (hj : j.stdout.failed = true) : j'.stdout.failed = true := by
  obtain ⟨bytes, hwrite⟩ := h.exists_write
  rw [hwrite]
  exact Sink.failed_write hj bytes

/-- What every turn keeps while the sink takes everything holds in the end, if the
sink has then not failed. -/
theorem preserved_of_not_failed {P : Job → Prop}
    (hstep : ∀ {j j'}, P j → j.Turn j' → j'.stdout.failed = false → P j') (h : P j)
    (ts : List (Option Event)) (hok : (j.follow ts).stdout.failed = false) : P (j.follow ts) := by
  have hor : (j.follow ts).stdout.failed = true ∨ P (j.follow ts) := by
    refine preserved_of_follow (P := fun j => j.stdout.failed = true ∨ P j) ?_ (.inr h) ts
    intro j j' hj hturn
    cases hfailed : j'.stdout.failed with
    | true => exact .inl rfl
    | false =>
      refine .inr (hstep (hj.resolve_left fun hj => ?_) hturn hfailed)
      cases hfailed.symm.trans (hturn.failed hj)
  exact hor.resolve_left fun hfailed => by cases hok.symm.trans hfailed

/-! ## while output is carried -/

/-- What has been written and what waits is what was emitted. -/
structure Balanced (j : Job) : Prop where
  debug : j.order.debug = false
  books : j.stage.isWaiting = true ∨ (∃ v, j.stage = .flushing v) →
    j.stdout.written.toList ++ j.wiring.output.pending = j.wiring.emitted

theorem Balanced.of_works (hj : j.Balanced) (h : j.Works j') : j'.Balanced := by
  cases h with
  | heads _ _ _ hdebug | headsInVain _ _ _ hdebug | shows _ _ _ _ hdebug
  | showsInVain _ _ _ _ hdebug => cases hj.debug.symm.trans hdebug
  | advances hduty _ _ =>
    refine ⟨hj.debug, fun hstage => ?_⟩
    have hbooks := hj.books hstage
    show j.stdout.written.toList ++ j.runner.advance.2.wiring.output.pending =
      j.runner.advance.2.wiring.output.items.toList
    obtain h | ⟨b, h⟩ := j.runner.output_of_advance
    · rw [h]
      exact hbooks
    · rw [h, Pipe.pending_put, ← List.append_assoc]
      exact (congrArg (· ++ [b]) hbooks).trans (Wiring.emitted_emit j.wiring b).symm
  | _ => exact { hj with }

theorem Balanced.of_serves (hj : j.Balanced) (h : j.Serves j') (hok : j'.stdout.failed = false) :
    j'.Balanced := by
  refine ⟨h.frame.1.symm ▸ hj.debug, fun hstage => ?_⟩
  cases h with
  | carries b rest sink hdraining hdrain _ hwrite =>
    obtain ⟨hpending, hemitted, -⟩ := Wiring.output_of_drain hdrain
    have hbooks := hj.books (.inl (by rw [hdraining]; rfl))
    rw [hpending] at hbooks
    show sink.written.toList ++ rest.output.pending = rest.emitted
    rw [Sink.written_write_of_ok hwrite, List.append_assoc, hemitted]
    exact hbooks
  | turns hwaiting | misses hwaiting | receives _ hwaiting | expires hwaiting
  | stops _ hwaiting => exact hj.books (.inl (by rw [hwaiting]; rfl))
  | discards _ _ _ _ hdebug | passes _ _ hdebug => cases hj.debug.symm.trans hdebug
  | carriesInVain _ _ _ _ _ _ hwrite => cases hok.symm.trans (Sink.written_write_of_fail hwrite).2.1
  | quits | flushes | flushesInVain | reports | finishes | finishesInVain =>
    obtain ⟨⟨⟩⟩ | ⟨_, ⟨⟩⟩ := hstage

/-- As long as the sink takes everything, output is in the sink or on its way. -/
theorem Balanced.of_turn (hj : j.Balanced) (h : j.Turn j') (hok : j'.stdout.failed = false) :
    j'.Balanced := by
  obtain h | h | ⟨w, rfl, houtput, -⟩ := h
  · exact hj.of_works h
  · exact hj.of_serves h hok
  · refine ⟨hj.debug, fun hstage => ?_⟩
    show _ ++ w.output.pending = w.output.items.toList
    rw [houtput]
    exact hj.books hstage

/-! ## with a result -/

/-- The exit code for a result. -/
def codeOf : Option Fault → Nat
  | none => 0
  | some _ => 1

/-- What is true of the bytes written, waiting and emitted when the clerk has this
result and has come to this stage. -/
def Concludes (result : Option Fault) (written waiting emitted : List UInt8) : Stage → Prop
  | .flushing v => v.result = some result ∧ written ++ waiting = emitted
  | .reporting v => v.result = some result ∧ written = emitted
  | .ending code => code = codeOf result ∧ written = emitted
  | .exited code => code = codeOf result ∧ written = emitted ++ [newline]
  | .draining | .polling | .stopping _ => False

/-- The clerk has this result, and what there is left to do is in order. -/
structure Concluding (result : Option Fault) (j : Job) : Prop where
  debug : j.order.debug = false
  sent : j.duty = .closing ∨ j.duty = .gone
  returned : j.runner.result? = some result
  stage : Concludes result j.stdout.written.toList j.wiring.output.pending j.wiring.emitted j.stage

variable {result : Option Fault}

theorem Concluding.of_works (hj : j.Concluding result) (h : j.Works j') :
    j'.Concluding result := by
  obtain rfl | rfl := h.eq_of_sent hj.sent
  · exact ⟨hj.debug, .inr rfl, hj.returned, hj.stage⟩
  · exact hj

theorem Concluding.of_serves (hj : j.Concluding result) (h : j.Serves j')
    (hok : j'.stdout.failed = false) : j'.Concluding result := by
  obtain ⟨horder, hduty, hphase⟩ := h.frame
  have hstage := hj.stage
  have hdebug : j'.order.debug = false := horder.symm ▸ hj.debug
  have hsent : j'.duty = .closing ∨ j'.duty = .gone := hduty.symm ▸ hj.sent
  have hreturned : j'.runner.result? = some result :=
    (Runner.result?_congr hphase).trans hj.returned
  refine ⟨hdebug, hsent, hreturned, ?_⟩
  cases h with
  | discards _ _ hs | carries _ _ _ hs | carriesInVain _ _ _ hs | turns hs | misses hs
  | receives _ hs | expires hs | stops _ hs | quits hs =>
    rw [hs] at hstage
    exact hstage.elim
  | passes _ _ htable => cases hj.debug.symm.trans htable
  | flushes v sink hflushing _ hwrite =>
    rw [hflushing] at hstage
    exact ⟨hstage.1, (Sink.written_write_of_ok hwrite).trans hstage.2⟩
  | reports v hreporting =>
    rw [hreporting] at hstage
    have hcode : (j.order.farewell v).2 = codeOf result := by
      rw [Order.code_farewell, hstage.1]
      cases result <;> rfl
    exact ⟨hcode, hstage.2⟩
  | finishes code sink hending hwrite =>
    rw [hending] at hstage
    refine ⟨hstage.1, (Sink.written_write_of_ok hwrite).trans ?_⟩
    rw [hstage.2]
    rfl
  | flushesInVain _ _ _ _ hwrite | finishesInVain _ _ _ hwrite =>
    cases hok.symm.trans (Sink.written_write_of_fail hwrite).2.1

theorem Concluding.of_turn (hj : j.Concluding result) (h : j.Turn j')
    (hok : j'.stdout.failed = false) : j'.Concluding result := by
  obtain h | h | ⟨w, rfl, houtput, -⟩ := h
  · exact hj.of_works h
  · exact hj.of_serves h hok
  · refine ⟨hj.debug, hj.sent, hj.returned, ?_⟩
    show Concludes result _ w.output.pending w.output.items.toList j.stage
    rw [houtput]
    exact hj.stage

theorem concluding_of_flushing {late : Bool} (hposted : j.Posted) (hbalanced : j.Balanced)
    (hstage : j.stage = .flushing ⟨some result, late⟩) : j.Concluding result := by
  obtain ⟨hsent, hreturned⟩ := hposted.sent_of_known (by rw [hstage]; rfl)
  refine ⟨hbalanced.debug, hsent, hreturned, ?_⟩
  rw [hstage]
  exact ⟨rfl, hbalanced.books (.inr ⟨_, hstage⟩)⟩

/-- The worker has sent the result, and the clerk does not look for it any more. -/
structure Leaving (j : Job) : Prop where
  sent : j.duty = .closing ∨ j.duty = .gone
  stage : j.stage.isWaiting = false

theorem Leaving.of_turn (hj : j.Leaving) (h : j.Turn j') : j'.Leaving := by
  refine ⟨h.sent hj.sent, ?_⟩
  have hstage := hj.stage
  obtain h | h | ⟨w, rfl, -, -⟩ := h
  · obtain rfl | rfl := h.eq_of_sent hj.sent
    · exact hstage
    · exact hstage
  · cases h with
    | discards _ _ hs | carries _ _ _ hs | carriesInVain _ _ _ hs | turns hs | misses hs
    | expires hs =>
      rw [hs] at hstage
      cases hstage
    | receives | stops | quits | passes | flushes | flushesInVain | reports | finishes
    | finishesInVain => rfl
  · exact hstage

/-- If the clerk does not wait, it has one of the last things to do, or none. -/
theorem Leaving.canServe_leave (hj : j.Leaving) : j.canServe .leave = true ∨ j.rank = 0 := by
  have hstage := hj.stage
  unfold canServe rank Stage.rest
  cases hs : j.stage <;> simp_all [Stage.isWaiting]

/-- Each of the last things that the clerk does brings it nearer to the end, and
nothing else that happens takes it back. -/
theorem Leaving.rank_happen (hj : j.Leaving) (t : Option Event) :
    (j.happen t).rank ≤ j.rank - if t = some .leave then 1 else 0 := by
  cases t with
  | none => exact Nat.le_of_eq j.rewired_happen_none.rank_eq
  | some e =>
    have hact : (j.act e).rank + (if j.canServe e then 1 else 0) ≤ j.rank := by
      refine rank_act (j.works_work.rank_eq hj.sent) (fun hpolling => ?_) e
      have hstage := hj.stage
      rw [hpolling] at hstage
      cases hstage
    show (j.act e).rank ≤ _
    split
    · next he =>
      obtain rfl := Option.some.inj he
      obtain hleave | hzero := hj.canServe_leave
      · rw [if_pos hleave] at hact
        omega
      · omega
    · omega

theorem Leaving.rank_follow (hj : j.Leaving) (ts : List (Option Event)) :
    (j.follow ts).rank ≤ j.rank - ts.count (some .leave) := by
  induction ts generalizing j with
  | nil => exact Nat.le_refl _
  | cons t ts ih =>
    have hnext := hj.rank_happen t
    have hrest : ((j.happen t).follow ts).rank ≤ _ := ih (hj.of_turn (j.turn_of_happen t))
    rw [List.count_cons]
    show ((j.happen t).follow ts).rank ≤ _
    simp only [beq_iff_eq]
    omega

/-! ## a closed output -/

/-- The output is closed by nobody but a worker that is done. -/
def Sealed (j : Job) : Prop := j.wiring.output.closed = true → j.duty = .gone

theorem closed_of_advance (r : Runner) :
    r.advance.2.wiring.output.closed = r.wiring.output.closed := by
  obtain h | ⟨b, h⟩ := r.output_of_advance
  · rw [h]
  · rw [h]
    rfl

theorem Works.closed (h : j.Works j') (hduty : j.duty ≠ .closing) :
    j'.wiring.output.closed = j.wiring.output.closed := by
  cases h with
  | advances | shows | showsInVain => exact closed_of_advance j.runner
  | closes hd => exact absurd hd hduty
  | begins | heads | headsInVain | returns | sends | rests => rfl

theorem Serves.closed (h : j.Serves j') :
    j'.wiring.output.closed = j.wiring.output.closed := by
  cases h with
  | discards _ _ _ hdrain | carries _ _ _ _ hdrain | carriesInVain _ _ _ _ hdrain =>
    exact (Wiring.output_of_drain hdrain).2.2.1
  | _ => rfl

theorem Works.eq_of_gone (h : j.Works j') (hduty : j.duty = .gone) : j' = j := by
  cases h with
  | rests _ => rfl
  | begins hd | heads _ _ hd | headsInVain _ _ hd | advances hd | shows _ _ _ hd
  | showsInVain _ _ _ hd | returns _ hd | sends hd | closes hd => cases hduty.symm.trans hd

theorem Sealed.of_turn (hj : j.Sealed) (h : j.Turn j') : j'.Sealed := by
  intro hclosed
  obtain h | h | ⟨w, rfl, houtput, -⟩ := h
  · by_cases hduty : j.duty = .closing
    · obtain rfl | rfl := h.eq_of_sent (.inl hduty)
      · rfl
      · exact hj hclosed
    · have hgone := hj (h.closed hduty ▸ hclosed)
      rw [h.eq_of_gone hgone, hgone]
  · rw [h.frame.2.1]
    exact hj (h.closed ▸ hclosed)
  · exact hj (houtput ▸ hclosed)

/-- The clerk is about to look for a result that is there, from a worker that is done. -/
structure Expecting (result : Option Fault) (j : Job) : Prop where
  duty : j.duty = .gone
  stage : j.stage = .polling
  channel : j.channel = some result

/-- It goes on to do so, whatever happens before it does. -/
theorem Expecting.happen (hj : j.Expecting result) {t : Option Event} (ht : t ≠ some .poll) :
    (j.happen t).Expecting result := by
  have hrewired : ∀ {j'}, j.Rewired j' → j'.Expecting result := by
    intro j' h
    obtain ⟨w, rfl, -, -⟩ := h
    exact ⟨hj.duty, hj.stage, hj.channel⟩
  cases t with
  | none => exact hrewired j.rewired_happen_none
  | some e =>
    by_cases he : e = .work
    · subst he
      show j.work.Expecting result
      rw [j.works_work.eq_of_gone hj.duty]
      exact hj
    · refine hrewired (rewired_of_not_canServe he ?_)
      have hpoll : e ≠ .poll := fun h => ht (congrArg some h)
      cases e <;> simp_all [canServe, hj.stage]

theorem Expecting.follow (hj : j.Expecting result) {ts : List (Option Event)}
    (hts : some .poll ∉ ts) : (j.follow ts).Expecting result := by
  induction ts generalizing j with
  | nil => exact hj
  | cons t ts ih =>
    obtain ⟨ht, hts⟩ := List.ne_and_not_mem_of_not_mem_cons hts
    exact ih (hj.happen (Ne.symm ht)) hts

theorem Expecting.stage_of_poll (hj : j.Expecting result) :
    (j.act .poll).stage = .flushing ⟨some result, false⟩ := by
  rw [act, if_pos hj.stage, poll, hj.channel]

/-- Whoever is told of the end of the output is followed by the result. -/
theorem expecting_of_ended (hposted : j.Posted) (hsealed : j.Sealed) (hstage : j.stage = .draining)
    (hended : j.wiring.drain = .ended) :
    ∃ result, j.channel = some result ∧ (j.act .drain).Expecting result := by
  have hgone : j.duty = .gone := hsealed (Wiring.drain_eq_ended_iff.mp hended).2
  obtain ⟨-, hne, -⟩ | ⟨-, result, hsent⟩ := hposted.unsent_or_sent
  · exact absurd hgone hne
  · have hchannel := hsent.waiting (by rw [hstage]; rfl)
    refine ⟨result, hchannel, ?_⟩
    rw [act, if_pos hstage, drain, hended]
    exact ⟨hgone, rfl, hchannel⟩

end Job

/-! ## the command -/

/-- Nobody has used the connections of a machine that is about to be run. -/
theorem Settings.wiring_of_machine? {s : Settings} {p : Program} {m : Machine}
    (h : s.machine? p = some m) : m.device.wiring = .fresh := by
  obtain ⟨d, hd, rfl⟩ := Option.map_eq_some_iff.mp h
  obtain ⟨t, -, rfl⟩ := Option.map_eq_some_iff.mp hd
  rfl

theorem Launch.wiring_of_ofWorld {w : World} {o : Order} {m : Machine} {watched : Bool}
    (h : ofWorld w = .job o m watched) : m.device.wiring = .fresh := by
  unfold ofWorld ofArguments ofSettings at h
  repeat' split at h
  all_goals cases h
  next hm => exact Settings.wiring_of_machine? hm

namespace Job

theorem rewired_launch (o : Order) (m : Machine) (watched : Bool) (stdout : Sink) :
    (start o m stdout).Rewired (launch o m watched stdout) := by
  unfold launch
  split
  · exact ⟨_, rfl, rfl, id⟩
  · exact rewired_refl _

/-- What is true of a job that is about to begin. -/
theorem launched {o : Order} {m : Machine} (watched : Bool) (room : Option Nat)
    (hwiring : m.device.wiring = .fresh) (hdebug : o.debug = false) :
    let j := launch o m watched ⟨#[], room, false⟩
    j.Posted ∧ j.Sealed ∧ j.Balanced := by
  have hrewired := rewired_launch o m watched ⟨#[], room, false⟩
  have houtput : (start o m ⟨#[], room, false⟩).wiring.output = .empty :=
    congrArg (·.output) hwiring
  have hsealed : (start o m ⟨#[], room, false⟩).Sealed := by
    intro hclosed
    rw [houtput] at hclosed
    cases hclosed
  have hbalanced : (start o m ⟨#[], room, false⟩).Balanced := by
    refine ⟨hdebug, fun _ => ?_⟩
    rw [Wiring.emitted, houtput]
    rfl
  have hok : (launch o m watched ⟨#[], room, false⟩).stdout.failed = false := by
    obtain ⟨w, h, -⟩ := hrewired
    rw [h]
    rfl
  have hturn : Turn _ _ := .inr (.inr hrewired)
  exact ⟨(posted_start o m _).of_turn hturn, hsealed.of_turn hturn, hbalanced.of_turn hturn hok⟩

/-- Whatever happens to a run of a program, without the table of steps: if the clerk
gets a result and every write succeeds, then it exits, and has written the bytes
that the program has emitted, in order, each once, and a line end, with the exit
code that tells whether the result is a fault.  And if the clerk sees that the
output is closed, the result is there, and it gets it as soon as it looks. -/
theorem prints_output_once (w : World) (o : Order) (m : Machine) (watched : Bool)
    (room : Option Nat) (hlaunch : Launch.ofWorld w = .job o m watched) (hdebug : o.debug = false)
    (ts : List (Option Event)) :
    let j := (launch o m watched ⟨#[], room, false⟩).follow ts
    (∀ result late, j.stage = .flushing ⟨some result, late⟩ → ∀ ts',
      let k := j.follow ts'
      k.stdout.failed = false →
        k.runner.result? = some result ∧
          (3 ≤ ts'.count (some .leave) → ∃ code, k.exit? = some code) ∧
          ∀ code, k.exit? = some code →
            k.stdout.written.toList = k.wiring.emitted ++ [newline] ∧
              code = if result = none then 0 else 1) ∧
    (j.stage = .draining → j.wiring.drain = .ended →
      ∃ result, j.channel = some result ∧ ∀ ts', some .poll ∉ ts' →
        (((j.act .drain).follow ts').act .poll).stage = .flushing ⟨some result, false⟩) := by
  intro j
  obtain ⟨hposted, hsealed, hbalanced⟩ :=
    launched watched room (Launch.wiring_of_ofWorld hlaunch) hdebug
  have hposted : j.Posted := preserved_of_follow Posted.of_turn hposted ts
  have hsealed : j.Sealed := preserved_of_follow Sealed.of_turn hsealed ts
  refine ⟨fun result late hstage ts' => ?_, fun hstage hended => ?_⟩
  · intro k hok
    -- A sink that works in the end has always worked, so the books were in order before.
    have hokj : j.stdout.failed = false := by
      cases hfailed : j.stdout.failed with
      | false => rfl
      | true =>
        have hfailed' : k.stdout.failed = true :=
          preserved_of_follow (fun hj h => h.failed hj) hfailed ts'
        cases hok.symm.trans hfailed'
    have hbalanced : j.Balanced := preserved_of_not_failed Balanced.of_turn hbalanced ts hokj
    have hj := concluding_of_flushing hposted hbalanced hstage
    have hk : k.Concluding result := preserved_of_not_failed Concluding.of_turn hj ts' hok
    refine ⟨hk.returned, fun hleave => ?_, fun code hcode => ?_⟩
    · have hrank : k.rank ≤ j.rank - ts'.count (some .leave) :=
        Leaving.rank_follow ⟨hj.sent, by rw [hstage]; rfl⟩ ts'
      have hthree : j.rank = 3 := by rw [rank, hstage]; rfl
      exact exists_exit?_of_rank (by omega)
    · have hend := hk.stage
      rw [stage_of_exit? hcode] at hend
      obtain ⟨rfl, hwritten⟩ := hend
      refine ⟨hwritten, ?_⟩
      cases result <;> rfl
  · obtain ⟨result, hchannel, hexpecting⟩ := expecting_of_ended hposted hsealed hstage hended
    exact ⟨result, hchannel, fun ts' hts' => (hexpecting.follow hts').stage_of_poll⟩

/-- `+.` on three cells.  The clerk has given up waiting for output, then the byte and
the result come, and the byte is still in the pipe when the clerk gets the result; or
the clerk carries the byte first, and is told that there will be no more. -/
theorem printed_after_the_result :
    let w : World :=
      ⟨"bf", ["run", "--tape-size", "3", "+."], fun _ => .error .notFound, "", none,
        ⟨fun _ => none⟩⟩
    let m : Machine := .load ⟨#['+', '.']⟩ (.blank 3 .strict)
    let j := launch ⟨"bf", "+.", false, 2000⟩ m false ⟨#[], some 2, false⟩
    let late := j.follow (some .giveUp :: List.replicate 12 (some .work) ++ [some .poll])
    let early := j.follow (List.replicate 13 (some .work) ++ [some .drain])
    let k := late.follow [some .work, some .leave, some .leave, some .leave]
    Launch.ofWorld w = .job ⟨"bf", "+.", false, 2000⟩ m false ∧
      late.wiring.output.pending = [1] ∧ k.exit? = some 0 ∧
      k.stdout.written.toList = k.wiring.emitted ++ [newline] ∧ k.stdout.written = #[1, 10] ∧
      early.wiring.drain = .ended ∧ early.channel = some none := by
  intro w m j late early k
  have hlaunch : Launch.ofWorld w = .job ⟨"bf", "+.", false, 2000⟩ m false := rfl
  obtain ⟨hlate, -⟩ := prints_output_once w _ m false (some 2) hlaunch rfl
    (some .giveUp :: List.replicate 12 (some .work) ++ [some .poll])
  obtain ⟨-, hearly⟩ := prints_output_once w _ m false (some 2) hlaunch rfl
    (List.replicate 13 (some .work) ++ [some .drain])
  have hstage : late.stage = .flushing ⟨some none, false⟩ := by decide +kernel
  obtain ⟨-, -, hexit⟩ := hlate none false hstage
    [some .work, some .leave, some .leave, some .leave] (by decide +kernel)
  have hcode : k.exit? = some 0 := by decide +kernel
  have hwritten : k.stdout.written.toList = k.wiring.emitted ++ [newline] := by
    dsimp only [k, late, j]
    exact (hexit 0 hcode).1
  have hended : early.wiring.drain = .ended :=
    Wiring.drain_eq_ended_iff.mpr ⟨by decide +kernel, by decide +kernel⟩
  have hdraining : early.stage = .draining := by decide +kernel
  obtain ⟨result, hchannel, -⟩ := hearly hdraining hended
  have hresult : early.channel = some none := by decide +kernel
  exact ⟨hlaunch, by decide +kernel, hcode, hwritten, by decide +kernel, hended, hresult⟩

end Job

end Brainfuck
