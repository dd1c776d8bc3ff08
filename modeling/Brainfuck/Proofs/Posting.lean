import Brainfuck.Proofs.Turns

/-!
# Brainfuck.Proofs.Posting

Where the result of a run is, from its return to the farewell of the clerk.

The worker holds the result back until the run has returned, and sends it once.  From
then on it waits in the channel until the clerk takes it, or goes on without it; and
before that the clerk can know nothing, except that the time is up.

* `Unsent`, `Unsent.of_serves` — nothing has been sent;
* `Sent`, `Sent.of_serves` — the result has been sent;
* `Posted` — the two, by what the worker does next;
* `posted_start`, `Posted.of_turn` — this holds at first, and every turn keeps it;
* `Posted.unsent_or_sent`, `Posted.sent_of_known` — what follows for the clerk.
-/

namespace Brainfuck

/-! ## what a stage tells -/

/-- Whether the clerk still looks or waits for the result. -/
def Stage.isWaiting : Stage → Bool
  | .draining | .polling | .stopping _ => true
  | .flushing _ | .reporting _ | .ending _ | .exited _ => false

/-- The result that the clerk has and has not spoken about yet. -/
def Stage.known : Stage → Option (Option Fault)
  | .flushing v | .reporting v => v.result
  | .draining | .polling | .stopping _ | .ending _ | .exited _ => none

/-- The exit code on which the clerk has decided. -/
def Stage.code? : Stage → Option Nat
  | .ending code | .exited code => some code
  | .draining | .polling | .stopping _ | .flushing _ | .reporting _ => none

theorem Stage.known_of_isWaiting {stage : Stage} (h : stage.isWaiting = true) :
    stage.known = none := by
  cases stage <;> first | rfl | cases h

/-- The exit code tells whether the run is known to have returned without a fault. -/
theorem Order.code_farewell (o : Order) (v : Verdict) :
    (o.farewell v).2 = if v.result = some none then 0 else 1 := by
  obtain ⟨result, timedOut⟩ := v
  match result with
  | none => rfl
  | some none => rfl
  | some (some fault) => cases fault <;> rfl

namespace Job

variable {j j' : Job}

/-! ## where the result is -/

/-- Nothing has been sent, so that the clerk has no result. -/
structure Unsent (j : Job) : Prop where
  channel : j.channel = none
  known : j.stage.known = none
  code : ∀ code, j.stage.code? = some code → code = 1

/-- The result has been sent: it waits for the clerk as long as the clerk waits for
it, and is the only one that the clerk can have. -/
structure Sent (result : Option Fault) (j : Job) : Prop where
  returned : j.runner.result? = some result
  waiting : j.stage.isWaiting = true → j.channel = some result
  known : ∀ known, j.stage.known = some known → known = result

/-- Where the result is, by what the worker does next. -/
def Posted (j : Job) : Prop :=
  match j.duty with
  | .heading => j.runner.phase = .testEnd ∧ j.Unsent
  | .running => j.Unsent
  | .sending => (∃ result, j.runner.result? = some result) ∧ j.Unsent
  | .closing | .gone => ∃ result, j.Sent result

theorem Unsent.congr (h : j.Unsent) (hchannel : j'.channel = j.channel)
    (hstage : j'.stage = j.stage) : j'.Unsent where
  channel := hchannel.trans h.channel
  known := hstage ▸ h.known
  code := hstage ▸ h.code

theorem posted_of_running (hduty : j.duty = .running) (h : j.Unsent) : j.Posted := by
  rw [Posted, hduty]
  exact h

theorem Posted.of_works (hj : j.Posted) (h : j.Works j') : j'.Posted := by
  unfold Posted at hj
  cases h with
  | begins hduty | heads _ _ hduty | headsInVain _ _ hduty =>
    rw [hduty] at hj
    exact posted_of_running rfl (hj.2.congr rfl rfl)
  | advances hduty | shows _ _ _ hduty | showsInVain _ _ _ hduty =>
    rw [hduty] at hj
    exact posted_of_running hduty (hj.congr rfl rfl)
  | returns fault hduty hresult =>
    rw [hduty] at hj
    exact ⟨⟨fault, hresult⟩, hj.congr rfl rfl⟩
  | sends hduty =>
    rw [hduty] at hj
    obtain ⟨⟨result, hresult⟩, hunsent⟩ := hj
    -- The clerk has no result yet, so none that could be another one.
    refine ⟨result, hresult, fun _ => hresult, fun known hknown => ?_⟩
    cases hunsent.known.symm.trans hknown
  | closes hduty =>
    rw [hduty] at hj
    obtain ⟨result, hsent⟩ := hj
    exact ⟨result, { hsent with }⟩
  | rests _ => exact hj

/-- A clerk that has no result yet, and no exit code. -/
theorem unsent_of_none (hchannel : j.channel = none) (hknown : j.stage.known = none)
    (hcode : j.stage.code? = none) : j.Unsent := by
  refine ⟨hchannel, hknown, fun code h => ?_⟩
  cases hcode.symm.trans h

theorem Unsent.of_serves (hj : j.Unsent) (h : j.Serves j') : j'.Unsent := by
  have hone : ∀ code, some 1 = some code → code = 1 := fun code h => (Option.some.inj h).symm
  have hnone : ∀ {stage}, j.stage = stage → stage.known = none := fun hs => hs ▸ hj.known
  cases h with
  | discards | carries => exact hj.congr rfl rfl
  | carriesInVain | turns | misses | expires => exact unsent_of_none hj.channel rfl rfl
  | receives result _ hchannel => cases hj.channel.symm.trans hchannel
  | stops result _ hresult =>
    have hresult : result = none := hresult.elim id fun h => h.trans hj.channel
    exact unsent_of_none rfl hresult rfl
  | quits => exact ⟨rfl, rfl, hone⟩
  | passes v hstage | flushes v _ hstage =>
    have hknown : v.result = none := hnone hstage
    exact unsent_of_none hj.channel hknown rfl
  | flushesInVain | finishesInVain => exact ⟨hj.channel, rfl, hone⟩
  | reports v hstage =>
    have hknown : v.result = none := hnone hstage
    have hcode : (j.order.farewell v).2 = 1 := by rw [Order.code_farewell, hknown]; rfl
    exact ⟨hj.channel, rfl, fun code h => (Option.some.inj h).symm.trans hcode⟩
  | finishes code _ hstage =>
    exact ⟨hj.channel, rfl, fun code h => hj.code code (by rw [hstage]; exact h)⟩

/-- The result has been sent to a clerk that waits for it. -/
theorem sent_of_waiting {result : Option Fault} (hreturned : j.runner.result? = some result)
    (hstage : j.stage.isWaiting = true) (hchannel : j.channel = some result) : j.Sent result := by
  refine ⟨hreturned, fun _ => hchannel, fun known h => ?_⟩
  cases (Stage.known_of_isWaiting hstage).symm.trans h

/-- The result has been sent to a clerk that does not wait for it any more. -/
theorem sent_of_known {result : Option Fault} (hreturned : j.runner.result? = some result)
    (hstage : j.stage.isWaiting = false)
    (hknown : j.stage.known = none ∨ j.stage.known = some result) : j.Sent result := by
  refine ⟨hreturned, fun h => ?_, fun known h => ?_⟩
  · cases hstage.symm.trans h
  · rw [h] at hknown
    exact Option.some.inj (hknown.resolve_left (Option.some_ne_none known))

theorem Sent.of_serves {result : Option Fault} (hj : j.Sent result) (h : j.Serves j') :
    j'.Sent result := by
  have hreturned : j'.runner.result? = some result :=
    (Runner.result?_congr h.frame.2.2).trans hj.returned
  have hwaits : ∀ {stage}, j.stage = stage → stage.isWaiting = true → j.channel = some result :=
    fun hstage hw => hj.waiting (hstage ▸ hw)
  have hknows : ∀ {stage}, j.stage = stage → stage.known = none ∨ stage.known = some result := by
    intro stage hs
    cases hv : stage.known with
    | none => exact .inl rfl
    | some known => exact .inr (congrArg some (hj.known known (hs ▸ hv)))
  cases h with
  | discards | carries => exact ⟨hreturned, hj.waiting, hj.known⟩
  | carriesInVain _ _ _ hstage | turns hstage | misses hstage | expires hstage =>
    exact sent_of_waiting hreturned rfl (hwaits hstage rfl)
  | receives known hstage hchannel =>
    have hknown : some known = some result := hchannel.symm.trans (hwaits hstage rfl)
    exact sent_of_known hreturned rfl (.inr hknown)
  | stops known hstage hknown =>
    rw [hwaits hstage rfl] at hknown
    exact sent_of_known hreturned rfl hknown
  | passes v hstage | flushes v _ hstage =>
    have hknown : v.result = none ∨ v.result = some result := hknows hstage
    exact sent_of_known hreturned rfl hknown
  | quits | flushesInVain | reports | finishes | finishesInVain =>
    exact sent_of_known hreturned rfl (.inl rfl)

theorem posted_start (o : Order) (m : Machine) (stdout : Sink) : (start o m stdout).Posted :=
  ⟨rfl, unsent_of_none rfl rfl rfl⟩

theorem Posted.of_frame (hj : j.Posted) (hduty : j'.duty = j.duty)
    (hphase : j'.runner.phase = j.runner.phase) (hunsent : j.Unsent → j'.Unsent)
    (hsent : ∀ result, j.Sent result → j'.Sent result) : j'.Posted := by
  have hresult : j'.runner.result? = j.runner.result? := Runner.result?_congr hphase
  unfold Posted at hj ⊢
  rw [hduty, hphase, hresult]
  cases hd : j.duty with
  | heading | sending =>
    rw [hd] at hj
    exact ⟨hj.1, hunsent hj.2⟩
  | running =>
    rw [hd] at hj
    exact hunsent hj
  | closing | gone =>
    rw [hd] at hj
    obtain ⟨result, hresult⟩ := hj
    exact ⟨result, hsent result hresult⟩

/-- Whatever happens, the result is where it belongs. -/
theorem Posted.of_turn (hj : j.Posted) (h : j.Turn j') : j'.Posted := by
  obtain h | h | ⟨w, rfl, -, -⟩ := h
  · exact hj.of_works h
  · obtain ⟨-, hduty, hphase⟩ := h.frame
    exact hj.of_frame hduty hphase (·.of_serves h) fun _ hsent => hsent.of_serves h
  · exact hj.of_frame rfl rfl (·.congr rfl rfl) fun _ hsent =>
      ⟨hsent.returned, hsent.waiting, hsent.known⟩

/-- Either nothing has been sent, or the worker is done but for the output. -/
theorem Posted.unsent_or_sent (hj : j.Posted) :
    (j.duty ≠ .closing ∧ j.duty ≠ .gone ∧ j.Unsent) ∨
      (j.duty = .closing ∨ j.duty = .gone) ∧ ∃ result, j.Sent result := by
  unfold Posted at hj
  cases hd : j.duty with
  | heading | sending =>
    rw [hd] at hj
    exact .inl ⟨nofun, nofun, hj.2⟩
  | running =>
    rw [hd] at hj
    exact .inl ⟨nofun, nofun, hj⟩
  | closing =>
    rw [hd] at hj
    exact .inr ⟨.inl rfl, hj⟩
  | gone =>
    rw [hd] at hj
    exact .inr ⟨.inr rfl, hj⟩

/-- A result that the clerk has is that of the run, and has been sent. -/
theorem Posted.sent_of_known (hj : j.Posted) {result : Option Fault}
    (h : j.stage.known = some result) :
    (j.duty = .closing ∨ j.duty = .gone) ∧ j.runner.result? = some result := by
  obtain ⟨-, -, hunsent⟩ | ⟨hduty, result', hsent⟩ := hj.unsent_or_sent
  · cases hunsent.known.symm.trans h
  · obtain rfl := hsent.known result h
    exact ⟨hduty, hsent.returned⟩

end Job

end Brainfuck
