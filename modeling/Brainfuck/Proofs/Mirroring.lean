import Brainfuck.Proofs.Conservation
import Brainfuck.Proofs.Solo

/-!
# Brainfuck.Proofs.Mirroring

Whoever has copied a tape can keep the copy up to date from a change feed alone.

A `Picture` is such a copy, and `Picture.see` is what its owner does about a
change: follow the pointer and the mark, and fill in the one cell that the
change tells of.  It is enough because a mutation touches no other cell, and
because the snapshot is taken afterwards (`Device.Mutates`).

* `Machine.Performs.mutates`, `Device.mutates_of_read` — what an instruction or
  a hand does to a tape is one mutation or none;
* `feedLaw_of_act` — every deed is such a mutation, told to every listener once,
  or it leaves the tape and what is told alone (`FeedLaw`);
* `feed_of_play`, `picture_of_play`, `kinds_of_play` — so it is for every history;
* `feed_mirrors_tape` — what this means for one that begins with a subscription,
  and for a run.

A run in progress is no exception: its steps are deeds, and those of others may
come in between.
-/

namespace Brainfuck

/-! ## copies of a tape -/

/-- What a viewer copies from a tape. -/
structure Picture where
  cells : Array UInt8
  pointer : Nat
  mark : Nat
deriving DecidableEq

/-- What there is to copy from a tape. -/
def Tape.picture (t : Tape) : Picture := ⟨t.cells, t.pointer, t.mark⟩

/-- What a viewer does to the copy when told of a change. -/
def Picture.see (p : Picture) (c : Change) : Picture :=
  ⟨p.cells.setIfInBounds c.pointer c.value, c.pointer, c.mark⟩

namespace Tape

theorem setIfInBounds_value (t : Tape) : t.cells.setIfInBounds t.pointer t.value = t.cells := by
  rw [Array.setIfInBounds_def, dif_pos t.pointer_lt, value, Array.set_getElem_self]

theorem cells_of_move? {t t' : Tape} {dir : Direction} (h : t.move? dir = some t') :
    t'.cells = t.cells := by
  obtain ⟨i, -, rfl⟩ := Option.map_eq_some_iff.mp h
  rfl

theorem cells_store (t : Tape) (v : UInt8) :
    (t.store v).cells = t.cells.setIfInBounds t.pointer v := by
  rw [Array.setIfInBounds_def, dif_pos t.pointer_lt]
  rfl

end Tape

namespace Device

/-- `d.Mutates kind d'`: with one mutation of this kind `d` becomes `d'`.  Every
listener has been told, and whoever follows the change sees the tape again. -/
structure Mutates (d : Device) (kind : ChangeKind) (d' : Device) : Prop where
  audience : d'.wiring.audience = d.wiring.audience.post (d'.snapshot kind)
  picture : d.tape.picture.see (d'.snapshot kind) = d'.tape.picture

/-- To announce what has become of the current cell is enough. -/
theorem mutates_announce {d d₁ : Device} (kind : ChangeKind)
    (haudience : d₁.wiring.audience = d.wiring.audience)
    (hcells : d.tape.cells.setIfInBounds d₁.tape.pointer d₁.tape.value = d₁.tape.cells) :
    d.Mutates kind (d₁.announce kind) where
  audience := congrArg (Audience.post · (d₁.snapshot kind)) haudience
  picture := congrArg (Picture.mk · d₁.tape.pointer d₁.tape.mark) hcells

theorem mutates_of_move? {d : Device} {dir : Direction} {t : Tape}
    (h : d.tape.move? dir = some t) :
    d.Mutates .pointerMoved (({ d with tape := t } : Device).announce .pointerMoved) := by
  refine mutates_announce _ rfl ?_
  rw [← Tape.cells_of_move? h]
  exact t.setIfInBounds_value

theorem mutates_store (d : Device) (kind : ChangeKind) (v : UInt8) {w : Wiring}
    (h : w.audience = d.wiring.audience) :
    d.Mutates kind (announce ⟨d.tape.store v, w⟩ kind) := by
  refine mutates_announce kind h ?_
  rw [Tape.value_store, Tape.cells_store]
  rfl

theorem mutates_write (d : Device) : d.Mutates .outputWritten d.write :=
  mutates_announce _ rfl d.tape.setIfInBounds_value

theorem mutates_of_read {d d' : Device} (h : d.read = (.done, d')) :
    d.Mutates .inputRead d' := by
  obtain ⟨answer, hanswer, h'⟩ | ⟨v, q, -, h'⟩ | ⟨-, -, h'⟩ := d.read_cases <;> rw [h] at h'
  · exact absurd (congrArg Prod.fst h').symm hanswer
  · rw [(Prod.mk.inj h').2]
    exact d.mutates_store _ v rfl
  · rw [(Prod.mk.inj h').2]
    exact d.mutates_store _ 0 rfl

end Device

/-! ## instructions -/

/-- The kind of mutation that an action is. -/
def Action.mutation? : Action → Option ChangeKind
  | .moved _ => some .pointerMoved
  | .incremented _ _ => some .cellIncremented
  | .decremented _ _ => some .cellDecremented
  | .wrote _ => some .outputWritten
  | .read _ => some .inputRead
  | .jumpedForward _ | .enteredLoop | .jumpedBack _ | .exitedLoop | .fellThrough | .ignored => none

/-- The kind of mutation that a step has made. -/
def Step.mutation? (s : Step) : Option ChangeKind := s.action.mutation?

namespace Machine

/-- An instruction makes the mutation of its action.  Without one it leaves the
device alone. -/
theorem Performs.mutates {m : Machine} {i : Instruction} {a : Action} {j : Nat} {d : Device}
    (h : m.Performs i a j d) :
    (a.mutation? = none ∧ d = m.device) ∨
      ∃ kind, a.mutation? = some kind ∧ m.device.Mutates kind d := by
  cases h with
  | move h => exact .inr ⟨_, rfl, Device.mutates_of_move? h⟩
  | increment => exact .inr ⟨_, rfl, m.device.mutates_store _ _ rfl⟩
  | decrement => exact .inr ⟨_, rfl, m.device.mutates_store _ _ rfl⟩
  | write => exact .inr ⟨_, rfl, m.device.mutates_write⟩
  | readByte h =>
    obtain ⟨-, q, -, rfl⟩ := (Wiring.intake_eq_byte_iff _ _ _).mp h
    exact .inr ⟨_, rfl, m.device.mutates_store _ _ rfl⟩
  | readEnd => exact .inr ⟨_, rfl, m.device.mutates_store _ _ rfl⟩
  | enterLoop | jumpForward | passStart | exitLoop | jumpBack | passEnd | comment =>
    exact .inl ⟨rfl, rfl⟩

theorem mutates_of_step {m m' : Machine} {s : Step} (h : m.step = (.stepped s, m')) :
    (s.mutation? = none ∧ m'.device = m.device) ∨
      ∃ kind, s.mutation? = some kind ∧ m.device.Mutates kind m'.device := by
  obtain ⟨c, a, j, d, -, hp, rfl, rfl⟩ := step_eq_stepped_iff.mp h
  exact hp.mutates

end Machine

/-! ## what a deed does and tells -/

/-- The changes that an answer hands over. -/
def Answer.told : Answer → List Change
  | .change c => c.toList
  | .changes cs => cs
  | _ => []

/-- The tape of a session, unless it has been dropped. -/
def Session.tape? (s : Session) : Option Tape := s.device?.map (·.tape)

@[simp] theorem Session.tape?_mapWiring (s : Session) (f : Wiring → Wiring) :
    (s.mapWiring f).tape? = s.tape? := by
  cases s <;> rfl

namespace Bench

/-- The tape on the bench, unless it has been dropped. -/
def tape? (b : Bench) : Option Tape := b.session.tape?

/-- The feed of the listener with this id. -/
def feed? (b : Bench) (id : Nat) : Option (Pipe Change) := b.wiring.audience.feed? id

/-- The kind of mutation that a deed makes, if it succeeds. -/
def mutation? : Bench → Deed → Option ChangeKind
  | .resting (.tape d), .hand (.move dir) =>
    if (d.move dir).1 = none then some .pointerMoved else none
  | .resting (.tape _), .hand .increment => some .cellIncremented
  | .resting (.tape _), .hand .decrement => some .cellDecremented
  | .resting (.tape _), .hand .write => some .outputWritten
  | .resting (.tape d), .hand .read => if d.read.1 = .done then some .inputRead else none
  | b, d => (b.record? d).bind Step.mutation?

/-- The kinds of the mutations that a deed makes: one or none. -/
def mutations (b : Bench) (d : Deed) : List ChangeKind := (b.mutation? d).toList

/-- The changes that a deed hands over to the listener with this id. -/
def received (id : Nat) (b : Bench) : Deed → List Change
  | .feed id' op =>
    if id' = id then (b.session.feed? id' op).elim [] (·.answer.told) else []
  | _ => []

/-- The changes that a deed posts: what the tape shows after the mutation. -/
def posted (b : Bench) (d : Deed) : List Change :=
  match b.mutation? d, (b.act d).session.device? with
  | some kind, some dev => [dev.snapshot kind]
  | _, _ => []

theorem posted_of_still {b : Bench} {d : Deed} (h : b.mutation? d = none) : b.posted d = [] := by
  simp only [posted, h]

theorem posted_of_mutation? {b : Bench} {d : Deed} {kind : ChangeKind} {dev : Device}
    (h : b.mutation? d = some kind) (hdev : (b.act d).session.device? = some dev) :
    b.posted d = [dev.snapshot kind] := by
  simp only [posted, h, hdev]

/-- The law of the feed of the listener `id`: a deed that mutates the tape tells
the listener of it; any other leaves the tape as it is, and what it hands over
to the listener is what has waited longest. -/
inductive FeedLaw (id : Nat) (b : Bench) (d : Deed) : Prop where
  | still (hmutation : b.mutation? d = none)
      (htape : ∀ t, (b.act d).tape? = some t → b.tape? = some t)
      (hfeed : ∀ feed, b.feed? id = some feed → ∃ feed', (b.act d).feed? id = some feed' ∧
        feed.pending = b.received id d ++ feed'.pending)
  | mutated {kind : ChangeKind} {dev dev' : Device} (hmutation : b.mutation? d = some kind)
      (hreceived : b.received id d = []) (hdevice : b.session.device? = some dev)
      (hdevice' : (b.act d).session.device? = some dev') (h : dev.Mutates kind dev')

variable {id : Nat} {b : Bench} {d : Deed}

theorem feedLaw_of_unchanged (hmutation : b.mutation? d = none) (hreceived : b.received id d = [])
    (htape : ∀ t, (b.act d).tape? = some t → b.tape? = some t)
    (haudience : (b.act d).wiring.audience = b.wiring.audience) : b.FeedLaw id d := by
  refine .still hmutation htape fun feed hfeed => ⟨feed, ?_, ?_⟩
  · rw [feed?, haudience]
    exact hfeed
  · rw [hreceived, List.nil_append]

theorem feedLaw_of_session_eq (hmutation : b.mutation? d = none) (hreceived : b.received id d = [])
    (h : (b.act d).session = b.session) : b.FeedLaw id d := by
  refine feedLaw_of_unchanged hmutation hreceived (fun t ht => ?_) ?_
  · rwa [tape?, h] at ht
  · rw [wiring, h, wiring]

/-- A deed that changes nothing by hand mutates as its record says. -/
theorem mutation?_of_not_hand (b : Bench) (hd : ∀ op, d ≠ .hand op) :
    b.mutation? d = (b.record? d).bind Step.mutation? := by
  unfold mutation?
  split
  all_goals first | exact absurd rfl (hd _) | rfl

theorem mutation?_eq_none (hstep : d ≠ .step) (hadvance : d ≠ .advance)
    (hhand : ∀ op, d ≠ .hand op) : b.mutation? d = none := by
  rw [mutation?_of_not_hand b hhand, record?_eq_none hstep hadvance]
  rfl

@[simp] theorem tape?_mapWiring (b : Bench) (f : Wiring → Wiring) :
    (b.mapWiring f).tape? = b.tape? := by
  rw [tape?, session_mapWiring, Session.tape?_mapWiring, tape?]

end Bench

/-! ## handles, feeds and looks -/

/-- No handle is a way to the listeners. -/
theorem Wiring.audience_handled (w : Wiring) (op : HandleOp) :
    (w.handled op).audience = w.audience := by
  cases op with
  | drain | drainNow =>
    obtain ⟨q, hq, -⟩ := w.exists_handled_drain
    simp only [handled_drainNow, hq]
  | _ => rfl

/-- What is handed over to a listener has waited longest in its feed, and nobody
else's feed is touched. -/
theorem Session.feed_of_feed? {s : Session} {id id' : Nat} {op : FeedOp} {o : Outcome}
    {feed : Pipe Change} (h : s.feed? id' op = some o) (hop : op = .unsubscribe → id' ≠ id)
    (hfeed : s.wiring.audience.feed? id = some feed) :
    ∃ feed', o.session.wiring.audience.feed? id = some feed' ∧
      feed.pending = (if id' = id then o.answer.told else []) ++ feed'.pending := by
  cases op with
  | receive =>
    obtain ⟨⟨c, a⟩, hr, rfl⟩ := Option.map_eq_some_iff.mp h
    simp only [tell, wiring_mapWiring]
    exact Audience.feed?_of_receive? hr hfeed
  | receiveAll =>
    obtain ⟨⟨cs, a⟩, hr, rfl⟩ := Option.map_eq_some_iff.mp h
    simp only [tell, wiring_mapWiring]
    exact Audience.feed?_of_receiveAll? hr hfeed
  | unsubscribe =>
    have hne := hop rfl
    rw [feed?] at h
    split at h
    · obtain rfl := Option.some.inj h
      simp only [tell, wiring_mapWiring]
      refine ⟨feed, ?_, by rw [if_neg hne, List.nil_append]⟩
      exact (Audience.feed?_unsubscribe_of_ne hne _).trans hfeed
    · cases h

namespace Session

/-- A look leaves the tape as it is. -/
theorem tape?_view (s : Session) (dev : Device) (op : ViewOp) :
    (s.view dev op).session.tape? = s.tape? := by
  obtain ⟨a, ha⟩ := s.exists_session_view dev op
  rw [ha, tape?_mapWiring]

/-- Whoever looks or subscribes does not disturb those who listen. -/
theorem feed?_view {s : Session} {dev : Device} (h : s.device? = some dev) (op : ViewOp) {id : Nat}
    {feed : Pipe Change} (hfeed : s.wiring.audience.feed? id = some feed) :
    (s.view dev op).session.wiring.audience.feed? id = some feed := by
  cases op with
  | subscribe =>
    rw [wiring_of_device? h] at hfeed
    simp only [view, tell, wiring_mapWiring]
    exact Audience.feed?_subscribe hfeed
  | valueAt index =>
    rw [view]
    cases dev.valueAt index <;> exact hfeed
  | value | capacity | policy | inspect => exact hfeed

/-- A new listener is told its id, and has a feed in which nothing waits yet. -/
theorem feed?_subscribe {s : Session} {dev : Device} (h : s.device? = some dev) :
    (s.view dev .subscribe).answer = .number s.wiring.audience.nextId ∧
      (s.view dev .subscribe).session.wiring.audience.feed? s.wiring.audience.nextId =
        some .empty := by
  rw [wiring_of_device? h]
  refine ⟨rfl, ?_⟩
  simp only [view, tell, wiring_mapWiring]
  exact Audience.feed?_subscribe_self _

end Session

namespace Bench

variable {id : Nat}

theorem feedLaw_of_handle (b : Bench) (op : HandleOp) : b.FeedLaw id (.handle op) := by
  refine feedLaw_of_unchanged (mutation?_eq_none nofun nofun nofun) rfl (fun t ht => ?_) ?_
  · rwa [act_handle, tape?_mapWiring] at ht
  · rw [act_handle, wiring_mapWiring, Wiring.audience_handled]

theorem feedLaw_of_feed (b : Bench) {id' : Nat} {op : FeedOp} (hop : op = .unsubscribe → id' ≠ id) :
    b.FeedLaw id (.feed id' op) := by
  have hmutation : b.mutation? (.feed id' op) = none := mutation?_eq_none nofun nofun nofun
  cases ho : b.session.feed? id' op with
  | none =>
    refine feedLaw_of_session_eq hmutation ?_ (by simp only [act, ho])
    rw [received, ho]
    exact ite_self []
  | some o =>
    have hact : b.act (.feed id' op) = b.mapWiring fun _ => o.session.wiring := by
      simp only [act, ho]
    refine .still hmutation (fun t ht => ?_) fun feed hfeed => ?_
    · rwa [hact, tape?_mapWiring] at ht
    · rw [hact, feed?, wiring_mapWiring, received, ho]
      exact Session.feed_of_feed? ho hop hfeed

theorem feedLaw_of_view (b : Bench) (op : ViewOp) : b.FeedLaw id (.view op) := by
  have hmutation : b.mutation? (.view op) = none := mutation?_eq_none nofun nofun nofun
  match b with
  | .running r => exact feedLaw_of_session_eq hmutation rfl rfl
  | .resting s =>
    cases hs : s.device? with
    | none => exact feedLaw_of_session_eq hmutation rfl (by simp only [act, hs])
    | some dev =>
      have hact : (resting s).act (.view op) = resting (s.view dev op).session := by
        simp only [act, hs]
      refine .still hmutation (fun t ht => ?_) fun feed hfeed => ⟨feed, ?_, rfl⟩
      · rw [hact] at ht
        exact (Session.tape?_view s dev op).symm.trans ht
      · rw [hact]
        exact Session.feed?_view hs op hfeed

/-! ## instructions and changes by hand -/

theorem feedLaw_of_instruction {d : Deed} (hd : d = .step ∨ d = .advance) (b : Bench) :
    b.FeedLaw id d := by
  have hreceived : b.received id d = [] := by obtain rfl | rfl := hd <;> rfl
  have hmutation := b.mutation?_of_not_hand (d := d) (by obtain rfl | rfl := hd <;> nofun)
  cases hrecord : b.record? d with
  | none =>
    rw [hrecord] at hmutation
    exact feedLaw_of_session_eq hmutation hreceived (session_of_idle hd hrecord)
  | some s =>
    obtain ⟨m, m', hm, hstep, hm'⟩ := step_of_record? hrecord
    rw [hrecord] at hmutation
    obtain ⟨hnone, hdev⟩ | ⟨kind, hkind, hmutates⟩ := Machine.mutates_of_step hstep
    · refine feedLaw_of_unchanged (hmutation.trans hnone) hreceived (fun t ht => ?_) ?_
      · rw [tape?, hm'] at ht
        rw [tape?, hm, ← ht]
        simp only [Session.tape?, Session.device?, hdev]
      · simp only [wiring, hm', hm, Session.wiring, hdev]
    · refine .mutated (hmutation.trans hkind) hreceived ?_ ?_ hmutates
      · rw [hm]
        rfl
      · rw [hm']
        rfl

theorem feedLaw_of_read {dev dev' : Device} (h : dev.read = (.done, dev')) :
    (resting (.tape dev)).FeedLaw id (.hand .read) := by
  refine .mutated ?_ rfl rfl ?_ (Device.mutates_of_read h)
  · simp [mutation?, h]
  · rw [act, h]
    rfl

theorem feedLaw_of_hand (b : Bench) (op : TapeOp) : b.FeedLaw id (.hand op) := by
  match b with
  | .running _ | .resting (.machine _) | .resting (.dropped _) =>
    cases op <;> exact feedLaw_of_session_eq rfl rfl rfl
  | .resting (.tape dev) =>
    cases op with
    | move dir =>
      cases h : dev.tape.move? dir with
      | none =>
        have hmove : dev.move dir = (some (.pointerOutOfBounds dev.tape.pointer dir), dev) := by
          rw [Device.move, h]
        refine feedLaw_of_session_eq ?_ rfl ?_
        · simp [mutation?, hmove]
        · simp only [act, Session.byHand, hmove, Session.tell, session]
      | some t =>
        have hmove : dev.move dir =
            (none, ({ dev with tape := t } : Device).announce .pointerMoved) := by
          rw [Device.move, h]
        refine .mutated ?_ rfl rfl ?_ (Device.mutates_of_move? h)
        · simp [mutation?, hmove]
        · simp only [act, Session.byHand, hmove, Session.tell, session, Session.device?]
    | increment => exact .mutated rfl rfl rfl rfl (dev.mutates_store _ _ rfl)
    | decrement => exact .mutated rfl rfl rfl rfl (dev.mutates_store _ _ rfl)
    | write => exact .mutated rfl rfl rfl rfl dev.mutates_write
    | read =>
      obtain ⟨answer, hanswer, h⟩ | ⟨v, q, -, h⟩ | ⟨-, -, h⟩ := dev.read_cases
      · refine feedLaw_of_session_eq ?_ rfl ?_
        · simp [mutation?, h, hanswer]
        · rw [act, h]
      · exact feedLaw_of_read h
      · exact feedLaw_of_read h
    | load => exact feedLaw_of_unchanged rfl rfl (fun _ h => h) rfl

/-! ## histories -/

theorem feedLaw_of_act (b : Bench) {d : Deed} (hd : d ≠ .feed id .unsubscribe) :
    b.FeedLaw id d := by
  cases d with
  | handle op => exact b.feedLaw_of_handle op
  | feed id' op => exact b.feedLaw_of_feed fun hop hid => hd (by rw [hop, hid])
  | view op => exact b.feedLaw_of_view op
  | hand op => exact b.feedLaw_of_hand op
  | step => exact feedLaw_of_instruction (.inl rfl) b
  | advance => exact feedLaw_of_instruction (.inr rfl) b
  | finish =>
    cases b with
    | resting s => cases s <;> exact feedLaw_of_session_eq rfl rfl rfl
    | running r =>
      refine feedLaw_of_session_eq rfl rfl ?_
      rw [act]
      split <;> rfl
  | drop =>
    cases b with
    | resting s => cases s <;> exact feedLaw_of_unchanged rfl rfl (fun _ h => by cases h) rfl
    | running r => exact feedLaw_of_session_eq rfl rfl rfl
  | setLimit | setDelay | setMode | start | release =>
    cases b with
    | resting s => cases s <;> exact feedLaw_of_unchanged rfl rfl (fun _ h => h) rfl
    | running r => exact feedLaw_of_session_eq rfl rfl rfl

/-- What waited in a feed and was posted is what was handed over and still waits. -/
theorem FeedLaw.feed {b : Bench} {d : Deed} (h : b.FeedLaw id d) {feed : Pipe Change}
    (hfeed : b.feed? id = some feed) :
    ∃ feed', (b.act d).feed? id = some feed' ∧
      feed.pending ++ b.posted d = b.received id d ++ feed'.pending := by
  cases h with
  | still hmutation _ h =>
    rw [posted_of_still hmutation, List.append_nil]
    exact h feed hfeed
  | @mutated kind dev dev' hmutation hreceived hdevice hdevice' h =>
    have haudience : (b.act d).wiring.audience = b.wiring.audience.post (dev'.snapshot kind) := by
      rw [wiring, wiring, Session.wiring_of_device? hdevice, Session.wiring_of_device? hdevice',
        h.audience]
    refine ⟨feed.put (dev'.snapshot kind), ?_, ?_⟩
    · rw [feed?, haudience, Audience.feed?_post]
      exact congrArg _ hfeed
    · rw [posted_of_mutation? hmutation hdevice', hreceived, Pipe.pending_put, List.nil_append]

/-- Whoever follows the changes that a deed posts sees the tape again. -/
theorem FeedLaw.picture {b : Bench} {d : Deed} (h : b.FeedLaw id d) {t' : Tape}
    (ht : (b.act d).tape? = some t') :
    ∃ t, b.tape? = some t ∧ (b.posted d).foldl Picture.see t.picture = t'.picture := by
  cases h with
  | still hmutation htape _ =>
    rw [posted_of_still hmutation]
    exact ⟨t', htape t' ht, rfl⟩
  | @mutated kind dev dev' hmutation _ hdevice hdevice' h =>
    rw [tape?, Session.tape?, hdevice'] at ht
    obtain rfl := Option.some.inj ht
    refine ⟨dev.tape, by rw [tape?, Session.tape?, hdevice]; rfl, ?_⟩
    rw [posted_of_mutation? hmutation hdevice']
    exact h.picture

theorem FeedLaw.kinds {b : Bench} {d : Deed} (h : b.FeedLaw id d) :
    (b.posted d).map Change.kind = b.mutations d := by
  cases h with
  | still hmutation _ _ =>
    rw [posted_of_still hmutation, mutations, hmutation]
    rfl
  | mutated hmutation _ _ hdevice' _ =>
    rw [posted_of_mutation? hmutation hdevice', mutations, hmutation]
    rfl

/-- What waited in a feed and was posted since is what was handed over and still waits. -/
theorem feed_of_play {b : Bench} {ds : List Deed} (hds : .feed id .unsubscribe ∉ ds)
    {feed : Pipe Change} (hfeed : b.feed? id = some feed) :
    ∃ feed', (b.play ds).feed? id = some feed' ∧
      feed.pending ++ gather posted b ds = gather (received id) b ds ++ feed'.pending := by
  induction ds generalizing b feed with
  | nil => exact ⟨feed, hfeed, by simp [gather]⟩
  | cons d ds ih =>
    obtain ⟨hd, hds⟩ := List.ne_and_not_mem_of_not_mem_cons hds
    obtain ⟨feed₁, hfeed₁, hact⟩ := (b.feedLaw_of_act (Ne.symm hd)).feed hfeed
    obtain ⟨feed', hfeed', hplay⟩ := ih hds hfeed₁
    refine ⟨feed', hfeed', ?_⟩
    calc feed.pending ++ gather posted b (d :: ds)
        = (feed.pending ++ b.posted d) ++ gather posted (b.act d) ds := by
          rw [gather_cons, List.append_assoc]
      _ = b.received id d ++ (feed₁.pending ++ gather posted (b.act d) ds) := by
          rw [hact, List.append_assoc]
      _ = gather (received id) b (d :: ds) ++ feed'.pending := by
          rw [hplay, gather_cons, List.append_assoc]

/-- Whoever follows the changes that a history posts sees the tape again, unless
it has been dropped. -/
theorem picture_of_play {b : Bench} {ds : List Deed} (hds : .feed id .unsubscribe ∉ ds) {t' : Tape}
    (ht : (b.play ds).tape? = some t') :
    ∃ t, b.tape? = some t ∧ (gather posted b ds).foldl Picture.see t.picture = t'.picture := by
  induction ds generalizing b with
  | nil => exact ⟨t', ht, rfl⟩
  | cons d ds ih =>
    obtain ⟨hd, hds⟩ := List.ne_and_not_mem_of_not_mem_cons hds
    obtain ⟨t₁, ht₁, hplay⟩ := ih hds ht
    obtain ⟨t, ht, hact⟩ := (b.feedLaw_of_act (Ne.symm hd)).picture ht₁
    refine ⟨t, ht, ?_⟩
    rw [gather_cons, List.foldl_append, hact, hplay]

theorem kinds_of_play {b : Bench} {ds : List Deed} (hds : .feed id .unsubscribe ∉ ds) :
    (gather posted b ds).map Change.kind = gather mutations b ds := by
  induction ds generalizing b with
  | nil => rfl
  | cons d ds ih =>
    obtain ⟨hd, hds⟩ := List.ne_and_not_mem_of_not_mem_cons hds
    rw [gather_cons, List.map_append, (b.feedLaw_of_act (Ne.symm hd)).kinds, ih hds, gather_cons]

/-! ## runs -/

/-- While nobody changes the tape by hand, its mutations are those of the steps. -/
theorem mutations_of_play {ds : List Deed} (b : Bench) (hds : ∀ op, .hand op ∉ ds) :
    gather mutations b ds = (b.records ds).filterMap Step.mutation? := by
  induction ds generalizing b with
  | nil => rfl
  | cons d ds ih =>
    have hhand : ∀ op, d ≠ .hand op := fun op h => hds op (h ▸ List.mem_cons_self)
    have hd : b.mutations d = (b.record? d).toList.filterMap Step.mutation? := by
      rw [mutations, mutation?_of_not_hand b hhand]
      cases b.record? d with
      | none => rfl
      | some s => cases h : s.mutation? <;> simp [h]
    rw [gather_cons, records_cons, List.filterMap_append, hd,
      ih _ fun op h => hds op (List.mem_cons_of_mem d h)]

theorem received_of_advance (id n : Nat) (b : Bench) :
    gather (received id) b (List.replicate n .advance) = [] := by
  induction n generalizing b with
  | zero => rfl
  | succ n ih =>
    rw [List.replicate_succ, gather_cons, ih]
    rfl

/-- A run tells its listeners of the mutations of its steps, in order, and of nothing else. -/
theorem feed_of_run {m : Machine} {feed : Pipe Change}
    (h : m.device.wiring.audience.feed? id = some feed) (fuel : Nat) :
    ∃ feed' changes, (m.run fuel).machine.device.wiring.audience.feed? id = some feed' ∧
      feed'.pending = feed.pending ++ changes ∧
      changes.map Change.kind = (m.run fuel).seen.toList.filterMap Step.mutation? := by
  -- The run is a history in which the runner advances and nobody does anything else.
  obtain ⟨phase, ⟨n, hplay, hrecords⟩, -⟩ := m.comes_of_run fuel
  have hfeed : .feed id .unsubscribe ∉ List.replicate n Deed.advance :=
    fun hmem => nomatch List.eq_of_mem_replicate hmem
  have hhand : ∀ op, .hand op ∉ List.replicate n Deed.advance :=
    fun op hmem => nomatch List.eq_of_mem_replicate hmem
  obtain ⟨feed', hfeed', hpending⟩ := feed_of_play (b := running (.start m)) hfeed h
  rw [hplay] at hfeed'
  rw [received_of_advance, List.nil_append] at hpending
  refine ⟨feed', _, hfeed', hpending.symm, ?_⟩
  rw [kinds_of_play hfeed, mutations_of_play _ hhand, hrecords]

/-- Whoever copies a tape and subscribes to it can mirror it from then on: whatever
happens to the tape, and whoever does it, the changes handed over and those that
still wait are one for each mutation, in order, and following them turns the copy
into what there is to copy from the tape now.  And a run tells of the mutations
of its steps, and of nothing else. -/
theorem feed_mirrors_tape :
    (∀ (s : Session) (dev : Device), s.device? = some dev →
      let id := s.wiring.audience.nextId
      let o := s.view dev .subscribe
      let start := resting o.session
      o.answer = .number id ∧ ∀ ds, .feed id .unsubscribe ∉ ds →
        ∃ feed, (start.play ds).feed? id = some feed ∧
          let seen := gather (received id) start ds ++ feed.pending
          seen.map Change.kind = gather mutations start ds ∧
            ∀ t, (start.play ds).tape? = some t →
              seen.foldl Picture.see dev.tape.picture = t.picture) ∧
    ∀ (m : Machine) (fuel id : Nat) (feed : Pipe Change),
      m.device.wiring.audience.feed? id = some feed →
        ∃ feed' changes, (m.run fuel).machine.device.wiring.audience.feed? id = some feed' ∧
          feed'.pending = feed.pending ++ changes ∧
          changes.map Change.kind = (m.run fuel).seen.toList.filterMap Step.mutation? := by
  refine ⟨fun s dev hs => ?_, fun m fuel id feed h => feed_of_run h fuel⟩
  intro id o start
  obtain ⟨hid, hempty⟩ := Session.feed?_subscribe hs
  refine ⟨hid, fun ds hds => ?_⟩
  obtain ⟨feed, hfeed, hseen⟩ := feed_of_play (b := start) hds hempty
  rw [Pipe.pending_empty, List.nil_append] at hseen
  refine ⟨feed, hfeed, ?_, fun t ht => ?_⟩
  · rw [← hseen]
    exact kinds_of_play hds
  · obtain ⟨t₀, ht₀, hpicture⟩ := picture_of_play hds ht
    have htape : start.tape? = some dev.tape :=
      (Session.tape?_view s dev .subscribe).trans (congrArg _ hs)
    obtain rfl := Option.some.inj (htape.symm.trans ht₀)
    rw [← hseen]
    exact hpicture

/-- A viewer who takes one change and leaves the others, while the tape is moved
by hand, bound to one program whose run fails, and then to another; and a viewer
of a run that stops at the end of the tape. -/
theorem mirrored_through_two_machines :
    let dev : Device := ⟨(Tape.blank 2 .strict).increment, .fresh⟩
    let start := resting ((Session.tape dev).view dev .subscribe).session
    let ds : List Deed :=
      [.hand (.move .right), .hand (.move .right), .hand .increment, .hand .read,
        .hand (.load ⟨#['[', '-', '>']⟩), .step, .step, .feed 0 .receive, .start] ++
      List.replicate 5 .advance ++
      [.finish, .release, .hand (.load ⟨#['<', '+']⟩), .step, .step]
    let m := Machine.load ⟨#['+', '[', '>', '>', ']']⟩ ⟨dev.tape, start.wiring⟩
    (Session.tape dev).device? = some dev ∧ .feed 0 .unsubscribe ∉ ds ∧
      (∃ feed, (start.play ds).feed? 0 = some feed ∧
        let seen := gather (received 0) start ds ++ feed.pending
        feed.pending.length = 4 ∧
          seen.map Change.kind = [.pointerMoved, .cellIncremented, .cellDecremented,
            .pointerMoved, .cellIncremented] ∧
          seen.foldl Picture.see ⟨#[1, 0], 0, 0⟩ = ⟨#[2, 0], 0, 1⟩) ∧
      m.device.wiring.audience.feed? 0 = some .empty ∧
        ∃ feed', (m.run 9).machine.device.wiring.audience.feed? 0 = some feed' ∧
          feed'.pending.map Change.kind = [.cellIncremented, .pointerMoved] := by
  intro dev start ds m
  have hds : .feed 0 .unsubscribe ∉ ds := by simp [ds]
  have hm : m.device.wiring.audience.feed? 0 = some .empty := rfl
  obtain ⟨hmirror, hrun⟩ := feed_mirrors_tape
  obtain ⟨-, hmirror⟩ := hmirror (.tape dev) dev rfl
  obtain ⟨feed, (hfeed : (start.play ds).feed? 0 = some feed), hkinds, hpicture⟩ := hmirror ds hds
  obtain ⟨feed', changes, hfeed', hpending, hkinds'⟩ := hrun m 9 0 .empty hm
  have hshown : (start.play ds).tape?.map Tape.picture = some ⟨#[2, 0], 0, 1⟩ := by decide +kernel
  have hlength : ((start.play ds).feed? 0).map (·.pending.length) = some 4 := by decide +kernel
  obtain ⟨t, ht, hshown⟩ := Option.map_eq_some_iff.mp hshown
  rw [hfeed] at hlength
  refine ⟨rfl, hds, ⟨feed, hfeed, ?_, ?_, ?_⟩, hm, feed', hfeed', ?_⟩
  · exact Option.some.inj hlength
  · exact hkinds.trans (by decide +kernel)
  · exact (hpicture t ht).trans hshown
  · rw [hpending, Pipe.pending_empty, List.nil_append, hkinds']
    decide +kernel

end Bench

end Brainfuck
