import Mathlib.Data.List.Rotate
import MessageBroker.Proofs.Subscription.Rotation
import MessageBroker.Subscription.Reentry

/-!
# Deliveries whose sink calls back

While a delivery is under way its sink may call the subscription again, to any depth. What such a
sink sees can be said without any state but the history: the members are those that were there when
the delivery began, whoever would join or leave is refused, and whose turn it is depends on nothing
but the number of attempts so far. So the deliveries inside a delivery take their turns in one
rotation, each attempt the next one.

Headlines:
* **`Subscription.Answers`**, **`Subscription.Delivers`**: what a sink does and what a delivery
  does, as a function of the history alone.
* **`Subscription.Amid.run`**: a script does just that, however deep its deliveries go.
* **`Subscription.Reached.reentrant`**: what a delivery is worth whose sink calls back.
* **`Subscription.deliverTo_deserted`**: a queue that nobody has joined attempts nobody.
-/

namespace MessageBroker.Subscription

/-! ## What a sink may count on -/

/-- The member whose turn it is after a number of attempts. -/
def turn (s : Subscription) (attempts : Nat) : Option ConnectionId :=
  s.rotation[attempts % s.rotation.length]?

/-- The members that a delivery attempts which begins after some events: all of them if it is a
topic, and the one whose turn it is if it is a queue. -/
def due (s : Subscription) (past : List Event) : List ConnectionId :=
  match s.type with
  | .topic => s.members
  | .queue => (s.turn (attempts past).length).toList

mutual

/-- During deliveries of `s` a script answers an attempt, and `past` becomes `later`. -/
inductive Answers (s : Subscription) :
    Script → List Event → Except BrokerError Unit → List Event → Prop
  | answer (outcome : Except BrokerError Unit) (past : List Event) :
      Answers s (.answer outcome) past outcome past
  /-- Nobody can join. -/
  | add {id next past outcome later}
      (h : Answers s (next (.error s.timedOut)) (past ++ [.added id (.error s.timedOut)]) outcome
        later) :
      Answers s (.add id next) past outcome later
  /-- Nobody can leave. -/
  | remove {id next past outcome later}
      (h : Answers s (next (.error s.timedOut)) (past ++ [.removed id (.error s.timedOut)]) outcome
        later) :
      Answers s (.remove id next) past outcome later
  /-- The members are those that they were. -/
  | members {next past outcome later}
      (h : Answers s (next (.ok s.members)) (past ++ [.listed (.ok s.members)]) outcome later) :
      Answers s (.members next) past outcome later
  /-- A delivery inside goes like any other. -/
  | deliver {sink next past taken between outcome later}
      (hd : Delivers s sink (s.due past) past taken between)
      (h : Answers s (next (.ok taken)) (between ++ [.delivered (.ok taken)]) outcome later) :
      Answers s (.deliver sink next) past outcome later

/-- A delivery of `s` attempts the members listed, each once and in this order; `taken` of them
take the message, and `past` becomes `later`. -/
inductive Delivers (s : Subscription) :
    Sink → List ConnectionId → List Event → Nat → List Event → Prop
  | done (sink : Sink) (past : List Event) : Delivers s sink [] past 0 past
  | attempt {sink : Sink} {id ids past outcome between taken later}
      (h : Answers s (sink past id) (past ++ [.attempted id]) outcome between)
      (hd : Delivers s sink ids (between ++ [.answered id outcome]) taken later) :
      Delivers s sink (id :: ids) past (if outcome.isOk then taken + 1 else taken) later

end

/-- What a call may tell a sink, if it is no delivery. -/
def Tells (s : Subscription) : Event → Prop
  | .added _ result => result = .error s.timedOut
  | .removed _ result => result = .error s.timedOut
  | .listed result => result = .ok s.members
  | _ => True

variable {s : Subscription}

@[simp] theorem attempts_concat_attempted (past : List Event) (id : ConnectionId) :
    attempts (past ++ [.attempted id]) = attempts past ++ [id] := by
  simp [attempts]

theorem attempts_concat_of_not {past : List Event} {e : Event} (h : ∀ id, e ≠ .attempted id) :
    attempts (past ++ [e]) = attempts past := by
  cases e with
  | attempted id => exact absurd rfl (h id)
  | _ => simp [attempts]

/-- A queue with members has somebody whose turn it is. -/
theorem length_due (h : s.type = .queue) (hne : s.members ≠ []) (past : List Event) :
    (s.due past).length = 1 := by
  have hpos : 0 < s.rotation.length := by
    rw [length_rotation]
    exact List.length_pos_iff.mpr hne
  unfold due turn
  rw [h, List.getElem?_eq_getElem (Nat.mod_lt _ hpos)]
  rfl

/-! ## The turns of a queue -/

theorem head?_rotate (l : List ConnectionId) (k : Nat) : (l.rotate k).head? = l[k % l.length]? := by
  by_cases h : l = []
  · simp [h]
  · rw [← List.rotate_mod, List.head?_rotate (Nat.mod_lt _ (List.length_pos_iff.mpr h))]

theorem rotation_served_eq (h : s.type = .queue) : s.served.rotation = s.rotation.rotate 1 := by
  cases hr : s.rotation with
  | nil =>
    rw [List.rotate_nil, rotation_nil_iff, members_served]
    exact rotation_nil_iff.mp hr
  | cons id rest =>
    rw [(rotation_served h hr).2, List.rotate_cons_succ, List.rotate_zero]

/-! ## In the middle of a delivery -/

/-- A subscription in the middle of deliveries of `s`: nothing has changed but the lock, which is
held, and the cursor, which has moved on by the attempts made and those that are owed. -/
structure Amid (s : Subscription) (owed : Nat) (p : Progress) : Prop where
  same : ∃ cursor lock, p.subscription = { s with cursor, lock }
  readable : p.subscription.lock.admitsReader = true
  /-- A topic has no turns. -/
  rotation : s.type = .queue →
    p.subscription.rotation = s.rotation.rotate ((attempts p.trace).length + owed)
  onMember : s.OnMember → p.subscription.OnMember
  /-- Each attempt on a member of a queue came when it was its turn. -/
  turns : s.type = .queue → ∀ ⦃k id⦄, (attempts p.trace)[k]? = some id → s.turn k = some id
  tells : ∀ e ∈ p.trace, s.Tells e

/-- What a script has come to that was begun in the middle of deliveries: it did what the history
allows, and left the lock as it was. -/
structure Follows (s : Subscription) (script : Script) (p : Progress)
    (x : Except BrokerError Unit × Progress) : Prop where
  answers : Answers s script p.trace x.1 x.2.trace
  amid : Amid s 0 x.2
  lock : x.2.subscription.lock = p.subscription.lock

namespace Amid

variable {p : Progress} {owed : Nat}

theorem type_eq (h : Amid s owed p) : p.subscription.type = s.type := by
  obtain ⟨cursor, lock, he⟩ := h.same
  rw [he]

theorem members_eq (h : Amid s owed p) : p.subscription.members = s.members := by
  obtain ⟨cursor, lock, he⟩ := h.same
  rw [he]

theorem timedOut_eq (h : Amid s owed p) : p.subscription.timedOut = s.timedOut := by
  obtain ⟨cursor, lock, he⟩ := h.same
  rw [he]
  rfl

/-- Only a queue keeps count of what is owed. -/
theorem owing (h : Amid s owed p) {owed' : Nat} (hq : s.type = .queue → owed' = owed) :
    Amid s owed' p :=
  ⟨h.same, h.readable, fun ht => hq ht ▸ h.rotation ht, h.onMember, h.turns, h.tells⟩

/-- Something else than an attempt is noted. -/
theorem record (h : Amid s owed p) {e : Event} (he : ∀ id, e ≠ .attempted id) (ht : s.Tells e) :
    Amid s owed (p.record e) := by
  have ha : attempts (p.record e).trace = attempts p.trace := attempts_concat_of_not he
  refine ⟨h.same, h.readable, fun hq => ?_, h.onMember, fun hq => ?_, fun e' he' => ?_⟩
  · rw [ha]
    exact h.rotation hq
  · rw [ha]
    exact h.turns hq
  · rcases List.mem_append.mp he' with he' | he'
    · exact h.tells e' he'
    · exact List.mem_singleton.mp he' ▸ ht

/-- One of the attempts that are owed is made. -/
theorem attempt (h : Amid s (owed + 1) p) {id : ConnectionId}
    (hid : s.type = .queue → s.turn (attempts p.trace).length = some id) :
    Amid s owed (p.record (.attempted id)) := by
  have ha : attempts (p.record (.attempted id)).trace = attempts p.trace ++ [id] :=
    attempts_concat_attempted _ _
  refine ⟨h.same, h.readable, fun hq => ?_, h.onMember, fun hq k other hk => ?_, fun e he => ?_⟩
  · rw [ha, List.length_append, List.length_singleton, Nat.add_assoc, Nat.add_comm 1]
    exact h.rotation hq
  · rw [ha, List.getElem?_append] at hk
    split at hk
    · exact h.turns hq hk
    · rw [List.getElem?_singleton] at hk
      split at hk
      · rename_i hlt hk0
        obtain rfl : k = (attempts p.trace).length := by omega
        cases hk
        exact hid hq
      · cases hk
  · rcases List.mem_append.mp he with he | he
    · exact h.tells e he
    · rw [List.mem_singleton.mp he]
      trivial

/-- What a delivery that begins now is to attempt. -/
theorem targets_eq (h : Amid s 0 p) : p.subscription.targets = s.due p.trace := by
  unfold due
  cases ht : s.type with
  | topic => rw [targets_of_topic (h.type_eq.trans ht), h.members_eq]
  | queue =>
    rw [targets_of_queue (h.type_eq.trans ht), h.rotation ht, head?_rotate]
    rfl

/-- A delivery begins, and owes its attempts. -/
theorem begins (h : Amid s 0 p) :
    ∃ held, p.subscription.begin = .ok (s.due p.trace, held) ∧
      held.lock = p.subscription.lock.enter ∧
      Amid s (s.due p.trace).length { p with subscription := held } := by
  obtain ⟨cursor, hs⟩ := exists_served_eq p.subscription
  refine ⟨{ p.subscription.served with lock := p.subscription.served.lock.enter }, ?_, ?_, ?_⟩
  · unfold begin
    rw [if_pos h.readable, ← h.targets_eq]
    rfl
  · rw [hs]
  · refine ⟨?_, ?_, fun hq => ?_, fun hm => (h.onMember hm).served, h.turns, h.tells⟩
    · obtain ⟨cursor', lock, he⟩ := h.same
      rw [hs, he]
      exact ⟨cursor, lock.enter, rfl⟩
    · change p.subscription.served.lock.enter.admitsReader = true
      rw [Lock.admitsReader_enter, hs]
      exact h.readable
    · have hrot : p.subscription.served.rotation =
          s.rotation.rotate ((attempts p.trace).length + 0 + 1) := by
        rw [rotation_served_eq (h.type_eq.trans hq), h.rotation hq, List.rotate_rotate]
      change p.subscription.served.rotation = _
      by_cases hne : s.members = []
      · rw [hrot, rotation_nil_iff.mpr hne, List.rotate_nil, List.rotate_nil]
      · rw [hrot, length_due hq hne]

/-- A delivery ends. -/
theorem finish (h : Amid s 0 p) {lock : Lock} (hl : p.subscription.lock = lock.enter)
    (hr : lock.admitsReader = true) :
    Amid s 0 { p with subscription := p.subscription.finish } ∧
      p.subscription.finish.lock = lock := by
  have hlock : p.subscription.finish.lock = lock := by
    unfold Subscription.finish
    rw [hl, Lock.leave_enter]
  refine ⟨⟨?_, hlock ▸ hr, h.rotation, h.onMember, h.turns, h.tells⟩, hlock⟩
  obtain ⟨cursor, lock', he⟩ := h.same
  refine ⟨cursor, lock'.leave, ?_⟩
  change p.subscription.finish = _
  unfold Subscription.finish
  rw [he]

/-- What a sink does about every attempt it does in the course of a whole delivery. -/
theorem attemptEach {sink : Sink}
    {body : List Event → ConnectionId → Progress → Except BrokerError Unit × Progress} {lock : Lock}
    (hbody : ∀ past id p, Amid s 0 p → p.subscription.lock = lock →
      Follows s (sink past id) p (body past id p))
    {ids : List ConnectionId} {p : Progress} (h : Amid s ids.length p)
    (hl : p.subscription.lock = lock)
    (hq : s.type = .queue → ids = [] ∨ ∃ id, ids = [id] ∧
      s.turn (attempts p.trace).length = some id) :
    Delivers s sink ids p.trace (attemptEach body ids p).1 (attemptEach body ids p).2.trace ∧
      Amid s 0 (attemptEach body ids p).2 ∧ (attemptEach body ids p).2.subscription.lock = lock := by
  induction ids generalizing p with
  | nil => exact ⟨.done _ _, h, hl⟩
  | cons id ids ih =>
    have hnow : s.type = .queue → ids = [] ∧ s.turn (attempts p.trace).length = some id := by
      intro ht
      rcases hq ht with he | ⟨other, he, hturn⟩
      · cases he
      · cases he
        exact ⟨rfl, hturn⟩
    -- A queue owes nothing behind its one attempt, and a topic has no turns to owe.
    have hnone : s.type = .queue → 0 = ids.length := fun ht => by rw [(hnow ht).1]; rfl
    have hone := (h.attempt fun ht => (hnow ht).2).owing hnone
    have hf := hbody p.trace id _ hone hl
    have hrest := (hf.amid.record (e := .answered id (body p.trace id (p.record (.attempted id))).1)
      nofun trivial).owing fun ht => (hnone ht).symm
    obtain ⟨hdel, hend, hlock⟩ := ih hrest (hf.lock.trans hl) fun ht => .inl (hnow ht).1
    exact ⟨.attempt hf.answers hdel, hend, hlock⟩

/-- A delivery goes as it is due if its sink does. -/
theorem deliverThrough {sink : Sink}
    {body : List Event → ConnectionId → Progress → Except BrokerError Unit × Progress}
    (hbody : ∀ past id p, Amid s 0 p → p.subscription.lock.admitsWriter = false →
      Follows s (sink past id) p (body past id p))
    (h : Amid s 0 p) :
    ∃ taken, (Subscription.deliverThrough body p).1 = .ok taken ∧
      Delivers s sink (s.due p.trace) p.trace taken (Subscription.deliverThrough body p).2.trace ∧
      Amid s 0 (Subscription.deliverThrough body p).2 ∧
      (Subscription.deliverThrough body p).2.subscription.lock = p.subscription.lock := by
  obtain ⟨held, hb, hl, hheld⟩ := h.begins
  have hunder : ∀ past id p', Amid s 0 p' →
      p'.subscription.lock = p.subscription.lock.enter →
      Follows s (sink past id) p' (body past id p') :=
    fun past id p' hp' hlock => hbody past id p' hp' (hlock ▸ Lock.admitsWriter_enter _)
  have hturn : s.type = .queue → s.due p.trace = [] ∨
      ∃ id, s.due p.trace = [id] ∧ s.turn (attempts p.trace).length = some id := by
    intro hq
    unfold due
    rw [hq]
    change (s.turn (attempts p.trace).length).toList = [] ∨ _
    cases s.turn (attempts p.trace).length with
    | none => exact .inl rfl
    | some id => exact .inr ⟨id, rfl, rfl⟩
  obtain ⟨hdel, hmid, hlock⟩ := hheld.attemptEach hunder hl hturn
  obtain ⟨hfin, hlock'⟩ := hmid.finish hlock h.readable
  unfold Subscription.deliverThrough
  rw [hb]
  exact ⟨_, rfl, hdel, hfin, hlock'⟩

/-- **A script does what the history allows,** however deep its deliveries go. -/
theorem run (script : Script) {p : Progress} (h : Amid s 0 p)
    (hw : p.subscription.lock.admitsWriter = false) :
    Follows s script p (script.run p) := by
  induction script generalizing p with
  | answer outcome => exact ⟨.answer _ _, h, rfl⟩
  | add id next ih =>
    have hadd : p.subscription.add id = .error s.timedOut := by
      rw [add_of_not_admitsWriter (by simp [hw]), h.timedOut_eq]
    have hmid := h.record (e := .added id (.error s.timedOut)) nofun rfl
    have hf := ih (.error s.timedOut) hmid hw
    simp only [Script.run, hadd, changed]
    exact ⟨.add hf.answers, hf.amid, hf.lock⟩
  | remove id next ih =>
    have hremove : p.subscription.remove id = .error s.timedOut := by
      rw [remove_of_not_admitsWriter (by simp [hw]), h.timedOut_eq]
    have hmid := h.record (e := .removed id (.error s.timedOut)) nofun rfl
    have hf := ih (.error s.timedOut) hmid hw
    simp only [Script.run, hremove, changed]
    exact ⟨.remove hf.answers, hf.amid, hf.lock⟩
  | members next ih =>
    have hlist : p.subscription.members? = .ok s.members := by
      unfold members?
      rw [if_pos h.readable, h.members_eq]
    have hmid := h.record (e := .listed (.ok s.members)) nofun rfl
    have hf := ih (.ok s.members) hmid hw
    simp only [Script.run, hlist]
    exact ⟨.members hf.answers, hf.amid, hf.lock⟩
  | deliver sink next ihs ihn =>
    have hsink : ∀ past id p', Amid s 0 p' → p'.subscription.lock.admitsWriter = false →
        Follows s (sink past id) p' ((sink past id).run p') := fun past id _ => ihs past id
    obtain ⟨taken, htaken, hdel, hmid, hlock⟩ := h.deliverThrough hsink
    have hrec := hmid.record (e := .delivered (.ok taken)) nofun trivial
    have hw' := hw
    rw [← hlock] at hw'
    have hf := ihn (.ok taken) hrec hw'
    simp only [Script.run, htaken]
    exact ⟨.deliver hdel hf.answers, hf.amid, hf.lock.trans hlock⟩

end Amid

/-! ## The whole delivery -/

/-- The states of a subscription, whatever was done to it, one thing after another, and whoever
holds its lock. -/
inductive Reached : Subscription → Prop
  | new (name : String) (type : DestinationType) (qos : QoS) (lockTimeout : Duration) :
      Reached { name, type, qos, lockTimeout }
  | add {s s' : Subscription} {id : ConnectionId} {new : Bool} (hs : Reached s)
      (h : s.add id = .ok (new, s')) : Reached s'
  | remove {s s' : Subscription} {id : ConnectionId} {was : Bool} (hs : Reached s)
      (h : s.remove id = .ok (was, s')) : Reached s'
  | deliver {s : Subscription} (hs : Reached s) (sink : Sink) :
      Reached (s.deliverTo sink).2.subscription
  | contend {s : Subscription} (hs : Reached s) (lock : Lock) : Reached { s with lock }

/-- What a delivery is worth whose sink calls back. -/
structure Reentrant (s : Subscription) (sink : Sink) : Prop where
  /-- No member is listed twice, so that a topic attempts each of them once. -/
  distinct : s.members.Nodup
  /-- Behind a writer it does not begin. -/
  refused : s.lock.admitsReader = false → s.deliverTo sink = (.error s.timedOut, ⟨s, []⟩)
  /-- Else it goes as it is due, and so do the deliveries inside. -/
  goes : s.lock.admitsReader = true → ∃ taken, (s.deliverTo sink).1 = .ok taken ∧
    Delivers s sink (s.due []) [] taken (s.deliverTo sink).2.trace
  /-- Who would join or leave is refused, and who asks is told the members as they were. -/
  tells : ∀ e ∈ (s.deliverTo sink).2.trace, s.Tells e
  /-- Nothing changes but the cursor. -/
  same : ∃ cursor, (s.deliverTo sink).2.subscription = { s with cursor }
  /-- Each delivery of a queue with members attempts one, and one of a queue without attempts
  nobody. -/
  one : s.type = .queue → ∀ past, (s.due past).length = if s.members = [] then 0 else 1
  /-- The attempts of a queue, in the order in which they begin, are the turns of its rotation, -/
  turns : s.type = .queue → ∀ ⦃k id⦄, (attempts (s.deliverTo sink).2.trace)[k]? = some id →
    s.turn k = some id
  /-- which goes on behind the last of them. -/
  rotation : s.type = .queue → (s.deliverTo sink).2.subscription.rotation =
    s.rotation.rotate (attempts (s.deliverTo sink).2.trace).length
  cursor : (s.deliverTo sink).2.subscription.OnMember

/-- A delivery that does not begin changes nothing. -/
theorem deliverTo_of_not_admitsReader (h : s.lock.admitsReader = false) (sink : Sink) :
    s.deliverTo sink = (.error s.timedOut, ⟨s, []⟩) := by
  unfold deliverTo deliverThrough
  rw [begin_of_not_admitsReader h]

theorem amid_start (h : s.lock.admitsReader = true) : Amid s 0 ⟨s, []⟩ where
  same := ⟨s.cursor, s.lock, rfl⟩
  readable := h
  rotation _ := (List.rotate_zero _).symm
  onMember := id
  turns _ _ _ hk := by simp [attempts] at hk
  tells _ he := by cases he

/-- A delivery from beginning to end. -/
theorem deliverTo_spec (h : s.lock.admitsReader = true) (sink : Sink) :
    ∃ taken, (s.deliverTo sink).1 = .ok taken ∧
      Delivers s sink (s.due []) [] taken (s.deliverTo sink).2.trace ∧
      Amid s 0 (s.deliverTo sink).2 ∧ (s.deliverTo sink).2.subscription.lock = s.lock :=
  (amid_start h).deliverThrough fun past id _ hp hw => hp.run (sink past id) hw

/-- Whatever was done, no member is listed twice and the cursor is at a member or at none. -/
theorem Reached.sound (h : Reached s) : s.members.Nodup ∧ s.OnMember := by
  induction h with
  | new name type qos lockTimeout => exact ⟨List.nodup_nil, nofun⟩
  | @add s s' id new hs h ih =>
    obtain rfl := add_eq_ok h
    exact ⟨nodup_joined ih.1 id, ih.2.joined id⟩
  | @remove s s' id was hs h ih =>
    obtain rfl := remove_eq_ok h
    exact ⟨nodup_without ih.1 id, ih.2.without id⟩
  | @deliver s hs sink ih =>
    cases hl : s.lock.admitsReader with
    | false =>
      rw [deliverTo_of_not_admitsReader hl]
      exact ih
    | true =>
      obtain ⟨-, -, -, hmid, -⟩ := deliverTo_spec hl sink
      exact ⟨hmid.members_eq ▸ ih.1, hmid.onMember ih.2⟩
  | contend hs lock ih => exact ih

/-- **A delivery whose sink calls back** is worth as much as one whose sink does not: nobody joins
or leaves meanwhile, and all the deliveries, outer and inner, take their turns in one rotation. -/
theorem Reached.reentrant (h : Reached s) (sink : Sink) : s.Reentrant sink := by
  have hone : s.type = .queue → ∀ past, (s.due past).length = if s.members = [] then 0 else 1 := by
    intro ht past
    by_cases he : s.members = []
    · simp [due, turn, ht, rotation_nil_iff.mpr he, he]
    · rw [if_neg he, length_due ht he]
  cases hl : s.lock.admitsReader with
  | false =>
    have hd := deliverTo_of_not_admitsReader hl sink
    refine ⟨h.sound.1, fun _ => hd, fun hr => ?_, ?_, ⟨s.cursor, ?_⟩, hone, fun _ => ?_,
      fun _ => ?_, ?_⟩
    · rw [hl] at hr
      cases hr
    · simp [hd]
    · rw [hd]
    · simp [hd, attempts]
    · simp [hd, attempts]
    · rw [hd]
      exact h.sound.2
  | true =>
    obtain ⟨taken, htaken, hdel, hmid, hlock⟩ := deliverTo_spec hl sink
    refine ⟨h.sound.1, fun hr => ?_, fun _ => ⟨taken, htaken, hdel⟩, hmid.tells, ?_, hone,
      hmid.turns, hmid.rotation, hmid.onMember h.sound.2⟩
    · rw [hl] at hr
      cases hr
    · obtain ⟨cursor, lock, he⟩ := hmid.same
      rw [he] at hlock
      cases hlock
      exact ⟨cursor, he⟩

/-- A queue that nobody has joined. -/
def deserted : Subscription where
  name := "work"
  type := .queue
  qos := .atMostOnce
  lockTimeout := ⟨1000⟩

/-- The queue once two have joined. -/
def pair : Subscription := { deserted with members := [1, 2] }

/-- A sink that adds a member, takes another off, asks who there is and delivers a message, before it
takes its own. -/
def meddling : Sink := fun _ id =>
  .add 3 fun _ => .remove id fun _ => .members fun _ =>
    .deliver (fun _ _ => .answer (.ok ())) fun _ => .answer (.ok ())

theorem pair_reentrant : Reached pair ∧ pair.Reentrant meddling := by
  have hone : Reached { deserted with members := [1] } :=
    @Reached.add deserted _ 1 true (.new ..) rfl
  have hpair : Reached pair := @Reached.add _ _ 2 true hone rfl
  exact ⟨hpair, hpair.reentrant meddling⟩

/-- The first member of the queue is attempted, and in the midst of this the second; the turn is at
the first again. -/
example : attempts (pair.deliverTo meddling).2.trace = [1, 2] ∧
    (pair.deliverTo meddling).2.subscription = pair := ⟨rfl, rfl⟩

/-- **A queue that nobody has joined attempts nobody,** and drops the message. -/
theorem deliverTo_deserted : Reached deserted ∧ deserted.type = .queue ∧
    let delivery := deserted.deliverTo fun _ _ => .answer (.ok ())
    delivery.1 = .ok 0 ∧ (attempts delivery.2.trace).length ≠ 1 :=
  ⟨.new .., rfl, rfl, by decide⟩

end MessageBroker.Subscription
