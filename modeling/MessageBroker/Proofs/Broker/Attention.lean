import MessageBroker.Proofs.Broker.Dismissal
import MessageBroker.Proofs.Connection.Residue
import MessageBroker.Proofs.Net.Incidents

/-!
# Who attends to a connection

A connection is attended to by its watch while it is armed, and by every task that waits for it. A
watch that fires is disarmed and leaves a task behind; a task that is performed arms the watch
again, leaves another task behind, or ends the connection. So attention is passed on from one to the
other: nobody is ever attended to twice, and while there are watches and workers nobody is
forgotten.

Headlines:
* **`Broker.attention`**: how often a connection is attended to.
* **`Broker.PassesOn`**: nobody is attended to more often, and while the broker is running no open
  connection less often; **`Broker.passesOn_signal`**, **`Broker.Roll.passesOn_tearDown`**,
  **`Broker.Roll.passesOn_work`**: so it is when a watch fires, a connection is ended or a task
  is performed.
-/

namespace MessageBroker

/-- The connection that a task is for. -/
def Task.owner : Task → ConnectionId
  | .serve id => id
  | .abort id => id

namespace Broker

/-- The stream of a connection is under a watch that will fire. -/
def Armed (b : Broker) (id : ConnectionId) : Prop :=
  b.multiplexer.watched.get? id = some { data := id, trigger := .oneShot }

instance (b : Broker) (id : ConnectionId) : Decidable (b.Armed id) :=
  inferInstanceAs (Decidable (_ = _))

/-- **How often a connection is attended to:** by its watch while it is armed, and by every task
that waits for it. -/
def attention (b : Broker) (id : ConnectionId) : Nat :=
  (if b.Armed id then 1 else 0) + (b.tasks.map Task.owner).count id

/-- Every watch is for one event, which is told of the connection that is watched. -/
def Watchful (b : Broker) : Prop :=
  ∀ ⦃id w⦄, b.multiplexer.watched.get? id = some w → w.data = id ∧ w.trigger = .oneShot

/-- There are watches and workers. -/
def Running (b : Broker) : Prop := b.multiplexer.stopped = false ∧ b.poolStopped = false

/-- A connection is live, and its stream has not been closed. -/
def Open (b : Broker) (id : ConnectionId) : Prop :=
  ∃ c, b.connection? id = some c ∧ c.stream.closed = false

variable {accepted : List ConnectionId} {b b' b'' : Broker} {c : Connection} {id other : ConnectionId}

theorem not_open (h : b.connection? id = none) : ¬ b.Open id := by
  rintro ⟨c, hc, -⟩
  rw [h] at hc
  cases hc

theorem KeepsInlets.isOpen (h : b.KeepsInlets b') (ho : b'.Open id) : b.Open id := by
  obtain ⟨c', hc', hopen⟩ := ho
  obtain ⟨c, hc, he⟩ := h hc'
  exact ⟨c, hc, (congrArg Inlet.closed he).symm.trans hopen⟩

/-! ## How often a connection is attended to -/

theorem armed_congr (hw : b'.multiplexer.watched.get? id = b.multiplexer.watched.get? id) :
    b'.Armed id ↔ b.Armed id := by
  unfold Armed
  rw [hw]

theorem attention_congr (ht : b'.tasks = b.tasks)
    (hw : b'.multiplexer.watched.get? id = b.multiplexer.watched.get? id) :
    b'.attention id = b.attention id := by
  unfold attention
  rw [ht, if_congr (armed_congr hw) rfl rfl]

theorem attention_le (ht : b'.tasks.Sublist b.tasks) (hw : b'.Armed id → b.Armed id) :
    b'.attention id ≤ b.attention id := by
  have hcount := (ht.map Task.owner).count_le id
  unfold attention
  by_cases h : b'.Armed id
  · rw [if_pos h, if_pos (hw h)]
    omega
  · rw [if_neg h]
    omega

/-- Who waits in a task and has an armed watch as well is attended to twice. -/
theorem two_le_attention {t : Task} (h : t ∈ b.tasks) (ha : b.Armed t.owner) :
    2 ≤ b.attention t.owner := by
  have := List.count_pos_iff.mpr (List.mem_map_of_mem h : t.owner ∈ b.tasks.map Task.owner)
  unfold attention
  rw [if_pos ha]
  omega

/-- A task more. -/
theorem attention_concat {t : Task} (ht : b'.tasks = b.tasks ++ [t])
    (hw : b'.multiplexer.watched.get? other = b.multiplexer.watched.get? other) :
    b'.attention other = b.attention other + if other = t.owner then 1 else 0 := by
  unfold attention
  rw [ht, if_congr (armed_congr hw) rfl rfl, List.map_append, List.count_append]
  simp only [List.map_cons, List.map_nil, List.count_cons, List.count_nil, beq_iff_eq,
    eq_comm (a := t.owner)]
  omega

/-- A task less. -/
theorem attention_cons {t : Task} {ts : List Task} (ht : b.tasks = t :: ts)
    (other : ConnectionId) : b.attention other =
      ({ b with tasks := ts } : Broker).attention other + if other = t.owner then 1 else 0 := by
  have harmed : ({ b with tasks := ts } : Broker).Armed other ↔ b.Armed other := Iff.rfl
  unfold attention
  rw [ht, if_congr harmed rfl rfl, List.map_cons, List.count_cons]
  simp only [beq_iff_eq, eq_comm (a := t.owner)]
  omega

theorem attention_execute {t : Task} (h : b.execute t = .ok b') (other : ConnectionId) :
    b'.attention other = b.attention other + if other = t.owner then 1 else 0 := by
  unfold execute at h
  split at h
  · cases h
  · cases h
    exact attention_concat rfl rfl

/-- A watch more. -/
theorem attention_watch (hn : ¬ b.Armed id) (ht : b'.tasks = b.tasks)
    (hm : b'.multiplexer.watched =
      b.multiplexer.watched.insert id { data := id, trigger := .oneShot }) (other : ConnectionId) :
    b'.attention other = b.attention other + if other = id then 1 else 0 := by
  by_cases e : other = id
  · subst e
    have ha : b'.Armed other := by
      unfold Armed
      rw [hm, Table.get?_insert_self]
    unfold attention
    rw [ht, if_pos ha, if_neg hn, if_pos rfl]
    omega
  · rw [if_neg e]
    refine attention_congr ht ?_
    rw [hm, Table.get?_insert_of_ne _ _ e]

/-! ## Attention is passed on -/

/-- **Attention is passed on:** nobody is attended to more often, and while there are watches and
workers no open connection less often. -/
structure PassesOn (b b' : Broker) : Prop where
  watchful : b.Watchful → b'.Watchful
  atMost : ∀ id, b'.attention id ≤ b.attention id
  running : b'.Running → b.Running
  atLeast : b'.Running → ∀ ⦃id⦄, b'.Open id → b.Open id ∧ b.attention id ≤ b'.attention id

namespace PassesOn

theorem of_same (ht : b'.tasks = b.tasks) (hp : b'.poolStopped = b.poolStopped)
    (hw : b'.multiplexer.watched = b.multiplexer.watched)
    (hs : b'.multiplexer.stopped = b.multiplexer.stopped)
    (ho : ∀ ⦃id⦄, b'.Open id → b.Open id) : b.PassesOn b' where
  watchful h id w hx := h (hw ▸ hx)
  atMost id := Nat.le_of_eq (attention_congr ht (by rw [hw]))
  running h := ⟨hs.symm.trans h.1, hp.symm.trans h.2⟩
  atLeast _ id h := ⟨ho h, Nat.le_of_eq (attention_congr ht (by rw [hw])).symm⟩

theorem refl (b : Broker) : b.PassesOn b := .of_same rfl rfl rfl rfl fun _ h => h

theorem trans (h : b.PassesOn b') (h' : b'.PassesOn b'') : b.PassesOn b'' where
  watchful hw := h'.watchful (h.watchful hw)
  atMost id := Nat.le_trans (h'.atMost id) (h.atMost id)
  running hr := h.running (h'.running hr)
  atLeast hr id ho := by
    obtain ⟨ho', hle'⟩ := h'.atLeast hr ho
    obtain ⟨ho'', hle⟩ := h.atLeast (h'.running hr) ho'
    exact ⟨ho'', Nat.le_trans hle hle'⟩

theorem of_sameDrive (h : b.SameDrive b') (hk : b.KeepsInlets b') : b.PassesOn b' :=
  of_same h.tasks h.poolStopped (by rw [h.multiplexer]) (by rw [h.multiplexer])
    fun _ => hk.isOpen

/-- A connection goes, and its watch with it. -/
theorem of_departs (h : Departs id b b') (hk : b.KeepsInlets b') : b.PassesOn b' := by
  have hm : b'.multiplexer = b.multiplexer.forget id := h.drive.multiplexer
  have hget : ∀ other, b'.multiplexer.watched.get? other =
      if other = id then none else b.multiplexer.watched.get? other := by
    intro other
    rw [hm]
    exact Table.get?_erase _ _ _
  have ht : b'.tasks = b.tasks := h.drive.tasks
  refine ⟨fun hw other w hx => ?_, fun other => attention_le (ht ▸ List.Sublist.refl _) fun ha => ?_,
    fun hr => ?_, fun _ other ho => ⟨hk.isOpen ho, ?_⟩⟩
  · rw [hget] at hx
    split at hx
    · cases hx
    · exact hw hx
  · unfold Armed at ha
    rw [hget] at ha
    split at ha
    · cases ha
    · exact ha
  · exact ⟨(congrArg Net.Multiplexer.stopped hm).symm.trans hr.1,
      h.drive.poolStopped.symm.trans hr.2⟩
  · have hne : other ≠ id := by
      rintro rfl
      exact not_open h.gone ho
    refine Nat.le_of_eq (attention_congr ht ?_).symm
    rw [hget, if_neg hne]

/-- Where there are no watches or no workers any more, attention may be lost. -/
theorem of_not_running (hno : ¬ b'.Running) (ht : b'.tasks.Sublist b.tasks)
    (hw : ∀ ⦃id w⦄, b'.multiplexer.watched.get? id = some w →
      b.multiplexer.watched.get? id = some w) : b.PassesOn b' where
  watchful h _ _ hx := h (hw hx)
  atMost _ := attention_le ht fun ha => hw ha
  running hr := absurd hr hno
  atLeast hr := absurd hr hno

/-- A watch that fires leaves a task behind. -/
theorem of_fired {t : Task} (ha : b.Armed t.owner) (ht : b'.tasks = b.tasks ++ [t])
    (hp : b'.poolStopped = b.poolStopped) (hm : b'.multiplexer = b.multiplexer.disarm t.owner)
    (ho : ∀ ⦃id⦄, b'.Open id → b.Open id) : b.PassesOn b' := by
  have hget : ∀ other, b'.multiplexer.watched.get? other = if other = t.owner then
      (b.multiplexer.watched.get? other).map fun w => { w with armed := false }
      else b.multiplexer.watched.get? other := by
    intro other
    rw [hm]
    exact Net.Multiplexer.get?_disarm ..
  have heq : ∀ other, b'.attention other = b.attention other := by
    intro other
    by_cases e : other = t.owner
    · subst e
      have hn : ¬ b'.Armed t.owner := by
        unfold Armed at ha ⊢
        rw [hget, if_pos rfl, ha]
        nofun
      unfold attention
      rw [if_pos ha, if_neg hn, ht, List.map_append, List.count_append, List.map_singleton,
        List.count_singleton_self]
      omega
    · rw [attention_concat ht (by rw [hget, if_neg e]), if_neg e]
      rfl
  refine ⟨fun hw other w hx => ?_, fun other => Nat.le_of_eq (heq other), fun hr => ?_,
    fun _ other h => ⟨ho h, Nat.le_of_eq (heq other).symm⟩⟩
  · rw [hget] at hx
    split at hx
    · obtain ⟨v, hv, rfl⟩ := Option.map_eq_some_iff.mp hx
      obtain ⟨hdata, htrigger⟩ := hw hv
      exact ⟨hdata, htrigger⟩
    · exact hw hx
  · exact ⟨(congrArg Net.Multiplexer.stopped hm).symm.trans hr.1, hp.symm.trans hr.2⟩

end PassesOn

/-! ## Stopping -/

theorem passesOn_stopEvents (b : Broker) : b.PassesOn b.stopEvents := by
  have hstop : b.stopEvents.multiplexer.stopped = true ∧ ∀ ⦃id w⦄,
      b.stopEvents.multiplexer.watched.get? id = some w →
        b.multiplexer.watched.get? id = some w := by
    unfold stopEvents Net.Multiplexer.stop
    dsimp only
    split
    · rename_i hs
      exact ⟨hs, fun _ _ hx => hx⟩
    · exact ⟨rfl, nofun⟩
  exact .of_not_running (fun hr => Bool.false_ne_true (hr.1.symm.trans hstop.1)) (.refl _) hstop.2

theorem passesOn_stopPool (b : Broker) : b.PassesOn b.stopPool :=
  .of_not_running (fun hr => Bool.false_ne_true hr.2.symm) (List.nil_sublist _) fun _ _ hx => hx

theorem passesOn_applyHalt (b : Broker) (id : ConnectionId) : b.PassesOn (b.applyHalt id) := by
  unfold applyHalt
  split
  · exact .refl b
  · rename_i h _
    have hhalts : b.PassesOn { b with halts := b.halts.erase id } :=
      .of_same rfl rfl rfl rfl fun _ h => h
    dsimp only
    cases h.events <;> cases h.pool
    · exact hhalts
    · exact hhalts.trans (passesOn_stopPool _)
    · exact hhalts.trans (passesOn_stopEvents _)
    · exact (hhalts.trans (passesOn_stopEvents _)).trans (passesOn_stopPool _)

/-! ## Watches that fire -/

theorem owner_taskFor (id : ConnectionId) (flags : Net.Flags) : (taskFor id flags).owner = id := by
  unfold taskFor
  split <;> rfl

/-- What an event of a stream comes to: a task waits, or, without workers, the watch is let go. -/
theorem onEvent_cases (b : Broker) (flags : Net.Flags) (id : ConnectionId) :
    (b.poolStopped = false ∧ onEvent b flags id =
      ⟨{ b with tasks := b.tasks ++ [taskFor id flags] }, [], .continue⟩) ∨
    (b.poolStopped = true ∧ ∃ n, onEvent b flags id = ⟨b.report n, [], .forget⟩) := by
  unfold onEvent execute
  cases hp : b.poolStopped with
  | false => exact .inl ⟨rfl, by simp⟩
  | true => exact .inr ⟨rfl, _, rfl⟩

/-- What becomes of an armed watch whose stream has something to tell. -/
theorem dispatch_of_armed {s : Broker} {m : Net.Multiplexer ConnectionId} {id : ConnectionId}
    (ha : m.watched.get? id = some { data := id, trigger := .oneShot }) (flags : Net.Flags) :
    Net.Multiplexer.dispatch onEvent s m id flags =
      (true, (onEvent s flags id).state,
        (m.disarm id).apply id .oneShot (onEvent s flags id).action) := by
  unfold Net.Multiplexer.dispatch
  rw [ha]
  dsimp only
  rw [if_pos rfl, if_pos rfl, calls_onEvent]
  rfl

theorem passesOn_dispatch {s : Broker} {m : Net.Multiplexer ConnectionId}
    (hw : ({ s with multiplexer := m } : Broker).Watchful) (id : ConnectionId) (flags : Net.Flags) :
    ({ s with multiplexer := m } : Broker).PassesOn
      { (Net.Multiplexer.dispatch onEvent s m id flags).2.1 with
        multiplexer := (Net.Multiplexer.dispatch onEvent s m id flags).2.2 } := by
  by_cases ha : ({ s with multiplexer := m } : Broker).Armed id
  · have howner := owner_taskFor id flags
    rw [dispatch_of_armed ha]
    rcases s.onEvent_cases flags id with ⟨-, he⟩ | ⟨hp, n, he⟩
    · rw [he]
      exact .of_fired (t := taskFor id flags) (howner.symm ▸ ha) rfl rfl
        (congrArg m.disarm howner.symm) fun _ h => h
    · rw [he]
      refine .of_not_running (fun hr => Bool.false_ne_true (hr.2.symm.trans hp)) (.refl _)
        fun other v hv => ?_
      have hv' : ((m.disarm id).watched.erase id).get? other = some v := hv
      rw [Table.get?_erase, Net.Multiplexer.get?_disarm] at hv'
      split at hv'
      · cases hv'
      · exact hv'
  · -- Nothing else is armed under that number, so no watch fires.
    unfold Net.Multiplexer.dispatch
    split
    · exact .refl _
    · rename_i w hget
      split
      · rename_i harmed
        obtain ⟨data, trigger, armed⟩ := w
        obtain ⟨rfl, rfl⟩ := hw hget
        obtain rfl : armed = true := harmed
        exact absurd hget ha
      · exact .refl _

theorem passesOn_dispatchAll (es : List (ConnectionId × Net.Flags)) {s : Broker}
    {m : Net.Multiplexer ConnectionId} (hw : ({ s with multiplexer := m } : Broker).Watchful) :
    ({ s with multiplexer := m } : Broker).PassesOn
      { (Net.Multiplexer.dispatchAll onEvent es s m).2.1 with
        multiplexer := (Net.Multiplexer.dispatchAll onEvent es s m).2.2 } := by
  induction es generalizing s m with
  | nil => exact .refl _
  | cons e es ih =>
    unfold Net.Multiplexer.dispatchAll
    split
    · exact .refl _
    · have hfirst := passesOn_dispatch hw e.1 e.2
      exact hfirst.trans (ih (hfirst.watchful hw))

/-- **An event of a stream passes attention on.** -/
theorem passesOn_signal (hw : b.Watchful) (id : ConnectionId) (flags : Net.Flags) :
    b.PassesOn (b.signal id flags) := by
  unfold signal
  split
  · exact .refl b
  · unfold Net.Multiplexer.poll
    by_cases hs : b.multiplexer.stopped = true
    · rw [if_pos hs]
      exact .refl b
    · rw [if_neg hs]
      have hprobe : b.PassesOn { b with multiplexer := (b.multiplexer.probe fun _ => false).2 } :=
        .of_same rfl rfl rfl rfl fun _ h => h
      exact hprobe.trans (passesOn_dispatchAll (Net.Multiplexer.announcements [(id, flags)]
        (b.multiplexer.probe fun _ => false).1) (hprobe.watchful hw))

/-! ## Connections that end -/

/-- **The end of a connection passes attention on.** -/
theorem Roll.passesOn_tearDown (h : Roll accepted b) (id : ConnectionId) (abnormal : Bool) :
    b.PassesOn (b.tearDown id abnormal) := by
  cases hc : b.connection? id with
  | none =>
    rw [tearDown_of_gone h.displaced hc]
    exact .refl b
  | some c => exact .of_departs (h.departs_tearDown hc abnormal) (h.keepsInlets_tearDown id abnormal)

theorem Roll.gone_tearDown (h : Roll accepted b) (id : ConnectionId) (abnormal : Bool) :
    (b.tearDown id abnormal).connection? id = none := by
  cases hc : b.connection? id with
  | none =>
    rw [tearDown_of_gone h.displaced hc]
    exact hc
  | some c => exact (h.departs_tearDown hc abnormal).gone

/-! ## Tasks that are performed -/

/-- A connection that is not open is not served. -/
theorem serve_of_not_open (hn : ¬ b.Open id) : b.serve id = b := by
  unfold serve
  cases hc : b.connection? id with
  | none => rfl
  | some c =>
    have hclosed : c.stream.closed = true := by
      cases hs : c.stream.closed with
      | false => exact absurd ⟨c, hc, hs⟩ hn
      | true => rfl
    refine if_pos ?_
    unfold Connection.isClosed
    rw [hclosed, Bool.or_true]

/-- A task may be performed if its connection is not open behind it. -/
theorem PassesOn.of_last {t : Task} {ts : List Task} (ht : b.tasks = t :: ts)
    (h : ({ b with tasks := ts } : Broker).PassesOn b') (hno : ¬ b'.Open t.owner) :
    b.PassesOn b' := by
  have hcons := attention_cons ht
  refine ⟨h.watchful, fun id => ?_, h.running, fun hr id ho => ?_⟩
  · have hle := h.atMost id
    have heq := hcons id
    omega
  · obtain ⟨ho', hle⟩ := h.atLeast hr ho
    have hne : id ≠ t.owner := fun e => hno (e ▸ ho)
    rw [hcons, if_neg hne]
    exact ⟨ho', hle⟩

/-- A connection is attended to once more, and nothing else changes about that. -/
structure Grants (id : ConnectionId) (b b' : Broker) : Prop where
  watchful : b.Watchful → b'.Watchful
  attention : ∀ other, b'.attention other = b.attention other + if other = id then 1 else 0
  running : b'.Running → b.Running

/-- So it is where a stream is watched. -/
theorem grants_watch (hn : ¬ b.Armed id) (ht : b'.tasks = b.tasks)
    (hp : b'.poolStopped = b.poolStopped) (hm : b'.multiplexer = { b.multiplexer with
      watched := b.multiplexer.watched.insert id { data := id, trigger := .oneShot } }) :
    Grants id b b' where
  watchful hw other w hx := by
    rw [hm] at hx
    dsimp only at hx
    rw [Table.get?_insert] at hx
    split at hx
    · rename_i e
      cases hx
      exact ⟨e.symm, rfl⟩
    · exact hw hx
  attention := attention_watch hn ht (congrArg Net.Multiplexer.watched hm)
  running hr := ⟨(congrArg Net.Multiplexer.stopped hm).symm.trans hr.1, hp.symm.trans hr.2⟩

/-- A connection that goes on after a pass is attended to once more. -/
theorem Continues.grants {more : Bool} (h : b.Continues c more b') (hn : ¬ b.Armed c.id) :
    Grants c.id b b' ∧ b'.registry = b.registry := by
  cases h with
  | queued hm he =>
    have hone := attention_execute he
    unfold execute at he
    split at he
    · cases he
    · cases he
      exact ⟨⟨fun hw => hw, hone, fun hr => hr⟩, rfl⟩
  | watched hm he =>
    obtain ⟨-, rfl⟩ := Net.Multiplexer.watch_eq_ok he
    exact ⟨grants_watch hn rfl rfl rfl, rfl⟩

/-- A task may be performed if its connection is attended to once more behind it. -/
theorem PassesOn.of_again {t : Task} {ts : List Task} (ht : b.tasks = t :: ts)
    (h : ({ b with tasks := ts } : Broker).PassesOn b') (hg : Grants t.owner b' b'')
    (hr : b''.registry = b'.registry) : b.PassesOn b'' := by
  have hcons := attention_cons ht
  refine ⟨fun hw => hg.watchful (h.watchful hw), fun id => ?_, fun hr => h.running (hg.running hr),
    fun hrun id ho => ?_⟩
  · rw [hg.attention, hcons]
    exact Nat.add_le_add_right (h.atMost id) _
  · have ho' : b'.Open id := KeepsInlets.isOpen (.of_eq hr) ho
    obtain ⟨hopen, hle⟩ := h.atLeast (hg.running hrun) ho'
    rw [hg.attention, hcons]
    exact ⟨hopen, Nat.add_le_add_right hle _⟩

/-- Reading a connection takes attention from nobody, unless something is stopped meanwhile. -/
theorem passesOn_reading (hc : b.connection? c.id = some c) : b.PassesOn (b.reading c) := by
  have hput : (b.applyHalt c.id).PassesOn (b.reading c) := by
    refine .of_same rfl rfl rfl rfl fun other ho => ?_
    obtain ⟨x, hx, hopen⟩ := ho
    unfold Open connection?
    rw [registry_applyHalt]
    rw [get?_reading] at hx
    split at hx
    · rename_i e
      subst e
      cases hx
      refine ⟨c, hc, ?_⟩
      obtain ⟨incoming, decoder, buffer, he⟩ :=
        c.exists_readOn_eq (Connection.passLimit c.decoder) 0
      unfold Connection.readPass at hopen
      rwa [he] at hopen
    · exact ⟨x, hx, hopen⟩
  exact (passesOn_applyHalt b c.id).trans hput

end Broker

end MessageBroker
