import MessageBroker.Proofs.Broker.Lifetime

/-!
# Runs of a broker

A broker is driven from outside: streams are accepted, clients write and close, writes fare well or
badly, events are reported, tasks are performed, and whoever runs the broker may end connections and
drop destinations. Whatever happens and in whatever order, the tables of the registry tell the same,
and nothing is left of a connection that has ended.

Headlines:
* **`Broker.Sound.apply`**: one event keeps a broker sound.
* **`Broker.run_crossReferenced`**: after every run, destinations, members and client ids agree, and
  a connection that has ended is in no table.
-/

namespace MessageBroker.Broker

/-- What may happen to a broker. -/
inductive Event
  /-- A stream is accepted under a number. -/
  | accept (id : ConnectionId) (stream : Net.Stream)
  /-- The other end or the network does something to a stream. -/
  | change (id : ConnectionId) (f : Net.Stream → Net.Stream)
  /-- An event of a stream is reported. -/
  | signal (id : ConnectionId) (flags : Net.Flags)
  /-- The first task that waits is performed, if any does. -/
  | work
  /-- A task is performed, whether or not it waits. -/
  | perform (t : Task)
  | tearDown (id : ConnectionId) (abnormal : Bool)
  | publish (m : Message)
  | remove (name : String)
  | clear
  | sweep (expiry : Duration)
  | setClock (now : Timestamp)
  /-- What is to be stopped while a stream is read the next time. -/
  | halt (id : ConnectionId) (h : Halt)
  | stopEvents
  | stopPool

/-- The broker after an event. -/
def apply (b : Broker) : Event → Broker
  | .accept id stream => (b.accept id stream).2
  | .change id f => b.modifyStream id f
  | .signal id flags => b.signal id flags
  | .work => work 1 b
  | .perform t => b.perform t
  | .tearDown id abnormal => b.tearDown id abnormal
  | .publish m => (b.publish m).2
  | .remove name => (b.remove name).2
  | .clear => b.clear
  | .sweep expiry => (b.sweep expiry).2
  | .setClock now => { b with clock := now }
  | .halt id h => { b with halts := b.halts.insert id h }
  | .stopEvents => b.stopEvents
  | .stopPool => b.stopPool

/-- The broker after a number of events. -/
def run (b : Broker) (events : List Event) : Broker := events.foldl apply b

/-- The number that an event gives to a new connection. -/
def Event.accepted? : Event → Option ConnectionId
  | .accept id _ => some id
  | _ => none

/-- The numbers given to connections, the last one first. -/
def acceptedBy (events : List Event) : List ConnectionId :=
  (events.filterMap Event.accepted?).reverse

/-! ## Events of streams -/

theorem keeps_onEvent (b : Broker) (flags : Net.Flags) (id : ConnectionId) :
    b.Keeps (onEvent b flags id).state := by
  unfold onEvent
  split
  · rename_i he
    exact keeps_execute he
  · exact b.keeps_report _

theorem calls_onEvent (b : Broker) (flags : Net.Flags) (id : ConnectionId) :
    (onEvent b flags id).calls = [] := by
  unfold onEvent
  split
  · rfl
  · rfl

theorem mem_watched_disarm {m : Net.Multiplexer ConnectionId} {id other : ConnectionId} :
    other ∈ (m.disarm id).watched ↔ other ∈ m.watched := by
  unfold Net.Multiplexer.disarm
  rw [Table.mem_iff, Table.get?_modify, Table.mem_iff]
  split
  · rw [Option.isSome_map]
  · rfl

theorem mem_watched_apply {m : Net.Multiplexer ConnectionId} {id other : ConnectionId}
    {trigger : Net.Trigger} {action : Net.Action}
    (h : other ∈ (m.apply id trigger action).watched) : other ∈ m.watched := by
  cases action with
  | «continue» =>
    simp only [Net.Multiplexer.apply] at h
    split at h
    · exact h
    · exact h
  | disable => exact mem_watched_disarm.mp h
  | forget => exact (not_mem_forget h).2

theorem mem_watched_dispatch {b : Broker} {m : Net.Multiplexer ConnectionId}
    {id other : ConnectionId} {flags : Net.Flags}
    (h : other ∈ (Net.Multiplexer.dispatch onEvent b m id flags).2.2.watched) :
    other ∈ m.watched := by
  unfold Net.Multiplexer.dispatch at h
  split at h
  · exact h
  · split at h
    · have h' := mem_watched_apply h
      rw [calls_onEvent, List.foldl_nil] at h'
      split at h'
      · exact mem_watched_disarm.mp h'
      · exact h'
    · exact h

theorem mem_watched_dispatchAll {es : List (ConnectionId × Net.Flags)} {b : Broker}
    {m : Net.Multiplexer ConnectionId} {id : ConnectionId}
    (h : id ∈ (Net.Multiplexer.dispatchAll onEvent es b m).2.2.watched) : id ∈ m.watched := by
  induction es generalizing b m with
  | nil => exact h
  | cons e es ih =>
    unfold Net.Multiplexer.dispatchAll at h
    split at h
    · exact h
    · exact mem_watched_dispatch (ih h)

theorem mem_watched_poll {available : ConnectionId → Bool} {es : List (ConnectionId × Net.Flags)}
    {b : Broker} {m : Net.Multiplexer ConnectionId} {id : ConnectionId}
    (h : id ∈ (Net.Multiplexer.poll onEvent available (.ok es) b m).2.2.watched) :
    id ∈ m.watched := by
  unfold Net.Multiplexer.poll at h
  split at h
  · exact h
  · have hprobe : id ∈ (m.probe available).2.watched := mem_watched_dispatchAll h
    exact hprobe

theorem keeps_signal (b : Broker) (id : ConnectionId) (flags : Net.Flags) :
    b.Keeps (b.signal id flags) := by
  unfold signal
  split
  · exact .refl b
  · have hk := Net.Multiplexer.poll_rel Keeps.refl Keeps.trans keeps_onEvent (fun _ => false)
      (.ok [(id, flags)]) b b.multiplexer
    exact ⟨hk.registry, fun _ => mem_watched_poll, hk.departed, hk.displaced⟩

theorem keeps_modifyStream (b : Broker) (id : ConnectionId) (f : Net.Stream → Net.Stream) :
    b.Keeps (b.modifyStream id f) := by
  unfold modifyStream
  split
  · rename_i hc
    exact keeps_putConnection hc rfl
  · refine ⟨.refl _, fun _ h => h, fun other => ?_, rfl⟩
    rw [Table.mem_iff, Table.get?_modify, Table.mem_iff]
    split
    · rw [Option.isSome_map]
    · rfl

variable {accepted : List ConnectionId} {b : Broker}

theorem Sound.work (h : Sound accepted b) : Sound accepted (work 1 b) := by
  unfold Broker.work
  split
  · exact h
  · rename_i t ts ht
    have hk : b.Keeps { b with tasks := ts } := keeps_of_registry (.refl _) rfl rfl rfl
    exact (h.keeps hk).perform t

/-- **One event keeps a broker sound.** -/
theorem Sound.apply (h : Sound accepted b) (e : Event)
    (he : ∀ id, e.accepted? = some id → id ∉ accepted) :
    Sound (e.accepted?.toList ++ accepted) (b.apply e) := by
  cases e with
  | accept id stream => exact h.accept (he id rfl) stream
  | change id f => exact h.keeps (b.keeps_modifyStream id f)
  | signal id flags => exact h.keeps (b.keeps_signal id flags)
  | work => exact h.work
  | perform t => exact h.perform t
  | tearDown id abnormal => exact (h.tearDown id abnormal).1
  | publish m => exact h.keeps (b.keeps_publish m)
  | remove name => exact h.keeps (keeps_of_registry (Registry.keeps_remove _ name) rfl rfl rfl)
  | clear => exact h.keeps (keeps_of_registry (Registry.keeps_clear _) rfl rfl rfl)
  | sweep expiry => exact h.keeps (keeps_of_registry (.refl _) rfl rfl rfl)
  | setClock now => exact h.keeps (keeps_of_registry (.refl _) rfl rfl rfl)
  | halt id h' => exact h.keeps (keeps_of_registry (.refl _) rfl rfl rfl)
  | stopEvents => exact h.keeps b.keeps_stopEvents
  | stopPool => exact h.keeps (keeps_of_registry (.refl _) rfl rfl rfl)

theorem acceptedBy_cons (e : Event) (events : List Event) :
    acceptedBy (e :: events) = acceptedBy events ++ e.accepted?.toList := by
  unfold acceptedBy
  cases h : e.accepted? with
  | none => simp [h]
  | some id => simp [h]

/-- A run keeps a broker sound, if it gives no number twice. -/
theorem Sound.run (h : Sound accepted b) {events : List Event}
    (hn : (acceptedBy events ++ accepted).Nodup) :
    Sound (acceptedBy events ++ accepted) (b.run events) := by
  induction events generalizing accepted b with
  | nil => exact h
  | cons e events ih =>
    rw [acceptedBy_cons, List.append_assoc] at hn ⊢
    refine ih (h.apply e fun id he hid => ?_) hn
    have hn' := (List.nodup_append.mp hn).2.1
    rw [he] at hn'
    exact (List.nodup_cons.mp hn').1 hid

/-! ## What can be told from a broker after a run -/

/-- The tables of a broker refer to one another and to nothing else, when `accepted` are the numbers
that were given to connections. -/
structure CrossReferenced (accepted : List ConnectionId) (b : Broker) : Prop where
  /-- A connection belongs to the destinations that list it. -/
  destinations : ∀ ⦃id c⦄, b.connection? id = some c → ∀ name,
    name ∈ c.destinations ↔ ∃ s, b.registry.subscription? name = some s ∧ id ∈ s.members
  /-- Members are live and listed once. -/
  members : ∀ ⦃name s⦄, b.registry.subscription? name = some s →
    s.members.Nodup ∧ ∀ id ∈ s.members, ∃ c, b.connection? id = some c ∧ c.id = id ∧ c.closed = false
  /-- A client id that is taken is that of a live connection. -/
  clientIds : ∀ clientId id, b.registry.clientIds.get? clientId = some id ↔
    ∃ c, b.connection? id = some c ∧ c.session.clientId = some clientId
  /-- No two connections share a client id. -/
  distinct : ∀ ⦃id c id' c' clientId⦄, b.connection? id = some c → b.connection? id' = some c' →
    c.session.clientId = some clientId → c'.session.clientId = some clientId → id = id'
  /-- A connection that is live no more is in no table and not watched. -/
  gone : ∀ ⦃id⦄, b.connection? id = none →
    (∀ clientId, b.registry.clientIds.get? clientId ≠ some id) ∧
    (∀ ⦃name s⦄, b.registry.subscription? name = some s → id ∉ s.members) ∧
    id ∉ b.multiplexer.watched ∧ id ∉ b.displaced
  /-- Connections that were accepted are live or have departed. -/
  departed : ∀ id, id ∈ b.departed ↔ id ∈ accepted ∧ b.connection? id = none
  /-- A connection that is ended is live no more, and no other one is ended with it. -/
  ended : ∀ id abnormal other, ((b.tearDown id abnormal).connection? other).isSome ↔
    other ≠ id ∧ (b.connection? other).isSome
  /-- It leaves with no destinations. -/
  emptied : ∀ ⦃id c⦄, (b.registry.removeConnection id).1 = some c → c.destinations = ∅

theorem Sound.crossReferenced (h : Sound accepted b) : b.CrossReferenced accepted where
  destinations id c hc name := by
    constructor
    · exact fun hn => (h.registry.lists_iff name id).mpr ⟨c, hc, hn⟩
    · rintro ⟨s, hs, hid⟩
      exact h.registry.mem_destinations hc hs hid
  members name s hs := by
    refine ⟨(h.registry.atRest hs).nodup, fun id hid => ?_⟩
    obtain ⟨c, hc, _⟩ := (h.registry.lists_iff name id).mp ⟨s, hs, hid⟩
    exact ⟨c, hc, h.registry.registered hc⟩
  clientIds := h.registry.clientIds_iff
  distinct id c id' c' clientId hc hc' hx hx' := by
    have hown := (h.registry.clientIds_iff clientId id).mpr ⟨c, hc, hx⟩
    have hown' := (h.registry.clientIds_iff clientId id').mpr ⟨c', hc', hx'⟩
    rw [hown] at hown'
    exact Option.some.inj hown'
  gone id hc := by
    have hno : ∀ c, b.connection? id ≠ some c := fun c hc' => by
      rw [hc] at hc'
      cases hc'
    refine ⟨fun clientId hx => ?_, fun name s hs hid => ?_, fun hw => ?_, ?_⟩
    · obtain ⟨c, hc', _⟩ := (h.registry.clientIds_iff clientId id).mp hx
      exact hno c hc'
    · obtain ⟨c, hc', _⟩ := (h.registry.lists_iff name id).mp ⟨s, hs, hid⟩
      exact hno c hc'
    · exact not_mem_connections.mpr hc (h.watched id hw)
    · rw [h.displaced]
      exact nofun
  departed id := by
    rw [h.accounted, ← not_mem_connections]
    constructor
    · exact fun hd => ⟨.inr hd, h.apart id hd⟩
    · exact fun hl => hl.1.resolve_left hl.2
  ended id abnormal other := (h.tearDown id abnormal).2 other
  emptied id c hc := by
    cases hc' : b.registry.connections.get? id with
    | none =>
      unfold Registry.removeConnection at hc
      rw [hc'] at hc
      cases hc
    | some c' =>
      obtain ⟨rfl, _⟩ := h.registry.registered hc'
      rw [h.registry.removeConnection_eq hc'] at hc
      cases hc
      rfl

/-- **After every run the tables refer to one another and to nothing else**, if no number was given
to a connection twice. -/
theorem run_crossReferenced (settings : Settings) (clock : Timestamp) (events : List Event)
    (h : (acceptedBy events).Nodup) :
    ((Broker.new settings clock).run events).CrossReferenced (acceptedBy events) := by
  have hs := (sound_new settings clock).run (by rwa [List.append_nil])
  rw [List.append_nil] at hs
  exact hs.crossReferenced

/-- A message arrives from the other end of a connection. -/
def Event.sent (id : ConnectionId) (m : Message) : Event :=
  .change id fun s => s.feed ((Wire.encodeOwn m).toOption.getD [])

/-- A client joins a destination, another one is refused because it wants the same client id, and
once the first is cut off a third one has it. -/
def visit : List Event :=
  [.accept 1 {}, .sent 1 (.connect "ada"), .sent 1 (.subscribe "news"), .perform (.serve 1),
    .accept 2 {}, .sent 2 (.connect "ada"), .perform (.serve 2), .tearDown 1 true,
    .accept 3 {}, .sent 3 (.connect "ada"), .sent 3 (.subscribe "news"), .perform (.serve 3)]

theorem visit_crossReferenced : (acceptedBy visit).Nodup ∧
    ((Broker.new {} 0).run visit).CrossReferenced (acceptedBy visit) := by
  have h : (acceptedBy visit).Nodup := by decide
  exact ⟨h, run_crossReferenced {} 0 visit h⟩

end MessageBroker.Broker
