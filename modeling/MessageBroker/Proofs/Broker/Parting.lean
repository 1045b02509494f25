import MessageBroker.Proofs.Broker.Reach
import MessageBroker.Proofs.Subscription.Rotation

/-!
# A connection parts

A connection that is ended without its last will goes out of everything it was in: its stream is
closed, its number, its watch and its client id are free, and no destination lists it. Nothing else
has changed, down to the order in which the others will be served. So it makes no difference which
of two connections goes first, but for the order in which that is reported.

Headlines:
* **`Broker.tearDown_eq`**: what is left of a broker.
* **`Broker.without_comm`**: which of two connections goes first makes no difference.
* **`Broker.Reached.parting`**: what a connection takes with it, in every state that a broker comes
  to.
-/

namespace MessageBroker

/-- A subscription has lost a member, and the others are in their order. -/
structure Subscription.Loses (s : Subscription) (id : ConnectionId) (s' : Subscription) : Prop where
  name : s'.name = s.name
  type : s'.type = s.type
  qos : s'.qos = s.qos
  lockTimeout : s'.lockTimeout = s.lockTimeout
  lock : s'.lock = s.lock
  members : s'.members = s.members.filter (· != id)
  rotation : s'.rotation = s.rotation.filter (· != id)

theorem Subscription.loses_without {s : Subscription} (h : s.members.Nodup) (id : ConnectionId) :
    s.Loses id (s.without id) := by
  have hm : (s.without id).members = s.members.filter (· != id) := by
    rw [members_without, h.erase_eq_filter]
  have hr : (s.without id).rotation = s.rotation.filter (· != id) := by
    rw [rotation_without h, (nodup_rotation h).erase_eq_filter]
  obtain ⟨cursor, hs⟩ := exists_without_eq s id
  rw [hs] at hm hr ⊢
  exact ⟨rfl, rfl, rfl, rfl, rfl, hm, hr⟩

namespace Registry

variable {r : Registry}

theorem subscription?_forgetting (r : Registry) (c : Connection) (name : String) :
    (r.forgetting c).subscription? name = (r.subscription? name).map (·.without c.id) :=
  Table.get?_mapValues _ _ _

/-- Which of two connections is forgotten first makes no difference. -/
theorem Coherent.forgetting_comm (h : r.Coherent) {c c' : Connection}
    (hc : r.connections.get? c.id = some c) (hc' : r.connections.get? c'.id = some c')
    (hne : c.id ≠ c'.id) : (r.forgetting c).forgetting c' = (r.forgetting c').forgetting c := by
  have hleft : (r.forgetting c).connections.get? c'.id = some c' := by
    rw [get?_forgetting, if_neg (Ne.symm hne), hc']
  have hright : (r.forgetting c').connections.get? c.id = some c := by
    rw [get?_forgetting, if_neg hne, hc]
  have hids : ((r.forgetting c).forgetting c').clientIds =
      ((r.forgetting c').forgetting c).clientIds :=
    Table.ext fun clientId => Option.ext fun id => by
      rw [clientIds_forgetting (h.forgetting hc) hleft, clientIds_forgetting h hc,
        clientIds_forgetting (h.forgetting hc') hright, clientIds_forgetting h hc']
      exact and_left_comm
  have hsubs : ((r.forgetting c).forgetting c').subscriptions =
      ((r.forgetting c').forgetting c).subscriptions :=
    Table.ext fun name => by
      change ((r.forgetting c).forgetting c').subscription? name =
        ((r.forgetting c').forgetting c).subscription? name
      simp only [subscription?_forgetting, Option.map_map]
      exact Option.map_congr fun s _ => s.without_comm c.id c'.id
  have hcons : ((r.forgetting c).forgetting c').connections =
      ((r.forgetting c').forgetting c).connections := Table.erase_comm _ _ _
  have hall : ∀ r₁ r₂ : Registry, r₁.lockTimeout = r₂.lockTimeout →
      r₁.connections = r₂.connections → r₁.subscriptions = r₂.subscriptions →
      r₁.clientIds = r₂.clientIds → r₁ = r₂ := by
    rintro ⟨_, _, _, _⟩ ⟨_, _, _, _⟩ rfl rfl rfl rfl
    rfl
  exact hall _ _ rfl hcons hsubs hids

end Registry

namespace Broker

variable {accepted : List ConnectionId} {b : Broker} {c c' : Connection}

/-! ## What is left -/

/-- What is reported of a connection that parts. -/
def partingNotices (c : Connection) : List Notice :=
  if c.isConnected then [.disconnected c.name] else []

/-- **What is left of a broker** when a connection is ended without its last will. -/
theorem tearDown_eq (h : b.registry.Coherent) {id : ConnectionId} (hc : b.connection? id = some c) :
    b.tearDown id false = { b.without c with notices := b.notices ++ partingNotices c } := by
  rw [tearDown_of_live h hc]
  unfold conclude partingNotices
  have hin : Connection.isConnected { c with closed := true, stream := c.stream.close } =
      c.isConnected := rfl
  simp only [Bool.false_eq_true, if_false, hin]
  split
  · rename_i hyes
    -- Who has logged in is named by the client id, which does not depend on the stream.
    obtain ⟨clientId, hid⟩ := Option.isSome_iff_exists.mp hyes
    have hname : Connection.name { c with closed := true, stream := c.stream.close } = c.name := by
      unfold Connection.name
      rw [hid]
    rw [hname]
    rfl
  · rw [List.append_nil]
    rfl

theorem connection?_without (b : Broker) (c : Connection) (other : ConnectionId) :
    (b.without c).connection? other = if other = c.id then none else b.connection? other :=
  b.registry.get?_forgetting c other

/-- **Which of two connections goes first makes no difference.** -/
theorem without_comm (h : b.registry.Coherent) (hc : b.connection? c.id = some c)
    (hc' : b.connection? c'.id = some c') (hne : c.id ≠ c'.id) :
    (b.without c).without c' = (b.without c').without c := by
  unfold without Net.Multiplexer.forget
  dsimp only
  rw [h.forgetting_comm hc hc' hne, Table.insert_comm _ hne, Table.erase_comm b.multiplexer.watched,
    Table.erase_comm b.multiplexer.pending]

/-! ## What a connection takes with it -/

/-- A connection has parted from a broker. -/
structure Parted (b : Broker) (id : ConnectionId) (b' : Broker) : Prop where
  closed : ∀ ⦃c⦄, b.connection? id = some c → b'.departed.get? id = some c.stream.close
  /-- It is registered no more, and all the others are as they were: their sessions, their
  destinations, their streams and what was written to these. -/
  connections : ∀ other, b'.connection? other = if other = id then none else b.connection? other
  watched : ∀ other, b'.multiplexer.watched.get? other =
    if other = id then none else b.multiplexer.watched.get? other
  clientIds : ∀ clientId other, b'.registry.clientIds.get? clientId = some other ↔
    other ≠ id ∧ b.registry.clientIds.get? clientId = some other
  /-- No destination is dropped, or comes into being. -/
  destinations : ∀ name, name ∈ b'.registry.subscriptions ↔ name ∈ b.registry.subscriptions
  /-- It is a member of none of them, and the other members are in their order. -/
  members : ∀ ⦃name s s'⦄, b.registry.subscription? name = some s →
    b'.registry.subscription? name = some s' → s.Loses id s'
  store : b'.store = b.store
  nextId : b'.nextId = b.nextId
  departed : ∀ other, other ≠ id → b'.departed.get? other = b.departed.get? other
  settings : b'.settings = b.settings
  lockTimeout : b'.registry.lockTimeout = b.registry.lockTimeout
  pending : ∀ other, other ≠ id →
    b'.multiplexer.pending.get? other = b.multiplexer.pending.get? other
  stopped : b'.multiplexer.stopped = b.multiplexer.stopped
  tasks : b'.tasks = b.tasks
  poolStopped : b'.poolStopped = b.poolStopped
  displaced : b'.displaced = b.displaced
  halts : b'.halts = b.halts
  clock : b'.clock = b.clock

/-- One state is the other, but for the order of what was reported. -/
structure Same (b b' : Broker) : Prop where
  state : { b with notices := b'.notices } = b'
  notices : b.notices.Perm b'.notices

theorem Same.refl (b : Broker) : b.Same b := ⟨rfl, .refl _⟩

/-- What ending a connection without its last will comes to. -/
structure Parting (b : Broker) (id : ConnectionId) : Prop where
  parted : b.Parted id (b.tearDown id false)
  /-- It ends once. -/
  once : ∀ abnormal abnormal' : Bool,
    (b.tearDown id abnormal).tearDown id abnormal' = b.tearDown id abnormal
  /-- It makes no difference whether another one goes before it. -/
  commutes : ∀ other, ((b.tearDown id false).tearDown other false).Same
    ((b.tearDown other false).tearDown id false)

theorem Sound.parted_without (h : Sound accepted b) (hc : b.connection? c.id = some c)
    (notices : List Notice) : b.Parted c.id { b.without c with notices } where
  closed c' hc' := by
    rw [hc] at hc'
    cases hc'
    exact Table.get?_insert_self _ _ _
  connections := b.connection?_without c
  watched _ := Table.get?_erase _ _ _
  clientIds _ _ := Registry.clientIds_forgetting h.registry hc
  destinations name := by
    have hs := b.registry.subscription?_forgetting c name
    have hmem : name ∈ (b.registry.forgetting c).subscriptions ↔
        ((b.registry.forgetting c).subscription? name).isSome = true := Iff.rfl
    exact hmem.trans (by rw [hs, Option.isSome_map]; rfl)
  members name s s' hs hs' := by
    have hall : (b.registry.forgetting c).subscription? name = some s' := hs'
    rw [Registry.subscription?_forgetting, hs] at hall
    cases hall
    exact Subscription.loses_without (h.registry.atRest hs).nodup c.id
  store := rfl
  nextId := rfl
  departed _ hne := Table.get?_insert_of_ne _ _ hne
  settings := rfl
  lockTimeout := rfl
  pending _ hne := Table.get?_erase_of_ne _ hne
  stopped := rfl
  tasks := rfl
  poolStopped := rfl
  displaced := rfl
  halts := rfl
  clock := rfl

/-- Of a connection that has gone there is nothing left to take. -/
theorem Sound.parted_of_gone (h : Sound accepted b) {id : ConnectionId}
    (hc : b.connection? id = none) : b.Parted id b := by
  obtain ⟨hids, hmembers, hwatched, -⟩ := h.crossReferenced.gone hc
  refine ⟨?_, fun other => ?_, fun other => ?_, fun clientId other => ?_, fun _ => Iff.rfl, ?_,
    rfl, rfl, fun _ _ => rfl, rfl, rfl, fun _ _ => rfl, rfl, rfl, rfl, rfl, rfl, rfl⟩
  · intro c hc'
    rw [hc] at hc'
    cases hc'
  · split
    · rename_i e
      rw [e, hc]
    · rfl
  · split
    · rename_i e
      rw [e, Option.eq_none_iff_forall_ne_some]
      exact fun w hw => hwatched (Table.mem_of_get? hw)
    · rfl
  · refine ⟨fun hx => ⟨?_, hx⟩, And.right⟩
    rintro rfl
    exact hids clientId hx
  · intro name s s' hs hs'
    rw [hs] at hs'
    cases hs'
    have := Subscription.loses_without (h.registry.atRest hs).nodup id
    rwa [Subscription.without_of_not_mem (hmembers hs)] at this

theorem Sound.parted (h : Sound accepted b) (id : ConnectionId) :
    b.Parted id (b.tearDown id false) := by
  cases hc : b.connection? id with
  | none =>
    rw [tearDown_of_gone h.displaced hc]
    exact h.parted_of_gone hc
  | some c =>
    obtain ⟨rfl, -⟩ := h.registry.registered hc
    rw [tearDown_eq h.registry hc]
    exact h.parted_without hc _

theorem Sound.tearDown_tearDown (h : Sound accepted b) (id : ConnectionId)
    (abnormal abnormal' : Bool) :
    (b.tearDown id abnormal).tearDown id abnormal' = b.tearDown id abnormal := by
  obtain ⟨hs, hlive⟩ := h.tearDown id abnormal
  have hgone := not_mem_connections.mp fun hid => ((hlive id).mp hid).1 rfl
  exact tearDown_of_gone hs.displaced hgone _

/-- **Which of two connections is ended first makes no difference,** but for the order in which that
is reported. -/
theorem Sound.tearDown_comm (h : Sound accepted b) (id other : ConnectionId) :
    ((b.tearDown id false).tearDown other false).Same
      ((b.tearDown other false).tearDown id false) := by
  by_cases hne : id = other
  · rw [hne]
    exact .refl _
  obtain ⟨hs, -⟩ := h.tearDown id false
  obtain ⟨hs', -⟩ := h.tearDown other false
  have hafter : (b.tearDown id false).connection? other = b.connection? other :=
    ((h.parted id).connections other).trans (if_neg (Ne.symm hne))
  have hafter' : (b.tearDown other false).connection? id = b.connection? id :=
    ((h.parted other).connections id).trans (if_neg hne)
  cases hc : b.connection? id with
  | none =>
    rw [tearDown_of_gone hs'.displaced (hafter'.trans hc), tearDown_of_gone h.displaced hc]
    exact .refl _
  | some c =>
    cases hc' : b.connection? other with
    | none =>
      rw [tearDown_of_gone hs.displaced (hafter.trans hc'), tearDown_of_gone h.displaced hc']
      exact .refl _
    | some c' =>
      obtain ⟨rfl, -⟩ := h.registry.registered hc
      obtain ⟨rfl, -⟩ := h.registry.registered hc'
      rw [tearDown_eq hs.registry (hafter.trans hc'), tearDown_eq hs'.registry (hafter'.trans hc),
        tearDown_eq h.registry hc, tearDown_eq h.registry hc']
      have hcomm := without_comm h.registry hc hc' hne
      refine ⟨?_, ?_⟩
      · exact congrArg (fun b' : Broker => { b' with
          notices := b.notices ++ partingNotices c' ++ partingNotices c }) hcomm
      · simp only [List.append_assoc]
        exact List.perm_append_comm.append_left _

/-- **What a connection takes with it,** in every state that a broker comes to. -/
theorem Reached.parting (h : Reached accepted b) (id : ConnectionId) : b.Parting id where
  parted := h.sound.parted id
  once := h.sound.tearDown_tearDown id
  commutes := h.sound.tearDown_comm id

/-- Three clients share a queue, and the second one is next. -/
def threeShareQueue : List Event :=
  [.accept 1 {}, .sent 1 (.connect "ada"), .sent 1 ((Message.subscribe "work, news").withHeader
      Header.destinationType.name "queue"), .perform (.serve 1),
    .accept 2 {}, .sent 2 (.connect "bob"), .sent 2 (.subscribe "work"), .perform (.serve 2),
    .accept 3 {}, .sent 3 (.connect "eve"), .sent 3 (.subscribe "work"), .perform (.serve 3),
    .publish (.publish "work" [])]

theorem threeShareQueue_parting : Reached [3, 2, 1] ((Broker.new {} 0).run threeShareQueue) ∧
    ((Broker.new {} 0).run threeShareQueue).Parting 2 := by
  have h : Reached [3, 2, 1] ((Broker.new {} 0).run threeShareQueue) :=
    @Reached.run [] _ (.start {} 0) threeShareQueue (by decide)
  exact ⟨h, h.parting 2⟩

end Broker

end MessageBroker
