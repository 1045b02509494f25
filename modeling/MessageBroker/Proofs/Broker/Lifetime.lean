import MessageBroker.Proofs.Broker.Keeping

/-!
# The life of a connection

Every connection that was ever accepted is live or has departed. One that has departed is known to
no table, belongs to nothing and is not watched, whichever way it ended.

Headlines:
* **`Broker.Sound`**: the tables agree, and every accepted connection is live or has departed.
* **`Broker.Sound.tearDown`**, **`Broker.Sound.accept`**, **`Broker.Sound.perform`**: it stays so.
-/

namespace MessageBroker.Broker

/-- The tables agree, and of the connections `accepted` each is either live or has departed. -/
structure Sound (accepted : List ConnectionId) (b : Broker) : Prop where
  registry : b.registry.Coherent
  accounted : ∀ id, id ∈ accepted ↔ id ∈ b.registry.connections ∨ id ∈ b.departed
  apart : ∀ id, id ∈ b.departed → id ∉ b.registry.connections
  watched : ∀ id, id ∈ b.multiplexer.watched → id ∈ b.registry.connections
  displaced : b.displaced = ∅

variable {accepted : List ConnectionId} {b b' : Broker}

theorem Sound.keeps (h : Sound accepted b) (hk : b.Keeps b') : Sound accepted b' := by
  obtain ⟨hr, hl⟩ := hk.registry h.registry
  refine ⟨hr, fun id => ?_, fun id hid => ?_, fun id hid => ?_, hk.displaced.trans h.displaced⟩
  · rw [h.accounted, hl, hk.departed]
  · rw [hl]
    exact h.apart id ((hk.departed id).mp hid)
  · rw [hl]
    exact h.watched id (hk.watched id hid)

theorem sound_new (settings : Settings) (clock : Timestamp) :
    Sound [] (Broker.new settings clock) where
  registry := Registry.coherent_empty _
  accounted id := by simp [Broker.new, Table.mem_iff]
  apart id hid := by cases hid
  watched id hid := by cases hid
  displaced := rfl

/-! ## Ending a connection -/

/-- A connection that is withdrawn is forgotten, whatever became of its stream before. -/
theorem withdraw_put (h : b.registry.Coherent) {c c' : Connection}
    (hc : b.connection? c.id = some c) (hi : c'.id = c.id) (hs : c'.session = c.session)
    (hd : c'.destinations = c.destinations) :
    (b.putConnection c').withdraw c' = { b with
      multiplexer := b.multiplexer.forget c.id
      registry := b.registry.forgetting c
      departed := b.departed.insert c.id c'.stream } := by
  have hm : ∀ ⦃name s⦄, b.registry.subscription? name = some s → c'.id ∈ s.members →
      name ∈ c'.destinations := by
    intro name s hs hid
    rw [hi] at hid
    rw [hd]
    exact h.mem_destinations hc hs hid
  have he := @Registry.removeConnection_eq
    { b.registry with connections := b.registry.connections.insert c'.id c' } h.atRest c'
    (Table.get?_insert_self _ _ _) hm
  have hf := b.registry.forgetting_insert hi hs
  rw [← hi] at hf
  unfold withdraw putConnection
  simp only [he, hf]
  unfold withRegistry
  simp only [List.append_nil, hi]

theorem not_mem_forget {m : Net.Multiplexer ConnectionId} {id other : ConnectionId}
    (h : other ∈ (m.forget id).watched) : other ≠ id ∧ other ∈ m.watched := by
  unfold Net.Multiplexer.forget at h
  rw [Table.mem_iff, Table.get?_erase] at h
  split at h
  · cases h
  · rename_i hne
    exact ⟨hne, h⟩

theorem mem_forgetting {r : Registry} {c : Connection} {id : ConnectionId} :
    id ∈ (r.forgetting c).connections ↔ id ≠ c.id ∧ id ∈ r.connections := by
  rw [Table.mem_iff, Registry.get?_forgetting]
  by_cases e : id = c.id
  · simp [e]
  · simp [e, Table.mem_iff]

/-- A connection that was forgotten has departed. -/
theorem Sound.forgetting (h : Sound accepted b) {c : Connection} {stream : Net.Stream}
    (hc : b.connection? c.id = some c) (hr : b'.registry = b.registry.forgetting c)
    (hd : b'.departed = b.departed.insert c.id stream)
    (hw : ∀ id, id ∈ b'.multiplexer.watched → id ≠ c.id ∧ id ∈ b.multiplexer.watched)
    (hx : b'.displaced = b.displaced) : Sound accepted b' := by
  have hid : c.id ∈ b.registry.connections := Option.isSome_iff_exists.mpr ⟨c, hc⟩
  have hdep : ∀ id, id ∈ b'.departed ↔ id = c.id ∨ id ∈ b.departed := by
    intro id
    rw [hd, Table.mem_iff, Table.get?_insert]
    by_cases e : id = c.id
    · simp [e]
    · simp [e, Table.mem_iff]
  refine ⟨hr ▸ h.registry.forgetting hc, fun id => ?_, fun id hd => ?_, fun id hid => ?_,
    hx.trans h.displaced⟩
  · rw [hr, mem_forgetting, hdep, h.accounted]
    by_cases e : id = c.id
    · subst e
      simp [hid]
    · simp [e]
  · rw [hr, mem_forgetting]
    rintro ⟨hne, hl⟩
    exact h.apart id (((hdep id).mp hd).resolve_left hne) hl
  · rw [hr, mem_forgetting]
    exact (hw id hid).imp_right (h.watched id)

/-- What is left of a broker when a connection goes, before its last will is published. -/
def without (b : Broker) (c : Connection) : Broker :=
  { b with
    multiplexer := b.multiplexer.forget c.id
    registry := b.registry.forgetting c
    departed := b.departed.insert c.id c.stream.close }

theorem tearDown_of_live (h : b.registry.Coherent) {id : ConnectionId} {c : Connection}
    (hc : b.connection? id = some c) (abnormal : Bool) :
    b.tearDown id abnormal =
      (b.without c).conclude { c with closed := true, stream := c.stream.close } abnormal := by
  obtain ⟨rfl, ho⟩ := h.registered hc
  have hw := @withdraw_put b h c { c with closed := true, stream := c.stream.close } hc rfl rfl rfl
  unfold tearDown
  rw [hc]
  simp only [Connection.close, ho, Bool.false_eq_true, if_false]
  rw [hw]
  rfl

theorem tearDown_of_gone (hx : b.displaced = ∅) {id : ConnectionId} (hc : b.connection? id = none)
    (abnormal : Bool) : b.tearDown id abnormal = b := by
  unfold tearDown
  rw [hc]
  simp only
  unfold dismiss
  rw [hx]
  rfl

theorem not_mem_connections {id : ConnectionId} :
    id ∉ b.registry.connections ↔ b.connection? id = none := by
  rw [Table.mem_iff, Bool.not_eq_true, Option.isSome_eq_false_iff, Option.isNone_iff_eq_none]
  rfl

/-- **Ending a connection** leaves nothing of it, and the others alone. -/
theorem Sound.tearDown (h : Sound accepted b) (id : ConnectionId) (abnormal : Bool) :
    Sound accepted (b.tearDown id abnormal) ∧
      ∀ other, other ∈ (b.tearDown id abnormal).registry.connections ↔
        other ≠ id ∧ other ∈ b.registry.connections := by
  cases hc : b.connection? id with
  | none =>
    rw [tearDown_of_gone h.displaced hc]
    refine ⟨h, fun other => ⟨fun ho => ⟨?_, ho⟩, fun ho => ho.2⟩⟩
    rintro rfl
    exact not_mem_connections.mpr hc ho
  | some c =>
    rw [tearDown_of_live h.registry hc]
    obtain ⟨rfl, _⟩ := h.registry.registered hc
    have hf : Sound accepted (b.without c) :=
      h.forgetting hc rfl rfl (fun _ hw => not_mem_forget hw) rfl
    have hk := (b.without c).keeps_conclude
      { c with closed := true, stream := c.stream.close } abnormal
    refine ⟨hf.keeps hk, fun other => ?_⟩
    rw [(hk.registry hf.registry).2]
    exact mem_forgetting

/-! ## Taking up a connection -/

/-- A live connection may be watched. -/
theorem Sound.watch (h : Sound accepted b) {id : ConnectionId} (hid : id ∈ b.registry.connections)
    {registers : Except IoFailure Unit} {data : ConnectionId} {trigger : Net.Trigger}
    {multiplexer : Net.Multiplexer ConnectionId}
    (hm : b.multiplexer.watch id registers data trigger = .ok multiplexer) :
    Sound accepted { b with multiplexer } := by
  refine ⟨h.registry, h.accounted, h.apart, fun other hw => ?_, h.displaced⟩
  unfold Net.Multiplexer.watch at hm
  split at hm
  · cases hm
  · split at hm
    · cases hm
    · cases hm
      rw [Table.mem_iff, Table.get?_insert] at hw
      split at hw
      · rename_i e
        exact e ▸ hid
      · exact h.watched other hw

theorem mem_addConnection {r : Registry} {c : Connection} {id : ConnectionId} :
    id ∈ (r.addConnection c).connections ↔ id = c.id ∨ id ∈ r.connections := by
  rw [Table.mem_iff, Registry.get?_addConnection]
  by_cases e : id = c.id
  · simp [e]
  · simp [e, Table.mem_iff]

/-- A connection that was never accepted before is taken up. -/
theorem Sound.addConnection (h : Sound accepted b) {c : Connection} (hid : c.id ∉ accepted)
    (hd : c.destinations = ∅) (hs : c.session.clientId = none) (ho : c.closed = false)
    (hr : b'.registry = b.registry.addConnection c) (hdep : b'.departed = b.departed)
    (hm : b'.multiplexer = b.multiplexer) (hx : b'.displaced = b.displaced) :
    Sound (c.id :: accepted) b' := by
  have hlive : c.id ∉ b.registry.connections := fun hl => hid ((h.accounted c.id).mpr (.inl hl))
  refine ⟨hr ▸ h.registry.addConnection hlive hd hs ho, fun id => ?_, fun id hgone => ?_,
    fun id hw => ?_, hx.trans h.displaced⟩
  · rw [List.mem_cons, h.accounted, hr, mem_addConnection, hdep, or_assoc]
  · rw [hdep] at hgone
    rw [hr, mem_addConnection]
    rintro (rfl | hl)
    · exact hid ((h.accounted _).mpr (.inr hgone))
    · exact h.apart id hgone hl
  · rw [hm] at hw
    rw [hr, mem_addConnection]
    exact .inr (h.watched id hw)

/-- **Accepting a stream** under a number of its own. -/
theorem Sound.accept (h : Sound accepted b) {id : ConnectionId} (hid : id ∉ accepted)
    (stream : Net.Stream) : Sound (id :: accepted) (b.accept id stream).2 := by
  have hlive : id ∉ b.registry.connections := fun hl => hid ((h.accounted id).mpr (.inl hl))
  have hdep : id ∉ b.departed := fun hd => hid ((h.accounted id).mpr (.inr hd))
  have hx : b.displace id = b := by
    unfold displace
    rw [not_mem_connections.mp hlive]
  unfold Broker.accept
  rw [hx]
  generalize hcon : Connection.new id stream b.settings.listener.maxPacketSize.toWord32 = c
  have hci : c.id = id := by
    rw [← hcon]
    rfl
  subst hci
  have hadd : Sound (c.id :: accepted) { b with
      registry := b.registry.addConnection c
      departed := b.departed.erase c.id
      halts := b.halts.erase c.id } := by
    refine h.addConnection hid ?_ ?_ ?_ rfl (Table.erase_of_not_mem hdep) rfl rfl
    all_goals
      rw [← hcon]
      rfl
  dsimp only
  split
  · rename_i multiplexer hm
    have hw := hadd.watch (mem_addConnection.mpr (.inl rfl)) hm
    refine ⟨hw.registry, hw.accounted, hw.apart, hw.watched, ?_⟩
    simp only
    rw [h.displaced]
    rfl
  · have hc : (b.registry.addConnection c).connections.get? c.id = some c :=
      Table.get?_insert_self _ _ _
    rw [hadd.registry.removeConnection_eq hc]
    refine hadd.forgetting hc rfl rfl (fun other hw => ⟨?_, hw⟩) rfl
    rintro rfl
    exact hlive (h.watched _ hw)

/-! ## Serving a connection -/

theorem Sound.handleAll (h : Sound accepted b) (id : ConnectionId) (ms : List Message) :
    Sound accepted (handleAll id ms b).2 := by
  induction ms generalizing b with
  | nil => exact h
  | cons m ms ih =>
    unfold Broker.handleAll
    split
    · exact h
    · rename_i c hc
      have hci : c.id = id := (h.registry.registered hc).1
      have hk := h.keeps (keeps_handle (hci.symm ▸ hc) m)
      split
      · rename_i he
        rw [he] at hk
        exact ih hk
      · rename_i he
        rw [he] at hk
        exact (hk.tearDown id false).1
      · rename_i he
        rw [he] at hk
        dsimp only
        split
        · exact ((hk.keeps (keeps_report _ _)).tearDown id true).1
        · exact ih (hk.keeps (keeps_report _ _))

theorem keeps_stopEvents (b : Broker) : b.Keeps b.stopEvents := by
  refine ⟨.refl _, fun id hid => ?_, fun _ => Iff.rfl, rfl⟩
  unfold stopEvents Net.Multiplexer.stop at hid
  simp only at hid
  split at hid
  · exact hid
  · cases hid

theorem registry_applyHalt (b : Broker) (id : ConnectionId) :
    (b.applyHalt id).registry = b.registry := by
  unfold applyHalt
  split
  · rfl
  · rename_i halt _
    cases halt.events <;> cases halt.pool <;> rfl

theorem keeps_applyHalt (b : Broker) (id : ConnectionId) : b.Keeps (b.applyHalt id) := by
  unfold applyHalt
  split
  · exact .refl b
  · rename_i halt _
    have hk : b.Keeps { b with halts := b.halts.erase id } :=
      keeps_of_registry (.refl _) rfl rfl rfl
    have hs := hk.trans (keeps_stopEvents _)
    cases halt.events <;> cases halt.pool
    · exact hk
    · exact ⟨hk.registry, hk.watched, hk.departed, hk.displaced⟩
    · exact hs
    · exact ⟨hs.registry, hs.watched, hs.departed, hs.displaced⟩

theorem keeps_execute {t : Task} (h : b.execute t = .ok b') : b.Keeps b' := by
  unfold execute at h
  split at h
  · cases h
  · cases h
    exact keeps_of_registry (.refl _) rfl rfl rfl

theorem Sound.goOn (h : Sound accepted b) {c : Connection} (hc : c.id ∈ b.registry.connections)
    (pass : ReadPass) : Sound accepted (b.goOn c pass) := by
  unfold Broker.goOn
  split
  · exact ((h.keeps (keeps_report _ _)).tearDown c.id true).1
  · split
    · exact (h.tearDown c.id true).1
    · split
      · split
        · rename_i he
          exact h.keeps (keeps_execute he)
        · exact ((h.keeps (keeps_report _ _)).tearDown c.id _).1
      · split
        · rename_i hm
          exact h.watch hc hm
        · exact ((h.keeps (keeps_report _ _)).tearDown c.id _).1

theorem Sound.serve (h : Sound accepted b) (id : ConnectionId) : Sound accepted (b.serve id) := by
  unfold Broker.serve
  split
  · exact h
  · rename_i c hc
    split
    · exact h
    · have hc' : (b.applyHalt id).connection? id = some c := by
        unfold connection?
        rwa [registry_applyHalt]
      have hread := (h.keeps (b.keeps_applyHalt id)).keeps
        (keeps_putConnection hc' c.standing_readPass)
      have hall := hread.handleAll id c.readPass.1.messages
      dsimp only
      split
      · split
        · exact hall
        · rename_i c' hc''
          have hci := (hall.registry.registered hc'').1
          refine hall.goOn ?_ _
          rw [hci]
          exact Option.isSome_iff_exists.mpr ⟨c', hc''⟩
      · exact hall

/-- **Performing a task.** -/
theorem Sound.perform (h : Sound accepted b) (t : Task) : Sound accepted (b.perform t) := by
  cases t with
  | serve id => exact h.serve id
  | abort id => exact (h.tearDown id true).1

end MessageBroker.Broker
