import MessageBroker.Proofs.Broker.Inlets

/-!
# What is left of a connection that was ended

A connection that is ended is closed and out of every table: nobody has its client id, its stream is
not watched, and it is a member of nothing but destinations whose lock somebody held meanwhile. The
last will that is published behind it changes nothing about that.

Headlines:
* **`Registry.Held.deliver`**: routing a message leaves every lock as it was.
* **`Broker.Roll.tornDown`**: what is left of a connection that is ended.
* **`Broker.Roll.serve_fates`**: a connection that is served is ended, or a task waits for it, or it
  is under watch with all read that was there.
-/

namespace MessageBroker

/-! ## Locks that are held -/

/-- A delivery gives back the lock that it takes. -/
theorem Subscription.lock_finish_of_begin {s s' : Subscription} {targets : List ConnectionId}
    (h : s.begin = .ok (targets, s')) : s'.finish.lock = s.lock := by
  obtain ⟨cursor, hs⟩ := exists_served_eq s
  unfold begin at h
  split at h
  · cases h
    change s.served.lock.enter.leave = s.lock
    rw [Lock.leave_enter, hs]
  · cases h

/-- **Routing a message leaves every lock as it was.** -/
theorem Registry.Held.deliver {r : Registry} {name : String} (h : r.Held name) (m : Message) :
    (r.deliver m).2.2.Held name := by
  unfold Registry.deliver
  split
  · exact h
  · rename_i destination _
    split
    · exact h
    · rename_i s hs
      split
      · exact h
      · rename_i targets held hb
        have hw := Subscription.attemptAll_rel Registry.Written.refl Registry.Written.trans
          (fun r id => r.written_deliverTo id m) s.name targets (r.putSubscription destination held)
        obtain ⟨s₀, hs₀, hl⟩ := h
        unfold Registry.Held Registry.finishDelivery Registry.subscription?
        dsimp only
        rw [hw.subscriptions, Table.get?_modify]
        by_cases e : name = destination
        · subst e
          obtain rfl := Option.some.inj (hs.symm.trans hs₀)
          rw [if_pos rfl, Registry.putSubscription, Table.get?_insert_self]
          refine ⟨held.finish, rfl, ?_⟩
          rw [Subscription.lock_finish_of_begin hb]
          exact hl
        · rw [if_neg e, Registry.putSubscription, Table.get?_insert_of_ne _ _ e]
          exact ⟨s₀, hs₀, hl⟩

namespace Broker

variable {accepted : List ConnectionId} {b b' : Broker} {c : Connection} {id : ConnectionId}

/-! ## Behind the end of a connection -/

/-- What has departed stays, and locks that are held stay so. -/
structure Upholds (b b' : Broker) : Prop where
  departed : b'.departed = b.departed
  held : ∀ ⦃name⦄, b.registry.Held name → b'.registry.Held name

theorem Upholds.refl (b : Broker) : b.Upholds b := ⟨rfl, fun _ h => h⟩

theorem upholds_publish (b : Broker) (m : Message) : b.Upholds (b.publish m).2 := by
  refine ⟨b.departed_publish m, fun name h => ?_⟩
  unfold publish
  split
  · exact h
  · have hd := h.deliver (stamped m b.nextId)
    dsimp only
    split
    · exact hd
    · split <;> exact hd

theorem upholds_conclude (b : Broker) (c : Connection) (abnormal : Bool) :
    b.Upholds (b.conclude c abnormal) := by
  have hwill : b.Upholds (b.publishWill c) := by
    unfold publishWill
    split
    · exact .refl b
    · rename_i will _
      have hp := b.upholds_publish will.toMessage
      split
      · rename_i he
        rwa [he] at hp
      · rename_i he
        rw [he] at hp
        exact ⟨hp.departed, hp.held⟩
  have hp : b.Upholds (if abnormal then b.publishWill c else b) := by
    split
    · exact hwill
    · exact .refl b
  unfold conclude
  dsimp only
  split
  · exact ⟨hp.departed, hp.held⟩
  · exact hp

/-- A connection is closed and out of every table, as far as nobody holds the lock of a
destination. -/
structure TornDown (b : Broker) (id : ConnectionId) : Prop where
  gone : b.connection? id = none
  closed : ∃ stream, b.departed.get? id = some stream ∧ stream.closed = true
  clientIds : ∀ clientId, b.registry.clientIds.get? clientId ≠ some id
  members : ∀ ⦃name⦄, b.registry.Lists name id → b.registry.Held name
  watched : id ∉ b.multiplexer.watched

/-- **What is left of a connection that is ended.** -/
theorem Roll.tornDown (h : Roll accepted b) (hc : b.connection? id = some c) (abnormal : Bool) :
    (b.tearDown id abnormal).TornDown id := by
  obtain ⟨rfl, -⟩ := h.registered hc
  have hdeparts := h.departs_tearDown hc abnormal
  have hroll := h.trail (h.trail_tearDown c.id abnormal)
  have hgone := h.gone hc
  rw [h.tearDown_eq hc] at hdeparts hroll ⊢
  have hsteady := steady_conclude (b.leave c) c.shut abnormal
  have hkeeps := upholds_conclude (b.leave c) c.shut abnormal
  refine ⟨hdeparts.gone, ⟨c.stream.close, ?_, rfl⟩, fun clientId hx => ?_, fun name hl => ?_, ?_⟩
  · rw [hkeeps.departed]
    exact Table.get?_insert_self _ _ _
  · obtain ⟨x, hx, -⟩ := (hroll.registry.clientIds_iff clientId c.id).mp hx
    exact absurd (hdeparts.gone.symm.trans hx) nofun
  · rcases hsteady.registry.lists hl with hl | hin
    · exact hkeeps.held ((hgone.lists hl).2 rfl)
    · rw [Table.mem_iff, hgone.connections, if_pos rfl] at hin
      cases hin
  · intro hw
    rw [← hdeparts.unwatched] at hw
    exact (not_mem_forget hw).1 rfl

/-- Whoever is ended has been torn down. -/
theorem Dismissed.tornDown (h : Dismissed accepted id b b') : b'.TornDown id := by
  cases h with
  | intro hs hr hc => exact hr.tornDown hc _

/-! ## What becomes of a connection that is served -/

/-- What follows a pass that was not the last one, where the connection goes on. -/
inductive Continues (b : Broker) (c : Connection) (more : Bool) : Broker → Prop
  /-- There may be more to read, and a task waits to read it. -/
  | queued {b' : Broker} (hm : more = true) (h : b.execute (.serve c.id) = .ok b') :
    Continues b c more b'
  /-- The stream is under watch again. -/
  | watched {multiplexer : Net.Multiplexer ConnectionId} (hm : more = false)
    (h : b.multiplexer.watch c.id c.stream.registers c.id .oneShot = .ok multiplexer) :
    Continues b c more { b with multiplexer }

/-- After a pass that was not the last one a connection goes on, or it is ended because it can
neither be queued nor be watched. -/
theorem Roll.goOn_cases (h : Roll accepted b) (hc : b.connection? c.id = some c)
    {pass : ReadPass} (hf : pass.isFinal = false) :
    Dismissed accepted c.id b (b.goOn c pass) ∨ b.Continues c pass.more (b.goOn c pass) := by
  obtain ⟨he, hend⟩ := Bool.or_eq_false_iff.mp hf
  rw [Option.isSome_eq_false_iff, Option.isNone_iff_eq_none] at he
  have hended : ∀ n abnormal, Dismissed accepted c.id b ((b.report n).tearDown c.id abnormal) :=
    fun n _ => .intro (b.sameDrive_report n) (h.steady (b.steady_report n)) hc
  unfold goOn
  rw [he, hend]
  dsimp only
  rw [if_neg Bool.false_ne_true]
  cases hm : pass.more with
  | true =>
    rw [if_pos rfl]
    cases hx : b.execute (.serve c.id) with
    | error e => exact .inl (hended _ _)
    | ok b' => exact .inr (.queued rfl hx)
  | false =>
    rw [if_neg Bool.false_ne_true]
    cases hw : b.multiplexer.watch c.id c.stream.registers c.id .oneShot with
    | error e => exact .inl (hended _ _)
    | ok multiplexer => exact .inr (.watched rfl hw)

/-- **What becomes of an open connection that is served:** it is ended, or it goes on with the inlet
that its pass has left. -/
theorem Roll.serve_fates (h : Roll accepted b) (hc : b.connection? c.id = some c)
    (ho : c.isClosed = false) :
    Dismissed accepted c.id (b.reading c) (b.serve c.id) ∨
      c.readPass.1.isFinal = false ∧ ∃ b' c', (b.reading c).SameDrive b' ∧
        (b.reading c).KeepsInlets b' ∧ b'.connection? c.id = some c' ∧ c'.id = c.id ∧
        c'.inlet = c.readPass.2.inlet ∧ b'.Continues c' c.readPass.1.more (b.serve c.id) := by
  have hread := h.steady (steady_reading hc)
  have hlive := b.connection?_reading c
  obtain ⟨-, hgone | ⟨hf, b', c', hh, hc', hserve⟩⟩ := h.serve_cases hc ho
  · exact .inl hgone
  · have hdrive := (hread.goesOn_handleAll hlive hh).1
    have hkeeps := hread.keepsInlets_handleAll c.id c.readPass.1.messages
    have hall := hread.trail (hread.trail_handleAll c.id c.readPass.1.messages)
    rw [hh] at hkeeps hall
    obtain ⟨hi, -⟩ := hall.registered hc'
    obtain ⟨x, hx, he⟩ := hkeeps hc'
    obtain rfl := Option.some.inj (hx.symm.trans hlive)
    rw [hserve]
    rcases hall.goOn_cases (c := c') (hi.symm ▸ hc') hf with hended | hgoes
    · rw [hi] at hended
      exact .inl (hdrive.dismissed hended)
    · exact .inr ⟨hf, b', c', hdrive, hkeeps, hc', hi, he, hgoes⟩

end Broker

end MessageBroker
