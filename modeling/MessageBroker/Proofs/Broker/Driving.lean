import MessageBroker.Proofs.Broker.Endings

/-!
# What drives a broker

What a broker does next depends on the tasks that wait, on whether there are workers and watches,
and on what is under watch. Handling a frame touches none of it. With the end of a connection its
watch is let go, and that is all.

Headlines:
* **`Broker.SameDrive`**: nothing of this changes; **`Broker.sameDrive_handle`**: so it is when
  a frame is handled.
* **`Broker.Departs`**: a connection goes, and its watch with it;
  **`Broker.Roll.departs_tearDown`**: so it is with a connection that is ended.
* **`Broker.Roll.dismissed_of_handleAll`**: a connection that does not go on after its frames is
  ended.
* **`Broker.Roll.goesOn_handleAll`**: nothing of this changes while frames are handled and the
  connection goes on.
-/

namespace MessageBroker.Broker

/-- What drives a broker is the same. -/
structure SameDrive (b b' : Broker) : Prop where
  tasks : b'.tasks = b.tasks
  poolStopped : b'.poolStopped = b.poolStopped
  halts : b'.halts = b.halts
  multiplexer : b'.multiplexer = b.multiplexer

variable {accepted : List ConnectionId} {b b' b'' : Broker} {c : Connection}

namespace SameDrive

theorem refl (b : Broker) : b.SameDrive b := ⟨rfl, rfl, rfl, rfl⟩

theorem trans (h : b.SameDrive b') (h' : b'.SameDrive b'') : b.SameDrive b'' where
  tasks := h'.tasks.trans h.tasks
  poolStopped := h'.poolStopped.trans h.poolStopped
  halts := h'.halts.trans h.halts
  multiplexer := h'.multiplexer.trans h.multiplexer

end SameDrive

/-! ## What clients ask for -/

theorem sameDrive_report (b : Broker) (n : Notice) : b.SameDrive (b.report n) :=
  ⟨rfl, rfl, rfl, rfl⟩

theorem sameDrive_publish (b : Broker) (m : Message) : b.SameDrive (b.publish m).2 := by
  unfold publish
  split
  · exact .refl b
  · dsimp only
    split
    · exact ⟨rfl, rfl, rfl, rfl⟩
    · split <;> exact ⟨rfl, rfl, rfl, rfl⟩

theorem sameDrive_connect (b : Broker) (c : Connection) (m : Message) :
    b.SameDrive (b.connect c m).2 := by
  unfold connect
  split
  · exact .refl b
  · split
    · dsimp only
      split
      · exact .refl b
      · exact ⟨rfl, rfl, rfl, rfl⟩
    · exact b.sameDrive_report _

theorem sameDrive_joinAll (id : ConnectionId) (type : DestinationType) (qos : QoS)
    (names : List String) (b : Broker) : b.SameDrive (joinAll id type qos names b).2 := by
  induction names generalizing b with
  | nil => exact .refl b
  | cons name names ih =>
    have hb : ∀ notices registry, b.SameDrive (b.withRegistry notices registry) := fun _ _ =>
      ⟨rfl, rfl, rfl, rfl⟩
    unfold joinAll
    split
    · exact (hb _ _).trans (ih _)
    · exact hb _ _

theorem sameDrive_subscribe (b : Broker) (c : Connection) (m : Message) :
    b.SameDrive (b.subscribe c m).2 := by
  unfold subscribe
  split
  · exact .refl b
  · split
    · exact .refl b
    · exact .refl b
    · exact sameDrive_joinAll ..

theorem sameDrive_leaveAll (id : ConnectionId) (names : List String) (b : Broker) :
    b.SameDrive (leaveAll id names b).2 := by
  induction names generalizing b with
  | nil => exact .refl b
  | cons name names ih =>
    have hb : ∀ registry, b.SameDrive { b with registry } := fun _ => ⟨rfl, rfl, rfl, rfl⟩
    unfold leaveAll
    split
    · exact (hb _).trans (ih _)
    · exact hb _

theorem sameDrive_acknowledge (b : Broker) (c : Connection) (m : Message) :
    b.SameDrive (b.acknowledge c m) := by
  unfold acknowledge
  split <;> exact ⟨rfl, rfl, rfl, rfl⟩

theorem sameDrive_reply (b : Broker) (id : ConnectionId) (t : MessageType) :
    b.SameDrive (b.reply id t).2 := by
  unfold reply
  split
  · exact .refl b
  · split
    · split
      · exact .refl b
      · exact ⟨rfl, rfl, rfl, rfl⟩
    · exact .refl b

theorem sameDrive_carryOut (b : Broker) (c : Connection) (m : Message) :
    b.SameDrive (b.carryOut c m).2 := by
  unfold carryOut
  dsimp only
  split
  · exact .refl b
  · split
    · exact b.sameDrive_connect c m
    · exact b.sameDrive_subscribe c m
    · exact sameDrive_leaveAll ..
    · exact b.sameDrive_publish m
    · exact b.sameDrive_acknowledge c m
    · exact .refl b
    · exact .refl b
    · exact .refl b

/-- **Handling a frame leaves alone what drives the broker.** -/
theorem sameDrive_handle (b : Broker) (c : Connection) (m : Message) :
    b.SameDrive (b.handle c m).2 := by
  have hs := b.sameDrive_carryOut c m
  unfold handle
  split
  · rename_i b' he
    rw [he] at hs
    exact hs.trans (b'.sameDrive_reply c.id m.type)
  · exact hs

theorem sameDrive_modifyStream (b : Broker) (id : ConnectionId) (f : Net.Stream → Net.Stream) :
    b.SameDrive (b.modifyStream id f) := by
  unfold modifyStream
  split <;> exact ⟨rfl, rfl, rfl, rfl⟩

/-! ## The end of a connection -/

theorem sameDrive_publishWill (b : Broker) (c : Connection) :
    b.SameDrive (b.publishWill c) := by
  unfold publishWill
  split
  · exact .refl b
  · rename_i will _
    have hp := b.sameDrive_publish will.toMessage
    split
    · rename_i he
      rwa [he] at hp
    · rename_i he
      rw [he] at hp
      exact hp.trans (sameDrive_report _ _)

theorem sameDrive_conclude (b : Broker) (c : Connection) (abnormal : Bool) :
    b.SameDrive (b.conclude c abnormal) := by
  have hp : b.SameDrive (if abnormal then b.publishWill c else b) := by
    split
    · exact b.sameDrive_publishWill c
    · exact .refl b
  unfold conclude
  dsimp only
  split
  · exact hp.trans (sameDrive_report _ _)
  · exact hp

/-- A connection goes, and its watch is let go; whatever else drives the broker is the same. -/
structure Departs (id : ConnectionId) (b b' : Broker) : Prop where
  gone : b'.connection? id = none
  drive : ({ b with multiplexer := b.multiplexer.forget id } : Broker).SameDrive b'

theorem SameDrive.departs {id : ConnectionId} (h : b.SameDrive b') (h' : Departs id b' b'') :
    Departs id b b'' where
  gone := h'.gone
  drive := ⟨h'.drive.tasks.trans h.tasks, h'.drive.poolStopped.trans h.poolStopped,
    h'.drive.halts.trans h.halts,
    h'.drive.multiplexer.trans (congrArg (·.forget id) h.multiplexer)⟩

/-- Nothing is under watch with its number any more. -/
theorem Departs.unwatched {id : ConnectionId} (h : Departs id b b') :
    b'.multiplexer.forget id = b'.multiplexer := by
  have hm : b'.multiplexer = b.multiplexer.forget id := h.drive.multiplexer
  rw [hm]
  unfold Net.Multiplexer.forget
  simp only [Table.erase_of_not_mem, Table.mem_iff, Table.get?_erase_self, Option.isSome_none,
    Bool.false_eq_true, not_false_eq_true]

theorem Roll.departs_tearDown (h : Roll accepted b) {id : ConnectionId}
    (hc : b.connection? id = some c) (abnormal : Bool) :
    Departs id b (b.tearDown id abnormal) := by
  obtain ⟨rfl, -⟩ := h.registered hc
  rw [h.tearDown_eq hc]
  have hleave : ({ b with multiplexer := b.multiplexer.forget c.id } : Broker).SameDrive
      (b.leave c) := ⟨rfl, rfl, rfl, rfl⟩
  refine ⟨Option.eq_none_iff_forall_ne_some.mpr fun x hx => ?_,
    hleave.trans (sameDrive_conclude _ _ _)⟩
  obtain ⟨x', hx', -⟩ := (steady_conclude (b.leave c) c.shut abnormal).exists_before hx
  have hgone : (b.leave c).connection? c.id = none :=
    ((h.gone hc).connections c.id).trans (if_pos rfl)
  rw [hgone] at hx'
  cases hx'

/-- A connection is ended, after nothing that drives the broker has changed. -/
inductive Dismissed (accepted : List ConnectionId) (id : ConnectionId) (b : Broker) : Broker → Prop
  | intro {b' : Broker} {c : Connection} {abnormal : Bool} (hs : b.SameDrive b')
    (hr : Roll accepted b') (hc : b'.connection? id = some c) :
    Dismissed accepted id b (b'.tearDown id abnormal)

theorem SameDrive.dismissed {id : ConnectionId} (h : b.SameDrive b')
    (h' : Dismissed accepted id b' b'') : Dismissed accepted id b b'' := by
  cases h' with
  | intro hs hr hc => exact .intro (h.trans hs) hr hc

/-- Whoever is ended goes. -/
theorem Dismissed.departs {id : ConnectionId} (h : Dismissed accepted id b b') :
    Departs id b b' := by
  cases h with
  | intro hs hr hc => exact hs.departs (hr.departs_tearDown hc _)

/-- A connection that does not go on after its frames is ended. -/
theorem Roll.dismissed_of_handleAll (h : Roll accepted b) {id : ConnectionId}
    (hc : b.connection? id = some c) {ms : List Message} (hh : handleAll id ms b = (false, b')) :
    Dismissed accepted id b b' := by
  induction ms generalizing b c with
  | nil => cases hh
  | cons m ms ih =>
    obtain ⟨rfl, -⟩ := h.registered hc
    obtain ⟨c', hc'⟩ := h.exists_after_handle hc m
    have hs := b.sameDrive_handle c m
    have hafter : Roll accepted (b.handle c m).2 :=
      h.act (x := ⟨b, .frame c m⟩) (.frame (.refl b) hc)
    unfold handleAll at hh
    rw [hc] at hh
    dsimp only at hh
    rcases he : b.handle c m with ⟨e | flow, b₁⟩
    · rw [he] at hh hafter hc' hs
      have hreport : ∀ n, Roll accepted (b₁.report n) := fun n =>
        hafter.steady (b₁.steady_report n)
      have hs' : ∀ n, b.SameDrive (b₁.report n) := fun n => hs.trans (b₁.sameDrive_report n)
      dsimp only at hh
      split at hh
      · cases hh
        exact .intro (hs' _) (hreport _) hc'
      · exact (hs' _).dismissed (ih (hreport _) hc' hh)
    · rw [he] at hh hafter hc' hs
      cases flow with
      | «continue» => exact hs.dismissed (ih hafter hc' hh)
      | disconnect =>
        cases hh
        exact .intro hs hafter hc'

/-- **While frames are handled and the connection goes on,** what drives the broker is left alone,
and the connection is still there. -/
theorem Roll.goesOn_handleAll (h : Roll accepted b) {id : ConnectionId}
    (hc : b.connection? id = some c) {ms : List Message} (hh : handleAll id ms b = (true, b')) :
    b.SameDrive b' ∧ ∃ c', b'.connection? id = some c' := by
  induction ms generalizing b c with
  | nil =>
    cases hh
    exact ⟨.refl _, c, hc⟩
  | cons m ms ih =>
    obtain ⟨rfl, -⟩ := h.registered hc
    obtain ⟨c', hc'⟩ := h.exists_after_handle hc m
    have hs := b.sameDrive_handle c m
    have hafter : Roll accepted (b.handle c m).2 :=
      h.act (x := ⟨b, .frame c m⟩) (.frame (.refl b) hc)
    unfold handleAll at hh
    rw [hc] at hh
    dsimp only at hh
    rcases he : b.handle c m with ⟨e | flow, b₁⟩
    · rw [he] at hh hafter hc' hs
      dsimp only at hh
      split at hh
      · cases hh
      · obtain ⟨hrest, hlive⟩ := ih (hafter.steady (b₁.steady_report _)) hc' hh
        exact ⟨(hs.trans (sameDrive_report _ _)).trans hrest, hlive⟩
    · rw [he] at hh hafter hc' hs
      cases flow with
      | «continue» =>
        obtain ⟨hrest, hlive⟩ := ih hafter hc' hh
        exact ⟨hs.trans hrest, hlive⟩
      | disconnect => cases hh

end MessageBroker.Broker
