import MessageBroker.Proofs.Broker.Admission
import MessageBroker.Proofs.Wire.Pieces

/-!
# When a broker writes

What a connection has been sent is there, write by write, until the other end takes it; it stays
there when the connection departs. A broker writes in its acts. Whatever else it does, it leaves
what was written as it is.

Headlines:
* **`Broker.Silent`**: nothing is written.
* **`Broker.Script`**: the acts that lead from one broker to another, with nothing written between
  them; **`Broker.Roll.script_turn`**: a turn of the broker does what its acts tell.
-/

namespace MessageBroker

/-! ## Registries -/

namespace Registry

/-- The connections are the same, and so is what has been written to them. -/
def SameWritten (r r' : Registry) : Prop :=
  ∀ id, (r'.connections.get? id).map (·.stream.written) =
    (r.connections.get? id).map (·.stream.written)

variable {r r' r'' : Registry}

theorem SameWritten.refl (r : Registry) : r.SameWritten r := fun _ => rfl

theorem SameWritten.trans (h : r.SameWritten r') (h' : r'.SameWritten r'') : r.SameWritten r'' :=
  fun id => (h' id).trans (h id)

theorem sameWritten_modifyDestinations (r : Registry) (id : ConnectionId)
    (f : NameSet → NameSet) : r.SameWritten (r.modifyDestinations id f) := by
  intro other
  unfold modifyDestinations
  simp only [Table.get?_modify]
  split
  · rw [Option.map_map]
    rfl
  · rfl

theorem sameWritten_subscribe (r : Registry) (id : ConnectionId) (name : String)
    (type : DestinationType) (qos : QoS) : r.SameWritten (r.subscribe id name type qos).2.2 := by
  unfold subscribe
  split
  · exact .refl r
  · dsimp only
    split
    · exact .refl r
    · exact (r.putSubscription name _).sameWritten_modifyDestinations id _

theorem sameWritten_unsubscribe (r : Registry) (id : ConnectionId) (name : String) :
    r.SameWritten (r.unsubscribe id name).2 := by
  unfold unsubscribe
  split
  · exact r.sameWritten_modifyDestinations id _
  · split
    · exact .refl r
    · exact (r.putSubscription name _).sameWritten_modifyDestinations id _

theorem sameWritten_clearMembers (name : String) (ids : List ConnectionId) (s : Subscription)
    (r : Registry) : r.SameWritten (r.clearMembers name s ids).2.2 := by
  induction ids generalizing r s with
  | nil => exact .refl r
  | cons id ids ih =>
    have hd := r.sameWritten_modifyDestinations id fun d => d.erase name
    unfold clearMembers
    dsimp only
    split
    · exact hd.trans (ih _ _)
    · exact hd.trans (ih _ _)

theorem sameWritten_remove (r : Registry) (name : String) :
    r.SameWritten (r.remove name).2.2 := by
  unfold remove
  split
  · exact .refl r
  · dsimp only
    split
    · exact .refl r
    · exact sameWritten_clearMembers name _ _ { r with subscriptions := r.subscriptions.erase name }

theorem sameWritten_removeAll (names : List String) (r : Registry) :
    r.SameWritten (r.removeAll names).2 := by
  induction names generalizing r with
  | nil => exact .refl r
  | cons name names ih => exact (r.sameWritten_remove name).trans (ih _)

end Registry

namespace Broker

/-! ## Nothing is written -/

/-- What has been written to a connection, live or departed. -/
def written (b : Broker) (id : ConnectionId) : List Bytes :=
  match b.connection? id with
  | some c => c.stream.written
  | none => ((b.departed.get? id).map (·.written)).getD []

/-- Nothing is written, no number is given out and no setting changes. -/
structure Silent (b b' : Broker) : Prop where
  settings : b'.settings = b.settings
  nextId : b'.nextId = b.nextId
  written : ∀ id, b'.written id = b.written id

variable {accepted : List ConnectionId} {b b' b'' : Broker}

theorem Silent.refl (b : Broker) : b.Silent b := ⟨rfl, rfl, fun _ => rfl⟩

theorem Silent.trans (h : b.Silent b') (h' : b'.Silent b'') : b.Silent b'' where
  settings := h'.settings.trans h.settings
  nextId := h'.nextId.trans h.nextId
  written id := (h'.written id).trans (h.written id)

/-- A change that leaves streams and settings alone is silent. -/
theorem silent_of_registry (hr : b.registry.SameWritten b'.registry) (hs : b'.settings = b.settings)
    (hn : b'.nextId = b.nextId) (hd : b'.departed = b.departed) : b.Silent b' := by
  refine ⟨hs, hn, fun id => ?_⟩
  have hid := hr id
  unfold Broker.written connection?
  rw [hd]
  cases hc : b.registry.connections.get? id with
  | none =>
    rw [hc, Option.map_none, Option.map_eq_none_iff] at hid
    rw [hid]
  | some c =>
    rw [hc, Option.map_some, Option.map_eq_some_iff] at hid
    obtain ⟨c', hc', hw⟩ := hid
    rw [hc']
    exact hw

theorem silent_report (b : Broker) (n : Notice) : b.Silent (b.report n) :=
  silent_of_registry (.refl _) rfl rfl rfl

theorem silent_withRegistry {r : Registry} (h : b.registry.SameWritten r) (notices : List Notice) :
    b.Silent (b.withRegistry notices r) :=
  silent_of_registry h rfl rfl rfl

/-- A connection may be replaced by one that has been sent the same. -/
theorem silent_putConnection {c c' : Connection} (hc : b.connection? c.id = some c)
    (hi : c'.id = c.id) (hw : c'.stream.written = c.stream.written) :
    b.Silent (b.putConnection c') := by
  refine silent_of_registry (fun id => ?_) rfl rfl rfl
  unfold putConnection
  simp only [Table.get?_insert, hi]
  split
  · rename_i e
    subst e
    rw [show b.registry.connections.get? c.id = some c from hc, Option.map_some, Option.map_some,
      hw]
  · rfl

theorem silent_joinAll (id : ConnectionId) (type : DestinationType) (qos : QoS)
    (names : List String) (b : Broker) : b.Silent (joinAll id type qos names b).2 := by
  induction names generalizing b with
  | nil => exact .refl b
  | cons name names ih =>
    have hs := b.registry.sameWritten_subscribe id name type qos
    unfold joinAll
    split
    · rename_i he
      rw [he] at hs
      exact (silent_withRegistry hs _).trans (ih _)
    · rename_i he
      rw [he] at hs
      exact silent_withRegistry hs _

theorem silent_subscribe (b : Broker) (c : Connection) (m : Message) :
    b.Silent (b.subscribe c m).2 := by
  unfold subscribe
  split
  · exact .refl b
  · split
    · exact .refl b
    · exact .refl b
    · exact silent_joinAll ..

theorem silent_leaveAll (id : ConnectionId) (names : List String) (b : Broker) :
    b.Silent (leaveAll id names b).2 := by
  induction names generalizing b with
  | nil => exact .refl b
  | cons name names ih =>
    have hs := b.registry.sameWritten_unsubscribe id name
    unfold leaveAll
    split
    · rename_i registry he
      rw [he] at hs
      have hb : b.Silent { b with registry } := silent_of_registry hs rfl rfl rfl
      exact hb.trans (ih _)
    · rename_i he
      rw [he] at hs
      exact silent_of_registry hs rfl rfl rfl

theorem silent_connect {c : Connection} (hc : b.connection? c.id = some c) (m : Message) :
    b.Silent (b.connect c m).2 := by
  cases he : (b.connect c m).1 with
  | error e =>
    rw [connect_of_error he]
    exact silent_of_registry (.refl _) rfl rfl rfl
  | ok _ =>
    obtain ⟨-, -, registry, hr, hb⟩ := connect_of_ok he
    have hconn : registry.connections = b.registry.connections := by
      unfold Registry.claim at hr
      split at hr
      · split at hr
        · cases hr
          rfl
        · cases hr
      · cases hr
        rfl
    have hclaim : b.Silent { b with registry } :=
      silent_of_registry (fun id => by rw [hconn]) rfl rfl rfl
    have hc' : ({ b with registry } : Broker).connection? c.id = some c := by
      unfold connection?
      rw [hconn]
      exact hc
    have hput := @silent_putConnection _ c { c with session := sessionOf (b.clientIdOf c.id m) m }
      hc' rfl rfl
    rw [hb]
    exact (hclaim.trans hput).trans (silent_report _ _)

theorem silent_acknowledge (b : Broker) (c : Connection) (m : Message) :
    b.Silent (b.acknowledge c m) := by
  unfold acknowledge
  split
  · exact silent_of_registry (.refl _) rfl rfl rfl
  · exact b.silent_report _

theorem silent_applyHalt (b : Broker) (id : ConnectionId) : b.Silent (b.applyHalt id) := by
  have hr := b.registry_applyHalt id
  have hd := b.departed_applyHalt id
  refine silent_of_registry (hr ▸ .refl _) ?_ (b.untouched_applyHalt id).nextId hd
  unfold applyHalt
  split
  · rfl
  · rename_i halt _
    cases halt.events <;> cases halt.pool <;> rfl

/-- Reading writes nothing. -/
theorem silent_reading {c : Connection} (hc : b.connection? c.id = some c) :
    b.Silent (b.reading c) := by
  refine (b.silent_applyHalt c.id).trans (silent_putConnection ?_ c.id_readPass c.written_readPass)
  unfold connection?
  rwa [registry_applyHalt]

/-- A connection that goes takes along what has been written to it. -/
theorem Roll.silent_leave (h : Roll accepted b) {c : Connection}
    (hc : b.connection? c.id = some c) : b.Silent (b.leave c) := by
  have hget := (h.gone hc).connections
  refine ⟨rfl, rfl, fun id => ?_⟩
  unfold Broker.written
  have hid : (b.leave c).connection? id = if id = c.id then none else b.connection? id := hget id
  by_cases e : id = c.id
  · subst e
    have hd : (b.leave c).departed.get? c.id = some c.shut.stream := Table.get?_insert_self _ _ _
    rw [hid, if_pos rfl, hc, hd]
    rfl
  · have hd : (b.leave c).departed.get? id = b.departed.get? id := Table.get?_insert_of_ne _ _ e
    rw [hid, if_neg e, hd]

theorem silent_execute {t : Task} (h : b.execute t = .ok b') : b.Silent b' := by
  unfold execute at h
  split at h
  · cases h
  · cases h
    exact silent_of_registry (.refl _) rfl rfl rfl

theorem silent_onEvent (b : Broker) (flags : Net.Flags) (id : ConnectionId) :
    b.Silent (onEvent b flags id).state := by
  unfold onEvent
  split
  · rename_i he
    exact silent_execute he
  · exact b.silent_report _

theorem silent_signal (b : Broker) (id : ConnectionId) (flags : Net.Flags) :
    b.Silent (b.signal id flags) := by
  unfold signal
  split
  · exact .refl b
  · have h := Net.Multiplexer.poll_rel Silent.refl Silent.trans silent_onEvent
      (fun _ => false) (.ok [(id, flags)]) b b.multiplexer
    exact ⟨h.settings, h.nextId, h.written⟩

/-! ## Acts, and nothing between them -/

/-- The acts lead from one broker to the other, and between them nothing is written. -/
inductive Script : Broker → List Moment → Broker → Prop
  | done {b b' : Broker} (h : b.Silent b') : Script b [] b'
  | act {b b' : Broker} {x : Moment} {xs : List Moment} (before : b.Silent x.broker)
      (rest : Script x.after xs b') : Script b (x :: xs) b'

theorem Silent.script (h : b.Silent b') {xs : List Moment} (hs : Script b' xs b'') :
    Script b xs b'' := by
  cases hs with
  | done h' => exact .done (h.trans h')
  | act before rest => exact .act (h.trans before) rest

theorem Script.append {xs ys : List Moment} (h : Script b xs b') (h' : Script b' ys b'') :
    Script b (xs ++ ys) b'' := by
  induction h with
  | done h => exact h.script h'
  | act before _ ih => exact .act before (ih h')

theorem Roll.script_tearDown (h : Roll accepted b) (id : ConnectionId) (abnormal : Bool) :
    Script b (b.momentsOfTearDown id abnormal) (b.tearDown id abnormal) := by
  cases hc : b.connection? id with
  | none =>
    rw [h.momentsOfTearDown_of_gone hc, tearDown_of_gone h.displaced hc]
    exact .done (.refl b)
  | some c =>
    obtain ⟨rfl, -⟩ := h.registered hc
    rw [h.momentsOfTearDown_eq hc, h.tearDown_eq hc]
    exact .act (h.silent_leave hc) (.done (.refl _))

theorem Roll.script_handleAll (h : Roll accepted b) (id : ConnectionId) (ms : List Message) :
    Script b (momentsOfFrames id ms b) (handleAll id ms b).2 := by
  induction ms generalizing b with
  | nil => exact .done (.refl b)
  | cons m ms ih =>
    unfold momentsOfFrames handleAll
    cases hc : b.connection? id with
    | none => exact .done (.refl b)
    | some c =>
      obtain ⟨rfl, -⟩ := h.registered hc
      have hafter : Roll accepted (b.handle c m).2 :=
        h.act (x := ⟨b, .frame c m⟩) (.frame (.refl b) hc)
      refine .act (.refl b) ?_
      change Script (b.handle c m).2 _ _
      dsimp only
      rcases he : b.handle c m with ⟨e | flow, b'⟩
      · rw [he] at hafter
        have hreport : ∀ n, Roll accepted (b'.report n) := fun n =>
          hafter.steady (b'.steady_report n)
        dsimp only
        split
        · exact (b'.silent_report _).script ((hreport _).script_tearDown c.id true)
        · exact (b'.silent_report _).script (ih (hreport _))
      · rw [he] at hafter
        cases flow with
        | «continue» => exact ih hafter
        | disconnect => exact hafter.script_tearDown c.id false

theorem Roll.script_goOn (h : Roll accepted b) (c : Connection) (pass : ReadPass) :
    Script b (b.momentsOfGoingOn c pass) (b.goOn c pass) := by
  have hend : ∀ n abnormal, Script b ((b.report n).momentsOfTearDown c.id abnormal)
      ((b.report n).tearDown c.id abnormal) := fun n abnormal =>
    (b.silent_report n).script ((h.steady (b.steady_report n)).script_tearDown c.id abnormal)
  unfold momentsOfGoingOn goOn
  cases pass.error with
  | some e => exact hend _ true
  | none =>
    dsimp only
    split
    · exact h.script_tearDown c.id true
    · split
      · cases he : b.execute (.serve c.id) with
        | ok b' => exact .done (silent_execute he)
        | error e => exact hend _ _
      · cases b.multiplexer.watch c.id c.stream.registers c.id .oneShot with
        | ok multiplexer => exact .done (silent_of_registry (.refl _) rfl rfl rfl)
        | error e => exact hend _ _

theorem Roll.script_serve (h : Roll accepted b) (id : ConnectionId) :
    Script b (b.momentsOfServing id) (b.serve id) := by
  cases hc : b.connection? id with
  | none =>
    unfold momentsOfServing serve
    rw [hc]
    exact .done (.refl b)
  | some c =>
    obtain ⟨rfl, -⟩ := h.registered hc
    cases ho : c.isClosed with
    | true =>
      rw [(serve_of_closed hc ho).1, (serve_of_closed hc ho).2]
      exact .done (.refl b)
    | false =>
      have hread := h.steady (steady_reading hc)
      have hall := hread.trail (hread.trail_handleAll c.id c.readPass.1.messages)
      rw [serve_of_open hc ho, momentsOfServing_of_open hc ho]
      refine (silent_reading hc).script
        ((hread.script_handleAll c.id c.readPass.1.messages).append ?_)
      dsimp only
      split
      · split
        · exact .done (.refl _)
        · exact hall.script_goOn _ _
      · exact .done (.refl _)

theorem Roll.script_perform (h : Roll accepted b) (t : Task) :
    Script b (b.momentsOfTask t) (b.perform t) := by
  cases t with
  | serve id => exact h.script_serve id
  | abort id => exact h.script_tearDown id true

/-- Where the other end or the network does something, or a stream is accepted, it is not the broker
that writes. -/
def Turn.isOutside : Turn → Bool
  | .event (.accept ..) => true
  | .event (.change ..) => true
  | _ => false

/-- **A turn of the broker does what its acts tell.** -/
theorem Roll.script_turn (h : Roll accepted b) {t : Turn} (ht : t.isOutside = false) :
    Script b (b.acts t) (b.turn t) := by
  cases t with
  | contend name lock cursor =>
    exact .done (silent_of_registry (fun _ => rfl) rfl rfl rfl)
  | event e =>
    cases e with
    | accept id stream => cases ht
    | change id f => cases ht
    | signal id flags => exact .done (b.silent_signal id flags)
    | work =>
      change Script b (b.moments .work) (work 1 b)
      unfold moments work
      cases hts : b.tasks with
      | nil => exact .done (.refl b)
      | cons t ts =>
        have hu : b.Silent { b with tasks := ts } := silent_of_registry (.refl _) rfl rfl rfl
        have hs : b.Steady { b with tasks := ts } := ⟨.refl, rfl⟩
        exact hu.script ((h.steady hs).script_perform t)
    | perform t => exact h.script_perform t
    | tearDown id abnormal => exact h.script_tearDown id abnormal
    | publish m => exact .act (.refl b) (.done (.refl _))
    | sweep expiry => exact .act (.refl b) (.done (.refl _))
    | remove name => exact .done (silent_withRegistry (b.registry.sameWritten_remove name) _)
    | clear => exact .done (silent_withRegistry (Registry.sameWritten_removeAll _ _) _)
    | setClock now => exact .done (silent_of_registry (.refl _) rfl rfl rfl)
    | halt id h' => exact .done (silent_of_registry (.refl _) rfl rfl rfl)
    | stopEvents => exact .done (silent_of_registry (.refl _) rfl rfl rfl)
    | stopPool => exact .done (silent_of_registry (.refl _) rfl rfl rfl)

end Broker

end MessageBroker
