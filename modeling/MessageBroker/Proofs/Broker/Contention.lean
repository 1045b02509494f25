import Mathlib.Data.List.Induction
import MessageBroker.Proofs.Broker.Steadiness

/-!
# Runs in which subscriptions are held

Between two events of a broker somebody else may take the lock of a subscription or give it back.
What then waits for the lock alone gives up, and members and destinations part. Such a run is a list
of turns, each an event or a change of a lock. What is left in step stays so.

Headlines:
* **`Broker.Roll`**: the registry is in step, and nobody is known but those that were accepted;
  **`Broker.Roll.leave`**, **`Broker.Roll.login`**, **`Broker.Roll.accept`**: it stays so.
* **`Broker.Trail`**: the acts that lead from one broker to another;
  **`Broker.Roll.trail_apply`**: an event that accepts nobody does what its acts tell.
* **`Broker.Roll.play`**: the rolls are in order after every run.
-/

namespace MessageBroker

namespace Connection

/-- The connection once it has been closed here. -/
def shut (c : Connection) : Connection := { c with closed := true, stream := c.stream.close }

theorem clientId_of_unknown {c : Connection} (hn : c.isConnected = false) :
    c.session.clientId = none := by
  unfold isConnected at hn
  rwa [Option.isSome_eq_false_iff, Option.isNone_iff_eq_none] at hn

theorem isConnected_congr {c c' : Connection} (h : c.session = c'.session) :
    c.isConnected = c'.isConnected := by
  unfold isConnected
  rw [h]

@[simp]
theorem id_readPass (c : Connection) : c.readPass.2.id = c.id :=
  congrArg Standing.id c.standing_readPass

theorem isConnected_readPass (c : Connection) : c.readPass.2.isConnected = c.isConnected :=
  isConnected_congr (congrArg Standing.session c.standing_readPass)

end Connection

namespace Broker

/-! ## The rolls -/

variable {b b' b'' : Broker}

/-- What a connection leaves behind when it is closed and withdrawn, before its last will. -/
def leave (b : Broker) (c : Connection) : Broker := (b.putConnection c.shut).withdraw c.shut

/-- The registry is in step, and it knows nobody but the connections `accepted`. -/
structure Roll (accepted : List ConnectionId) (b : Broker) : Prop where
  registry : b.registry.Enrolled
  live : ∀ ⦃id⦄, id ∈ b.registry.connections → id ∈ accepted
  listed : ∀ ⦃name id⦄, b.registry.Lists name id → id ∈ accepted
  displaced : b.displaced = ∅

variable {accepted : List ConnectionId}

theorem roll_new (settings : Settings) (clock : Timestamp) :
    Roll [] (Broker.new settings clock) where
  registry := Registry.enrolled_empty _
  live _ hid := by cases hid
  listed _ _ hl := by
    obtain ⟨s, hs, -⟩ := hl
    cases hs
  displaced := rfl

namespace Roll

theorem steady (h : Roll accepted b) (hs : b.Steady b') : Roll accepted b' where
  registry := hs.registry.enrolled h.registry
  live id hid := h.live ((hs.registry.mem_connections id).mp hid)
  listed _ _ hl := (hs.registry.lists hl).elim (h.listed ·) (h.live ·)
  displaced := hs.displaced.trans h.displaced

theorem registered (h : Roll accepted b) {id : ConnectionId} {c : Connection}
    (hc : b.connection? id = some c) : c.id = id ∧ c.closed = false :=
  h.registry.registered hc

/-- Who is live once a client has logged in: it has a session then, and nobody else is touched. -/
theorem connection?_connect (h : Roll accepted b) {c : Connection} {m : Message}
    (hc : b.connection? c.id = some c) (hin : b.LogsIn c m) (id : ConnectionId) :
    (b.connect c m).2.connection? id = if id = c.id then
      some { c with session := sessionOf (b.clientIdOf c.id m) m } else b.connection? id := by
  obtain ⟨hn, -, registry, hr, he⟩ := connect_of_ok hin.2
  rw [he, h.registry.claim_eq hc (Connection.clientId_of_unknown hn) hr]
  exact Table.get?_insert _ _ _ _

/-- **Logging in.** -/
theorem login (h : Roll accepted b) {c : Connection} {m : Message}
    (hc : b.connection? c.id = some c) (hin : b.LogsIn c m) :
    Roll accepted (b.connect c m).2 := by
  obtain ⟨hn, -, registry, hr, he⟩ := connect_of_ok hin.2
  have hno := Connection.clientId_of_unknown hn
  have hid : c.id ∈ b.registry.connections := Option.isSome_iff_exists.mpr ⟨c, hc⟩
  rw [he]
  refine ⟨h.registry.claim hc hno hr rfl, fun id hl => ?_, fun name id hl => ?_, h.displaced⟩
  · rw [h.registry.claim_eq hc hno hr] at hl
    rcases mem_addConnection.mp hl with rfl | hl
    · exact h.live hid
    · exact h.live hl
  · rw [h.registry.claim_eq hc hno hr] at hl
    exact h.listed hl

/-- What a connection leaves behind in the registry. -/
theorem registry_leave {c : Connection} (hc : b.connection? c.id = some c) :
    (b.leave c).registry = (b.registry.removeConnection c.id).2.2 :=
  Registry.removeConnection_put hc rfl rfl rfl

/-- **A connection goes.** -/
theorem gone (h : Roll accepted b) {c : Connection} (hc : b.connection? c.id = some c) :
    b.registry.Gone c.id (b.leave c).registry := by
  rw [registry_leave hc]
  exact h.registry.gone hc

theorem leave (h : Roll accepted b) {c : Connection} (hc : b.connection? c.id = some c) :
    Roll accepted (b.leave c) := by
  have hg := h.gone hc
  refine ⟨hg.enrolled, fun id hid => ?_, fun name id hl => h.listed (hg.lists hl).1, h.displaced⟩
  rw [Table.mem_iff, hg.connections] at hid
  split at hid
  · cases hid
  · exact h.live hid

theorem displace (h : Roll accepted b) {id : ConnectionId} (hid : id ∉ accepted) :
    b.displace id = b := by
  unfold Broker.displace
  rw [not_mem_connections.mp fun hl => hid (h.live hl)]

/-- **A connection comes** under a number of its own. -/
theorem accept (h : Roll accepted b) {id : ConnectionId} (hid : id ∉ accepted)
    (stream : Net.Stream) : Roll (id :: accepted) (b.accept id stream).2 := by
  have hlive : id ∉ b.registry.connections := fun hl => hid (h.live hl)
  unfold Broker.accept
  rw [h.displace hid]
  generalize hcon : Connection.new id stream b.settings.listener.maxPacketSize.toWord32 = c
  obtain ⟨rfl, hses, hd, ho⟩ :
      c.id = id ∧ c.session = {} ∧ c.destinations = ∅ ∧ c.closed = false := by
    rw [← hcon]
    exact ⟨rfl, rfl, rfl, rfl⟩
  have hadd : (b.registry.addConnection c).Enrolled :=
    h.registry.addConnection hlive (fun name hl => hid (h.listed hl)) hd hses ho
  have hc : (b.registry.addConnection c).connections.get? c.id = some c :=
    Table.get?_insert_self _ _ _
  dsimp only
  split
  · refine ⟨hadd, fun other hl => ?_, fun _ _ hl => List.mem_cons_of_mem _ (h.listed hl), ?_⟩
    · rcases mem_addConnection.mp hl with rfl | hl
      · exact List.mem_cons_self
      · exact List.mem_cons_of_mem _ (h.live hl)
    · simp only
      rw [h.displaced]
      rfl
  · have hg := hadd.gone hc
    refine ⟨hg.enrolled, fun other hl => ?_, fun _ _ hl => ?_, h.displaced⟩
    · rw [Table.mem_iff, withRegistry, hg.connections] at hl
      split at hl
      · cases hl
      · rename_i hne
        exact List.mem_cons_of_mem _ (h.live ((mem_addConnection.mp hl).resolve_left hne))
    · exact List.mem_cons_of_mem _ (h.listed (hg.lists hl).1)

/-- Who is live once a stream has been accepted. -/
theorem connection?_accept (h : Roll accepted b) {id : ConnectionId} (hid : id ∉ accepted)
    {stream : Net.Stream} {other : ConnectionId} {c : Connection}
    (hc : (b.accept id stream).2.connection? other = some c) :
    (other = id ∧ c.session = {}) ∨ b.connection? other = some c := by
  unfold Broker.accept connection? at hc
  rw [h.displace hid] at hc
  generalize hcon : Connection.new id stream b.settings.listener.maxPacketSize.toWord32 = c₀ at hc
  obtain ⟨rfl, hses⟩ : c₀.id = id ∧ c₀.session = {} := by
    rw [← hcon]
    exact ⟨rfl, rfl⟩
  have hadd : ∀ {c}, (b.registry.addConnection c₀).connections.get? other = some c →
      (other = c₀.id ∧ c.session = {}) ∨ b.registry.connections.get? other = some c := by
    intro c hc
    rw [Registry.get?_addConnection] at hc
    split at hc
    · rename_i e
      cases hc
      exact .inl ⟨e, hses⟩
    · exact .inr hc
  dsimp only at hc
  split at hc
  · exact hadd hc
  · rw [Registry.removeConnection_of_some (Table.get?_insert_self _ _ _)] at hc
    unfold withRegistry at hc
    simp only [Table.get?_erase] at hc
    split at hc
    · cases hc
    · exact hadd hc

end Roll

/-! ## The acts of an event -/

theorem Roll.steady_modifyStream (h : Roll accepted b) (id : ConnectionId)
    (f : Net.Stream → Net.Stream) : b.Steady (b.modifyStream id f) := by
  unfold modifyStream
  split
  · rename_i c hc
    obtain ⟨rfl, -⟩ := h.registered hc
    exact steady_putConnection hc rfl
  · exact ⟨.refl, rfl⟩

/-- How a broker comes to its next act. -/
inductive Leads (b : Broker) : Moment → Prop
  | frame {b' : Broker} {c : Connection} {m : Message} (h : b.Steady b')
    (hc : b'.connection? c.id = some c) : Leads b ⟨b', .frame c m⟩
  /-- A connection has been withdrawn, and its end is about to be concluded. -/
  | leave {b' : Broker} {c : Connection} {abnormal : Bool} (h : b.Steady b')
    (hc : b'.connection? c.id = some c) : Leads b ⟨b'.leave c, .conclude c.shut abnormal⟩
  | publish {b' : Broker} {m : Message} (h : b.Steady b') : Leads b ⟨b', .publish m⟩
  | sweep {b' : Broker} {expiry : Duration} (h : b.Steady b') : Leads b ⟨b', .sweep expiry⟩

/-- The acts lead from one broker to the other, and between them nobody comes, logs in or goes. -/
inductive Trail : Broker → List Moment → Broker → Prop
  | done {b b' : Broker} (h : b.Steady b') : Trail b [] b'
  | act {b b' : Broker} {x : Moment} {xs : List Moment} (before : b.Leads x)
      (rest : Trail x.after xs b') : Trail b (x :: xs) b'

theorem Leads.of_steady {x : Moment} (h : b.Steady b') (hx : b'.Leads x) : b.Leads x := by
  cases hx with
  | frame h' hc => exact .frame (h.trans h') hc
  | leave h' hc => exact .leave (h.trans h') hc
  | publish h' => exact .publish (h.trans h')
  | sweep h' => exact .sweep (h.trans h')

theorem Steady.trail (h : b.Steady b') {xs : List Moment} (ht : Trail b' xs b'') :
    Trail b xs b'' := by
  cases ht with
  | done h' => exact .done (h.trans h')
  | act before rest => exact .act (before.of_steady h) rest

theorem Trail.append {xs ys : List Moment} (h : Trail b xs b') (h' : Trail b' ys b'') :
    Trail b (xs ++ ys) b'' := by
  induction h with
  | done h => exact h.trail h'
  | act before _ ih => exact .act before (ih h')

/-- A trail up to one of its moments, and on from there. -/
theorem Trail.split {past future : List Moment} {x : Moment}
    (h : Trail b (past ++ x :: future) b'') :
    ∃ b', Trail b past b' ∧ b'.Leads x ∧ Trail x.after future b'' := by
  induction past generalizing b with
  | nil =>
    cases h with
    | act before rest => exact ⟨b, .done (.refl b), before, rest⟩
  | cons y past ih =>
    cases h with
    | act before rest =>
      obtain ⟨b', hpast, hx, hfuture⟩ := ih rest
      exact ⟨b', .act before hpast, hx, hfuture⟩

/-- An act leaves the rolls in order. -/
theorem Roll.act (h : Roll accepted b) {x : Moment} (hx : b.Leads x) : Roll accepted x.after := by
  cases hx with
  | @frame b' c m hs hc =>
    have hb := h.steady hs
    by_cases hin : b'.LogsIn c m
    · have hl := hb.login hc hin
      exact hl.steady (steady_handle_of_logsIn hl.registry hin)
    · exact hb.steady (steady_handle hb.registry hc hin)
  | leave hs hc => exact ((h.steady hs).leave hc).steady (steady_conclude ..)
  | publish hs => exact (h.steady hs).steady (steady_publish ..)
  | sweep hs => exact (h.steady hs).steady ⟨.refl, rfl⟩

theorem Roll.trail (h : Roll accepted b) {xs : List Moment} (ht : Trail b xs b') :
    Roll accepted b' := by
  induction ht with
  | done hs => exact h.steady hs
  | act before _ ih => exact ih (h.act before)

/-! ## An event does what its acts tell -/

/-- The end of a live connection. -/
theorem Roll.tearDown_eq (h : Roll accepted b) {id : ConnectionId} {c : Connection}
    (hc : b.connection? id = some c) (abnormal : Bool) :
    b.tearDown id abnormal = (b.leave c).conclude c.shut abnormal := by
  unfold tearDown Connection.close
  rw [hc]
  simp only [(h.registered hc).2]
  rfl

theorem Roll.momentsOfTearDown_eq (h : Roll accepted b) {id : ConnectionId} {c : Connection}
    (hc : b.connection? id = some c) (abnormal : Bool) :
    b.momentsOfTearDown id abnormal = [⟨b.leave c, .conclude c.shut abnormal⟩] := by
  unfold momentsOfTearDown Connection.close
  rw [hc]
  simp only [(h.registered hc).2]
  rfl

theorem Roll.momentsOfTearDown_of_gone (h : Roll accepted b) {id : ConnectionId}
    (hc : b.connection? id = none) (abnormal : Bool) : b.momentsOfTearDown id abnormal = [] := by
  unfold momentsOfTearDown
  rw [hc, h.displaced]
  rfl

theorem Roll.trail_tearDown (h : Roll accepted b) (id : ConnectionId) (abnormal : Bool) :
    Trail b (b.momentsOfTearDown id abnormal) (b.tearDown id abnormal) := by
  cases hc : b.connection? id with
  | none =>
    rw [h.momentsOfTearDown_of_gone hc, tearDown_of_gone h.displaced hc]
    exact .done (.refl b)
  | some c =>
    obtain ⟨rfl, -⟩ := h.registered hc
    rw [h.momentsOfTearDown_eq hc, h.tearDown_eq hc]
    exact .act (.leave (.refl b) hc) (.done (.refl _))

theorem Roll.trail_handleAll (h : Roll accepted b) (id : ConnectionId) (ms : List Message) :
    Trail b (momentsOfFrames id ms b) (handleAll id ms b).2 := by
  induction ms generalizing b with
  | nil => exact .done (.refl b)
  | cons m ms ih =>
    unfold momentsOfFrames handleAll
    cases hc : b.connection? id with
    | none => exact .done (.refl b)
    | some c =>
      obtain ⟨rfl, -⟩ := h.registered hc
      have hx : b.Leads ⟨b, .frame c m⟩ := .frame (.refl b) hc
      have hafter := h.act hx
      refine .act hx ?_
      change Roll accepted (b.handle c m).2 at hafter
      change Trail (b.handle c m).2 _ _
      dsimp only
      rcases he : b.handle c m with ⟨e | flow, b'⟩
      · rw [he] at hafter
        have hreport : ∀ n, Roll accepted (b'.report n) := fun n =>
          hafter.steady (b'.steady_report n)
        dsimp only
        split
        · exact (b'.steady_report _).trail ((hreport _).trail_tearDown c.id true)
        · exact (b'.steady_report _).trail (ih (hreport _))
      · rw [he] at hafter
        cases flow with
        | «continue» => exact ih hafter
        | disconnect => exact hafter.trail_tearDown c.id false

theorem Roll.trail_goOn (h : Roll accepted b) (c : Connection) (pass : ReadPass) :
    Trail b (b.momentsOfGoingOn c pass) (b.goOn c pass) := by
  have hend : ∀ n abnormal, Trail b ((b.report n).momentsOfTearDown c.id abnormal)
      ((b.report n).tearDown c.id abnormal) := fun n abnormal =>
    (b.steady_report n).trail ((h.steady (b.steady_report n)).trail_tearDown c.id abnormal)
  unfold momentsOfGoingOn goOn
  cases pass.error with
  | some e => exact hend _ true
  | none =>
    dsimp only
    split
    · exact h.trail_tearDown c.id true
    · split
      · cases he : b.execute (.serve c.id) with
        | ok b' => exact .done (steady_execute he)
        | error e => exact hend _ _
      · cases b.multiplexer.watch c.id c.stream.registers c.id .oneShot with
        | ok multiplexer => exact .done ⟨.refl, rfl⟩
        | error e => exact hend _ _

/-- The broker whose connection has been read. -/
def reading (b : Broker) (c : Connection) : Broker := (b.applyHalt c.id).putConnection c.readPass.2

theorem steady_reading {c : Connection} (hc : b.connection? c.id = some c) :
    b.Steady (b.reading c) := by
  have hs := b.steady_applyHalt c.id
  refine hs.trans (steady_putConnection ?_ c.standing_readPass)
  unfold connection?
  rwa [registry_applyHalt]

theorem connection?_reading (b : Broker) (c : Connection) :
    (b.reading c).connection? c.id = some c.readPass.2 := by
  unfold reading putConnection connection?
  rw [c.id_readPass]
  exact Table.get?_insert_self _ _ _

/-- The broker once an open connection has been served. -/
theorem serve_of_open {c : Connection} (hc : b.connection? c.id = some c)
    (ho : c.isClosed = false) : b.serve c.id =
      let handled := handleAll c.id c.readPass.1.messages (b.reading c)
      if handled.1 then
        match handled.2.connection? c.id with
        | none => handled.2
        | some c' => handled.2.goOn c' c.readPass.1
      else handled.2 := by
  unfold serve
  rw [hc]
  dsimp only
  rw [ho, if_neg Bool.false_ne_true]
  rfl

theorem momentsOfServing_of_open {c : Connection} (hc : b.connection? c.id = some c)
    (ho : c.isClosed = false) : b.momentsOfServing c.id =
      let handled := handleAll c.id c.readPass.1.messages (b.reading c)
      momentsOfFrames c.id c.readPass.1.messages (b.reading c) ++
        if handled.1 then
          match handled.2.connection? c.id with
          | none => []
          | some c' => handled.2.momentsOfGoingOn c' c.readPass.1
        else [] := by
  unfold momentsOfServing
  rw [hc]
  dsimp only
  rw [ho, if_neg Bool.false_ne_true]
  rfl

/-- A connection that is closed already is not served. -/
theorem serve_of_closed {c : Connection} (hc : b.connection? c.id = some c)
    (ho : c.isClosed = true) : b.serve c.id = b ∧ b.momentsOfServing c.id = [] := by
  unfold serve momentsOfServing
  rw [hc]
  exact ⟨if_pos ho, if_pos ho⟩

theorem Roll.trail_serve (h : Roll accepted b) (id : ConnectionId) :
    Trail b (b.momentsOfServing id) (b.serve id) := by
  cases hc : b.connection? id with
  | none =>
    unfold momentsOfServing serve
    rw [hc]
    exact .done (.refl b)
  | some c =>
    obtain ⟨rfl, -⟩ := h.registered hc
    cases ho : c.isClosed with
    | true =>
      rw [(serve_of_closed hc ho).1, (serve_of_closed hc ho).2]
      exact .done (.refl b)
    | false =>
      have hs := steady_reading hc
      have hread := h.steady hs
      have hframes := hread.trail_handleAll c.id c.readPass.1.messages
      have hall := hread.trail hframes
      rw [serve_of_open hc ho, momentsOfServing_of_open hc ho]
      refine hs.trail (hframes.append ?_)
      dsimp only
      split
      · split
        · exact .done (.refl _)
        · exact hall.trail_goOn _ _
      · exact .done (.refl _)

theorem Roll.trail_perform (h : Roll accepted b) (t : Task) :
    Trail b (b.momentsOfTask t) (b.perform t) := by
  cases t with
  | serve id => exact h.trail_serve id
  | abort id => exact h.trail_tearDown id true

/-- **An event that accepts nobody does what its acts tell.** -/
theorem Roll.trail_apply (h : Roll accepted b) {e : Event} (he : e.accepted? = none) :
    Trail b (b.moments e) (b.apply e) := by
  cases e with
  | accept id stream => cases he
  | change id f => exact .done (h.steady_modifyStream id f)
  | signal id flags => exact .done (b.steady_signal id flags)
  | work =>
    unfold moments Broker.apply work
    cases ht : b.tasks with
    | nil => exact .done (.refl b)
    | cons t ts =>
      have hs : b.Steady { b with tasks := ts } := ⟨.refl, rfl⟩
      exact hs.trail ((h.steady hs).trail_perform t)
  | perform t => exact h.trail_perform t
  | tearDown id abnormal => exact h.trail_tearDown id abnormal
  | publish m => exact .act (.publish (.refl b)) (.done (.refl _))
  | sweep expiry => exact .act (.sweep (.refl b)) (.done (.refl _))
  | remove name => exact .done ⟨Registry.moves_remove _ name, rfl⟩
  | clear => exact .done ⟨Registry.moves_removeAll _ _, rfl⟩
  | setClock now => exact .done ⟨.refl, rfl⟩
  | halt id h' => exact .done ⟨.refl, rfl⟩
  | stopEvents => exact .done ⟨.refl, rfl⟩
  | stopPool => exact .done ⟨.refl, rfl⟩

/-! ## Runs -/

/-- What may happen next: an event, or somebody else takes the lock of a subscription or gives it
back. -/
inductive Turn
  | event (e : Event)
  | contend (name : String) (lock : Lock) (cursor : Option Nat)

/-- The broker after a turn. -/
def turn (b : Broker) : Turn → Broker
  | .event e => b.apply e
  | .contend name lock cursor => { b with registry := b.registry.contend name lock cursor }

/-- The acts of a turn. -/
def acts (b : Broker) : Turn → List Moment
  | .event e => b.moments e
  | .contend .. => []

/-- The broker after a number of turns. -/
def play (b : Broker) (turns : List Turn) : Broker := turns.foldl turn b

/-- The acts of a run, in the order in which they happen. -/
def annals (b : Broker) : List Turn → List Moment
  | [] => []
  | t :: turns => b.acts t ++ (b.turn t).annals turns

/-- The number that a turn gives to a new connection. -/
def Turn.accepted? : Turn → Option ConnectionId
  | .event e => e.accepted?
  | .contend .. => none

/-- The numbers given to connections, the last one first. -/
def acceptedIn (turns : List Turn) : List ConnectionId :=
  (turns.filterMap Turn.accepted?).reverse

theorem acceptedIn_concat (turns : List Turn) (t : Turn) :
    acceptedIn (turns ++ [t]) = t.accepted?.toList ++ acceptedIn turns := by
  unfold acceptedIn
  cases h : t.accepted? with
  | none => simp [h]
  | some id => simp [h]

theorem play_concat (b : Broker) (turns : List Turn) (t : Turn) :
    b.play (turns ++ [t]) = (b.play turns).turn t := by
  unfold play
  rw [List.foldl_append]
  rfl

theorem annals_concat (b : Broker) (turns : List Turn) (t : Turn) :
    b.annals (turns ++ [t]) = b.annals turns ++ (b.play turns).acts t := by
  induction turns generalizing b with
  | nil => exact List.append_nil _
  | cons t' turns ih =>
    change b.acts t' ++ (b.turn t').annals (turns ++ [t]) = _
    rw [ih, ← List.append_assoc]
    rfl

/-- One turn leaves the rolls in order. -/
theorem Roll.turn (h : Roll accepted b) {t : Turn}
    (hn : ∀ id, t.accepted? = some id → id ∉ accepted) :
    Roll (t.accepted?.toList ++ accepted) (b.turn t) := by
  cases t with
  | contend name lock cursor => exact h.steady ⟨b.registry.moves_contend name lock cursor, rfl⟩
  | event e =>
    cases he : e.accepted? with
    | none =>
      have : (Turn.event e).accepted? = none := he
      rw [this]
      exact h.trail (h.trail_apply he)
    | some id =>
      cases e with
      | accept id' stream => exact h.accept (hn id' rfl) stream
      | _ => cases he

/-- What every turn of a run keeps, with the numbers given to connections and the acts so far, the
run keeps if it gives no number twice. -/
theorem play_induction_mem {P : List ConnectionId → List Moment → Broker → Prop} (hnew : P [] [] b)
    {turns : List Turn}
    (hturn : ∀ {accepted past b}, ∀ t ∈ turns, P accepted past b →
      (∀ id, t.accepted? = some id → id ∉ accepted) →
      P (t.accepted?.toList ++ accepted) (past ++ b.acts t) (b.turn t))
    (hn : (acceptedIn turns).Nodup) :
    P (acceptedIn turns) (b.annals turns) (b.play turns) := by
  induction turns using List.reverseRecOn with
  | nil => exact hnew
  | append_singleton turns t ih =>
    rw [acceptedIn_concat] at hn ⊢
    rw [play_concat, annals_concat]
    obtain ⟨-, hold, hfresh⟩ := List.nodup_append.mp hn
    have hp := ih (fun t ht => hturn t (List.mem_append_left _ ht)) hold
    refine hturn t (List.mem_append_right _ (List.mem_singleton_self t)) hp fun id he hid =>
      hfresh id ?_ id hid rfl
    rw [he]
    exact List.mem_singleton_self id

/-- What every turn keeps, with the numbers given to connections and the acts so far, a run keeps
that gives no number twice. -/
theorem play_induction {P : List ConnectionId → List Moment → Broker → Prop} (hnew : P [] [] b)
    (hturn : ∀ {accepted past b} (t : Turn), P accepted past b →
      (∀ id, t.accepted? = some id → id ∉ accepted) →
      P (t.accepted?.toList ++ accepted) (past ++ b.acts t) (b.turn t))
    {turns : List Turn} (hn : (acceptedIn turns).Nodup) :
    P (acceptedIn turns) (b.annals turns) (b.play turns) :=
  play_induction_mem hnew (fun t _ => hturn t) hn

/-- **The rolls are in order after every run** that gives no number twice. -/
theorem Roll.play {turns : List Turn} (settings : Settings) (clock : Timestamp)
    (hn : (acceptedIn turns).Nodup) :
    Roll (acceptedIn turns) ((Broker.new settings clock).play turns) :=
  play_induction (P := fun accepted _ b => Roll accepted b) (roll_new settings clock)
    (fun _ h hfresh => h.turn hfresh) hn

end Broker

end MessageBroker
