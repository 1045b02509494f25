import MessageBroker.Proofs.Broker.Contention
import MessageBroker.Proofs.Broker.Retention

/-!
# Clients that have not logged in

A client that has not logged in may do one thing: log in. Whatever else it sends, and however its
stream fares, it changes nothing for anybody else, gets no answer and leaves no will, and with its
first frame it is gone.

Headlines:
* **`Broker.logsIn_iff`**: which frames log a client in.
* **`Broker.Roll.tearDown_unknown`**, **`Broker.Roll.handleAll_unknown`**,
  **`Broker.Roll.goOn_unknown`**: what becomes of a client that has not logged in.
* **`Broker.play_admission`**: so it is after every run, whoever holds the subscriptions.
-/

namespace MessageBroker

namespace Connection

/-- Reading writes nothing. -/
theorem written_readOn (limit taken : Nat) (c : Connection) :
    (c.readOn limit taken).2.stream.written = c.stream.written := by
  have hread : ∀ {s s' : Net.Stream} {r : Net.ReadResult}, s.read chunkSize = (r, s') →
      s'.written = s.written := by
    intro s s' r h
    obtain rfl : (s.read chunkSize).2 = s' := congrArg Prod.snd h
    rfl
  fun_induction readOn limit taken c with
  | case1 => rfl
  | case2 taken c hl stream hr d => exact hread hr
  | case3 taken c hl bytes stream hr d e hd => exact hread hr
  | case4 taken c hl bytes stream hr d hd hload pass c' hp ih =>
    rw [hp] at ih
    exact ih.trans (hread hr)
  | case5 taken c hl stream hr => exact hread hr
  | case6 taken c hl stream hr hload ih => exact ih.trans (hread hr)
  | case7 => exact hread ‹_›

theorem written_readPass (c : Connection) : c.readPass.2.stream.written = c.stream.written :=
  c.written_readOn _ 0

end Connection

namespace Broker

/-! ## Which frames log a client in -/

/-- A client may log in with a message: it has not done so before, the message has the name and the
password that are asked for, and the client id it names, or the one made up for it, is not that of
another connection. -/
structure Acceptable (b : Broker) (c : Connection) (m : Message) : Prop where
  type : m.type = .connect
  unknown : c.isConnected = false
  authorized : b.settings.broker.username = "" ∨
    (m.header? Header.username.name = some b.settings.broker.username ∧
      m.header? Header.password.name = some b.settings.broker.password)
  free : ∀ id c', id ≠ c.id → b.connection? id = some c' →
    c'.session.clientId ≠ some (b.clientIdOf c.id m)

theorem authorizes_iff {s : BrokerSettings} {m : Message} :
    authorizes s m = true ↔ s.username = "" ∨
      (m.header? Header.username.name = some s.username ∧
        m.header? Header.password.name = some s.password) := by
  unfold authorizes BrokerSettings.allowsAnonymous
  simp

variable {accepted : List ConnectionId} {b b' b'' : Broker}

/-- **Which frames log a client in.** -/
theorem Roll.logsIn_iff (h : Roll accepted b) {c : Connection} (hc : b.connection? c.id = some c)
    (m : Message) : b.LogsIn c m ↔ b.Acceptable c m := by
  -- Where the client has not logged in, nobody has its client id if no other connection has.
  have hfree : c.isConnected = false →
      ((∃ r, b.registry.claim c.id (b.clientIdOf c.id m) = .ok r) ↔
        ∀ id c', id ≠ c.id → b.connection? id = some c' →
          c'.session.clientId ≠ some (b.clientIdOf c.id m)) := by
    intro hn
    have hno := Connection.clientId_of_unknown hn
    rw [h.registry.claim_iff hc hno]
    constructor
    · exact fun hall id c' _ hc' hx => hall id ⟨c', hc', hx⟩
    · rintro hall id ⟨c', hc', hx⟩
      by_cases e : id = c.id
      · subst e
        obtain rfl := Option.some.inj (hc.symm.trans hc')
        rw [hno] at hx
        cases hx
      · exact hall id c' e hc' hx
  constructor
  · rintro ⟨ht, hok⟩
    obtain ⟨hn, ha, registry, hr, -⟩ := connect_of_ok hok
    exact ⟨ht, hn, authorizes_iff.mp ha, (hfree hn).mp ⟨registry, hr⟩⟩
  · rintro ⟨ht, hn, ha, hall⟩
    obtain ⟨registry, hr⟩ := (hfree hn).mpr hall
    refine ⟨ht, ?_⟩
    unfold connect
    rw [hn, if_neg Bool.false_ne_true, if_pos (authorizes_iff.mpr ha)]
    simp only [hr]

/-- A frame that does not log its client in is refused, and the refusal ends the connection. -/
theorem handle_unknown {c : Connection} {m : Message} (hn : c.isConnected = false)
    (hno : ¬ b.LogsIn c m) : ∃ e notices, b.handle c m = (.error e, { b with notices }) ∧
      e.isFatal = true := by
  by_cases ht : m.type = .connect
  · have hfatal : ∀ e, (b.connect c m).1 = .error e → e.isFatal = true := by
      intro e he
      unfold connect at he
      rw [hn, if_neg Bool.false_ne_true] at he
      split at he
      · dsimp only at he
        split at he
        · rename_i hr
          cases he
          unfold Registry.claim at hr
          split at hr
          · split at hr
            · cases hr
            · cases hr
              rfl
          · cases hr
        · cases he
      · cases he
        rfl
    cases he : (b.connect c m).1 with
    | ok _ => exact absurd ⟨ht, he⟩ hno
    | error e =>
      refine ⟨e, (b.connect c m).2.notices, ?_, hfatal e he⟩
      unfold handle
      rw [carryOut_of_connect ht, he, ← connect_of_error he]
      rfl
  · refine ⟨.protocol (.beforeConnect m.type), b.notices, ?_, rfl⟩
    unfold handle
    rw [carryOut_of_unknown hn ht]

/-! ## What others notice -/

/-- Nothing is different but what concerns one connection: destinations, the store, the numbers of
messages, the client ids and all other connections are the same, with their sessions, their
destinations and what has been written to them. -/
structure Aside (id : ConnectionId) (b b' : Broker) : Prop where
  subscriptions : b'.registry.subscriptions = b.registry.subscriptions
  clientIds : b'.registry.clientIds = b.registry.clientIds
  store : b'.store = b.store
  nextId : b'.nextId = b.nextId
  connections : ∀ other, other ≠ id → b'.connection? other = b.connection? other
  departed : ∀ other, other ≠ id → b'.departed.get? other = b.departed.get? other

namespace Aside

variable {id : ConnectionId}

theorem of_eq (hr : b'.registry = b.registry) (hs : b'.store = b.store) (hn : b'.nextId = b.nextId)
    (hd : b'.departed = b.departed) : Aside id b b' := by
  refine ⟨?_, ?_, hs, hn, fun other _ => ?_, fun other _ => ?_⟩
  · rw [hr]
  · rw [hr]
  · unfold connection?
    rw [hr]
  · rw [hd]

theorem refl (id : ConnectionId) (b : Broker) : Aside id b b := of_eq rfl rfl rfl rfl

theorem trans (h : Aside id b b') (h' : Aside id b' b'') : Aside id b b'' where
  subscriptions := h'.subscriptions.trans h.subscriptions
  clientIds := h'.clientIds.trans h.clientIds
  store := h'.store.trans h.store
  nextId := h'.nextId.trans h.nextId
  connections other hne := (h'.connections other hne).trans (h.connections other hne)
  departed other hne := (h'.departed other hne).trans (h.departed other hne)

end Aside

theorem departed_applyHalt (b : Broker) (id : ConnectionId) :
    (b.applyHalt id).departed = b.departed := by
  unfold applyHalt
  split
  · rfl
  · rename_i halt _
    cases halt.events <;> cases halt.pool <;> rfl

/-- Reading a connection concerns nobody else. -/
theorem aside_reading (b : Broker) (c : Connection) : Aside c.id b (b.reading c) := by
  have hu := b.untouched_applyHalt c.id
  have hhalt : Aside c.id b (b.applyHalt c.id) :=
    .of_eq (b.registry_applyHalt c.id) hu.store hu.nextId (b.departed_applyHalt c.id)
  refine hhalt.trans ⟨rfl, rfl, rfl, rfl, fun other hne => ?_, fun _ _ => rfl⟩
  unfold reading putConnection connection?
  rw [c.id_readPass]
  exact Table.get?_insert_of_ne _ _ hne

/-! ## What becomes of a client that has not logged in -/

/-- A connection has gone: it is closed, is not watched, and has been sent nothing more. -/
structure Gone (b : Broker) (c : Connection) : Prop where
  connection : b.connection? c.id = none
  watched : c.id ∉ b.multiplexer.watched
  departed : ∃ s, b.departed.get? c.id = some s ∧ s.closed = true ∧ s.written = c.stream.written

/-- A connection goes on as it was, and has been sent nothing more. -/
def Stays (b : Broker) (c : Connection) : Prop :=
  ∃ c', b.connection? c.id = some c' ∧ c'.standing = c.standing ∧
    c'.stream.written = c.stream.written

variable {c : Connection}

/-- **A client that has not logged in is ended** with no last will, and nobody else is concerned. -/
theorem Roll.tearDown_unknown (h : Roll accepted b) (hc : b.connection? c.id = some c)
    (hn : c.isConnected = false) (abnormal : Bool) :
    Aside c.id b (b.tearDown c.id abnormal) ∧ (b.tearDown c.id abnormal).Gone c := by
  obtain ⟨hsession, hempty⟩ := h.registry.unknown hc (Connection.clientId_of_unknown hn)
  have hconclude : ∀ b₀ : Broker, b₀.conclude c.shut abnormal = b₀ := by
    intro b₀
    unfold conclude publishWill Connection.isConnected Connection.shut
    simp [hsession]
  have hsubs : ((b.leave c).registry).subscriptions = b.registry.subscriptions := by
    rw [Roll.registry_leave hc, Registry.removeConnection_of_some hc]
    refine Table.ext fun name => ?_
    simp [hempty]
  have hids : ((b.leave c).registry).clientIds = b.registry.clientIds := by
    rw [Roll.registry_leave hc, Registry.removeConnection_of_some hc]
    unfold Registry.freeClientId
    rw [hsession]
  have hconn := (h.gone hc).connections
  rw [h.tearDown_eq hc, hconclude]
  refine ⟨⟨hsubs, hids, rfl, rfl, fun other hne => ?_, fun other hne => ?_⟩, ⟨?_, ?_, ?_⟩⟩
  · exact (hconn other).trans (if_neg hne)
  · exact Table.get?_insert_of_ne _ _ hne
  · exact (hconn c.id).trans (if_pos rfl)
  · exact fun hw => (not_mem_forget hw).1 rfl
  · exact ⟨c.stream.close, Table.get?_insert_self _ _ _, rfl, rfl⟩

theorem aside_report (id : ConnectionId) (b : Broker) (n : Notice) : Aside id b (b.report n) :=
  .of_eq rfl rfl rfl rfl

/-- What the first frame of a client that has not logged in comes to, if it does not log in. -/
theorem Roll.handleAll_unknown (h : Roll accepted b) (hc : b.connection? c.id = some c)
    (hn : c.isConnected = false) {m : Message} (hno : ¬ b.LogsIn c m) (ms : List Message) :
    (handleAll c.id (m :: ms) b).1 = false ∧
      Aside c.id b (handleAll c.id (m :: ms) b).2 ∧ (handleAll c.id (m :: ms) b).2.Gone c := by
  obtain ⟨e, notices, he, hfatal⟩ := handle_unknown hn hno
  have hrefused : Aside c.id b { b with notices } := .of_eq rfl rfl rfl rfl
  have hroll : ∀ n, Roll accepted ({ b with notices }.report n) := fun n => h.steady ⟨.refl, rfl⟩
  unfold handleAll
  rw [hc]
  dsimp only
  rw [he]
  dsimp only
  rw [if_pos hfatal]
  obtain ⟨ha, hg⟩ := (hroll _).tearDown_unknown hc hn true
  exact ⟨rfl, hrefused.trans ((aside_report _ _ _).trans ha), hg⟩

/-- What follows a pass without frames. -/
theorem Roll.goOn_unknown (h : Roll accepted b) (hc : b.connection? c.id = some c)
    (hn : c.isConnected = false) (pass : ReadPass) :
    Aside c.id b (b.goOn c pass) ∧
      ((b.goOn c pass).Gone c ∨
        pass.error = none ∧ pass.ended = false ∧ (b.goOn c pass).Stays c) := by
  have hend : ∀ n abnormal, Aside c.id b ((b.report n).tearDown c.id abnormal) ∧
      ((b.report n).tearDown c.id abnormal).Gone c := by
    intro n abnormal
    obtain ⟨ha, hg⟩ := (h.steady (b.steady_report n)).tearDown_unknown hc hn abnormal
    exact ⟨(aside_report _ _ n).trans ha, hg⟩
  unfold goOn
  cases pass.error with
  | some e => exact (hend _ true).imp_right .inl
  | none =>
    cases pass.ended with
    | true => exact (h.tearDown_unknown hc hn true).imp_right .inl
    | false =>
      dsimp only
      rw [if_neg Bool.false_ne_true]
      split
      · unfold execute
        split
        · rename_i he
          split at he
          · cases he
          · cases he
            exact ⟨.of_eq rfl rfl rfl rfl, .inr ⟨rfl, rfl, c, hc, rfl, rfl⟩⟩
        · exact (hend _ _).imp_right .inl
      · split
        · exact ⟨.of_eq rfl rfl rfl rfl, .inr ⟨rfl, rfl, c, hc, rfl, rfl⟩⟩
        · exact (hend _ _).imp_right .inl

/-! ## The acts -/

/-- The frame that is handled at a moment. -/
def Moment.frame? (x : Moment) : Option Message :=
  match x.act with
  | .frame _ m => some m
  | _ => none

/-- The end of a client that has not logged in posts nothing. -/
theorem Roll.momentsOfTearDown_unknown (h : Roll accepted b) (hc : b.connection? c.id = some c)
    (hn : c.isConnected = false) (abnormal : Bool) :
    ∀ x ∈ b.momentsOfTearDown c.id abnormal, x.frame? = none ∧ x.act.posting? = none := by
  obtain ⟨hsession, -⟩ := h.registry.unknown hc (Connection.clientId_of_unknown hn)
  rw [h.momentsOfTearDown_eq hc]
  intro x hx
  rw [List.mem_singleton.mp hx]
  refine ⟨rfl, ?_⟩
  unfold Act.posting? willPosting? Connection.shut
  simp [hsession]

theorem Roll.momentsOfGoingOn_unknown (h : Roll accepted b) (hc : b.connection? c.id = some c)
    (hn : c.isConnected = false) (pass : ReadPass) :
    ∀ x ∈ b.momentsOfGoingOn c pass, x.frame? = none ∧ x.act.posting? = none := by
  have hend : ∀ n abnormal, ∀ x ∈ (b.report n).momentsOfTearDown c.id abnormal,
      x.frame? = none ∧ x.act.posting? = none := fun n =>
    (h.steady (b.steady_report n)).momentsOfTearDown_unknown hc hn
  unfold momentsOfGoingOn
  cases pass.error with
  | some e => exact hend _ true
  | none =>
    dsimp only
    split
    · exact h.momentsOfTearDown_unknown hc hn true
    · split
      · split
        · exact List.forall_mem_nil _
        · exact hend _ _
      · split
        · exact List.forall_mem_nil _
        · exact hend _ _

/-- The first act is that of the first frame. -/
theorem momentsOfFrames_cons {id : ConnectionId} (hc : b.connection? id = some c) (m : Message)
    (ms : List Message) : ∃ acts, momentsOfFrames id (m :: ms) b = ⟨b, .frame c m⟩ :: acts := by
  unfold momentsOfFrames
  rw [hc]
  exact ⟨_, rfl⟩

/-- What is left to do once the first frame has been refused. -/
theorem Roll.momentsOfFrames_unknown (h : Roll accepted b) (hc : b.connection? c.id = some c)
    (hn : c.isConnected = false) {m : Message} (hno : ¬ b.LogsIn c m) (ms : List Message) :
    ∃ acts, momentsOfFrames c.id (m :: ms) b = ⟨b, .frame c m⟩ :: acts ∧
      ∀ x ∈ acts, x.frame? = none ∧ x.act.posting? = none := by
  obtain ⟨e, notices, he, hfatal⟩ := handle_unknown hn hno
  have hroll : ∀ n, Roll accepted ({ b with notices }.report n) := fun n => h.steady ⟨.refl, rfl⟩
  unfold momentsOfFrames
  rw [hc]
  dsimp only
  rw [he]
  dsimp only
  rw [if_pos hfatal]
  exact ⟨_, rfl, (hroll _).momentsOfTearDown_unknown hc hn true⟩

/-! ## Serving a client that has not logged in -/

/-- What becomes of a client that has not logged in and does not do so when it is served, and of
everybody else: `acts` are the acts of serving it. -/
structure Barred (b : Broker) (c : Connection) (acts : List Moment) (b' : Broker) : Prop where
  aside : Aside c.id b b'
  /-- It is sent nothing, whether it stays or goes. -/
  unanswered : b'.Gone c ∨ b'.Stays c
  /-- No frame behind the first one is handled. -/
  heard : acts.filterMap Moment.frame? =
    if c.isClosed then [] else c.readPass.1.messages.take 1
  /-- No message is published, and so no last will; none is acknowledged. -/
  silent : ∀ x ∈ acts, x.act.posting? = none
  /-- A frame, a failure or the end of what it sends ends it. -/
  ended : c.isClosed = false →
    c.readPass.1.messages ≠ [] ∨ c.readPass.1.error ≠ none ∨ c.readPass.1.ended = true → b'.Gone c

/-- What a connection was last seen with makes no difference once it has gone. -/
theorem Gone.of_readPass (h : b.Gone c.readPass.2) : b.Gone c := by
  obtain ⟨hgone, hw, s, hs, hclosed, hwritten⟩ := h
  rw [c.id_readPass] at hgone hw hs
  exact ⟨hgone, hw, s, hs, hclosed, hwritten.trans c.written_readPass⟩

theorem Stays.of_readPass (h : b.Stays c.readPass.2) : b.Stays c := by
  obtain ⟨c', hc', hst, hwritten⟩ := h
  rw [c.id_readPass] at hc'
  exact ⟨c', hc', hst.trans c.standing_readPass, hwritten.trans c.written_readPass⟩

/-- Nothing is read from a connection that is closed already. -/
theorem barred_of_closed (hc : b.connection? c.id = some c) (ho : c.isClosed = true) :
    b.Barred c (b.momentsOfServing c.id) (b.serve c.id) := by
  obtain ⟨hserve, hacts⟩ := serve_of_closed hc ho
  rw [hserve, hacts]
  refine ⟨.refl _ _, .inr ⟨c, hc, rfl, rfl⟩, ?_, List.forall_mem_nil _, fun ho' => ?_⟩
  · rw [ho]
    rfl
  · rw [ho] at ho'
    cases ho'

/-- A client that has sent no whole frame stays, unless its stream has ended or failed. -/
theorem Roll.barred_of_nil (h : Roll accepted b) (hc : b.connection? c.id = some c)
    (hn : c.isConnected = false) (ho : c.isClosed = false) (hms : c.readPass.1.messages = []) :
    b.Barred c (b.momentsOfServing c.id) (b.serve c.id) := by
  have hread := h.steady (steady_reading hc)
  have hn' := c.isConnected_readPass.trans hn
  have hc₁ := b.connection?_reading c
  have hc' : (b.reading c).connection? c.readPass.2.id = some c.readPass.2 :=
    c.id_readPass.symm ▸ hc₁
  obtain ⟨hgo, hout⟩ := hread.goOn_unknown hc' hn' c.readPass.1
  have hacts := hread.momentsOfGoingOn_unknown hc' hn' c.readPass.1
  rw [momentsOfServing_of_open hc ho, serve_of_open hc ho, hms]
  simp only [handleAll, momentsOfFrames, if_true, List.nil_append, hc₁]
  refine ⟨(b.aside_reading c).trans (c.id_readPass ▸ hgo), ?_, ?_, fun x hx => (hacts x hx).2,
    fun _ hwhy => ?_⟩
  · exact hout.imp (·.of_readPass) (·.2.2.of_readPass)
  · rw [ho, hms]
    simp only [Bool.false_eq_true, if_false, List.take_nil]
    exact List.filterMap_eq_nil_iff.mpr fun x hx => (hacts x hx).1
  · rcases hout with hg | ⟨he, hended, -⟩
    · exact hg.of_readPass
    · rw [hms, he, hended] at hwhy
      simp at hwhy

/-- The first frame of a client ends it if it does not log in. -/
theorem Roll.barred_of_cons (h : Roll accepted b) (hc : b.connection? c.id = some c)
    (hn : c.isConnected = false) (ho : c.isClosed = false) {m : Message} {ms : List Message}
    (hms : c.readPass.1.messages = m :: ms) (hno : ¬ (b.reading c).LogsIn c.readPass.2 m) :
    b.Barred c (b.momentsOfServing c.id) (b.serve c.id) := by
  have hread := h.steady (steady_reading hc)
  have hn' := c.isConnected_readPass.trans hn
  have hc' : (b.reading c).connection? c.readPass.2.id = some c.readPass.2 :=
    c.id_readPass.symm ▸ b.connection?_reading c
  obtain ⟨hgoes, hall, hg⟩ := hread.handleAll_unknown hc' hn' hno ms
  obtain ⟨acts, hacts, hrest⟩ := hread.momentsOfFrames_unknown hc' hn' hno ms
  rw [c.id_readPass] at hgoes hall hg hacts
  rw [momentsOfServing_of_open hc ho, serve_of_open hc ho, hms]
  simp only [hgoes, Bool.false_eq_true, if_false, List.append_nil]
  refine ⟨(b.aside_reading c).trans hall, .inl hg.of_readPass, ?_, ?_, fun _ _ => hg.of_readPass⟩
  · rw [ho, hms, hacts]
    have hnone : acts.filterMap Moment.frame? = [] :=
      List.filterMap_eq_nil_iff.mpr fun x hx => (hrest x hx).1
    have hm : Moment.frame? ⟨b.reading c, .frame c.readPass.2 m⟩ = some m := rfl
    rw [List.filterMap_cons_some hm, hnone]
    rfl
  · rw [hacts]
    refine List.forall_mem_cons.mpr ⟨?_, fun x hx => (hrest x hx).2⟩
    unfold Act.posting? framePosting?
    simp [hn']

/-- **Serving a client that has not logged in,** when none of its frames that are handled does. -/
theorem Roll.serve_unknown (h : Roll accepted b) (hc : b.connection? c.id = some c)
    (hn : c.isConnected = false)
    (hno : ∀ x ∈ b.momentsOfServing c.id, ∀ c' m, x.act = .frame c' m →
      ¬ x.broker.Acceptable c' m) :
    b.Barred c (b.momentsOfServing c.id) (b.serve c.id) := by
  cases ho : c.isClosed with
  | true => exact barred_of_closed hc ho
  | false =>
    cases hms : c.readPass.1.messages with
    | nil => exact h.barred_of_nil hc hn ho hms
    | cons m ms =>
      refine h.barred_of_cons hc hn ho hms fun hin => ?_
      have hc₁ := b.connection?_reading c
      have hacc := ((h.steady (steady_reading hc)).logsIn_iff (c.id_readPass.symm ▸ hc₁) m).mp hin
      obtain ⟨acts, hacts⟩ := momentsOfFrames_cons hc₁ m ms
      refine hno ⟨b.reading c, .frame c.readPass.2 m⟩ ?_ c.readPass.2 m rfl hacc
      rw [momentsOfServing_of_open hc ho, hms, hacts]
      exact List.mem_append_left _ List.mem_cons_self

/-- **Clients that have not logged in after any run,** whoever held subscriptions in it, if no
number was given to a connection twice: which frames would log a client in, and what becomes of it
and of everybody else when it is served and none of the frames that are handled does. -/
theorem play_admission (settings : Settings) (clock : Timestamp) {turns : List Turn}
    (h : (acceptedIn turns).Nodup) (hb : b = (Broker.new settings clock).play turns)
    {id : ConnectionId} (hc : b.connection? id = some c) (hn : c.isConnected = false) :
    (∀ m, b.LogsIn c m ↔ b.Acceptable c m) ∧
      ((∀ x ∈ b.momentsOfServing id, ∀ c' m, x.act = .frame c' m → ¬ x.broker.Acceptable c' m) →
        b.Barred c (b.momentsOfServing id) (b.serve id)) := by
  have hroll : Roll (acceptedIn turns) b := hb ▸ Roll.play settings clock h
  obtain ⟨rfl, -⟩ := hroll.registered hc
  exact ⟨hroll.logsIn_iff hc, hroll.serve_unknown hc hn⟩

/-- A client joins a destination, whose lock is taken then; another one wants to publish there
before it has logged in. -/
def knock : List Turn :=
  [.event (.accept 1 {}), .event (.sent 1 (.connect "ada")), .event (.sent 1 (.subscribe "news")),
    .event (.perform (.serve 1)), .contend "news" .exclusive none, .event (.accept 2 {}),
    .event (.sent 2 (.publish "news" []))]

theorem knock_admission : (acceptedIn knock).Nodup ∧
    ∃ b c, b = (Broker.new {} 0).play knock ∧ b.connection? 2 = some c ∧ c.isConnected = false ∧
      (∀ x ∈ b.momentsOfServing 2, ∀ c' m, x.act = .frame c' m → ¬ x.broker.Acceptable c' m) ∧
      b.momentsOfServing 2 ≠ [] ∧ (∀ m, b.LogsIn c m ↔ b.Acceptable c m) ∧
      b.Barred c (b.momentsOfServing 2) (b.serve 2) := by
  have hnodup : (acceptedIn knock).Nodup := by decide
  have hlive : ((((Broker.new {} 0).play knock).connection? 2).map Connection.isConnected) =
      some false := by decide +kernel
  have hframes : ((((Broker.new {} 0).play knock).momentsOfServing 2).filterMap
      fun x => x.frame?.map Message.type) = [.message] := by decide +kernel
  obtain ⟨c, hc, hn⟩ := Option.map_eq_some_iff.mp hlive
  have hno : ∀ x ∈ ((Broker.new {} 0).play knock).momentsOfServing 2, ∀ c' m,
      x.act = .frame c' m → ¬ x.broker.Acceptable c' m := by
    intro x hx c' m hact hacc
    have hframe : x.frame?.map Message.type = some m.type := by
      unfold Moment.frame?
      rw [hact]
      rfl
    have hm : m.type ∈ [MessageType.message] := by
      rw [← hframes]
      exact List.mem_filterMap.mpr ⟨x, hx, hframe⟩
    rw [hacc.type] at hm
    exact absurd hm (by decide)
  have hne : ((Broker.new {} 0).play knock).momentsOfServing 2 ≠ [] := by
    intro he
    rw [he] at hframes
    cases hframes
  obtain ⟨hiff, hbarred⟩ := play_admission {} 0 hnodup rfl hc hn
  exact ⟨hnodup, _, c, rfl, hc, hn, hno, hne, hiff, hbarred hno⟩

end Broker

end MessageBroker
