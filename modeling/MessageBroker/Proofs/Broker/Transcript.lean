import MessageBroker.Proofs.Broker.Outbox

/-!
# What a broker writes

An act writes to a connection in at most two goes: pieces of a message that the act publishes, and
then pieces of the acknowledgement of the frame that it handles. What is written to a connection
over a run is what the acts of the run write to it, one after the other, whatever the other end has
taken meanwhile.

Headlines:
* **`Broker.publish_written`**, **`Broker.reply_written`**: what publishing a message writes, and
  what answering a frame.
* **`Broker.Moment.Writes`**: what an act writes to a connection; **`Broker.Roll.writes`**: so it
  does.
* **`Broker.transcript`**: what is written to a connection over a run;
  **`Broker.Roll.transcript_eq`**: it is what the acts of the run write.
-/

namespace MessageBroker

namespace Registry

variable {r : Registry}

/-- Whoever holds the destination, a connection that a message is routed to is sent it once, or not
at all. -/
theorem Enrolled.get?_deliver (h : r.Enrolled) (m : Message) (id : ConnectionId) :
    (r.deliver m).2.2.connections.get? id = r.connections.get? id ∨
      (r.deliver m).2.2.connections.get? id =
        (r.connections.get? id).map fun c => (c.send m).2 := by
  unfold deliver
  split
  · exact .inl rfl
  · split
    · exact .inl rfl
    · rename_i name _ _ s hs
      split
      · exact .inl rfl
      · rename_i targets held hb
        obtain ⟨htargets, -⟩ := Subscription.begin_eq_ok hb
        have hn : targets.Nodup := htargets ▸ Subscription.nodup_targets (h.nodup hs)
        have hx := (attemptAll_deliverTo m s.name hn (r.putSubscription name held)).1 id
        by_cases hid : id ∈ targets
        · rw [if_pos hid] at hx
          exact .inr hx
        · rw [if_neg hid] at hx
          exact .inl hx

end Registry

namespace Broker

variable {accepted : List ConnectionId} {b b' : Broker} {c : Connection} {m : Message}

/-! ## Publishing -/

theorem departed_publish (b : Broker) (m : Message) : (b.publish m).2.departed = b.departed := by
  unfold publish
  split
  · rfl
  · dsimp only
    split
    · rfl
    · split <;> rfl

/-- **Publishing writes the message with its number,** to each live connection once or not at
all. -/
theorem publish_written (h : b.registry.Enrolled) (m : Message) (id : ConnectionId) :
    ∃ pieces, (b.publish m).2.written id = b.written id ++ pieces ∧
      (pieces = [] ∨ id ∈ b.registry.connections ∧ m.address?.isSome ∧
        ∃ ok, Wire.Puts (stamped m b.nextId) ok pieces) := by
  cases hm : m.address? with
  | none =>
    rw [publish_of_none hm]
    exact ⟨[], (List.append_nil _).symm, .inl rfl⟩
  | some name =>
    have hreg : (b.publish m).2.registry = (b.registry.deliver (stamped m b.nextId)).2.2 := by
      unfold publish
      rw [hm]
      dsimp only
      split
      · rfl
      · split <;> rfl
    have hget := h.get?_deliver (stamped m b.nextId) id
    rw [← hreg] at hget
    unfold written connection?
    rw [departed_publish]
    rcases hget with hget | hget
    · rw [hget]
      exact ⟨[], (List.append_nil _).symm, .inl rfl⟩
    · cases hc : b.registry.connections.get? id with
      | none =>
        rw [hget, hc]
        exact ⟨[], (List.append_nil _).symm, .inl rfl⟩
      | some c =>
        rw [hget, hc]
        obtain ⟨pieces, hw, hputs⟩ := c.written_send (stamped m b.nextId)
        exact ⟨pieces, hw, .inr ⟨Option.isSome_iff_exists.mpr ⟨c, hc⟩, rfl, _, hputs⟩⟩

/-- A message that is published is given the next number. -/
theorem nextId_publish (b : Broker) (m : Message) :
    (b.publish m).2.nextId = b.nextId + if m.address?.isSome then 1 else 0 := by
  unfold publish
  cases hm : m.address? with
  | none => rfl
  | some name =>
    dsimp only
    split
    · rfl
    · split <;> rfl

/-! ## Answering -/

/-- A bare frame arrives as it was sent. -/
theorem arrived_answer {t answer : MessageType} (h : t.answer = some answer) :
    answer.layout = .empty ∧ Wire.arrived { type := answer } = { type := answer } := by
  have hl : answer.layout = .empty := by
    cases t <;> cases h <;> rfl
  refine ⟨hl, ?_⟩
  have hl' : (Wire.Outgoing.own { type := answer }).message.type.layout = .empty := hl
  unfold Wire.arrived Wire.Outgoing.arrival
  rw [hl']
  rfl

theorem written_putConnection (b : Broker) (c : Connection) (id : ConnectionId) :
    (b.putConnection c).written id = if id = c.id then c.stream.written else b.written id := by
  have hc : (b.putConnection c).connection? id = if id = c.id then some c else b.connection? id :=
    Table.get?_insert ..
  unfold written
  rw [hc]
  by_cases e : id = c.id
  · rw [if_pos e, if_pos e]
  · rw [if_neg e, if_neg e]
    rfl

/-- What answering a request comes to: nothing where it is not answered, and otherwise an
acknowledgement is sent to the connection, if it is there. -/
theorem reply_eq (b : Broker) (id : ConnectionId) (t : MessageType) :
    b.reply id t =
      match t.answer.filter fun _ => b.settings.broker.sendAcks || t == .ping with
      | none => (.ok (), b)
      | some answer =>
        match b.connection? id with
        | none => (.error (.connectionGone id), b)
        | some c =>
          let (outcome, c) := c.send { type := answer }
          (outcome, b.putConnection c) := by
  unfold reply
  cases t.answer with
  | none => rfl
  | some answer =>
    simp only [Option.filter_some]
    split <;> rfl

/-- **Answering writes to the connection that is answered.** It reads the acknowledgement if that
goes well and answers are turned on, or what is answered is a ping. -/
theorem reply_written (h : b.registry.Enrolled) (id : ConnectionId) (t : MessageType) :
    ∃ pieces, (∀ other, (b.reply id t).2.written other =
        b.written other ++ if other = id then pieces else []) ∧
      pieces.filterMap Wire.frameIn? =
        if (b.reply id t).1.isOk then
          (t.answer.filter fun _ => b.settings.broker.sendAcks || t == .ping).toList.map
            fun answer => { type := answer }
        else [] := by
  have hnone : ∀ other, b.written other = b.written other ++ if other = id then [] else [] := by
    intro other
    rw [ite_self, List.append_nil]
  rw [reply_eq]
  cases ha : t.answer.filter fun _ => b.settings.broker.sendAcks || t == .ping with
  | none => exact ⟨[], hnone, rfl⟩
  | some answer =>
    cases hc : b.connection? id with
    | none => exact ⟨[], hnone, rfl⟩
    | some c =>
      obtain ⟨hl, harrived⟩ := arrived_answer (Option.filter_eq_some_iff.mp ha).1
      obtain ⟨pieces, hw, hputs⟩ := c.written_send { type := answer }
      have hi : (c.send { type := answer }).2.id = id :=
        (congrArg Standing.id (c.standing_send _)).trans (h.registered hc).1
      refine ⟨pieces, fun other => ?_, ?_⟩
      · dsimp only
        rw [written_putConnection, hi]
        by_cases e : other = id
        · subst e
          rw [if_pos rfl, if_pos rfl, hw]
          unfold written
          rw [hc]
        · rw [if_neg e, if_neg e, List.append_nil]
      · have hne : Layout.empty ≠ .optionalHeaders := by decide
        rw [hputs.frames_eq (hl ▸ hne), harrived]
        rfl

/-! ## Acts -/

/-- The message that is published at a moment, and the number that it is given. -/
def Moment.publication? (x : Moment) : Option (MessageId × Message) :=
  match x.act.posting? with
  | some (.published m) => some (x.broker.nextId, m)
  | _ => none

/-- The frame that is handled at a moment is accepted, and its connection goes on. -/
def Moment.accepts (x : Moment) : Bool :=
  match x.act with
  | .frame c m =>
    match (x.broker.handle c m).1 with
    | .ok .continue => true
    | _ => false
  | _ => false

/-- The acknowledgement that a connection is sent at a moment. -/
def Moment.answer? (x : Moment) (id : ConnectionId) : Option MessageType :=
  match x.act with
  | .frame c m =>
    if c.id = id ∧ x.accepts then
      m.type.answer.filter fun _ => x.broker.settings.broker.sendAcks || m.type == .ping
    else none
  | _ => none

theorem ne_message_of_answer {t answer : MessageType} (h : t.answer = some answer) :
    answer ≠ .message := by
  cases t <;> cases h <;> decide

/-- An answer is no message. -/
theorem type_answer? {x : Moment} {id : ConnectionId} {answer : MessageType}
    (h : x.answer? id = some answer) : answer ≠ .message := by
  unfold Moment.answer? at h
  split at h
  · split at h
    · exact ne_message_of_answer (Option.filter_eq_some_iff.mp h).1
    · cases h
  · cases h

/-- What an act writes to a connection: pieces of the message that it publishes, and then what the
other end reads as the acknowledgement of the frame that it handles. -/
structure Moment.Writes (x : Moment) (id : ConnectionId) (message answer : List Bytes) : Prop where
  written : x.after.written id = x.broker.written id ++ (message ++ answer)
  published : message = [] ∨
    ∃ n m ok, x.publication? = some (n, m) ∧ Wire.Puts (stamped m n) ok message
  answered : answer.filterMap Wire.frameIn? =
    (x.answer? id).toList.map fun answer => { type := answer }
  /-- Nothing is written to a connection that is not live. -/
  live : message ++ answer ≠ [] → id ∈ x.broker.registry.connections

theorem Silent.writes {x : Moment} (h : x.broker.Silent x.after) (id : ConnectionId)
    (ha : x.answer? id = none) : x.Writes id [] [] := by
  refine ⟨?_, .inl rfl, ?_, fun hno => absurd rfl hno⟩
  · rw [h.written, List.nil_append, List.append_nil]
  · rw [ha]
    rfl

theorem publication?_of_posting {x : Moment} (h : x.act.posting? = some (.published m)) :
    x.publication? = some (x.broker.nextId, m) := by
  unfold Moment.publication?
  rw [h]

theorem posted_of_isSome (h : m.address?.isSome) : posted m = some (.published m) := if_pos h

theorem writes_publish (h : b.registry.Enrolled) (m : Message) (id : ConnectionId) :
    ∃ message, Moment.Writes ⟨b, .publish m⟩ id message [] := by
  obtain ⟨pieces, hw, hp⟩ := publish_written h m id
  refine ⟨pieces, ⟨hw.trans (by rw [List.append_nil]), hp.imp_right ?_, rfl, fun hno => ?_⟩⟩
  · rintro ⟨-, ha, ok, hputs⟩
    exact ⟨_, m, ok, publication?_of_posting (posted_of_isSome ha), hputs⟩
  · rw [List.append_nil] at hno
    exact (hp.resolve_left hno).1

/-- Of the end of a connection there is to be written its last will. -/
theorem writes_conclude (h : b.registry.Enrolled) (c : Connection) (abnormal : Bool)
    (id : ConnectionId) : ∃ message, Moment.Writes ⟨b, .conclude c abnormal⟩ id message [] := by
  have hend : ∀ b' : Broker, b'.Silent (if c.isConnected then b'.report (.disconnected c.name)
      else b') := by
    intro b'
    split
    · exact b'.silent_report _
    · exact .refl b'
  cases abnormal with
  | false => exact ⟨[], (hend b).writes (x := ⟨b, .conclude c false⟩) id rfl⟩
  | true =>
    cases hl : c.session.lastWill with
    | none =>
      have hafter : Moment.after ⟨b, .conclude c true⟩ =
          if c.isConnected then b.report (.disconnected c.name) else b := by
        unfold Moment.after conclude publishWill
        simp [hl]
      exact ⟨[], Silent.writes (hafter ▸ hend b) id rfl⟩
    | some will =>
      obtain ⟨pieces, hw, hp⟩ := publish_written h will.toMessage id
      have hwill : (b.publish will.toMessage).2.Silent (b.publishWill c) := by
        unfold publishWill
        rw [hl]
        dsimp only
        rcases b.publish will.toMessage with ⟨e | _, b'⟩
        · exact b'.silent_report _
        · exact .refl b'
      refine ⟨pieces, ⟨?_, hp.imp_right ?_, rfl, fun hno => ?_⟩⟩
      · have := (hwill.trans (hend _)).written id
        rw [hw] at this
        exact this.trans (by rw [List.append_nil])
      · rintro ⟨-, ha, ok, hputs⟩
        refine ⟨_, _, ok, publication?_of_posting (m := will.toMessage) ?_, hputs⟩
        have hposting : willPosting? c true = posted will.toMessage := by
          unfold willPosting?
          rw [hl]
          rfl
        exact hposting.trans (posted_of_isSome ha)
      · rw [List.append_nil] at hno
        exact (hp.resolve_left hno).1

/-- Answers aside, of the frames of a client only a message writes anything. -/
theorem silent_carryOut (hc : b.connection? c.id = some c)
    (hno : c.isConnected = true → m.type ≠ .message) : b.Silent (b.carryOut c m).2 := by
  by_cases ht : m.type = .connect
  · rw [carryOut_of_connect ht]
    exact silent_connect hc m
  · cases hin : c.isConnected with
    | false =>
      rw [carryOut_of_unknown hin ht]
      exact .refl b
    | true =>
      unfold carryOut
      rw [hin]
      cases hm : m.type with
      | connect => exact absurd hm ht
      | message => exact absurd hm (hno hin)
      | subscribe => exact b.silent_subscribe c m
      | unsubscribe => exact silent_leaveAll ..
      | ack => exact b.silent_acknowledge c m
      | _ => exact .refl b

theorem carryOut_written (h : b.registry.Enrolled) (hc : b.connection? c.id = some c) (m : Message)
    (id : ConnectionId) :
    ∃ pieces, (b.carryOut c m).2.written id = b.written id ++ pieces ∧
      (pieces = [] ∨ id ∈ b.registry.connections ∧ framePosting? c m = some (.published m) ∧
        ∃ ok, Wire.Puts (stamped m b.nextId) ok pieces) := by
  by_cases hpub : c.isConnected = true ∧ m.type = .message
  · obtain ⟨hin, ht⟩ := hpub
    rw [carryOut_of_message hin ht]
    obtain ⟨pieces, hw, hp⟩ := publish_written h m id
    refine ⟨pieces, hw, hp.imp_right fun ⟨hl, ha, hputs⟩ => ⟨hl, ?_, hputs⟩⟩
    unfold framePosting?
    rw [hin, ht]
    exact posted_of_isSome ha
  · have hs := silent_carryOut hc fun hin ht => hpub ⟨hin, ht⟩
    exact ⟨[], (hs.written id).trans (List.append_nil _).symm, .inl rfl⟩

/-- The rolls are in order before a frame is answered. -/
theorem Roll.carryOut (h : Roll accepted b) (hc : b.connection? c.id = some c) (m : Message) :
    Roll accepted (b.carryOut c m).2 := by
  by_cases hin : b.LogsIn c m
  · rw [carryOut_of_connect hin.1]
    exact h.login hc hin
  · exact h.steady (steady_carryOut hc hin)

theorem settings_publish (b : Broker) (m : Message) : (b.publish m).2.settings = b.settings := by
  unfold publish
  split
  · rfl
  · dsimp only
    split
    · rfl
    · split <;> rfl

theorem settings_carryOut (hc : b.connection? c.id = some c) (m : Message) :
    (b.carryOut c m).2.settings = b.settings := by
  by_cases hpub : c.isConnected = true ∧ m.type = .message
  · rw [carryOut_of_message hpub.1 hpub.2]
    exact b.settings_publish m
  · exact (silent_carryOut hc fun hin ht => hpub ⟨hin, ht⟩).settings

theorem accepts_of_unanswered (hno : ∀ b', b.carryOut c m ≠ (.ok .continue, b')) :
    Moment.accepts ⟨b, .frame c m⟩ = false := by
  unfold Moment.accepts
  dsimp only
  rw [handle_of_unanswered hno]
  split
  · rename_i he
    have hok : b.carryOut c m = (.ok .continue, (b.carryOut c m).2) := Prod.ext he rfl
    exact absurd hok (hno _)
  · rfl

theorem accepts_of_answered (he : b.carryOut c m = (.ok .continue, b')) :
    Moment.accepts ⟨b, .frame c m⟩ = (b'.reply c.id m.type).1.isOk := by
  unfold Moment.accepts
  dsimp only
  rw [handle_of_answered he]
  cases (b'.reply c.id m.type).1 <;> rfl

theorem Roll.writes_frame (h : Roll accepted b) (hc : b.connection? c.id = some c) (m : Message)
    (id : ConnectionId) :
    ∃ message answer, Moment.Writes ⟨b, .frame c m⟩ id message answer := by
  obtain ⟨message, hmessage, hputs⟩ := carryOut_written h.registry hc m id
  have hmessage' : message = [] ∨ ∃ n m' ok,
      Moment.publication? ⟨b, .frame c m⟩ = some (n, m') ∧ Wire.Puts (stamped m' n) ok message :=
    hputs.imp_right fun ⟨_, hp, ok, hx⟩ => ⟨_, m, ok, publication?_of_posting hp, hx⟩
  have hid : c.id ∈ b.registry.connections := Option.isSome_iff_exists.mpr ⟨c, hc⟩
  by_cases hanswered : ∃ b', b.carryOut c m = (.ok .continue, b')
  · obtain ⟨b', he⟩ := hanswered
    have hroll := h.carryOut hc m
    have hsettings := settings_carryOut hc m
    rw [he] at hmessage hroll hsettings
    obtain ⟨answer, hw, hframes⟩ := reply_written hroll.registry c.id m.type
    refine ⟨message, if id = c.id then answer else [], ⟨?_, hmessage', ?_, fun hno => ?_⟩⟩
    · rw [← List.append_assoc, ← hmessage, ← hw,
        ← show _ = _ from congrArg Prod.snd (handle_of_answered he)]
      rfl
    · unfold Moment.answer?
      dsimp only
      rw [accepts_of_answered he]
      by_cases e : id = c.id
      · subst e
        rw [if_pos rfl, hframes, hsettings]
        cases (b'.reply c.id m.type).1.isOk <;> simp
      · rw [if_neg e, if_neg fun hx => e hx.1.symm]
        rfl
    · by_cases e : id = c.id
      · exact e ▸ hid
      · rw [if_neg e, List.append_nil] at hno
        exact (hputs.resolve_left hno).1
  · rw [not_exists] at hanswered
    refine ⟨message, [], ⟨?_, hmessage', ?_, fun hno => ?_⟩⟩
    · rw [List.append_nil, ← hmessage, ← handle_of_unanswered hanswered]
      rfl
    · unfold Moment.answer?
      simp [accepts_of_unanswered hanswered]
    · rw [List.append_nil] at hno
      exact (hputs.resolve_left hno).1

/-- An act is led to with the rolls in order, and its frame is of a connection as it is. -/
theorem Roll.leads (h : Roll accepted b) {x : Moment} (hx : b.Leads x) :
    Roll accepted x.broker ∧ ∀ c m, x.act = .frame c m → x.broker.connection? c.id = some c := by
  cases hx with
  | frame hs hc =>
    refine ⟨h.steady hs, fun c' m' hact => ?_⟩
    cases hact
    exact hc
  | leave hs hc => exact ⟨(h.steady hs).leave hc, fun c' m' hact => nomatch hact⟩
  | publish hs => exact ⟨h.steady hs, fun c' m' hact => nomatch hact⟩
  | sweep hs => exact ⟨h.steady hs, fun c' m' hact => nomatch hact⟩

/-- **What an act writes.** -/
theorem Roll.writes (h : Roll accepted b) {x : Moment} (hx : b.Leads x) (id : ConnectionId) :
    ∃ message answer, x.Writes id message answer := by
  obtain ⟨hroll, hframe⟩ := h.leads hx
  obtain ⟨b', act⟩ := x
  cases act with
  | frame c m => exact hroll.writes_frame (hframe c m rfl) m id
  | conclude c abnormal =>
    obtain ⟨message, hw⟩ := writes_conclude hroll.registry c abnormal id
    exact ⟨message, [], hw⟩
  | publish m =>
    obtain ⟨message, hw⟩ := writes_publish hroll.registry m id
    exact ⟨message, [], hw⟩
  | sweep expiry =>
    exact ⟨[], [], Silent.writes (silent_of_registry (.refl _) rfl rfl rfl) id rfl⟩

/-! ## Runs -/

/-- What has been written to a connection since a broker was as it was. -/
def grown (b b' : Broker) (id : ConnectionId) : List Bytes :=
  (b'.written id).drop (b.written id).length

/-- What is written to a connection at a moment. -/
def Moment.sends (x : Moment) (id : ConnectionId) : List Bytes := x.broker.grown x.after id

/-- **What the broker writes to a connection over a run,** write by write. In between the other end
may take what was written. -/
def transcript (b : Broker) (id : ConnectionId) : List Turn → List Bytes
  | [] => []
  | t :: turns =>
    (if t.isOutside then [] else b.grown (b.turn t) id) ++ (b.turn t).transcript id turns

theorem grown_eq {id : ConnectionId} {pieces : List Bytes}
    (h : b'.written id = b.written id ++ pieces) : b.grown b' id = pieces := by
  unfold grown
  rw [h, List.drop_left]

theorem Moment.Writes.sends_eq {x : Moment} {id : ConnectionId} {message answer : List Bytes}
    (h : x.Writes id message answer) : x.sends id = message ++ answer := grown_eq h.written

/-- Every act of a run is led to with the rolls in order. -/
theorem Roll.forall_leads (h : Roll accepted b) {xs : List Moment} (ht : Trail b xs b') :
    ∀ x ∈ xs, ∃ b₀, Roll accepted b₀ ∧ b₀.Leads x := by
  induction ht with
  | done _ => exact List.forall_mem_nil _
  | act before _ ih => exact List.forall_mem_cons.mpr ⟨⟨_, h, before⟩, ih (h.act before)⟩

/-- Acts write one after the other. -/
theorem Script.written {xs : List Moment} (hs : Script b xs b') {id : ConnectionId}
    (hx : ∀ x ∈ xs, x.after.written id = x.broker.written id ++ x.sends id) :
    b'.written id = b.written id ++ xs.flatMap (·.sends id) := by
  induction hs with
  | done h => rw [h.written, List.flatMap_nil, List.append_nil]
  | act before _ ih =>
    obtain ⟨hfirst, hrest⟩ := List.forall_mem_cons.mp hx
    rw [ih hrest, hfirst, before.written, List.flatMap_cons, List.append_assoc]

theorem Roll.trail_turn (h : Roll accepted b) {t : Turn} (ht : t.accepted? = none) :
    Trail b (b.acts t) (b.turn t) := by
  cases t with
  | contend name lock cursor => exact .done ⟨b.registry.moves_contend name lock cursor, rfl⟩
  | event e => exact h.trail_apply ht

theorem Turn.accepted?_of_inside {t : Turn} (ht : t.isOutside = false) : t.accepted? = none := by
  cases t with
  | contend name lock cursor => rfl
  | event e =>
    cases e with
    | accept id stream => cases ht
    | _ => rfl

theorem acts_of_outside {t : Turn} (ht : t.isOutside = true) : b.acts t = [] := by
  cases t with
  | contend name lock cursor => rfl
  | event e =>
    cases e with
    | accept id stream => rfl
    | change id f => rfl
    | _ => cases ht

/-- What one turn of the broker writes. -/
theorem Roll.grown_turn (h : Roll accepted b) {t : Turn} (ht : t.isOutside = false)
    (id : ConnectionId) : b.grown (b.turn t) id = (b.acts t).flatMap (·.sends id) := by
  refine grown_eq ((h.script_turn ht).written fun x hx => ?_)
  obtain ⟨b₀, h₀, hlead⟩ := h.forall_leads (h.trail_turn (Turn.accepted?_of_inside ht)) x hx
  obtain ⟨message, answer, hw⟩ := h₀.writes hlead id
  rw [hw.sends_eq, hw.written]

theorem acceptedIn_cons (t : Turn) (turns : List Turn) :
    acceptedIn (t :: turns) = acceptedIn turns ++ t.accepted?.toList := by
  unfold acceptedIn
  cases h : t.accepted? with
  | none => simp [h]
  | some id => simp [h]

/-- Where no number is given twice, the first turn gives none that was given before. -/
theorem fresh_of_nodup {t : Turn} {turns : List Turn}
    (hn : (acceptedIn (t :: turns) ++ accepted).Nodup) :
    (∀ id, t.accepted? = some id → id ∉ accepted) ∧
      (acceptedIn turns ++ (t.accepted?.toList ++ accepted)).Nodup := by
  rw [acceptedIn_cons, List.append_assoc] at hn
  refine ⟨fun id hid hold => ?_, hn⟩
  obtain ⟨-, hnew, -⟩ := List.nodup_append.mp hn
  rw [hid] at hnew
  exact (List.nodup_cons.mp hnew).1 hold

/-- **What is written over a run is what its acts write,** if no number is given twice. -/
theorem Roll.transcript_eq (h : Roll accepted b) {turns : List Turn}
    (hn : (acceptedIn turns ++ accepted).Nodup) (id : ConnectionId) :
    b.transcript id turns = (b.annals turns).flatMap (·.sends id) := by
  induction turns generalizing accepted b with
  | nil => rfl
  | cons t turns ih =>
    obtain ⟨hfresh, hrest⟩ := fresh_of_nodup hn
    change (if t.isOutside then [] else b.grown (b.turn t) id) ++ (b.turn t).transcript id turns =
      (b.acts t ++ (b.turn t).annals turns).flatMap _
    rw [List.flatMap_append, ih (h.turn hfresh) hrest]
    cases ht : t.isOutside with
    | true =>
      rw [acts_of_outside ht]
      rfl
    | false =>
      rw [h.grown_turn ht]
      rfl

/-- So every act of a run is led to with the rolls in order. -/
theorem Roll.forall_annals (h : Roll accepted b) {turns : List Turn}
    (hn : (acceptedIn turns ++ accepted).Nodup) :
    ∀ x ∈ b.annals turns, ∃ accepted' b₀, Roll accepted' b₀ ∧ b₀.Leads x := by
  induction turns generalizing accepted b with
  | nil => exact List.forall_mem_nil _
  | cons t turns ih =>
    obtain ⟨hfresh, hrest⟩ := fresh_of_nodup hn
    refine List.forall_mem_append.mpr ⟨fun x hx => ?_, ih (h.turn hfresh) hrest⟩
    cases ht : t.isOutside with
    | true =>
      rw [acts_of_outside ht] at hx
      cases hx
    | false =>
      have htrail := h.trail_turn (Turn.accepted?_of_inside ht)
      obtain ⟨b₀, h₀, hlead⟩ := h.forall_leads htrail x hx
      exact ⟨_, b₀, h₀, hlead⟩

end Broker

end MessageBroker
