import MessageBroker.Proofs.Broker.Admission
import MessageBroker.Proofs.Broker.Endings

/-!
# Frames that end their connection

A client that asks for what it may not ask for is cut off: for anything before its login has been
accepted, a login that is not accepted, a second login, an acknowledgement that only a broker sends,
a request without the destination that it needs, and a subscription of a type or a level that there
is not. It is cut off as well if it cannot be answered. A destination that somebody holds is no
reason: the request is refused, and the connection goes on.

Headlines:
* **`Broker.Forbidden`**: what a client may not ask for; **`Broker.Roll.carryOut_iff`**: it is
  refused for good, and nothing else is.
* **`Broker.Roll.cause?_iff`**: which frames end their connection.
-/

namespace MessageBroker.Broker

variable {accepted : List ConnectionId} {b b' : Broker} {c : Connection} {m : Message}

/-- What a client may not ask for. -/
inductive Forbidden (b : Broker) (c : Connection) (m : Message) : Prop
  | beforeLogin (hn : c.isConnected = false) (ht : m.type ≠ .connect)
  | rejected (hn : c.isConnected = false) (ht : m.type = .connect) (ha : ¬ b.Acceptable c m)
  | again (hin : c.isConnected = true) (ht : m.type = .connect)
  /-- Only a broker acknowledges requests. -/
  | acknowledgement (hin : c.isConnected = true) (ht : m.type.isAcknowledgement = true)
  | noDestination (hin : c.isConnected = true) (ht : m.type.requiresDestination = true)
    (ha : m.address? = none)
  | badType {text : String} {e : ProtocolError} (hin : c.isConnected = true)
    (ht : m.type = .subscribe) (hx : m.header? Header.destinationType.name = some text)
    (he : DestinationType.read text = .error e)
  | badQoS {text : String} {e : ProtocolError} (hin : c.isConnected = true)
    (ht : m.type = .subscribe) (hx : m.header? Header.qos.name = some text)
    (he : QoS.read text = .error e)

/-- What a client asks for is done, and cannot be answered. -/
def Unanswered (b : Broker) (c : Connection) (m : Message) : Prop :=
  ∃ b' e, b.carryOut c m = (.ok .continue, b') ∧ (b'.reply c.id m.type).1 = .error e

/-! ## What waits for a lock -/

theorem isFatal_of_joinAll (type : DestinationType) (qos : QoS) {id : ConnectionId}
    {clientId : String} {names : List String} {e : BrokerError}
    (hin : b.registry.LoggedIn id clientId) (he : (joinAll id type qos names b).1 = .error e) :
    e.isFatal = false := by
  induction names generalizing b with
  | nil => cases he
  | cons name names ih =>
    have hm := Registry.moves_subscribe hin name type qos
    unfold joinAll at he
    split at he
    · rename_i notices registry hs
      rw [hs] at hm
      exact ih (Registry.loggedIn_of_login (fun id => (hm.login? id).symm) hin) he
    · rename_i e' notices registry hs
      cases he
      obtain ⟨c, hc, -⟩ := hin
      unfold Registry.subscribe at hs
      rw [hc] at hs
      dsimp only at hs
      split at hs
      · cases hs
        rfl
      · cases hs

theorem isFatal_of_leaveAll {id : ConnectionId} {names : List String} {e : BrokerError}
    (he : (leaveAll id names b).1 = .error e) : e.isFatal = false := by
  induction names generalizing b with
  | nil => cases he
  | cons name names ih =>
    unfold leaveAll at he
    split at he
    · exact ih he
    · cases he
      rfl

theorem isFatal_of_publish {e : BrokerError} {name : String} (hm : m.address? = some name)
    (he : (b.publish m).1 = .error e) : e.isFatal = false := by
  have hm' : (stamped m b.nextId).address? = some name := hm
  unfold publish at he
  rw [hm] at he
  dsimp only at he
  split at he
  · rename_i hd
    cases he
    unfold Registry.deliver at hd
    rw [hm'] at hd
    dsimp only at hd
    split at hd
    · cases hd
    · split at hd
      · cases hd
        rfl
      · cases hd
  · cases he

/-! ## What is refused for good -/

theorem map_eq_error {α β ε : Type} {r : Except ε α} {f : α → β} {e : ε} :
    r.map f = .error e ↔ r = .error e := by
  cases r <;> simp [Except.map]

/-- A frame is refused if what it asks for is, or if it cannot be answered. -/
theorem handle_eq_error {e : BrokerError} : (b.handle c m).1 = .error e ↔
    (b.carryOut c m).1 = .error e ∨
      ∃ b', b.carryOut c m = (.ok .continue, b') ∧ (b'.reply c.id m.type).1 = .error e := by
  unfold handle
  rcases hr : b.carryOut c m with ⟨e' | flow, b'⟩
  · simp
  · cases flow <;> simp [map_eq_error]

theorem requestedType_eq_error {e : ProtocolError} : requestedType m = .error e ↔
    ∃ text, m.header? Header.destinationType.name = some text ∧
      DestinationType.read text = .error e := by
  unfold requestedType
  cases m.header? Header.destinationType.name <;> simp

theorem requestedQoS_eq_error {e : ProtocolError} : requestedQoS m = .error e ↔
    ∃ text, m.header? Header.qos.name = some text ∧ QoS.read text = .error e := by
  unfold requestedQoS
  cases m.header? Header.qos.name <;> simp

theorem subscribe_iff (hc : b.connection? c.id = some c) (hin : c.isConnected = true)
    (ht : m.type = .subscribe) :
    (∃ e, (b.subscribe c m).1 = .error e ∧ e.isFatal = true) ↔ b.Forbidden c m := by
  obtain ⟨clientId, hx⟩ := Option.isSome_iff_exists.mp hin
  constructor
  · rintro ⟨e, he, hf⟩
    unfold subscribe at he
    split at he
    · rename_i ha
      exact .noDestination hin (by rw [ht]; rfl) ha
    · split at he
      · rename_i hr
        obtain ⟨text, htext, hread⟩ := requestedType_eq_error.mp hr
        exact .badType hin ht htext hread
      · rename_i hr
        obtain ⟨text, htext, hread⟩ := requestedQoS_eq_error.mp hr
        exact .badQoS hin ht htext hread
      · rw [isFatal_of_joinAll _ _ ⟨c, hc, hx⟩ he] at hf
        cases hf
  · intro h
    unfold subscribe
    cases h with
    | beforeLogin hn | rejected hn =>
      rw [hin] at hn
      cases hn
    | again _ ht' | acknowledgement _ ht' =>
      rw [ht] at ht'
      cases ht'
    | noDestination _ _ ha =>
      rw [ha]
      exact ⟨_, rfl, rfl⟩
    | @badType text e _ _ htext hread =>
      rw [requestedType_eq_error.mpr ⟨text, htext, hread⟩]
      cases m.address? with
      | none => exact ⟨_, rfl, rfl⟩
      | some names => exact ⟨_, rfl, rfl⟩
    | @badQoS text e _ _ htext hread =>
      rw [requestedQoS_eq_error.mpr ⟨text, htext, hread⟩]
      cases m.address? with
      | none => exact ⟨_, rfl, rfl⟩
      | some names => cases requestedType m <;> exact ⟨_, rfl, rfl⟩

/-- A client that has logged in is refused for good if it asks for what it may not ask for. -/
theorem carryOut_iff_of_connected (hc : b.connection? c.id = some c) (hin : c.isConnected = true) :
    (∃ e, (b.carryOut c m).1 = .error e ∧ e.isFatal = true) ↔ b.Forbidden c m := by
  have hno : m.type ≠ .connect → m.type ≠ .subscribe → m.type.isAcknowledgement = false →
      (m.type.requiresDestination = false ∨ m.address? ≠ none) → ¬ b.Forbidden c m := by
    intro h₁ h₂ h₃ h₄ h
    cases h with
    | beforeLogin hn | rejected hn =>
      rw [hin] at hn
      cases hn
    | again _ ht => exact h₁ ht
    | acknowledgement _ ht =>
      rw [h₃] at ht
      cases ht
    | noDestination _ ht ha =>
      rcases h₄ with h₄ | h₄
      · rw [h₄] at ht
        cases ht
      · exact h₄ ha
    | badType _ ht | badQoS _ ht => exact h₂ ht
  cases ht : m.type with
  | connect =>
    rw [carryOut_of_connect ht]
    refine iff_of_true ⟨.protocol .duplicateConnect, ?_, rfl⟩ (.again hin ht)
    rw [map_eq_error]
    unfold connect
    rw [hin]
    rfl
  | subscribe =>
    rw [← subscribe_iff hc hin ht]
    unfold carryOut
    rw [hin, ht]
    simp only [map_eq_error, Bool.not_true, Bool.and_false, Bool.false_eq_true, if_false]
  | unsubscribe =>
    refine iff_of_false ?_ (hno (by rw [ht]; decide) (by rw [ht]; decide) (by rw [ht]; rfl)
      (.inl (by rw [ht]; rfl)))
    rintro ⟨e, he, hf⟩
    unfold carryOut at he
    rw [hin, ht] at he
    rw [isFatal_of_leaveAll (map_eq_error.mp he)] at hf
    cases hf
  | message =>
    rw [carryOut_of_message hin ht]
    simp only [map_eq_error]
    cases ha : m.address? with
    | none =>
      rw [publish_of_none ha]
      exact iff_of_true ⟨_, rfl, rfl⟩ (.noDestination hin (by rw [ht]; rfl) ha)
    | some name =>
      refine iff_of_false ?_ (hno (by rw [ht]; decide) (by rw [ht]; decide) (by rw [ht]; rfl)
        (.inr (by rw [ha]; exact Option.some_ne_none _)))
      rintro ⟨e, he, hf⟩
      rw [isFatal_of_publish ha he] at hf
      cases hf
  | ack | ping | disconnect =>
    refine iff_of_false ?_ (hno (by rw [ht]; decide) (by rw [ht]; decide) (by rw [ht]; rfl)
      (.inl (by rw [ht]; rfl)))
    rintro ⟨e, he, -⟩
    unfold carryOut at he
    rw [hin, ht] at he
    cases he
  | connectAck | subscribeAck | unsubscribeAck | publishAck | pingAck =>
    refine iff_of_true ⟨.protocol (.unexpectedFromClient m.type), ?_, rfl⟩
      (.acknowledgement hin (by rw [ht]; rfl))
    unfold carryOut
    rw [hin, ht]
    rfl

/-- **What a client may not ask for is refused for good, and nothing else is.** -/
theorem Roll.carryOut_iff (h : Roll accepted b) (hc : b.connection? c.id = some c) :
    (∃ e, (b.carryOut c m).1 = .error e ∧ e.isFatal = true) ↔ b.Forbidden c m := by
  cases hn : c.isConnected with
  | true => exact carryOut_iff_of_connected hc hn
  | false =>
    by_cases hin : b.LogsIn c m
    · have hacc := (h.logsIn_iff hc m).mp hin
      refine iff_of_false ?_ fun hx => ?_
      · rintro ⟨e, he, -⟩
        rw [carryOut_of_connect hin.1, hin.2] at he
        cases he
      · cases hx with
        | beforeLogin _ ht => exact ht hin.1
        | rejected _ _ ha => exact ha hacc
        | again hin' | acknowledgement hin' | noDestination hin' | badType hin' | badQoS hin' =>
          rw [hn] at hin'
          cases hin'
    · refine iff_of_true ?_ ?_
      · obtain ⟨e', notices, hh, hf⟩ := handle_unknown hn hin
        have hcarry : ∃ e, (b.carryOut c m).1 = .error e := by
          by_cases ht : m.type = .connect
          · rw [carryOut_of_connect ht]
            cases he : (b.connect c m).1 with
            | ok _ => exact absurd ⟨ht, he⟩ hin
            | error e => exact ⟨e, rfl⟩
          · rw [carryOut_of_unknown hn ht]
            exact ⟨_, rfl⟩
        obtain ⟨e, he⟩ := hcarry
        have he' := handle_eq_error.mpr (.inl he)
        rw [hh] at he'
        cases he'
        exact ⟨e', he, hf⟩
      · by_cases ht : m.type = .connect
        · exact .rejected hn ht fun ha => hin ((h.logsIn_iff hc m).mpr ha)
        · exact .beforeLogin hn ht

/-- A request of any other kind is no farewell. -/
theorem map_continue_ne {α : Type} (r : Except BrokerError α) :
    r.map (fun _ => Flow.continue) ≠ .ok .disconnect := by
  intro h
  cases r <;> cases h

/-- Only a client that has logged in can take its leave. -/
theorem handle_eq_disconnect : (b.handle c m).1 = .ok .disconnect ↔
    c.isConnected = true ∧ m.type = .disconnect := by
  have hcarry : (b.handle c m).1 = .ok .disconnect ↔ (b.carryOut c m).1 = .ok .disconnect := by
    unfold handle
    rcases b.carryOut c m with ⟨e | flow, b'⟩
    · rfl
    · cases flow with
      | «continue» => exact iff_of_false (map_continue_ne _) nofun
      | disconnect => rfl
  rw [hcarry]
  unfold carryOut
  cases hn : c.isConnected with
  | false =>
    cases m.type with
    | connect => exact iff_of_false (map_continue_ne _) nofun
    | _ => exact iff_of_false nofun nofun
  | true =>
    cases m.type with
    | connect | subscribe | unsubscribe | message =>
      exact iff_of_false (map_continue_ne _) nofun
    | disconnect => exact iff_of_true rfl ⟨rfl, rfl⟩
    | _ => exact iff_of_false nofun nofun

/-- **Which frames end their connection:** that of a client that takes its leave, one that asks for
what is forbidden, and one that cannot be answered. -/
theorem Roll.cause?_iff (h : Roll accepted b) (hc : b.connection? c.id = some c) :
    (Moment.cause? ⟨b, .frame c m⟩).isSome ↔
      (c.isConnected = true ∧ m.type = .disconnect) ∨ b.Forbidden c m ∨ b.Unanswered c m := by
  have hfatal : (∃ e, (b.handle c m).1 = .error e ∧ e.isFatal = true) ↔
      b.Forbidden c m ∨ b.Unanswered c m := by
    rw [← h.carryOut_iff hc]
    constructor
    · rintro ⟨e, he, hf⟩
      rcases handle_eq_error.mp he with he | ⟨b', hok, he⟩
      · exact .inl ⟨e, he, hf⟩
      · exact .inr ⟨b', e, hok, he⟩
    · rintro (⟨e, he, hf⟩ | ⟨b', e, hok, he⟩)
      · exact ⟨e, handle_eq_error.mpr (.inl he), hf⟩
      · exact ⟨e, handle_eq_error.mpr (.inr ⟨b', hok, he⟩), isFatal_of_reply he⟩
  rw [← hfatal, ← handle_eq_disconnect (b := b)]
  unfold Moment.cause?
  dsimp only
  rcases (b.handle c m).1 with e | flow
  · cases hf : e.isFatal <;> simp [hf]
  · cases flow <;> simp

end MessageBroker.Broker
