import MessageBroker.Proofs.Broker.Retention
import MessageBroker.Proofs.Wire.Forwarding

/-!
# What a publisher sends is what the members get

From the wire of a publisher to the wires of the members: in whatever state a run leaves a broker, a
message that came off the wire is given a new number and put, under that number and otherwise as it
was, on the streams of those it is meant for and on no other. It can always be written. A member
whose stream fails has no part in what the others get, nor in what the publisher is answered.

A new number is one that no message had before, as long as fewer than 2^64 messages are published:
the counter does not begin again here (`Broker.nextId`).

Headlines:
* **`Broker.Transparent`**: what becomes of a message that is published.
* **`Broker.run_transparent`**: that becomes of it, whatever the run was.
-/

namespace MessageBroker.Broker

/-- A message as it is forwarded: to its destination, with its body, and with its headers, of which
one is its number. -/
def forwarded (m : Message) (destination : String) (id : MessageId) : Message where
  type := .message
  headers := m.headers.insert Header.messageId.name (Text.decimal id)
  destination := some destination
  body := m.body

/-- What becomes of a message to a destination that a connection publishes, when `past` is what the
broker has done before. -/
structure Transparent (past : List Moment) (b : Broker) (c : Connection) (m : Message)
    (destination : String) (frame : Bytes) : Prop where
  /-- It is given the next number, which has not been given out and is not in the store. -/
  numbered : (∃ delivery, (b.publish m).1 = .ok (b.nextId, delivery)) ∧
    (b.publish m).2.nextId = b.nextId + 1
  fresh : b.nextId ∉ past.filterMap Moment.number? ∧ b.store.get? b.nextId = none
  /-- It can be written, and is read back as it was, but for its number. -/
  encoded : Wire.encodeOwn (stamped m b.nextId) = .ok frame
  decoded : Wire.ReadsAs frame (forwarded m destination b.nextId)
  /-- So it is in whatever order its headers come up. -/
  anyOrder : ∀ o : Wire.Outgoing, o.destination = destination → o.message = stamped m b.nextId →
    o.written.outcome = .ok () ∧ Wire.ReadsAs o.frame (forwarded m destination b.nextId)
  /-- It is meant for live connections, and for each once. -/
  once : (b.audience destination).Nodup
  live : ∀ id ∈ b.audience destination, ∃ x, b.connection? id = some x ∧ x.closed = false
  /-- Whoever it is meant for gets it, as one write, if the stream accepts it. -/
  taken : ∀ id ∈ b.audience destination, ∀ x, b.connection? id = some x → x.stream.Accepts frame →
    ∃ x', (b.publish m).2.connection? id = some x' ∧
      x'.stream.written = x.stream.written ++ [frame]
  /-- On a stream that does not accept it there is no more than a part of it. -/
  refused : ∀ id ∈ b.audience destination, ∀ x, b.connection? id = some x →
    ¬ x.stream.Accepts frame → ∃ x' part, (b.publish m).2.connection? id = some x' ∧
      part <+: frame ∧ part ≠ frame ∧
      x'.stream.written.flatten = x.stream.written.flatten ++ part
  /-- Nothing is written to anybody else. -/
  nowhereElse : (∀ id ∉ b.audience destination,
      (b.publish m).2.connection? id = b.connection? id) ∧
    (b.publish m).2.departed = b.departed ∧ (b.publish m).2.displaced = b.displaced
  /-- What is written to a connection does not depend on the other connections. -/
  independent : ∀ id b', b.Alike id b' →
    (b'.publish m).2.connection? id = (b.publish m).2.connection? id
  /-- The publisher is answered, if answers are turned on, and nobody else is. -/
  answered : ∃ c', (b.publish m).2.connection? c.id = some c' ∧
    b.handle c m =
      if b.settings.broker.sendAcks then
        ((c'.send { type := .publishAck }).1.map fun _ => .continue,
          (b.publish m).2.putConnection (c'.send { type := .publishAck }).2)
      else (.ok .continue, (b.publish m).2)
  onlyAnswered : ∀ id ≠ c.id,
    (b.handle c m).2.connection? id = (b.publish m).2.connection? id
  /-- Nor does this depend on the other connections. -/
  answeredAlike : ∀ b', b.Alike c.id b' → (b'.handle c m).1 = (b.handle c m).1 ∧
    (b'.handle c m).2.connection? c.id = (b.handle c m).2.connection? c.id

variable {b : Broker} {m : Message} {destination : String}

/-! ## The frame -/

theorem destination_of_address (h : m.address? = some destination) :
    m.destination = some destination ∧ destination.isEmpty = false := by
  obtain ⟨hd, hne⟩ := Option.filter_eq_some_iff.mp h
  exact ⟨hd, by simpa using hne⟩

theorem stamped_eq_forwarded (ht : m.type = .message) (hd : m.address? = some destination)
    (id : MessageId) : stamped m id = forwarded m destination id := by
  obtain ⟨type, headers, dest, body⟩ := m
  obtain ⟨hdest, -⟩ := destination_of_address hd
  cases ht
  cases hdest
  rfl

/-- The number of a message may be written as a header. -/
theorem isWritable_messageId (id : MessageId) :
    Wire.isWritable (Header.messageId.name, Text.decimal id) = true := by
  have hname : Wire.isWritableName Header.messageId.name = true := by decide
  have hvalue : '\n' ∉ (Text.decimal id).toList := fun hn =>
    absurd (Text.isDigit_of_mem_decimal hn) (by decide)
  unfold Wire.isWritable Wire.isWritableValue
  simp only [hname, List.contains_eq_mem, hvalue, decide_false, Bool.not_false, Bool.and_self]

/-- A message that was read and given a number is fit to be written. -/
theorem readable_stamped (h : Wire.Readable m) (id : MessageId) : Wire.Readable (stamped m id) :=
  h.withHeader (isWritable_messageId id) (by decide)

/-- **A message that was read is forwarded,** in whatever order its headers come up. -/
theorem reads_forwarded (h : Wire.Readable m) (ht : m.type = .message)
    (hd : m.address? = some destination) {id : MessageId}
    (hs : Wire.headerBlockLength destination (stamped m id).headers.entries < Wire.lengthBound)
    {o : Wire.Outgoing} (ho : o.destination = destination) (hm : o.message = stamped m id) :
    o.written.outcome = .ok () ∧ Wire.ReadsAs o.frame (forwarded m destination id) := by
  obtain ⟨hdest, hne⟩ := destination_of_address hd
  have hread : Wire.Readable o.message := hm ▸ readable_stamped h id
  have hl : o.message.type.layout = .headersAndBody := by
    have htype : o.message.type = .message := hm ▸ ht
    rw [htype]
    rfl
  have hdest' : o.message.destination = some o.destination := by
    rw [hm, ho]
    exact hdest
  have hne' : o.destination.isEmpty = false := ho ▸ hne
  have hw : o.written.outcome = .ok () := by
    rw [← ho, ← hm] at hs
    exact Wire.Outgoing.written_of_readable hread hl (hread.destination hdest') hne' hs
  have hread' := Wire.Outgoing.readsAs_of_readable hread hl hdest' hne' hw
  rw [hm, stamped_eq_forwarded ht hd] at hread'
  exact ⟨hw, hread'⟩

/-! ## What becomes of it -/

/-- A publisher stays registered under its number while its message is routed. -/
theorem registered_publish (h : b.registry.Coherent) {c : Connection}
    (hc : b.connection? c.id = some c) (m : Message) :
    ∃ c', (b.publish m).2.connection? c.id = some c' ∧ c'.id = c.id := by
  obtain ⟨hr, hl⟩ := (b.keeps_publish m).registry h
  have hm : c.id ∈ (b.publish m).2.registry.connections :=
    (hl c.id).mpr (Option.isSome_iff_exists.mpr ⟨c, hc⟩)
  obtain ⟨c', hc'⟩ := Option.isSome_iff_exists.mp hm
  exact ⟨c', hc', (hr.registered hc').1⟩

/-- Where the tables agree, a message that was read is forwarded as it was. -/
theorem transparent (h : b.registry.Coherent) (hi : b.Issued) {past : List Moment}
    (hfresh : b.nextId ∉ past.filterMap Moment.number?) {c : Connection}
    (hc : b.connection? c.id = some c) (hin : c.isConnected = true) (hm : Wire.Readable m)
    (ht : m.type = .message) (hd : m.address? = some destination)
    (hs : Wire.headerBlockLength destination (stamped m b.nextId).headers.entries <
      Wire.lengthBound) :
    ∃ frame, Transparent past b c m destination frame := by
  let o := Wire.Outgoing.own (stamped m b.nextId)
  have hp := publish_eq h.atRest hd
  have hdest : o.destination = destination := by
    have := (destination_of_address hd).1
    exact congrArg (Option.getD · "") this
  have hforward : ∀ o : Wire.Outgoing, o.destination = destination →
      o.message = stamped m b.nextId →
      o.written.outcome = .ok () ∧ Wire.ReadsAs o.frame (forwarded m destination b.nextId) :=
    fun o => reads_forwarded hm ht hd hs
  obtain ⟨hw, hread⟩ := hforward o hdest rfl
  have hf : Wire.encodeOwn (stamped m b.nextId) = .ok o.frame :=
    Wire.Outgoing.encodeOwn_of_written hw
  have hne : o.frame ≠ [] := by
    intro he
    have hmarker := Wire.Outgoing.marker_prefix_frame hw
    rw [he] at hmarker
    exact absurd (List.prefix_nil.mp hmarker) (by decide)
  obtain ⟨c', hc', hci⟩ := registered_publish h hc m
  have hok := congrArg Prod.fst hp
  have hsettings : (b.publish m).2.settings = b.settings := by rw [hp]
  refine ⟨o.frame, {
    numbered := ⟨⟨_, hok⟩, by rw [hp]⟩
    fresh := ⟨hfresh, hi.get?_nextId⟩
    encoded := hf
    decoded := hread
    anyOrder := hforward
    once := nodup_audience h.atRest destination
    live := fun id => live_of_mem_audience h
    taken := ?taken
    refused := ?refused
    nowhereElse := ⟨fun id hid => ?elsewhere, by rw [hp], by rw [hp]⟩
    independent := fun id b' ha => ha.publish h.atRest hd
    answered := ⟨c', hc', hsettings ▸ handle_message hin ht hok hc'⟩
    onlyAnswered := fun id => connection?_handle_of_ne hin ht hok hc' hci
    answeredAlike := fun b' ha => ha.handle h.atRest hd hin ht hc' hci }⟩
  case taken =>
    intro id hid x hx ha
    obtain ⟨ho, hx'⟩ := connection?_publish_of_mem h hd hid hx
    rw [Connection.send_of_encoded ho hf] at hx'
    exact ⟨_, hx', Net.Stream.written_of_accepts hne ha⟩
  case refused =>
    intro id hid x hx ha
    obtain ⟨ho, hx'⟩ := connection?_publish_of_mem h hd hid hx
    rw [Connection.send_of_encoded ho hf] at hx'
    obtain ⟨part, hpart, hless, hflat⟩ := Net.Stream.written_of_not_accepts hne ha
    exact ⟨_, part, hx', hpart, hless, hflat⟩
  case elsewhere => rw [connection?_publish h.atRest hd, if_neg hid]

/-- **What a publisher sends is what the members get,** wherever a run comes by, if no number was
given to a connection twice and the header block of the message has room for its number. -/
theorem run_transparent (settings : Settings) (clock : Timestamp) {events : List Event}
    (hn : (acceptedBy events).Nodup) {past : List Moment}
    (hb : (Broker.new settings clock).ComesBy events past b) {c : Connection}
    (hc : b.connection? c.id = some c) (hin : c.isConnected = true)
    {decoder : Wire.Decoder} {ended : Bool} {input : Bytes}
    (hm : (decoder.next ended input).result = .ok (some m)) (ht : m.type = .message)
    (hd : m.address? = some destination)
    (hs : Wire.headerBlockLength destination (stamped m b.nextId).headers.entries <
      Wire.lengthBound) :
    ∃ frame, Transparent past b c m destination frame := by
  obtain ⟨hcoherent, hspans⟩ := (sound_new settings clock).comesBy (by rwa [List.append_nil]) hb
  have hi : b.Issued := hspans.issued fun id e he => nomatch he
  exact transparent hcoherent hi hspans.fresh hc hin (Wire.readable_of_next hm) ht hd hs

/-- A client has joined a destination, and another one has logged in. -/
def bulletin : List Event :=
  [.accept 1 {}, .sent 1 (.connect "ada"), .sent 1 (.subscribe "news"), .perform (.serve 1),
    .accept 2 {}, .sent 2 (.connect "bob"), .perform (.serve 2)]

/-- The other one, as it is then. -/
def reporter : Connection := (((Broker.new {} 0).run bulletin).connection? 2).getD (.new 2 {} 0)

/-- What it sends, under a number of its own choice. -/
def headline : Message :=
  (Message.publish "news" (utf8 "rain")).withHeader Header.messageId.name "7"

theorem bulletin_transparent :
    let b := (Broker.new {} 0).run bulletin
    (acceptedBy bulletin).Nodup ∧ b.connection? reporter.id = some reporter ∧
      reporter.isConnected = true ∧
      ((Wire.Decoder.new 0).next false ((Wire.encodeOwn headline).toOption.getD [])).result =
        .ok (some headline) ∧
      headline.type = .message ∧ headline.address? = some "news" ∧
      Wire.headerBlockLength "news" (stamped headline b.nextId).headers.entries <
        Wire.lengthBound ∧
      ∃ frame, Transparent ((Broker.new {} 0).history bulletin) b reporter headline "news"
        frame := by
  intro b
  have hn : (acceptedBy bulletin).Nodup := by decide
  have hlive : (b.connection? 2).isSome = true := by decide +kernel
  have hid : reporter.id = 2 := by decide +kernel
  have hin : reporter.isConnected = true := by decide +kernel
  have hc : b.connection? reporter.id = some reporter := by
    obtain ⟨c, hc⟩ := Option.isSome_iff_exists.mp hlive
    have hr : reporter = c := by
      unfold reporter
      rw [hc, Option.getD_some]
    rw [hid, hr]
    exact hc
  have hm : ((Wire.Decoder.new 0).next false ((Wire.encodeOwn headline).toOption.getD [])).result =
      .ok (some headline) := by decide +kernel
  have hs : Wire.headerBlockLength "news" (stamped headline b.nextId).headers.entries <
      Wire.lengthBound := by decide +kernel
  exact ⟨hn, hc, hin, hm, rfl, rfl, hs, run_transparent {} 0 hn .rest hc hin hm rfl rfl hs⟩

end MessageBroker.Broker
