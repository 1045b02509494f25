import MessageBroker.Proofs.Broker.Transcript

/-!
# The order in which messages arrive

Messages are numbered in the order in which they are published, last wills among them, and a message
has its number before it is routed. It is routed once and at once, to each member of its destination
at most once. So whatever a connection belongs to, and however often it has come and gone, the
messages that it is sent are some of those published, in their order and with ever larger numbers.

Numbers grow as long as the run publishes fewer than 2^64 messages; longer runs, in which the
counter begins again, are out of scope.

Headlines:
* **`Broker.Script.numbered`**, **`Broker.Roll.numbered`**: numbers are given out one after the
  other.
* **`Broker.Moment.Writes.messages_sublist`**: of an act a connection reads the message that is
  published by it, or no message.
* **`Broker.play_ordered`**: what messages a connection is sent over a run.
-/

namespace MessageBroker.Broker

variable {accepted : List ConnectionId} {b b' b'' : Broker}

/-! ## The numbers of messages -/

/-- Some numbers follow one another, from the next one to be given out to the next one then. -/
structure Numbered (first : MessageId) (numbers : List MessageId) (next : MessageId) : Prop where
  eq : numbers = List.range' first numbers.length
  next : next = first + numbers.length

namespace Numbered

variable {first next last : MessageId} {numbers more : List MessageId}

theorem append (h : Numbered first numbers next) (h' : Numbered next more last) :
    Numbered first (numbers ++ more) last := by
  refine ⟨?_, ?_⟩
  · rw [List.length_append, ← List.range'_append_1, ← h.next, ← h.eq, ← h'.eq]
  · rw [h'.next, h.next, List.length_append, Nat.add_assoc]

theorem pairwise (h : Numbered first numbers next) : numbers.Pairwise (· < ·) := by
  rw [h.eq]
  exact List.pairwise_lt_range'

end Numbered

/-- The numbers that are given out by some acts. -/
def numbersOf (xs : List Moment) : List MessageId :=
  (xs.filterMap Moment.publication?).map Prod.fst

theorem numbersOf_singleton (x : Moment) :
    numbersOf [x] = x.publication?.toList.map Prod.fst := by
  unfold numbersOf
  rw [List.filterMap_cons]
  cases x.publication? <;> rfl

/-- Publishing a message, whatever becomes of it, takes one number, and nothing else does. -/
theorem Moment.numbered (x : Moment) :
    Numbered x.broker.nextId (numbersOf [x]) x.after.nextId := by
  have hnext := x.untouched_after.nextId
  rw [numbersOf_singleton]
  unfold publication?
  cases hp : x.act.posting? with
  | none =>
    rw [hp] at hnext
    exact ⟨rfl, hnext⟩
  | some p =>
    rw [hp] at hnext
    cases p with
    | published m =>
      obtain ⟨name, hm⟩ := address_of_published hp
      have hpub := x.broker.nextId_publish m
      rw [hm] at hpub
      exact ⟨rfl, hnext.trans hpub⟩
    | acknowledged id => exact ⟨rfl, hnext⟩
    | swept expiry => exact ⟨rfl, hnext⟩

theorem numbersOf_append (xs ys : List Moment) :
    numbersOf (xs ++ ys) = numbersOf xs ++ numbersOf ys := by
  unfold numbersOf
  rw [List.filterMap_append, List.map_append]

theorem Script.numbered {xs : List Moment} (hs : Script b xs b') :
    Numbered b.nextId (numbersOf xs) b'.nextId := by
  induction hs with
  | done h => exact ⟨rfl, h.nextId⟩
  | @act b b' x xs before _ ih =>
    have hx := x.numbered
    rw [before.nextId] at hx
    rw [← List.singleton_append, numbersOf_append]
    exact hx.append ih

theorem nextId_of_outside {t : Turn} (ht : t.isOutside = true) :
    (b.turn t).nextId = b.nextId := by
  cases t with
  | contend name lock cursor => rfl
  | event e =>
    cases e with
    | accept id stream => exact (b.untouched_accept id stream).nextId
    | change id f => exact (b.untouched_modifyStream id f).nextId
    | _ => cases ht

/-- **Over a run numbers are given out one after the other.** -/
theorem Roll.numbered (h : Roll accepted b) {turns : List Turn}
    (hn : (acceptedIn turns ++ accepted).Nodup) :
    Numbered b.nextId (numbersOf (b.annals turns)) (b.play turns).nextId := by
  induction turns generalizing accepted b with
  | nil => exact ⟨rfl, rfl⟩
  | cons t turns ih =>
    obtain ⟨hfresh, hrest⟩ := fresh_of_nodup hn
    have hturn : Numbered b.nextId (numbersOf (b.acts t)) (b.turn t).nextId := by
      cases ht : t.isOutside with
      | true =>
        rw [acts_of_outside ht, nextId_of_outside ht]
        exact ⟨rfl, rfl⟩
      | false => exact (h.script_turn ht).numbered
    change Numbered b.nextId (numbersOf (b.acts t ++ (b.turn t).annals turns)) _
    rw [numbersOf_append]
    exact hturn.append (ih (h.turn hfresh) hrest)

/-! ## What a subscriber reads -/

/-- The messages among some pieces that were written, as the other end reads them. -/
def messagesIn (pieces : List Bytes) : List Message :=
  (pieces.filterMap Wire.frameIn?).filter fun m => m.type = .message

/-- What a subscriber reads of a message that was published. -/
def deliveredAs (p : MessageId × Message) : Message := Wire.arrived (stamped p.2 p.1)

theorem messagesIn_append (pieces more : List Bytes) :
    messagesIn (pieces ++ more) = messagesIn pieces ++ messagesIn more := by
  unfold messagesIn
  rw [List.filterMap_append, List.filter_append]

/-- Of what is sent a message is read at most, and only if it was one. -/
theorem messagesIn_of_puts {m : Message} {ok : Bool} {pieces : List Bytes}
    (h : Wire.Puts m ok pieces) :
    messagesIn pieces = [] ∨ m.type = .message ∧ messagesIn pieces = [Wire.arrived m] := by
  unfold messagesIn
  by_cases ht : m.type = .message
  · have hl : m.type.layout ≠ .optionalHeaders := by
      rw [ht]
      decide
    have harrived : (Wire.arrived m).type = .message := by
      unfold Wire.arrived Wire.Outgoing.arrival
      rw [show (Wire.Outgoing.own m).message.type = .message from ht]
      rfl
    rw [h.frames_eq hl]
    cases ok with
    | false => exact .inl rfl
    | true => exact .inr ⟨ht, by simp [harrived]⟩
  · refine .inl (List.filter_eq_nil_iff.mpr fun m' hm' => ?_)
    rw [h.type_eq hm']
    simpa using ht

/-- **Of an act a connection reads the message that is published by it,** or no message. -/
theorem Moment.Writes.messages_sublist {x : Moment} {id : ConnectionId}
    {message answer : List Bytes} (h : x.Writes id message answer) :
    (messagesIn (x.sends id)).Sublist (x.publication?.toList.map deliveredAs) := by
  have hanswer : messagesIn answer = [] := by
    unfold messagesIn
    rw [h.answered]
    refine List.filter_eq_nil_iff.mpr fun m hm => ?_
    obtain ⟨t, ht, rfl⟩ := List.mem_map.mp hm
    simpa using type_answer? (Option.mem_toList.mp ht)
  rw [h.sends_eq, messagesIn_append, hanswer, List.append_nil]
  rcases h.published with rfl | ⟨n, m, ok, hpub, hputs⟩
  · exact List.nil_sublist _
  · rw [hpub]
    rcases messagesIn_of_puts hputs with hno | ⟨-, hm⟩
    · rw [hno]
      exact List.nil_sublist _
    · rw [hm]
      exact .refl _

/-- What acts write one after the other is read act by act. -/
theorem messagesIn_sublist {xs : List Moment} {id : ConnectionId}
    (h : ∀ x ∈ xs, ∃ message answer, x.Writes id message answer) :
    (messagesIn (xs.flatMap (·.sends id))).Sublist
      ((xs.filterMap Moment.publication?).map deliveredAs) := by
  induction xs with
  | nil => exact .refl _
  | cons x xs ih =>
    obtain ⟨⟨message, answer, hx⟩, hxs⟩ := List.forall_mem_cons.mp h
    have hsplit : (x :: xs).filterMap Moment.publication? =
        x.publication?.toList ++ xs.filterMap Moment.publication? := by
      rw [List.filterMap_cons]
      cases x.publication? <;> rfl
    rw [List.flatMap_cons, messagesIn_append, hsplit, List.map_append]
    exact hx.messages_sublist.append (ih hxs)

/-- A message that is delivered has its number in its headers. -/
theorem header?_deliveredAs {p : MessageId × Message} (ht : p.2.type = .message) :
    (deliveredAs p).header? Header.messageId.name = some (Text.decimal p.1) := by
  have hne : Header.messageId.name ≠ Header.destination.name := by decide
  have hheaders : (deliveredAs p).headers =
      (stamped p.2 p.1).headers.erase Header.destination.name := by
    unfold deliveredAs Wire.arrived Wire.Outgoing.arrival
    rw [show (Wire.Outgoing.own (stamped p.2 p.1)).message.type = .message from ht]
    rfl
  unfold Message.header?
  rw [hheaders, Table.get?_erase, if_neg hne]
  exact header?_stamped p.2 p.1

theorem type_deliveredAs (p : MessageId × Message) : (deliveredAs p).type = p.2.type := by
  unfold deliveredAs Wire.arrived Wire.Outgoing.arrival
  split <;> rfl

/-- **The messages that a connection is sent over a run,** whoever held subscriptions in it, if no
number was given to a connection twice: some of those published, in the order in which they were
published, each once, and with their numbers, which grow. -/
theorem play_ordered (settings : Settings) (clock : Timestamp) {turns : List Turn}
    (h : (acceptedIn turns).Nodup) (id : ConnectionId) :
    ∃ published : List (MessageId × Message),
      published.Sublist
        (((Broker.new settings clock).annals turns).filterMap Moment.publication?) ∧
      messagesIn ((Broker.new settings clock).transcript id turns) = published.map deliveredAs ∧
      (messagesIn ((Broker.new settings clock).transcript id turns)).map
          (·.header? Header.messageId.name) =
        published.map (fun p => some (Text.decimal p.1)) ∧
      (published.map Prod.fst).Pairwise (· < ·) := by
  have hroll := roll_new settings clock
  have hn : (acceptedIn turns ++ []).Nodup := by rwa [List.append_nil]
  have hwrites : ∀ x ∈ (Broker.new settings clock).annals turns,
      ∃ message answer, x.Writes id message answer := by
    intro x hx
    obtain ⟨accepted, b₀, h₀, hlead⟩ := hroll.forall_annals hn x hx
    exact h₀.writes hlead id
  have hsub := messagesIn_sublist hwrites
  rw [← hroll.transcript_eq hn] at hsub
  obtain ⟨published, hpub, heq⟩ := List.sublist_map_iff.mp hsub
  refine ⟨published, hpub, heq, ?_, (hroll.numbered hn).pairwise.sublist (hpub.map _)⟩
  rw [heq, List.map_map]
  refine List.map_congr_left fun p hp => header?_deliveredAs ?_
  have hm : deliveredAs p ∈ messagesIn ((Broker.new settings clock).transcript id turns) :=
    heq ▸ List.mem_map_of_mem hp
  rw [← type_deliveredAs]
  simpa using (List.mem_filter.mp hm).2

/-- A client has joined a destination. Another one leaves its will there when it logs in, publishes
a message and goes on with what is no frame; the first one comes back after it has left. -/
def bequest : List Turn :=
  [.event (.accept 1 {}), .event (.sent 1 (.connect "ada")), .event (.sent 1 (.subscribe "news")),
    .event (.perform (.serve 1)), .event (.accept 2 {}),
    .event (.sent 2 (Message.withHeader { type := .connect } Header.lastWillDestination.name
      "news")),
    .event (.sent 2 (.publish "news" [104, 105])),
    .event (.change 2 fun s => s.feed (utf8 "hello")),
    .event (.perform (.serve 2)), .event (.sent 1 (.unsubscribe "news")),
    .event (.sent 1 (.subscribe "news")), .event (.perform (.serve 1)),
    .event (.publish (.publish "news" []))]

theorem bequest_ordered : (acceptedIn bequest).Nodup ∧
    (messagesIn ((Broker.new {} 0).transcript 1 bequest)).map
        (·.header? Header.messageId.name) = [some "1", some "2", some "3"] ∧
    ∃ published : List (MessageId × Message),
      published.Sublist
        (((Broker.new {} 0).annals bequest).filterMap Moment.publication?) ∧
      messagesIn ((Broker.new {} 0).transcript 1 bequest) = published.map deliveredAs ∧
      (messagesIn ((Broker.new {} 0).transcript 1 bequest)).map
          (·.header? Header.messageId.name) =
        published.map (fun p => some (Text.decimal p.1)) ∧
      (published.map Prod.fst).Pairwise (· < ·) := by
  have h : (acceptedIn bequest).Nodup := by decide
  exact ⟨h, by decide +kernel, play_ordered {} 0 h 1⟩

end MessageBroker.Broker
