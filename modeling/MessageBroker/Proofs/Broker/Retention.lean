import MessageBroker.Proofs.Broker.History
import MessageBroker.Proofs.Broker.Publishing

/-!
# How long a message stays in the store

A message is stored before it is routed, dropped again at once if it need not be kept, and otherwise
stays until it is acknowledged or swept away. Seen over a whole run: the store holds what was
published to a destination that asks for acknowledgements and was taken by a member, less what was
acknowledged or swept since then.

Numbers are given out without end: a run that publishes 2^64 messages, after which the counter
begins again, is out of scope.

Headlines:
* **`Broker.Moment.get?_after`**: what one act does to the store.
* **`Broker.run_accounts`**: what is in the store wherever a run comes by, and which numbers were
  given out.
-/

namespace MessageBroker.Broker

/-! ## What an act does to the store -/

/-- What touches the store. -/
inductive Posting
  | published (m : Message)
  | acknowledged (id : MessageId)
  | swept (expiry : Duration)

/-- Publishing a message, which needs a destination. -/
def posted (m : Message) : Option Posting :=
  if m.address?.isSome then some (.published m) else none

/-- How a frame of a client touches the store: once the client has logged in, by publishing a
message or acknowledging one. -/
def framePosting? (c : Connection) (m : Message) : Option Posting :=
  if c.isConnected then
    match m.type with
    | .message => posted m
    | .ack => m.messageId?.map .acknowledged
    | _ => none
  else none

/-- How the end of a connection touches the store: by its last will, if it is abnormal. -/
def willPosting? (c : Connection) (abnormal : Bool) : Option Posting :=
  if abnormal then c.session.lastWill.bind fun will => posted will.toMessage else none

/-- How an act touches the store, if it does. -/
def Act.posting? : Act → Option Posting
  | .frame c m => framePosting? c m
  | .conclude c abnormal => willPosting? c abnormal
  | .publish m => posted m
  | .sweep expiry => some (.swept expiry)

/-- The broker after a posting. -/
def post (b : Broker) : Posting → Broker
  | .published m => (b.publish m).2
  | .acknowledged id => { b with store := b.store.erase id }
  | .swept expiry => (b.sweep expiry).2

/-- The broker after a posting, if there is one. -/
def postAny (b : Broker) (p : Option Posting) : Broker := p.elim b b.post

variable {b b' : Broker}

theorem untouched_reply (b : Broker) (id : ConnectionId) (t : MessageType) :
    b.Untouched (b.reply id t).2 := by
  unfold reply
  split
  · exact .refl b
  · split
    · split
      · exact .refl b
      · exact ⟨rfl, rfl⟩
    · exact .refl b

theorem untouched_connect (b : Broker) (c : Connection) (m : Message) :
    b.Untouched (b.connect c m).2 := by
  unfold connect
  split
  · exact .refl b
  · split
    · dsimp only
      split <;> exact ⟨rfl, rfl⟩
    · exact ⟨rfl, rfl⟩

theorem untouched_joinAll (id : ConnectionId) (type : DestinationType) (qos : QoS)
    (names : List String) (b : Broker) : b.Untouched (joinAll id type qos names b).2 := by
  induction names generalizing b with
  | nil => exact .refl b
  | cons name names ih =>
    unfold joinAll
    split
    · have hu : ∀ notices registry, b.Untouched (b.withRegistry notices registry) := fun _ _ =>
        ⟨rfl, rfl⟩
      exact (hu _ _).trans (ih _)
    · exact ⟨rfl, rfl⟩

theorem untouched_subscribe (b : Broker) (c : Connection) (m : Message) :
    b.Untouched (b.subscribe c m).2 := by
  unfold subscribe
  split
  · exact .refl b
  · split
    · exact .refl b
    · exact .refl b
    · exact untouched_joinAll ..

theorem untouched_leaveAll (id : ConnectionId) (names : List String) (b : Broker) :
    b.Untouched (leaveAll id names b).2 := by
  induction names generalizing b with
  | nil => exact .refl b
  | cons name names ih =>
    unfold leaveAll
    split
    · rename_i registry _
      have hu : b.Untouched { b with registry } := ⟨rfl, rfl⟩
      exact hu.trans (ih _)
    · exact ⟨rfl, rfl⟩

theorem postAny_posted (b : Broker) (m : Message) :
    (b.postAny (posted m)) = (b.publish m).2 := by
  unfold posted
  cases hm : m.address? with
  | none => rw [publish_of_none hm]; rfl
  | some name => rfl

/-- A frame touches the store as it posts. -/
theorem untouched_carryOut (b : Broker) (c : Connection) (m : Message) :
    (b.postAny (framePosting? c m)).Untouched (b.carryOut c m).2 := by
  unfold carryOut framePosting?
  cases c.isConnected with
  | false =>
    cases m.type with
    | connect => exact b.untouched_connect c m
    | _ => exact .refl b
  | true =>
    cases m.type with
    | connect => exact b.untouched_connect c m
    | subscribe => exact b.untouched_subscribe c m
    | unsubscribe => exact untouched_leaveAll ..
    | message =>
      simp only [if_true]
      rw [postAny_posted]
      exact .refl _
    | ack =>
      simp only [if_true]
      unfold acknowledge
      cases m.messageId? with
      | none => exact b.untouched_report _
      | some id => exact .refl _
    | _ => exact .refl b

theorem untouched_handle (b : Broker) (c : Connection) (m : Message) :
    (b.postAny (framePosting? c m)).Untouched (b.handle c m).2 := by
  have h := b.untouched_carryOut c m
  unfold handle
  split
  · rename_i b' he
    rw [he] at h
    exact h.trans (b'.untouched_reply c.id m.type)
  · exact h

theorem untouched_conclude (b : Broker) (c : Connection) (abnormal : Bool) :
    (b.postAny (willPosting? c abnormal)).Untouched (b.conclude c abnormal) := by
  have hend : ∀ b₀ b₁ : Broker, b₀.Untouched b₁ →
      b₀.Untouched (if c.isConnected then b₁.report (.disconnected c.name) else b₁) := by
    intro b₀ b₁ h
    split
    · exact h.trans (b₁.untouched_report _)
    · exact h
  unfold conclude willPosting?
  refine hend _ _ ?_
  cases abnormal with
  | false => exact .refl b
  | true =>
    simp only [if_true]
    unfold publishWill
    cases c.session.lastWill with
    | none => exact .refl b
    | some will =>
      rw [Option.bind_some, postAny_posted]
      simp only
      split
      · rename_i he
        rw [he]
        exact .refl _
      · rename_i b' e he
        rw [he]
        exact untouched_report ..

/-- **An act touches the store as it posts, and in no other way.** -/
theorem Moment.untouched_after (x : Moment) :
    (x.broker.postAny x.act.posting?).Untouched x.after := by
  obtain ⟨b, act⟩ := x
  cases act with
  | frame c m => exact b.untouched_handle c m
  | conclude c abnormal => exact b.untouched_conclude c abnormal
  | publish m =>
    unfold Act.posting? Moment.after
    simp only
    rw [postAny_posted]
    exact .refl _
  | sweep expiry => exact .refl _

/-! ## What becomes of an entry -/

/-- Whether a posting takes away what has been in the store under a number since a certain time. -/
def Posting.Removes (now : Timestamp) (id : MessageId) (since : Timestamp) : Posting → Prop
  | .published _ => False
  | .acknowledged other => other = id
  | .swept expiry => expiry.isZero = false ∧ since ≤ Store.deadline now expiry

/-- The number that is given out at a moment. -/
def Moment.number? (x : Moment) : Option MessageId :=
  match x.act.posting? with
  | some (.published _) => some x.broker.nextId
  | _ => none

/-- A message is published at a moment, and kept with that time under the number it was given. -/
def Moment.Stores (x : Moment) (id : MessageId) (e : Message × Timestamp) : Prop :=
  ∃ m, x.act.posting? = some (.published m) ∧ x.broker.Retains m ∧ x.broker.nextId = id ∧
    e = (stamped m id, x.broker.clock)

/-- What has been in the store under a number since a certain time is taken away at a moment. -/
def Moment.Removes (x : Moment) (id : MessageId) (since : Timestamp) : Prop :=
  ∃ p, x.act.posting? = some p ∧ p.Removes x.broker.clock id since

/-- Numbers in the store have been given out. -/
def Issued (b : Broker) : Prop := ∀ ⦃id e⦄, b.store.entries.get? id = some e → id < b.nextId

/-- So the next number is not in the store. -/
theorem Issued.get?_nextId (h : b.Issued) : b.store.get? b.nextId = none := by
  cases he : b.store.get? b.nextId with
  | none => rfl
  | some m =>
    obtain ⟨e, he, -⟩ := Option.map_eq_some_iff.mp he
    exact absurd (h he) (Nat.lt_irrefl _)

theorem posted_eq_published {m m' : Message} (h : posted m = some (.published m')) :
    m = m' ∧ ∃ name, m'.address? = some name := by
  unfold posted at h
  split at h
  · rename_i hm
    cases h
    exact ⟨rfl, Option.isSome_iff_exists.mp hm⟩
  · cases h

/-- What is published has a destination. -/
theorem address_of_published {act : Act} {m : Message} (h : act.posting? = some (.published m)) :
    ∃ name, m.address? = some name := by
  cases act with
  | frame c m' =>
    have hf : framePosting? c m' = some (.published m) := h
    unfold framePosting? at hf
    split at hf
    · split at hf
      · exact (posted_eq_published hf).2
      · obtain ⟨id, -, hid⟩ := Option.map_eq_some_iff.mp hf
        cases hid
      · cases hf
    · cases hf
  | conclude c abnormal =>
    have hw : willPosting? c abnormal = some (.published m) := h
    unfold willPosting? at hw
    split at hw
    · obtain ⟨will, -, hp⟩ := Option.bind_eq_some_iff.mp hw
      exact (posted_eq_published hp).2
    · cases hw
  | publish m' => exact (posted_eq_published h).2
  | sweep expiry => cases h

namespace Moment

variable {x : Moment}

/-- A publication gives out one number, and nothing else does. -/
theorem nextId_after (h : x.broker.registry.AtRest) :
    x.after.nextId = x.broker.nextId + x.number?.toList.length := by
  rw [x.untouched_after.nextId]
  unfold number?
  cases hp : x.act.posting? with
  | none => rfl
  | some p =>
    cases p with
    | published m =>
      obtain ⟨name, hm⟩ := address_of_published hp
      unfold postAny post
      rw [Option.elim_some]
      simp only [publish_eq h hm]
      rfl
    | acknowledged id => rfl
    | swept expiry => rfl

/-- **What one act does to the store:** it may keep a message under the next number, or take
entries away. -/
theorem get?_after (h : x.broker.registry.AtRest) (hi : x.broker.Issued) (id : MessageId)
    (e : Message × Timestamp) :
    x.after.store.entries.get? id = some e ↔
      x.Stores id e ∨ (x.broker.store.entries.get? id = some e ∧ ¬ x.Removes id e.2) := by
  rw [x.untouched_after.store]
  unfold Stores Removes
  cases hp : x.act.posting? with
  | none => simp [postAny]
  | some p =>
    cases p with
    | published m =>
      obtain ⟨name, hm⟩ := address_of_published hp
      have hold : x.broker.store.entries.get? id = some e → id ≠ x.broker.nextId := fun he =>
        Nat.ne_of_lt (hi he)
      unfold postAny post
      rw [Option.elim_some]
      simp only [get?_store_publish h hm, Option.some.injEq, Posting.published.injEq,
        exists_eq_left', Posting.Removes, not_false_eq_true, and_true]
      constructor
      · rintro (⟨rfl, hk, rfl⟩ | ⟨-, he⟩)
        · exact .inl ⟨hk, rfl, rfl⟩
        · exact .inr he
      · rintro (⟨hk, rfl, rfl⟩ | he)
        · exact .inl ⟨rfl, hk, rfl⟩
        · exact .inr ⟨hold he, he⟩
    | acknowledged other =>
      simp only [postAny, post, Option.elim_some, Store.erase, Table.get?_erase]
      by_cases hid : id = other
      · simp [hid, Posting.Removes]
      · simp [hid, Ne.symm hid, Posting.Removes]
    | swept expiry =>
      simp only [postAny, post, Option.elim_some, sweep, Posting.Removes]
      cases hz : expiry.isZero with
      | true => simp [Store.removeExpired, hz]
      | false =>
        rw [Store.get?_removeExpired _ _ hz, Option.filter_eq_some_iff]
        simp [hz, Int64.not_le]

theorem issued_after (h : x.broker.registry.AtRest) (hi : x.broker.Issued) : x.after.Issued := by
  intro id e he
  rw [nextId_after h]
  rcases (get?_after h hi id e).mp he with ⟨m, hp, -, rfl, -⟩ | ⟨he, -⟩
  · unfold number?
    rw [hp]
    exact Nat.lt_succ_self _
  · exact Nat.lt_add_right _ (hi he)

end Moment

/-! ## Over a whole run -/

/-- A message was kept at some moment, and nothing has taken it away since. -/
def Stored (xs : List Moment) (id : MessageId) (e : Message × Timestamp) : Prop :=
  ∃ past x future, xs = past ++ x :: future ∧ x.Stores id e ∧
    ∀ later ∈ future, ¬ later.Removes id e.2

theorem stored_cons {x : Moment} {xs : List Moment} {id : MessageId} {e : Message × Timestamp} :
    Stored (x :: xs) id e ↔
      (x.Stores id e ∧ ∀ later ∈ xs, ¬ later.Removes id e.2) ∨ Stored xs id e := by
  constructor
  · rintro ⟨past, y, future, hsplit, hy, hlater⟩
    cases past with
    | nil =>
      cases hsplit
      exact .inl ⟨hy, hlater⟩
    | cons z past =>
      obtain ⟨-, rfl⟩ := List.cons.inj hsplit
      exact .inr ⟨past, y, future, rfl, hy, hlater⟩
  · rintro (⟨hx, hlater⟩ | ⟨past, y, future, rfl, hy, hlater⟩)
    · exact ⟨[], x, xs, rfl, hx, hlater⟩
    · exact ⟨x :: past, y, future, rfl, hy, hlater⟩

theorem Issued.of_untouched (h : b.Issued) (hu : b.Untouched b') : b'.Issued := by
  intro id e he
  rw [hu.store] at he
  rw [hu.nextId]
  exact h he

/-- What is in the store is what was there before and not taken away, and what was stored since and
not taken away. -/
theorem Spans.get?_iff {xs : List Moment} (hs : Spans b xs b') (hi : b.Issued) (id : MessageId)
    (e : Message × Timestamp) :
    b'.store.entries.get? id = some e ↔
      (b.store.entries.get? id = some e ∧ ∀ x ∈ xs, ¬ x.Removes id e.2) ∨ Stored xs id e := by
  induction hs with
  | done hu =>
    have hno : ¬ Stored [] id e := by
      rintro ⟨past, x, future, hsplit, -⟩
      exact absurd hsplit (by simp)
    rw [hu.store]
    simp [hno]
  | act before coherent _ ih =>
    have hi' := hi.of_untouched before
    rw [ih (Moment.issued_after coherent.atRest hi'), Moment.get?_after coherent.atRest hi',
      stored_cons,
      before.store, List.forall_mem_cons]
    tauto

theorem Spans.issued {xs : List Moment} (hs : Spans b xs b') (hi : b.Issued) : b'.Issued := by
  induction hs with
  | done hu => exact hi.of_untouched hu
  | act before coherent _ ih =>
    exact ih (Moment.issued_after coherent.atRest (hi.of_untouched before))

/-- Numbers are given out one after the other. -/
theorem Spans.numbers {xs : List Moment} (hs : Spans b xs b') :
    xs.filterMap Moment.number? = List.range' b.nextId (xs.filterMap Moment.number?).length ∧
      b'.nextId = b.nextId + (xs.filterMap Moment.number?).length := by
  induction hs with
  | done hu => exact ⟨rfl, hu.nextId⟩
  | @act b b' x xs before coherent _ ih =>
    obtain ⟨hnum, hnext⟩ := ih
    have hafter := Moment.nextId_after coherent.atRest
    rw [before.nextId] at hafter
    cases hx : x.number? with
    | none =>
      rw [hx] at hafter
      simp only [Option.toList_none, List.length_nil, Nat.add_zero] at hafter
      rw [List.filterMap_cons_none hx, ← hafter]
      exact ⟨hnum, hnext⟩
    | some n =>
      have hn : n = b.nextId := by
        unfold Moment.number? at hx
        split at hx
        · exact (Option.some.inj hx).symm.trans before.nextId
        · cases hx
      rw [hx] at hafter
      simp only [Option.toList_some, List.length_singleton] at hafter
      rw [hafter] at hnum hnext
      rw [List.filterMap_cons_some hx, List.length_cons, List.range'_succ, ← hnum, hn]
      exact ⟨rfl, hnext.trans (by rw [Nat.add_assoc, Nat.add_comm 1])⟩

/-- The next number is one that has not been given out. -/
theorem Spans.fresh {past : List Moment} (hs : Spans b past b') :
    b'.nextId ∉ past.filterMap Moment.number? := by
  obtain ⟨hnum, hnext⟩ := hs.numbers
  rw [hnum, hnext, List.mem_range'_1]
  exact fun h => Nat.lt_irrefl _ h.2

theorem messageId?_acknowledge {id : MessageId} (h : id < Text.wordBound) :
    (Message.acknowledge id).messageId? = some id := by
  unfold Message.messageId? Message.acknowledge
  rw [Message.header?_withHeader, if_pos rfl]
  exact Text.word?_decimal h

/-- A client that has logged in erases a message by acknowledging it. -/
theorem handle_acknowledge (b : Broker) {c : Connection} (hc : c.isConnected = true)
    {id : MessageId} (h : id < Text.wordBound) :
    b.handle c (.acknowledge id) = (.ok .continue, { b with store := b.store.erase id }) := by
  have hm := messageId?_acknowledge h
  have hcarry : b.carryOut c (.acknowledge id) =
      (.ok .continue, { b with store := b.store.erase id }) := by
    unfold carryOut
    rw [hc]
    have ht : (Message.acknowledge id).type = .ack := rfl
    simp only [ht]
    unfold acknowledge
    rw [hm]
    rfl
  unfold handle
  rw [hcarry]
  rfl

/-- What a broker has in its store and which numbers it has given out, by the acts since it
started. -/
structure Accounts (acts : List Moment) (b : Broker) : Prop where
  /-- The numbers given out are one, two, three and so on, and the next one follows them. -/
  numbers : ∃ n, acts.filterMap Moment.number? = List.range' 1 n ∧ b.nextId = n + 1
  /-- Whatever is published is given the number of its moment. -/
  published : ∀ x ∈ acts, ∀ m, x.act.posting? = some (.published m) →
    ∃ d, (x.broker.publish m).1 = .ok (x.broker.nextId, d)
  /-- In the store is what was kept and not taken away since. -/
  stored_iff : ∀ id e, b.store.entries.get? id = some e ↔ Stored acts id e
  below : ∀ ⦃id m⦄, b.store.get? id = some m → id < b.nextId
  /-- A stored message carries its number. -/
  numbered : ∀ ⦃id m⦄, b.store.get? id = some m →
    m.header? Header.messageId.name = some (Text.decimal id) ∧
      (id < Text.wordBound → m.messageId? = some id)
  /-- Whoever acknowledges it erases it and nothing else. -/
  acknowledged : ∀ id, id < Text.wordBound → ∀ c : Connection, c.isConnected = true →
    (b.handle c (.acknowledge id)).1 = .ok .continue ∧
      ∀ other, (b.handle c (.acknowledge id)).2.store.get? other =
        if other = id then none else b.store.get? other

theorem header?_stamped (m : Message) (id : MessageId) :
    (stamped m id).header? Header.messageId.name = some (Text.decimal id) := by
  unfold stamped
  rw [Message.header?_withHeader, if_pos rfl]

/-- **What is in the store wherever a run comes by, and which numbers were given out,** if no number
was given to a connection twice. -/
theorem run_accounts (settings : Settings) (clock : Timestamp) {events : List Event}
    (h : (acceptedBy events).Nodup) {acts : List Moment}
    (hb : (Broker.new settings clock).ComesBy events acts b) : Accounts acts b := by
  obtain ⟨-, hs⟩ := (sound_new settings clock).comesBy (by rwa [List.append_nil]) hb
  have hi : (Broker.new settings clock).Issued := by
    intro id e he
    cases he
  have hstored : ∀ id e, b.store.entries.get? id = some e ↔ Stored acts id e := by
    intro id e
    rw [hs.get?_iff hi]
    exact or_iff_right fun hold => nomatch hold.1
  have hentry : ∀ {id m}, b.store.get? id = some m →
      ∃ t, b.store.entries.get? id = some (m, t) := by
    intro id m hm
    obtain ⟨⟨m', t⟩, he, rfl⟩ := Option.map_eq_some_iff.mp hm
    exact ⟨t, he⟩
  refine ⟨?_, fun x hx m hp => ?_, hstored, fun id m hm => ?_, fun id m hm => ?_,
    fun id hid c hc => ?_⟩
  · obtain ⟨hnum, hnext⟩ := hs.numbers
    exact ⟨_, hnum, hnext.trans (Nat.add_comm ..)⟩
  · obtain ⟨name, hm⟩ := address_of_published hp
    exact ⟨_, congrArg Prod.fst (publish_eq (hs.coherent hx).atRest hm)⟩
  · obtain ⟨t, he⟩ := hentry hm
    exact hs.issued hi he
  · obtain ⟨t, he⟩ := hentry hm
    obtain ⟨-, x, -, -, ⟨m₀, -, -, -, hstamp⟩, -⟩ := (hstored id _).mp he
    obtain rfl : m = stamped m₀ id := congrArg Prod.fst hstamp
    have hhead := header?_stamped m₀ id
    refine ⟨hhead, fun hid => ?_⟩
    unfold Message.messageId?
    rw [hhead]
    exact Text.word?_decimal hid
  · rw [handle_acknowledge _ hc hid]
    exact ⟨rfl, fun other => Store.get?_erase ..⟩

/-- A client that joins a destination with acknowledgements gets a message of another one, and
acknowledges it. -/
def errand : List Event :=
  [.accept 1 {}, .sent 1 (.connect "ada"),
    .sent 1 ((Message.subscribe "news").withHeader Header.qos.name "1"), .perform (.serve 1),
    .accept 2 {}, .sent 2 (.connect "bob"), .sent 2 (.publish "news" []), .perform (.serve 2),
    .sent 1 (.acknowledge 1), .perform (.serve 1)]

theorem errand_accounts : (acceptedBy errand).Nodup ∧
    Accounts ((Broker.new {} 0).history errand) ((Broker.new {} 0).run errand) := by
  have h : (acceptedBy errand).Nodup := by decide
  exact ⟨h, run_accounts {} 0 h .rest⟩

end MessageBroker.Broker
