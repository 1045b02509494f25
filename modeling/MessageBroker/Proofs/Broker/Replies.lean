import MessageBroker.Proofs.Broker.Hearing
import MessageBroker.Proofs.Broker.Refusals

/-!
# How a client is answered

A client tells its acknowledgements apart by their order alone. So for each frame that is accepted
it is sent one acknowledgement, if the type of the frame has one and answers are turned on or it is
a ping, and in the order of the frames. A frame that is refused is not answered, and nothing is
behind the end of the connection.

Headlines:
* **`Broker.Moment.Writes.answersIn_eq`**: what a connection reads of an act but for messages.
* **`Broker.play_replies`**: how a connection is answered in any run from any broker that a run has
  led to.
-/

namespace MessageBroker.Broker

variable {b b' : Broker} {accepted : List ConnectionId} {id : ConnectionId}

/-! ## What is published from outside -/

/-- The message that is published from outside at a moment. -/
def Moment.post? (x : Moment) : Option Message :=
  match x.act with
  | .publish m => some m
  | _ => none

theorem post?_tearDown (b : Broker) (other : ConnectionId) (abnormal : Bool) :
    ∀ x ∈ b.momentsOfTearDown other abnormal, x.post? = none := by
  unfold momentsOfTearDown
  split
  · split
    · exact List.forall_mem_nil _
    · exact List.forall_mem_singleton.mpr rfl
  · split
    · exact List.forall_mem_nil _
    · exact List.forall_mem_singleton.mpr rfl

theorem post?_frames (other : ConnectionId) (ms : List Message) (b : Broker) :
    ∀ x ∈ momentsOfFrames other ms b, x.post? = none := by
  induction ms generalizing b with
  | nil => exact List.forall_mem_nil _
  | cons m ms ih =>
    unfold momentsOfFrames
    split
    · exact List.forall_mem_nil _
    · refine List.forall_mem_cons.mpr ⟨rfl, ?_⟩
      split
      · exact ih _
      · exact post?_tearDown _ _ _
      · dsimp only
        split
        · exact post?_tearDown _ _ _
        · exact ih _

theorem post?_goingOn (b : Broker) (c : Connection) (pass : ReadPass) :
    ∀ x ∈ b.momentsOfGoingOn c pass, x.post? = none := by
  unfold momentsOfGoingOn
  split
  · exact post?_tearDown _ _ _
  · split
    · exact post?_tearDown _ _ _
    · split <;> split
      · exact List.forall_mem_nil _
      · exact post?_tearDown _ _ _
      · exact List.forall_mem_nil _
      · exact post?_tearDown _ _ _

theorem post?_task (b : Broker) (t : Task) : ∀ x ∈ b.momentsOfTask t, x.post? = none := by
  cases t with
  | abort other => exact b.post?_tearDown other true
  | serve other =>
    change ∀ x ∈ b.momentsOfServing other, _
    unfold momentsOfServing
    split
    · exact List.forall_mem_nil _
    · split
      · exact List.forall_mem_nil _
      · refine List.forall_mem_append.mpr ⟨post?_frames _ _ _, ?_⟩
        split
        · split
          · exact List.forall_mem_nil _
          · exact post?_goingOn _ _ _
        · exact List.forall_mem_nil _

/-- Only whoever runs the broker publishes from outside. -/
theorem eq_of_post? {t : Turn} {x : Moment} (hx : x ∈ b.acts t) {m : Message}
    (hpost : x.post? = some m) : t = .event (.publish m) := by
  have hno : x.post? ≠ none := by rw [hpost]; exact Option.some_ne_none m
  cases t with
  | contend name lock cursor => cases hx
  | event e =>
    cases e with
    | work =>
      change x ∈ b.moments .work at hx
      unfold moments at hx
      cases ht : b.tasks with
      | nil =>
        rw [ht] at hx
        cases hx
      | cons t ts =>
        rw [ht] at hx
        exact absurd (post?_task _ _ x hx) hno
    | perform t => exact absurd (post?_task _ _ x hx) hno
    | tearDown other abnormal => exact absurd (post?_tearDown _ _ _ x hx) hno
    | publish m' =>
      obtain rfl := List.mem_singleton.mp hx
      cases hpost
      rfl
    | sweep expiry =>
      obtain rfl := List.mem_singleton.mp hx
      cases hpost
    | _ => cases hx

/-- What is published is a message, if whoever runs the broker publishes nothing else. -/
theorem type_of_publication {x : Moment}
    (hpost : ∀ m, x.post? = some m → m.type = .message)
    {n : MessageId} {m : Message} (h : x.publication? = some (n, m)) : m.type = .message := by
  obtain ⟨b, act⟩ := x
  unfold Moment.publication? at h
  split at h
  · rename_i m' hp
    obtain rfl : m' = m := congrArg Prod.snd (Option.some.inj h)
    cases act with
    | frame c m'' =>
      have hf : framePosting? c m'' = some (.published m') := hp
      unfold framePosting? at hf
      split at hf
      · split at hf
        · rename_i ht
          obtain ⟨rfl, -⟩ := posted_eq_published hf
          exact ht
        · obtain ⟨id, -, hid⟩ := Option.map_eq_some_iff.mp hf
          cases hid
        · cases hf
      · cases hf
    | conclude c abnormal =>
      obtain ⟨-, w, -, -, rfl⟩ := willPosting?_eq_some.mp hp
      rfl
    | publish m'' =>
      obtain ⟨rfl, -⟩ := posted_eq_published hp
      exact hpost m'' rfl
    | sweep expiry => cases hp
  · cases h

/-! ## Answers -/

/-- The frames but messages among some pieces that were written, as the other end reads them. -/
def answersIn (pieces : List Bytes) : List Message :=
  (pieces.filterMap Wire.frameIn?).filter fun m => m.type ≠ .message

theorem answersIn_append (pieces more : List Bytes) :
    answersIn (pieces ++ more) = answersIn pieces ++ answersIn more := by
  unfold answersIn
  rw [List.filterMap_append, List.filter_append]

/-- **Of an act a connection reads the acknowledgement of the frame that is handled by it,** if it
is answered, and messages. -/
theorem Moment.Writes.answersIn_eq {x : Moment} {message answer : List Bytes}
    (h : x.Writes id message answer) (hpost : ∀ m, x.post? = some m → m.type = .message) :
    answersIn (x.sends id) = (x.answer? id).toList.map fun answer => { type := answer } := by
  have hmessage : answersIn message = [] := by
    rcases h.published with rfl | ⟨n, m, ok, hpub, hputs⟩
    · rfl
    · refine List.filter_eq_nil_iff.mpr fun m' hm' => ?_
      have ht : m.type = .message := type_of_publication hpost hpub
      have ht' : m'.type = .message := (hputs.type_eq hm').trans ht
      rw [ht']
      decide
  rw [h.sends_eq, answersIn_append, hmessage, List.nil_append]
  unfold answersIn
  rw [h.answered]
  refine List.filter_eq_self.mpr fun m hm => ?_
  obtain ⟨t, ht, rfl⟩ := List.mem_map.mp hm
  simpa using type_answer? (Option.mem_toList.mp ht)

theorem answersIn_flatMap {xs : List Moment}
    (h : ∀ x ∈ xs, answersIn (x.sends id) =
      (x.answer? id).toList.map fun answer => { type := answer }) :
    answersIn (xs.flatMap (·.sends id)) =
      (xs.filterMap fun x => x.answer? id).map fun answer => { type := answer } := by
  induction xs with
  | nil => rfl
  | cons x xs ih =>
    obtain ⟨hx, hxs⟩ := List.forall_mem_cons.mp h
    rw [List.flatMap_cons, answersIn_append, hx, ih hxs, List.filterMap_cons]
    cases x.answer? id <;> rfl

theorem mem_annals {turns : List Turn} {x : Moment} (hx : x ∈ b.annals turns) :
    ∃ b₀, ∃ t ∈ turns, x ∈ acts b₀ t := by
  induction turns generalizing b with
  | nil => cases hx
  | cons t turns ih =>
    rcases List.mem_append.mp hx with hx | hx
    · exact ⟨b, t, List.mem_cons_self, hx⟩
    · obtain ⟨b₀, t', ht', hx'⟩ := ih hx
      exact ⟨b₀, t', List.mem_cons_of_mem _ ht', hx'⟩

/-! ## Settings stay -/

theorem settings_reply (b : Broker) (id : ConnectionId) (t : MessageType) :
    (b.reply id t).2.settings = b.settings := by
  rw [reply_eq]
  split
  · rfl
  · split <;> rfl

theorem settings_conclude (b : Broker) (c : Connection) (abnormal : Bool) :
    (b.conclude c abnormal).settings = b.settings := by
  have hwill : (b.publishWill c).settings = b.settings := by
    unfold publishWill
    split
    · rfl
    · rename_i will _
      have hp := b.settings_publish will.toMessage
      split
      · rename_i he
        rwa [he] at hp
      · rename_i he
        rw [he] at hp
        exact hp
  unfold conclude
  cases abnormal <;> cases c.isConnected <;> first | rfl | exact hwill

theorem Roll.settings_after (h : Roll accepted b) {x : Moment} (hx : b.Leads x) :
    x.after.settings = x.broker.settings := by
  obtain ⟨-, hframe⟩ := h.leads hx
  obtain ⟨b', act⟩ := x
  cases act with
  | frame c m =>
    have hcarry := settings_carryOut (hframe c m rfl) m
    change (b'.handle c m).2.settings = b'.settings
    unfold handle
    split
    · rename_i he
      rw [he] at hcarry
      exact (settings_reply _ _ _).trans hcarry
    · exact hcarry
  | conclude c abnormal => exact b'.settings_conclude c abnormal
  | publish m => exact b'.settings_publish m
  | sweep expiry => rfl

theorem Script.settings {xs : List Moment} (hs : Script b xs b')
    (hx : ∀ x ∈ xs, x.after.settings = x.broker.settings) :
    b'.settings = b.settings ∧ ∀ x ∈ xs, x.broker.settings = b.settings := by
  induction hs with
  | done h => exact ⟨h.settings, List.forall_mem_nil _⟩
  | @act b b' x xs before _ ih =>
    obtain ⟨hfirst, hrest⟩ := List.forall_mem_cons.mp hx
    have hafter : x.after.settings = b.settings := hfirst.trans before.settings
    obtain ⟨hlast, hall⟩ := ih hrest
    exact ⟨hlast.trans hafter, List.forall_mem_cons.mpr
      ⟨before.settings, fun y hy => (hall y hy).trans hafter⟩⟩

theorem settings_of_outside {t : Turn} (ht : t.isOutside = true) :
    (b.turn t).settings = b.settings := by
  cases t with
  | contend name lock cursor => rfl
  | event e =>
    cases e with
    | accept id stream =>
      have hd : (b.displace id).settings = b.settings := by
        unfold displace
        split <;> rfl
      change (b.accept id stream).2.settings = b.settings
      unfold accept
      dsimp only
      split <;> exact hd
    | change id f =>
      change (b.modifyStream id f).settings = b.settings
      unfold modifyStream
      split <;> rfl
    | _ => cases ht

/-- A run changes no setting. -/
theorem Roll.settings_annals (h : Roll accepted b) {turns : List Turn}
    (hn : (acceptedIn turns ++ accepted).Nodup) :
    ∀ x ∈ b.annals turns, x.broker.settings = b.settings := by
  induction turns generalizing accepted b with
  | nil => exact List.forall_mem_nil _
  | cons t turns ih =>
    obtain ⟨hfresh, hrest⟩ := fresh_of_nodup hn
    have hlater := ih (h.turn hfresh) hrest
    cases ht : t.isOutside with
    | true =>
      change ∀ x ∈ b.acts t ++ (b.turn t).annals turns, _
      rw [acts_of_outside ht, List.nil_append]
      exact fun x hx => (hlater x hx).trans (settings_of_outside ht)
    | false =>
      have htrail := h.trail_turn (Turn.accepted?_of_inside ht)
      obtain ⟨hlast, hacts⟩ := (h.script_turn ht).settings fun x hx => by
        obtain ⟨b₀, h₀, hlead⟩ := h.forall_leads htrail x hx
        exact h₀.settings_after hlead
      exact List.forall_mem_append.mpr ⟨hacts, fun x hx => (hlater x hx).trans hlast⟩

/-! ## Over a run -/

/-- **How a connection is answered over a run.** -/
structure Replies (b : Broker) (id : ConnectionId) (turns : List Turn) : Prop where
  /-- What it is sent but for messages: one acknowledgement for each frame that is answered, in the
  order of the frames. -/
  answered : answersIn (b.transcript id turns) =
    ((b.annals turns).filterMap fun x => x.answer? id).map fun answer => { type := answer }
  /-- A frame is answered if it is accepted and its type has an acknowledgement, unless answers are
  turned off; a ping always is. -/
  answer_iff : ∀ x ∈ b.annals turns, ∀ answer, x.answer? id = some answer ↔
    ∃ c m, x.act = .frame c m ∧ c.id = id ∧ (x.broker.handle c m).1 = .ok .continue ∧
      m.type.answer = some answer ∧ (b.settings.broker.sendAcks = true ∨ m.type = .ping)
  /-- The frames handled are those that were read, up to the first that ends the connection. -/
  heard : Heard id (b.annals turns) (b.framesRead id turns)
  /-- Which frames end it. -/
  cause?_iff : ∀ x ∈ b.annals turns, ∀ c m, x.act = .frame c m → c.id = id →
    (x.cause?.isSome ↔ (c.isConnected = true ∧ m.type = .disconnect) ∨
      x.broker.Forbidden c m ∨ x.broker.Unanswered c m)
  afterwards : ∀ before x future m cause, b.annals turns = before ++ x :: future → x.Handles id m →
    x.cause? = some cause → Over b id turns cause future

theorem accepts_iff {x : Moment} {c : Connection} {m : Message} (hact : x.act = .frame c m) :
    x.accepts = true ↔ (x.broker.handle c m).1 = .ok .continue := by
  unfold Moment.accepts
  rw [hact]
  dsimp only
  split
  · rename_i he
    rw [he]
    simp
  · rename_i hno
    exact iff_of_false Bool.false_ne_true hno

theorem answer?_eq_some {x : Moment} {answer : MessageType} : x.answer? id = some answer ↔
    ∃ c m, x.act = .frame c m ∧ c.id = id ∧ (x.broker.handle c m).1 = .ok .continue ∧
      m.type.answer = some answer ∧
        (x.broker.settings.broker.sendAcks = true ∨ m.type = .ping) := by
  constructor
  · intro h
    unfold Moment.answer? at h
    split at h
    · rename_i c m hact
      split at h
      · rename_i hx
        obtain ⟨ha, hon⟩ := Option.filter_eq_some_iff.mp h
        exact ⟨c, m, hact, hx.1, (accepts_iff hact).mp hx.2, ha, by simpa using hon⟩
      · cases h
    · cases h
  · rintro ⟨c, m, hact, hi, hok, ha, hon⟩
    unfold Moment.answer?
    rw [hact]
    dsimp only
    rw [if_pos ⟨hi, (accepts_iff hact).mpr hok⟩]
    exact Option.filter_eq_some_iff.mpr ⟨ha, by simpa using hon⟩

theorem acceptedIn_append (turns turns' : List Turn) :
    acceptedIn (turns ++ turns') = acceptedIn turns' ++ acceptedIn turns := by
  unfold acceptedIn
  rw [List.filterMap_append, List.reverse_append]

/-- **How a connection is answered in every run that goes on from another,** whoever holds
subscriptions in it, if no number is given to a connection twice and what is published from outside
are messages. -/
theorem play_replies (settings : Settings) (clock : Timestamp) {turns turns' : List Turn}
    (h : (acceptedIn (turns ++ turns')).Nodup)
    (hpost : ∀ m, Turn.event (.publish m) ∈ turns' → m.type = .message) (id : ConnectionId) :
    Replies ((Broker.new settings clock).play turns) id turns' := by
  rw [acceptedIn_append] at h
  have hpast := Recalls.play settings clock (List.nodup_append.mp h).2.1
  have hroll := hpast.toRoll
  refine ⟨?_, fun x hx answer => ?_, hpast.heard h, ?_, fun before x future m cause hs hm hk =>
    hpast.over h hs hm hk⟩
  · rw [hroll.transcript_eq h]
    refine answersIn_flatMap fun x hx => ?_
    obtain ⟨accepted, b₀, h₀, hlead⟩ := hroll.forall_annals h x hx
    obtain ⟨message, answer, hw⟩ := h₀.writes hlead id
    refine hw.answersIn_eq fun m hm => ?_
    obtain ⟨b₁, t, ht, hx₁⟩ := mem_annals hx
    obtain rfl := eq_of_post? hx₁ hm
    exact hpost m ht
  · rw [answer?_eq_some, hroll.settings_annals h x hx]
  · rintro ⟨b₁, act⟩ hx c m rfl rfl
    obtain ⟨accepted, b₀, h₀, hlead⟩ := hroll.forall_annals h _ hx
    obtain ⟨h₁, hframe⟩ := h₀.leads hlead
    exact h₁.cause?_iff (hframe c m rfl)

/-- A client joins two destinations, and whoever runs the broker publishes something for it. -/
def session : List Turn :=
  [.event (.accept 1 {}), .event (.sent 1 (.connect "ada")),
    .event (.sent 1 (.subscribe "news,work")), .event (.perform (.serve 1)),
    .event (.publish (.publish "news" []))]

/-- The client publishes something itself, wants to leave a destination that is held, sends a ping,
logs in once more, and sends another ping. -/
def secondLogin : List Turn :=
  [.contend "work" .exclusive none, .event (.publish (.publish "news" [])),
    .event (.sent 1 (.publish "news" [])), .event (.sent 1 (.unsubscribe "work")),
    .event (.sent 1 { type := .ping }), .event (.sent 1 (.connect "eve")),
    .event (.sent 1 { type := .ping }), .event (.perform (.serve 1))]

theorem secondLogin_replies : (acceptedIn (session ++ secondLogin)).Nodup ∧
    (∀ m, Turn.event (.publish m) ∈ secondLogin → m.type = .message) ∧
    (answersIn (((Broker.new {} 0).play session).transcript 1 secondLogin)).map Message.type =
      [.publishAck, .pingAck] ∧
    Replies ((Broker.new {} 0).play session) 1 secondLogin := by
  have h : (acceptedIn (session ++ secondLogin)).Nodup := by decide
  have hpost : ∀ m, Turn.event (.publish m) ∈ secondLogin → m.type = .message := by
    intro m hm
    unfold secondLogin at hm
    simp only [List.mem_cons, Turn.event.injEq, Event.publish.injEq, reduceCtorEq, false_or,
      List.not_mem_nil, or_false, Event.sent] at hm
    rw [hm]
    rfl
  exact ⟨h, hpost, by decide +kernel, play_replies {} 0 h hpost 1⟩

end MessageBroker.Broker
