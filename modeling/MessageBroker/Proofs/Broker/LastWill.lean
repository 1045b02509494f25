import MessageBroker.Proofs.Broker.Endings
import MessageBroker.Proofs.Broker.Retention

/-!
# Last wills

A client may leave a last will when it logs in. It is published when the connection ends
abnormally, once the connection has been taken off its destinations, and the way any message is. A
destination that somebody holds keeps the connection as a member, though, and a will that goes there
is attempted at the very connection that has left it.

Headlines:
* **`Broker.Recalls`**: a live connection has just the will that its login left, and one that has
  ended is live no more; **`Broker.Recalls.act`**, **`Broker.Recalls.accept`**: it stays so.
* **`Broker.play_lastWills`**: in every run, whoever holds subscriptions, when a connection ends,
  why, and what becomes of its will then.
* **`Broker.vigil_attempts_gone`**: a will that is attempted at its own connection.
-/

namespace MessageBroker.Broker

/-- A connection logs in at a moment. -/
def Moment.LogsIn (x : Moment) (id : ConnectionId) (m : Message) : Prop :=
  ∃ c, x.act = .frame c m ∧ c.id = id ∧ x.broker.LogsIn c m

/-- What a moment makes of a connection with a number: its session is the same, or it has logged in
with a message. -/
inductive Moment.Turns (x : Moment) (id : ConnectionId) (c c' : Connection) : Prop
  | same (hs : c'.session = c.session) (hno : ∀ m, ¬ x.LogsIn id m)
  | login {m : Message} (hn : c.isConnected = false) (hin : c'.isConnected = true)
    (hwill : c'.session.lastWill = lastWillOf m) (hlog : ∀ m', x.LogsIn id m' ↔ m' = m)

/-- What the acts of a run tell of the connections of the broker that it led to. -/
structure Recalls (accepted : List ConnectionId) (past : List Moment) (b : Broker) : Prop
    extends Roll accepted b where
  known : ∀ ⦃x⦄, x ∈ past → ∀ id, ((∃ m, x.Handles id m) ∨ ∃ abnormal, x.Concludes id abnormal) →
    id ∈ accepted
  unknown : ∀ ⦃id c⦄, b.connection? id = some c → c.isConnected = false →
    ∀ x ∈ past, ∀ m, ¬ x.LogsIn id m
  /-- A live connection has the will that its login left. -/
  wills : ∀ ⦃id c⦄, b.connection? id = some c → ∀ w,
    c.session.lastWill = some w ↔ ∃ x ∈ past, ∃ m, x.LogsIn id m ∧ lastWillOf m = some w
  /-- A connection that has ended is live no more. -/
  gone : ∀ ⦃x⦄, x ∈ past → ∀ id abnormal, x.Concludes id abnormal → b.connection? id = none

variable {accepted : List ConnectionId} {past : List Moment} {b b' : Broker}

theorem recalls_new (settings : Settings) (clock : Timestamp) :
    Recalls [] [] (Broker.new settings clock) where
  toRoll := roll_new settings clock
  known := List.forall_mem_nil _
  unknown _ _ hc := by cases hc
  wills _ _ hc := by cases hc
  gone := List.forall_mem_nil _

namespace Recalls

theorem steady (h : Recalls accepted past b) (hs : b.Steady b') : Recalls accepted past b' := by
  refine ⟨h.toRoll.steady hs, h.known, fun id c' hc' hn => ?_, fun id c' hc' w => ?_,
    fun x hx id abnormal hend => ?_⟩
  · obtain ⟨c, hc, -, hses, -⟩ := hs.exists_before hc'
    exact h.unknown hc ((Connection.isConnected_congr hses).trans hn)
  · obtain ⟨c, hc, -, hses, -⟩ := hs.exists_before hc'
    rw [← hses]
    exact h.wills hc w
  · refine Option.eq_none_iff_forall_ne_some.mpr fun c' hc' => ?_
    obtain ⟨c, hc, -⟩ := hs.exists_before hc'
    rw [h.gone hx id abnormal hend] at hc
    cases hc

/-- One act more, by what it makes of each session. -/
theorem concat (h : Recalls accepted past b) (hroll : Roll accepted b') {x : Moment}
    (hknown : ∀ id, ((∃ m, x.Handles id m) ∨ ∃ abnormal, x.Concludes id abnormal) → id ∈ accepted)
    (hlive : ∀ ⦃id c'⦄, b'.connection? id = some c' →
      ∃ c, b.connection? id = some c ∧ x.Turns id c c')
    (hend : ∀ id abnormal, x.Concludes id abnormal → b'.connection? id = none) :
    Recalls accepted (past ++ [x]) b' := by
  refine ⟨hroll, fun y hy id hid => ?_, fun id c' hc' hn y hy m hlog => ?_, fun id c' hc' w => ?_,
    fun y hy id abnormal he => ?_⟩
  · rcases List.mem_append.mp hy with hy | hy
    · exact h.known hy id hid
    · obtain rfl := List.mem_singleton.mp hy
      exact hknown id hid
  · obtain ⟨c, hc, ht⟩ := hlive hc'
    cases ht with
    | same hs hno =>
      have hn : c.isConnected = false := (Connection.isConnected_congr hs).symm.trans hn
      rcases List.mem_append.mp hy with hy | hy
      · exact h.unknown hc hn y hy m hlog
      · obtain rfl := List.mem_singleton.mp hy
        exact hno m hlog
    | login hn' hin =>
      rw [hin] at hn
      cases hn
  · obtain ⟨c, hc, ht⟩ := hlive hc'
    cases ht with
    | same hs hno =>
      rw [hs, h.wills hc w]
      refine ⟨fun ⟨y, hy, hm⟩ => ⟨y, List.mem_append_left _ hy, hm⟩, ?_⟩
      rintro ⟨y, hy, m, hm, hw⟩
      rcases List.mem_append.mp hy with hy | hy
      · exact ⟨y, hy, m, hm, hw⟩
      · obtain rfl := List.mem_singleton.mp hy
        exact absurd hm (hno m)
    | @login m hn hin hwill hlog =>
      -- This is the one login of the connection.
      rw [hwill]
      refine ⟨fun hw => ⟨x, List.mem_append_right _ (List.mem_singleton_self x), m,
        (hlog m).mpr rfl, hw⟩, ?_⟩
      rintro ⟨y, hy, m', hm', hw⟩
      rcases List.mem_append.mp hy with hy | hy
      · exact absurd hm' (h.unknown hc hn y hy m')
      · obtain rfl := List.mem_singleton.mp hy
        exact (hlog m').mp hm' ▸ hw
  · rcases List.mem_append.mp hy with hy | hy
    · refine Option.eq_none_iff_forall_ne_some.mpr fun c' hc' => ?_
      obtain ⟨c, hc, -⟩ := hlive hc'
      rw [h.gone hy id abnormal he] at hc
      cases hc
    · obtain rfl := List.mem_singleton.mp hy
      exact hend id abnormal he

/-- An act that logs nobody in and ends nobody adds nothing. -/
theorem add (h : Recalls accepted past b) {x : Moment}
    (hknown : ∀ id m, x.Handles id m → id ∈ accepted) (hlog : ∀ id m, ¬ x.LogsIn id m)
    (hend : ∀ id abnormal, ¬ x.Concludes id abnormal) : Recalls accepted (past ++ [x]) b := by
  refine h.concat h.toRoll ?_ (fun id c hc => ⟨c, hc, .same rfl (hlog id)⟩)
    fun id abnormal he => absurd he (hend id abnormal)
  rintro id (⟨m, hm⟩ | ⟨abnormal, he⟩)
  · exact hknown id m hm
  · exact absurd he (hend id abnormal)

/-- **A login** leaves the will that its message tells. -/
theorem login (h : Recalls accepted past b) {c : Connection} {m : Message}
    (hc : b.connection? c.id = some c) (hin : b.LogsIn c m) :
    Recalls accepted (past ++ [⟨b, .frame c m⟩]) (b.connect c m).2 := by
  obtain ⟨hn, -⟩ := connect_of_ok hin.2
  have hlog : ∀ id m', Moment.LogsIn ⟨b, .frame c m⟩ id m' ↔ id = c.id ∧ m' = m := by
    intro id m'
    constructor
    · rintro ⟨c', hact, rfl, -⟩
      cases hact
      exact ⟨rfl, rfl⟩
    · rintro ⟨rfl, rfl⟩
      exact ⟨c, rfl, rfl, hin⟩
  refine h.concat (h.toRoll.login hc hin) ?_ (fun id c' hc' => ?_) ?_
  · rintro id (⟨m', c', hact, rfl⟩ | ⟨abnormal, c', hact, -⟩)
    · cases hact
      exact h.live (Option.isSome_iff_exists.mpr ⟨c, hc⟩)
    · cases hact
  · -- Nobody else is touched, and the client has its session now.
    rw [h.toRoll.connection?_connect hc hin] at hc'
    split at hc'
    · rename_i e
      subst e
      cases hc'
      exact ⟨c, hc, .login hn rfl rfl fun m' => (hlog _ m').trans (and_iff_right rfl)⟩
    · rename_i hne
      exact ⟨c', hc', .same rfl fun m' hm' => hne ((hlog id m').mp hm').1⟩
  · rintro id abnormal ⟨c', hact, -⟩
    cases hact

/-- **The end of a connection.** -/
theorem leave (h : Recalls accepted past b) {c : Connection} (hc : b.connection? c.id = some c)
    (abnormal : Bool) :
    Recalls accepted (past ++ [⟨b.leave c, .conclude c.shut abnormal⟩]) (b.leave c) := by
  have hget := (h.toRoll.gone hc).connections
  refine h.concat (h.toRoll.leave hc) ?_ (fun id c' hc' => ?_) ?_
  · rintro id (⟨m, c', hact, -⟩ | ⟨abnormal', c', hact, rfl⟩)
    · cases hact
    · cases hact
      exact h.live (Option.isSome_iff_exists.mpr ⟨c, hc⟩)
  · unfold connection? at hc'
    rw [hget] at hc'
    split at hc'
    · cases hc'
    · refine ⟨c', hc', .same rfl ?_⟩
      rintro m ⟨c'', hact, -⟩
      cases hact
  · rintro id abnormal' ⟨c', hact, rfl⟩
    cases hact
    exact (hget c.id).trans (if_pos rfl)

/-- An act that concerns no connection adds nothing. -/
theorem idle (h : Recalls accepted past b) {x : Moment} (hframe : ∀ c m, x.act ≠ .frame c m)
    (hend : ∀ c abnormal, x.act ≠ .conclude c abnormal) : Recalls accepted (past ++ [x]) b := by
  refine h.add ?_ ?_ ?_
  · rintro id m ⟨c, hact, -⟩
    exact absurd hact (hframe c m)
  · rintro id m ⟨c, hact, -⟩
    exact hframe c m hact
  · rintro id abnormal ⟨c, hact, -⟩
    exact hend c abnormal hact

/-- **An act.** -/
theorem act (h : Recalls accepted past b) {x : Moment} (hx : b.Leads x) :
    Recalls accepted (past ++ [x]) x.after := by
  cases hx with
  | @frame b' c m hs hc =>
    have hb := h.steady hs
    by_cases hin : b'.LogsIn c m
    · have hl := hb.login hc hin
      exact hl.steady (steady_handle_of_logsIn hl.registry hin)
    · refine (hb.add ?_ ?_ ?_).steady (steady_handle hb.registry hc hin)
      · rintro id m' ⟨c', hact, rfl⟩
        cases hact
        exact hb.live (Option.isSome_iff_exists.mpr ⟨c, hc⟩)
      · rintro id m' ⟨c', hact, rfl, hin'⟩
        cases hact
        exact hin hin'
      · rintro id abnormal ⟨c', hact, -⟩
        cases hact
  | @leave b' c abnormal hs hc =>
    exact ((h.steady hs).leave hc abnormal).steady (steady_conclude ..)
  | publish hs =>
    refine ((h.steady hs).idle (fun _ _ he => ?_) fun _ _ he => ?_).steady (steady_publish ..)
    · cases he
    · cases he
  | sweep hs =>
    refine ((h.steady hs).idle (fun _ _ he => ?_) fun _ _ he => ?_).steady ⟨.refl, rfl⟩
    · cases he
    · cases he

theorem trail (h : Recalls accepted past b) {xs : List Moment} (ht : Trail b xs b') :
    Recalls accepted (past ++ xs) b' := by
  induction ht generalizing past with
  | done hs =>
    rw [List.append_nil]
    exact h.steady hs
  | @act b b' x xs before _ ih =>
    rw [← List.singleton_append, ← List.append_assoc]
    exact ih (h.act before)

/-- **A connection comes** under a number of its own, and has told nothing yet. -/
theorem accept (h : Recalls accepted past b) {id : ConnectionId} (hid : id ∉ accepted)
    (stream : Net.Stream) : Recalls (id :: accepted) past (b.accept id stream).2 := by
  have hlive : ∀ {other c}, (b.accept id stream).2.connection? other = some c →
      (other = id ∧ c.session = {}) ∨ b.connection? other = some c := fun hc =>
    h.toRoll.connection?_accept hid hc
  have hnew : ∀ x ∈ past, ∀ m, ¬ x.LogsIn id m := by
    rintro x hx m ⟨c, hact, hi, -⟩
    exact hid (h.known hx id (.inl ⟨m, c, hact, hi⟩))
  refine ⟨h.toRoll.accept hid stream, fun x hx other ho => ?_, fun other c hc hn => ?_,
    fun other c hc w => ?_, fun x hx other abnormal hend => ?_⟩
  · exact List.mem_cons_of_mem _ (h.known hx other ho)
  · rcases hlive hc with ⟨rfl, -⟩ | hc
    · exact hnew
    · exact h.unknown hc hn
  · rcases hlive hc with ⟨rfl, hses⟩ | hc
    · rw [hses]
      refine ⟨fun hw => (nomatch hw), ?_⟩
      rintro ⟨x, hx, m, hm, -⟩
      exact absurd hm (hnew x hx m)
    · exact h.wills hc w
  · refine Option.eq_none_iff_forall_ne_some.mpr fun c hc => ?_
    rcases hlive hc with ⟨rfl, -⟩ | hc
    · exact absurd (h.known hx other (.inr ⟨abnormal, hend⟩)) hid
    · rw [h.gone hx other abnormal hend] at hc
      cases hc

/-- One turn. -/
theorem turn (h : Recalls accepted past b) {t : Turn}
    (hn : ∀ id, t.accepted? = some id → id ∉ accepted) :
    Recalls (t.accepted?.toList ++ accepted) (past ++ b.acts t) (b.turn t) := by
  cases t with
  | contend name lock cursor =>
    have hs : b.Steady (b.turn (.contend name lock cursor)) :=
      ⟨b.registry.moves_contend name lock cursor, rfl⟩
    rw [acts, List.append_nil]
    exact h.steady hs
  | event e =>
    cases he : e.accepted? with
    | none =>
      have hnone : (Turn.event e).accepted? = none := he
      rw [hnone]
      exact h.trail (h.toRoll.trail_apply he)
    | some id =>
      cases e with
      | accept id' stream =>
        have hnil : b.acts (.event (.accept id' stream)) = [] := rfl
        rw [hnil, List.append_nil]
        exact h.accept (hn id' rfl) stream
      | _ => cases he

/-- **Every run,** if it gives no number twice. -/
theorem play {turns : List Turn} (settings : Settings) (clock : Timestamp)
    (hn : (acceptedIn turns).Nodup) :
    Recalls (acceptedIn turns) ((Broker.new settings clock).annals turns)
      ((Broker.new settings clock).play turns) :=
  play_induction (P := Recalls) (recalls_new settings clock) (fun _ h hfresh => h.turn hfresh) hn

end Recalls

/-! ## How a will is published -/

theorem lastWillOf_eq_some {m : Message} {w : LastWill} :
    lastWillOf m = some w ↔ m.header? Header.lastWillDestination.name = some w.destination ∧
      w.destination ≠ "" ∧ w.text = (m.header? Header.lastWillMessage.name).getD "" := by
  unfold lastWillOf
  rw [Option.map_eq_some_iff]
  constructor
  · rintro ⟨d, hd, rfl⟩
    obtain ⟨hd, hne⟩ := Option.filter_eq_some_iff.mp hd
    exact ⟨hd, by simpa using hne, rfl⟩
  · rintro ⟨hd, hne, ht⟩
    exact ⟨w.destination, Option.filter_eq_some_iff.mpr ⟨hd, by simpa using hne⟩, by rw [← ht]⟩

/-- A will is published if the end is abnormal and the will has a destination. -/
theorem willPosting?_eq_some {c : Connection} {abnormal : Bool} {m : Message} :
    willPosting? c abnormal = some (.published m) ↔ abnormal = true ∧
      ∃ w, c.session.lastWill = some w ∧ w.destination ≠ "" ∧ m = w.toMessage := by
  unfold willPosting? posted
  cases abnormal with
  | false => simp
  | true =>
    rw [if_pos rfl, and_iff_right rfl, Option.bind_eq_some_iff]
    refine exists_congr fun w => and_congr_right fun _ => ?_
    have ha : w.toMessage.address?.isSome = true ↔ w.destination ≠ "" := by
      unfold LastWill.toMessage Message.publish Message.address?
      simp [Option.isSome_filter]
    rw [← ha]
    split
    · rename_i hs
      simp [hs, eq_comm]
    · rename_i hs
      simp [hs]

/-- **A will is published as any message is,** and nothing else is done. -/
theorem conclude_of_published {c : Connection} {abnormal : Bool} {m : Message}
    (h : willPosting? c abnormal = some (.published m)) :
    { b.conclude c abnormal with notices := (b.publish m).2.notices } = (b.publish m).2 := by
  obtain ⟨rfl, w, hw, -, rfl⟩ := willPosting?_eq_some.mp h
  have hp : ∀ notices, { b.publishWill c with notices } =
      ({ (b.publish w.toMessage).2 with notices } : Broker) := by
    intro notices
    unfold publishWill
    rw [hw]
    dsimp only
    rcases b.publish w.toMessage with ⟨e | _, b'⟩
    · rfl
    · rfl
  unfold conclude
  rw [if_pos rfl]
  dsimp only
  split
  · exact hp _
  · exact hp _

/-- Where no will is due, nothing is done. -/
theorem conclude_of_none {c : Connection} {abnormal : Bool}
    (hwill : ∀ w, c.session.lastWill = some w → w.destination ≠ "")
    (h : willPosting? c abnormal = none) :
    { b.conclude c abnormal with notices := b.notices } = b := by
  have hp : (if abnormal then b.publishWill c else b) = b := by
    cases abnormal with
    | false => rfl
    | true =>
      rw [if_pos rfl]
      unfold publishWill
      cases hw : c.session.lastWill with
      | none => rfl
      | some w =>
        rw [willPosting?_eq_some.mpr ⟨rfl, w, hw, hwill w hw, rfl⟩] at h
        cases h
  unfold conclude
  rw [hp]
  dsimp only
  split <;> rfl

/-! ## The end of a connection in a run -/

/-- What the end of a connection comes to, when `past` are the acts of the run before it. -/
structure Concluded (past : List Moment) (x : Moment) (id : ConnectionId) (abnormal : Bool) :
    Prop where
  /-- It ends for the first time, so its will is published once at most. -/
  once : ∀ y ∈ past, ∀ abnormal', ¬ y.Concludes id abnormal'
  /-- A message is published if the end is abnormal and the login of the connection left a will:
  that will, to the destination and with the text that the login told. -/
  due_iff : ∀ m, x.act.posting? = some (.published m) ↔ abnormal = true ∧
    ∃ y ∈ past, ∃ login d, y.LogsIn id login ∧
      login.header? Header.lastWillDestination.name = some d ∧ d ≠ "" ∧
      m = .publish d (utf8 ((login.header? Header.lastWillMessage.name).getD ""))
  /-- The client has not taken its leave then. -/
  stayed : ∀ m, x.act.posting? = some (.published m) →
    ∀ y ∈ past, ∀ frame, y.Handles id frame → frame.type ≠ .disconnect
  /-- It is published as any message is, and nothing else is done. -/
  published : ∀ m, x.act.posting? = some (.published m) →
    { x.after with notices := (x.broker.publish m).2.notices } = (x.broker.publish m).2
  idle : x.act.posting? = none → { x.after with notices := x.broker.notices } = x.broker
  /-- The connection has gone by then. -/
  gone : x.broker.connection? id = none
  closed : ∃ s, x.broker.departed.get? id = some s ∧ s.closed = true
  /-- No destination lists it, but those whose subscription somebody holds. -/
  unlisted : ∀ name, x.broker.registry.Lists name id → x.broker.registry.Held name
  /-- So the will is not attempted at it, unless somebody holds the destination of the will. -/
  spared : ∀ m name, x.act.posting? = some (.published m) → m.address? = some name →
    ¬ x.broker.registry.Held name → id ∉ x.broker.registry.recipients m

/-- Whom a message is meant for is listed by its destination. -/
theorem lists_of_mem_recipients {r : Registry} {m : Message} {name : String} {id : ConnectionId}
    (hm : m.address? = some name) (hid : id ∈ r.recipients m) : r.Lists name id := by
  cases hs : r.subscription? name with
  | none =>
    rw [Registry.recipients_of_none hm hs] at hid
    cases hid
  | some s =>
    rw [Registry.recipients_of_some hm hs] at hid
    refine ⟨s, hs, ?_⟩
    cases ht : s.type with
    | topic => rwa [Subscription.targets_of_topic ht] at hid
    | queue =>
      rw [Subscription.targets_of_queue ht] at hid
      exact Subscription.mem_rotation.mp (List.mem_of_mem_head? (Option.mem_toList.mp hid))

/-- A client that takes its leave ends the connection by that, and abnormally if it has not logged
in. -/
theorem cause?_of_disconnect {c : Connection} {m : Message} (ht : m.type = .disconnect) :
    Moment.cause? ⟨b, .frame c m⟩ =
      some (if c.isConnected then .farewell else .refused (.protocol (.beforeConnect m.type))) := by
  have hh : b.handle c m =
      (if c.isConnected then .ok .disconnect
        else .error (.protocol (.beforeConnect m.type)), b) := by
    unfold handle carryOut
    rw [ht]
    cases c.isConnected <;> rfl
  unfold Moment.cause?
  simp only [hh]
  cases c.isConnected <;> rfl

namespace Recalls

variable {x : Moment} {id : ConnectionId} {abnormal : Bool}

/-- The end of a connection finds it withdrawn. -/
theorem exists_leave (h : Recalls accepted past b) (hx : b.Leads x)
    (hend : x.Concludes id abnormal) : ∃ b' c, Recalls accepted past b' ∧ c.id = id ∧
      b'.connection? c.id = some c ∧ x = ⟨b'.leave c, .conclude c.shut abnormal⟩ := by
  obtain ⟨c', hact, rfl⟩ := hend
  cases hx with
  | frame hs hc => cases hact
  | publish hs => cases hact
  | sweep hs => cases hact
  | @leave b' c _ hs hc =>
    cases hact
    exact ⟨b', c, h.steady hs, rfl, hc, rfl⟩

/-- No connection ends twice. -/
theorem not_concludes (h : Recalls accepted past b) (hx : b.Leads x)
    (hend : x.Concludes id abnormal) : ∀ y ∈ past, ∀ abnormal', ¬ y.Concludes id abnormal' := by
  obtain ⟨b', c, hb, rfl, hc, -⟩ := h.exists_leave hx hend
  intro y hy abnormal' he
  rw [hb.gone hy c.id abnormal' he] at hc
  cases hc

/-- **Which will is due** when a connection ends. -/
theorem posting?_eq_some_iff (h : Recalls accepted past b) (hx : b.Leads x)
    (hend : x.Concludes id abnormal) (m : Message) :
    x.act.posting? = some (.published m) ↔ abnormal = true ∧
      ∃ y ∈ past, ∃ login d, y.LogsIn id login ∧
        login.header? Header.lastWillDestination.name = some d ∧ d ≠ "" ∧
        m = .publish d (utf8 ((login.header? Header.lastWillMessage.name).getD "")) := by
  obtain ⟨b', c, hb, rfl, hc, rfl⟩ := h.exists_leave hx hend
  have hwill : ∀ w, c.shut.session.lastWill = some w ↔ ∃ y ∈ past, ∃ login,
      y.LogsIn c.id login ∧ lastWillOf login = some w :=
    hb.wills (c := c) hc
  refine willPosting?_eq_some.trans (and_congr_right fun _ => ?_)
  constructor
  · rintro ⟨w, hw, -, rfl⟩
    obtain ⟨y, hy, login, hlog, hlast⟩ := (hwill w).mp hw
    obtain ⟨hd, hne, ht⟩ := lastWillOf_eq_some.mp hlast
    exact ⟨y, hy, login, w.destination, hlog, hd, hne, by rw [← ht]; rfl⟩
  · rintro ⟨y, hy, login, d, hlog, hd, hne, rfl⟩
    exact ⟨⟨d, _⟩, (hwill _).mpr ⟨y, hy, login, hlog, lastWillOf_eq_some.mpr ⟨hd, hne, rfl⟩⟩, hne,
      rfl⟩

/-- **What the end of a connection comes to.** -/
theorem concluded (h : Recalls accepted past b) (hx : b.Leads x) (hend : x.Concludes id abnormal)
    (hstayed : ∀ m, x.act.posting? = some (.published m) →
      ∀ y ∈ past, ∀ frame, y.Handles id frame → frame.type ≠ .disconnect) :
    Concluded past x id abnormal := by
  have honce := h.not_concludes hx hend
  have hdue := h.posting?_eq_some_iff hx hend
  obtain ⟨b', c, hb, rfl, hc, rfl⟩ := h.exists_leave hx hend
  have hg := hb.toRoll.gone hc
  have hunlisted : ∀ name, (b'.leave c).registry.Lists name c.id →
      (b'.leave c).registry.Held name := fun name hl => (hg.lists hl).2 rfl
  refine ⟨honce, hdue, hstayed, fun m hp => conclude_of_published hp, fun hp => ?_, ?_, ?_,
    hunlisted, fun m name _ hm hheld hid => ?_⟩
  · refine conclude_of_none (fun w hw => ?_) hp
    obtain ⟨y, hy, login, -, hlast⟩ := (hb.wills hc w).mp hw
    exact (lastWillOf_eq_some.mp hlast).2.1
  · exact (hg.connections c.id).trans (if_pos rfl)
  · exact ⟨c.stream.close, Table.get?_insert_self _ _ _, rfl⟩
  · exact hheld (hunlisted name (lists_of_mem_recipients hm hid))

/-- A client that takes its leave without having logged in has no will. -/
theorem no_login_of_disconnect (h : Recalls accepted past b) {c : Connection} {m : Message}
    {b₁ : Broker} (hx : b.Leads ⟨b₁, .frame c m⟩) (hn : c.isConnected = false)
    (ht : m.type = .disconnect) : ∀ y ∈ past ++ [⟨b₁, .frame c m⟩], ∀ login,
      ¬ y.LogsIn c.id login := by
  cases hx with
  | frame hs hc =>
    intro y hy login hlog
    rcases List.mem_append.mp hy with hy | hy
    · exact (h.steady hs).unknown hc hn y hy login hlog
    · obtain ⟨c', hact, -, hin⟩ := hlog
      rw [List.mem_singleton.mp hy] at hact
      cases hact
      have := hin.1
      rw [ht] at this
      cases this

end Recalls

/-! ## Last wills in a run -/

/-- Frames that end a connection are followed by its end. -/
theorem exists_concludes_of_cause (settings : Settings) (clock : Timestamp) {turns : List Turn}
    (hn : (acceptedIn turns).Nodup) {y : Moment}
    (hy : y ∈ (Broker.new settings clock).annals turns) {id : ConnectionId} {m : Message}
    (hm : y.Handles id m) (hk : y.cause?.isSome) :
    ∃ x ∈ (Broker.new settings clock).annals turns, ∃ abnormal, x.Concludes id abnormal := by
  have h := play_induction (P := fun accepted past b => Roll accepted b ∧
      ∀ y ∈ past, ∀ id m, y.Handles id m → y.cause?.isSome →
        ∃ x ∈ past, ∃ abnormal, x.Concludes id abnormal)
    ⟨roll_new settings clock, List.forall_mem_nil _⟩ (fun t h hfresh => ?_) hn
  · exact h.2 y hy id m hm hk
  · refine ⟨h.1.turn hfresh, fun y hy id m hm hk => ?_⟩
    rcases List.mem_append.mp hy with hy | hy
    · obtain ⟨x, hx, hend⟩ := h.2 y hy id m hm hk
      exact ⟨x, List.mem_append_left _ hx, hend⟩
    · cases t with
      | contend name lock cursor => cases hy
      | event e =>
        obtain ⟨x, hx, hend⟩ := (h.1.closes e).exists_concludes hy hm hk
        exact ⟨x, List.mem_append_right _ hx, hend⟩

/-- Stopping a broker, as the events that it comes to. -/
def closing (b : Broker) : List Event :=
  .stopEvents :: (b.registry.connections.keys.map fun id => .tearDown id false) ++
    [.clear, .stopPool]

theorem shutDown_eq_run (b : Broker) : b.shutDown = b.run b.closing := by
  unfold shutDown run closing
  simp only [List.foldl_append, List.foldl_cons, List.foldl_map]
  rfl

/-- Ending connections normally publishes nothing. -/
theorem posting?_closing (b₀ : Broker) : ∀ x ∈ b.history b₀.closing, x.act.posting? = none := by
  have hquiet : ∀ (events : List Event) (b : Broker),
      (∀ e ∈ events, ∀ b : Broker, ∀ x ∈ b.moments e, x.act.posting? = none) →
      ∀ x ∈ b.history events, x.act.posting? = none := by
    intro events
    induction events with
    | nil => exact fun b _ => List.forall_mem_nil _
    | cons e events ih =>
      intro b he x hx
      obtain ⟨he, hrest⟩ := List.forall_mem_cons.mp he
      rcases List.mem_append.mp hx with hx | hx
      · exact he b x hx
      · exact ih _ hrest x hx
  refine hquiet _ b fun e he b x hx => ?_
  simp only [closing, List.cons_append, List.mem_cons, List.mem_append, List.mem_map,
    List.not_mem_nil, or_false] at he
  rcases he with rfl | ⟨id, -, rfl⟩ | rfl | rfl
  · cases hx
  · unfold moments momentsOfTearDown at hx
    dsimp only at hx
    split at hx
    · split at hx
      · cases hx
      · rw [List.mem_singleton.mp hx]
        rfl
    · split at hx
      · cases hx
      · rw [List.mem_singleton.mp hx]
        rfl
  · cases hx
  · cases hx

/-- Last wills when a run has come to a broker by the acts `past` and an event is next. -/
structure LastWills (past : List Moment) (b : Broker) (e : Event) : Prop where
  /-- Who ends, and whether abnormally, goes by the causes. -/
  ends_iff : ∀ id abnormal, (∃ x ∈ b.moments e, x.Concludes id abnormal) ↔
    ∃ cause, b.Ends id e cause ∧ cause.isAbnormal = abnormal
  /-- An answer that fails is a cause. -/
  unanswered : ∀ x ∈ b.moments e, ∀ c m b' e', x.act = .frame c m →
    x.broker.carryOut c m = (.ok .continue, b') → (b'.reply c.id m.type).1 = .error e' →
    x.cause? = some (.refused e')
  concluded : ∀ acts x rest id abnormal, b.moments e = acts ++ x :: rest →
    x.Concludes id abnormal → Concluded (past ++ acts) x id abnormal
  /-- Stopping the broker publishes nothing. -/
  stopping : b.shutDown = b.run b.closing ∧ ∀ x ∈ b.history b.closing, x.act.posting? = none

theorem cause?_of_reply {c : Connection} {m : Message} {e : BrokerError}
    (hok : b.carryOut c m = (.ok .continue, b')) (he : (b'.reply c.id m.type).1 = .error e) :
    Moment.cause? ⟨b, .frame c m⟩ = some (.refused e) := by
  have hh : (b.handle c m).1 = .error e := by
    unfold handle
    rw [hok]
    dsimp only
    rw [he]
    rfl
  unfold Moment.cause?
  simp only [hh, isFatal_of_reply he, if_true]

/-- **Last wills in every run,** whoever holds subscriptions in it, if no number is given to a
connection twice. -/
theorem play_lastWills (settings : Settings) (clock : Timestamp) {turns : List Turn}
    (h : (acceptedIn turns).Nodup) (e : Event) :
    LastWills ((Broker.new settings clock).annals turns) ((Broker.new settings clock).play turns)
      e := by
  have hr := Recalls.play settings clock h
  have hcauses : ∀ y ∈ (Broker.new settings clock).annals turns, ∀ id m, y.Handles id m →
      y.cause?.isSome → ∃ x ∈ (Broker.new settings clock).annals turns, ∃ abnormal,
        x.Concludes id abnormal :=
    fun y hy id m hm hk => exists_concludes_of_cause settings clock h hy hm hk
  generalize (Broker.new settings clock).annals turns = past at hr hcauses ⊢
  generalize (Broker.new settings clock).play turns = b at hr ⊢
  have hcloses := hr.toRoll.closes e
  refine ⟨hcloses.concludes_iff, fun x hx c m b' e' hact hok hfail => ?_,
    fun acts x rest id abnormal hs hend => ?_, b.shutDown_eq_run, posting?_closing b⟩
  · obtain ⟨b₁, act⟩ := x
    cases hact
    exact cause?_of_reply hok hfail
  · have hnone : e.accepted? = none := by
      cases e with
      | accept id' stream => exact absurd hs (by simp [moments])
      | _ => rfl
    have htrail := hr.toRoll.trail_apply hnone
    rw [hs] at htrail
    obtain ⟨b₁, hacts, hlead, -⟩ := htrail.split
    have h₁ := hr.trail hacts
    refine h₁.concluded hlead hend fun m hp y hy frame hm ht => ?_
    obtain ⟨habnormal, z, hz, login, d, hlog, -⟩ :=
      (h₁.posting?_eq_some_iff hlead hend m).mp hp
    obtain ⟨b₂, act⟩ := y
    obtain ⟨c, hact, rfl⟩ := hm
    cases hact
    have hk := @cause?_of_disconnect b₂ c frame ht
    have hsome : Moment.cause? ⟨b₂, .frame c frame⟩ |>.isSome := by
      rw [hk]
      rfl
    rcases List.mem_append.mp hy with hy | hy
    · -- The connection would have ended before.
      obtain ⟨z, hz, abnormal', hend'⟩ := hcauses _ hy c.id frame ⟨c, rfl, rfl⟩ hsome
      exact h₁.not_concludes hlead hend z (List.mem_append_left _ hz) abnormal' hend'
    · -- The leave would be the cause of the end: a normal one, or one without a login.
      obtain ⟨before, after, rfl⟩ := List.append_of_mem hy
      obtain ⟨-, -, cause, rfl, hlast⟩ := hcloses.split hs hend
      obtain ⟨rfl, hk'⟩ := hlast before _ after rfl hsome
      obtain rfl := Option.some.inj (hk.symm.trans hk')
      cases hn : c.isConnected with
      | true =>
        rw [hn] at habnormal
        cases habnormal
      | false =>
        obtain ⟨b₃, hbefore, hlead', -⟩ := hacts.split
        refine (hr.trail hbefore).no_login_of_disconnect hlead' hn ht z ?_ login hlog
        rwa [List.append_assoc]

/-- A client that leaves its will to a destination of its own. Somebody else holds the destination
when the client sends what is no frame. -/
def vigil : List Turn :=
  [.event (.accept 1 {}),
    .event (.sent 1 (Message.withHeader { type := .connect } Header.lastWillDestination.name
      "work")),
    .event (.sent 1 (.subscribe "work")), .event (.perform (.serve 1)),
    .contend "work" (.shared 0) none, .event (.change 1 fun s => s.feed (utf8 "hello"))]

theorem vigil_lastWills : (acceptedIn vigil).Nodup ∧
    LastWills ((Broker.new {} 0).annals vigil) ((Broker.new {} 0).play vigil)
      (.perform (.serve 1)) := by
  have h : (acceptedIn vigil).Nodup := by decide
  exact ⟨h, play_lastWills {} 0 h _⟩

/-- The will is published, and attempted at the connection that has gone. -/
theorem vigil_attempts_gone :
    (((Broker.new {} 0).play vigil).apply (.perform (.serve 1))).nextId = 2 ∧
      1 ∉ (((Broker.new {} 0).play vigil).apply (.perform (.serve 1))).registry.connections ∧
      .notDelivered "work" 1 (.connectionGone 1) ∈
        (((Broker.new {} 0).play vigil).apply (.perform (.serve 1))).notices := by
  decide +kernel

end MessageBroker.Broker
