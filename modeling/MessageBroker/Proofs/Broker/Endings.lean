import MessageBroker.Proofs.Broker.Contention
import MessageBroker.Proofs.Histories

/-!
# Why connections end

A connection ends for one of a few causes: its client takes its leave, a frame is refused for good
or cannot be answered, what was sent cannot be read, the other end closes, the connection cannot be
read on or watched again, its stream reports an error, or whoever runs the broker ends it. The cause
alone tells whether the end is an abnormal one.

Headlines:
* **`Broker.Ends`**: the causes for which an event ends a connection.
* **`Broker.Roll.closes`**: an event ends one connection at most, by its last act and for one cause,
  and the frames that it handles before are those of this connection.
* **`Broker.isFatal_of_reply`**: an answer that fails ends the connection.
-/

namespace MessageBroker.Broker

/-- Why a connection ends. -/
inductive Cause
  /-- The client has taken its leave. -/
  | farewell
  /-- A frame was refused for good, or could not be answered. -/
  | refused (e : BrokerError)
  /-- What was sent could not be read or decoded. -/
  | broken (e : BrokerError)
  /-- The other end has closed. -/
  | ended
  /-- There was more to read and nobody to do so any more. -/
  | notRequeued (stopped : Bool)
  /-- The stream could not be watched again. -/
  | notRearmed (stopped : Bool)
  /-- The stream reported an error. -/
  | failed
  /-- Whoever runs the broker has ended it. -/
  | dismissed (abnormal : Bool)

/-- Whether the end is an abnormal one: `stopped` says that the multiplexer was stopped by then. -/
def Cause.isAbnormal : Cause → Bool
  | farewell => false
  | refused _ | broken _ | ended | failed => true
  | notRequeued stopped | notRearmed stopped => !stopped
  | dismissed abnormal => abnormal

namespace Moment

/-- A frame of a connection is handled at a moment. -/
def Handles (x : Moment) (id : ConnectionId) (m : Message) : Prop :=
  ∃ c, x.act = .frame c m ∧ c.id = id

/-- The end of a connection is concluded at a moment. -/
def Concludes (x : Moment) (id : ConnectionId) (abnormal : Bool) : Prop :=
  ∃ c, x.act = .conclude c abnormal ∧ c.id = id

/-- The cause for which the frame that is handled at a moment ends its connection. -/
def cause? (x : Moment) : Option Cause :=
  match x.act with
  | .frame c m =>
    match (x.broker.handle c m).1 with
    | .ok .continue => none
    | .ok .disconnect => some .farewell
    | .error e => if e.isFatal then some (.refused e) else none
  | _ => none

theorem Handles.not_concludes {x : Moment} {id other : ConnectionId} {m : Message}
    {abnormal : Bool} (h : x.Handles id m) : ¬ x.Concludes other abnormal := by
  rintro ⟨c', hact', -⟩
  obtain ⟨c, hact, -⟩ := h
  rw [hact] at hact'
  cases hact'

theorem Concludes.eq {x : Moment} {id id' : ConnectionId} {abnormal abnormal' : Bool}
    (h : x.Concludes id abnormal) (h' : x.Concludes id' abnormal') :
    id = id' ∧ abnormal = abnormal' := by
  obtain ⟨c, hact, rfl⟩ := h
  obtain ⟨c', hact', rfl⟩ := h'
  rw [hact] at hact'
  cases hact'
  exact ⟨rfl, rfl⟩

end Moment

/-! ## Causes -/

/-- Why a connection ends after a pass whose frames have been handled and after which it might have
gone on. -/
inductive Lapses (b : Broker) (c : Connection) (pass : ReadPass) : Cause → Prop
  | broken {e : BrokerError} (he : pass.error = some e) : Lapses b c pass (.broken e)
  | ended (he : pass.error = none) (hended : pass.ended = true) : Lapses b c pass .ended
  | notRequeued (he : pass.error = none) (hended : pass.ended = false) (hm : pass.more = true)
    (hp : b.poolStopped = true) : Lapses b c pass (.notRequeued b.multiplexer.stopped)
  | notRearmed {e : NetError} (he : pass.error = none) (hended : pass.ended = false)
    (hm : pass.more = false)
    (hw : b.multiplexer.watch c.id c.stream.registers c.id .oneShot = .error e) :
    Lapses b c pass (.notRearmed b.multiplexer.stopped)

/-- Why a task ends a connection. -/
inductive EndsIn (b : Broker) (id : ConnectionId) : Task → Cause → Prop
  | failed (hl : id ∈ b.registry.connections) : EndsIn b id (.abort id) .failed
  | frame {x : Moment} {m : Message} {cause : Cause} (hx : x ∈ b.momentsOfServing id)
    (hm : x.Handles id m) (hk : x.cause? = some cause) : EndsIn b id (.serve id) cause
  /-- All the frames have been handled, and the connection lapses then. -/
  | lapse {b' : Broker} {c c' : Connection} {cause : Cause} (hc : b.connection? id = some c)
    (ho : c.isClosed = false)
    (hall : handleAll id c.readPass.1.messages (b.reading c) = (true, b'))
    (hc' : b'.connection? id = some c') (hl : b'.Lapses c' c.readPass.1 cause) :
    EndsIn b id (.serve id) cause

/-- **Why an event ends a connection.** -/
inductive Ends (b : Broker) (id : ConnectionId) : Event → Cause → Prop
  | dismissed {abnormal : Bool} (hl : id ∈ b.registry.connections) :
    Ends b id (.tearDown id abnormal) (.dismissed abnormal)
  | work {t : Task} {ts : List Task} {cause : Cause} (ht : b.tasks = t :: ts)
    (h : EndsIn { b with tasks := ts } id t cause) : Ends b id .work cause
  | perform {t : Task} {cause : Cause} (h : EndsIn b id t cause) : Ends b id (.perform t) cause

/-! ## What the acts of an event look like -/

/-- Acts that end nobody, or one connection by the last of them for one cause: `ends` says who ends
and why. -/
inductive Closes (ends : ConnectionId → Cause → Prop) : List Moment → Prop
  | nobody {acts : List Moment} (hacts : ∀ x ∈ acts, ∀ id abnormal, ¬ x.Concludes id abnormal)
    (hgo : ∀ x ∈ acts, x.cause? = none) (hno : ∀ id cause, ¬ ends id cause) : Closes ends acts
  | one {acts : List Moment} {x : Moment} {id : ConnectionId} {cause : Cause}
    (hx : x.Concludes id cause.isAbnormal) (hacts : ∀ y ∈ acts, ∃ m, y.Handles id m)
    (hlast : ∀ past y future, acts = past ++ y :: future → y.cause?.isSome →
      future = [] ∧ y.cause? = some cause)
    (hends : ∀ other cause', ends other cause' ↔ other = id ∧ cause' = cause) :
    Closes ends (acts ++ [x])

namespace Closes

variable {ends ends' : ConnectionId → Cause → Prop} {acts : List Moment}

theorem congr (h : Closes ends acts) (he : ∀ id cause, ends' id cause ↔ ends id cause) :
    Closes ends' acts := by
  cases h with
  | nobody hacts hgo hno =>
    exact .nobody hacts hgo fun id cause => mt (he id cause).mp (hno id cause)
  | one hx hacts hlast hends =>
    exact .one hx hacts hlast fun other cause => (he other cause).trans (hends other cause)

/-- Who ends, and how. -/
theorem concludes_iff (h : Closes ends acts) (id : ConnectionId) (abnormal : Bool) :
    (∃ x ∈ acts, x.Concludes id abnormal) ↔
      ∃ cause, ends id cause ∧ cause.isAbnormal = abnormal := by
  cases h with
  | nobody hacts hgo hno =>
    constructor
    · rintro ⟨x, hx, hc⟩
      exact absurd hc (hacts x hx _ _)
    · rintro ⟨cause, hends, -⟩
      exact absurd hends (hno id cause)
  | @one acts x id' cause hx hacts hlast hends =>
    constructor
    · rintro ⟨y, hy, hc⟩
      rcases List.mem_append.mp hy with hy | hy
      · obtain ⟨m, hm⟩ := hacts y hy
        exact absurd hc hm.not_concludes
      · obtain rfl := List.mem_singleton.mp hy
        obtain ⟨rfl, rfl⟩ := hc.eq hx
        exact ⟨cause, (hends _ _).mpr ⟨rfl, rfl⟩, rfl⟩
    · rintro ⟨cause', he, rfl⟩
      obtain ⟨rfl, rfl⟩ := (hends _ _).mp he
      exact ⟨x, List.mem_append_right _ (List.mem_singleton_self x), hx⟩

/-- A frame that ends its connection is followed by the end. -/
theorem exists_concludes (h : Closes ends acts) {y : Moment} (hy : y ∈ acts) {id : ConnectionId}
    {m : Message} (hm : y.Handles id m) (hk : y.cause?.isSome) :
    ∃ x ∈ acts, ∃ abnormal, x.Concludes id abnormal := by
  cases h with
  | nobody hacts hgo hno =>
    rw [hgo y hy] at hk
    cases hk
  | @one acts x id' cause hx hacts hlast hends =>
    rcases List.mem_append.mp hy with hy | hy
    · obtain ⟨m', c', hact', rfl⟩ := hacts y hy
      obtain ⟨c, hact, rfl⟩ := hm
      rw [hact] at hact'
      cases hact'
      exact ⟨x, List.mem_append_right _ (List.mem_singleton_self x), _, hx⟩
    · exact absurd (List.mem_singleton.mp hy ▸ hx) hm.not_concludes

/-- What comes before the end of a connection, and that nothing comes behind it. -/
theorem split (h : Closes ends acts) {past future : List Moment} {x : Moment} {id : ConnectionId}
    {abnormal : Bool} (hs : acts = past ++ x :: future) (hx : x.Concludes id abnormal) :
    future = [] ∧ (∀ y ∈ past, ∃ m, y.Handles id m) ∧
      ∃ cause, cause.isAbnormal = abnormal ∧ ∀ past' y future', past = past' ++ y :: future' →
        y.cause?.isSome → future' = [] ∧ y.cause? = some cause := by
  cases h with
  | nobody hacts hgo hno =>
    refine absurd hx (hacts x ?_ _ _)
    rw [hs]
    exact List.mem_append_right _ List.mem_cons_self
  | @one acts' x' id' cause hx' hacts hlast hends =>
    -- The end of the connection is the last of the acts, since the others are frames.
    rcases concat_eq_append_cons hs with ⟨rest, rfl, -⟩ | ⟨rfl, rfl, rfl⟩
    · obtain ⟨m, hm⟩ := hacts x (List.mem_append_right _ List.mem_cons_self)
      exact absurd hx hm.not_concludes
    · obtain ⟨rfl, rfl⟩ := hx.eq hx'
      exact ⟨rfl, hacts, cause, rfl, hlast⟩

end Closes

variable {accepted : List ConnectionId} {b b' : Broker}

/-- The end of a live connection, and of one that has gone already. -/
theorem Roll.closes_tearDown (h : Roll accepted b) (id : ConnectionId) {abnormal : Bool}
    {cause : Cause} (hcause : cause.isAbnormal = abnormal) :
    Closes (fun other cause' => id ∈ b.registry.connections ∧ other = id ∧ cause' = cause)
      (b.momentsOfTearDown id abnormal) := by
  subst hcause
  cases hc : b.connection? id with
  | none =>
    rw [h.momentsOfTearDown_of_gone hc]
    exact .nobody (List.forall_mem_nil _) (List.forall_mem_nil _) fun _ _ he =>
      not_mem_connections.mpr hc he.1
  | some c =>
    obtain ⟨rfl, -⟩ := h.registered hc
    rw [h.momentsOfTearDown_eq hc]
    refine @Closes.one _ [] _ c.id cause ⟨c.shut, rfl, rfl⟩ (List.forall_mem_nil _) ?_ ?_
    · intro past y future he
      exact absurd he (by simp)
    · exact fun other cause' => and_iff_right (Option.isSome_iff_exists.mpr ⟨c, hc⟩)

/-! ## Frames -/

/-- A connection stays while a frame of it is handled. -/
theorem Roll.exists_after_handle (h : Roll accepted b) {c : Connection}
    (hc : b.connection? c.id = some c) (m : Message) :
    ∃ c', (b.handle c m).2.connection? c.id = some c' := by
  by_cases hin : b.LogsIn c m
  · have hput := (h.connection?_connect hc hin c.id).trans (if_pos rfl)
    have hs := steady_handle_of_logsIn (h.login hc hin).registry hin
    obtain ⟨c', hc', -⟩ := hs.exists_after hput
    exact ⟨c', hc'⟩
  · obtain ⟨c', hc', -⟩ := (steady_handle h.registry hc hin).exists_after hc
    exact ⟨c', hc'⟩

/-- The acts of frames of a connection: it goes on after each of them, or it ends after the last
one. -/
inductive Handled (id : ConnectionId) : Bool → List Moment → Prop
  | goes {acts : List Moment} (hacts : ∀ y ∈ acts, (∃ m, y.Handles id m) ∧ y.cause? = none) :
    Handled id true acts
  | ends {acts : List Moment} {y x : Moment} {m : Message} {cause : Cause}
    (hacts : ∀ y ∈ acts, (∃ m, y.Handles id m) ∧ y.cause? = none) (hy : y.Handles id m)
    (hk : y.cause? = some cause) (hx : x.Concludes id cause.isAbnormal) :
    Handled id false (acts ++ [y, x])

theorem Handled.cons {id : ConnectionId} {goes : Bool} {acts : List Moment} {y : Moment}
    {m : Message} (hy : y.Handles id m) (hk : y.cause? = none) (h : Handled id goes acts) :
    Handled id goes (y :: acts) := by
  cases h with
  | goes hacts => exact .goes (List.forall_mem_cons.mpr ⟨⟨⟨m, hy⟩, hk⟩, hacts⟩)
  | ends hacts hy' hk' hx =>
    exact .ends (List.forall_mem_cons.mpr ⟨⟨⟨m, hy⟩, hk⟩, hacts⟩) hy' hk' hx

/-- **What becomes of a connection while frames of it are handled.** -/
theorem Roll.handled (h : Roll accepted b) {c : Connection} (hc : b.connection? c.id = some c)
    (ms : List Message) :
    Handled c.id (handleAll c.id ms b).1 (momentsOfFrames c.id ms b) := by
  induction ms generalizing b c with
  | nil => exact .goes (List.forall_mem_nil _)
  | cons m ms ih =>
    have hx : b.Leads ⟨b, .frame c m⟩ := .frame (.refl b) hc
    have hafter : Roll accepted (b.handle c m).2 := h.act hx
    obtain ⟨c', hc'⟩ := h.exists_after_handle hc m
    have hi : c'.id = c.id := (hafter.registered hc').1
    have hy : Moment.Handles ⟨b, .frame c m⟩ c.id m := ⟨c, rfl, rfl⟩
    unfold momentsOfFrames handleAll
    rw [hc]
    dsimp only
    rcases he : b.handle c m with ⟨e | flow, b'⟩
    · rw [he] at hafter hc'
      have hroll : ∀ n, Roll accepted (b'.report n) := fun n => hafter.steady (b'.steady_report n)
      dsimp only
      cases hf : e.isFatal with
      | true =>
        have hk : Moment.cause? ⟨b, .frame c m⟩ = some (.refused e) := by
          unfold Moment.cause?
          simp [he, hf]
        rw [if_pos rfl, if_pos rfl, (hroll _).momentsOfTearDown_eq hc']
        exact @Handled.ends _ [] _ _ m _ (List.forall_mem_nil _) hy hk ⟨c'.shut, rfl, hi⟩
      | false =>
        have hk : Moment.cause? ⟨b, .frame c m⟩ = none := by
          unfold Moment.cause?
          simp [he, hf]
        rw [if_neg Bool.false_ne_true, if_neg Bool.false_ne_true]
        refine .cons hy hk ?_
        rw [← hi]
        exact ih (hroll _) (hi.symm ▸ hc')
    · rw [he] at hafter hc'
      cases flow with
      | «continue» =>
        have hk : Moment.cause? ⟨b, .frame c m⟩ = none := by
          unfold Moment.cause?
          simp [he]
        refine .cons hy hk ?_
        rw [← hi]
        exact ih hafter (hi.symm ▸ hc')
      | disconnect =>
        have hk : Moment.cause? ⟨b, .frame c m⟩ = some .farewell := by
          unfold Moment.cause?
          simp [he]
        dsimp only
        rw [hafter.momentsOfTearDown_eq hc']
        exact @Handled.ends _ [] _ _ m _ (List.forall_mem_nil _) hy hk ⟨c'.shut, rfl, hi⟩

/-! ## After the frames -/

/-- What becomes of a connection after a pass whose frames have been handled: it goes on, or it ends
for one cause. -/
theorem Roll.momentsOfGoingOn_eq (h : Roll accepted b) {c : Connection}
    (hc : b.connection? c.id = some c) (pass : ReadPass) :
    (b.momentsOfGoingOn c pass = [] ∧ ∀ cause, ¬ b.Lapses c pass cause) ∨
      ∃ x cause, b.momentsOfGoingOn c pass = [x] ∧ x.Concludes c.id cause.isAbnormal ∧
        ∀ cause', b.Lapses c pass cause' ↔ cause' = cause := by
  have hend : ∀ {b₁ : Broker} (cause : Cause), Roll accepted b₁ → b₁.connection? c.id = some c →
      (∀ cause', b.Lapses c pass cause' ↔ cause' = cause) →
      ∃ x cause', b₁.momentsOfTearDown c.id cause.isAbnormal = [x] ∧
        x.Concludes c.id cause'.isAbnormal ∧
        ∀ cause'', b.Lapses c pass cause'' ↔ cause'' = cause' := by
    intro b₁ cause h₁ hc₁ hall
    rw [h₁.momentsOfTearDown_eq hc₁]
    exact ⟨_, cause, rfl, ⟨c.shut, rfl, rfl⟩, hall⟩
  have hreport : ∀ n, Roll accepted (b.report n) := fun n => h.steady (b.steady_report n)
  unfold momentsOfGoingOn
  cases he : pass.error with
  | some e =>
    refine .inr (hend (.broken e) (hreport _) hc fun cause' => ⟨fun hl => ?_, ?_⟩)
    · cases hl <;> simp_all
    · rintro rfl
      exact .broken he
  | none =>
    dsimp only
    cases hended : pass.ended with
    | true =>
      refine .inr (hend .ended h hc fun cause' => ⟨fun hl => ?_, ?_⟩)
      · cases hl <;> simp_all
      · rintro rfl
        exact .ended he hended
    | false =>
      rw [if_neg Bool.false_ne_true]
      cases hm : pass.more with
      | true =>
        rw [if_pos rfl]
        unfold execute
        cases hp : b.poolStopped with
        | true =>
          refine .inr (hend (.notRequeued b.multiplexer.stopped) (hreport _) hc
            fun cause' => ⟨fun hl => ?_, ?_⟩)
          · cases hl <;> simp_all
          · rintro rfl
            exact .notRequeued he hended hm hp
        | false =>
          refine .inl ⟨rfl, fun cause hl => ?_⟩
          cases hl <;> simp_all
      | false =>
        rw [if_neg Bool.false_ne_true]
        cases hw : b.multiplexer.watch c.id c.stream.registers c.id .oneShot with
        | ok multiplexer =>
          refine .inl ⟨rfl, fun cause hl => ?_⟩
          cases hl <;> simp_all
        | error e =>
          refine .inr (hend (.notRearmed b.multiplexer.stopped) (hreport _) hc
            fun cause' => ⟨fun hl => ?_, ?_⟩)
          · cases hl <;> simp_all
          · rintro rfl
            exact .notRearmed he hended hm hw

/-! ## Tasks and events -/

section Acts

variable {ends : ConnectionId → Cause → Prop} {id : ConnectionId} {acts : List Moment}

/-- Frames after which the connection goes on end nobody. -/
theorem closes_of_goes (hacts : ∀ y ∈ acts, (∃ m, y.Handles id m) ∧ y.cause? = none)
    (hno : ∀ other cause, ¬ ends other cause) : Closes ends acts := by
  refine .nobody (fun y hy other abnormal => ?_) (fun y hy => (hacts y hy).2) hno
  obtain ⟨⟨m, hm⟩, -⟩ := hacts y hy
  exact hm.not_concludes

/-- Such frames may be followed by the end of the connection. -/
theorem closes_of_lapse (hacts : ∀ y ∈ acts, (∃ m, y.Handles id m) ∧ y.cause? = none) {x : Moment}
    {cause : Cause} (hx : x.Concludes id cause.isAbnormal)
    (hends : ∀ other cause', ends other cause' ↔ other = id ∧ cause' = cause) :
    Closes ends (acts ++ [x]) := by
  refine .one hx (fun y hy => ?_) (fun past y future he hy => ?_) hends
  · exact (hacts y hy).1
  · rw [(hacts y (he ▸ List.mem_append_right _ List.mem_cons_self)).2] at hy
    cases hy

/-- A frame that ends the connection is the last. -/
theorem closes_of_frame (hacts : ∀ y ∈ acts, (∃ m, y.Handles id m) ∧ y.cause? = none)
    {y x : Moment} {m : Message} {cause : Cause} (hy : y.Handles id m) (hk : y.cause? = some cause)
    (hx : x.Concludes id cause.isAbnormal)
    (hends : ∀ other cause', ends other cause' ↔ other = id ∧ cause' = cause) :
    Closes ends (acts ++ [y, x]) := by
  rw [← List.singleton_append, ← List.append_assoc]
  refine .one hx (fun z hz => ?_) (fun past z future he hz => ?_) hends
  · rcases List.mem_append.mp hz with hz | hz
    · exact (hacts z hz).1
    · exact List.mem_singleton.mp hz ▸ ⟨m, hy⟩
  · rcases concat_eq_append_cons he with ⟨rest, rfl, -⟩ | ⟨-, rfl, rfl⟩
    · rw [(hacts z (List.mem_append_right _ List.mem_cons_self)).2] at hz
      cases hz
    · exact ⟨rfl, hk⟩

end Acts

/-- Nothing becomes of a connection that is not served. -/
theorem closes_of_idle {id : ConnectionId} (hacts : b.momentsOfServing id = [])
    (hclosed : ∀ c, b.connection? id = some c → c.isClosed = true) :
    Closes (fun other cause => other = id ∧ b.EndsIn id (.serve id) cause)
      (b.momentsOfServing id) := by
  rw [hacts]
  refine .nobody (List.forall_mem_nil _) (List.forall_mem_nil _) ?_
  rintro other cause ⟨-, he⟩
  cases he with
  | frame hx =>
    rw [hacts] at hx
    cases hx
  | lapse hc ho =>
    rw [hclosed _ hc] at ho
    cases ho

/-- Where every frame that is handled lets the connection go on, it ends if it lapses. -/
theorem endsIn_serve_iff {c : Connection} (hc : b.connection? c.id = some c)
    (ho : c.isClosed = false)
    (hall : handleAll c.id c.readPass.1.messages (b.reading c) = (true, b'))
    (hnone : ∀ x ∈ b.momentsOfServing c.id, ∀ m, x.Handles c.id m → x.cause? = none)
    (cause : Cause) : b.EndsIn c.id (.serve c.id) cause ↔
      ∃ c', b'.connection? c.id = some c' ∧ b'.Lapses c' c.readPass.1 cause := by
  constructor
  · intro he
    cases he with
    | frame hx hm hk =>
      rw [hnone _ hx _ hm] at hk
      cases hk
    | lapse hc' _ hall' hc'' hl =>
      obtain rfl := Option.some.inj (hc.symm.trans hc')
      obtain rfl := (Prod.mk.inj (hall.symm.trans hall')).2
      exact ⟨_, hc'', hl⟩
  · rintro ⟨c', hc', hl⟩
    exact .lapse hc ho hall hc' hl

/-- A connection that is served and ended by a frame. -/
theorem closes_serve_of_frame {c : Connection} (hc : b.connection? c.id = some c)
    (hall : (handleAll c.id c.readPass.1.messages (b.reading c)).1 = false) {acts : List Moment}
    {y x : Moment} {m : Message} {cause : Cause}
    (hframes : ∀ z ∈ acts, (∃ m, z.Handles c.id m) ∧ z.cause? = none) (hy : y.Handles c.id m)
    (hk : y.cause? = some cause) (hx : x.Concludes c.id cause.isAbnormal)
    (hacts : b.momentsOfServing c.id = acts ++ [y, x]) :
    Closes (fun other cause => other = c.id ∧ b.EndsIn c.id (.serve c.id) cause)
      (b.momentsOfServing c.id) := by
  have hends : ∀ cause', b.EndsIn c.id (.serve c.id) cause' ↔ cause' = cause := by
    intro cause'
    constructor
    · intro he
      cases he with
      | frame hz hm hk' =>
        rw [hacts, List.mem_append, List.mem_cons, List.mem_singleton] at hz
        rcases hz with hz | rfl | rfl
        · rw [(hframes _ hz).2] at hk'
          cases hk'
        · exact Option.some.inj (hk'.symm.trans hk)
        · exact absurd hx hm.not_concludes
      | lapse hc' _ hall' =>
        obtain rfl := Option.some.inj (hc.symm.trans hc')
        rw [hall'] at hall
        cases hall
    · rintro rfl
      refine .frame ?_ hy hk
      rw [hacts]
      simp
  rw [hacts]
  exact closes_of_frame hframes hy hk hx fun other cause' => and_congr_right' (hends cause')

/-- A connection that is served and goes on after its frames: it may lapse then. -/
theorem Roll.closes_serve_of_goes {c : Connection} (hb : Roll accepted b')
    (hc : b.connection? c.id = some c) (ho : c.isClosed = false)
    (hall : handleAll c.id c.readPass.1.messages (b.reading c) = (true, b')) {frames : List Moment}
    (hframes : ∀ y ∈ frames, (∃ m, y.Handles c.id m) ∧ y.cause? = none)
    (hacts : b.momentsOfServing c.id = frames ++
      match b'.connection? c.id with
      | none => []
      | some c' => b'.momentsOfGoingOn c' c.readPass.1) :
    Closes (fun other cause => other = c.id ∧ b.EndsIn c.id (.serve c.id) cause)
      (b.momentsOfServing c.id) := by
  cases hc' : b'.connection? c.id with
  | none =>
    simp only [hc', List.append_nil] at hacts
    have hends := endsIn_serve_iff hc ho hall fun x hx m _ => (hframes x (hacts ▸ hx)).2
    rw [hacts]
    refine closes_of_goes hframes ?_
    rintro other cause ⟨-, he⟩
    obtain ⟨c', hc'', -⟩ := (hends cause).mp he
    rw [hc'] at hc''
    cases hc''
  | some c' =>
    obtain ⟨hi', -⟩ := hb.registered hc'
    simp only [hc'] at hacts
    have hlapses : ∀ {acts'}, b'.momentsOfGoingOn c' c.readPass.1 = acts' →
        (∀ x ∈ acts', ∀ m, ¬ x.Handles c.id m) → ∀ cause,
          b.EndsIn c.id (.serve c.id) cause ↔ b'.Lapses c' c.readPass.1 cause := by
      intro acts' hgo hno cause
      rw [endsIn_serve_iff hc ho hall fun x hx m hm => ?_]
      · simp [hc']
      · rw [hacts, hgo] at hx
        exact (List.mem_append.mp hx).elim (fun hx => (hframes x hx).2)
          fun hx => absurd hm (hno x hx m)
    rcases hb.momentsOfGoingOn_eq (hi'.symm ▸ hc') c.readPass.1 with
      ⟨hgo, hnone⟩ | ⟨x, cause, hgo, hx, hsole⟩
    · have hends := hlapses hgo (List.forall_mem_nil _)
      rw [hacts, hgo, List.append_nil]
      refine closes_of_goes hframes ?_
      rintro other cause ⟨-, he⟩
      exact hnone cause ((hends cause).mp he)
    · rw [hi'] at hx
      have hends := hlapses hgo fun y hy m hm =>
        hm.not_concludes (List.mem_singleton.mp hy ▸ hx)
      rw [hacts, hgo]
      exact closes_of_lapse hframes hx fun other cause' =>
        and_congr_right' ((hends cause').trans (hsole cause'))

/-- **What becomes of a connection that is served.** -/
theorem Roll.closes_serve (h : Roll accepted b) (id : ConnectionId) :
    Closes (fun other cause => other = id ∧ b.EndsIn id (.serve id) cause)
      (b.momentsOfServing id) := by
  cases hc : b.connection? id with
  | none =>
    refine closes_of_idle ?_ fun c hc' => absurd (hc.symm.trans hc') (by simp)
    unfold momentsOfServing
    rw [hc]
  | some c =>
    obtain ⟨rfl, -⟩ := h.registered hc
    cases ho : c.isClosed with
    | true =>
      refine closes_of_idle (serve_of_closed hc ho).2 fun c' hc' => ?_
      obtain rfl := Option.some.inj (hc.symm.trans hc')
      exact ho
    | false =>
      have hread := h.steady (steady_reading hc)
      have hc₁ := b.connection?_reading c
      have hi := c.id_readPass
      have hacts := momentsOfServing_of_open hc ho
      have hhandled := hread.handled (hi.symm ▸ hc₁) c.readPass.1.messages
      have hroll := hread.trail (hread.trail_handleAll c.id c.readPass.1.messages)
      rw [hi] at hhandled
      generalize hall : handleAll c.id c.readPass.1.messages (b.reading c) = handled
        at hacts hhandled hroll
      generalize momentsOfFrames c.id c.readPass.1.messages (b.reading c) = frames
        at hacts hhandled
      obtain ⟨goes, b'⟩ := handled
      dsimp only at hacts hroll
      cases hhandled with
      | ends hframes hy hk hx =>
        rw [if_neg Bool.false_ne_true, List.append_nil] at hacts
        exact closes_serve_of_frame hc (congrArg Prod.fst hall) hframes hy hk hx hacts
      | goes hframes =>
        rw [if_pos rfl] at hacts
        exact hroll.closes_serve_of_goes hc ho hall hframes hacts

theorem Roll.closes_task (h : Roll accepted b) (t : Task) :
    Closes (fun id cause => b.EndsIn id t cause) (b.momentsOfTask t) := by
  cases t with
  | serve id =>
    refine (h.closes_serve id).congr fun other cause => ⟨fun he => ?_, ?_⟩
    · cases he with
      | frame hx hm hk => exact ⟨rfl, .frame hx hm hk⟩
      | lapse hc ho hall hc' hl => exact ⟨rfl, .lapse hc ho hall hc' hl⟩
    · rintro ⟨rfl, he⟩
      exact he
  | abort id =>
    refine (@closes_tearDown _ _ h id true .failed rfl).congr fun other cause => ⟨fun he => ?_, ?_⟩
    · cases he with
      | failed hl => exact ⟨hl, rfl, rfl⟩
    · rintro ⟨hl, rfl, rfl⟩
      exact .failed hl

/-- **An event ends one connection at most,** by its last act, and for one cause. -/
theorem Roll.closes (h : Roll accepted b) (e : Event) :
    Closes (fun id cause => b.Ends id e cause) (b.moments e) := by
  cases e with
  | work =>
    unfold moments
    cases ht : b.tasks with
    | nil =>
      refine .nobody (List.forall_mem_nil _) (List.forall_mem_nil _) fun id cause he => ?_
      cases he with
      | work ht' =>
        rw [ht] at ht'
        cases ht'
    | cons t ts =>
      have hroll : Roll accepted { b with tasks := ts } := h.steady ⟨.refl, rfl⟩
      refine (hroll.closes_task t).congr fun id cause => ⟨fun he => ?_, fun he => .work ht he⟩
      cases he with
      | work ht' he =>
        rw [ht] at ht'
        obtain ⟨rfl, rfl⟩ := List.cons.inj ht'
        exact he
  | perform t =>
    refine (h.closes_task t).congr fun id cause => ⟨fun he => ?_, .perform⟩
    cases he with
    | perform he => exact he
  | tearDown id abnormal =>
    refine (@closes_tearDown _ _ h id abnormal (.dismissed abnormal) rfl).congr
      fun other cause => ⟨fun he => ?_, ?_⟩
    · cases he with
      | dismissed hl => exact ⟨hl, rfl, rfl⟩
    · rintro ⟨hl, rfl, rfl⟩
      exact .dismissed hl
  | publish m =>
    refine .nobody (List.forall_mem_singleton.mpr ?_) (List.forall_mem_singleton.mpr rfl)
      fun _ _ he => nomatch he
    rintro id abnormal ⟨c, hact, -⟩
    cases hact
  | sweep expiry =>
    refine .nobody (List.forall_mem_singleton.mpr ?_) (List.forall_mem_singleton.mpr rfl)
      fun _ _ he => nomatch he
    rintro id abnormal ⟨c, hact, -⟩
    cases hact
  | _ =>
    exact .nobody (List.forall_mem_nil _) (List.forall_mem_nil _) fun _ _ he => nomatch he

/-! ## Answers that fail -/

/-- Every answer can be written. -/
theorem encodeOwn_answer {t answer : MessageType} (ha : t.answer = some answer) :
    ∃ frame, Wire.encodeOwn { type := answer } = .ok frame := by
  have h : (Wire.encodeOwn { type := answer }).isOk = true := by
    cases t <;> cases ha <;> decide +kernel
  cases he : Wire.encodeOwn { type := answer } with
  | ok frame => exact ⟨frame, rfl⟩
  | error e =>
    rw [he] at h
    cases h

/-- **An answer that fails ends the connection.** -/
theorem isFatal_of_reply {id : ConnectionId} {t : MessageType} {e : BrokerError}
    (he : (b.reply id t).1 = .error e) : e.isFatal = true := by
  unfold reply at he
  split at he
  · cases he
  · rename_i ha
    split at he
    · split at he
      · cases he
        rfl
      · dsimp only at he
        obtain ⟨frame, hf⟩ := encodeOwn_answer ha
        unfold Connection.send at he
        split at he
        · cases he
          rfl
        · rw [hf] at he
          dsimp only at he
          split at he
          · cases he
          · cases he
            rfl
    · cases he

end MessageBroker.Broker
