import MessageBroker.Proofs.Broker.LastWill
import MessageBroker.Proofs.Broker.Transcript

/-!
# Which frames are handled

The frames of a connection are handled in the order in which they were sent, none left out, up to
the first that ends it. The end comes next, and from then on the connection handles nothing and is
sent nothing.

Headlines:
* **`Broker.Recalls.heard`**: which of the frames that are read over a run are handled.
* **`Broker.Recalls.over`**: what follows a frame that ends its connection.
-/

namespace MessageBroker.Broker

variable {accepted : List ConnectionId} {past : List Moment} {b b' : Broker} {c : Connection}
  {id : ConnectionId}

/-! ## Which frames are handled -/

/-- The frame of a connection that is handled at a moment. -/
def Moment.handled? (x : Moment) (id : ConnectionId) : Option Message :=
  match x.act with
  | .frame c m => if c.id = id then some m else none
  | _ => none

/-- The task that is performed in a turn. -/
def taskIn (b : Broker) : Turn → Option Task
  | .event (.perform t) => some t
  | .event .work => b.tasks.head?
  | _ => none

/-- The frames that a pass over a connection would read. -/
def framesOf (b : Broker) (id : ConnectionId) : List Message :=
  match b.connection? id with
  | some c => if c.isClosed then [] else c.readPass.1.messages
  | none => []

/-- The frames that are read from a connection over a run. -/
def framesRead (b : Broker) (id : ConnectionId) : List Turn → List Message
  | [] => []
  | t :: turns =>
    (if b.taskIn t = some (.serve id) then b.framesOf id else []) ++
      (b.turn t).framesRead id turns

/-- The frames of a connection that are handled at some moments. -/
def handledIn (id : ConnectionId) (xs : List Moment) : List Message :=
  xs.filterMap fun x => x.handled? id

/-- No frame of a connection ends it at any of some moments. -/
def GoesOn (id : ConnectionId) (xs : List Moment) : Prop :=
  ∀ x ∈ xs, ∀ m, x.Handles id m → x.cause? = none

/-- The frames handled are the first of those that were read, and all of them while the connection
goes on. -/
structure Heard (id : ConnectionId) (xs : List Moment) (read : List Message) : Prop where
  front : handledIn id xs <+: read
  all : GoesOn id xs → handledIn id xs = read

theorem handled?_eq_some {x : Moment} {m : Message} :
    x.handled? id = some m ↔ x.Handles id m := by
  unfold Moment.handled? Moment.Handles
  cases x.act <;> simp [and_comm]

theorem handled?_of_ne {x : Moment} {other : ConnectionId} {m : Message}
    (h : x.Handles other m) (hne : id ≠ other) : x.handled? id = none := by
  obtain ⟨c, hact, rfl⟩ := h
  unfold Moment.handled?
  rw [hact]
  exact if_neg hne.symm

theorem handled?_of_concludes {x : Moment} {other : ConnectionId} {abnormal : Bool}
    (h : x.Concludes other abnormal) : x.handled? id = none := by
  obtain ⟨c, hact, -⟩ := h
  unfold Moment.handled?
  rw [hact]

theorem handledIn_append (id : ConnectionId) (xs ys : List Moment) :
    handledIn id (xs ++ ys) = handledIn id xs ++ handledIn id ys := List.filterMap_append

theorem handledIn_cons {x : Moment} {m : Message} (h : x.handled? id = some m)
    (xs : List Moment) : handledIn id (x :: xs) = m :: handledIn id xs :=
  List.filterMap_cons_some h

theorem handledIn_of_idle {xs : List Moment} (h : ∀ x ∈ xs, x.handled? id = none) :
    handledIn id xs = [] := List.filterMap_eq_nil_iff.mpr h

theorem heard_of_idle {xs : List Moment} (h : ∀ x ∈ xs, x.handled? id = none) :
    Heard id xs [] :=
  ⟨handledIn_of_idle h ▸ List.prefix_rfl, fun _ => handledIn_of_idle h⟩

theorem Heard.concat {xs ys : List Moment} {read : List Message} (h : Heard id xs read)
    (hys : ∀ y ∈ ys, y.handled? id = none) : Heard id (xs ++ ys) read := by
  refine ⟨?_, fun hgo => ?_⟩
  · rw [handledIn_append, handledIn_of_idle hys, List.append_nil]
    exact h.front
  · rw [handledIn_append, handledIn_of_idle hys, List.append_nil]
    exact h.all fun x hx => hgo x (List.mem_append_left _ hx)

/-- A frame is handled, and those behind it. -/
theorem Heard.cons {x : Moment} {m : Message} {xs : List Moment} {read : List Message}
    (hx : x.Handles id m) (h : Heard id xs read) : Heard id (x :: xs) (m :: read) := by
  have hm := handled?_eq_some.mpr hx
  refine ⟨?_, fun hgo => ?_⟩
  · rw [handledIn_cons hm]
    exact (List.prefix_cons_inj m).mpr h.front
  · rw [handledIn_cons hm, h.all fun y hy => hgo y (List.mem_cons_of_mem _ hy)]

/-- A frame is handled that ends the connection, and none behind it. -/
theorem heard_last {x : Moment} {m : Message} {cause : Cause} {xs : List Moment}
    (hx : x.Handles id m) (hk : x.cause? = some cause) (hxs : ∀ y ∈ xs, y.handled? id = none)
    (read : List Message) : Heard id (x :: xs) (m :: read) := by
  have hm := handled?_eq_some.mpr hx
  refine ⟨?_, fun hgo => ?_⟩
  · rw [handledIn_cons hm, handledIn_of_idle hxs]
    exact (List.prefix_cons_inj m).mpr List.nil_prefix
  · rw [hgo _ List.mem_cons_self m hx] at hk
    cases hk

theorem Roll.idle_tearDown (h : Roll accepted b) (other : ConnectionId) (abnormal : Bool) :
    ∀ x ∈ b.momentsOfTearDown other abnormal, x.handled? id = none := by
  cases hc : b.connection? other with
  | none =>
    rw [h.momentsOfTearDown_of_gone hc]
    exact List.forall_mem_nil _
  | some c =>
    obtain ⟨rfl, -⟩ := h.registered hc
    rw [h.momentsOfTearDown_eq hc]
    exact List.forall_mem_singleton.mpr rfl

/-- Frames are handled one after the other, up to the first that ends the connection. -/
theorem Roll.heard_frames (h : Roll accepted b) (hc : b.connection? c.id = some c)
    (ms : List Message) : Heard c.id (momentsOfFrames c.id ms b) ms := by
  induction ms generalizing b c with
  | nil => exact heard_of_idle (List.forall_mem_nil _)
  | cons m ms ih =>
    have hafter : Roll accepted (b.handle c m).2 := h.act (.frame (.refl b) hc)
    obtain ⟨c', hc'⟩ := h.exists_after_handle hc m
    have hi : c'.id = c.id := (hafter.registered hc').1
    have hx : Moment.Handles ⟨b, .frame c m⟩ c.id m := ⟨c, rfl, rfl⟩
    unfold momentsOfFrames
    rw [hc]
    dsimp only
    rcases he : b.handle c m with ⟨e | flow, b'⟩
    · rw [he] at hafter hc'
      have hroll : ∀ n, Roll accepted (b'.report n) := fun n => hafter.steady (b'.steady_report n)
      dsimp only
      cases hf : e.isFatal with
      | true =>
        have hk : Moment.cause? ⟨b, .frame c m⟩ = some (.refused e) := by
          unfold Moment.cause?
          simp [he, hf]
        exact heard_last hx hk ((hroll _).idle_tearDown c.id true) ms
      | false =>
        rw [if_neg Bool.false_ne_true]
        refine .cons hx ?_
        rw [← hi]
        exact ih (hroll _) (hi.symm ▸ hc')
    · rw [he] at hafter hc'
      cases flow with
      | «continue» =>
        refine .cons hx ?_
        rw [← hi]
        exact ih hafter (hi.symm ▸ hc')
      | disconnect =>
        have hk : Moment.cause? ⟨b, .frame c m⟩ = some .farewell := by
          unfold Moment.cause?
          simp [he]
        exact heard_last hx hk (hafter.idle_tearDown c.id false) ms

/-- What follows a pass handles no frame. -/
theorem Roll.idle_goingOn (h : Roll accepted b) (hc : b.connection? c.id = some c)
    (pass : ReadPass) : ∀ x ∈ b.momentsOfGoingOn c pass, x.handled? id = none := by
  rcases h.momentsOfGoingOn_eq hc pass with ⟨hnil, -⟩ | ⟨x, cause, hone, hx, -⟩
  · rw [hnil]
    exact List.forall_mem_nil _
  · rw [hone]
    exact List.forall_mem_singleton.mpr (handled?_of_concludes hx)

/-- The acts of frames of one connection handle no frame of another. -/
theorem Roll.idle_frames (h : Roll accepted b) (hc : b.connection? c.id = some c)
    (ms : List Message) (hne : id ≠ c.id) :
    ∀ x ∈ momentsOfFrames c.id ms b, x.handled? id = none := by
  have hother : ∀ {y : Moment}, (∃ m, y.Handles c.id m) → y.handled? id = none :=
    fun ⟨_, hm⟩ => handled?_of_ne hm hne
  have hh := h.handled hc ms
  generalize (handleAll c.id ms b).1 = goes, momentsOfFrames c.id ms b = acts at hh
  cases hh with
  | goes hacts => exact fun y hy => hother (hacts y hy).1
  | @ends acts y x m cause hacts hy hk hx =>
    refine List.forall_mem_append.mpr ⟨fun z hz => hother (hacts z hz).1, ?_⟩
    exact List.forall_mem_cons.mpr ⟨hother ⟨m, hy⟩, List.forall_mem_singleton.mpr
      (handled?_of_concludes hx)⟩

theorem Roll.heard_serve (h : Roll accepted b) (other id : ConnectionId) :
    Heard id (b.momentsOfServing other) (if other = id then b.framesOf id else []) := by
  cases hc : b.connection? other with
  | none =>
    have hframes : (if other = id then b.framesOf id else []) = [] := by
      split
      · rename_i e
        subst e
        unfold framesOf
        rw [hc]
      · rfl
    unfold momentsOfServing
    rw [hframes, hc]
    exact heard_of_idle (List.forall_mem_nil _)
  | some c =>
    obtain ⟨rfl, -⟩ := h.registered hc
    have hframes : b.framesOf c.id = if c.isClosed then [] else c.readPass.1.messages := by
      unfold framesOf
      rw [hc]
    cases ho : c.isClosed with
    | true =>
      rw [ho] at hframes
      rw [(serve_of_closed hc ho).2]
      have hnil : (if c.id = id then b.framesOf id else []) = [] := by
        split
        · rename_i e
          rw [← e, hframes]
          rfl
        · rfl
      rw [hnil]
      exact heard_of_idle (List.forall_mem_nil _)
    | false =>
      rw [ho] at hframes
      have hread := h.steady (steady_reading hc)
      have hc₁ : (b.reading c).connection? c.readPass.2.id = some c.readPass.2 :=
        c.id_readPass.symm ▸ b.connection?_reading c
      have hall := hread.trail (hread.trail_handleAll c.id c.readPass.1.messages)
      rw [momentsOfServing_of_open hc ho]
      dsimp only
      refine Heard.concat ?frames ?rest
      case frames =>
        by_cases e : c.id = id
        · subst e
          rw [if_pos rfl, hframes]
          have := hread.heard_frames hc₁ c.readPass.1.messages
          rwa [c.id_readPass] at this
        · rw [if_neg e]
          have := @Roll.idle_frames _ _ _ id hread hc₁ c.readPass.1.messages
            (by rw [c.id_readPass]; exact Ne.symm e)
          rw [c.id_readPass] at this
          exact heard_of_idle this
      case rest =>
        split
        · split
          · exact List.forall_mem_nil _
          · rename_i c' hc'
            exact hall.idle_goingOn ((hall.registered hc').1.symm ▸ hc') _
        · exact List.forall_mem_nil _

theorem Roll.heard_task (h : Roll accepted b) (t : Task) (id : ConnectionId) :
    Heard id (b.momentsOfTask t) (if t = .serve id then b.framesOf id else []) := by
  cases t with
  | serve other =>
    have hserve := h.heard_serve other id
    simp only [Task.serve.injEq]
    exact hserve
  | abort other => exact heard_of_idle (h.idle_tearDown other true)

/-- **The frames that a turn reads are handled in their order,** up to the first that ends the
connection. -/
theorem Roll.heard_turn (h : Roll accepted b) (t : Turn) (id : ConnectionId) :
    Heard id (b.acts t) (if b.taskIn t = some (.serve id) then b.framesOf id else []) := by
  have hidle : ∀ {xs : List Moment}, (∀ x ∈ xs, x.handled? id = none) →
      Heard id xs (if none = some (Task.serve id) then b.framesOf id else []) := fun hxs => by
    rw [if_neg nofun]
    exact heard_of_idle hxs
  cases t with
  | contend name lock cursor => exact hidle (List.forall_mem_nil _)
  | event e =>
    cases e with
    | work =>
      change Heard id (b.moments .work) (if b.tasks.head? = some (.serve id) then _ else _)
      unfold moments
      cases ht : b.tasks with
      | nil => exact hidle (List.forall_mem_nil _)
      | cons t ts =>
        have hroll : Roll accepted { b with tasks := ts } := h.steady ⟨.refl, rfl⟩
        have htask := hroll.heard_task t id
        simp only [List.head?_cons, Option.some.injEq]
        exact htask
    | perform t =>
      change Heard id (b.momentsOfTask t) (if some t = some (.serve id) then _ else _)
      simp only [Option.some.injEq]
      exact h.heard_task t id
    | tearDown other abnormal => exact hidle (h.idle_tearDown other abnormal)
    | publish m => exact hidle (List.forall_mem_singleton.mpr rfl)
    | sweep expiry => exact hidle (List.forall_mem_singleton.mpr rfl)
    | _ => exact hidle (List.forall_mem_nil _)

/-! ## The end of a connection -/

/-- In an event a frame that ends its connection is followed by the end. -/
theorem Closes.next {ends : ConnectionId → Cause → Prop} {acts before future : List Moment}
    {x : Moment} (h : Closes ends acts) (hs : acts = before ++ x :: future) {m : Message}
    (hm : x.Handles id m) {cause : Cause} (hk : x.cause? = some cause) :
    ∃ z, future = [z] ∧ z.Concludes id cause.isAbnormal := by
  cases h with
  | nobody hacts hgo hno =>
    rw [hgo x (hs ▸ List.mem_append_right _ List.mem_cons_self)] at hk
    cases hk
  | @one acts z other cause' hz hacts hlast hends =>
    rcases concat_eq_append_cons hs with ⟨rest, rfl, rfl⟩ | ⟨-, rfl, -⟩
    · obtain ⟨rfl, hcause⟩ := hlast _ x rest rfl (by rw [hk]; rfl)
      obtain rfl := Option.some.inj (hk.symm.trans hcause)
      obtain ⟨m', c', hact', rfl⟩ := hacts x (List.mem_append_right _ List.mem_cons_self)
      obtain ⟨c, hact, rfl⟩ := hm
      rw [hact] at hact'
      cases hact'
      exact ⟨z, rfl, hz⟩
    · exact absurd hz hm.not_concludes

/-- Whatever moment a run has come to, the acts before it tell of the connections. -/
theorem Recalls.before (h : Recalls accepted past b) {turns : List Turn}
    (hn : (acceptedIn turns ++ accepted).Nodup) {before future : List Moment} {x : Moment}
    (hs : b.annals turns = before ++ x :: future) :
    ∃ accepted' b', Recalls accepted' (past ++ before) b' ∧ b'.Leads x := by
  induction turns generalizing accepted past b before with
  | nil => exact absurd hs (by simp [annals])
  | cons t turns ih =>
    obtain ⟨hfresh, hrest⟩ := fresh_of_nodup hn
    change b.acts t ++ (b.turn t).annals turns = before ++ x :: future at hs
    rcases append_eq_append_cons hs with ⟨rest, hacts, -⟩ | ⟨rest, rfl, hrun⟩
    · cases ht : t.isOutside with
      | true =>
        rw [acts_of_outside ht] at hacts
        exact absurd hacts.symm (by simp)
      | false =>
        have htrail := h.toRoll.trail_turn (Turn.accepted?_of_inside ht)
        rw [hacts] at htrail
        obtain ⟨b', hbefore, hlead, -⟩ := htrail.split
        exact ⟨_, b', h.trail hbefore, hlead⟩
    · rw [← List.append_assoc]
      exact ih (h.turn hfresh) hrest hrun

/-- A frame that ends its connection is followed by the end, and nothing else happens before. -/
theorem Roll.ends_next (h : Roll accepted b) {turns : List Turn}
    (hn : (acceptedIn turns ++ accepted).Nodup) {before future : List Moment} {x : Moment}
    (hs : b.annals turns = before ++ x :: future) {m : Message} (hm : x.Handles id m)
    {cause : Cause} (hk : x.cause? = some cause) :
    ∃ z rest, future = z :: rest ∧ z.Concludes id cause.isAbnormal := by
  induction turns generalizing accepted b before future with
  | nil => exact absurd hs (by simp [annals])
  | cons t turns ih =>
    obtain ⟨hfresh, hrest⟩ := fresh_of_nodup hn
    change b.acts t ++ (b.turn t).annals turns = before ++ x :: future at hs
    rcases append_eq_append_cons hs with ⟨rest, hacts, rfl⟩ | ⟨rest, -, hrun⟩
    · cases t with
      | contend name lock cursor => exact absurd hacts (by simp [acts])
      | event e =>
        have hcloses := h.closes e
        have hacts' : b.moments e = before ++ x :: rest := hacts
        obtain ⟨z, rfl, hz⟩ := hcloses.next hacts' hm hk
        exact ⟨z, _, rfl, hz⟩
    · exact ih (h.turn hfresh) hrest hrun

theorem Leads.gone {x : Moment} (hx : b.Leads x) (h : Roll accepted b)
    (hgone : b.connection? id = none) :
    x.broker.connection? id = none ∧ ∀ m, ¬ x.Handles id m := by
  have hnone : ∀ {b' : Broker}, b.Steady b' → b'.connection? id = none := by
    intro b' hs
    refine Option.eq_none_iff_forall_ne_some.mpr fun c hc => ?_
    obtain ⟨c', hc', -⟩ := hs.exists_before hc
    rw [hgone] at hc'
    cases hc'
  cases hx with
  | frame hs hc =>
    refine ⟨hnone hs, ?_⟩
    rintro m ⟨c', hact, rfl⟩
    cases hact
    rw [hnone hs] at hc
    cases hc
  | @leave b' c abnormal hs hc =>
    refine ⟨?_, ?_⟩
    · change (b'.leave c).registry.connections.get? id = none
      rw [((h.steady hs).gone hc).connections id]
      split
      · rfl
      · exact hnone hs
    · rintro m ⟨c', hact, -⟩
      cases hact
  | publish hs =>
    refine ⟨hnone hs, ?_⟩
    rintro m ⟨c', hact, -⟩
    cases hact
  | sweep hs =>
    refine ⟨hnone hs, ?_⟩
    rintro m ⟨c', hact, -⟩
    cases hact

/-- Nothing is written to a connection that has gone. -/
theorem Roll.sends_of_gone (h : Roll accepted b) {x : Moment} (hx : b.Leads x)
    (hgone : x.broker.connection? id = none) : x.sends id = [] := by
  obtain ⟨message, answer, hw⟩ := h.writes hx id
  rw [hw.sends_eq]
  by_contra hno
  exact not_mem_connections.mpr hgone (hw.live hno)

theorem Recalls.plays (h : Recalls accepted past b) {turns : List Turn}
    (hn : (acceptedIn turns ++ accepted).Nodup) :
    Recalls (acceptedIn turns ++ accepted) (past ++ b.annals turns) (b.play turns) := by
  induction turns generalizing accepted past b with
  | nil =>
    change Recalls ([] ++ accepted) (past ++ []) b
    rwa [List.nil_append, List.append_nil]
  | cons t turns ih =>
    obtain ⟨hfresh, hrest⟩ := fresh_of_nodup hn
    have := ih (h.turn hfresh) hrest
    rwa [← List.append_assoc, ← acceptedIn_cons, List.append_assoc] at this

/-- What is left of a connection once a frame has ended it: its end comes next, and from then on it
is not live, handles nothing and is sent nothing. -/
structure Over (b : Broker) (id : ConnectionId) (turns : List Turn) (cause : Cause)
    (future : List Moment) : Prop where
  ends : ∃ z rest, future = z :: rest ∧ z.Concludes id cause.isAbnormal
  gone : ∀ y ∈ future, y.broker.connection? id = none
  unheard : ∀ y ∈ future, ∀ m, ¬ y.Handles id m
  silent : ∀ y ∈ future, y.sends id = []
  last : (b.play turns).connection? id = none

/-- **With the first frame that ends a connection it is over.** -/
theorem Recalls.over (h : Recalls accepted past b) {turns : List Turn}
    (hn : (acceptedIn turns ++ accepted).Nodup) {before future : List Moment} {x : Moment}
    (hs : b.annals turns = before ++ x :: future) {m : Message} (hm : x.Handles id m)
    {cause : Cause} (hk : x.cause? = some cause) : Over b id turns cause future := by
  obtain ⟨z, rest, rfl, hz⟩ := h.toRoll.ends_next hn hs hm hk
  have hgone : ∀ y ∈ z :: rest, (y.broker.connection? id = none ∧ ∀ m, ¬ y.Handles id m) ∧
      y.sends id = [] := by
    intro y hy
    obtain ⟨between, after, hsplit⟩ := List.append_of_mem hy
    rw [hsplit, ← List.cons_append, ← List.append_assoc] at hs
    obtain ⟨accepted', b', h', hlead⟩ := h.before hn hs
    have hnone : y.broker.connection? id = none ∧ ∀ m, ¬ y.Handles id m := by
      cases between with
      | nil =>
        obtain ⟨rfl, -⟩ := List.cons.inj hsplit
        obtain ⟨b'', c, hb, rfl, hc, rfl⟩ := h'.exists_leave hlead hz
        refine ⟨((hb.toRoll.gone hc).connections c.id).trans (if_pos rfl), fun m hm => ?_⟩
        exact hm.not_concludes hz
      | cons z' between =>
        obtain ⟨rfl, -⟩ := List.cons.inj hsplit
        have hin : z ∈ past ++ (before ++ x :: z :: between) := by simp
        exact hlead.gone h'.toRoll (h'.gone hin id _ hz)
    exact ⟨hnone, h'.toRoll.sends_of_gone hlead hnone.1⟩
  refine ⟨⟨z, rest, rfl, hz⟩, fun y hy => (hgone y hy).1.1, fun y hy => (hgone y hy).1.2,
    fun y hy => (hgone y hy).2, ?_⟩
  exact (h.plays hn).gone (x := z) (by rw [hs]; simp) id _ hz

/-- **Over a run the frames that are read are handled in their order,** up to the first that ends
the connection. -/
theorem Recalls.heard (h : Recalls accepted past b) {turns : List Turn}
    (hn : (acceptedIn turns ++ accepted).Nodup) :
    Heard id (b.annals turns) (b.framesRead id turns) := by
  induction turns generalizing accepted past b with
  | nil => exact heard_of_idle (List.forall_mem_nil _)
  | cons t turns ih =>
    obtain ⟨hfresh, hrest⟩ := fresh_of_nodup hn
    have hturn := h.toRoll.heard_turn t id
    have hlater := ih (h.turn hfresh) hrest
    change Heard id (b.acts t ++ (b.turn t).annals turns) (_ ++ (b.turn t).framesRead id turns)
    by_cases hgo : GoesOn id (b.acts t)
    · refine ⟨?_, fun hall => ?_⟩
      · rw [handledIn_append, hturn.all hgo]
        exact (List.prefix_append_right_inj _).mpr hlater.front
      · rw [handledIn_append, hturn.all hgo,
          hlater.all fun x hx => hall x (List.mem_append_right _ hx)]
    · -- A frame of this turn ends the connection, and nothing is handled later.
      have hcause : ∃ x ∈ b.acts t, ∃ m cause, x.Handles id m ∧ x.cause? = some cause := by
        unfold GoesOn at hgo
        push Not at hgo
        obtain ⟨x, hx, m, hm, hk⟩ := hgo
        obtain ⟨cause, hk⟩ := Option.ne_none_iff_exists'.mp hk
        exact ⟨x, hx, m, cause, hm, hk⟩
      obtain ⟨x, hx, m, cause, hm, hk⟩ := hcause
      obtain ⟨before, after, hsplit⟩ := List.append_of_mem hx
      have hs : b.annals (t :: turns) = before ++ x :: (after ++ (b.turn t).annals turns) := by
        change b.acts t ++ (b.turn t).annals turns = _
        rw [hsplit, List.append_assoc, List.cons_append]
      have hover := h.over hn hs hm hk
      have hnone : handledIn id ((b.turn t).annals turns) = [] := by
        refine handledIn_of_idle fun y hy => Option.eq_none_iff_forall_ne_some.mpr fun m' hm' => ?_
        exact hover.unheard y (List.mem_append_right _ hy) m' (handled?_eq_some.mp hm')
      refine ⟨?_, fun hall => ?_⟩
      · rw [handledIn_append, hnone, List.append_nil]
        exact hturn.front.trans (List.prefix_append _ _)
      · rw [hall x (List.mem_append_left _ hx) m hm] at hk
        cases hk

end MessageBroker.Broker
