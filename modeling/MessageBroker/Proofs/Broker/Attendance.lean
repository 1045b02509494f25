import MessageBroker.Proofs.Broker.Attention
import MessageBroker.Proofs.Connection.Stalling

/-!
# Nobody is forgotten

A watch is disarmed before the pass that it asks for. Whichever way the pass ends, the connection
must be watched again, wait for another pass, or end; one that did none of it would be live and
never be heard again. It is so after every pass, and just one of the three, whoever holds
subscriptions, whatever the streams do, and whatever is stopped meanwhile.

Headlines:
* **`Broker.InHand`**: nobody is attended to twice, and while there are watches and workers nobody
  is forgotten; **`Broker.InHand.turn`**: so it stays.
* **`Broker.InHand.existsUnique_fate`**: what becomes of a connection that is served.
* **`Broker.play_attentive`**: so it is in every run.
-/

namespace MessageBroker.Broker

variable {accepted : List ConnectionId} {b b' : Broker} {c : Connection} {id : ConnectionId}

/-- Nobody is attended to twice, and while there are watches and workers nobody who is live is
forgotten. -/
structure InHand (accepted : List ConnectionId) (b : Broker) : Prop where
  roll : Roll accepted b
  idle : b.Idle
  watchful : b.Watchful
  known : ∀ ⦃id⦄, b.attention id ≠ 0 → id ∈ accepted
  once : ∀ id, b.attention id ≤ 1
  attended : b.Running → ∀ ⦃id⦄, b.Open id → b.attention id ≠ 0

theorem inHand_new (settings : Settings) (clock : Timestamp) :
    InHand [] (Broker.new settings clock) where
  roll := roll_new settings clock
  idle := idle_new settings clock
  watchful := nofun
  known _ h := absurd rfl h
  once _ := Nat.zero_le 1
  attended _ _ h := absurd h (not_open rfl)

/-- What passes attention on leaves everybody in hand. -/
theorem InHand.passesOn (h : InHand accepted b) (hp : b.PassesOn b') (hr : Roll accepted b')
    (hi : b'.Idle) : InHand accepted b' where
  roll := hr
  idle := hi
  watchful := hp.watchful h.watchful
  known id hn := h.known fun hz => hn (Nat.le_zero.mp (hz ▸ hp.atMost id))
  once id := Nat.le_trans (hp.atMost id) (h.once id)
  attended hrun id ho hz := by
    obtain ⟨ho', hle⟩ := hp.atLeast hrun ho
    exact h.attended (hp.running hrun) ho' (Nat.le_zero.mp (hz ▸ hle))

/-! ## A pass -/

/-- While its task is performed a connection is attended to by nobody else. -/
theorem InHand.attention_eq_zero (h : InHand accepted b) {t : Task} {ts : List Task}
    (ht : b.tasks = t :: ts) : ({ b with tasks := ts } : Broker).attention t.owner = 0 := by
  have hone := h.once t.owner
  rw [attention_cons ht, if_pos rfl] at hone
  omega

/-- What may become of a connection that is served. -/
inductive Fate
  | tornDown
  | watched
  | queued
deriving DecidableEq

/-- What has become of a connection that was served: it has been torn down, and nobody attends to it
any more; or its watch is armed, and everything has been read and looked at up to where reading
would block; or a task waits to read it. -/
def Meets (b : Broker) (c : Connection) : Fate → Prop
  | .tornDown => b.TornDown c.id ∧ b.attention c.id = 0
  | .watched => b.Armed c.id ∧ ∃ c', b.connection? c.id = some c' ∧ c'.IsIdle ∧
      Net.Stalls c.stream.ended c.stream.incoming c'.stream.incoming
  | .queued => .serve c.id ∈ b.tasks ∧ (b.connection? c.id).isSome

/-- No two of these at once, where nobody is attended to twice. -/
theorem Meets.eq {f f' : Fate} (hone : b.attention c.id ≤ 1) (h : b.Meets c f)
    (h' : b.Meets c f') : f = f' := by
  have hgone : b.Meets c .tornDown → b.connection? c.id = none := fun h => h.1.gone
  have hlive : ∀ {c'}, b.connection? c.id = some c' → ¬ b.Meets c .tornDown := by
    intro c' hc' hd
    rw [hgone hd] at hc'
    cases hc'
  have htwice : b.Armed c.id → .serve c.id ∉ b.tasks := fun ha hm =>
    absurd (two_le_attention hm ha) (Nat.not_le.mpr (Nat.lt_succ_of_le hone))
  match f, f', h, h' with
  | .tornDown, .tornDown, _, _ => rfl
  | .watched, .watched, _, _ => rfl
  | .queued, .queued, _, _ => rfl
  | .tornDown, .watched, hd, ⟨_, c', hc', _⟩ => exact absurd hd (hlive hc')
  | .watched, .tornDown, ⟨_, c', hc', _⟩, hd => exact absurd hd (hlive hc')
  | .tornDown, .queued, hd, ⟨_, hl⟩ =>
    obtain ⟨c', hc'⟩ := Option.isSome_iff_exists.mp hl
    exact absurd hd (hlive hc')
  | .queued, .tornDown, ⟨_, hl⟩, hd =>
    obtain ⟨c', hc'⟩ := Option.isSome_iff_exists.mp hl
    exact absurd hd (hlive hc')
  | .watched, .queued, ⟨ha, _⟩, ⟨hm, _⟩ => exact absurd hm (htwice ha)
  | .queued, .watched, ⟨hm, _⟩, ⟨ha, _⟩ => exact absurd hm (htwice ha)

/-- What is read of a connection, and by what it goes on. -/
theorem Continues.meets {c' : Connection} (hi : c'.id = c.id) (hc' : b.connection? c.id = some c')
    (he : c'.inlet = c.readPass.2.inlet) (hidle : c'.IsIdle) (hf : c.readPass.1.isFinal = false)
    (h : b.Continues c' c.readPass.1.more b') : ∃ f, b'.Meets c f := by
  cases h with
  | queued hm hx =>
    unfold execute at hx
    split at hx
    · cases hx
    · cases hx
      refine ⟨.queued, ?_, Option.isSome_iff_exists.mpr ⟨c', hc'⟩⟩
      rw [← hi]
      exact List.mem_append_right _ List.mem_cons_self
  | watched hm hw =>
    obtain ⟨-, rfl⟩ := Net.Multiplexer.watch_eq_ok hw
    refine ⟨.watched, ?_, c', hc', hidle, ?_⟩
    · rw [← hi]
      exact Table.get?_insert_self _ _ _
    · have hleft : c'.stream.incoming = c.readPass.2.stream.incoming := congrArg Inlet.incoming he
      rw [hleft]
      exact Connection.stalls_readPass hf hm

/-- **What becomes of a connection that is served:** one of three fates, and of its neighbours
nobody is forgotten. -/
theorem InHand.serve (h : InHand accepted b) {ts : List Task} (ht : b.tasks = .serve c.id :: ts)
    (hc : b.connection? c.id = some c) (ho : c.stream.closed = false) :
    b.PassesOn (({ b with tasks := ts } : Broker).serve c.id) ∧
      ∃ f, (({ b with tasks := ts } : Broker).serve c.id).Meets c f := by
  have hzero := h.attention_eq_zero ht
  have hroll : Roll accepted { b with tasks := ts } := h.roll.steady ⟨.refl, rfl⟩
  have hidle : ({ b with tasks := ts } : Broker).Idle := h.idle
  have hopen : c.isClosed = false := by
    unfold Connection.isClosed
    rw [(h.roll.registered hc).2, ho]
    rfl
  have hb : ∀ {b₁ : Broker}, ({ b with tasks := ts } : Broker).PassesOn b₁ → b₁.attention c.id = 0 :=
    fun hp => Nat.le_zero.mp (hzero ▸ hp.atMost c.id)
  have hc₀ : ({ b with tasks := ts } : Broker).connection? c.id = some c := hc
  generalize hb₀ : ({ b with tasks := ts } : Broker) = b₀ at *
  have hread := passesOn_reading hc₀
  have hkeeps := (hroll.serve_cases hc₀ hopen).1
  rcases hroll.serve_fates hc₀ hopen with hended | ⟨hf, b₁, c₁, hdrive, hk, hc₁, hi, he, hgoes⟩
  · have hp := hread.trans (.of_departs hended.departs hkeeps)
    refine ⟨.of_last ht (hb₀ ▸ hp) (not_open hended.departs.gone), .tornDown, hended.tornDown, hb hp⟩
  · have hp := hread.trans (.of_sameDrive hdrive hk)
    have hunarmed : ¬ b₁.Armed c₁.id := by
      intro ha
      have := hb hp
      unfold attention at this
      rw [if_pos (hi ▸ ha)] at this
      omega
    obtain ⟨hg, hregistry⟩ := hgoes.grants hunarmed
    rw [hi] at hg
    exact ⟨.of_again ht (hb₀ ▸ hp) hg hregistry, hgoes.meets hi hc₁ he
      (isIdle_of_inlet he (Connection.isIdle_readPass (hidle hc₀) hf)) hf⟩

/-! ## Turns -/

/-- Tasks are performed as they wait, and a stream that has been closed stays so. -/
def Turn.IsLawful : Turn → Prop
  | .event (.perform _) => False
  | .event (.change _ f) => ∀ s, s.closed = true → (f s).closed = true
  | _ => True

theorem Roll.passesOn_modifyStream (h : Roll accepted b) {f : Net.Stream → Net.Stream}
    (hf : ∀ s, s.closed = true → (f s).closed = true) (id : ConnectionId) :
    b.PassesOn (b.modifyStream id f) := by
  have hs := b.sameDrive_modifyStream id f
  refine .of_same hs.tasks hs.poolStopped (by rw [hs.multiplexer]) (by rw [hs.multiplexer])
    fun other ho => ?_
  unfold modifyStream at ho
  split at ho
  · rename_i c hc
    obtain ⟨rfl, -⟩ := h.registered hc
    obtain ⟨x, hx, hopen⟩ := ho
    have hget : (if other = c.id then some { c with stream := f c.stream } else
        b.connection? other) = some x := (Table.get?_insert _ _ _ _).symm.trans hx
    split at hget
    · rename_i e
      cases hget
      refine ⟨c, e ▸ hc, Bool.eq_false_iff.mpr fun hclosed => ?_⟩
      exact Bool.false_ne_true (hopen.symm.trans (hf _ hclosed))
    · exact ⟨x, hget, hopen⟩
  · exact ho

/-- **A task that is performed passes attention on.** -/
theorem InHand.passesOn_work (h : InHand accepted b) : b.PassesOn (work 1 b) := by
  unfold work
  cases ht : b.tasks with
  | nil => exact .refl b
  | cons t ts =>
    have hroll : Roll accepted { b with tasks := ts } := h.roll.steady ⟨.refl, rfl⟩
    cases t with
    | abort id =>
      exact .of_last ht (hroll.passesOn_tearDown id true) (not_open (hroll.gone_tearDown id true))
    | serve id =>
      by_cases ho : b.Open id
      · obtain ⟨c, hc, hopen⟩ := ho
        obtain ⟨rfl, -⟩ := h.roll.registered hc
        exact (h.serve ht hc hopen).1
      · have hno : ¬ ({ b with tasks := ts } : Broker).Open id := ho
        change b.PassesOn (({ b with tasks := ts } : Broker).serve id)
        rw [serve_of_not_open hno]
        exact .of_last ht (.refl _) hno

/-- Who is attended to for the first time is in hand with the others. -/
theorem InHand.granted (h : InHand accepted b) (hzero : b.attention id = 0) (hg : Grants id b b')
    (hr : Roll (id :: accepted) b') (hi : b'.Idle)
    (ho : ∀ ⦃other⦄, b'.Open other → other = id ∨ b.Open other) :
    InHand (id :: accepted) b' where
  roll := hr
  idle := hi
  watchful := hg.watchful h.watchful
  known other hn := by
    by_cases e : other = id
    · exact e ▸ List.mem_cons_self
    · rw [hg.attention, if_neg e] at hn
      exact List.mem_cons_of_mem _ (h.known hn)
  once other := by
    have hone := h.once other
    rw [hg.attention]
    by_cases e : other = id
    · subst e
      rw [if_pos rfl]
      omega
    · rw [if_neg e]
      exact hone
  attended hrun other hopen hz := by
    rw [hg.attention] at hz
    rcases ho hopen with rfl | hopen'
    · rw [if_pos rfl] at hz
      cases hz
    · exact h.attended (hg.running hrun) hopen' (Nat.eq_zero_of_add_eq_zero_right hz)

/-- What drives a broker that has accepted a stream: the stream is watched, or it is refused and its
connection has gone already. -/
theorem accept_cases (b : Broker) (id : ConnectionId) (stream : Net.Stream) :
    (b.accept id stream).2.tasks = b.tasks ∧
      (b.accept id stream).2.poolStopped = b.poolStopped ∧
      ((b.accept id stream).2.multiplexer = { b.multiplexer with
          watched := b.multiplexer.watched.insert id { data := id, trigger := .oneShot } } ∨
        (b.accept id stream).2.multiplexer = b.multiplexer ∧
          (b.accept id stream).2.connection? id = none) := by
  have hdisplace : b.SameDrive (b.displace id) := by
    unfold displace
    split <;> exact ⟨rfl, rfl, rfl, rfl⟩
  unfold accept
  dsimp only
  split
  · rename_i multiplexer hw
    obtain ⟨-, hm⟩ := Net.Multiplexer.watch_eq_ok hw
    refine ⟨hdisplace.tasks, hdisplace.poolStopped, .inl ?_⟩
    rw [hm, hdisplace.multiplexer]
  · refine ⟨hdisplace.tasks, hdisplace.poolStopped, .inr ⟨hdisplace.multiplexer, ?_⟩⟩
    generalize hcon : Connection.new id stream (b.displace id).settings.listener.maxPacketSize.toWord32
      = c
    obtain rfl : c.id = id := by
      rw [← hcon]
      rfl
    unfold withRegistry connection?
    rw [Registry.removeConnection_of_some (Table.get?_insert_self _ _ _)]
    exact Table.get?_erase_self _ _

/-- **A stream that is accepted is watched,** or it is refused and nobody knows it. -/
theorem InHand.accept (h : InHand accepted b) (hid : id ∉ accepted) (stream : Net.Stream) :
    InHand (id :: accepted) (b.accept id stream).2 := by
  have hroll := h.roll.accept hid stream
  have hidle := h.idle.accept id stream
  have hopen : ∀ ⦃other⦄, (b.accept id stream).2.Open other → other = id ∨ b.Open other := by
    rintro other ⟨c, hc, ho⟩
    exact (h.roll.connection?_accept hid hc).imp And.left fun hc => ⟨c, hc, ho⟩
  have hzero : b.attention id = 0 := Decidable.byContradiction fun hn => hid (h.known hn)
  obtain ⟨ht, hp, hm | ⟨hm, hgone⟩⟩ := b.accept_cases id stream
  · have hunarmed : ¬ b.Armed id := by
      intro ha
      unfold attention at hzero
      rw [if_pos ha] at hzero
      omega
    exact h.granted hzero (grants_watch hunarmed ht hp hm) hroll hidle hopen
  · have hsame : ∀ other, (b.accept id stream).2.attention other = b.attention other :=
      fun other => attention_congr ht (by rw [hm])
    refine ⟨hroll, hidle, fun other w hx => h.watchful (hm ▸ hx), fun other hn => ?_,
      fun other => hsame other ▸ h.once other, fun hrun other ho hz => ?_⟩
    · exact List.mem_cons_of_mem _ (h.known (hsame other ▸ hn))
    · have hrun' : b.Running := ⟨by rw [← hrun.1, hm], hp.symm.trans hrun.2⟩
      rcases hopen ho with rfl | ho'
      · exact not_open hgone ho
      · exact h.attended hrun' ho' ((hsame other).symm.trans hz)

/-- **One turn leaves everybody in hand.** -/
theorem InHand.turn (h : InHand accepted b) {t : Turn} (hl : t.IsLawful)
    (hn : ∀ id, t.accepted? = some id → id ∉ accepted) :
    InHand (t.accepted?.toList ++ accepted) (b.turn t) := by
  have hroll := h.roll.turn hn
  have hidle := h.idle.turn h.roll t
  have hpass : b.PassesOn (b.turn t) → t.accepted? = none →
      InHand (t.accepted?.toList ++ accepted) (b.turn t) := by
    intro hp he
    rw [he] at hroll ⊢
    exact h.passesOn hp hroll hidle
  cases t with
  | contend name lock cursor =>
    exact hpass (.of_same rfl rfl rfl rfl fun _ ho => ho) rfl
  | event e =>
    cases e with
    | accept id stream => exact h.accept (hn id rfl) stream
    | change id f => exact hpass (h.roll.passesOn_modifyStream hl id) rfl
    | signal id flags => exact hpass (passesOn_signal h.watchful id flags) rfl
    | work => exact hpass h.passesOn_work rfl
    | perform t => exact hl.elim
    | tearDown id abnormal => exact hpass (h.roll.passesOn_tearDown id abnormal) rfl
    | publish m => exact hpass (.of_sameDrive (b.sameDrive_publish m) (b.keepsInlets_publish m)) rfl
    | remove name =>
      exact hpass (.of_sameDrive ⟨rfl, rfl, rfl, rfl⟩ (b.registry.keepsInlets_remove name)) rfl
    | clear =>
      exact hpass (.of_sameDrive ⟨rfl, rfl, rfl, rfl⟩ (Registry.keepsInlets_removeAll _ _)) rfl
    | sweep expiry => exact hpass (.of_same rfl rfl rfl rfl fun _ ho => ho) rfl
    | setClock now => exact hpass (.of_same rfl rfl rfl rfl fun _ ho => ho) rfl
    | halt id h' => exact hpass (.of_same rfl rfl rfl rfl fun _ ho => ho) rfl
    | stopEvents => exact hpass b.passesOn_stopEvents rfl
    | stopPool => exact hpass b.passesOn_stopPool rfl

theorem InHand.play {turns : List Turn} (settings : Settings) (clock : Timestamp)
    (hn : (acceptedIn turns).Nodup) (hl : ∀ t ∈ turns, t.IsLawful) :
    InHand (acceptedIn turns) ((Broker.new settings clock).play turns) :=
  play_induction_mem (P := fun accepted _ b => InHand accepted b) (inHand_new settings clock)
    (fun t ht h hfresh => h.turn (hl t ht) hfresh) hn

/-! ## Stopping the broker -/

/-- Whoever is ended in turn is live no more, and nobody becomes live. -/
theorem Roll.foldl_tearDown (h : Roll accepted b) (ids : List ConnectionId) :
    Roll accepted (ids.foldl (fun b id => b.tearDown id false) b) ∧
      ∀ id, (ids.foldl (fun b id => b.tearDown id false) b).connection? id ≠ none →
        id ∉ ids ∧ b.connection? id ≠ none := by
  induction ids generalizing b with
  | nil => exact ⟨h, fun id hl => ⟨List.not_mem_nil, hl⟩⟩
  | cons x ids ih =>
    obtain ⟨hroll, hlive⟩ := ih (h.trail (h.trail_tearDown x false))
    refine ⟨hroll, fun id hl => ?_⟩
    obtain ⟨hid, hl'⟩ := hlive id hl
    have hne : id ≠ x := by
      rintro rfl
      exact hl' (h.gone_tearDown id false)
    obtain ⟨c, hc⟩ := Option.ne_none_iff_exists'.mp hl'
    obtain ⟨c', hc', -⟩ := h.keepsInlets_tearDown x false hc
    exact ⟨List.not_mem_cons_of_ne_of_not_mem hne hid, Option.ne_none_iff_exists'.mpr ⟨c', hc'⟩⟩

/-- **Stopping the broker leaves nobody.** -/
theorem Roll.gone_shutDown (h : Roll accepted b) (id : ConnectionId) :
    b.shutDown.connection? id = none := by
  refine Option.eq_none_iff_forall_ne_some.mpr fun c hc => ?_
  have hclear : ∀ b₁ : Broker, b₁.KeepsInlets b₁.clear.stopPool := fun b₁ =>
    Registry.keepsInlets_removeAll _ _
  obtain ⟨c', hc', -⟩ := hclear _ hc
  have hstop : Roll accepted b.stopEvents := h.steady ⟨.refl, rfl⟩
  obtain ⟨hid, hl⟩ := (hstop.foldl_tearDown b.registry.connections.keys).2 id
    (Option.ne_none_iff_exists'.mpr ⟨c', hc'⟩)
  exact hid (Table.mem_keys.mpr (Option.isSome_iff_ne_none.mpr hl))

/-! ## Runs -/

/-- Nobody is forgotten. -/
structure Attentive (b : Broker) : Prop where
  /-- An open connection that is served next meets just one of the fates. -/
  served : ∀ ⦃c ts⦄, b.tasks = .serve c.id :: ts → b.connection? c.id = some c →
    c.stream.closed = false → ∃! f, (b.turn (.event .work)).Meets c f
  /-- While there are watches and workers, an open connection is attended to just once. -/
  attended : b.Running → ∀ ⦃id⦄, b.Open id → b.attention id = 1
  /-- Whoever stops the broker leaves nobody. -/
  stopped : ∀ id, b.shutDown.connection? id = none

theorem InHand.attentive (h : InHand accepted b) : b.Attentive where
  served c ts ht hc ho := by
    obtain ⟨hp, f, hf⟩ := h.serve ht hc ho
    have hwork : b.turn (.event .work) = ({ b with tasks := ts } : Broker).serve c.id := by
      change work 1 b = _
      unfold work
      rw [ht]
      rfl
    rw [hwork]
    exact ⟨f, hf, fun f' hf' => hf'.eq (Nat.le_trans (hp.atMost c.id) (h.once c.id)) hf⟩
  attended hrun id ho := by
    have hne := h.attended hrun ho
    have hone := h.once id
    omega
  stopped := h.roll.gone_shutDown

/-- **Nobody is forgotten in any run,** whoever holds subscriptions in it, whatever the streams do
and whatever is stopped, if no number is given to a connection twice. -/
theorem play_attentive (settings : Settings) (clock : Timestamp) {turns : List Turn}
    (hn : (acceptedIn turns).Nodup) (hl : ∀ t ∈ turns, t.IsLawful) :
    ((Broker.new settings clock).play turns).Attentive :=
  (InHand.play settings clock hn hl).attentive

/-- A client joins a destination. Somebody else holds the destination when the client sends what is
no frame. -/
def siege : List Turn :=
  [.event (.accept 1 {}), .event (.sent 1 (.connect "ada")), .event (.sent 1 (.subscribe "work")),
    .event (.signal 1 .readable), .event .work, .contend "work" (.shared 0) none,
    .event (.change 1 fun s => s.feed (utf8 "hello")), .event (.signal 1 .readable)]

theorem siege_attentive : (acceptedIn siege).Nodup ∧ (∀ t ∈ siege, t.IsLawful) ∧
    ((Broker.new {} 0).play siege).Attentive := by
  have hn : (acceptedIn siege).Nodup := by decide
  have hl : ∀ t ∈ siege, t.IsLawful := by
    simp only [siege, List.forall_mem_cons, Event.sent, Turn.IsLawful, true_and]
    exact ⟨fun s h => h, fun s h => h, fun s h => h, List.forall_mem_nil _⟩
  exact ⟨hn, hl, play_attentive {} 0 hn hl⟩

/-- After the pass the client is neither watched nor queued, and gone but for the destination, which
still lists it. -/
theorem siege_listed :
    ((Broker.new {} 0).play siege).tasks = [.serve 1] ∧
      (((Broker.new {} 0).play siege).connection? 1).map (·.isClosed) = some false ∧
      ¬ (((Broker.new {} 0).play siege).turn (.event .work)).Armed 1 ∧
      (((Broker.new {} 0).play siege).turn (.event .work)).tasks = [] ∧
      1 ∉ (((Broker.new {} 0).play siege).turn (.event .work)).registry.connections ∧
      ((((Broker.new {} 0).play siege).turn (.event .work)).registry.subscription? "work").map
        Subscription.members = some [1] := by
  decide +kernel

end MessageBroker.Broker
