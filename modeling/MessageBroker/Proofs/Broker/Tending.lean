import MessageBroker.Proofs.Broker.Digest

/-!
# What happens between a broker and a client

What a client sends arrives in pieces, between which time passes and the connection is read. While
the connection is live it is served, and what will be left of it, once all that is there and will
come has been read, stays the same. Passes enough leave nothing to do.

Headlines:
* **`Broker.exists_event`**: whatever happens is an event of a run.
* **`Broker.Tended`**: what holds of a broker while things happen; **`Broker.Tended.happen`**,
  **`Broker.Tended.follow`**: it goes on to hold.
* **`Broker.Tended.exists_done`**: after passes enough no task waits and nothing is left to read.
-/

namespace MessageBroker.Broker

/-- What happens between a broker and a client. -/
inductive Happening
  | arrival (a : Net.Arrival)
  /-- The client closes: nothing more will arrive. -/
  | hangUp
  /-- Time passes. -/
  | tick (now : Timestamp)
  /-- A task that reads the connection is taken off the queue, if one waits, and the connection is
  read. -/
  | pass
deriving DecidableEq, Repr

/-- Something arrives. -/
def Happening.isArrival : Happening → Bool
  | .arrival _ => true
  | _ => false

/-- What arrives. -/
def arrivals : List Happening → List Net.Arrival
  | [] => []
  | .arrival a :: hs => a :: arrivals hs
  | _ :: hs => arrivals hs

/-- The broker once a task that reads a connection has been taken off the queue, if one waits. -/
def dequeue (b : Broker) (id : ConnectionId) : Broker :=
  { b with tasks := b.tasks.erase (.serve id) }

/-- The broker once something has happened to a connection. -/
def happen (id : ConnectionId) (b : Broker) : Happening → Broker
  | .arrival a => b.modifyStream id fun s => s.arrive a
  | .hangUp => b.modifyStream id fun s => { s with ended := true }
  | .tick now => { b with clock := now }
  | .pass => (b.dequeue id).serve id

/-- The broker once all this has happened to a connection. -/
def follow (id : ConnectionId) (b : Broker) (hs : List Happening) : Broker := hs.foldl (happen id) b

/-- Whatever happens is an event of a run: the first task is performed, or, where no task waits to
read the connection, one that does not wait. -/
theorem exists_event (id : ConnectionId) (b : Broker) (x : Happening)
    (h : x = .pass → b.tasks.head? = some (.serve id) ∨ .serve id ∉ b.tasks) :
    ∃ e, b.happen id x = b.apply e := by
  cases x with
  | arrival a => exact ⟨.change id fun s => s.arrive a, rfl⟩
  | hangUp => exact ⟨.change id fun s => { s with ended := true }, rfl⟩
  | tick now => exact ⟨.setClock now, rfl⟩
  | pass =>
    rcases h rfl with hfirst | hno
    · obtain ⟨tasks, htasks⟩ := List.head?_eq_some_iff.mp hfirst
      refine ⟨.work, ?_⟩
      unfold happen dequeue apply
      rw [work, htasks, List.erase_cons_head]
      rfl
    · refine ⟨.perform (.serve id), ?_⟩
      unfold happen dequeue
      rw [List.erase_of_not_mem hno]
      rfl

variable {accepted : List ConnectionId} {b b' : Broker} {c c' : Connection} {id : ConnectionId}
  {hs rest : List Happening} {ended : Bool} {pending : Table Net.StreamId Unit} {x : Happening}

/-- What holds of a broker when the happenings `rest` are still to come and the input ends or not:
the connection is served, if it is live, and nothing arrives behind the end of the input. -/
structure Tended (accepted : List ConnectionId) (id : ConnectionId) (ended : Bool)
    (pending : Table Net.StreamId Unit) (rest : List Happening) (b : Broker) : Prop where
  roll : Roll accepted b
  idle : b.Idle
  ready : ∀ ⦃c⦄, b.connection? id = some c → b.Ready c
  unwatched : b.connection? id = none → b.multiplexer.forget id = b.multiplexer
  pending : ∀ ⦃c⦄, b.connection? id = some c → b.multiplexer.pending = pending
  attended : ∀ ⦃c⦄, b.connection? id = some c → b.Attended id ∨ .pass ∈ rest
  order : rest.Pairwise fun x y => x = .hangUp → y.isArrival = false
  ending : .hangUp ∈ rest → ended = true
  stops : ∀ ⦃c⦄, b.connection? id = some c → c.stream.ended = true →
    arrivals rest = [] ∧ ended = true
  ends : ended = true → ∀ ⦃c⦄, b.connection? id = some c →
    c.stream.ended = true ∨ .hangUp ∈ rest

/-- What will be left of a connection that is still live is what would have been left of it
before. -/
def Leaves (id : ConnectionId) (later : List Net.Arrival) (b : Broker) (later' : List Net.Arrival)
    (b' : Broker) : Prop :=
  ∀ ⦃c'⦄, b'.connection? id = some c' →
    ∃ c, b.connection? id = some c ∧ c'.residue later' = c.residue later

theorem Leaves.refl (id : ConnectionId) (later : List Net.Arrival) (b : Broker) :
    Leaves id later b later b := fun c hc => ⟨c, hc, rfl⟩

theorem Leaves.trans {later later' later'' : List Net.Arrival} {b'' : Broker}
    (h : Leaves id later b later' b') (h' : Leaves id later' b' later'' b'') :
    Leaves id later b later'' b'' := by
  intro c'' hc''
  obtain ⟨c', hc', he'⟩ := h' hc''
  obtain ⟨c, hc, he⟩ := h hc'
  exact ⟨c, hc, he'.trans he⟩

/-! ## What arrives -/

theorem arrivals_append (hs hs' : List Happening) :
    arrivals (hs ++ hs') = arrivals hs ++ arrivals hs' := by
  induction hs with
  | nil => rfl
  | cons x hs ih =>
    cases x with
    | arrival a => exact congrArg (a :: ·) ih
    | hangUp => exact ih
    | tick now => exact ih
    | pass => exact ih

theorem arrivals_eq_nil (h : ∀ y ∈ hs, y.isArrival = false) : arrivals hs = [] := by
  induction hs with
  | nil => rfl
  | cons y hs ih =>
    obtain ⟨hy, hhs⟩ := List.forall_mem_cons.mp h
    cases y with
    | arrival a => cases hy
    | hangUp => exact ih hhs
    | tick now => exact ih hhs
    | pass => exact ih hhs

/-! ## Where a stream changes -/

theorem connection?_modifyStream (h : Roll accepted b) (id : ConnectionId)
    (f : Net.Stream → Net.Stream) :
    (b.modifyStream id f).connection? id =
      (b.connection? id).map fun c => { c with stream := f c.stream } := by
  unfold modifyStream
  cases hc : b.connection? id with
  | none => exact hc
  | some c =>
    obtain ⟨rfl, -⟩ := h.registered hc
    exact Table.get?_insert_self _ _ _

/-- Somebody else does something to the stream, and the bytes to be read are the same then, as far
as they were still to come before. -/
structure Feeds (x : Happening) (rest : List Happening) (f : Net.Stream → Net.Stream) : Prop where
  keeps : ∀ s, f s = { s with incoming := (f s).incoming, ended := (f s).ended }
  yield : ∀ s, Net.yieldOf ((f s).incoming ++ arrivals rest) =
    Net.yieldOf (s.incoming ++ arrivals (x :: rest))

theorem feeds_arrival (a : Net.Arrival) (rest : List Happening) :
    Feeds (.arrival a) rest fun s => s.arrive a := by
  refine ⟨fun s => ?_, fun s => Net.yieldOf_arrive s a _⟩
  cases a <;> rfl

theorem feeds_hangUp (rest : List Happening) :
    Feeds .hangUp rest fun s => { s with ended := true } := ⟨fun _ => rfl, fun _ => rfl⟩

theorem Tended.leaves_modifyStream (h : Tended accepted id ended pending (x :: rest) b)
    {f : Net.Stream → Net.Stream} (hf : Feeds x rest f) :
    Leaves id (arrivals (x :: rest)) b (arrivals rest) (b.modifyStream id f) := by
  intro c' hc'
  rw [connection?_modifyStream h.roll id f, Option.map_eq_some_iff] at hc'
  obtain ⟨c, hc, rfl⟩ := hc'
  refine ⟨c, hc, ?_⟩
  unfold Connection.residue
  dsimp only
  rw [hf.yield]

/-- Where something arrives or the client closes. -/
theorem Tended.modifyStream (h : Tended accepted id ended pending (x :: rest) b)
    (hx : x ≠ .pass) {f : Net.Stream → Net.Stream} (hf : Feeds x rest f)
    (hstops : ∀ ⦃c⦄, b.connection? id = some c → (f c.stream).ended = true →
      arrivals rest = [] ∧ ended = true)
    (hends : ended = true → ∀ ⦃c⦄, b.connection? id = some c →
      (f c.stream).ended = true ∨ .hangUp ∈ rest) :
    Tended accepted id ended pending rest (b.modifyStream id f) := by
  have hget := connection?_modifyStream h.roll id f
  have hdrive := b.sameDrive_modifyStream id f
  have hlive : ∀ ⦃c'⦄, (b.modifyStream id f).connection? id = some c' →
      ∃ c, b.connection? id = some c ∧ c' = { c with stream := f c.stream } := by
    intro c' hc'
    rw [hget, Option.map_eq_some_iff] at hc'
    obtain ⟨c, hc, rfl⟩ := hc'
    exact ⟨c, hc, rfl⟩
  refine {
    roll := h.roll.steady (h.roll.steady_modifyStream id f)
    idle := h.idle.modifyStream id f
    ready := fun c' hc' => ?ready
    unwatched := fun hc' => ?unwatched
    pending := fun c' hc' => ?pending
    attended := fun c' hc' => ?attended
    order := h.order.of_cons
    ending := fun hin => h.ending (List.mem_cons_of_mem _ hin)
    stops := fun c' hc' he => ?stops
    ends := fun he c' hc' => ?ends }
  case ready =>
    obtain ⟨c, hc, rfl⟩ := hlive hc'
    have hr := h.ready hc
    obtain ⟨rfl, -⟩ := h.roll.registered hc
    refine hr.of_sameDrive hdrive hc' rfl ?_ ?_
    · dsimp only
      rw [hf.keeps c.stream]
    · dsimp only
      rw [hf.keeps c.stream]
  case unwatched =>
    rw [hget, Option.map_eq_none_iff] at hc'
    rw [hdrive.multiplexer]
    exact h.unwatched hc'
  case pending =>
    obtain ⟨c, hc, rfl⟩ := hlive hc'
    rw [hdrive.multiplexer]
    exact h.pending hc
  case attended =>
    obtain ⟨c, hc, rfl⟩ := hlive hc'
    unfold Attended
    rw [hdrive.multiplexer, hdrive.tasks]
    exact (h.attended hc).imp_right (List.mem_of_ne_of_mem hx.symm)
  case stops =>
    obtain ⟨c, hc, rfl⟩ := hlive hc'
    exact hstops hc he
  case ends =>
    obtain ⟨c, hc, rfl⟩ := hlive hc'
    exact hends he hc

theorem Tended.arrival {a : Net.Arrival}
    (h : Tended accepted id ended pending (.arrival a :: rest) b) :
    Tended accepted id ended pending rest (b.happen id (.arrival a)) := by
  have hended : ∀ s : Net.Stream, (s.arrive a).ended = s.ended := by
    intro s
    cases a <;> rfl
  refine h.modifyStream nofun (feeds_arrival a rest) ?_ ?_
  · intro c hc he
    rw [hended] at he
    cases (h.stops hc he).1
  · intro he c hc
    rw [hended]
    exact (h.ends he hc).imp_right (List.mem_of_ne_of_mem (by simp))

theorem Tended.hangUp (h : Tended accepted id ended pending (.hangUp :: rest) b) :
    Tended accepted id ended pending rest (b.happen id .hangUp) := by
  refine h.modifyStream nofun (feeds_hangUp rest) ?_ ?_
  · intro c hc he
    refine ⟨arrivals_eq_nil fun y hy => ?_, h.ending List.mem_cons_self⟩
    exact (List.pairwise_cons.mp h.order).1 y hy rfl
  · exact fun _ c hc => .inl rfl

/-! ## Where time passes -/

theorem Tended.tick {now : Timestamp}
    (h : Tended accepted id ended pending (.tick now :: rest) b) :
    Tended accepted id ended pending rest (b.happen id (.tick now)) := by
  have hdrive : b.SameDrive (b.happen id (.tick now)) := ⟨rfl, rfl, rfl, rfl⟩
  refine {
    roll := h.roll.steady ⟨.refl, rfl⟩
    idle := h.idle
    ready := fun c hc => ?_
    unwatched := h.unwatched
    pending := h.pending
    attended := fun c hc =>
      (h.attended hc).imp_right (List.mem_of_ne_of_mem (by simp))
    order := h.order.of_cons
    ending := fun hin => h.ending (List.mem_cons_of_mem _ hin)
    stops := h.stops
    ends := fun he c hc =>
      (h.ends he hc).imp_right (List.mem_of_ne_of_mem (by simp)) }
  obtain ⟨rfl, -⟩ := h.roll.registered (show b.connection? id = some c from hc)
  exact (h.ready hc).of_sameDrive hdrive hc rfl rfl rfl

/-! ## Where the connection is read -/

theorem prospect_of_inlet (h : c'.inlet = c.inlet) (later : List Net.Arrival) (ended : Bool) :
    c'.prospect later ended = c.prospect later ended := by
  unfold Connection.prospect
  rw [show c'.decoder = c.decoder from congrArg Inlet.decoder h,
    show c'.buffer = c.buffer from congrArg Inlet.buffer h,
    show c'.stream.incoming = c.stream.incoming from congrArg Inlet.incoming h]

theorem residue_of_inlet (h : c'.inlet = c.inlet) (later : List Net.Arrival) :
    c'.residue later = c.residue later := by
  unfold Connection.residue
  rw [show c'.decoder = c.decoder from congrArg Inlet.decoder h,
    show c'.buffer = c.buffer from congrArg Inlet.buffer h,
    show c'.stream.incoming = c.stream.incoming from congrArg Inlet.incoming h]

theorem Resumes.ended_eq (h : b.Resumes c b' c') : c'.stream.ended = c.stream.ended := by
  obtain ⟨incoming, decoder, buffer, hread⟩ :=
    c.exists_readOn_eq (Connection.passLimit c.decoder) 0
  refine (congrArg Inlet.ended h.inlet).trans ?_
  unfold Connection.readPass
  rw [hread]
  rfl

theorem serve_of_gone (hc : b.connection? id = none) : b.serve id = b := by
  unfold serve
  rw [hc]

theorem Tended.leaves_serve (h : Tended accepted id ended pending rest b)
    (later : List Net.Arrival) : Leaves id later b later (b.serve id) := by
  cases hc : b.connection? id with
  | none =>
    rw [serve_of_gone hc]
    exact .refl ..
  | some c =>
    intro c' hc'
    obtain ⟨rfl, -⟩ := h.roll.registered hc
    have hresumes := h.roll.resumes_serve (h.ready hc) hc'
    exact ⟨c, hc, (residue_of_inlet hresumes.inlet _).trans
      (Connection.residue_readPass (h.idle hc) hresumes.unfinished _)⟩

theorem Tended.serve (h : Tended accepted id ended pending (.pass :: rest) b) :
    Tended accepted id ended pending rest (b.serve id) := by
  have hends : .hangUp ∈ Happening.pass :: rest → .hangUp ∈ rest :=
    List.mem_of_ne_of_mem (by simp)
  cases hc : b.connection? id with
  | none =>
    rw [serve_of_gone hc]
    refine { h with
      attended := fun c hc' => ?_
      order := h.order.of_cons
      ending := fun hin => h.ending (List.mem_cons_of_mem _ hin)
      ends := fun he c hc' => (h.ends he hc').imp_right hends }
    rw [hc] at hc'
    cases hc'
  | some c =>
    obtain ⟨rfl, -⟩ := h.roll.registered hc
    have hr := h.ready hc
    have hresumes : ∀ ⦃c'⦄, (b.serve c.id).connection? c.id = some c' →
        b.Resumes c (b.serve c.id) c' := fun c' => h.roll.resumes_serve hr
    exact {
      roll := h.roll.trail (h.roll.trail_serve c.id)
      idle := h.idle.serve h.roll c.id
      ready := fun c' hc' => (hresumes hc').ready
      unwatched := fun hgone => (h.roll.departs_serve hr hgone).unwatched
      pending := fun c' hc' => (hresumes hc').pending.trans (h.pending hc)
      attended := fun c' hc' => .inl (hresumes hc').attended
      order := h.order.of_cons
      ending := fun hin => h.ending (List.mem_cons_of_mem _ hin)
      stops := fun c' hc' he => h.stops hc ((hresumes hc').ended_eq.symm.trans he)
      ends := fun he c' hc' => (h.ends he hc).imp (hresumes hc').ended_eq.trans hends }

theorem Tended.dequeue (h : Tended accepted id ended pending (.pass :: rest) b) :
    Tended accepted id ended pending (.pass :: rest) (b.dequeue id) :=
  { roll := h.roll.steady ⟨.refl, rfl⟩
    idle := h.idle
    ready := fun _ hc => { h.ready hc with }
    unwatched := h.unwatched
    pending := h.pending
    attended := fun _ _ => .inr List.mem_cons_self
    order := h.order
    ending := h.ending
    stops := h.stops
    ends := h.ends }

/-! ## All that happens -/

/-- **Whatever happens next, the broker is tended as before.** -/
theorem Tended.happen (h : Tended accepted id ended pending (x :: rest) b) :
    Tended accepted id ended pending rest (b.happen id x) ∧
      Leaves id (arrivals (x :: rest)) b (arrivals rest) (b.happen id x) := by
  cases x with
  | arrival a => exact ⟨h.arrival, h.leaves_modifyStream (feeds_arrival a rest)⟩
  | hangUp => exact ⟨h.hangUp, h.leaves_modifyStream (feeds_hangUp rest)⟩
  | tick now => exact ⟨h.tick, .refl ..⟩
  | pass => exact ⟨h.dequeue.serve, h.dequeue.leaves_serve (arrivals rest)⟩

/-- **So it is whatever happens.** -/
theorem Tended.follow (h : Tended accepted id ended pending hs b) :
    Tended accepted id ended pending [] (b.follow id hs) ∧
      Leaves id (arrivals hs) b [] (b.follow id hs) := by
  induction hs generalizing b with
  | nil => exact ⟨h, .refl ..⟩
  | cons x hs ih =>
    obtain ⟨hafter, hx⟩ := h.happen
    obtain ⟨hlast, hrest⟩ := ih hafter
    exact ⟨hlast, hx.trans hrest⟩

/-! ## Passes enough -/

/-- Nothing is left to do for a connection: no task waits to read it, and if it is live, neither
bytes nor the end of the input are left to read. -/
structure Done (b : Broker) (id : ConnectionId) : Prop where
  tasks : .serve id ∉ b.tasks
  read : ∀ ⦃c⦄, b.connection? id = some c → c.stream.incoming = [] ∧ c.stream.ended = false

/-- How much is left to do. The end of the input counts as a piece, and each piece counts twice,
since the pass that reads it may leave a task. -/
def backlog (b : Broker) (id : ConnectionId) : Nat :=
  b.tasks.count (.serve id) +
    match b.connection? id with
    | none => 0
    | some c => 2 * (c.stream.load + c.stream.ended.toNat)

theorem backlog_of_gone (hc : b.connection? id = none) :
    b.backlog id = b.tasks.count (.serve id) := by
  unfold backlog
  rw [hc]
  rfl

theorem backlog_of_live (hc : b.connection? id = some c) :
    b.backlog id = b.tasks.count (.serve id) + 2 * (c.stream.load + c.stream.ended.toNat) := by
  unfold backlog
  rw [hc]

/-- A task that is taken off the queue is done. -/
theorem backlog_dequeue (b : Broker) (id : ConnectionId) :
    (b.dequeue id).backlog id ≤ b.backlog id ∧
      (.serve id ∈ b.tasks → (b.dequeue id).backlog id < b.backlog id) := by
  have hcount : (b.dequeue id).tasks.count (.serve id) = b.tasks.count (.serve id) - 1 :=
    List.count_erase_self
  have hget : (b.dequeue id).connection? id = b.connection? id := rfl
  unfold backlog
  rw [hcount, hget]
  refine ⟨by omega, fun hin => ?_⟩
  have := List.count_pos_iff.mpr hin
  omega

/-- To serve a connection does what there is to do, or leaves all as it was. -/
theorem Tended.backlog_serve (h : Tended accepted id ended pending (.pass :: rest) b)
    (hc : b.connection? id = some c) :
    (b.serve id).backlog id ≤ b.backlog id ∧
      (c.stream.incoming ≠ [] ∨ c.stream.ended = true →
        (b.serve id).backlog id < b.backlog id) := by
  obtain ⟨rfl, -⟩ := h.roll.registered hc
  have hr := h.ready hc
  have hread : c.stream.incoming ≠ [] → c.readPass.2.stream.load < c.stream.load :=
    Connection.load_readPass_lt
  rw [backlog_of_live hc]
  cases hc' : (b.serve c.id).connection? c.id with
  | none =>
    have htasks : (b.serve c.id).tasks = b.tasks := (h.roll.departs_serve hr hc').drive.tasks
    rw [backlog_of_gone hc', htasks]
    refine ⟨Nat.le_add_right _ _, fun hleft => ?_⟩
    rcases hleft with hin | he
    · have := hread hin
      omega
    · rw [he, Bool.toNat_true]
      omega
  | some c' =>
    have hresumes := h.roll.resumes_serve hr hc'
    have hload : c'.stream.load = c.readPass.2.stream.load :=
      congrArg (Net.Stream.loadOf ∘ Inlet.incoming) hresumes.inlet
    rw [backlog_of_live hc', hresumes.tasks, List.count_append, hload, hresumes.ended_eq]
    by_cases hin : c.stream.incoming = []
    · -- Nothing was there to read, nor had the input ended.
      have hopen : c.stream.ended = false := by
        rw [← Bool.not_eq_true]
        intro he
        exact Bool.false_ne_true
          (hresumes.unfinished.symm.trans (Connection.isFinal_readPass hin he))
      have hle : c.readPass.2.stream.load ≤ c.stream.load := (Connection.load_readOn _ 0 c).1
      rw [Connection.more_readPass hin, if_neg Bool.false_ne_true, List.count_nil]
      refine ⟨by omega, fun hleft => ?_⟩
      rw [hopen] at hleft
      exact absurd hleft (by simp [hin])
    · have hlt := hread hin
      have hcount :
          (if c.readPass.1.more then [Task.serve c.id] else []).count (.serve c.id) ≤ 1 := by
        split <;> simp
      exact ⟨by omega, fun _ => by omega⟩

/-- **Where something is left to do, a pass leaves less.** -/
theorem Tended.backlog_pass (h : Tended accepted id ended pending (.pass :: rest) b)
    (hd : ¬ b.Done id) : (b.happen id .pass).backlog id < b.backlog id := by
  obtain ⟨hle, hlt⟩ := b.backlog_dequeue id
  change ((b.dequeue id).serve id).backlog id < _
  cases hc : b.connection? id with
  | none =>
    have hin : .serve id ∈ b.tasks := by
      by_contra hno
      refine hd ⟨hno, fun c hc' => ?_⟩
      rw [hc] at hc'
      cases hc'
    rw [serve_of_gone (show (b.dequeue id).connection? id = none from hc)]
    exact hlt hin
  | some c =>
    obtain ⟨hserve, hread⟩ := h.dequeue.backlog_serve hc
    by_cases hleft : c.stream.incoming ≠ [] ∨ c.stream.ended = true
    · exact Nat.lt_of_lt_of_le (hread hleft) hle
    · have hin : .serve id ∈ b.tasks := by
        by_contra hno
        refine hd ⟨hno, fun c' hc' => ?_⟩
        rw [hc] at hc'
        cases hc'
        simpa using hleft
      exact Nat.lt_of_le_of_lt hserve (hlt hin)

/-- Where nothing more happens, the connection may be read once more. -/
theorem Tended.again (h : Tended accepted id ended pending [] b) :
    Tended accepted id ended pending [.pass] b :=
  { h with
    attended := fun _ _ => .inr List.mem_cons_self
    order := List.pairwise_singleton _ _
    ending := fun hin => absurd hin (by simp)
    ends := fun he _ hc => (h.ends he hc).imp_right fun hin => absurd hin List.not_mem_nil }

/-- **After passes enough nothing is left to do.** -/
theorem Tended.exists_done (h : Tended accepted id ended pending [] b) :
    ∃ n, (b.follow id (List.replicate n .pass)).Done id := by
  induction hk : b.backlog id using Nat.strongRecOn generalizing b with
  | ind k ih =>
    by_cases hd : b.Done id
    · exact ⟨0, hd⟩
    · have hless := h.again.backlog_pass hd
      rw [hk] at hless
      obtain ⟨n, hn⟩ := ih _ hless h.again.happen.1 rfl
      exact ⟨n + 1, hn⟩

end MessageBroker.Broker
