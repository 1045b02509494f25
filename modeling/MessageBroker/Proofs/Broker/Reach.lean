import MessageBroker.Proofs.Broker.Contention
import MessageBroker.Proofs.Broker.Run

/-!
# States that a broker comes to

A broker is found between two events and also within one: while a connection is read from, before
each of its frames. On the way no number is given to a connection twice and no lock is refused;
deliveries that go on side by side may leave the cursor of a queue anywhere, though.

Headlines:
* **`Broker.Reached`**: the states that a broker comes to.
* **`Broker.Reached.sound`**: its tables agree in each of them.
* **`Broker.Reached.run`**, **`Broker.Reached.of_frame`**: among them are those after a run, and
  those in which a frame of a pass is handled.
-/

namespace MessageBroker.Broker

/-- A broker comes to a state in which the connections `accepted` have been taken up. -/
inductive Reached : List ConnectionId → Broker → Prop
  | start (settings : Settings) (clock : Timestamp) : Reached [] (.new settings clock)
  | event {accepted : List ConnectionId} {b : Broker} (h : Reached accepted b) (e : Event)
    (fresh : ∀ id, e.accepted? = some id → id ∉ accepted) :
    Reached (e.accepted?.toList ++ accepted) (b.apply e)
  /-- A worker has taken a task, and has not begun yet. -/
  | take {accepted : List ConnectionId} {b : Broker} {t : Task} {ts : List Task}
    (h : Reached accepted b) (waits : b.tasks = t :: ts) : Reached accepted { b with tasks := ts }
  /-- A pass of a connection has been read, and none of its frames has been handled yet. -/
  | read {accepted : List ConnectionId} {b : Broker} {c : Connection} (h : Reached accepted b)
    (live : b.connection? c.id = some c) : Reached accepted (b.reading c)
  | frame {accepted : List ConnectionId} {b : Broker} {c : Connection} (h : Reached accepted b)
    (live : b.connection? c.id = some c) (m : Message) : Reached accepted (b.handle c m).2
  | report {accepted : List ConnectionId} {b : Broker} (h : Reached accepted b) (n : Notice) :
    Reached accepted (b.report n)
  /-- Deliveries have gone on side by side, and all of them have ended. -/
  | rotate {accepted : List ConnectionId} {b : Broker} (h : Reached accepted b) (name : String)
    (cursor : Option Nat) :
    Reached accepted { b with registry := b.registry.contend name .free cursor }

variable {accepted : List ConnectionId} {b : Broker}

/-! ## Its tables agree -/

theorem subscription?_contend (r : Registry) (name : String) (lock : Lock) (cursor : Option Nat)
    (other : String) : (r.contend name lock cursor).subscription? other =
      if other = name then (r.subscription? other).map fun s => { s with lock, cursor }
      else r.subscription? other :=
  Table.get?_modify _ _ _ _

/-- Wherever a cursor is left, the members stay who they are. -/
theorem keeps_contend (r : Registry) (name : String) (cursor : Option Nat) :
    r.Keeps (r.contend name .free cursor) := by
  refine Registry.keeps_of_standing (fun _ => rfl) rfl fun hr => ⟨fun other s' hs' => ?_,
    fun other id => ?_⟩
  · rw [subscription?_contend] at hs'
    split at hs'
    · obtain ⟨s, hs, rfl⟩ := Option.map_eq_some_iff.mp hs'
      exact ⟨rfl, (hr hs).nodup⟩
    · exact hr hs'
  · unfold Registry.Lists
    rw [subscription?_contend]
    split
    · simp only [Option.map_eq_some_iff]
      constructor
      · rintro ⟨_, ⟨s, hs, rfl⟩, hid⟩
        exact ⟨s, hs, hid⟩
      · rintro ⟨s, hs, hid⟩
        exact ⟨_, ⟨s, hs, rfl⟩, hid⟩
    · exact Iff.rfl

theorem keeps_reading {c : Connection} (hc : b.connection? c.id = some c) :
    b.Keeps (b.reading c) := by
  have hc' : (b.applyHalt c.id).connection? c.id = some c := by
    unfold connection?
    rwa [registry_applyHalt]
  exact (b.keeps_applyHalt c.id).trans (keeps_putConnection hc' c.standing_readPass)

/-- **The tables agree in every state that a broker comes to.** -/
theorem Reached.sound (h : Reached accepted b) : Sound accepted b := by
  induction h with
  | start settings clock => exact sound_new settings clock
  | event h e fresh ih => exact ih.apply e fresh
  | take h waits ih => exact ih.keeps (keeps_of_registry (.refl _) rfl rfl rfl)
  | read h live ih => exact ih.keeps (keeps_reading live)
  | frame h live m ih => exact ih.keeps (keeps_handle live m)
  | report h n ih => exact ih.keeps (keeps_report _ n)
  | rotate h name cursor ih =>
    exact ih.keeps (keeps_of_registry (keeps_contend _ name cursor) rfl rfl rfl)

/-! ## What is among them -/

/-- **After every run** that gives no number twice a broker has come to such a state. -/
theorem Reached.run (h : Reached accepted b) {events : List Event}
    (hn : (acceptedBy events ++ accepted).Nodup) :
    Reached (acceptedBy events ++ accepted) (b.run events) := by
  induction events generalizing accepted b with
  | nil => exact h
  | cons e events ih =>
    rw [acceptedBy_cons, List.append_assoc] at hn ⊢
    refine ih (h.event e fun id he hid => ?_) hn
    have hn' := (List.nodup_append.mp hn).2.1
    rw [he] at hn'
    exact (List.nodup_cons.mp hn').1 hid

variable {x : Moment} {c : Connection} {m : Message}

/-- No frame is handled while a connection is ended, -/
theorem not_frame_of_tearDown {id : ConnectionId} {abnormal : Bool}
    (hx : x ∈ b.momentsOfTearDown id abnormal) : x.act ≠ .frame c m := by
  unfold momentsOfTearDown at hx
  split at hx
  · split at hx
    · cases hx
    · rw [List.mem_singleton.mp hx]
      exact nofun
  · split at hx
    · cases hx
    · rw [List.mem_singleton.mp hx]
      exact nofun

/-- nor once all the frames of a pass have been. -/
theorem not_frame_of_goingOn {c' : Connection} {pass : ReadPass}
    (hx : x ∈ b.momentsOfGoingOn c' pass) : x.act ≠ .frame c m := by
  unfold momentsOfGoingOn at hx
  split at hx
  · exact not_frame_of_tearDown hx
  · split at hx
    · exact not_frame_of_tearDown hx
    · split at hx
      · split at hx
        · cases hx
        · exact not_frame_of_tearDown hx
      · split at hx
        · cases hx
        · exact not_frame_of_tearDown hx

theorem Reached.of_frames (h : Reached accepted b) {id : ConnectionId} {ms : List Message}
    (hx : x ∈ momentsOfFrames id ms b) (ha : x.act = .frame c m) : Reached accepted x.broker := by
  induction ms generalizing b with
  | nil => cases hx
  | cons m' ms ih =>
    unfold momentsOfFrames at hx
    split at hx
    · cases hx
    · rename_i c' hc
      have hc' : b.connection? c'.id = some c' := (h.sound.registry.registered hc).1 ▸ hc
      have hnext := h.frame hc' m'
      rcases List.mem_cons.mp hx with rfl | hx
      · exact h
      · split at hx
        · rename_i he
          rw [he] at hnext
          exact ih hnext hx
        · exact absurd ha (not_frame_of_tearDown hx)
        · rename_i he
          rw [he] at hnext
          dsimp only at hx
          split at hx
          · exact absurd ha (not_frame_of_tearDown hx)
          · exact ih (hnext.report _) hx

theorem Reached.of_task (h : Reached accepted b) {t : Task} (hx : x ∈ b.momentsOfTask t)
    (ha : x.act = .frame c m) : Reached accepted x.broker := by
  cases t with
  | abort id => exact absurd ha (not_frame_of_tearDown hx)
  | serve id =>
    unfold momentsOfTask momentsOfServing at hx
    dsimp only at hx
    split at hx
    · cases hx
    · rename_i c' hc
      obtain ⟨rfl, -⟩ := h.sound.registry.registered hc
      split at hx
      · cases hx
      · rcases List.mem_append.mp hx with hx | hx
        · exact (h.read hc).of_frames hx ha
        · split at hx
          · split at hx
            · cases hx
            · exact absurd ha (not_frame_of_goingOn hx)
          · cases hx

/-- **Whenever a frame is handled,** a broker has come to such a state. -/
theorem Reached.of_frame (h : Reached accepted b) {e : Event} (hx : x ∈ b.moments e)
    (ha : x.act = .frame c m) : Reached accepted x.broker := by
  cases e with
  | work =>
    unfold moments at hx
    dsimp only at hx
    split at hx
    · cases hx
    · rename_i ht
      exact (h.take ht).of_task hx ha
  | perform t => exact h.of_task hx ha
  | tearDown id abnormal => exact absurd ha (not_frame_of_tearDown hx)
  | publish m' =>
    rw [List.mem_singleton.mp hx] at ha
    cases ha
  | sweep expiry =>
    rw [List.mem_singleton.mp hx] at ha
    cases ha
  | _ => cases hx

end MessageBroker.Broker
