import MessageBroker.Proofs.WorkerPool.Transitions

/-!
# Where the tasks of a pool are

A task that was put in the queue is in one place at any time: it waits there, a worker has it in
hand, it has ended, or it was dropped. What began to run is running or has ended.

Headline:
* **`WorkerPool.Accounted.step`**: an action leaves every task that was accepted in one place.
-/

namespace MessageBroker

namespace Table

variable {κ : Type} {α β : Type} [Key κ] [DecidableEq β] {t : Table κ α} {k : κ} {a : α}

theorem count_filterMap_insert (f : α → Option β) (t : Table κ α) (k : κ) (a : α) (b : β) :
    ((t.insert k a).values.filterMap f).count b =
      (f a).toList.count b + ((t.erase k).values.filterMap f).count b := by
  rw [((t.values_insert k a).filterMap f).count_eq, List.filterMap_cons]
  cases f a with
  | none => simp
  | some b' => simp [List.count_cons, Nat.add_comm]

theorem count_filterMap_of_get? (f : α → Option β) (h : t.get? k = some a) (b : β) :
    (t.values.filterMap f).count b =
      (f a).toList.count b + ((t.erase k).values.filterMap f).count b := by
  have := t.count_filterMap_insert f k a b
  rwa [insert_of_get? h] at this

end Table

namespace WorkerPool

/-- Tasks that workers have in hand. -/
def inHand (p : WorkerPool) : List TaskId := p.workers.values.filterMap Worker.task?

/-- Tasks that are running. -/
def underWay (p : WorkerPool) : List TaskId := p.workers.values.filterMap Worker.running?

/-- Tasks that have ended. -/
def finished (p : WorkerPool) : List TaskId := p.ended.map (·.1)

/-- The task that an action puts in the queue. -/
def taken? (p : WorkerPool) : Event → Option TaskId
  | .proceed call =>
    match p.submissions.get? call with
    | some (.sending task) => some task
    | _ => none
  | _ => none

/-- The tasks that a schedule puts in the queue, in order. -/
def accepted (p : WorkerPool) : List Event → List TaskId
  | [] => []
  | e :: es =>
    match p.step e with
    | none => []
    | some q => (p.taken? e).toList ++ q.accepted es

variable {p q : WorkerPool} {acc : List TaskId} {id : WorkerId} {w w' : Worker}

theorem accepted_concat {es : List Event} {e : Event} (h : p.run es = some q) {n : WorkerPool}
    (he : q.step e = some n) : p.accepted (es ++ [e]) = p.accepted es ++ (q.taken? e).toList := by
  induction es generalizing p with
  | nil =>
    cases h
    simp [accepted, he]
  | cons e' es ih =>
    obtain ⟨m, hm, hrun⟩ := Option.bind_eq_some_iff.mp h
    simp only [List.cons_append, accepted, hm, ih hrun, List.append_assoc]

theorem taken?_of_get? {call : CallId} {s : Submission} (h : p.submissions.get? call = some s)
    (hs : ∀ task, s ≠ .sending task) : p.taken? (.proceed call) = none := by
  unfold taken?
  dsimp only
  rw [h]
  split
  · rename_i task he
    exact absurd (Option.some.inj he) (hs task)
  · rfl

theorem taken?_of_sending {call : CallId} {task : TaskId}
    (h : p.submissions.get? call = some (.sending task)) : p.taken? (.proceed call) = some task := by
  unfold taken?
  dsimp only
  rw [h]

/-- Every task that was accepted is in one place, and what began to run is running or has ended. -/
structure Accounted (acc : List TaskId) (p : WorkerPool) : Prop where
  places (t : TaskId) : acc.count t =
    p.queue.count t + p.inHand.count t + p.finished.count t + p.dropped.count t
  started (t : TaskId) : p.started.count t = p.underWay.count t + p.finished.count t

namespace Accounted

/-- What does not touch the tasks leaves them where they are. -/
theorem congr (h : Accounted acc p) (hqueue : q.queue = p.queue) (hworkers : q.workers = p.workers)
    (hstarted : q.started = p.started) (hended : q.ended = p.ended)
    (hdropped : q.dropped = p.dropped) : Accounted acc q where
  places t := by
    unfold inHand finished
    rw [hqueue, hworkers, hended, hdropped]
    exact h.places t
  started t := by
    unfold underWay finished
    rw [hstarted, hworkers, hended]
    exact h.started t

/-- A worker that had one thing in hand has another. -/
theorem turn (h : Accounted acc p) (hw : p.workers.get? id = some w)
    (hworkers : q.workers = p.workers.insert id w')
    (hplaces : ∀ t, q.queue.count t + w'.task?.toList.count t + q.finished.count t +
        q.dropped.count t =
      p.queue.count t + w.task?.toList.count t + p.finished.count t + p.dropped.count t)
    (hstarted : ∀ t, q.started.count t + w.running?.toList.count t + p.finished.count t =
      p.started.count t + w'.running?.toList.count t + q.finished.count t) : Accounted acc q where
  places t := by
    have hold := Table.count_filterMap_of_get? Worker.task? hw t
    have hnew := p.workers.count_filterMap_insert Worker.task? id w' t
    have hbefore := h.places t
    have hsum := hplaces t
    unfold inHand at hbefore ⊢
    rw [hworkers]
    omega
  started t := by
    have hold := Table.count_filterMap_of_get? Worker.running? hw t
    have hnew := p.workers.count_filterMap_insert Worker.running? id w' t
    have hbefore := h.started t
    have hsum := hstarted t
    unfold underWay at hbefore ⊢
    rw [hworkers]
    omega

/-- A worker comes with nothing in hand. -/
theorem join (h : Accounted acc p) (hfresh : p.nextWorker ∉ p.workers) :
    Accounted acc p.startWorker where
  places t := by
    have hnew := p.workers.count_filterMap_insert Worker.task? p.nextWorker .looking t
    rw [Table.erase_of_not_mem hfresh] at hnew
    refine (h.places t).trans ?_
    unfold inHand startWorker finished
    dsimp only
    rw [hnew]
    simp [Worker.task?]
  started t := by
    have hnew := p.workers.count_filterMap_insert Worker.running? p.nextWorker .looking t
    rw [Table.erase_of_not_mem hfresh] at hnew
    refine (h.started t).trans ?_
    unfold underWay startWorker finished
    dsimp only
    rw [hnew]
    simp [Worker.running?]

/-- A worker goes with nothing in hand. -/
theorem leave (h : Accounted acc p) (hw : p.workers.get? id = some w) (ht : w.task? = none) :
    Accounted acc (p.removeWorker id) where
  places t := by
    have hold := Table.count_filterMap_of_get? Worker.task? hw t
    rw [ht, Option.toList_none, List.count_nil, Nat.zero_add] at hold
    refine (h.places t).trans ?_
    unfold inHand removeWorker finished
    dsimp only
    rw [hold]
  started t := by
    have hr : w.running? = none := by
      cases w with
      | running task => exact nomatch ht
      | _ => rfl
    have hold := Table.count_filterMap_of_get? Worker.running? hw t
    rw [hr, Option.toList_none, List.count_nil, Nat.zero_add] at hold
    refine (h.started t).trans ?_
    unfold underWay removeWorker finished
    dsimp only
    rw [hold]

theorem nothing {e : Event} (hnone : p.taken? e = none) (h : Accounted acc q) :
    Accounted (acc ++ (p.taken? e).toList) q := by
  rwa [hnone, Option.toList_none, List.append_nil]

/-- **An action leaves every task in one place.** -/
theorem step (h : Accounted acc p) (hfresh : p.nextWorker ∉ p.workers) {e : Event}
    (ht : Transition p e q) : Accounted (acc ++ (p.taken? e).toList) q := by
  cases ht with
  | submitted hnot => exact .nothing rfl (h.congr rfl rfl rfl rfl rfl)
  | admitted hs ho => exact .nothing (taken?_of_get? hs nofun) (h.congr rfl rfl rfl rfl rfl)
  | @sent call task hs =>
    rw [taken?_of_sending hs]
    refine ⟨fun t => ?_, h.started⟩
    have hplaces := h.places t
    unfold inHand finished at hplaces
    unfold putSubmission inHand finished
    simp only [List.count_append, Option.toList]
    omega
  | waited hs ho hl => exact .nothing (taken?_of_get? hs nofun) (h.congr rfl rfl rfl rfl rfl)
  | refused hs hne ho => exact .nothing (taken?_of_get? hs hne) (h.congr rfl rfl rfl rfl rfl)
  | supplied hs hl ho hr =>
    exact .nothing (taken?_of_get? hs hl.ne_sending) ((h.join hfresh).congr rfl rfl rfl rfl rfl)
  | sufficed hs hl ho hr =>
    exact .nothing (taken?_of_get? hs hl.ne_sending) (h.congr rfl rfl rfl rfl rfl)
  | stopped hnot => exact .nothing rfl (h.congr rfl rfl rfl rfl rfl)
  | joined hs hl => exact .nothing rfl (h.congr rfl rfl rfl rfl rfl)
  | drained hs => exact .nothing rfl (h.congr rfl rfl rfl rfl rfl)
  | discarded hs hq =>
    refine .nothing rfl ⟨fun t => ?_, h.started⟩
    have hplaces := h.places t
    unfold inHand finished at hplaces ⊢
    rw [hq] at hplaces
    simp only [List.count_cons, List.count_append, List.count_nil] at hplaces ⊢
    omega
  | received hw hq =>
    refine .nothing rfl (h.turn hw rfl (fun t => ?_) fun t => rfl)
    rw [hq]
    simp only [putWorker, finished, Worker.task?, Option.toList, List.count_cons, List.count_nil]
    omega
  | gaveUp hw ho =>
    refine .nothing rfl (h.turn hw rfl (fun t => ?_) fun t => rfl)
    simp only [putWorker, finished, Worker.task?, Option.toList, List.count_append, List.count_nil]
    omega
  | began hw ho =>
    refine .nothing rfl (h.turn hw rfl (fun t => rfl) fun t => ?_)
    simp only [putWorker, finished, Worker.running?, Option.toList, List.count_append, List.count_nil]
    omega
  | ended hw =>
    refine .nothing rfl (h.turn hw rfl (fun t => ?_) fun t => ?_)
    · simp only [putWorker, finished, Worker.task?, Option.toList, List.map_append, List.map_cons,
        List.map_nil, List.count_append, List.count_nil]
      omega
    · simp only [putWorker, finished, Worker.running?, Option.toList, List.map_append, List.map_cons,
        List.map_nil, List.count_append, List.count_nil]
      omega
  | turned hw ht hr hg =>
    refine .nothing rfl (h.turn hw rfl (fun t => ?_) fun t => ?_)
    · rw [ht]
      rfl
    · rw [hr]
      rfl
  | gone hw ht hq => exact .nothing rfl (h.leave hw ht)

end Accounted

end WorkerPool

end MessageBroker
