import MessageBroker.WorkerPool.Basic
import Mathlib.Data.List.Induction

/-!
# What an action does to a worker pool

Whoever acts on a pool does one of a few things to it: a submitting call moves on, a task changes
hands, a worker comes or goes. `Transition` lists them with the conditions they are done under, so
that what a schedule keeps is shown once for each of them.

Headlines:
* **`WorkerPool.Transition.of_step`**: every action is one of the transitions.
* **`WorkerPool.run_induction`**: what holds of a new pool and is kept by every action holds after
  every schedule.
* **`Table.values_insert`**, **`Table.values_of_get?`**: the values of a table, one of them apart.
-/

namespace MessageBroker

universe u v

/-! ## The values of a table -/

namespace Entries

variable {κ : Type u} {α : Type v} [Key κ]

theorem erase_eq_self {k : κ} {l : List (κ × α)} (h : ∀ e ∈ l, k < e.1) : erase k l = l :=
  List.filter_eq_self.mpr fun e he => decide_eq_true fun hk => Key.ne_of_lt (h e he) hk.symm

/-- What is put in comes on top of the rest. -/
theorem insert_perm {k : κ} {a : α} :
    ∀ {l : List (κ × α)}, Sorted l → (insert k a l).Perm ((k, a) :: erase k l)
  | [], _ => .refl _
  | (k', a') :: l, hs => by
    obtain ⟨hhd, htl⟩ := List.pairwise_cons.mp hs
    unfold insert
    split
    · rename_i hlt
      rw [erase_eq_self]
      intro e he
      rcases List.mem_cons.mp he with rfl | he
      · exact hlt
      · exact Key.trans hlt (hhd e he)
    · split
      · rename_i heq
        subst heq
        have hself : erase k ((k, a') :: l) = l := by
          unfold erase
          rw [List.filter_cons_of_neg (by simp)]
          exact erase_eq_self hhd
        rw [hself]
      · rename_i hne
        have hkeep : erase k ((k', a') :: l) = (k', a') :: erase k l :=
          List.filter_cons_of_pos (decide_eq_true fun hk => hne hk.symm)
        rw [hkeep]
        exact ((insert_perm htl).cons _).trans (.swap ..)

end Entries

namespace Table

variable {κ : Type u} {α : Type v} [Key κ] {t : Table κ α} {k : κ} {a : α}

theorem values_insert (t : Table κ α) (k : κ) (a : α) :
    (t.insert k a).values.Perm (a :: (t.erase k).values) :=
  List.Perm.map Prod.snd (Entries.insert_perm t.sorted)

theorem values_of_get? (h : t.get? k = some a) : t.values.Perm (a :: (t.erase k).values) := by
  have := t.values_insert k a
  rwa [insert_of_get? h] at this

theorem size_eq_length (t : Table κ α) : t.size = t.values.length := (List.length_map ..).symm

theorem size_insert (t : Table κ α) (k : κ) (a : α) : (t.insert k a).size = (t.erase k).size + 1 := by
  rw [size_eq_length, size_eq_length, (t.values_insert k a).length_eq, List.length_cons]

theorem size_of_get? (h : t.get? k = some a) : t.size = (t.erase k).size + 1 := by
  rw [size_eq_length, size_eq_length, (values_of_get? h).length_eq, List.length_cons]

theorem size_eq_zero : t.size = 0 ↔ t = ∅ := by
  rw [← isEmpty_iff]
  unfold size isEmpty
  rw [List.isEmpty_iff_length_eq_zero]

end Table

namespace WorkerPool

/-! ## Transitions -/

/-- The task that a worker has in hand. -/
def Worker.task? : Worker → Option TaskId
  | .received task | .holding task | .running task => some task
  | _ => none

/-- The task that a worker runs. -/
def Worker.running? : Worker → Option TaskId
  | .running task => some task
  | _ => none

/-- A worker goes because the pool is stopped. -/
def Worker.Goes : Worker → Prop
  | .leaving | .refusing => True
  | _ => False

/-- A call has its task in the queue and looks whether a worker is missing. -/
def Submission.Looks : Submission → Prop
  | .checking | .waiting => True
  | _ => False

theorem Submission.Looks.ne_sending {s : Submission} (h : s.Looks) (task : TaskId) :
    s ≠ .sending task := by
  rintro rfl
  exact h

/-- **What an action does to a pool.** -/
inductive Transition (p : WorkerPool) : Event → WorkerPool → Prop
  | submitted {call : CallId} {task : TaskId} (h : call ∉ p.submissions) :
    Transition p (.submit call task) (p.putSubmission call (.entering task))
  | admitted {call : CallId} {task : TaskId} (h : p.submissions.get? call = some (.entering task))
    (ho : p.stopped = false) : Transition p (.proceed call) (p.putSubmission call (.sending task))
  | sent {call : CallId} {task : TaskId} (h : p.submissions.get? call = some (.sending task)) :
    Transition p (.proceed call) ({ p with queue := p.queue ++ [task] }.putSubmission call .checking)
  | waited {call : CallId} (h : p.submissions.get? call = some .checking) (ho : p.stopped = false)
    (hl : p.live ≠ 0) : Transition p (.proceed call) (p.putSubmission call .waiting)
  | refused {call : CallId} {s : Submission} (h : p.submissions.get? call = some s)
    (hs : ∀ task, s ≠ .sending task) (ho : p.stopped = true) :
    Transition p (.proceed call) (p.putSubmission call (.answered (.error .stopped)))
  | supplied {call : CallId} {s : Submission} (h : p.submissions.get? call = some s) (hs : s.Looks)
    (ho : p.stopped = false) (hr : p.hasRoom = true) :
    Transition p (.proceed call) (p.startWorker.putSubmission call (.answered (.ok ())))
  | sufficed {call : CallId} {s : Submission} (h : p.submissions.get? call = some s) (hs : s.Looks)
    (ho : p.stopped = false) (hr : p.isShort = true → p.hasRoom = false) :
    Transition p (.proceed call) (p.putSubmission call (.answered (.ok ())))
  | stopped {call : CallId} {within : Option WorkerId} (h : call ∉ p.stoppings) :
    Transition p (.stop call within) { p with
      stopped := true
      stoppings := p.stoppings.insert call (if p.stopped then .returned else .joining within) }
  | joined {call : CallId} {within : Option WorkerId}
    (h : p.stoppings.get? call = some (.joining within)) (hl : p.isLeft within = true) :
    Transition p (.proceedStop call) { p with stoppings := p.stoppings.insert call .draining }
  | drained {call : CallId} (h : p.stoppings.get? call = some .draining) :
    Transition p (.proceedStop call) { p with stoppings := p.stoppings.insert call .returned }
  | discarded {call : CallId} {task : TaskId} {rest : List TaskId}
    (h : p.stoppings.get? call = some .draining) (hq : p.queue = task :: rest) :
    Transition p (.proceedStop call) { p with queue := rest, dropped := p.dropped ++ [task] }
  | received {id : WorkerId} {task : TaskId} {rest : List TaskId}
    (h : p.workers.get? id = some .receiving) (hq : p.queue = task :: rest) :
    Transition p (.work id .proceed) ({ p with queue := rest }.putWorker id (.received task))
  | gaveUp {id : WorkerId} {task : TaskId} (h : p.workers.get? id = some (.holding task))
    (ho : p.stopped = true) :
    Transition p (.work id .proceed)
      ({ p with dropped := p.dropped ++ [task] }.putWorker id .refusing)
  | began {id : WorkerId} {task : TaskId} (h : p.workers.get? id = some (.holding task))
    (ho : p.stopped = false) :
    Transition p (.work id .proceed)
      ({ p with started := p.started ++ [task] }.putWorker id (.running task))
  | ended {id : WorkerId} {task : TaskId} {how : TaskEnd}
    (h : p.workers.get? id = some (.running task)) :
    Transition p (.work id (.finish how))
      ({ p with ended := p.ended ++ [(task, how)] }.putWorker id .finished)
  /- A worker goes on with what it has in hand. -/
  | turned {id : WorkerId} {w w' : Worker} {e : WorkerEvent} (h : p.workers.get? id = some w)
    (ht : w'.task? = w.task?) (hr : w'.running? = w.running?) (hg : w'.Goes → w.Goes ∨ p.stopped = true) :
    Transition p (.work id e) (p.putWorker id w')
  /- A worker goes, with nothing in hand, and if the pool is not stopped no task waits. -/
  | gone {id : WorkerId} {w : Worker} {e : WorkerEvent} (h : p.workers.get? id = some w)
    (ht : w.task? = none) (hq : w.Goes ∨ p.queue = []) : Transition p (.work id e) (p.removeWorker id)

variable {p q : WorkerPool} {call : CallId} {id : WorkerId}

theorem Transition.of_supply {s : Submission} (h : p.submissions.get? call = some s) (hs : s.Looks) :
    Transition p (.proceed call) (p.supply call) := by
  unfold supply
  split
  · rename_i ho
    exact .refused h hs.ne_sending ho
  · rename_i ho
    have ho' : p.stopped = false := Bool.eq_false_iff.mpr ho
    split
    · rename_i hr
      rw [Bool.and_eq_true] at hr
      exact .supplied h hs ho' hr.2
    · rename_i hr
      refine .sufficed h hs ho' fun hshort => Bool.eq_false_iff.mpr fun hroom => hr ?_
      rw [hshort, hroom]
      rfl

theorem Transition.of_stepSubmission {s : Submission} (h : p.submissions.get? call = some s)
    (hq : p.stepSubmission call s = some q) : Transition p (.proceed call) q := by
  cases s with
  | entering task =>
    unfold stepSubmission at hq
    dsimp only at hq
    split at hq
    · rename_i ho
      cases hq
      exact .refused h nofun ho
    · rename_i ho
      cases hq
      exact .admitted h (Bool.eq_false_iff.mpr ho)
  | sending task =>
    cases hq
    exact .sent h
  | checking =>
    unfold stepSubmission at hq
    dsimp only at hq
    split at hq
    · rename_i hw
      simp only [Bool.and_eq_true, Bool.not_eq_true', bne_iff_ne] at hw
      cases hq
      exact .waited h hw.1.1 hw.2
    · cases hq
      exact .of_supply h trivial
  | waiting =>
    cases hq
    exact .of_supply h trivial
  | answered r => exact nomatch hq

theorem Transition.of_stepStopping {s : Stopping} (h : p.stoppings.get? call = some s)
    (hq : p.stepStopping call s = some q) : Transition p (.proceedStop call) q := by
  cases s with
  | joining within =>
    unfold stepStopping at hq
    dsimp only at hq
    split at hq
    · rename_i hl
      cases hq
      exact .joined h hl
    · exact nomatch hq
  | draining =>
    unfold stepStopping at hq
    dsimp only at hq
    split at hq
    · cases hq
      exact .drained h
    · rename_i hqueue
      cases hq
      exact .discarded h hqueue
  | returned => exact nomatch hq

theorem Transition.of_stepWorker {w : Worker} {e : WorkerEvent} (h : p.workers.get? id = some w)
    (hq : p.stepWorker id w e = some q) : Transition p (.work id e) q := by
  unfold stepWorker at hq
  split at hq
  · cases hq
    by_cases ho : p.stopped = true
    · rw [if_pos ho]
      exact .turned h rfl rfl fun _ => .inr ho
    · rw [if_neg ho]
      exact .turned h rfl rfl fun hg => hg.elim
  · split at hq
    · exact nomatch hq
    · rename_i hqueue
      cases hq
      exact .received h hqueue
  · rename_i tooLong
    split at hq
    · cases hq
      cases tooLong <;> exact .turned h rfl rfl fun hg => hg.elim
    · exact nomatch hq
  · cases hq
    exact .turned h rfl rfl fun hg => hg.elim
  · split at hq
    · rename_i ho
      cases hq
      exact .gaveUp h ho
    · rename_i ho
      cases hq
      exact .began h (Bool.eq_false_iff.mpr ho)
  · cases hq
    exact .ended h
  · cases hq
    exact .turned h rfl rfl fun hg => hg.elim
  · cases hq
    exact .turned h rfl rfl fun _ => .inl trivial
  · split at hq
    · rename_i hqueue
      cases hq
      exact .gone h rfl (.inr (List.isEmpty_iff.mp hqueue))
    · cases hq
      exact .turned h rfl rfl fun hg => hg.elim
  · cases hq
    exact .gone h rfl (.inl trivial)
  · exact nomatch hq

/-- **Every action is one of the transitions.** -/
theorem Transition.of_step {e : Event} (h : p.step e = some q) : Transition p e q := by
  cases e with
  | submit call task =>
    unfold step at h
    dsimp only at h
    split at h
    · exact nomatch h
    · rename_i hnot
      cases h
      exact .submitted hnot
  | proceed call =>
    obtain ⟨s, hs, hq⟩ := Option.bind_eq_some_iff.mp h
    exact .of_stepSubmission hs hq
  | stop call within =>
    unfold step at h
    dsimp only at h
    split at h
    · exact nomatch h
    · rename_i hnot
      cases h
      refine .stopped fun hin => hnot ?_
      rw [decide_eq_true hin]
      rfl
  | proceedStop call =>
    obtain ⟨s, hs, hq⟩ := Option.bind_eq_some_iff.mp h
    exact .of_stepStopping hs hq
  | work id event =>
    obtain ⟨w, hw, hq⟩ := Option.bind_eq_some_iff.mp h
    exact .of_stepWorker hw hq

/-! ## Schedules -/

theorem run_concat {es : List Event} {e : Event} :
    p.run (es ++ [e]) = some q ↔ ∃ m, p.run es = some m ∧ m.step e = some q := by
  rw [run_append, Option.bind_eq_some_iff]
  simp [run]

/-- **What is kept by every action holds after every schedule.** -/
theorem run_induction {P : List Event → WorkerPool → Prop} {es : List Event} (h : p.run es = some q)
    (hnew : P [] p) (hstep : ∀ {es e m n}, p.run es = some m → P es m → Transition m e n →
      m.step e = some n → P (es ++ [e]) n) : P es q := by
  induction es using List.reverseRecOn generalizing q with
  | nil =>
    cases h
    exact hnew
  | append_singleton es e ih =>
    obtain ⟨m, hm, he⟩ := run_concat.mp h
    exact hstep hm (ih hm) (.of_step he) he

end WorkerPool

end MessageBroker
