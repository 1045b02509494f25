import MessageBroker.Proofs.WorkerPool.Accounting
import Mathlib.Data.List.Nodup

/-!
# What a worker pool keeps to

However those who submit tasks, the workers and those who stop the pool act side by side: there are
never more workers than allowed, no task is lost or runs twice, no task waits without a worker while
the pool is open, and once it has been stopped nothing runs any more.

Headlines:
* **`WorkerPool.Sound.step`**: the limit is kept, and what waits in an open pool has a worker or a
  call that looks after it.
* **`WorkerPool.Quiet.run`**: a stopped pool without workers stays so and runs nothing.
* **`WorkerPool.run_safe`**: all of it, after every schedule.
-/

namespace MessageBroker.WorkerPool

variable {p q : WorkerPool} {e : Event} {es : List Event} {call : CallId} {id : WorkerId} {w : Worker}

/-! ## Who comes and who goes -/

/-- What an action does to the workers. -/
inductive Staff (p q : WorkerPool) : Prop
  | same (hw : q.workers = p.workers) (hn : q.nextWorker = p.nextWorker)
  | turned {id : WorkerId} {w w' : Worker} (h : p.workers.get? id = some w)
    (hw : q.workers = p.workers.insert id w') (hn : q.nextWorker = p.nextWorker)
    (hg : w'.Goes → w.Goes ∨ p.stopped = true)
  | came (ho : p.stopped = false) (hr : p.hasRoom = true)
    (hw : q.workers = p.workers.insert p.nextWorker .looking) (hn : q.nextWorker = p.nextWorker + 1)
  | went {id : WorkerId} {w : Worker} (h : p.workers.get? id = some w)
    (hw : q.workers = p.workers.erase id) (hn : q.nextWorker = p.nextWorker)

theorem Transition.staff (h : Transition p e q) : Staff p q := by
  cases h with
  | supplied hs hl ho hr => exact .came ho hr rfl rfl
  | received hw hq => exact .turned hw rfl rfl fun hg => hg.elim
  | gaveUp hw ho => exact .turned hw rfl rfl fun _ => .inr ho
  | began hw ho => exact .turned hw rfl rfl fun hg => hg.elim
  | ended hw => exact .turned hw rfl rfl fun hg => hg.elim
  | turned hw ht hr hg => exact .turned hw rfl rfl hg
  | gone hw ht hq => exact .went hw rfl rfl
  | _ => exact .same rfl rfl

theorem live_ne_zero (h : p.workers.get? id = some w) : p.live ≠ 0 := by
  unfold live
  rw [Table.size_of_get? h]
  exact Nat.succ_ne_zero _

theorem Transition.limit_eq (h : Transition p e q) : q.limit = p.limit := by
  cases h <;> rfl

theorem Transition.stopped_of_stopped (h : Transition p e q) (hs : p.stopped = true) :
    q.stopped = true := by
  cases h with
  | stopped hnot => rfl
  | _ => exact hs

/-! ## What holds at any time -/

/-- What holds of a pool at any time. -/
structure Sound (p : WorkerPool) : Prop where
  fresh : ∀ id ∈ p.workers, id < p.nextWorker
  room : p.limit ≠ 0 → p.live ≤ p.limit
  /-- Workers go, and tasks are dropped, once the pool is stopped. -/
  ofGoes : ∀ id w, p.workers.get? id = some w → w.Goes → p.stopped = true
  ofDropped : p.dropped ≠ [] → p.stopped = true
  ofStoppings : ∀ call ∈ p.stoppings, p.stopped = true
  /-- What waits in an open pool without workers has a call that looks after it. -/
  staffed : p.stopped = false → p.queue ≠ [] → p.live = 0 →
    ∃ call s, p.submissions.get? call = some s ∧ s.Looks

theorem sound_new (limit : Nat) : Sound { limit } where
  fresh _ hid := absurd hid (by simp [Table.mem_iff])
  room _ := Nat.zero_le _
  ofGoes _ _ hw := nomatch hw
  ofDropped h := absurd rfl h
  ofStoppings _ hc := absurd hc (by simp [Table.mem_iff])
  staffed _ h := absurd rfl h

namespace Sound

theorem nextWorker_not_mem (h : p.Sound) : p.nextWorker ∉ p.workers := fun hin =>
  Nat.lt_irrefl _ (h.fresh _ hin)

theorem fresh_step (h : p.Sound) (ht : Transition p e q) : ∀ id ∈ q.workers, id < q.nextWorker := by
  intro id hid
  rw [Table.mem_iff] at hid
  cases ht.staff with
  | same hw hn =>
    rw [hw] at hid
    exact hn ▸ h.fresh id hid
  | @turned other w w' hother hw hn hg =>
    rw [hw, Table.get?_insert] at hid
    rw [hn]
    split at hid
    · rename_i he
      exact h.fresh id (he ▸ Table.mem_of_get? hother)
    · exact h.fresh id hid
  | came ho hr hw hn =>
    rw [hw, Table.get?_insert] at hid
    rw [hn]
    split at hid
    · rename_i he
      exact he ▸ Nat.lt_succ_self _
    · exact Nat.lt_succ_of_lt (h.fresh id hid)
  | went hother hw hn =>
    rw [hw, Table.get?_erase] at hid
    rw [hn]
    split at hid
    · exact nomatch hid
    · exact h.fresh id hid

/-- **There are never more workers than allowed.** -/
theorem room_step (h : p.Sound) (ht : Transition p e q) (hl : q.limit ≠ 0) : q.live ≤ q.limit := by
  rw [ht.limit_eq] at hl ⊢
  have hroom := h.room hl
  unfold live at hroom ⊢
  cases ht.staff with
  | same hw hn => rwa [hw]
  | turned hother hw hn hg =>
    rwa [hw, Table.size_insert, ← Table.size_of_get? hother]
  | came ho hr hw hn =>
    rw [hw, Table.size_insert, Table.erase_of_not_mem h.nextWorker_not_mem]
    unfold hasRoom live at hr
    simp only [Bool.or_eq_true, beq_iff_eq, decide_eq_true_eq] at hr
    exact hr.resolve_left hl
  | went hother hw hn =>
    rw [Table.size_of_get? hother] at hroom
    rw [hw]
    exact Nat.le_of_succ_le hroom

theorem ofGoes_step (h : p.Sound) (ht : Transition p e q) {id : WorkerId} {w : Worker}
    (hw : q.workers.get? id = some w) (hg : w.Goes) : q.stopped = true := by
  refine ht.stopped_of_stopped ?_
  cases ht.staff with
  | same hworkers hn => exact h.ofGoes id w (hworkers ▸ hw) hg
  | @turned other w₀ w' hother hworkers hn hgoes =>
    rw [hworkers, Table.get?_insert] at hw
    split at hw
    · cases hw
      exact (hgoes hg).elim (h.ofGoes other w₀ hother) fun hs => hs
    · exact h.ofGoes id w hw hg
  | came ho hr hworkers hn =>
    rw [hworkers, Table.get?_insert] at hw
    split at hw
    · cases hw
      exact hg.elim
    · exact h.ofGoes id w hw hg
  | went hother hworkers hn =>
    rw [hworkers, Table.get?_erase] at hw
    split at hw
    · exact nomatch hw
    · exact h.ofGoes id w hw hg

theorem ofDropped_step (h : p.Sound) (ht : Transition p e q) (hd : q.dropped ≠ []) :
    q.stopped = true := by
  refine ht.stopped_of_stopped ?_
  cases ht with
  | discarded hs hq => exact h.ofStoppings _ (Table.mem_of_get? hs)
  | gaveUp hw ho => exact ho
  | _ => exact h.ofDropped hd

theorem ofStoppings_step (h : p.Sound) (ht : Transition p e q) {call : CallId}
    (hc : call ∈ q.stoppings) : q.stopped = true := by
  cases ht with
  | stopped hnot => rfl
  | joined hs hl => exact h.ofStoppings _ (Table.mem_of_get? hs)
  | drained hs => exact h.ofStoppings _ (Table.mem_of_get? hs)
  | _ => exact h.ofStoppings call hc

/-- A pool without workers that is short of them has room for one. -/
theorem isShort_of_live (hq : p.queue ≠ []) (hl : p.live = 0) :
    p.isShort = true ∧ p.hasRoom = true := by
  have hempty : p.workers = ∅ := Table.size_eq_zero.mp hl
  have hidle : p.idle = 0 := by
    unfold idle
    rw [hempty]
    rfl
  constructor
  · unfold isShort
    rw [hidle]
    exact decide_eq_true (List.length_pos_iff.mpr hq)
  · unfold hasRoom
    rw [hl]
    by_cases hlimit : p.limit = 0
    · simp [hlimit]
    · simp [Nat.pos_of_ne_zero hlimit]

/-- **What waits in an open pool without workers has a call that looks after it.** -/
theorem staffed_step (h : p.Sound) (ht : Transition p e q) (ho : q.stopped = false)
    (hq : q.queue ≠ []) (hl : q.live = 0) : ∃ call s, q.submissions.get? call = some s ∧ s.Looks := by
  have hopen : p.stopped = false := Bool.eq_false_iff.mpr fun hs => by
    rw [ht.stopped_of_stopped hs] at ho
    exact nomatch ho
  -- A call that looked before still does, unless it is the one that moves on.
  have hkeep : ∀ {call s s'}, p.submissions.get? call = s → (∀ s₀, s = some s₀ → ¬ s₀.Looks) →
      p.queue ≠ [] → p.live = 0 → ∃ other s, (p.submissions.insert call s').get? other = some s ∧
        s.Looks := by
    intro call s s' hcall hnot hqueue hlive
    obtain ⟨other, s₀, hother, hlooks⟩ := h.staffed hopen hqueue hlive
    refine ⟨other, s₀, ?_, hlooks⟩
    rw [Table.get?_insert_of_ne, hother]
    rintro rfl
    exact hnot s₀ (hcall ▸ hother) hlooks
  cases ht with
  | @submitted call task hnot =>
    exact hkeep rfl (fun s₀ hs₀ _ => hnot (Table.mem_of_get? hs₀)) hq hl
  | admitted hs ho => exact hkeep hs (fun s₀ hs₀ hlooks => by cases hs₀; exact hlooks) hq hl
  | sent hs => exact ⟨_, _, Table.get?_insert_self .., trivial⟩
  | waited hs ho hne => exact absurd hl hne
  | refused hs hne hstopped =>
    rw [hopen] at hstopped
    exact nomatch hstopped
  | supplied hs hlooks ho hr => exact absurd hl (live_ne_zero (Table.get?_insert_self ..))
  | sufficed hs hlooks ho hr =>
    obtain ⟨hshort, hroom⟩ := isShort_of_live (p := p) hq hl
    rw [hr hshort] at hroom
    exact nomatch hroom
  | stopped hnot => exact nomatch ho
  | joined hs hleft => exact h.staffed hopen hq hl
  | drained hs => exact h.staffed hopen hq hl
  | discarded hs hqueue => exact h.staffed hopen (by rw [hqueue]; exact List.cons_ne_nil _ _) hl
  | received hw hqueue => exact absurd hl (live_ne_zero (Table.get?_insert_self ..))
  | gaveUp hw ho => exact absurd hl (live_ne_zero (Table.get?_insert_self ..))
  | began hw ho => exact absurd hl (live_ne_zero (Table.get?_insert_self ..))
  | ended hw => exact absurd hl (live_ne_zero (Table.get?_insert_self ..))
  | turned hw ht hr hg => exact absurd hl (live_ne_zero (Table.get?_insert_self ..))
  | gone hw ht hgo =>
    rcases hgo with hgoes | hqueue
    · rw [h.ofGoes _ _ hw hgoes] at hopen
      exact nomatch hopen
    · exact absurd hqueue hq

/-- **An action keeps a pool sound.** -/
theorem step (h : p.Sound) (ht : Transition p e q) : q.Sound where
  fresh := h.fresh_step ht
  room := h.room_step ht
  ofGoes _ _ := h.ofGoes_step ht
  ofDropped := h.ofDropped_step ht
  ofStoppings _ := h.ofStoppings_step ht
  staffed := h.staffed_step ht

end Sound

/-! ## Once the pool is stopped -/

/-- The pool is stopped and has no workers. -/
structure Quiet (p : WorkerPool) : Prop where
  stopped : p.stopped = true
  live : p.live = 0

/-- What was answered in `q` was answered in `p`, or turned away because the pool is stopped. -/
def TurnsAway (p q : WorkerPool) : Prop :=
  ∀ call r, q.submissions.get? call = some (.answered r) →
    p.submissions.get? call = some (.answered r) ∨ r = .error .stopped

theorem Transition.turnsAway (h : Transition p e q) (hs : p.stopped = true) : TurnsAway p q := by
  -- What the call comes to that moves on, unless it is answered, and what the others had come to.
  have hput : ∀ {other : CallId} {s : Submission}, (∀ r, s = .answered r → r = .error .stopped) →
      TurnsAway p (p.putSubmission other s) := by
    intro other s hanswer call r hr
    unfold putSubmission at hr
    rw [Table.get?_insert] at hr
    split at hr
    · exact .inr (hanswer r (Option.some.inj hr))
    · exact .inl hr
  have hopen : ∀ {P : Prop}, p.stopped = false → P := fun ho => by
    rw [hs] at ho
    exact nomatch ho
  cases h with
  | submitted hnot => exact hput nofun
  | admitted hs ho => exact hput nofun
  | sent hs => exact hput nofun
  | waited hs ho hl => exact hput nofun
  | refused hs hne ho => exact hput fun r hr => (Submission.answered.inj hr).symm
  | supplied hs hl ho hr => exact hopen ho
  | sufficed hs hl ho hr => exact hopen ho
  | _ => exact fun call r hr => .inl hr

namespace Quiet

theorem no_worker (h : p.Quiet) : p.workers.get? id ≠ some w := fun hw => live_ne_zero hw h.live

/-- A pool that is quiet stays so, and starts no task. -/
theorem step (h : p.Quiet) (ht : Transition p e q) : q.Quiet ∧ q.started = p.started := by
  have hstopped := ht.stopped_of_stopped h.stopped
  cases ht with
  | supplied hs hl ho hr =>
    rw [h.stopped] at ho
    exact nomatch ho
  | received hw hq => exact absurd hw h.no_worker
  | gaveUp hw ho => exact absurd hw h.no_worker
  | began hw ho => exact absurd hw h.no_worker
  | ended hw => exact absurd hw h.no_worker
  | turned hw ht hr hg => exact absurd hw h.no_worker
  | gone hw ht hq => exact absurd hw h.no_worker
  | _ => exact ⟨⟨hstopped, h.live⟩, rfl⟩

/-- **A stopped pool without workers stays so:** it runs nothing and turns every call away. -/
theorem run (h : p.Quiet) (hrun : p.run es = some q) :
    q.Quiet ∧ q.started = p.started ∧ TurnsAway p q := by
  refine run_induction (P := fun _ q => q.Quiet ∧ q.started = p.started ∧ TurnsAway p q) hrun
    ⟨h, rfl, fun call r hr => .inl hr⟩ ?_
  rintro es e m n - ⟨hquiet, hstarted, haway⟩ ht -
  obtain ⟨hquiet', hstarted'⟩ := hquiet.step ht
  refine ⟨hquiet', hstarted'.trans hstarted, fun call r hr => ?_⟩
  exact (ht.turnsAway hquiet.stopped call r hr).elim (haway call r) .inr

/-- A call that begins then is answered at once. -/
theorem answers (h : p.Quiet) {task : TaskId} (hnew : call ∉ p.submissions) :
    ∃ q, p.run [.submit call task, .proceed call] = some q ∧
      q.submissions.get? call = some (.answered (.error .stopped)) := by
  have hsubmit : p.step (.submit call task) = some (p.putSubmission call (.entering task)) := by
    unfold WorkerPool.step
    exact if_neg hnew
  refine ⟨(p.putSubmission call (.entering task)).putSubmission call (.answered (.error .stopped)),
    ?_, Table.get?_insert_self ..⟩
  have hentering : (p.putSubmission call (.entering task)).submissions.get? call =
      some (.entering task) := Table.get?_insert_self ..
  rw [WorkerPool.run, hsubmit]
  unfold WorkerPool.run WorkerPool.step
  simp only [Option.bind_some, hentering]
  unfold stepSubmission
  have hs : (p.putSubmission call (.entering task)).stopped = true := h.stopped
  dsimp only
  rw [if_pos hs]
  rfl

end Quiet

/-- A call made from outside was the first to stop the pool, and it waits for the workers to go, or
they have gone. -/
def Halting (call : CallId) (p : WorkerPool) : Prop :=
  p.stopped = true ∧ (p.stoppings.get? call = some (.joining none) ∨ p.live = 0)

theorem live_of_isLeft (h : p.isLeft none = true) : p.live = 0 := by
  unfold isLeft at h
  unfold live Table.size
  rw [List.all_eq_true] at h
  have hnone : p.workers.keys = [] := List.eq_nil_iff_forall_not_mem.mpr fun id hid =>
    absurd (h id hid) (by simp)
  exact List.length_eq_zero_iff.mpr (List.map_eq_nil_iff.mp hnone)

theorem Halting.step (h : p.Halting call) (ht : Transition p e q) : q.Halting call := by
  obtain ⟨hs, hjoining | hlive⟩ := h
  · refine ⟨ht.stopped_of_stopped hs, ?_⟩
    have hput : ∀ {other s}, p.stoppings.get? other ≠ some (.joining none) →
        (p.stoppings.insert other s).get? call = some (.joining none) := by
      intro other s hne
      rw [Table.get?_insert_of_ne, hjoining]
      rintro rfl
      exact hne hjoining
    cases ht with
    | stopped hnot => exact .inl (hput fun he => hnot (Table.mem_of_get? he))
    | @joined other within hother hleft =>
      by_cases hnone : within = none
      · exact .inr (live_of_isLeft (hnone ▸ hleft))
      · refine .inl (hput fun he => hnone ?_)
        rw [hother] at he
        exact Stopping.joining.inj (Option.some.inj he)
    | drained hother => exact .inl (hput (by rw [hother]; exact nofun))
    | _ => exact .inl hjoining
  · obtain ⟨hquiet, -⟩ := Quiet.step ⟨hs, hlive⟩ ht
    exact ⟨hquiet.stopped, .inr hquiet.live⟩

/-! ## What was answered -/

/-- How far a call may have come that submits a task, when the tasks of `acc` have been accepted. -/
def Stage (acc : List TaskId) (task : TaskId) (s : Submission) : Prop :=
  s = .entering task ∨ s = .sending task ∨ s = .answered (.error .stopped) ∨ task ∈ acc

/-- A call that submits a task has come so far. -/
def Placed (acc : List TaskId) (call : CallId) (task : TaskId) (p : WorkerPool) : Prop :=
  ∃ s, p.submissions.get? call = some s ∧ Stage acc task s

theorem Stage.append {acc : List TaskId} {task : TaskId} {s : Submission} (h : Stage acc task s)
    (more : List TaskId) : Stage (acc ++ more) task s :=
  h.imp_right (Or.imp_right (Or.imp_right (List.mem_append_left more)))

/-- A call that looks after its task has put it in the queue. -/
theorem Stage.of_looks {acc : List TaskId} {task : TaskId} {s : Submission} (h : Stage acc task s)
    (hs : s.Looks) (s' : Submission) : Stage acc task s' := by
  rcases h with rfl | rfl | rfl | h
  · exact hs.elim
  · exact hs.elim
  · exact hs.elim
  · exact .inr (.inr (.inr h))

/-- Some call moves on. -/
theorem Placed.put {acc more : List TaskId} {task : TaskId} {other : CallId} {s s' : Submission}
    (h : Placed acc call task p) (hs : p.submissions.get? other = some s)
    (hq : q.submissions = p.submissions.insert other s')
    (hmove : Stage acc task s → Stage (acc ++ more) task s') :
    Placed (acc ++ more) call task q := by
  obtain ⟨s₀, hcall, hstage⟩ := h
  unfold Placed
  rw [hq, Table.get?_insert]
  split
  · rename_i he
    subst he
    rw [hs] at hcall
    cases hcall
    exact ⟨s', rfl, hmove hstage⟩
  · exact ⟨s₀, hcall, hstage.append more⟩

theorem Placed.step {acc : List TaskId} {task : TaskId} (h : Placed acc call task p)
    (ht : Transition p e q) : Placed (acc ++ (p.taken? e).toList) call task q := by
  have hsame : ∀ more, q.submissions = p.submissions → Placed (acc ++ more) call task q := by
    intro more hq
    obtain ⟨s, hcall, hstage⟩ := h
    exact ⟨s, hq ▸ hcall, hstage.append more⟩
  cases ht with
  | @submitted other task' hnot =>
    obtain ⟨s, hcall, hstage⟩ := h
    refine ⟨s, ?_, hstage.append _⟩
    refine (Table.get?_insert_of_ne _ _ ?_).trans hcall
    rintro rfl
    exact hnot (Table.mem_of_get? hcall)
  | admitted hs ho =>
    refine h.put hs rfl fun hstage => ?_
    rcases hstage with he | he | he | hin
    · cases he
      exact .inr (.inl rfl)
    · exact nomatch he
    · exact nomatch he
    · exact .inr (.inr (.inr (List.mem_append_left _ hin)))
  | @sent other task' hs =>
    refine h.put hs rfl fun hstage => ?_
    have htaken : p.taken? (.proceed other) = some task' := taken?_of_sending hs
    rcases hstage with he | he | he | hin
    · exact nomatch he
    · cases he
      exact .inr (.inr (.inr (by rw [htaken]; simp)))
    · exact nomatch he
    · exact .inr (.inr (.inr (List.mem_append_left _ hin)))
  | waited hs ho hl => exact h.put hs rfl fun hstage => (hstage.of_looks trivial _).append _
  | refused hs hne ho => exact h.put hs rfl fun _ => .inr (.inr (.inl rfl))
  | supplied hs hl ho hr => exact h.put hs rfl fun hstage => (hstage.of_looks hl _).append _
  | sufficed hs hl ho hr => exact h.put hs rfl fun hstage => (hstage.of_looks hl _).append _
  | _ => exact hsame _ rfl

/-- A call that begins. -/
theorem placed_submit {acc : List TaskId} {task : TaskId} (h : p.step (.submit call task) = some q) :
    Placed acc call task q := by
  cases Transition.of_step h with
  | submitted hnot => exact ⟨_, Table.get?_insert_self .., .inl rfl⟩

/-! ## All of it -/

/-- Where a task is that was accepted. -/
inductive Place
  | waiting
  | inHand
  | ended
  | dropped
deriving DecidableEq

/-- The tasks in a place. -/
def tasks (p : WorkerPool) : Place → List TaskId
  | .waiting => p.queue
  | .inHand => p.inHand
  | .ended => p.finished
  | .dropped => p.dropped

/-- What is kept after a schedule, when the tasks of `acc` have been accepted. -/
structure Kept (es : List Event) (acc : List TaskId) (p : WorkerPool) : Prop where
  sound : p.Sound
  accounted : Accounted acc p
  placed : ∀ call task, .submit call task ∈ es → Placed acc call task p

theorem Kept.run {limit : Nat} (h : ({ limit } : WorkerPool).run es = some p) :
    Kept es (({ limit } : WorkerPool).accepted es) p ∧ p.limit = limit := by
  refine run_induction (P := fun es p => Kept es (({ limit } : WorkerPool).accepted es) p ∧
    p.limit = limit) h ⟨⟨sound_new limit, ⟨fun t => rfl, fun t => rfl⟩, nofun⟩, rfl⟩ ?_
  rintro es e m n hrun ⟨hkept, hlimit⟩ ht he
  rw [accepted_concat hrun he]
  refine ⟨⟨hkept.sound.step ht, hkept.accounted.step hkept.sound.nextWorker_not_mem ht, ?_⟩,
    ht.limit_eq.trans hlimit⟩
  intro call task hin
  rcases List.mem_append.mp hin with hin | hin
  · exact (hkept.placed call task hin).step ht
  · obtain rfl := List.mem_singleton.mp hin
    exact placed_submit he

theorem Transition.stopped_eq (h : Transition p e q) (hne : ∀ call within, e ≠ .stop call within) :
    q.stopped = p.stopped := by
  cases h with
  | @stopped call within hnot => exact absurd rfl (hne call within)
  | _ => rfl

/-- A pool is open as long as nobody stops it. -/
theorem open_of_not_mem {p₀ : WorkerPool} (h : p₀.run es = some p) (h₀ : p₀.stopped = false)
    (hnone : ∀ call within, .stop call within ∉ es) : p.stopped = false := by
  refine run_induction (P := fun es p => (∀ call within, .stop call within ∉ es) →
    p.stopped = false) h (fun _ => h₀) ?_ hnone
  intro es e m n _ ih ht _ hnone
  rw [ht.stopped_eq fun call within he => hnone call within (by simp [he])]
  exact ih fun call within hin => hnone call within (List.mem_append_left _ hin)

/-- When the first call to stop the pool, made from outside, has returned, the pool is quiet. -/
theorem quiet_of_returned {before after : List Event} {p₀ : WorkerPool} (h₀ : p₀.stopped = false)
    (hnone : ∀ other within, .stop other within ∉ before)
    (h : p₀.run (before ++ .stop call none :: after) = some p)
    (hreturned : p.stoppings.get? call = some .returned) : p.Quiet := by
  rw [run_append] at h
  obtain ⟨m, hm, h⟩ := Option.bind_eq_some_iff.mp h
  obtain ⟨n, hn, h⟩ := Option.bind_eq_some_iff.mp h
  have hopen : m.stopped = false := open_of_not_mem hm h₀ hnone
  have hstart : n.Halting call := by
    cases Transition.of_step hn with
    | stopped hnot =>
      refine ⟨rfl, .inl ?_⟩
      rw [Table.get?_insert_self, hopen]
      rfl
  have hend : p.Halting call :=
    run_induction (P := fun _ p => p.Halting call) h hstart fun _ ih ht _ => ih.step ht
  obtain ⟨hs, hjoining | hlive⟩ := hend
  · rw [hreturned] at hjoining
    exact nomatch hjoining
  · exact ⟨hs, hlive⟩

/-- **What a schedule of a pool with the limit given has kept to.** -/
structure Safe (limit : Nat) (es : List Event) (p : WorkerPool) : Prop where
  /-- There are no more workers than allowed. -/
  limited : limit ≠ 0 → p.live ≤ limit
  /-- Each task that was accepted waits, is in the hands of a worker, has ended or was dropped. -/
  places : (({ limit } : WorkerPool).accepted es).Perm
    (p.tasks .waiting ++ p.tasks .inHand ++ p.tasks .ended ++ p.tasks .dropped)
  /-- What began to run is running or has ended. -/
  started : p.started.Perm (p.underWay ++ p.tasks .ended)
  /-- A task that was accepted once is in one place, and began to run once at most. -/
  once : (({ limit } : WorkerPool).accepted es).Nodup →
    ∀ t ∈ ({ limit } : WorkerPool).accepted es, (∃! place, t ∈ p.tasks place) ∧ p.started.count t ≤ 1
  /-- A call that was answered well has its task among those that were accepted. -/
  answered : ∀ call task, .submit call task ∈ es →
    p.submissions.get? call = some (.answered (.ok ())) → task ∈ ({ limit } : WorkerPool).accepted es
  /-- Tasks are dropped once somebody stops the pool. -/
  dropped : p.tasks .dropped ≠ [] → ∃ call within, .stop call within ∈ es
  /-- No task waits without a worker while the pool is open and no call submits a task. -/
  staffed : p.stopped = false → p.tasks .waiting ≠ [] →
    (∀ call s, p.submissions.get? call = some s → ∃ r, s = .answered r) → 0 < p.live
  /-- A task that panics has ended, and its worker stays. -/
  panics : ∀ id task, p.workers.get? id = some (.running task) →
    ∃ q, p.step (.work id (.finish .panicked)) = some q ∧ q.ended = p.ended ++ [(task, .panicked)] ∧
      q.live = p.live ∧ q.workers.get? id = some .finished
  /-- Once the first call to stop the pool has returned that was made from outside, there is no
  worker, and whatever happens then, none comes, no task starts, and every call is turned away. -/
  stopped : ∀ before call after, es = before ++ .stop call none :: after →
    (∀ other within, .stop other within ∉ before) →
    p.stoppings.get? call = some .returned →
    p.live = 0 ∧ (∀ more q, p.run more = some q →
      q.live = 0 ∧ q.started = p.started ∧ TurnsAway p q) ∧
    ∀ call task, call ∉ p.submissions →
      ∃ q, p.run [.submit call task, .proceed call] = some q ∧
        q.submissions.get? call = some (.answered (.error .stopped))

/-- What is running is in somebody's hands. -/
theorem count_underWay_le (p : WorkerPool) (t : TaskId) : p.underWay.count t ≤ p.inHand.count t := by
  unfold underWay inHand
  induction p.workers.values with
  | nil => exact Nat.le_refl _
  | cons w ws ih =>
    rw [List.filterMap_cons, List.filterMap_cons]
    cases w with
    | running task =>
      simp only [Worker.running?, Worker.task?, List.count_cons]
      omega
    | received task => exact Nat.le_trans ih ((List.sublist_cons_self ..).count_le t)
    | holding task => exact Nat.le_trans ih ((List.sublist_cons_self ..).count_le t)
    | _ => exact ih

theorem Accounted.existsUnique {acc : List TaskId} {t : TaskId} (h : Accounted acc p)
    (hnodup : acc.Nodup) (ht : t ∈ acc) : (∃! place, t ∈ p.tasks place) ∧ p.started.count t ≤ 1 := by
  have hplaces := h.places t
  have hstarted := h.started t
  have hone : acc.count t = 1 := List.count_eq_one_of_mem hnodup ht
  have hrunning := p.count_underWay_le t
  have hmem : ∀ place, t ∈ p.tasks place ↔ 0 < (p.tasks place).count t := fun place =>
    List.count_pos_iff.symm
  refine ⟨?_, by omega⟩
  -- The four places have the task once between them.
  have hsum : (p.tasks .waiting).count t + (p.tasks .inHand).count t + (p.tasks .ended).count t +
      (p.tasks .dropped).count t = 1 := hplaces.symm.trans hone
  have hother : ∀ place, 0 < (p.tasks place).count t →
      ∀ other, 0 < (p.tasks other).count t → other = place := by
    intro place hplace other hthere
    cases place <;> cases other <;> first | rfl | omega
  have hsome : ∃ place, 0 < (p.tasks place).count t := by
    by_contra hnone
    have hzero : ∀ place, (p.tasks place).count t = 0 := fun place =>
      Nat.eq_zero_of_not_pos fun hpos => hnone ⟨place, hpos⟩
    rw [hzero, hzero, hzero, hzero] at hsum
    exact nomatch hsum
  obtain ⟨place, hplace⟩ := hsome
  exact ⟨place, (hmem place).mpr hplace,
    fun other hin => hother place hplace other ((hmem other).mp hin)⟩

/-- **A worker pool is safe,** whatever its limit and however its users and workers act side by
side. -/
theorem run_safe (limit : Nat) (es : List Event) (p : WorkerPool)
    (h : ({ limit } : WorkerPool).run es = some p) : Safe limit es p := by
  obtain ⟨hkept, hlimit⟩ := Kept.run h
  have hsound := hkept.sound
  have hacc := hkept.accounted
  refine ⟨fun hl => ?_, ?_, ?_, fun hnodup t ht => hacc.existsUnique hnodup ht, ?_, ?_, ?_, ?_, ?_⟩
  · rw [← hlimit] at hl ⊢
    exact hsound.room hl
  · refine List.perm_iff_count.mpr fun t => ?_
    rw [List.count_append, List.count_append, List.count_append]
    exact hacc.places t
  · refine List.perm_iff_count.mpr fun t => ?_
    rw [List.count_append]
    exact hacc.started t
  · intro call task hin hok
    obtain ⟨s, hs, hstage⟩ := hkept.placed call task hin
    rw [hok] at hs
    cases hs
    rcases hstage with he | he | he | hin
    · exact nomatch he
    · exact nomatch he
    · exact nomatch he
    · exact hin
  · intro hd
    by_contra hnone
    have := open_of_not_mem h rfl fun call within hin => hnone ⟨call, within, hin⟩
    rw [hsound.ofDropped hd] at this
    exact nomatch this
  · intro ho hq hanswered
    refine Nat.pos_of_ne_zero fun hl => ?_
    obtain ⟨call, s, hs, hlooks⟩ := hsound.staffed ho hq hl
    obtain ⟨r, rfl⟩ := hanswered call s hs
    exact hlooks
  · intro id task hw
    refine ⟨{ p with ended := p.ended ++ [(task, TaskEnd.panicked)] }.putWorker id .finished, ?_, rfl, ?_,
      Table.get?_insert_self ..⟩
    · unfold step
      dsimp only
      rw [hw]
      rfl
    · unfold live
      exact (Table.size_insert ..).trans (Table.size_of_get? hw).symm
  · rintro before call after rfl hnone hreturned
    have hquiet := quiet_of_returned rfl hnone h hreturned
    refine ⟨hquiet.live, fun more q hmore => ?_, fun call task hnew => hquiet.answers hnew⟩
    obtain ⟨hq, hstarted, haway⟩ := hquiet.run hmore
    exact ⟨hq.live, hstarted, haway⟩

/-- Two tasks for one worker: the first one panics, and the pool is stopped before the second one
is taken up, which is dropped. -/
def busyHour : List Event :=
  [.submit 0 7, .proceed 0, .proceed 0, .proceed 0,
    .work 0 .proceed, .work 0 .proceed, .work 0 .proceed, .work 0 .proceed,
    .submit 1 8, .proceed 1, .proceed 1, .proceed 1, .proceed 1,
    .work 0 (.finish .panicked), .stop 2 none,
    .work 0 .proceed, .work 0 .proceed, .work 0 .proceed,
    .proceedStop 2, .proceedStop 2, .proceedStop 2]

theorem run_safe_busyHour : ∃ p, ({ limit := 1 } : WorkerPool).run busyHour = some p ∧
    p.ended = [(7, .panicked)] ∧ p.dropped = [8] ∧ p.live = 0 ∧ Safe 1 busyHour p := by
  have hrun : (({ limit := 1 } : WorkerPool).run busyHour).isSome = true := by decide +kernel
  obtain ⟨p, hp⟩ := Option.isSome_iff_exists.mp hrun
  have hend : (({ limit := 1 } : WorkerPool).run busyHour).map
      (fun p => (p.ended, p.dropped, p.live)) = some ([(7, .panicked)], [8], 0) := by decide +kernel
  rw [hp, Option.map_some, Option.some.injEq, Prod.mk.injEq, Prod.mk.injEq] at hend
  exact ⟨p, hp, hend.1, hend.2.1, hend.2.2, run_safe 1 busyHour p hp⟩

end MessageBroker.WorkerPool
