import MessageBroker.Proofs.Net.Firing
import Mathlib.Data.List.Count

/-!
# Level watches

The primitive tells of a change once, and what the handler leaves unread it does not tell of again.
What makes up for it is the set of streams whose handler was called under a level watch and decided
to go on; a cycle begins by looking through it, in whatever order, and drops those that have nothing
to read. So a stream is lost if it is dropped too early: what follows shows that it stays in the set
from one call of its handler to the next, as long as there is something to read whenever a cycle
begins and its watch is neither ended nor disabled.

Headlines:
* **`Net.Multiplexer.runs_run`**: the runs of the multiplexer are among those looked at here, which
  leave open in which order a cycle comes to its level watches.
* **`Net.Multiplexer.Keeps.dispatch`**, **`Net.Multiplexer.Keeps.serves`**: a stream to which a call
  is owed stays in the set.
* **`Net.Multiplexer.fires_in_turn`**: what a cycle tells of an armed watch calls the handler, if
  nothing before has ended the watch.
* **`Net.Multiplexer.runs_levelled`**: in every run a level watch fires in every cycle while there
  is something to read, and without it only on an event.
-/

namespace MessageBroker.Net

variable {σ δ : Type} {earlier log more : List (Incident δ)} {x : Incident δ} {id : StreamId}
  {w : Watch δ}

/-- What happens leaves a level watch of a stream as it is. -/
def Incident.Spares (id : StreamId) (x : Incident δ) : Prop := ¬ x.Ends id ∧ ¬ x.Disarms id .level

theorem Watch.trigger_after (w : Watch δ) (id : StreamId) (x : Incident δ) :
    (w.after id x).trigger = w.trigger := by
  unfold after
  split <;> rfl

theorem Under.append (h : Under log id w)
    (hs : ∀ x ∈ more, ¬ x.Ends id ∧ ¬ x.Disarms id w.trigger) : Under (log ++ more) id w := by
  induction more generalizing log with
  | nil => rwa [List.append_nil]
  | cons x more ih =>
    obtain ⟨hx, hmore⟩ := List.forall_mem_cons.mp hs
    rw [List.append_cons]
    exact ih ((under_concat hx.1).mpr ⟨w, h, (Watch.after_of_not_disarms hx.2).symm⟩) hmore

/-! ## What is owed -/

/-- In the log the handler was called for a stream under an armed level watch, and nothing since has
ended the watch or disarmed it: what the handler decided then is to go on. -/
def Owed (earlier log : List (Incident δ)) (id : StreamId) : Prop :=
  ∃ past flags data rest, log = past ++ .fired id flags data :: rest ∧
    Under (earlier ++ past) id ⟨data, .level, true⟩ ∧ ∀ x ∈ rest, x.Spares id

theorem not_owed_nil : ¬ Owed earlier [] id := by
  rintro ⟨past, flags, data, rest, he, -⟩
  exact absurd he.symm (by simp)

/-- Where something is owed the level watch still stands. -/
theorem Owed.under (h : Owed earlier log id) :
    ∃ data, Under (earlier ++ log) id ⟨data, .level, true⟩ := by
  obtain ⟨past, flags, data, rest, rfl, hunder, hrest⟩ := h
  refine ⟨data, ?_⟩
  rw [← List.append_assoc]
  exact hunder.append (List.forall_mem_cons.mpr ⟨⟨fun h => h, nofun⟩, hrest⟩)

/-- What is owed after more has happened, without a call of the handler, was owed before. -/
theorem Owed.of_append (h : Owed earlier (log ++ more) id) (hf : ∀ x ∈ more, ¬ x.Fires id) :
    Owed earlier log id ∧ ∀ x ∈ more, x.Spares id := by
  obtain ⟨past, flags, data, rest, he, hunder, hrest⟩ := h
  rcases append_eq_append_cons he with ⟨rest, rfl, rfl⟩ | ⟨between, -, rfl⟩
  · obtain ⟨hbefore, hmore⟩ := List.forall_mem_append.mp hrest
    exact ⟨⟨past, flags, data, rest, rfl, hunder, hbefore⟩, hmore⟩
  · exact absurd rfl (hf (.fired id flags data) (by simp))

namespace Multiplexer

variable {handler : Handler σ δ} {s s' s'' : σ} {m m' m'' : Multiplexer δ} {u : Use δ}
  {flags : Flags} {available : StreamId → Bool} {events : List (StreamId × Flags)}
  {steps : List (Use δ × List (Incident δ))}

/-! ## Cycles in any order -/

/-- A use of a multiplexer, what happens in it, and what is left: in a cycle the level watches that
fire again come in any order. -/
inductive Serves (handler : Handler σ δ) :
    σ → Multiplexer δ → Use δ → List (Incident δ) → σ → Multiplexer δ → Prop
  | call (s : σ) (m : Multiplexer δ) (c : Call δ) :
    Serves handler s m (.call c) [m.incident c] s (m.perform c)
  | stopped {s : σ} {m : Multiplexer δ} (h : m.stopped = true) (available : StreamId → Bool)
    (wait : Except IoFailure (List (StreamId × Flags))) :
    Serves handler s m (.poll available wait) [] s m
  | failed {s : σ} {m : Multiplexer δ} (h : m.stopped = false) (available : StreamId → Bool)
    (cause : IoFailure) :
    Serves handler s m (.poll available (.error cause)) [] s (m.probe available).2
  | cycle {s : σ} {m : Multiplexer δ} (h : m.stopped = false) (available : StreamId → Bool)
    (events : List (StreamId × Flags)) {order : List StreamId}
    (horder : order.Perm (m.probe available).1) :
    Serves handler s m (.poll available (.ok events))
      (allDispatched handler (announcements events order) s (m.probe available).2)
      (dispatchAll handler (announcements events order) s (m.probe available).2).2.1
      (dispatchAll handler (announcements events order) s (m.probe available).2).2.2

/-- Uses one after the other, each with what happens in it. -/
inductive Runs (handler : Handler σ δ) :
    σ → Multiplexer δ → List (Use δ × List (Incident δ)) → σ → Multiplexer δ → Prop
  | nil (s : σ) (m : Multiplexer δ) : Runs handler s m [] s m
  | cons {s s' s'' : σ} {m m' m'' : Multiplexer δ} {u : Use δ} {log : List (Incident δ)}
    {steps : List (Use δ × List (Incident δ))} (first : Serves handler s m u log s' m')
    (others : Runs handler s' m' steps s'' m'') : Runs handler s m ((u, log) :: steps) s'' m''

/-- Uses, each with what happens in it if level watches come in the order of their numbers. -/
def stepsOf (handler : Handler σ δ) (s : σ) (m : Multiplexer δ) :
    List (Use δ) → List (Use δ × List (Incident δ))
  | [] => []
  | u :: uses =>
    (u, served handler s m u) ::
      stepsOf handler (serve handler s m u).1 (serve handler s m u).2 uses

/-- What happens in steps, one after the other. -/
def incidentsOf (steps : List (Use δ × List (Incident δ))) : List (Incident δ) :=
  steps.flatMap (·.2)

theorem incidentsOf_cons (u : Use δ) (log : List (Incident δ))
    (steps : List (Use δ × List (Incident δ))) :
    incidentsOf ((u, log) :: steps) = log ++ incidentsOf steps := List.flatMap_cons ..

theorem serves_serve (handler : Handler σ δ) (s : σ) (m : Multiplexer δ) (u : Use δ) :
    Serves handler s m u (served handler s m u) (serve handler s m u).1
      (serve handler s m u).2 := by
  cases u with
  | call c => exact .call s m c
  | poll available wait =>
    change Serves handler s m (.poll available wait) (polled handler available wait s m)
      (poll handler available wait s m).2.1 (poll handler available wait s m).2.2
    by_cases hs : m.stopped = true
    · rw [poll, if_pos hs]
      cases wait with
      | error cause => exact .stopped hs available _
      | ok events =>
        rw [polled, if_pos hs]
        exact .stopped hs available _
    · have hs' := Bool.eq_false_iff.mpr hs
      rw [poll, if_neg hs]
      cases wait with
      | error cause => cases cause <;> exact .failed hs' available _
      | ok events =>
        rw [polled, if_neg hs]
        exact .cycle hs' available events (.refl _)

/-- **The runs of the multiplexer are among those looked at,** which differ from them only in the
order in which a cycle comes to its level watches. -/
theorem runs_run (handler : Handler σ δ) (s : σ) (m : Multiplexer δ) (uses : List (Use δ)) :
    Runs handler s m (stepsOf handler s m uses) (run handler s m uses).1
        (run handler s m uses).2 ∧
      incidentsOf (stepsOf handler s m uses) = history handler s m uses := by
  induction uses generalizing s m with
  | nil => exact ⟨.nil s m, rfl⟩
  | cons u uses ih =>
    obtain ⟨hruns, hhistory⟩ := ih (serve handler s m u).1 (serve handler s m u).2
    refine ⟨.cons (serves_serve handler s m u) hruns, ?_⟩
    rw [stepsOf, incidentsOf_cons, hhistory, history]

theorem Runs.split {later : List (Use δ × List (Incident δ))}
    (h : Runs handler s m (steps ++ later) s'' m'') :
    ∃ s' m', Runs handler s m steps s' m' ∧ Runs handler s' m' later s'' m'' := by
  induction steps generalizing s m with
  | nil => exact ⟨s, m, .nil s m, h⟩
  | cons x steps ih =>
    cases h with
    | cons first others =>
      obtain ⟨s', m', hs, hlater⟩ := ih others
      exact ⟨s', m', .cons first hs, hlater⟩

theorem recorded_probe (h : Recorded log m) (available : StreamId → Bool) :
    Recorded log (m.probe available).2 := h.congr rfl rfl

theorem Serves.recorded (hs : Serves handler s m u more s' m') (h : Recorded log m) :
    Recorded (log ++ more) m' := by
  cases hs with
  | call c => exact recorded_perform h c
  | stopped => rwa [List.append_nil]
  | failed hs available cause =>
    rw [List.append_nil]
    exact recorded_probe h available
  | cycle hs available events horder =>
    exact recorded_dispatchAll (recorded_probe h available) s _

theorem Runs.recorded (hs : Runs handler s m steps s' m') (h : Recorded log m) :
    Recorded (log ++ incidentsOf steps) m' := by
  induction hs generalizing log with
  | nil s m => rwa [incidentsOf, List.flatMap_nil, List.append_nil]
  | cons first others ih =>
    rw [incidentsOf_cons, ← List.append_assoc]
    exact ih (first.recorded h)

/-! ## What stays to be looked at -/

/-- A call spares what it does not end. -/
theorem mem_pending_perform (h : id ∈ m.pending) {c : Call δ} (hc : ¬ (m.incident c).Ends id) :
    id ∈ (m.perform c).pending := by
  cases c with
  | watch other registers data trigger =>
    cases hw : m.watch other registers data trigger with
    | ok m' =>
      obtain ⟨-, rfl⟩ := watch_eq_ok hw
      simpa only [perform, hw] using h
    | error cause => simpa only [perform, hw] using h
  | forget other =>
    have hget : (m.pending.erase other).get? id = m.pending.get? id :=
      Table.get?_erase_of_ne _ fun he => hc (Eq.symm he)
    change ((m.pending.erase other).get? id).isSome = true
    rw [hget]
    exact h
  | stop => exact absurd trivial hc

theorem mem_pending_foldl (h : id ∈ m.pending) {calls : List (Call δ)}
    (hs : ∀ x ∈ m.incidents calls, ¬ x.Ends id) : id ∈ (calls.foldl perform m).pending := by
  induction calls generalizing m with
  | nil => exact h
  | cons c calls ih =>
    obtain ⟨hc, hcalls⟩ := List.forall_mem_cons.mp hs
    exact ih (mem_pending_perform h hc) hcalls

/-- So does a decision. -/
theorem mem_pending_apply (h : id ∈ m.pending) {other : StreamId} (trigger : Trigger) {a : Action}
    (hs : ∀ x ∈ (a.incidents other : List (Incident δ)), x.Spares id) :
    id ∈ (m.apply other trigger a).pending := by
  have herase : id ≠ other → id ∈ m.pending.erase other := fun ho => by
    rw [Table.mem_iff, Table.get?_erase_of_ne _ ho]
    exact h
  cases a with
  | «continue» =>
    unfold apply
    dsimp only
    split
    · rw [Table.mem_iff, Table.get?_insert]
      split
      · rfl
      · exact h
    · exact h
  | disable => exact herase fun ho => (List.forall_mem_singleton.mp hs).2 (Eq.symm ho)
  | forget => exact herase fun ho => (List.forall_mem_singleton.mp hs).1 (Eq.symm ho)

theorem pending_fire (m : Multiplexer δ) (id : StreamId) (w : Watch δ) :
    (m.fire id w).pending = m.pending := by
  unfold fire
  split <;> rfl

/-- What is looked at when a cycle begins stays just if it is ready. -/
theorem mem_pending_probe :
    id ∈ (m.probe available).2.pending ↔ id ∈ m.pending ∧ m.isReady available id = true := by
  change ((m.pending.filter fun id _ => m.isReady available id).get? id).isSome = true ↔ _
  rw [Table.get?_filter, Table.mem_iff]
  cases m.pending.get? id with
  | none => simp
  | some _ => cases m.isReady available id <;> simp

theorem mem_probe_iff :
    id ∈ (m.probe available).1 ↔ id ∈ m.pending ∧ m.isReady available id = true :=
  Table.mem_keys.trans mem_pending_probe

/-- A stream to which a call is owed stays to be looked at. -/
def Keeps (earlier log : List (Incident δ)) (id : StreamId) (m : Multiplexer δ) : Prop :=
  Owed earlier log id → id ∈ m.pending

namespace Keeps

theorem perform (h : Keeps earlier log id m) (c : Call δ) :
    Keeps earlier (log ++ [m.incident c]) id (m.perform c) := by
  intro howed
  obtain ⟨hback, hspares⟩ := howed.of_append
    (List.forall_mem_singleton.mpr (not_fires_incident m c id))
  exact mem_pending_perform (h hback) (List.forall_mem_singleton.mp hspares).1

/-- **A call of the handler keeps what is owed,** its own stream included. -/
theorem dispatch (h : Keeps earlier log id m) (hr : Recorded (earlier ++ log) m) (s : σ)
    (other : StreamId) (flags : Flags) :
    Keeps earlier (log ++ dispatched handler s m other flags) id
      (dispatch handler s m other flags).2.2 := by
  rcases dispatch_cases handler s m other flags with ⟨he, hd⟩ | ⟨w, hw, harmed, he, hd⟩
  · rwa [he, hd, List.append_nil]
  rw [he, hd]
  intro howed
  have hsilent := fun x hx => not_fires_reaction (m.fire other w) (handler s flags w.data).calls
    other (handler s flags w.data).action x hx id
  rw [List.append_cons] at howed
  obtain ⟨hfired, hspares⟩ := howed.of_append hsilent
  obtain ⟨hcalls, haction⟩ := List.forall_mem_append.mp hspares
  by_cases ho : other = id
  · subst ho
    -- The watch that fired is the one that still stands, so it is a level watch.
    have hlevel : w.trigger = .level := by
      obtain ⟨data, hunder⟩ := hfired.under
      rw [← List.append_assoc] at hunder
      have hlasts : ¬ (Incident.fired other flags w.data).Ends other := id
      obtain ⟨w₀, hbefore, hafter⟩ := (under_concat hlasts).mp hunder
      have hsame : w = w₀ := Option.some.inj (hw.symm.trans ((hr.under_iff other w₀).mpr hbefore))
      rw [hsame, ← Watch.trigger_after w₀, ← hafter]
    cases ha : (handler s flags w.data).action with
    | «continue» =>
      dsimp only
      unfold apply
      dsimp only
      rw [if_pos hlevel, Table.mem_iff, Table.get?_insert_self]
      rfl
    | disable =>
      rw [ha] at haction
      exact absurd rfl (List.forall_mem_singleton.mp haction).2
    | forget =>
      rw [ha] at haction
      exact absurd rfl (List.forall_mem_singleton.mp haction).1
  · obtain ⟨hback, -⟩ := hfired.of_append (List.forall_mem_singleton.mpr ho)
    refine mem_pending_apply (mem_pending_foldl ?_ fun x hx => (hcalls x hx).1) w.trigger haction
    rw [pending_fire]
    exact h hback

theorem dispatchAll (h : Keeps earlier log id m) (hr : Recorded (earlier ++ log) m) (s : σ)
    (es : List (StreamId × Flags)) :
    Keeps earlier (log ++ allDispatched handler es s m) id (dispatchAll handler es s m).2.2 := by
  induction es generalizing log s m with
  | nil => rwa [allDispatched, List.append_nil]
  | cons e es ih =>
    unfold allDispatched Multiplexer.dispatchAll
    split
    · rwa [List.append_nil]
    · rw [← List.append_assoc]
      refine ih (h.dispatch hr s e.1 e.2) ?_ _
      rw [← List.append_assoc]
      exact recorded_dispatch hr s e.1 e.2

/-- A cycle drops no stream that has something to read. -/
theorem probe (h : Keeps earlier log id m) (hr : Recorded (earlier ++ log) m)
    (ha : Owed earlier log id → available id = true) :
    Keeps earlier log id (m.probe available).2 := by
  intro howed
  obtain ⟨data, hunder⟩ := howed.under
  have hw := (hr.under_iff id _).mpr hunder
  refine mem_pending_probe.mpr ⟨h howed, ?_⟩
  simp [isReady, hw, ha howed]

/-- **A use keeps what is owed,** unless a cycle begins with nothing to read. -/
theorem serves (h : Keeps earlier log id m) (hr : Recorded (earlier ++ log) m)
    (hs : Serves handler s m u more s' m')
    (ha : ∀ available wait, u = .poll available wait → Owed earlier log id → available id = true) :
    Keeps earlier (log ++ more) id m' := by
  cases hs with
  | call c => exact h.perform c
  | stopped => rwa [List.append_nil]
  | failed hs available cause =>
    rw [List.append_nil]
    exact h.probe hr (ha available _ rfl)
  | cycle hs available events horder =>
    exact (h.probe hr (ha available _ rfl)).dispatchAll (recorded_probe hr available) s _

theorem runs (h : Keeps earlier log id m) (hr : Recorded (earlier ++ log) m)
    (hs : Runs handler s m steps s' m')
    (ha : ∀ available wait log, (.poll available wait, log) ∈ steps → available id = true) :
    Keeps earlier (log ++ incidentsOf steps) id m' := by
  induction hs generalizing log with
  | nil s m => rwa [incidentsOf, List.flatMap_nil, List.append_nil]
  | cons first others ih =>
    rw [incidentsOf_cons, ← List.append_assoc]
    refine ih (h.serves hr first ?_) ?_ fun available wait log hin =>
      ha available wait log (List.mem_cons_of_mem _ hin)
    · rintro available wait rfl -
      exact ha available wait _ List.mem_cons_self
    · rw [← List.append_assoc]
      exact first.recorded hr

end Keeps

/-! ## A stream in its turn -/

theorem allDispatched_of_stopped (h : m.stopped = true) (es : List (StreamId × Flags)) (s : σ) :
    allDispatched handler es s m = [] := by
  cases es with
  | nil => rfl
  | cons e es => rw [allDispatched, if_pos h]

theorem allDispatched_cons (h : ¬ m.stopped = true) (e : StreamId × Flags)
    (es : List (StreamId × Flags)) (s : σ) :
    allDispatched handler (e :: es) s m = dispatched handler s m e.1 e.2 ++
      allDispatched handler es (dispatch handler s m e.1 e.2).2.1
        (dispatch handler s m e.1 e.2).2.2 := by
  rw [allDispatched, if_neg h]

theorem dispatchAll_cons_snd (h : ¬ m.stopped = true) (e : StreamId × Flags)
    (es : List (StreamId × Flags)) (s : σ) :
    (dispatchAll handler (e :: es) s m).2 =
      (dispatchAll handler es (dispatch handler s m e.1 e.2).2.1
        (dispatch handler s m e.1 e.2).2.2).2 := by
  rw [dispatchAll, if_neg h]

theorem allDispatched_append (front back : List (StreamId × Flags)) (s : σ) (m : Multiplexer δ) :
    allDispatched handler (front ++ back) s m = allDispatched handler front s m ++
      allDispatched handler back (dispatchAll handler front s m).2.1
        (dispatchAll handler front s m).2.2 := by
  induction front generalizing s m with
  | nil => rfl
  | cons e front ih =>
    by_cases hs : m.stopped = true
    · rw [allDispatched_of_stopped hs, allDispatched_of_stopped hs, dispatchAll, if_pos hs,
        allDispatched_of_stopped hs]
      rfl
    · rw [List.cons_append, allDispatched_cons hs, ih, allDispatched_cons hs,
        dispatchAll_cons_snd hs, List.append_assoc]

/-- Calls disarm no watch. -/
theorem not_disarms_incidents (m : Multiplexer δ) (calls : List (Call δ)) :
    ∀ x ∈ m.incidents calls, ∀ trigger, ¬ x.Disarms id trigger := by
  induction calls generalizing m with
  | nil => exact List.forall_mem_nil _
  | cons c calls ih =>
    refine List.forall_mem_cons.mpr ⟨fun trigger => ?_, ih _⟩
    cases c with
    | watch other registers data trigger =>
      unfold incident
      dsimp only
      split <;> exact fun h => h
    | _ => exact fun h => h

/-- What happens for other streams disarms no watch. -/
theorem not_disarms_allDispatched {es : List (StreamId × Flags)} (h : id ∉ es.map (·.1)) (s : σ)
    (m : Multiplexer δ) :
    ∀ x ∈ allDispatched handler es s m, ∀ trigger, ¬ x.Disarms id trigger := by
  induction es generalizing s m with
  | nil => exact List.forall_mem_nil _
  | cons e es ih =>
    rw [List.map_cons, List.mem_cons, not_or] at h
    obtain ⟨hother, hes⟩ := h
    by_cases hs : m.stopped = true
    · rw [allDispatched_of_stopped hs]
      exact List.forall_mem_nil _
    rw [allDispatched_cons hs]
    refine List.forall_mem_append.mpr ⟨?_, ih hes _ _⟩
    rcases dispatch_cases handler s m e.1 e.2 with ⟨-, hd⟩ | ⟨w, -, -, -, hd⟩
    · rw [hd]
      exact List.forall_mem_nil _
    · rw [hd]
      refine List.forall_mem_cons.mpr ⟨fun _ hdis => hother (Eq.symm hdis.1),
        List.forall_mem_append.mpr ⟨not_disarms_incidents _ _, ?_⟩⟩
      cases (handler s e.2 w.data).action with
      | disable => exact List.forall_mem_singleton.mpr fun _ hdis => hother (Eq.symm hdis)
      | _ => simp [Action.incidents, Incident.Disarms]

/-- **What a cycle tells of an armed watch calls the handler,** if nothing before has ended the
watch. -/
theorem fires_in_turn (hr : Recorded log m) (hw : m.watched.get? id = some w)
    (harmed : w.armed = true) {front : List (StreamId × Flags)} (hfront : id ∉ front.map (·.1))
    (hends : ∀ x ∈ allDispatched handler front s m, ¬ x.Ends id) (flags : Flags)
    (back : List (StreamId × Flags)) :
    id ∈ (allDispatched handler (front ++ (id, flags) :: back) s m).filterMap Incident.fired? := by
  have hlater : Recorded (log ++ allDispatched handler front s m)
      (dispatchAll handler front s m).2.2 := recorded_dispatchAll hr s front
  -- When its turn comes the stream is still under the same watch, and so nothing is stopped.
  have hstill : (dispatchAll handler front s m).2.2.watched.get? id = some w := by
    rw [hlater.under_iff, under_append_of_aside fun x hx =>
      ⟨hends x hx, not_disarms_allDispatched hfront s m x hx⟩]
    exact (hr.under_iff id w).mp hw
  have hgoing : ¬ (dispatchAll handler front s m).2.2.stopped = true := by
    intro hs
    rw [hlater.bare hs] at hstill
    cases hstill
  rw [allDispatched_append, allDispatched_cons hgoing]
  refine List.mem_filterMap.mpr ⟨.fired id flags w.data, ?_, rfl⟩
  refine List.mem_append_right _ (List.mem_append_left _ ?_)
  unfold dispatched
  dsimp only
  rw [hstill]
  dsimp only
  rw [if_pos harmed]
  exact List.mem_cons_self

/-- Every level watch that fires again is announced. -/
theorem exists_announced {order : List StreamId} (h : id ∈ order) :
    ∃ flags, (id, flags) ∈ announcements events order := by
  unfold announcements
  by_cases htold : ((events.filter fun e => !e.2.isEmpty).any fun e => e.1 == id) = true
  · obtain ⟨e, he, hid⟩ := List.any_eq_true.mp htold
    obtain rfl : e.1 = id := beq_iff_eq.mp hid
    exact ⟨e.2, List.mem_append_left _ he⟩
  · refine ⟨.readable, List.mem_append_right _ (List.mem_map.mpr
      ⟨id, List.mem_filter.mpr ⟨h, ?_⟩, rfl⟩)⟩
    exact congrArg not (Bool.eq_false_iff.mpr htold)

/-- What is announced is an event, or a level watch that fires again. -/
theorem mem_announced {order : List StreamId} (h : id ∈ (announcements events order).map (·.1)) :
    (∃ flags, (id, flags) ∈ events ∧ flags.isEmpty = false) ∨ id ∈ order := by
  obtain ⟨⟨other, flags⟩, he, rfl⟩ := List.mem_map.mp h
  rcases List.mem_append.mp he with htold | hready
  · obtain ⟨hin, hflags⟩ := List.mem_filter.mp htold
    exact .inl ⟨flags, hin, by simpa using hflags⟩
  · obtain ⟨other', hin, he⟩ := List.mem_map.mp hready
    cases he
    exact .inr (List.mem_filter.mp hin).1

/-! ## Runs -/

/-- A stream is under an armed level watch, the handler has been called for it since the watch was
set, and there was something to read whenever a cycle has begun since then. What the handler decided
is to go on, since it would be under no armed watch otherwise. -/
inductive Unread (id : StreamId) (m : Multiplexer δ) : List (Use δ × List (Incident δ)) → Prop
  | intro {before since : List (Use δ × List (Incident δ))} {u : Use δ}
    {past rest : List (Incident δ)} {flags : Flags} {data : δ} {w : Watch δ}
    (watched : m.watched.get? id = some w) (level : w.trigger = .level) (armed : w.armed = true)
    (same : ∀ x ∈ rest ++ incidentsOf since, ¬ x.Watches id)
    (unread : ∀ available wait log, (.poll available wait, log) ∈ since → available id = true) :
    Unread id m (before ++ (u, past ++ .fired id flags data :: rest) :: since)

/-- What is under the watch that fired is owed a call. -/
theorem owed_of_same {past rest : List (Incident δ)} {data : δ}
    (hr : Recorded (earlier ++ (past ++ .fired id flags data :: rest)) m)
    (hw : m.watched.get? id = some w) (hlevel : w.trigger = .level) (harmed : w.armed = true)
    (hsame : ∀ x ∈ rest, ¬ x.Watches id) :
    Owed earlier (past ++ .fired id flags data :: rest) id := by
  rw [← List.append_assoc] at hr
  have hnow := (hr.under_iff id w).mp hw
  obtain ⟨trigger, hthen⟩ := hr.inOrder (earlier ++ past) _ rest rfl
  have htrigger : trigger = .level := by
    obtain ⟨before, since, he, hends, -⟩ := hthen
    rw [he, List.append_assoc, List.cons_append] at hnow
    rw [← hlevel]
    refine (hnow.trigger_eq (List.forall_mem_append.mpr ⟨fun y hy hwatch => hends y hy hwatch.ends,
      List.forall_mem_cons.mpr ⟨fun h => h, hsame⟩⟩)).symm
  refine ⟨past, flags, data, rest, rfl, htrigger ▸ hthen, fun x hx => ?_⟩
  obtain ⟨between, later, rfl⟩ := List.append_of_mem hx
  rw [← List.cons_append, ← List.append_assoc] at hnow
  obtain ⟨hends, hdisarms⟩ := hnow.untouched (hsame x hx) fun y hy => hsame y (by simp [hy])
  exact ⟨hends, hlevel ▸ hdisarms harmed⟩

theorem Unread.mem_pending (h : Unread id m steps) (hs : Runs handler s {} steps s' m) :
    id ∈ m.pending := by
  obtain @⟨before, since, u, past, rest, flags, data, w, hw, hlevel, harmed, hsame, hunread⟩ := h
  obtain ⟨s₁, m₁, hbefore, hrest⟩ := hs.split
  cases hrest with
  | cons first others =>
    have hr₁ := hbefore.recorded recorded_new
    have hr₂ := first.recorded hr₁
    rw [List.nil_append] at hr₁ hr₂
    have hkeeps : Keeps (incidentsOf before) [] id m₁ := fun howed => absurd howed not_owed_nil
    have hkeeps' := hkeeps.serves (by rwa [List.append_nil]) first
      fun _ _ _ howed => absurd howed not_owed_nil
    rw [List.nil_append] at hkeeps'
    refine hkeeps'.runs hr₂ others hunread ?_
    have hr := others.recorded hr₂
    rw [List.append_assoc, List.append_assoc, List.cons_append] at hr
    rw [List.append_assoc, List.cons_append]
    exact owed_of_same hr hw hlevel harmed hsame

/-- What happens in a cycle that comes to a stream in its turn, and calls the handler for it exactly
once if nothing that happens for those before has ended its watch. To disable the watch is left to
the call for the stream itself. -/
inductive TakesTurn (handler : Handler σ δ) (s : σ) (m : Multiplexer δ)
    (available : StreamId → Bool) (events : List (StreamId × Flags)) (id : StreamId) :
    List (Incident δ) → Prop
  | intro {order : List StreamId} {front back : List (StreamId × Flags)} {flags : Flags}
    (looked : order.Perm (m.probe available).1)
    (told : announcements events order = front ++ (id, flags) :: back)
    (first : id ∉ front.map (·.1))
    (once : (∀ x ∈ allDispatched handler front s (m.probe available).2, ¬ x.Ends id) →
      ((allDispatched handler (announcements events order) s
        (m.probe available).2).filterMap Incident.fired?).count id = 1) :
    TakesTurn handler s m available events id
      (allDispatched handler (announcements events order) s (m.probe available).2)

theorem takesTurn_of_mem {order : List StreamId} (hr : Recorded log m)
    (hw : m.watched.get? id = some w) (harmed : w.armed = true) (hid : id ∈ order)
    (he : (events.map (·.1)).Nodup) (ho : order.Perm (m.probe available).1) :
    TakesTurn handler s m available events id
      (allDispatched handler (announcements events order) s (m.probe available).2) := by
  obtain ⟨flags, hin⟩ := exists_announced hid
  have hnodup := nodup_announcements he (ho.nodup_iff.mpr (Table.keys_nodup _))
  obtain ⟨front, back, hes⟩ := List.append_of_mem hin
  have hfront : id ∉ front.map (·.1) := by
    rw [hes, List.map_append, List.map_cons] at hnodup
    exact fun h => (List.nodup_append.mp hnodup).2.2 id h id List.mem_cons_self rfl
  refine .intro ho hes hfront fun hends => List.count_eq_one_of_mem ?_ ?_
  · exact hnodup.sublist (fired_allDispatched _ s _).1
  · rw [hes]
    exact fires_in_turn (recorded_probe hr available) hw harmed hfront hends flags back

/-- **A level watch fires in every cycle while there is something to read, and without it only on an
event.** In every run, whatever the handler does and whatever the primitive reports, at most one
event of a stream in a cycle: if there was something to read whenever a cycle began since the handler
was last called for a stream under a level watch and decided to go on, a cycle that begins with
something to read comes to the stream, and calls the handler for it exactly once unless a call before
has ended the watch. A cycle that begins with nothing to read calls the handler for it only on an
event. -/
theorem runs_levelled (hs : Runs handler s {} steps s' m) (id : StreamId) :
    (Unread id m steps → ∀ available events log s'' m'',
      Serves handler s' m (.poll available (.ok events)) log s'' m'' → available id = true →
        (events.map (·.1)).Nodup → TakesTurn handler s' m available events id log) ∧
    ∀ available wait log s'' m'', Serves handler s' m (.poll available wait) log s'' m'' →
      available id = false → id ∈ log.filterMap Incident.fired? →
        ∃ events flags, wait = .ok events ∧ (id, flags) ∈ events ∧ flags.isEmpty = false := by
  have hr := hs.recorded recorded_new
  constructor
  · intro hunread available events log s'' m'' hpoll havailable hdistinct
    have hpending := hunread.mem_pending hs
    obtain @⟨_, _, _, _, _, _, _, w, hw, hlevel, harmed, _, _⟩ := hunread
    cases hpoll with
    | stopped hstop =>
      rw [hr.bare hstop] at hw
      cases hw
    | cycle _ _ _ horder =>
      have hready : id ∈ (m.probe available).1 :=
        mem_probe_iff.mpr ⟨hpending, by simp [isReady, hw, hlevel, harmed, havailable]⟩
      exact takesTurn_of_mem hr hw harmed (horder.mem_iff.mpr hready) hdistinct horder
  · intro available wait log s'' m'' hpoll havailable hfires
    cases hpoll with
    | stopped => cases hfires
    | failed => cases hfires
    | cycle _ _ events horder =>
      have hin := (fired_allDispatched _ _ _).1.subset hfires
      rcases mem_announced hin with ⟨flags, hevent, hflags⟩ | hready
      · exact ⟨events, flags, rfl, hevent, hflags⟩
      · have hisReady := (mem_probe_iff.mp (horder.mem_iff.mp hready)).2
        unfold isReady at hisReady
        rw [havailable] at hisReady
        split at hisReady <;> simp at hisReady

/-- A handler that leaves what there is to read and goes on. -/
def readsNothing : Handler Nat String := fun s _ _ =>
  { state := s + 1, calls := [], action := .continue }

/-- A stream under a level watch, which is reported once and left unread, and a cycle that is
interrupted. -/
def leftUnread : List (Use String) :=
  [.call (.watch 7 (.ok ()) "unread" .level), .poll (fun _ => false) (.ok [(7, .readable)]),
    .poll (fun _ => true) (.error .interrupted)]

theorem unread_leftUnread :
    Unread 7 (run readsNothing 0 {} leftUnread).2 (stepsOf readsNothing 0 {} leftUnread) :=
  @Unread.intro String 7 (run readsNothing 0 {} leftUnread).2
    [(.call (.watch 7 (.ok ()) "unread" .level), [.watched 7 "unread" .level])]
    [(.poll (fun _ => true) (.error .interrupted), [])]
    (.poll (fun _ => false) (.ok [(7, .readable)])) [] [] .readable "unread"
    ⟨"unread", .level, true⟩ rfl rfl rfl nofun fun available wait log hin => by
      obtain ⟨hu, -⟩ := Prod.mk.inj (List.mem_singleton.mp hin)
      obtain ⟨rfl, -⟩ := Use.poll.inj hu
      rfl

theorem runs_levelled_leftUnread :
    served readsNothing 1 (run readsNothing 0 {} leftUnread).2 (.poll (fun _ => true) (.ok [])) =
        [.fired 7 .readable "unread"] ∧
      TakesTurn readsNothing 1 (run readsNothing 0 {} leftUnread).2 (fun _ => true) [] 7
        [.fired 7 .readable "unread"] :=
  ⟨rfl, (runs_levelled (runs_run readsNothing 0 {} leftUnread).1 7).1 unread_leftUnread _ [] _ _ _
    (serves_serve readsNothing _ _ (.poll (fun _ => true) (.ok []))) rfl List.nodup_nil⟩

end Multiplexer

end MessageBroker.Net
