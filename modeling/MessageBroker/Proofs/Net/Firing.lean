import MessageBroker.Proofs.Net.Incidents
import Mathlib.Data.List.Nodup

/-!
# When a multiplexer calls its handler

A multiplexer is used from outside by cycles and by calls, and from inside by its handler, which
watches, forgets and stops while it runs and decides about the watch it was called for. The history
of a use lists what came of all this, in the order in which it happened.

Headlines:
* **`Net.Multiplexer.recorded_serve`**: a multiplexer stays as its history tells, whatever use is
  made of it.
* **`Net.Multiplexer.run_disciplined`**: in every run the handler is called for a stream under an
  armed watch only, with the data of this watch, and not once more than its watch, what it decides
  and what is forgotten or stopped allow.
-/

namespace MessageBroker.Net

variable {σ δ : Type}

/-- What is done to a multiplexer from outside. -/
inductive Use (δ : Type)
  | call (c : Call δ)
  /-- A cycle, in which waiting for the primitive gives what is told. -/
  | poll (available : StreamId → Bool) (wait : Except IoFailure (List (StreamId × Flags)))

/-- The primitive reports at most one event of a stream. -/
def Use.Distinct : Use δ → Prop
  | .poll _ (.ok events) => (events.map (·.1)).Nodup
  | _ => True

/-- What a decision about a watch comes to. -/
def Action.incidents (id : StreamId) : Action → List (Incident δ)
  | .continue => []
  | .disable => [.disabled id]
  | .forget => [.forgotten id]

/-- What the handler was told. -/
def Incident.told? : Incident δ → Option (Flags × δ)
  | .fired _ flags data => some (flags, data)
  | _ => none

/-- The stream that the handler was called for. -/
def Incident.fired? : Incident δ → Option StreamId
  | .fired id _ _ => some id
  | _ => none

/-- The handler, which notes what it is told. -/
def Handler.noting (handler : Handler σ δ) : Handler (σ × List (Flags × δ)) δ := fun s flags data =>
  let r := handler s.1 flags data
  { state := (r.state, s.2 ++ [(flags, data)]), calls := r.calls, action := r.action }

namespace Multiplexer

/-! ## Histories -/

/-- What a call comes to. -/
def incident (m : Multiplexer δ) : Call δ → Incident δ
  | .watch id registers data trigger =>
    match m.watch id registers data trigger with
    | .ok _ => .watched id data trigger
    | .error cause => .refused id cause
  | .forget id => .forgotten id
  | .stop => .stopped

/-- What calls come to, one after the other. -/
def incidents (m : Multiplexer δ) : List (Call δ) → List (Incident δ)
  | [] => []
  | c :: calls => m.incident c :: (m.perform c).incidents calls

/-- The multiplexer as the handler finds it when it is called for a watch. -/
def fire (m : Multiplexer δ) (id : StreamId) (w : Watch δ) : Multiplexer δ :=
  if w.trigger = .oneShot then m.disarm id else m

/-- What happens for a stream that has something to tell. -/
def dispatched (handler : Handler σ δ) (s : σ) (m : Multiplexer δ) (id : StreamId) (flags : Flags) :
    List (Incident δ) :=
  match m.watched.get? id with
  | none => []
  | some w =>
    if w.armed then
      let r := handler s flags w.data
      .fired id flags w.data :: ((m.fire id w).incidents r.calls ++ r.action.incidents id)
    else []

/-- What happens for streams that have something to tell, one after the other. -/
def allDispatched (handler : Handler σ δ) :
    List (StreamId × Flags) → σ → Multiplexer δ → List (Incident δ)
  | [], _, _ => []
  | e :: es, s, m =>
    if m.stopped then []
    else
      let (_, s', m') := dispatch handler s m e.1 e.2
      dispatched handler s m e.1 e.2 ++ allDispatched handler es s' m'

/-- What happens in a cycle. -/
def polled (handler : Handler σ δ) (available : StreamId → Bool) :
    Except IoFailure (List (StreamId × Flags)) → σ → Multiplexer δ → List (Incident δ)
  | .error _, _, _ => []
  | .ok events, s, m =>
    if m.stopped then []
    else allDispatched handler (announcements events (m.probe available).1) s (m.probe available).2

/-- Makes a use of a multiplexer. -/
def serve (handler : Handler σ δ) (s : σ) (m : Multiplexer δ) : Use δ → σ × Multiplexer δ
  | .call c => (s, m.perform c)
  | .poll available wait => (poll handler available wait s m).2

/-- What happens in a use of a multiplexer. -/
def served (handler : Handler σ δ) (s : σ) (m : Multiplexer δ) : Use δ → List (Incident δ)
  | .call c => [m.incident c]
  | .poll available wait => polled handler available wait s m

/-- Makes use after use of a multiplexer. -/
def run (handler : Handler σ δ) (s : σ) (m : Multiplexer δ) (uses : List (Use δ)) :
    σ × Multiplexer δ :=
  uses.foldl (fun x u => serve handler x.1 x.2 u) (s, m)

/-- What happens in use after use of a multiplexer. -/
def history (handler : Handler σ δ) (s : σ) (m : Multiplexer δ) : List (Use δ) → List (Incident δ)
  | [] => []
  | u :: uses =>
    served handler s m u ++ history handler (serve handler s m u).1 (serve handler s m u).2 uses

variable {handler : Handler σ δ} {s : σ} {m m' : Multiplexer δ} {log : List (Incident δ)}
  {id : StreamId} {flags : Flags}

/-- What becomes of a stream that has something to tell. -/
theorem dispatch_cases (handler : Handler σ δ) (s : σ) (m : Multiplexer δ) (id : StreamId)
    (flags : Flags) :
    (dispatch handler s m id flags = (false, s, m) ∧ dispatched handler s m id flags = []) ∨
      ∃ w, m.watched.get? id = some w ∧ w.armed = true ∧
        dispatch handler s m id flags = (true, (handler s flags w.data).state,
          ((handler s flags w.data).calls.foldl perform (m.fire id w)).apply id w.trigger
            (handler s flags w.data).action) ∧
        dispatched handler s m id flags = .fired id flags w.data ::
          ((m.fire id w).incidents (handler s flags w.data).calls ++
            (handler s flags w.data).action.incidents id) := by
  unfold dispatch dispatched
  cases hw : m.watched.get? id with
  | none => exact .inl ⟨rfl, rfl⟩
  | some w =>
    by_cases harmed : w.armed = true
    · dsimp only
      rw [if_pos harmed, if_pos harmed]
      exact .inr ⟨w, rfl, harmed, rfl, rfl⟩
    · dsimp only
      rw [if_neg harmed, if_neg harmed]
      exact .inl ⟨rfl, rfl⟩

/-! ## A multiplexer is as its history tells -/

theorem recorded_perform (h : Recorded log m) (c : Call δ) :
    Recorded (log ++ [m.incident c]) (m.perform c) := by
  cases c with
  | watch id registers data trigger =>
    cases hw : m.watch id registers data trigger with
    | ok m' => simpa only [incident, perform, hw] using h.watch hw
    | error cause => simpa only [incident, perform, hw] using h.refuse hw
  | forget id => exact h.forget id
  | stop => exact h.stop

theorem recorded_foldl (h : Recorded log m) (calls : List (Call δ)) :
    Recorded (log ++ m.incidents calls) (calls.foldl perform m) := by
  induction calls generalizing log m with
  | nil => rwa [incidents, List.append_nil]
  | cons c calls ih =>
    rw [incidents, List.append_cons]
    exact ih (recorded_perform h c)

theorem recorded_apply (h : Recorded log m) (id : StreamId) (trigger : Trigger) (a : Action) :
    Recorded (log ++ a.incidents id) (m.apply id trigger a) := by
  cases a with
  | «continue» =>
    rw [Action.incidents, List.append_nil]
    exact h.congr (by unfold apply; dsimp only; split <;> rfl)
      (by unfold apply; dsimp only; split <;> rfl)
  | disable => exact (h.disable id).congr rfl rfl
  | forget => exact h.forget id

theorem recorded_dispatch (h : Recorded log m) (s : σ) (id : StreamId) (flags : Flags) :
    Recorded (log ++ dispatched handler s m id flags) (dispatch handler s m id flags).2.2 := by
  rcases dispatch_cases handler s m id flags with ⟨he, hd⟩ | ⟨w, hw, harmed, he, hd⟩
  · rwa [he, hd, List.append_nil]
  · rw [he, hd, List.append_cons, ← List.append_assoc]
    exact recorded_apply (recorded_foldl (h.fire hw harmed) _) id w.trigger _

theorem recorded_dispatchAll (h : Recorded log m) (s : σ) (es : List (StreamId × Flags)) :
    Recorded (log ++ allDispatched handler es s m) (dispatchAll handler es s m).2.2 := by
  induction es generalizing log s m with
  | nil => rwa [allDispatched, List.append_nil]
  | cons e es ih =>
    unfold allDispatched dispatchAll
    split
    · rwa [List.append_nil]
    · rw [← List.append_assoc]
      exact ih (recorded_dispatch h s e.1 e.2) _

theorem recorded_poll (h : Recorded log m) (s : σ) (available : StreamId → Bool)
    (wait : Except IoFailure (List (StreamId × Flags))) :
    Recorded (log ++ polled handler available wait s m) (poll handler available wait s m).2.2 := by
  have hprobe : Recorded log (m.probe available).2 := h.congr rfl rfl
  unfold poll
  cases wait with
  | error cause =>
    rw [polled, List.append_nil]
    split
    · exact h
    · cases cause <;> exact hprobe
  | ok events =>
    rw [polled]
    split
    · rwa [List.append_nil]
    · exact recorded_dispatchAll hprobe s _

/-- **A multiplexer stays as its history tells.** -/
theorem recorded_serve (h : Recorded log m) (s : σ) (u : Use δ) :
    Recorded (log ++ served handler s m u) (serve handler s m u).2 := by
  cases u with
  | call c => exact recorded_perform h c
  | poll available wait => exact recorded_poll h s available wait

theorem recorded_run (h : Recorded log m) (s : σ) (uses : List (Use δ)) :
    Recorded (log ++ history handler s m uses) (run handler s m uses).2 := by
  induction uses generalizing log s m with
  | nil => rwa [history, List.append_nil]
  | cons u uses ih =>
    rw [history, ← List.append_assoc]
    exact ih (recorded_serve h s u) _

/-- What no incident of a use concerns is under the same watch after it. -/
theorem watched_serve (h : Recorded log m) (s : σ) (u : Use δ)
    (haside : ∀ x ∈ served handler s m u, ¬ x.Ends id ∧ ∀ trigger, ¬ x.Disarms id trigger) :
    (serve handler s m u).2.watched.get? id = m.watched.get? id := by
  have hunder : ∀ w, Under (log ++ served handler s m u) id w ↔ Under log id w := fun w =>
    under_append_of_aside haside
  refine Option.ext fun w => ?_
  rw [(recorded_serve h s u).under_iff, hunder, ← h.under_iff]

/-! ## How often the handler is called -/

theorem not_fires_incident (m : Multiplexer δ) (c : Call δ) (other : StreamId) :
    ¬ (m.incident c).Fires other := by
  cases c with
  | watch id registers data trigger =>
    unfold incident
    dsimp only
    split <;> exact fun h => h
  | forget id => exact fun h => h
  | stop => exact fun h => h

/-- What the handler does and decides does not call it again. -/
theorem not_fires_reaction (m : Multiplexer δ) (calls : List (Call δ)) (id : StreamId) (a : Action) :
    ∀ x ∈ m.incidents calls ++ a.incidents id, ∀ other, ¬ x.Fires other := by
  refine List.forall_mem_append.mpr ⟨?_, ?_⟩
  · induction calls generalizing m with
    | nil => exact List.forall_mem_nil _
    | cons c calls ih => exact List.forall_mem_cons.mpr ⟨not_fires_incident m c, ih _⟩
  · cases a with
    | «continue» => exact List.forall_mem_nil _
    | disable => exact List.forall_mem_singleton.mpr fun _ h => h
    | forget => exact List.forall_mem_singleton.mpr fun _ h => h

theorem fired?_eq_none {x : Incident δ} (h : ∀ id, ¬ x.Fires id) : x.fired? = none := by
  cases x with
  | fired id flags data => exact absurd rfl (h id)
  | _ => rfl

theorem told?_eq_none {x : Incident δ} (h : ∀ id, ¬ x.Fires id) : x.told? = none := by
  cases x with
  | fired id flags data => exact absurd rfl (h id)
  | _ => rfl

theorem fired_dispatched (s : σ) (m : Multiplexer δ) (id : StreamId) (flags : Flags) :
    (dispatched handler s m id flags).filterMap Incident.fired? =
      if (dispatch handler s m id flags).1 then [id] else [] := by
  rcases dispatch_cases handler s m id flags with ⟨he, hd⟩ | ⟨w, -, -, he, hd⟩
  · rw [he, hd]
    rfl
  · have hrest := List.filterMap_eq_nil_iff.mpr fun x hx =>
      fired?_eq_none (not_fires_reaction (m.fire id w) (handler s flags w.data).calls id
        (handler s flags w.data).action x hx)
    rw [he, hd]
    exact congrArg (id :: ·) hrest

/-- The handler is called for a stream as often as it is announced at most, and the calls are
counted. -/
theorem fired_allDispatched (es : List (StreamId × Flags)) (s : σ) (m : Multiplexer δ) :
    ((allDispatched handler es s m).filterMap Incident.fired?).Sublist (es.map (·.1)) ∧
      (dispatchAll handler es s m).1 =
        ((allDispatched handler es s m).filterMap Incident.fired?).length := by
  induction es generalizing s m with
  | nil => exact ⟨.slnil, rfl⟩
  | cons e es ih =>
    unfold allDispatched dispatchAll
    split
    · exact ⟨List.nil_sublist _, rfl⟩
    · dsimp only
      obtain ⟨hsub, hcount⟩ := ih (dispatch handler s m e.1 e.2).2.1 (dispatch handler s m e.1 e.2).2.2
      rw [List.filterMap_append, fired_dispatched, hcount]
      split
      · exact ⟨hsub.cons_cons e.1, (List.length_cons ..).symm⟩
      · exact ⟨hsub.cons e.1, rfl⟩

/-- A stream is announced once in a cycle. -/
theorem nodup_announcements {events : List (StreamId × Flags)} {ready : List StreamId}
    (he : (events.map (·.1)).Nodup) (hr : ready.Nodup) :
    ((announcements events ready).map (·.1)).Nodup := by
  unfold announcements
  rw [List.map_append, List.map_map]
  refine (he.sublist (List.filter_sublist.map _)).append ?_ fun id htold hready => ?_
  · exact (hr.filter _).map fun _ _ h => h
  · obtain ⟨e, hmem, rfl⟩ := List.mem_map.mp htold
    obtain ⟨other, hother, ho⟩ := List.mem_map.mp hready
    obtain rfl : other = e.1 := ho
    have hnot := (List.mem_filter.mp hother).2
    rw [List.any_eq_true.mpr ⟨e, hmem, by simp⟩] at hnot
    exact absurd hnot (by simp)

/-- In a use of a multiplexer the handler is called for a stream once at most. -/
theorem nodup_served {u : Use δ} (h : u.Distinct) (s : σ) (m : Multiplexer δ) :
    ((served handler s m u).filterMap Incident.fired?).Nodup := by
  cases u with
  | call c =>
    have hnone := fired?_eq_none (not_fires_incident m c)
    rw [served, List.filterMap_cons, hnone]
    exact List.nodup_nil
  | poll available wait =>
    cases wait with
    | error cause => exact List.nodup_nil
    | ok events =>
      rw [served, polled]
      split
      · exact List.nodup_nil
      · exact (nodup_announcements h (Table.keys_nodup _)).sublist (fired_allDispatched _ s _).1

/-- **A cycle gives the number of times that it called the handler,** and has not called it if it
failed. -/
theorem poll_eq_count (s : σ) (m : Multiplexer δ) (available : StreamId → Bool)
    (wait : Except IoFailure (List (StreamId × Flags))) :
    match (poll handler available wait s m).1 with
    | .ok n => n = ((polled handler available wait s m).filterMap Incident.fired?).length
    | .error _ => polled handler available wait s m = [] := by
  by_cases hs : m.stopped = true
  · rw [poll, if_pos hs]
    cases wait with
    | error cause => rfl
    | ok events =>
      rw [polled, if_pos hs]
      rfl
  · rw [poll, if_neg hs]
    cases wait with
    | error cause => cases cause <;> rfl
    | ok events =>
      rw [polled, if_neg hs]
      exact (fired_allDispatched _ s _).2

/-! ## What the handler is told -/

section Noting

variable {notes : List (Flags × δ)}

theorem dispatch_noting (s : σ) (m : Multiplexer δ) (id : StreamId) (flags : Flags) :
    dispatch handler.noting (s, notes) m id flags =
      ((dispatch handler s m id flags).1, ((dispatch handler s m id flags).2.1,
        notes ++ (dispatched handler s m id flags).filterMap Incident.told?),
        (dispatch handler s m id flags).2.2) := by
  unfold dispatch dispatched
  cases m.watched.get? id with
  | none => simp
  | some w =>
    dsimp only
    split
    · have hrest := List.filterMap_eq_nil_iff.mpr fun x hx =>
        told?_eq_none (not_fires_reaction (m.fire id w) (handler s flags w.data).calls id
          (handler s flags w.data).action x hx)
      exact congrArg (fun told => (true, ((handler s flags w.data).state,
        notes ++ (flags, w.data) :: told), _)) hrest.symm
    · simp

theorem dispatchAll_noting (es : List (StreamId × Flags)) (s : σ) (m : Multiplexer δ) :
    dispatchAll handler.noting es (s, notes) m =
      ((dispatchAll handler es s m).1, ((dispatchAll handler es s m).2.1,
        notes ++ (allDispatched handler es s m).filterMap Incident.told?),
        (dispatchAll handler es s m).2.2) := by
  induction es generalizing s m notes with
  | nil => simp [dispatchAll, allDispatched]
  | cons e es ih =>
    unfold dispatchAll allDispatched
    split
    · simp
    · simp only [dispatch_noting, ih, List.filterMap_append, List.append_assoc]

theorem poll_noting (s : σ) (m : Multiplexer δ) (available : StreamId → Bool)
    (wait : Except IoFailure (List (StreamId × Flags))) :
    poll handler.noting available wait (s, notes) m =
      ((poll handler available wait s m).1, ((poll handler available wait s m).2.1,
        notes ++ (polled handler available wait s m).filterMap Incident.told?),
        (poll handler available wait s m).2.2) := by
  unfold poll
  cases wait with
  | error cause =>
    split
    · simp [polled]
    · cases cause <;> simp [polled]
  | ok events =>
    rw [polled]
    split
    · simp
    · simp only [dispatchAll_noting]

theorem serve_noting (s : σ) (m : Multiplexer δ) (u : Use δ) :
    serve handler.noting (s, notes) m u =
      (((serve handler s m u).1,
        notes ++ (served handler s m u).filterMap Incident.told?), (serve handler s m u).2) := by
  cases u with
  | call c =>
    have hnone := told?_eq_none (not_fires_incident m c)
    simp [serve, served, hnone]
  | poll available wait => simp only [serve, served, poll_noting]

/-- The handler is told what the history says, and nothing else. -/
theorem run_noting (s : σ) (m : Multiplexer δ) (uses : List (Use δ)) :
    run handler.noting (s, notes) m uses =
      (((run handler s m uses).1,
        notes ++ (history handler s m uses).filterMap Incident.told?), (run handler s m uses).2) := by
  induction uses generalizing s m notes with
  | nil => simp [run, history]
  | cons u uses ih =>
    have hrun : ∀ {τ : Type} (f : Handler τ δ) (t : τ), run f t m (u :: uses) =
        run f (serve f t m u).1 (serve f t m u).2 uses := fun _ _ => rfl
    rw [hrun, hrun, serve_noting, ih, history, List.filterMap_append, List.append_assoc]

end Noting

/-! ## What is not concerned -/

/-- A call leaves every stream that it does not put under watch or let go as it is. -/
theorem get?_perform (m : Multiplexer δ) (c : Call δ) (h : ¬ (m.incident c).Ends id) :
    (m.perform c).watched.get? id = m.watched.get? id := by
  cases c with
  | watch other registers data trigger =>
    cases hw : m.watch other registers data trigger with
    | ok m' =>
      obtain ⟨-, rfl⟩ := watch_eq_ok hw
      simp only [incident, hw] at h
      simp only [perform, hw]
      exact Table.get?_insert_of_ne _ _ fun he => h (Eq.symm he)
    | error cause => simp only [perform, hw]
  | forget other => exact Table.get?_erase_of_ne _ fun he => h (Eq.symm he)
  | stop => exact absurd trivial h

/-- A decision leaves every stream but its own as it is, and its own if all goes on. -/
theorem get?_apply (m : Multiplexer δ) (trigger : Trigger) {a : Action} {other : StreamId}
    (h : other ≠ id ∨ a = .continue) :
    (m.apply id trigger a).watched.get? other = m.watched.get? other := by
  cases a with
  | «continue» =>
    unfold apply
    dsimp only
    split <;> rfl
  | disable => exact (get?_disarm m id other).trans (if_neg (h.resolve_right nofun))
  | forget => exact Table.get?_erase_of_ne _ (h.resolve_right nofun)

/-! ## Runs -/

/-- A use of a multiplexer is accounted for. -/
structure Accounted (handler : Handler σ δ) (s : σ) (m : Multiplexer δ) (u : Use δ) : Prop where
  /-- The handler is called for a stream once at most. -/
  once : ((served handler s m u).filterMap Incident.fired?).Nodup
  /-- A cycle gives the number of calls of the handler; if it fails there was none. -/
  counted : ∀ available wait, u = .poll available wait →
    match (poll handler available wait s m).1 with
    | .ok n => n = ((served handler s m u).filterMap Incident.fired?).length
    | .error _ => served handler s m u = []
  /-- What no incident concerns is under the same watch after it. -/
  aside : ∀ id, (∀ x ∈ served handler s m u, ¬ x.Ends id ∧ ∀ trigger, ¬ x.Disarms id trigger) →
    (serve handler s m u).2.watched.get? id = m.watched.get? id

/-- **A multiplexer calls its handler as the watches allow,** whatever use is made of it, whatever
the handler does and whatever the primitive reports, at most one event of a stream in a cycle: the
history is in order, it is what the handler is told, and what is under watch can be told from it;
each use calls the handler for a stream once at most and is counted; and what a use, a call or a
decision does not concern stays as it is. -/
theorem run_disciplined (handler : Handler σ δ) (s : σ) (uses : List (Use δ))
    (h : ∀ u ∈ uses, u.Distinct) :
    Disciplined (history handler s {} uses) ∧
      (∀ id w, (run handler s {} uses).2.watched.get? id = some w ↔
        Under (history handler s {} uses) id w) ∧
      run handler.noting (s, []) {} uses = (((run handler s {} uses).1,
        (history handler s {} uses).filterMap Incident.told?), (run handler s {} uses).2) ∧
      (∀ before u later, uses = before ++ u :: later →
        Accounted handler (run handler s {} before).1 (run handler s {} before).2 u) ∧
      (∀ (m : Multiplexer δ) (c : Call δ) (id : StreamId), ¬ (m.incident c).Ends id →
        (m.perform c).watched.get? id = m.watched.get? id) ∧
      ∀ (m : Multiplexer δ) (id : StreamId) (trigger : Trigger) (a : Action) (other : StreamId),
        other ≠ id ∨ a = .continue →
          (m.apply id trigger a).watched.get? other = m.watched.get? other := by
  have hrecorded : ∀ uses, Recorded (history handler s {} uses) (run handler s {} uses).2 :=
    recorded_run recorded_new s
  refine ⟨(hrecorded uses).disciplined, (hrecorded uses).under_iff, run_noting s {} uses, ?_,
    fun m c id => get?_perform m c, fun m id trigger a other => get?_apply m trigger⟩
  intro before u later he
  have hu : u.Distinct := h u (he ▸ List.mem_append_right _ List.mem_cons_self)
  refine ⟨nodup_served hu _ _, ?_, fun id => watched_serve (hrecorded before) _ u⟩
  rintro available wait rfl
  exact poll_eq_count _ _ available wait

/-- A handler that watches a stream anew the first time and lets it go the second time. -/
def rearming : Handler Nat String := fun s _ data =>
  if data = "first" then
    { state := s + 1, calls := [.watch 7 (.ok ()) "second" .oneShot], action := .continue }
  else { state := s + 1, calls := [], action := .forget }

/-- A stream that is watched once, reported thrice, and watched again when all has been stopped. -/
def rearmed : List (Use String) :=
  [.call (.watch 7 (.ok ()) "first" .oneShot),
    .poll (fun _ => false) (.ok [(7, .readable)]),
    .poll (fun _ => false) (.ok [(7, .readable), (8, .readable)]),
    .poll (fun _ => false) (.ok [(7, .readable)]),
    .call .stop, .call (.watch 7 (.ok ()) "third" .edge)]

theorem run_disciplined_rearming : (∀ u ∈ rearmed, u.Distinct) ∧
    history rearming 0 {} rearmed = [.watched 7 "first" .oneShot, .fired 7 .readable "first",
      .watched 7 "second" .oneShot, .fired 7 .readable "second", .forgotten 7, .stopped,
      .refused 7 .stopped] ∧
    Disciplined (history rearming 0 {} rearmed) := by
  have hdistinct : ∀ u ∈ rearmed, u.Distinct := by simp [rearmed, Use.Distinct]
  exact ⟨hdistinct, by decide +kernel, (run_disciplined rearming 0 rearmed hdistinct).1⟩

end Multiplexer

end MessageBroker.Net
