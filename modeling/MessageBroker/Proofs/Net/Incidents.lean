import MessageBroker.Net.Multiplexer
import MessageBroker.Proofs.Histories

/-!
# What has happened to a multiplexer

Everything that happens to a multiplexer is an incident: a stream is put under watch or refused, it
is let go, the handler is called for it or has its watch disabled, and all is stopped. What is under
watch, and whether it will fire, can be told from the incidents alone: the last watch that was set
for a stream counts, as long as nothing has ended it, and it fires as long as nothing has disarmed
it.

Headlines:
* **`Net.Under`**: the watch that a stream is under, by what has happened.
* **`Net.Recorded`**: a multiplexer is as its incidents tell, and each of them was in order when it
  happened. It stays so whatever is done to it: **`Net.Recorded.watch`**, **`Net.Recorded.forget`**,
  **`Net.Recorded.stop`**, **`Net.Recorded.fire`**, **`Net.Recorded.disable`**.
* **`Net.Recorded.disciplined`**: so the handler is called as the watches allow.
-/

namespace MessageBroker.Net

/-- What happens to a multiplexer. -/
inductive Incident (δ : Type)
  /-- A stream was put under watch. -/
  | watched (id : StreamId) (data : δ) (trigger : Trigger)
  /-- A stream was not put under watch. -/
  | refused (id : StreamId) (cause : NetError)
  | forgotten (id : StreamId)
  /-- The handler was called for a stream. -/
  | fired (id : StreamId) (flags : Flags) (data : δ)
  /-- The handler had the watch of a stream disabled. -/
  | disabled (id : StreamId)
  | stopped
deriving DecidableEq

variable {δ : Type}

namespace Incident

/-- A stream was put under watch. -/
def Watches (id : StreamId) : Incident δ → Prop
  | watched other _ _ => other = id
  | _ => False

/-- What a stream was under before counts no more. -/
def Ends (id : StreamId) : Incident δ → Prop
  | watched other _ _ => other = id
  | forgotten other => other = id
  | stopped => True
  | _ => False

/-- The handler was called for a stream. -/
def Fires (id : StreamId) : Incident δ → Prop
  | fired other _ _ => other = id
  | _ => False

/-- A watch with the trigger given fires no more. -/
def Disarms (id : StreamId) (trigger : Trigger) : Incident δ → Prop
  | fired other _ _ => other = id ∧ trigger = .oneShot
  | disabled other => other = id
  | _ => False

instance (id : StreamId) (x : Incident δ) : Decidable (x.Watches id) := by
  cases x <;> unfold Watches <;> infer_instance

instance (id : StreamId) (x : Incident δ) : Decidable (x.Fires id) := by
  cases x <;> unfold Fires <;> infer_instance

instance (id : StreamId) (trigger : Trigger) (x : Incident δ) : Decidable (x.Disarms id trigger) := by
  cases x <;> unfold Disarms <;> infer_instance

theorem Watches.ends {id : StreamId} {x : Incident δ} (h : x.Watches id) : x.Ends id := by
  cases x with
  | watched other data trigger => exact h
  | _ => exact h.elim

end Incident

/-- **The watch that a stream is under,** by what has happened. -/
def Under (past : List (Incident δ)) (id : StreamId) (w : Watch δ) : Prop :=
  ∃ before since, past = before ++ .watched id w.data w.trigger :: since ∧
    (∀ x ∈ since, ¬ x.Ends id) ∧ (w.armed = true ↔ ∀ x ∈ since, ¬ x.Disarms id w.trigger)

/-- What becomes of the watch of a stream by an incident that does not end it. -/
def Watch.after (w : Watch δ) (id : StreamId) (x : Incident δ) : Watch δ :=
  if x.Disarms id w.trigger then { w with armed := false } else w

variable {past log : List (Incident δ)} {x : Incident δ} {id : StreamId} {w : Watch δ}

theorem Watch.after_of_disarms (h : x.Disarms id w.trigger) :
    w.after id x = { w with armed := false } := if_pos h

theorem Watch.after_of_not_disarms (h : ¬ x.Disarms id w.trigger) : w.after id x = w := if_neg h

/-! ## One incident more -/

/-- A watch that was just set is armed. -/
theorem under_concat_watched {data : δ} {trigger : Trigger} :
    Under (past ++ [.watched id data trigger]) id w ↔ w = ⟨data, trigger, true⟩ := by
  constructor
  · rintro ⟨before, since, he, hends, harmed⟩
    rcases concat_eq_append_cons he with ⟨since, -, rfl⟩ | ⟨-, hw, rfl⟩
    · exact absurd rfl (hends (.watched id data trigger) (by simp))
    · obtain ⟨-, rfl, rfl⟩ := Incident.watched.inj hw
      have : w.armed = true := harmed.mpr (List.forall_mem_nil _)
      cases w
      cases this
      rfl
  · rintro rfl
    exact ⟨past, [], rfl, List.forall_mem_nil _, by simp⟩

/-- What has been let go is under no watch. -/
theorem not_under_concat (h : x.Ends id) (hw : ¬ x.Watches id) : ¬ Under (past ++ [x]) id w := by
  rintro ⟨before, since, he, hends, -⟩
  rcases concat_eq_append_cons he with ⟨since, -, rfl⟩ | ⟨-, rfl, -⟩
  · exact hends x (by simp) h
  · exact hw rfl

/-- Every other incident leaves a stream under its watch, and disarms it at most. -/
theorem under_concat (h : ¬ x.Ends id) :
    Under (past ++ [x]) id w ↔ ∃ w₀, Under past id w₀ ∧ w = w₀.after id x := by
  constructor
  · rintro ⟨before, since, he, hends, harmed⟩
    rcases concat_eq_append_cons he with ⟨since, rfl, rfl⟩ | ⟨-, rfl, -⟩
    · -- The watch before the incident was armed just if nothing had disarmed it by then.
      refine ⟨{ w with armed := decide (∀ y ∈ since, ¬ y.Disarms id w.trigger) },
        ⟨before, since, rfl, fun y hy => hends y (List.mem_append_left _ hy), by simp⟩, ?_⟩
      have hall : w.armed = true ↔ (∀ y ∈ since, ¬ y.Disarms id w.trigger) ∧
          ¬ x.Disarms id w.trigger := by
        rw [harmed, List.forall_mem_append, List.forall_mem_singleton]
      unfold Watch.after
      dsimp only
      split
      · rename_i hx
        have : w.armed = false := by simpa [hx] using hall
        cases w
        cases this
        rfl
      · rename_i hx
        have : w.armed = decide (∀ y ∈ since, ¬ y.Disarms id w.trigger) := by
          rw [Bool.eq_iff_iff, hall, decide_eq_true_iff]
          exact and_iff_left hx
        rw [← this]
    · exact absurd rfl h
  · rintro ⟨w₀, ⟨before, since, rfl, hends, harmed⟩, rfl⟩
    have hsame : (w₀.after id x).data = w₀.data ∧ (w₀.after id x).trigger = w₀.trigger := by
      unfold Watch.after
      split <;> exact ⟨rfl, rfl⟩
    refine ⟨before, since ++ [x], ?_, ?_, ?_⟩
    · rw [hsame.1, hsame.2, List.append_assoc, List.cons_append]
    · exact List.forall_mem_append.mpr ⟨hends, List.forall_mem_singleton.mpr h⟩
    · rw [hsame.2, List.forall_mem_append, List.forall_mem_singleton, ← harmed]
      unfold Watch.after
      split
      · rename_i hx
        simp [hx]
      · rename_i hx
        simp [hx]

/-- A stream that an incident does not concern is under the same watch. -/
theorem under_concat_of_aside (he : ¬ x.Ends id) (hd : ∀ trigger, ¬ x.Disarms id trigger) :
    Under (past ++ [x]) id w ↔ Under past id w := by
  rw [under_concat he]
  unfold Watch.after
  simp [hd]

theorem under_append_of_aside {more : List (Incident δ)}
    (h : ∀ x ∈ more, ¬ x.Ends id ∧ ∀ trigger, ¬ x.Disarms id trigger) :
    Under (past ++ more) id w ↔ Under past id w := by
  induction more generalizing past with
  | nil => rw [List.append_nil]
  | cons x more ih =>
    obtain ⟨hx, hmore⟩ := List.forall_mem_cons.mp h
    rw [List.append_cons, ih hmore, under_concat_of_aside hx.1 hx.2]

namespace Multiplexer

variable {m m' : Multiplexer δ} {registers : Except IoFailure Unit} {data : δ} {trigger : Trigger}

theorem get?_disarm (m : Multiplexer δ) (id other : StreamId) :
    (m.disarm id).watched.get? other =
      if other = id then (m.watched.get? other).map fun w => { w with armed := false }
      else m.watched.get? other := Table.get?_modify ..

theorem watch_eq_ok (h : m.watch id registers data trigger = .ok m') :
    m.stopped = false ∧ m' = { m with watched := m.watched.insert id { data, trigger } } := by
  unfold watch at h
  split at h
  · exact nomatch h
  · rename_i hs
    split at h
    · exact nomatch h
    · exact ⟨Bool.eq_false_iff.mpr hs, (Except.ok.inj h).symm⟩

/-- Whatever has been stopped refuses every stream, and for this. -/
theorem watch_eq_error_stopped {cause : NetError} (hs : m.stopped = true)
    (h : m.watch id registers data trigger = .error cause) : cause = .stopped := by
  unfold watch at h
  rw [if_pos hs] at h
  exact (Except.error.inj h).symm

end Multiplexer

/-! ## In order -/

/-- An incident is in order after those of the past. -/
def InOrder (past : List (Incident δ)) : Incident δ → Prop
  /- The handler is called for a stream under an armed watch, with the data of this watch. -/
  | .fired id _ data => ∃ trigger, Under past id ⟨data, trigger, true⟩
  /- Nothing is put under watch once all has been stopped, and whatever is refused then is
  refused for this. -/
  | .watched .. => .stopped ∉ past
  | .refused _ cause => .stopped ∈ past → cause = .stopped
  | _ => True

/-- **A multiplexer is as its incidents tell,** and each of them was in order. -/
structure Recorded (log : List (Incident δ)) (m : Multiplexer δ) : Prop where
  under_iff : ∀ id w, m.watched.get? id = some w ↔ Under log id w
  stopped_iff : m.stopped = true ↔ .stopped ∈ log
  /-- Once all has been stopped nothing is under watch. -/
  bare : m.stopped = true → m.watched = ∅
  inOrder : ∀ past x later, log = past ++ x :: later → InOrder past x

theorem recorded_new : Recorded [] ({} : Multiplexer δ) where
  under_iff id w := by
    constructor
    · exact nofun
    · rintro ⟨before, since, he, -⟩
      exact absurd he.symm (by simp)
  stopped_iff := by simp
  bare := nofun
  inOrder past x later he := absurd he.symm (by simp)

namespace Recorded

variable {m m' : Multiplexer δ}

/-- What waits to be looked at again makes no difference. -/
theorem congr (h : Recorded log m) (hw : m'.watched = m.watched) (hs : m'.stopped = m.stopped) :
    Recorded log m' where
  under_iff := hw ▸ h.under_iff
  stopped_iff := hs ▸ h.stopped_iff
  bare := fun hs' => hw ▸ h.bare (hs ▸ hs')
  inOrder := h.inOrder

/-- One incident more. -/
theorem concat (h : Recorded log m) (hx : InOrder log x)
    (hu : ∀ id w, m'.watched.get? id = some w ↔ Under (log ++ [x]) id w)
    (hs : m'.stopped = true ↔ m.stopped = true ∨ x = .stopped)
    (hb : m'.stopped = true → m'.watched = ∅) : Recorded (log ++ [x]) m' where
  under_iff := hu
  stopped_iff := by
    rw [hs, h.stopped_iff, List.mem_append, List.mem_singleton]
    exact or_congr_right eq_comm
  bare := hb
  inOrder past y later he := by
    rcases concat_eq_append_cons he with ⟨later, he, -⟩ | ⟨rfl, rfl, -⟩
    · exact h.inOrder past y later he
    · exact hx

/-- One incident more, which ends nothing and disarms what it says. -/
theorem concat_of_lasting (h : Recorded log m) (hx : InOrder log x) (he : ∀ id, ¬ x.Ends id)
    (hw : ∀ id, m'.watched.get? id = (m.watched.get? id).map (·.after id x))
    (hs : m'.stopped = m.stopped) : Recorded (log ++ [x]) m' := by
  refine h.concat hx (fun id w => ?_) ?_ fun hs' => Table.ext fun id => ?_
  · rw [hw, under_concat (he id), Option.map_eq_some_iff]
    exact exists_congr fun w₀ => and_congr (h.under_iff id w₀) eq_comm
  · rw [hs, or_iff_left]
    rintro rfl
    exact he 0 trivial
  · rw [hw, h.bare (hs ▸ hs')]
    rfl

/-! ## What is done to a multiplexer -/

theorem forget (h : Recorded log m) (id : StreamId) :
    Recorded (log ++ [.forgotten id]) (m.forget id) := by
  refine h.concat trivial (fun other w => ?_) (by simp [Multiplexer.forget]) fun hs => ?_
  · unfold Multiplexer.forget
    rw [Table.get?_erase]
    by_cases ho : other = id
    · subst ho
      rw [if_pos rfl]
      exact iff_of_false nofun (not_under_concat rfl fun hw => hw)
    · have haside : ¬ (Incident.forgotten id : Incident δ).Ends other := fun he => ho (Eq.symm he)
      rw [if_neg ho, h.under_iff, under_concat_of_aside haside fun _ hd => hd]
  · unfold Multiplexer.forget
    rw [h.bare hs]
    rfl

theorem stop (h : Recorded log m) : Recorded (log ++ [.stopped]) m.stop := by
  have hbare : m.stop.watched = ∅ := by
    unfold Multiplexer.stop
    split
    · rename_i hs
      exact h.bare hs
    · rfl
  refine h.concat trivial (fun id w => ?_) ?_ fun _ => hbare
  · rw [hbare]
    exact iff_of_false nofun (not_under_concat trivial fun hw => hw)
  · unfold Multiplexer.stop
    split
    · rename_i hs
      simp [hs]
    · simp

/-- A stream under watch anew. -/
theorem watch (h : Recorded log m) {registers : Except IoFailure Unit} {data : δ}
    {trigger : Trigger} (hw : m.watch id registers data trigger = .ok m') :
    Recorded (log ++ [.watched id data trigger]) m' := by
  obtain ⟨hs, rfl⟩ := Multiplexer.watch_eq_ok hw
  have hs' : ¬ m.stopped = true := by simp [hs]
  refine h.concat (fun hin => hs' (h.stopped_iff.mpr hin)) (fun other w => ?_)
    (by simp) fun hs => absurd hs hs'
  rw [Table.get?_insert]
  by_cases ho : other = id
  · subst ho
    rw [if_pos rfl, under_concat_watched, Option.some.injEq]
    exact eq_comm
  · have haside : ¬ (Incident.watched id data trigger).Ends other := fun he => ho (Eq.symm he)
    rw [if_neg ho, h.under_iff, under_concat_of_aside haside fun _ hd => hd]

/-- A stream that is refused leaves everything as it was. -/
theorem refuse (h : Recorded log m) {registers : Except IoFailure Unit} {data : δ}
    {trigger : Trigger} {cause : NetError} (hw : m.watch id registers data trigger = .error cause) :
    Recorded (log ++ [.refused id cause]) m := by
  refine h.concat_of_lasting (fun hin => ?_) (fun _ he => he) (fun other => ?_) rfl
  · exact Multiplexer.watch_eq_error_stopped (h.stopped_iff.mpr hin) hw
  · exact Option.map_id'.symm

/-- The handler is called for a stream under an armed watch, which is disarmed if it is for once. -/
theorem fire (h : Recorded log m) {flags : Flags} (hw : m.watched.get? id = some w)
    (harmed : w.armed = true) :
    Recorded (log ++ [.fired id flags w.data])
      (if w.trigger = .oneShot then m.disarm id else m) := by
  refine h.concat_of_lasting ?_ (fun _ he => he) (fun other => ?_) (by split <;> rfl)
  · have hunder : Under log id w := (h.under_iff id w).mp hw
    obtain ⟨data, trigger, armed⟩ := w
    obtain rfl : armed = true := harmed
    exact ⟨trigger, hunder⟩
  · by_cases ho : other = id
    · subst ho
      rw [hw, Option.map_some]
      by_cases ht : w.trigger = .oneShot
      · have hd : (Incident.fired other flags w.data).Disarms other w.trigger := ⟨rfl, ht⟩
        rw [if_pos ht, Multiplexer.get?_disarm, if_pos rfl, hw, Watch.after_of_disarms hd]
        rfl
      · have hd : ¬ (Incident.fired other flags w.data).Disarms other w.trigger := fun hd => ht hd.2
        rw [if_neg ht, hw, Watch.after_of_not_disarms hd]
    · have haside : ∀ v : Watch δ, v.after other (.fired id flags w.data) = v := fun v =>
        Watch.after_of_not_disarms fun hd => ho (Eq.symm hd.1)
      simp only [haside, Option.map_id']
      split
      · rw [Multiplexer.get?_disarm, if_neg ho]
      · rfl

/-- A watch that the handler had disabled is disarmed. -/
theorem disable (h : Recorded log m) (id : StreamId) :
    Recorded (log ++ [.disabled id]) (m.disarm id) := by
  refine h.concat_of_lasting trivial (fun _ he => he) (fun other => ?_) rfl
  rw [Multiplexer.get?_disarm]
  by_cases ho : other = id
  · subst ho
    rw [if_pos rfl]
    exact Option.map_congr fun v _ =>
      (Watch.after_of_disarms (x := .disabled other) (w := v) rfl).symm
  · have haside : ∀ v : Watch δ, v.after other (.disabled id) = v := fun v =>
      Watch.after_of_not_disarms fun hd => ho (Eq.symm hd)
    simp only [haside, Option.map_id']
    rw [if_neg ho]

end Recorded

/-! ## What the order of incidents allows -/

/-- After the last watch of a stream comes all that came later than what it follows. -/
theorem mem_since {before since before' since' : List (Incident δ)} {y : Incident δ}
    (he : before ++ x :: since = before' ++ y :: since') (hy : y.Watches id)
    (hs : ∀ z ∈ since, ¬ z.Watches id) : (x = y ∧ since = since') ∨ x ∈ since' := by
  rcases append_eq_append_cons he with ⟨rest, -, rfl⟩ | ⟨rest, -, hsince⟩
  · exact .inr (List.mem_append_right _ List.mem_cons_self)
  · cases rest with
    | nil => exact .inl (List.cons.inj hsince)
    | cons z rest =>
      obtain ⟨rfl, rfl⟩ := List.cons.inj hsince
      exact absurd hy (hs y (List.mem_append_right _ List.mem_cons_self))

namespace Under

variable {before since : List (Incident δ)}

/-- A stream is under the watch that was set for it last. -/
theorem trigger_eq {data : δ} {trigger : Trigger}
    (h : Under (before ++ .watched id data trigger :: since) id w)
    (hs : ∀ y ∈ since, ¬ y.Watches id) : w.trigger = trigger := by
  obtain ⟨before', since', he, hends, -⟩ := h
  rcases mem_since he rfl hs with ⟨hw, -⟩ | hmem
  · exact (Incident.watched.inj hw).2.2.symm
  · exact absurd rfl (hends _ hmem)

/-- What has happened since has not ended the watch, nor disarmed it if it is armed. -/
theorem untouched (h : Under (before ++ x :: since) id w) (hx : ¬ x.Watches id)
    (hs : ∀ y ∈ since, ¬ y.Watches id) :
    ¬ x.Ends id ∧ (w.armed = true → ¬ x.Disarms id w.trigger) := by
  obtain ⟨before', since', he, hends, harmed⟩ := h
  rcases mem_since he rfl hs with ⟨rfl, -⟩ | hmem
  · exact absurd rfl hx
  · exact ⟨hends x hmem, fun ha => harmed.mp ha x hmem⟩

end Under

/-- **The handler is called as the watches allow.** -/
structure Disciplined (log : List (Incident δ)) : Prop where
  /-- It is called for a stream under an armed watch, with the data of the watch set last. -/
  armed : ∀ past id flags data later, log = past ++ .fired id flags data :: later →
    ∃ trigger, Under past id ⟨data, trigger, true⟩
  /-- A one-shot watch fires once at most until the stream is watched again. -/
  oneShot : ∀ past id data since, log = past ++ .watched id data .oneShot :: since →
    (∀ x ∈ since, ¬ x.Watches id) → since.countP (·.Fires id) ≤ 1
  /-- A watch that is disabled does not fire until the stream is watched again. -/
  disabled : ∀ past id since, log = past ++ .disabled id :: since →
    (∀ x ∈ since, ¬ x.Watches id) → ∀ x ∈ since, ¬ x.Fires id
  /-- A stream that is let go is not fired for until it is watched again. -/
  forgotten : ∀ past id since, log = past ++ .forgotten id :: since →
    (∀ x ∈ since, ¬ x.Watches id) → ∀ x ∈ since, ¬ x.Fires id
  /-- Once all is stopped the handler is not called, and every stream is refused for it. -/
  stopped : ∀ past since, log = past ++ .stopped :: since → ∀ x ∈ since, ∀ id,
    ¬ x.Fires id ∧ ¬ x.Watches id ∧ ∀ cause, x = .refused id cause → cause = .stopped

theorem countP_le_one {p : Incident δ → Bool} {l : List (Incident δ)}
    (h : ∀ a x b y c, l = a ++ x :: b ++ y :: c → p x = true → p y = false) : l.countP p ≤ 1 := by
  induction l with
  | nil => exact Nat.zero_le 1
  | cons x l ih =>
    rw [List.countP_cons]
    split
    · rename_i hx
      have hnone : l.countP p = 0 := List.countP_eq_zero.mpr fun y hy => by
        obtain ⟨b, c, rfl⟩ := List.append_of_mem hy
        simp [h [] x b y c (by simp) hx]
      omega
    · refine ih fun a y b z c he => h (x :: a) y b z c ?_
      rw [he]
      rfl

namespace Recorded

variable {m : Multiplexer δ} {since : List (Incident δ)}

/-- What the handler is called for is under an armed watch. -/
theorem under_of_fires {y : Incident δ} {later : List (Incident δ)}
    (h : Recorded (past ++ y :: later) m) (hy : y.Fires id) :
    ∃ w, Under past id w ∧ w.armed = true := by
  cases y with
  | fired other flags data =>
    obtain rfl : other = id := hy
    obtain ⟨trigger, hunder⟩ := h.inOrder past _ later rfl
    exact ⟨_, hunder, rfl⟩
  | _ => exact hy.elim

/-- After a stream was let go, or its watch disarmed, the handler is not called for it until it is
watched again. -/
theorem not_fires (h : Recorded (past ++ x :: since) m) (hx : ¬ x.Watches id)
    (hs : ∀ y ∈ since, ¬ y.Watches id)
    (hstops : x.Ends id ∨ ∀ trigger, x.Disarms id trigger) : ∀ y ∈ since, ¬ y.Fires id := by
  intro y hy hfires
  obtain ⟨mid, later, rfl⟩ := List.append_of_mem hy
  rw [← List.cons_append, ← List.append_assoc] at h
  obtain ⟨w, hunder, harmed⟩ := h.under_of_fires hfires
  obtain ⟨hends, hdisarms⟩ := hunder.untouched hx fun z hz => hs z (List.mem_append_left _ hz)
  rcases hstops with he | hd
  · exact hends he
  · exact hdisarms harmed (hd w.trigger)

/-- A one-shot watch does not fire again. -/
theorem fires_once {data : δ} {mid later : List (Incident δ)} {y : Incident δ}
    (h : Recorded (past ++ .watched id data .oneShot :: (since ++ x :: mid) ++ y :: later) m)
    (hs : ∀ z ∈ since ++ x :: mid, ¬ z.Watches id) (hx : x.Fires id) : ¬ y.Fires id := by
  intro hy
  obtain ⟨w, hunder, harmed⟩ := h.under_of_fires hy
  have htrigger : w.trigger = .oneShot := hunder.trigger_eq hs
  rw [← List.cons_append, ← List.append_assoc] at hunder
  have hnot := (hunder.untouched (hs x (by simp)) fun z hz => hs z (by simp [hz])).2 harmed
  cases x with
  | fired other flags data => exact hnot ⟨hx, htrigger⟩
  | _ => exact hx.elim

/-- Once all is stopped nothing is put under watch. -/
theorem not_watches (h : Recorded (past ++ .stopped :: since) m) :
    ∀ x ∈ since, ∀ id, ¬ x.Watches id := by
  intro x hx id hw
  obtain ⟨mid, later, rfl⟩ := List.append_of_mem hx
  rw [← List.cons_append, ← List.append_assoc] at h
  have horder := h.inOrder _ x later rfl
  cases x with
  | watched other data trigger => exact horder (by simp)
  | _ => exact hw

/-- **What is in order is as the watches allow.** -/
theorem disciplined (h : Recorded log m) : Disciplined log where
  armed past id flags data later he := h.inOrder past _ later he
  oneShot past id data since he hs := by
    subst he
    refine countP_le_one fun a x b y c he hx => ?_
    subst he
    rw [← List.cons_append, ← List.append_assoc] at h
    exact decide_eq_false
      (h.fires_once (fun z hz => hs z (List.mem_append_left _ hz)) (of_decide_eq_true hx))
  disabled past id since he hs := by
    subst he
    exact h.not_fires (fun hw => hw) hs (.inr fun _ => rfl)
  forgotten past id since he hs := by
    subst he
    exact h.not_fires (fun hw => hw) hs (.inl rfl)
  stopped past since he x hx id := by
    subst he
    have hwatches := h.not_watches
    refine ⟨h.not_fires (fun hw => hw) (fun y hy => hwatches y hy id) (.inl trivial) x hx,
      hwatches x hx id, ?_⟩
    rintro cause rfl
    obtain ⟨mid, later, rfl⟩ := List.append_of_mem hx
    rw [← List.cons_append, ← List.append_assoc] at h
    exact h.inOrder _ (.refused id cause) later rfl (by simp)

end Recorded

end MessageBroker.Net
