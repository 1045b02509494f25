import MessageBroker.Client
import MessageBroker.Proofs.Histories

/-!
# Which answer a request takes

A client asks, waits, and asks again; the broker answers each request once, in the order they came,
whenever it gets to it. A wait that expires leaves its answer to come, and whoever waits then finds
it in front of the queue. So a request is answered by its own acknowledgement as long as no wait has
expired before, and by that of an earlier request from then on.

Headlines:
* **`Conversation.Consistent.step`**: what is in the queue answers the requests that were sent, in
  order, from the first one whose answer has not been taken.
* **`Conversation.run_matched`**: what each request takes and what it comes to, and that it is its
  own answer unless an earlier wait has expired.
* **`Conversation.expired_ping_taken`**: after a wait that expired, the answer to the earlier
  request is taken for that of the next one.
-/

namespace MessageBroker

/-- What came of a request that was sent, and what there was when its wait ended. -/
structure Outcome where
  request : Request
  /-- How many requests were sent before. -/
  number : Nat
  /-- How many answers had arrived. -/
  arrived : Nat
  /-- How many of them had been taken or dropped. -/
  taken : Nat
  result : Except ClientError Unit
deriving DecidableEq

/-- A client that asks one thing at a time, and a broker that answers in turn. -/
structure Conversation where
  client : Client := {}
  /-- The requests that were sent, in order. -/
  sent : List Request := []
  /-- The answers that arrived, in order. -/
  answers : List Message := []
  /-- How many answers have been taken or dropped. -/
  taken : Nat := 0
  /-- The request that waits for its answer. -/
  waiting : Option Request := none
  /-- What came of the requests that were sent, in order. -/
  outcomes : List Outcome := []
  /-- Why requests were not sent. -/
  unsent : List ClientError := []

namespace Conversation

/-- What happens in a conversation. -/
inductive Event
  /-- A request is made, if none waits; `written` is what comes of writing it. -/
  | ask (r : Request) (written : Except IoFailure Unit)
  /-- The next answer of the broker arrives. -/
  | answer (m : Message)
  /-- A message arrives. -/
  | deliver (m : Message)
  /-- Nothing is read any more. -/
  | hangUp
  /-- The wait of a request ends: with what is in front of the queue, or because it expires. -/
  | conclude
  /-- A message is taken out of the inbox. -/
  | next
  /-- Acknowledgements are dropped while the client waits for the end. -/
  | discard

/-- One thing that happens; none if it cannot happen now. -/
def step (c : Conversation) : Event → Option Conversation
  | .ask r written =>
    if c.waiting.isSome then none
    else
      match Wire.encodeOwn r.message, written with
      | .error cause, _ => some { c with unsent := c.unsent ++ [.encode cause] }
      | .ok _, .error cause => some { c with unsent := c.unsent ++ [.io cause] }
      | .ok _, .ok () => some { c with sent := c.sent ++ [r], waiting := some r }
  | .answer m =>
    match c.sent[c.answers.length]? with
    | none => none
    | some r =>
      if c.client.closed || m.type ≠ r.answer then none
      else some { c with client := c.client.receive m, answers := c.answers ++ [m] }
  | .deliver m =>
    if c.client.closed || m.type ≠ .message then none
    else some { c with client := c.client.receive m }
  | .hangUp => some { c with client := c.client.hangUp }
  | .conclude =>
    match c.waiting with
    | none => none
    | some r =>
      let (result, client) := c.client.take r.answer
      some { c with
        client
        waiting := none
        taken := min (c.taken + 1) c.answers.length
        outcomes := c.outcomes ++ [{
          request := r, number := c.outcomes.length, arrived := c.answers.length
          taken := c.taken, result := result.map fun _ => () }] }
  | .next => some { c with client := c.client.next.2 }
  | .discard =>
    if c.waiting.isSome then none
    else some { c with client := c.client.discard, taken := c.answers.length }

/-- What happens in turn; none if something of it cannot happen. -/
def run (c : Conversation) : List Event → Option Conversation
  | [] => some c
  | e :: es => (c.step e).bind fun c => c.run es

end Conversation

/-- The wait has expired: no answer was there to be taken. -/
def Outcome.Expired (o : Outcome) : Prop := o.arrived = o.taken

/-- **A request is matched with its own answer:** if it has come off well, its answer had arrived
and is the one it took. -/
def Outcome.Matched (o : Outcome) : Prop :=
  o.result = .ok () → o.number < o.arrived ∧ o.taken = o.number

instance (o : Outcome) : Decidable o.Expired := inferInstanceAs (Decidable (_ = _))

instance (o : Outcome) : Decidable o.Matched := inferInstanceAs (Decidable (_ → _))

/-- What a request came to, when so much was sent, so much was answered, and the outcomes of
`before` were there. -/
structure Outcome.Follows (sent : List Request) (answers : List Message) (before : List Outcome)
    (o : Outcome) : Prop where
  number : o.number = before.length
  request : sent[o.number]? = some o.request
  arrived : o.arrived ≤ answers.length
  /-- It was not answered before it was sent. -/
  ahead : o.taken ≤ o.number
  /-- It is behind by as many answers as waits have expired, at most. -/
  behind : o.number ≤ o.taken + before.countP (·.Expired)
  /-- It took the answer to the first request whose answer was there and had not been taken. -/
  took : o.taken < o.arrived → ∃ r, sent[o.taken]? = some r ∧
    o.result = if r.answer = o.request.answer then .ok ()
      else .error (.unexpected o.request.answer r.answer)
  /-- If there was none it has expired, or the broker has closed the connection. -/
  expired : ¬ o.taken < o.arrived → o.Expired ∧
    (o.result = .error .closed ∨ o.result = .error (.timeout o.request.answer))

theorem getElem?_append_of_some {α : Type} {l : List α} {k : Nat} {a : α} (h : l[k]? = some a)
    (more : List α) : (l ++ more)[k]? = some a := by
  rw [List.getElem?_append_left (List.getElem?_eq_some_iff.mp h).1, h]

namespace Outcome.Follows

variable {sent : List Request} {answers : List Message} {before : List Outcome} {o : Outcome}

/-- What comes later changes nothing. -/
theorem append (h : o.Follows sent answers before) (more : List Request) (later : List Message) :
    o.Follows (sent ++ more) (answers ++ later) before where
  number := h.number
  request := getElem?_append_of_some h.request more
  arrived := Nat.le_trans h.arrived (by simp)
  ahead := h.ahead
  behind := h.behind
  took hlt := by
    obtain ⟨r, hr, hresult⟩ := h.took hlt
    exact ⟨r, getElem?_append_of_some hr more, hresult⟩
  expired := h.expired

/-- **As long as no wait has expired, a request is matched with its own answer.** -/
theorem matched (h : o.Follows sent answers before) (hnone : ∀ x ∈ before, ¬ x.Expired) :
    o.Matched := by
  intro hok
  have hzero : before.countP (·.Expired) = 0 :=
    List.countP_eq_zero.mpr fun x hx => by simpa using hnone x hx
  have hsame : o.taken = o.number := by
    have := h.ahead
    have := h.behind
    omega
  by_cases hlt : o.taken < o.arrived
  · exact ⟨hsame ▸ hlt, hsame⟩
  · rcases (h.expired hlt).2 with he | he <;> exact nomatch hok.symm.trans he

end Outcome.Follows

namespace Conversation

/-- What is in the queue answers the requests that were sent, in order, from the first one whose
answer has not been taken. -/
structure Consistent (c : Conversation) : Prop where
  queue : c.client.acknowledgements = c.answers.drop c.taken
  takenLe : c.taken ≤ c.answers.length
  kinds : ∀ (k : Nat) (m : Message), c.answers[k]? = some m →
    ∃ r : Request, c.sent[k]? = some r ∧ m.type = r.answer
  /-- Every request that was sent has come to something but the one that waits. -/
  waiting : ∀ r, c.waiting = some r →
    c.sent.length = c.outcomes.length + 1 ∧ c.sent[c.outcomes.length]? = some r
  settled : c.waiting = none → c.sent.length = c.outcomes.length
  ahead : c.taken ≤ c.outcomes.length
  behind : c.outcomes.length ≤ c.taken + c.outcomes.countP (·.Expired)
  outcomes : ∀ before o later, c.outcomes = before ++ o :: later →
    o.Follows c.sent c.answers before

theorem consistent_new : Consistent {} where
  queue := rfl
  takenLe := Nat.le_refl _
  kinds k m h := nomatch h
  waiting r h := nomatch h
  settled _ := rfl
  ahead := Nat.le_refl _
  behind := Nat.le_refl _
  outcomes before o later h := absurd h.symm (by simp)

namespace Consistent

variable {c d : Conversation}

theorem answers_le (h : c.Consistent) : c.answers.length ≤ c.sent.length := by
  by_contra hlt
  have hlt : c.sent.length < c.answers.length := Nat.lt_of_not_le hlt
  obtain ⟨r, hr, -⟩ := h.kinds c.sent.length _ (List.getElem?_eq_getElem hlt)
  simp at hr

/-- What arrives or is taken out elsewhere, and what is not sent, makes no difference. -/
theorem congr (h : c.Consistent) (hq : d.client.acknowledgements = c.client.acknowledgements)
    (hsent : d.sent = c.sent) (hanswers : d.answers = c.answers) (htaken : d.taken = c.taken)
    (hwaiting : d.waiting = c.waiting) (houtcomes : d.outcomes = c.outcomes) : d.Consistent := by
  obtain ⟨client, sent, answers, taken, waiting, outcomes, unsent⟩ := d
  dsimp only at hq hsent hanswers htaken hwaiting houtcomes
  subst hsent hanswers htaken hwaiting houtcomes
  exact ⟨hq.trans h.queue, h.takenLe, h.kinds, h.waiting, h.settled, h.ahead, h.behind, h.outcomes⟩

/-- A request is sent. -/
theorem ask (h : c.Consistent) (hnone : c.waiting = none) (r : Request) :
    Consistent { c with sent := c.sent ++ [r], waiting := some r } where
  queue := h.queue
  takenLe := h.takenLe
  kinds k m hm := by
    obtain ⟨r', hr', hkind⟩ := h.kinds k m hm
    exact ⟨r', getElem?_append_of_some hr' _, hkind⟩
  waiting r' hr' := by
    cases hr'
    have := h.settled hnone
    exact ⟨by simp [this], by simp [← this]⟩
  settled := nofun
  ahead := h.ahead
  behind := h.behind
  outcomes before o later he := by
    have := (h.outcomes before o later he).append [r] []
    rwa [List.append_nil] at this

/-- An answer arrives. -/
theorem answer (h : c.Consistent) {m : Message} {r : Request}
    (hr : c.sent[c.answers.length]? = some r) (hm : m.type = r.answer) :
    Consistent { c with client := c.client.receive m, answers := c.answers ++ [m] } where
  queue := by
    have hne : m.type ≠ .message := by
      rw [hm]
      cases r <;> exact nofun
    unfold Client.receive
    rw [if_neg hne, List.drop_append_of_le_length h.takenLe, ← h.queue]
  takenLe := Nat.le_trans h.takenLe (by simp)
  kinds k m' hm' := by
    rcases Nat.lt_trichotomy k c.answers.length with hlt | rfl | hgt
    · rw [List.getElem?_append_left hlt] at hm'
      exact h.kinds k m' hm'
    · rw [List.getElem?_concat_length] at hm'
      cases hm'
      exact ⟨r, hr, hm⟩
    · rw [List.getElem?_eq_none (by simpa [Nat.succ_le_iff] using hgt)] at hm'
      exact nomatch hm'
  waiting := h.waiting
  settled := h.settled
  ahead := h.ahead
  behind := h.behind
  outcomes before o later he := by
    have := (h.outcomes before o later he).append [] [m]
    rwa [List.append_nil] at this

/-- Acknowledgements are dropped. -/
theorem discard (h : c.Consistent) (hnone : c.waiting = none) :
    Consistent { c with client := c.client.discard, taken := c.answers.length } where
  queue := List.drop_length.symm
  takenLe := Nat.le_refl _
  kinds := h.kinds
  waiting := h.waiting
  settled := h.settled
  ahead := h.settled hnone ▸ h.answers_le
  behind := Nat.le_trans h.behind (Nat.add_le_add_right h.takenLe _)
  outcomes := h.outcomes

/-- The outcome of the request that waits. -/
theorem follows (h : c.Consistent) {r : Request} (hr : c.waiting = some r) :
    Outcome.Follows c.sent c.answers c.outcomes {
      request := r, number := c.outcomes.length, arrived := c.answers.length
      taken := c.taken, result := (c.client.take r.answer).1.map fun _ => () } where
  number := rfl
  request := (h.waiting r hr).2
  arrived := Nat.le_refl _
  ahead := h.ahead
  behind := h.behind
  took hlt := by
    have hcons := List.drop_eq_getElem_cons hlt
    obtain ⟨r', hr', hkind⟩ := h.kinds c.taken _ (List.getElem?_eq_getElem hlt)
    refine ⟨r', hr', ?_⟩
    unfold Client.take
    rw [h.queue, hcons, ← hkind]
    dsimp only
    split <;> rfl
  expired hle := by
    have hnil : c.client.acknowledgements = [] := by
      rw [h.queue]
      exact List.drop_eq_nil_of_le (Nat.le_of_not_lt hle)
    refine ⟨Nat.le_antisymm (Nat.le_of_not_lt hle) h.takenLe, ?_⟩
    unfold Client.take
    rw [hnil]
    dsimp only
    split
    · exact .inl rfl
    · exact .inr rfl

/-- The wait of a request ends. -/
theorem conclude (h : c.Consistent) {r : Request} (hr : c.waiting = some r) :
    Consistent { c with
      client := (c.client.take r.answer).2
      waiting := none
      taken := min (c.taken + 1) c.answers.length
      outcomes := c.outcomes ++ [{
        request := r, number := c.outcomes.length, arrived := c.answers.length
        taken := c.taken, result := (c.client.take r.answer).1.map fun _ => () }] } where
  queue := by
    have hqueue := h.queue
    have hle := h.takenLe
    unfold Client.take
    by_cases hlt : c.taken < c.answers.length
    · have hcons := List.drop_eq_getElem_cons hlt
      rw [hqueue, hcons]
      dsimp only
      rw [Nat.min_eq_left hlt]
    · have hnil : c.answers.drop c.taken = [] := List.drop_eq_nil_of_le (Nat.le_of_not_lt hlt)
      rw [hnil] at hqueue
      rw [hqueue, Nat.min_eq_right (by omega), List.drop_length]
      exact hqueue
  takenLe := Nat.min_le_right _ _
  kinds := h.kinds
  waiting := nofun
  settled _ := by
    rw [List.length_append]
    exact (h.waiting r hr).1
  ahead := by
    have := h.ahead
    simp only [List.length_append, List.length_singleton]
    omega
  behind := by
    have hbehind := h.behind
    have hle := h.takenLe
    rw [List.length_append, List.length_singleton, List.countP_append, List.countP_singleton]
    dsimp only
    by_cases hlt : c.taken < c.answers.length
    · omega
    · have he : c.answers.length = c.taken := Nat.le_antisymm (Nat.le_of_not_lt hlt) hle
      have hexpired : ∀ result, Outcome.Expired ⟨r, c.outcomes.length, c.answers.length, c.taken,
          result⟩ := fun _ => he
      rw [if_pos (decide_eq_true (hexpired _))]
      omega
  outcomes before o later he := by
    rcases concat_eq_append_cons he with ⟨later, he, -⟩ | ⟨rfl, rfl, -⟩
    · exact h.outcomes before o later he
    · exact h.follows hr

/-- **What happens in a conversation keeps it consistent.** -/
theorem step (h : c.Consistent) {e : Event} (he : c.step e = some d) : d.Consistent := by
  cases e with
  | ask r written =>
    unfold Conversation.step at he
    dsimp only at he
    split at he
    · exact nomatch he
    · rename_i hnone
      have hnone : c.waiting = none := by simpa using hnone
      split at he
      · cases he
        exact h.congr rfl rfl rfl rfl rfl rfl
      · cases he
        exact h.congr rfl rfl rfl rfl rfl rfl
      · cases he
        exact h.ask hnone r
  | answer m =>
    unfold Conversation.step at he
    dsimp only at he
    split at he
    · exact nomatch he
    · rename_i r hr
      split at he
      · exact nomatch he
      · rename_i hm
        have hm : c.client.closed = false ∧ m.type = r.answer := by simpa using hm
        cases he
        exact h.answer hr hm.2
  | deliver m =>
    unfold Conversation.step at he
    dsimp only at he
    split at he
    · exact nomatch he
    · rename_i hm
      have hm : c.client.closed = false ∧ m.type = .message := by simpa using hm
      cases he
      refine h.congr ?_ rfl rfl rfl rfl rfl
      unfold Client.receive
      rw [if_pos hm.2]
  | hangUp =>
    cases he
    exact h.congr rfl rfl rfl rfl rfl rfl
  | conclude =>
    unfold Conversation.step at he
    dsimp only at he
    split at he
    · exact nomatch he
    · rename_i r hr
      cases he
      exact h.conclude hr
  | next =>
    cases he
    refine h.congr ?_ rfl rfl rfl rfl rfl
    unfold Client.next
    dsimp only
    split <;> rfl
  | discard =>
    unfold Conversation.step at he
    dsimp only at he
    split at he
    · exact nomatch he
    · rename_i hnone
      cases he
      exact h.discard (by simpa using hnone)

theorem run (h : c.Consistent) {es : List Event} (hrun : c.run es = some d) : d.Consistent := by
  induction es generalizing c with
  | nil =>
    cases hrun
    exact h
  | cons e es ih =>
    obtain ⟨m, hm, hrest⟩ := Option.bind_eq_some_iff.mp hrun
    exact ih (h.step hm) hrest

end Consistent

/-- **What a request takes and what it comes to.** However the answers are timed and waits expire, a
request takes the answer to the first request whose answer was there and had not been taken, and
comes off well just if this is of its kind; it is behind by no more answers than waits have expired
before, so if none has it is matched with its own answer. -/
theorem run_matched {es : List Event} {c : Conversation} (h : run {} es = some c)
    (before : List Outcome) (o : Outcome) (later : List Outcome)
    (he : c.outcomes = before ++ o :: later) :
    o.Follows c.sent c.answers before ∧ ((∀ x ∈ before, ¬ x.Expired) → o.Matched) := by
  have hfollows := (consistent_new.run h).outcomes before o later he
  exact ⟨hfollows, hfollows.matched⟩

/-- Two pings, of which the first one is answered when its wait has expired. -/
def latePing : List Event :=
  [.ask .ping (.ok ()), .conclude, .ask .ping (.ok ()), .answer { type := .pingAck }, .conclude]

theorem outcomes_latePing : (run {} latePing).map (·.outcomes) =
    some [⟨.ping, 0, 0, 0, .error (.timeout .pingAck)⟩, ⟨.ping, 1, 1, 0, .ok ()⟩] := by
  decide +kernel

theorem run_matched_latePing : ∃ c before o, run {} latePing = some c ∧
    c.outcomes = before ++ [o] ∧ o.result = .ok () ∧ o.Follows c.sent c.answers before := by
  obtain ⟨c, hc, houtcomes⟩ := Option.map_eq_some_iff.mp outcomes_latePing
  have he : c.outcomes = [⟨.ping, 0, 0, 0, .error (.timeout .pingAck)⟩] ++
      [⟨.ping, 1, 1, 0, .ok ()⟩] := houtcomes
  exact ⟨c, _, _, hc, he, rfl, (run_matched hc _ _ _ he).1⟩

/-- **After a wait that expired, the answer to the earlier request is taken for that of the next
one.** -/
theorem expired_ping_taken :
    ¬ ∀ es c, run {} es = some c → ∀ o ∈ c.outcomes, o.Matched := by
  intro h
  obtain ⟨c, hc, houtcomes⟩ := Option.map_eq_some_iff.mp outcomes_latePing
  have hlast := h latePing c hc ⟨.ping, 1, 1, 0, .ok ()⟩ (by rw [houtcomes]; simp)
  exact absurd (hlast rfl).2 (by decide)

end Conversation

end MessageBroker
