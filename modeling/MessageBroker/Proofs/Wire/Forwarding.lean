import MessageBroker.Proofs.Wire.RoundTrip

/-!
# What was read can be written again

A message that came off the wire goes back on it as it is: the header lines that are read are lines
that may be written, and a body that was read fits its prefix. It stays so when a header is put in
its place that may be written itself.

Headlines:
* **`isWritable_of_readHeaders`**: every header that is read may be written.
* **`readable_of_next`**: what a decoder finds is fit to be written again.
* **`Outgoing.written_of_readable`**, **`Outgoing.readsAs_of_readable`**: it is written, and read
  back unchanged.
-/

namespace MessageBroker.Wire

/-! ## Header lines -/

/-- A name that is read ends where the separator behind it begins. -/
theorem splitName_eq_some {cs name value : List Char} (h : splitName cs = some (name, value)) :
    cs = name ++ ':' :: ' ' :: value ∧ splitName name = none := by
  induction cs generalizing name with
  | nil => cases h
  | cons c r ih =>
    by_cases hs : ∃ v, c :: r = ':' :: ' ' :: v
    · obtain ⟨v, hv⟩ := hs
      rw [hv] at h ⊢
      cases h
      exact ⟨rfl, rfl⟩
    · have hno : ∀ v, c :: r ≠ ':' :: ' ' :: v := fun v hv => hs ⟨v, hv⟩
      rw [splitName_cons_of_not_sep hno] at h
      obtain ⟨⟨front, v⟩, hr, hp⟩ := Option.map_eq_some_iff.mp h
      cases hp
      obtain ⟨rfl, hnone⟩ := ih hr
      refine ⟨rfl, ?_⟩
      rw [splitName_cons_of_not_sep, hnone]
      · rfl
      -- A separator at the end of the name would have been the first one of the line.
      · intro v hv
        cases front with
        | nil => cases hv
        | cons d front =>
          obtain ⟨rfl, hd⟩ := List.cons.inj hv
          obtain ⟨rfl, -⟩ := List.cons.inj hd
          exact hno _ rfl

theorem isWritable_of_readLine? {cs : List Char} {e : String × String}
    (h : readLine? cs = some e) (hn : '\n' ∉ cs) : isWritable e = true := by
  unfold readLine? at h
  split at h
  · rename_i c name value hs
    cases h
    obtain ⟨rfl, hnone⟩ := splitName_eq_some hs
    rw [List.mem_append, not_or] at hn
    obtain ⟨hname, hrest⟩ := hn
    have hvalue : '\n' ∉ value := fun hv =>
      hrest (List.mem_cons_of_mem _ (List.mem_cons_of_mem _ hv))
    simp only [isWritable, isWritableName, isWritableValue, String.toList_ofList, hnone,
      Option.isNone_none, Bool.and_eq_true, Bool.not_eq_true', List.contains_eq_mem,
      decide_eq_false_iff_not]
    refine ⟨⟨⟨?_, trivial⟩, hname⟩, hvalue⟩
    rw [Bool.eq_false_iff, ne_eq, String.isEmpty_iff]
    intro he
    have := congrArg String.toList he
    rw [String.toList_ofList] at this
    cases this
  · cases h

theorem mem_of_mapM_readLine? {lines : List (List Char)} {es : List (String × String)}
    (h : lines.mapM readLine? = some es) {e : String × String} (he : e ∈ es) :
    ∃ l ∈ lines, readLine? l = some e := by
  induction lines generalizing es with
  | nil =>
    cases h
    cases he
  | cons l lines ih =>
    rw [List.mapM_cons] at h
    cases hl : readLine? l with
    | none =>
      rw [hl] at h
      cases h
    | some e' =>
      cases hr : lines.mapM readLine? with
      | none =>
        rw [hl, hr] at h
        cases h
      | some es' =>
        rw [hl, hr] at h
        cases h
        rcases List.mem_cons.mp he with rfl | he
        · exact ⟨l, List.mem_cons_self, hl⟩
        · obtain ⟨l', hl', he'⟩ := ih hr he
          exact ⟨l', List.mem_cons_of_mem _ hl', he'⟩

/-- **Every header that is read may be written.** -/
theorem isWritable_of_readHeaders {data : Bytes} {headers : Headers}
    (h : readHeaders data = .ok headers) {name value : String}
    (hv : headers.get? name = some value) : isWritable (name, value) = true := by
  unfold readHeaders at h
  split at h
  · cases h
  · rename_i text _
    split at h
    · cases h
    · rename_i read hr
      cases h
      obtain ⟨es, hes, rfl⟩ := Option.map_eq_some_iff.mp hr
      obtain ⟨l, hl, he⟩ := mem_of_mapM_readLine? hes (Table.mem_of_get?_ofList hv)
      exact isWritable_of_readLine? he (Text.notMem_of_mem_splitOn (List.mem_filter.mp hl).1)

/-! ## Messages that were read -/

/-- A message is as a frame could have brought it: with headers that may be written, its destination
apart from them, and a body where there has to be one. -/
structure Readable (m : Message) : Prop where
  headers : ∀ ⦃name value⦄, m.headers.get? name = some value → isWritable (name, value) = true
  apart : m.headers.get? Header.destination.name = none
  destination : ∀ ⦃d⦄, m.destination = some d → isWritableValue d = true
  body : m.type.layout = .headersAndBody → ∃ body, m.body = some body ∧ body.length < lengthBound

/-- A message with nothing in it. -/
theorem readable_bare {t : MessageType} (h : t.layout ≠ .headersAndBody) :
    Readable { type := t } where
  headers name value hv := by cases hv
  apart := rfl
  destination d hd := by cases hd
  body hl := absurd hl h

theorem readable_of_readPayload {t : MessageType} {payload : Bytes} {m : Message}
    (h : readPayload t payload = .ok m) : Readable m := by
  have hread : ∀ {data : Bytes} {headers : Headers} {body : Option Bytes},
      readHeaders data = .ok headers →
      (t.layout = .headersAndBody → ∃ b, body = some b ∧ b.length < lengthBound) →
      Readable
        { type := t
          headers := headers.erase Header.destination.name
          destination := headers.get? Header.destination.name
          body } := by
    intro data headers body hh hb
    refine ⟨fun name value hv => ?_, Table.get?_erase_self _ _, fun d hd => ?_, hb⟩
    · rw [Table.get?_erase] at hv
      split at hv
      · cases hv
      · exact isWritable_of_readHeaders hh hv
    · have hw := isWritable_of_readHeaders hh hd
      unfold isWritable at hw
      exact (Bool.and_eq_true_iff.mp hw).2
  unfold readPayload at h
  split at h
  · rename_i hempty
    cases h
    refine readable_bare fun hl => ?_
    rcases hempty with he | ⟨he, -⟩
    · rw [hl] at he
      cases he
    · rw [hl] at he
      cases he
  · split at h
    · cases h
    split at h
    · cases h
    rename_i headers hh
    split at h
    · split at h
      · cases h
      · rename_i body rest hb
        cases h
        exact hread hh fun _ => ⟨body, rfl, (takeBlock?_eq_some_iff.mp hb).2⟩
    · rename_i hl
      cases h
      exact hread hh fun he => absurd he hl

theorem readable_of_decode {d : Decoder} {bs : Bytes} {m : Message}
    (h : (d.decode bs).result = .ok (some m)) : Readable m := by
  have htake : ∀ {t n}, (d.takeFrame t n bs).result = .ok (some m) → Readable m := by
    intro t n ht
    unfold Decoder.takeFrame at ht
    split at ht
    · cases ht
    · rename_i frame rest _
      cases hr : readPayload t (frame.drop headerLength) with
      | error e =>
        rw [hr] at ht
        cases ht
      | ok m' =>
        rw [hr] at ht
        cases ht
        exact readable_of_readPayload hr
  unfold Decoder.decode at h
  split at h
  · exact htake h
  · split at h
    · cases h
    · cases h
    · exact htake h

theorem readable_of_bareMessage? {bs : Bytes} {m : Message}
    (h : Decoder.bareMessage? bs = .ok (some m)) : Readable m := by
  unfold Decoder.bareMessage? at h
  split at h
  · split at h
    · cases h
    · rename_i t _
      by_cases hl : t.layout = .optionalHeaders
      · rw [if_pos hl] at h
        cases h
        exact readable_bare (by rw [hl]; decide)
      · rw [if_neg hl] at h
        cases h
  · cases h

/-- **What a decoder finds is fit to be written again.** -/
theorem readable_of_next {d : Decoder} {ended : Bool} {bs : Bytes} {m : Message}
    (h : (d.next ended bs).result = .ok (some m)) : Readable m := by
  cases ended with
  | false => exact readable_of_decode h
  | true =>
    have he : (d.decodeEof bs).result = .ok (some m) := h
    unfold Decoder.decodeEof at he
    split at he
    · split at he
      · split at he
        · cases he
        · cases he
        · rename_i hb
          cases he
          exact readable_of_bareMessage? hb
      · cases he
    · exact readable_of_decode he

/-- It stays so when a header is put in its place that may be written. -/
theorem Readable.withHeader {m : Message} (h : Readable m) {name value : String}
    (hw : isWritable (name, value) = true) (hn : name ≠ Header.destination.name) :
    Readable (m.withHeader name value) where
  headers other v hv := by
    have hv' : (m.headers.insert name value).get? other = some v := hv
    rw [Table.get?_insert] at hv'
    split at hv'
    · rename_i e
      cases hv'
      exact e ▸ hw
    · exact h.headers hv'
  apart := (Table.get?_insert_of_ne _ _ (Ne.symm hn)).trans h.apart
  destination := h.destination
  body := h.body

/-! ## Writing them again -/

/-- A decoder without a limit reads a frame off the front of its input as a message. -/
def ReadsAs (frame : Bytes) (m : Message) : Prop :=
  ∀ rest, (Decoder.new 0).decode (frame ++ rest) = ⟨.ok (some m), Decoder.new 0, rest⟩

/-- How long the header block of a frame to a destination is. -/
def headerBlockLength (destination : String) (headers : List (String × String)) : Nat :=
  (utf8 (String.ofList ((frameHeaders destination headers).flatMap line))).length

/-- The order of the headers makes no difference to that. -/
theorem headerBlockLength_perm {destination : String} {hs hs' : List (String × String)}
    (h : hs.Perm hs') : headerBlockLength destination hs = headerBlockLength destination hs' := by
  have hlines : (frameHeaders destination hs).Perm (frameHeaders destination hs') :=
    (h.filter _).append_left _
  unfold headerBlockLength
  rw [utf8_ofList, utf8_ofList]
  exact ((hlines.flatMap_right _).flatMap_right _).length_eq

namespace Outgoing

variable {o : Outgoing}

/-- **A message that was read is written,** if its header block fits. -/
theorem written_of_readable (h : Readable o.message)
    (hl : o.message.type.layout = .headersAndBody) (hd : isWritableValue o.destination = true)
    (hne : o.destination.isEmpty = false)
    (hs : headerBlockLength o.destination o.message.headers.entries < lengthBound) :
    o.written.outcome = .ok () := by
  have hname : isWritableName Header.destination.name = true := by decide
  have hw : ∀ e ∈ o.lines, isWritable e = true := by
    intro e he
    rcases mem_lines.mp he with ⟨rfl, -⟩ | ⟨-, hv⟩
    · exact Bool.and_eq_true_iff.mpr ⟨hname, hd⟩
    · exact h.headers hv
  have htext : headerText o.destination o.message o.order = .ok (o.lines.flatMap line) := by
    unfold headerText
    rw [hne, hl]
    exact writeLines_eq_ok_iff.mpr ⟨hw, rfl⟩
  have hblock : (utf8 (String.ofList (o.lines.flatMap line))).length < lengthBound := by
    rw [← headerBlockLength_perm o.perm] at hs
    exact hs
  have hlayout : writtenLayout o.message.type (o.lines.flatMap line) = .headersAndBody := by
    simp [writtenLayout, hl]
  obtain ⟨body, hb, hbody⟩ := h.body hl
  unfold written encodeInto
  rw [htext]
  simp only [hlayout, putBlock, if_pos hblock, hb, Option.getD_some, if_pos hbody]

/-- It arrives as it is. -/
theorem arrival_of_readable (h : Readable o.message)
    (hl : o.message.type.layout = .headersAndBody) (hd : o.message.destination = some o.destination)
    (hne : o.destination.isEmpty = false) : o.arrival = o.message := by
  obtain ⟨body, hb, -⟩ := h.body hl
  have hno : Header.destination.name ∉ o.message.headers := by
    rw [Table.mem_iff, h.apart]
    exact Bool.false_ne_true
  have hl' : o.message.type.layout ≠ .empty := by rw [hl]; decide
  rw [arrival_eq hl', erase_ofList_lines, get?_ofList_lines, Table.erase_of_not_mem hno, hne, hl,
    hb, Option.getD_some, if_neg Bool.false_ne_true, if_pos rfl, ← hd, ← hb]

/-- **And it is read back unchanged.** -/
theorem readsAs_of_readable (h : Readable o.message) (hl : o.message.type.layout = .headersAndBody)
    (hd : o.message.destination = some o.destination) (hne : o.destination.isEmpty = false)
    (hw : o.written.outcome = .ok ()) : ReadsAs o.frame o.message := by
  intro rest
  -- The body keeps the frame from being bare, and so from being mistaken for a longer one.
  have hnot : o.message.type.layout ≠ .optionalHeaders := by
    rw [hl]
    decide
  rw [decode_frame hw (fun hx => hnot hx.1) (fun hx => absurd hx.1 hnot),
    arrival_of_readable h hl hd hne]

/-- A message to its own destination, as it is written. -/
def own (m : Message) : Outgoing :=
  ⟨m.destination.getD "", m, arranged m.headers, List.mergeSort_perm _ _⟩

theorem encodeOwn_of_written {m : Message} (h : (own m).written.outcome = .ok ()) :
    encodeOwn m = .ok (own m).frame := by
  have he : encodeOwn m = (own m).written.outcome.map fun _ => (own m).frame := rfl
  rw [he, h]
  rfl

end Outgoing

end MessageBroker.Wire
