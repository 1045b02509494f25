import Mathlib.Data.List.Nodup
import MessageBroker.Proofs.Wire.Intake

/-!
# Which messages can be written

Whether a message can be written is settled before its first byte goes into the buffer. It has to go
somewhere if its type asks for that, and every line of its header block has to be one that is read
back as it was written. If so, one frame is put behind what the buffer holds; if not, the buffer is
left as it was. Neither what the buffer holds nor the order in which the headers come up has a part
in it, but for which of several faulty headers is named.

Headlines:
* **`splitName_eq_none_iff`**, **`isWritable_eq_false_iff`**: which headers a line cannot carry.
* **`encodeInto_of_fits`**: what is appended to a buffer, where the blocks fit their prefixes.
* **`Outgoing.verdict`**: which messages are refused and why, and what becomes of the buffer.
-/

namespace MessageBroker.Wire

/-! ## Lines that cannot be written -/

/-- **A text is cut at a separator exactly if there is one in it.** -/
theorem splitName_eq_none_iff {cs : List Char} : splitName cs = none ↔ ¬ [':', ' '] <:+: cs := by
  constructor
  · rintro h ⟨front, back, rfl⟩
    obtain ⟨p, hp⟩ := exists_splitName front back
    rw [List.append_assoc] at h
    cases hp.symm.trans h
  · intro h
    cases hs : splitName cs with
    | none => rfl
    | some p =>
      obtain ⟨name, value⟩ := p
      obtain ⟨rfl, -⟩ := splitName_eq_some hs
      exact absurd ⟨name, value, by simp⟩ h

/-- A header that no line can carry: it has no name, its name holds a separator or the end of a
line, or its value does hold one. -/
def Unfit (name value : String) : Prop :=
  name = "" ∨ [':', ' '] <:+: name.toList ∨ '\n' ∈ name.toList ∨ '\n' ∈ value.toList

/-- **Which headers a line cannot carry.** -/
theorem isWritable_eq_false_iff {name value : String} :
    isWritable (name, value) = false ↔ Unfit name value := by
  unfold isWritable isWritableName isWritableValue Unfit
  rw [← not_iff_not, Bool.not_eq_false]
  simp only [Bool.and_eq_true, Bool.not_eq_true', String.isEmpty_eq_false_iff,
    Option.isNone_iff_eq_none, splitName_eq_none_iff, List.contains_eq_mem,
    decide_eq_false_iff_not, not_or, and_assoc, ne_eq]

theorem writeLines_of_unwritable {es : List (String × String)}
    (h : ∃ e ∈ es, isWritable e = false) :
    ∃ e ∈ es, isWritable e = false ∧ writeLines es = .error (.invalidHeader e.1) := by
  unfold writeLines
  cases hf : es.find? fun e => !isWritable e with
  | none =>
    obtain ⟨e, he, hw⟩ := h
    have := List.find?_eq_none.mp hf e he
    rw [hw] at this
    exact absurd rfl this
  | some e =>
    refine ⟨e, List.mem_of_find?_eq_some hf, ?_, rfl⟩
    simpa using List.find?_some hf

/-! ## Why a message cannot be written -/

/-- A message that has to go somewhere is sent nowhere. -/
def Astray (destination : String) (m : Message) : Prop :=
  destination = "" ∧ (m.type = .message ∨ m.type = .subscribe)

/-- A header keeps a message from being written to a destination: the destination, as the header
that it travels as, or one of the headers of other names. -/
inductive Obstructs (destination : String) (m : Message) : String → Prop
  | destination (broken : '\n' ∈ destination.toList) :
    Obstructs destination m Header.destination.name
  | header {name value : String} (listed : m.headers.get? name = some value)
    (other : name ≠ Header.destination.name) (unfit : Unfit name value) :
    Obstructs destination m name

/-- What the header block of a message to a destination shows: the destination, if there is one, and
the headers of other names. -/
def Shows (destination : String) (m : Message) (e : String × String) : Prop :=
  e = (Header.destination.name, destination) ∧ destination ≠ "" ∨
    e.1 ≠ Header.destination.name ∧ m.headers.get? e.1 = some e.2

/-- The text of a header block with the given lines. -/
def headerBlock (es : List (String × String)) : Bytes := utf8 (String.ofList (es.flatMap line))

/-- The blocks of a frame with the given header lines. -/
def blocksOf (m : Message) (es : List (String × String)) : List Bytes :=
  match m.type.layout with
  | .empty => []
  | .optionalHeaders => if es = [] then [] else [headerBlock es]
  | .headers => [headerBlock es]
  | .headersAndBody => [headerBlock es, m.body.getD []]

variable {destination : String} {m : Message} {order : List (String × String)}

theorem astray_iff : Astray destination m ↔
    (destination.isEmpty && m.type.requiresDestination) = true := by
  unfold Astray
  rw [Bool.and_eq_true, String.isEmpty_iff]
  refine and_congr_right fun _ => ?_
  cases m.type <;> decide

theorem headerText_of_astray (h : Astray destination m) :
    headerText destination m order = .error (.destinationRequired m.type) := by
  unfold headerText
  rw [if_pos (astray_iff.mp h)]

theorem headerText_of_empty (h : ¬ Astray destination m) (hl : m.type.layout = .empty) :
    headerText destination m order = .ok [] := by
  unfold headerText
  rw [if_neg (mt astray_iff.mpr h), if_pos hl]

theorem headerText_of_ne_empty (h : ¬ Astray destination m) (hl : m.type.layout ≠ .empty) :
    headerText destination m order = writeLines (frameHeaders destination order) := by
  unfold headerText
  rw [if_neg (mt astray_iff.mpr h), if_neg hl]

theorem encodeInto_of_error {e : EncodeError} (h : headerText destination m order = .error e)
    (buffer : Bytes) : encodeInto destination m order buffer = ⟨buffer, .error e⟩ := by
  unfold encodeInto
  rw [h]

theorem putBlock_of_lt {data : Bytes} (h : data.length < lengthBound) (buffer : Bytes) :
    putBlock data buffer = ⟨buffer ++ block data, .ok ()⟩ :=
  if_pos h

/-- **What is appended to a buffer,** where the blocks fit their prefixes. -/
theorem encodeInto_of_fits {text : List Char} (h : headerText destination m order = .ok text)
    (hs : (utf8 (String.ofList text)).length < lengthBound)
    (hb : (m.body.getD []).length < lengthBound) (buffer : Bytes) :
    encodeInto destination m order buffer = ⟨buffer ++ (marker ++ m.type.toByte ::
      payload (writtenLayout m.type text) (utf8 (String.ofList text)) (m.body.getD [])),
      .ok ()⟩ := by
  unfold encodeInto
  simp only [h]
  cases writtenLayout m.type text <;> simp [payload, putBlock_of_lt hs, putBlock_of_lt hb]

/-- The bytes behind the type byte are the blocks of the frame. -/
theorem payload_eq_flatMap_block (hl : m.type.layout ≠ .empty) (es : List (String × String)) :
    payload (writtenLayout m.type (es.flatMap line)) (headerBlock es) (m.body.getD []) =
      (blocksOf m es).flatMap block := by
  unfold writtenLayout blocksOf
  simp only [flatMap_line_eq_nil_iff]
  cases hlayout : m.type.layout with
  | empty => exact absurd hlayout hl
  | optionalHeaders => by_cases hes : es = [] <;> simp [hes, payload]
  | headers => simp [payload]
  | headersAndBody => simp [payload]

/-- The blocks make a whole frame wherever they are allowed. -/
theorem wholeFrame_blocksOf {limit : Nat} {es : List (String × String)}
    (hs : Allowed limit (headerBlock es).length) (hb : Allowed limit (m.body.getD []).length) :
    WholeFrame limit m.type (blocksOf m es) := by
  unfold blocksOf
  constructor
  · cases m.type.layout with
    | optionalHeaders => by_cases hes : es = [] <;> simp [hes, blockCounts]
    | _ => simp [blockCounts]
  · cases m.type.layout with
    | empty => exact fun _ h => absurd h List.not_mem_nil
    | optionalHeaders =>
      by_cases hes : es = []
      · simp [hes]
      · simpa [hes] using hs
    | headers => simpa using hs
    | headersAndBody => simpa using ⟨hs, hb⟩

namespace Outgoing

variable {o : Outgoing}

/-- Appends the frame to a buffer. -/
def onto (o : Outgoing) (buffer : Bytes) : Written :=
  encodeInto o.destination o.message o.order buffer

theorem mem_lines_iff {e : String × String} : e ∈ o.lines ↔ Shows o.destination o.message e := by
  unfold Shows
  rw [mem_lines, String.isEmpty_eq_false_iff]

/-- A message that is obstructed has a line that cannot be written, and the other way round. -/
theorem obstructs_iff {name : String} : Obstructs o.destination o.message name ↔
    ∃ e ∈ o.lines, isWritable e = false ∧ e.1 = name := by
  -- The name of the destination's header is sound, so it is for the destination itself alone.
  have hdest : isWritable (Header.destination.name, o.destination) = false ↔
      '\n' ∈ o.destination.toList := by
    have hname : isWritableName Header.destination.name = true := by decide
    simp [isWritable, isWritableValue, hname]
  constructor
  · intro h
    cases h with
    | destination broken =>
      refine ⟨_, mem_lines_iff.mpr (.inl ⟨rfl, ?_⟩), hdest.mpr broken, rfl⟩
      intro hd
      rw [hd] at broken
      cases broken
    | header listed other unfit =>
      exact ⟨_, mem_lines_iff.mpr (.inr ⟨other, listed⟩), isWritable_eq_false_iff.mpr unfit, rfl⟩
  · rintro ⟨⟨n, v⟩, he, hw, rfl⟩
    rcases mem_lines_iff.mp he with ⟨he, -⟩ | ⟨hother, hlisted⟩
    · cases he
      exact .destination (hdest.mp hw)
    · exact .header hlisted hother (isWritable_eq_false_iff.mp hw)

theorem nodup_lines (o : Outgoing) : o.lines.Nodup := List.Nodup.of_map _ o.keys_lines_nodup

/-- The order of the headers changes the order of the lines, and nothing else. -/
theorem lines_perm {o' : Outgoing} (hd : o'.destination = o.destination)
    (hm : o'.message = o.message) : o'.lines.Perm o.lines :=
  (List.perm_ext_iff_of_nodup o'.nodup_lines o.nodup_lines).mpr fun e => by
    rw [mem_lines_iff, mem_lines_iff, hd, hm]

theorem length_headerBlock_lines (o : Outgoing) : (headerBlock o.lines).length =
    headerBlockLength o.destination o.message.headers.entries :=
  headerBlockLength_perm o.perm

/-- The verdict on a message that is to be appended to a buffer. -/
structure Verdict (o : Outgoing) (buffer : Bytes) : Prop where
  /-- It is refused exactly if it goes astray or, where its type has headers, one obstructs it. -/
  refused_iff : (∃ e, (o.onto buffer).outcome = .error e) ↔ Astray o.destination o.message ∨
    o.message.type.layout ≠ .empty ∧ ∃ name, Obstructs o.destination o.message name
  /-- That it goes astray is told first. -/
  astray : Astray o.destination o.message →
    (o.onto buffer).outcome = .error (.destinationRequired o.message.type)
  /-- Of the headers that obstruct it one is named. -/
  obstructed : ¬ Astray o.destination o.message → o.message.type.layout ≠ .empty →
    (∃ name, Obstructs o.destination o.message name) →
    ∃ name, Obstructs o.destination o.message name ∧
      (o.onto buffer).outcome = .error (.invalidHeader name)
  /-- A refusal leaves the buffer as it was. -/
  untouched : ∀ e, (o.onto buffer).outcome = .error e → (o.onto buffer).buffer = buffer
  /-- What is not refused is appended as one whole frame, whose bytes are the same behind whatever
  the buffer holds. -/
  appended : (o.onto buffer).outcome = .ok () →
    WholeFrame 0 o.message.type (blocksOf o.message o.lines) ∧
      ∀ other, o.onto other = ⟨other ++ frameOf o.message.type (blocksOf o.message o.lines), .ok ()⟩
  /-- Its header lines, none of them twice, are given by the message and the destination alone. -/
  shows : o.lines.Nodup ∧ ∀ e, e ∈ o.lines ↔ Shows o.destination o.message e
  /-- In another order of the headers the verdict is the same, and so are the lines. -/
  anyOrder : ∀ o' : Outgoing, o'.destination = o.destination → o'.message = o.message →
    ((o'.onto buffer).outcome = .ok () ↔ (o.onto buffer).outcome = .ok ()) ∧
      o'.lines.Perm o.lines

/-- A message that neither goes astray nor is obstructed is appended as a frame. -/
theorem onto_of_sound (ha : ¬ Astray o.destination o.message)
    (ho : o.message.type.layout ≠ .empty → ∀ name, ¬ Obstructs o.destination o.message name)
    (hs : headerBlockLength o.destination o.message.headers.entries < lengthBound)
    (hb : (o.message.body.getD []).length < lengthBound) (buffer : Bytes) :
    o.onto buffer =
      ⟨buffer ++ frameOf o.message.type (blocksOf o.message o.lines), .ok ()⟩ := by
  rw [← length_headerBlock_lines] at hs
  unfold onto frameOf
  by_cases hl : o.message.type.layout = .empty
  · rw [encodeInto_of_fits (headerText_of_empty ha hl) (by decide) hb]
    simp [writtenLayout, blocksOf, hl, payload]
  · have hw : ∀ e ∈ o.lines, isWritable e = true := fun e he =>
      Bool.not_eq_false _ ▸ fun hf => ho hl e.1 (obstructs_iff.mpr ⟨e, he, hf, rfl⟩)
    have ht : headerText o.destination o.message o.order = .ok (o.lines.flatMap line) :=
      (headerText_of_ne_empty ha hl).trans (writeLines_eq_ok_iff.mpr ⟨hw, rfl⟩)
    rw [encodeInto_of_fits ht hs hb]
    have hp := payload_eq_flatMap_block hl o.lines
    unfold headerBlock at hp
    rw [hp]

/-- A message that is obstructed is refused for one of the headers that obstruct it. -/
theorem onto_of_obstructed (ha : ¬ Astray o.destination o.message)
    (hl : o.message.type.layout ≠ .empty)
    (h : ∃ name, Obstructs o.destination o.message name) (buffer : Bytes) :
    ∃ name, Obstructs o.destination o.message name ∧
      o.onto buffer = ⟨buffer, .error (.invalidHeader name)⟩ := by
  obtain ⟨name, hname⟩ := h
  obtain ⟨e, he, hw, -⟩ := obstructs_iff.mp hname
  obtain ⟨e, he, hw, ht⟩ := writeLines_of_unwritable ⟨e, he, hw⟩
  exact ⟨e.1, obstructs_iff.mpr ⟨e, he, hw, rfl⟩,
    encodeInto_of_error ((headerText_of_ne_empty ha hl).trans ht) buffer⟩

theorem onto_of_astray (h : Astray o.destination o.message) (buffer : Bytes) :
    o.onto buffer = ⟨buffer, .error (.destinationRequired o.message.type)⟩ :=
  encodeInto_of_error (headerText_of_astray h) buffer

/-- Just those messages are written. -/
theorem outcome_onto_eq_ok_iff
    (hs : headerBlockLength o.destination o.message.headers.entries < lengthBound)
    (hb : (o.message.body.getD []).length < lengthBound) (buffer : Bytes) :
    (o.onto buffer).outcome = .ok () ↔ ¬ Astray o.destination o.message ∧
      (o.message.type.layout ≠ .empty → ∀ name, ¬ Obstructs o.destination o.message name) := by
  constructor
  · intro h
    have ha : ¬ Astray o.destination o.message := fun ha => by
      rw [onto_of_astray ha] at h
      cases h
    refine ⟨ha, fun hl name hname => ?_⟩
    obtain ⟨_, -, ho⟩ := onto_of_obstructed ha hl ⟨name, hname⟩ buffer
    rw [ho] at h
    cases h
  · rintro ⟨ha, ho⟩
    rw [onto_of_sound ha ho hs hb]

/-- **Which messages are refused and why, and what becomes of the buffer,** for every message whose
header block and body fit their prefixes. -/
theorem verdict (o : Outgoing) (buffer : Bytes)
    (hs : headerBlockLength o.destination o.message.headers.entries < lengthBound)
    (hb : (o.message.body.getD []).length < lengthBound) : o.Verdict buffer where
  refused_iff := by
    have hok := outcome_onto_eq_ok_iff hs hb buffer
    have herror : (∃ e, (o.onto buffer).outcome = .error e) ↔
        ¬ (o.onto buffer).outcome = .ok () := by
      rcases (o.onto buffer).outcome with e | ⟨⟩ <;> simp
    rw [herror, hok]
    simp only [not_and_or, not_not, not_forall, exists_prop]
  astray ha := by rw [onto_of_astray ha]
  obstructed ha hl h := by
    obtain ⟨name, hname, ho⟩ := onto_of_obstructed ha hl h buffer
    exact ⟨name, hname, by rw [ho]⟩
  untouched e he := by
    by_cases ha : Astray o.destination o.message
    · rw [onto_of_astray ha]
    by_cases h : o.message.type.layout ≠ .empty ∧ ∃ name, Obstructs o.destination o.message name
    · obtain ⟨_, -, ho⟩ := onto_of_obstructed ha h.1 h.2 buffer
      rw [ho]
    · have hok := (outcome_onto_eq_ok_iff hs hb buffer).mpr
        ⟨ha, fun hl name hname => h ⟨hl, name, hname⟩⟩
      rw [hok] at he
      cases he
  appended hok := by
    obtain ⟨ha, ho⟩ := (outcome_onto_eq_ok_iff hs hb buffer).mp hok
    exact ⟨wholeFrame_blocksOf ⟨by rwa [length_headerBlock_lines], .inl rfl⟩ ⟨hb, .inl rfl⟩,
      fun other => onto_of_sound ha ho hs hb other⟩
  shows := ⟨o.nodup_lines, fun _ => mem_lines_iff⟩
  anyOrder o' hd hm := by
    refine ⟨?_, lines_perm hd hm⟩
    rw [outcome_onto_eq_ok_iff hs hb, outcome_onto_eq_ok_iff (by rwa [hd, hm]) (by rwa [hm]), hd,
      hm]

/-- A farewell that says too much: a header of two lines. -/
def scrawl : Outgoing where
  destination := "news"
  message := { type := .unsubscribe, headers := (∅ : Headers).insert "to:" "all\nof you" }
  order := [("to:", "all\nof you")]
  perm := .refl _

theorem verdict_scrawl :
    headerBlockLength scrawl.destination scrawl.message.headers.entries < lengthBound ∧
      (scrawl.message.body.getD []).length < lengthBound ∧ scrawl.Verdict (utf8 "MSG:") := by
  have hs : headerBlockLength scrawl.destination scrawl.message.headers.entries < lengthBound := by
    decide +kernel
  have hb : (scrawl.message.body.getD []).length < lengthBound := by decide
  exact ⟨hs, hb, verdict scrawl (utf8 "MSG:") hs hb⟩

end Outgoing

end MessageBroker.Wire
