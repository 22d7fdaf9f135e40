-- SUMMARY: The text of a diagnostic batch: what the firmware prints of it, and what the backend stores when it reads that text.
import ParkingGate.Backend.Diagnostics
import ParkingGate.Base.JsJson
import ParkingGate.Firmware.DiagnosticKept
import ParkingGate.System.WireFormat

/-!
# The text of a diagnostic batch

The batch is an array of objects in an object, so the flat documents of the commands do not do.
The library is assumed to print nested objects whose strings need no escapes. The backend reads
the text back as JavaScript values, and of a batch of recorded events no text is cut on the way.
-/

namespace Firmware

open JsonText ParkingGate

/-! ## ArduinoJson -/

namespace Json

mutual

/-- The document of the library. -/
def ofDocument : Document → Json
  | .scalar s    => ofScalar s
  | .arr elems   => .arr (ofElems elems)
  | .obj members => .obj (ofMembers members)

def ofElems : List Document → List Json
  | []      => []
  | d :: ds => ofDocument d :: ofElems ds

def ofMembers : List (List Char × Document) → List (List UInt8 × Json)
  | []              => []
  | (name, d) :: ms => (asciiBytes name, ofDocument d) :: ofMembers ms

end

mutual

/-- The compact text of a document that needs no escapes. -/
def compact : Json → List UInt8
  | .arr elems   => ascii "[" ++ (ascii ",").intercalate (compactElems elems) ++ ascii "]"
  | .obj members => ascii "\x7b" ++ (ascii ",").intercalate (compactMembers members) ++ ascii "\x7d"
  | .null        => scalarText .null
  | .bool b      => scalarText (.bool b)
  | .int n       => scalarText (.int n)
  | .float n     => scalarText (.float n)
  | .str bytes   => scalarText (.str bytes)

def compactElems : List Json → List (List UInt8)
  | []      => []
  | j :: js => compact j :: compactElems js

def compactMembers : List (List UInt8 × Json) → List (List UInt8)
  | []              => []
  | (name, j) :: ms => (ascii "\"" ++ name ++ ascii "\":" ++ compact j) :: compactMembers ms

end

theorem ofElems_eq_map (ds : List Document) : ofElems ds = ds.map ofDocument := by
  induction ds with
  | nil => rfl
  | cons d ds ih => rw [ofElems, ih, List.map_cons]

end Json

/-- `serializeJson` into a `String`: the compact text of an object whose strings need no escapes
    and whose integers are those of the library. -/
def PrintsObjects (serializeJson : Json → CString) : Prop :=
  ∀ members : List (List Char × Document),
    (∀ chars ∈ (Document.obj members).strings, chars.all plain = true) →
    (∀ n ∈ (Document.obj members).ints, isInt64 (.int n) = true) →
    serializeJson (.ofDocument (.obj members)) = CString.ofBytes (asciiBytes (Document.obj members).print)

theorem asciiBytes_intercalate (texts : List (List Char)) :
    asciiBytes ([','].intercalate texts) = (ascii ",").intercalate (texts.map asciiBytes) := by
  induction texts with
  | nil => rfl
  | cons text texts ih =>
    cases texts with
    | nil => simp
    | cons text' texts =>
      rw [List.map_cons, List.map_cons, List.intercalate_cons_cons, List.intercalate_cons_cons,
        asciiBytes_append, asciiBytes_append, ih]
      rfl

mutual

theorem compact_ofDocument : ∀ d : Document, (∀ chars ∈ d.strings, chars.all plain = true) →
    (Json.ofDocument d).compact = asciiBytes d.print
  | .scalar (.bool b), _ => scalarText_ofScalar (s := .bool b) fun _ h => by cases h
  | .scalar (.int n), _ => scalarText_ofScalar (s := .int n) fun _ h => by cases h
  | .scalar (.str chars), h => scalarText_ofScalar (s := .str chars) fun _ heq => by
    obtain rfl := Scalar.str.inj heq
    exact h chars List.mem_cons_self
  | .arr elems, h => by
    rw [Json.ofDocument, Json.compact, compactElems_ofElems elems h, Document.print, asciiBytes_append,
      ← asciiBytes_intercalate]
    rfl
  | .obj members, h => by
    rw [Json.ofDocument, Json.compact, compactMembers_ofMembers members h, Document.print,
      asciiBytes_append, ← asciiBytes_intercalate]
    rfl

theorem compactElems_ofElems : ∀ ds : List Document,
    (∀ chars ∈ Document.elemStrings ds, chars.all plain = true) →
    Json.compactElems (Json.ofElems ds) = (Document.printElems ds).map asciiBytes
  | [], _ => rfl
  | d :: ds, h => by
    rw [Json.ofElems, Json.compactElems, Document.printElems, List.map_cons,
      compact_ofDocument d fun chars hc => h chars (List.mem_append_left _ hc),
      compactElems_ofElems ds fun chars hc => h chars (List.mem_append_right _ hc)]

theorem compactMembers_ofMembers : ∀ ms : List (List Char × Document),
    (∀ chars ∈ Document.memberStrings ms, chars.all plain = true) →
    Json.compactMembers (Json.ofMembers ms) = (Document.printMembers ms).map asciiBytes
  | [], _ => rfl
  | (name, d) :: ms, h => by
    have hd := compact_ofDocument d fun chars hc =>
      h chars (List.mem_cons_of_mem _ (List.mem_append_left _ hc))
    have hms := compactMembers_ofMembers ms fun chars hc =>
      h chars (List.mem_cons_of_mem _ (List.mem_append_right _ hc))
    rw [Json.ofMembers, Json.compactMembers, Document.printMembers, List.map_cons, hd, hms,
      quote_plain (h name List.mem_cons_self)]
    simp [asciiBytes, ascii]

end

/-- A library that prints so. -/
def referenceText (j : Json) : CString := CString.ofBytes j.compact

theorem referenceText_prints : PrintsObjects referenceText := fun members hplain _ =>
  congrArg CString.ofBytes (compact_ofDocument (.obj members) hplain)

/-! ## The texts of an event -/

namespace DiagnosticEvent

/-- The message of an event in full. -/
def text : DiagnosticEvent → Option String
  | initRetry retries => some ("retry=" ++ toString (retries.val + 1))
  | backoff           => some "backoff=60000"
  | modemReset n      => some ("n=" ++ toString n.toNat)
  | mqttStuck ms      => some ("ms=" ++ toString ms.toNat)
  | pppRebuildStuck   => some "reason=mqtt_stuck"
  | pppRebuild n      => some ("n=" ++ toString n.toNat)
  | connectionRestored | connectionLost | oobReboot | oobPppRebuild => none

def levelName (e : DiagnosticEvent) : String :=
  match e.level with
  | .info  => "info"
  | .warn  => "warn"
  | .error => "error"

theorem snprintf_of_length_le {size k : Nat} {text : String} (hlen : text.length ≤ k) (hk : k < size) :
    snprintf size text = CString.ofAscii text := by
  apply CString.strncpy_of_length_le
  exact (length_ofAscii_le text).trans (hlen.trans (Nat.le_sub_one_of_lt hk))

theorem length_text_le {e : DiagnosticEvent} {t : String} (h : e.text = some t) : t.length ≤ 17 := by
  cases e with
  | connectionRestored | connectionLost | oobReboot | oobPppRebuild => cases h
  | initRetry retries =>
    obtain rfl := Option.some.inj h
    revert retries
    decide
  | backoff | pppRebuildStuck =>
    obtain rfl := Option.some.inj h
    decide
  | modemReset n | pppRebuild n =>
    obtain rfl := Option.some.inj h
    exact (length_count_le n).trans (by decide)
  | mqttStuck ms =>
    obtain rfl := Option.some.inj h
    exact (length_ms_le ms).trans (by decide)

/-- The buffers of the messages are long enough. -/
theorem message_eq (e : DiagnosticEvent) : e.message = e.text.map CString.ofAscii := by
  cases e with
  | connectionRestored | connectionLost | oobReboot | oobPppRebuild | pppRebuildStuck => rfl
  | initRetry retries =>
    revert retries
    decide +kernel
  | backoff => decide +kernel
  | modemReset n | pppRebuild n =>
    exact congrArg some (snprintf_of_length_le (length_count_le n) (by decide))
  | mqttStuck ms => exact congrArg some (snprintf_of_length_le (length_ms_le ms) (by decide))

theorem plain_toString (n : Nat) : (toString n).toList.all plain = true := by
  have htext : (toString n).toList = Nat.toDigits 10 n := Nat.toList_repr
  rw [htext, List.all_eq_true]
  intro c hc
  have hrange := Char.isDigit_iff_toNat.mp
    (Nat.isDigit_of_mem_toDigits (b := 10) (by decide) (by decide) hc)
  simp only [Char.reduceToNat] at hrange
  exact plain_of_toNat (by omega) (by omega) (by omega) (by omega)

theorem plain_text {e : DiagnosticEvent} {t : String} (h : e.text = some t) :
    t.toList.all plain = true := by
  have happend : ∀ (key : String) (n : Nat), key.toList.all plain = true →
      (key ++ toString n).toList.all plain = true := by
    intro key n hkey
    rw [String.toList_append, List.all_append, hkey, plain_toString]
    rfl
  cases e with
  | connectionRestored | connectionLost | oobReboot | oobPppRebuild => cases h
  | initRetry | modemReset | pppRebuild | mqttStuck =>
    obtain rfl := Option.some.inj h
    exact happend _ _ (by decide)
  | backoff | pppRebuildStuck =>
    obtain rfl := Option.some.inj h
    decide

theorem plain_event (e : DiagnosticEvent) : e.event.toList.all plain = true := by
  cases e <;> (simp only [event]; decide)

theorem plain_levelName (e : DiagnosticEvent) : e.levelName.toList.all plain = true := by
  cases e <;> (simp only [levelName, level]; decide)

/-! ## The document of a batch -/

def document (ts : UInt32) (e : DiagnosticEvent) : Document :=
  .obj ([("ts".toList, .scalar (.int ts.toNat)), ("level".toList, .scalar (.str e.levelName.toList)),
      ("event".toList, .scalar (.str e.event.toList))] ++
    e.text.toList.map fun t => ("message".toList, .scalar (.str t.toList)))

theorem strings_document (ts : UInt32) (e : DiagnosticEvent) :
    ∀ chars ∈ (e.document ts).strings, chars.all plain = true := by
  cases htext : e.text with
  | none =>
    simp only [document, htext, Document.strings, Document.memberStrings, Option.toList_none, List.map_nil,
      List.append_nil, List.nil_append, List.singleton_append, List.forall_mem_cons]
    exact ⟨by decide, by decide, plain_levelName e, by decide, plain_event e, by simp⟩
  | some t =>
    simp only [document, htext, Document.strings, Document.memberStrings, Option.toList_some, List.map_cons,
      List.map_nil, List.cons_append, List.append_nil, List.nil_append, List.forall_mem_cons]
    exact ⟨by decide, by decide, plain_levelName e, by decide, plain_event e, by decide, plain_text htext,
      by simp⟩

theorem ints_document (ts : UInt32) (e : DiagnosticEvent) : (e.document ts).ints = [↑ts.toNat] := by
  cases htext : e.text <;> simp [document, htext, Document.ints, Document.memberInts]

theorem entryFields_entry (ts : UInt32) (e : DiagnosticEvent) :
    DiagnosticPayload.entryFields (e.entry ts) =
      [⟨"ts", .linked (.int ts.toNat)⟩, ⟨"level", .linked (.str (ascii e.levelName))⟩,
        ⟨"event", .copied (CString.ofAscii e.event)⟩] ++
        e.text.toList.map fun t => ⟨"message", .copied (CString.ofAscii t)⟩ := by
  have hlevel : DiagnosticPayload.levelName (e.entry ts).level = .str (ascii e.levelName) := by
    cases e <;> rfl
  have hempty : (e.entry ts).message.isEmpty = e.text.isNone := by
    rw [entry_isEmpty, message_eq, Option.isNone_map]
  rw [DiagnosticPayload.entryFields, hempty, hlevel, entry_event, entry_message, message_eq]
  cases e.text <;> rfl

/-- The firmware builds this document for an entry. -/
theorem entryObject_entry (ts : UInt32) (e : DiagnosticEvent) :
    DiagnosticPayload.entryObject (e.entry ts) = .ofDocument (e.document ts) := by
  have hevent := bytes_ofAscii (all_printable_of_plain (plain_event e))
  rw [DiagnosticPayload.entryObject, entryFields_entry, document, Json.ofDocument]
  cases htext : e.text with
  | none =>
    simp only [Option.toList_none, List.map_nil, List.append_nil, List.map_cons,
      JsonMemory.Value.json, hevent]
    rfl
  | some t =>
    have hbytes := bytes_ofAscii (all_printable_of_plain (plain_text htext))
    simp only [Option.toList_some, List.map_cons, List.map_nil, List.cons_append, List.nil_append,
      JsonMemory.Value.json, hevent, hbytes]
    rfl

/-- The members of the document of a batch. -/
def batchMembers (sessionId : UInt32) (es : List (UInt32 × DiagnosticEvent)) :
    List (List Char × Document) :=
  [("deviceId".toList, .scalar (.str "mitspe6-gate-001".toList)),
    ("fwVersion".toList, .scalar (.str "fw-prod-1.0.0".toList)),
    ("sessionId".toList, .scalar (.int sessionId.toNat)),
    ("entries".toList, .arr (es.map fun e => e.2.document e.1))]

theorem isInt64_toNat (n : UInt32) : isInt64 (.int n.toNat) = true := by
  have := n.toNat_lt
  rw [isInt64, decide_eq_true_eq]
  omega

theorem strings_batch (sessionId : UInt32) (es : List (UInt32 × DiagnosticEvent)) :
    ∀ chars ∈ (Document.obj (batchMembers sessionId es)).strings, chars.all plain = true := by
  simp only [batchMembers, Document.strings, Document.memberStrings, Document.elemStrings_eq_flatMap,
    List.nil_append, List.cons_append, List.append_nil, List.forall_mem_cons]
  refine ⟨by decide, by decide, by decide, by decide, by decide, by decide, fun chars hc => ?_⟩
  obtain ⟨doc, hdoc, hc⟩ := List.mem_flatMap.mp hc
  obtain ⟨e, -, rfl⟩ := List.mem_map.mp hdoc
  exact strings_document e.1 e.2 chars hc

theorem ints_batch (sessionId : UInt32) (es : List (UInt32 × DiagnosticEvent)) :
    ∀ n ∈ (Document.obj (batchMembers sessionId es)).ints, isInt64 (.int n) = true := by
  simp only [batchMembers, Document.ints, Document.memberInts, Document.elemInts_eq_flatMap,
    List.nil_append, List.cons_append, List.append_nil, List.forall_mem_cons]
  refine ⟨isInt64_toNat sessionId, fun n hn => ?_⟩
  obtain ⟨doc, hdoc, hn⟩ := List.mem_flatMap.mp hn
  obtain ⟨e, -, rfl⟩ := List.mem_map.mp hdoc
  rw [ints_document, List.mem_singleton] at hn
  exact hn ▸ isInt64_toNat e.1

/-- Every event of a batch that fits is in the document. -/
theorem buildDocument_entries {memory : JsonMemory} {contents : memory.Pool → JsonMemory.Contents}
    (hmemory : memory.Lawful contents) (sessionId : UInt32) {es : List (UInt32 × DiagnosticEvent)}
    (hbytes : DiagnosticPayload.payloadBytes (entries es) ≤ 1024) :
    DiagnosticPayload.buildDocument memory sessionId (entries es) =
      .ofDocument (.obj (batchMembers sessionId es)) := by
  have hobjects : (entries es).map DiagnosticPayload.entryObject =
      Json.ofElems (es.map fun e => e.2.document e.1) := by
    rw [Json.ofElems_eq_map, entries, List.map_map, List.map_map]
    exact List.map_congr_left fun e _ => entryObject_entry e.1 e.2
  rw [DiagnosticPayload.buildDocument_of_bytes_le hmemory sessionId hbytes, hobjects]
  rfl

end DiagnosticEvent

end Firmware

namespace ParkingGate

open Backend Diagnostics Firmware JsonText

/-! ## Reading the text back -/

/-- `handleMessage` on the diagnostics topic; `none` when the text cannot be parsed. `inserted` is
    the answer of the database. -/
def handleMessage (numbers : NumberReading) (now : Nat) (inserted : Bool) (message : CString) :
    Option DiagnosticsOutcome :=
  (JsValue.parseJson numbers (decodeUtf8 message.bytes)).map fun payload =>
    afterInsert inserted (handleDiagnosticsMessage .decimal now payload)

/-- What is stored for an event. -/
def storedEvent (e : UInt32 × DiagnosticEvent) : DiagnosticLogEntry where
  ts := .rat e.1.toNat
  level := utf16 e.2.levelName
  event := utf16 e.2.event
  message := e.2.text.map utf16

/-- What is stored for a batch. -/
def storedBatch (sessionId : UInt32) (now : Nat) (es : List (UInt32 × DiagnosticEvent)) :
    DeviceDiagnosticLog where
  deviceId := utf16 "mitspe6-gate-001"
  receivedAt := now
  sessionId := some (utf16 (toString sessionId.toNat))
  fwVersion := some (utf16 "fw-prod-1.0.0")
  entries := es.map storedEvent

theorem utf16Units_toList {s : String} (h : s.toList.all plain = true) : utf16Units s.toList = utf16 s :=
  utf16Units_of_printable (all_printable_of_plain h)

theorem length_utf16 (s : String) : (utf16 s).length = s.length := by
  rw [utf16, List.length_map, String.length_toList]

theorem read_toNat (numbers : NumberReading) (n : UInt32) : numbers.int n.toNat = .rat n.toNat := by
  have := n.toNat_lt
  exact numbers.int_of_le n.toNat (by rw [Int.natAbs_natCast]; omega)

/-- The level and the name are there and are not cut. -/
structure Names (e : DiagnosticEvent) : Prop where
  level : utf16 e.levelName ≠ []
  event : utf16 e.event ≠ []
  length_level : (utf16 e.levelName).length ≤ 16
  length_event : (utf16 e.event).length ≤ 64

theorem names_spec (e : DiagnosticEvent) : Names e := by
  have hall : utf16 e.levelName ≠ [] ∧ utf16 e.event ≠ [] ∧ (utf16 e.levelName).length ≤ 16 ∧
      (utf16 e.event).length ≤ 64 := by
    cases e <;> simp only [DiagnosticEvent.levelName, DiagnosticEvent.level, DiagnosticEvent.event] <;>
      decide
  exact ⟨hall.1, hall.2.1, hall.2.2.1, hall.2.2.2⟩

section Entry

variable (numbers : NumberReading) (e : UInt32 × DiagnosticEvent)

/-- The object of an event as the backend sees it. -/
theorem ofJson_document :
    JsValue.ofJson numbers (e.2.document e.1).value =
      .obj ([(utf16 "ts", .number (.rat e.1.toNat)), (utf16 "level", .str (utf16 e.2.levelName)),
        (utf16 "event", .str (utf16 e.2.event))] ++
          e.2.text.toList.map fun t => (utf16 "message", .str (utf16 t))) := by
  have hlevel := utf16Units_toList (DiagnosticEvent.plain_levelName e.2)
  have hevent := utf16Units_toList (DiagnosticEvent.plain_event e.2)
  have hkeys : utf16Units "ts".toList = utf16 "ts" ∧ utf16Units "level".toList = utf16 "level" ∧
      utf16Units "event".toList = utf16 "event" ∧ utf16Units "message".toList = utf16 "message" := by decide
  obtain ⟨hts, hlevelKey, heventKey, hmessageKey⟩ := hkeys
  cases htext : e.2.text with
  | none =>
    simp only [DiagnosticEvent.document, htext, Document.value, Document.memberValues, Scalar.value,
      JsValue.ofJson, JsValue.ofMembers, Option.toList_none, List.map_nil, List.append_nil, hlevel,
      hevent, read_toNat, hts, hlevelKey, heventKey]
  | some t =>
    have hmessage := utf16Units_toList (DiagnosticEvent.plain_text htext)
    simp only [DiagnosticEvent.document, htext, Document.value, Document.memberValues, Scalar.value,
      JsValue.ofJson, JsValue.ofMembers, Option.toList_some, List.map_cons, List.map_nil,
      List.cons_append, List.nil_append, hlevel, hevent, hmessage, read_toNat, hts, hlevelKey,
      heventKey, hmessageKey]

/-- The entry is stored as it was recorded. -/
theorem toEntry_document :
    isEntry (JsValue.ofJson numbers (e.2.document e.1).value) = true ∧
      toEntry .decimal (JsValue.ofJson numbers (e.2.document e.1).value) = some (storedEvent e) := by
  have hts : (JsValue.ofJson numbers (e.2.document e.1).value).get "ts" =
      some (.number (.rat e.1.toNat)) := by
    rw [ofJson_document]
    cases e.2.text <;> rfl
  have hlevel : (JsValue.ofJson numbers (e.2.document e.1).value).get "level" =
      some (.str (utf16 e.2.levelName)) := by
    rw [ofJson_document]
    cases e.2.text <;> rfl
  have hevent : (JsValue.ofJson numbers (e.2.document e.1).value).get "event" =
      some (.str (utf16 e.2.event)) := by
    rw [ofJson_document]
    cases e.2.text <;> rfl
  have hmessage : (JsValue.ofJson numbers (e.2.document e.1).value).get "message" =
      e.2.text.map fun t => .str (utf16 t) := by
    rw [ofJson_document]
    cases e.2.text <;> rfl
  have hentry : isEntry (JsValue.ofJson numbers (e.2.document e.1).value) = true :=
    isEntry_iff.mpr ⟨_, _, hts, hevent⟩
  have hlevelText : levelToString .decimal ((JsValue.ofJson numbers (e.2.document e.1).value).get "level") =
      some ((utf16 e.2.levelName).take 16) := by
    rw [hlevel]
    exact levelToString_str .decimal _
  have hlevelCut : (storedEvent e).level = ((utf16 e.2.levelName).take 16).take 16 := by
    rw [List.take_of_length_le (names_spec e.2).length_level,
      List.take_of_length_le (names_spec e.2).length_level]
    rfl
  have heventCut : (storedEvent e).event = (utf16 e.2.event).take 64 :=
    (List.take_of_length_le (names_spec e.2).length_event).symm
  refine ⟨hentry, (toEntry_eq_some_iff .decimal hentry).mpr
    ⟨hts, ⟨_, hlevelText, hlevelCut⟩, ⟨_, hevent, heventCut⟩, ?_⟩⟩
  rw [hmessage, storedEvent]
  cases htext : e.2.text with
  | none => rfl
  | some t =>
    have hlen : (utf16 t).length ≤ 256 := by
      rw [length_utf16]
      exact (DiagnosticEvent.length_text_le htext).trans (by decide)
    exact congrArg (fun t => some (some t)) (List.take_of_length_le hlen)

end Entry

/-- `mapM` over values that all convert. -/
theorem mapM_eq_some {α β : Type} {f : α → Option β} {g : α → β} {l : List α}
    (h : ∀ a ∈ l, f a = some (g a)) :
    l.mapM f = some (l.map g) := by
  induction l with
  | nil => rfl
  | cons a l ih =>
    rw [List.mapM_cons, h a List.mem_cons_self, ih fun b hb => h b (List.mem_cons_of_mem _ hb)]
    rfl

theorem decimal_toNat (n : UInt32) : JsNumber.decimal (.rat n.toNat) = utf16 (toString n.toNat) := by
  have hnum : (n.toNat : Rat).num = n.toNat := Rat.num_natCast n.toNat
  have hneg : ¬ (n.toNat : Rat).num < 0 := by
    rw [hnum]
    omega
  rw [JsNumber.decimal, if_neg hneg, hnum, Int.natAbs_natCast, List.nil_append]
  exact congrArg _ Nat.toList_repr.symm

section Batch

variable (numbers : NumberReading) (sessionId : UInt32) (es : List (UInt32 × DiagnosticEvent))

/-- The document of a batch as the backend sees it. -/
theorem ofJson_batch :
    JsValue.ofJson numbers (Document.obj (DiagnosticEvent.batchMembers sessionId es)).value =
      .obj [(utf16 "deviceId", .str (utf16 "mitspe6-gate-001")),
        (utf16 "fwVersion", .str (utf16 "fw-prod-1.0.0")),
        (utf16 "sessionId", .number (.rat sessionId.toNat)),
        (utf16 "entries", .arr (es.map fun e => JsValue.ofJson numbers (e.2.document e.1).value))] := by
  have hkeys : utf16Units "deviceId".toList = utf16 "deviceId" ∧
      utf16Units "fwVersion".toList = utf16 "fwVersion" ∧
      utf16Units "sessionId".toList = utf16 "sessionId" ∧ utf16Units "entries".toList = utf16 "entries" ∧
      utf16Units "mitspe6-gate-001".toList = utf16 "mitspe6-gate-001" ∧
      utf16Units "fw-prod-1.0.0".toList = utf16 "fw-prod-1.0.0" := by decide
  obtain ⟨hdevice, hfw, hsession, hentries, hid, hversion⟩ := hkeys
  simp only [DiagnosticEvent.batchMembers, Document.value, Document.memberValues, Document.values_eq_map,
    Scalar.value, JsValue.ofJson, JsValue.ofMembers, JsValue.ofElems_eq_map, List.map_map,
      Function.comp_def,
    read_toNat, hdevice, hfw, hsession, hentries, hid, hversion]

/-- A batch of at most ten events is stored as it is. -/
theorem handle_batch (now : Nat) (hne : es ≠ []) (hlen : es.length ≤ 10) :
    handleDiagnosticsMessage .decimal now
        (JsValue.ofJson numbers (Document.obj (DiagnosticEvent.batchMembers sessionId es)).value) =
      .stored (storedBatch sessionId now es) := by
  let elems := es.map fun e => JsValue.ofJson numbers (e.2.document e.1).value
  have hbatch := ofJson_batch numbers sessionId es
  have hid : (JsValue.ofJson numbers (Document.obj (DiagnosticEvent.batchMembers sessionId es)).value).get
      "deviceId" = some (.str (utf16 "mitspe6-gate-001")) := by
    rw [hbatch]
    rfl
  have hentries : (JsValue.ofJson numbers
        (Document.obj (DiagnosticEvent.batchMembers sessionId es)).value).get
      "entries" = some (.arr elems) := by
    rw [hbatch]
    rfl
  have hkept : (elems.take 100).filter isEntry = elems := by
    rw [List.take_of_length_le (by rw [List.length_map]; omega), List.filter_eq_self]
    intro v hv
    obtain ⟨e, -, rfl⟩ := List.mem_map.mp hv
    exact (toEntry_document numbers e).1
  have hmapM : elems.mapM (toEntry .decimal) = some (es.map storedEvent) := by
    rw [List.mapM_map]
    exact mapM_eq_some fun e _ => (toEntry_document numbers e).2
  have hsession : JsNumber.decimal (.rat sessionId.toNat) = _ := decimal_toNat sessionId
  refine (handle_stored_iff .decimal now hid (by decide) hentries).mpr ⟨?_, ?_, ?_⟩
  · refine (document_eq_some_iff .decimal).mpr ⟨?_, ?_, ?_, rfl, rfl⟩
    · rw [hkept]
      exact hmapM
    · rw [hbatch]
      have hlen : (utf16 (toString sessionId.toNat)).length ≤ 64 := by
        rw [length_utf16]
        have hdigits := DiagnosticEvent.length_toString_le (n := sessionId.toNat) (k := 10)
          (by have := sessionId.toNat_lt; omega) (by decide)
        omega
      have hcut := List.take_of_length_le hlen
      rw [← hsession] at hcut
      exact congrArg (fun t => some (some t)) (hcut.trans hsession)
    · rw [hbatch]
      rfl
  · exact fun hnil => hne (List.map_eq_nil_iff.mp hnil)
  · refine valid_iff.mpr ⟨(by decide : utf16 "mitspe6-gate-001" ≠ []), fun d hd => ?_⟩
    obtain ⟨e, -, rfl⟩ := List.mem_map.mp hd
    exact ⟨(names_spec e.2).level, (names_spec e.2).event⟩

/-- What the device publishes of a batch is stored by the backend, with every event in full, if the
    database takes it. -/
theorem handleMessage_batch {memory : JsonMemory} {contents : memory.Pool → JsonMemory.Contents}
    (hmemory : memory.Lawful contents) {serializeJson : Json → CString}
    (hprints : PrintsObjects serializeJson)
    (now : Nat) (inserted : Bool) (hne : es ≠ []) (hlen : es.length ≤ 10)
    (hbytes : DiagnosticPayload.payloadBytes (DiagnosticEvent.entries es) ≤ 1024) :
    handleMessage numbers now inserted
        (serializeJson (DiagnosticPayload.buildDocument memory sessionId (DiagnosticEvent.entries es))) =
      some (if inserted then .stored (storedBatch sessionId now es) else .failed) := by
  have hplain := DiagnosticEvent.strings_batch sessionId es
  have hprintable := Document.print_printable (.obj (DiagnosticEvent.batchMembers sessionId es))
    fun chars hc => all_printable_of_plain (hplain chars hc)
  rw [DiagnosticEvent.buildDocument_entries hmemory sessionId hbytes,
    hprints _ hplain (DiagnosticEvent.ints_batch sessionId es), handleMessage,
      bytes_ofBytes_asciiBytes hprintable,
    decodeUtf8_of_printable hprintable, JsValue.parseJson, Document.parse_print]
  exact congrArg (fun outcome => some (afterInsert inserted outcome))
    (handle_batch numbers sessionId es now hne hlen)

end Batch

end ParkingGate
