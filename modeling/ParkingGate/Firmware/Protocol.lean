-- SUMMARY: The JSON messages of the device (`Protocol.cpp`): parsing a command and building an ACK, over the ArduinoJson library as a parameter.
import ParkingGate.Base.CString

/-!
# Command and ACK messages

ArduinoJson is not part of the repository. The model takes its two entry points as
parameters and keeps what the firmware does with a parsed document: which members it
looks up, which types it accepts, and how it copies strings into fixed buffers.
-/

namespace Firmware

/-- A JSON document, as far as the firmware tells values apart. -/
inductive Json where
  | null
  | bool (b : Bool)
  | int (n : Int)
  /-- Any other number; the firmware only reads its integral part. -/
  | float (truncated : Int)
  | str (bytes : List UInt8)
  | arr (elems : List Json)
  | obj (members : List (List UInt8 × Json))

namespace Json

/-- `doc[key]`, if `doc.containsKey(key)`. -/
def member (doc : Json) (key : String) : Option Json :=
  match doc with
  | .obj members => (members.find? fun m => m.1 = ascii key).map (·.2)
  | _            => none

/-- `as<const char*>()`, if `is<const char*>()`. -/
def asString : Json → Option CString
  | .str bytes => some (CString.ofBytes bytes)
  | _          => none

/-- The `unsigned long long` that `parseCommand` makes of a number: unsigned when it fits,
    else through `long long`, else through `double`. -/
def asTimestamp : Json → Option UInt64
  | .int n           => some (UInt64.ofInt n)
  | .float truncated => some (UInt64.ofInt truncated)
  | _                => none

end Json

/-- The two functions of ArduinoJson that the firmware calls. -/
structure ArduinoJson where
  /-- `deserializeJson` into a `StaticJsonDocument<capacity>`; `none` is an error. -/
  deserializeJson : (capacity : Nat) → CString → Option Json
  /-- What `serializeJson` leaves in a buffer of `outputSize` bytes. -/
  serializeJson : Json → (outputSize : Nat) → CString

structure CommandResult where
  requestId : CString
  command : CString
  userId : CString
  issuedAt : UInt64

namespace Protocol

/-- `none` when the message is rejected; the `valid` flag of the source is `isSome`. -/
def parseCommand (lib : ArduinoJson) (json : CString) : Option CommandResult := do
  let doc ← lib.deserializeJson 512 json
  let requestId ← (← doc.member "requestId").asString
  let command ← (← doc.member "command").asString
  let userId ← (← doc.member "userId").asString
  let issuedAt ← (← doc.member "issuedAt").asTimestamp
  return {
    requestId := requestId.strncpy 36
    command := command.strncpy 15
    userId := userId.strncpy 63
    issuedAt := issuedAt }

/-- The document of an ACK; `none` is the null pointer. -/
def ackDocument (requestId : CString) (ok : Bool) (errorCode : Option CString) : Json :=
  .obj <|
    [(ascii "requestId", .str requestId.bytes), (ascii "ok", .bool ok)] ++
      match ok, errorCode with
      | false, some code => [(ascii "errorCode", .str code.bytes)]
      | _, _             => []

def createAck (lib : ArduinoJson) (requestId : CString) (ok : Bool) (errorCode : Option CString)
    (outputSize : Nat) : CString :=
  lib.serializeJson (ackDocument requestId ok errorCode) outputSize

/-- The request id of a parsed command is the member of that name, cut to its buffer. -/
theorem parseCommand_requestId {lib : ArduinoJson} {json : CString} {cmd : CommandResult}
    (h : parseCommand lib json = some cmd) :
    ∃ doc value requestId, lib.deserializeJson 512 json = some doc ∧
      doc.member "requestId" = some value ∧ value.asString = some requestId ∧
      cmd.requestId = requestId.strncpy 36 := by
  simp only [parseCommand, bind, Option.bind_eq_some_iff, pure, Option.some.injEq] at h
  obtain ⟨doc, hdoc, value, hvalue, requestId, hstr, _, -, _, -, _, -, _, -, _, -, _, -, rfl⟩ := h
  exact ⟨doc, value, requestId, hdoc, hvalue, hstr, rfl⟩

theorem length_requestId_le {lib : ArduinoJson} {json : CString} {cmd : CommandResult}
    (h : parseCommand lib json = some cmd) : cmd.requestId.bytes.length ≤ 36 := by
  obtain ⟨-, -, requestId, -, -, -, heq⟩ := parseCommand_requestId h
  rw [heq]
  exact requestId.length_strncpy_le 36

end Protocol

/-! ## Texts of messages -/

namespace Json

/-- The text of a value that needs no escapes. -/
def scalarText : Json → List UInt8
  | .bool b    => ascii (if b then "true" else "false")
  | .int n     => ascii (toString n)
  | .str bytes => ascii "\"" ++ bytes ++ ascii "\""
  | _          => ascii "null"

/-- The compact text of a flat object. -/
def text : Json → List UInt8
  | .obj members =>
    let member := fun m : List UInt8 × Json => ascii "\"" ++ m.1 ++ ascii "\":" ++ m.2.scalarText
    ascii "\x7b" ++ (ascii ",").intercalate (members.map member) ++ ascii "\x7d"
  | doc => doc.scalarText

end Json

/-- ArduinoJson on flat documents: it prints them, and it parses the texts of `docs`. Runs
    on concrete messages are evaluated with it. -/
def ArduinoJson.ofDocuments (docs : List Json) : ArduinoJson where
  deserializeJson _ json := docs.find? fun doc => doc.text = json.bytes
  serializeJson doc outputSize := CString.ofBytes (doc.text.take (outputSize - 1))

/-- The document of a command, with the members the backend sends. -/
def commandDocument (requestId userId : String) (issuedAt : Int) : Json :=
  .obj [(ascii "requestId", .str (ascii requestId)), (ascii "command", .str (ascii "open")),
    (ascii "userId", .str (ascii userId)), (ascii "issuedAt", .int issuedAt)]

end Firmware
