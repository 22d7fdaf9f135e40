-- SUMMARY: The messages of backend and device as bytes: what one side writes, the other side reads back.
import ParkingGate.Base.JsonText
import ParkingGate.System.EndToEnd

/-!
# The wire format

The backend prints and parses JSON with the functions of its language, the device with
ArduinoJson. The library is a parameter that is assumed to read and print flat objects
correctly as far as its document holds them. Then the buffers of the firmware are long
enough for every command and every ACK, and no field is changed on the way.
-/

namespace Firmware

open JsonText

/-! ## Bytes and characters -/

def asciiBytes (chars : List Char) : List UInt8 := chars.map fun c => UInt8.ofNat c.toNat

/-- The bytes one by one, as characters. -/
def asciiChars (s : CString) : List Char := s.bytes.map fun b => Char.ofNat b.toNat

theorem ascii_eq (s : String) : ascii s = asciiBytes s.toList := rfl

section Printable

variable {chars : List Char}

theorem toNat_ofNat_of_printable {c : Char} (h : printable c = true) :
    (UInt8.ofNat c.toNat).toNat = c.toNat := by
  have hlt : c.toNat < 0x7F := (of_decide_eq_true h).2
  simp only [UInt8.toNat_ofNat']
  omega

theorem bytes_ofBytes_asciiBytes (h : chars.all printable = true) :
    (CString.ofBytes (asciiBytes chars)).bytes = asciiBytes chars := by
  refine List.takeWhile_eq_self_iff.mpr fun b hb => ?_
  obtain ⟨c, hc, rfl⟩ := List.mem_map.mp hb
  have hprintable := List.all_eq_true.mp h c hc
  have hpos : 0x20 ≤ c.toNat := (of_decide_eq_true hprintable).1
  refine decide_eq_true fun heq => ?_
  have hnat := toNat_ofNat_of_printable hprintable
  rw [heq] at hnat
  simp only [UInt8.toNat_zero] at hnat
  omega

theorem asciiChars_ofBytes (h : chars.all printable = true) :
    asciiChars (CString.ofBytes (asciiBytes chars)) = chars := by
  rw [asciiChars, bytes_ofBytes_asciiBytes h, asciiBytes, List.map_map]
  refine (List.map_congr_left fun c hc => ?_).trans (List.map_id chars)
  simp only [Function.comp_apply, toNat_ofNat_of_printable (List.all_eq_true.mp h c hc),
    Char.ofNat_toNat, id_eq]

theorem bytes_ofAscii {s : String} (h : s.toList.all printable = true) :
    (CString.ofAscii s).bytes = ascii s := bytes_ofBytes_asciiBytes h

theorem ne_zero_of_mem_ascii {s : String} (h : s.toList.all printable = true) :
    ∀ b ∈ ascii s, b ≠ 0 := by
  rw [← bytes_ofAscii h]
  exact fun b hb hzero => (CString.ofAscii s).noNul (hzero ▸ hb)

end Printable

/-! ## ArduinoJson -/

def Json.ofScalar : Scalar → Json
  | .bool b    => .bool b
  | .int n     => .int n
  | .str chars => .str (asciiBytes chars)

/-- The document of a flat object. -/
def Json.ofFlat (doc : Flat) : Json := .obj (doc.map fun m => (asciiBytes m.1, Json.ofScalar m.2))

/-- 16 bytes for each member, and each string with its terminator. -/
def memoryUsage (doc : Flat) : Nat :=
  16 * doc.length + (doc.strings.map fun chars => chars.length + 1).sum

/-- An integer of the library. -/
def isInt64 : Scalar → Bool
  | .int n => -2 ^ 63 ≤ n ∧ n < 2 ^ 64
  | _      => true

/-- A `StaticJsonDocument<capacity>` holds the object, whose names differ and whose strings
    are printable ASCII. -/
structure Fits (doc : Flat) (capacity : Nat) : Prop where
  names : (doc.map Prod.fst).Nodup
  strings : ∀ chars ∈ doc.strings, chars.all printable = true
  ints : ∀ m ∈ doc, isInt64 m.2 = true
  memory : memoryUsage doc ≤ capacity

/-- ArduinoJson reads every text of an object that fits, and prints the compact text of one
    of 256 bytes that needs no escapes, if the buffer has room for it. -/
structure ArduinoJson.Conforms (lib : ArduinoJson) : Prop where
  deserializeJson : ∀ (doc : Flat) (capacity : Nat) (text : CString), Fits doc capacity →
    parse (asciiChars text) = some doc.value →
    lib.deserializeJson capacity text = some (Json.ofFlat doc)
  serializeJson : ∀ (doc : Flat) (outputSize : Nat), Fits doc 256 →
    (∀ chars ∈ doc.strings, chars.all plain = true) → doc.print.length < outputSize →
    lib.serializeJson (Json.ofFlat doc) outputSize = CString.ofBytes (asciiBytes doc.print)

end Firmware

namespace Backend

open JsonText

/-! ## The functions of the backend's language -/

/-- The object that `publishCommandAndWaitForAck` sends. -/
def Command.flat (cmd : Command String) : Flat :=
  [("requestId".toList, .str cmd.requestId.toList), ("command".toList, .str "open".toList),
    ("userId".toList, .str cmd.userId.toList), ("issuedAt".toList, .int cmd.issuedAt)]

/-- The bytes of a string that is published. -/
def utf8 (chars : List Char) : List UInt8 := chars.flatMap String.utf8EncodeChar

/-- The state of a decoder: how many bytes the character still needs, the bits it has so
    far, and the range of its next byte. -/
structure Utf8Decoder where
  needed : Nat
  bits : Nat
  lower : UInt8
  upper : UInt8

namespace Utf8Decoder

def idle : Utf8Decoder := ⟨0, 0, 0x80, 0xBF⟩

def lead (b : UInt8) : List Char × Utf8Decoder :=
  if b < 0x80 then ([Char.ofNat b.toNat], idle)
  else if 0xC2 ≤ b ∧ b ≤ 0xDF then ([], ⟨1, b.toNat - 0xC0, 0x80, 0xBF⟩)
  else if 0xE0 ≤ b ∧ b ≤ 0xEF then
    ([], ⟨2, b.toNat - 0xE0, if b = 0xE0 then 0xA0 else 0x80, if b = 0xED then 0x9F else 0xBF⟩)
  else if 0xF0 ≤ b ∧ b ≤ 0xF4 then
    ([], ⟨3, b.toNat - 0xF0, if b = 0xF0 then 0x90 else 0x80, if b = 0xF4 then 0x8F else 0xBF⟩)
  else (['\uFFFD'], idle)

def next (d : Utf8Decoder) (b : UInt8) : List Char × Utf8Decoder :=
  if d.needed = 0 then lead b
  else if d.lower ≤ b ∧ b ≤ d.upper then
    let bits := d.bits * 64 + (b.toNat - 0x80)
    if d.needed = 1 then ([Char.ofNat bits], idle) else ([], ⟨d.needed - 1, bits, 0x80, 0xBF⟩)
  -- What was begun is replaced, and the byte begins anew.
  else ('\uFFFD' :: (lead b).1, (lead b).2)

def decode : Utf8Decoder → List UInt8 → List Char
  | d, []      => if d.needed = 0 then [] else ['\uFFFD']
  | d, b :: bs => (d.next b).1 ++ decode (d.next b).2 bs

end Utf8Decoder

/-- `Buffer.prototype.toString` -/
def decodeUtf8 (bytes : List UInt8) : List Char := Utf8Decoder.idle.decode bytes

example : decodeUtf8 [0x41, 0xC3, 0xA9, 0xE2, 0x82, 0x42, 0xFF] = ['A', 'é', '\uFFFD', 'B', '\uFFFD'] := by
  decide

theorem utf8_of_printable {chars : List Char} (h : chars.all printable = true) :
    utf8 chars = Firmware.asciiBytes chars := by
  induction chars with
  | nil => rfl
  | cons c chars ih =>
    rw [List.all_cons, Bool.and_eq_true] at h
    have hlt : c.toNat < 0x7F := (of_decide_eq_true h.1).2
    have hsize : c.utf8Size = 1 := Char.utf8Size_eq_one_iff.mpr (by
      rw [UInt32.le_iff_toNat_le]
      exact Nat.le_of_lt hlt)
    rw [utf8, List.flatMap_cons, String.utf8EncodeChar_eq_singleton hsize]
    exact congrArg (_ :: ·) (ih h.2)

theorem decodeUtf8_of_printable {chars : List Char} (h : chars.all printable = true) :
    decodeUtf8 (Firmware.asciiBytes chars) = chars := by
  induction chars with
  | nil => rfl
  | cons c chars ih =>
    rw [List.all_cons, Bool.and_eq_true] at h
    have hlt : c.toNat < 0x7F := (of_decide_eq_true h.1).2
    have hnat := Firmware.toNat_ofNat_of_printable h.1
    have hlead : Utf8Decoder.lead (UInt8.ofNat c.toNat) = ([c], .idle) := by
      have hascii : UInt8.ofNat c.toNat < 0x80 := by
        rw [UInt8.lt_iff_toNat_lt, hnat]
        exact Nat.lt_succ_of_lt hlt
      rw [Utf8Decoder.lead, if_pos hascii, hnat, Char.ofNat_toNat]
    have hnext : Utf8Decoder.idle.next (UInt8.ofNat c.toNat) = ([c], .idle) := hlead
    rw [decodeUtf8, Firmware.asciiBytes, List.map_cons, Utf8Decoder.decode, hnext]
    exact congrArg (c :: ·) (ih h.2)

/-- `if (value)`; a number is falsy if the double next to it is zero. -/
def isTruthy : Option Value → Bool
  | none | some .null  => false
  | some (.bool b)     => b
  | some (.int n)      => n ≠ 0
  | some (.decimal mantissa exponent) =>
    ¬ mantissa.natAbs * 2 ^ 1075 ≤ 10 ^ (-exponent).toNat
  | some (.str chars)  => chars ≠ []
  | some (.arr _)      => true
  | some (.obj _)      => true

/-- `payload as MqttAckMessage`, of a payload with a string for its request id: no other one
    is pending. An error code is a string. -/
def ackOf (payload : Value) : Option (Ack String) :=
  match payload.member "requestId" with
  | some (.str requestId) => some {
      requestId := String.ofList requestId
      ok := isTruthy (payload.member "ok")
      errorCode := match payload.member "errorCode" with
        | some (.str code) => some (String.ofList code)
        | _                => none }
  | _ => none

end Backend

namespace ParkingGate

open Backend Firmware JsonText

/-- The JSON functions of the backend's language. -/
def backendJson : BackendJson where
  stringify cmd := CString.ofBytes (utf8 cmd.flat.print)
  parse payload := (parse (decodeUtf8 payload.bytes)).bind ackOf

/-! ## The strings of the messages -/

theorem plain_of_toNat {c : Char} (h : 0x20 ≤ c.toNat) (h' : c.toNat < 0x7F)
    (hquote : c.toNat ≠ 34) (hbackslash : c.toNat ≠ 92) : plain c = true := by
  refine decide_eq_true ⟨decide_eq_true ⟨h, h'⟩, ?_, ?_⟩
  · rintro rfl
    exact hquote rfl
  · rintro rfl
    exact hbackslash rfl

theorem plain_of_isUuid {requestId : String} (h : isUuid requestId = true) :
    requestId.toList.length = 36 ∧ requestId.toList.all plain = true := by
  simp only [isUuid, Bool.and_eq_true, decide_eq_true_eq, List.all_eq_true] at h
  refine ⟨h.1, List.all_eq_true.mpr fun c hc => ?_⟩
  obtain ⟨i, hi, rfl⟩ := List.mem_iff_getElem.mp hc
  have hchar := h.2 (requestId.toList[i], i) (by
    rw [List.mem_zipIdx_iff_getElem?]
    simp)
  generalize requestId.toList[i] = c at hchar
  dsimp only at hchar
  split at hchar
  · obtain rfl : c = '-' := of_decide_eq_true hchar
    decide
  · simp only [Bool.or_eq_true, Bool.and_eq_true, decide_eq_true_eq, Char.isDigit_iff_toNat,
      Char.le_def, UInt32.le_iff_toNat_le] at hchar
    have hrange : 48 ≤ c.toNat ∧ c.toNat ≤ 57 ∨ 97 ≤ c.toNat ∧ c.toNat ≤ 102 ∨
        65 ≤ c.toNat ∧ c.toNat ≤ 70 := by
      simpa [or_assoc] using hchar
    exact plain_of_toNat (by omega) (by omega) (by omega) (by omega)

theorem all_printable_of_plain {chars : List Char} (h : chars.all plain = true) :
    chars.all printable = true :=
  List.all_eq_true.mpr fun c hc => printable_of_plain (List.all_eq_true.mp h c hc)

/-- A string that is not longer than its buffer is copied as it is. -/
theorem bytes_strncpy {s : String} {n : Nat} (h : s.toList.all printable = true)
    (hlen : s.toList.length ≤ n) :
    ((CString.ofBytes (asciiBytes s.toList)).strncpy n).bytes = ascii s := by
  rw [CString.strncpy_of_length_le, bytes_ofBytes_asciiBytes h, ascii_eq]
  rw [bytes_ofBytes_asciiBytes h, asciiBytes, List.length_map]
  exact hlen

/-! ## Commands -/

/-- What the device has read is what the backend has sent. -/
structure Received (cmd : Command String) (result : CommandResult) : Prop where
  requestId : result.requestId.bytes = ascii cmd.requestId
  command : result.command.bytes = ascii "open"
  userId : result.userId.bytes = ascii cmd.userId
  issuedAt : result.issuedAt.toNat = cmd.issuedAt

section Command

variable {cmd : Command String} (huuid : isUuid cmd.requestId = true)
  (huser : cmd.userId.toList.all printable = true)

include huuid huser in
theorem strings_command : ∀ chars ∈ cmd.flat.strings, chars.all printable = true := by
  have hid := all_printable_of_plain (plain_of_isUuid huuid).2
  simp only [Command.flat, Flat.strings, List.flatMap_cons, List.flatMap_nil, List.cons_append,
    List.nil_append, List.forall_mem_cons]
  exact ⟨by decide, hid, by decide, by decide, by decide, huser, by decide, by simp⟩

include huuid huser in
/-- A document of 512 bytes holds every command. -/
theorem fits_command (hlen : cmd.userId.toList.length ≤ 63) (hissued : cmd.issuedAt < 2 ^ 53) :
    Fits cmd.flat 512 where
  names := by simp [Command.flat]
  strings := strings_command huuid huser
  ints := by
    have hissuedAt : isInt64 (.int cmd.issuedAt) = true := by
      rw [isInt64, decide_eq_true_eq]
      omega
    simp only [Command.flat, List.forall_mem_cons]
    exact ⟨rfl, rfl, rfl, hissuedAt, by simp⟩
  memory := by
    have hnames : "requestId".toList.length = 9 ∧ "command".toList.length = 7 ∧
        "open".toList.length = 4 ∧ "userId".toList.length = 6 ∧ "issuedAt".toList.length = 8 := by
      decide
    simp only [memoryUsage, Command.flat, Flat.strings, List.flatMap_cons, List.flatMap_nil,
      List.cons_append, List.nil_append, List.map_cons, List.map_nil, List.sum_cons, List.sum_nil,
      List.length_cons, List.length_nil, (plain_of_isUuid huuid).1, hnames]
    omega

include huuid huser in
/-- The text of a command is the JSON of its object. -/
theorem parse_stringify : parse (asciiChars (backendJson.stringify cmd)) = some cmd.flat.value := by
  have hprint := print_printable (strings_command huuid huser)
  have htext : backendJson.stringify cmd = CString.ofBytes (asciiBytes cmd.flat.print) :=
    congrArg CString.ofBytes (utf8_of_printable hprint)
  rw [htext, asciiChars_ofBytes hprint, parse_print]

include huuid huser in
theorem parseCommand_stringify {lib : ArduinoJson} (hlib : lib.Conforms)
    (hlen : cmd.userId.toList.length ≤ 63) (hissued : cmd.issuedAt < 2 ^ 53) :
    ∃ result, Protocol.parseCommand lib (backendJson.stringify cmd) = some result ∧
      Received cmd result := by
  obtain ⟨hidlen, hid⟩ := plain_of_isUuid huuid
  have hdoc := hlib.deserializeJson cmd.flat 512 _ (fits_command huuid huser hlen hissued)
    (parse_stringify huuid huser)
  let result : CommandResult :=
    { requestId := (CString.ofBytes (asciiBytes cmd.requestId.toList)).strncpy 36
      command := (CString.ofBytes (asciiBytes "open".toList)).strncpy 15
      userId := (CString.ofBytes (asciiBytes cmd.userId.toList)).strncpy 63
      issuedAt := UInt64.ofInt cmd.issuedAt }
  have hparse : Protocol.parseCommand lib (backendJson.stringify cmd) = some result := by
    rw [Protocol.parseCommand, hdoc]
    rfl
  have hissuedAt : (UInt64.ofInt cmd.issuedAt).toNat = cmd.issuedAt := by
    simp only [UInt64.ofInt, UInt64.toNat_ofNat']
    omega
  refine ⟨result, hparse, bytes_strncpy (all_printable_of_plain hid) (by omega),
    bytes_strncpy (by decide) (by decide), bytes_strncpy huser hlen, hissuedAt⟩

end Command

/-! ## ACKs -/

/-- The error codes of the handler; a success has none. -/
def errorCodes : List (Option String) :=
  [none, some "BAD_PAYLOAD", some "UNKNOWN_COMMAND", some "COOLDOWN", some "RELAY_FAIL"]

/-- The object of an ACK. -/
def ackFlat (requestId : String) (ok : Bool) (errorCode : Option String) : Flat :=
  ("requestId".toList, .str requestId.toList) :: ("ok".toList, .bool ok) ::
    errorCode.toList.map fun code => ("errorCode".toList, .str code.toList)

theorem plain_of_mem_errorCodes {code : String} (h : some code ∈ errorCodes) :
    code.toList.all plain = true ∧ code.toList.length ≤ 15 := by
  have hall : ∀ errorCode ∈ errorCodes, ∀ code ∈ errorCode,
      code.toList.all plain = true ∧ code.toList.length ≤ 15 := by decide
  exact hall _ h code rfl

section Ack

variable {requestId : String} (huuid : isUuid requestId = true) (ok : Bool)
  {errorCode : Option String} (hcode : errorCode ∈ errorCodes)

include huuid hcode in
/-- A success is sent without an error code. -/
theorem ackDocument_eq : Protocol.ackDocument (CString.ofAscii requestId) ok
    (errorCode.map CString.ofAscii) =
      Json.ofFlat (ackFlat requestId ok (if ok then none else errorCode)) := by
  have hid := bytes_ofAscii (all_printable_of_plain (plain_of_isUuid huuid).2)
  have hbytes : ∀ code, errorCode = some code → (CString.ofAscii code).bytes = ascii code :=
    fun code heq => bytes_ofAscii (all_printable_of_plain (plain_of_mem_errorCodes (heq ▸ hcode)).1)
  cases ok with
  | true => simp [Protocol.ackDocument, ackFlat, Json.ofFlat, Json.ofScalar, hid, ascii_eq]
  | false =>
    cases errorCode with
    | none => simp [Protocol.ackDocument, ackFlat, Json.ofFlat, Json.ofScalar, hid, ascii_eq]
    | some code =>
      simp [Protocol.ackDocument, ackFlat, Json.ofFlat, Json.ofScalar, hid, hbytes code rfl, ascii_eq]

include huuid hcode in
theorem strings_ack : ∀ chars ∈ (ackFlat requestId ok errorCode).strings, chars.all plain = true := by
  have hid := (plain_of_isUuid huuid).2
  cases errorCode with
  | none =>
    simp only [ackFlat, Flat.strings, Option.toList_none, List.map_nil, List.flatMap_cons,
      List.flatMap_nil, List.cons_append, List.nil_append, List.forall_mem_cons]
    exact ⟨by decide, hid, by decide, by simp⟩
  | some code =>
    simp only [ackFlat, Flat.strings, Option.toList_some, List.map_cons, List.map_nil,
      List.flatMap_cons, List.flatMap_nil, List.cons_append, List.nil_append, List.forall_mem_cons]
    exact ⟨by decide, hid, by decide, by decide, (plain_of_mem_errorCodes hcode).1, by simp⟩

include huuid hcode in
/-- A document of 256 bytes holds every ACK. -/
theorem fits_ack : Fits (ackFlat requestId ok errorCode) 256 where
  names := by cases errorCode <;> simp [ackFlat]
  strings := fun chars hchars => all_printable_of_plain (strings_ack huuid ok hcode chars hchars)
  ints := by cases errorCode <;> simp [ackFlat, isInt64]
  memory := by
    have hid := (plain_of_isUuid huuid).1
    have hnames : "requestId".toList.length = 9 ∧ "ok".toList.length = 2 ∧
        "errorCode".toList.length = 9 := by decide
    cases errorCode with
    | none =>
      simp only [memoryUsage, ackFlat, Flat.strings, Option.toList_none, List.map_nil, List.map_cons,
        List.flatMap_cons, List.flatMap_nil, List.cons_append, List.nil_append, List.sum_cons,
        List.sum_nil, List.length_cons, List.length_nil, hid, hnames]
      omega
    | some code =>
      have hcodelen := (plain_of_mem_errorCodes hcode).2
      simp only [memoryUsage, ackFlat, Flat.strings, Option.toList_some, List.map_nil, List.map_cons,
        List.flatMap_cons, List.flatMap_nil, List.cons_append, List.nil_append, List.sum_cons,
        List.sum_nil, List.length_cons, List.length_nil, hid, hnames]
      omega

include huuid hcode in
/-- A buffer of 256 bytes holds the text of every ACK. -/
theorem length_print_ack : (ackFlat requestId ok errorCode).print.length < 256 := by
  have hid : (printMember ("requestId".toList, .str requestId.toList)).length = 50 := by
    obtain ⟨hlen, hplain⟩ := plain_of_isUuid huuid
    have hname : (quote "requestId".toList).length = 11 := by decide
    rw [length_printMember, hname, Scalar.print, quote_plain hplain]
    simp only [List.length_append, List.length_cons, List.length_nil]
    omega
  have hok : (printMember ("ok".toList, .bool ok)).length ≤ 10 := by cases ok <;> decide
  apply (length_print_le _).trans_lt
  cases errorCode with
  | none =>
    simp only [ackFlat, Option.toList_none, List.map_nil, List.map_cons, List.sum_cons,
      List.sum_nil]
    omega
  | some code =>
    have hcode : (printMember ("errorCode".toList, .str code.toList)).length ≤ 29 := by
      obtain ⟨hplain, hlen⟩ := plain_of_mem_errorCodes hcode
      have hname : (quote "errorCode".toList).length = 11 := by decide
      rw [length_printMember, hname, Scalar.print, quote_plain hplain]
      simp only [List.length_append, List.length_cons, List.length_nil]
      omega
    simp only [ackFlat, Option.toList_some, List.map_nil, List.map_cons, List.sum_cons,
      List.sum_nil]
    omega

/-- What is read back from the object of an ACK. -/
theorem ackOf_ackFlat : ackOf (ackFlat requestId ok errorCode).value =
    some ⟨requestId, ok, errorCode⟩ := by
  have hid : (ackFlat requestId ok errorCode).value.member "requestId" =
      some (.str requestId.toList) := by cases errorCode <;> rfl
  have hok : (ackFlat requestId ok errorCode).value.member "ok" = some (.bool ok) := by
    cases errorCode <;> rfl
  have hcode : (ackFlat requestId ok errorCode).value.member "errorCode" =
      errorCode.map fun code => .str code.toList := by cases errorCode <;> rfl
  rw [ackOf, hid, hok, hcode]
  cases errorCode with
  | none => simp only [isTruthy, Option.map_none, String.ofList_toList]
  | some code => simp only [isTruthy, Option.map_some, String.ofList_toList]

include huuid hcode in
theorem parse_createAck {lib : ArduinoJson} (hlib : lib.Conforms) :
    let code := if ok then none else errorCode
    let text := Protocol.createAck lib (CString.ofAscii requestId) ok
      (errorCode.map CString.ofAscii) 256
    text.bytes = asciiBytes (ackFlat requestId ok code).print ∧ text.bytes.length < 256 ∧
      backendJson.parse text = some ⟨requestId, ok, code⟩ := by
  have hcode' : (if ok then none else errorCode) ∈ errorCodes := by
    cases ok with
    | true => exact List.mem_cons_self
    | false => exact hcode
  intro code text
  have hstrings := strings_ack huuid ok hcode'
  have hprint : (ackFlat requestId ok code).print.all printable = true :=
    print_printable fun chars hchars => all_printable_of_plain (hstrings chars hchars)
  have htext : text.bytes = asciiBytes (ackFlat requestId ok code).print := by
    refine (congrArg CString.bytes ?_).trans (bytes_ofBytes_asciiBytes hprint)
    rw [← hlib.serializeJson _ 256 (fits_ack huuid ok hcode') hstrings
      (length_print_ack huuid ok hcode'), ← ackDocument_eq huuid ok hcode]
    rfl
  refine ⟨htext, ?_, ?_⟩
  · rw [htext, asciiBytes, List.length_map]
    exact length_print_ack huuid ok hcode'
  · have hparse : parse (decodeUtf8 text.bytes) = some (ackFlat requestId ok code).value := by
      rw [htext, decodeUtf8_of_printable hprint, parse_print]
    exact (congrArg (Option.bind · ackOf) hparse).trans (ackOf_ackFlat ok)

end Ack

/-- Backend and device read what the other side writes: every command of the backend, with
    all its fields, and every ACK of the device, which leaves out an error code when it
    reports a success. -/
theorem same_format {lib : ArduinoJson} (hlib : lib.Conforms) :
    (∀ cmd : Command String, isUuid cmd.requestId = true →
      cmd.userId.toList.all printable = true → cmd.userId.length ≤ 63 → cmd.issuedAt < 2 ^ 53 →
      ∃ result, Protocol.parseCommand lib (backendJson.stringify cmd) = some result ∧
        Received cmd result) ∧
    ∀ requestId, isUuid requestId = true → ∀ ok, ∀ errorCode ∈ errorCodes,
      let code := if ok then none else errorCode
      let text := Protocol.createAck lib (CString.ofAscii requestId) ok
        (errorCode.map CString.ofAscii) 256
      memoryUsage (ackFlat requestId ok code) ≤ 256 ∧
      text.bytes = asciiBytes (ackFlat requestId ok code).print ∧ text.bytes.length < 256 ∧
      backendJson.parse text = some ⟨requestId, ok, code⟩ := by
  refine ⟨fun cmd huuid huser hlen hissued => ?_, fun requestId huuid ok errorCode hcode => ?_⟩
  · exact parseCommand_stringify huuid huser hlib hlen hissued
  · have hcode' : (if ok then none else errorCode) ∈ errorCodes := by
      cases ok with
      | true => exact List.mem_cons_self
      | false => exact hcode
    exact ⟨(fits_ack huuid ok hcode').memory, parse_createAck huuid ok hcode hlib⟩

/-! ## A library that conforms -/

def toScalar : Value → Option Scalar
  | .bool b    => some (.bool b)
  | .int n     => some (.int n)
  | .str chars => some (.str chars)
  | _          => none

def toFlat : List (List Char × Value) → Option Flat
  | []           => some []
  | (name, v) :: members => do some ((name, ← toScalar v) :: (← toFlat members))

/-- ArduinoJson on flat objects. -/
def referenceJson : ArduinoJson where
  deserializeJson capacity text :=
    match parse (asciiChars text) with
    | some (.obj members) =>
      (toFlat members).bind fun doc =>
        if memoryUsage doc ≤ capacity then some (Json.ofFlat doc) else none
    | _ => none
  serializeJson doc outputSize := CString.ofBytes (doc.text.take (outputSize - 1))

theorem toFlat_value (doc : Flat) : toFlat (doc.map fun m => (m.1, m.2.value)) = some doc := by
  induction doc with
  | nil => rfl
  | cons m doc ih =>
    have hscalar : toScalar m.2.value = some m.2 := by cases m.2 <;> rfl
    simp [toFlat, hscalar, ih]

theorem ascii_toString (n : Int) : ascii (toString n) = asciiBytes (printInt n) := by
  cases n with
  | ofNat n => exact congrArg asciiBytes (Nat.toList_repr (n := n))
  | negSucc n =>
    have hrepr : (toString (Int.negSucc n)).toList = '-' :: Nat.toDigits 10 (n + 1) := by
      rw [Int.toString_eq_repr, Int.repr, String.toList_append, Nat.toList_repr]
      rfl
    exact congrArg asciiBytes hrepr

theorem asciiBytes_append (chars chars' : List Char) :
    asciiBytes (chars ++ chars') = asciiBytes chars ++ asciiBytes chars' := List.map_append

theorem scalarText_ofScalar {s : Scalar} (h : ∀ chars, s = .str chars → chars.all plain = true) :
    (Json.ofScalar s).scalarText = asciiBytes s.print := by
  cases s with
  | bool b => cases b <;> rfl
  | int n => exact ascii_toString n
  | str chars =>
    rw [Scalar.print, quote_plain (h chars rfl), asciiBytes_append]
    rfl

theorem text_ofFlat {doc : Flat} (h : ∀ chars ∈ doc.strings, chars.all plain = true) :
    (Json.ofFlat doc).text = asciiBytes doc.print := by
  let text (m : List UInt8 × Json) : List UInt8 := ascii "\"" ++ m.1 ++ ascii "\":" ++ m.2.scalarText
  have hmember : ∀ m ∈ doc, text (asciiBytes m.1, Json.ofScalar m.2) = asciiBytes (printMember m) := by
    intro m hm
    have hname : m.1.all plain = true :=
      h m.1 (List.mem_flatMap.mpr ⟨m, hm, List.mem_cons_self⟩)
    have hscalar : (Json.ofScalar m.2).scalarText = asciiBytes m.2.print := by
      refine scalarText_ofScalar fun chars heq => h chars (List.mem_flatMap.mpr ⟨m, hm, ?_⟩)
      simp [heq]
    simp only [text, printMember, quote_plain hname, hscalar, asciiBytes_append]
    simp [asciiBytes, ascii]
  have hbody : (ascii ",").intercalate ((doc.map fun m => (asciiBytes m.1, Json.ofScalar m.2)).map text) =
      asciiBytes ([','].intercalate (doc.map printMember)) := by
    clear h
    induction doc with
    | nil => rfl
    | cons m doc ih =>
      have hrest := ih fun m hm => hmember m (List.mem_cons_of_mem _ hm)
      cases doc with
      | nil => simpa using hmember m List.mem_cons_self
      | cons m' doc =>
        simp only [List.map_cons, List.intercalate_cons_cons] at hrest ⊢
        rw [hmember m List.mem_cons_self, hrest, asciiBytes_append, asciiBytes_append]
        rfl
  have hbraces : (Json.ofFlat doc).text = ascii "\x7b" ++ (ascii ",").intercalate
      ((doc.map fun m => (asciiBytes m.1, Json.ofScalar m.2)).map text) ++ ascii "\x7d" := rfl
  rw [hbraces, hbody, Flat.print, asciiBytes_append]
  rfl

theorem referenceJson_conforms : referenceJson.Conforms where
  deserializeJson doc capacity text hfits hparse := by
    simp only [referenceJson, hparse, Flat.value, toFlat_value, Option.bind_some,
      if_pos hfits.memory]
  serializeJson doc outputSize _ hplain hlen := by
    have htake : (Json.ofFlat doc).text.take (outputSize - 1) = asciiBytes doc.print := by
      rw [text_ofFlat hplain, List.take_of_length_le]
      rw [asciiBytes, List.length_map]
      omega
    simp only [referenceJson, htake]

/-- A command whose user id needs escapes, and a refusal. -/
theorem same_format_sample :
    let cmd : Command String := { System.sampleCommand with userId := "a \"user\" \\ id" }
    (∃ result, Protocol.parseCommand referenceJson (backendJson.stringify cmd) = some result ∧
      Received cmd result) ∧
    backendJson.parse (Protocol.createAck referenceJson (CString.ofAscii cmd.requestId) false
      (some (CString.ofAscii "COOLDOWN")) 256) = some ⟨cmd.requestId, false, some "COOLDOWN"⟩ :=
  ⟨(same_format referenceJson_conforms).1 _ (by decide +kernel) (by decide) (by decide) (by decide),
    ((same_format referenceJson_conforms).2 _ (by decide +kernel) false (some "COOLDOWN")
      (by decide)).2.2.2⟩

end ParkingGate
