-- SUMMARY: The replay window of the API and the dedupe window of the device: when a success of `openByUser` means a pulse since its admission.
import ParkingGate.Backend.GateService
import ParkingGate.System.WireFormat

/-!
# Two replay windows

The API forgets a request id when the TTL index deletes its record; the device forgets it
after twenty other pulses. The world is the system of backend, broker and device, here
without reboots, with the calls of `openByUser` and the `GateRequest` collection before it.

If an id is admitted again while the device still remembers it, the device answers the new
request from its cache, and the call succeeds without a pulse. The same happens when a
success message of the earlier request arrives after the admission of the later one, since
both carry the same id. In runs where neither happens, every success has its own pulse.
-/

namespace ParkingGate

open Backend Firmware JsonText

/-- `checkAndRegisterRequestId` let a call of `openByUser` pass. -/
structure Admission where
  index : Nat
  requestId : String
  /-- How many pulses the relay had made by then. -/
  pulsedBefore : Nat
  /-- How many ACKs the device had published by then. -/
  acksBefore : Nat

structure World where
  system : System
  requests : List GateRequest
  opens : List Open
  logs : List GateLog
  admissions : List Admission

inductive WorldEvent where
  | openByUser (params : OpenParams)
  /-- The insertion of the `GateRequest` record of a call. -/
  | register (j : Nat) (fault : Option DatabaseFault)
  /-- A call continues after its registration. -/
  | openGate (j : Nat) (created : Bool)
  /-- A call continues after its call of `openGate`. -/
  | settle (j : Nat)
  /-- The insertion of the `GateLog` record of a call. -/
  | logged (j : Nat) (fault : Option DatabaseFault)
  /-- The TTL index deletes the `k`-th record. -/
  | expire (k : Nat)
  | backend (e : GateEvent String)
  | deliverCommand (k : Nat) (env : Env)
  | deliverAck (k : Nat)

namespace World

def init : World where
  system := System.init
  requests := []
  opens := []
  logs := []
  admissions := []

/-- `Date.now()`, which the database shares. -/
def clock (w : World) : Nat := w.system.backend.clock

def setOpen (w : World) (j : Nat) (state : OpenState) : World :=
  { w with opens := w.opens.modify j fun o => { o with state := state } }

/-- The insertion for call `j`, and the admission if it goes through. -/
def register (w : World) (j : Nat) (o : Open) (fault : Option DatabaseFault) : World :=
  let out := checkAndRegisterRequestId w.requests o.params.requestId o.params.userId o.startTime
    fault
  let w' := w.setOpen j (o.registered w.clock out.2)
  { w' with
    requests := out.1
    admissions := match out.2 with
      | .ok () =>
        w.admissions ++ [⟨j, o.params.requestId, w.system.pulsed.length, w.system.acks.length⟩]
      | .error _ => w.admissions }

def openGate (w : World) (j : Nat) (o : Open) (created : Bool) : World :=
  let backend := w.system.backend.openGate o.params.requestId o.params.userId created
  { w with system := { w.system with backend := backend } }.setOpen j
    (.opening w.system.backend.calls.length)

def logged (w : World) (j : Nat) (log : GateLog) (result : Except OpenError Unit)
    (fault : Option DatabaseFault) : World :=
  let stored := match fault with
    | none       => true
    | some fault => fault.written
  { w with logs := if stored then w.logs ++ [log] else w.logs }.setOpen j
    (Open.logged result fault)

/-- One event; `none` when it cannot happen. -/
def step (lib : ArduinoJson) (json : BackendJson) (cfg : GateConfig) (ttlSeconds : Nat)
    (w : World) : WorldEvent → Option World
  | .openByUser params =>
    -- The controller lets only UUIDs through.
    if isUuid params.requestId then some { w with opens := w.opens ++ [.start params w.clock] }
    else none
  | .register j fault => w.opens[j]?.bind fun o =>
    match o.state with
    | .registering => some (w.register j o fault)
    | _ => none
  | .openGate j created => w.opens[j]?.bind fun o =>
    match o.state with
    | .admitted => some (w.openGate j o created)
    | _ => none
  | .settle j => w.opens[j]?.bind fun o =>
    match o.state with
    | .opening i => w.system.backend.calls[i]?.bind fun c =>
      match c.state with
      | .done result => some (w.setOpen j (o.settled w.clock c.metadata result))
      | _ => none
    | _ => none
  | .logged j fault => w.opens[j]?.bind fun o =>
    match o.state with
    | .logging log result => some (w.logged j log result fault)
    | _ => none
  | .expire k => w.requests[k]?.bind fun record =>
    if record.expired ttlSeconds w.clock then some { w with requests := w.requests.eraseIdx k }
    else none
  | .backend e =>
    (w.system.step lib json cfg (.backend e)).map fun system => { w with system := system }
  | .deliverCommand k env =>
    (w.system.step lib json cfg (.deliverCommand k env none)).map fun system =>
      { w with system := system }
  | .deliverAck k =>
    (w.system.step lib json cfg (.deliverAck k)).map fun system => { w with system := system }

/-- The relay was pulsed for the id of `m` after its admission. -/
def PulsedSince (w : World) (m : Admission) : Prop :=
  CString.ofAscii m.requestId ∈ w.system.pulsed.drop m.pulsedBefore

/-- Whenever a call was admitted and then returned success, the relay was pulsed for its id
    after the admission. -/
def PulsedSinceAdmission (w : World) : Prop :=
  ∀ m ∈ w.admissions, ∀ o, w.opens[m.index]? = some o → o.state = .returned (.ok ()) →
    w.PulsedSince m

/-- An ACK for the id of `m` settles an attempt of the call of `m`. -/
def settles (w : World) (m : Admission) : Bool :=
  (w.system.backend.pendingAttempt m.requestId).any fun att =>
    w.opens[m.index]?.any fun o =>
      match o.state with
      | .opening i => i = att.call
      | _          => false

/-- The two windows agree at this event: an id without a record is not in the dedupe cache
    either, and a success message settles only attempts of calls admitted before it. -/
def WindowsAgree (json : BackendJson) (w : World) : WorldEvent → Prop
  | .register j none => ∀ o ∈ w.opens[j]?,
    (∀ record ∈ w.requests, record.requestId ≠ o.params.requestId) →
      w.system.gate.wasProcessed (some (CString.ofAscii o.params.requestId)) = false
  | .deliverAck k => ∀ ack ∈ w.system.acks[k]?.bind json.parse, ack.ok = true →
    ∀ m ∈ w.admissions, m.requestId = ack.requestId → w.settles m = true → m.acksBefore ≤ k
  | _ => True

/-! ## What an admission knows -/

section Drop

variable {α : Type*} {x : α} {l l' : List α} {n : Nat}

private theorem mem_drop_append_left (h : x ∈ l.drop n) : x ∈ (l ++ l').drop n := by
  rw [List.drop_append]
  exact List.mem_append_left _ h

private theorem mem_drop_append_right (hn : n ≤ l.length) (h : x ∈ l') :
    x ∈ (l ++ l').drop n := by
  rw [List.drop_append_of_le_length hn]
  exact List.mem_append_right _ h

end Drop

/-- What `m` may conclude from the state of the system: its id gets into the dedupe cache,
    and into a success message published since, only by a pulse since. -/
structure Sound (lib : ArduinoJson) (s : System) (m : Admission) : Prop where
  pulsed_le : m.pulsedBefore ≤ s.pulsed.length
  cached : CString.ofAscii m.requestId ∈ s.gate.cache.contents →
    CString.ofAscii m.requestId ∈ s.pulsed.drop m.pulsedBefore
  acked : ∀ k text, m.acksBefore ≤ k → s.acks[k]? = some text → ∃ id ok errorCode,
    IsMessageId id ∧ text = Protocol.createAck lib id ok errorCode 256 ∧
      (ok = true → id = CString.ofAscii m.requestId → id ∈ s.pulsed.drop m.pulsedBefore)

theorem ofAscii_isEmpty_of_isUuid {requestId : String} (h : isUuid requestId = true) :
    (CString.ofAscii requestId).isEmpty = false := by
  obtain ⟨hlen, hplain⟩ := plain_of_isUuid h
  have hbytes := bytes_ofAscii (all_printable_of_plain hplain)
  simp only [CString.isEmpty, hbytes, List.isEmpty_eq_false_iff, ascii, ne_eq, List.map_eq_nil_iff]
  intro hnil
  simp [hnil] at hlen

namespace Sound

variable {lib : ArduinoJson} {json : BackendJson} {s : System} {m : Admission}

/-- Both windows have forgotten the id. -/
theorem admitted (hs : s.Inv lib) {requestId : String} (huuid : isUuid requestId = true)
    (hmiss : s.gate.wasProcessed (some (CString.ofAscii requestId)) = false) (j : Nat) :
    Sound lib s ⟨j, requestId, s.pulsed.length, s.acks.length⟩ where
  pulsed_le := le_rfl
  cached hmem := by
    have hhit := (GateControl.wasProcessed_iff hs.cache.filling
      (ofAscii_isEmpty_of_isUuid huuid)).mpr hmem
    rw [hmiss] at hhit
    cases hhit
  acked k text hk htext := by
    rw [List.getElem?_eq_none hk] at htext
    cases htext

theorem setBackend (h : Sound lib s m) (backend : GateDevice String) :
    Sound lib { s with backend := backend } m := ⟨h.pulsed_le, h.cached, h.acked⟩

/-- The device handles a command. -/
theorem deliver (hjson : DecodesEachOther lib json) (hs : s.Inv lib) (h : Sound lib s m)
    {cmd : Command String} (huuid : isUuid cmd.requestId = true) (env : Env) :
    let out := handleMqttCommand lib env s.gate (json.stringify cmd)
    Sound lib { s with
      gate := out.1
      pulsed := s.pulsed ++ Device.pulsesIn out.2
      acks := s.acks ++ System.acksIn out.2 } m := by
  intro out
  -- The device knows of the ids in its cache and of those it pulses now.
  have hcache : System.CachePulsed s.gate s.gate.cache.contents := ⟨hs.cache.filling, fun _ h => h⟩
  obtain ⟨hout, hacks⟩ := System.handleMqttCommand_honest hjson huuid env hcache
  have hknown : ∀ id ∈ s.gate.cache.contents ++ Device.pulsesIn out.2,
      id = CString.ofAscii m.requestId →
        id ∈ (s.pulsed ++ Device.pulsesIn out.2).drop m.pulsedBefore := by
    rintro id hid rfl
    rcases List.mem_append.mp hid with hid | hid
    · exact mem_drop_append_left (h.cached hid)
    · exact mem_drop_append_right h.pulsed_le hid
  refine ⟨h.pulsed_le.trans (by simp), fun hmem => hknown _ (hout.pulsed _ hmem) rfl, ?_⟩
  intro k text hk htext
  rcases Nat.lt_or_ge k s.acks.length with hlt | hge
  · -- A message from before.
    rw [List.getElem?_append_left hlt] at htext
    obtain ⟨id, ok, errorCode, hid, heq, hpulsed⟩ := h.acked k text hk htext
    exact ⟨id, ok, errorCode, hid, heq, fun hok hm => mem_drop_append_left (hpulsed hok hm)⟩
  · rw [List.getElem?_append_right hge] at htext
    have hall := hacks out.2.length
    rw [List.take_length] at hall
    obtain ⟨id, ok, errorCode, hid, heq, hpulsed⟩ := hall text (List.mem_of_getElem? htext)
    exact ⟨id, ok, errorCode, hid, heq, fun hok => hknown id (hpulsed hok)⟩

/-- A success message that was published since tells of a pulse since. -/
theorem ack (hjson : DecodesEachOther lib json) (h : Sound lib s m) {k : Nat} {text : CString}
    {ack : Ack String} (hk : m.acksBefore ≤ k) (htext : s.acks[k]? = some text)
    (hparse : json.parse text = some ack) (hok : ack.ok = true)
    (hid : m.requestId = ack.requestId) :
    CString.ofAscii m.requestId ∈ s.pulsed.drop m.pulsedBefore := by
  obtain ⟨id, ok, errorCode, hmsg, rfl, hpulsed⟩ := h.acked k text hk htext
  obtain ⟨hackOk, hackId⟩ := hjson.ack id ok errorCode ack hmsg hparse
  have hm : id = CString.ofAscii m.requestId := by rw [hid, hackId]
  exact hm ▸ hpulsed (hackOk.symm.trans hok) hm

end Sound

/-! ## The invariant -/

/-- If a call of `openGate` succeeds, each admitted call that waits for it has its pulse. -/
def CallPulsed (w : World) (call : Nat × String) : Prop :=
  ∀ m ∈ w.admissions, m.requestId = call.2 → ∀ o, w.opens[m.index]? = some o →
    o.state = .opening call.1 → w.PulsedSince m

structure Inv (lib : ArduinoJson) (w : World) : Prop where
  system : w.system.Inv lib
  owned : w.system.backend.Owned
  ids : ∀ o ∈ w.opens, isUuid o.params.requestId = true
  sound : ∀ m ∈ w.admissions, Sound lib w.system m
  admitted : ∀ m ∈ w.admissions, ∃ o, w.opens[m.index]? = some o ∧
    o.params.requestId = m.requestId
  opening : ∀ (j : Nat) (o : Open) (i : Nat), w.opens[j]? = some o → o.state = .opening i →
    (w.system.backend.calls.map (·.requestId))[i]? = some o.params.requestId
  calls : w.system.backend.Succeeds Prod.mk w.CallPulsed
  succeeded : ∀ m ∈ w.admissions, ∀ o, w.opens[m.index]? = some o → o.state.Succeeds →
    w.PulsedSince m

theorem init_inv (lib : ArduinoJson) : Inv lib init where
  system := System.init_inv lib
  owned := .init
  ids := by simp [init]
  sound := by simp [init]
  admitted := by simp [init]
  opening := by simp [init]
  calls := .init
  succeeded := by simp [init]

/-- A call after one of them has moved on. -/
theorem opens_setOpen {w : World} {j k : Nat} {state : OpenState} {o' : Open}
    (h : (w.setOpen j state).opens[k]? = some o') : ∃ o, w.opens[k]? = some o ∧
      o'.params = o.params ∧ (k = j ∧ o'.state = state ∨ k ≠ j ∧ o' = o) := by
  obtain ⟨o, ho, rfl⟩ := getElem?_modify_cases h
  by_cases hjk : j = k
  · subst hjk
    exact ⟨o, ho, by simp, by simp⟩
  · exact ⟨o, ho, by simp [hjk], .inr ⟨Ne.symm hjk, if_neg hjk⟩⟩

namespace Inv

variable {lib : ArduinoJson} {json : BackendJson} {cfg : GateConfig} {w : World}

/-! ### The gate service -/

private theorem openByUser (h : w.Inv lib) {params : OpenParams}
    (huuid : isUuid params.requestId = true) (now : Nat) :
    Inv lib { w with opens := w.opens ++ [.start params now] } := by
  have hold : ∀ {j : Nat} {o : Open}, (w.opens ++ [Open.start params now])[j]? = some o →
      o.state ≠ .registering → w.opens[j]? = some o := by
    intro j o ho hstate
    rcases getElem?_concat_cases ho with ho | ⟨-, rfl⟩
    · exact ho
    · exact absurd rfl hstate
  refine ⟨h.system, h.owned, fun o ho => ?_, h.sound, fun m hm => ?_, fun j o i ho hstate => ?_,
    h.calls.imp fun call hP m hm hid o ho hstate => ?_, fun m hm o ho hsucc => ?_⟩
  · rcases List.mem_append.mp ho with ho | ho
    · exact h.ids o ho
    · exact List.mem_singleton.mp ho ▸ huuid
  · obtain ⟨o, ho, hid⟩ := h.admitted m hm
    exact ⟨o, getElem?_concat_of_some ho, hid⟩
  · exact h.opening j o i (hold ho (by simp [hstate])) hstate
  · exact hP m hm hid o (hold ho (by simp [hstate])) hstate
  · refine h.succeeded m hm o (hold ho fun hstate => ?_) hsucc
    simp [hstate, OpenState.Succeeds] at hsucc

private theorem ids_setOpen (h : w.Inv lib) (j : Nat) (state : OpenState) :
    ∀ o ∈ (w.setOpen j state).opens, isUuid o.params.requestId = true := by
  intro o ho
  obtain ⟨k, hk⟩ := List.mem_iff_getElem?.mp ho
  obtain ⟨old, hold, hparams, -⟩ := opens_setOpen hk
  exact hparams ▸ h.ids old (List.mem_of_getElem? hold)

private theorem admitted_setOpen (h : w.Inv lib) (j : Nat) (state : OpenState) :
    ∀ m ∈ w.admissions, ∃ o, (w.setOpen j state).opens[m.index]? = some o ∧
      o.params.requestId = m.requestId := by
  intro m hm
  obtain ⟨o, ho, hid⟩ := h.admitted m hm
  refine ⟨if j = m.index then { o with state := state } else o, ?_, ?_⟩
  · simp [World.setOpen, List.getElem?_modify, ho]
  · split <;> exact hid

/-- A call moves on without calling `openGate`; it succeeds only with its pulse. -/
private theorem setOpen (h : w.Inv lib) (j : Nat) {state : OpenState}
    (hstate : ∀ i, state ≠ .opening i)
    (hsucc : state.Succeeds → ∀ m ∈ w.admissions, m.index = j → w.PulsedSince m) :
    (w.setOpen j state).Inv lib := by
  -- Who waits for the device has not moved.
  have hsame : ∀ {k i : Nat} {o : Open}, (w.setOpen j state).opens[k]? = some o →
      o.state = .opening i → w.opens[k]? = some o := by
    intro k i o ho hopening
    obtain ⟨old, hold, -, ⟨-, heq⟩ | ⟨-, rfl⟩⟩ := opens_setOpen ho
    · exact absurd (heq.symm.trans hopening) (hstate i)
    · exact hold
  refine ⟨h.system, h.owned, h.ids_setOpen j state, h.sound, h.admitted_setOpen j state,
    fun k o i ho hopening => h.opening k o i (hsame ho hopening) hopening,
    h.calls.imp fun call hP m hm hid o ho hopening =>
      hP m hm hid o (hsame ho hopening) hopening,
    fun m hm o ho hs => ?_⟩
  · obtain ⟨old, hold, -, ⟨hk, heq⟩ | ⟨-, rfl⟩⟩ := opens_setOpen ho
    · exact hsucc (heq ▸ hs) m hm hk
    · exact h.succeeded m hm _ hold hs

/-- The invariant does not look at the collection of requests. -/
private theorem setRequests (h : w.Inv lib) (requests : List GateRequest) :
    Inv lib { w with requests := requests } :=
  ⟨h.system, h.owned, h.ids, h.sound, h.admitted, h.opening, h.calls, h.succeeded⟩

private theorem setLogs (h : w.Inv lib) (logs : List GateLog) :
    Inv lib { w with logs := logs } :=
  ⟨h.system, h.owned, h.ids, h.sound, h.admitted, h.opening, h.calls, h.succeeded⟩

/-- A call is admitted, which both windows have forgotten. -/
private theorem addAdmission (h : w.Inv lib) {m : Admission} {o : Open} (hm : Sound lib w.system m)
    (ho : w.opens[m.index]? = some o) (hid : o.params.requestId = m.requestId)
    (hstate : o.state = .admitted) :
    Inv lib { w with admissions := w.admissions ++ [m] } := by
  have hnew : ∀ o', w.opens[m.index]? = some o' → o'.state = .admitted := fun o' ho' =>
    Option.some.inj (ho.symm.trans ho') ▸ hstate
  have hcall : ∀ call, w.CallPulsed call →
      CallPulsed { w with admissions := w.admissions ++ [m] } call := by
    intro call hP m' hm' hid' o' ho' hopening
    rcases List.mem_append.mp hm' with hm' | hm'
    · exact hP m' hm' hid' o' ho' hopening
    · obtain rfl := List.mem_singleton.mp hm'
      simp [hnew o' ho'] at hopening
  refine ⟨h.system, h.owned, h.ids, fun m' hm' => ?_, fun m' hm' => ?_, h.opening,
    h.calls.imp hcall, fun m' hm' o' ho' hs => ?_⟩
  all_goals rcases List.mem_append.mp hm' with hm' | hm'
  · exact h.sound m' hm'
  · exact List.mem_singleton.mp hm' ▸ hm
  · exact h.admitted m' hm'
  · obtain rfl := List.mem_singleton.mp hm'
    exact ⟨o, ho, hid⟩
  · exact h.succeeded m' hm' o' ho' hs
  · obtain rfl := List.mem_singleton.mp hm'
    simp [hnew o' ho', OpenState.Succeeds] at hs

private theorem register (h : w.Inv lib) {j : Nat} {o : Open} {fault : Option DatabaseFault}
    (ho : w.opens[j]? = some o) (hagree : w.WindowsAgree json (.register j fault)) :
    (w.register j o fault).Inv lib := by
  generalize hout : checkAndRegisterRequestId w.requests o.params.requestId o.params.userId
    o.startTime fault = out
  have hmoved : (w.setOpen j (o.registered w.clock out.2)).Inv lib := by
    refine h.setOpen j (fun i heq => ?_) fun hs => absurd hs (Open.not_succeeds_registered out.2)
    cases hres : out.2 <;> simp [hres, Open.registered, Open.fail] at heq
  rw [World.register, hout]
  obtain ⟨stored, result⟩ := out
  cases result with
  | error error => exact hmoved.setRequests stored
  | ok =>
    obtain ⟨rfl, hnew, -⟩ := checkAndRegisterRequestId_ok hout
    have hmiss := hagree o ho hnew
    have hsound := Sound.admitted h.system (h.ids o (List.mem_of_getElem? ho)) hmiss j
    have hadmitted : (w.setOpen j .admitted).opens[j]? = some { o with state := .admitted } := by
      simp [World.setOpen, ho]
    exact (hmoved.addAdmission hsound hadmitted rfl rfl).setRequests stored

/-- The call of `openGate` gets the next index, for which nothing has been attempted. -/
private theorem openGate (hjson : DecodesEachOther lib json) (h : w.Inv lib) {j : Nat} {o : Open}
    (ho : w.opens[j]? = some o) (created : Bool) : (w.openGate j o created).Inv lib := by
  have huuid := h.ids o (List.mem_of_getElem? ho)
  have hbackend : w.system.backend.step ⟨0, 0, 0⟩
      (.openGate o.params.requestId o.params.userId created) =
      some (w.system.backend.openGate o.params.requestId o.params.userId created) := rfl
  have hstep : w.system.step lib json ⟨0, 0, 0⟩
      (.backend (.openGate o.params.requestId o.params.userId created)) =
      some { w.system with
        backend := w.system.backend.openGate o.params.requestId o.params.userId created } := by
    simp [System.step, System.isLocal, huuid, GateDevice.step]
  have hcall : ∀ call, call.1 < w.system.backend.calls.length → w.CallPulsed call →
      (w.openGate j o created).CallPulsed call := by
    intro call hcall hP m hm hid o' ho' hopening
    obtain ⟨old, hold, -, ⟨-, heq⟩ | ⟨-, rfl⟩⟩ := opens_setOpen ho'
    · simp only [heq, OpenState.opening.injEq] at hopening
      omega
    · exact hP m hm hid _ hold hopening
  have hcalls : w.system.backend.Succeeds Prod.mk (w.openGate j o created).CallPulsed :=
    h.calls.mono (fun att hatt => hcall _ (h.owned _ (List.mem_map_of_mem hatt)))
      fun i c hc => hcall _ (List.getElem?_eq_some_iff.mp hc).1
  have hids : (w.openGate j o created).system.backend.calls.map (·.requestId) =
      w.system.backend.calls.map (·.requestId) ++ [o.params.requestId] :=
    GateDevice.step_callIds hbackend
  refine ⟨h.system.step hjson hstep, h.owned.step hbackend, h.ids_setOpen j _,
    fun m hm => (h.sound m hm).setBackend _, h.admitted_setOpen j _,
    fun k o' i ho' hopening => ?_, hcalls.step (fun ack he => by cases he) hbackend,
    fun m hm o' ho' hs => ?_⟩
  · rw [hids]
    obtain ⟨old, hold, hparams, ⟨rfl, heq⟩ | ⟨-, rfl⟩⟩ := opens_setOpen ho'
    · obtain rfl := Option.some.inj (ho.symm.trans hold)
      simp only [heq, OpenState.opening.injEq] at hopening
      simp [← hopening, hparams]
    · exact getElem?_concat_of_some (h.opening k _ i hold hopening)
  · obtain ⟨old, hold, -, ⟨-, heq⟩ | ⟨-, rfl⟩⟩ := opens_setOpen ho'
    · simp [heq, OpenState.Succeeds] at hs
    · exact h.succeeded m hm _ hold hs

/-- A call that continues after a successful call of `openGate` has its pulse. -/
private theorem settle (h : w.Inv lib) {j i : Nat} {o : Open} {c : Call String}
    {result : Except GateError Unit} (ho : w.opens[j]? = some o) (hopening : o.state = .opening i)
    (hc : w.system.backend.calls[i]? = some c) (hdone : c.state = .done result) :
    (w.setOpen j (o.settled w.clock c.metadata result)).Inv lib := by
  refine h.setOpen j (fun k heq => ?_) fun hs m hm hindex => ?_
  · cases result <;> simp [Open.settled, Open.fail] at heq
  · obtain rfl := Open.succeeds_settled hs
    subst hindex
    obtain ⟨o', ho', hid⟩ := h.admitted m hm
    obtain rfl := Option.some.inj (ho.symm.trans ho')
    have hcid : c.requestId = o.params.requestId := by
      simpa [hc] using h.opening m.index o i ho hopening
    exact h.calls.done i c hc hdone m hm (hid.symm.trans hcid.symm) o ho hopening

private theorem logged (h : w.Inv lib) {j : Nat} {o : Open} {log : GateLog}
    {result : Except OpenError Unit} (ho : w.opens[j]? = some o)
    (hlogging : o.state = .logging log result) (fault : Option DatabaseFault) :
    (w.logged j log result fault).Inv lib := by
  refine (h.setLogs _).setOpen j (fun i heq => ?_) fun hs m hm hindex => ?_
  · cases fault <;> simp [Open.logged] at heq
  · subst hindex
    exact h.succeeded m hm o ho (hlogging ▸ Open.succeeds_logged hs)

/-! ### The system -/

/-- The backend does something; a success message settles only attempts of calls with their
    pulse. -/
private theorem backendStep (h : w.Inv lib) {e : GateEvent String} {backend : GateDevice String}
    (hsystem : System.Inv lib { w.system with backend := backend })
    (hstep : w.system.backend.step cfg e = some backend)
    (hack : ∀ ack, e = .ack ack → ack.ok = true →
      ∀ att, w.system.backend.pendingAttempt ack.requestId = some att →
        w.CallPulsed (att.call, ack.requestId)) :
    Inv lib { w with system := { w.system with backend := backend } } := by
  refine ⟨hsystem, h.owned.step hstep, h.ids, fun m hm => (h.sound m hm).setBackend _, h.admitted,
    fun j o i ho hopening => ?_, h.calls.step hack hstep, h.succeeded⟩
  rw [GateDevice.step_callIds hstep, List.getElem?_append_left]
  · exact h.opening j o i ho hopening
  · exact (List.getElem?_eq_some_iff.mp (h.opening j o i ho hopening)).1

/-- The device handles a command: it may pulse the relay, and what the admissions know of it
    stays true. -/
private theorem deviceStep (h : w.Inv lib) {system : System} (hsystem : system.Inv lib)
    (hbackend : system.backend = w.system.backend)
    (hpulsed : w.system.pulsed <+: system.pulsed)
    (hsound : ∀ m ∈ w.admissions, Sound lib system m) : Inv lib { w with system := system } := by
  have hgrows : ∀ m, w.PulsedSince m → PulsedSince { w with system := system } m := by
    intro m hm
    obtain ⟨more, hmore⟩ := hpulsed
    simp only [PulsedSince, ← hmore]
    exact mem_drop_append_left hm
  have hcall : ∀ call, w.CallPulsed call → CallPulsed { w with system := system } call :=
    fun call hP m hm hid o ho hopening => hgrows m (hP m hm hid o ho hopening)
  refine ⟨hsystem, hbackend ▸ h.owned, h.ids, hsound, h.admitted, ?_, ?_,
    fun m hm o ho hs => hgrows m (h.succeeded m hm o ho hs)⟩
  · simpa only [hbackend] using h.opening
  · simp only [hbackend]
    exact h.calls.imp hcall

/-- A success message settles only attempts of calls that were admitted before it. -/
private theorem callPulsed_of_ack (hjson : DecodesEachOther lib json) (h : w.Inv lib) {k : Nat}
    {text : CString} {ack : Ack String} (htext : w.system.acks[k]? = some text)
    (hparse : json.parse text = some ack) (hok : ack.ok = true)
    (hagree : w.WindowsAgree json (.deliverAck k)) {att : Attempt String}
    (hatt : w.system.backend.pendingAttempt ack.requestId = some att) :
    w.CallPulsed (att.call, ack.requestId) := by
  intro m hm hid o ho hopening
  have hid : m.requestId = ack.requestId := hid
  have hsettles : w.settles m = true := by simp [settles, hid, hatt, ho, hopening]
  have hk := hagree ack (by simp [htext, hparse]) hok m hm hid hsettles
  exact (h.sound m hm).ack hjson hk htext hparse hok hid

theorem step {ttlSeconds : Nat} {w' : World} {e : WorldEvent} (hjson : DecodesEachOther lib json)
    (h : w.Inv lib) (hagree : w.WindowsAgree json e)
    (hstep : w.step lib json cfg ttlSeconds e = some w') : w'.Inv lib := by
  cases e with
  | openByUser params =>
    simp only [World.step, Option.ite_none_right_eq_some, Option.some.injEq] at hstep
    obtain ⟨huuid, rfl⟩ := hstep
    exact h.openByUser huuid _
  | register j fault =>
    obtain ⟨o, ho, hrun⟩ := Option.bind_eq_some_iff.mp hstep
    split at hrun
    · exact Option.some.inj hrun ▸ h.register ho hagree
    · cases hrun
  | openGate j created =>
    obtain ⟨o, ho, hrun⟩ := Option.bind_eq_some_iff.mp hstep
    split at hrun
    · exact Option.some.inj hrun ▸ h.openGate hjson ho created
    · cases hrun
  | settle j =>
    obtain ⟨o, ho, hrun⟩ := Option.bind_eq_some_iff.mp hstep
    split at hrun
    · rename_i i hopening
      obtain ⟨c, hc, hrun⟩ := Option.bind_eq_some_iff.mp hrun
      split at hrun
      · rename_i result hdone
        exact Option.some.inj hrun ▸ h.settle ho hopening hc hdone
      · cases hrun
    · cases hrun
  | logged j fault =>
    obtain ⟨o, ho, hrun⟩ := Option.bind_eq_some_iff.mp hstep
    split at hrun
    · rename_i log result hlogging
      exact Option.some.inj hrun ▸ h.logged ho hlogging fault
    · cases hrun
  | expire k =>
    obtain ⟨record, -, hrun⟩ := Option.bind_eq_some_iff.mp hstep
    split at hrun
    · exact Option.some.inj hrun ▸ h.setRequests _
    · cases hrun
  | backend e =>
    obtain ⟨system, hsystem, rfl⟩ := Option.map_eq_some_iff.mp hstep
    have hinv := h.system.step hjson hsystem
    simp only [System.step, Option.ite_none_right_eq_some, Option.map_eq_some_iff] at hsystem
    obtain ⟨hlocal, backend, hbackend, rfl⟩ := hsystem
    exact h.backendStep hinv hbackend fun ack he => by simp [he, System.isLocal] at hlocal
  | deliverCommand k env =>
    obtain ⟨system, hsystem, rfl⟩ := Option.map_eq_some_iff.mp hstep
    have hinv := h.system.step hjson hsystem
    obtain ⟨cmd, hcmd, rfl⟩ := Option.map_eq_some_iff.mp hsystem
    have huuid := h.system.ids.published cmd (List.mem_of_getElem? hcmd)
    exact h.deviceStep hinv rfl (List.prefix_append _ _) fun m hm =>
      (h.sound m hm).deliver hjson h.system huuid env
  | deliverAck k =>
    obtain ⟨system, hsystem, rfl⟩ := Option.map_eq_some_iff.mp hstep
    have hinv := h.system.step hjson hsystem
    obtain ⟨text, htext, rfl⟩ := Option.map_eq_some_iff.mp hsystem
    cases hparse : json.parse text with
    | none => exact h
    | some ack =>
      simp only [hparse] at hinv
      have hbackend : w.system.backend.step ⟨0, 0, 0⟩ (.ack ack) =
          some (w.system.backend.handleAckMessage ack) := rfl
      apply h.backendStep hinv hbackend
      rintro _ ⟨⟩ hok att hatt
      exact h.callPulsed_of_ack hjson htext hparse hok hagree hatt

end Inv

/-- In every run whose events keep the windows in agreement, every success of `openByUser`
    comes with a pulse of the relay for its id since its admission. -/
theorem pulsed_since_admission {lib : ArduinoJson} {json : BackendJson}
    (hjson : DecodesEachOther lib json) (cfg : GateConfig) (ttlSeconds : Nat)
    {es : List WorldEvent}
    (hagree : Trace.AllSteps (step lib json cfg ttlSeconds) (WindowsAgree json) init es) :
    Trace.AllStates (step lib json cfg ttlSeconds) PulsedSinceAdmission init es := by
  have hinv : Trace.AllStates (step lib json cfg ttlSeconds) (Inv lib) init es :=
    Trace.allStates_of_allSteps (fun _ _ _ h hC hstep => h.step hjson hC hstep) (init_inv lib)
      hagree
  refine hinv.mono fun w h m hm o ho hreturned => h.succeeded m hm o ho ?_
  rw [hreturned]
  exact rfl

/-! ## An id that is used again -/

/-- The device answers a command whose id it remembers, and does nothing else. -/
private theorem handleMqttCommand_cached {lib : ArduinoJson} (hlib : lib.Conforms)
    {requestId userId : String} {issuedAt : Nat} (huuid : isUuid requestId = true)
    (huser : userId.toList.all printable = true) (hlen : userId.length ≤ 63)
    (hissued : issuedAt < 2 ^ 53) {gate : GateControl}
    (hcached : gate.wasProcessed (some (CString.ofAscii requestId)) = true) (millis : UInt32) :
    handleMqttCommand lib ⟨true, millis⟩ gate (backendJson.stringify ⟨requestId, userId, issuedAt⟩) =
      (gate, [okAck lib (CString.ofAscii requestId)]) := by
  let cmd : Command String := ⟨requestId, userId, issuedAt⟩
  have hread : ∃ result, Protocol.parseCommand lib (backendJson.stringify cmd) = some result ∧
      Received cmd result := parseCommand_stringify huuid huser hlib hlen hissued
  obtain ⟨result, hparse, hreceived⟩ := hread
  have hid : result.requestId = CString.ofAscii requestId := by
    have hplain := all_printable_of_plain (plain_of_isUuid huuid).2
    exact CString.ext (hreceived.requestId.trans (bytes_ofAscii hplain).symm)
  have hopen : result.command = CString.ofAscii "open" :=
    CString.ext (hreceived.command.trans (by decide))
  simp only [handleMqttCommand, cmd] at hparse ⊢
  simp [hparse, hid, hopen, ofAscii_isEmpty_of_isUuid huuid, hcached]

/-- After its call of `openGate` has returned `ok: true`, a call returns success. -/
private theorem returns_of_done (lib : ArduinoJson) (json : BackendJson) (cfg : GateConfig)
    (ttlSeconds : Nat) {i j : Nat} {w : World} {o : Open} {c : Call String}
    (ho : w.opens[j]? = some o) (hopening : o.state = .opening i) (hc : w.system.backend.calls[i]? = some c)
    (hdone : c.state = .done (.ok ())) :
    ∃ w', Trace.exec (step lib json cfg ttlSeconds) w [.settle j, .logged j none] = some w' ∧
      (∃ o', w'.opens[j]? = some o' ∧ o'.state = .returned (.ok ())) ∧
      w'.system = w.system ∧ w'.admissions = w.admissions := by
  let log := o.record w.clock .success none ⟨true, c.metadata.timeout, c.metadata.retries⟩
  let settled := w.setOpen j (.logging log (.ok ()))
  have hsettle : w.step lib json cfg ttlSeconds (.settle j) = some settled := by
    simp only [step, ho, hopening, hc, hdone, Option.bind_some]
    rfl
  have hlogging : settled.opens[j]? = some { o with state := .logging log (.ok ()) } := by
    simp [settled, World.setOpen, ho]
  have hlogged : settled.step lib json cfg ttlSeconds (.logged j none) =
      some (settled.logged j log (.ok ()) none) := by
    simp only [step, hlogging, Option.bind_some]
  refine ⟨settled.logged j log (.ok ()) none, ?_, ⟨{ o with state := .returned (.ok ()) }, ?_, rfl⟩,
    rfl, rfl⟩
  · simp only [Trace.exec_cons, Trace.exec_nil, hsettle, hlogged, Option.bind_some]
  · simp [World.logged, settled, World.setOpen, ho, Open.logged]

section Readmission

variable {lib : ArduinoJson} (hlib : lib.Conforms) (cfg : GateConfig) (ttlSeconds : Nat)
  {w : World} {j : Nat} {o : Open} (ho : w.opens[j]? = some o)
  (huuid : isUuid o.params.requestId = true)
  (huser : o.params.userId.toList.all printable = true) (hlen : o.params.userId.length ≤ 63)
  (hclock : w.clock < 2 ^ 53) (hclient : w.system.backend.client = true)
  (hcached : w.system.gate.wasProcessed (some (CString.ofAscii o.params.requestId)) = true)

include hlib ho huuid huser hlen hclock hclient hcached

/-- An admitted call whose id the device remembers returns success without a pulse, when its
    messages arrive. -/
private theorem returns_without_pulse (hadmitted : o.state = .admitted)
    (hconnected : w.system.backend.isConnected = true) :
    ∃ es w', Trace.exec (step lib backendJson cfg ttlSeconds) w es = some w' ∧
      (∃ o', w'.opens[j]? = some o' ∧ o'.state = .returned (.ok ())) ∧
      w'.system.pulsed = w.system.pulsed ∧ w'.admissions = w.admissions := by
  let r := o.params.requestId
  let s := w.system.backend
  let text := Protocol.createAck lib (CString.ofAscii r) true none 256
  have hparse : backendJson.parse text = some ⟨r, true, none⟩ :=
    (parse_createAck huuid true List.mem_cons_self hlib).2.2
  have hopened := GateDevice.openGate_connected hclient hconnected r o.params.userId true
  obtain ⟨done, hresume, hcall⟩ :=
    GateDevice.resume_of_ack hclient hconnected r o.params.userId true cfg none
  -- The states of the run.
  let opening := w.openGate j o true
  let answered : World := { opening with system := { opening.system with
    acks := w.system.acks ++ [text] } }
  let told : World := { answered with system := { answered.system with
    backend := opening.system.backend.handleAckMessage ⟨r, true, none⟩ } }
  let resumed : World := { told with system := { told.system with backend := done } }
  have hopen : w.step lib backendJson cfg ttlSeconds (.openGate j true) = some opening := by
    simp only [step, ho, Option.bind_some, hadmitted]
    rfl
  have hdeliver : opening.step lib backendJson cfg ttlSeconds
      (.deliverCommand s.published.length ⟨true, 0⟩) = some answered := by
    let cmd : Command String := ⟨r, o.params.userId, w.clock⟩
    have hpublished : opening.system.backend.published = s.published ++ [cmd] :=
      congrArg (·.published) hopened
    have hcommand : opening.system.backend.published[s.published.length]? = some cmd := by
      rw [hpublished, List.getElem?_concat_length]
    have hhandle : handleMqttCommand lib ⟨true, 0⟩ opening.system.gate (backendJson.stringify cmd) =
        (opening.system.gate, [okAck lib (CString.ofAscii r)]) :=
      handleMqttCommand_cached hlib huuid huser hlen hclock hcached 0
    have hpulses : Device.pulsesIn [okAck lib (CString.ofAscii r)] = [] := rfl
    simp only [step, System.step, hcommand, Option.map_some, hhandle, Option.isNone_none, if_true,
      hpulses, List.append_nil]
    rfl
  have hack : answered.step lib backendJson cfg ttlSeconds
      (.deliverAck w.system.acks.length) = some told := by
    have htext : answered.system.acks[w.system.acks.length]? = some text :=
      List.getElem?_concat_length
    simp only [step, System.step, htext, Option.map_some, hparse]
    rfl
  have hcontinue : told.step lib backendJson cfg ttlSeconds
      (.backend (.resume s.calls.length)) = some resumed := by
    have hstep : told.system.backend.step cfg (.resume s.calls.length) = some done := hresume
    simp only [step, System.step, System.isLocal, if_true, hstep, Option.map_some]
    rfl
  have hopening : resumed.opens[j]? = some { o with state := .opening s.calls.length } := by
    have hopens : resumed.opens = (w.setOpen j (.opening s.calls.length)).opens := rfl
    rw [hopens]
    simp [World.setOpen, ho]
  obtain ⟨w', hreturns, hreturned, hsystem, hadmissions⟩ :=
    returns_of_done lib backendJson cfg ttlSeconds hopening rfl hcall rfl
  have hpulsed : w'.system.pulsed = w.system.pulsed := by rw [hsystem]; rfl
  refine ⟨[.openGate j true, .deliverCommand s.published.length ⟨true, 0⟩,
    .deliverAck w.system.acks.length, .backend (.resume s.calls.length), .settle j,
    .logged j none], w', ?_, hreturned, hpulsed, hadmissions⟩
  simp only [Trace.exec_cons, hopen, hdeliver, hack, hcontinue, Option.bind_some] at hreturns ⊢
  exact hreturns

/-- When an id is admitted that the device remembers, the call may return success without a
    pulse since its admission. -/
theorem readmission_reaches (hstate : o.state = .registering)
    (hnew : ∀ record ∈ w.requests, record.requestId ≠ o.params.requestId) :
    ∃ es w', Trace.exec (step lib backendJson cfg ttlSeconds) w (.register j none :: es) = some w' ∧
      ¬ w'.PulsedSinceAdmission := by
  let m : Admission := ⟨j, o.params.requestId, w.system.pulsed.length, w.system.acks.length⟩
  let admitted : World := { w.setOpen j .admitted with
    requests := w.requests ++ [⟨o.params.requestId, o.params.userId, o.startTime⟩]
    admissions := w.admissions ++ [m] }
  have hregister : w.step lib backendJson cfg ttlSeconds (.register j none) = some admitted := by
    have hduplicate : (w.requests.any fun record => record.requestId = o.params.requestId) =
        false := by
      simpa using hnew
    simp only [step, ho, hstate, Option.bind_some, World.register, checkAndRegisterRequestId,
      hduplicate]
    rfl
  let connected : World := { admitted with system := { w.system with
    backend := { w.system.backend with isConnected := true } } }
  have hconnect : admitted.step lib backendJson cfg ttlSeconds (.backend .mqttConnect) =
      some connected := by
    have hstep : admitted.system.backend.step cfg .mqttConnect =
        some { w.system.backend with isConnected := true } := if_pos hclient
    simp only [step, System.step, System.isLocal, if_true, hstep, Option.map_some]
    rfl
  have hadmitted : connected.opens[j]? = some { o with state := .admitted } := by
    have hopens : connected.opens = (w.setOpen j .admitted).opens := rfl
    rw [hopens]
    simp [World.setOpen, ho]
  obtain ⟨es, w', hrun, ⟨o', ho', hreturned⟩, hpulsed, hadmissions⟩ :=
    returns_without_pulse hlib cfg ttlSeconds hadmitted huuid huser hlen hclock hclient hcached
      rfl rfl
  refine ⟨.backend .mqttConnect :: es, w', ?_, fun h => ?_⟩
  · simp only [Trace.exec_cons, hregister, hconnect, Option.bind_some]
    exact hrun
  · have hm : m ∈ w'.admissions := hadmissions ▸ List.mem_append_right _ List.mem_cons_self
    have hsince : CString.ofAscii m.requestId ∈ w'.system.pulsed.drop m.pulsedBefore :=
      h m hm o' ho' hreturned
    rw [hpulsed] at hsince
    rw [List.drop_of_length_le (l := w.system.pulsed) (i := m.pulsedBefore) le_rfl] at hsince
    cases hsince

end Readmission

/-! ## Runs -/

instance (json : BackendJson) (w : World) (e : WorldEvent) : Decidable (w.WindowsAgree json e) := by
  unfold WindowsAgree
  split <;> infer_instance

def sampleParams : OpenParams where
  requestId := System.sampleCommand.requestId
  userId := System.sampleCommand.userId
  email := "user@example.com"
  deviceId := "device-1"
  sessionId := none
  ip := none
  userAgent := none

/-- Call `j` from its start to the call of `openGate`. -/
def enter (j : Nat) : List WorldEvent :=
  [.openByUser sampleParams, .register j none, .openGate j true]

/-- Call `j` of `openByUser` waits for call `j` of `openGate`: the device gets its command, the
    backend the answer, and both calls return. -/
def answer (j : Nat) (millis : UInt32) : List WorldEvent :=
  [.deliverCommand j ⟨true, millis⟩, .deliverAck j, .backend (.resume j), .settle j, .logged j none]

/-- The ACK of success for an id. -/
def ackText (id : List UInt8) : CString :=
  CString.ofBytes (Json.obj [(ascii "requestId", .str id), (ascii "ok", .bool true)]).text

/-- A command of the sample user. -/
structure ListedCommand where
  id : List Char
  issuedAt : Nat

namespace ListedCommand

def command (c : ListedCommand) : Command String :=
  ⟨String.ofList c.id, sampleParams.userId, c.issuedAt⟩

def document (c : ListedCommand) : Json :=
  .obj [(ascii "requestId", .str (asciiBytes c.id)), (ascii "command", .str (ascii "open")),
    (ascii "userId", .str (ascii sampleParams.userId)), (ascii "issuedAt", .int c.issuedAt)]

def text (c : ListedCommand) : CString := CString.ofBytes c.document.text

end ListedCommand

theorem ascii_ofList (chars : List Char) : ascii (String.ofList chars) = asciiBytes chars := by
  rw [ascii_eq, String.toList_ofList]

/-- The two libraries on the texts of listed commands and of ACKs of success. -/
def listedLib (cmds : List ListedCommand) : ArduinoJson where
  deserializeJson _ json := (cmds.find? fun c => json = c.text).map ListedCommand.document
  serializeJson doc _ :=
    match doc with
    | .obj [(_, .str id), (_, .bool true)] => ackText id
    | _ => CString.empty

def listedJson (cmds : List ListedCommand) : BackendJson where
  stringify cmd :=
    match cmds.find? fun c => cmd = c.command with
    | some c => c.text
    | none   => CString.empty
  parse text := (cmds.find? fun c => text = ackText (asciiBytes c.id)).map fun c =>
    ⟨String.ofList c.id, true, none⟩

section Listed

variable {cmds : List ListedCommand} {c c' : ListedCommand}

/-- The documents are those of the backend. -/
theorem document_eq (c : ListedCommand) :
    c.document = commandDocument c.command.requestId c.command.userId c.command.issuedAt := by
  have hid : asciiBytes c.id = ascii c.command.requestId := (ascii_ofList c.id).symm
  rw [ListedCommand.document, hid]
  rfl

theorem ne_zero_of_isUuid (huuid : isUuid (String.ofList c.id) = true) :
    ∀ b ∈ asciiBytes c.id, b ≠ 0 := by
  rw [← ascii_ofList]
  exact ne_zero_of_mem_ascii (all_printable_of_plain (plain_of_isUuid huuid).2)

theorem bytes_ackText {id : List UInt8} (hid : ∀ b ∈ id, b ≠ 0) :
    (ackText id).bytes = ascii "\x7b\"requestId\":\"" ++ id ++ ascii "\",\"ok\":true\x7d" := by
  have htext : (Json.obj [(ascii "requestId", .str id), (ascii "ok", .bool true)]).text =
      ascii "\x7b\"requestId\":\"" ++ id ++ ascii "\",\"ok\":true\x7d" := by
    simp [Json.text, Json.scalarText, ascii]
  have hnul : ∀ b ∈ ascii "\x7b\"requestId\":\"" ++ id ++ ascii "\",\"ok\":true\x7d", b ≠ 0 := by
    intro b hb
    rw [List.mem_append, List.mem_append] at hb
    rcases hb with (hb | hb) | hb
    · exact ne_zero_of_mem_ascii (by decide) b hb
    · exact hid b hb
    · exact ne_zero_of_mem_ascii (by decide) b hb
  rw [ackText, htext]
  exact List.takeWhile_eq_self_iff.mpr fun b hb => decide_eq_true (hnul b hb)

theorem ackText_injective {id id' : List UInt8} (hid : ∀ b ∈ id, b ≠ 0) (hid' : ∀ b ∈ id', b ≠ 0)
    (h : ackText id = ackText id') : id = id' := by
  have hbytes := congrArg CString.bytes h
  rw [bytes_ackText hid, bytes_ackText hid', List.append_assoc, List.append_assoc] at hbytes
  exact List.append_cancel_right (List.append_cancel_left hbytes)

/-- The text of a command begins with its id. -/
theorem bytes_text (huuid : isUuid (String.ofList c.id) = true) :
    ∃ rest, c.text.bytes = ascii "\x7b\"requestId\":\"" ++ (asciiBytes c.id ++ rest) := by
  have hfront : ∀ b ∈ ascii "\x7b\"requestId\":\"", b ≠ 0 := ne_zero_of_mem_ascii (by decide)
  obtain ⟨rest, htext⟩ : ∃ rest, c.document.text =
      ascii "\x7b\"requestId\":\"" ++ (asciiBytes c.id ++ rest) := by
    simp [ListedCommand.document, Json.text, Json.scalarText, ascii]
  refine ⟨rest.takeWhile (· ≠ 0), ?_⟩
  show c.document.text.takeWhile (· ≠ 0) = _
  rw [htext, List.takeWhile_append_of_pos fun b hb => decide_eq_true (hfront b hb),
    List.takeWhile_append_of_pos fun b hb => decide_eq_true (ne_zero_of_isUuid huuid b hb)]

theorem text_injective (huuid : isUuid (String.ofList c.id) = true)
    (huuid' : isUuid (String.ofList c'.id) = true) (h : c.text = c'.text) :
    asciiBytes c.id = asciiBytes c'.id := by
  obtain ⟨rest, hrest⟩ := bytes_text huuid
  obtain ⟨rest', hrest'⟩ := bytes_text huuid'
  have hbytes := hrest.symm.trans ((congrArg CString.bytes h).trans hrest')
  have hlength : ∀ {id : List Char}, isUuid (String.ofList id) = true → (asciiBytes id).length = 36 := by
    intro id huuid
    rw [asciiBytes, List.length_map, ← (plain_of_isUuid huuid).1, String.toList_ofList]
  exact List.append_inj_left (List.append_cancel_left hbytes)
    ((hlength huuid).trans (hlength huuid').symm)

theorem listed_decodesEachOther (hcmds : ∀ c ∈ cmds, isUuid (String.ofList c.id) = true) :
    DecodesEachOther (listedLib cmds) (listedJson cmds) where
  command cmd capacity doc _ hdoc := by
    obtain ⟨found, hfound, rfl⟩ := Option.map_eq_some_iff.mp hdoc
    have htext : (listedJson cmds).stringify cmd = found.text := by
      simpa using List.find?_some hfound
    have hfounduuid := hcmds found (List.mem_of_find?_eq_some hfound)
    have hid : ascii found.command.requestId = ascii cmd.requestId := by
      simp only [listedJson] at htext
      split at htext
      · rename_i c hc
        obtain rfl : cmd = c.command := by simpa using List.find?_some hc
        rw [ListedCommand.command, ListedCommand.command, ascii_ofList, ascii_ofList]
        exact (text_injective (hcmds c (List.mem_of_find?_eq_some hc)) hfounduuid htext).symm
      · obtain ⟨rest, hrest⟩ := bytes_text hfounduuid
        cases (congrArg CString.bytes htext).trans hrest
    rw [← hid, document_eq]
    rfl
  ack id ok errorCode ack _ hack := by
    obtain ⟨c, hc, rfl⟩ := Option.map_eq_some_iff.mp hack
    have hnul := ne_zero_of_isUuid (hcmds c (List.mem_of_find?_eq_some hc))
    have htext : Protocol.createAck (listedLib cmds) id ok errorCode 256 =
        ackText (asciiBytes c.id) := by
      simpa using List.find?_some hc
    cases ok with
    | false =>
      have hempty : CString.empty = ackText (asciiBytes c.id) := by
        cases errorCode <;> exact htext
      cases (congrArg CString.bytes hempty).trans (bytes_ackText hnul)
    | true =>
      refine ⟨rfl, CString.ext ?_⟩
      have hid : id.bytes = asciiBytes c.id :=
        ackText_injective (fun b hb hzero => id.noNul (hzero ▸ hb)) hnul htext
      rw [hid, ← ascii_ofList]
      exact bytes_ofAscii (all_printable_of_plain
        (plain_of_isUuid (hcmds c (List.mem_of_find?_eq_some hc))).2)

end Listed

/-- The ids of the run below. -/
def cycledChars (k : Nat) : List Char :=
  Nat.toDigits 16 (16 + k) ++ "111111-1111-4111-8111-111111111111".toList

def cycledId (k : Nat) : String := String.ofList (cycledChars k)

/-- Call `j` of `openByUser`, from its start to the call of `openGate`. -/
def enterAs (j k : Nat) : List WorldEvent :=
  [.openByUser { sampleParams with requestId := cycledId k }, .register j none, .openGate j true]

/-- A first request goes through and its repetition is refused. Twenty other callers have the gate
    opened; then the record of the first request expires, and the id is used again. -/
def cycledRun : List WorldEvent :=
  .backend (.tick 1700000000000) :: enterAs 0 0 ++
    [.backend .mqttConnect, .backend (.subscribed 0 true), .backend (.resume 0)] ++ answer 0 60000 ++
    [.openByUser { sampleParams with requestId := cycledId 0 }, .register 1 none, .logged 1 none] ++
    ((List.range 20).flatMap fun k =>
      [.backend (.openGate (cycledId (k + 1)) sampleParams.userId true),
        .deliverCommand (k + 1) ⟨true, .ofNat (70000 + 10000 * k)⟩]) ++
    [.backend (.tick 31000), .expire 0] ++ enterAs 2 0 ++
    [.deliverCommand 21 ⟨true, 400000⟩, .deliverAck 21, .backend (.resume 21), .settle 2, .logged 2 none]

def cycledCommands : List ListedCommand :=
  ⟨cycledChars 0, 1700000031000⟩ :: (List.range 21).map fun k => ⟨cycledChars k, 1700000000000⟩

theorem cycledRun_agrees :
    ((Trace.exec (step (listedLib cycledCommands) (listedJson cycledCommands) ⟨5000, 1, 250⟩ 30) init
        cycledRun).map fun w =>
      (w.logs.map (·.status), w.system.pulsed.length,
        w.admissions.map fun m => (m.index, m.requestId, m.pulsedBefore))) =
      some ([.success, .blockedReplay, .success], 22, [(0, cycledId 0, 0), (2, cycledId 0, 21)]) ∧
    Trace.AllSteps (step (listedLib cycledCommands) (listedJson cycledCommands) ⟨5000, 1, 250⟩ 30)
      (WindowsAgree (listedJson cycledCommands)) init cycledRun := by
  decide +kernel

theorem pulsed_since_admission_cycledRun :
    ((Trace.exec (step (listedLib cycledCommands) (listedJson cycledCommands) ⟨5000, 1, 250⟩ 30) init
        cycledRun).map fun w =>
      (w.logs.map (·.status), w.system.pulsed.length,
        w.admissions.map fun m => (m.index, m.requestId, m.pulsedBefore))) =
      some ([.success, .blockedReplay, .success], 22, [(0, cycledId 0, 0), (2, cycledId 0, 21)]) ∧
    Trace.AllStates (step (listedLib cycledCommands) (listedJson cycledCommands) ⟨5000, 1, 250⟩ 30)
      PulsedSinceAdmission init cycledRun := by
  have huuids : ∀ c ∈ cycledCommands, isUuid (String.ofList c.id) = true := by decide +kernel
  obtain ⟨hrun, hagree⟩ := cycledRun_agrees
  exact ⟨hrun, pulsed_since_admission (listed_decodesEachOther huuids) _ _ hagree⟩

/-- The command of the sample request, published at `issuedAt`. -/
def replayCommand (issuedAt : Nat) : Command String :=
  { System.sampleCommand with issuedAt := issuedAt }

def replayDocument (issuedAt : Nat) : Json :=
  commandDocument System.sampleCommand.requestId System.sampleCommand.userId issuedAt

/-- When the two commands of `replayRun` are published. -/
def replayTimes : List Nat := [1700000000000, 1700000031000]

def replayLib : ArduinoJson where
  deserializeJson _ json :=
    (replayTimes.find? fun t => json = CString.ofBytes (replayDocument t).text).map replayDocument
  serializeJson := System.sampleLib.serializeJson

def replayJson : BackendJson where
  stringify cmd :=
    if cmd ∈ replayTimes.map replayCommand then
      CString.ofBytes (replayDocument cmd.issuedAt).text
    else CString.empty
  parse := System.sampleJson.parse

theorem replay_decodesEachOther : DecodesEachOther replayLib replayJson where
  command cmd capacity doc _ hdoc := by
    have hempty : ∀ t ∈ replayTimes, CString.empty ≠ CString.ofBytes (replayDocument t).text := by
      decide +kernel
    obtain ⟨t, ht, rfl⟩ := Option.map_eq_some_iff.mp hdoc
    have htext : replayJson.stringify cmd = CString.ofBytes (replayDocument t).text := by
      simpa using List.find?_some ht
    simp only [replayJson] at htext
    split at htext
    · rename_i hcmd
      obtain ⟨_, -, rfl⟩ := List.mem_map.mp hcmd
      rfl
    · exact absurd htext (hempty t (List.mem_of_find?_eq_some ht))
  ack id ok errorCode ack hid hack := System.sample_decodesEachOther.ack id ok errorCode ack hid hack

/-- The id is used again after 31 seconds, when its record is gone. -/
def replayRun : List WorldEvent :=
  .backend (.tick 1700000000000) :: enter 0 ++
    [.backend .mqttConnect, .backend (.subscribed 0 true), .backend (.resume 0)] ++
    answer 0 60000 ++ [.backend (.tick 31000), .expire 0] ++ enter 1 ++ answer 1 91000

/-- The call has answered that the gate was opened. -/
def openSucceeded (o : Open) : Bool := o.state matches .returned (.ok ())

theorem state_of_openSucceeded {o : Open} (h : openSucceeded o) : o.state = .returned (.ok ()) := by
  unfold openSucceeded at h
  split at h
  · assumption
  · cases h

/-- The second call is admitted and succeeds, and the device answered it from its cache. -/
theorem readmitted_without_pulse : DecodesEachOther replayLib replayJson ∧
    ¬ Trace.AllStates (step replayLib replayJson ⟨5000, 1, 250⟩ 30) PulsedSinceAdmission init
      replayRun := by
  refine ⟨replay_decodesEachOther, fun h => ?_⟩
  have hrun : (Trace.exec (step replayLib replayJson ⟨5000, 1, 250⟩ 30) init replayRun).map
      (fun w => (w.admissions[1]?.map fun m => (m.index, m.pulsedBefore),
        w.opens[1]?.map openSucceeded, w.system.pulsed.length)) =
      some (some (1, 1), some true, 1) := by decide +kernel
  obtain ⟨w, hw, hfinal⟩ := Option.map_eq_some_iff.mp hrun
  simp only [Prod.mk.injEq, Option.map_eq_some_iff] at hfinal
  obtain ⟨⟨m, hm, hindex, hbefore⟩, ⟨o, ho, hreturned⟩, hlength⟩ := hfinal
  have hok := state_of_openSucceeded hreturned
  have hpulsed := h.last hw m (List.mem_of_getElem? hm) o (hindex ▸ ho) hok
  rw [PulsedSince, hbefore, List.drop_of_length_le hlength.le] at hpulsed
  cases hpulsed

end World

end ParkingGate
