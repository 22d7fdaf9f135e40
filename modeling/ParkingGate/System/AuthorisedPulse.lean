-- SUMMARY: The whole way from a request to the relay: every pulse was asked for by a request that passed the guards of its route, or that had the administrators' key.
import ParkingGate.Backend.OpenRequests
import ParkingGate.System.EndToEnd

/-!
# No pulse without authority

The server handles any number of requests to both routes that open the gate, in pieces, while
other requests change the database. A request that awaits `openGate` makes the call, and goes on
when the call is over. The calls, the broker and the device are those of `EndToEnd.lean`: the
broker may lose, delay, reorder and repeat messages, the device may reboot at any time.

What stands behind a pulse is read backwards: the pulse is for a command that was published, the
command for a call of `openGate`, and the call for a request whose checks have seen, each in a
state of the server in this run, what they ask for: a token that verifies, its session, a user who
is approved and active on its device, and an id that was not registered yet. A token that was
issued with the role of an administrator needs no session, and of its user only that he exists.
A user whose stored role is an administrator's need not be approved or active on the device.
-/

namespace ParkingGate.AuthorisedPulse

open Backend Firmware
open Backend.GateRoute hiding openByUser openByAdminBackdoor

variable {ι : Type} [DecidableEq ι]

/-- The requests at the server, the call of `openGate` that each one waits for, and the rest of
    the way to the relay. -/
structure World (ι : Type) where
  server : Async.Loop RouteState RouteAnswer Unit ι
  calls : ι → Option Nat
  system : System

inductive Event (ι : Type) where
  /-- `POST /gate/open` -/
  | openRequest (i : ι) (request : IncomingRequest)
  /-- `GET /gate/admin-open`, with the id it draws. -/
  | adminRequest (i : ι) (request : IncomingRequest) (key : Option String) (randomUUID : String)
  /-- Other requests, the TTL index and the clock change what the server works on. -/
  | change (state : RouteState)
  /-- An operation on the database, the throttler or the response of request `i` is done. -/
  | answer (i : ι) (answer : (q : RouteAsk) → RouteAnswer q)
  /-- The call of `openGate` that request `i` makes. -/
  | callGate (i : ι) (created : Bool)
  /-- The call is over, and request `i` goes on. -/
  | gateAnswer (i : ι)
  /-- Anything else at the gate device service, the broker and the device. -/
  | system (e : SystemEvent)

namespace World

def init (state : RouteState) : World ι where
  server := ⟨state, fun _ => none⟩
  calls _ := none
  system := System.init

/-- The result of a call, for the request that waits for it. -/
def gateResult (metadata : McuCallMetadata) (result : Except GateError Unit) :
    (q : RouteAsk) → RouteAnswer q
  | .openGate ..   => (metadata, result)
  | .database      => none
  | .throttler     => true
  | .insertRequest => none
  | .insertLog ..  => none
  | .respond _     => ()

def isOpenGate : RouteAsk → Bool
  | .openGate .. => true
  | _            => false

def isOpenEvent : SystemEvent → Bool
  | .backend (.openGate ..) => true
  | _                       => false

section Step

variable (crypto : Crypto) (adminOpenKey : AdminOpenKey) (lib : ArduinoJson) (json : BackendJson)
  (cfg : GateConfig)

def step (w : World ι) : Event ι → Option (World ι)
  | .openRequest i request =>
    (w.server.start i (handleOpen crypto request)).map fun server => { w with server := server }
  | .adminRequest i request key randomUUID =>
    if isUuid randomUUID then
      (w.server.start i (handleAdminOpen adminOpenKey request key randomUUID)).map fun server =>
        { w with server := server }
    else none
  | .change state => some { w with server := { w.server with state := state } }
  | .answer i answer =>
    (w.server.resume i (fun _ q _ => !isOpenGate q) answer).map fun server =>
      { w with server := server }
  | .callGate i created =>
    match w.server.awaits i with
    | some (.openGate requestId userId) =>
      if (w.calls i).isNone then
        (w.system.step lib json cfg (.backend (.openGate requestId userId created))).map fun system =>
          { w with
            system := system
            calls := Function.update w.calls i (some w.system.backend.calls.length) }
      else none
    | _ => none
  | .gateAnswer i =>
    match (w.calls i).bind fun k => w.system.backend.calls[k]? with
    | some c =>
      match c.state with
      | .done result =>
        (w.server.resume i (fun _ q _ => isOpenGate q) (gateResult c.metadata result)).map
          fun server => { w with server := server }
      | _ => none
    | none => none
  | .system e =>
    if isOpenEvent e then none
    else (w.system.step lib json cfg e).map fun system => { w with system := system }

end Step

end World

open World

/-! ## The request ids -/

/-- The check that `isUuid` makes of a character at a position. -/
def uuidChar (c : Char) (i : Nat) : Bool :=
  if i = 8 || i = 13 || i = 18 || i = 23 then c = '-' else isHexDigit c

theorem isUuid_eq (requestId : String) : isUuid requestId =
    (decide (requestId.toList.length = 36) && requestId.toList.zipIdx.all fun (c, i) => uuidChar c i) := by
  unfold isUuid uuidChar isHexDigit
  simp only [Bool.decide_and]

theorem all_uuidChar {group : List Char} {k : Nat} (hhex : group.all isHexDigit = true)
    (hk : ∀ i, k ≤ i → i < k + group.length → i ≠ 8 ∧ i ≠ 13 ∧ i ≠ 18 ∧ i ≠ 23) :
    ((group.zipIdx k).all fun (c, i) => uuidChar c i) = true := by
  rw [List.all_eq_true]
  rintro ⟨c, i⟩ hmem
  have hi := List.mem_zipIdx hmem
  obtain ⟨h8, h13, h18, h23⟩ := hk i hi.1 hi.2.1
  simp only [uuidChar, h8, h13, h18, h23, decide_false, Bool.or_self, Bool.false_eq_true, if_false]
  rw [hi.2.2]
  exact List.all_eq_true.mp hhex _ (List.getElem_mem _)

/-- The controller's check of a request id and that of the device service are the same. -/
theorem isUuid_of_uuidRegex {requestId : String} (h : uuidRegex requestId = true) :
    isUuid requestId = true := by
  simp only [uuidRegex, decide_eq_true_eq] at h
  obtain ⟨hlengths, hhex⟩ := h
  have hjoin : ['-'].intercalate (requestId.toList.splitOn '-') = requestId.toList :=
    List.intercalate_splitOn '-'
  generalize requestId.toList.splitOn '-' = groups at hlengths hhex hjoin
  rcases groups with _ | ⟨a, _ | ⟨b, _ | ⟨c, _ | ⟨d, _ | ⟨e, _ | ⟨f, groups⟩⟩⟩⟩⟩⟩
  all_goals simp only [List.map_cons, List.map_nil, List.cons.injEq, and_true, reduceCtorEq,
    and_false] at hlengths
  obtain ⟨ha, hb, hc, hd, he⟩ := hlengths
  simp only [List.all_cons, List.all_nil, Bool.and_true, Bool.and_eq_true] at hhex
  obtain ⟨hxa, hxb, hxc, hxd, hxe⟩ := hhex
  have hjoined : requestId.toList = a ++ '-' :: (b ++ '-' :: (c ++ '-' :: (d ++ '-' :: e))) := by
    simp [← hjoin, List.intercalate]
  rw [isUuid_eq, hjoined]
  simp only [List.length_append, List.length_cons, ha, hb, hc, hd, he, decide_true, Bool.true_and,
    List.zipIdx_append, List.zipIdx_cons, List.all_append, List.all_cons, Bool.and_eq_true]
  refine ⟨all_uuidChar hxa (by omega), rfl, all_uuidChar hxb (by omega), rfl,
    all_uuidChar hxc (by omega), rfl, all_uuidChar hxd (by omega), rfl, all_uuidChar hxe (by omega)⟩

/-- A request that awaits `openGate` can make the call. -/
theorem World.callGate_isSome {crypto : Crypto} {adminOpenKey : AdminOpenKey} {lib : ArduinoJson}
    {json : BackendJson} {cfg : GateConfig} {w : World ι} {i : ι} {requestId userId : String}
    (hasks : w.server.awaits i = some (.openGate requestId userId)) (hcall : w.calls i = none)
    (huuid : isUuid requestId = true) (created : Bool) :
    (w.step crypto adminOpenKey lib json cfg (.callGate i created)).isSome = true := by
  simp [World.step, hasks, hcall, System.step, System.isLocal, huuid, GateDevice.step]

/-! ## What stands behind a request id -/

section Authorised

variable (crypto : Crypto) (adminOpenKey : AdminOpenKey) (H : RouteState → Prop)
  (es : List (Event ι))

/-- One of the requests under this id was admitted, or had the key and drew the id. -/
def Authorised (id : String) : Prop :=
  (∃ i request payload, .openRequest i request ∈ es ∧ Admitted crypto H request payload id) ∨
    ∃ i request key, .adminRequest i request key id ∈ es ∧ key ≠ none ∧ adminOpenKey.expected = key

/-- What every step keeps, in a run with the events `es` and the states `H` of the server. -/
structure Inv (w : World ι) : Prop where
  server : w.server.Waits H fun q =>
    ∀ id userId, q = .openGate id userId → Authorised crypto adminOpenKey H es id
  ids : w.system.backend.IdsIn fun id =>
    isUuid id = true ∧ Authorised crypto adminOpenKey H es id
  pulsed : ∀ p ∈ w.system.pulsed, ∃ id, p = CString.ofAscii id ∧
    Authorised crypto adminOpenKey H es id

end Authorised

section Run

variable {crypto : Crypto} {adminOpenKey : AdminOpenKey} {lib : ArduinoJson} {json : BackendJson}
  {cfg : GateConfig} {H : RouteState → Prop} {es : List (Event ι)} {w w' : World ι}

omit [DecidableEq ι] in
theorem inv_init (state : RouteState) : Inv crypto adminOpenKey H es (World.init state) where
  server := by rintro i p ⟨⟩
  ids := .init
  pulsed := by simp [World.init, System.init]

/-- The device pulses the relay for the id of the command that it handles. -/
theorem pulsesIn_handleMqttCommand (hjson : DecodesEachOther lib json) {cmd : Command String}
    (huuid : isUuid cmd.requestId = true) (env : Env) (gate : GateControl) :
    ∀ p ∈ Device.pulsesIn (handleMqttCommand lib env gate (json.stringify cmd)).2,
      p = CString.ofAscii cmd.requestId := by
  have hparsed : ∀ parsed, Protocol.parseCommand lib (json.stringify cmd) = some parsed →
      parsed.requestId = CString.ofAscii cmd.requestId := by
    intro parsed hparse
    obtain ⟨doc, value, requestId, hdoc, hvalue, hstr, heq⟩ := Protocol.parseCommand_requestId hparse
    rw [hjson.command cmd 512 doc huuid hdoc, Option.some.injEq] at hvalue
    subst hvalue
    obtain rfl := Option.some.inj hstr
    refine heq.trans (CString.strncpy_of_length_le ((List.takeWhile_sublist _).length_le.trans ?_))
    simp only [isUuid, Bool.and_eq_true, decide_eq_true_eq] at huuid
    simp [ascii, huuid.1]
  have hhandled := handled lib env gate (json.stringify cmd)
  generalize handleMqttCommand lib env gate (json.stringify cmd) = out at hhandled
  cases hhandled with
  | opened parsed hopen miss ready =>
    intro p hp
    simp only [Device.pulsesIn, okAck, List.filterMap_cons, List.filterMap_nil,
      List.mem_singleton] at hp
    exact hp.trans (hparsed parsed hopen.parsed)
  | _ => simp [Device.pulsesIn, nack, okAck]

/-- An event of the system that opens no call keeps what is behind the published ids. -/
theorem ids_step {Q : String → Prop} {system system' : System} {e : SystemEvent}
    (h : system.backend.IdsIn Q) (he : isOpenEvent e = false)
    (hstep : system.step lib json cfg e = some system') : system'.backend.IdsIn Q := by
  cases e with
  | backend e =>
    simp only [System.step, Option.ite_none_right_eq_some, Option.map_eq_some_iff] at hstep
    obtain ⟨-, backend, hbackend, rfl⟩ := hstep
    refine h.step (fun r hr => ?_) hbackend
    cases e with
    | openGate _ _ _ => cases he
    | _ => simp [GateDevice.openedIds] at hr
  | deliverCommand k env crash =>
    obtain ⟨cmd, -, rfl⟩ := Option.map_eq_some_iff.mp hstep
    exact h
  | deliverAck k =>
    obtain ⟨text, -, hrun⟩ := Option.map_eq_some_iff.mp hstep
    cases hparse : json.parse text with
    | none =>
      simp only [hparse] at hrun
      exact hrun ▸ h
    | some ack =>
      simp only [hparse] at hrun
      subst hrun
      refine h.step ?_ (rfl : GateDevice.step cfg system.backend (.ack ack) = some _)
      simp [GateDevice.openedIds]
  | reboot =>
    obtain rfl := Option.some.inj hstep
    exact h

/-- Every pulse is an old one, or for a published command. -/
theorem pulsed_step (hjson : DecodesEachOther lib json) {Q : String → Prop}
    {system system' : System} {e : SystemEvent}
    (hids : system.backend.IdsIn fun id => isUuid id = true ∧ Q id)
    (h : ∀ p ∈ system.pulsed, ∃ id, p = CString.ofAscii id ∧ Q id)
    (hstep : system.step lib json cfg e = some system') :
    ∀ p ∈ system'.pulsed, ∃ id, p = CString.ofAscii id ∧ Q id := by
  cases e with
  | backend e =>
    simp only [System.step, Option.ite_none_right_eq_some, Option.map_eq_some_iff] at hstep
    obtain ⟨-, backend, -, rfl⟩ := hstep
    exact h
  | deliverCommand k env crash =>
    obtain ⟨cmd, hcmd, rfl⟩ := Option.map_eq_some_iff.mp hstep
    obtain ⟨huuid, hQ⟩ := hids.published cmd (List.mem_of_getElem? hcmd)
    intro p hp
    rcases List.mem_append.mp hp with hp | hp
    · exact h p hp
    refine ⟨cmd.requestId, pulsesIn_handleMqttCommand hjson huuid env system.gate p ?_, hQ⟩
    cases crash with
    | none => exact hp
    | some n => exact (List.Sublist.filterMap _ (List.take_sublist _ _)).subset hp
  | deliverAck k =>
    obtain ⟨text, -, hrun⟩ := Option.map_eq_some_iff.mp hstep
    cases hparse : json.parse text with
    | none =>
      simp only [hparse] at hrun
      exact hrun ▸ h
    | some ack =>
      simp only [hparse] at hrun
      subst hrun
      exact h
  | reboot =>
    obtain rfl := Option.some.inj hstep
    exact h

theorem Inv.step (hjson : DecodesEachOther lib json) {e : Event ι}
    (h : Inv crypto adminOpenKey H es w) (hstate : H w.server.state) (he : e ∈ es)
    (hstep : w.step crypto adminOpenKey lib json cfg e = some w') :
    Inv crypto adminOpenKey H es w' := by
  cases e with
  | openRequest i request =>
    obtain ⟨server, hserver, rfl⟩ := Option.map_eq_some_iff.mp hstep
    obtain ⟨-, rfl⟩ := Async.Loop.start_eq_some hserver
    refine ⟨h.server.put ((asks_handleOpen crypto request).mono (fun q hq id userId hask => ?_)
      fun _ _ h => h), h.ids, h.pulsed⟩
    obtain ⟨payload, -, hadmitted⟩ := hq id userId hask
    exact .inl ⟨i, request, payload, he, hadmitted⟩
  | adminRequest i request key randomUUID =>
    simp only [World.step, Option.ite_none_right_eq_some, Option.map_eq_some_iff] at hstep
    obtain ⟨-, server, hserver, rfl⟩ := hstep
    obtain ⟨-, rfl⟩ := Async.Loop.start_eq_some hserver
    refine ⟨h.server.put ((asks_handleAdminOpen adminOpenKey request key randomUUID).mono
      (fun q hq id userId hask => ?_) fun _ _ h => h), h.ids, h.pulsed⟩
    obtain ⟨rfl, hkey, hexpected⟩ := hq id userId hask
    exact .inr ⟨i, request, key, he, hkey, hexpected⟩
  | change state =>
    obtain rfl := Option.some.inj hstep
    exact ⟨h.server, h.ids, h.pulsed⟩
  | answer i answer =>
    obtain ⟨server, hserver, rfl⟩ := Option.map_eq_some_iff.mp hstep
    exact ⟨h.server.resume hstate hserver, h.ids, h.pulsed⟩
  | callGate i created =>
    simp only [World.step] at hstep
    split at hstep
    next requestId userId hasks =>
      simp only [Option.ite_none_right_eq_some, Option.map_eq_some_iff] at hstep
      obtain ⟨-, system, hsystem, rfl⟩ := hstep
      have hauthorised := h.server.awaits hasks requestId userId rfl
      refine ⟨h.server, ?_, pulsed_step hjson h.ids h.pulsed hsystem⟩
      simp only [System.step, Option.ite_none_right_eq_some, Option.map_eq_some_iff] at hsystem
      obtain ⟨huuid, backend, hbackend, rfl⟩ := hsystem
      refine h.ids.step (fun r hr => ?_) hbackend
      simp only [GateDevice.openedIds, List.filterMap_cons, List.filterMap_nil,
        List.mem_singleton] at hr
      exact hr ▸ ⟨huuid, hauthorised⟩
    next => cases hstep
  | gateAnswer i =>
    simp only [World.step] at hstep
    split at hstep
    next c _ =>
      split at hstep
      next result _ =>
        obtain ⟨server, hserver, rfl⟩ := Option.map_eq_some_iff.mp hstep
        exact ⟨h.server.resume hstate hserver, h.ids, h.pulsed⟩
      next => cases hstep
    next => cases hstep
  | system e =>
    simp only [World.step, Option.ite_none_left_eq_some, Option.map_eq_some_iff] at hstep
    obtain ⟨he, system, hsystem, rfl⟩ := hstep
    exact ⟨h.server, ids_step h.ids (by simpa using he) hsystem,
      pulsed_step hjson h.ids h.pulsed hsystem⟩

end Run

/-- The states of the server in a run. -/
def Seen (crypto : Crypto) (adminOpenKey : AdminOpenKey) (lib : ArduinoJson) (json : BackendJson)
    (cfg : GateConfig) (state₀ : RouteState) (es : List (Event ι)) (state : RouteState) : Prop :=
  ∃ w : World ι, Trace.Visits (World.step crypto adminOpenKey lib json cfg) (World.init state₀) es w ∧
    w.server.state = state

/-- In every run, each pulse of the relay is for the id of a request whose checks have seen all
    that they ask for in states of this run, or of one that had the administrators' key. -/
theorem pulses_authorised {lib : ArduinoJson} {json : BackendJson}
    (hjson : DecodesEachOther lib json) (crypto : Crypto) (adminOpenKey : AdminOpenKey)
    (cfg : GateConfig) (state₀ : RouteState) (es : List (Event ι)) {w : World ι}
    (hrun : Trace.exec (World.step crypto adminOpenKey lib json cfg) (World.init state₀) es = some w) :
    ∀ p ∈ w.system.pulsed, ∃ id, p = CString.ofAscii id ∧
      Authorised crypto adminOpenKey (Seen crypto adminOpenKey lib json cfg state₀ es) es id :=
  (Trace.exec_invariant_visits
    (fun w _ _ hw hmem h hstep => h.step hjson ⟨w, hw, rfl⟩ hmem hstep)
    (inv_init state₀) hrun).pulsed

/-! ## A run -/

def sampleUser : User where
  id := System.sampleCommand.userId
  email := "dana@example.com"
  passwordHash := "salt$secret"
  role := .user
  firstName := "Dana"
  lastName := "Levi"
  phone := "0501234567"
  apartmentNumber := 4
  floor := 1
  status := .approved
  rejectionReason := none
  approvedAt := some 1600000000000
  rejectedAt := none
  approvalEmailSentAt := none
  activeDeviceId := some "phone"
  activeSessionId := some "s1"
  refreshTokenHash := none
  resetPasswordTokenHash := none
  resetPasswordExpiresAt := none
  createdAt := 1600000000000

def sampleState : RouteState where
  store := ⟨[sampleUser], [⟨sampleUser.id, "phone", "s1", "hash", 0⟩], []⟩
  requests := []
  logs := []
  opened := []
  now := 1700000000000

def sampleRequest : IncomingRequest where
  authorization := some ("Bearer " ++ Crypto.plain.signAccess 0 ⟨sampleUser.id, .user, "phone", "s1"⟩)
  xRequestId := some System.sampleCommand.requestId
  ip := none
  userAgent := none

/-- No operation fails, and no throttler refuses. -/
def allWell : (q : RouteAsk) → RouteAnswer q
  | .database      => none
  | .throttler     => false
  | .insertRequest => none
  | .openGate ..   => (⟨false, 0⟩, .ok ())
  | .insertLog ..  => none
  | .respond _     => ()

/-- The request passes its guards and is registered, then the command goes to the device. -/
def sampleEvents : List (Event Unit) :=
  .openRequest () sampleRequest :: List.replicate 8 (.answer () allWell) ++
    [.system (.backend (.tick 1700000000000)), .callGate () true, .system (.backend .mqttConnect),
      .system (.backend (.subscribed 0 true)), .system (.backend (.resume 0)),
      .system (.deliverCommand 0 ⟨true, 60000⟩ none)]

/-- The relay is pulsed in the run, and the request is what stands behind the pulse. -/
theorem pulses_authorised_sampleEvents :
    ∃ w : World Unit,
      Trace.exec (World.step Crypto.plain ⟨none, none⟩ System.sampleLib System.sampleJson ⟨5000, 1, 250⟩)
        (World.init sampleState) sampleEvents = some w ∧
      w.system.pulsed = [CString.ofAscii System.sampleCommand.requestId] ∧
      ∀ p ∈ w.system.pulsed, ∃ id, p = CString.ofAscii id ∧
        Authorised Crypto.plain ⟨none, none⟩ (Seen Crypto.plain ⟨none, none⟩ System.sampleLib
          System.sampleJson ⟨5000, 1, 250⟩ sampleState sampleEvents) sampleEvents id := by
  have hrun : (Trace.exec (World.step Crypto.plain ⟨none, none⟩ System.sampleLib System.sampleJson
      ⟨5000, 1, 250⟩) (World.init sampleState) sampleEvents).map (·.system.pulsed) =
      some [CString.ofAscii System.sampleCommand.requestId] := by
    decide +kernel
  obtain ⟨w, hw, hpulsed⟩ := Option.map_eq_some_iff.mp hrun
  exact ⟨w, hw, hpulsed,
    pulses_authorised System.sample_decodesEachOther Crypto.plain ⟨none, none⟩ _ _ _ hw⟩

end ParkingGate.AuthorisedPulse
