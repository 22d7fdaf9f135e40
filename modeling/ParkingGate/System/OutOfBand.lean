-- SUMMARY: The out-of-band channel from the administrator's call to the device: every command is carried out at most once, although the server hands commands out twice.
import ParkingGate.Backend.DeviceController
import ParkingGate.Firmware.Listening
import ParkingGate.Firmware.OobPoll

/-!
# Out-of-band commands

The device, the network and the server in one transition system. The device is stopped in
`https_get` between a request and its answer. A request may reach the server late, repeatedly or
never, and an answer only counts while the device waits for it. At the server the polls are
programs whose round trips interleave, and anybody may send polls.

Without the token of a device a request ends before it has seen the collection, so it neither
reads a command nor uses one up.

Two overlapping polls can be handed the same document. The device is safe from that because it
waits for one request at a time: a poll that looks a command up after the device has acted on it
finds it marked, and the polls that looked earlier answer requests that are given up.
-/

namespace ParkingGate.OutOfBand

open Backend CommandStore DeliveredOnce Firmware OobPoll MainLoop

/-! ## The system -/

/-- A call of `setPending` that creates a document. -/
structure SetCommand where
  deviceId : String
  action : DeviceCommandAction
  ttlSeconds : Option Nat
  now : Nat

/-- The device is in `https_get`: the request, the answers of its iteration and the time at the
    server when the request was sent. -/
structure Waiting where
  request : Nat
  ans : Answers
  sentAt : Nat

/-- A command that the device has carried out, by the number of its document. -/
structure Act where
  id : Nat
  action : OobAction
  sentAt : Nat

/-- A request at the server; `origin` is the request of the device, if it is one. -/
structure Handler where
  origin : Option Nat
  program : Poll

structure World where
  device : LoopWorld
  waiting : Option Waiting
  /-- How many requests the device has sent. -/
  requests : Nat
  handlers : List Handler
  commands : CommandStore
  /-- The clock of the server. -/
  now : Nat
  /-- The restarts and rebuilds that are seen of the device in STATE_MQTT_CONNECTED. -/
  performed : List OobAction
  acted : List Act

inductive Event where
  /-- An iteration of `loop()` that sends no request. -/
  | iterate (ans : Answers)
  /-- An iteration that gets as far as `https_get`. -/
  | request (ans : Answers)
  | powerCut (bootMillis : UInt32) (session : MqttSession)
  /-- A request of the device reaches the server, perhaps not for the first time. -/
  | arrive (r choice : Nat)
  /-- A request of somebody else. -/
  | foreign (request : PollRequest) (choice : Nat)
  /-- A round trip of the poll at position `k`. -/
  | serve (k : Nat)
  | setPending (deviceId : String) (action : DeviceCommandAction) (reason : Option String)
      (ttlSeconds : Option Nat) (now : Nat)
  | tick (d : Nat)
  /-- The answer of the poll at position `k` reaches the device. -/
  | respond (k : Nat)
  /-- `https_get` returns a code that the server did not send. -/
  | noResponse (code : Int)

/-- What an iteration is seen to do: it restarts the device, or takes it from STATE_MQTT_CONNECTED
    back to STATE_PPP_CONNECTING. -/
def performs (lib : ArduinoJson) (w : LoopWorld) (ans : Answers) : Option OobAction :=
  if restarts lib w ans then some .reboot
  else if w.main.deviceState = .mqttConnected ∧ (w.iterate lib ans).main.deviceState = .pppConnecting then
    some .rebuildPpp
  else none

/-- The documents that the device acts on with this answer. -/
def acts (result : Except PollError PollReply) (sentAt : Nat) : List Act :=
  match actionOf (pollStatus result), repliedId result with
  | some action, some id => [⟨id, action, sentAt⟩]
  | _, _                 => []

namespace World

def advance (lib : ArduinoJson) (w : World) (ans : Answers) : World :=
  { w with
    device := w.device.iterate lib ans
    performed := w.performed ++ (performs lib w.device ans).toList }

def receive (w : World) (h : Handler) : World := { w with handlers := w.handlers ++ [h] }

def init (bootMillis : UInt32) (session : MqttSession) (now : Nat) : World where
  device := LoopWorld.boot bootMillis session []
  waiting := none
  requests := 0
  handlers := []
  commands := CommandStore.init
  now := now
  performed := []
  acted := []

/-- `own` is the request that the firmware sends. -/
def step (tokens : DeviceTokens) (own : PollRequest) (lib : ArduinoJson) (w : World) :
    Event → Option World
  | .iterate ans =>
    if w.waiting.isSome ∨ polls w.device ans = true then none else some (w.advance lib ans)
  | .request ans =>
    if w.waiting.isNone ∧ polls w.device ans = true then
      some { w with waiting := some ⟨w.requests, ans, w.now⟩, requests := w.requests + 1 }
    else none
  | .powerCut bootMillis session =>
    some { w with device := LoopWorld.boot bootMillis session w.device.calls, waiting := none }
  | .arrive r choice =>
    if r < w.requests then
      some (w.receive ⟨some r, (getPendingCommand tokens own w.now choice).prog⟩)
    else none
  | .foreign request choice =>
    some (w.receive ⟨none, (getPendingCommand tokens request w.now choice).prog⟩)
  | .serve k =>
    match w.handlers[k]? with
    | some ⟨origin, .act upd next⟩ =>
      some { w with
        handlers := w.handlers.set k ⟨origin, next w.commands⟩
        commands := upd w.commands }
    | _ => none
  | .setPending deviceId action reason ttlSeconds now =>
    if now = w.now then
      some { w with
        commands := ((setPending deviceId action reason ttlSeconds now).prog.run w.commands).2 }
    else none
  | .tick d => some { w with now := w.now + d }
  | .respond k =>
    match w.waiting, w.handlers[k]? with
    | some waiting, some ⟨some r, .ret result⟩ =>
      if r = waiting.request then
        some { w.advance lib { waiting.ans with httpsGet := pollStatus result } with
          waiting := none
          acted := w.acted ++ acts result waiting.sentAt }
      else none
    | _, _ => none
  | .noResponse code =>
    match w.waiting with
    | some waiting =>
      if (actionOf code).isNone then
        some { w.advance lib { waiting.ans with httpsGet := code } with waiting := none }
      else none
    | none => none

end World

/-! ## What happened in a run -/

/-- The call behind the next document. -/
def setCommand? : Event → Option SetCommand
  | .setPending deviceId action _ ttlSeconds now =>
    if action = .none then none else some ⟨deviceId, action, ttlSeconds, now⟩
  | _ => none

/-- The calls that created the documents, in the order of their numbers. -/
def issued (es : List Event) : List SetCommand := es.filterMap setCommand?

def request? (own : PollRequest) : Event → Option PollRequest
  | .arrive ..         => some own
  | .foreign request _ => some request
  | .iterate _ | .request _ | .powerCut .. | .serve _ | .setPending .. | .tick _ | .respond _
  | .noResponse _      => none

/-- The requests that have reached the server, in the order of their handlers. -/
def received (own : PollRequest) (es : List Event) : List PollRequest := es.filterMap (request? own)

/-- The document is the one that the call of its number created. -/
structure Created (es : List Event) (doc : PendingCommand) (cmd : SetCommand) : Prop where
  issued : (issued es)[doc.id]? = some cmd
  deviceId : doc.deviceId = cmd.deviceId
  action : doc.action = cmd.action
  expiresAt : doc.expiresAt = expiryOf cmd.ttlSeconds cmd.now

def commandOf : OobAction → DeviceCommandAction
  | .reboot     => .reboot
  | .rebuildPpp => .rebuildPpp

/-- The document was set for the device, and had not expired when the request was sent. -/
structure Commanded (own : PollRequest) (es : List Event) (id : Nat) (action : DeviceCommandAction)
    (sentAt : Nat) (cmd : SetCommand) : Prop where
  issued : (issued es)[id]? = some cmd
  deviceId : cmd.deviceId = own.deviceId
  action : cmd.action = action
  unexpired : ∀ expiresAt, expiryOf cmd.ttlSeconds cmd.now = some expiresAt → sentAt < expiresAt

/-- What the device did is what the server was told: every command at most once, for this device,
    in its time, and by a request with its token. -/
structure Obeys (tokens : DeviceTokens) (own : PollRequest) (es : List Event) (w : World) : Prop where
  performed : w.performed = w.acted.map (·.action)
  once : (w.acted.map (·.id)).Nodup
  commanded : ∀ a ∈ w.acted, own.Authenticated tokens ∧
    ∃ cmd, Commanded own es a.id (commandOf a.action) a.sentAt cmd

/-- A round trip of a poll with the token of this device has marked the document. -/
def UsedUp (tokens : DeviceTokens) (own : PollRequest) (lib : ArduinoJson) (start : World)
    (es : List Event) (doc : PendingCommand) : Prop :=
  ∃ pre k w w' request, pre ++ [.serve k] <+: es ∧
    Trace.exec (World.step tokens own lib) start pre = some w ∧
    w.step tokens own lib (.serve k) = some w' ∧
    ¬ Marked w.commands doc.id ∧ Marked w'.commands doc.id ∧
    (received own pre)[k]? = some request ∧ request.Authenticated tokens ∧
    request.deviceId = doc.deviceId

/-- Without the token of a device nobody reads a command for it or uses one up. -/
structure Guarded (tokens : DeviceTokens) (own : PollRequest) (lib : ArduinoJson) (start : World)
    (es : List Event) (w : World) : Prop where
  handlers : w.handlers.length = (received own es).length
  refused : ∀ (k : Nat) request h, (received own es)[k]? = some request → w.handlers[k]? = some h →
    ¬ request.Authenticated tokens → ∃ e, h.program = .ret (.error (.http e))
  told : ∀ (k : Nat) request h result id, (received own es)[k]? = some request →
    w.handlers[k]? = some h → h.program = .ret result → repliedId result = some id →
      request.Authenticated tokens ∧ ∃ cmd, (issued es)[id]? = some cmd ∧ cmd.deviceId = request.deviceId
  used : ∀ doc ∈ w.commands.commands, doc.consumedAt ≠ none → UsedUp tokens own lib start es doc

/-! ## The device -/

section Device

variable {w : LoopWorld} {ans : Answers} (lib : ArduinoJson)

theorem actionOf_commandStatus (action : DeviceCommandAction) (oob : OobAction) :
    actionOf (commandStatus action) = some oob ↔ action = commandOf oob := by
  cases action <;> cases oob <;> simp [actionOf, commandStatus, commandOf]

/-- What is seen of the device is what it was told. -/
theorem performs_eq (h : w.restarting = false) : performs lib w ans = commanded w ans := by
  unfold performs
  by_cases hrestarts : restarts lib w ans = true
  · rw [if_pos hrestarts, (restarts_iff lib _ h).mp hrestarts]
  rw [if_neg hrestarts]
  have hreboot : commanded w ans ≠ some .reboot := mt (restarts_iff lib _ h).mpr hrestarts
  cases hcommand : commanded w ans with
  | none =>
    refine if_neg fun hseen => ?_
    have hafter := hseen.2
    rcases iterate_none lib _ h hseen.1 hcommand with hmain | hmain <;> rw [hmain] at hafter
    · exact absurd (hseen.1.symm.trans hafter) (by simp)
    · exact absurd hafter (by simp [LoopState.enter])
  | some action =>
    cases action with
    | reboot => exact absurd hcommand hreboot
    | rebuildPpp =>
      refine if_pos ⟨connected_of_due (due_of_polls (polls_of_commanded hcommand)), ?_⟩
      rw [iterate_rebuildPpp lib _ h hcommand]
      rfl

theorem commanded_of_polls (h : polls w ans = true) (code : Int) :
    commanded w { ans with httpsGet := code } = actionOf code := if_pos h

theorem commanded_of_not_polls (h : ¬ polls w ans = true) : commanded w ans = none := if_neg h

end Device

/-! ## The server -/

/-- What holds of the collection at every time of the run. -/
structure StoreInv (es : List Event) (s : CommandStore) : Prop where
  fresh : ∀ doc ∈ s.commands, doc.id < s.nextId
  created : ∀ doc ∈ s.commands, ∃ cmd, Created es doc cmd

/-- What a poll returns has been marked. -/
structure Returns (result : Except PollError PollReply) (s : CommandStore) : Prop where
  marked : ∀ id, repliedId result = some id → Marked s id ∧ id < s.nextId
  idle : repliedId result = none → actionOf (pollStatus result) = none

/-- What a poll returns that was looked up at `sentAt` or later, while `acted` was marked. -/
def Fresh (own : PollRequest) (es : List Event) (acted : List Nat) (sentAt : Nat)
    (result : Except PollError PollReply) : Prop :=
  ∀ id action, repliedId result = some id → actionOf (pollStatus result) = some action →
    id ∉ acted ∧ ∃ cmd, Commanded own es id (commandOf action) sentAt cmd

section Server

variable {tokens : DeviceTokens} {own : PollRequest} {es : List Event} {s s' : CommandStore}

theorem Returns.error (e : PollError) (s : CommandStore) : Returns (.error e) s where
  marked _ h := by cases h
  idle _ := by
    cases e with
    | http e => cases e <;> rfl
    | command e => rfl

theorem Returns.stable {result : Except PollError PollReply} (h : Returns result s)
    (hadv : Advances s s') : Returns result s' where
  marked id hid := by
    obtain ⟨hmarked, hlt⟩ := h.marked id hid
    exact ⟨hadv.marked id hlt hmarked, hlt.trans_le hadv.nextId⟩
  idle := h.idle

namespace StoreInv

variable (h : StoreInv es s)

include h

theorem deletePending (deviceId : String) : StoreInv es (s.deletePending deviceId) where
  fresh doc hdoc := h.fresh doc (Collection.mem_deleteMany.mp hdoc).1
  created doc hdoc := h.created doc (Collection.mem_deleteMany.mp hdoc).1

theorem create {cmd : SetCommand} (hissued : (issued es)[s.nextId]? = some cmd) (reason : Option String) :
    StoreInv es
      (s.create cmd.deviceId cmd.action reason (expiryOf cmd.ttlSeconds cmd.now) cmd.now) where
  fresh doc hdoc := by
    rcases List.mem_append.mp hdoc with hdoc | hdoc
    · exact (h.fresh doc hdoc).trans (Nat.lt_succ_self _)
    · rw [List.mem_singleton.mp hdoc]
      exact Nat.lt_succ_self _
  created doc hdoc := by
    rcases List.mem_append.mp hdoc with hdoc | hdoc
    · exact h.created doc hdoc
    · rw [List.mem_singleton.mp hdoc]
      exact ⟨cmd, hissued, rfl, rfl, rfl⟩

theorem saveConsumed (id now : Nat) : StoreInv es (s.saveConsumed id now) where
  fresh := (Advances.saveConsumed s id now).fresh h.fresh
  created new hnew := by
    obtain ⟨old, hold, rfl⟩ := List.mem_map.mp hnew
    obtain ⟨cmd, hcmd⟩ := h.created old hold
    refine ⟨cmd, ?_⟩
    split <;> exact ⟨hcmd.issued, hcmd.deviceId, hcmd.action, hcmd.expiresAt⟩

/-- Documents of one number are for one device, whenever they are read. -/
theorem deviceId_eq {t : CommandStore} (ht : StoreInv es t) {doc old : PendingCommand}
    (hdoc : doc ∈ t.commands) (hold : old ∈ s.commands) (hid : old.id = doc.id) :
    old.deviceId = doc.deviceId := by
  obtain ⟨cmd, hcmd⟩ := ht.created doc hdoc
  obtain ⟨cmd', hcmd'⟩ := h.created old hold
  have hsame : cmd' = cmd := Option.some.inj ((hid ▸ hcmd'.issued.symm).trans hcmd.issued)
  rw [hcmd'.deviceId, hsame, hcmd.deviceId]

end StoreInv

/-- The change of a poll. -/
structure PollStep (es : List Event) (s s' : CommandStore) : Prop where
  advances : Advances s s'
  store : StoreInv es s'
  nextId : s'.nextId = s.nextId

/-- The polls, whoever sends them, mark what they return. -/
theorem yields_returns (request : PollRequest) (now choice : Nat) :
    (getPendingCommand tokens request now choice).prog.Yields (StoreInv es)
      (PollStep es) Returns s := by
  refine yields_getPendingCommand (fun t ht => ⟨.refl t, ht, rfl⟩) Returns.error (fun t => ?_) ?_
  · exact ⟨fun id hid => (by cases hid), fun _ => rfl⟩
  · intro t doc _ _ _ u hu
    refine ⟨⟨.saveConsumed u doc.id now, hu.saveConsumed doc.id now, rfl⟩, fun hhas => ?_⟩
    refine ⟨fun id hid => ?_, fun hid => by cases hid⟩
    obtain rfl : doc.id = id := Option.some.inj hid
    obtain ⟨old, hold, hsame⟩ := List.any_eq_true.mp hhas
    exact ⟨marked_saveConsumed u doc.id now, (beq_iff_eq.mp hsame) ▸ hu.fresh old hold⟩

/-- A poll of the device that starts now returns nothing that is marked already. -/
theorem yields_fresh {acted : List Nat} {sentAt now choice : Nat} (hsent : sentAt ≤ now) :
    (getPendingCommand tokens own now choice).prog.Yields
      (fun s => StoreInv es s ∧ ∀ id ∈ acted, Marked s id) (fun _ _ => True)
      (fun result _ => Fresh own es acted sentAt result ∧
        (repliedId result ≠ none → own.Authenticated tokens)) s := by
  refine yields_getPendingCommand (fun _ _ => trivial) (fun e t => ?_) (fun t => ?_) ?_
  · exact ⟨fun id action hid => (by cases hid), fun hid => absurd rfl hid⟩
  · exact ⟨fun id action hid => (by cases hid), fun hid => absurd rfl hid⟩
  · intro t doc ht hfound hauth u _
    refine ⟨trivial, fun _ => ⟨fun id action hid haction => ?_, fun _ => hauth⟩⟩
    obtain rfl : doc.id = id := Option.some.inj hid
    refine ⟨fun hacted => not_marked_of_findPending hfound (ht.2 doc.id hacted), ?_⟩
    obtain ⟨hdoc, hpending, -⟩ := Collection.of_findGreatest hfound
    obtain ⟨hdevice, -, hunexpired⟩ := PendingCommand.pendingFor_iff.mp hpending
    obtain ⟨cmd, hcmd⟩ := ht.1.created doc hdoc
    refine ⟨cmd, hcmd.issued, hcmd.deviceId ▸ hdevice, ?_, fun expiresAt hexpires => ?_⟩
    · exact hcmd.action.symm.trans ((actionOf_commandStatus doc.action action).mp haction)
    · rw [PendingCommand.unexpired, hcmd.expiresAt, hexpires] at hunexpired
      exact hsent.trans_lt (by simpa using hunexpired)

end Server

/-! ## Runs -/

/-- What is left of a poll of the device while it waits for the answer. -/
def FreshPoll (tokens : DeviceTokens) (own : PollRequest) (es : List Event) (acted : List Nat)
    (sentAt : Nat) (p : Poll) (s : CommandStore) : Prop :=
  p.Yields (fun s => StoreInv es s ∧ ∀ id ∈ acted, Marked s id) (fun _ _ => True)
    (fun result _ => Fresh own es acted sentAt result ∧
      (repliedId result ≠ none → own.Authenticated tokens)) s

/-- The device waits for the answer to its last request. -/
structure Current (tokens : DeviceTokens) (own : PollRequest) (es : List Event) (w : World)
    (waiting : Waiting) : Prop where
  known : waiting.request < w.requests
  sent : waiting.sentAt ≤ w.now
  polls : polls w.device waiting.ans = true
  handlers : ∀ h ∈ w.handlers, h.origin = some waiting.request →
    FreshPoll tokens own es (w.acted.map (·.id)) waiting.sentAt h.program w.commands

structure Inv (tokens : DeviceTokens) (own : PollRequest) (es pre : List Event) (w : World) : Prop where
  running : w.device.restarting = false
  nextId : w.commands.nextId = (issued pre).length
  store : StoreInv es w.commands
  handlers : ∀ h ∈ w.handlers,
    h.program.Yields (StoreInv es) (PollStep es) Returns w.commands
  known : ∀ h ∈ w.handlers, ∀ r, h.origin = some r → r < w.requests
  current : ∀ waiting, w.waiting = some waiting → Current tokens own es w waiting
  acted : ∀ a ∈ w.acted, Marked w.commands a.id ∧ a.id < w.commands.nextId
  obeys : Obeys tokens own es w

namespace Inv

variable {tokens : DeviceTokens} {own : PollRequest} {es pre : List Event} {w w' : World}
  {lib : ArduinoJson}

theorem init (bootMillis : UInt32) (session : MqttSession) (now : Nat) :
    Inv tokens own es [] (World.init bootMillis session now) where
  running := rfl
  nextId := rfl
  store := ⟨by simp [World.init, CommandStore.init], by simp [World.init, CommandStore.init]⟩
  handlers := by simp [World.init]
  known := by simp [World.init]
  current := by simp [World.init]
  acted := by simp [World.init]
  obeys := ⟨rfl, List.nodup_nil, by simp [World.init]⟩

theorem issued_snoc (e : Event) : issued (pre ++ [e]) = issued pre ++ (setCommand? e).toList := by
  rw [issued, List.filterMap_append]
  cases h : setCommand? e <;> simp [issued, h]

/-- An event that is no call of `setPending`. -/
theorem of_pre {e : Event} (he : setCommand? e = none) (h : Inv tokens own es pre w) :
    Inv tokens own es (pre ++ [e]) w :=
  { h with nextId := by rw [h.nextId, issued_snoc, he, Option.toList_none, List.append_nil] }

/-- The device goes on by itself. -/
theorem idle (h : Inv tokens own es pre w) {device : LoopWorld} (hrunning : device.restarting = false) :
    Inv tokens own es pre { w with device := device, waiting := none } where
  running := hrunning
  nextId := h.nextId
  store := h.store
  handlers := h.handlers
  known := h.known
  current _ hwaiting := by cases hwaiting
  acted := h.acted
  obeys := ⟨h.obeys.performed, h.obeys.once, h.obeys.commanded⟩

theorem advance_idle (lib : ArduinoJson) (h : Inv tokens own es pre w) {ans : Answers}
    (hcommand : commanded w.device ans = none) :
    Inv tokens own es pre { w.advance lib ans with waiting := none } := by
  have hperforms : performs lib w.device ans = none := (performs_eq lib h.running).trans hcommand
  have hidle := h.idle (iterate_running (w := w.device) lib ans)
  have hsame : { w.advance lib ans with waiting := none } =
      { w with device := w.device.iterate lib ans, waiting := none } := by
    simp [World.advance, hperforms]
  exact hsame ▸ hidle

/-- A new request at the server. -/
theorem receive (h : Inv tokens own es pre w) {request : PollRequest} {origin : Option Nat}
    (horigin : ∀ r, origin = some r → r < w.requests ∧ request = own)
    (choice : Nat) :
    Inv tokens own es pre
      (w.receive ⟨origin, (getPendingCommand tokens request w.now choice).prog⟩) where
  running := h.running
  nextId := h.nextId
  store := h.store
  handlers handler hmem := by
    rcases List.mem_append.mp hmem with hmem | hmem
    · exact h.handlers handler hmem
    · rw [List.mem_singleton.mp hmem]
      exact yields_returns request w.now choice
  known handler hmem r hr := by
    rcases List.mem_append.mp hmem with hmem | hmem
    · exact h.known handler hmem r hr
    · rw [List.mem_singleton.mp hmem] at hr
      exact (horigin r hr).1
  current waiting hwaiting := by
    have hcurrent := h.current waiting hwaiting
    refine ⟨hcurrent.known, hcurrent.sent, hcurrent.polls, fun handler hmem hr => ?_⟩
    rcases List.mem_append.mp hmem with hmem | hmem
    · exact hcurrent.handlers handler hmem hr
    · rw [List.mem_singleton.mp hmem] at hr ⊢
      obtain rfl := (horigin _ hr).2
      exact yields_fresh hcurrent.sent
  acted := h.acted
  obeys := ⟨h.obeys.performed, h.obeys.once, h.obeys.commanded⟩

/-- The collection moves on, and with it at most one of the polls. -/
theorem store_step (h : Inv tokens own es pre w) {pre' : List Event} {s' : CommandStore}
    {handlers : List Handler} (hadv : Advances w.commands s') (hstore : StoreInv es s')
    (hnext : s'.nextId = (issued pre').length)
    (hhandlers : ∀ handler ∈ handlers, ∃ old ∈ w.handlers, handler.origin = old.origin ∧
      (handler = old ∨
        handler.program.Yields (StoreInv es) (PollStep es) Returns s' ∧
        ∀ acted sentAt, (∀ id ∈ acted, Marked w.commands id) →
          FreshPoll tokens own es acted sentAt old.program w.commands →
          FreshPoll tokens own es acted sentAt handler.program s')) :
    Inv tokens own es pre' { w with handlers := handlers, commands := s' } where
  running := h.running
  nextId := hnext
  store := hstore
  handlers handler hmem := by
    obtain ⟨old, hold, -, rfl | ⟨hyields, -⟩⟩ := hhandlers handler hmem
    · exact (h.handlers handler hold).stable fun _ hreturns => hreturns.stable hadv
    · exact hyields
  known handler hmem r hr := by
    obtain ⟨old, hold, horigin, -⟩ := hhandlers handler hmem
    exact h.known old hold r (horigin ▸ hr)
  current waiting hwaiting := by
    have hcurrent := h.current waiting hwaiting
    refine ⟨hcurrent.known, hcurrent.sent, hcurrent.polls, fun handler hmem hr => ?_⟩
    obtain ⟨old, hold, horigin, rfl | ⟨-, hfresh⟩⟩ := hhandlers handler hmem
    · exact (hcurrent.handlers handler hold hr).stable fun _ hpost => hpost
    · refine hfresh _ _ (fun id hid => ?_) (hcurrent.handlers old hold (horigin ▸ hr))
      obtain ⟨a, ha, rfl⟩ := List.mem_map.mp hid
      exact (h.acted a ha).1
  acted a ha := by
    obtain ⟨hmarked, hlt⟩ := h.acted a ha
    exact ⟨hadv.marked a.id hlt hmarked, hlt.trans_le hadv.nextId⟩
  obeys := ⟨h.obeys.performed, h.obeys.once, h.obeys.commanded⟩

theorem store_only (h : Inv tokens own es pre w) {pre' : List Event} {s' : CommandStore}
    (hadv : Advances w.commands s') (hstore : StoreInv es s')
    (hnext : s'.nextId = (issued pre').length) :
    Inv tokens own es pre' { w with commands := s' } :=
  h.store_step hadv hstore hnext fun handler hhandler => ⟨handler, hhandler, rfl, .inl rfl⟩

theorem serve (h : Inv tokens own es pre w) {k : Nat} {origin : Option Nat}
    {upd : CommandStore → CommandStore} {next : CommandStore → Poll}
    (hk : w.handlers[k]? = some ⟨origin, .act upd next⟩) :
    Inv tokens own es pre { w with
      handlers := w.handlers.set k ⟨origin, next w.commands⟩, commands := upd w.commands } := by
  have hmem : ⟨origin, .act upd next⟩ ∈ w.handlers := List.mem_of_getElem? hk
  obtain ⟨hstep, hyields⟩ := h.handlers _ hmem w.commands h.store
  refine h.store_step hstep.advances hstep.store (hstep.nextId.trans h.nextId) fun handler hhandler => ?_
  rcases List.mem_or_eq_of_mem_set hhandler with hold | rfl
  · exact ⟨handler, hold, rfl, .inl rfl⟩
  · refine ⟨_, hmem, rfl, .inr ⟨hyields, fun acted sentAt hmarked hfresh => ?_⟩⟩
    exact (hfresh w.commands ⟨h.store, hmarked⟩).2

theorem setPending (h : Inv tokens own es pre w) {deviceId : String} {action : DeviceCommandAction}
    {reason : Option String} {ttlSeconds : Option Nat} {now : Nat}
    (hpre : pre ++ [.setPending deviceId action reason ttlSeconds now] <+: es) :
    Inv tokens own es (pre ++ [.setPending deviceId action reason ttlSeconds now]) { w with
      commands := ((Backend.setPending deviceId action reason ttlSeconds now).prog.run w.commands).2 } := by
  rw [setPending_run]
  by_cases haction : action = .none
  · rw [if_pos haction]
    refine h.store_only (.deletePending w.commands deviceId) (h.store.deletePending deviceId) ?_
    rw [issued_snoc, setCommand?, if_pos haction, Option.toList_none, List.append_nil]
    exact h.nextId
  · rw [if_neg haction]
    let cmd : SetCommand := ⟨deviceId, action, ttlSeconds, now⟩
    have hsnoc : issued (pre ++ [.setPending deviceId action reason ttlSeconds now]) =
        issued pre ++ [cmd] := by
      rw [issued_snoc, setCommand?, if_neg haction, Option.toList_some]
    have hissued : (issued es)[w.commands.nextId]? = some cmd := by
      have hprefix : issued (pre ++ [.setPending deviceId action reason ttlSeconds now]) <+: issued es :=
        hpre.filterMap setCommand?
      obtain ⟨rest, hrest⟩ := hprefix
      rw [← hrest, hsnoc, h.nextId, List.append_assoc, List.getElem?_append_right (Nat.le_refl _),
        Nat.sub_self]
      rfl
    refine h.store_only (.create ..) (h.store.create hissued reason) ?_
    rw [hsnoc, List.length_append, List.length_singleton, ← h.nextId]
    rfl

/-- The device acts on the answer of a poll. -/
theorem respond (h : Inv tokens own es pre w) {waiting : Waiting} {result : Except PollError PollReply}
    (hwaiting : w.waiting = some waiting)
    (hmem : ⟨some waiting.request, .ret result⟩ ∈ w.handlers) :
    Inv tokens own es pre { w.advance lib { waiting.ans with httpsGet := pollStatus result } with
      waiting := none
      acted := w.acted ++ acts result waiting.sentAt } := by
  have hcurrent := h.current waiting hwaiting
  have hreturns : Returns result w.commands := h.handlers _ hmem
  obtain ⟨hfresh, hauth⟩ := hcurrent.handlers _ hmem rfl
  have hidle := h.idle
    (iterate_running (w := w.device) lib { waiting.ans with httpsGet := pollStatus result })
  have hperforms : performs lib w.device { waiting.ans with httpsGet := pollStatus result } =
      actionOf (pollStatus result) :=
    (performs_eq lib h.running).trans (commanded_of_polls hcurrent.polls _)
  have hacts : ∀ a ∈ acts result waiting.sentAt, a.sentAt = waiting.sentAt ∧
      repliedId result = some a.id ∧ actionOf (pollStatus result) = some a.action := by
    intro a ha
    unfold acts at ha
    split at ha
    next action id haction hid =>
      rw [List.mem_singleton.mp ha]
      exact ⟨rfl, hid, haction⟩
    next => cases ha
  refine ⟨hidle.running, h.nextId, h.store, h.handlers, h.known, fun _ hnone => (by cases hnone),
    fun a ha => ?_, ?_, ?_, fun a ha => ?_⟩
  · rcases List.mem_append.mp ha with ha | ha
    · exact h.acted a ha
    · exact hreturns.marked a.id (hacts a ha).2.1
  · change w.performed ++ _ = List.map _ (w.acted ++ _)
    rw [hperforms, h.obeys.performed, List.map_append]
    congr 1
    unfold acts
    cases hid : repliedId result with
    | none => rw [hreturns.idle hid]; rfl
    | some id => cases actionOf (pollStatus result) <;> rfl
  · rw [List.map_append]
    refine List.nodup_append.mpr ⟨h.obeys.once, ?_, fun id hid id' hid' => ?_⟩
    · unfold acts
      split <;> simp
    · obtain ⟨a, ha, rfl⟩ := List.mem_map.mp hid'
      obtain ⟨-, hreplied, haction⟩ := hacts a ha
      exact fun heq => (hfresh a.id a.action hreplied haction).1 (heq ▸ hid)
  · rcases List.mem_append.mp ha with ha | ha
    · exact h.obeys.commanded a ha
    · obtain ⟨hsent, hreplied, haction⟩ := hacts a ha
      refine ⟨hauth (by rw [hreplied]; simp), ?_⟩
      rw [hsent]
      exact (hfresh a.id a.action hreplied haction).2

theorem step {e : Event} (hpre : pre ++ [e] <+: es) (h : Inv tokens own es pre w)
    (hstep : w.step tokens own lib e = some w') : Inv tokens own es (pre ++ [e]) w' := by
  cases e with
  | iterate ans =>
    simp only [World.step, Option.ite_none_left_eq_some, not_or] at hstep
    obtain ⟨⟨hwaiting, hpolls⟩, hstep⟩ := hstep
    obtain rfl := Option.some.inj hstep
    have hnone : w.waiting = none := by simpa using hwaiting
    have hidle := (h.of_pre (e := .iterate ans) rfl).advance_idle lib (commanded_of_not_polls hpolls)
    have hsame : w.advance lib ans = { w.advance lib ans with waiting := none } := by
      simp [World.advance, hnone]
    exact hsame ▸ hidle
  | request ans =>
    simp only [World.step, Option.ite_none_right_eq_some] at hstep
    obtain ⟨⟨-, hpolls⟩, hstep⟩ := hstep
    obtain rfl := Option.some.inj hstep
    have h := h.of_pre (e := .request ans) rfl
    refine ⟨h.running, h.nextId, h.store, h.handlers,
      fun handler hmem r hr => (h.known handler hmem r hr).trans (Nat.lt_succ_self _), ?_, h.acted,
      ⟨h.obeys.performed, h.obeys.once, h.obeys.commanded⟩⟩
    rintro waiting ⟨⟩
    refine ⟨Nat.lt_succ_self _, Nat.le_refl _, hpolls, fun handler hmem hr => ?_⟩
    exact absurd (h.known handler hmem _ hr) (Nat.lt_irrefl _)
  | powerCut bootMillis session =>
    obtain rfl := Option.some.inj hstep
    exact (h.of_pre rfl).idle rfl
  | arrive r choice =>
    simp only [World.step, Option.ite_none_right_eq_some] at hstep
    obtain ⟨hr, hstep⟩ := hstep
    obtain rfl := Option.some.inj hstep
    refine (h.of_pre rfl).receive ?_ choice
    rintro r' ⟨⟩
    exact ⟨hr, rfl⟩
  | foreign request choice =>
    obtain rfl := Option.some.inj hstep
    exact (h.of_pre rfl).receive (by rintro r ⟨⟩) choice
  | serve k =>
    simp only [World.step] at hstep
    split at hstep
    next origin upd next hk =>
      obtain rfl := Option.some.inj hstep
      exact (h.of_pre rfl).serve hk
    next => cases hstep
  | setPending deviceId action reason ttlSeconds now =>
    simp only [World.step, Option.ite_none_right_eq_some] at hstep
    obtain ⟨-, hstep⟩ := hstep
    obtain rfl := Option.some.inj hstep
    exact h.setPending hpre
  | tick d =>
    obtain rfl := Option.some.inj hstep
    have h := h.of_pre (e := .tick d) rfl
    refine ⟨h.running, h.nextId, h.store, h.handlers, h.known, fun waiting hwaiting => ?_, h.acted,
      ⟨h.obeys.performed, h.obeys.once, h.obeys.commanded⟩⟩
    have hcurrent := h.current waiting hwaiting
    exact ⟨hcurrent.known, hcurrent.sent.trans (Nat.le_add_right _ _), hcurrent.polls, hcurrent.handlers⟩
  | respond k =>
    simp only [World.step] at hstep
    split at hstep
    next waiting r result hwaiting hk =>
      simp only [Option.ite_none_right_eq_some] at hstep
      obtain ⟨rfl, hstep⟩ := hstep
      obtain rfl := Option.some.inj hstep
      exact (h.of_pre rfl).respond hwaiting (List.mem_of_getElem? hk)
    next => cases hstep
  | noResponse code =>
    simp only [World.step] at hstep
    split at hstep
    next waiting hwaiting =>
      simp only [Option.ite_none_right_eq_some] at hstep
      obtain ⟨hcode, hstep⟩ := hstep
      obtain rfl := Option.some.inj hstep
      have hpolls := (h.current waiting hwaiting).polls
      refine (h.of_pre rfl).advance_idle lib ?_
      rw [commanded_of_polls hpolls]
      simpa using hcode
    next => cases hstep

end Inv

section Runs

variable (tokens : DeviceTokens) (own : PollRequest) (lib : ArduinoJson) (bootMillis : UInt32)
  (session : MqttSession) (now : Nat) (es : List Event) {w : World}

theorem inv_of_exec
    (hrun : Trace.exec (World.step tokens own lib) (World.init bootMillis session now) es = some w) :
    Inv tokens own es es w :=
  Trace.exec_invariant_prefix (J := Inv tokens own es)
    (fun _ _ _ _ hpre _ h hstep => h.step hpre hstep) (Inv.init bootMillis session now) hrun

/-- In every run the device carries out each command at most once, whatever is lost, late or
    repeated on the way and however the polls overlap at the server. -/
theorem device_obeys
    (hrun : Trace.exec (World.step tokens own lib) (World.init bootMillis session now) es = some w) :
    Obeys tokens own es w := (inv_of_exec tokens own lib bootMillis session now es hrun).obeys

end Runs

/-! ## What the token protects -/

/-- The document was marked before, or is marked by this request, which has its device's token. -/
def Marks (tokens : DeviceTokens) (request : PollRequest) (s s' : CommandStore) : Prop :=
  ∀ doc' ∈ s'.commands, doc'.consumedAt ≠ none →
    (∃ doc ∈ s.commands, doc.id = doc'.id ∧ doc.deviceId = doc'.deviceId ∧ doc.consumedAt ≠ none) ∨
      ¬ Marked s doc'.id ∧ Marked s' doc'.id ∧ request.Authenticated tokens ∧
        request.deviceId = doc'.deviceId

/-- What an answer tells is a command for the device of the request, which has its token. -/
def Tells (tokens : DeviceTokens) (es : List Event) (request : PollRequest)
    (result : Except PollError PollReply) (_ : CommandStore) : Prop :=
  ∀ id, repliedId result = some id →
    request.Authenticated tokens ∧ ∃ cmd, (issued es)[id]? = some cmd ∧ cmd.deviceId = request.deviceId

/-- What is left of a poll. -/
structure Serves (tokens : DeviceTokens) (es : List Event) (request : PollRequest) (p : Poll)
    (s : CommandStore) : Prop where
  refused : ¬ request.Authenticated tokens → ∃ e, p = .ret (.error (.http e))
  yields : p.Yields (StoreInv es) (Marks tokens request) (Tells tokens es request) s

section Serves

variable {tokens : DeviceTokens} {es : List Event} {request : PollRequest} {s : CommandStore}

theorem Marks.refl (s : CommandStore) : Marks tokens request s s :=
  fun doc hdoc hconsumed => .inl ⟨doc, hdoc, rfl, rfl, hconsumed⟩

theorem marks_saveConsumed {t : CommandStore} {now choice : Nat} {doc : PendingCommand}
    (ht : StoreInv es t) (hs : StoreInv es s) (hauth : request.Authenticated tokens)
    (hfound : t.findPending request.deviceId now choice = some doc) :
    Marks tokens request s (s.saveConsumed doc.id now) := by
  obtain ⟨hdoc, hpending, -⟩ := Collection.of_findGreatest hfound
  have hdevice : doc.deviceId = request.deviceId := (PendingCommand.pendingFor_iff.mp hpending).1
  intro new hnew hconsumed
  obtain ⟨old, hold, rfl⟩ := List.mem_map.mp hnew
  cases hbefore : old.consumedAt with
  | some consumedAt =>
    refine .inl ⟨old, hold, ?_, ?_, by rw [hbefore]; exact Option.some_ne_none _⟩ <;> split <;> rfl
  | none =>
    by_cases hid : old.id = doc.id
    · rw [if_pos hid]
      have hmarked : Marked (s.saveConsumed doc.id now) (old.consume now).id :=
        hid ▸ marked_saveConsumed s doc.id now
      refine .inr ⟨fun hmarked => hmarked old hold rfl hbefore, hmarked, hauth, ?_⟩
      exact hdevice.symm.trans (hs.deviceId_eq ht hdoc hold hid).symm
    · rw [if_neg hid] at hconsumed
      exact absurd hbefore hconsumed

/-- A request that reaches the server. -/
theorem serves_getPendingCommand (now choice : Nat) :
    Serves tokens es request (getPendingCommand tokens request now choice).prog s where
  refused hauth := by
    rcases getPendingCommand_prog tokens request now choice with ⟨e, hprog⟩ | ⟨hok, -⟩
    · exact ⟨e, hprog⟩
    · exact absurd hok hauth
  yields := by
    refine yields_getPendingCommand (fun t _ => .refl t) (fun e t id hid => by cases hid)
      (fun t id hid => by cases hid) fun t doc ht hfound hauth u hu => ?_
    refine ⟨marks_saveConsumed ht hu hauth hfound, fun _ id hid => ⟨hauth, ?_⟩⟩
    obtain rfl : doc.id = id := Option.some.inj hid
    obtain ⟨hdoc, hpending, -⟩ := Collection.of_findGreatest hfound
    obtain ⟨cmd, hcmd⟩ := ht.created doc hdoc
    exact ⟨cmd, hcmd.issued, hcmd.deviceId.symm.trans (PendingCommand.pendingFor_iff.mp hpending).1⟩

theorem Serves.stable {p : Poll} {s' : CommandStore} (h : Serves tokens es request p s) :
    Serves tokens es request p s' :=
  ⟨h.refused, h.yields.stable fun _ htells => htells⟩

/-- A round trip. Only a poll with the token makes one. -/
theorem Serves.act {upd : CommandStore → CommandStore} {next : CommandStore → Poll}
    (h : Serves tokens es request (.act upd next) s) (hs : StoreInv es s) :
    Marks tokens request s (upd s) ∧ Serves tokens es request (next s) (upd s) := by
  obtain ⟨hmarks, hyields⟩ := h.yields s hs
  refine ⟨hmarks, fun hauth => ?_, hyields⟩
  obtain ⟨e, he⟩ := h.refused hauth
  cases he

end Serves

/-- The handlers serve the requests that were received, in their order. -/
structure Served (tokens : DeviceTokens) (own : PollRequest) (lib : ArduinoJson) (start : World)
    (es pre : List Event) (w : World) : Prop where
  handlers : List.Forall₂ (fun request h => Serves tokens es request h.program w.commands)
    (received own pre) w.handlers
  used : ∀ doc ∈ w.commands.commands, doc.consumedAt ≠ none → UsedUp tokens own lib start es doc

namespace Served

variable {tokens : DeviceTokens} {own : PollRequest} {lib : ArduinoJson} {start w w' : World}
  {es pre : List Event} {e : Event}

theorem received_snoc (e : Event) :
    received own (pre ++ [e]) = received own pre ++ (request? own e).toList := by
  rw [received, List.filterMap_append]
  cases h : request? own e <;> simp [received, h]

/-- An event that is neither a request nor a round trip. -/
theorem of_commands (h : Served tokens own lib start es pre w) (he : request? own e = none)
    (hhandlers : w'.handlers = w.handlers)
    (hcommands : ∀ doc ∈ w'.commands.commands, doc ∈ w.commands.commands ∨ doc.consumedAt = none) :
    Served tokens own lib start es (pre ++ [e]) w' where
  handlers := by
    rw [received_snoc, he, Option.toList_none, List.append_nil, hhandlers]
    exact h.handlers.imp fun _ _ hserves => hserves.stable
  used doc hdoc hconsumed :=
    h.used doc ((hcommands doc hdoc).resolve_right hconsumed) hconsumed

theorem receive (h : Served tokens own lib start es pre w) {request : PollRequest}
    (he : request? own e = some request) (origin : Option Nat) (now choice : Nat) :
    Served tokens own lib start es (pre ++ [e])
      (w.receive ⟨origin, (getPendingCommand tokens request now choice).prog⟩) where
  handlers := by
    rw [received_snoc, he, Option.toList_some]
    exact List.rel_append h.handlers (.cons (serves_getPendingCommand now choice) .nil)
  used := h.used

theorem serve (h : Served tokens own lib start es pre w) (hstore : StoreInv es w.commands)
    {k : Nat} (hpre : pre ++ [.serve k] <+: es)
    (hrun : Trace.exec (World.step tokens own lib) start pre = some w)
    {origin : Option Nat} {upd : CommandStore → CommandStore} {next : CommandStore → Poll}
    (hk : w.handlers[k]? = some ⟨origin, .act upd next⟩) :
    Served tokens own lib start es (pre ++ [.serve k]) { w with
      handlers := w.handlers.set k ⟨origin, next w.commands⟩, commands := upd w.commands } := by
  obtain ⟨hklt, hget⟩ := List.getElem?_eq_some_iff.mp hk
  have hlen := h.handlers.length_eq
  have hklt' : k < (received own pre).length := hlen ▸ hklt
  have hserves : Serves tokens es (received own pre)[k] (.act upd next) w.commands := by
    have := h.handlers.get hklt' hklt
    simpa [hget] using this
  obtain ⟨hmarks, hnext⟩ := hserves.act hstore
  refine ⟨?_, fun doc hdoc hconsumed => ?_⟩
  · rw [received_snoc, request?, Option.toList_none, List.append_nil]
    refine List.forall₂_iff_get.mpr ⟨by simpa using hlen, fun i hi hi' => ?_⟩
    have hi'' : i < w.handlers.length := by simpa using hi'
    by_cases hik : k = i
    · subst hik
      simpa using hnext
    · have hold : Serves tokens es (received own pre)[i] w.handlers[i].program w.commands :=
        h.handlers.get hi hi''
      simpa [List.getElem_set, hik] using hold.stable
  · rcases hmarks doc hdoc hconsumed with ⟨old, hold, hid, hdevice, hbefore⟩ | ⟨hfresh, hmarked, hauth, hdevice⟩
    · obtain ⟨pre', k', w₁, w₂, request, huse⟩ := h.used old hold hbefore
      exact ⟨pre', k', w₁, w₂, request, hid ▸ hdevice ▸ huse⟩
    · have hstep : w.step tokens own lib (.serve k) = some { w with
          handlers := w.handlers.set k ⟨origin, next w.commands⟩, commands := upd w.commands } := by
        rw [World.step, hk]
      exact ⟨pre, k, w, _, _, hpre, hrun, hstep, hfresh, hmarked,
        List.getElem?_eq_getElem hklt', hauth, hdevice⟩

theorem step (h : Served tokens own lib start es pre w) (hstore : StoreInv es w.commands)
    (hpre : pre ++ [e] <+: es) (hrun : Trace.exec (World.step tokens own lib) start pre = some w)
    (hstep : w.step tokens own lib e = some w') : Served tokens own lib start es (pre ++ [e]) w' := by
  cases e with
  | iterate ans =>
    simp only [World.step, Option.ite_none_left_eq_some] at hstep
    obtain rfl := Option.some.inj hstep.2
    exact h.of_commands rfl rfl fun _ hdoc => .inl hdoc
  | request ans =>
    simp only [World.step, Option.ite_none_right_eq_some] at hstep
    obtain rfl := Option.some.inj hstep.2
    exact h.of_commands rfl rfl fun _ hdoc => .inl hdoc
  | powerCut bootMillis session =>
    obtain rfl := Option.some.inj hstep
    exact h.of_commands rfl rfl fun _ hdoc => .inl hdoc
  | arrive r choice =>
    simp only [World.step, Option.ite_none_right_eq_some] at hstep
    obtain rfl := Option.some.inj hstep.2
    exact h.receive rfl _ _ _
  | foreign request choice =>
    obtain rfl := Option.some.inj hstep
    exact h.receive rfl _ _ _
  | serve k =>
    simp only [World.step] at hstep
    split at hstep
    next origin upd next hk =>
      obtain rfl := Option.some.inj hstep
      exact h.serve hstore hpre hrun hk
    next => cases hstep
  | setPending deviceId action reason ttlSeconds now =>
    simp only [World.step, Option.ite_none_right_eq_some] at hstep
    obtain rfl := Option.some.inj hstep.2
    refine h.of_commands rfl rfl fun doc hdoc => ?_
    dsimp only at hdoc
    rw [setPending_run] at hdoc
    split at hdoc
    next => exact .inl (Collection.mem_deleteMany.mp hdoc).1
    next =>
      rcases List.mem_append.mp hdoc with hdoc | hdoc
      · exact .inl hdoc
      · rw [List.mem_singleton.mp hdoc]
        exact .inr rfl
  | tick d =>
    obtain rfl := Option.some.inj hstep
    exact h.of_commands rfl rfl fun _ hdoc => .inl hdoc
  | respond k =>
    simp only [World.step] at hstep
    split at hstep
    next =>
      simp only [Option.ite_none_right_eq_some] at hstep
      obtain rfl := Option.some.inj hstep.2
      exact h.of_commands rfl rfl fun _ hdoc => .inl hdoc
    next => cases hstep
  | noResponse code =>
    simp only [World.step] at hstep
    split at hstep
    next =>
      simp only [Option.ite_none_right_eq_some] at hstep
      obtain rfl := Option.some.inj hstep.2
      exact h.of_commands rfl rfl fun _ hdoc => .inl hdoc
    next => cases hstep

end Served

/-- Whoever sends requests to the endpoint, and however they interleave: a request without the token
    of its device ends with an error before it has seen the collection, only a request with it is
    told of a command, and only the polls of such requests have marked one. -/
theorem commands_guarded (tokens : DeviceTokens) (own : PollRequest) (lib : ArduinoJson)
    (bootMillis : UInt32) (session : MqttSession) (now : Nat) (es : List Event) {w : World}
    (hrun : Trace.exec (World.step tokens own lib) (World.init bootMillis session now) es = some w) :
    Guarded tokens own lib (World.init bootMillis session now) es w := by
  have hserved := (Trace.exec_invariant_prefix (J := fun pre w => Inv tokens own es pre w ∧
      Served tokens own lib (World.init bootMillis session now) es pre w)
    (fun pre w e w' hpre hrun h hstep =>
      ⟨h.1.step hpre hstep, h.2.step h.1.store hpre hrun hstep⟩)
    ⟨Inv.init bootMillis session now, .nil, by simp [World.init, CommandStore.init]⟩ hrun).2
  have hserves : ∀ (k : Nat) request h, (received own es)[k]? = some request →
      w.handlers[k]? = some h → Serves tokens es request h.program w.commands := by
    intro k request h hrequest hh
    obtain ⟨hk, rfl⟩ := List.getElem?_eq_some_iff.mp hrequest
    obtain ⟨hk', rfl⟩ := List.getElem?_eq_some_iff.mp hh
    exact hserved.handlers.get hk hk'
  refine ⟨hserved.handlers.length_eq.symm, fun k request h hrequest hh hauth => ?_, ?_, hserved.used⟩
  · exact (hserves k request h hrequest hh).refused hauth
  · intro k request h result id hrequest hh hprogram hid
    have htells := (hserves k request h hrequest hh).yields
    rw [hprogram] at htells
    exact htells id hid

/-! ## A run -/

def samplePoll : PollRequest :=
  ⟨some "mitspe6-gate-001", some "replace-with-strong-token", some "mitspe6-gate-001"⟩

def sampleTokens : DeviceTokens := .parsed fun deviceId =>
  if deviceId = "mitspe6-gate-001" then some (.string "replace-with-strong-token") else none

/-- The device gives the first poll up, and both polls are handed the restart. -/
def sampleEvents : List Event :=
  LoopWorld.startUp.map .iterate ++
    [.setPending "mitspe6-gate-001" .reboot none (some 600) 1000,
      .request (LoopWorld.willing 130000), .arrive 0 0, .serve 0, .noResponse (-1),
      .request (LoopWorld.willing 260000), .arrive 1 0, .serve 1, .serve 1, .serve 0, .respond 1]

theorem sampleEvents_run :
    (Trace.exec (World.step sampleTokens samplePoll (.ofDocuments [])) (World.init 0 .down 1000)
      sampleEvents).map (fun w =>
        (w.performed.length, w.acted.map (·.id), w.commands.commands.map (·.consumedAt))) =
      some (1, [0], [some 1000]) := by
  decide +kernel

theorem device_obeys_sampleEvents :
    ∃ w, w.acted.map (·.id) = [0] ∧ Obeys sampleTokens samplePoll sampleEvents w := by
  obtain ⟨w, hrun, hw⟩ := Option.map_eq_some_iff.mp sampleEvents_run
  exact ⟨w, congrArg (·.2.1) hw,
    device_obeys sampleTokens samplePoll (.ofDocuments []) 0 .down 1000 sampleEvents hrun⟩

/-- The status of a handler that has its answer. -/
def Handler.status (h : Handler) : Option Nat :=
  match h.program with
  | .ret result => some (pollStatus result)
  | .act ..     => none

/-- Somebody guesses the token before the device polls. -/
def guessingEvents : List Event :=
  LoopWorld.startUp.map .iterate ++
    [.setPending "mitspe6-gate-001" .reboot none (some 600) 1000,
      .foreign ⟨some "mitspe6-gate-001", some "guessed-token", none⟩ 0,
      .request (LoopWorld.willing 130000), .arrive 0 0, .serve 1, .serve 1, .respond 1]

theorem commands_guarded_guessingEvents :
    ∃ w, w.handlers.map Handler.status = [some 401, some 205] ∧
      w.commands.commands.map (·.consumedAt) = [some 1000] ∧
        Guarded sampleTokens samplePoll (.ofDocuments []) (World.init 0 .down 1000) guessingEvents w := by
  have hrun : (Trace.exec (World.step sampleTokens samplePoll (.ofDocuments [])) (World.init 0 .down 1000)
      guessingEvents).map (fun w =>
        (w.handlers.map Handler.status, w.commands.commands.map (·.consumedAt))) =
      some ([some 401, some 205], [some 1000]) := by
    decide +kernel
  obtain ⟨w, hw, hstatus⟩ := Option.map_eq_some_iff.mp hrun
  exact ⟨w, congrArg Prod.fst hstatus, congrArg Prod.snd hstatus,
    commands_guarded sampleTokens samplePoll (.ofDocuments []) 0 .down 1000 guessingEvents hw⟩

end ParkingGate.OutOfBand
