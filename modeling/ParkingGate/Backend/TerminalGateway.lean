-- SUMMARY: TerminalService and TerminalGateway: the SSH processes of administrators, opened and closed with their sockets.
import Mathlib.Logic.Function.Basic
import ParkingGate.Backend.AuthService

namespace Backend

/-! ## TerminalService -/

structure TerminalSession where
  pty : Nat
  userId : String
  createdAt : Nat
  lastActivity : Nat
  deriving DecidableEq, Repr

inductive ProcessState where
  | running | killed | exited
  deriving DecidableEq, Repr

/-- An SSH process: the session it was spawned for, its window, and what was written to it. -/
structure Pty where
  sessionId : String
  state : ProcessState
  cols : Int
  rows : Int
  written : List String
  deriving DecidableEq, Repr

def Pty.spawn (sessionId : String) : Pty := ⟨sessionId, .running, 80, 24, []⟩

def Pty.kill (pty : Pty) : Pty := if pty.state = .running then { pty with state := .killed } else pty

def Pty.write (data : String) (pty : Pty) : Pty := { pty with written := pty.written ++ [data] }

def Pty.resize (cols rows : Int) (pty : Pty) : Pty := { pty with cols, rows }

/-- The `Map` of the sessions, and the processes that were spawned. A session refers to its
    process by the number of it. -/
structure TerminalService where
  sessions : String → Option TerminalSession
  ptys : List Pty

namespace TerminalService

def empty : TerminalService := ⟨fun _ => none, []⟩

variable (t : TerminalService)

/-- `spawn` returns a process or throws, and the exception is thrown again. -/
def createTerminal (sessionId userId : String) (now : Nat) (spawns : Bool) :
    Except Unit TerminalService :=
  if (t.sessions sessionId).isSome then .ok t
  else if spawns then
    .ok {
      sessions := Function.update t.sessions sessionId (some ⟨t.ptys.length, userId, now, now⟩)
      ptys := t.ptys ++ [.spawn sessionId] }
  else .error ()

/-- A call on the process of a session, with the time of it; an exception is logged. -/
def callPty (sessionId : String) (f : Pty → Pty) (now : Nat) (throws : Bool) : TerminalService :=
  match t.sessions sessionId with
  | some session =>
    if throws then t
    else {
      sessions := Function.update t.sessions sessionId (some { session with lastActivity := now })
      ptys := t.ptys.modify session.pty f }
  | none => t

def writeToTerminal (sessionId data : String) (now : Nat) (throws : Bool) : TerminalService :=
  t.callPty sessionId (Pty.write data) now throws

def resizeTerminal (sessionId : String) (cols rows : Int) (now : Nat) (throws : Bool) :
    TerminalService :=
  t.callPty sessionId (Pty.resize cols rows) now throws

/-- If `kill` throws, the session stays in the map. -/
def destroyTerminal (sessionId : String) (throws : Bool) : TerminalService :=
  match t.sessions sessionId with
  | some session =>
    if throws then t
    else {
      sessions := Function.update t.sessions sessionId none
      ptys := t.ptys.modify session.pty Pty.kill }
  | none => t

/-- The process ends, and the handler of `onExit` destroys the terminal. -/
def exit (pty : Nat) (throws : Bool) : TerminalService :=
  match t.ptys[pty]? with
  | some p =>
    destroyTerminal { t with ptys := t.ptys.modify pty fun p => { p with state := .exited } }
      p.sessionId throws
  | none => t

/-- The service with a new process, and a session for it. -/
def opened (sessionId userId : String) (now : Nat) : TerminalService where
  sessions := Function.update t.sessions sessionId (some ⟨t.ptys.length, userId, now, now⟩)
  ptys := t.ptys ++ [.spawn sessionId]

variable {t}

theorem sessions_opened_self {sessionId userId : String} {now : Nat} :
    ((t.opened sessionId userId now).sessions sessionId).isSome = true := by
  simp [opened]

theorem sessions_opened_of_ne {sessionId id : String} (userId : String) (now : Nat)
    (h : id ≠ sessionId) : (t.opened sessionId userId now).sessions id = t.sessions id :=
  Function.update_of_ne h ..

theorem createTerminal_of_none {sessionId userId : String} {now : Nat}
    (h : t.sessions sessionId = none) :
    t.createTerminal sessionId userId now true = .ok (t.opened sessionId userId now) := by
  simp [createTerminal, opened, h]

theorem createTerminal_of_not_spawns {sessionId userId : String} {now : Nat}
    (h : t.sessions sessionId = none) :
    t.createTerminal sessionId userId now false = .error () := by
  simp [createTerminal, h]

/-- A call opens and closes no session. -/
@[simp] theorem isSome_callPty (sessionId id : String) (f : Pty → Pty) (now : Nat)
    (throws : Bool) :
    ((t.callPty sessionId f now throws).sessions id).isSome = (t.sessions id).isSome := by
  unfold callPty
  split
  next session hsession =>
    split
    · rfl
    · dsimp only
      by_cases hid : id = sessionId
      · rw [hid, Function.update_self, hsession]
        rfl
      · rw [Function.update_of_ne hid]
  next => rfl

@[simp] theorem destroyTerminal_throws (sessionId : String) :
    t.destroyTerminal sessionId true = t := by
  unfold destroyTerminal
  split <;> rfl

theorem sessions_destroyTerminal_self {sessionId : String} :
    (t.destroyTerminal sessionId false).sessions sessionId = none := by
  unfold destroyTerminal
  split
  next => exact Function.update_self ..
  next h => exact h

theorem sessions_destroyTerminal_of_ne {sessionId id : String} (throws : Bool)
    (h : id ≠ sessionId) :
    (t.destroyTerminal sessionId throws).sessions id = t.sessions id := by
  unfold destroyTerminal
  split
  next =>
    split
    · rfl
    · exact Function.update_of_ne h ..
  next => rfl

theorem isSome_of_destroyTerminal {sessionId id : String} {throws : Bool}
    (h : ((t.destroyTerminal sessionId throws).sessions id).isSome = true) :
    (t.sessions id).isSome = true := by
  by_cases hid : id = sessionId
  · subst hid
    cases throws with
    | true => rwa [destroyTerminal_throws] at h
    | false =>
      rw [sessions_destroyTerminal_self] at h
      cases h
  · rwa [sessions_destroyTerminal_of_ne throws hid] at h

theorem isSome_of_exit {pty : Nat} {id : String} {throws : Bool}
    (h : ((t.exit pty throws).sessions id).isSome = true) : (t.sessions id).isSome = true := by
  unfold exit at h
  split at h
  next =>
    have hsome := isSome_of_destroyTerminal h
    exact hsome
  next => exact h

end TerminalService

/-! ## TerminalGateway -/

/-- A value of the handshake: a text, or something else that counts as true. -/
inductive Given where
  | missing
  | text (s : String)
  | other
  deriving DecidableEq, Repr

def Given.truthy : Given → Bool
  | .missing => false
  | .text s  => s ≠ ""
  | .other   => true

/-- `s.replace(pattern, '')` -/
def removeFirst (pattern : List Char) : List Char → List Char
  | []      => []
  | c :: cs =>
    if pattern.isPrefixOf (c :: cs) then (c :: cs).drop pattern.length
    else c :: removeFirst pattern cs

structure Handshake where
  auth : Given
  query : Given
  authorization : Option String
  deriving DecidableEq, Repr

def Handshake.token (handshake : Handshake) : Option String :=
  let token :=
    if handshake.auth.truthy then handshake.auth
    else if handshake.query.truthy then handshake.query
    else
      match handshake.authorization with
      | some header => .text (String.ofList (removeFirst "Bearer ".toList header.toList))
      | none        => .missing
  match token with
  | .text s => if s = "" then none else some s
  | _       => none

/-- What the gateway keeps on a socket: the authenticated user, the errors emitted to the
    client, and whether the server has asked for the disconnection. -/
structure AuthenticatedSocket where
  userId : Option String
  userRole : Option UserRole
  errors : List String
  disconnecting : Bool
  deriving DecidableEq, Repr

namespace AuthenticatedSocket

def connected : AuthenticatedSocket := ⟨none, none, [], false⟩

def emitError (client : AuthenticatedSocket) (message : String) : AuthenticatedSocket :=
  { client with errors := client.errors ++ [message] }

def reject (client : AuthenticatedSocket) (message : String) : AuthenticatedSocket :=
  { client.emitError message with disconnecting := true }

end AuthenticatedSocket

namespace TerminalGateway

/-- The token check of `handleConnection`, up to the lookup of the user. Without a configured
    secret no token is valid. -/
def verifyToken (crypto : Crypto) (configured : Bool) (now : Nat) (handshake : Handshake) :
    Except String JwtPayload :=
  match handshake.token with
  | none       => .error "Authentication required"
  | some token =>
    match if configured then crypto.verifyAccess now token else none with
    | some payload => .ok payload
    | none         => .error "Invalid token"

/-- The check of the user that the lookup returns; a lookup that fails ends in the handler of
    exceptions. -/
def checkUser (payload : JwtPayload) : Except Unit (Option User) → Except String Unit
  | .error _          => .error "Connection error"
  | .ok none        => .error "User not found"
  | .ok (some user) =>
    if payload.role ≠ .admin ∨ user.role ≠ .admin then .error "Admin access required" else .ok ()

/-- `handleConnection` from the lookup on. -/
def finishConnection (id : String) (payload : JwtPayload) (found : Except Unit (Option User))
    (now : Nat) (spawns : Bool) (client : AuthenticatedSocket) (t : TerminalService) :
    AuthenticatedSocket × TerminalService :=
  match checkUser payload found with
  | .error message => (client.reject message, t)
  | .ok ()         =>
    let client := { client with userId := some payload.sub, userRole := some payload.role }
    match t.createTerminal id payload.sub now spawns with
    | .ok t'   => (client, t')
    | .error _ => (client.reject "Connection error", t)

section Finish

variable {id : String} {payload : JwtPayload} {found : Except Unit (Option User)} {now : Nat}
  {client : AuthenticatedSocket} {t : TerminalService}

theorem finishConnection_opens (hnone : t.sessions id = none)
    (hchecked : checkUser payload found = .ok ()) :
    (finishConnection id payload found now true client t).2 = t.opened id payload.sub now := by
  simp only [finishConnection, hchecked, TerminalService.createTerminal_of_none hnone]

theorem finishConnection_of_not {spawns : Bool} (hnone : t.sessions id = none)
    (hnot : ¬ (checkUser payload found = .ok () ∧ spawns = true)) :
    (finishConnection id payload found now spawns client t).2 = t := by
  unfold finishConnection
  split
  next => rfl
  next hchecked =>
    obtain rfl : spawns = false := Bool.eq_false_of_not_eq_true fun h => hnot ⟨hchecked, h⟩
    simp only [TerminalService.createTerminal_of_not_spawns hnone]

end Finish

def handleDisconnect (id : String) (throws : Bool) (t : TerminalService) : TerminalService :=
  t.destroyTerminal id throws

/-- The check that both messages make first. -/
def checkSocket (client : AuthenticatedSocket) : Except String Unit :=
  if !truthy client.userId ∨ client.userRole.isNone then .error "Not authenticated"
  else if client.userRole ≠ some .admin then .error "Admin access required"
  else .ok ()

/-- An input that is not a text is `none`. -/
def handleTerminalInput (id : String) (input : Option String) (now : Nat) (throws : Bool)
    (client : AuthenticatedSocket) (t : TerminalService) : AuthenticatedSocket × TerminalService :=
  match checkSocket client, input with
  | .error message, _  => (client.emitError message, t)
  | .ok (), none       => (client.emitError "Invalid input format", t)
  | .ok (), some input => (client, t.writeToTerminal id input now throws)

/-- A dimension that is no integer is `none`. -/
def handleTerminalResize (id : String) (cols rows : Option Int) (now : Nat) (throws : Bool)
    (client : AuthenticatedSocket) (t : TerminalService) : AuthenticatedSocket × TerminalService :=
  match checkSocket client, cols, rows with
  | .error message, _, _        => (client.emitError message, t)
  | .ok (), some cols, some rows =>
    if cols < 1 ∨ rows < 1 then (client.emitError "Invalid resize dimensions", t)
    else (client, t.resizeTerminal id cols rows now throws)
  | .ok (), _, _                => (client.emitError "Invalid resize dimensions", t)

end TerminalGateway

end Backend
