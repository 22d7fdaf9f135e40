-- SUMMARY: Sockets of the terminal under every interleaving of their handlers: when no SSH process outlives its socket.
import ParkingGate.Backend.SessionWrites
import ParkingGate.Backend.TerminalGateway

/-!
# Orphan shells

`handleConnection` waits for a lookup in the database before it creates the terminal, and
does not look at the socket again. If the socket is disconnected in the meantime,
`handleDisconnect` finds nothing to destroy, and the terminal that is created afterwards is
destroyed by nobody. In all other orders, unless `kill` throws, the socket of every session
is connected and its handler has finished, and every running process belongs to a session.
-/

namespace Backend.OrphanShell

open AuthService TerminalGateway

/-! ## Runs -/

/-- Where `handleConnection` stands. -/
inductive Handling where
  | awaiting (payload : JwtPayload)
  | finished
  deriving DecidableEq, Repr

/-- A socket that has connected, and whether `handleDisconnect` has run for it. -/
structure Connection where
  client : AuthenticatedSocket
  handling : Handling
  disconnected : Bool
  deriving DecidableEq, Repr

structure World where
  service : TerminalService
  connections : String → Option Connection
  now : Nat

def World.start : World := ⟨.empty, fun _ => none, 0⟩

/-- What happens next: a message or an answer arrives, or a process ends. An event says which
    calls of the process package throw. -/
inductive Event where
  | connect (id : String) (handshake : Handshake)
  | lookup (id : String) (found : Except Unit (Option User)) (spawns : Bool)
  | disconnect (id : String) (throws : Bool)
  | input (id : String) (input : Option String) (throws : Bool)
  | resize (id : String) (cols rows : Option Int) (throws : Bool)
  | exit (pty : Nat) (throws : Bool)
  | pass (ms : Nat)

section Semantics

variable (crypto : Crypto) (configured : Bool) (w : World)

def World.connection (id : String) (connection : Connection) : World :=
  { w with connections := Function.update w.connections id (some connection) }

/-- A socket connects, under an id that is new. -/
def connect (id : String) (handshake : Handshake) : Option World :=
  match w.connections id with
  | some _ => none
  | none   =>
    match verifyToken crypto configured w.now handshake with
    | .ok payload    => some (w.connection id ⟨.connected, .awaiting payload, false⟩)
    | .error message =>
      some (w.connection id ⟨AuthenticatedSocket.connected.reject message, .finished, false⟩)

def lookup (id : String) (found : Except Unit (Option User)) (spawns : Bool) : Option World :=
  match w.connections id with
  | some ⟨client, .awaiting payload, disconnected⟩ =>
    let (client, service) := finishConnection id payload found w.now spawns client w.service
    some (World.connection { w with service } id ⟨client, .finished, disconnected⟩)
  | _ => none

def disconnect (id : String) (throws : Bool) : Option World :=
  match w.connections id with
  | some ⟨client, handling, false⟩ =>
    some (World.connection { w with service := handleDisconnect id throws w.service } id
      ⟨client, handling, true⟩)
  | _ => none

/-- A message of a socket. -/
def message (id : String)
    (handler : AuthenticatedSocket → TerminalService → AuthenticatedSocket × TerminalService) :
    Option World :=
  match w.connections id with
  | some connection =>
    let (client, service) := handler connection.client w.service
    some (World.connection { w with service } id { connection with client })
  | none => none

/-- A process ends once. -/
def exit (pty : Nat) (throws : Bool) : Option World :=
  match w.service.ptys[pty]? with
  | some p =>
    if p.state = .exited then none else some { w with service := w.service.exit pty throws }
  | none => none

def step : Event → Option World
  | .connect id handshake       => connect crypto configured w id handshake
  | .lookup id found spawns     => lookup w id found spawns
  | .disconnect id throws       => disconnect w id throws
  | .input id input throws      => message w id (handleTerminalInput id input w.now throws)
  | .resize id cols rows throws => message w id (handleTerminalResize id cols rows w.now throws)
  | .exit pty throws            => exit w pty throws
  | .pass ms                    => some { w with now := w.now + ms }

/-! ## No orphan, and the steps that allow it -/

/-- After both handlers of a socket, its session is gone and its process does not run. -/
def NoOrphan : Prop :=
  ∀ id connection, w.connections id = some connection → connection.disconnected = true →
    connection.handling = .finished →
      w.service.sessions id = none ∧ ∀ p ∈ w.service.ptys, p.sessionId = id → p.state ≠ .running

/-- The condition on a step: a socket whose lookup opens a terminal is still connected, and
    `kill` does not throw when a socket with a terminal is disconnected. -/
def Orderly : Event → Prop
  | .lookup id found spawns =>
    match w.connections id with
    | some ⟨_, .awaiting payload, disconnected⟩ =>
      checkUser payload found = .ok () → spawns = true → disconnected = false
    | _ => True
  | .disconnect id throws => (w.service.sessions id).isSome = true → throws = false
  | _ => True

end Semantics

/-! ## Processes and their sessions -/

/-- Every running process is that of the session it was spawned for. -/
def Owned (t : TerminalService) : Prop :=
  ∀ (i : Nat) p, t.ptys[i]? = some p → p.state = .running →
    ∃ session, t.sessions p.sessionId = some session ∧ session.pty = i

namespace Owned

variable {t : TerminalService}

theorem empty : Owned .empty := by
  intro i p hp
  simp [TerminalService.empty] at hp

theorem of_modify {ptys : List Pty} {f : Pty → Pty} {i k : Nat} {p : Pty}
    (hp : (ptys.modify k f)[i]? = some p) :
    ∃ old, ptys[i]? = some old ∧ p = if k = i then f old else old := by
  rw [List.getElem?_modify] at hp
  obtain ⟨old, hold, rfl⟩ := Option.map_eq_some_iff.mp hp
  exact ⟨old, hold, rfl⟩

/-- No process is set running. -/
theorem modify (h : Owned t) (k : Nat) {f : Pty → Pty} (hid : ∀ p, (f p).sessionId = p.sessionId)
    (hstate : ∀ p, (f p).state = .running → p.state = .running) :
    Owned { t with ptys := t.ptys.modify k f } := by
  intro i p hp hrunning
  obtain ⟨old, hold, rfl⟩ := of_modify hp
  split at hrunning
  next hk =>
    obtain ⟨session, hsession, hpty⟩ := h i old hold (hstate old hrunning)
    exact ⟨session, by rw [if_pos hk, hid]; exact hsession, hpty⟩
  next hk =>
    obtain ⟨session, hsession, hpty⟩ := h i old hold hrunning
    exact ⟨session, by rw [if_neg hk]; exact hsession, hpty⟩

theorem opened (h : Owned t) {sessionId : String} (userId : String) (now : Nat)
    (hnone : t.sessions sessionId = none) : Owned (t.opened sessionId userId now) := by
  intro i p hp hrunning
  dsimp only [TerminalService.opened] at hp ⊢
  rw [List.getElem?_append] at hp
  split at hp
  next =>
    obtain ⟨session, hsession, hpty⟩ := h i p hp hrunning
    have hother : p.sessionId ≠ sessionId := by
      rintro rfl
      rw [hnone] at hsession
      cases hsession
    exact ⟨session, (Function.update_of_ne hother ..).trans hsession, hpty⟩
  next hlength =>
    rw [List.getElem?_singleton] at hp
    split at hp
    next hlast =>
      obtain rfl := Option.some.inj hp
      exact ⟨_, Function.update_self .., show t.ptys.length = i by omega⟩
    next => cases hp

/-- A session keeps its process when it is used. -/
theorem callPty (h : Owned t) (sessionId : String) {f : Pty → Pty} (now : Nat) (throws : Bool)
    (hid : ∀ p, (f p).sessionId = p.sessionId) (hstate : ∀ p, (f p).state = p.state) :
    Owned (t.callPty sessionId f now throws) := by
  unfold TerminalService.callPty
  split
  next session hsession =>
    split
    · exact h
    intro i p hp hrunning
    have hmodified := h.modify session.pty hid fun p hp => hstate p ▸ hp
    obtain ⟨current, hcurrent, hpty⟩ := hmodified i p hp hrunning
    by_cases hsame : p.sessionId = sessionId
    · obtain rfl : session = current :=
        Option.some.inj (hsession.symm.trans (hsame ▸ hcurrent))
      exact ⟨{ session with lastActivity := now }, by
        dsimp only; rw [hsame, Function.update_self], hpty⟩
    · exact ⟨current, (Function.update_of_ne hsame ..).trans hcurrent, hpty⟩
  next => exact h

/-- The process of the session that is removed is killed. -/
theorem destroy (h : Owned t) (sessionId : String) (throws : Bool) :
    Owned (t.destroyTerminal sessionId throws) := by
  unfold TerminalService.destroyTerminal
  split
  next session hsession =>
    split
    · exact h
    intro i p hp hrunning
    obtain ⟨old, hold, rfl⟩ := of_modify hp
    split at hrunning
    next => exact absurd hrunning (by unfold Pty.kill; split <;> simp_all)
    next hother =>
      obtain ⟨current, hcurrent, hpty⟩ := h i old hold hrunning
      have hne : old.sessionId ≠ sessionId := by
        rintro rfl
        obtain rfl := Option.some.inj (hsession.symm.trans hcurrent)
        exact hother hpty
      rw [if_neg hother]
      exact ⟨current, (Function.update_of_ne hne ..).trans hcurrent, hpty⟩
  next => exact h

theorem exit (h : Owned t) (pty : Nat) (throws : Bool) : Owned (t.exit pty throws) := by
  unfold TerminalService.exit
  split
  next =>
    have hexited := h.modify pty (f := fun p => { p with state := .exited }) (fun _ => rfl)
      fun _ hrunning => by cases hrunning
    exact hexited.destroy _ throws
  next => exact h

end Owned

/-! ## Steps -/

/-- The socket of every session is connected, and its handler has finished. -/
structure Inv (w : World) : Prop where
  owned : Owned w.service
  opened : ∀ id, (w.service.sessions id).isSome = true →
    ∃ connection, w.connections id = some connection ∧
      connection.handling = .finished ∧ connection.disconnected = false

variable {crypto : Crypto} {configured : Bool} {w w' : World} {id : String} {throws : Bool}

theorem Inv.start : Inv .start := ⟨Owned.empty, fun _ h => by cases h⟩

theorem Inv.noOrphan (h : Inv w) : NoOrphan w := by
  intro id connection hconnection hdisconnected _
  have hnone : w.service.sessions id = none := by
    by_contra hsome
    obtain ⟨other, hother, -, hopen⟩ := h.opened id (Option.isSome_iff_ne_none.mpr hsome)
    obtain rfl := Option.some.inj (hconnection.symm.trans hother)
    rw [hdisconnected] at hopen
    cases hopen
  refine ⟨hnone, fun p hp hid hrunning => ?_⟩
  obtain ⟨i, hi⟩ := List.mem_iff_getElem?.mp hp
  obtain ⟨session, hsession, -⟩ := h.owned i p hi hrunning
  rw [hid, hnone] at hsession
  cases hsession

/-! ### Messages -/

/-- A change of the service that opens and closes no session, and under which every running
    process keeps its session. -/
structure Keeps (t t' : TerminalService) : Prop where
  owned : Owned t → Owned t'
  sessions : ∀ id, (t'.sessions id).isSome = (t.sessions id).isSome

namespace Keeps

variable {t : TerminalService}

theorem rfl : Keeps t t := ⟨id, fun _ => Eq.refl _⟩

theorem callPty {f : Pty → Pty} (sessionId : String) (now : Nat) (throws : Bool)
    (hid : ∀ p, (f p).sessionId = p.sessionId) (hstate : ∀ p, (f p).state = p.state) :
    Keeps t (t.callPty sessionId f now throws) :=
  ⟨fun h => h.callPty sessionId now throws hid hstate, fun _ => TerminalService.isSome_callPty ..⟩

theorem handleTerminalInput (id : String) (input : Option String) (now : Nat) (throws : Bool)
    (client : AuthenticatedSocket) :
    Keeps t (TerminalGateway.handleTerminalInput id input now throws client t).2 := by
  unfold TerminalGateway.handleTerminalInput
  split
  · exact rfl
  · exact rfl
  · exact callPty id now throws (fun _ => Eq.refl _) fun _ => Eq.refl _

theorem handleTerminalResize (id : String) (cols rows : Option Int) (now : Nat) (throws : Bool)
    (client : AuthenticatedSocket) :
    Keeps t (TerminalGateway.handleTerminalResize id cols rows now throws client t).2 := by
  unfold TerminalGateway.handleTerminalResize
  split
  · exact rfl
  · split
    · exact rfl
    · exact callPty id now throws (fun _ => Eq.refl _) fun _ => Eq.refl _
  · exact rfl

end Keeps

/-! ### What each step keeps -/

namespace Inv

/-- A step at one socket: only the session of this socket may be opened by it, and then the
    socket is connected and its handler has finished. -/
theorem connection (h : Inv w) {service : TerminalService} {connection : Connection}
    (howned : Owned service)
    (hothers : ∀ other, other ≠ id → (service.sessions other).isSome = true →
      (w.service.sessions other).isSome = true)
    (hself : (service.sessions id).isSome = true →
      connection.handling = .finished ∧ connection.disconnected = false) :
    Inv (World.connection { w with service } id connection) := by
  refine ⟨howned, fun other hother => ?_⟩
  by_cases hid : other = id
  · subst hid
    exact ⟨connection, Function.update_self .., hself hother⟩
  · obtain ⟨current, hcurrent, hopen⟩ := h.opened other (hothers other hid hother)
    exact ⟨current, (Function.update_of_ne hid ..).trans hcurrent, hopen⟩

/-- A socket that awaits the lookup, or has not connected, has no session. -/
theorem no_session (h : Inv w)
    (hid : ∀ connection, w.connections id = some connection → connection.handling ≠ .finished) :
    w.service.sessions id = none := by
  by_contra hsome
  obtain ⟨connection, hconnection, hfinished, -⟩ :=
    h.opened id (Option.isSome_iff_ne_none.mpr hsome)
  exact hid connection hconnection hfinished

theorem no_session_awaiting (h : Inv w) {client : AuthenticatedSocket} {payload : JwtPayload}
    {disconnected : Bool} (hid : w.connections id = some ⟨client, .awaiting payload, disconnected⟩) :
    w.service.sessions id = none :=
  h.no_session fun connection hcurrent => by
    obtain rfl := Option.some.inj (hid.symm.trans hcurrent)
    exact nofun

theorem connect (h : Inv w) {handshake : Handshake}
    (hstep : connect crypto configured w id handshake = some w') : Inv w' := by
  unfold OrphanShell.connect at hstep
  split at hstep
  next => cases hstep
  next hnew =>
    have hnone : w.service.sessions id = none := h.no_session fun connection hconnection => by
      rw [hnew] at hconnection
      cases hconnection
    have hself {connection : Connection} : (w.service.sessions id).isSome = true →
        connection.handling = .finished ∧ connection.disconnected = false := by simp [hnone]
    split at hstep <;>
    · obtain rfl := Option.some.inj hstep
      exact h.connection h.owned (fun _ _ hsome => hsome) hself

theorem lookup (h : Inv w) {found : Except Unit (Option User)} {spawns : Bool}
    (horderly : Orderly w (.lookup id found spawns))
    (hstep : lookup w id found spawns = some w') : Inv w' := by
  unfold OrphanShell.lookup at hstep
  split at hstep
  next client payload disconnected hconnection =>
    have hnone := h.no_session_awaiting hconnection
    simp only [Orderly, hconnection] at horderly
    generalize hfinish : finishConnection id payload found w.now spawns client w.service = finish
      at hstep
    obtain rfl := Option.some.inj hstep
    rw [← hfinish]
    by_cases hopens : checkUser payload found = .ok () ∧ spawns = true
    · obtain ⟨hchecked, rfl⟩ := hopens
      rw [finishConnection_opens hnone hchecked]
      refine h.connection (h.owned.opened _ _ hnone) (fun other hother hsome => ?_)
        fun _ => ⟨rfl, horderly hchecked rfl⟩
      rwa [TerminalService.sessions_opened_of_ne _ _ hother] at hsome
    · rw [finishConnection_of_not hnone hopens]
      exact h.connection h.owned (fun _ _ hsome => hsome) (by simp [hnone])
  next => cases hstep

theorem disconnect (h : Inv w) (horderly : Orderly w (.disconnect id throws))
    (hstep : disconnect w id throws = some w') : Inv w' := by
  unfold OrphanShell.disconnect at hstep
  split at hstep
  next client handling hconnection =>
    obtain rfl := Option.some.inj hstep
    refine h.connection (h.owned.destroy id throws)
      (fun other _ hsome => TerminalService.isSome_of_destroyTerminal hsome) fun hsome => ?_
    -- Had the session stayed, `kill` would have thrown.
    obtain rfl := horderly (TerminalService.isSome_of_destroyTerminal hsome)
    rw [handleDisconnect, TerminalService.sessions_destroyTerminal_self] at hsome
    cases hsome
  next => cases hstep

theorem message (h : Inv w)
    {handler : AuthenticatedSocket → TerminalService → AuthenticatedSocket × TerminalService}
    (hkeeps : ∀ client t, Keeps t (handler client t).2)
    (hstep : message w id handler = some w') : Inv w' := by
  unfold OrphanShell.message at hstep
  split at hstep
  next connection hconnection =>
    obtain rfl := Option.some.inj hstep
    have hk := hkeeps connection.client w.service
    refine h.connection (hk.owned h.owned) (fun other _ hsome => (hk.sessions other).symm.trans hsome)
      fun hsome => ?_
    obtain ⟨current, hcurrent, hopen⟩ := h.opened id ((hk.sessions id).symm.trans hsome)
    obtain rfl := Option.some.inj (hconnection.symm.trans hcurrent)
    exact hopen
  next => cases hstep

theorem exit (h : Inv w) {pty : Nat} (hstep : exit w pty throws = some w') : Inv w' := by
  unfold OrphanShell.exit at hstep
  split at hstep
  next =>
    split at hstep
    next => cases hstep
    next =>
      obtain rfl := Option.some.inj hstep
      exact ⟨h.owned.exit pty throws, fun other hsome =>
        h.opened other (TerminalService.isSome_of_exit hsome)⟩
  next => cases hstep

theorem step (h : Inv w) {event : Event} (horderly : Orderly w event)
    (hstep : step crypto configured w event = some w') : Inv w' := by
  cases event with
  | connect id handshake => exact h.connect hstep
  | lookup id found spawns => exact h.lookup horderly hstep
  | disconnect id throws => exact h.disconnect horderly hstep
  | input id input throws =>
    exact h.message (fun client _ => Keeps.handleTerminalInput id input w.now throws client) hstep
  | resize id cols rows throws =>
    exact h.message (fun client _ => Keeps.handleTerminalResize id cols rows w.now throws client) hstep
  | exit pty throws => exact h.exit hstep
  | pass ms =>
    obtain rfl := Option.some.inj hstep
    exact ⟨h.owned, h.opened⟩

end Inv

/-! ## The defect -/

/-- A lookup that finishes for a socket that is gone leaves a session behind. -/
theorem not_noOrphan_of_lookup (h : Inv w) {found : Except Unit (Option User)} {spawns : Bool}
    (hnot : ¬ Orderly w (.lookup id found spawns))
    (hstep : lookup w id found spawns = some w') : ¬ NoOrphan w' := by
  unfold lookup at hstep
  split at hstep
  next client payload disconnected hconnection =>
    have hnone := h.no_session_awaiting hconnection
    simp only [Orderly, hconnection] at hnot
    push Not at hnot
    obtain ⟨hchecked, rfl, hdisconnected⟩ := hnot
    generalize hfinish : finishConnection id payload found w.now true client w.service = finish
      at hstep
    obtain rfl := Option.some.inj hstep
    intro hno
    obtain ⟨hgone, -⟩ := hno id _ (Function.update_self ..)
      (Bool.eq_true_of_not_eq_false hdisconnected) rfl
    have hopened : (finish.2.sessions id).isSome = true := by
      rw [← hfinish, finishConnection_opens hnone hchecked]
      exact TerminalService.sessions_opened_self
    change finish.2.sessions id = none at hgone
    rw [hgone] at hopened
    cases hopened
  next => cases hstep

/-- If `kill` throws at the disconnection, the session stays. -/
theorem not_noOrphan_of_disconnect (h : Inv w) (hnot : ¬ Orderly w (.disconnect id throws))
    (hstep : disconnect w id throws = some w') : ¬ NoOrphan w' := by
  simp only [Orderly] at hnot
  push Not at hnot
  obtain ⟨hsome, hthrows⟩ := hnot
  obtain rfl := Bool.eq_true_of_not_eq_false hthrows
  unfold disconnect at hstep
  split at hstep
  next client handling hconnection =>
    obtain rfl := Option.some.inj hstep
    intro hno
    obtain ⟨current, hcurrent, hfinished, -⟩ := h.opened id hsome
    obtain rfl := Option.some.inj (hconnection.symm.trans hcurrent)
    obtain ⟨hgone, -⟩ := hno id _ (Function.update_self ..) rfl hfinished
    change (handleDisconnect id true w.service).sessions id = none at hgone
    rw [handleDisconnect, TerminalService.destroyTerminal_throws] at hgone
    rw [hgone] at hsome
    cases hsome
  next => cases hstep

theorem not_noOrphan (h : Inv w) {event : Event} (hnot : ¬ Orderly w event)
    (hstep : step crypto configured w event = some w') : ¬ NoOrphan w' := by
  cases event with
  | lookup id found spawns => exact not_noOrphan_of_lookup h hnot hstep
  | disconnect id throws => exact not_noOrphan_of_disconnect h hnot hstep
  | connect id handshake => exact absurd trivial hnot
  | input id input throws => exact absurd trivial hnot
  | resize id cols rows throws => exact absurd trivial hnot
  | exit pty throws => exact absurd trivial hnot
  | pass ms => exact absurd trivial hnot

/-- No shell outlives its socket, whatever the order of the events is, exactly if every step
    is orderly. -/
theorem shells_end (crypto : Crypto) (configured : Bool) (events : List Event) :
    Trace.AllStates (step crypto configured) NoOrphan .start events ↔
      Trace.AllSteps (step crypto configured) Orderly .start events :=
  Trace.allStates_iff_allSteps (fun _ h => h.noOrphan) (fun _ _ _ h => h.step)
    (fun _ _ _ h => not_noOrphan h) .start

def adminPayload : JwtPayload := { phonePayload with role := .admin }

def adminHandshake : Handshake := ⟨.text (Crypto.plain.signAccess 0 adminPayload), .missing, none⟩

/-- The socket is disconnected during the lookup; the shell it opens afterwards stays. -/
theorem shell_outlives_socket :
    ¬ Trace.AllStates (step Crypto.plain true) NoOrphan .start
      [.connect "socket" adminHandshake, .disconnect "socket" false,
        .lookup "socket" (.ok (some { resident with role := .admin })) true] := by
  intro hall
  have h : (Trace.exec (step Crypto.plain true) .start
      [.connect "socket" adminHandshake, .disconnect "socket" false,
        .lookup "socket" (.ok (some { resident with role := .admin })) true]).any (fun w =>
          w.connections "socket" =
            some ⟨⟨some "u1", some .admin, [], false⟩, .finished, true⟩ ∧
          (∃ p ∈ w.service.ptys, p.sessionId = "socket" ∧ p.state = .running)) = true := by
    decide +kernel
  obtain ⟨w, hw, hend⟩ := Option.any_eq_true _ _ |>.mp h
  simp only [decide_eq_true_eq] at hend
  obtain ⟨hconnection, p, hp, hid, hrunning⟩ := hend
  exact (hall.last hw "socket" _ hconnection rfl rfl).2 p hp hid hrunning

end Backend.OrphanShell
