-- SUMMARY: One refresh racing one revoking operation: exactly which schedules leave the user without a session.
import ParkingGate.Backend.ServiceEffects

/-!
# Revocation against a concurrent refresh

A revoking operation deletes the session documents in one step. A refresh that has
looked its session up before the deletion writes it back in its second upsert, which
does not check that the session still exists. So the revocation is undone exactly if
the deletion falls between the lookup and the second upsert of an accepted refresh.
-/

namespace Backend.RevocationRace

open Collection UsersService AuthService

/-! ## Revoking operations -/

inductive Revocation where
  | resetPassword (dto : AdminService.ResetPasswordDto) (salt : String)
  | resetUserDevice
  | logout (deviceId : String)

namespace Revocation

def program (crypto : Crypto) (userId : String) : Revocation → Db Unit
  | resetPassword dto salt => do
    let _ ← AdminService.resetPassword crypto userId dto salt
  | resetUserDevice        => do
    let _ ← AdminService.resetUserDevice userId none
  | logout deviceId        => AuthService.logout userId deviceId

/-- The session documents the operation deletes. -/
def deletes (userId : String) : Revocation → Session → Bool
  | logout deviceId => deleteSessionFilter userId (some deviceId)
  | _               => (·.userId == userId)

/-- The number of steps before the deletion. -/
def stepsBefore : Revocation → Nat
  | resetPassword _ _ => 2
  | resetUserDevice   => 1
  | logout _          => 2

/-- A logout is one of the device. -/
def OfDevice (deviceId : String) : Revocation → Prop
  | logout deviceId' => deviceId' = deviceId
  | _                => True

/-- All session documents of the user are among those the operation deletes. -/
def Covers (userId : String) (op : Revocation) (s : Store) : Prop :=
  ∀ doc ∈ s.sessions, doc.userId = userId → op.deletes userId doc = true

def delete (userId : String) (op : Revocation) (s : Store) : Store :=
  { s with sessions := deleteMany (op.deletes userId) s.sessions }

/-- An action that leaves the sessions alone. -/
def Quiet (upd : Store → Store) : Prop := ∀ s, (upd s).sessions = s.sessions

/-- The user is not an administrator. -/
def Regular (userId : String) (s : Store) : Prop :=
  ∀ user, s.users.find? (·.id == userId) = some user → user.role ≠ .admin

theorem deletes_congr {userId : String} {op : Revocation} {d d' : Session} (h : d.key = d'.key) :
    op.deletes userId d = op.deletes userId d' := by
  obtain ⟨huser, hdevice⟩ := Prod.mk.inj h
  cases op <;> simp [deletes, deleteSessionFilter, huser, hdevice]

/-- The deletion is not one of the actions that leave all sessions alone. -/
theorem not_quiet_delete {userId : String} {op : Revocation} : ¬ Quiet (op.delete userId) := by
  intro h
  let doc : Session :=
    { userId
      deviceId := match op with | logout deviceId => deviceId | _ => ""
      sessionId := ""
      refreshTokenHash := ""
      lastActiveAt := 0 }
  have hdoc : op.deletes userId doc = true := by
    cases op <;> simp [deletes, deleteSessionFilter, doc]
  have hsessions := h { Store.empty with sessions := [doc] }
  simp [delete, deleteMany, hdoc] at hsessions

variable {crypto : Crypto} {userId : String}

theorem findById_quiet : (findById userId).prog.Always Quiet := ⟨fun _ => rfl, fun _ => trivial⟩

theorem findByIdAndUpdate_quiet {f : User → User} :
    (findByIdAndUpdate userId f).prog.Always Quiet := ⟨fun _ => rfl, fun _ => trivial⟩

theorem clearSession_quiet : (clearSession userId).prog.Always Quiet :=
  Fallible.always_bind findByIdAndUpdate_quiet fun _ => trivial

theorem clearActiveDevice_quiet : (clearActiveDevice userId).prog.Always Quiet :=
  Fallible.always_bind findByIdAndUpdate_quiet fun _ => trivial

theorem getAllSessions_quiet : (getAllSessions userId).prog.Always Quiet :=
  ⟨fun _ => rfl, fun _ => trivial⟩

theorem getSessionData_quiet : (getSessionData userId).prog.Always Quiet :=
  ⟨fun _ => rfl, fun _ => trivial⟩

/-- The operation leaves the sessions alone but for one deletion. -/
theorem program_once (op : Revocation) :
    (op.program crypto userId).prog.Once Quiet (· = op.delete userId) := by
  cases op with
  | resetPassword dto salt =>
    refine Fallible.once_bind_left ?_ fun _ => trivial
    unfold AdminService.resetPassword
    split
    · trivial
    refine Fallible.once_bind_right findById_quiet fun found => ?_
    split
    · trivial
    refine Fallible.once_bind_right findByIdAndUpdate_quiet fun updated => ?_
    cases updated with
    | none => trivial
    | some user =>
      refine .inr ⟨rfl, fun _ => ?_⟩
      exact Fallible.always_bind clearSession_quiet fun _ => trivial
  | resetUserDevice =>
    refine Fallible.once_bind_left ?_ fun _ => trivial
    refine Fallible.once_bind_right findById_quiet fun found => ?_
    cases found with
    | none => trivial
    | some user =>
      refine .inr ⟨rfl, fun _ => ?_⟩
      refine Fallible.always_bind clearSession_quiet fun _ => ?_
      refine Fallible.always_bind clearActiveDevice_quiet fun _ => ?_
      refine Fallible.always_bind getAllSessions_quiet fun remaining => ?_
      have hlast : (AdminService.readBack userId).prog.Always Quiet :=
        AdminService.readBack_always fun _ => rfl
      dsimp only
      split
      · refine Fallible.always_bind clearSession_quiet fun _ => ?_
        exact Fallible.always_bind clearActiveDevice_quiet fun _ => hlast
      · exact hlast
  | logout deviceId =>
    refine Fallible.once_bind_right findById_quiet fun found => ?_
    cases found with
    | none => trivial
    | some user =>
      have hdelete : Prog.Once Quiet (· = (logout deviceId).delete userId) (Fallible.prog (do
          deleteSession userId (some deviceId)
          let remainingSessions ← getAllSessions userId
          if remainingSessions.length = 0 ∨ user.role ≠ .admin then
            clearSession userId)) := by
        refine .inr ⟨rfl, fun _ => ?_⟩
        refine Fallible.always_bind getAllSessions_quiet fun remaining => ?_
        split
        · exact clearSession_quiet
        · trivial
      dsimp only
      split
      · refine Fallible.once_bind_right getSessionData_quiet fun data => ?_
        cases data with
        | none => trivial
        | some data =>
          dsimp only
          split
          · trivial
          split
          · trivial
          · exact hdelete
      · exact hdelete

theorem Regular.update {s : Store} {f : User → User} (h : Regular userId s)
    (hid : ∀ u, (f u).id = u.id) (hrole : ∀ u, (f u).role = u.role) :
    Regular userId { s with users := updateOne (·.id == userId) f s.users } := by
  intro user' hfind
  have hfind' : (s.users.find? (·.id == userId)).map f = some user' :=
    (find?_updateOne_self fun u => by rw [hid]).symm.trans hfind
  obtain ⟨user, hold, rfl⟩ := Option.map_eq_some_iff.mp hfind'
  rw [hrole]
  exact h user hold

/-- The steps before the deletion only read, or update fields that no check reads; an
    operation that stops before the deletion is refused. -/
theorem program_leads (op : Revocation) :
    (op.program crypto userId).prog.Leads (Regular userId) (fun s s' => s'.sessions = s.sessions)
      (fun r => ∃ e, r = .error e) (· = op.delete userId) op.stepsBefore := by
  cases op with
  | resetPassword dto salt =>
    by_cases hpassword : dto.newPassword = dto.confirmPassword
    case neg =>
      simp only [program, AdminService.resetPassword, hpassword, ne_eq, not_false_eq_true, if_true]
      exact ⟨_, rfl⟩
    simp only [program, AdminService.resetPassword, hpassword, ne_eq, not_true_eq_false, if_false,
      findById, UsersService.updateUser, findByIdAndUpdate, bind_assoc]
    refine Fallible.leads_bind fun s hs => ⟨hs, rfl, ?_⟩
    cases s.users.find? (·.id == userId) with
    | none => exact ⟨_, rfl⟩
    | some user =>
      simp only [Option.isNone_some, Bool.false_eq_true, if_false, bind_assoc]
      refine Fallible.leads_bind fun s hs =>
        ⟨Regular.update hs (fun _ => rfl) fun _ => rfl, rfl, ?_⟩
      dsimp only
      split
      · rfl
      · exact ⟨_, rfl⟩
  | resetUserDevice =>
    simp only [program, AdminService.resetUserDevice, findById, bind_assoc]
    refine Fallible.leads_bind fun s hs => ⟨hs, rfl, ?_⟩
    cases s.users.find? (·.id == userId) with
    | none => exact ⟨_, rfl⟩
    | some user => rfl
  | logout deviceId =>
    simp only [program, AuthService.logout, findById, getSessionData]
    refine Fallible.leads_bind fun s hs => ⟨hs, rfl, ?_⟩
    cases hfind : s.users.find? (·.id == userId) with
    | none => exact ⟨_, rfl⟩
    | some user =>
      simp only [hs user hfind, ne_eq, not_false_eq_true, if_true]
      refine Fallible.leads_bind fun s hs => ⟨hs, rfl, ?_⟩
      cases s.users.find? (·.id == userId) with
      | none => exact ⟨_, rfl⟩
      | some user =>
        dsimp only [Option.map_some]
        split
        · exact ⟨_, rfl⟩
        split
        · exact ⟨_, rfl⟩
        · rfl

end Revocation

open Revocation

/-! ## The race -/

inductive Party where
  | refreshing | revoking
  deriving DecidableEq

abbrev Party.Result : Party → Type
  | refreshing => Except HttpException RefreshResponse
  | revoking   => Except HttpException Unit

variable (crypto : Crypto) (token : String) (payload : JwtPayload) (draw : Draw) (op : Revocation)

def race : Pool Store Party.Result
  | .refreshing => (refresh crypto token draw).prog
  | .revoking   => (op.program crypto payload.sub).prog

/-- The token is unexpired, and the session lookup accepts it. -/
def Accepted (s : Store) : Prop :=
  crypto.verifyRefresh draw.now token = some payload ∧ accepts crypto token payload s = true

/-- What is left of the refresh after `n` steps, by whether the token is accepted. -/
inductive Stage (accepted : Prop) : Nat → Prog Store (Except HttpException RefreshResponse) → Prop
  | start : Stage accepted 0 (refresh crypto token draw).prog
  | refused (h : ¬ accepted) (e) : Stage accepted 1 (.ret (.error e))
  | rotate (h : accepted) : Stage accepted 1 (rotate crypto payload draw)
  | fields (h : accepted) : Stage accepted 2 (updateFields crypto payload draw)
  | again (h : accepted) : Stage accepted 3 (putAgain crypto payload draw)
  | read (h : accepted) : Stage accepted 4 (readUser crypto payload draw)
  | done (h : accepted) (r) : Stage accepted 5 (.ret r)

/-- The state of the race before the deletion, `n` steps of the operation being left. -/
structure Before (s₀ : Store) (k : Party → Nat) (n : Nat) (c : Pool Store Party.Result × Store) :
    Prop where
  stage : Stage crypto token payload draw (Accepted crypto token payload draw s₀) (k .refreshing)
    (c.1 .refreshing)
  unread : k .refreshing = 0 → c.2.sessions = s₀.sessions
  leads : (c.1 .revoking).Leads (Regular payload.sub) (fun s s' => s'.sessions = s.sessions)
    (fun r => ∃ e, r = .error e) (· = op.delete payload.sub) n
  once : (c.1 .revoking).Once Quiet (· = op.delete payload.sub)
  regular : Regular payload.sub c.2
  covers : op.Covers payload.sub s₀ → op.Covers payload.sub c.2

variable {crypto token payload draw op}

/-- The session of the token is one that the operation deletes. -/
theorem deletes_rotated (hdevice : op.OfDevice payload.deviceId) :
    op.deletes payload.sub (rotated crypto payload draw) = true := by
  cases op with
  | resetPassword | resetUserDevice => simp [deletes, rotated]
  | logout deviceId =>
    obtain rfl : deviceId = payload.deviceId := hdevice
    simp [deletes, deleteSessionFilter, rotated]

theorem covers_put {s : Store} (hdevice : op.OfDevice payload.deviceId)
    (h : op.Covers payload.sub s) :
    op.Covers payload.sub ((rotated crypto payload draw).put s) := by
  intro doc hdoc huser
  rcases Session.of_mem_put hdoc with rfl | hdoc
  · exact deletes_rotated hdevice
  · exact h doc hdoc huser

namespace Before

variable {s₀ : Store} {k : Party → Nat} {n : Nat} {c c' : Pool Store Party.Result × Store}

theorem covers_congr {s s' : Store} (h : op.Covers payload.sub s)
    (hsessions : s'.sessions = s.sessions) : op.Covers payload.sub s' :=
  fun doc hdoc => h doc (hsessions ▸ hdoc)

theorem revoking_step (h : Before crypto token payload draw op s₀ k (n + 1) c)
    (hstep : Pool.step c .revoking = some c') :
    Before crypto token payload draw op s₀ (Function.update k .revoking (k .revoking + 1)) n c' := by
  obtain ⟨upd, next, hl, rfl⟩ := Pool.step_eq_some hstep
  have hleads := h.leads
  have honce := h.once
  rw [hl] at hleads honce
  obtain ⟨hregular, hsessions, hleads⟩ := hleads c.2 h.regular
  refine ⟨?_, ?_, ?_, ?_, hregular, fun hc => covers_congr (h.covers hc) hsessions⟩
  · simpa using h.stage
  · intro hk
    exact hsessions.trans (h.unread (by simpa using hk))
  · simpa using hleads
  · rcases honce with ⟨-, hnext⟩ | ⟨-, hnext⟩
    · simpa using hnext c.2
    · simpa using Prog.Once.of_always (hnext c.2)

theorem refreshing_step
    (hpayload : ∀ p, crypto.verifyRefresh draw.now token = some p → p = payload)
    (hdevice : op.OfDevice payload.deviceId) (h : Before crypto token payload draw op s₀ k n c)
    (hstep : Pool.step c .refreshing = some c') :
    Before crypto token payload draw op s₀
      (Function.update k .refreshing (k .refreshing + 1)) n c' := by
  obtain ⟨upd, next, hl, rfl⟩ := Pool.step_eq_some hstep
  -- What the step leaves to show.
  have hbefore (hstage : Stage crypto token payload draw (Accepted crypto token payload draw s₀)
        (k .refreshing + 1) (next c.2)) (hregular : Regular payload.sub (upd c.2))
      (hcovers : op.Covers payload.sub c.2 → op.Covers payload.sub (upd c.2)) :
      Before crypto token payload draw op s₀
        (Function.update k .refreshing (k .refreshing + 1)) n
        (Function.update c.1 .refreshing (next c.2), upd c.2) :=
    ⟨by simpa using hstage, by simp, by simpa using h.leads, by simpa using h.once, hregular,
      fun hc => hcovers (h.covers hc)⟩
  have hstage := h.stage
  rw [hl] at hstage
  generalize hn : k .refreshing = m at hstage hbefore
  generalize hp : Prog.act upd next = p at hstage
  cases hstage with
  | start =>
    obtain ⟨e, he⟩ | ⟨hverify, next', hprog, haccepted, hrefused⟩ := refresh_cases hpayload
    · cases hp.trans he
    obtain ⟨rfl, rfl⟩ := Prog.act.inj (hp.trans hprog)
    refine hbefore ?_ h.regular id
    have hlookup : accepts crypto token payload c.2 = accepts crypto token payload s₀ :=
      accepts_congr (h.unread hn)
    cases hacc : accepts crypto token payload s₀ with
    | true => exact haccepted c.2 (hlookup.trans hacc) ▸ .rotate ⟨hverify, hacc⟩
    | false =>
      obtain ⟨e, he⟩ := hrefused c.2 (hlookup.trans hacc)
      exact he ▸ .refused (fun h => absurd h.2 (by simp [hacc])) e
  | refused => cases hp
  | rotate hacc =>
    obtain ⟨rfl, rfl⟩ := Prog.act.inj hp
    exact hbefore (.fields hacc) h.regular (covers_put hdevice)
  | fields hacc =>
    obtain ⟨rfl, rfl⟩ := Prog.act.inj hp
    exact hbefore (.again hacc) (h.regular.update (fun _ => rfl) fun _ => rfl) id
  | again hacc =>
    obtain ⟨rfl, rfl⟩ := Prog.act.inj hp
    exact hbefore (.read hacc) h.regular (covers_put hdevice)
  | read hacc =>
    obtain ⟨rfl, rfl⟩ := Prog.act.inj hp
    exact hbefore (.done hacc _) h.regular id
  | done => cases hp

end Before

/-- The race up to the deletion. -/
theorem before_exec (hpayload : ∀ p, crypto.verifyRefresh draw.now token = some p → p = payload)
    {s₀ : Store} (hdevice : op.OfDevice payload.deviceId) (hregular : Regular payload.sub s₀)
    {pre : List Party} {c : Pool Store Party.Result × Store}
    (hrun : Trace.exec Pool.step (race crypto token payload draw op, s₀) pre = some c)
    (hcount : pre.count .revoking ≤ op.stepsBefore) :
    Before crypto token payload draw op s₀ pre.count (op.stepsBefore - pre.count .revoking) c := by
  let J (k : Party → Nat) (c : Pool Store Party.Result × Store) : Prop :=
    k .revoking ≤ op.stepsBefore →
      Before crypto token payload draw op s₀ k (op.stepsBefore - k .revoking) c
  have hstart : J (fun _ => 0) (race crypto token payload draw op, s₀) := fun _ =>
    ⟨.start, fun _ => rfl, program_leads op, program_once op, hregular, id⟩
  have hJ : J (fun i => 0 + pre.count i) c := by
    refine Pool.exec_counted ?_ hstart hrun
    rintro k c i c' hJ hstep hk
    cases i with
    | refreshing =>
      simp only [ne_eq, reduceCtorEq, not_false_eq_true, Function.update_of_ne] at hk ⊢
      exact (hJ hk).refreshing_step hpayload hdevice hstep
    | revoking =>
      simp only [Function.update_self] at hk ⊢
      have hleft : op.stepsBefore - k .revoking = op.stepsBefore - (k .revoking + 1) + 1 := by omega
      exact (hleft ▸ hJ (by omega)).revoking_step hstep
  simpa using hJ (by simpa using hcount)

/-! ## Revoked users -/

/-- The user has no session document, so no token of the user is accepted. -/
structure Revoked (crypto : Crypto) (userId : String) (s : Store) : Prop where
  none : s.sessionsOf userId = []
  refresh : ∀ token draw payload, crypto.verifyRefresh draw.now token = some payload →
    payload.sub = userId → ∃ e, ((refresh crypto token draw).prog.run s).1 = .error e
  access : ∀ payload now, payload.sub = userId → payload.role ≠ .admin →
    ∃ e, ((JwtStrategy.validate payload now).prog.run s).1 = .error e

/-- No session document of the user is left. -/
def NoSessions (userId : String) (s : Store) : Prop := ∀ doc ∈ s.sessions, doc.userId ≠ userId

theorem NoSessions.refuses {s : Store} (h : NoSessions payload.sub s) :
    accepts crypto token payload s = false := by
  by_contra hacc
  obtain ⟨doc, hdoc, -, huser, -⟩ := of_accepts (by simpa using hacc)
  exact h doc hdoc huser

theorem refresh_fails (hpayload : ∀ p, crypto.verifyRefresh draw.now token = some p → p = payload) :
    (refresh crypto token draw).prog.Maintains (NoSessions payload.sub) fun r => ∃ e, r = .error e := by
  obtain ⟨e, he⟩ | ⟨-, next, hprog, -, hrefused⟩ := refresh_cases hpayload
  · rw [he]
    exact ⟨e, rfl⟩
  · rw [hprog]
    intro s hs
    obtain ⟨e, he⟩ := hrefused s hs.refuses
    rw [he]
    exact ⟨hs, e, rfl⟩

theorem revoked_iff_noSessions {userId : String} {s : Store} :
    Revoked crypto userId s ↔ NoSessions userId s := by
  constructor
  · intro h
    exact Store.sessionsOf_eq_nil.mp h.none
  · intro h
    refine ⟨Store.sessionsOf_eq_nil.mpr h, ?_, ?_⟩
    · rintro token draw payload hverify rfl
      exact ((refresh_fails fun p hp => Option.some.inj (hp.symm.trans hverify)).run h).1
    · rintro payload now rfl hrole
      exact JwtStrategy.validate_refuses hrole fun doc hdoc _ huser => absurd huser (h doc hdoc)

/-! ## After the deletion -/

def HasSession (userId : String) (s : Store) : Prop := ∃ doc ∈ s.sessions, doc.userId = userId

theorem not_noSessions_iff {userId : String} {s : Store} :
    ¬ NoSessions userId s ↔ HasSession userId s := by
  simp [NoSessions, HasSession]

theorem always_of_quiet {α : Type} {X : Store → Prop} {p : Prog Store α} (h : p.Always Quiet)
    (hX : ∀ s s' : Store, s'.sessions = s.sessions → X s → X s') :
    p.Always fun upd => ∀ s, X s → X (upd s) :=
  h.mono fun _ hq s => hX s _ (hq s)

theorem noSessions_congr {userId : String} (s s' : Store) (h : s'.sessions = s.sessions)
    (hs : NoSessions userId s) : NoSessions userId s' := fun doc hdoc => hs doc (h ▸ hdoc)

theorem hasSession_congr {userId : String} (s s' : Store) (h : s'.sessions = s.sessions)
    (hs : HasSession userId s) : HasSession userId s' := by
  obtain ⟨doc, hdoc, huser⟩ := hs
  exact ⟨doc, h ▸ hdoc, huser⟩

/-- A refresh that has not made its second upsert yet writes its session in the end. -/
theorem reaches_hasSession {accepted : Prop} (hacc : accepted) {n : Nat}
    {p : Prog Store (Except HttpException RefreshResponse)}
    (h : Stage crypto token payload draw accepted n p) (h1 : 1 ≤ n) (h3 : n ≤ 3) :
    p.Reaches (HasSession payload.sub) := by
  have hagain : (putAgain crypto payload draw).Reaches (HasSession payload.sub) :=
    .inl fun s => ⟨⟨_, Session.mem_put_self, rfl⟩, fun _ h => h, fun _ => trivial⟩
  cases h with
  | rotate => exact .inr fun _ => .inr fun _ => hagain
  | fields => exact .inr fun _ => hagain
  | again => exact hagain
  | refused h => exact absurd hacc h
  | start | read | done => omega

/-- A refresh that has not looked up, or has made its second upsert, writes no session
    for a user who has none. -/
theorem maintains_noSessions
    (hpayload : ∀ p, crypto.verifyRefresh draw.now token = some p → p = payload)
    {accepted : Prop} {n : Nat} {p : Prog Store (Except HttpException RefreshResponse)}
    (h : Stage crypto token payload draw accepted n p) (hn : accepted → ¬ (1 ≤ n ∧ n ≤ 3)) :
    p.Maintains (NoSessions payload.sub) fun _ => True := by
  cases h with
  | start => exact (refresh_fails hpayload).mono fun _ _ => trivial
  | refused => trivial
  | rotate h | fields h | again h => exact absurd (by decide) (hn h)
  | read => exact fun s hs => ⟨hs, trivial⟩
  | done => trivial

/-- A session document that the operation does not delete. -/
def Uncovered (userId : String) (op : Revocation) (s : Store) : Prop :=
  ∃ doc ∈ s.sessions, doc.userId = userId ∧ op.deletes userId doc = false

theorem uncovered_congr {userId : String} (s s' : Store) (h : s'.sessions = s.sessions)
    (hs : Uncovered userId op s) : Uncovered userId op s' := by
  obtain ⟨doc, hdoc, hd⟩ := hs
  exact ⟨doc, h ▸ hdoc, hd⟩

theorem uncovered_put {s : Store} (hdevice : op.OfDevice payload.deviceId)
    (h : Uncovered payload.sub op s) :
    Uncovered payload.sub op ((rotated crypto payload draw).put s) := by
  obtain ⟨doc, hdoc, huser, hd⟩ := h
  refine ⟨doc, Session.mem_put_of_key_ne hdoc fun hkey => ?_, huser, hd⟩
  rw [deletes_congr hkey, deletes_rotated hdevice] at hd
  cases hd

theorem uncovered_delete {s : Store} (h : Uncovered payload.sub op s) :
    Uncovered payload.sub op (op.delete payload.sub s) := by
  obtain ⟨doc, hdoc, hd⟩ := h
  exact ⟨doc, mem_deleteMany.mpr ⟨hdoc, hd.2⟩, hd⟩

/-- Nothing in the race removes a session that the operation does not delete. -/
theorem race_uncovered (hpayload : ∀ p, crypto.verifyRefresh draw.now token = some p → p = payload)
    (hdevice : op.OfDevice payload.deviceId) (i : Party) :
    (race crypto token payload draw op i).Always fun upd =>
      ∀ s, Uncovered payload.sub op s → Uncovered payload.sub op (upd s) := by
  cases i with
  | revoking =>
    refine (program_once op).always.mono fun upd hupd s hs => ?_
    rcases hupd with hquiet | rfl
    · exact uncovered_congr s _ (hquiet s) hs
    · exact uncovered_delete hs
  | refreshing =>
    obtain ⟨e, he⟩ | ⟨-, next, hprog, haccepted, hrefused⟩ := refresh_cases hpayload
    · simp only [race, he]
      trivial
    simp only [race, hprog]
    refine ⟨fun _ h => h, fun s => ?_⟩
    cases hacc : accepts crypto token payload s with
    | false =>
      obtain ⟨e, he⟩ := hrefused s hacc
      rw [he]
      trivial
    | true =>
      rw [haccepted s hacc]
      exact ⟨fun _ => uncovered_put hdevice, fun _ => ⟨fun _ h => h, fun _ =>
        ⟨fun _ => uncovered_put hdevice, fun _ => ⟨fun _ h => h, fun _ => trivial⟩⟩⟩⟩

/-! ## Complete runs -/

section Runs

variable {s : Store} {sched : List Party} {c : Pool Store Party.Result × Store}
  (hpayload : ∀ p, crypto.verifyRefresh draw.now token = some p → p = payload)
  (hdevice : op.OfDevice payload.deviceId) (hregular : Regular payload.sub s)
  (hrun : Trace.exec Pool.step (race crypto token payload draw op, s) sched = some c)
  (hfin : Pool.Finished c.1)

include hpayload hdevice hrun

/-- A session that the operation does not delete is still there at the end. -/
theorem hasSession_of_not_covers (h : ¬ op.Covers payload.sub s) : HasSession payload.sub c.2 := by
  obtain ⟨doc, hdoc, huser, hd⟩ : Uncovered payload.sub op s := by
    simpa [Covers, Uncovered] using h
  obtain ⟨-, doc, hdoc, huser, -⟩ := Pool.exec_maintains
    (fun i => (race_uncovered hpayload hdevice i).maintains) ⟨doc, hdoc, huser, hd⟩ hrun
  exact ⟨doc, hdoc, huser⟩

include hregular

/-- An operation that has not been refused has got to its deletion. -/
theorem exists_deletion (hcarried : c.1 .revoking = .ret (.ok ())) :
    ∃ pre post, sched = pre ++ .revoking :: post ∧ pre.count .revoking = op.stepsBefore := by
  refine Pool.exists_split_of_lt_count (Nat.lt_of_not_le fun hle => ?_)
  have hleads := (before_exec hpayload hdevice hregular hrun hle).leads
  rw [hcarried, Prog.leads_ret] at hleads
  obtain ⟨e, he⟩ := hleads
  cases he

include hfin

/-- What a complete run leaves is decided when the deletion runs. -/
theorem noSessions_iff_of_deletion (hcovers : op.Covers payload.sub s) {pre post : List Party}
    (hsched : sched = pre ++ .revoking :: post) (hcount : pre.count .revoking = op.stepsBefore) :
    NoSessions payload.sub c.2 ↔ (Accepted crypto token payload draw s →
      ¬ (1 ≤ pre.count .refreshing ∧ pre.count .refreshing ≤ 3)) := by
  subst hsched
  obtain ⟨c₁, hpre, hrun⟩ := Trace.exec_append_some hrun
  obtain ⟨c₂, hdelete, hpost⟩ := Trace.exec_cons_some hrun
  have hbefore := before_exec hpayload hdevice hregular hpre hcount.le
  obtain ⟨upd, next, hl, rfl⟩ := Pool.step_eq_some hdelete
  -- The step deletes, and what follows it in the operation is quiet.
  have hleads := hbefore.leads
  rw [hcount, Nat.sub_self, hl] at hleads
  obtain rfl : upd = op.delete payload.sub := hleads
  have hquiet : ∀ s, (next s).Always Quiet := by
    rcases hl ▸ hbefore.once with ⟨h, -⟩ | ⟨-, h⟩
    · exact absurd h not_quiet_delete
    · exact h
  have hnone : NoSessions payload.sub (op.delete payload.sub c₁.2) := by
    intro doc hdoc huser
    obtain ⟨hdoc, hd⟩ := mem_deleteMany.mp hdoc
    rw [hbefore.covers hcovers doc hdoc huser] at hd
    cases hd
  have hstage := hbefore.stage
  by_cases hpending : Accepted crypto token payload draw s ∧
      1 ≤ pre.count .refreshing ∧ pre.count .refreshing ≤ 3
  · obtain ⟨hacc, h1, h3⟩ := hpending
    refine iff_of_false (not_noSessions_iff.mpr ?_) fun h => h hacc ⟨h1, h3⟩
    refine Pool.exec_reaches (i := .refreshing) ?_ (fun j hj => ?_) hpost hfin
    · simpa using reaches_hasSession hacc hstage h1 h3
    · cases j with
      | refreshing => exact absurd rfl hj
      | revoking => simpa using always_of_quiet (hquiet c₁.2) hasSession_congr
  · have hnot : Accepted crypto token payload draw s →
        ¬ (1 ≤ pre.count .refreshing ∧ pre.count .refreshing ≤ 3) :=
      fun hacc h => hpending ⟨hacc, h⟩
    refine iff_of_true ?_ hnot
    refine (Pool.exec_maintains (Q := fun _ _ => True) (fun i => ?_) hnone hpost).2
    cases i with
    | refreshing => simpa using maintains_noSessions hpayload hstage hnot
    | revoking => simpa using (always_of_quiet (hquiet c₁.2) noSessions_congr).maintains

/-- A complete run whose operation is not refused revokes the sessions of the user exactly
    if the operation deletes all that were there at the start, and an accepted refresh has
    not looked up before the deletion without having made its second upsert before it. -/
theorem revoked_iff (hcarried : c.1 .revoking = .ret (.ok ())) :
    Revoked crypto payload.sub c.2 ↔
      op.Covers payload.sub s ∧ (Accepted crypto token payload draw s →
        ∀ pre post, sched = pre ++ .revoking :: post → pre.count .revoking = op.stepsBefore →
          ¬ (1 ≤ pre.count .refreshing ∧ pre.count .refreshing ≤ 3)) := by
  rw [revoked_iff_noSessions]
  constructor
  · intro h
    have hcovers : op.Covers payload.sub s := by
      by_contra hcovers
      exact not_noSessions_iff.mpr (hasSession_of_not_covers hpayload hdevice hrun hcovers) h
    exact ⟨hcovers, fun hacc pre post hsched hcount =>
      (noSessions_iff_of_deletion hpayload hdevice hregular hrun hfin hcovers hsched hcount).mp h
        hacc⟩
  · rintro ⟨hcovers, h⟩
    obtain ⟨pre, post, hsched, hcount⟩ := exists_deletion hpayload hdevice hregular hrun hcarried
    exact (noSessions_iff_of_deletion hpayload hdevice hregular hrun hfin hcovers hsched hcount).mpr
      fun hacc => h hacc pre post hsched hcount

end Runs

/-! ## The resident's phone -/

def phoneDraw : Draw := { now := 2, sid := "s1", salt := "salt" }

abbrev phoneRace (op : Revocation) : Pool Store Party.Result × Store :=
  (race Crypto.plain phoneToken phonePayload phoneDraw op, loggedIn)

/-- Both calls have returned, the revoking one without an error. -/
def carriedOut (c : Pool Store Party.Result × Store) : Bool :=
  (c.1 .refreshing).result?.isSome && decide ((c.1 .revoking).result? = some (.ok ()))

theorem of_carriedOut {c : Pool Store Party.Result × Store} (h : carriedOut c = true) :
    Pool.Finished c.1 ∧ c.1 .revoking = .ret (.ok ()) := by
  rw [carriedOut, Bool.and_eq_true, decide_eq_true_eq] at h
  refine ⟨Pool.finished_of_result? fun i => ?_, Prog.result?_eq_some.mp h.2⟩
  cases i with
  | refreshing => exact h.1
  | revoking => rw [h.2]; rfl

/-- A password reset between the lookup and the upserts: the session is written back. -/
theorem not_revoked_overlapping : ∃ c,
    Trace.exec Pool.step
      (phoneRace (.resetPassword { newPassword := "changed", confirmPassword := "changed" } "salt"))
      [.refreshing, .revoking, .revoking, .revoking, .revoking,
        .refreshing, .refreshing, .refreshing, .refreshing] = some c ∧
    Pool.Finished c.1 ∧ c.1 .revoking = .ret (.ok ()) ∧
    ¬ Revoked Crypto.plain phonePayload.sub c.2 := by
  have h : (Trace.exec Pool.step
      (phoneRace (.resetPassword { newPassword := "changed", confirmPassword := "changed" } "salt"))
      [.refreshing, .revoking, .revoking, .revoking, .revoking,
        .refreshing, .refreshing, .refreshing, .refreshing]).any
      (fun c => carriedOut c ∧ c.2.sessionsOf phonePayload.sub ≠ []) = true := by decide +kernel
  obtain ⟨c, hc, hend⟩ := Option.any_eq_true _ _ |>.mp h
  simp only [decide_eq_true_eq] at hend
  obtain ⟨hfin, hcarried⟩ := of_carriedOut hend.1
  exact ⟨c, hc, hfin, hcarried, fun hrevoked => hend.2 hrevoked.none⟩

theorem revoked_iff_logoutFirst : ∃ c,
    Trace.exec Pool.step (phoneRace (.logout "phone"))
      [.revoking, .revoking, .revoking, .refreshing, .revoking, .revoking] = some c ∧
    (Revoked Crypto.plain phonePayload.sub c.2 ↔
      (Revocation.logout "phone").Covers phonePayload.sub loggedIn ∧
        (Accepted Crypto.plain phoneToken phonePayload phoneDraw loggedIn →
          ∀ pre post, [.revoking, .revoking, .revoking, .refreshing, .revoking, .revoking] =
              pre ++ Party.revoking :: post →
            pre.count .revoking = (Revocation.logout "phone").stepsBefore →
            ¬ (1 ≤ pre.count .refreshing ∧ pre.count .refreshing ≤ 3))) := by
  have h : (Trace.exec Pool.step (phoneRace (.logout "phone"))
      [.revoking, .revoking, .revoking, .refreshing, .revoking, .revoking]).any carriedOut =
      true := by decide +kernel
  obtain ⟨c, hc, hend⟩ := Option.any_eq_true _ _ |>.mp h
  obtain ⟨hfin, hcarried⟩ := of_carriedOut hend
  have hpayload : Crypto.plain.verifyRefresh phoneDraw.now phoneToken = some phonePayload := by
    decide +kernel
  have hregular : (loggedIn.users.find? (·.id == phonePayload.sub)).all (·.role ≠ .admin) =
      true := by decide +kernel
  exact ⟨c, hc, revoked_iff (fun p hp => Option.some.inj (hp.symm.trans hpayload)) rfl
    (fun user hfind => by simpa using Option.all_eq_true _ _ |>.mp hregular user hfind)
    hc hfin hcarried⟩

end Backend.RevocationRace
