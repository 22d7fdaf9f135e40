-- SUMMARY: Concurrent logins of one regular user: exactly which schedules leave the user with at most one session document.
import ParkingGate.Backend.SessionWrites

/-!
# Concurrent logins

A login of a regular user clears all sessions in one step and writes its own in two
later ones. What is left at the end is decided at the last clearing: the sessions
written before are gone, the calls that have cleared but not yet finished writing
each still write a session for their device. So one session is left exactly if all
of these have the device of the call that clears last.
-/

namespace Backend.LoginRace

open Collection AuthService

abbrev Calls (ι : Type) := Pool Store fun _ : ι => Except HttpException AuthUserResponse

variable {ι : Type} (crypto : Crypto) (dto : ι → LoginDto) (draw : ι → Draw)

def calls : Calls ι := fun i => (login crypto (dto i) (draw i)).prog

/-! ## Where a call stands after each number of steps -/

/-- What is left of call `i` after `n` steps. -/
inductive Stage (userId : String) (i : ι) :
    Nat → Prog Store (Except HttpException AuthUserResponse) → Prop
  | start : Stage userId i 0 (calls crypto dto draw i)
  | refused (e) : Stage userId i 1 (.ret (.error e))
  | clear (user) (h : user.id = userId) :
      Stage userId i 1 (clearAndOpen crypto (dto i) (draw i) user)
  | create (user) (h : user.id = userId) :
      Stage userId i 2 (openSession crypto (dto i) (draw i) user)
  | fields (user) (h : user.id = userId) :
      Stage userId i 3 (openFields crypto (dto i) (draw i) user)
  | again (user) (h : user.id = userId) :
      Stage userId i 4 (openAgain crypto (dto i) (draw i) user)
  | done (r) : Stage userId i 5 (.ret r)

variable {crypto dto draw}

/-- A call that has cleared the sessions and has returned has made all five steps. -/
theorem Stage.of_ret {userId : String} {i : ι} {n : Nat}
    {r : Except HttpException AuthUserResponse} (h : Stage crypto dto draw userId i n (.ret r))
    (hn : 2 ≤ n) : n = 5 := by
  generalize hp : Prog.ret r = p at h
  cases h with
  | done => rfl
  | create | fields | again => cases hp
  | start | refused | clear => omega

/-- The address of the call belongs to an approved regular user, and the password is right. -/
def Resident (crypto : Crypto) (dto : LoginDto) (userId : String) (s : Store) : Prop :=
  ∃ user, s.users.find? (·.email == dto.email) = some user ∧ user.id = userId ∧
    user.role = .user ∧ user.status = .approved ∧
    crypto.compare dto.password user.passwordHash = true

theorem Resident.setFields {d : LoginDto} {userId : String} {s : Store} {doc : Session}
    (h : Resident crypto d userId s) : Resident crypto d userId (doc.setFields s) := by
  obtain ⟨user, hfind, hid, hrole, hstatus, hpassword⟩ := h
  obtain ⟨user', hfind', rfl | rfl⟩ :=
    doc.find?_setFields (q := (·.email == d.email)) (fun _ => rfl) hfind
  · exact ⟨user', hfind', hid, hrole, hstatus, hpassword⟩
  · exact ⟨_, hfind', hid, hrole, hstatus, hpassword⟩

/-- What a step of a call at stage `n` does to the sessions. -/
inductive Effect (userId deviceId : String) (n : Nat) (s s' : Store) : Prop
  | none (hn : n = 0 ∨ n = 3) (h : s'.sessions = s.sessions)
  | clear (hn : n = 1) (h : s' = s.clearSessions userId)
  | put (hn : n = 2 ∨ n = 4) (doc : Session) (huser : doc.userId = userId)
      (hdevice : doc.deviceId = deviceId) (h : s' = doc.put s)

variable (crypto dto draw) in
/-- The state of a run: every call is at the stage its number of steps says. -/
structure Running (userId : String) (k : ι → Nat) (c : Calls ι × Store) : Prop where
  stage : ∀ i, Stage crypto dto draw userId i (k i) (c.1 i)
  resident : ∀ i, Resident crypto (dto i) userId c.2
  keyed : Keyed Session.key c.2.sessions

namespace Running

variable [DecidableEq ι] {userId : String} {k : ι → Nat} {c c' : Calls ι × Store} {i : ι}

theorem step (h : Running crypto dto draw userId k c) (hstep : Pool.step c i = some c') :
    Running crypto dto draw userId (Function.update k i (k i + 1)) c' ∧
      Effect userId (dto i).deviceId (k i) c.2 c'.2 := by
  obtain ⟨upd, next, hi, rfl⟩ := Pool.step_eq_some hstep
  have hstage := h.stage i
  rw [hi] at hstage
  -- The stages of all calls from the one of call `i`.
  have hstages {p} (hp : Stage crypto dto draw userId i (k i + 1) p) :
      ∀ j, Stage crypto dto draw userId j (Function.update k i (k i + 1) j)
        (Function.update c.1 i p j) := by
    intro j
    by_cases hj : j = i
    · subst hj
      simpa using hp
    · simpa [Function.update_of_ne hj] using h.stage j
  generalize hn : k i = n at hstage hstages ⊢
  generalize hp : Prog.act upd next = p at hstage
  cases hstage with
  | start =>
    obtain ⟨next', hprog, hlookup⟩ := login_prog crypto (dto i) (draw i)
    obtain ⟨rfl, rfl⟩ := Prog.act.inj (hp.trans hprog)
    obtain ⟨user, hfind, hid, hrole, hstatus, hpassword⟩ := h.resident i
    refine ⟨⟨hstages ?_, h.resident, h.keyed⟩, .none (.inl rfl) rfl⟩
    rcases hlookup c.2 user hfind hpassword hstatus hrole with hnext | ⟨e, hnext⟩
    · exact hnext ▸ .clear user hid
    · exact hnext ▸ .refused e
  | refused => cases hp
  | clear user hid =>
    obtain ⟨rfl, rfl⟩ := Prog.act.inj hp
    refine ⟨⟨hstages (.create user hid), h.resident, h.keyed.deleteMany⟩, ?_⟩
    exact .clear rfl (hid ▸ rfl)
  | create user hid =>
    obtain ⟨rfl, rfl⟩ := Prog.act.inj hp
    exact ⟨⟨hstages (.fields user hid), h.resident, Session.keyed_put h.keyed⟩,
      .put (.inl rfl) (opened crypto (dto i) (draw i) user) hid rfl rfl⟩
  | fields user hid =>
    obtain ⟨rfl, rfl⟩ := Prog.act.inj hp
    exact ⟨⟨hstages (.again user hid), fun j => (h.resident j).setFields, h.keyed⟩,
      .none (.inr rfl) rfl⟩
  | again user hid =>
    obtain ⟨rfl, rfl⟩ := Prog.act.inj hp
    exact ⟨⟨hstages (.done _), h.resident, Session.keyed_put h.keyed⟩,
      .put (.inr rfl) (opened crypto (dto i) (draw i) user) hid rfl rfl⟩
  | done => cases hp

theorem exec (h : Running crypto dto draw userId k c) {sched : List ι}
    (hrun : Trace.exec Pool.step c sched = some c') :
    Running crypto dto draw userId (fun i => k i + sched.count i) c' :=
  Pool.exec_counted (fun _ _ _ _ hk hstep => (hk.step hstep).1) h hrun

/-- A call that makes its second step clears the sessions there. -/
theorem clears (h : Running crypto dto draw userId k c) (hk : k i = 1)
    (hstep : Pool.step c i = some c') : c'.2 = c.2.clearSessions userId := by
  cases (h.step hstep).2 with
  | clear _ hc => exact hc
  | none hn => omega
  | put hn => omega

end Running

/-! ## After the last clearing -/

section Tail

variable [DecidableEq ι] {userId : String} {k₀ total : ι → Nat}

/-- A call still has its session to write. -/
def Pending (k₀ : ι → Nat) (i : ι) : Prop := 2 ≤ k₀ i ∧ k₀ i < 5

variable (dto) in
/-- The sessions of the user after a point from which on no call clears: only the calls
    pending there write, and those that have finished have left a session. -/
structure Written (userId : String) (k₀ k : ι → Nat) (s : Store) : Prop where
  only : ∀ doc ∈ s.sessions, doc.userId = userId →
    ∃ i, Pending k₀ i ∧ (dto i).deviceId = doc.deviceId
  finished : ∀ i, Pending k₀ i → 5 ≤ k i →
    ∃ doc ∈ s.sessions, doc.userId = userId ∧ doc.deviceId = (dto i).deviceId

theorem Written.step {k : ι → Nat} {i : ι} {s s' : Store} (h : Written dto userId k₀ k s)
    (hmono : ∀ j, k₀ j ≤ k j) (hclear : 2 ≤ k i + 1 → 2 ≤ k₀ i)
    (heffect : Effect userId (dto i).deviceId (k i) s s') :
    Written dto userId k₀ (Function.update k i (k i + 1)) s' := by
  have hmono_i := hmono i
  have hfinished : ∀ j, 5 ≤ Function.update k i (k i + 1) j → j = i ∧ k i = 4 ∨ 5 ≤ k j := by
    intro j hj
    by_cases hji : j = i
    · subst hji
      simp only [Function.update_self] at hj
      exact (Nat.lt_or_ge (k j) 5).imp_left fun hlt => ⟨rfl, by omega⟩
    · simp only [Function.update_of_ne hji] at hj
      exact .inr hj
  cases heffect with
  | none hn hsessions =>
    refine ⟨fun doc hdoc => h.only doc (hsessions ▸ hdoc), fun j hj hk => ?_⟩
    rw [hsessions]
    rcases hfinished j hk with ⟨rfl, h4⟩ | hk
    · omega
    · exact h.finished j hj hk
  | clear hn => omega
  | put hn doc huser hdevice hput =>
    subst hput
    have hpending : Pending k₀ i := ⟨hclear (by omega), by omega⟩
    refine ⟨fun d hd hduser => ?_, fun j hj hk => ?_⟩
    · rcases Session.of_mem_put hd with rfl | hd
      · exact ⟨i, hpending, hdevice.symm⟩
      · exact h.only d hd hduser
    · rcases hfinished j hk with ⟨rfl, -⟩ | hk
      · exact ⟨doc, Session.mem_put_self, huser, hdevice⟩
      · obtain ⟨d, hd, hduser, hddevice⟩ := h.finished j hj hk
        by_cases hkey : d.key = doc.key
        · obtain ⟨-, hdev⟩ := Prod.mk.inj hkey
          exact ⟨doc, Session.mem_put_self, huser, hdev ▸ hddevice⟩
        · exact ⟨d, Session.mem_put_of_key_ne hd hkey, hduser, hddevice⟩

/-- From a point on after which no call makes its second step, what `Written` says holds
    to the end. -/
theorem Running.written {c c' : Calls ι × Store} {sched : List ι}
    (h : Running crypto dto draw userId k₀ c) (hwritten : Written dto userId k₀ k₀ c.2)
    (hlast : ∀ i, 2 ≤ k₀ i + sched.count i → 2 ≤ k₀ i)
    (hrun : Trace.exec Pool.step c sched = some c') :
    Written dto userId k₀ (fun i => k₀ i + sched.count i) c'.2 := by
  let J (k : ι → Nat) (c : Calls ι × Store) : Prop :=
    Running crypto dto draw userId k c ∧ (∀ i, k₀ i ≤ k i) ∧
      ((∀ i, k i ≤ k₀ i + sched.count i) → Written dto userId k₀ k c.2)
  have hJ : J (fun i => k₀ i + sched.count i) c' := by
    refine Pool.exec_counted ?_ (show J k₀ c from ⟨h, fun _ => le_rfl, fun _ => hwritten⟩) hrun
    rintro k c i c' ⟨hk, hmono, hw⟩ hstep
    obtain ⟨hk', heffect⟩ := hk.step hstep
    have hle : ∀ j, k j ≤ Function.update k i (k i + 1) j := by
      intro j
      by_cases hj : j = i
      · subst hj
        simp
      · simp [Function.update_of_ne hj]
    refine ⟨hk', fun j => (hmono j).trans (hle j), fun hbound => ?_⟩
    have hi := hbound i
    simp only [Function.update_self] at hi
    exact (hw fun j => (hle j).trans (hbound j)).step hmono
      (fun h2 => hlast i (h2.trans hi)) heffect
  exact hJ.2.2 fun _ => le_rfl

end Tail

/-! ## Complete runs -/

theorem length_sessionsOf_le_one {userId : String} (deviceId : String) {s : Store}
    (hkeyed : Keyed Session.key s.sessions)
    (h : ∀ doc ∈ s.sessions, doc.userId = userId → doc.deviceId = deviceId) :
    (s.sessionsOf userId).length ≤ 1 := by
  have hnodup : (s.sessionsOf userId).Nodup := (List.Nodup.of_map _ hkeyed).filter _
  have heq : ∀ d ∈ s.sessionsOf userId, ∀ d' ∈ s.sessionsOf userId, d = d' := by
    intro d hd d' hd'
    simp only [Store.sessionsOf, List.mem_filter, beq_iff_eq] at hd hd'
    apply hkeyed.eq_of_key hd.1 hd'.1
    simp [Session.key, hd.2, hd'.2, h d hd.1 hd.2, h d' hd'.1 hd'.2]
  rcases hl : s.sessionsOf userId with _ | ⟨d, _ | ⟨d', rest⟩⟩
  · simp
  · simp
  · rw [hl] at hnodup heq
    obtain rfl := heq d (by simp) d' (by simp)
    simp at hnodup

theorem eq_of_length_le_one {α : Type*} {l : List α} {a b : α} (h : l.length ≤ 1)
    (ha : a ∈ l) (hb : b ∈ l) : a = b := by
  match l, h with
  | [x], _ => simp_all

section Runs

variable [DecidableEq ι] {user : User} {s : Store} {c : Calls ι × Store} {sched : List ι}

/-- What the last clearing leaves behind: the sessions of the user at the end are those of
    the calls that are pending when it is done. -/
theorem written_of_lastAct {userId : String} {c₀ : Calls ι × Store}
    (hstart : Running crypto dto draw userId (fun _ => 0) c₀)
    {pre : List ι} {j : ι} {post : List ι} (h : Pool.LastAct 1 sched pre j post)
    (hrun : Trace.exec Pool.step c₀ sched = some c) :
    Written dto userId (pre ++ [j]).count sched.count c.2 := by
  obtain ⟨rfl, hcount, hlast⟩ := h
  obtain ⟨c₁, hpre, hrun⟩ := Trace.exec_append_some hrun
  obtain ⟨c₂, hj, hpost⟩ := Trace.exec_cons_some hrun
  have h₁ := hstart.exec hpre
  have h₂ := hstart.exec (Trace.exec_snoc hpre hj)
  have hclear := h₁.clears (by simpa using hcount) hj
  simp only [Nat.zero_add] at h₂
  have htotal : ∀ i, (pre ++ [j]).count i + post.count i = (pre ++ j :: post).count i := by
    intro i
    rw [← List.count_append]
    simp
  have hcleared : Written dto userId (pre ++ [j]).count (pre ++ [j]).count c₂.2 := by
    refine ⟨fun doc hdoc huser => ?_, fun i hi hk => absurd hk (Nat.not_le.mpr hi.2)⟩
    rw [hclear, Session.mem_clearSessions] at hdoc
    exact absurd huser hdoc.2
  have hwritten := h₂.written hcleared (fun i hi => hlast i (by rw [← htotal]; exact hi)) hpost
  simpa only [htotal] using hwritten

/-- A complete run leaves the user with at most one session document exactly if, when
    the last call to clear the sessions does so, every other call that has cleared but
    not finished has the same device. -/
theorem oneSession_iff (hfind : ∀ i, s.users.find? (·.email == (dto i).email) = some user)
    (hpassword : ∀ i, crypto.compare (dto i).password user.passwordHash = true)
    (hrole : user.role = .user) (hstatus : user.status = .approved) (hempty : s.sessions = [])
    (hrun : Trace.exec Pool.step (calls crypto dto draw, s) sched = some c)
    (hfin : Pool.Finished c.1) :
    (c.2.sessionsOf user.id).length ≤ 1 ↔
      ∀ pre j post, Pool.LastAct 1 sched pre j post →
        ∀ i, 2 ≤ pre.count i → pre.count i < 5 → (dto i).deviceId = (dto j).deviceId := by
  have hstart : Running crypto dto draw user.id (fun _ => 0) (calls crypto dto draw, s) :=
    ⟨fun _ => .start, fun i => ⟨user, hfind i, rfl, hrole, hstatus, hpassword i⟩,
      by simp [Keyed, hempty]⟩
  have hend := hstart.exec hrun
  simp only [Nat.zero_add] at hend
  constructor
  · intro hone pre j post hlast i hi2 hi5
    have hwritten := written_of_lastAct hstart hlast hrun
    -- Both calls are pending after the last clearing, so both leave a session.
    have hleaves : ∀ l, Pending (pre ++ [j]).count l →
        ∃ doc ∈ c.2.sessionsOf user.id, doc.deviceId = (dto l).deviceId := by
      intro l hl
      obtain ⟨r, hr⟩ := hfin l
      have hsched : (pre ++ [j]).count l ≤ sched.count l := by
        rw [hlast.split]
        exact List.Sublist.count_le _ (by simp)
      have hfive := Stage.of_ret (hr ▸ hend.stage l) (hl.1.trans hsched)
      obtain ⟨doc, hdoc, huser, hdevice⟩ := hwritten.finished l hl hfive.ge
      exact ⟨doc, by simp [Store.sessionsOf, hdoc, huser], hdevice⟩
    have hij : i ≠ j := by
      rintro rfl
      have := hlast.count
      omega
    obtain ⟨d, hd, hdi⟩ := hleaves i (by simpa [Pending, hij.symm] using ⟨hi2, hi5⟩)
    obtain ⟨d', hd', hdj⟩ := hleaves j (by simp [Pending, hlast.count])
    rw [← hdi, ← hdj, eq_of_length_le_one hone hd hd']
  · intro hdevices
    by_cases hclears : ∃ i, 1 < sched.count i
    · obtain ⟨i, hi⟩ := hclears
      obtain ⟨pre, j, post, hlast⟩ := Pool.exists_lastAct hi
      have hwritten := written_of_lastAct hstart hlast hrun
      apply length_sessionsOf_le_one (dto j).deviceId hend.keyed
      intro doc hdoc huser
      obtain ⟨l, hl, hdevice⟩ := hwritten.only doc hdoc huser
      rw [← hdevice]
      by_cases hlj : l = j
      · rw [hlj]
      · exact hdevices pre j post hlast l
          (by simpa [Ne.symm hlj] using hl.1) (by simpa [Ne.symm hlj] using hl.2)
    · -- no call clears, so none writes
      have hwritten := hstart.written
        ⟨by simp [hempty], fun i hi => absurd hi.1 (Nat.not_succ_le_zero 1)⟩
        (fun i hi => absurd ⟨i, by rwa [Nat.zero_add] at hi⟩ hclears) hrun
      have hnone : c.2.sessionsOf user.id = [] := by
        rw [Store.sessionsOf_eq_nil]
        intro doc hdoc huser
        obtain ⟨i, hi, -⟩ := hwritten.only doc hdoc huser
        exact absurd hi.1 (Nat.not_succ_le_zero 1)
      simp [hnone]

end Runs

/-! ## Two devices -/

/-- A resident who logs in from a phone and from a tablet. -/
def devices (second : Bool) : LoginDto := residentLogin (if second then "tablet" else "phone")

def draws (second : Bool) : Draw :=
  { now := 1, sid := if second then "s2" else "s1", salt := "salt" }

abbrev twoLogins : Calls Bool × Store := (calls Crypto.plain devices draws, loggedOut)

/-- Both calls look the user up and clear before either writes: two sessions are left. -/
theorem twoSessions_overlapping : ∃ c,
    Trace.exec Pool.step twoLogins
      [false, true, false, true, false, false, false, true, true, true] = some c ∧
    Pool.Finished c.1 ∧ ¬ (c.2.sessionsOf resident.id).length ≤ 1 := by
  have h : (Trace.exec Pool.step twoLogins
      [false, true, false, true, false, false, false, true, true, true]).any
      (fun c => (∀ i, (c.1 i).result?.isSome) ∧ ¬ (c.2.sessionsOf resident.id).length ≤ 1) =
      true := by decide +kernel
  obtain ⟨c, hc, hfin⟩ := Option.any_eq_true _ _ |>.mp h
  simp only [decide_eq_true_eq] at hfin
  exact ⟨c, hc, Pool.finished_of_result? hfin.1, hfin.2⟩

theorem oneSession_iff_inOrder : ∃ c,
    Trace.exec Pool.step twoLogins [false, false, false, false, false, true] = some c ∧
    ((c.2.sessionsOf resident.id).length ≤ 1 ↔
      ∀ pre j post,
        Pool.LastAct 1 [false, false, false, false, false, true] pre j post →
        ∀ i, 2 ≤ pre.count i → pre.count i < 5 →
          (devices i).deviceId = (devices j).deviceId) := by
  have h : (Trace.exec Pool.step twoLogins [false, false, false, false, false, true]).any
      (fun c => ∀ i, (c.1 i).result?.isSome) = true := by decide +kernel
  obtain ⟨c, hc, hfin⟩ := Option.any_eq_true _ _ |>.mp h
  simp only [decide_eq_true_eq] at hfin
  have hfind : ∀ i, loggedOut.users.find? (·.email == (devices i).email) = some resident := by
    decide +kernel
  have hpassword : ∀ i,
      Crypto.plain.compare (devices i).password resident.passwordHash = true := by decide +kernel
  exact ⟨c, hc, oneSession_iff hfind hpassword rfl rfl rfl hc (Pool.finished_of_result? hfin)⟩

end Backend.LoginRace
