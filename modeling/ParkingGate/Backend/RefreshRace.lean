-- SUMMARY: Concurrent refreshes that present one token: exactly which schedules spend the token once and leave the two copies of the session in agreement.
import ParkingGate.Backend.SessionWrites

/-!
# Concurrent refreshes of one session

Nothing ties the lookup of `refresh` to the upsert that replaces the session. A call
whose lookup runs before the first upsert of another call is accepted as well, and
its later writes overtake the others freely. The token is spent once exactly when
the call that comes first also performs the second step; after its upsert no lookup
accepts the token any more.
-/

namespace Backend.RefreshRace

open Collection AuthService

/-- The session fields of the user document are those of the session document. -/
def CopiesAgree (userId deviceId : String) (s : Store) : Prop :=
  ∀ user, s.users.find? (·.id == userId) = some user →
    ∃ doc ∈ s.sessions, doc.userId = userId ∧ doc.deviceId = deviceId ∧
      user.activeSessionId = some doc.sessionId ∧
      user.refreshTokenHash = some doc.refreshTokenHash

/-- Concurrent calls of `refresh`. -/
abbrev Calls (ι : Type) := Pool Store fun _ : ι => Except HttpException RefreshResponse

variable {ι : Type}

/-- At most one call has succeeded, and the two copies of the session agree. -/
def SpentOnce (payload : JwtPayload) (c : Calls ι × Store) : Prop :=
  (∀ i j r r', c.1 i = .ret (.ok r) → c.1 j = .ret (.ok r') → i = j) ∧
    CopiesAgree payload.sub payload.deviceId c.2

variable (crypto : Crypto) (token : String) (payload : JwtPayload) (draw : ι → Draw)

/-- Every call presents the same token, with its own clock reading and random values. -/
def calls : Calls ι := fun i => (refresh crypto token (draw i)).prog

/-- Some call finds the token unexpired, and the session lookup accepts it. -/
def Accepted (s : Store) : Prop :=
  (∃ i, crypto.verifyRefresh (draw i).now token = some payload) ∧
    accepts crypto token payload s = true

variable {crypto token payload draw}

/-! ## One call -/

/-- A call fails at once, or its first step looks the session up. -/
theorem calls_cases (hpayload : ∀ i p, crypto.verifyRefresh (draw i).now token = some p → p = payload)
    (i : ι) :
    (∃ e, calls crypto token draw i = .ret (.error e)) ∨
    crypto.verifyRefresh (draw i).now token = some payload ∧
      ∃ next, calls crypto token draw i = .act id next ∧
        (∀ s, accepts crypto token payload s = true → next s = rotate crypto payload (draw i)) ∧
        ∀ s, accepts crypto token payload s = false → ∃ e, next s = .ret (.error e) :=
  refresh_cases (hpayload i)

/-- As long as the lookup refuses the token, a call fails without writing. -/
theorem calls_refused
    (hpayload : ∀ i p, crypto.verifyRefresh (draw i).now token = some p → p = payload)
    {I : Store → Prop} (hI : ∀ s, I s → accepts crypto token payload s = false) (i : ι) :
    (calls crypto token draw i).Maintains I fun r => ∃ e, r = .error e := by
  obtain ⟨e, he⟩ | ⟨-, next, hprog, -, hrefused⟩ := calls_cases hpayload i
  · rw [he]
    exact ⟨e, rfl⟩
  · rw [hprog]
    intro s hs
    obtain ⟨e, he⟩ := hrefused s (hI s hs)
    rw [he]
    exact ⟨hs, e, rfl⟩

/-- The user of the token has a document. -/
def UserExists (userId : String) (s : Store) : Prop :=
  ∃ user, s.users.find? (·.id == userId) = some user

/-- Once the session is being rotated, the call succeeds. -/
theorem rotate_succeeds (d : Draw) :
    (rotate crypto payload d).Maintains (UserExists payload.sub) fun r => ∃ a, r = .ok a := by
  refine fun s hs => ⟨hs, fun s hs => ⟨?_, fun s hs => ⟨hs, fun s hs => ⟨hs, ?_⟩⟩⟩⟩
  · obtain ⟨user, huser⟩ := hs
    obtain ⟨user', huser', -⟩ :=
      (rotated crypto payload d).find?_setFields (q := (·.id == payload.sub)) (fun _ => rfl) huser
    exact ⟨user', huser'⟩
  · obtain ⟨user, huser⟩ := hs
    exact ⟨_, by simp only [refreshResponse, huser]; rfl⟩

theorem calls_keep_user
    (hpayload : ∀ i p, crypto.verifyRefresh (draw i).now token = some p → p = payload) (i : ι) :
    (calls crypto token draw i).Maintains (UserExists payload.sub) fun _ => True := by
  obtain ⟨e, he⟩ | ⟨-, next, hprog, haccepted, hrefused⟩ := calls_cases hpayload i
  · rw [he]
    trivial
  · rw [hprog]
    intro s hs
    refine ⟨hs, ?_⟩
    cases h : accepts crypto token payload s with
    | true => exact haccepted s h ▸ (rotate_succeeds (draw i)).mono fun _ _ => trivial
    | false =>
      obtain ⟨e, he⟩ := hrefused s h
      rw [he]
      trivial

/-! ## The good schedules -/

variable (crypto token payload draw) in
/-- What holds after call `i` has replaced the session: its document is in place, so the
    other calls are refused, and they have not written anything. -/
structure Spending (i : ι) (c : Calls ι × Store) : Prop where
  doc : rotated crypto payload (draw i) ∈ c.2.sessions
  keyed : Keyed Session.key c.2.sessions
  winner : c.1 i = updateFields crypto payload (draw i) ∨
    (c.1 i = putAgain crypto payload (draw i) ∨ c.1 i = readUser crypto payload (draw i) ∨
      ∃ r, c.1 i = .ret r) ∧
    CopiesAgree payload.sub payload.deviceId c.2
  others : ∀ j, j ≠ i → c.1 j = calls crypto token draw j ∨ ∃ e, c.1 j = .ret (.error e)

namespace Spending

variable {i : ι} {c : Calls ι × Store}

theorem refuses (h : Spending crypto token payload draw i c)
    (hsid : ∀ i, (draw i).sid ≠ payload.sid) : accepts crypto token payload c.2 = false := by
  by_contra hacc
  obtain ⟨doc, hdoc, hdocSid, huser, hdevice, -⟩ := of_accepts (by simpa using hacc)
  have hkey : doc.key = (rotated crypto payload (draw i)).key := by
    simp [Session.key, rotated, huser, hdevice]
  obtain rfl := h.keyed.eq_of_key hdoc h.doc hkey
  exact hsid i hdocSid

theorem copiesAgree_setFields (hdoc : rotated crypto payload (draw i) ∈ c.2.sessions) :
    CopiesAgree payload.sub payload.deviceId ((rotated crypto payload (draw i)).setFields c.2) := by
  intro user huser
  rw [show payload.sub = (rotated crypto payload (draw i)).userId from rfl,
    Session.find?_setFields_self, Option.map_eq_some_iff] at huser
  obtain ⟨u, -, rfl⟩ := huser
  exact ⟨_, hdoc, rfl, rfl, rfl, rfl⟩

theorem copiesAgree_put (h : Spending crypto token payload draw i c)
    (hagree : CopiesAgree payload.sub payload.deviceId c.2) :
    CopiesAgree payload.sub payload.deviceId ((rotated crypto payload (draw i)).put c.2) := by
  intro user huser
  obtain ⟨doc, hdoc, huserId, hdevice, hfields⟩ := hagree user huser
  have hkey : doc.key = (rotated crypto payload (draw i)).key := by
    simp [Session.key, rotated, huserId, hdevice]
  obtain rfl := h.keyed.eq_of_key hdoc h.doc hkey
  exact ⟨_, Session.mem_put_self, rfl, rfl, hfields⟩

theorem step [DecidableEq ι]
    (hpayload : ∀ i p, crypto.verifyRefresh (draw i).now token = some p → p = payload)
    (hsid : ∀ i, (draw i).sid ≠ payload.sid) {l : ι} {c' : Calls ι × Store}
    (h : Spending crypto token payload draw i c) (hstep : Pool.step c l = some c') :
    Spending crypto token payload draw i c' := by
  obtain ⟨upd, next, hl, rfl⟩ := Pool.step_eq_some hstep
  by_cases hli : l = i
  · subst hli
    have hothers : ∀ j, j ≠ l →
        Function.update c.1 l (next c.2) j = calls crypto token draw j ∨
          ∃ e, Function.update c.1 l (next c.2) j = .ret (.error e) := fun j hj => by
      simpa [Function.update_of_ne hj] using h.others j hj
    rcases h.winner with hw | ⟨hw | hw | ⟨r, hr⟩, hagree⟩
    · obtain ⟨rfl, rfl⟩ := Prog.act.inj (hw.symm.trans hl)
      exact ⟨h.doc, h.keyed, .inr ⟨.inl (by simp), copiesAgree_setFields h.doc⟩, hothers⟩
    · obtain ⟨rfl, rfl⟩ := Prog.act.inj (hw.symm.trans hl)
      exact ⟨Session.mem_put_self, Session.keyed_put h.keyed,
        .inr ⟨.inr (.inl (by simp)), h.copiesAgree_put hagree⟩, hothers⟩
    · obtain ⟨rfl, rfl⟩ := Prog.act.inj (hw.symm.trans hl)
      exact ⟨h.doc, h.keyed, .inr ⟨.inr (.inr ⟨refreshResponse crypto payload (draw l) c.2, by simp⟩), hagree⟩, hothers⟩
    · cases hr.symm.trans hl
  · -- another call: its lookup is refused
    have hcall : calls crypto token draw l = .act upd next := by
      rcases h.others l hli with hcall | ⟨e, he⟩
      · exact hcall.symm.trans hl
      · cases he.symm.trans hl
    obtain ⟨e, he⟩ | ⟨-, next', hprog, -, hrefused⟩ := calls_cases hpayload l
    · cases he.symm.trans hcall
    obtain ⟨rfl, rfl⟩ := Prog.act.inj (hprog.symm.trans hcall)
    obtain ⟨e, he⟩ := hrefused c.2 (h.refuses hsid)
    refine ⟨h.doc, h.keyed, ?_, fun j hj => ?_⟩
    · simpa [Function.update_of_ne (Ne.symm hli)] using h.winner
    · by_cases hjl : j = l
      · subst hjl
        exact .inr ⟨e, by simpa using he⟩
      · simpa [Function.update_of_ne hjl] using h.others j hj

end Spending

/-! ## Complete runs -/

section Runs

variable [DecidableEq ι] {s : Store} {c : Calls ι × Store} {sched : List ι}
  (hpayload : ∀ i p, crypto.verifyRefresh (draw i).now token = some p → p = payload)

include hpayload

/-- No call is accepted: nothing is written. -/
theorem run_of_not_accepted (h : ¬ Accepted crypto token payload draw s)
    (hrun : Trace.exec Pool.step (calls crypto token draw, s) sched = some c) :
    (∀ i r, c.1 i ≠ .ret (.ok r)) ∧ c.2 = s := by
  have hcall : ∀ i, (calls crypto token draw i).Maintains (fun t => t = s)
      fun r => ∃ e, r = .error e := by
    intro i
    by_cases hacc : accepts crypto token payload s = true
    · obtain ⟨e, he⟩ | ⟨hverify, -⟩ := calls_cases hpayload i
      · rw [he]
        exact ⟨e, rfl⟩
      · exact absurd ⟨⟨i, hverify⟩, hacc⟩ h
    · exact calls_refused hpayload (fun t ht => by simpa [ht] using hacc) i
  obtain ⟨hresults, hstore⟩ := Pool.exec_maintains (I := fun t => t = s) hcall rfl hrun
  refine ⟨fun i r hi => ?_, hstore⟩
  have hresult := hresults i
  rw [hi] at hresult
  obtain ⟨e, he⟩ := hresult
  cases he

/-- The first call of an accepted run looks the session up and goes on to rotate it. -/
theorem first_step (h : Accepted crypto token payload draw s) {P : Calls ι} {i : ι}
    (hi : P i = calls crypto token draw i) {c : Calls ι × Store}
    (hstep : Pool.step (P, s) i = some c) :
    c = (Function.update P i (rotate crypto payload (draw i)), s) := by
  obtain ⟨upd, next, hnext, rfl⟩ := Pool.step_eq_some hstep
  obtain ⟨e, he⟩ | ⟨-, next', hprog, haccepted, -⟩ := calls_cases hpayload i
  · cases (hi.trans he).symm.trans hnext
  · obtain ⟨rfl, rfl⟩ := Prog.act.inj ((hi.trans hprog).symm.trans hnext)
    simp [haccepted s h.2]

/-- Two lookups before the first upsert: both calls succeed. -/
theorem both_succeed (h : Accepted crypto token payload draw s)
    (huser : UserExists payload.sub s) {i j : ι} {rest : List ι} (hij : j ≠ i)
    (hrun : Trace.exec Pool.step (calls crypto token draw, s) (i :: j :: rest) = some c)
    (hfin : Pool.Finished c.1) :
    (∃ r, c.1 i = .ret (.ok r)) ∧ ∃ r, c.1 j = .ret (.ok r) := by
  obtain ⟨c₁, h₁, hrun⟩ := Trace.exec_cons_some hrun
  obtain ⟨c₂, h₂, hrun⟩ := Trace.exec_cons_some hrun
  obtain rfl := first_step hpayload h rfl h₁
  obtain rfl := first_step hpayload h (by simp [Function.update_of_ne hij]) h₂
  let Ok (l : ι) (r : Except HttpException RefreshResponse) : Prop :=
    l = i ∨ l = j → ∃ a, r = .ok a
  have hcalls : ∀ l, (Function.update (Function.update (calls crypto token draw) i
      (rotate crypto payload (draw i))) j (rotate crypto payload (draw j)) l).Maintains
      (UserExists payload.sub) (Ok l) := by
    intro l
    by_cases hlj : l = j
    · subst hlj
      simpa using (rotate_succeeds (draw l)).mono fun _ hr _ => hr
    by_cases hli : l = i
    · subst hli
      simpa [Function.update_of_ne hlj] using (rotate_succeeds (draw l)).mono fun _ hr _ => hr
    · simpa [Function.update_of_ne hlj, Function.update_of_ne hli] using
        (calls_keep_user hpayload l).mono fun _ _ hl => (hl.elim hli hlj).elim
  obtain ⟨hresults, -⟩ := Pool.exec_maintains (Q := Ok) hcalls huser hrun
  have hok : ∀ l, l = i ∨ l = j → ∃ r, c.1 l = .ret (.ok r) := by
    intro l hl
    obtain ⟨r, hr⟩ := hfin l
    have hresult := hresults l
    rw [hr] at hresult
    obtain ⟨a, rfl⟩ := hresult hl
    exact ⟨a, hr⟩
  exact ⟨hok i (.inl rfl), hok j (.inr rfl)⟩

/-- The first call also makes the second step: it is the only one that succeeds. -/
theorem one_succeeds (h : Accepted crypto token payload draw s)
    (hkeyed : Keyed Session.key s.sessions) (hsid : ∀ i, (draw i).sid ≠ payload.sid)
    {i : ι} {rest : List ι}
    (hrun : Trace.exec Pool.step (calls crypto token draw, s) (i :: i :: rest) = some c)
    (hfin : Pool.Finished c.1) : SpentOnce payload c := by
  obtain ⟨c₁, h₁, hrun⟩ := Trace.exec_cons_some hrun
  obtain ⟨c₂, h₂, hrun⟩ := Trace.exec_cons_some hrun
  obtain rfl := first_step hpayload h rfl h₁
  obtain ⟨upd, next, hnext, rfl⟩ := Pool.step_eq_some h₂
  obtain ⟨rfl, rfl⟩ := Prog.act.inj
    ((Function.update_self i (rotate crypto payload (draw i)) (calls crypto token draw)).symm.trans
      hnext)
  have hspending : Spending crypto token payload draw i c := by
    refine Trace.exec_invariant (fun _ _ _ hJ => hJ.step hpayload hsid)
      ⟨Session.mem_put_self, Session.keyed_put hkeyed, .inl (by simp), fun j hj => .inl ?_⟩ hrun
    simp [Function.update_of_ne hj]
  refine ⟨fun j k r r' hj hk => ?_, ?_⟩
  · have honly : ∀ l r, c.1 l = .ret (.ok r) → l = i := by
      intro l r hl
      by_contra hli
      rcases hspending.others l hli with hcall | ⟨e, he⟩
      · obtain ⟨e, he⟩ | ⟨-, next, hprog, -⟩ := calls_cases hpayload l
        · cases he.symm.trans (hcall.symm.trans hl)
        · cases hprog.symm.trans (hcall.symm.trans hl)
      · cases he.symm.trans hl
    exact (honly j r hj).trans (honly k r' hk).symm
  · obtain ⟨r, hr⟩ := hfin i
    rcases hspending.winner with hw | ⟨-, hagree⟩
    · cases hr.symm.trans hw
    · exact hagree

/-- A complete run spends the token once and leaves the copies in agreement exactly if
    the token is accepted and one call makes the first two steps, or the token is not
    accepted and the copies agree already. -/
theorem spentOnce_iff (hkeyed : Keyed Session.key s.sessions)
    (huser : UserExists payload.sub s) (hsid : ∀ i, (draw i).sid ≠ payload.sid)
    (hrun : Trace.exec Pool.step (calls crypto token draw, s) sched = some c)
    (hfin : Pool.Finished c.1) :
    SpentOnce payload c ↔
      Accepted crypto token payload draw s ∧ (∃ i, [i, i] <+: sched) ∨
      ¬ Accepted crypto token payload draw s ∧ CopiesAgree payload.sub payload.deviceId s := by
  by_cases h : Accepted crypto token payload draw s
  · simp only [h, true_and, not_true_eq_false, false_and, or_false]
    constructor
    · intro hspent
      match sched, hrun with
      | [], hrun =>
        obtain ⟨i, hverify⟩ := h.1
        obtain ⟨next, hprog, -⟩ := refresh_prog hverify
        obtain rfl := Option.some.inj hrun
        obtain ⟨r, hr⟩ := hfin i
        cases hprog.symm.trans hr
      | [i], hrun =>
        obtain ⟨c₁, h₁, hrun⟩ := Trace.exec_cons_some hrun
        obtain rfl := first_step hpayload h rfl h₁
        obtain rfl := Option.some.inj hrun
        obtain ⟨r, hr⟩ := hfin i
        simp only [Function.update_self] at hr
        cases hr
      | i :: j :: rest, hrun =>
        by_cases hij : j = i
        · exact ⟨i, rest, by simp [hij]⟩
        · obtain ⟨⟨r, hr⟩, r', hr'⟩ := both_succeed hpayload h huser hij hrun hfin
          exact absurd (hspent.1 i j r r' hr hr').symm hij
    · rintro ⟨i, rest, rfl⟩
      exact one_succeeds hpayload h hkeyed hsid hrun hfin
  · obtain ⟨hnone, hstore⟩ := run_of_not_accepted hpayload h hrun
    simp only [h, false_and, not_false_eq_true, true_and, false_or, SpentOnce, hstore]
    exact and_iff_right fun i _ r _ hi => absurd hi (hnone i r)

end Runs

/-! ## Two calls -/

/-- The random values of two calls. -/
def draws (second : Bool) : Draw :=
  if second then { now := 2, sid := "s2", salt := "salt" }
  else { now := 2, sid := "s1", salt := "salt" }

abbrev twoCalls : Calls Bool × Store := (calls Crypto.plain phoneToken draws, loggedIn)

/-- Two lookups before the first upsert: both calls succeed. -/
theorem not_spentOnce_overlapping : ∃ c,
    Trace.exec Pool.step twoCalls
      [false, true, false, false, false, false, true, true, true, true] = some c ∧
    Pool.Finished c.1 ∧ ¬ SpentOnce phonePayload c := by
  have h : (Trace.exec Pool.step twoCalls
      [false, true, false, false, false, false, true, true, true, true]).any
      (fun c => ∀ i, ((c.1 i).result?.bind Except.toOption).isSome) = true := by decide +kernel
  obtain ⟨c, hc, hok⟩ := Option.any_eq_true _ _ |>.mp h
  simp only [decide_eq_true_eq] at hok
  have hret : ∀ i, ∃ r, c.1 i = .ret (.ok r) := by
    intro i
    obtain ⟨r, hr⟩ := Option.isSome_iff_exists.mp (hok i)
    obtain ⟨res, hres, hr⟩ := Option.bind_eq_some_iff.mp hr
    cases res with
    | ok a => exact ⟨a, Prog.result?_eq_some.mp hres⟩
    | error e => cases hr
  refine ⟨c, hc, fun i => (hret i).imp' _ fun _ => id, fun hspent => ?_⟩
  obtain ⟨r, hr⟩ := hret false
  obtain ⟨r', hr'⟩ := hret true
  exact absurd (hspent.1 _ _ r r' hr hr') (by decide)

theorem spentOnce_iff_inOrder : ∃ c,
    Trace.exec Pool.step twoCalls [false, false, true, false, false, false] = some c ∧
    (SpentOnce phonePayload c ↔
      Accepted Crypto.plain phoneToken phonePayload draws loggedIn ∧
        (∃ i, [i, i] <+: [false, false, true, false, false, false]) ∨
      ¬ Accepted Crypto.plain phoneToken phonePayload draws loggedIn ∧
        CopiesAgree phonePayload.sub phonePayload.deviceId loggedIn) := by
  have h : (Trace.exec Pool.step twoCalls [false, false, true, false, false, false]).any
      (fun c => ∀ i, (c.1 i).result?.isSome) = true := by decide +kernel
  obtain ⟨c, hc, hfin⟩ := Option.any_eq_true _ _ |>.mp h
  simp only [decide_eq_true_eq] at hfin
  have hverify : Crypto.plain.verifyRefresh 2 phoneToken = some phonePayload := by decide +kernel
  have hpayload : ∀ i p, Crypto.plain.verifyRefresh (draws i).now phoneToken = some p →
      p = phonePayload := fun i p hp => by
    cases i <;> exact Option.some.inj (hp.symm.trans hverify)
  exact ⟨c, hc, spentOnce_iff hpayload (by decide +kernel)
    (Option.isSome_iff_exists.mp (by decide +kernel)) (by decide +kernel) hc
    (Pool.finished_of_result? hfin)⟩

end Backend.RefreshRace
