-- SUMMARY: Under every interleaving of requests, the administrators, the approved users, the passwords and the sessions trace back to whoever could give them.
import ParkingGate.Base.Service
import ParkingGate.Backend.StoreFrames
import ParkingGate.Backend.UserRequests

/-!
# Where privileges come from

Nothing in a user document says who wrote it. `Administers`, `Approved`, `PasswordFrom` and
`LoggedIn` say for which requests of a run it may be there: a role, an approval and a password set
by an administrator need a request with the token of someone who was an administrator before, and
so on back to the administrators of the beginning. Any other password was given at the registration
or with a token that went to the address of the user.

Tokens cannot be forged: a client presents only tokens that an answer has given away. What clients
send otherwise, how requests overlap and when the server stops is arbitrary.
-/

namespace Backend.Privileges

open AuthService AdminService UsersService GateRoute

/-! ## Runs -/

abbrev Answer := Except HttpException (Option Tokens)
abbrev Event := Service.Event UserRequest

/-- The tokens of all answers so far. -/
def issued (answers : List Answer) : List Tokens :=
  answers.filterMap fun
    | .ok tokens => tokens
    | .error _   => none

/-- A token that verifies has been issued. -/
def Genuine (crypto : Crypto) (answers : List Answer) (r : UserRequest) : Prop :=
  (∀ presented ∈ r.accessToken?, (crypto.verifyAccess presented.1 presented.2).isSome = true →
    presented.2 ∈ (issued answers).map (·.accessToken)) ∧
  ∀ presented ∈ r.refreshToken?, (crypto.verifyRefresh presented.1 presented.2).isSome = true →
    presented.2 ∈ (issued answers).map (·.refreshToken)

instance (crypto : Crypto) (answers : List Answer) (r : UserRequest) :
    Decidable (Genuine crypto answers r) := inferInstanceAs (Decidable (_ ∧ _))

abbrev World := Service Store Answer

def step (crypto : Crypto) : World → Event → Option World :=
  Service.step (Genuine crypto) fun r => (r.handle crypto).prog

def World.start (users : List User) : World := Service.start { Store.empty with users }

/-! ## Provenance -/

section Provenance

variable (crypto : Crypto) (users : List User)

/-- A user who is an administrator from the beginning, or was made one at the request of someone
    who was an administrator before. -/
inductive Administers : List Event → String → Prop
  | first {es : List Event} {user : User} (huser : user ∈ users) (hrole : user.role = .admin) :
    Administers es user.id
  | promoted {es pre : List Event} {authorization : Option String} {now : Nat}
      {token userId : String} {payload : JwtPayload}
      (harrives : pre ++ [.arrive (.admin authorization now (.updateUserRole userId .admin))] <+: es)
      (htoken : extractJwtFromRequest authorization = some token)
      (hverify : crypto.verifyAccess now token = some payload) (hrole : payload.role = .admin)
      (hby : Administers pre payload.sub) : Administers es userId

/-- Someone who was an administrator before has asked for it. -/
def Ordered (es : List Event) (action : AdminAction) : Prop :=
  ∃ pre authorization now token payload, pre ++ [.arrive (.admin authorization now action)] <+: es ∧
    extractJwtFromRequest authorization = some token ∧
    crypto.verifyAccess now token = some payload ∧ payload.role = .admin ∧
    Administers crypto users pre payload.sub

inductive Approved (es : List Event) : String → Prop
  | first {user : User} (huser : user ∈ users) (hstatus : user.status = .approved) :
    Approved es user.id
  | updated {userId : String} {dto : UpdateUserDto} {now : Nat} {transport : Transport}
      (h : Ordered crypto users es (.updateUser userId dto now transport))
      (hstatus : dto.status = some .approved) : Approved es userId
  | all {userId : String} {now : Nat} {transports : List Transport}
      (h : Ordered crypto users es (.approveAllPendingUsers now transports)) : Approved es userId

/-- The user has, or has registered with, the address. -/
inductive AddressOf (es : List Event) : String → String → Prop
  | first {user : User} (huser : user ∈ users) : AddressOf es user.id user.email
  | registered {dto : RegisterDto} {id salt : String} {now : Nat}
      (h : .arrive (.register dto id salt now) ∈ es) : AddressOf es id dto.email

/-- The hash of a reset token that was made for the user and goes to the user's address. -/
inductive ResetFor (es : List Event) : String → String → Prop
  | first {user : User} {tokenHash : String} (huser : user ∈ users)
      (hhash : user.resetPasswordTokenHash = some tokenHash) : ResetFor es user.id tokenHash
  | mailed {userId email token salt homepageUrl : String} {expiryMinutes now : Nat}
      {transport : Transport}
      (h : .arrive (.forgotPassword email expiryMinutes now token salt homepageUrl transport) ∈ es)
      (haddress : AddressOf users es userId email) : ResetFor es userId (crypto.hash salt token)

/-- Where the password hash of a user comes from. -/
inductive PasswordFrom (es : List Event) : String → String → Prop
  | first {user : User} (huser : user ∈ users) : PasswordFrom es user.id user.passwordHash
  | registered {dto : RegisterDto} {id salt : String} {now : Nat}
      (h : .arrive (.register dto id salt now) ∈ es) :
      PasswordFrom es id (crypto.hash salt dto.password)
  | reset {userId token newPassword salt tokenHash : String} {now : Nat}
      (h : .arrive (.resetPassword token newPassword salt now) ∈ es)
      (hreset : ResetFor crypto users es userId tokenHash)
      (hmatch : crypto.compare token tokenHash = true) :
      PasswordFrom es userId (crypto.hash salt newPassword)
  | admin {userId salt : String} {dto : AdminService.ResetPasswordDto}
      (h : Ordered crypto users es (.resetPassword userId dto salt)) :
      PasswordFrom es userId (crypto.hash salt dto.newPassword)

/-- A login from the device with a password of the user. -/
def LoggedIn (es : List Event) (userId deviceId : String) : Prop :=
  ∃ dto draw passwordHash, .arrive (.login dto draw) ∈ es ∧ dto.deviceId = deviceId ∧
    AddressOf users es userId dto.email ∧ crypto.compare dto.password passwordHash = true ∧
    PasswordFrom crypto users es userId passwordHash

/-! ## What is right -/

structure Justified (es : List Event) (user : User) : Prop where
  admin : user.role = .admin → Administers crypto users es user.id
  approved : user.status = .approved → Approved crypto users es user.id
  address : AddressOf users es user.id user.email
  password : PasswordFrom crypto users es user.id user.passwordHash
  reset : ∀ tokenHash, user.resetPasswordTokenHash = some tokenHash →
    ResetFor crypto users es user.id tokenHash

/-- The tokens were made for a user on a device after a login of that user from that device, and
    the access token has the admin role only if that user is an administrator. -/
def Minted (es : List Event) (tokens : Tokens) : Prop :=
  ∃ now sub role role' deviceId sid,
    tokens.accessToken = crypto.signAccess now ⟨sub, role, deviceId, sid⟩ ∧
    tokens.refreshToken = crypto.signRefresh now ⟨sub, role', deviceId, sid⟩ ∧
    (role = .admin → Administers crypto users es sub) ∧ LoggedIn crypto users es sub deviceId

def RightStore (es : List Event) (s : Store) : Prop := s.AllUsers (Justified crypto users es)

def RightAnswer (es : List Event) (answer : Answer) : Prop :=
  ∀ tokens, answer = .ok (some tokens) → Minted crypto users es tokens

end Provenance

section Growth

variable {crypto : Crypto} {users : List User} {es es' : List Event}

theorem Administers.later {userId : String} (h : Administers crypto users es userId)
    (hpre : es <+: es') : Administers crypto users es' userId := by
  cases h with
  | first huser hrole => exact .first huser hrole
  | promoted harrives htoken hverify hrole hby =>
    exact .promoted (harrives.trans hpre) htoken hverify hrole hby

theorem Ordered.later {action : AdminAction} (h : Ordered crypto users es action)
    (hpre : es <+: es') : Ordered crypto users es' action := by
  obtain ⟨pre, authorization, now, token, payload, harrives, hrest⟩ := h
  exact ⟨pre, authorization, now, token, payload, harrives.trans hpre, hrest⟩

theorem Ordered.administers {userId : String}
    (h : Ordered crypto users es (.updateUserRole userId .admin)) :
    Administers crypto users es userId := by
  obtain ⟨pre, authorization, now, token, payload, harrives, htoken, hverify, hrole, hby⟩ := h
  exact .promoted harrives htoken hverify hrole hby

theorem Approved.later {userId : String} (h : Approved crypto users es userId)
    (hpre : es <+: es') : Approved crypto users es' userId := by
  cases h with
  | first huser hstatus => exact .first huser hstatus
  | updated h hstatus => exact .updated (h.later hpre) hstatus
  | all h => exact .all (h.later hpre)

theorem AddressOf.later {userId email : String} (h : AddressOf users es userId email)
    (hpre : es <+: es') : AddressOf users es' userId email := by
  cases h with
  | first huser => exact .first huser
  | registered h => exact .registered (hpre.subset h)

theorem ResetFor.later {userId tokenHash : String} (h : ResetFor crypto users es userId tokenHash)
    (hpre : es <+: es') : ResetFor crypto users es' userId tokenHash := by
  cases h with
  | first huser hhash => exact .first huser hhash
  | mailed h haddress => exact .mailed (hpre.subset h) (haddress.later hpre)

theorem PasswordFrom.later {userId passwordHash : String}
    (h : PasswordFrom crypto users es userId passwordHash) (hpre : es <+: es') :
    PasswordFrom crypto users es' userId passwordHash := by
  cases h with
  | first huser => exact .first huser
  | registered h => exact .registered (hpre.subset h)
  | reset h hreset hmatch => exact .reset (hpre.subset h) (hreset.later hpre) hmatch
  | admin h => exact .admin (h.later hpre)

theorem LoggedIn.later {userId deviceId : String} (h : LoggedIn crypto users es userId deviceId)
    (hpre : es <+: es') : LoggedIn crypto users es' userId deviceId := by
  obtain ⟨dto, draw, passwordHash, harrives, hdevice, haddress, hmatch, hfrom⟩ := h
  exact ⟨dto, draw, passwordHash, hpre.subset harrives, hdevice, haddress.later hpre, hmatch,
    hfrom.later hpre⟩

theorem growing_rightStore : Service.Growing (RightStore crypto users) :=
  fun _ _ _ hpre h user huser =>
    { admin := fun hrole => ((h user huser).admin hrole).later hpre
      approved := fun hstatus => ((h user huser).approved hstatus).later hpre
      address := (h user huser).address.later hpre
      password := (h user huser).password.later hpre
      reset := fun tokenHash hhash => ((h user huser).reset tokenHash hhash).later hpre }

theorem growing_rightAnswer : Service.Growing (RightAnswer crypto users) := by
  intro es es' answer hpre h tokens hanswer
  obtain ⟨now, sub, role, role', deviceId, sid, haccess, hrefresh, hadmin, hlogin⟩ := h tokens hanswer
  exact ⟨now, sub, role, role', deviceId, sid, haccess, hrefresh,
    fun hrole => (hadmin hrole).later hpre, hlogin.later hpre⟩

end Growth

/-! ## The operations -/

section Operations

variable {crypto : Crypto} {users : List User} {es : List Event} {user : User}

theorem permits_justified :
    Permits fun user user' => Justified crypto users es user → Justified crypto users es user' where
  refl _ := id
  clearFields _ h := ⟨h.admin, h.approved, h.address, h.password, h.reset⟩
  clearActiveDevice _ h := ⟨h.admin, h.approved, h.address, h.password, h.reset⟩
  profile _ _ _ _ _ _ h := ⟨h.admin, h.approved, h.address, h.password, h.reset⟩
  emailSent _ _ h := ⟨h.admin, h.approved, h.address, h.password, h.reset⟩

/-- A session may be opened in any document. -/
theorem Justified.setSession (h : Justified crypto users es user) (deviceId sid tokenHash : String) :
    Justified crypto users es
      { user with
        activeDeviceId := some deviceId
        activeSessionId := some sid
        refreshTokenHash := some tokenHash } :=
  ⟨h.admin, h.approved, h.address, h.password, h.reset⟩

theorem Justified.updateData {userId : String} {dto : UpdateUserDto} {now : Nat}
    {transport : Transport} (horder : Ordered crypto users es (.updateUser userId dto now transport))
    (hid : user.id = userId) (h : Justified crypto users es user) (existing : User) :
    Justified crypto users es (dto.updateData existing now user) := by
  unfold UpdateUserDto.updateData
  cases hstatus : dto.status with
  | none =>
    dsimp only
    split
    · exact ⟨h.admin, h.approved, h.address, h.password, h.reset⟩
    · exact ⟨h.admin, h.approved, h.address, h.password, h.reset⟩
  | some status =>
    obtain ⟨approvedAt, rejectedAt, htimes⟩ :=
      statusTimestamps_fields status existing.status now { dto.profile user with status }
    simp only [htimes]
    have happroved : status = .approved → Approved crypto users es user.id := by
      rintro rfl
      exact hid ▸ .updated horder hstatus
    split
    · exact ⟨h.admin, happroved, h.address, h.password, h.reset⟩
    · exact ⟨h.admin, happroved, h.address, h.password, h.reset⟩

/-- What a request with an administrator's token does. -/
theorem keeps_action {action : AdminAction} (horder : Ordered crypto users es action)
    (authUser : AuthUser) :
    Fallible.Keeps (Store.AllUsers (Justified crypto users es)) (action.run crypto authUser)
      fun _ => True := by
  cases action with
  | updateUser id updateDto now transport =>
    have hwrite (existing : User) : KeepsUsers (Justified crypto users es)
        (UsersService.updateUser id (updateDto.updateData existing now)) :=
      .findByIdAndUpdate fun _ hid h => h.updateData horder hid existing
    have hupdate : KeepsUsers (Justified crypto users es)
        (AdminService.updateUser id updateDto now transport) :=
      updateUser_always (fun _ hs => hs)
        (fun _ => KeepsUsers.of_rewrites (.clearSession permits_justified)) hwrite
        fun _ => KeepsUsers.of_rewrites (.notifyApproval permits_justified)
    exact .bind hupdate.keeps fun _ _ => .pure trivial
  | deleteUser id => exact .bind keeps_deleteUser fun _ _ => .pure trivial
  | updateUserRole id role =>
    refine .bind (keeps_lookUpAndUpdate (fun user hid h => ?_) fun _ => .pure trivial)
      fun _ _ => .pure trivial
    refine ⟨?_, h.approved, h.address, h.password, h.reset⟩
    rintro rfl
    exact hid ▸ horder.administers
  | resetPassword id resetPasswordDto salt =>
    refine .bind (Q := fun _ => True) ?_ fun _ _ => .pure trivial
    unfold AdminService.resetPassword
    refine Fallible.Keeps.guard fun _ => keeps_lookUpAndUpdate (fun user hid h => ?_) fun _ => ?_
    · exact ⟨h.admin, h.approved, h.address, hid ▸ .admin horder, h.reset⟩
    · refine .bind (keeps_of_rewrites (.quiet permits_justified.refl fun _ => rfl)) fun _ _ => ?_
      exact .bind (keeps_of_rewrites (.clearSession permits_justified)) fun _ _ => .pure trivial
  | resetUserDevice id deviceId =>
    exact .bind (keeps_of_rewrites (.resetUserDevice permits_justified)) fun _ _ => .pure trivial
  | approveAllPendingUsers now transports =>
    refine .bind (keeps_of_rewrites (.approveAllPendingUsers permits_justified fun user h => ?_))
      fun _ _ => .pure trivial
    exact ⟨h.admin, fun _ => .all horder, h.address, h.password, h.reset⟩
  | sendApprovalEmail id now transport =>
    exact keeps_of_rewrites (.sendApprovalEmail permits_justified)

theorem keeps_requestPasswordReset {email token salt homepageUrl : String} {expiryMinutes now : Nat}
    {transport : Transport}
    (harrives : .arrive (.forgotPassword email expiryMinutes now token salt homepageUrl transport) ∈ es) :
    Fallible.Keeps (Store.AllUsers (Justified crypto users es))
      (requestPasswordReset crypto email expiryMinutes now token salt homepageUrl transport)
      fun _ => True := by
  refine .bind (keeps_findByEmail email) fun found hfound => ?_
  cases found with
  | none => exact .pure trivial
  | some user =>
    obtain ⟨hright, hemail⟩ := hfound user rfl
    refine .bind (KeepsUsers.findByIdAndUpdate fun user' hid h => ?_).keeps fun _ _ => ?_
    · refine ⟨h.admin, h.approved, h.address, h.password, ?_⟩
      rintro _ ⟨⟩
      exact hid ▸ .mailed harrives (hemail ▸ hright.address)
    · have hmail : KeepsUsers (Justified crypto users es)
          (sendMail (.passwordReset email (homepageUrl ++ "/reset-password?token=" ++ token)
            expiryMinutes) transport) :=
        .of_rewrites (.sendMail permits_justified.refl)
      exact KeepsUsers.keeps (Fallible.always_tryCatch hmail fun _ => trivial)

theorem keeps_resetPassword {token newPassword salt : String} {now : Nat}
    (harrives : .arrive (.resetPassword token newPassword salt now) ∈ es) :
    Fallible.Keeps (Store.AllUsers (Justified crypto users es))
      (AuthService.resetPassword crypto token newPassword salt now) fun _ => True := by
  refine .bind (Q := fun candidates => ∀ user ∈ candidates, Justified crypto users es user)
    (.atomically fun s hs => ⟨hs, fun user huser => hs user (List.mem_filter.mp huser).1⟩)
    fun candidates hcandidates => ?_
  cases hmatched : matchedUser crypto token candidates with
  | none => exact .throw
  | some user =>
    have hright := hcandidates user (List.mem_of_find?_eq_some hmatched)
    have hmatch := List.find?_some hmatched
    cases hhash : user.resetPasswordTokenHash with
    | none => simp [hhash] at hmatch
    | some tokenHash =>
      simp only [hhash, Bool.and_eq_true] at hmatch
      refine .bind (KeepsUsers.findByIdAndUpdate fun user' hid h => ?_).keeps fun _ _ => .pure trivial
      refine ⟨h.admin, h.approved, h.address, ?_, by rintro _ ⟨⟩⟩
      exact hid ▸ .reset harrives (hright.reset tokenHash hhash) hmatch.2

end Operations

/-! ## The requests -/

section Requests

variable {crypto : Crypto} {users : List User} {pre es : List Event} {answers : List Answer}
  {r : UserRequest}

theorem mem_issued {tokens : Tokens} (h : tokens ∈ issued answers) : .ok (some tokens) ∈ answers := by
  obtain ⟨answer, hanswer, htokens⟩ := List.mem_filterMap.mp h
  cases answer with
  | error e => cases htokens
  | ok issued => exact htokens ▸ hanswer

/-- The payload of an access token that a client presents. -/
theorem minted_of_access (hcrypto : crypto.Lawful)
    (hanswers : ∀ a ∈ answers, RightAnswer crypto users pre a) (hgenuine : Genuine crypto answers r)
    {now : Nat} {token : String} {payload : JwtPayload} (hpresented : r.accessToken? = some (now, token))
    (hverify : crypto.verifyAccess now token = some payload) :
    payload.role = .admin → Administers crypto users pre payload.sub := by
  have hissued := hgenuine.1 (now, token) hpresented (by simp [hverify])
  obtain ⟨tokens, htokens, rfl⟩ := List.mem_map.mp hissued
  obtain ⟨_, sub, role, _, deviceId, sid, haccess, -, hadmin, -⟩ :=
    hanswers _ (mem_issued htokens) tokens rfl
  rw [haccess] at hverify
  rw [hcrypto.access_payload hverify]
  exact hadmin

theorem minted_of_refresh (hcrypto : crypto.Lawful)
    (hanswers : ∀ a ∈ answers, RightAnswer crypto users pre a) (hgenuine : Genuine crypto answers r)
    {now : Nat} {token : String} {payload : JwtPayload} (hpresented : r.refreshToken? = some (now, token))
    (hverify : crypto.verifyRefresh now token = some payload) :
    LoggedIn crypto users pre payload.sub payload.deviceId := by
  have hissued := hgenuine.2 (now, token) hpresented (by simp [hverify])
  obtain ⟨tokens, htokens, rfl⟩ := List.mem_map.mp hissued
  obtain ⟨_, sub, _, role', deviceId, sid, -, hrefresh, -, hlogin⟩ :=
    hanswers _ (mem_issued htokens) tokens rfl
  rw [hrefresh] at hverify
  rw [hcrypto.refresh_payload hverify]
  exact hlogin

/-- Whatever has been given away before, a request that arrives now keeps the documents right and
    comes to a right answer. -/
theorem keeps_handle (hcrypto : crypto.Lawful)
    (hanswers : ∀ a ∈ answers, RightAnswer crypto users pre a) (hgenuine : Genuine crypto answers r)
    (hpre : pre ++ [.arrive r] <+: es) :
    Fallible.Keeps (Store.AllUsers (Justified crypto users es)) (r.handle crypto)
      fun answer => ∀ tokens, answer = some tokens → Minted crypto users es tokens := by
  have harrives : .arrive r ∈ es := hpre.subset (List.mem_append_right pre (List.mem_singleton_self _))
  have hearlier : pre <+: es := (List.prefix_append pre [.arrive r]).trans hpre
  -- the requests that answer without tokens
  have hnone {p : Db PUnit} (h : Fallible.Keeps (Store.AllUsers (Justified crypto users es)) p
      fun _ => True) : Fallible.Keeps (Store.AllUsers (Justified crypto users es))
        (do p; return none) fun answer => ∀ tokens : Tokens, answer = some tokens →
          Minted crypto users es tokens :=
    .bind h fun _ _ => .pure fun tokens hnone => by cases hnone
  cases r with
  | register registerDto id salt now =>
    refine .bind (keeps_register fun params hstatus hemail hpassword => ?_)
      fun _ _ => .pure fun tokens hnone => by cases hnone
    have haddress : AddressOf users es id params.email := hemail ▸ .registered harrives
    have hfrom : PasswordFrom crypto users es id params.passwordHash := hpassword ▸ .registered harrives
    refine ⟨by rintro ⟨⟩, fun happroved => ?_, haddress, hfrom, by rintro _ ⟨⟩⟩
    simp [CreateUserParams.document, hstatus] at happroved
  | forgotPassword email expiryMinutes now token salt homepageUrl transport =>
    exact hnone (keeps_requestPasswordReset harrives)
  | resetPassword token newPassword salt now => exact hnone (keeps_resetPassword harrives)
  | login loginDto draw =>
    refine .bind (keeps_login permits_justified fun _ _ _ _ h => h.setSession _ _ _)
      fun response hresponse => .pure ?_
    obtain ⟨user, hright, hemail, hpassword, rfl⟩ := hresponse
    rintro _ ⟨⟩
    exact ⟨draw.now, user.id, user.role, user.role, loginDto.deviceId, draw.sid, rfl, rfl,
      hright.admin, loginDto, draw, user.passwordHash, harrives, rfl, hemail ▸ hright.address,
      hpassword, hright.password⟩
  | refresh refreshToken draw =>
    refine .bind (Q := Minted crypto users es) ?_ fun tokens htokens => .pure ?_
    · unfold AuthController.refresh
      refine Fallible.Keeps.guard fun htruthy => ?_
      refine .bind (keeps_refresh permits_justified fun _ _ _ _ h => h.setSession _ _ _)
        fun response hresponse => .pure ?_
      obtain ⟨payload, user, hverify, hright, hid, rfl⟩ := hresponse
      have hpresented : (UserRequest.refresh refreshToken draw).refreshToken? =
          some (draw.now, refreshToken.getD "") := by
        cases refreshToken with
        | none => exact absurd rfl htruthy
        | some token => rfl
      have hlogin := minted_of_refresh hcrypto hanswers hgenuine hpresented hverify
      exact ⟨draw.now, payload.sub, user.role, payload.role, payload.deviceId, draw.sid,
        congrArg (fun sub => crypto.signAccess draw.now ⟨sub, user.role, payload.deviceId, draw.sid⟩) hid,
        rfl, fun hrole => hid ▸ hright.admin hrole, hlogin.later hearlier⟩
    · rintro _ ⟨⟩
      exact htokens
  | me authorization now =>
    refine .bind (keeps_approvedUser permits_justified crypto authorization now) fun authUser _ => ?_
    exact .bind (keeps_findById authUser.userId) fun _ _ => .pure fun tokens hnone => by cases hnone
  | logout authorization now =>
    refine .bind (keeps_approvedUser permits_justified crypto authorization now) fun authUser _ => ?_
    exact hnone (keeps_of_rewrites (.logout permits_justified))
  | updateMe authorization now updateDto =>
    refine .bind (keeps_approvedUser permits_justified crypto authorization now) fun authUser _ => ?_
    exact .bind (keeps_of_rewrites (.updateMe permits_justified)) fun _ _ =>
      .pure fun tokens hnone => by cases hnone
  | admin authorization now action =>
    refine .bind (keeps_adminUser permits_justified crypto authorization now) fun authUser hauth => ?_
    obtain ⟨token, payload, htoken, hverify, hrole⟩ := hauth
    have hpresented : (UserRequest.admin authorization now action).accessToken? = some (now, token) :=
      congrArg (Option.map fun token => (now, token)) htoken
    have hby := minted_of_access hcrypto hanswers hgenuine hpresented hverify hrole
    exact hnone (keeps_action ⟨pre, authorization, now, token, payload, hpre, htoken, hverify, hrole, hby⟩
      authUser)

end Requests

/-! ## Main results -/

section Runs

variable (crypto : Crypto) (users : List User) (es : List Event) {w : World}

theorem sound_of_exec (hcrypto : crypto.Lawful)
    (hrun : Trace.exec (step crypto) (World.start users) es = some w) :
    Service.Sound (RightStore crypto users) (RightAnswer crypto users) es w := by
  refine Service.exec_sound growing_rightStore growing_rightAnswer (fun user huser => ?_)
    (fun pre r answers hanswers hgenuine es' hpre => ?_) hrun
  · exact ⟨.first huser, .first huser, .first huser, .first huser, fun _ => .first huser⟩
  · refine (keeps_handle hcrypto hanswers hgenuine hpre).mono fun answer hanswer tokens htokens => ?_
    exact hanswer (some tokens) htokens tokens rfl

/-- Nobody becomes an administrator, and nobody is approved, without an administrator from before. -/
theorem privileges_traced (hcrypto : crypto.Lawful)
    (hrun : Trace.exec (step crypto) (World.start users) es = some w) :
    ∀ user ∈ w.store.users,
      (user.role = .admin → Administers crypto users es user.id) ∧
      (user.status = .approved → Approved crypto users es user.id) :=
  fun user huser =>
    have hright := (sound_of_exec crypto users es hcrypto hrun).store user huser
    ⟨hright.admin, hright.approved⟩

/-- A password is the first one, the one of the registration, one that was set with a reset token
    of the user, or one that an administrator has set. -/
theorem passwords_traced (hcrypto : crypto.Lawful)
    (hrun : Trace.exec (step crypto) (World.start users) es = some w) :
    ∀ user ∈ w.store.users, PasswordFrom crypto users es user.id user.passwordHash :=
  fun user huser => ((sound_of_exec crypto users es hcrypto hrun).store user huser).password

/-- Tokens are issued only for a user who has logged in with a password of the user, and for the
    device of that login. -/
theorem tokens_traced (hcrypto : crypto.Lawful)
    (hrun : Trace.exec (step crypto) (World.start users) es = some w) :
    ∀ tokens ∈ issued w.answers, Minted crypto users es tokens :=
  fun tokens htokens =>
    (sound_of_exec crypto users es hcrypto hrun).answers _ (mem_issued htokens) tokens rfl

end Runs

/-! ## A run -/

def manager : User :=
  { resident with
    id := "u0"
    email := "manager@example.com"
    role := .admin }

def managerToken : Option String :=
  some ("Bearer " ++ Crypto.plain.signAccess 0 ⟨"u0", .admin, "desk", "s1"⟩)

def newcomer : RegisterDto where
  email := "dana@example.com"
  password := "secret-1"
  firstName := "Dana"
  lastName := "Levi"
  phone := "0501234567"
  apartmentNumber := 4
  floor := 2

/-- A newcomer registers while the manager logs in; two requests of the manager, interleaved, make
    the newcomer an approved administrator, who then logs in. -/
def sampleEvents : List Event :=
  [.arrive (.login ⟨"manager@example.com", "password", "desk"⟩ ⟨0, "s1", "salt"⟩),
    .arrive (.register newcomer "u1" "salt" 0), .act 0, .act 1, .act 0, .act 1, .act 0, .act 0,
    .answer 0, .answer 0,
    .arrive (.admin managerToken 0 (.updateUserRole "u1" .admin)),
    .arrive (.admin managerToken 0 (.approveAllPendingUsers 5 [])),
    .act 0, .act 1, .act 0, .act 1, .act 0, .act 1, .act 0, .act 1, .act 0, .act 1, .act 1, .act 1,
    .act 1, .answer 1, .answer 0,
    .arrive (.login ⟨"dana@example.com", "secret-1", "phone"⟩ ⟨9, "s2", "salt"⟩),
    .act 0, .act 0, .act 0, .act 0, .answer 0]

theorem sampleEvents_run :
    (Trace.exec (step Crypto.plain) (World.start [manager]) sampleEvents).map (fun w =>
      (w.store.users.map fun user => (user.id, user.role, user.status), (issued w.answers).length)) =
    some ([("u0", .admin, .approved), ("u1", .admin, .approved)], 2) := by
  decide +kernel

theorem privileges_traced_sampleEvents :
    ∃ w, Trace.exec (step Crypto.plain) (World.start [manager]) sampleEvents = some w ∧
      (∃ user ∈ w.store.users, user.id = "u1" ∧ user.role = .admin) ∧
      Administers Crypto.plain [manager] sampleEvents "u1" ∧
      Approved Crypto.plain [manager] sampleEvents "u1" := by
  obtain ⟨w, hrun, hw⟩ := Option.map_eq_some_iff.mp sampleEvents_run
  have husers : ("u1", UserRole.admin, UserStatus.approved) ∈
      w.store.users.map fun user => (user.id, user.role, user.status) := by
    rw [(Prod.mk.inj hw).1]
    decide
  obtain ⟨user, huser, hfields⟩ := List.mem_map.mp husers
  obtain ⟨hid, hrole, hstatus⟩ := by simpa using hfields
  obtain ⟨hadmin, happroved⟩ :=
    privileges_traced Crypto.plain [manager] sampleEvents Crypto.plain_lawful hrun user huser
  exact ⟨w, hrun, ⟨user, huser, hid, hrole⟩, hid ▸ hadmin hrole, hid ▸ happroved hstatus⟩

theorem passwords_traced_sampleEvents :
    ∃ w, Trace.exec (step Crypto.plain) (World.start [manager]) sampleEvents = some w ∧
      w.store.users.length = 2 ∧ ∀ user ∈ w.store.users,
        PasswordFrom Crypto.plain [manager] sampleEvents user.id user.passwordHash := by
  obtain ⟨w, hrun, hw⟩ := Option.map_eq_some_iff.mp sampleEvents_run
  refine ⟨w, hrun, ?_,
    passwords_traced Crypto.plain [manager] sampleEvents Crypto.plain_lawful hrun⟩
  have hlength := congrArg (fun r => r.1.length) hw
  simpa using hlength

theorem tokens_traced_sampleEvents :
    ∃ w, Trace.exec (step Crypto.plain) (World.start [manager]) sampleEvents = some w ∧
      (issued w.answers).length = 2 ∧
      ∀ tokens ∈ issued w.answers, Minted Crypto.plain [manager] sampleEvents tokens := by
  obtain ⟨w, hrun, hw⟩ := Option.map_eq_some_iff.mp sampleEvents_run
  exact ⟨w, hrun, congrArg Prod.snd hw,
    tokens_traced Crypto.plain [manager] sampleEvents Crypto.plain_lawful hrun⟩

end Backend.Privileges
