-- SUMMARY: Sequential runs of password resets: a token works exactly for the user it was sent to, until it expires, is used or is replaced.
import ParkingGate.Backend.UserFrames

/-!
# Password-reset tokens

A reset link carries a random token and no user id. `resetPassword` compares the token with
the stored hashes of all users who have an unexpired one, and takes the first that matches.
The tickets say what the tokens are good for; the hashes and expiry times in the user
documents represent them, so the scan finds the one user who holds a valid ticket.
-/

namespace Backend.ResetTokens

open AuthService AdminService Collection UsersService

/-! ## Tickets -/

/-- A token that was generated for a user. -/
structure Ticket where
  token : String
  expiresAt : Nat
  used : Bool
  deriving DecidableEq, Repr

namespace Ticket

def Valid (ticket : Ticket) (token : String) (now : Nat) : Prop :=
  ticket.token = token ∧ now < ticket.expiresAt ∧ ticket.used = false

def punch (token : String) (ticket : Ticket) : Ticket :=
  if ticket.token = token then { ticket with used := true } else ticket

theorem punch_token (token : String) (ticket : Ticket) :
    (ticket.punch token).token = ticket.token := by
  unfold punch
  split <;> rfl

end Ticket

/-- The latest ticket of each user. -/
abbrev Tickets := String → Option Ticket

namespace Tickets

variable (tickets : Tickets)

/-- The token is that of the latest ticket of the user, has not expired and was not used. -/
def Admits (token : String) (now : Nat) (userId : String) : Prop :=
  ∃ ticket ∈ tickets userId, ticket.Valid token now

def issue (userId token : String) (expiresAt : Nat) : Tickets :=
  Function.update tickets userId (some { token, expiresAt, used := false })

def punch (token : String) : Tickets := fun userId => (tickets userId).map (Ticket.punch token)

variable {tickets} {userId token : String} {expiresAt : Nat}

theorem issue_self : tickets.issue userId token expiresAt userId =
    some { token, expiresAt, used := false } :=
  Function.update_self ..

theorem issue_of_ne {id : String} (h : id ≠ userId) :
    tickets.issue userId token expiresAt id = tickets id :=
  Function.update_of_ne h ..

/-- A ticket is the new one, or one of before of another user. -/
theorem of_mem_issue {id : String} {ticket : Ticket}
    (h : ticket ∈ tickets.issue userId token expiresAt id) :
    id = userId ∧ ticket.token = token ∨ ticket ∈ tickets id := by
  by_cases hid : id = userId
  · subst hid
    rw [issue_self, Option.mem_def, Option.some.injEq] at h
    exact .inl ⟨rfl, h ▸ rfl⟩
  · rw [issue_of_ne hid] at h
    exact .inr h

theorem of_mem_punch {id : String} {ticket : Ticket} (h : ticket ∈ tickets.punch token id) :
    ∃ old ∈ tickets id, ticket = old.punch token := by
  obtain ⟨old, hold, rfl⟩ := Option.map_eq_some_iff.mp h
  exact ⟨old, hold, rfl⟩

end Tickets

/-! ## Runs -/

inductive Op where
  | requestPasswordReset (email : String) (expiryMinutes : Nat) (token salt homepageUrl : String)
      (transport : Transport)
  | resetPassword (token newPassword salt : String)
  | adminResetPassword (userId : String) (dto : ResetPasswordDto) (salt : String)
  | pass (ms : Nat)

/-- The store and the clock, the tickets, and the tokens drawn so far. -/
structure World where
  store : Store
  now : Nat
  tickets : Tickets
  tokens : List String

def World.start (users : List User) : World where
  store := { Store.empty with users }
  now := 0
  tickets := fun _ => none
  tokens := []

section Semantics

variable (crypto : Crypto) (w : World)

/-- The user of the address, if there is one, gets a new ticket in place of the old one. -/
def afterRequest (email : String) (expiryMinutes : Nat) (token salt homepageUrl : String)
    (transport : Transport) : World :=
  let out := (requestPasswordReset crypto email expiryMinutes w.now token salt homepageUrl
    transport).prog.run w.store
  match w.store.users.find? (·.email == email) with
  | some user =>
    { w with
      store := out.2
      tickets := w.tickets.issue user.id token (w.now + expiryMinutes * 60 * 1000)
      tokens := token :: w.tokens }
  | none => { w with store := out.2 }

def afterReset (token newPassword salt : String) : World :=
  let out := (AuthService.resetPassword crypto token newPassword salt w.now).prog.run w.store
  match out.1 with
  | .ok _    => { w with store := out.2, tickets := w.tickets.punch token }
  | .error _ => { w with store := out.2 }

def step : Op → Option World
  | .requestPasswordReset email expiryMinutes token salt homepageUrl transport =>
    some (afterRequest crypto w email expiryMinutes token salt homepageUrl transport)
  | .resetPassword token newPassword salt =>
    some (afterReset crypto w token newPassword salt)
  | .adminResetPassword userId dto salt =>
    some { w with
      store := ((AdminService.resetPassword crypto userId dto salt).prog.run w.store).2 }
  | .pass ms => some { w with now := w.now + ms }

/-- Tokens have 64 characters and are drawn afresh. -/
def Genuine : Op → Prop
  | .requestPasswordReset _ _ token _ _ _ => token.length = 64 ∧ token ∉ w.tokens
  | _                                     => True

instance (op : Op) : Decidable (Genuine w op) := by
  unfold Genuine
  split <;> infer_instance

/-- How `resetPassword` ends, and the users it leaves. -/
structure Personal (token newPassword salt : String)
    (out : Except HttpException Unit × Store) : Prop where
  succeeds : out.1.isOk = true ↔ ∃ userId, w.tickets.Admits token w.now userId
  only : ∀ u v, w.tickets.Admits token w.now u → w.tickets.Admits token w.now v → u = v
  changes : ∀ userId, w.tickets.Admits token w.now userId →
    userId ∈ w.store.users.map User.id ∧
    out.2.users = w.store.users.map fun user =>
      if user.id = userId then user.setPassword (crypto.hash salt newPassword) else user
  unchanged : (∀ userId, ¬ w.tickets.Admits token w.now userId) → out.2 = w.store

def Redeems : Op → Prop
  | .resetPassword token newPassword salt =>
    Personal crypto w token newPassword salt
      ((AuthService.resetPassword crypto token newPassword salt w.now).prog.run w.store)
  | _ => True

end Semantics

/-- Hashes of tokens: `compare` accepts the token alone, and no hash is empty. -/
structure HashesTokens (crypto : Crypto) : Prop where
  compare : ∀ (salt : String) {token} (text : String), token.length = 64 →
    (crypto.compare text (crypto.hash salt token) = true ↔ text = token)
  hash_ne : ∀ salt text, crypto.hash salt text ≠ ""

/-! ## The documents represent the tickets -/

/-- The reset fields of a user are those of an unused ticket, or there is no hash. -/
inductive Represents (crypto : Crypto) (user : User) : Option Ticket → Prop
  | none (hhash : user.resetPasswordTokenHash = none) : Represents crypto user none
  | used {ticket} (hused : ticket.used = true) (hhash : user.resetPasswordTokenHash = none) :
      Represents crypto user (some ticket)
  | unused {ticket salt} (hused : ticket.used = false)
      (hhash : user.resetPasswordTokenHash = some (crypto.hash salt ticket.token))
      (hexpires : user.resetPasswordExpiresAt = some ticket.expiresAt) :
      Represents crypto user (some ticket)

/-- The test of a candidate. -/
def holds (crypto : Crypto) (token : String) (user : User) : Bool :=
  match user.resetPasswordTokenHash with
  | some tokenHash => truthy (some tokenHash) && crypto.compare token tokenHash
  | none           => false

theorem matchedUser_eq (crypto : Crypto) (token : String) (candidates : List User) :
    matchedUser crypto token candidates = candidates.find? (holds crypto token) := rfl

/-- The reset fields are the same. -/
def SameReset (user user' : User) : Prop :=
  user'.resetPasswordTokenHash = user.resetPasswordTokenHash ∧
    user'.resetPasswordExpiresAt = user.resetPasswordExpiresAt

theorem permits_sameReset : Permits SameReset :=
  ⟨fun _ => ⟨rfl, rfl⟩, fun _ => ⟨rfl, rfl⟩, fun _ => ⟨rfl, rfl⟩, fun _ _ _ _ _ _ => ⟨rfl, rfl⟩,
    fun _ _ => ⟨rfl, rfl⟩⟩

namespace Represents

variable {crypto : Crypto} {user user' : User} {ticket? : Option Ticket}

theorem same (h : Represents crypto user ticket?) (hsame : SameReset user user') :
    Represents crypto user' ticket? := by
  obtain ⟨hhash', hexpires'⟩ := hsame
  cases h with
  | none hhash => exact .none (hhash'.trans hhash)
  | used hused hhash => exact .used hused (hhash'.trans hhash)
  | unused hused hhash hexpires => exact .unused hused (hhash'.trans hhash) (hexpires'.trans hexpires)

/-- A user is a candidate that matches exactly if the ticket is valid. -/
theorem holds_iff (hcrypto : HashesTokens crypto) (h : Represents crypto user ticket?)
    (hlength : ∀ ticket ∈ ticket?, ticket.token.length = 64) (token : String) (now : Nat) :
    hasValidResetToken now user = true ∧ holds crypto token user = true ↔
      ∃ ticket ∈ ticket?, ticket.Valid token now := by
  cases h with
  | none hhash => simp [hasValidResetToken, hhash]
  | used hused hhash => simp [hasValidResetToken, hhash, Ticket.Valid, hused]
  | @unused ticket salt hused hhash hexpires =>
    have hcompare := hcrypto.compare salt token (hlength ticket rfl)
    have htruthy : truthy (some (crypto.hash salt ticket.token)) = true := by
      simpa [truthy] using hcrypto.hash_ne salt ticket.token
    simp only [hasValidResetToken, holds, hhash, hexpires, htruthy, hcompare, Ticket.Valid, hused,
      Option.isSome_some, Bool.true_and, decide_eq_true_eq, Option.mem_def, Option.some.injEq,
      exists_eq_left', and_true]
    exact ⟨fun ⟨hnow, htoken⟩ => ⟨htoken.symm, hnow⟩, fun ⟨htoken, hnow⟩ => ⟨hnow, htoken.symm⟩⟩

end Represents

/-! ## The invariant -/

structure Inv (crypto : Crypto) (w : World) : Prop where
  keyed : Keyed User.id w.store.users
  users : ∀ user ∈ w.store.users, Represents crypto user (w.tickets user.id)
  known : ∀ userId, ∀ ticket ∈ w.tickets userId, userId ∈ w.store.users.map User.id
  drawn : ∀ userId, ∀ ticket ∈ w.tickets userId, ticket.token ∈ w.tokens ∧ ticket.token.length = 64
  distinct : ∀ u v, ∀ ticket ∈ w.tickets u, ∀ ticket' ∈ w.tickets v,
    ticket.token = ticket'.token → u = v

section Invariant

variable {crypto : Crypto} {w w' : World}

theorem inv_start {users : List User} (hids : Keyed User.id users)
    (hnone : ∀ user ∈ users, user.resetPasswordTokenHash = none) : Inv crypto (World.start users) where
  keyed := hids
  users user huser := .none (hnone user huser)
  known := by simp [World.start]
  drawn := by simp [World.start]
  distinct := by simp [World.start]

theorem Inv.only (h : Inv crypto w) {token : String} {now : Nat} {u v : String}
    (hu : w.tickets.Admits token now u) (hv : w.tickets.Admits token now v) : u = v := by
  obtain ⟨ticket, hticket, htoken, -⟩ := hu
  obtain ⟨ticket', hticket', htoken', -⟩ := hv
  exact h.distinct u v ticket hticket ticket' hticket' (htoken.trans htoken'.symm)

/-- The user of an admitted token is the one that the scan finds. -/
theorem Inv.matchedUser_iff (hcrypto : HashesTokens crypto) (h : Inv crypto w) (token : String)
    (user : User) :
    matchedUser crypto token (w.store.users.filter (hasValidResetToken w.now)) = some user ↔
      user ∈ w.store.users ∧ w.tickets.Admits token w.now user.id := by
  have hholds : ∀ u ∈ w.store.users, (hasValidResetToken w.now u = true ∧ holds crypto token u = true ↔
      w.tickets.Admits token w.now u.id) := fun u hu =>
    (h.users u hu).holds_iff hcrypto (fun ticket hticket => (h.drawn u.id ticket hticket).2) token w.now
  rw [matchedUser_eq]
  constructor
  · intro hfind
    obtain ⟨hmem, hvalid⟩ := List.mem_filter.mp (List.mem_of_find?_eq_some hfind)
    exact ⟨hmem, (hholds user hmem).mp ⟨hvalid, List.find?_some hfind⟩⟩
  rintro ⟨huser, hadmits⟩
  obtain ⟨hvalid, hhold⟩ := (hholds user huser).mpr hadmits
  refine find?_eq_some_of_unique (List.mem_filter.mpr ⟨huser, hvalid⟩) hhold fun found hfound hmatch => ?_
  obtain ⟨hmem, hvalid'⟩ := List.mem_filter.mp hfound
  exact h.keyed.eq_of_key hmem huser (h.only ((hholds found hmem).mp ⟨hvalid', hmatch⟩) hadmits)

/-- A token that no user is found for is admitted for none. -/
theorem Inv.matchedUser_eq_none (hcrypto : HashesTokens crypto) (h : Inv crypto w) {token : String}
    (hnone : matchedUser crypto token (w.store.users.filter (hasValidResetToken w.now)) = none)
    (userId : String) : ¬ w.tickets.Admits token w.now userId := by
  intro hadmits
  have ⟨ticket, hticket, _⟩ := hadmits
  obtain ⟨user, huser, rfl⟩ := List.mem_map.mp (h.known userId ticket hticket)
  have hfound := (h.matchedUser_iff hcrypto token user).mpr ⟨huser, hadmits⟩
  rw [hnone] at hfound
  cases hfound

theorem Inv.redeems (hcrypto : HashesTokens crypto) (h : Inv crypto w)
    (token newPassword salt : String) :
    Personal crypto w token newPassword salt
      ((AuthService.resetPassword crypto token newPassword salt w.now).prog.run w.store) := by
  cases hfind : matchedUser crypto token (w.store.users.filter (hasValidResetToken w.now)) with
  | none =>
    have hnone := h.matchedUser_eq_none hcrypto hfind
    obtain ⟨e, he⟩ := resetPassword_run_none newPassword salt hfind
    rw [he]
    exact ⟨iff_of_false nofun fun ⟨userId, hadmits⟩ => hnone userId hadmits, fun _ _ => h.only,
      fun userId hadmits => absurd hadmits (hnone userId), fun _ => rfl⟩
  | some user =>
    obtain ⟨huser, hadmits⟩ := (h.matchedUser_iff hcrypto token user).mp hfind
    rw [resetPassword_run newPassword salt hfind]
    refine ⟨iff_of_true rfl ⟨user.id, hadmits⟩, fun _ _ => h.only, fun userId hother => ?_,
      fun hnone => absurd hadmits (hnone user.id)⟩
    obtain rfl := h.only hadmits hother
    exact ⟨List.mem_map_of_mem huser, h.keyed.updateOne_eq_map⟩

/-! ## The steps -/

/-- A user gets a new ticket, and the document its hash. -/
theorem Inv.issue (h : Inv crypto w) {userId token salt : String} {expiresAt : Nat} {store : Store}
    (hknown : userId ∈ w.store.users.map User.id) (hlength : token.length = 64)
    (hfresh : token ∉ w.tokens)
    (hstore : store.users =
      (w.store.modifyUser userId (User.expectReset (crypto.hash salt token) expiresAt)).users) :
    Inv crypto { w with
      store
      tickets := w.tickets.issue userId token expiresAt
      tokens := token :: w.tokens } := by
  have hids : store.users.map User.id = w.store.users.map User.id :=
    hstore ▸ map_updateOne fun _ => rfl
  refine ⟨hstore ▸ h.keyed.updateOne fun _ => rfl, fun user huser => ?_, fun id ticket hmem => ?_,
    fun id ticket hmem => ?_, fun u v ticket hu ticket' hv htoken => ?_⟩
  · rw [hstore] at huser
    rcases h.keyed.mem_updateOne.mp huser with ⟨huser, hid⟩ | ⟨old, -, rfl, rfl⟩
    · change Represents crypto user (w.tickets.issue userId token expiresAt user.id)
      rw [Tickets.issue_of_ne hid]
      exact h.users user huser
    · change Represents crypto (old.expectReset _ _) (w.tickets.issue old.id token expiresAt old.id)
      rw [Tickets.issue_self]
      exact .unused rfl rfl rfl
  · rw [hids]
    rcases Tickets.of_mem_issue hmem with ⟨rfl, -⟩ | hold
    · exact hknown
    · exact h.known id ticket hold
  · rcases Tickets.of_mem_issue hmem with ⟨-, rfl⟩ | hold
    · exact ⟨List.mem_cons_self, hlength⟩
    · exact ⟨List.mem_cons_of_mem _ (h.drawn id ticket hold).1, (h.drawn id ticket hold).2⟩
  · -- The new token is none of the old ones.
    rcases Tickets.of_mem_issue hu with ⟨rfl, hnew⟩ | hold
    · rcases Tickets.of_mem_issue hv with ⟨rfl, -⟩ | hold'
      · rfl
      · exact absurd (hnew ▸ htoken ▸ (h.drawn v ticket' hold').1) hfresh
    · rcases Tickets.of_mem_issue hv with ⟨rfl, hnew⟩ | hold'
      · exact absurd (hnew ▸ htoken ▸ (h.drawn u ticket hold).1) hfresh
      · exact h.distinct u v ticket hold ticket' hold' htoken

/-- The ticket of a user is used, and the hash leaves the document. -/
theorem Inv.punch (h : Inv crypto w) {userId token passwordHash : String}
    (hadmits : w.tickets.Admits token w.now userId) :
    Inv crypto { w with
      store := w.store.modifyUser userId (User.setPassword passwordHash)
      tickets := w.tickets.punch token } := by
  obtain ⟨admitted, hadmitted, htoken, -⟩ := hadmits
  refine ⟨h.keyed.updateOne fun _ => rfl, fun user huser => ?_, fun id ticket hmem => ?_,
    fun id ticket hmem => ?_, fun u v ticket hu ticket' hv heq => ?_⟩
  · rcases h.keyed.mem_updateOne.mp huser with ⟨huser, hid⟩ | ⟨old, -, rfl, rfl⟩
    · have hsame : w.tickets.punch token user.id = w.tickets user.id := by
        cases hticket : w.tickets user.id with
        | none => simp [Tickets.punch, hticket]
        | some ticket =>
          have hother : ticket.token ≠ token := fun heq =>
            hid (h.distinct _ _ ticket hticket admitted hadmitted (heq.trans htoken.symm))
          simp [Tickets.punch, hticket, Ticket.punch, hother]
      change Represents crypto user (w.tickets.punch token user.id)
      rw [hsame]
      exact h.users user huser
    · have hpunched : w.tickets.punch token old.id = some { admitted with used := true } := by
        simp [Tickets.punch, Option.mem_def.mp hadmitted, Ticket.punch, htoken]
      change Represents crypto (old.setPassword passwordHash) (w.tickets.punch token old.id)
      rw [hpunched]
      exact .used rfl rfl
  · obtain ⟨old, hold, -⟩ := Tickets.of_mem_punch hmem
    have hids : (w.store.modifyUser userId (User.setPassword passwordHash)).users.map User.id =
        w.store.users.map User.id := map_updateOne fun _ => rfl
    exact hids.symm ▸ h.known id old hold
  · obtain ⟨old, hold, rfl⟩ := Tickets.of_mem_punch hmem
    rw [Ticket.punch_token]
    exact h.drawn id old hold
  · obtain ⟨old, hold, rfl⟩ := Tickets.of_mem_punch hu
    obtain ⟨old', hold', rfl⟩ := Tickets.of_mem_punch hv
    rw [Ticket.punch_token, Ticket.punch_token] at heq
    exact h.distinct u v old hold old' hold' heq

theorem Inv.request (h : Inv crypto w) (email : String) (expiryMinutes : Nat) {token : String}
    (salt homepageUrl : String) (transport : Transport) (hlength : token.length = 64)
    (hfresh : token ∉ w.tokens) :
    Inv crypto (afterRequest crypto w email expiryMinutes token salt homepageUrl transport) := by
  cases hfind : w.store.users.find? (·.email == email) with
  | none =>
    have hrun := requestPasswordReset_run_none crypto expiryMinutes w.now token salt
      homepageUrl transport hfind
    simp only [afterRequest, hfind, hrun]
    exact h
  | some user =>
    obtain ⟨outbox, hrun⟩ := requestPasswordReset_run crypto expiryMinutes w.now token
      salt homepageUrl transport hfind
    simp only [afterRequest, hfind, hrun]
    exact h.issue (List.mem_map_of_mem (List.mem_of_find?_eq_some hfind)) hlength hfresh rfl

theorem Inv.reset (hcrypto : HashesTokens crypto) (h : Inv crypto w)
    (token newPassword salt : String) : Inv crypto (afterReset crypto w token newPassword salt) := by
  cases hfind : matchedUser crypto token (w.store.users.filter (hasValidResetToken w.now)) with
  | none =>
    obtain ⟨e, he⟩ := resetPassword_run_none newPassword salt hfind
    simp only [afterReset, he]
    exact h
  | some user =>
    simp only [afterReset, resetPassword_run newPassword salt hfind]
    exact h.punch ((h.matchedUser_iff hcrypto token user).mp hfind).2

/-- The administrator's reset leaves the tickets valid. -/
theorem Inv.adminReset (h : Inv crypto w) (userId : String) (dto : ResetPasswordDto)
    (salt : String) : Inv crypto { w with
      store := ((AdminService.resetPassword crypto userId dto salt).prog.run w.store).2 } := by
  have hsame : Rewrites SameReset w.store
      ((AdminService.resetPassword crypto userId dto salt).prog.run w.store).2 :=
    (RewritesOnly.adminResetPassword permits_sameReset fun _ => ⟨rfl, rfl⟩).run permits_sameReset.refl
      (fun _ _ _ h h' => ⟨h'.1.trans h.1, h'.2.trans h.2⟩) w.store
  refine ⟨hsame.keyed h.keyed, fun user' huser' => ?_, fun id ticket hticket => ?_, h.drawn, h.distinct⟩
  · obtain ⟨user, huser, hid, hreset⟩ := hsame.users user' huser'
    exact hid ▸ (h.users user huser).same hreset
  · exact hsame.ids.symm ▸ h.known id ticket hticket

theorem Inv.step (hcrypto : HashesTokens crypto) (h : Inv crypto w) {op : Op}
    (hgenuine : Genuine w op) (hstep : step crypto w op = some w') : Inv crypto w' := by
  cases op with
  | requestPasswordReset email expiryMinutes token salt homepageUrl transport =>
    obtain rfl := Option.some.inj hstep
    exact h.request email expiryMinutes salt homepageUrl transport hgenuine.1 hgenuine.2
  | resetPassword token newPassword salt =>
    obtain rfl := Option.some.inj hstep
    exact h.reset hcrypto token newPassword salt
  | adminResetPassword userId dto salt =>
    obtain rfl := Option.some.inj hstep
    exact h.adminReset userId dto salt
  | pass ms =>
    obtain rfl := Option.some.inj hstep
    exact ⟨h.keyed, h.users, h.known, h.drawn, h.distinct⟩

end Invariant

/-- In every run from users without an outstanding token, a token is good for the user it was
    last sent to, until it expires or is used, and for nothing else. -/
theorem tokens_personal (crypto : Crypto) (hcrypto : HashesTokens crypto) (users : List User)
    (hids : Keyed User.id users) (hnone : ∀ user ∈ users, user.resetPasswordTokenHash = none)
    (ops : List Op) (hgenuine : Trace.AllSteps (step crypto) Genuine (World.start users) ops) :
    Trace.AllSteps (step crypto) (Redeems crypto) (World.start users) ops := by
  refine hgenuine.imp (J := Inv crypto) (fun w op w' h _ _ => ?_)
    (fun _ _ _ h hgenuine hstep => h.step hcrypto hgenuine hstep) (inv_start hids hnone)
  cases op with
  | resetPassword token newPassword salt => exact h.redeems hcrypto token newPassword salt
  | _ => trivial

/-! ## Two users -/

/-- Hashes that can be told apart from their salt. -/
def salted : Crypto :=
  { Crypto.plain with
    hash := fun salt text => String.ofList (Crypto.field salt ++ text.toList)
    compare := fun text hashed =>
      (Crypto.takeField hashed.toList).any fun (_, rest) => rest = text.toList }

theorem salted_hashesTokens : HashesTokens salted where
  compare salt token text _ := by
    simp only [salted, String.toList_ofList, Crypto.takeField_field, Option.any_some,
      decide_eq_true_eq, String.toList_inj]
    exact eq_comm
  hash_ne salt text h := by
    have hlist := congrArg String.toList h
    simp [salted, Crypto.field] at hlist

def neighbour : User := { resident with id := "u2", email := "neighbour@example.com" }

def hexToken (c : Char) : String := String.ofList (List.replicate 64 c)

def requestOf (user : User) (token : String) : Op :=
  .requestPasswordReset user.email 60 token "salt" "https://mitzpe6-8.com" .accepts

/-- A token that is replaced, one that is used twice and one that expires. -/
theorem tokens_personal_neighbours :
    Trace.AllSteps (step salted) (Redeems salted) (World.start [resident, neighbour])
      [requestOf resident (hexToken 'a'), requestOf neighbour (hexToken 'b'),
        requestOf resident (hexToken 'c'), .resetPassword (hexToken 'a') "secret1" "salt",
        .resetPassword (hexToken 'c') "secret2" "salt", .resetPassword (hexToken 'c') "secret3" "salt",
        .pass 3600000, .resetPassword (hexToken 'b') "secret4" "salt"] :=
  tokens_personal salted salted_hashesTokens [resident, neighbour] (by decide) (by decide) _
    (by decide +kernel)

end Backend.ResetTokens
