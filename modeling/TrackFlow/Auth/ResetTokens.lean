import TrackFlow.Auth.WellFormed

/-!
# Reset tokens

Any clients send requests one after another, with any tokens that they may have seen. `Inv` ties the
e-mails to the records of their tokens.

- `resetPasswordEndpoint_spec`: what a reset that succeeds has found and done;
- `forgotPassword_spec`: a request for a token changes nothing, or records one and hands it over; if
  that fails, the record is marked as used or the token has expired;
- `reset_tokens_confined`: a token that was issued resets a password at most once, that of its user,
  not after its expiry, and not if its delivery failed.
-/

namespace TrackFlow.Auth

open TrackFlow.Python Raising

variable {env : Env}

/-! ## Requests -/

/-- A request: one of the operations on users, a login, or a request for a reset token. -/
inductive Request
  | user (op : UserOp)
  | login (now : Int) (username : String) (verified : Except AuthError Bool)
  | forgot (clock : Clock) (email jti : String) (delivery : Delivery)

namespace Request

/-- What a request does. -/
def exec (env : Env) : Request → Operation Unit
  | user op => op.exec env
  | login now username verified => do let _ ← Auth.login env now username verified
  | forgot clock email jti delivery => forgotPassword env clock email jti delivery

/-- The token that a request presents. -/
def token : Request → Option Token
  | user (.updateUser _ token _ _) => some token
  | user (.deleteUser _ token _) => some token
  | user (.updateMyProfile _ token _ _) => some token
  | user (.changePassword _ token _ _) => some token
  | user (.resetPassword _ token _) => some token
  | _ => none

/-- The times that a request reads the clock at. -/
def times : Request → List Int
  | user (.updateUser now _ _ _) => [now]
  | user (.deleteUser now _ _) => [now]
  | user (.updateMyProfile now _ _ _) => [now]
  | user (.changePassword now _ _ _) => [now]
  | user (.resetPassword clock _ _) => [clock.first, clock.second, clock.third]
  | login now _ _ => [now]
  | forgot clock _ _ _ => [clock.first, clock.second, clock.third]
  | user _ => []

end Request

/-- A reset of a password: the token, and the time that it was checked at. -/
structure Reset where
  claims : Claims
  at_ : Int

/-- The reset that a request makes in a store. -/
def Request.reset (env : Env) (db : AuthDb) : Request → Option Reset
  | .user (.resetPassword clock (.signed claims) hashed) =>
    (resetPasswordEndpoint env clock (.signed claims) hashed db).1.toOption.map fun _ =>
      ⟨claims, clock.second⟩
  | _ => none

/-- Claims that the secret key has signed: those of access tokens, and those that were handed over
by e-mail. -/
def Signed (db : AuthDb) (claims : Claims) : Prop :=
  claims.type = some "access" ∨ ∃ m ∈ db.mails, m.token = claims

/-- What a request may bring: time goes on, only signed claims pass for signed, and a token has an
identifier of its own. -/
structure Admissible (env : Env) (db : AuthDb) (now : Int) (req : Request) : Prop where
  time : List.IsChain (· ≤ ·) (now :: req.times)
  signed : ∀ claims, req.token = some (.signed claims) → Signed db claims
  fresh : ∀ clock email jti delivery, req = .forgot clock email jti delivery →
    db.findResetToken (env.hashJti jti) = none

/-- Requests one after another, from a store without reset tokens, with the resets so far. -/
inductive Run (env : Env) : AuthDb → Int → List Reset → Prop
  | start {db : AuthDb} {now : Int} : db.resetTokens = [] → db.mails = [] → Run env db now []
  | step {db : AuthDb} {now : Int} {log : List Reset} {req : Request} :
      Run env db now log → Admissible env db now req →
      Run env (req.exec env db).2 ((now :: req.times).getLast (List.cons_ne_nil _ _))
        (log ++ (req.reset env db).toList)

/-! ## Operations that leave the tokens alone -/

/-- The records of tokens and the e-mails are those of `db`. -/
def SameTokens (db s : AuthDb) : Prop := s.resetTokens = db.resetTokens ∧ s.mails = db.mails

section Same

variable {db : AuthDb}

theorem getCurrentUser_same (now : Int) (token : Token) :
    Preserves (SameTokens db) (getCurrentUser env now token) := by
  intro s hs
  refine post_mono (fun _ s' h => ?_) (getCurrentUser_reads now token)
  rw [h]
  exact hs

theorem getUserById_same (userId : String) : Preserves (SameTokens db) (getUserById env userId) := by
  refine Preserves.get.bind fun s => ?_
  split
  · exact Preserves.pure _
  · exact (Preserves.ofExcept _).bind fun _ => Preserves.pure _

theorem answering_same {α : Type} {m : Operation α} (status : Nat) (h : Preserves (SameTokens db) m) :
    Preserves (SameTokens db) (answering status m) := by
  refine h.tryCatch fun e => ?_
  cases e <;> exact Preserves.raise _

theorem createUser_same (payload : UserCreate) (id createdAt : String) (hashed : Except AuthError String) :
    Preserves (SameTokens db) (createUser env payload id createdAt hashed) := by
  refine Preserves.get.bind fun _ => (Preserves.raiseIf _ _).bind fun _ =>
      (Preserves.ofExcept _).bind fun _ => ?_
  exact (Preserves.ofExcept _).bind fun _ => Preserves.bind (Preserves.modify fun _ h => h) fun _ =>
    Preserves.pure _

theorem createProfile_same (payload : ProfileCreate) (id : String) :
    Preserves (SameTokens db) (createProfile payload id) := by
  refine Preserves.get.bind fun _ => (Preserves.raiseIf _ _).bind fun _ =>
      (Preserves.raiseIf _ _).bind fun _ => ?_
  exact Preserves.bind (Preserves.modify fun _ h => h) fun _ => Preserves.pure _

theorem deleteUser_same (userId : String) : Preserves (SameTokens db) (deleteUser userId) := by
  refine Preserves.bind (Preserves.modify fun s h => ?_) fun _ => Preserves.modify fun _ h => h
  split <;> exact h

theorem updateUser_same (userId : String) (payload : UserUpdate) :
    Preserves (SameTokens db) (updateUser env userId payload) := by
  refine Preserves.get.bind fun _ => (Preserves.raiseIf _ _).bind fun _ =>
      (Preserves.raiseIf _ _).bind fun _ => ?_
  refine Preserves.bind (Preserves.modify fun _ h => h) fun _ => Preserves.get.bind fun _ => ?_
  split
  · exact (Preserves.ofExcept _).bind fun _ => Preserves.pure _
  · exact Preserves.raise _

theorem updateProfile_same (userId : String) (payload : ProfileUpdate) :
    Preserves (SameTokens db) (updateProfile userId payload) := by
  refine Preserves.get.bind fun _ => (Preserves.raiseIf _ _).bind fun _ => ?_
  refine Preserves.bind (Preserves.modify fun _ h => h) fun _ => Preserves.get.bind fun _ => ?_
  split
  · exact Preserves.pure _
  · exact Preserves.raise _

theorem changePassword_same (userId : String) (verified : Except AuthError Bool)
    (hashed : Except AuthError String) :
    Preserves (SameTokens db) (changePassword env userId verified hashed) := by
  refine Preserves.get.bind fun _ => ?_
  split
  · exact Preserves.raise _
  · refine (Preserves.ofExcept _).bind fun _ => (Preserves.ofExcept _).bind fun _ =>
      (Preserves.raiseIf _ _).bind fun _ => ?_
    exact (Preserves.ofExcept _).bind fun _ => Preserves.modify fun _ h => h

theorem registerUser_same (payload : UserRegister) (userId profileId createdAt : String)
    (hashed : Except AuthError String) :
    Preserves (SameTokens db) (registerUser env payload userId profileId createdAt hashed) := by
  refine (answering_same 409 (createUser_same _ _ _ _)).bind fun user => ?_
  split
  · refine (createProfile_same _ _).attempt.bind fun r => ?_
    split
    · exact Preserves.pure _
    · exact (deleteUser_same _).attempt.bind fun _ => Preserves.raise _
    · exact Preserves.raise _
  · exact Preserves.pure _

/-- No operation on users but a reset of a password touches the tokens. -/
theorem userOp_same {op : UserOp} (hop : ∀ clock token hashed, op ≠ .resetPassword clock token hashed) :
    Preserves (SameTokens db) (op.exec env) := by
  cases op with
  | register payload userId profileId createdAt hashed => exact registerUser_same _ _ _ _ _
  | updateUser now token userId payload =>
    refine Preserves.bind ((getCurrentUser_same now token).bind fun _ => ?_) fun _ => Preserves.pure _
    refine (Preserves.raiseIf _ _).bind fun _ => (Preserves.raiseIf _ _).bind fun _ =>
      (Preserves.raiseIf _ _).bind fun _ => ?_
    refine (getUserById_same userId).bind fun found => ?_
    split
    · exact Preserves.raise _
    · exact answering_same 409 (updateUser_same userId payload)
  | deleteUser now token userId =>
    refine (getCurrentUser_same now token).bind fun _ => (Preserves.raiseIf _ _).bind fun _ => ?_
    refine (getUserById_same userId).bind fun found => ?_
    split
    · exact Preserves.raise _
    · exact deleteUser_same userId
  | createProfile payload profileId =>
      exact (createProfile_same payload profileId).bind fun _ => Preserves.pure _
  | updateProfile userId payload => exact (updateProfile_same userId payload).bind fun _ => Preserves.pure _
  | deleteProfile userId => exact Preserves.modify fun _ h => h
  | updateMyProfile now token payload profileId =>
    refine Preserves.bind ((getCurrentUser_same now token).bind fun _ => Preserves.get.bind fun _ =>
        ?_) fun _ => Preserves.pure _
    split
    · exact answering_same 400 (createProfile_same _ _)
    · exact answering_same 404 (updateProfile_same _ _)
  | changePassword now token verified hashed =>
    exact (getCurrentUser_same now token).bind fun _ => answering_same 400 (changePassword_same _ _ _)
  | resetPassword clock token hashed => exact absurd rfl (hop clock token hashed)

theorem login_same (now : Int) (username : String) (verified : Except AuthError Bool) :
    Preserves (SameTokens db) (login env now username verified) := by
  refine Preserves.bind (Preserves.get.bind fun _ => ?_) fun user => ?_
  · split
    · exact Preserves.pure _
    · exact (Preserves.ofExcept _).bind fun _ => Preserves.pure _
  · split
    · exact Preserves.raise _
    · refine (Preserves.ofExcept _).bind fun _ => (Preserves.raiseIf _ _).bind fun _ =>
        (Preserves.raiseIf _ _).bind fun _ => ?_
      exact Preserves.pure _

end Same

/-! ## Records -/

section Records

variable {db : AuthDb}

/-- A record is found behind the others, if none of them has its hash. -/
theorem find_append (r : ResetTokenDoc) (mails : List Mail) (h : String) :
    AuthDb.findResetToken { db with resetTokens := db.resetTokens ++ [r], mails := mails } h =
      (db.findResetToken h).or (if r.jtiHash = h then some r else none) := by
  unfold AuthDb.findResetToken
  rw [List.find?_append, List.find?_singleton]
  simp

theorem find_markUsed (key h : String) : (db.markUsed key).findResetToken h =
    (db.findResetToken h).map fun r => if r.jtiHash = key then { r with used := true } else r := by
  unfold AuthDb.findResetToken AuthDb.markUsed
  rw [List.find?_map]
  have hpred : ((fun d : ResetTokenDoc => decide (d.jtiHash = h)) ∘
      fun d => if d.jtiHash = key then { d with used := true } else d) = fun d =>
        decide (d.jtiHash = h) := by
    funext d
    simp only [Function.comp_apply]
    split <;> rfl
  rw [hpred]

/-- A hash that no record has marks nothing but what comes behind. -/
theorem markUsed_append {r : ResetTokenDoc} {mails : List Mail}
    (hfresh : db.findResetToken r.jtiHash = none) :
    AuthDb.markUsed { db with resetTokens := db.resetTokens ++ [r], mails := mails } r.jtiHash =
      { db with resetTokens := db.resetTokens ++ [{ r with used := true }], mails := mails } := by
  unfold AuthDb.markUsed
  simp only [List.map_append, List.map_singleton, if_true]
  congr 2
  refine List.map_congr_left (g := id) (fun d hd => ?_) |>.trans (List.map_id _)
  have hno := List.find?_eq_none.1 hfresh d hd
  exact if_neg (by simpa using hno)

end Records

/-! ## Resets -/

section Resets

variable {s : AuthDb}

theorem decodePasswordResetToken_ok {now : Int} {token : Token} {claims : Claims}
    (h : decodePasswordResetToken now token = .ok claims) :
    token = .signed claims ∧ claims.type = some "password_reset" ∧ claims.jti.isSome = true ∧
      seconds now ≤ claims.exp := by
  unfold decodePasswordResetToken at h
  obtain ⟨claims', hdecode, h⟩ := bind_ok h
  unfold jwtDecode at hdecode
  cases token with
  | other text => cases hdecode
  | signed c =>
    dsimp only at hdecode
    split at hdecode
    · cases hdecode
    · rename_i hexp
      obtain rfl := Except.ok.inj hdecode
      simp only [bind, Except.bind, pure, Except.pure, throw, throwThe, MonadExceptOf.throw] at h
      split at h
      · cases h
      · rename_i htype
        split at h
        · cases h
        · rename_i hjti
          obtain rfl := Except.ok.inj h
          exact ⟨rfl, not_not.1 htype, Option.isSome_iff_ne_none.2 (by simpa using hjti), by omega⟩

theorem decodeResetToken_spec (now : Int) (token : Token) :
    Post (decodeResetToken now token) (fun r s' => s' = s ∧
    ∀ claims, r = .ok claims → decodePasswordResetToken now token = .ok claims) s := by
  unfold decodeResetToken
  split
  · exact post_raise ⟨rfl, fun _ h => (by cases h)⟩
  · rename_i claims hdecode
    refine post_pure ⟨rfl, fun _ h => ?_⟩
    obtain rfl := Except.ok.inj h
    exact hdecode

/-- What a token that passes the validation is. -/
structure Passes (env : Env) (s : AuthDb) (clock : Clock) (token : Token) (claims : Claims)
    (jti userId : String) : Prop where
  signed : token = .signed claims
  type : claims.type = some "password_reset"
  id : claims.jti = some jti
  sub : claims.sub = some userId
  expiry : seconds clock.first ≤ claims.exp
  record : ∃ r, s.findResetToken (env.hashJti jti) = some r ∧ r.used = false ∧ clock.second ≤ r.expiresAt

theorem validatePasswordResetToken_spec (clock : Clock) (token : Token) :
    Post (validatePasswordResetToken env clock.first clock.second token) (fun r s' => s' = s ∧
      ∀ userId, r = .ok userId → ∃ claims jti, Passes env s clock token claims jti userId) s := by
  unfold validatePasswordResetToken
  refine post_seq (decodeResetToken_spec _ token) (fun claims s' h => ?_) (fun e s' h =>
      ⟨h.1, fun _ h => (by cases h)⟩)
  obtain ⟨rfl, hdecode⟩ := h
  obtain ⟨htoken, htype, -, hexp⟩ := decodePasswordResetToken_ok (hdecode claims rfl)
  split
  · rename_i jti userId hjti hsub
    refine post_get_seq ?_
    split
    · exact post_raise ⟨rfl, fun _ h => (by cases h)⟩
    · rename_i record hrecord
      refine post_raiseIf_seq (fun _ => ⟨rfl, fun _ h => (by cases h)⟩) fun hused => ?_
      refine post_raiseIf_seq (fun _ => ⟨rfl, fun _ h => (by cases h)⟩) fun hexpired => ?_
      refine post_pure ⟨rfl, fun _ h => ?_⟩
      obtain rfl := Except.ok.inj h
      exact ⟨claims, jti, htoken, htype, hjti, hsub, hexp, record, hrecord, by simpa using hused, by omega⟩
  · exact post_raise ⟨rfl, fun _ h => (by cases h)⟩

/-- The record of a signed token is marked, or the token has expired or has no record. -/
theorem invalidate_spec {now : Int} {claims : Claims} {jti : String} (hjti : claims.jti = some jti) :
    Post (invalidatePasswordResetToken env now (.signed claims)) (fun r s' =>
      (r = .ok () → s' = s.markUsed (env.hashJti jti)) ∧ (∀ e, r = .error e → s' = s ∧
        (claims.type = some "password_reset" → (s.findResetToken (env.hashJti jti)).isSome = true →
          claims.exp < seconds now))) s := by
  unfold invalidatePasswordResetToken decodeResetToken
  cases hdecode : decodePasswordResetToken now (.signed claims) with
  | error e =>
    refine post_raise_seq ⟨fun h => (by cases h), fun _ _ => ⟨rfl, fun htype _ => ?_⟩⟩
    by_contra hno
    have hok : decodePasswordResetToken now (.signed claims) = .ok claims := by
      unfold decodePasswordResetToken jwtDecode
      simp [htype, hjti, hno, bind, Except.bind, pure, Except.pure]
    rw [hok] at hdecode
    cases hdecode
  | ok claims' =>
    obtain rfl : claims' = claims := by
      have htoken := (decodePasswordResetToken_ok hdecode).1
      injection htoken with h
      exact h.symm
    refine post_bind (post_pure ?_)
    unfold andThen
    dsimp only
    rw [hjti]
    refine post_get_seq (post_raiseIf_seq (fun hno => ?_) fun _ =>
        post_modify ⟨fun _ => rfl, fun _ h => (by cases h)⟩)
    refine ⟨fun h => (by cases h), fun _ _ => ⟨rfl, fun _ hsome => ?_⟩⟩
    rw [Option.isNone_iff_eq_none] at hno
    rw [hno] at hsome
    cases hsome

/-- What a reset has found and done. -/
structure Redeemed (env : Env) (s : AuthDb) (clock : Clock) (token : Token) (s' : AuthDb) : Prop where
  redeems : ∃ claims jti userId hash, Passes env s clock token claims jti userId ∧
    s' = (s.markUsed (env.hashJti jti)).updateUsers userId (UserDoc.withPassword hash)

theorem resetPassword_spec (clock : Clock) (token : Token) (hashed : Except AuthError String) :
    Post (resetPassword env clock token hashed) (fun r s' => (∀ e, r = .error e → s' = s) ∧
      (r = .ok () → Redeemed env s clock token s')) s := by
  unfold resetPassword
  have hfails : ∀ e : AuthError, (∀ e', (.error e : Except AuthError Unit) = .error e' → s = s) ∧
      ((.error e : Except AuthError Unit) = .ok () → Redeemed env s clock token s) :=
    fun e => ⟨fun _ _ => rfl, fun h => (by cases h)⟩
  refine post_seq (validatePasswordResetToken_spec clock token) (fun userId s' h => ?_) (fun e s' h => ?_)
  · obtain ⟨rfl, hpasses⟩ := h
    obtain ⟨claims, jti, hp⟩ := hpasses userId rfl
    refine post_get_seq (post_raiseIf_seq (fun _ => hfails _) fun _ => ?_)
    refine post_ofExcept_seq (fun hash _ => ?_) fun e _ => hfails e
    rw [hp.signed]
    refine post_seq (invalidate_spec hp.id) (fun _ s'' h => ?_) (fun e s'' h => ?_)
    · obtain rfl := h.1 rfl
      exact post_modify ⟨fun _ h => (by cases h), fun _ => ⟨claims, jti, userId, hash, hp.signed ▸ hp, rfl⟩⟩
    · obtain ⟨rfl, -⟩ := h.2 e rfl
      exact ⟨fun _ _ => rfl, fun h => (by cases h)⟩
  · obtain ⟨rfl, -⟩ := h
    exact hfails e

theorem resetPasswordEndpoint_spec (clock : Clock) (token : Token) (hashed : Except AuthError String) :
    Post (resetPasswordEndpoint env clock token hashed) (fun r s' => (∀ e, r = .error e → s' = s) ∧
      (r = .ok () → Redeemed env s clock token s')) s := by
  refine post_tryCatch (resetPassword_spec clock token hashed) (fun _ _ h => h) (fun e s' h => ?_)
  obtain rfl := h.1 e rfl
  cases e <;> exact post_raise ⟨fun _ _ => rfl, fun h => (by cases h)⟩

/-- The record of a token that is issued. -/
def issuedRecord (env : Env) (userId jti : String) (clock : Clock) : ResetTokenDoc where
  jtiHash := env.hashJti jti
  userId := userId
  expiresAt := (createPasswordResetToken userId jti env.resetLifetime clock.first).exp * 1000000
  createdAt := clock.second

/-- A request for a token that has issued one: the record and the e-mail, and the record is marked
if the delivery has failed, unless the token has expired by then. -/
structure Issued (env : Env) (s : AuthDb) (clock : Clock) (jti : String) (delivery : Delivery)
    (s' : AuthDb) : Prop where
  issued : ∃ userId toEmail used,
    s' = { s with
      resetTokens := s.resetTokens ++ [{ issuedRecord env userId jti clock with used := used }]
      mails := s.mails ++ [⟨userId, toEmail, createPasswordResetToken userId jti env.resetLifetime
        clock.first, delivery⟩] } ∧
    (delivery ≠ .sent → used = true ∨
      (createPasswordResetToken userId jti env.resetLifetime clock.first).exp < seconds clock.third)

theorem issuePasswordResetToken_spec (userId jti : String) (clock : Clock) :
    Post (issuePasswordResetToken env userId jti clock.first clock.second) (fun r s' =>
        (∀ e, r = .error e → s' = s) ∧
      ∀ token, r = .ok token → token = createPasswordResetToken userId jti env.resetLifetime clock.first ∧
        s' = { s with resetTokens := s.resetTokens ++ [issuedRecord env userId jti clock] }) s := by
  unfold issuePasswordResetToken
  refine post_ofExcept_seq (fun claims hdecode => ?_) fun e _ => ⟨fun _ _ => rfl, fun _ h => (by cases h)⟩
  have hsigned := (decodePasswordResetToken_ok hdecode).1
  injection hsigned with hclaims
  refine post_modify_seq (post_pure ⟨fun _ h => (by cases h), fun token h => ?_⟩)
  obtain rfl := Except.ok.inj h
  rw [← hclaims]
  exact ⟨rfl, rfl⟩

theorem forgotPassword_spec (clock : Clock) (email : String) {jti : String} (delivery : Delivery)
    (hfresh : s.findResetToken (env.hashJti jti) = none) :
    Post (forgotPassword env clock email jti delivery) (fun _ s' => s' = s ∨
      Issued env s clock jti delivery s') s := by
  unfold forgotPassword
  have hreads : Post (getUserInDbByEmail env (env.case.normalize email)) (fun _ s' => s' = s) s := by
    unfold getUserInDbByEmail
    refine post_get_seq ?_
    split
    · exact post_pure rfl
    · exact post_ofExcept_seq (fun _ _ => post_pure rfl) fun _ _ => rfl
  refine post_seq hreads (fun found s' h => ?_) (fun e s' h => Or.inl h)
  obtain rfl := h
  cases found with
  | none => exact post_pure (Or.inl rfl)
  | some user =>
    refine post_attempt_seq (issuePasswordResetToken_spec user.id jti clock) fun r s'' h => ?_
    cases r with
    | error e => exact post_raise (Or.inl (h.1 e rfl))
    | ok token =>
      obtain ⟨rfl, rfl⟩ := h.2 token rfl
      refine post_modify_seq ?_
      split
      · -- The delivery has failed.
        refine post_attempt_seq (@invalidate_spec env _ clock.third _ jti rfl) fun r s'' h =>
          post_raise (Or.inr ?_)
        have hrecord := @find_append s' (issuedRecord env user.id jti clock)
          (s'.mails ++ [⟨user.id, user.email, createPasswordResetToken user.id jti env.resetLifetime
            clock.first, delivery⟩]) (env.hashJti jti)
        have hhash : (issuedRecord env user.id jti clock).jtiHash = env.hashJti jti := rfl
        rw [hfresh, Option.none_or, if_pos hhash] at hrecord
        cases r with
        | ok _ =>
          obtain rfl := h.1 rfl
          refine ⟨user.id, user.email, true, ?_, fun _ => Or.inl rfl⟩
          exact @markUsed_append s' (issuedRecord env user.id jti clock) (s'.mails ++ [⟨user.id, user.email,
            createPasswordResetToken user.id jti env.resetLifetime clock.first, delivery⟩]) hfresh
        | error e =>
          obtain ⟨rfl, hexpired⟩ := h.2 e rfl
          exact ⟨user.id, user.email, false, rfl, fun _ =>
              Or.inr (hexpired rfl (congrArg Option.isSome hrecord))⟩
      · rename_i hsent
        exact post_pure (Or.inr ⟨user.id, user.email, false, rfl, fun hno => absurd hno hsent⟩)

end Resets

/-! ## The invariant -/

/-- The record of a token is marked as used. -/
def Spent (env : Env) (db : AuthDb) (claims : Claims) : Prop :=
  ∃ jti r, claims.jti = some jti ∧ db.findResetToken (env.hashJti jti) = some r ∧ r.used = true

/-- The token of an e-mail has a record of its own. -/
structure MailOk (env : Env) (db : AuthDb) (m : Mail) : Prop where
  type : m.token.type = some "password_reset"
  sub : m.token.sub = some m.userId
  record : ∃ jti r, m.token.jti = some jti ∧ db.findResetToken (env.hashJti jti) = some r ∧
    r.expiresAt = m.token.exp * 1000000

/-- The hash of a token's identifier. -/
def key (env : Env) (claims : Claims) : Option String := claims.jti.map env.hashJti

/-- The invariant of runs. -/
structure Inv (env : Env) (db : AuthDb) (now : Int) (log : List Reset) : Prop where
  mail : ∀ m ∈ db.mails, MailOk env db m
  keys : (db.mails.map fun m => key env m.token).Nodup
  failed : ∀ m ∈ db.mails, m.delivery ≠ .sent → Spent env db m.token ∨ m.token.exp < seconds now
  spent : ∀ r ∈ log, Spent env db r.claims
  sent : ∀ r ∈ log, ∃ m ∈ db.mails, m.token = r.claims ∧ m.delivery = .sent
  time : ∀ r ∈ log, r.at_ ≤ r.claims.exp * 1000000
  once : (log.map Reset.claims).Nodup

namespace Inv

variable {db db' : AuthDb} {now now' : Int} {log : List Reset}

theorem start (htokens : db.mails = []) : Inv env db now [] where
  mail m hm := by
    rw [htokens] at hm
    exact absurd hm List.not_mem_nil
  keys := by
    rw [htokens]
    exact List.nodup_nil
  failed m hm := by
    rw [htokens] at hm
    exact absurd hm List.not_mem_nil
  spent _ hr := absurd hr List.not_mem_nil
  sent _ hr := absurd hr List.not_mem_nil
  time _ hr := absurd hr List.not_mem_nil
  once := List.nodup_nil

theorem seconds_mono {a b : Int} (h : a ≤ b) : seconds a ≤ seconds b := Int.ediv_le_ediv (by omega) h

/-- Time goes on, and the records that were there stay, but for marks. -/
theorem mono (h : Inv env db now log) (hnow : now ≤ now') (hmails : db'.mails = db.mails)
    (hrecords : ∀ k r, db.findResetToken k = some r → ∃ r', db'.findResetToken k = some r' ∧
      r'.expiresAt = r.expiresAt ∧ (r.used = true → r'.used = true)) : Inv env db' now' log := by
  have hspent : ∀ claims, Spent env db claims → Spent env db' claims := by
    rintro claims ⟨jti, r, hjti, hr, hused⟩
    obtain ⟨r', hr', -, hused'⟩ := hrecords _ r hr
    exact ⟨jti, r', hjti, hr', hused' hused⟩
  refine ⟨fun m hm => ?_, by rw [hmails]; exact h.keys, fun m hm hd => ?_, fun r hr => hspent _ (h.spent r hr),
    by rw [hmails]; exact h.sent, h.time, h.once⟩
  · rw [hmails] at hm
    obtain ⟨htype, hsub, jti, r, hjti, hr, hexp⟩ := h.mail m hm
    obtain ⟨r', hr', hexp', -⟩ := hrecords _ r hr
    exact ⟨htype, hsub, jti, r', hjti, hr', hexp'.trans hexp⟩
  · rw [hmails] at hm
    have hlater := seconds_mono hnow
    exact (h.failed m hm hd).imp (hspent _) fun hexp => by omega

theorem same (h : Inv env db now log) (hnow : now ≤ now') (hsame : SameTokens db db') :
    Inv env db' now' log := by
  refine h.mono hnow hsame.2 fun k r hr => ⟨r, ?_, rfl, id⟩
  rw [AuthDb.findResetToken, hsame.1]
  exact hr

theorem mark (h : Inv env db now log) (hnow : now ≤ now') (k : String) :
    Inv env (db.markUsed k) now' log := by
  refine h.mono hnow rfl fun k' r hr => ⟨if r.jtiHash = k then { r with used := true } else r, ?_,
    ?_, fun hused => ?_⟩
  · rw [find_markUsed, hr]
    rfl
  · split <;> rfl
  · split
    · rfl
    · exact hused

/-- A token that is issued has a record of its own, which is marked, or expired, if the delivery has
failed. -/
theorem issue (h : Inv env db now log) (hnow : now ≤ now') {r : ResetTokenDoc} {m : Mail} {jti : String}
    (hfresh : db.findResetToken (env.hashJti jti) = none) (hhash : r.jtiHash = env.hashJti jti)
    (hexp : r.expiresAt = m.token.exp * 1000000) (hjti : m.token.jti = some jti)
    (htype : m.token.type = some "password_reset") (hsub : m.token.sub = some m.userId)
    (hfailed : m.delivery ≠ .sent → r.used = true ∨ m.token.exp < seconds now') :
    Inv env { db with resetTokens := db.resetTokens ++ [r], mails := db.mails ++ [m] } now' log := by
  have hfind : ∀ k r', db.findResetToken k = some r' → AuthDb.findResetToken
      { db with resetTokens := db.resetTokens ++ [r], mails := db.mails ++ [m] } k = some r' := by
    intro k r' hr'
    rw [find_append, hr', Option.some_or]
  have hnew : AuthDb.findResetToken
      { db with resetTokens := db.resetTokens ++ [r], mails := db.mails ++ [m] }
      (env.hashJti jti) = some r := by
    rw [find_append, hfresh, Option.none_or, if_pos hhash]
  have hspent : ∀ claims, Spent env db claims →
      Spent env { db with resetTokens := db.resetTokens ++ [r], mails := db.mails ++ [m] } claims := by
    rintro claims ⟨jti', r', hjti', hr', hused⟩
    exact ⟨jti', r', hjti', hfind _ r' hr', hused⟩
  have hlater := seconds_mono hnow
  refine ⟨fun m' hm' => ?_, ?_, fun m' hm' hd => ?_, fun r' hr' => hspent _ (h.spent r' hr'),
    fun r' hr' => ?_, h.time, h.once⟩
  · rcases List.mem_append.1 hm' with hm' | hm'
    · obtain ⟨htype', hsub', jti', r', hjti', hr', hexp'⟩ := h.mail m' hm'
      exact ⟨htype', hsub', jti', r', hjti', hfind _ r' hr', hexp'⟩
    · obtain rfl := List.mem_singleton.1 hm'
      exact ⟨htype, hsub, jti, r, hjti, hnew, hexp⟩
  · simp only [List.map_append, List.map_singleton]
    refine List.nodup_append.2 ⟨h.keys, List.nodup_singleton _, fun a ha b hb hab => ?_⟩
    obtain ⟨m', hm', rfl⟩ := List.mem_map.1 ha
    obtain rfl := List.mem_singleton.1 hb
    obtain ⟨-, -, jti', r', hjti', hr', -⟩ := h.mail m' hm'
    have hsame : env.hashJti jti' = env.hashJti jti := by simpa [key, hjti, hjti'] using hab
    rw [hsame, hfresh] at hr'
    cases hr'
  · rcases List.mem_append.1 hm' with hm' | hm'
    · exact (h.failed m' hm' hd).imp (hspent _) fun hexp' => by omega
    · obtain rfl := List.mem_singleton.1 hm'
      exact (hfailed hd).imp (fun hused => ⟨jti, r, hjti, hnew, hused⟩) id
  · obtain ⟨m', hm', htoken, hsent⟩ := h.sent r' hr'
    exact ⟨m', List.mem_append_left _ hm', htoken, hsent⟩

/-- Mails with one key are one mail. -/
theorem mail_unique (h : Inv env db now log) {m m' : Mail} (hm : m ∈ db.mails) (hm' : m' ∈ db.mails)
    (htoken : m.token = m'.token) : m = m' :=
  List.inj_on_of_nodup_map h.keys hm hm' (by rw [htoken])

/-- A reset that passes is the first one with its token, which was sent and is not expired. -/
theorem redeem (h : Inv env db now log) {clock : Clock} (hnow : now ≤ clock.first) {token : Token}
    {claims : Claims} {jti userId : String} (hp : Passes env db clock token claims jti userId) {m : Mail}
    (hm : m ∈ db.mails) (htoken : m.token = claims) (hlater : now ≤ now') :
    m.userId = userId ∧ Inv env (db.markUsed (env.hashJti jti)) now' (log ++ [⟨claims, clock.second⟩]) := by
  subst htoken
  obtain ⟨r, hr, hunused, hchecked⟩ := hp.record
  obtain ⟨-, hsub, jti', r', hjti', hr', hexp⟩ := h.mail m hm
  obtain rfl : jti' = jti := Option.some.inj (hjti'.symm.trans hp.id)
  obtain rfl : r' = r := Option.some.inj (hr'.symm.trans hr)
  have hnotSpent : ¬ Spent env db m.token := by
    rintro ⟨jti'', r'', hjti'', hr'', hused⟩
    obtain rfl : jti'' = jti' := Option.some.inj (hjti''.symm.trans hp.id)
    obtain rfl : r'' = r' := Option.some.inj (hr''.symm.trans hr)
    rw [hunused] at hused
    cases hused
  have hmark := h.mark hlater (env.hashJti jti')
  refine ⟨Option.some.inj (hsub.symm.trans hp.sub), hmark.mail, hmark.keys, hmark.failed, fun r hr => ?_,
    fun r hr => ?_, fun r hr => ?_, ?_⟩
  · rcases List.mem_append.1 hr with hr | hr
    · exact hmark.spent r hr
    · obtain rfl := List.mem_singleton.1 hr
      refine ⟨jti', { r' with used := true }, hp.id, ?_, rfl⟩
      have hhash : r'.jtiHash = env.hashJti jti' := by simpa using List.find?_some hr'
      rw [find_markUsed, hr', Option.map_some, if_pos hhash]
  · rcases List.mem_append.1 hr with hr | hr
    · exact h.sent r hr
    · obtain rfl := List.mem_singleton.1 hr
      refine ⟨m, hm, rfl, ?_⟩
      by_contra hno
      rcases h.failed m hm hno with hspent | hexpired
      · exact hnotSpent hspent
      · have hpast := seconds_mono hnow
        have hvalid := hp.expiry
        omega
  · rcases List.mem_append.1 hr with hr | hr
    · exact h.time r hr
    · obtain rfl := List.mem_singleton.1 hr
      dsimp only
      omega
  · simp only [List.map_append, List.map_singleton]
    refine List.nodup_append.2 ⟨h.once, List.nodup_singleton _, fun a ha b hb hab => ?_⟩
    obtain ⟨r, hr, rfl⟩ := List.mem_map.1 ha
    obtain rfl := List.mem_singleton.1 hb
    exact hnotSpent (hab ▸ h.spent r hr)

end Inv

/-! ## Runs -/

section Runs

variable {db : AuthDb} {now : Int} {log : List Reset}

theorem le_getLast {a : Int} {l : List Int} (h : List.IsChain (· ≤ ·) (a :: l)) :
    a ≤ (a :: l).getLast (List.cons_ne_nil _ _) := by
  induction l generalizing a with
  | nil => exact le_rfl
  | cons b l ih =>
    rw [List.isChain_cons_cons] at h
    rw [List.getLast_cons_cons]
    exact h.1.trans (ih h.2)

/-- A reset that succeeds presents a token that was handed over. -/
theorem Inv.reset (h : Inv env db now log) {clock : Clock} {token : Token}
    {hashed : Except AuthError String}
    (hreq : Admissible env db now (.user (.resetPassword clock token hashed)))
    (hok : (resetPasswordEndpoint env clock token hashed db).1 = .ok ()) :
    ∃ claims hash m, token = .signed claims ∧ m ∈ db.mails ∧ m.token = claims ∧
      (resetPasswordEndpoint env clock token hashed db).2.users =
      (db.updateUsers m.userId (UserDoc.withPassword hash)).users ∧
      Inv env (resetPasswordEndpoint env clock token hashed db).2 clock.third
      (log ++ [⟨claims, clock.second⟩]) := by
  obtain ⟨claims, jti, userId, hash, hp, hdb⟩ :=
    (resetPasswordEndpoint_spec (s := db) clock token hashed).2 hok
  have htime : now ≤ clock.first ∧ clock.first ≤ clock.second ∧ clock.second ≤ clock.third := by
    simpa [Request.times] using hreq.time
  rcases hreq.signed claims (congrArg some hp.signed) with haccess | ⟨m, hm, htoken⟩
  · rw [hp.type] at haccess
    exact absurd haccess (by decide)
  · obtain ⟨huser, hinv⟩ := h.redeem htime.1 hp hm htoken (show now ≤ clock.third by omega)
    rw [hdb]
    refine ⟨claims, hash, m, hp.signed, hm, htoken, ?_, hinv.same le_rfl ⟨rfl, rfl⟩⟩
    rw [huser]
    rfl

theorem reset_of_ok {clock : Clock} {claims : Claims} {hashed : Except AuthError String}
    (h : (resetPasswordEndpoint env clock (.signed claims) hashed db).1 = .ok ()) :
    Request.reset env db (.user (.resetPassword clock (.signed claims) hashed)) =
      some ⟨claims, clock.second⟩ :=
  congrArg (fun r => (Except.toOption r).map fun _ => (⟨claims, clock.second⟩ : Reset)) h

theorem reset_of_error {clock : Clock} {token : Token} {hashed : Except AuthError String} {e : AuthError}
    (h : (resetPasswordEndpoint env clock token hashed db).1 = .error e) :
    Request.reset env db (.user (.resetPassword clock token hashed)) = none := by
  cases token with
  | signed claims => exact congrArg (fun r => (Except.toOption r).map fun _ => (⟨claims, clock.second⟩ : Reset)) h
  | other text => rfl

theorem Inv.step (h : Inv env db now log) {req : Request} (hreq : Admissible env db now req) :
    Inv env (req.exec env db).2 ((now :: req.times).getLast (List.cons_ne_nil _ _))
      (log ++ (req.reset env db).toList) := by
  have hlast := le_getLast hreq.time
  cases req with
  | login now' username verified =>
    have hsame : Preserves (SameTokens db) (Request.exec env (.login now' username verified)) :=
      Preserves.bind (login_same now' username verified) fun _ => Preserves.pure _
    have hreset : Request.reset env db (.login now' username verified) = none := rfl
    rw [hreset, Option.toList_none, List.append_nil]
    exact h.same hlast (hsame db ⟨rfl, rfl⟩)
  | forgot clock email jti delivery =>
    have hfresh := hreq.fresh clock email jti delivery rfl
    have hreset : Request.reset env db (.forgot clock email jti delivery) = none := rfl
    rw [hreset, Option.toList_none, List.append_nil]
    rcases forgotPassword_spec clock email delivery hfresh with hsame | ⟨userId, toEmail, used, hdb,
      hfailed⟩
    · exact h.same hlast (by rw [Request.exec, hsame]; exact ⟨rfl, rfl⟩)
    · rw [Request.exec, hdb]
      exact h.issue hlast hfresh rfl rfl rfl rfl rfl hfailed
  | user op =>
    by_cases hop : ∃ clock token hashed, op = .resetPassword clock token hashed
    · obtain ⟨clock, token, hashed, rfl⟩ := hop
      cases hr : (resetPasswordEndpoint env clock token hashed db).1 with
      | ok _ =>
        obtain ⟨claims, hash, m, rfl, -, -, -, hinv⟩ := h.reset hreq hr
        rw [reset_of_ok hr]
        exact hinv
      | error e =>
        have hdb := (resetPasswordEndpoint_spec (s := db) clock token hashed).1 e hr
        rw [reset_of_error hr, Option.toList_none, List.append_nil]
        refine h.same hlast ?_
        rw [Request.exec, UserOp.exec, hdb]
        exact ⟨rfl, rfl⟩
    · have hsame : SameTokens db (op.exec env db).2 :=
        userOp_same (fun clock token hashed heq => hop ⟨clock, token, hashed, heq⟩) db ⟨rfl, rfl⟩
      have hreset : Request.reset env db (.user op) = none := by
        cases op with
        | resetPassword clock token hashed => exact absurd ⟨clock, token, hashed, rfl⟩ hop
        | _ => rfl
      rw [hreset, Option.toList_none, List.append_nil]
      exact h.same hlast hsame

theorem Run.inv (h : Run env db now log) : Inv env db now log := by
  induction h with
  | start _ hmails => exact Inv.start hmails
  | step _ hreq ih => exact ih.step hreq

/-- `get_current_user` accepts no reset token. -/
theorem getCurrentUser_rejects {claims : Claims} (htype : claims.type = some "password_reset") (now : Int)
    (db : AuthDb) : getCurrentUser env now (.signed claims) db = (.error credentialsException, db) := by
  unfold getCurrentUser jwtDecode
  dsimp only
  by_cases hexp : claims.exp < seconds now
  · rw [if_pos hexp]
    rfl
  · rw [if_neg hexp]
    dsimp only
    cases claims.sub with
    | none => rfl
    | some sub =>
      refine bind_of_error ?_
      rw [htype]
      rfl

/-- `reset_password` accepts nothing but reset tokens. -/
theorem resetPassword_rejects {claims : Claims} (htype : claims.type ≠ some "password_reset")
    (clock : Clock)
    (hashed : Except AuthError String) (db : AuthDb) :
    (∃ e, (resetPasswordEndpoint env clock (.signed claims) hashed db).1 = .error e) ∧
      (resetPasswordEndpoint env clock (.signed claims) hashed db).2 = db := by
  have hspec := @resetPasswordEndpoint_spec env db clock (.signed claims) hashed
  unfold Post at hspec
  cases hr : (resetPasswordEndpoint env clock (.signed claims) hashed db).1 with
  | error e => exact ⟨⟨e, rfl⟩, hspec.1 e hr⟩
  | ok _ =>
    obtain ⟨claims', jti, userId, hash, hp, -⟩ := hspec.2 hr
    have hsigned := hp.signed
    injection hsigned with hclaims
    exact absurd (hclaims ▸ hp.type) htype

/-- A request that presents a reset token without a reset fails, and nothing happens. -/
theorem presented_rejected {req : Request} {claims : Claims} (htoken : req.token = some (.signed claims))
    (htype : claims.type = some "password_reset") (hreset : req.reset env db = none) :
    (∃ e, (req.exec env db).1 = .error e) ∧ (req.exec env db).2 = db := by
  have hcurrent : ∀ (now : Int) {α : Type} (k : UserInDB → Operation α),
      (getCurrentUser env now (.signed claims) >>= k) db = (.error credentialsException, db) :=
    fun now _ k => bind_of_error (getCurrentUser_rejects htype now db)
  cases req with
  | login now username verified => cases htoken
  | forgot clock email jti delivery => cases htoken
  | user op =>
    cases op with
    | updateUser now token userId payload =>
      obtain rfl := Option.some.inj htoken
      have hroute : updateUserEndpoint env now (.signed claims) userId payload db =
          (.error credentialsException, db) :=
        hcurrent now _
      have hexec : UserOp.exec env (.updateUser now (.signed claims) userId payload) db = _ :=
        bind_of_error hroute
      rw [Request.exec, hexec]
      exact ⟨⟨_, rfl⟩, rfl⟩
    | deleteUser now token userId =>
      obtain rfl := Option.some.inj htoken
      have hexec : UserOp.exec env (.deleteUser now (.signed claims) userId) db = _ := hcurrent now _
      rw [Request.exec, hexec]
      exact ⟨⟨_, rfl⟩, rfl⟩
    | updateMyProfile now token payload profileId =>
      obtain rfl := Option.some.inj htoken
      have hroute : updateMyProfile env now (.signed claims) payload profileId db =
          (.error credentialsException, db) :=
        hcurrent now _
      have hexec : UserOp.exec env (.updateMyProfile now (.signed claims) payload profileId) db =
          _ := bind_of_error hroute
      rw [Request.exec, hexec]
      exact ⟨⟨_, rfl⟩, rfl⟩
    | changePassword now token verified hashed =>
      obtain rfl := Option.some.inj htoken
      have hexec : UserOp.exec env (.changePassword now (.signed claims) verified hashed) db = _ :=
        hcurrent now _
      rw [Request.exec, hexec]
      exact ⟨⟨_, rfl⟩, rfl⟩
    | resetPassword clock token hashed =>
      obtain rfl := Option.some.inj htoken
      cases hr : (resetPasswordEndpoint env clock (.signed claims) hashed db).1 with
      | ok _ =>
        rw [reset_of_ok hr] at hreset
        cases hreset
      | error e => exact ⟨⟨e, hr⟩, (resetPasswordEndpoint_spec (s := db) clock (.signed claims) hashed).1 e hr⟩
    | _ => cases htoken

/-- Over any run of requests a reset token resets a password at most once, at a time when it is not
past its expiry, and only one that was handed over without a failure. The reset changes the password
of the user that the token was issued for; a request that presents a reset token without a reset
fails and changes nothing, as `get_current_user` accepts no reset token; and `reset_password`
accepts no other token. -/
theorem reset_tokens_confined (h : Run env db now log) :
    (log.map Reset.claims).Nodup ∧ (∀ r ∈ log, r.at_ ≤ r.claims.exp * 1000000 ∧
        (∃ m ∈ db.mails, m.token = r.claims) ∧ ∀ m ∈ db.mails, m.token = r.claims → m.delivery = .sent) ∧
      (∀ req : Request, Admissible env db now req → ∀ r, req.reset env db = some r → ∃ m ∈ db.mails,
        ∃ hash, m.token = r.claims ∧ r.claims.sub = some m.userId ∧ (req.exec env db).2.users =
        (db.updateUsers m.userId (UserDoc.withPassword hash)).users) ∧
      (∀ (req : Request) (claims : Claims), req.token = some (.signed claims) →
        claims.type = some "password_reset" → req.reset env db = none →
        (∃ e, (req.exec env db).1 = .error e) ∧ (req.exec env db).2 = db) ∧
      (∀ (claims : Claims) (now' : Int), claims.type = some "password_reset" →
        getCurrentUser env now' (.signed claims) db = (.error credentialsException, db)) ∧ ∀
    (claims : Claims) (clock : Clock) (hashed : Except AuthError String),
      claims.type ≠ some "password_reset" →
      (∃ e, (resetPasswordEndpoint env clock (.signed claims) hashed db).1 = .error e) ∧
      (resetPasswordEndpoint env clock (.signed claims) hashed db).2 = db := by
  have hinv := h.inv
  refine ⟨hinv.once, fun r hr => ?_, fun req hreq r hr => ?_, fun req claims => presented_rejected,
    fun claims now' htype => getCurrentUser_rejects htype now' db,
    fun claims clock hashed htype => resetPassword_rejects htype clock hashed db⟩
  · obtain ⟨m, hm, htoken, hsent⟩ := hinv.sent r hr
    refine ⟨hinv.time r hr, ⟨m, hm, htoken⟩, fun m' hm' htoken' => ?_⟩
    rw [hinv.mail_unique hm' hm (htoken'.trans htoken.symm)]
    exact hsent
  · obtain ⟨clock, claims, hashed, rfl, hok⟩ : ∃ clock claims hashed,
        req = .user (.resetPassword clock (.signed claims) hashed) ∧
          (resetPasswordEndpoint env clock (.signed claims) hashed db).1 = .ok () := by
      unfold Request.reset at hr
      split at hr
      · rename_i clock claims hashed
        refine ⟨clock, claims, hashed, rfl, ?_⟩
        cases hres : (resetPasswordEndpoint env clock (.signed claims) hashed db).1 with
        | ok _ => rfl
        | error e =>
          have hnone := @reset_of_error env db clock (.signed claims) hashed e hres
          exact absurd (hnone.symm.trans hr) (by simp)
      · cases hr
    obtain ⟨claims', hash, m, hsigned, hm, htoken, husers, -⟩ := hinv.reset hreq hok
    injection hsigned with hclaims
    rw [reset_of_ok hok] at hr
    obtain rfl := Option.some.inj hr
    refine ⟨m, hm, hash, htoken.trans hclaims.symm, ?_, husers⟩
    rw [hclaims, ← htoken]
    exact (hinv.mail m hm).sub

end Runs

/-! ## A run -/

/-- The clock of a request that takes no time. -/
def Clock.at_ (now : Int) : Clock := ⟨now, now, now⟩

/-- Somebody asks for a reset token. -/
def exampleForgot : Request := .forgot (.at_ 0) "ana@x" "j1" .sent

/-- The token of the e-mail. -/
def exampleToken : Claims := createPasswordResetToken "u1" "j1" 1800000000 0

/-- The store with the token. -/
def exampleIssued : AuthDb :=
  { exampleDb with
    resetTokens := [⟨"j1", "u1", 1800000000, false, 0⟩]
    mails := [⟨"u1", "ana@x", exampleToken, .sent⟩] }

theorem exampleForgot_exec : exampleForgot.exec exampleEnv exampleDb = (.ok (), exampleIssued) := rfl

theorem exampleForgot_admissible : Admissible exampleEnv exampleDb 0 exampleForgot where
  time := by simp [exampleForgot, Request.times, Clock.at_]
  signed claims h := by cases h
  fresh clock email jti delivery h := rfl

/-- The token is presented half an hour later. -/
def exampleReset : Request := .user (.resetPassword (.at_ 1800000000) (.signed exampleToken) (.ok "new"))

theorem exampleReset_reset :
    exampleReset.reset exampleEnv exampleIssued = some ⟨exampleToken, 1800000000⟩ := rfl

theorem exampleReset_admissible : Admissible exampleEnv exampleIssued 0 exampleReset where
  time := by simp [exampleReset, Request.times, Clock.at_]
  signed claims h := by
    injection h with h
    injection h with h
    exact Or.inr ⟨_, List.mem_singleton.2 rfl, h⟩
  fresh clock email jti delivery h := by cases h

/-- A run with a reset at the very time that the token expires at. -/
theorem exampleRun : ∃ db now, Run exampleEnv db now [⟨exampleToken, 1800000000⟩] := by
  have h₁ : Run exampleEnv exampleDb 0 [] := .start rfl rfl
  have h₂ := h₁.step exampleForgot_admissible
  rw [exampleForgot_exec] at h₂
  have h₃ := Run.step h₂ exampleReset_admissible
  exact ⟨_, _, h₃⟩

/-- The reset of the run is the only one with its token. -/
theorem reset_tokens_confined_run : ∃ db now, Run exampleEnv db now [⟨exampleToken, 1800000000⟩] ∧
    ∀ m ∈ db.mails, m.token = exampleToken → m.delivery = .sent := by
  obtain ⟨db, now, h⟩ := exampleRun
  exact ⟨db, now, h, ((reset_tokens_confined h).2.1 _ (List.mem_singleton.2 rfl)).2.2⟩

/-- Not every reset comes before the expiry of its token: one that comes just then is accepted. -/
theorem reset_at_expiry : ¬ ∀ (env : Env) (db : AuthDb) (now : Int) (log : List Reset), Run env db now log →
    ∀ r ∈ log, r.at_ < r.claims.exp * 1000000 := by
  intro h
  obtain ⟨db, now, hrun⟩ := exampleRun
  have hlt := h exampleEnv db now _ hrun _ (List.mem_singleton.2 rfl)
  revert hlt
  decide

end TrackFlow.Auth
