import TrackFlow.Auth.Store

/-!
# Users, profiles and passwords

The services on the store and the routes over them. What comes from outside is an argument: the
identifiers that `uuid4` draws, the hash of a password or what hashing raises, the verdict on a
password, the times that the clock is read at, and the fate of an e-mail.
-/

namespace TrackFlow.Auth

open TrackFlow.Python Raising

/-- The settings, the case mapping of texts and `_hash_jti`. -/
structure Env where
  case : CaseMap
  hashJti : String → String
  accessLifetime : Int
  resetLifetime : Int

variable (env : Env)

/-! ## Request bodies -/

/-- `UserCreate`; its password reaches the store only as a hash. -/
structure UserCreate where
  email : String

/-- `UserRegister`. -/
structure UserRegister where
  email : String
  name : Option String := none
  phone : Option String := none
  address : Option String := none

/-- `UserUpdate`. -/
structure UserUpdate where
  email : Option String := none
  isActive : Option Bool := none
  role : Option Role := none

/-- `ProfileCreate`. -/
structure ProfileCreate where
  userId : String
  name : Option String := none
  phone : Option String := none
  address : Option String := none

/-- `ProfileUpdate`. -/
structure ProfileUpdate where
  name : Option String := none
  phone : Option String := none
  address : Option String := none

/-! ## User services -/

/-- `create_user`. -/
def createUser (payload : UserCreate) (id createdAt : String) (hashed : Except AuthError String) :
    Operation UserResponse := do
  let db ← get
  raiseIf (db.findUserByEmail env.case payload.email).isSome
    (.value ("User with email '" ++ payload.email ++ "' already exists"))
  let hashed ← ofExcept hashed
  let user ← ofExcept (UserInDB.make env.case id payload.email hashed true .user createdAt)
  modify fun db => { db with users := db.users ++ [user.dump] }
  return userToResponse user

/-- `get_user_by_id`. -/
def getUserById (userId : String) : Operation (Option UserResponse) := do
  let db ← get
  match db.findUserById userId with
  | none => return none
  | some doc => return some (userToResponse (← ofExcept (UserInDB.decode env.case doc)))

/-- `get_user_in_db_by_email`. -/
def getUserInDbByEmail (email : String) : Operation (Option UserInDB) := do
  let db ← get
  match db.findUserByEmail env.case email with
  | none => return none
  | some doc => return some (← ofExcept (UserInDB.decode env.case doc))

/-- What `update_user` writes: its `update_data`. -/
def UserUpdate.apply (payload : UserUpdate) (doc : UserDoc) : UserDoc :=
  { doc with
    email := (payload.email.map env.case.normalize).getD doc.email
    isActive := payload.isActive.getD doc.isActive
    role := (payload.role.map Role.value).getD doc.role }

/-- Whether an e-mail is that of another user. -/
def emailInUse (db : AuthDb) (userId email : String) : Bool :=
  (db.findUserByEmail env.case email).any fun d => d.id ≠ userId

/-- `update_user`. -/
def updateUser (userId : String) (payload : UserUpdate) : Operation UserResponse := do
  let db ← get
  raiseIf (db.findUserById userId).isNone (.value ("User '" ++ userId ++ "' not found"))
  raiseIf (payload.email.any fun email => emailInUse env db userId email)
    (.value ("Email '" ++ payload.email.getD "" ++ "' already in use"))
  modify fun db => db.updateUsers userId (payload.apply env)
  let db ← get
  match db.findUserById userId with
  | some updated => return userToResponse (← ofExcept (UserInDB.decode env.case updated))
  | none => raise (.other "TypeError")

/-- `delete_user`. -/
def deleteUser (userId : String) : Operation Unit := do
  modify fun db => if (db.findProfile userId).isSome then db.removeProfile userId else db
  modify fun db => db.removeUser userId

/-! ## Profile services -/

/-- `create_profile`. -/
def createProfile (payload : ProfileCreate) (id : String) : Operation ProfileDoc := do
  let db ← get
  raiseIf (db.findUserById payload.userId).isNone (.value ("User '" ++ payload.userId ++ "' not found"))
  raiseIf (db.findProfile payload.userId).isSome
    (.value ("Profile already exists for user '" ++ payload.userId ++ "'"))
  let profile : ProfileDoc := ⟨id, payload.userId, payload.name, payload.phone, payload.address⟩
  modify fun db => { db with profiles := db.profiles ++ [profile] }
  return profile

/-- What `update_profile` writes. -/
def ProfileUpdate.apply (payload : ProfileUpdate) (doc : ProfileDoc) : ProfileDoc :=
  { doc with
    name := payload.name.orElse fun _ => doc.name
    phone := payload.phone.orElse fun _ => doc.phone
    address := payload.address.orElse fun _ => doc.address }

/-- `update_profile`. -/
def updateProfile (userId : String) (payload : ProfileUpdate) : Operation ProfileDoc := do
  let db ← get
  raiseIf (db.findProfile userId).isNone (.value ("Profile for user '" ++ userId ++ "' not found"))
  modify fun db => db.updateProfiles userId payload.apply
  let db ← get
  match db.findProfile userId with
  | some updated => return updated
  | none => raise (.other "TypeError")

/-- `delete_profile`. -/
def deleteProfile (userId : String) : Operation Unit := modify fun db => db.removeProfile userId

/-! ## Authentication -/

/-- `credentials_exception`. -/
def credentialsException : AuthError := .http 401 "Could not validate credentials"

/-- `get_current_user`. -/
def getCurrentUser (now : Int) (token : Token) : Operation UserInDB := do
  match jwtDecode now token with
  | .error _ => raise credentialsException
  | .ok claims =>
    match claims.sub with
    | none => raise credentialsException
    | some sub =>
      raiseIf (claims.type ≠ none ∧ claims.type ≠ some "access") credentialsException
      let db ← get
      match db.findUserById sub with
      | none => raise credentialsException
      | some doc =>
        let user ← ofExcept (UserInDB.decode env.case doc)
        raiseIf (user.isActive = false) credentialsException
        return user

/-- `except ValueError`: the answer with a status and the text of the error. -/
def answering {α : Type} (status : Nat) (m : Operation α) : Operation α := tryCatch m fun e =>
  match e with
  | .value message => raise (.http status message)
  | e => raise e

/-! ## Password services -/

/-- What a change of password writes. -/
def UserDoc.withPassword (hashed : String) (doc : UserDoc) : UserDoc :=
  { doc with hashedPassword := hashed }

/-- `change_password`. -/
def changePassword (userId : String) (verified : Except AuthError Bool) (hashed : Except AuthError String) :
    Operation Unit := do
  let db ← get
  match db.findUserById userId with
  | none => raise (.value "User not found")
  | some doc =>
    let _ ← ofExcept (UserInDB.decode env.case doc)
    raiseIf ((← ofExcept verified) = false) (.value "Current password is incorrect.")
    let hashed ← ofExcept hashed
    modify fun db => db.updateUsers userId (UserDoc.withPassword hashed)

/-- `decode_password_reset_token` in a service: a `JWTError` is a `ValueError`. -/
def decodeResetToken (now : Int) (token : Token) : Operation Claims :=
  match decodePasswordResetToken now token with
  | .error _ => raise (.value "Invalid or expired token")
  | .ok claims => pure claims

/-- `issue_password_reset_token`. -/
def issuePasswordResetToken (userId jti : String) (createdAt decodedAt : Int) : Operation Claims := do
  let token := createPasswordResetToken userId jti env.resetLifetime createdAt
  let claims ← ofExcept (decodePasswordResetToken decodedAt (.signed token))
  modify fun db =>
    { db with resetTokens := db.resetTokens ++ [⟨env.hashJti jti, userId, claims.exp * 1000000, false, decodedAt⟩] }
  return token

/-- `validate_password_reset_token`. -/
def validatePasswordResetToken (decodedAt checkedAt : Int) (token : Token) : Operation String := do
  let claims ← decodeResetToken decodedAt token
  match claims.jti, claims.sub with
  | some jti, some userId =>
    let db ← get
    match db.findResetToken (env.hashJti jti) with
    | none => raise (.value "Token not found in persistence store")
    | some record =>
      raiseIf record.used (.value "Token has already been used")
      raiseIf (record.expiresAt < checkedAt) (.value "Token has expired")
      return userId
  | _, _ => raise (.other "KeyError")

/-- `invalidate_password_reset_token`. -/
def invalidatePasswordResetToken (decodedAt : Int) (token : Token) : Operation Unit := do
  let claims ← decodeResetToken decodedAt token
  match claims.jti with
  | none => raise (.other "KeyError")
  | some jti =>
    let db ← get
    raiseIf (db.findResetToken (env.hashJti jti)).isNone (.value "Token not found in persistence store")
    modify fun db => db.markUsed (env.hashJti jti)

/-- The times that a request reads the clock at. -/
structure Clock where
  first : Int
  second : Int
  third : Int

/-- `reset_password`. -/
def resetPassword (clock : Clock) (token : Token) (hashed : Except AuthError String) : Operation Unit := do
  let userId ← validatePasswordResetToken env clock.first clock.second token
  let db ← get
  raiseIf (db.findUserById userId).isNone (.value "User not found")
  let hashed ← ofExcept hashed
  invalidatePasswordResetToken env clock.third token
  modify fun db => db.updateUsers userId (UserDoc.withPassword hashed)

/-! ## Routes -/

/-- `register_user`. -/
def registerUser (payload : UserRegister) (userId profileId createdAt : String)
    (hashed : Except AuthError String) :
    Operation Unit := do
  let user ← answering 409 (createUser env ⟨payload.email⟩ userId createdAt hashed)
  if payload.name.isSome ∨ payload.phone.isSome ∨ payload.address.isSome then
    match ← attempt (createProfile ⟨user.id, payload.name, payload.phone, payload.address⟩ profileId) with
    | .ok _ => pure ()
    | .error (.value message) =>
      let _ ← attempt (deleteUser user.id)
      raise (.http 400 message)
    | .error e => raise e

/-- `update_user_endpoint`. -/
def updateUserEndpoint (now : Int) (token : Token) (userId : String) (payload : UserUpdate) :
    Operation UserResponse := do
  let current ← getCurrentUser env now token
  raiseIf (current.id ≠ userId ∧ current.role ≠ .admin) (.http 403 "Not authorized to update this user")
  raiseIf (payload.role.isSome ∧ current.role ≠ .admin) (.http 403 "Not authorized to change role")
  raiseIf (payload.isActive.isSome ∧ current.role ≠ .admin) (.http 403 "Not authorized to change is_active")
  match ← getUserById env userId with
  | none => raise (.http 404 "User not found")
  | some _ => answering 409 (updateUser env userId payload)

/-- `delete_user_endpoint`. -/
def deleteUserEndpoint (now : Int) (token : Token) (userId : String) : Operation Unit := do
  let current ← getCurrentUser env now token
  raiseIf (current.id ≠ userId ∧ current.role ≠ .admin) (.http 403 "Not authorized to delete this user")
  match ← getUserById env userId with
  | none => raise (.http 404 "User not found")
  | some _ => deleteUser userId

/-- `update_my_profile`. -/
def updateMyProfile (now : Int) (token : Token) (payload : ProfileUpdate) (profileId : String) :
    Operation ProfileDoc := do
  let current ← getCurrentUser env now token
  let db ← get
  match db.findProfile current.id with
  | none => answering 400 (createProfile ⟨current.id, payload.name, payload.phone, payload.address⟩ profileId)
  | some _ => answering 404 (updateProfile current.id payload)

/-- `change_password_endpoint`. -/
def changePasswordEndpoint (now : Int) (token : Token) (verified : Except AuthError Bool)
    (hashed : Except AuthError String) : Operation Unit := do
  let current ← getCurrentUser env now token
  answering 400 (changePassword env current.id verified hashed)

/-- `reset_password_endpoint`. -/
def resetPasswordEndpoint (clock : Clock) (token : Token) (hashed : Except AuthError String) :
    Operation Unit :=
  tryCatch (resetPassword env clock token hashed) fun e =>
    match e with
    | .value _ => raise (.http 400 "Invalid or expired password reset token.")
    | e => raise e

/-- `login`. -/
def login (now : Int) (username : String) (verified : Except AuthError Bool) : Operation Claims := do
  match ← getUserInDbByEmail env username with
  | none => raise (.http 401 "Incorrect email or password")
  | some user =>
    raiseIf ((← ofExcept verified) = false) (.http 401 "Incorrect email or password")
    raiseIf (user.isActive = false) (.http 401 "Account is inactive")
    return createAccessToken user.id env.accessLifetime now

/-- The answer when the e-mail could not be sent. -/
def deliveryFailed : AuthError := .http 500 "Could not send password reset email. Please try again later."

/-- `forgot_password`. -/
def forgotPassword (clock : Clock) (email jti : String) (delivery : Delivery) : Operation Unit := do
  match ← getUserInDbByEmail env (env.case.normalize email) with
  | none => pure ()
  | some user =>
    match ← attempt (issuePasswordResetToken env user.id jti clock.first clock.second) with
    | .error _ => raise deliveryFailed
    | .ok token =>
      modify fun db => { db with mails := db.mails ++ [⟨user.id, user.email, token, delivery⟩] }
      if delivery ≠ .sent then
        let _ ← attempt (invalidatePasswordResetToken env clock.third (.signed token))
        raise deliveryFailed

/-! ## Operations -/

/-- The operations on users, profiles and passwords, with what comes from outside. -/
inductive UserOp
  | register (payload : UserRegister) (userId profileId createdAt : String)
      (hashed : Except AuthError String)
  | updateUser (now : Int) (token : Token) (userId : String) (payload : UserUpdate)
  | deleteUser (now : Int) (token : Token) (userId : String)
  | createProfile (payload : ProfileCreate) (profileId : String)
  | updateProfile (userId : String) (payload : ProfileUpdate)
  | deleteProfile (userId : String)
  | updateMyProfile (now : Int) (token : Token) (payload : ProfileUpdate) (profileId : String)
  | changePassword (now : Int) (token : Token) (verified : Except AuthError Bool)
      (hashed : Except AuthError String)
  | resetPassword (clock : Clock) (token : Token) (hashed : Except AuthError String)

/-- What an operation does. -/
def UserOp.exec : UserOp → Operation Unit
  | register payload userId profileId createdAt hashed =>
    registerUser env payload userId profileId createdAt hashed
  | updateUser now token userId payload => do let _ ← updateUserEndpoint env now token userId payload
  | deleteUser now token userId => deleteUserEndpoint env now token userId
  | createProfile payload profileId => do let _ ← Auth.createProfile payload profileId
  | updateProfile userId payload => do let _ ← Auth.updateProfile userId payload
  | deleteProfile userId => Auth.deleteProfile userId
  | updateMyProfile now token payload profileId =>
      do let _ ← Auth.updateMyProfile env now token payload profileId
  | changePassword now token verified hashed => changePasswordEndpoint env now token verified hashed
  | resetPassword clock token hashed => resetPasswordEndpoint env clock token hashed

end TrackFlow.Auth
