import TrackFlow.Python.Text
import TrackFlow.Python.Raising

/-!
# The store of users

The TinyDB tables of users, profiles and password-reset tokens. A document of a user is what was
written; `UserInDB` is what a document decodes as, if it does, with an e-mail that contains `@`.
Tokens are signed claims: `Token.other` stands for any text that the secret key has not signed.
-/

namespace TrackFlow.Auth

open TrackFlow.Python

/-! ## Exceptions -/

/-- What an operation raises: a `ValueError`, of which the errors of validation are, a `JWTError`,
an answer with an error status, or another exception. -/
inductive AuthError
  | value (message : String)
  | jwt (message : String)
  | http (status : Nat) (detail : String)
  | other (name : String)

/-! ## Users -/

/-- `Role`. -/
inductive Role
  | admin
  | manager
  | user
  deriving DecidableEq

namespace Role

/-- `role.value`. -/
def value : Role → String
  | admin => "admin"
  | manager => "manager"
  | user => "user"

/-- The role with a value. -/
def ofValue (v : String) : Option Role :=
  if v = "admin" then some admin else if v = "manager" then some manager else if v = "user" then
      some user else none

@[simp] theorem ofValue_value (r : Role) : ofValue r.value = some r := by cases r <;> decide

end Role

/-- A document of the table `users`. -/
structure UserDoc where
  id : String
  email : String
  hashedPassword : String
  isActive : Bool
  role : String
  createdAt : String

/-- `UserInDB`. -/
structure UserInDB where
  id : String
  email : String
  hashedPassword : String
  isActive : Bool
  role : Role
  createdAt : String
  at_sign : '@' ∈ email.toList

namespace UserInDB

/-- `UserInDB(...)`: `_validate_email` normalises the e-mail. -/
def make (u : CaseMap) (id email hashedPassword : String) (isActive : Bool) (role : Role)
    (createdAt : String) : Except AuthError UserInDB :=
  if h : '@' ∈ (u.normalize email).toList then
    .ok ⟨id, u.normalize email, hashedPassword, isActive, role, createdAt, h⟩
  else .error (.value "email must contain @")

/-- `UserInDB(**doc)`. -/
def decode (u : CaseMap) (doc : UserDoc) : Except AuthError UserInDB :=
  match Role.ofValue doc.role with
  | some role => make u doc.id doc.email doc.hashedPassword doc.isActive role doc.createdAt
  | none => .error (.value "role is not valid")

/-- `user.model_dump(mode="json")`. -/
def dump (user : UserInDB) : UserDoc where
  id := user.id
  email := user.email
  hashedPassword := user.hashedPassword
  isActive := user.isActive
  role := user.role.value
  createdAt := user.createdAt

end UserInDB

/-- `UserResponse`. -/
structure UserResponse where
  id : String
  email : String
  isActive : Bool
  role : Role
  createdAt : String

/-- `_user_to_response`. -/
def userToResponse (user : UserInDB) : UserResponse where
  id := user.id
  email := user.email
  isActive := user.isActive
  role := user.role
  createdAt := user.createdAt

/-! ## Profiles -/

/-- A document of the table `profiles`, and `ProfileInDB`. -/
structure ProfileDoc where
  id : String
  userId : String
  name : Option String
  phone : Option String
  address : Option String

/-! ## Signed tokens -/

/-- The claims of a token; `exp` is in seconds. -/
structure Claims where
  sub : Option String
  type : Option String
  jti : Option String := none
  exp : Int
  iat : Int
  deriving DecidableEq

/-- What a client may present: claims that the secret key has signed, or another text. -/
inductive Token
  | signed (claims : Claims)
  | other (text : String)

/-- Whole seconds of a time in microseconds. -/
def seconds (now : Int) : Int := now / 1000000

/-- `jwt.decode`: the signature and the expiration. -/
def jwtDecode (now : Int) : Token → Except AuthError Claims
  | .signed claims => if claims.exp < seconds now then .error (.jwt "Signature has expired.") else .ok claims
  | .other _ => .error (.jwt "Signature verification failed.")

/-- `create_access_token`. -/
def createAccessToken (sub : String) (lifetime now : Int) : Claims where
  sub := some sub
  type := some "access"
  exp := seconds (now + lifetime)
  iat := seconds now

/-- `create_password_reset_token`; the identifier is drawn by `uuid4`. -/
def createPasswordResetToken (sub jti : String) (lifetime now : Int) : Claims where
  sub := some sub
  jti := some jti
  type := some "password_reset"
  exp := seconds (now + lifetime)
  iat := seconds now

/-- `decode_password_reset_token`. -/
def decodePasswordResetToken (now : Int) (token : Token) : Except AuthError Claims := do
  let claims ← jwtDecode now token
  if claims.type ≠ some "password_reset" then throw (.jwt "Token is not a password-reset token")
  if claims.jti.isNone then throw (.jwt "Token is missing required jti claim")
  return claims

/-! ## Reset tokens -/

/-- A document of the table `password_reset_tokens`. -/
structure ResetTokenDoc where
  jtiHash : String
  userId : String
  expiresAt : Int
  used : Bool := false
  createdAt : Int

/-! ## The database -/

/-- What became of a reset e-mail. -/
inductive Delivery
  | sent
  | notSent
  | raised
  deriving DecidableEq

/-- A call of `send_password_reset_email`, and the user that the token was issued for. -/
structure Mail where
  userId : String
  toEmail : String
  token : Claims
  delivery : Delivery

/-- `auth_db`, and the e-mails that were handed over. -/
structure AuthDb where
  users : List UserDoc := []
  profiles : List ProfileDoc := []
  resetTokens : List ResetTokenDoc := []
  mails : List Mail := []

namespace AuthDb

variable (db : AuthDb)

/-- `_find_user_doc_by_id`. -/
def findUserById (id : String) : Option UserDoc := db.users.find? fun d => d.id = id

/-- `_find_user_doc_by_email`. -/
def findUserByEmail (u : CaseMap) (email : String) : Option UserDoc :=
  db.users.find? fun d => d.email = u.normalize email

/-- `_find_profile_doc_by_user_id`. -/
def findProfile (userId : String) : Option ProfileDoc := db.profiles.find? fun d => d.userId = userId

/-- The first record with a hash. -/
def findResetToken (jtiHash : String) : Option ResetTokenDoc :=
  db.resetTokens.find? fun d => d.jtiHash = jtiHash

/-- `users.update(..., _UserQuery.id == user_id)`. -/
def updateUsers (id : String) (f : UserDoc → UserDoc) : AuthDb :=
  { db with users := db.users.map fun d => if d.id = id then f d else d }

/-- `profiles.update(..., _ProfileQuery.user_id == user_id)`. -/
def updateProfiles (userId : String) (f : ProfileDoc → ProfileDoc) : AuthDb :=
  { db with profiles := db.profiles.map fun d => if d.userId = userId then f d else d }

/-- `users.remove(_UserQuery.id == user_id)`. -/
def removeUser (id : String) : AuthDb := { db with users := db.users.filter fun d => d.id ≠ id }

/-- `profiles.remove(_ProfileQuery.user_id == user_id)`. -/
def removeProfile (userId : String) : AuthDb :=
  { db with profiles := db.profiles.filter fun d => d.userId ≠ userId }

/-- `password_reset_tokens.update({"used": True}, _PasswordResetQuery.jti_hash == jti_hash)`. -/
def markUsed (jtiHash : String) : AuthDb :=
  { db with resetTokens := db.resetTokens.map fun d => if d.jtiHash = jtiHash then { d with used := true } else d }

end AuthDb

/-- A program on the store. -/
abbrev Operation (α : Type) : Type := Raising AuthDb AuthError α

end TrackFlow.Auth
