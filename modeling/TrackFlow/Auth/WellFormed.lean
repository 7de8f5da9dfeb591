import TrackFlow.Auth.Service

/-!
# The store of users stays well formed

Every document of a user decodes with a normalised e-mail, no two have one e-mail, and every profile
is the only one of a user (`WellFormed`). All operations keep this and leave the store as it was
when they raise or answer with an error (`Kept`), but for one: `update_user` writes an e-mail and
decodes the document afterwards.

- `WellFormed.add_user`, `WellFormed.update_users`, `WellFormed.add_profile`,
  `WellFormed.remove_user`: what the store may go through;
- `updateUserEndpoint_spec`: an update that reaches its write has written, whether the new e-mail is
  valid or not;
- `store_stays_wellFormed`: a run is well formed exactly when no update that reaches its write
  brings an e-mail without `@`.
-/

namespace TrackFlow.Auth

open TrackFlow.Python Raising

variable {env : Env}

/-! ## Well-formed stores -/

/-- The tables of users and profiles are well formed. -/
structure WellFormed (env : Env) (db : AuthDb) : Prop where
  decodes : ∀ d ∈ db.users, ∃ user, UserInDB.decode env.case d = .ok user ∧ user.id = d.id ∧
    user.email = d.email
  emails : (db.users.map UserDoc.email).Nodup
  ids : (db.users.map UserDoc.id).Nodup
  owners : ∀ p ∈ db.profiles, ∃ d ∈ db.users, d.id = p.userId
  single : (db.profiles.map ProfileDoc.userId).Nodup

/-- A document that decodes as what it says. -/
structure Valid (u : CaseMap) (d : UserDoc) : Prop where
  role : (Role.ofValue d.role).isSome = true
  normal : u.normalize d.email = d.email
  at_sign : '@' ∈ d.email.toList

theorem valid_iff {u : CaseMap} {d : UserDoc} :
    Valid u d ↔ ∃ user, UserInDB.decode u d = .ok user ∧ user.id = d.id ∧ user.email = d.email := by
  unfold UserInDB.decode UserInDB.make
  constructor
  · intro h
    obtain ⟨role, hrole⟩ := Option.isSome_iff_exists.1 h.role
    rw [hrole]
    have hat : '@' ∈ (u.normalize d.email).toList := by
      rw [h.normal]
      exact h.at_sign
    exact ⟨_, dif_pos hat, rfl, h.normal⟩
  · rintro ⟨user, hdecode, -, hemail⟩
    cases hrole : Role.ofValue d.role with
    | none =>
      rw [hrole] at hdecode
      cases hdecode
    | some role =>
      rw [hrole] at hdecode
      dsimp only at hdecode
      split at hdecode
      · rename_i hat
        obtain rfl := Except.ok.inj hdecode
        have hnormal : u.normalize d.email = d.email := hemail
        exact ⟨by rw [hrole]; rfl, hnormal, by rw [← hnormal]; exact hat⟩
      · cases hdecode

/-- An update of profiles that keeps whose they are. -/
theorem updateProfiles_userIds {db : AuthDb} {userId : String} {f : ProfileDoc → ProfileDoc}
    (hf : ∀ p, (f p).userId = p.userId) :
    (db.updateProfiles userId f).profiles.map ProfileDoc.userId = db.profiles.map ProfileDoc.userId := by
  unfold AuthDb.updateProfiles
  rw [List.map_map]
  refine List.map_congr_left fun p _ => ?_
  simp only [Function.comp_apply]
  split
  · exact hf p
  · rfl

namespace WellFormed

variable {db : AuthDb}

theorem empty : WellFormed env {} where
  decodes _ hd := absurd hd List.not_mem_nil
  emails := List.nodup_nil
  ids := List.nodup_nil
  owners _ hp := absurd hp List.not_mem_nil
  single := List.nodup_nil

theorem valid (h : WellFormed env db) {d : UserDoc} (hd : d ∈ db.users) : Valid env.case d :=
  valid_iff.2 (h.decodes d hd)

/-- Nobody has an e-mail that the search does not find. -/
theorem email_notMem {email : String} (hfree : db.findUserByEmail env.case email = none) :
    env.case.normalize email ∉ db.users.map UserDoc.email := by
  intro hmem
  obtain ⟨d, hd, hemail⟩ := List.mem_map.1 hmem
  have hno := List.find?_eq_none.1 hfree d hd
  exact hno (decide_eq_true hemail)

theorem add_user (h : WellFormed env db) {d : UserDoc} (hd : Valid env.case d)
    (hid : ∀ e ∈ db.users, e.id ≠ d.id) (hemail : d.email ∉ db.users.map UserDoc.email) :
    WellFormed env { db with users := db.users ++ [d] } where
  decodes e he := by
    rcases List.mem_append.1 he with he | he
    · exact h.decodes e he
    · obtain rfl := List.mem_singleton.1 he
      exact valid_iff.1 hd
  emails := by
    simp only [List.map_append, List.map_singleton]
    exact List.nodup_append.2 ⟨h.emails, List.nodup_singleton _, fun a ha b hb hab => hemail (by simp_all)⟩
  ids := by
    simp only [List.map_append, List.map_singleton]
    refine List.nodup_append.2 ⟨h.ids, List.nodup_singleton _, fun a ha b hb hab => ?_⟩
    obtain ⟨e, he, rfl⟩ := List.mem_map.1 ha
    exact hid e he (hab.trans (List.mem_singleton.1 hb))
  owners p hp := by
    obtain ⟨e, he, hid⟩ := h.owners p hp
    exact ⟨e, List.mem_append_left _ he, hid⟩
  single := h.single

/-- The documents with one identifier change, and keep the identifier. -/
theorem update_users (h : WellFormed env db) {id : String} {f : UserDoc → UserDoc}
    (hf : ∀ d, (f d).id = d.id) (hvalid : ∀ d ∈ db.users, d.id = id → Valid env.case (f d))
    (hemail : ∀ d ∈ db.users, d.id = id → ∀ e ∈ db.users, e.id ≠ id → e.email ≠ (f d).email) :
    WellFormed env (db.updateUsers id f) where
  decodes e he := by
    obtain ⟨d, hd, rfl⟩ := List.mem_map.1 he
    split
    · rename_i hid
      exact valid_iff.1 (hvalid d hd hid)
    · exact h.decodes d hd
  emails := by
    unfold AuthDb.updateUsers
    rw [List.map_map]
    refine (List.nodup_map_iff_inj_on (List.Nodup.of_map _ h.ids)).2 fun a ha b hb hab => ?_
    simp only [Function.comp_apply] at hab
    have hinj := List.inj_on_of_nodup_map h.emails
    have hids := List.inj_on_of_nodup_map h.ids
    split at hab <;> split at hab
    · rename_i hida hidb
      exact hids ha hb (hida.trans hidb.symm)
    · rename_i hida hidb
      exact absurd hab.symm (hemail a ha hida b hb hidb)
    · rename_i hida hidb
      exact absurd hab (hemail b hb hidb a ha hida)
    · exact hinj ha hb hab
  ids := by
    have hmap : (db.updateUsers id f).users.map UserDoc.id = db.users.map UserDoc.id := by
      unfold AuthDb.updateUsers
      rw [List.map_map]
      refine List.map_congr_left fun d hd => ?_
      simp only [Function.comp_apply]
      split
      · exact hf d
      · rfl
    rw [hmap]
    exact h.ids
  owners p hp := by
    obtain ⟨d, hd, hid⟩ := h.owners p hp
    refine ⟨_, List.mem_map.2 ⟨d, hd, rfl⟩, ?_⟩
    split
    · rw [hf d]
      exact hid
    · exact hid
  single := h.single

theorem with_password (h : WellFormed env db) (id hashed : String) :
    WellFormed env (db.updateUsers id (UserDoc.withPassword hashed)) := by
  refine h.update_users (fun _ => rfl) (fun d hd _ => ?_) (fun d hd hid e he hne hemail => ?_)
  · have hvalid := h.valid hd
    exact ⟨hvalid.role, hvalid.normal, hvalid.at_sign⟩
  · exact hne ((congrArg UserDoc.id (List.inj_on_of_nodup_map h.emails he hd hemail)).trans hid)

theorem remove_profile (h : WellFormed env db) (userId : String) :
    WellFormed env (db.removeProfile userId) where
  decodes := h.decodes
  emails := h.emails
  ids := h.ids
  owners p hp := h.owners p (List.mem_filter.1 hp).1
  single := h.single.sublist (List.filter_sublist.map _)

/-- A user goes whose profile is gone. -/
theorem remove_user (h : WellFormed env db) (id : String) (hno : ∀ p ∈ db.profiles, p.userId ≠ id) :
    WellFormed env (db.removeUser id) where
  decodes d hd := h.decodes d (List.mem_filter.1 hd).1
  emails := h.emails.sublist (List.filter_sublist.map _)
  ids := h.ids.sublist (List.filter_sublist.map _)
  owners p hp := by
    obtain ⟨d, hd, hid⟩ := h.owners p hp
    exact ⟨d, List.mem_filter.2 ⟨hd, by simpa [hid] using hno p hp⟩, hid⟩
  single := h.single

theorem add_profile (h : WellFormed env db) {p : ProfileDoc} (howner : ∃ d ∈ db.users, d.id = p.userId)
    (hfree : p.userId ∉ db.profiles.map ProfileDoc.userId) :
    WellFormed env { db with profiles := db.profiles ++ [p] } where
  decodes := h.decodes
  emails := h.emails
  ids := h.ids
  owners q hq := by
    rcases List.mem_append.1 hq with hq | hq
    · exact h.owners q hq
    · obtain rfl := List.mem_singleton.1 hq
      exact howner
  single := by
    simp only [List.map_append, List.map_singleton]
    exact List.nodup_append.2 ⟨h.single, List.nodup_singleton _, fun a ha b hb hab => hfree (by simp_all)⟩

theorem update_profiles (h : WellFormed env db) {userId : String} {f : ProfileDoc → ProfileDoc}
    (hf : ∀ p, (f p).userId = p.userId) : WellFormed env (db.updateProfiles userId f) where
  decodes := h.decodes
  emails := h.emails
  ids := h.ids
  owners q hq := by
    have hmem := @List.mem_map_of_mem _ _ _ _ ProfileDoc.userId hq
    rw [updateProfiles_userIds hf] at hmem
    obtain ⟨p, hp, hid⟩ := List.mem_map.1 hmem
    rw [← hid]
    exact h.owners p hp
  single := by
    rw [updateProfiles_userIds hf]
    exact h.single

end WellFormed

/-! ## What the services do -/

section Services

variable {s : AuthDb}

/-- The store is well formed, and as it was if the operation has raised. -/
def Kept {α : Type} (env : Env) (s : AuthDb) : Except AuthError α → AuthDb → Prop :=
  fun r s' => (∀ e, r = .error e → s' = s) ∧ WellFormed env s'

theorem kept_error {α : Type} (h : WellFormed env s) (e : AuthError) : Kept (α := α) env s (.error e) s :=
  ⟨fun _ _ => rfl, h⟩

theorem kept_ok {α : Type} {s' : AuthDb} (h : WellFormed env s') (a : α) : Kept env s (.ok a) s' :=
  ⟨fun e he => (by cases he), h⟩

/-- An error that is answered with a status leaves the store as an error does. -/
theorem answering_kept {α : Type} {m : Operation α} (status : Nat) (h : Post m (Kept env s) s) :
    Post (answering status m) (Kept env s) s := by
  refine post_tryCatch h (fun _ _ h => h) (fun e s' h => ?_)
  obtain rfl := h.1 e rfl
  cases e with
  | value message => exact post_raise (kept_error h.2 _)
  | _ => exact post_raise (kept_error h.2 _)

/-- The result of an operation is not looked at. -/
theorem kept_discard {α : Type} {m : Operation α} :
    Post (do let _ ← m) (Kept env s) s ↔ Post m (Kept env s) s := by
  change Kept env s (Raising.bind m _ s).1 (Raising.bind m _ s).2 ↔ Kept env s (m s).1 (m s).2
  unfold Raising.bind
  rcases m s with ⟨r, s'⟩
  cases r with
  | ok a => exact ⟨fun h => kept_ok h.2 a, fun h => kept_ok h.2 _⟩
  | error e => exact ⟨fun h => ⟨fun _ _ => h.1 e rfl, h.2⟩, fun h => ⟨fun _ _ => h.1 e rfl, h.2⟩⟩

theorem getCurrentUser_reads (now : Int) (token : Token) :
    Post (getCurrentUser env now token) (fun _ s' => s' = s) s := by
  unfold getCurrentUser
  split
  · exact post_raise rfl
  · split
    · exact post_raise rfl
    · refine post_raiseIf_seq (fun _ => rfl) fun _ => post_get_seq ?_
      split
      · exact post_raise rfl
      · refine post_ofExcept_seq (fun user _ => ?_) (fun _ _ => rfl)
        exact post_raiseIf_seq (fun _ => rfl) fun _ => post_pure rfl

/-- An operation that first finds out who asks. -/
theorem kept_current {α : Type} {now : Int} {token : Token} {k : UserInDB → Operation α}
    (hs : WellFormed env s) (h : ∀ current, Post (k current) (Kept env s) s) :
    Post (getCurrentUser env now token >>= k) (Kept env s) s := by
  refine post_seq (getCurrentUser_reads now token) (fun current s' hs' => ?_) (fun e s' hs' => ?_)
  · obtain rfl := hs'
    exact h current
  · obtain rfl := hs'
    exact kept_error hs e

/-- A document that the search finds. -/
theorem findUserById_mem {id : String} {d : UserDoc} (h : s.findUserById id = some d) :
    d ∈ s.users ∧ d.id = id :=
  ⟨List.mem_of_find?_eq_some h, by simpa using List.find?_some h⟩

theorem findProfile_notMem {userId : String} (h : s.findProfile userId = none) :
    userId ∉ s.profiles.map ProfileDoc.userId := by
  intro hmem
  obtain ⟨p, hp, hid⟩ := List.mem_map.1 hmem
  exact List.find?_eq_none.1 h p hp (decide_eq_true hid)

/-- In a well-formed store a user is read, or there is none. -/
theorem getUserById_spec (hs : WellFormed env s) (userId : String) :
    Post (getUserById env userId) (fun r s' => s' = s ∧ ∃ found, r = .ok found ∧
      found.isSome = (s.findUserById userId).isSome) s := by
  unfold getUserById
  refine post_get_seq ?_
  cases hfound : s.findUserById userId with
  | none => exact post_pure ⟨rfl, none, rfl, rfl⟩
  | some doc =>
    obtain ⟨user, hdecode, -⟩ := hs.decodes doc (findUserById_mem hfound).1
    dsimp only
    rw [hdecode]
    exact post_ofExcept_seq (fun _ _ => post_pure ⟨rfl, _, rfl, rfl⟩) (fun e he => by cases he)

/-- A new user has the identifier that was drawn, and no profile. -/
theorem createUser_spec (hs : WellFormed env s) (payload : UserCreate) {id : String} (createdAt : String)
    (hashed : Except AuthError String) (hid : ∀ d ∈ s.users, d.id ≠ id) :
    Post (createUser env payload id createdAt hashed) (fun r s' => Kept env s r s' ∧ ∀ user, r = .ok user →
      user.id = id ∧ s'.profiles = s.profiles ∧ (s'.findUserById id).isSome = true) s := by
  unfold createUser
  refine post_get_seq (post_raiseIf_seq (fun _ => ⟨kept_error hs _, fun user h => (by cases h)⟩)
    fun hfree => ?_)
  refine post_ofExcept_seq (fun hashed _ => ?_) fun e _ => ⟨kept_error hs e, fun user h => (by cases h)⟩
  refine post_ofExcept_seq (fun user hmake => ?_) fun e _ => ⟨kept_error hs e, fun user h => (by cases h)⟩
  refine post_modify_seq (post_pure ?_)
  unfold UserInDB.make at hmake
  split at hmake
  · rename_i hat
    obtain rfl := Except.ok.inj hmake
    have hno : s.findUserByEmail env.case payload.email = none := by simpa using hfree
    let new : UserInDB := ⟨id, env.case.normalize payload.email, hashed, true, .user, createdAt, hat⟩
    have hvalid : Valid env.case new.dump :=
      ⟨by simp [new, UserInDB.dump], env.case.normalize_normalize payload.email, hat⟩
    refine ⟨kept_ok (hs.add_user hvalid hid (WellFormed.email_notMem hno)) _, fun user h => ?_⟩
    obtain rfl := Except.ok.inj h
    refine ⟨rfl, rfl, ?_⟩
    rw [AuthDb.findUserById, List.find?_isSome]
    exact ⟨new.dump, List.mem_append_right _ (List.mem_singleton.2 rfl), by simp [new, UserInDB.dump]⟩
  · cases hmake

theorem createProfile_kept (hs : WellFormed env s) (payload : ProfileCreate) (id : String) :
    Post (createProfile payload id) (fun r s' => Kept env s r s' ∧
      ((s.findUserById payload.userId).isSome = true → s.findProfile payload.userId = none → ∃ profile,
        r = .ok profile)) s := by
  unfold createProfile
  refine post_get_seq (post_raiseIf_seq (fun hno => ⟨kept_error hs _, fun huser => ?_⟩) fun huser => ?_)
  · rw [Option.isNone_iff_eq_none] at hno
    simp [hno] at huser
  refine post_raiseIf_seq (fun htaken => ⟨kept_error hs _, fun _ hfree => ?_⟩) fun hfree => ?_
  · simp [hfree] at htaken
  refine post_modify_seq (post_pure ⟨kept_ok (hs.add_profile ?_ ?_) _, fun _ _ => ⟨_, rfl⟩⟩)
  · obtain ⟨d, hd⟩ : ∃ d, s.findUserById payload.userId = some d :=
      Option.ne_none_iff_exists'.1 (by simpa using huser)
    exact ⟨d, findUserById_mem hd⟩
  · exact findProfile_notMem (by simpa using hfree)

theorem updateProfile_kept (hs : WellFormed env s) (userId : String) (payload : ProfileUpdate) :
    Post (updateProfile userId payload) (Kept env s) s := by
  unfold updateProfile
  refine post_get_seq (post_raiseIf_seq (fun _ => kept_error hs _) fun hfound => ?_)
  refine post_modify_seq (post_get_seq ?_)
  have hkept : WellFormed env (s.updateProfiles userId payload.apply) := hs.update_profiles fun _ => rfl
  split
  · exact post_pure (kept_ok hkept _)
  · rename_i hnone
    -- What was there is still there.
    obtain ⟨p, hp⟩ : ∃ p, s.findProfile userId = some p :=
      Option.ne_none_iff_exists'.1 (by simpa using hfound)
    have hid : p.userId = userId := by simpa using List.find?_some hp
    refine absurd ?_ (findProfile_notMem hnone)
    have hkeeps : ∀ p, (payload.apply p).userId = p.userId := fun _ => rfl
    rw [updateProfiles_userIds hkeeps]
    exact List.mem_map.2 ⟨p, List.mem_of_find?_eq_some hp, hid⟩

/-! ## What the routes do -/

theorem registerUser_kept (hs : WellFormed env s) (payload : UserRegister) {userId : String}
    (profileId createdAt : String) (hashed : Except AuthError String) (hid : ∀ d ∈ s.users, d.id ≠ userId) :
    Post (registerUser env payload userId profileId createdAt hashed) (Kept env s) s := by
  unfold registerUser
  have hcreate : Post (answering 409 (createUser env ⟨payload.email⟩ userId createdAt hashed))
      (fun r s' => Kept env s r s' ∧
      ∀ user, r = .ok user → user.id = userId ∧ s'.profiles = s.profiles ∧
        (s'.findUserById userId).isSome = true) s := by
    refine post_tryCatch (createUser_spec hs _ createdAt hashed hid) (fun _ _ h => h) (fun e s' h => ?_)
    obtain rfl := h.1.1 e rfl
    cases e with
    | value message => exact post_raise ⟨kept_error h.1.2 _, fun user h => (by cases h)⟩
    | _ => exact post_raise ⟨kept_error h.1.2 _, fun user h => (by cases h)⟩
  refine post_seq hcreate (fun user s' h => ?_) (fun e s' h => ?_)
  · obtain ⟨⟨-, hkept⟩, huser⟩ := h
    obtain ⟨rfl, hprofiles, hfound⟩ := huser user rfl
    split
    · -- The profile of the new user is created: nothing is to be rolled back.
      have hfree : s'.findProfile user.id = none := by
        rw [AuthDb.findProfile, List.find?_eq_none]
        intro p hp
        rw [hprofiles] at hp
        obtain ⟨d, hd, hdid⟩ := hs.owners p hp
        simpa using fun h => hid d hd (hdid.trans h)
      refine post_attempt_seq (createProfile_kept hkept _ profileId) fun r s'' hr => ?_
      obtain ⟨profile, rfl⟩ := hr.2 hfound hfree
      exact post_pure (kept_ok hr.1.2 _)
    · exact post_pure (kept_ok hkept _)
  · obtain rfl := h.1.1 e rfl
    exact kept_error h.1.2 e

theorem deleteUser_kept (hs : WellFormed env s) (userId : String) :
    Post (deleteUser userId) (Kept env s) s := by
  unfold deleteUser
  refine post_modify_seq (post_modify (kept_ok ?_ _))
  split
  · refine (hs.remove_profile userId).remove_user userId fun p hp => ?_
    simpa using (List.mem_filter.1 hp).2
  · rename_i hno
    refine hs.remove_user userId fun p hp hid => ?_
    refine @findProfile_notMem s userId (by simpa using hno) (List.mem_map.2 ⟨p, hp, hid⟩)

theorem deleteUserEndpoint_kept (hs : WellFormed env s) (now : Int) (token : Token) (userId : String) :
    Post (deleteUserEndpoint env now token userId) (Kept env s) s := by
  unfold deleteUserEndpoint
  refine kept_current hs fun current => ?_
  refine post_raiseIf_seq (fun _ => kept_error hs _) fun _ => ?_
  refine post_seq (getUserById_spec hs userId) (fun found s' h => ?_) (fun e s' h => ?_)
  · obtain ⟨rfl, -⟩ := h
    cases found with
    | none => exact post_raise (kept_error hs _)
    | some _ => exact deleteUser_kept hs userId
  · obtain ⟨-, found, hfound, -⟩ := h
    cases hfound

theorem updateMyProfile_kept (hs : WellFormed env s) (now : Int) (token : Token) (payload : ProfileUpdate)
    (profileId : String) : Post (updateMyProfile env now token payload profileId) (Kept env s) s := by
  unfold updateMyProfile
  refine kept_current hs fun current => post_get_seq ?_
  split
  · exact answering_kept 400 (post_mono (fun _ _ h => h.1) (createProfile_kept hs _ profileId))
  · exact answering_kept 404 (updateProfile_kept hs _ payload)

theorem changePassword_kept (hs : WellFormed env s) (userId : String) (verified : Except AuthError Bool)
    (hashed : Except AuthError String) :
    Post (changePassword env userId verified hashed) (Kept env s) s := by
  unfold changePassword
  refine post_get_seq ?_
  split
  · exact post_raise (kept_error hs _)
  · refine post_ofExcept_seq (fun _ _ => ?_) fun e _ => kept_error hs e
    refine post_ofExcept_seq (fun _ _ => ?_) fun e _ => kept_error hs e
    refine post_raiseIf_seq (fun _ => kept_error hs _) fun _ => ?_
    refine post_ofExcept_seq (fun hash _ => ?_) fun e _ => kept_error hs e
    exact post_modify (kept_ok (hs.with_password userId hash) _)

theorem decodeResetToken_reads (now : Int) (token : Token) :
    Post (decodeResetToken now token) (fun _ s' => s' = s) s := by
  unfold decodeResetToken
  split
  · exact post_raise rfl
  · exact post_pure rfl

theorem validatePasswordResetToken_reads (decodedAt checkedAt : Int) (token : Token) :
    Post (validatePasswordResetToken env decodedAt checkedAt token) (fun _ s' => s' = s) s := by
  unfold validatePasswordResetToken
  refine post_seq (decodeResetToken_reads decodedAt token) (fun claims s' hs' => ?_) (fun _ _ hs' => hs')
  obtain rfl := hs'
  split
  · refine post_get_seq ?_
    split
    · exact post_raise rfl
    · refine post_raiseIf_seq (fun _ => rfl) fun _ => post_raiseIf_seq (fun _ => rfl) fun _ => post_pure rfl
  · exact post_raise rfl

/-- A token is marked as used, or nothing happens. -/
theorem invalidatePasswordResetToken_spec (decodedAt : Int) (token : Token) :
    Post (invalidatePasswordResetToken env decodedAt token) (fun r s' => (∀ e, r = .error e → s' = s) ∧
      s'.users = s.users ∧ s'.profiles = s.profiles) s := by
  unfold invalidatePasswordResetToken
  refine post_seq (decodeResetToken_reads decodedAt token) (fun claims s' hs' => ?_) (fun e s' hs' => ?_)
  · obtain rfl := hs'
    split
    · exact post_raise ⟨fun _ _ => rfl, rfl, rfl⟩
    · refine post_get_seq (post_raiseIf_seq (fun _ => ⟨fun _ _ => rfl, rfl, rfl⟩) fun _ => post_modify ?_)
      exact ⟨fun e he => (by cases he), rfl, rfl⟩
  · obtain rfl := hs'
    exact ⟨fun _ _ => rfl, rfl, rfl⟩

theorem resetPassword_kept (hs : WellFormed env s) (clock : Clock) (token : Token)
    (hashed : Except AuthError String) : Post (resetPassword env clock token hashed) (Kept env s) s := by
  unfold resetPassword
  refine post_seq (validatePasswordResetToken_reads _ _ token) (fun userId s' hs' => ?_)
    (fun e s' hs' => ?_)
  · obtain rfl := hs'
    refine post_get_seq (post_raiseIf_seq (fun _ => kept_error hs _) fun _ => ?_)
    refine post_ofExcept_seq (fun hash _ => ?_) fun e _ => kept_error hs e
    refine post_seq (invalidatePasswordResetToken_spec _ token) (fun _ s'' h => ?_) (fun e s'' h => ?_)
    · obtain ⟨-, husers, hprofiles⟩ := h
      have hs'' : WellFormed env s'' :=
        ⟨by rw [husers]; exact hs.decodes, by rw [husers]; exact hs.emails, by rw [husers]; exact hs.ids,
          by rw [husers, hprofiles]; exact hs.owners, by rw [hprofiles]; exact hs.single⟩
      exact post_modify (kept_ok (hs''.with_password userId hash) _)
    · obtain rfl := h.1 e rfl
      exact kept_error hs e
  · obtain rfl := hs'
    exact kept_error hs e

theorem resetPasswordEndpoint_kept (hs : WellFormed env s) (clock : Clock) (token : Token)
    (hashed : Except AuthError String) :
    Post (resetPasswordEndpoint env clock token hashed) (Kept env s) s := by
  refine post_tryCatch (resetPassword_kept hs clock token hashed) (fun _ _ h => h) (fun e s' h => ?_)
  obtain rfl := h.1 e rfl
  cases e with
  | value message => exact post_raise (kept_error h.2 _)
  | _ => exact post_raise (kept_error h.2 _)

/-! ## Updates of users -/

/-- The rules of `update_user_endpoint` on who may change what. -/
def mayUpdate (current : UserInDB) (userId : String) (payload : UserUpdate) : Bool :=
  (current.id = userId || current.role = .admin) && (payload.role.isNone || current.role = .admin) &&
    (payload.isActive.isNone || current.role = .admin)

/-- An update gets past every check that comes before the write. -/
structure Reaches (env : Env) (db : AuthDb) (now : Int) (token : Token) (userId : String)
    (payload : UserUpdate) : Prop where
  allowed : ∃ current, (getCurrentUser env now token db).1 = .ok current ∧
    mayUpdate current userId payload = true
  found : (db.findUserById userId).isSome = true
  free : ∀ email, payload.email = some email → emailInUse env db userId email = false

/-- The e-mail of an update contains `@` when it is normalised. -/
def HasAt (env : Env) (payload : UserUpdate) : Prop :=
  ∀ email, payload.email = some email → '@' ∈ (env.case.normalize email).toList

theorem apply_valid {payload : UserUpdate} (hat : HasAt env payload) {d : UserDoc} (hd : Valid env.case d) :
    Valid env.case (payload.apply env d) where
  role := by
    unfold UserUpdate.apply
    cases payload.role with
    | none => exact hd.role
    | some role => simp
  normal := by
    unfold UserUpdate.apply
    cases payload.email with
    | none => exact hd.normal
    | some email => exact env.case.normalize_normalize email
  at_sign := by
    unfold UserUpdate.apply
    cases hemail : payload.email with
    | none => exact hd.at_sign
    | some email => exact hat email hemail

/-- An e-mail that no other user has stays with one user. -/
theorem WellFormed.apply (hs : WellFormed env s) {userId : String} {payload : UserUpdate}
    (hat : HasAt env payload)
    (hfree : ∀ email, payload.email = some email → emailInUse env s userId email = false) :
    WellFormed env (s.updateUsers userId (payload.apply env)) := by
  refine hs.update_users (fun _ => rfl) (fun d hd _ => apply_valid hat (hs.valid hd)) fun d hd hid e
    he hne hemail => ?_
  cases hp : payload.email with
  | none =>
    have hsame : e.email = d.email := by simpa [UserUpdate.apply, hp] using hemail
    exact hne ((congrArg UserDoc.id (List.inj_on_of_nodup_map hs.emails he hd hsame)).trans hid)
  | some email =>
    have hnew : e.email = env.case.normalize email := by simpa [UserUpdate.apply, hp] using hemail
    cases hfind : s.findUserByEmail env.case email with
    | none => exact WellFormed.email_notMem hfind (hnew ▸ List.mem_map_of_mem he)
    | some d' =>
      have hd' : d'.email = env.case.normalize email := by simpa using List.find?_some hfind
      have hsame : d' = e := List.inj_on_of_nodup_map hs.emails (List.mem_of_find?_eq_some hfind) he
          (hd'.trans hnew.symm)
      have hno := hfree email hp
      rw [emailInUse, hfind, hsame] at hno
      simp at hno
      exact hne hno

theorem updateUsers_find {userId : String} {f : UserDoc → UserDoc} (hf : ∀ d, (f d).id = d.id) {d : UserDoc}
    (h : s.findUserById userId = some d) : (s.updateUsers userId f).findUserById userId = some (f d) := by
  have hid : d.id = userId := (findUserById_mem h).2
  have hpred : ((fun e : UserDoc => decide (e.id = userId)) ∘ fun e => if e.id = userId then f e else e) =
      fun e => decide (e.id = userId) := by
    funext e
    simp only [Function.comp_apply]
    split
    · rw [hf e]
    · rfl
  unfold AuthDb.findUserById AuthDb.updateUsers at *
  rw [List.find?_map, hpred, h, Option.map_some, if_pos hid]

/-- The service has written once the user is found and the e-mail is free, whatever the e-mail is. -/
theorem updateUser_spec (hs : WellFormed env s) {userId : String} (payload : UserUpdate)
    (hfound : (s.findUserById userId).isSome = true) :
    Post (updateUser env userId payload) (fun r s' =>
      ((∀ email, payload.email = some email → emailInUse env s userId email = false) →
        s' = s.updateUsers userId (payload.apply env) ∧ (HasAt env payload → ∃ user, r = .ok user)) ∧
      (¬ (∀ email, payload.email = some email → emailInUse env s userId email = false) →
        s' = s ∧ ∃ e, r = .error e)) s := by
  obtain ⟨d, hd⟩ := Option.isSome_iff_exists.1 hfound
  unfold updateUser
  refine post_get_seq (post_raiseIf_seq (fun hno => ?_) fun _ => post_raiseIf_seq (fun huse => ?_)
    fun huse => ?_)
  · rw [hd] at hno
    cases hno
  · refine ⟨fun hfree => ?_, fun _ => ⟨rfl, _, rfl⟩⟩
    obtain ⟨email, hemail, hused⟩ := (Option.any_eq_true _ _).1 huse
    rw [hfree email hemail] at hused
    cases hused
  · refine post_modify_seq (post_get_seq ?_)
    have hfind : (s.updateUsers userId (payload.apply env)).findUserById userId =
        some (payload.apply env d) :=
      @updateUsers_find _ _ (payload.apply env) (fun _ => rfl) _ hd
    rw [hfind]
    have hfree : ∀ email, payload.email = some email → emailInUse env s userId email = false := by
      intro email hemail
      rw [hemail] at huse
      simpa using huse
    refine post_ofExcept_seq (fun user _ => post_pure ⟨fun _ => ⟨rfl, fun _ => ⟨_, rfl⟩⟩, fun hno =>
        absurd hfree hno⟩)
      fun e he => ⟨fun _ => ⟨rfl, fun hat => ?_⟩, fun hno => absurd hfree hno⟩
    obtain ⟨user, hdecode, -⟩ := valid_iff.1 (apply_valid hat (hs.valid (findUserById_mem hd).1))
    rw [hdecode] at he
    cases he

/-- The route refuses what does not reach the write, and has written the rest. -/
theorem updateUserEndpoint_spec (hs : WellFormed env s) (now : Int) (token : Token) (userId : String)
    (payload : UserUpdate) : Post (updateUserEndpoint env now token userId payload) (fun r s' =>
      (Reaches env s now token userId payload → s' = s.updateUsers userId (payload.apply env) ∧
        (HasAt env payload → ∃ user, r = .ok user)) ∧
      (¬ Reaches env s now token userId payload → s' = s ∧ ∃ e, r = .error e)) s := by
  unfold updateUserEndpoint
  have hcurrent : Post (getCurrentUser env now token)
      (fun r s' => s' = s ∧ r = (getCurrentUser env now token s).1) s :=
        ⟨getCurrentUser_reads now token, rfl⟩
  refine post_seq hcurrent (fun current s' h => ?_) (fun e s' h => ?_)
  · obtain ⟨rfl, hcur⟩ := h
    -- A refusal contradicts what reaching the write says of the user.
    have hrefused : mayUpdate current userId payload = false → ∀ status detail,
        (Reaches env s' now token userId payload → s' = s'.updateUsers userId (payload.apply env) ∧
          (HasAt env payload → ∃ user, (.error (.http status detail) : Except AuthError
            UserResponse) = .ok user)) ∧
        (¬ Reaches env s' now token userId payload →
          s' = s' ∧ ∃ e, (.error (.http status detail) : Except AuthError UserResponse) = .error e) := by
      intro hno status detail
      refine ⟨fun hr => ?_, fun _ => ⟨rfl, _, rfl⟩⟩
      obtain ⟨other, hother, hmay⟩ := hr.allowed
      rw [← hcur] at hother
      obtain rfl := Except.ok.inj hother
      rw [hno] at hmay
      cases hmay
    refine post_raiseIf_seq (fun hno => hrefused ?_ _ _) fun howner => ?_
    · simp [mayUpdate, hno.1, hno.2]
    refine post_raiseIf_seq (fun hno => hrefused ?_ _ _) fun hrole => ?_
    · simp [mayUpdate, hno.2, Option.isSome_iff_ne_none.1 hno.1]
    refine post_raiseIf_seq (fun hno => hrefused ?_ _ _) fun hactive => ?_
    · simp [mayUpdate, hno.1, hno.2]
    have hmay : mayUpdate current userId payload = true := by
      simp only [mayUpdate, Bool.and_eq_true, Bool.or_eq_true, decide_eq_true_eq, Option.isNone_iff_eq_none]
      refine ⟨⟨?_, ?_⟩, ?_⟩
      · by_contra hno
        rw [not_or] at hno
        exact howner hno
      · by_contra hno
        rw [not_or] at hno
        exact hrole ⟨Option.isSome_iff_ne_none.2 hno.1, hno.2⟩
      · by_contra hno
        rw [not_or] at hno
        exact hactive ⟨Option.isSome_iff_ne_none.2 hno.1, hno.2⟩
    refine post_seq (getUserById_spec hs userId) (fun found s'' h => ?_) (fun e s'' h => ?_)
    · obtain ⟨rfl, found', hfound', hsome⟩ := h
      obtain rfl := Except.ok.inj hfound'
      cases found with
      | none =>
        refine post_raise ⟨fun hr => ?_, fun _ => ⟨rfl, _, rfl⟩⟩
        rw [hr.found] at hsome
        cases hsome
      | some user =>
        have hfound : (s''.findUserById userId).isSome = true := hsome.symm
        have hiff : Reaches env s'' now token userId payload ↔
            ∀ email, payload.email = some email → emailInUse env s'' userId email = false :=
          ⟨Reaches.free, fun hfree => ⟨⟨current, hcur.symm, hmay⟩, hfound, hfree⟩⟩
        rw [hiff]
        refine post_tryCatch (updateUser_spec hs payload hfound) (fun _ _ h => h) (fun e s' h => ?_)
        have hspec : ∀ e' : AuthError,
            ((∀ email, payload.email = some email → emailInUse env s'' userId email = false) →
              s' = s''.updateUsers userId (payload.apply env) ∧
                (HasAt env payload → ∃ user, (.error e' : Except AuthError UserResponse) = .ok user)) ∧
            (¬ (∀ email, payload.email = some email → emailInUse env s'' userId email = false) →
              s' = s'' ∧ ∃ e, (.error e' : Except AuthError UserResponse) = .error e) := by
          intro e'
          refine ⟨fun hfree => ⟨(h.1 hfree).1, fun hat => ?_⟩, fun hno => ⟨(h.2 hno).1, _, rfl⟩⟩
          obtain ⟨user, huser⟩ := (h.1 hfree).2 hat
          cases huser
        cases e with
        | value message => exact post_raise (hspec _)
        | _ => exact post_raise (hspec _)
    · obtain ⟨-, found, hfound, -⟩ := h
      cases hfound
  · obtain ⟨rfl, hcur⟩ := h
    refine ⟨fun hr => ?_, fun _ => ⟨rfl, _, rfl⟩⟩
    obtain ⟨other, hother, -⟩ := hr.allowed
    rw [← hcur] at hother
    cases hother

/-- An update keeps the store exactly if it brings no e-mail without `@` to its write. -/
theorem updateUserEndpoint_kept (hs : WellFormed env s) (now : Int) (token : Token) (userId : String)
    (payload : UserUpdate) : Post (updateUserEndpoint env now token userId payload) (Kept env s) s ↔
      (Reaches env s now token userId payload → HasAt env payload) := by
  have hspec := updateUserEndpoint_spec hs now token userId payload
  unfold Post at *
  by_cases hr : Reaches env s now token userId payload
  · obtain ⟨hwritten, hok⟩ := hspec.1 hr
    rw [hwritten]
    constructor
    · rintro ⟨-, hkept⟩ - email hemail
      obtain ⟨d, hd⟩ := Option.isSome_iff_exists.1 hr.found
      obtain ⟨hmem, hid⟩ := findUserById_mem hd
      have hat := (hkept.valid (List.mem_map.2 ⟨d, hmem, if_pos hid⟩)).at_sign
      simpa [UserUpdate.apply, hemail] using hat
    · intro hat
      obtain ⟨user, huser⟩ := hok (hat hr)
      rw [huser]
      exact kept_ok (hs.apply (hat hr) hr.free) user
  · obtain ⟨hsame, e, he⟩ := hspec.2 hr
    rw [hsame, he]
    exact ⟨fun _ h => absurd h hr, fun _ => kept_error hs e⟩

end Services

/-! ## Runs -/

/-- An identifier that is drawn for a user is nobody's. -/
def UserOp.Fresh (db : AuthDb) : UserOp → Prop
  | register _ userId _ _ _ => ∀ d ∈ db.users, d.id ≠ userId
  | _ => True

/-- An update of a user that reaches its write brings no e-mail without `@`. -/
def UserOp.Checked (env : Env) (db : AuthDb) : UserOp → Prop
  | updateUser now token userId payload => Reaches env db now token userId payload → HasAt env payload
  | _ => True

/-- A property of every operation of a run, in the store that it finds. -/
def Always (env : Env) (P : AuthDb → UserOp → Prop) : AuthDb → List UserOp → Prop
  | _, [] => True
  | db, op :: ops => P db op ∧ Always env P (op.exec env db).2 ops

/-- In a well-formed store an operation keeps the store exactly if it is checked. -/
theorem exec_kept {db : AuthDb} (hdb : WellFormed env db) {op : UserOp} (hfresh : op.Fresh db) :
    Post (op.exec env) (Kept env db) db ↔ op.Checked env db := by
  cases op with
  | register payload userId profileId createdAt hashed =>
    exact iff_of_true (registerUser_kept hdb payload profileId createdAt hashed hfresh) trivial
  | updateUser now token userId payload =>
    exact kept_discard.trans (updateUserEndpoint_kept hdb now token userId payload)
  | deleteUser now token userId => exact iff_of_true (deleteUserEndpoint_kept hdb now token userId) trivial
  | createProfile payload profileId =>
    exact iff_of_true (kept_discard.2
      (post_mono (fun _ _ h => h.1) (createProfile_kept hdb payload profileId))) trivial
  | updateProfile userId payload =>
      exact iff_of_true (kept_discard.2 (updateProfile_kept hdb userId payload)) trivial
  | deleteProfile userId => exact iff_of_true (post_modify (kept_ok (hdb.remove_profile userId) _)) trivial
  | updateMyProfile now token payload profileId =>
    exact iff_of_true (kept_discard.2 (updateMyProfile_kept hdb now token payload profileId)) trivial
  | changePassword now token verified hashed =>
    refine iff_of_true (kept_current hdb fun current => ?_) trivial
    exact answering_kept 400 (changePassword_kept hdb _ verified hashed)
  | resetPassword clock token hashed =>
      exact iff_of_true (resetPasswordEndpoint_kept hdb clock token hashed) trivial

/-- In a run from a well-formed store every operation leaves a well-formed store, and the store as
it was when it raises, exactly if no update of a user that reaches its write brings an e-mail
without `@`. -/
theorem store_stays_wellFormed (env : Env) {db : AuthDb} (hdb : WellFormed env db) (ops : List UserOp)
    (hfresh : Always env UserOp.Fresh db ops) :
    Always env (fun db op => Post (op.exec env) (Kept env db) db) db ops ↔
      Always env (UserOp.Checked env) db ops := by
  induction ops generalizing db with
  | nil => exact Iff.rfl
  | cons op ops ih =>
    have hstep := exec_kept hdb hfresh.1
    constructor
    · rintro ⟨hkept, hrest⟩
      exact ⟨hstep.1 hkept, (ih hkept.2 hfresh.2).1 hrest⟩
    · rintro ⟨hchecked, hrest⟩
      have hkept := hstep.2 hchecked
      exact ⟨hkept, (ih hkept.2 hfresh.2).2 hrest⟩

/-! ## A run -/

/-- Texts that are in lower case already. -/
def exampleEnv : Env where
  case := ⟨id, fun _ => rfl, fun _ h => h⟩
  hashJti := id
  accessLifetime := 3600000000
  resetLifetime := 1800000000

/-- The store with one user. -/
def exampleDb : AuthDb := { users := [⟨"u1", "ana@x", "hash", true, "user", "t"⟩] }

/-- The user registers. -/
def exampleRegister : UserOp := .register { email := "ana@x" } "u1" "p1" "t" (.ok "hash")

/-- The user changes the e-mail. -/
def exampleUpdate (email : String) : UserOp :=
  .updateUser 0 (.signed (createAccessToken "u1" 3600000000 0)) "u1" { email := some email }

theorem exampleRegister_exec : exampleRegister.exec exampleEnv {} = (.ok (), exampleDb) := rfl

theorem example_fresh (email : String) :
    Always exampleEnv UserOp.Fresh {} [exampleRegister, exampleUpdate email] :=
  ⟨fun _ h => absurd h List.not_mem_nil, trivial, trivial⟩

/-- A run with a new e-mail that contains `@`. -/
theorem store_stays_wellFormed_update : Always exampleEnv
    (fun db op => Post (op.exec exampleEnv) (Kept exampleEnv db) db) {}
    [exampleRegister, exampleUpdate "eva@x"] := by
  refine (store_stays_wellFormed exampleEnv WellFormed.empty _ (example_fresh _)).2 ⟨trivial, ?_, trivial⟩
  rintro - email hemail
  obtain rfl := Option.some.inj hemail
  decide

/-- A run with a new e-mail that does not: the answer is an error, and the store has changed to one
that is not well formed. -/
theorem invalid_email_stored : ¬ ∀ (env : Env) (ops : List UserOp), Always env UserOp.Fresh {} ops →
    Always env (fun db op => Post (op.exec env) (Kept env db) db) {} ops := by
  intro h
  obtain ⟨-, hkept, -⟩ := h exampleEnv [exampleRegister, exampleUpdate "nobody"] (example_fresh _)
  rw [exampleRegister_exec] at hkept
  have hat := (hkept.2.valid (d := ⟨"u1", "nobody", "hash", true, "user", "t"⟩)
      (List.mem_singleton.2 rfl)).at_sign
  revert hat
  decide

end TrackFlow.Auth
