import TrackFlow.TaskQueue.Sanitization

/-!
# The passwords of URLs in diagnostics

`_URL_CREDENTIALS` takes `scheme://user:password@` and asks for at least one character of a user.

- `urlCredentials_iff`: what the pattern matches;
- `urlCredentials_before`: a match that begins before `://` and does not take the scheme from there
  ends before it;
- `url_password_hidden`: the password of a URL has no influence on the sanitized text exactly when
  the URL has a user.
-/

namespace TrackFlow.TaskQueue

open TrackFlow.Python

/-! ## Texts around a password -/

/-- `[a-z0-9+.-]` under `(?i)`. -/
def isSchemeChar (d : Char) : Bool :=
  isLower (foldCase d) || isAsciiDigit d || d == '+' || d == '.' || d == '-'

/-- `[^\s/@:]`. -/
def isUserChar (d : Char) : Bool := isUrlChar d && d != ':'

/-- `[a-z][a-z0-9+.-]*` under `(?i)`. -/
def isScheme : List Char → Bool
  | [] => false
  | c :: cs => isLower (foldCase c) && cs.all isSchemeChar

/-- The text of the group `(?::[^\s/@]*)?`. -/
def isPasswordPart : List Char → Bool
  | [] => true
  | c :: cs => c == ':' && cs.all isUrlChar

/-- Line ends become blanks. -/
def oneLine (c : Char) : Char := if c == '\r' || c == '\n' then ' ' else c

/-- The substitutions of `sanitize_message`. -/
def redacted (alnum : Char → Bool) (line : List Char) : List Char :=
  [urlCredentials, bearer alnum, jwt alnum, secretAssignment alnum].foldl (fun cs p => sub p none 0 cs) line

/-- `sanitize_message` of a text, with a limit. -/
def sanitizeMessageTo (alnum : Char → Bool) (limit : Nat) (value : String) : String :=
  String.ofList ((redacted alnum (value.toList.map oneLine)).take limit)

/-- The default of the limit. -/
theorem sanitizeMessage_eq (alnum : Char → Bool) (value : String) :
    sanitizeMessage alnum value = sanitizeMessageTo alnum 500 value := rfl

/-- A text with `scheme://user:password@` in it; `after` begins with the host. -/
def withPassword (before scheme user after password : String) : String :=
  before ++ scheme ++ "://" ++ user ++ ":" ++ password ++ "@" ++ after

variable {before scheme user after password x t cs r : List Char} {b : Option Char} {n : Nat}

/-! ## What the pattern matches -/

theorem not_mem_of_all {p : Char → Bool} {c : Char} (h : cs.all p = true) (hc : p c = false) : c ∉ cs := by
  intro hin
  rw [List.all_eq_true] at h
  rw [h c hin] at hc
  cases hc

/-- What a run of characters takes from a text that goes on with another one. -/
theorem takeWhile_stop {p : Char → Bool} {c : Char} (hx : x.all p = true) (hc : p c = false) :
    (x ++ c :: t).takeWhile p = x := by
  rw [List.takeWhile_append_of_pos (List.all_eq_true.1 hx),
    List.takeWhile_cons_of_neg (by simp [hc]), List.append_nil]

theorem isScheme_chars (h : isScheme scheme = true) : scheme.all isSchemeChar = true := by
  cases scheme with
  | nil => rfl
  | cons c cs =>
    rw [isScheme, Bool.and_eq_true] at h
    rw [List.all_cons, Bool.and_eq_true]
    exact ⟨by simp [isSchemeChar, h.1], h.2⟩

theorem take_takeWhile (p : Char → Bool) (cs : List Char) :
    cs.take (cs.takeWhile p).length = cs.takeWhile p :=
  (List.prefix_iff_eq_take.1 (List.takeWhile_prefix p)).symm

/-- What follows a run of characters. -/
theorem takeWhile_split (p : Char → Bool) (cs : List Char) :
    cs = cs.takeWhile p ++ cs.drop (cs.takeWhile p).length :=
  calc cs = cs.take (cs.takeWhile p).length ++ cs.drop (cs.takeWhile p).length := (List.take_append_drop _ _).symm
    _ = _ := by rw [take_takeWhile]

theorem urlPassword_split (cs : List Char) :
    isPasswordPart (urlPassword cs) = true ∧ cs = urlPassword cs ++ cs.drop (urlPassword cs).length := by
  unfold urlPassword
  split
  · next cs =>
    refine ⟨by simp [isPasswordPart], ?_⟩
    rw [List.length_cons, List.drop_succ_cons, List.cons_append, ← takeWhile_split]
  · exact ⟨rfl, rfl⟩

theorem urlPassword_append {password : List Char} (h : isPasswordPart password = true) :
    urlPassword (password ++ '@' :: t) = password := by
  cases password with
  | nil => rfl
  | cons c cs =>
    rw [isPasswordPart, Bool.and_eq_true, beq_iff_eq] at h
    obtain ⟨rfl, hcs⟩ := h
    rw [List.cons_append, urlPassword, takeWhile_stop hcs (by decide)]

/-- The pattern, by the parts of the text. -/
theorem urlCredentials_cons (c : Char) (rest : List Char) : urlCredentials b (c :: rest) =
    let run := rest.takeWhile isSchemeChar
    let tail := rest.drop run.length
    if isLower (foldCase c) && "://".toList.isPrefixOf tail then
      let user := (tail.drop 3).takeWhile isUserChar
      let afterUser := tail.drop (3 + user.length)
      let password := urlPassword afterUser
      if user ≠ [] ∧ (afterUser.drop password.length).head? = some '@' then
        some (run.length + 1 + 3 + user.length + password.length + 1, c :: run ++ "://[redacted]@".toList)
      else none
    else none := rfl

/-- The pattern takes a scheme, a user, possibly a password, and the `@`. -/
theorem urlCredentials_iff : urlCredentials b cs = some (n, r) ↔ ∃ scheme user password rest,
    isScheme scheme = true ∧ user ≠ [] ∧ user.all isUserChar = true ∧ isPasswordPart password = true ∧
      cs = scheme ++ ':' :: '/' :: '/' :: (user ++ (password ++ '@' :: rest)) ∧ n = scheme.length + 3 +
      user.length + password.length + 1 ∧ r = scheme ++ "://[redacted]@".toList := by
  constructor
  · intro h
    cases cs with
    | nil => cases h
    | cons c rest =>
      rw [urlCredentials_cons] at h
      have hrest := takeWhile_split isSchemeChar rest
      have hrun : (rest.takeWhile isSchemeChar).all isSchemeChar = true := List.all_takeWhile
      simp only at h
      generalize rest.takeWhile isSchemeChar = run at h hrest hrun
      generalize rest.drop run.length = tail at h hrest
      split at h
      case isFalse => cases h
      next hstart =>
      rw [Bool.and_eq_true] at hstart
      obtain ⟨t, rfl⟩ := List.isPrefixOf_iff_prefix.1 hstart.2
      have hthree : ("://".toList ++ t).drop 3 = t := rfl
      rw [← List.drop_drop, hthree] at h
      have ht := takeWhile_split isUserChar t
      have huser : (t.takeWhile isUserChar).all isUserChar = true := List.all_takeWhile
      generalize t.takeWhile isUserChar = user at h ht huser
      generalize t.drop user.length = afterUser at h ht
      split at h
      case isFalse => cases h
      next hends =>
      obtain ⟨hpassword, hafter⟩ := urlPassword_split afterUser
      generalize urlPassword afterUser = password at h hends hpassword hafter
      obtain ⟨last, hlast⟩ := List.head?_eq_some_iff.1 hends.2
      rw [hlast] at hafter
      refine ⟨c :: run, user, password, last, ?_, hends.1, huser, hpassword, ?_, ?_, ?_⟩
      · rw [isScheme, hstart.1, hrun, Bool.and_self]
      · rw [hrest, ht, hafter]
        rfl
      · cases h
        rfl
      · cases h
        rfl
  · rintro ⟨scheme, user, password, rest, hscheme, hne, huser, hpassword, rfl, rfl, rfl⟩
    have hend : (user ++ (password ++ '@' :: rest)).takeWhile isUserChar = user := by
      cases password with
      | nil => exact takeWhile_stop huser (by decide)
      | cons c cs =>
        rw [isPasswordPart, Bool.and_eq_true, beq_iff_eq] at hpassword
        obtain ⟨rfl, -⟩ := hpassword
        exact takeWhile_stop huser (by decide)
    cases scheme with
    | nil => cases hscheme
    | cons c cs =>
      rw [isScheme, Bool.and_eq_true] at hscheme
      have hmark : "://".toList.isPrefixOf (':' :: '/' :: '/' ::
          (user ++ (password ++ '@' :: rest))) = true := rfl
      rw [List.cons_append, urlCredentials_cons, takeWhile_stop hscheme.2 (by decide)]
      simp only [List.drop_left, hscheme.1, hmark, Bool.and_self, if_true, ← List.drop_drop,
        List.drop_succ_cons, List.drop_zero, hend, urlPassword_append hpassword, List.head?_cons, hne,
        ne_eq, not_false_eq_true, and_self, List.length_cons]

/-- What the pattern takes ends with the `@`, and has a `/` only in `://`. -/
theorem isPasswordPart_slash {password : List Char} (h : isPasswordPart password = true) :
    '/' ∉ password := by
  cases password with
  | nil => exact List.not_mem_nil
  | cons c cs =>
    rw [isPasswordPart, Bool.and_eq_true, beq_iff_eq] at h
    obtain ⟨rfl, hcs⟩ := h
    exact List.not_mem_cons_of_ne_of_not_mem (by decide) (not_mem_of_all hcs (by decide))

/-- A match that begins before `://` and does not take its scheme from there ends before it. -/
theorem match_ends_before {password rest : List Char} (hx : isScheme x = false)
    (hscheme : isScheme scheme = true)
    (huser : user.all isUserChar = true) (hpassword : isPasswordPart password = true)
    (h : scheme ++ ':' :: '/' :: '/' :: (user ++ (password ++ '@' :: rest)) = x ++ ':' :: '/' :: '/' :: t) :
    ∃ rest', x = scheme ++ ':' :: '/' :: '/' :: (user ++ (password ++ '@' :: rest')) := by
  have hcolon : ':' ∉ scheme := not_mem_of_all (isScheme_chars hscheme) (by decide)
  have hslash : '/' ∉ user ++ (password ++ ['@']) := by
    simp [not_mem_of_all huser (show isUserChar '/' = false by decide), isPasswordPart_slash hpassword]
  have hparts : user ++ (password ++ '@' :: rest) = (user ++ (password ++ ['@'])) ++ rest := by simp
  rcases List.append_eq_append_iff.1 h with ⟨w, rfl, htail⟩ | ⟨w, rfl, htail⟩
  · match w, htail with
    | [], _ => simp [hscheme] at hx
    | [_], htail => simp at htail
    | [_, _], htail => simp at htail
    | d :: e :: f :: w, htail =>
      simp only [List.cons_append, List.cons.injEq] at htail
      obtain ⟨rfl, rfl, rfl, htail⟩ := htail
      rw [hparts] at htail
      rcases List.append_eq_append_iff.1 htail with ⟨v, rfl, -⟩ | ⟨v, hv, hrest⟩
      · exact ⟨v, by simp⟩
      · match v, hrest with
        | [], _ => exact ⟨[], by rw [List.append_nil] at hv; rw [← hv]⟩
        | [d], hrest =>
          -- The match would end with `:`.
          rw [List.singleton_append, List.cons.injEq] at hrest
          have hlast := congrArg List.getLast? hv
          simp [← hrest.1] at hlast
        | d :: e :: v, hrest =>
          simp only [List.cons_append, List.cons.injEq] at hrest
          have hin : '/' ∈ w ++ d :: e :: v := by simp [← hrest.2.1]
          exact absurd (hv ▸ hin) hslash
  · cases w with
    | nil =>
      rw [List.append_nil, hx] at hscheme
      cases hscheme
    | cons d w =>
      rw [List.cons_append, List.cons.injEq] at htail
      exact absurd (List.mem_append_right x (htail.1 ▸ List.mem_cons_self)) hcolon

/-- A match that does not take the scheme before `://` does not see it. -/
theorem urlCredentials_before (hx : isScheme x = false) :
    urlCredentials b (x ++ ':' :: '/' :: '/' :: t) = urlCredentials b x := by
  refine Option.ext fun m => ?_
  obtain ⟨n, r⟩ := m
  rw [urlCredentials_iff, urlCredentials_iff]
  constructor
  · rintro ⟨scheme, user, password, rest, hscheme, hne, huser, hpassword, hcs, hn, hr⟩
    obtain ⟨rest', hrest⟩ := match_ends_before hx hscheme huser hpassword hcs.symm
    exact ⟨scheme, user, password, rest', hscheme, hne, huser, hpassword, hrest, hn, hr⟩
  · rintro ⟨scheme, user, password, rest, hscheme, hne, huser, hpassword, rfl, hn, hr⟩
    exact ⟨scheme, user, password, rest ++ ':' :: '/' :: '/' :: t, hscheme, hne, huser, hpassword,
      by simp, hn, hr⟩

theorem urlCredentials_length (h : urlCredentials b cs = some (n, r)) : n ≤ cs.length := by
  obtain ⟨scheme, user, password, rest, -, -, -, -, rfl, rfl, -⟩ := urlCredentials_iff.1 h
  simp only [List.length_append, List.length_cons]
  omega

/-- The pattern does not look back. -/
theorem sub_urlCredentials_back (b' : Option Char) : ∀ {cs : List Char} {k : Nat},
    sub urlCredentials b k cs = sub urlCredentials b' k cs
  | [], _ => by simp [sub]
  | _ :: _, _ + 1 => rfl
  | _ :: _, 0 => rfl

/-- What is passed of a match. -/
theorem sub_skip {p : Pattern} :
    ∀ {x : List Char} {b : Option Char}, ∃ b', sub p b x.length (x ++ t) = sub p b' 0 t
  | [], b => ⟨b, rfl⟩
  | c :: x, _ => sub_skip (x := x) (b := some c)

/-- A match does not take a text that has no `@` after it. -/
theorem urlCredentials_short {y : List Char} (hx : '@' ∉ x) (h : urlCredentials b (y ++ x) = some (n, r)) :
    n ≤ y.length := by
  obtain ⟨scheme, user, password, rest, -, -, -, -, hcs, rfl, -⟩ := urlCredentials_iff.1 h
  have hmatch : y ++ x = (scheme ++ ':' :: '/' :: '/' :: (user ++ password)) ++ '@' :: rest :=
    by simpa using hcs
  rcases List.append_eq_append_iff.1 hmatch with ⟨w, -, rfl⟩ | ⟨w, rfl, htail⟩
  · exact absurd (by simp) hx
  · cases w with
    | nil =>
      rw [List.nil_append] at htail
      exact absurd (htail ▸ List.mem_cons_self) hx
    | cons d w =>
      simp only [List.length_append, List.length_cons]
      omega

/-! ## A URL with a user -/

/-- A URL with a user and a password. -/
theorem sub_match {password : List Char} (hscheme : isScheme scheme = true) (hne : user ≠ [])
    (huser : user.all isUserChar = true) (hpassword : password.all isUrlChar = true) :
    sub urlCredentials b 0 (scheme ++ ':' :: '/' :: '/' :: (user ++ (':' :: password ++ '@' :: after))) =
      scheme ++ "://[redacted]@".toList ++ sub urlCredentials none 0 after := by
  have hmatch : urlCredentials b (scheme ++ ':' :: '/' :: '/' ::
      (user ++ (':' :: password ++ '@' :: after))) = some (_, _) :=
    urlCredentials_iff.2 ⟨scheme, user, ':' :: password, after, hscheme, hne, huser,
        by simpa [isPasswordPart] using hpassword,
      rfl, rfl, rfl⟩
  cases scheme with
  | nil => cases hscheme
  | cons c cs =>
    rw [List.cons_append] at hmatch ⊢
    rw [sub, hmatch]
    obtain ⟨b', hrest⟩ : ∃ b', sub urlCredentials (some c) (cs ++ ':' :: '/' :: '/' ::
        (user ++ ':' :: password ++ ['@'])).length
        (cs ++ ':' :: '/' :: '/' :: (user ++ ':' :: password ++ ['@']) ++ after) =
          sub urlCredentials b' 0 after := sub_skip
    rw [sub_urlCredentials_back none] at hrest
    have hlength : (c :: cs).length + 3 + user.length + (':' :: password).length + 1 - 1 =
        (cs ++ ':' :: '/' :: '/' :: (user ++ ':' :: password ++ ['@'])).length := by
      simp only [List.length_append, List.length_cons, List.length_nil]
      omega
    have htext : cs ++ ':' :: '/' :: '/' :: (user ++ (':' :: password ++ '@' :: after)) =
        cs ++ ':' :: '/' :: '/' :: (user ++ ':' :: password ++ ['@']) ++ after := by simp
    dsimp only
    rw [hlength, htext, sub_urlCredentials_back none, hrest, sub_urlCredentials_back none]

/-- The text after a URL whose password is replaced does not depend on the password. -/
theorem sub_hidden (hscheme : isScheme scheme = true) (hne : user ≠ [])
    (huser : user.all isUserChar = true) :
    ∀ {before : List Char} {b : Option Char} {k : Nat}, k ≤ before.length → ∃ out, ∀ password : List Char,
      password.all isUrlChar = true →
      sub urlCredentials b k (before ++ scheme ++ ':' :: '/' :: '/' ::
        (user ++ (':' :: password ++ '@' :: after))) = out
  | [], b, 0, _ => ⟨_, fun _ hpassword => sub_match hscheme hne huser hpassword⟩
  | c :: _, _, _ + 1, hk => sub_hidden (b := some c) hscheme hne huser (Nat.le_of_succ_le_succ hk)
  | c :: before, b, 0, hk => by
    cases hown : isScheme (c :: before ++ scheme) with
    | true => exact ⟨_, fun _ hpassword => sub_match hown hne huser hpassword⟩
    | false =>
      have hmatch : ∀ password : List Char, urlCredentials b
          (c :: before ++ scheme ++ ':' :: '/' :: '/' :: (user ++ (':' :: password ++ '@' :: after))) =
            urlCredentials b (c :: before ++ scheme) := fun password => urlCredentials_before hown
      simp only [List.cons_append] at hmatch ⊢
      cases hm : urlCredentials b (c :: (before ++ scheme)) with
      | none =>
        obtain ⟨out, hout⟩ := sub_hidden (b := some c) hscheme hne huser (Nat.zero_le before.length)
        refine ⟨c :: out, fun password hpassword => ?_⟩
        rw [sub, hmatch, hm]
        exact congrArg (c :: ·) (hout password hpassword)
      | some m =>
        obtain ⟨n, r⟩ := m
        have hat : '@' ∉ scheme := not_mem_of_all (isScheme_chars hscheme) (by decide)
        have hlength := urlCredentials_short (y := c :: before) hat hm
        rw [List.length_cons] at hlength
        obtain ⟨out, hout⟩ := sub_hidden (b := some c) hscheme hne huser
            (show n - 1 ≤ before.length by omega)
        refine ⟨r ++ out, fun password hpassword => ?_⟩
        rw [sub, hmatch, hm]
        exact congrArg (r ++ ·) (hout password hpassword)

/-! ## A URL without a user -/

/-- Without a user there is no match. -/
theorem urlCredentials_anonymous (hscheme : isScheme scheme = true) :
    urlCredentials b (scheme ++ ':' :: '/' :: '/' :: ':' :: t) = none := by
  cases scheme with
  | nil => cases hscheme
  | cons c cs =>
    rw [isScheme, Bool.and_eq_true] at hscheme
    rw [List.cons_append, urlCredentials_cons, takeWhile_stop hscheme.2 (by decide)]
    have huser : (':' :: t).takeWhile isUserChar = [] := List.takeWhile_cons_of_neg (by decide)
    simp [huser]

/-- A match begins with a letter. -/
theorem sub_other {c : Char} (hc : isLower (foldCase c) = false) :
    sub urlCredentials b 0 (c :: cs) = c :: sub urlCredentials none 0 cs := by
  have hnone : urlCredentials b (c :: cs) = none := by simp [urlCredentials_cons, hc]
  rw [sub, hnone, sub_urlCredentials_back none]

/-- No match has the password of a URL without a user in it. -/
theorem sub_shown {password : List Char} (hpassword : password = [] ∨ password = [',']) :
    sub urlCredentials b 0 (x ++ ':' :: '/' :: '/' :: (':' :: password ++ '@' :: after)) =
      sub urlCredentials b 0 x ++ ':' :: '/' :: '/' :: ':' ::
      (password ++ '@' :: sub urlCredentials none 0 after) := by
  have hsuffix : ∀ b y, y ≠ [] → y <:+ x →
      urlCredentials b (y ++ ':' :: '/' :: '/' :: (':' :: password ++ '@' :: after)) =
        urlCredentials b y := by
    intro b y _ _
    cases hy : isScheme y with
    | false => exact urlCredentials_before hy
    | true =>
      rw [List.cons_append, urlCredentials_anonymous hy]
      cases hm : urlCredentials b y with
      | none => rfl
      | some m =>
        obtain ⟨n, r⟩ := m
        have hat : '@' ∉ y := not_mem_of_all (isScheme_chars hy) (by decide)
        obtain ⟨_, _, _, _, -, -, -, -, rfl, -⟩ := urlCredentials_iff.1 hm
        exact absurd (by simp) hat
  obtain ⟨b', hsplit⟩ := sub_append (Nat.zero_le _) hsuffix fun _ _ _ _ => urlCredentials_length
  have hmarks : isLower (foldCase ':') = false ∧ isLower (foldCase '/') = false ∧
      isLower (foldCase ',') = false ∧
      isLower (foldCase '@') = false := by decide
  rw [hsplit]
  rcases hpassword with rfl | rfl
  · simp [sub_other, hmarks]
  · simp [sub_other, hmarks]

/-! ## Commas -/

/-- A run of characters other than the comma. -/
theorem comma_run {p : Char → Bool} (hp : p ',' = false) (cs : List Char) :
    ',' ∉ cs.take (cs.takeWhile p).length := by
  rw [take_takeWhile]
  exact not_mem_of_all List.all_takeWhile hp

theorem comma_take_add {m n : Nat} (hm : ',' ∉ cs.take m) (hn : ',' ∉ (cs.drop m).take n) :
    ',' ∉ cs.take (m + n) := by
  rw [List.take_add, List.mem_append, not_or]
  exact ⟨hm, hn⟩

theorem comma_head {d : Char} (hd : cs.head? = some d) (hne : ',' ≠ d) : ',' ∉ cs.take 1 := by
  obtain ⟨rest, rfl⟩ := List.head?_eq_some_iff.1 hd
  simpa using hne

/-- A word without a comma, up to case. -/
theorem comma_hasHead {word : List Char} (h : hasHead word cs = true) (hword : ',' ∉ word) :
    ',' ∉ cs.take word.length := by
  intro hin
  have hprefix := List.prefix_iff_eq_take.1 (List.isPrefixOf_iff_prefix.1 h)
  rw [← List.map_take] at hprefix
  have hfold : foldCase ',' ∈ (cs.take word.length).map foldCase := List.mem_map_of_mem hin
  rw [← hprefix] at hfold
  exact hword hfold

theorem bearer_spares (alnum : Char → Bool) : (bearer alnum).Spares ',' := by
  intro before cs n r h
  unfold bearer at h
  simp only at h
  split at h
  case isFalse => cases h
  next hhead =>
  rw [Bool.and_eq_true] at hhead
  split at h
  case isFalse => cases h
  cases h
  refine ⟨by omega, ?_, by decide⟩
  have hword : ',' ∉ cs.take 6 := comma_hasHead hhead.2 (by decide)
  have hblanks : ',' ∉ cs.take (6 + ((cs.drop 6).takeWhile isSpace).length) :=
    comma_take_add hword (comma_run (by decide) _)
  exact comma_take_add hblanks (comma_run (by decide) _)

theorem boundedEnd_le {alnum : Char → Bool} : ∀ {k : Nat}, boundedEnd alnum cs k = some n → n ≤ k
  | k + 1, h => by
    rw [boundedEnd] at h
    split at h
    · cases h
      exact Nat.le_refl _
    · exact Nat.le_succ_of_le (boundedEnd_le h)

theorem jwt_spares (alnum : Char → Bool) : (jwt alnum).Spares ',' := by
  intro before cs n r h
  unfold jwt at h
  simp only at h
  split at h
  case isFalse => cases h
  next hhead =>
  rw [Bool.and_eq_true] at hhead
  split at h
  case isFalse => cases h
  next hdots =>
  obtain ⟨m, hm, he⟩ := Option.map_eq_some_iff.1 h
  cases he
  refine ⟨by omega, ?_, by decide⟩
  have hword : ',' ∉ cs.take 3 := by
    have htaken : "eyJ".toList = cs.take 3 :=
      List.prefix_iff_eq_take.1 (List.isPrefixOf_iff_prefix.1 hhead.2)
    rw [← htaken]
    decide
  have hfirst := comma_take_add hword (comma_run (p := isTokenChar) (by decide) _)
  generalize ((cs.drop 3).takeWhile isTokenChar).length = first at hdots hm hfirst ⊢
  have hsecond := comma_run (p := isTokenChar) (by decide) (cs.drop (4 + first))
  generalize ((cs.drop (4 + first)).takeWhile isTokenChar).length = second at hdots hm hsecond ⊢
  have hrest := comma_run (p := isTokenChar) (by decide) (cs.drop (5 + first + second))
  have hlast : ',' ∉ (cs.drop (5 + first + second)).take m := fun hin =>
    hrest (List.take_subset_take_left _ (boundedEnd_le hm) hin)
  have hdot : ',' ∉ (cs.drop (3 + first)).take 1 := comma_head hdots.2.2.1 (by decide)
  have hdot' : ',' ∉ (cs.drop (4 + first + second)).take 1 := comma_head hdots.2.2.2 (by decide)
  rw [show 5 + first + second = 3 + first + 1 + second + 1 by omega] at hlast ⊢
  rw [show 4 + first + second = 3 + first + 1 + second by omega] at hdot'
  rw [show 4 + first = 3 + first + 1 by omega] at hsecond
  exact comma_take_add (comma_take_add (comma_take_add (comma_take_add hfirst hdot) hsecond) hdot') hlast

theorem secretAssignment_spares (alnum : Char → Bool) : (secretAssignment alnum).Spares ',' := by
  intro before cs n r h
  unfold secretAssignment at h
  simp only at h
  split at h
  case isFalse => cases h
  split at h
  · cases h
  next name hname =>
  split at h
  case isFalse => cases h
  next hvalue =>
  cases h
  have hfound := List.find?_some hname
  rw [Bool.and_eq_true] at hfound
  have hplain : ∀ word ∈ secretNames, ',' ∉ word := by decide
  have hword : ',' ∉ cs.take name.length :=
    comma_hasHead hfound.1 (hplain name (List.mem_of_find?_eq_some hname))
  have hblanks := comma_take_add hword (comma_run (p := isSpace) (by decide) _)
  refine ⟨by omega, ?_, ?_⟩
  · have hsign : ',' ∉ (cs.drop
        (name.length + ((cs.drop name.length).takeWhile isSpace).length)).take 1 := by
      obtain ⟨d, hd, hsign⟩ := (Option.any_eq_true _ _).1 hvalue.1
      refine comma_head hd ?_
      rintro rfl
      cases hsign
    simp only [List.drop_drop]
    have hafter := comma_take_add (comma_take_add hblanks hsign) (comma_run (p := isSpace) (by decide) _)
    exact comma_take_add hafter (comma_run (by decide) _)
  · simp only [List.mem_append, not_or]
    exact ⟨hword, by decide⟩

/-! ## The password of a URL -/

/-- The patterns after `_URL_CREDENTIALS` take and give no comma. -/
theorem count_comma (alnum : Char → Bool) (cs : List Char) :
    (redacted alnum cs).count ',' = (sub urlCredentials none 0 cs).count ',' := by
  simp only [redacted, List.foldl_cons, List.foldl_nil, (secretAssignment_spares alnum).count_sub,
    (jwt_spares alnum).count_sub, (bearer_spares alnum).count_sub, List.drop_zero]

theorem map_oneLine {p : Char → Bool} (h : cs.all p = true) (hr : p '\r' = false) (hn : p '\n' = false) :
    cs.map oneLine = cs := by
  refine (List.map_congr_left fun c hc => if_neg ?_).trans (List.map_id cs)
  simp only [Bool.or_eq_true, beq_iff_eq, not_or]
  exact ⟨fun heq => not_mem_of_all h hr (heq ▸ hc), fun heq => not_mem_of_all h hn (heq ▸ hc)⟩

/-- The characters of the line that is sanitized. -/
theorem toList_withPassword {before scheme user after password : String}
    (hscheme : isScheme scheme.toList = true)
    (huser : user.toList.all isUserChar = true) (hpassword : password.toList.all isUrlChar = true) :
    (withPassword before scheme user after password).toList.map oneLine =
      before.toList.map oneLine ++ scheme.toList ++ ':' :: '/' :: '/' ::
        (user.toList ++ (':' :: password.toList ++ '@' :: after.toList.map oneLine)) := by
  have hschemeKept : scheme.toList.map oneLine = scheme.toList :=
    map_oneLine (isScheme_chars hscheme) (by decide) (by decide)
  have huserKept : user.toList.map oneLine = user.toList := map_oneLine huser (by decide) (by decide)
  have hpasswordKept : password.toList.map oneLine = password.toList :=
    map_oneLine hpassword (by decide) (by decide)
  have hmarks : oneLine ':' = ':' ∧ oneLine '/' = '/' ∧ oneLine '@' = '@' := by decide
  simp [withPassword, hschemeKept, huserKept, hpasswordKept, hmarks]

/-- **Redaction hides URL passwords exactly when there is a user**: whatever is around the URL, the
sanitized text is the same for any two passwords, under every limit, if and only if the user is not
empty. -/
theorem url_password_hidden (alnum : Char → Bool) (before scheme user after : String)
    (hscheme : isScheme scheme.toList = true) (huser : user.toList.all isUserChar = true) :
    (∀ password password' : String, password.toList.all isUrlChar = true →
      password'.toList.all isUrlChar = true → ∀ limit,
      sanitizeMessageTo alnum limit (withPassword before scheme user after password) =
      sanitizeMessageTo alnum limit (withPassword before scheme user after password')) ↔ user ≠ "" := by
  constructor
  · -- Without a user a comma in the password is a comma in the sanitized text.
    rintro hsame rfl
    have hcount (password : String) (hp : password.toList = [] ∨ password.toList = [',']) :
        (redacted alnum ((withPassword before scheme "" after password).toList.map oneLine)).count ',' =
          (sub urlCredentials none 0 (before.toList.map oneLine ++ scheme.toList)).count ',' +
            (password.toList.count ',' +
              (sub urlCredentials none 0 (after.toList.map oneLine)).count ',') := by
      have hpassword : password.toList.all isUrlChar = true := by
        rcases hp with h | h <;> rw [h] <;> decide
      rw [count_comma, toList_withPassword hscheme huser hpassword]
      change (sub urlCredentials none 0 (before.toList.map oneLine ++ scheme.toList ++
        ':' :: '/' :: '/' :: (':' :: password.toList ++ '@' :: after.toList.map oneLine))).count ',' = _
      rw [sub_shown hp]
      simp
    have hequal : redacted alnum ((withPassword before scheme "" after "").toList.map oneLine) =
        redacted alnum ((withPassword before scheme "" after ",").toList.map oneLine) := by
      have hlimit := hsame "" "," rfl (by decide)
      unfold sanitizeMessageTo at hlimit
      generalize redacted alnum ((withPassword before scheme "" after "").toList.map oneLine) =
        l at hlimit ⊢
      generalize redacted alnum ((withPassword before scheme "" after ",").toList.map oneLine) =
        l' at hlimit ⊢
      have htake := String.ofList_injective (hlimit (l.length + l'.length))
      rwa [List.take_of_length_le (by omega), List.take_of_length_le (by omega)] at htake
    have h := congrArg (List.count ',') hequal
    rw [hcount "" (Or.inl rfl), hcount "," (Or.inr rfl)] at h
    have hnone : "".toList.count ',' = 0 := by decide
    have hone : ",".toList.count ',' = 1 := by decide
    omega
  · intro hne password password' hpassword hpassword' limit
    have hne' : user.toList ≠ [] := fun h => hne (String.toList_eq_nil_iff.1 h)
    obtain ⟨out, hout⟩ : ∃ out, ∀ password : List Char, password.all isUrlChar = true →
        sub urlCredentials none 0 (before.toList.map oneLine ++ scheme.toList ++ ':' :: '/' :: '/' ::
          (user.toList ++ (':' :: password ++ '@' :: after.toList.map oneLine))) = out :=
      sub_hidden hscheme hne' huser (Nat.zero_le _)
    unfold sanitizeMessageTo redacted
    rw [toList_withPassword hscheme huser hpassword, toList_withPassword hscheme huser hpassword']
    simp only [List.foldl_cons, hout _ hpassword, hout _ hpassword']

/-- A URL with a user. -/
theorem url_password_hidden_user :
    sanitizeMessageTo Char.isAlphanum 500 (withPassword "at " "postgresql" "alice" "db/report" "p4ss") =
      sanitizeMessageTo Char.isAlphanum 500 (withPassword "at " "postgresql" "alice" "db/report" "other") :=
  (url_password_hidden Char.isAlphanum "at " "postgresql" "alice" "db/report" (by decide) (by decide)).2
    (by decide) "p4ss" "other" (by decide) (by decide) 500

/-- A Redis URL with a password only. -/
theorem url_password_shown :
    (isScheme "redis".toList = true ∧ "".toList.all isUserChar = true ∧ "password".toList.all isUrlChar =
      true ∧ "drowssap".toList.all isUrlChar = true) ∧
    sanitizeMessage Char.isAlphanum (withPassword "" "redis" "" "host" "password") ≠
      sanitizeMessage Char.isAlphanum (withPassword "" "redis" "" "host" "drowssap") := by
  decide +kernel

end TrackFlow.TaskQueue
