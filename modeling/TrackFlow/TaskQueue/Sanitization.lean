import TrackFlow.Python.Regex

/-!
# Diagnostics that may be stored

`safe_code`, `sanitize_message` and `public_exception`. What is stored passes the length checks of
the tables (`safeCode_length`, `sanitizeMessage_length`), and a message does not become empty
(`sanitizeMessage_ne_empty`).
-/

namespace TrackFlow.TaskQueue

open TrackFlow.Python

/-! ## Codes -/

/-- `_SAFE_CODE`. -/
def isSafeCode (s : String) : Bool :=
  match s.toList with
  | [] => false
  | c :: cs => isLower c && cs.length ≤ 127 && cs.all fun d => isLower d || isAsciiDigit d || d == '_'

/-- `safe_code` of a text. -/
def safeCode (value : String) : String := if isSafeCode value then value else "internal_error"

theorem safeCode_length (value : String) : 1 ≤ (safeCode value).length ∧ (safeCode value).length ≤ 128 := by
  unfold safeCode
  split
  case isTrue h =>
    unfold isSafeCode at h
    rw [← String.length_toList]
    cases hs : value.toList with
    | nil => simp [hs] at h
    | cons c cs =>
      rw [hs] at h
      simp only [Bool.and_eq_true, decide_eq_true_eq] at h
      simp only [List.length_cons]
      omega
  · decide

/-! ## Patterns -/

/-- `[^\s/@]`. -/
def isUrlChar (c : Char) : Bool := !isSpace c && c != '/' && c != '@'

/-- `(?::[^\s/@]*)?`. -/
def urlPassword : List Char → List Char
  | ':' :: cs => ':' :: cs.takeWhile isUrlChar
  | _ => []

/-- `_URL_CREDENTIALS`: the scheme is kept. -/
def urlCredentials : Pattern := fun _ cs =>
  match cs with
  | [] => none
  | c :: rest =>
    let scheme := c :: rest.takeWhile fun d =>
      isLower (foldCase d) || isAsciiDigit d || d == '+' || d == '.' || d == '-'
    let tail := cs.drop scheme.length
    if isLower (foldCase c) && "://".toList.isPrefixOf tail then
      let user := (tail.drop 3).takeWhile fun d => isUrlChar d && d != ':'
      let afterUser := tail.drop (3 + user.length)
      let password := urlPassword afterUser
      if user ≠ [] ∧ (afterUser.drop password.length).head? = some '@' then
        some (scheme.length + 3 + user.length + password.length + 1, scheme ++ "://[redacted]@".toList)
      else none
    else none

/-- `_BEARER`. -/
def bearer (alnum : Char → Bool) : Pattern := fun before cs =>
  if boundary alnum before cs.head? && hasHead "bearer".toList cs then
    let blanks := (cs.drop 6).takeWhile isSpace
    let token := (cs.drop (6 + blanks.length)).takeWhile fun d =>
      isLower (foldCase d) || isAsciiDigit d || d ∈ "._~+/=-".toList
    if blanks ≠ [] ∧ token ≠ [] then some (6 + blanks.length + token.length,
      "Bearer [redacted]".toList) else none
  else none

/-- `[a-zA-Z0-9_-]`. -/
def isTokenChar (c : Char) : Bool := c.toNat < 128 && (c.isAlphanum || c == '_' || c == '-')

/-- The longest beginning of at most `n` characters that ends at a word boundary. -/
def boundedEnd (alnum : Char → Bool) (cs : List Char) : Nat → Option Nat
  | 0 => none
  | n + 1 => if boundary alnum cs[n]? cs[n + 1]? then some (n + 1) else boundedEnd alnum cs n

/-- `_JWT`. -/
def jwt (alnum : Char → Bool) : Pattern := fun before cs =>
  if boundary alnum before cs.head? && "eyJ".toList.isPrefixOf cs then
    let first := (cs.drop 3).takeWhile isTokenChar
    let second := (cs.drop (4 + first.length)).takeWhile isTokenChar
    let rest := cs.drop (5 + first.length + second.length)
    let dots := (cs.drop (3 + first.length)).head? = some '.' ∧
        (cs.drop (4 + first.length + second.length)).head? = some '.'
    if first ≠ [] ∧ second ≠ [] ∧ dots then
      (boundedEnd alnum rest (rest.takeWhile isTokenChar).length).map fun n =>
        (5 + first.length + second.length + n, "[redacted-jwt]".toList)
    else none
  else none

/-- The names of `_SECRET_ASSIGNMENT`. -/
def secretNames : List (List Char) :=
  ["api_key".toList, "api-key".toList, "apikey".toList, "token".toList, "secret".toList, "password".toList,
    "passwd".toList, "pwd".toList]

/-- `_SECRET_ASSIGNMENT`: the name is kept. -/
def secretAssignment (alnum : Char → Bool) : Pattern := fun before cs =>
  if boundary alnum before cs.head? then
    match secretNames.find? fun name =>
      hasHead name cs && boundary alnum cs[name.length - 1]? cs[name.length]? with
    | none => none
    | some name =>
      let n := name.length
      let blanks := ((cs.drop n).takeWhile isSpace).length
      let after := (cs.drop (n + blanks)).drop 1
      let blanks' := (after.takeWhile isSpace).length
      let value := (after.drop blanks').takeWhile fun d => !isSpace d && d != ',' && d != ';'
      if (cs.drop (n + blanks)).head?.any (fun d => d == ':' || d == '=') ∧ value ≠ [] then
        some (n + blanks + 1 + blanks' + value.length, cs.take n ++ "=[redacted]".toList)
      else none
  else none

/-! ## Messages -/

/-- `sanitize_message` of a text, with its default limit. -/
def sanitizeMessage (alnum : Char → Bool) (value : String) : String :=
  let line := value.toList.map fun c => if c == '\r' || c == '\n' then ' ' else c
  let clean := [urlCredentials, bearer alnum, jwt alnum, secretAssignment alnum].foldl (fun cs p =>
      sub p none 0 cs) line
  String.ofList (clean.take 500)

theorem sanitizeMessage_length (alnum : Char → Bool) (value : String) :
    (sanitizeMessage alnum value).length ≤ 500 := by
  simp [sanitizeMessage]

theorem urlCredentials_visible : urlCredentials.Visible := by
  intro before cs n r h
  unfold urlCredentials at h
  split at h
  · cases h
  · simp only at h
    split at h
    · split at h
      · cases h
        simp
      · cases h
    · cases h

theorem bearer_visible (alnum : Char → Bool) : (bearer alnum).Visible := by
  intro before cs n r h
  unfold bearer at h
  simp only at h
  split at h
  · split at h
    · cases h
      simp
    · cases h
  · cases h

theorem jwt_visible (alnum : Char → Bool) : (jwt alnum).Visible := by
  intro before cs n r h
  unfold jwt at h
  simp only at h
  split at h
  · split at h
    · obtain ⟨_, -, he⟩ := Option.map_eq_some_iff.1 h
      cases he
      simp
    · cases h
  · cases h

theorem secretAssignment_visible (alnum : Char → Bool) : (secretAssignment alnum).Visible := by
  intro before cs n r h
  unfold secretAssignment at h
  simp only at h
  split at h
  · split at h
    · cases h
    · split at h
      · cases h
        simp
      · cases h
  · cases h

/-- Text is replaced by text. -/
theorem sanitizeMessage_ne_empty (alnum : Char → Bool) {value : String} (h : value ≠ "") :
    sanitizeMessage alnum value ≠ "" := by
  have hline : (value.toList.map fun c => if c == '\r' || c == '\n' then ' ' else c) ≠ [] := by
    simpa [String.toList_eq_nil_iff] using h
  have hfold (ps : List Pattern) (hps : ∀ p ∈ ps, p.Visible) :
      ∀ {cs : List Char}, cs ≠ [] → ps.foldl (fun cs p => sub p none 0 cs) cs ≠ [] := by
    induction ps with
    | nil => exact fun hcs => hcs
    | cons p ps ih =>
      intro cs hcs
      exact ih (fun q hq => hps q (List.mem_cons_of_mem _ hq)) (sub_ne_nil (hps p List.mem_cons_self) hcs)
  have hclean := hfold [urlCredentials, bearer alnum, jwt alnum, secretAssignment alnum] (by
    simp [urlCredentials_visible, bearer_visible, jwt_visible, secretAssignment_visible]) hline
  intro hempty
  unfold sanitizeMessage at hempty
  rw [String.ofList_eq_empty_iff, List.take_eq_nil_iff] at hempty
  rcases hempty with h500 | hnil
  · cases h500
  · exact hclean hnil

/-- `public_exception`: the attribute `code` of the exception, if it is a text, and the name of its type. -/
def publicException (code : Option String) (typeName : String) : String × String :=
  ((code.filter isSafeCode).getD (lowerText typeName), "operation failed (" ++ typeName ++ ")")
where
  /-- `str.lower`. -/
  lowerText (s : String) : String := String.ofList (lower s)

end TrackFlow.TaskQueue
