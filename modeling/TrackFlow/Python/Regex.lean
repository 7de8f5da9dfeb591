import TrackFlow.Python.Text

/-!
# Substitution by patterns

`re.sub` for patterns whose match at a place is determined: a `Pattern` says how many characters it
takes there, and what stands for them. White space and case are those of `re` on Unicode text; `\w`
beyond ASCII is left to a parameter, the letters and digits of Unicode.

- `sub_ne_nil`: text does not vanish under a pattern that never replaces by nothing;
- `sub_append`: when the matches of a first part do not see what follows, the parts are substituted apart;
- `Pattern.Spares.count_sub`: a character that no match takes or gives occurs as often as before.
-/

namespace TrackFlow.Python

/-! ## Characters -/

/-- `\w`: a letter, a digit or the underscore. -/
def isWord (alnum : Char → Bool) (c : Char) : Bool :=
  if c.toNat < 128 then c.isAlphanum || c == '_' else alnum c

/-- `\b` between two neighbours, either of which may be missing. -/
def boundary (alnum : Char → Bool) (before after : Option Char) : Bool :=
  before.any (isWord alnum) != after.any (isWord alnum)

/-- What `re.IGNORECASE` compares: ASCII letters in lower case, and the characters that it takes for
`i`, `k` and `s`. -/
def foldCase (c : Char) : Char :=
  if 65 ≤ c.toNat ∧ c.toNat ≤ 90 then Char.ofNat (c.toNat + 32)
  else if c.toNat = 0x130 ∨ c.toNat = 0x131 then 'i'
  else if c.toNat = 0x212a then 'k'
  else if c.toNat = 0x17f then 's'
  else c

/-- `[a-z]`. -/
def isLower (c : Char) : Bool := 97 ≤ c.toNat && c.toNat ≤ 122

/-- `[0-9]`. -/
def isAsciiDigit (c : Char) : Bool := 48 ≤ c.toNat && c.toNat ≤ 57

/-- Whether the text begins with `word` up to case. -/
def hasHead (word : List Char) (cs : List Char) : Bool := word.isPrefixOf (cs.map foldCase)

/-! ## Substitution -/

/-- What a pattern does at a place, after the character `before`: the length of the match and what
replaces it. -/
abbrev Pattern : Type := Option Char → List Char → Option (Nat × List Char)

/-- `re.sub`, where `skip` characters of a match are still to be passed. -/
def sub (p : Pattern) : Option Char → Nat → List Char → List Char
  | _, _, [] => []
  | _, skip + 1, c :: cs => sub p (some c) skip cs
  | before, 0, c :: cs =>
    match p before (c :: cs) with
    | some (n, r) => r ++ sub p (some c) (n - 1) cs
    | none => c :: sub p (some c) 0 cs

/-- A pattern that does not replace by nothing. -/
def Pattern.Visible (p : Pattern) : Prop := ∀ before cs n r, p before cs = some (n, r) → r ≠ []

theorem sub_ne_nil {p : Pattern} (hp : p.Visible) {before : Option Char} {cs : List Char} (h : cs ≠ []) :
    sub p before 0 cs ≠ [] := by
  cases cs with
  | nil => exact absurd rfl h
  | cons c cs =>
    unfold sub
    split
    · rename_i n r hmatch
      simp [hp _ _ _ _ hmatch]
    · simp

/-- The substitution of a text whose first part has only matches of its own. -/
theorem sub_append {p : Pattern} {t : List Char} : ∀ {x : List Char} {before : Option Char}
    {k : Nat}, k ≤ x.length →
    (∀ b y, y ≠ [] → y <:+ x → p b (y ++ t) = p b y) → (∀ b y n r, p b y = some (n, r) → n ≤ y.length) →
      ∃ b, sub p before k (x ++ t) = sub p before k x ++ sub p b 0 t
  | [], before, 0, _, _, _ => ⟨before, rfl⟩
  | c :: x, before, k + 1, hk, hp, hn => by
    have hrest : ∃ b, sub p (some c) k (x ++ t) = sub p (some c) k x ++ sub p b 0 t :=
      sub_append (Nat.le_of_succ_le_succ hk) (fun b y hy hx =>
          hp b y hy (hx.trans (List.suffix_cons c x))) hn
    rw [List.cons_append, sub, sub]
    exact hrest
  | c :: x, before, 0, _, hp, hn => by
    have hx : ∀ b y, y ≠ [] → y <:+ x → p b (y ++ t) = p b y :=
      fun b y hy hsuffix => hp b y hy (hsuffix.trans (List.suffix_cons c x))
    have hhead : p before (c :: (x ++ t)) = p before (c :: x) :=
      hp before (c :: x) (by simp) List.suffix_rfl
    rw [List.cons_append, sub, sub, hhead]
    cases hmatch : p before (c :: x) with
    | none =>
      obtain ⟨b, hb⟩ : ∃ b, sub p (some c) 0 (x ++ t) = sub p (some c) 0 x ++ sub p b 0 t :=
        sub_append (Nat.zero_le x.length) hx hn
      exact ⟨b, by simp only [hb, List.cons_append]⟩
    | some m =>
      obtain ⟨n, r⟩ := m
      have hlength : n - 1 ≤ x.length := by
        have hle := hn _ _ _ _ hmatch
        rw [List.length_cons] at hle
        omega
      obtain ⟨b, hb⟩ : ∃ b, sub p (some c) (n - 1) (x ++ t) = sub p (some c) (n - 1) x ++ sub p b 0 t :=
        sub_append hlength hx hn
      exact ⟨b, by simp only [hb, List.append_assoc]⟩

/-- A pattern whose matches neither contain `c` nor are replaced by it. -/
def Pattern.Spares (c : Char) (p : Pattern) : Prop :=
  ∀ before cs n r, p before cs = some (n, r) → 0 < n ∧ c ∉ cs.take n ∧ c ∉ r

theorem Pattern.Spares.count_sub {c : Char} {p : Pattern} (h : p.Spares c) : ∀ {cs : List Char}
    {before : Option Char}
    {k : Nat}, (sub p before k cs).count c = (cs.drop k).count c
  | [], before, k => by cases k <;> simp [sub]
  | d :: cs, before, k + 1 => by
    rw [sub, List.drop_succ_cons]
    exact h.count_sub
  | d :: cs, before, 0 => by
    rw [sub]
    cases hmatch : p before (d :: cs) with
    | none => simp [h.count_sub, List.count_cons]
    | some m =>
      obtain ⟨n, r⟩ := m
      obtain ⟨hpos, htaken, hgiven⟩ := h _ _ _ _ hmatch
      obtain ⟨n, rfl⟩ : ∃ n', n = n' + 1 := ⟨n - 1, by omega⟩
      have hsplit : (d :: cs).count c = ((d :: cs).take (n + 1)).count c + (cs.drop n).count c := by
        rw [← List.count_append, ← List.drop_succ_cons (a := d), List.take_append_drop]
      rw [List.count_eq_zero_of_not_mem htaken] at hsplit
      simp [h.count_sub, List.count_eq_zero_of_not_mem hgiven, hsplit]

end TrackFlow.Python
