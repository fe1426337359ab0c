import ProjectTrans.Model.Network.UrlResolver

/-!
# Ports

Which texts `stoi` reads: spaces, a sign and at least one digit, with anything behind the
digits, as long as the number is one of an `int` (`stoi_ok_iff`). What stands behind a
fragment mark makes no difference.
-/

namespace ProjectTrans

variable {p : Text}

/-- A text that begins with a number, of 32 bits with its sign. -/
def Readable (p : Text) : Prop :=
  ∃ space sign digits rest : Text, p = space ++ (sign ++ (digits ++ rest)) ∧ (∀ c ∈ space, isSpace c = true) ∧
    (sign = [] ∨ sign = ['+'] ∨ sign = ['-']) ∧ digits ≠ [] ∧ (∀ c ∈ digits, c.isDigit = true) ∧
    (∀ c ∈ rest.head?, c.isDigit = false) ∧
    Nat.ofDigitChars 10 digits 0 < 2 ^ 31 + (if sign = ['-'] then 1 else 0)

theorem readSign_other {c : Char} {s : Text} (hminus : c ≠ '-') (hplus : c ≠ '+') :
    readSign (c :: s) = (false, c :: s) := by
  unfold readSign
  split
  · rename_i h
    exact absurd (List.cons.inj h).1 hminus
  · rename_i h
    exact absurd (List.cons.inj h).1 hplus
  · rfl

/-- What a sign means. -/
theorem readSign_append {sign digits rest : Text} (hsign : sign = [] ∨ sign = ['+'] ∨ sign = ['-'])
    (hne : digits ≠ []) (hd : ∀ c ∈ digits, c.isDigit = true) :
    readSign (sign ++ (digits ++ rest)) = (decide (sign = ['-']), digits ++ rest) := by
  obtain rfl | rfl | rfl := hsign
  · cases digits with
    | nil => exact absurd rfl hne
    | cons c digits =>
      have hc : c.isDigit = true := hd c List.mem_cons_self
      have hminus : c ≠ '-' := by rintro rfl; exact absurd hc (by decide)
      have hplus : c ≠ '+' := by rintro rfl; exact absurd hc (by decide)
      exact readSign_other hminus hplus
  · rfl
  · rfl

/-- Every text is a sign, perhaps an empty one, and what `readSign` leaves. -/
theorem readSign_split (s : Text) : ∃ sign : Text, (sign = [] ∨ sign = ['+'] ∨ sign = ['-']) ∧
    s = sign ++ (readSign s).2 ∧ (readSign s).1 = decide (sign = ['-']) := by
  unfold readSign
  split
  · exact ⟨['-'], by simp, rfl, rfl⟩
  · exact ⟨['+'], by simp, rfl, rfl⟩
  · exact ⟨[], by simp, rfl, rfl⟩

theorem isSpace_not_digit {c : Char} (h : c.isDigit = true) : isSpace c = false := by
  simp only [Char.isDigit, Bool.and_eq_true, decide_eq_true_eq, ge_iff_le] at h
  have hlow : 48 ≤ c.toNat := h.1
  have hne : c ≠ ' ' := by rintro rfl; exact absurd hlow (by decide)
  simp [isSpace, hne]
  omega

theorem dropWhile_isSpace_of_sign {sign digits rest : Text} (hsign : sign = [] ∨ sign = ['+'] ∨ sign = ['-'])
    (hne : digits ≠ []) (hd : ∀ c ∈ digits, c.isDigit = true) :
    (sign ++ (digits ++ rest)).dropWhile isSpace = sign ++ (digits ++ rest) := by
  have hhead : ∀ {c : Char} {s : Text}, isSpace c = false → (c :: s).dropWhile isSpace = c :: s := by
    intro c s hc
    rw [List.dropWhile_cons, if_neg (by simp [hc])]
  obtain rfl | rfl | rfl := hsign
  · cases digits with
    | nil => exact absurd rfl hne
    | cons c digits => exact hhead (isSpace_not_digit (hd c List.mem_cons_self))
  · exact hhead (by decide)
  · exact hhead (by decide)

/-- **What `stoi` returns** on a text that begins with a number. -/
theorem stoi_of_split {space sign digits rest : Text} (hp : p = space ++ (sign ++ (digits ++ rest)))
    (hspace : ∀ c ∈ space, isSpace c = true) (hsign : sign = [] ∨ sign = ['+'] ∨ sign = ['-'])
    (hne : digits ≠ []) (hd : ∀ c ∈ digits, c.isDigit = true) (hrest : ∀ c ∈ rest.head?, c.isDigit = false) :
    stoi p =
      (if Nat.ofDigitChars 10 digits 0 < 2 ^ 31 + (if sign = ['-'] then 1 else 0) then
        .ok (if sign = ['-'] then -(Nat.ofDigitChars 10 digits 0 : ℤ) else Nat.ofDigitChars 10 digits 0)
      else .error .outOfRange) := by
  have hdrop : p.dropWhile isSpace = sign ++ (digits ++ rest) := by
    rw [hp, List.dropWhile_append_of_pos hspace, dropWhile_isSpace_of_sign hsign hne hd]
  have htake : (digits ++ rest).takeWhile Char.isDigit = digits := by
    rw [List.takeWhile_append_of_pos hd]
    cases rest with
    | nil => simp
    | cons c rest => simp [hrest c rfl]
  rw [stoi]
  simp only
  rw [hdrop, readSign_append hsign hne hd, htake, if_neg hne]
  generalize Nat.ofDigitChars 10 digits 0 = n
  by_cases hs : sign = ['-']
  · have hrange : (-2 ^ 31 ≤ -(n : ℤ) ∧ -(n : ℤ) < 2 ^ 31) ↔ n < 2 ^ 31 + 1 := by omega
    simp only [hs, decide_true, if_true, hrange]
  · have hrange : (-2 ^ 31 ≤ (n : ℤ) ∧ (n : ℤ) < 2 ^ 31) ↔ n < 2 ^ 31 + 0 := by omega
    simp only [hs, decide_false, Bool.false_eq_true, if_false, hrange]

/-- **`stoi` reads exactly the readable texts.** -/
theorem stoi_ok_iff : (∃ v, stoi p = .ok v) ↔ Readable p := by
  constructor
  · intro ⟨v, hv⟩
    obtain ⟨sign, hsign, hsplit, -⟩ := readSign_split (p.dropWhile isSpace)
    set body := (readSign (p.dropWhile isSpace)).2 with hbody
    have hne : body.takeWhile Char.isDigit ≠ [] := by
      intro he
      rw [stoi] at hv
      simp only at hv
      rw [if_pos he] at hv
      cases hv
    -- the text as it is read: blanks, a sign, digits, and the rest
    have hp : p = p.takeWhile isSpace ++
        (sign ++ (body.takeWhile Char.isDigit ++ body.dropWhile Char.isDigit)) := by
      rw [List.takeWhile_append_dropWhile, ← hsplit, List.takeWhile_append_dropWhile]
    have hspace : ∀ c ∈ p.takeWhile isSpace, isSpace c = true := fun c hc => List.mem_takeWhile_imp hc
    have hdigits : ∀ c ∈ body.takeWhile Char.isDigit, c.isDigit = true := fun c hc => List.mem_takeWhile_imp hc
    have hrest : ∀ c ∈ (body.dropWhile Char.isDigit).head?, c.isDigit = false := by
      intro c hc
      have hhead := List.head?_dropWhile_not Char.isDigit body
      rw [Option.mem_def] at hc
      rw [hc] at hhead
      exact hhead
    refine ⟨_, sign, _, _, hp, hspace, hsign, hne, hdigits, hrest, ?_⟩
    by_contra hbig
    rw [stoi_of_split hp hspace hsign hne hdigits hrest, if_neg hbig] at hv
    cases hv
  · intro ⟨space, sign, digits, rest, hp, hspace, hsign, hne, hd, hrest, hrange⟩
    exact ⟨_, by rw [stoi_of_split hp hspace hsign hne hd hrest, if_pos hrange]⟩

/-- `stoi` throws one of its own two exceptions. -/
theorem stoi_error {e : UrlFault} (h : stoi p = .error e) : e = .invalidArgument ∨ e = .outOfRange := by
  rw [stoi] at h
  simp only at h
  split at h
  · exact .inl (Except.error.inj h).symm
  · generalize (if (readSign (p.dropWhile isSpace)).1 = true then _ else _ : ℤ) = value at h
    split at h
    · cases h
    · exact .inr (Except.error.inj h).symm

/-- **`stoi` stops at a fragment mark.** -/
theorem stoi_append_mark (d x : Text) : stoi (d ++ '#' :: x) = stoi d := by
  have hdrop : (d ++ '#' :: x).dropWhile isSpace = d.dropWhile isSpace ++ '#' :: x := by
    rw [List.dropWhile_append]
    split
    · rename_i he
      rw [List.isEmpty_iff.1 he, List.dropWhile_cons, if_neg (by decide), List.nil_append]
    · rfl
  have hsign : ∀ s : Text, readSign (s ++ '#' :: x) = ((readSign s).1, (readSign s).2 ++ '#' :: x) := by
    intro s
    cases s with
    | nil => rfl
    | cons c s =>
      by_cases hminus : c = '-'
      · subst hminus
        rfl
      · by_cases hplus : c = '+'
        · subst hplus
          rfl
        · rw [List.cons_append, readSign_other hminus hplus, readSign_other hminus hplus, List.cons_append]
  have htake : ∀ s : Text, (s ++ '#' :: x).takeWhile Char.isDigit = s.takeWhile Char.isDigit := by
    intro s
    rw [List.takeWhile_append]
    split
    · rename_i he
      -- the digits go up to the mark, which is none
      rw [List.takeWhile_cons, if_neg (by decide), List.append_nil]
      exact (List.takeWhile_prefix Char.isDigit).eq_of_length he |>.symm
    · rfl
  rw [stoi, stoi]
  simp only
  rw [hdrop, hsign, htake]

/-- The digits of a port are read as the port. -/
theorem stoi_digits {digits : Text} (hne : digits ≠ []) (hd : ∀ c ∈ digits, c.isDigit = true)
    (hrange : Nat.ofDigitChars 10 digits 0 < 2 ^ 31) :
    stoi digits = .ok (Nat.ofDigitChars 10 digits 0 : ℤ) := by
  have hsplit : digits = [] ++ ([] ++ (digits ++ [])) := by simp
  rw [stoi_of_split hsplit (by simp) (.inl rfl) hne hd (by simp),
    if_pos (Nat.lt_add_right _ hrange)]
  rfl

end ProjectTrans
