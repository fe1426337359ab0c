import ProjectTrans.Lib.Template

/-!
# Lexing

A text of blanks, of characters that are tokens of their own, and of runs of characters that go
together, each of which is a token. A `Lexer` says which are which. A text is lexed part by part
wherever a run ends between two parts (`lex_append`, `lex_append_of_ends`), and so is a list of
texts with a separator between them (`Separates.lex_foldl_appendWith`).
-/

/-- The tokens of a language: the characters that are tokens of their own, whether a character
goes on with a run that has begun with another, and the token of a run. -/
structure Lexer (τ : Type*) where
  punctuation : Char → Option τ
  together : Char → Char → Bool
  token : Text → Option τ

namespace Lexer

/-- Tokens of one text and then of another. -/
def glue {τ : Type*} (a b : Option (List τ)) : Option (List τ) := do return (← a) ++ (← b)

variable {τ : Type*} (L : Lexer τ)

/-- The tokens of a run. -/
def flush (run : Text) : Option (List τ) := if run.isEmpty then some [] else (L.token run).map ([·])

/-- Whether a character goes on with a run. -/
def joins (run : Text) (c : Char) : Bool := run.head?.all fun d => L.together d c

/-- Lex a text, the characters of `run` being read already. -/
def lexRun (run : Text) : Text → Option (List τ)
  | [] => L.flush run
  | c :: cs =>
    if c = ' ' then glue (L.flush run) (lexRun [] cs)
    else
      match L.punctuation c with
      | some t => glue (L.flush run) (glue (some [t]) (lexRun [] cs))
      | none => if L.joins run c then lexRun (run ++ [c]) cs else glue (L.flush run) (lexRun [c] cs)

/-- The tokens of a text. -/
def lex (s : Text) : Option (List τ) := L.lexRun [] s

/-- Characters that end a run. -/
def isBreak (c : Char) : Bool := c = ' ' || (L.punctuation c).isSome

/-! ## Tokens of parts -/

section Glue

@[simp] theorem glue_some (a b : List τ) : glue (some a) (some b) = some (a ++ b) := rfl

@[simp] theorem nil_glue (a : Option (List τ)) : glue (some []) a = a := by
  cases a <;> rfl

@[simp] theorem glue_nil (a : Option (List τ)) : glue a (some []) = a := by
  cases a <;> simp [glue]

theorem glue_assoc (a b c : Option (List τ)) : glue (glue a b) c = glue a (glue b c) := by
  cases a <;> cases b <;> cases c <;> simp [glue]

end Glue

@[simp] theorem flush_nil : L.flush [] = some [] := rfl

theorem lex_nil : L.lex [] = some [] := rfl

variable {L}

variable (L) in
/-- The tokens of a break: a blank has none. -/
def breakTokens (c : Char) : List τ := if c = ' ' then [] else (L.punctuation c).toList

/-- **A break** ends the run before it, and what is behind it is lexed for itself. -/
theorem lexRun_break {run t : Text} {c : Char} (h : L.isBreak c = true) :
    L.lexRun run (c :: t) = glue (L.flush run) (glue (some (L.breakTokens c)) (L.lex t)) := by
  rw [lexRun, breakTokens]
  by_cases hblank : c = ' '
  · rw [if_pos hblank, if_pos hblank, nil_glue]
    rfl
  · have hpunct : (L.punctuation c).isSome = true := by simpa [isBreak, hblank] using h
    obtain ⟨token, htoken⟩ := Option.isSome_iff_exists.1 hpunct
    rw [if_neg hblank, if_neg hblank, htoken]
    rfl

theorem lex_break {t : Text} {c : Char} (h : L.isBreak c = true) :
    L.lex (c :: t) = glue (some (L.breakTokens c)) (L.lex t) := by
  rw [lex, lexRun_break h, flush_nil, nil_glue]

/-- A text that begins with a break ends the run before it. -/
theorem lexRun_append {run s t : Text} (h : t.head?.all L.isBreak = true) :
    L.lexRun run (s ++ t) = glue (L.lexRun run s) (L.lex t) := by
  induction s generalizing run with
  | nil =>
    cases t with
    | nil => exact (glue_nil _).symm
    | cons c t =>
      have h : L.isBreak c = true := h
      rw [List.nil_append, lexRun_break h, lexRun, lex_break h]
  | cons c s ih =>
    rw [List.cons_append, lexRun, lexRun]
    split
    · rw [ih, glue_assoc]
    · split
      · rw [ih, glue_assoc, glue_assoc]
      · split
        · exact ih
        · rw [ih, glue_assoc]

/-- **Two texts** between which a run ends, as the second one begins with a break. -/
theorem lex_append {s t : Text} (h : t.head?.all L.isBreak = true) :
    L.lex (s ++ t) = glue (L.lex s) (L.lex t) :=
  lexRun_append h

/-- **Two texts** between which a run ends, as the first one ends with a break. -/
theorem lex_append_of_ends {s t : Text} (h : s.getLast?.any L.isBreak = true) :
    L.lex (s ++ t) = glue (L.lex s) (L.lex t) := by
  obtain ⟨c, hlast, hc⟩ := (Option.any_eq_true _ _).1 h
  have hbreak : ∀ u : Text, (c :: u).head?.all L.isBreak = true := fun _ => hc
  obtain ⟨front, rfl⟩ := List.getLast?_eq_some_iff.1 hlast
  rw [List.append_assoc, List.singleton_append, lex_append (hbreak t), lex_append (hbreak []), lex_break hc,
    lex_break hc, lex_nil, glue_nil, glue_assoc]

/-- A blank between two texts. -/
theorem lex_blank (s t : Text) : L.lex (s ++ ' ' :: t) = glue (L.lex s) (L.lex t) := by
  have hblank : L.isBreak ' ' = true := rfl
  have hfront : (' ' :: t).head?.all L.isBreak = true := hblank
  rw [lex_append hfront, lex_break hblank, breakTokens, if_pos rfl, nil_glue]

/-! ## Runs -/

/-- Characters that go together are one run. -/
theorem lexRun_word {p : Char → Bool} (hplain : ∀ c, p c = true → L.isBreak c = false)
    (htogether : ∀ d c, p d = true → p c = true → L.together d c = true) {run w : Text}
    (hrun : ∀ c ∈ run, p c = true) (hw : ∀ c ∈ w, p c = true) : L.lexRun run w = L.flush (run ++ w) := by
  induction w generalizing run with
  | nil => rw [lexRun, List.append_nil]
  | cons c w ih =>
    obtain ⟨hc, hw⟩ := List.forall_mem_cons.1 hw
    obtain ⟨hblank, hpunct⟩ : c ≠ ' ' ∧ L.punctuation c = none := by simpa [isBreak] using hplain c hc
    have hjoin : L.joins run c = true := by
      cases run with
      | nil => rfl
      | cons d run => exact htogether d c (hrun d List.mem_cons_self) hc
    rw [lexRun, if_neg hblank, hpunct]
    simp only [hjoin, if_true]
    rw [ih (List.forall_mem_append.2 ⟨hrun, List.forall_mem_singleton.2 hc⟩) hw, List.append_assoc,
      List.singleton_append]

/-- **A word** is one token. -/
theorem lex_word {p : Char → Bool} (hplain : ∀ c, p c = true → L.isBreak c = false)
    (htogether : ∀ d c, p d = true → p c = true → L.together d c = true) {w : Text} (hne : w ≠ [])
    (hw : ∀ c ∈ w, p c = true) : L.lex w = (L.token w).map ([·]) := by
  have hempty : ¬w.isEmpty = true := by simpa using hne
  rw [lex, lexRun_word hplain htogether (fun _ h => absurd h List.not_mem_nil) hw, List.nil_append, flush,
    if_neg hempty]

/-! ## Separators -/

variable (L) in
/-- A separator: a run ends before and behind it, and these are its tokens. -/
structure Separates (sep : Text) (between : List τ) : Prop where
  front : sep.head?.all L.isBreak = true
  back : sep.getLast?.any L.isBreak = true
  lex_eq : L.lex sep = some between

variable {sep : Text} {between : List τ}

/-- **A separator between two texts.** -/
theorem Separates.lex_middle (h : L.Separates sep between) (s t : Text) :
    L.lex (s ++ sep ++ t) = glue (L.lex s) (glue (some between) (L.lex t)) := by
  have hends : (s ++ sep).getLast?.any L.isBreak = true := by
    have hback := h.back
    rw [List.getLast?_append]
    cases hlast : sep.getLast? with
    | none => simp [hlast] at hback
    | some c => simpa [hlast] using hback
  rw [lex_append_of_ends hends, lex_append h.front, h.lex_eq, glue_assoc]

/-- **Texts accumulated** behind another one, with a separator before each. -/
theorem Separates.lex_foldl_appendWith (h : L.Separates sep between) {α : Type*} {text : α → Text}
    {tokens : α → List τ} {l : List α} (hlex : ∀ y ∈ l, L.lex (text y) = some (tokens y)) {acc : Text}
    {ts : List τ} (hne : acc ≠ []) (hacc : L.lex acc = some ts) :
    L.lex ((l.map text).foldl (Text.appendWith sep) acc) =
      some (ts ++ l.flatMap fun y => between ++ tokens y) := by
  induction l generalizing acc ts with
  | nil => rw [List.map_nil, List.foldl_nil, hacc, List.flatMap_nil, List.append_nil]
  | cons y l ih =>
    obtain ⟨hy, hl⟩ := List.forall_mem_cons.1 hlex
    have hstep : L.lex (acc ++ sep ++ text y) = some (ts ++ (between ++ tokens y)) := by
      rw [h.lex_middle, hacc, hy]
      rfl
    rw [List.map_cons, List.foldl_cons, Text.appendWith_of_ne_nil hne, ih hl (by simp [hne]) hstep,
      List.flatMap_cons, List.append_assoc]

end Lexer
