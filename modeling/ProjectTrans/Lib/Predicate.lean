import ProjectTrans.Lib.Lexer

/-!
# Predicates of a query language

The text of a condition on a row: comparisons of a column with a placeholder, put
together with `AND`, `OR` and parentheses, where `AND` binds tighter. `read` lexes and
parses it, `Expr.eval` gives its truth on a row once the placeholders are filled in
order. The rules below compute both for texts built from parts, and `parse_groups` is
the reading of lists of alternatives that are joined by `AND` without parentheses: the
`AND` ties the last alternative of one list to the first of the next (`branches`).
-/

namespace Predicate

/-- A comparison sign. -/
inductive Sign
  | lt
  | le
  | gt
  | ge
  | eq
  deriving DecidableEq, Repr

/-- A connective. -/
inductive Conn
  | and
  | or
  deriving DecidableEq, Repr

inductive Token
  | word (name : Text)
  | sign (s : Sign)
  | hole
  | lparen
  | rparen
  | conn (c : Conn)
  deriving DecidableEq, Repr

/-! ## Lexing -/

def isWordChar (c : Char) : Bool := c.isAlphanum || c = '_' || 128 ≤ c.toNat

def isSignChar (c : Char) : Bool := c = '<' || c = '>' || c = '='

/-- Characters that are tokens of their own. -/
def punctuation (c : Char) : Option Token :=
  if c = '(' then some .lparen
  else if c = ')' then some .rparen
  else if c = '?' then some .hole
  else none

/-- Words that cannot name a column. -/
def reserved : List Text :=
  ["ADD", "ALL", "ALTER", "AS", "AUTOINCREMENT", "BETWEEN", "CASE", "CHECK", "COLLATE", "COMMIT",
    "CONSTRAINT", "CREATE", "DEFAULT", "DEFERRABLE", "DELETE", "DISTINCT", "DROP", "ELSE", "ESCAPE",
    "EXCEPT", "EXISTS", "FOREIGN", "FROM", "GROUP", "HAVING", "IN", "INDEX", "INSERT", "INTERSECT", "INTO",
    "IS", "ISNULL", "JOIN", "LIMIT", "NOT", "NOTHING", "NOTNULL", "NULL", "ON", "ORDER", "PRIMARY",
    "REFERENCES", "RETURNING", "SELECT", "SET", "TABLE", "THEN", "TO", "TRANSACTION", "UNION", "UNIQUE",
    "UPDATE", "USING", "VALUES", "WHEN", "WHERE"].map String.toList

/-- The token of a word: the connectives and the reserved words in either case. -/
def wordToken (w : Text) : Option Token :=
  if w.map Char.toUpper = "AND".toList then some (.conn .and)
  else if w.map Char.toUpper = "OR".toList then some (.conn .or)
  else if reserved.contains (w.map Char.toUpper) then none
  else if w.head?.any Char.isDigit then none
  else some (.word w)

/-- The sign that a text is. -/
def signOf (w : Text) : Option Sign :=
  if w = ['<'] then some .lt
  else if w = ['<', '='] then some .le
  else if w = ['>'] then some .gt
  else if w = ['>', '='] then some .ge
  else if w = ['='] then some .eq
  else none

/-- The characters of a word go together, and those of a sign. -/
def together (d c : Char) : Bool := isWordChar d && isWordChar c || isSignChar d && isSignChar c

/-- The token of a run of characters of one kind. -/
def runToken (run : Text) : Option Token :=
  if run.head?.any isWordChar then wordToken run else (signOf run).map .sign

def lexer : Lexer Token where
  punctuation := punctuation
  together := together
  token := runToken

/-- A word that can name a column. -/
def Identifier (w : Text) : Prop := w ≠ [] ∧ w.all isWordChar = true ∧ wordToken w = some (.word w)

instance : DecidablePred Identifier := fun _ => inferInstanceAs (Decidable (_ ∧ _ ∧ _))

theorem together_word (d c : Char) (hd : isWordChar d = true) (hc : isWordChar c = true) :
    together d c = true := by
  rw [together, hd, hc]
  rfl

/-- A word begins with one of its characters. -/
theorem head_word {w : Text} (hne : w ≠ []) (hw : ∀ c ∈ w, isWordChar c = true) :
    w.head?.any isWordChar = true := by
  cases w with
  | nil => exact absurd rfl hne
  | cons c w => exact hw c List.mem_cons_self

theorem isBreak_word (c : Char) (h : isWordChar c = true) : lexer.isBreak c = false := by
  have hblank : c ≠ ' ' := by
    rintro rfl
    exact absurd h (by decide)
  have hpunct : punctuation c = none := by
    unfold punctuation
    iterate 3 rw [if_neg (by rintro rfl; exact absurd h (by decide))]
  simp [Lexer.isBreak, lexer, hblank, hpunct]

theorem lex_identifier {w : Text} (h : Identifier w) : lexer.lex w = some [.word w] := by
  obtain ⟨hne, hw, htoken⟩ := h
  have hw := List.all_eq_true.1 hw
  have hrun : lexer.token w = some (.word w) := by
    show runToken w = _
    rw [runToken, if_pos (head_word hne hw), htoken]
  rw [Lexer.lex_word isBreak_word together_word hne hw, hrun]
  rfl

theorem separates_and : lexer.Separates (' ' :: "AND".toList ++ [' ']) [.conn .and] :=
  ⟨by decide, by decide, by decide⟩

theorem separates_or : lexer.Separates (' ' :: "OR".toList ++ [' ']) [.conn .or] :=
  ⟨by decide, by decide, by decide⟩

/-! ## Parsing -/

/-- A predicate: comparisons with placeholders. -/
inductive Expr
  | test (name : Text) (s : Sign)
  | and (l r : Expr)
  | or (l r : Expr)
  deriving DecidableEq, Repr

/-- What stands before an operand inside one pair of parentheses: the alternatives that
are complete, and the factors of the one that is not. -/
structure Context where
  alts : Option Expr
  conj : Option Expr

/-- One more factor. -/
def Context.factor (c : Context) (e : Expr) : Expr := c.conj.elim e (·.and e)

/-- The alternatives with a last one. -/
def disj (alts : Option Expr) (conj : Expr) : Expr := alts.elim conj (·.or conj)

mutual

/-- Parse where an operand has to come. `stack` is what stands around the parentheses
that are open. -/
def operand (stack : List Context) (c : Context) : List Token → Option Expr
  | .lparen :: ts => operand (c :: stack) ⟨none, none⟩ ts
  | .word n :: .sign s :: .hole :: ts => operator stack c.alts (c.factor (.test n s)) ts
  | _ => none

/-- Parse where an operand has just been read. -/
def operator (stack : List Context) (alts : Option Expr) (conj : Expr) : List Token → Option Expr
  | [] => if stack.isEmpty then some (disj alts conj) else none
  | .conn .and :: ts => operand stack ⟨alts, some conj⟩ ts
  | .conn .or :: ts => operand stack ⟨some (disj alts conj), none⟩ ts
  | .rparen :: ts =>
    match stack with
    | [] => none
    | c :: stack => operator stack c.alts (c.factor (disj alts conj)) ts
  | _ => none

end

/-- Parse a predicate. -/
def parse (ts : List Token) : Option Expr := operand [] ⟨none, none⟩ ts

/-- Read the text of a predicate. -/
def read (s : Text) : Option Expr := lexer.lex s >>= parse

example : read "a > ? OR b >= ? AND c < ?".toList =
    some (.or (.test ['a'] .gt) (.and (.test ['b'] .ge) (.test ['c'] .lt))) := by decide

/-! ## Meaning -/

section Meaning

variable {V : Type*} [LinearOrder V]

def Sign.holds (s : Sign) (x v : V) : Bool :=
  match s with
  | .lt => x < v
  | .le => x ≤ v
  | .gt => v < x
  | .ge => v ≤ x
  | .eq => x = v

/-- Evaluate on a row, filling the placeholders in order from a list of values. -/
def Expr.eval (row : Text → V) : Expr → List V → Option (Bool × List V)
  | test _ _, [] => none
  | test n s, v :: vs => some (s.holds (row n) v, vs)
  | and l r, vs => do
    let (a, vs) ← l.eval row vs
    let (b, vs) ← r.eval row vs
    return (a && b, vs)
  | or l r, vs => do
    let (a, vs) ← l.eval row vs
    let (b, vs) ← r.eval row vs
    return (a || b, vs)

/-- The truth of a predicate whose placeholders are filled by exactly these values. -/
def Expr.truth (row : Text → V) (e : Expr) (vs : List V) : Option Bool :=
  match e.eval row vs with
  | some (b, []) => some b
  | _ => none

/-- Filled with `vs`, the predicate is true of the rows of `p`. -/
def Means (e : Expr) (vs : List V) (p : (Text → V) → Bool) : Prop :=
  ∀ row rest, e.eval row (vs ++ rest) = some (p row, rest)

theorem Means.truth_eq {e : Expr} {vs : List V} {p : (Text → V) → Bool} (h : Means e vs p) (row : Text → V) :
    e.truth row vs = some (p row) := by
  have := h row []
  rw [List.append_nil] at this
  rw [Expr.truth, this]

theorem Means.test (n : Text) (s : Sign) (v : V) : Means (.test n s) [v] fun row => s.holds (row n) v :=
  fun _ _ => rfl

theorem Means.and {l r : Expr} {vs ws : List V} {p q : (Text → V) → Bool} (hl : Means l vs p)
    (hr : Means r ws q) : Means (l.and r) (vs ++ ws) fun row => p row && q row := by
  intro row rest
  rw [List.append_assoc, Expr.eval, hl row]
  simp [hr row]

theorem Means.or {l r : Expr} {vs ws : List V} {p q : (Text → V) → Bool} (hl : Means l vs p)
    (hr : Means r ws q) : Means (l.or r) (vs ++ ws) fun row => p row || q row := by
  intro row rest
  rw [List.append_assoc, Expr.eval, hl row]
  simp [hr row]

/-! ## Operands -/

/-- Tokens that parse as an operand wherever one has to come, and what they mean. -/
structure Operand (V : Type*) [LinearOrder V] where
  tokens : List Token
  expr : Expr
  values : List V
  holds : (Text → V) → Bool
  reads : ∀ stack c rest, operand stack c (tokens ++ rest) = operator stack c.alts (c.factor expr) rest
  means : Means expr values holds

/-- One comparison in parentheses. -/
def Operand.one (n : Text) (s : Sign) (v : V) : Operand V where
  tokens := [.lparen, .word n, .sign s, .hole, .rparen]
  expr := .test n s
  values := [v]
  holds row := s.holds (row n) v
  reads _ _ _ := rfl
  means := .test n s v

/-- Two comparisons, both of which have to hold, in parentheses. -/
def Operand.both (n : Text) (s : Sign) (v : V) (t : Sign) (w : V) : Operand V where
  tokens := [.lparen, .word n, .sign s, .hole, .conn .and, .word n, .sign t, .hole, .rparen]
  expr := .and (.test n s) (.test n t)
  values := [v, w]
  holds row := s.holds (row n) v && t.holds (row n) w
  reads _ _ _ := rfl
  means := .and (.test n s v) (.test n t w)

/-! ## Alternatives joined without parentheses -/

/-- The conjunctions that `AND` and `OR` make of a sequence, `cur` being the one begun. -/
def branches {β : Type*} (cur : List β) : List (Conn × β) → List (List β)
  | [] => [cur]
  | (.and, f) :: cs => branches (cur ++ [f]) cs
  | (.or, f) :: cs => cur :: branches [f] cs

/-- Lists of alternatives as one sequence: `OR` inside a list, `AND` between lists. -/
def chain {β : Type*} (groups : List (List β)) : List (Conn × β) :=
  groups.flatMap fun g =>
    match g with
    | [] => []
    | f :: fs => (.and, f) :: fs.map (Prod.mk .or)

/-- Branches are made of positions only. -/
theorem branches_map {β γ : Type*} (φ : β → γ) (cur : List β) (cs : List (Conn × β)) :
    branches (cur.map φ) (cs.map (Prod.map id φ)) = (branches cur cs).map (List.map φ) := by
  induction cs generalizing cur with
  | nil => rfl
  | cons c cs ih =>
    obtain ⟨c, f⟩ := c
    cases c with
    | and =>
      have hih := ih (cur ++ [f])
      rw [List.map_append] at hih
      exact hih
    | or => exact congrArg (List.cons _) (ih [f])

theorem chain_map {β γ : Type*} (φ : β → γ) (groups : List (List β)) :
    chain (groups.map (List.map φ)) = (chain groups).map (Prod.map id φ) := by
  unfold chain
  rw [List.flatMap_map, List.map_flatMap]
  congr 1
  funext g
  cases g with
  | nil => rfl
  | cons f fs => simp

/-- A sequence has the alternatives of its lists in their order. -/
theorem chain_snd {β : Type*} (groups : List (List β)) : (chain groups).map Prod.snd = groups.flatten := by
  induction groups with
  | nil => rfl
  | cons g groups ih =>
    have hcons : chain (g :: groups) = chain [g] ++ chain groups := by simp [chain]
    rw [hcons, List.map_append, ih, List.flatten_cons]
    cases g <;> simp [chain]

theorem mem_branches {β : Type*} {f : β} {b cur : List β} {cs : List (Conn × β)} (hb : b ∈ branches cur cs)
    (hf : f ∈ b) : f ∈ cur ∨ f ∈ cs.map Prod.snd := by
  induction cs generalizing cur with
  | nil =>
    obtain rfl := List.mem_singleton.1 hb
    exact .inl hf
  | cons c cs ih =>
    obtain ⟨c, g⟩ := c
    rw [List.map_cons, List.mem_cons]
    cases c with
    | and =>
      obtain h | h := ih hb
      · obtain h | h := List.mem_append.1 h
        · exact .inl h
        · exact .inr (.inl (List.mem_singleton.1 h))
      · exact .inr (.inr h)
    | or =>
      obtain rfl | hb := List.mem_cons.1 hb
      · exact .inl hf
      · obtain h | h := ih hb
        · exact .inr (.inl (List.mem_singleton.1 h))
        · exact .inr (.inr h)

theorem exists_branch_alts {β : Type*} {p : β → Prop} {cs : List (Conn × β)}
    (hcs : ∀ cur, (∀ f ∈ cur, p f) → ∃ b ∈ branches cur cs, ∀ f ∈ b, p f) {fs cur : List β}
    (h : (∀ f ∈ cur, p f) ∨ ∃ f ∈ fs, p f) :
    ∃ b ∈ branches cur (fs.map (Prod.mk .or) ++ cs), ∀ f ∈ b, p f := by
  induction fs generalizing cur with
  | nil => exact hcs cur (h.resolve_right (by simp))
  | cons f fs ih =>
    obtain hcur | ⟨f', hf', hp⟩ := h
    · exact ⟨cur, List.mem_cons_self, hcur⟩
    · have hf : (∀ g ∈ [f], p g) ∨ ∃ g ∈ fs, p g := by
        obtain rfl | hf' := List.mem_cons.1 hf'
        · exact .inl (by simpa using hp)
        · exact .inr ⟨f', hf', hp⟩
      obtain ⟨b, hb, hall⟩ := ih hf
      exact ⟨b, List.mem_cons_of_mem _ hb, hall⟩

/-- If every list has an alternative with a property, all of some branch have it. -/
theorem exists_branch {β : Type*} {p : β → Prop} {groups : List (List β)} (h : ∀ g ∈ groups, ∃ f ∈ g, p f)
    (cur : List β) (hcur : ∀ f ∈ cur, p f) : ∃ b ∈ branches cur (chain groups), ∀ f ∈ b, p f := by
  induction groups generalizing cur with
  | nil => exact ⟨cur, List.mem_singleton.2 rfl, hcur⟩
  | cons g groups ih =>
    obtain ⟨f', hf', hp⟩ := h g List.mem_cons_self
    have ih := ih fun g' hg' => h g' (List.mem_cons_of_mem _ hg')
    cases g with
    | nil => exact absurd hf' List.not_mem_nil
    | cons f gs =>
      -- the first alternative of the list goes on with `cur`
      have hfront : (∀ g ∈ cur ++ [f], p g) ∨ ∃ g ∈ gs, p g := by
        obtain rfl | hf' := List.mem_cons.1 hf'
        · exact .inl (List.forall_mem_append.2 ⟨hcur, by simpa using hp⟩)
        · exact .inr ⟨f', hf', hp⟩
      exact exists_branch_alts ih hfront

/-- The tokens of alternatives. -/
def altTokens : List (Operand V) → List Token
  | [] => []
  | f :: fs => f.tokens ++ fs.flatMap fun f => .conn .or :: f.tokens

/-- The tokens of lists of alternatives behind another one. -/
def laterTokens (groups : List (List (Operand V))) : List Token :=
  groups.flatMap fun g => .conn .and :: altTokens g

/-- What a sequence makes of the alternatives and the conjunction read so far. -/
def fold (alts : Option Expr) (conj : Expr) : List (Conn × Operand V) → Option Expr × Expr
  | [] => (alts, conj)
  | (.and, f) :: cs => fold alts (conj.and f.expr) cs
  | (.or, f) :: cs => fold (some (disj alts conj)) f.expr cs

theorem operator_chain (stack : List Context) (alts : Option Expr) (conj : Expr) (cs : List (Conn × Operand V))
    (rest : List Token) :
    operator stack alts conj (cs.flatMap (fun c => .conn c.1 :: c.2.tokens) ++ rest) =
      operator stack (fold alts conj cs).1 (fold alts conj cs).2 rest := by
  induction cs generalizing alts conj with
  | nil => rfl
  | cons c cs ih =>
    obtain ⟨c, f⟩ := c
    rw [List.flatMap_cons, List.append_assoc, List.cons_append]
    cases c with
    | and =>
      rw [operator, f.reads]
      exact ih _ _
    | or =>
      rw [operator, f.reads]
      exact ih _ _

theorem fold_means (cs : List (Conn × Operand V)) {alts : Option Expr} {conj : Expr} {va vc : List V}
    {pa : (Text → V) → Bool} {cur : List (Operand V)}
    (ha : ∀ e vs p, Means e vs p → Means (disj alts e) (va ++ vs) fun row => pa row || p row)
    (hc : Means conj vc fun row => cur.all (·.holds row)) :
    Means (disj (fold alts conj cs).1 (fold alts conj cs).2) (va ++ vc ++ cs.flatMap (·.2.values)) fun row =>
      pa row || (branches cur cs).any fun b => b.all (·.holds row) := by
  induction cs generalizing alts conj va vc pa cur with
  | nil => simpa [fold, branches] using ha conj vc _ hc
  | cons c cs ih =>
    obtain ⟨c, f⟩ := c
    cases c with
    | and =>
      have hc' : Means (conj.and f.expr) (vc ++ f.values) fun row => (cur ++ [f]).all (·.holds row) := by
        simpa using hc.and f.means
      simpa [fold, branches] using ih ha hc'
    | or =>
      have ha' : ∀ e vs p, Means e vs p → Means (disj (some (disj alts conj)) e) (va ++ vc ++ vs)
          fun row => (pa row || cur.all (·.holds row)) || p row :=
        fun e vs p h => (ha conj vc _ hc).or h
      have hc' : Means f.expr f.values fun row => [f].all (·.holds row) := by simpa using f.means
      simpa [fold, branches, Bool.or_assoc] using ih ha' hc'

theorem altTokens_cons (f : Operand V) (fs : List (Operand V)) :
    altTokens (f :: fs) = f.tokens ++ (fs.map (Prod.mk Conn.or)).flatMap fun c => .conn c.1 :: c.2.tokens := by
  rw [altTokens, List.flatMap_map]

theorem laterTokens_eq {groups : List (List (Operand V))} (h : ∀ g ∈ groups, g ≠ []) :
    laterTokens groups = (chain groups).flatMap fun c => .conn c.1 :: c.2.tokens := by
  induction groups with
  | nil => rfl
  | cons g groups ih =>
    obtain ⟨hg, hgs⟩ := List.forall_mem_cons.1 h
    have hlater : laterTokens (g :: groups) = .conn .and :: altTokens g ++ laterTokens groups := rfl
    rw [hlater, ih hgs]
    cases g with
    | nil => exact absurd rfl hg
    | cons f fs => simp [altTokens_cons, chain]

theorem operand_laterTokens (stack : List Context) (c : Context) (groups : List (List (Operand V))) :
    operand stack c (laterTokens groups) = none := by
  cases groups <;> rfl

/-- Reading lists of alternatives, what comes behind them being left. -/
theorem parse_append (f : Operand V) (fs : List (Operand V)) {later : List (List (Operand V))}
    (h : ∀ g ∈ later, g ≠ []) (rest : List Token) :
    parse (altTokens (f :: fs) ++ laterTokens later ++ rest) =
      operator [] (fold none f.expr (fs.map (Prod.mk .or) ++ chain later)).1
        (fold none f.expr (fs.map (Prod.mk .or) ++ chain later)).2 rest := by
  have hchain := operator_chain [] none f.expr (fs.map (Prod.mk .or) ++ chain later) rest
  rw [List.flatMap_append] at hchain
  rw [altTokens_cons, laterTokens_eq h, parse, List.append_assoc, List.append_assoc, f.reads, ← List.append_assoc]
  exact hchain

/-- **How alternatives joined by `AND` are read**: as the disjunction of the branches. -/
theorem parse_groups (f : Operand V) (fs : List (Operand V)) {later : List (List (Operand V))}
    (h : ∀ g ∈ later, g ≠ []) :
    ∃ e, parse (altTokens (f :: fs) ++ laterTokens later) = some e ∧
      Means e (f.values ++ (fs.map (Prod.mk Conn.or) ++ chain later).flatMap (·.2.values)) fun row =>
        (branches [f] (fs.map (Prod.mk .or) ++ chain later)).any fun b => b.all (·.holds row) := by
  have hnone : ∀ e vs p, Means (V := V) e vs p → Means (disj none e) ([] ++ vs) fun row => false || p row :=
    fun e vs p he => by simpa [disj] using he
  have hf : Means f.expr f.values fun row => [f].all (·.holds row) := by simpa using f.means
  have hmeans := fold_means (fs.map (Prod.mk .or) ++ chain later) hnone hf
  simp only [List.nil_append, Bool.false_or] at hmeans
  refine ⟨_, ?_, hmeans⟩
  have := parse_append f fs h []
  rw [List.append_nil] at this
  exact this

/-- An empty list of alternatives behind another one is a syntax error. -/
theorem parse_groups_empty (f : Operand V) (fs : List (Operand V)) {later : List (List (Operand V))}
    (h : [] ∈ later) : parse (altTokens (f :: fs) ++ laterTokens later) = none := by
  -- what is before the first empty list is read, and then an operand is missing
  obtain ⟨pre, post, rfl, hpre⟩ := List.eq_append_cons_of_mem h
  have hne : ∀ g ∈ pre, g ≠ [] := fun g hg hnil => hpre (hnil ▸ hg)
  have hsplit : laterTokens (pre ++ [] :: post) = laterTokens pre ++ (.conn .and :: laterTokens post) := by
    simp [laterTokens, altTokens]
  rw [hsplit, ← List.append_assoc, parse_append f fs hne, operator, operand_laterTokens]

end Meaning

theorem getLast?_of_cons {α : Type*} {a x : α} {l : List α} (h : (a :: l).getLast? = some x) :
    l = [] ∧ a = x ∨ l.getLast? = some x := by
  cases l with
  | nil => exact .inl ⟨rfl, Option.some.inj h⟩
  | cons b l => exact .inr (by rwa [List.getLast?_cons_cons] at h)

/-- **A connective at the end** has no second operand. -/
theorem operand_conn_end (k : Conn) :
    (∀ stack c ts, ts.getLast? = some (Token.conn k) → operand stack c ts = none) ∧
      ∀ stack alts conj ts, ts.getLast? = some (Token.conn k) → operator stack alts conj ts = none := by
  -- a token that is no connective is not the last one
  have htail : ∀ {t : Token} {ts : List Token}, (t :: ts).getLast? = some (.conn k) → t ≠ .conn k →
      ts.getLast? = some (.conn k) := fun h hne => (getLast?_of_cons h).resolve_left fun hnil => hne hnil.2
  apply operand.mutual_induct
  case case1 =>
    intro stack c ts ih h
    exact ih (htail h (by simp))
  case case2 =>
    intro stack c n s ts ih h
    exact ih (htail (htail (htail h (by simp)) (by simp)) (by simp))
  case case3 =>
    intro ts stack c hparen htest _
    exact operand.eq_3 _ _ _ hparen htest
  case case4 => simp
  case case5 => simp
  case case6 =>
    intro stack alts conj ts ih h
    obtain ⟨rfl, -⟩ | h := getLast?_of_cons h
    · rfl
    · exact ih h
  case case7 =>
    intro stack alts conj ts ih h
    obtain ⟨rfl, -⟩ | h := getLast?_of_cons h
    · rfl
    · exact ih h
  case case8 =>
    intro alts conj ts _
    rfl
  case case9 =>
    intro alts conj ts c stack ih h
    exact ih (htail h (by simp))
  case case10 =>
    intro ts stack alts conj hnil hand hor hparen _
    exact operator.eq_6 _ _ _ _ hnil hand hor hparen

theorem parse_conn_end (ts : List Token) (k : Conn) : parse (ts ++ [.conn k]) = none :=
  (operand_conn_end k).1 _ _ _ List.getLast?_concat

end Predicate
