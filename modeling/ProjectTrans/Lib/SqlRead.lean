import ProjectTrans.Lib.SqlRows

/-!
# Reading statements

The texts of statements on a table, printed from names, are read back as the statements:
`read_insert`, `read_update`, `read_delete`, `read_select`, `read_count`. A text is lexed
part by part wherever a blank or a token of its own stands between two parts.
-/

namespace Sql

open Predicate (Sign Identifier isWordChar head_word together_word Expr)
open Lexer (lex_append lex_append_of_ends glue_some)

/-! ## Lexing -/

theorem isBreak_word (c : Char) (h : isWordChar c = true) : lexer.isBreak c = false := by
  have hblank : c ≠ ' ' := by
    rintro rfl
    exact absurd h (by decide)
  have hpunct : punctuation c = none := by
    unfold punctuation
    iterate 6 rw [if_neg (by rintro rfl; exact absurd h (by decide))]
  simp [Lexer.isBreak, lexer, hblank, hpunct]

theorem lex_identifier {w : Text} (h : Identifier w) : lexer.lex w = some [.word w] := by
  obtain ⟨hne, hw, -⟩ := h
  have hw := List.all_eq_true.1 hw
  have hrun : lexer.token w = some (.word w) := if_pos (head_word hne hw)
  rw [Lexer.lex_word isBreak_word together_word hne hw, hrun]
  rfl

/-- An identifier can be a name. -/
theorem isName_of_identifier {w : Text} (h : Identifier w) : isName w = true := by
  have hword := h.2.2
  unfold Predicate.wordToken at hword
  split at hword
  · exact absurd hword (by simp)
  split at hword
  · exact absurd hword (by simp)
  split at hword
  · exact absurd hword (by simp)
  split at hword
  · exact absurd hword (by simp)
  rename_i hreserved hdigit
  simp only [Bool.not_eq_true] at hreserved hdigit
  rw [isName, hreserved, hdigit]
  rfl

/-! ## Lists -/

/-- Texts with a separator between them. -/
def joined (sep : Text) (texts : List Text) : Text := texts.foldl (Text.appendWith sep) []

section Joined

variable {α : Type*} (text : α → Text) (tokens : α → List Token) {sep : Text} {between : List Token}

/-- **Texts with a separator between them.** -/
theorem lex_joined (h : lexer.Separates sep between) {x : α} {l : List α} (hne : text x ≠ [])
    (hlex : ∀ y ∈ x :: l, lexer.lex (text y) = some (tokens y)) :
    lexer.lex (joined sep ((x :: l).map text)) = some (tokens x ++ l.flatMap fun y => between ++ tokens y) := by
  obtain ⟨hx, hl⟩ := List.forall_mem_cons.1 hlex
  exact h.lex_foldl_appendWith hl hne hx

theorem separates_comma : lexer.Separates ", ".toList [.comma] := ⟨by decide, by decide, by decide⟩

/-- Names between commas. -/
theorem lex_names {n : Text} {ns : List Text} (h : ∀ m ∈ n :: ns, Identifier m) :
    lexer.lex (joined ", ".toList (n :: ns)) = some (.word n :: ns.flatMap fun m => [.comma, .word m]) := by
  have hjoined := lex_joined id (fun m => [.word m]) separates_comma (h n List.mem_cons_self).1
    fun m hm => lex_identifier (h m hm)
  rw [List.map_id] at hjoined
  exact hjoined

/-- Placeholders between commas. -/
theorem lex_holes {x : α} {l : List α} :
    lexer.lex (joined ", ".toList ((x :: l).map fun _ => ['?'])) =
      some (.hole :: l.flatMap fun _ => [.comma, .hole]) := by
  have hhole : lexer.lex ['?'] = some [.hole] := by decide
  exact lex_joined (fun _ => ['?']) (fun _ => [.hole]) separates_comma (List.cons_ne_nil _ _) fun _ _ => hhole

/-- Names with a placeholder each, between commas. -/
theorem lex_assignments {n : Text} {ns : List Text} (h : ∀ m ∈ n :: ns, Identifier m) :
    lexer.lex (joined ", ".toList ((n :: ns).map fun m => m ++ " = ".toList ++ "?".toList)) =
      some (.word n :: .sign .eq :: .hole :: ns.flatMap fun m => [.comma, .word m, .sign .eq, .hole]) := by
  refine lex_joined (fun m => m ++ " = ".toList ++ "?".toList)
    (fun m => [.word m, .sign .eq, .hole]) separates_comma
    (by simp) fun m hm => ?_
  have hassoc : m ++ " = ".toList ++ "?".toList = m ++ " = ?".toList := by
    rw [List.append_assoc]
    rfl
  have hrest : lexer.lex " = ?".toList = some [.sign .eq, .hole] := by decide
  rw [hassoc, lex_append (by decide), lex_identifier (h m hm), hrest]
  rfl

end Joined

/-- Names are read back. -/
theorem names_words {n : Text} {ns : List Text} (rest : List Token) (h : ∀ m ∈ n :: ns, Identifier m)
    (hrest : rest.head? ≠ some .comma) :
    names (.word n :: (ns.flatMap (fun m => [Token.comma, .word m]) ++ rest)) = some (n :: ns, rest) := by
  induction ns generalizing n with
  | nil =>
    have hn := isName_of_identifier (h n List.mem_cons_self)
    cases rest with
    | nil => simp [names, hn]
    | cons t rest => cases t <;> simp_all [names]
  | cons m ns ih =>
    obtain ⟨hn, hns⟩ := List.forall_mem_cons.1 h
    simp only [List.flatMap_cons, List.cons_append, List.nil_append] at ih ⊢
    rw [names, if_pos (isName_of_identifier hn), ih hns]
    rfl

/-- Placeholders are counted. -/
theorem holes_holes {α : Type*} (l : List α) (rest : List Token) (hrest : rest.head? ≠ some .comma) :
    holes (.hole :: (l.flatMap (fun _ => [Token.comma, .hole]) ++ rest)) = some (l.length + 1, rest) := by
  induction l with
  | nil =>
    cases rest with
    | nil => rfl
    | cons t rest => cases t <;> simp_all [holes]
  | cons x l ih =>
    simp only [List.flatMap_cons, List.cons_append, List.nil_append] at ih ⊢
    rw [holes, ih]
    rfl

/-- Assignments are read back. -/
theorem assignments_words {n : Text} {ns : List Text} (rest : List Token) (h : ∀ m ∈ n :: ns, Identifier m)
    (hrest : rest.head? ≠ some .comma) :
    assignments (.word n :: .sign .eq :: .hole ::
      (ns.flatMap (fun m => [Token.comma, .word m, .sign .eq, .hole]) ++ rest)) = some (n :: ns, rest) := by
  induction ns generalizing n with
  | nil =>
    have hn := isName_of_identifier (h n List.mem_cons_self)
    cases rest with
    | nil => simp [assignments, hn]
    | cons t rest => cases t <;> simp_all [assignments]
  | cons m ns ih =>
    obtain ⟨hn, hns⟩ := List.forall_mem_cons.1 h
    simp only [List.flatMap_cons, List.cons_append, List.nil_append] at ih ⊢
    rw [assignments, if_pos (isName_of_identifier hn), ih hns]
    rfl

/-! ## Conditions -/

/-- The text of the condition that a column has a value. -/
def betweenText (n : Text) : Text := "( ".toList ++ n ++ " >= ? AND ".toList ++ n ++ " <= ? )".toList

/-- The end of a statement: conditions that columns have values, if there are any. -/
def conditionText (names : List Text) : Text :=
  if names = [] then [] else " WHERE ".toList ++ joined " AND ".toList (names.map betweenText)

/-- These conditions together. -/
def conditionExpr : List Text → Option Expr
  | [] => none
  | n :: ns => some (ns.foldl (fun e m => .and e (between m)) (between n))

/-- The tokens of the condition that a column has a value. -/
def betweenTokens (n : Text) : List Token :=
  [.lparen, .word n, .sign .ge, .hole, .word "AND".toList, .word n, .sign .le, .hole, .rparen]

/-- The tokens of conditions. -/
def conditionTokens : List Text → List Token
  | [] => []
  | n :: ns =>
    .word "WHERE".toList :: (betweenTokens n ++ ns.flatMap fun m => .word "AND".toList :: betweenTokens m)

theorem lex_betweenText {n : Text} (h : Identifier n) : lexer.lex (betweenText n) = some (betweenTokens n) := by
  have hfront : lexer.lex ("( ".toList ++ n) = some [.lparen, .word n] := by
    have hparen : lexer.lex "( ".toList = some [.lparen] := by decide
    rw [lex_append_of_ends (by decide), hparen, lex_identifier h]
    rfl
  have hmiddle : lexer.lex ("( ".toList ++ n ++ " >= ? AND ".toList ++ n) =
      some [.lparen, .word n, .sign .ge, .hole, .word "AND".toList, .word n] := by
    have hsep : lexer.Separates " >= ? AND ".toList [.sign .ge, .hole, .word "AND".toList] :=
      ⟨by decide, by decide, by decide⟩
    rw [hsep.lex_middle, hfront, lex_identifier h]
    rfl
  have hback : lexer.lex " <= ? )".toList = some [.sign .le, .hole, .rparen] := by decide
  rw [betweenText, lex_append (by decide), hmiddle, hback]
  rfl

theorem lex_conditionText {names : List Text} (h : ∀ n ∈ names, Identifier n) :
    lexer.lex (conditionText names) = some (conditionTokens names) := by
  cases names with
  | nil => rfl
  | cons n ns =>
    have hne : betweenText n ≠ [] := by simp [betweenText]
    have hand : lexer.Separates " AND ".toList [.word "AND".toList] := ⟨by decide, by decide, by decide⟩
    have hjoined := lex_joined betweenText betweenTokens hand hne
      fun m hm => lex_betweenText (h m hm)
    have hwhere : lexer.lex " WHERE ".toList = some [.word "WHERE".toList] := by decide
    rw [conditionText, if_neg (List.cons_ne_nil n ns), lex_append_of_ends (by decide), hwhere, hjoined]
    rfl

/-- The condition as its own reader sees it. -/
def betweenParts (n : Text) : List Predicate.Token :=
  [.lparen, .word n, .sign .ge, .hole, .conn .and, .word n, .sign .le, .hole, .rparen]

theorem mapM_betweenTokens {n : Text} (h : Identifier n) :
    (betweenTokens n).mapM conditionToken = some (betweenParts n) := by
  have hand : conditionToken (.word "AND".toList) = some (.conn .and) := by decide
  have hn : conditionToken (.word n) = some (.word n) := h.2.2
  simp only [betweenTokens, List.mapM_cons, List.mapM_nil, hand, hn]
  rfl

/-- **Conditions are read** as their conjunction. -/
theorem parse_conditions {n : Text} {ns : List Text} :
    Predicate.parse (betweenParts n ++ ns.flatMap fun m => .conn .and :: betweenParts m) =
      conditionExpr (n :: ns) := by
  have hlater : ∀ e : Expr, Predicate.operator [] none e (ns.flatMap fun m => .conn .and :: betweenParts m) =
      some (ns.foldl (fun e m => .and e (between m)) e) := by
    induction ns with
    | nil => exact fun _ => rfl
    | cons m ns ih => exact fun e => ih (.and e (between m))
  exact hlater (between n)

/-- **The end of a statement** is read as the conditions. -/
theorem condition_conditionTokens {names : List Text} (h : ∀ n ∈ names, Identifier n) :
    condition (conditionTokens names) = some (conditionExpr names) := by
  cases names with
  | nil => rfl
  | cons n ns =>
    obtain ⟨hn, hns⟩ := List.forall_mem_cons.1 h
    -- each part of the condition is a token of it
    have hparts :
        (betweenTokens n ++ ns.flatMap fun m => .word "AND".toList :: betweenTokens m).mapM conditionToken =
          some (betweenParts n ++ ns.flatMap fun m => .conn .and :: betweenParts m) := by
      have hlater : (ns.flatMap fun m => .word "AND".toList :: betweenTokens m).mapM conditionToken =
          some (ns.flatMap fun m => .conn .and :: betweenParts m) := by
        clear h
        induction ns with
        | nil => rfl
        | cons m ns ih =>
          obtain ⟨hm, hns⟩ := List.forall_mem_cons.1 hns
          have hand : conditionToken (.word "AND".toList) = some (.conn .and) := by decide
          rw [List.flatMap_cons, List.mapM_append, List.mapM_cons, hand, mapM_betweenTokens hm, ih hns]
          rfl
      rw [List.mapM_append, mapM_betweenTokens hn, hlater]
      rfl
    have hlast : (betweenTokens n ++ ns.flatMap fun m => .word "AND".toList :: betweenTokens m).getLast? ≠
        some .semicolon := by
      intro hlast
      have hmem := List.mem_of_getLast? hlast
      simp [betweenTokens] at hmem
    have hended : ended (conditionTokens (n :: ns)) = false := rfl
    have hwhere : isKeyword "WHERE" "WHERE".toList = true := by decide
    unfold condition
    rw [hended]
    simp only [conditionTokens, hwhere, Bool.false_eq_true, if_false, if_true, if_neg hlast]
    rw [hparts]
    show (Predicate.parse _).bind _ = _
    rw [parse_conditions]
    rfl

theorem conditionText_breaks (names : List Text) : (conditionText names).head?.all lexer.isBreak = true := by
  unfold conditionText
  split
  · rfl
  · rfl

theorem conditionTokens_head (names : List Text) : (conditionTokens names).head? ≠ some .comma := by
  cases names <;> simp [conditionTokens]

/-! ## Statements -/

section Statements

theorem read_eq {s : Text} {ts : List Token} (h : lexer.lex s = some ts) : read s = statement ts := by
  show lexer.lex s >>= statement = _
  rw [h]
  rfl

/-- What is behind UPDATE, a table and SET. -/
theorem statement_update (table : Text) (ts : List Token) :
    statement (.word "UPDATE".toList :: .word table :: .word "SET".toList :: ts) =
      if isName table && isKeyword "SET" "SET".toList then
        (assignments ts).bind fun p => (condition p.2).bind fun e => some (.update table p.1 e)
      else none := by
  have hkeywords : ¬(isKeyword "INSERT" "UPDATE".toList && isKeyword "INTO" table) = true := by
    have hinsert : isKeyword "INSERT" "UPDATE".toList = false := by decide
    rw [hinsert, Bool.false_and]
    exact Bool.false_ne_true
  unfold statement
  dsimp only
  rw [if_neg (by decide), if_neg hkeywords, if_neg (by decide), if_pos (by decide)]
  rfl

/-- What is behind SELECT is a list of columns, unless it is a call. -/
theorem select_names {n : Text} {ts : List Token} (hts : ts.head? ≠ some .lparen) :
    select (.word n :: ts) = (Sql.names (.word n :: ts)).bind fun p =>
      match p.2 with
      | .word w :: .word table :: ts =>
        if isKeyword "FROM" w && isName table then (condition ts).bind fun e =>
          some (.select p.1 table e) else none
      | _ => none := by
  cases ts with
  | nil => rfl
  | cons t ts =>
    cases t with
    | lparen => exact absurd rfl hts
    | _ => rfl

variable {table : Text} {names : List Text} (htable : Identifier table)

include htable

/-- **INSERT** is read back. -/
theorem read_insert (hne : names ≠ []) (hnames : ∀ n ∈ names, Identifier n) :
    read ("INSERT INTO ".toList ++ table ++ " (".toList ++ joined ", ".toList names ++ ") VALUES (".toList ++
      joined ", ".toList (names.map fun _ => ['?']) ++ ");".toList) = some (.insert table names) := by
  obtain ⟨n, ns, rfl⟩ := List.exists_cons_of_ne_nil hne
  have hfront : lexer.lex "INSERT INTO ".toList = some [.word "INSERT".toList, .word "INTO".toList] := by decide
  have hopen : lexer.Separates " (".toList [.lparen] := ⟨by decide, by decide, by decide⟩
  have hvalues : lexer.Separates ") VALUES (".toList [.rparen, .word "VALUES".toList, .lparen] :=
    ⟨by decide, by decide, by decide⟩
  have hend : lexer.lex ");".toList = some [.rparen, .semicolon] := by decide
  -- the tokens of the whole text; the parser then reads them one after the other
  have htokens : lexer.lex ("INSERT INTO ".toList ++ table ++ " (".toList ++ joined ", ".toList (n :: ns) ++
      ") VALUES (".toList ++ joined ", ".toList ((n :: ns).map fun _ => ['?']) ++ ");".toList) =
        some (.word "INSERT".toList :: .word "INTO".toList :: .word table :: .lparen :: .word n ::
          (ns.flatMap (fun m => [Token.comma, .word m]) ++ .rparen :: .word "VALUES".toList :: .lparen :: .hole ::
            (ns.flatMap (fun _ => [Token.comma, .hole]) ++ [.rparen, .semicolon]))) := by
    rw [lex_append (by decide), hend]
    rw [hvalues.lex_middle, lex_holes, hopen.lex_middle, lex_names hnames, lex_append_of_ends (by decide),
      hfront, lex_identifier htable]
    simp only [glue_some, List.append_assoc, List.cons_append, List.nil_append]
  have hnames := names_words (.rparen :: .word "VALUES".toList :: .lparen :: .hole ::
    (ns.flatMap (fun _ => [Token.comma, .hole]) ++ [.rparen, .semicolon])) hnames (by simp)
  have hholes := holes_holes ns [.rparen, .semicolon] (by simp)
  have hread : ∀ ts, statement (.word "INSERT".toList :: .word "INTO".toList :: ts) = insert ts := by
    intro ts
    unfold statement
    dsimp only
    rw [if_neg (by decide), if_pos (by decide)]
  have hkeyword : isKeyword "VALUES" "VALUES".toList = true := by decide
  rw [read_eq htokens, hread, insert, hnames]
  show (holes _ >>= _) = _
  rw [hholes]
  show (if isName table && isKeyword "VALUES" "VALUES".toList && ended [.semicolon] &&
    decide (ns.length + 1 = (n :: ns).length) then some (Statement.insert table (n :: ns)) else none) = _
  rw [isName_of_identifier htable, hkeyword, List.length_cons, decide_eq_true rfl]
  rfl

/-- **DELETE** is read back. -/
theorem read_delete (hnames : ∀ n ∈ names, Identifier n) :
    read ("DELETE FROM ".toList ++ table ++ conditionText names) =
      some (.delete table (conditionExpr names)) := by
  have hfront : lexer.lex "DELETE FROM ".toList = some [.word "DELETE".toList, .word "FROM".toList] := by decide
  have htokens : lexer.lex ("DELETE FROM ".toList ++ table ++ conditionText names) =
      some (.word "DELETE".toList :: .word "FROM".toList :: .word table :: conditionTokens names) := by
    rw [lex_append (conditionText_breaks names), lex_conditionText hnames]
    rw [lex_append_of_ends (by decide), hfront, lex_identifier htable]
    rfl
  have hread : ∀ ts, statement (.word "DELETE".toList :: .word "FROM".toList :: .word table :: ts) =
      if isKeyword "FROM" "FROM".toList && isName table then do
        return .delete table (← condition ts)
      else none := by
    intro ts
    unfold statement
    dsimp only
    rw [if_neg (by decide), if_neg (by decide), if_pos (by decide)]
  have hkeyword : isKeyword "FROM" "FROM".toList = true := by decide
  rw [read_eq htokens, hread, hkeyword, isName_of_identifier htable, condition_conditionTokens hnames]
  rfl

/-- **UPDATE** is read back. -/
theorem read_update {columns : List Text} (hne : columns ≠ []) (hcolumns : ∀ n ∈ columns, Identifier n)
    (hnames : ∀ n ∈ names, Identifier n) :
    read ("UPDATE ".toList ++ table ++ " SET ".toList ++
      joined ", ".toList (columns.map fun n => n ++ " = ".toList ++ "?".toList) ++ conditionText names) =
        some (.update table columns (conditionExpr names)) := by
  obtain ⟨n, ns, rfl⟩ := List.exists_cons_of_ne_nil hne
  have hfront : lexer.lex "UPDATE ".toList = some [.word "UPDATE".toList] := by decide
  have hset : lexer.Separates " SET ".toList [.word "SET".toList] := ⟨by decide, by decide, by decide⟩
  have htokens : lexer.lex ("UPDATE ".toList ++ table ++ " SET ".toList ++
      joined ", ".toList ((n :: ns).map fun n => n ++ " = ".toList ++ "?".toList) ++ conditionText names) =
        some (.word "UPDATE".toList :: .word table :: .word "SET".toList ::
          .word n :: .sign .eq :: .hole :: (ns.flatMap (fun m => [Token.comma, .word m, .sign .eq, .hole]) ++
            conditionTokens names)) := by
    rw [lex_append (conditionText_breaks names), lex_conditionText hnames]
    rw [hset.lex_middle, lex_assignments hcolumns, lex_append_of_ends (by decide), hfront,
      lex_identifier htable]
    rfl
  have hkeyword : isKeyword "SET" "SET".toList = true := by decide
  have hassignments := assignments_words (conditionTokens names) hcolumns (conditionTokens_head names)
  rw [read_eq htokens, statement_update, hkeyword, isName_of_identifier htable, hassignments]
  show (condition _ >>= _) = _
  rw [condition_conditionTokens hnames]
  rfl

/-- **SELECT** is read back. -/
theorem read_select {columns : List Text} (hne : columns ≠ []) (hcolumns : ∀ n ∈ columns, Identifier n)
    (hnames : ∀ n ∈ names, Identifier n) :
    read ("SELECT ".toList ++ joined ", ".toList columns ++ " FROM ".toList ++ table ++ conditionText names) =
      some (.select columns table (conditionExpr names)) := by
  obtain ⟨n, ns, rfl⟩ := List.exists_cons_of_ne_nil hne
  have hfront : lexer.lex "SELECT ".toList = some [.word "SELECT".toList] := by decide
  have hfrom : lexer.Separates " FROM ".toList [.word "FROM".toList] := ⟨by decide, by decide, by decide⟩
  have htokens : lexer.lex ("SELECT ".toList ++ joined ", ".toList (n :: ns) ++ " FROM ".toList ++ table ++
      conditionText names) =
        some (.word "SELECT".toList :: .word n :: (ns.flatMap (fun m => [Token.comma, .word m]) ++
          .word "FROM".toList :: .word table :: conditionTokens names)) := by
    rw [lex_append (conditionText_breaks names), lex_conditionText hnames]
    rw [hfrom.lex_middle, lex_append_of_ends (by decide), hfront, lex_names hcolumns,
      lex_identifier htable]
    simp
  have hread : ∀ ts, statement (.word "SELECT".toList :: ts) = select ts := by
    intro ts
    unfold statement
    dsimp only
    rw [if_pos (by decide)]
  have hkeyword : isKeyword "FROM" "FROM".toList = true := by decide
  have hcolumns := names_words (.word "FROM".toList :: .word table :: conditionTokens names) hcolumns (by simp)
  rw [read_eq htokens, hread, select_names (by cases ns <;> simp), hcolumns]
  simp only [Option.bind_some, hkeyword, isName_of_identifier htable,
    condition_conditionTokens hnames]
  rfl

/-- **SELECT COUNT** is read back. -/
theorem read_count (hnames : ∀ n ∈ names, Identifier n) :
    read ("SELECT COUNT(*) FROM ".toList ++ table ++ conditionText names) =
      some (.count table (conditionExpr names)) := by
  have hfront : lexer.lex "SELECT COUNT(*) FROM ".toList = some [.word "SELECT".toList, .word "COUNT".toList,
    .lparen, .star, .rparen, .word "FROM".toList] := by decide
  have htokens : lexer.lex ("SELECT COUNT(*) FROM ".toList ++ table ++ conditionText names) =
      some (.word "SELECT".toList :: .word "COUNT".toList :: .lparen :: .star :: .rparen :: .word "FROM".toList ::
        .word table :: conditionTokens names) := by
    rw [lex_append (conditionText_breaks names), lex_conditionText hnames]
    rw [lex_append_of_ends (by decide), hfront, lex_identifier htable]
    rfl
  have hread : ∀ ts, statement (.word "SELECT".toList :: .word "COUNT".toList :: .lparen :: .star :: .rparen ::
      .word "FROM".toList :: .word table :: ts) =
        if isKeyword "COUNT" "COUNT".toList && isKeyword "FROM" "FROM".toList && isName table then do
          return .count table (← condition ts)
        else none := by
    intro ts
    unfold statement
    dsimp only
    rw [if_pos (by decide)]
    rfl
  have hkeyword : (isKeyword "COUNT" "COUNT".toList && isKeyword "FROM" "FROM".toList) = true := by decide
  rw [read_eq htokens, hread, hkeyword, isName_of_identifier htable, condition_conditionTokens hnames]
  rfl

end Statements

end Sql
