import ProjectTrans.Lib.Predicate

/-!
# Orderings

A predicate may have an ordering behind it, which begins at the first word `ORDER`. A
predicate has no such word (`order_not_mem`), so where one ends and the other begins does
not depend on what the predicate is: `readOrdered_orderText` reads both, and with anything
behind the ordering there is nothing to read (`readOrdered_orderText_append`).
-/

namespace Predicate

/-- The direction of an ordering; without a word it is ascending. -/
def direction : List Text → Option Bool
  | [] => some false
  | [d] => if d = "ASC".toList then some false else if d = "DESC".toList then some true else none
  | _ => none

/-- The words of an ordering: a column, and whether it is descending. -/
def ordering : List Text → Option (Text × Bool)
  | order :: sort :: n :: rest =>
    if order = "ORDER".toList ∧ sort = "BY".toList ∧ Identifier n then (direction rest).map (Prod.mk n) else none
  | _ => none

/-- Read a predicate and the ordering behind it. -/
def readOrdered (s : Text) : Option (Expr × Option (Text × Bool)) :=
  match (s.splitOn ' ').dropWhile fun w => w ≠ "ORDER".toList with
  | [] => (read s).map (·, none)
  | back => do
    let e ← read ([' '].intercalate ((s.splitOn ' ').takeWhile fun w => w ≠ "ORDER".toList))
    let o ← ordering back
    return (e, some o)

example : readOrdered "a > ? ORDER BY b DESC".toList = some (.test ['a'] .gt, some (['b'], true)) := by decide

/-- Of a text that has tokens every word has. -/
theorem lex_words {ws : List Text} (h : (lexer.lex ([' '].intercalate ws)).isSome = true) :
    ∀ w ∈ ws, (lexer.lex w).isSome = true := by
  induction ws with
  | nil => simp
  | cons w ws ih =>
    cases ws with
    | nil => simpa [List.intercalate] using h
    | cons w' ws =>
      have hcons : [' '].intercalate (w :: w' :: ws) = w ++ ' ' :: [' '].intercalate (w' :: ws) := by
        simp [List.intercalate]
      rw [hcons, Lexer.lex_blank] at h
      rw [List.forall_mem_cons]
      cases hw : lexer.lex w with
      | none => simp [hw, Lexer.glue] at h
      | some ts =>
        refine ⟨rfl, ih ?_⟩
        cases hrest : lexer.lex ([' '].intercalate (w' :: ws)) with
        | none => simp [hw, hrest, Lexer.glue] at h
        | some _ => rfl

/-- A predicate has no word `ORDER`. -/
theorem order_not_mem {s : Text} {ts : List Token} (h : lexer.lex s = some ts) :
    "ORDER".toList ∉ s.splitOn ' ' := by
  intro hmem
  have hlex : (lexer.lex ([' '].intercalate (s.splitOn ' '))).isSome = true := by
    rw [List.intercalate_splitOn, h]
    rfl
  exact absurd (lex_words hlex _ hmem) (by decide)

theorem splitOn_order (p back : Text) : (p ++ ' ' :: ("ORDER".toList ++ ' ' :: back)).splitOn ' ' =
    p.splitOn ' ' ++ "ORDER".toList :: back.splitOn ' ' := by
  have horder : "ORDER".toList.splitOn ' ' = ["ORDER".toList] := by decide
  rw [List.splitOn_append_cons_self, List.splitOn_append_cons_self, horder, List.singleton_append]

theorem front_words {p : Text} {ts : List Token} (h : lexer.lex p = some ts) :
    ∀ w ∈ p.splitOn ' ', (decide (w ≠ "ORDER".toList)) = true := by
  intro w hw
  rw [decide_eq_true_eq]
  rintro rfl
  exact order_not_mem h hw

/-- The words of a text from its first `ORDER` on, if that stands behind a predicate. -/
theorem dropWhile_order {p : Text} {ts : List Token} (h : lexer.lex p = some ts) (back : Text) :
    ((p ++ ' ' :: ("ORDER".toList ++ ' ' :: back)).splitOn ' ').dropWhile (fun w => w ≠ "ORDER".toList) =
      "ORDER".toList :: back.splitOn ' ' := by
  rw [splitOn_order, List.dropWhile_append_of_pos (front_words h), List.dropWhile_cons_of_neg (by simp)]

/-- What is read of a predicate and what begins with `ORDER`. -/
theorem readOrdered_append {p : Text} {ts : List Token} (h : lexer.lex p = some ts) (back : Text) :
    readOrdered (p ++ ' ' :: ("ORDER".toList ++ ' ' :: back)) = do
      let e ← read p
      let o ← ordering ("ORDER".toList :: back.splitOn ' ')
      return (e, some o) := by
  rw [readOrdered, dropWhile_order h, splitOn_order, List.takeWhile_append_of_pos (front_words h),
    List.takeWhile_cons_of_neg (by simp), List.append_nil, List.intercalate_splitOn]

/-- The text of an ordering. -/
def orderText (n : Text) (desc : Bool) : Text :=
  ' ' :: ("ORDER".toList ++ ' ' :: ("BY".toList ++ ' ' ::
    (n ++ ' ' :: if desc then "DESC".toList else "ASC".toList)))

theorem splitOn_identifier {n : Text} (h : Identifier n) : n.splitOn ' ' = [n] := by
  have hblank : isWordChar ' ' = false := by decide
  refine List.splitOn_eq_singleton fun hmem => ?_
  exact Bool.false_ne_true (hblank.symm.trans (List.all_eq_true.1 h.2.1 ' ' hmem))

/-- The words of an ordering behind `ORDER`. -/
theorem splitOn_orderBy {n : Text} (h : Identifier n) (desc : Bool) :
    ("BY".toList ++ ' ' :: (n ++ ' ' :: if desc then "DESC".toList else "ASC".toList)).splitOn ' ' =
      ["BY".toList, n, if desc then "DESC".toList else "ASC".toList] := by
  have hby : "BY".toList.splitOn ' ' = ["BY".toList] := by decide
  have hdir : (if desc then "DESC".toList else "ASC".toList).splitOn ' ' =
      [if desc then "DESC".toList else "ASC".toList] := by cases desc <;> decide
  rw [List.splitOn_append_cons_self, List.splitOn_append_cons_self, hby, splitOn_identifier h, hdir]
  rfl

/-- The words of an ordering with something behind it. -/
theorem splitOn_orderBy_append {n : Text} (h : Identifier n) (desc : Bool) (rest : Text) :
    ("BY".toList ++ ' ' ::
        (n ++ ' ' :: ((if desc then "DESC".toList else "ASC".toList) ++ ' ' :: rest))).splitOn ' ' =
      "BY".toList :: n :: (if desc then "DESC".toList else "ASC".toList) :: rest.splitOn ' ' := by
  have hassoc : "BY".toList ++ ' ' ::
        (n ++ ' ' :: ((if desc then "DESC".toList else "ASC".toList) ++ ' ' :: rest)) =
      ("BY".toList ++ ' ' :: (n ++ ' ' :: if desc then "DESC".toList else "ASC".toList)) ++ ' ' :: rest := by
    simp
  rw [hassoc, List.splitOn_append_cons_self, splitOn_orderBy h]
  rfl

theorem orderText_append (p n : Text) (desc : Bool) (rest : Text) :
    p ++ orderText n desc ++ ' ' :: rest = p ++ ' ' :: ("ORDER".toList ++ ' ' :: ("BY".toList ++ ' ' ::
      (n ++ ' ' :: ((if desc then "DESC".toList else "ASC".toList) ++ ' ' :: rest)))) := by
  simp [orderText]

/-- **A predicate with an ordering at its end** is read as both. -/
theorem readOrdered_orderText {p n : Text} {ts : List Token} (hp : lexer.lex p = some ts) (hn : Identifier n)
    (desc : Bool) : readOrdered (p ++ orderText n desc) = (read p).map (·, some (n, desc)) := by
  have hread : direction [if desc then "DESC".toList else "ASC".toList] = some desc := by cases desc <;> decide
  rw [orderText, readOrdered_append hp, splitOn_orderBy hn]
  simp only [ordering, hn, hread, and_self, if_true]
  cases read p <;> rfl

/-- **An ordering with anything behind it** is not read. -/
theorem readOrdered_orderText_append {p n : Text} {ts : List Token} (hp : lexer.lex p = some ts)
    (hn : Identifier n)
    (desc : Bool) (rest : Text) : readOrdered (p ++ orderText n desc ++ ' ' :: rest) = none := by
  have hno : ∀ d : Text, direction (d :: rest.splitOn ' ') = none := by
    intro d
    cases hr : rest.splitOn ' ' with
    | nil => exact absurd hr (List.splitOn_ne_nil _ _)
    | cons _ _ => rfl
  rw [orderText_append, readOrdered_append hp, splitOn_orderBy_append hn]
  simp only [ordering, hno, Option.map_none, ite_self]
  cases read p <;> rfl

/-- An ordering with anything behind it is not at the end of a text. -/
theorem orderText_append_ne {p q n m : Text} {ts us : List Token} (hp : lexer.lex p = some ts)
    (hq : lexer.lex q = some us) (hn : Identifier n) (hm : Identifier m) (desc desc' : Bool) (rest : Text) :
    p ++ orderText n desc ++ ' ' :: rest ≠ q ++ orderText m desc' := by
  rw [orderText_append]
  intro heq
  have hwords := congrArg (fun t : Text => (t.splitOn ' ').dropWhile fun w => w ≠ "ORDER".toList) heq
  simp only [orderText, dropWhile_order hp, dropWhile_order hq, splitOn_orderBy_append hn, splitOn_orderBy hm,
    List.cons.injEq] at hwords
  exact List.splitOn_ne_nil _ _ hwords.2.2.2.2

end Predicate
