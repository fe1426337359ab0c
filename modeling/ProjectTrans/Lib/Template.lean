import Mathlib.Tactic

/-!
# Texts with placeholders

A text put together from pieces: fixed text, names, and placeholders, each of which
stands for a value. `count_placeholders_iff`: the question marks of the text are its
placeholders, one for one, exactly when no name has any.
-/

/-- A text, as its characters. -/
abbrev Text := List Char

namespace Text

/-- Append to what has been accumulated, behind a separator unless that is still empty. -/
def appendWith (sep acc piece : Text) : Text := (if acc.isEmpty then acc else acc ++ sep) ++ piece

@[simp] theorem appendWith_nil (sep piece : Text) : appendWith sep [] piece = piece := rfl

theorem appendWith_of_ne_nil {sep acc : Text} (h : acc ≠ []) (piece : Text) :
    appendWith sep acc piece = acc ++ sep ++ piece := by
  rw [appendWith, if_neg (by simpa using h)]

@[simp] theorem appendWith_eq_nil {sep acc piece : Text} :
    appendWith sep acc piece = [] ↔ acc = [] ∧ piece = [] := by
  by_cases h : acc = []
  · simp [h]
  · simp [appendWith_of_ne_nil h, h]

/-- What is accumulated is empty only when all pieces are. -/
theorem foldl_appendWith_eq_nil {sep acc : Text} {pieces : List Text} :
    pieces.foldl (appendWith sep) acc = [] ↔ acc = [] ∧ ∀ piece ∈ pieces, piece = [] := by
  induction pieces generalizing acc with
  | nil => simp
  | cons piece pieces ih => rw [List.foldl_cons, ih, appendWith_eq_nil, List.forall_mem_cons, and_assoc]

end Text

/-- A piece of a text. -/
inductive Piece (σ : Type*)
  | text (t : Text)
  | name (n : Text)
  | slot (value : σ)

/-- A text in pieces. -/
abbrev Template (σ : Type*) := List (Piece σ)

variable {σ : Type*}

/-- The characters of a piece; a placeholder is a question mark. -/
def Piece.chars : Piece σ → Text
  | text t => t
  | name n => n
  | slot _ => ['?']

/-- The fixed text of a piece has no question mark. -/
def Piece.Plain : Piece σ → Prop
  | text t => '?' ∉ t
  | _ => True

namespace Template

/-- The text. -/
def chars (t : Template σ) : Text := t.flatMap Piece.chars

/-- What its placeholders stand for, in order. -/
def slots (t : Template σ) : List σ := t.filterMap fun
  | .slot s => some s
  | _ => none

/-- Fixed text has no question marks. -/
def Plain (t : Template σ) : Prop := ∀ p ∈ t, p.Plain

/-- No name has a question mark. -/
def NamesPlain (t : Template σ) : Prop := ∀ n, .name n ∈ t → '?' ∉ n

/-- `Text.appendWith` on templates. -/
def appendWith (sep : Text) (acc piece : Template σ) : Template σ :=
  (if acc.chars.isEmpty then acc else acc ++ [.text sep]) ++ piece

@[simp] theorem chars_nil : chars ([] : Template σ) = [] := rfl

@[simp] theorem chars_cons (p : Piece σ) (t : Template σ) : chars (p :: t) = p.chars ++ chars t := rfl

@[simp] theorem chars_append (s t : Template σ) : chars (s ++ t) = chars s ++ chars t := List.flatMap_append

@[simp] theorem slots_nil : slots ([] : Template σ) = [] := rfl

@[simp] theorem slots_text (x : Text) (t : Template σ) : slots (.text x :: t) = slots t := rfl

@[simp] theorem slots_name (x : Text) (t : Template σ) : slots (.name x :: t) = slots t := rfl

@[simp] theorem slots_slot (s : σ) (t : Template σ) : slots (.slot s :: t) = s :: slots t := rfl

@[simp] theorem slots_append (s t : Template σ) : slots (s ++ t) = slots s ++ slots t := List.filterMap_append

@[simp] theorem chars_appendWith (sep : Text) (acc piece : Template σ) :
    (appendWith sep acc piece).chars = Text.appendWith sep acc.chars piece.chars := by
  unfold appendWith Text.appendWith
  split <;> simp [Piece.chars]

@[simp] theorem slots_appendWith (sep : Text) (acc piece : Template σ) :
    (appendWith sep acc piece).slots = acc.slots ++ piece.slots := by
  unfold appendWith
  split <;> simp

@[simp] theorem plain_nil : Plain ([] : Template σ) := by simp [Plain]

@[simp] theorem plain_cons {p : Piece σ} {t : Template σ} : Plain (p :: t) ↔ p.Plain ∧ Plain t := by
  simp [Plain]

@[simp] theorem plain_append {s t : Template σ} : Plain (s ++ t) ↔ Plain s ∧ Plain t := by
  simp only [Plain, List.forall_mem_append]

theorem Plain.appendWith {sep : Text} {acc piece : Template σ} (hsep : '?' ∉ sep) (ha : Plain acc)
    (hp : Plain piece) : Plain (appendWith sep acc piece) := by
  unfold Template.appendWith
  split
  · exact plain_append.2 ⟨ha, hp⟩
  · exact plain_append.2 ⟨plain_append.2 ⟨ha, by simpa [Piece.Plain] using hsep⟩, hp⟩

@[simp] theorem chars_foldl_appendWith (sep : Text) (acc : Template σ) (pieces : List (Template σ)) :
    (pieces.foldl (appendWith sep) acc).chars = (pieces.map chars).foldl (Text.appendWith sep) acc.chars := by
  induction pieces generalizing acc with
  | nil => rfl
  | cons piece pieces ih => rw [List.foldl_cons, ih, chars_appendWith, List.map_cons, List.foldl_cons]

@[simp] theorem slots_foldl_appendWith (sep : Text) (acc : Template σ) (pieces : List (Template σ)) :
    (pieces.foldl (appendWith sep) acc).slots = acc.slots ++ pieces.flatMap slots := by
  induction pieces generalizing acc with
  | nil => simp
  | cons piece pieces ih => rw [List.foldl_cons, ih, slots_appendWith, List.flatMap_cons, List.append_assoc]

theorem Plain.foldl_appendWith {sep : Text} (hsep : '?' ∉ sep) {acc : Template σ} {pieces : List (Template σ)}
    (ha : Plain acc) (hp : ∀ piece ∈ pieces, Plain piece) :
    Plain (pieces.foldl (Template.appendWith sep) acc) := by
  induction pieces generalizing acc with
  | nil => exact ha
  | cons piece pieces ih =>
    obtain ⟨hpiece, hrest⟩ := List.forall_mem_cons.1 hp
    exact ih (ha.appendWith hsep hpiece) hrest

/-- A text has at least as many question marks as placeholders. -/
theorem slots_length_le (t : Template σ) : t.slots.length ≤ t.chars.count '?' := by
  induction t with
  | nil => simp
  | cons p t ih => cases p <;> simp [Piece.chars] <;> omega

/-- **Question marks are placeholders**, exactly when no name has one. -/
theorem count_placeholders_iff {t : Template σ} (h : t.Plain) :
    t.chars.count '?' = t.slots.length ↔ t.NamesPlain := by
  induction t with
  | nil => simp [NamesPlain]
  | cons p t ih =>
    obtain ⟨hp, ht⟩ := plain_cons.1 h
    have ih := ih ht
    have hle := slots_length_le t
    cases p with
    | text x =>
      rw [chars_cons, List.count_append, Piece.chars, List.count_eq_zero.2 hp, zero_add, slots_text, ih]
      simp [NamesPlain]
    | slot s =>
      rw [chars_cons, List.count_append, Piece.chars, slots_slot, List.count_singleton_self,
        List.length_cons, Nat.add_comm, Nat.add_right_cancel_iff, ih]
      simp [NamesPlain]
    | name n =>
      rw [chars_cons, List.count_append, Piece.chars, slots_name]
      have hn : NamesPlain (.name n :: t) ↔ '?' ∉ n ∧ NamesPlain t := by
        simp [NamesPlain]
      rw [hn, ← ih, ← List.count_eq_zero]
      omega

end Template
