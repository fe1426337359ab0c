import Mathlib.Order.Defs.Unbundled
import Mathlib.Tactic

/-!
# Ordered sets

A set kept in the order of its elements, as a container with a comparison keeps it: two
elements neither of which is less than the other are one. Traversals go from the least
element up.
-/

/-- A list in strictly increasing order. -/
structure OrderedSet (α : Type*) [LT α] where
  toList : List α
  sorted : toList.Pairwise (· < ·)
  deriving DecidableEq

namespace OrderedSet

variable {α : Type*} [LT α]

instance : Membership α (OrderedSet α) := ⟨fun s a => a ∈ s.toList⟩

theorem mem_def {a : α} {s : OrderedSet α} : a ∈ s ↔ a ∈ s.toList := Iff.rfl

instance {s : OrderedSet α} {p : α → Prop} [DecidablePred p] : Decidable (∃ a ∈ s, p a) :=
  inferInstanceAs (Decidable (∃ a ∈ s.toList, p a))

/-- The set without elements. -/
def empty : OrderedSet α := ⟨[], List.Pairwise.nil⟩

@[simp] theorem not_mem_empty (a : α) : a ∉ (empty : OrderedSet α) := List.not_mem_nil

variable [DecidableLT α]

/-- Put an element at its place, unless it is there. -/
def place (a : α) : List α → List α
  | [] => [a]
  | b :: l =>
    if a < b then a :: b :: l
    else if b < a then b :: place a l
    else b :: l

variable [IsStrictTotalOrder α (· < ·)]

@[simp] theorem mem_place {a b : α} {l : List α} : b ∈ place a l ↔ b = a ∨ b ∈ l := by
  induction l with
  | nil => simp [place]
  | cons c l ih =>
    unfold place
    split
    · exact List.mem_cons
    · rename_i hac
      split
      · rw [List.mem_cons, ih, List.mem_cons, or_left_comm]
      · rename_i hca
        have heq : a = c := Std.Trichotomous.trichotomous (r := (· < ·)) a c hac hca
        rw [heq, List.mem_cons, ← or_assoc, or_self]

theorem place_sorted {a : α} {l : List α} (h : l.Pairwise (· < ·)) :
    (place a l).Pairwise (· < ·) := by
  induction l with
  | nil => exact List.pairwise_singleton _ _
  | cons b l ih =>
    have hb := List.pairwise_cons.1 h
    unfold place
    split
    · rename_i hab
      refine List.pairwise_cons.2 ⟨fun c hc => ?_, h⟩
      obtain rfl | hc := List.mem_cons.1 hc
      · exact hab
      · exact IsTrans.trans (r := (· < ·)) _ _ _ hab (hb.1 c hc)
    · split
      · rename_i hba
        refine List.pairwise_cons.2 ⟨fun c hc => ?_, ih hb.2⟩
        obtain rfl | hc := mem_place.1 hc
        · exact hba
        · exact hb.1 c hc
      · exact h

/-- `insert`. -/
def insert (a : α) (s : OrderedSet α) : OrderedSet α := ⟨place a s.toList, place_sorted s.sorted⟩

@[simp] theorem mem_insert {a b : α} {s : OrderedSet α} : b ∈ s.insert a ↔ b = a ∨ b ∈ s := mem_place

/-- What is behind everything is put at the end. -/
theorem insert_toList {a : α} {s : OrderedSet α} (h : ∀ b ∈ s, b < a) :
    (s.insert a).toList = s.toList ++ [a] := by
  have hplace : ∀ l : List α, (∀ b ∈ l, b < a) → place a l = l ++ [a] := by
    intro l
    induction l with
    | nil => exact fun _ => rfl
    | cons b l ih =>
      intro hl
      have hba := hl b List.mem_cons_self
      have hab : ¬a < b := fun hab => irrefl_of (· < ·) a (trans_of (· < ·) hab hba)
      rw [place, if_neg hab, if_pos hba, ih fun c hc => hl c (List.mem_cons_of_mem _ hc), List.cons_append]
  exact hplace s.toList h

omit [DecidableLT α] in
/-- A set is determined by its elements. -/
theorem ext_mem {s t : OrderedSet α} (h : ∀ a, a ∈ s ↔ a ∈ t) : s = t := by
  have hnodup : ∀ u : OrderedSet α, u.toList.Nodup := by
    intro u
    apply u.sorted.imp
    rintro a _ hab rfl
    exact irrefl_of (· < ·) a hab
  have hperm : s.toList.Perm t.toList := (List.perm_ext_iff_of_nodup (hnodup s) (hnodup t)).2 h
  have heq : s.toList = t.toList :=
    hperm.eq_of_pairwise (fun a b _ _ hab hba => absurd (trans_of (· < ·) hab hba) (irrefl_of (· < ·) a))
      s.sorted t.sorted
  cases s
  cases t
  simp only at heq
  subst heq
  rfl

theorem exists_mem_insert {a : α} {s : OrderedSet α} {p : α → Prop} :
    (∃ b ∈ s.insert a, p b) ↔ p a ∨ ∃ b ∈ s, p b := by
  simp only [mem_insert, or_and_right, exists_or, exists_eq_left]

/-- Elements inserted one after another. -/
def insertAll (l : List α) (s : OrderedSet α) : OrderedSet α := l.foldl (fun s a => s.insert a) s

@[simp] theorem mem_insertAll {b : α} {l : List α} {s : OrderedSet α} : b ∈ s.insertAll l ↔ b ∈ l ∨ b ∈ s := by
  induction l generalizing s with
  | nil => simp [insertAll]
  | cons a l ih =>
    rw [insertAll, List.foldl_cons, ← insertAll, ih, mem_insert, List.mem_cons]
    tauto

end OrderedSet
