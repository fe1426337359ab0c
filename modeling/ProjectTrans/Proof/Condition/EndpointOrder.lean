import ProjectTrans.Model.Condition.SingleInterval

/-!
# The order of endpoints

Left and right endpoints are ordered as places on the line: the infinite left end, then
for each value the right ends before the left ones, then the infinite right end. Every
comparison of the code is a comparison of places (`lt_iff_place`), so it is a strict
total order, and the order of intervals it gives is what an ordered set needs
(`endpointOrder`).
-/

namespace ProjectTrans

variable {α : Type*} [LinearOrder α]

namespace EndpointRange

/-- The place of an endpoint among those with its value: open right, closed right, closed
left, open left. -/
def rank (e : EndpointRange α) : ℕ :=
  if e.side = .right then if e.isOpen then 0 else 1
  else if e.isOpen then 3 else 2

/-- The place of an endpoint on the line. -/
def place (e : EndpointRange α) : WithBot (WithTop (α ×ₗ ℕ)) :=
  match e.value with
  | none => if e.side = .right then ⊤ else ⊥
  | some a => ((toLex (a, e.rank) : α ×ₗ ℕ) : WithTop (α ×ₗ ℕ))

variable {e f g : EndpointRange α}

/-- An endpoint is determined by its place. -/
theorem place_inj (he : e.side ≠ .unknown) (hf : f.side ≠ .unknown) : e.place = f.place ↔ e = f := by
  refine ⟨fun h => ?_, fun h => congrArg place h⟩
  obtain ⟨v, o, s, hv⟩ := e
  obtain ⟨w, p, t, hw⟩ := f
  cases v <;> cases w <;> cases s <;> cases t <;> cases o <;> cases p <;> simp_all [place, rank]

/-- **The comparison of endpoints is that of their places.** -/
theorem lt_iff_place (he : e.side ≠ .unknown) (hf : f.side ≠ .unknown) : e < f ↔ e.place < f.place := by
  show e.lt f = true ↔ _
  unfold lt
  by_cases hef : e = f
  · simp [hef]
  rw [if_neg hef]
  obtain ⟨v, o, s, hv⟩ := e
  obtain ⟨w, p, t, hw⟩ := f
  cases v with
  | none =>
    -- an infinite end: everything depends on the sides
    cases w <;> cases s <;> cases t <;> simp_all [place, lt_top_iff_ne_top, bot_lt_iff_ne_bot]
  | some a =>
    cases w with
    | none => cases s <;> cases t <;> simp_all [place, lt_top_iff_ne_top]
    | some b =>
      simp only [place, WithBot.coe_lt_coe, WithTop.coe_lt_coe, Prod.Lex.toLex_lt_toLex]
      by_cases hab : a = b
      · subst hab
        cases s <;> cases t <;> cases o <;> cases p <;> simp_all [rank]
      · simp [hab]

/-- A left or a right endpoint. -/
def Sided (α : Type*) := {e : EndpointRange α // e.side ≠ .unknown}

instance : LT (Sided α) := ⟨fun e f => e.1 < f.1⟩

theorem Sided.lt_iff {e f : Sided α} : e < f ↔ e.1.place < f.1.place := lt_iff_place e.2 f.2

/-- **Left and right endpoints are strictly totally ordered.** -/
instance : IsStrictTotalOrder (Sided α) (· < ·) where
  irrefl e h := by
    rw [Sided.lt_iff] at h
    exact absurd h (lt_irrefl _)
  trans e f g hef hfg := by
    rw [Sided.lt_iff] at *
    exact hef.trans hfg
  trichotomous e f hef hfe := by
    rw [Sided.lt_iff, not_lt] at hef hfe
    exact Subtype.ext ((place_inj e.2 f.2).1 (hfe.antisymm hef))

/-- The chain of the endpoints with the value `a`, between the infinite ends. -/
def chain (a : α) : List (EndpointRange α) :=
  [infinite .left, new (some a) true .right, new (some a) false .right, new (some a) false .left,
    new (some a) true .left, infinite .right]

theorem chain_sorted (a : α) : (chain a).Pairwise (· < ·) := by
  have hplace : ∀ e ∈ chain a, ∀ f ∈ chain a, e < f ↔ e.place < f.place := by
    intro e he f hf
    apply lt_iff_place
    · fin_cases he <;> simp [infinite, new]
    · fin_cases hf <;> simp [infinite, new]
  refine List.Pairwise.imp_of_mem (fun he hf h => (hplace _ he _ hf).2 h) ?_
  simp [chain, place, rank, infinite, new, Prod.Lex.toLex_lt_toLex, lt_top_iff_ne_top, bot_lt_iff_ne_bot]

/-- Endpoints with different values are in the order of the values. -/
theorem lt_of_values {a b : α} (he : e.side ≠ .unknown) (hf : f.side ≠ .unknown) (ha : a ∈ e.value)
    (hb : b ∈ f.value) (hab : a < b) : e < f := by
  rw [lt_iff_place he hf, place, place, Option.mem_def.1 ha, Option.mem_def.1 hb]
  simp [Prod.Lex.toLex_lt_toLex, hab]

end EndpointRange

open EndpointRange

namespace SingleInterval

theorem isEquals_iff {I J : SingleInterval α} : I.isEquals J = true ↔ I = J := by
  rw [isEquals, Bool.and_eq_true, decide_eq_true_eq, decide_eq_true_eq]
  cases I
  cases J
  simp

/-- Two intervals neither of which is before the other are equal. -/
theorem incomparable_iff {I J : SingleInterval α} : ¬I < J ∧ ¬J < I ↔ I.isEquals J = true := by
  rw [isEquals_iff]
  constructor
  · rintro ⟨hIJ, hJI⟩
    exact Std.Trichotomous.trichotomous (r := (· < ·)) I J hIJ hJI
  · rintro rfl
    exact ⟨irrefl_of (· < ·) I, irrefl_of (· < ·) I⟩

instance : IsStrictWeakOrder (SingleInterval α) (· < ·) where
  irrefl := irrefl_of (· < ·)
  trans _ _ _ := trans_of (· < ·)
  incomp_trans I J K hIJ hJK := by
    rw [incomparable_iff, isEquals_iff] at *
    exact hIJ.trans hJK

/-- **The order of endpoints and of intervals**: strict and total on left and right
endpoints, along the documented chain, and on intervals a strict weak order whose
equivalence is `==`. -/
theorem endpointOrder :
    (∀ e : Sided α, ¬e < e) ∧ (∀ e f g : Sided α, e < f → f < g → e < g) ∧
      (∀ e f : Sided α, e < f ∨ e = f ∨ f < e) ∧
      (∀ a : α, (chain a).Pairwise (· < ·)) ∧
      (∀ e f : Sided α, ∀ a ∈ e.1.value, ∀ b ∈ f.1.value, a < b → e < f) ∧
      IsStrictWeakOrder (SingleInterval α) (· < ·) ∧
      ∀ I J : SingleInterval α, ¬I < J ∧ ¬J < I ↔ I.isEquals J = true := by
  refine ⟨irrefl_of (· < ·), fun e f g => trans_of (· < ·), trichotomous_of (· < ·), chain_sorted, ?_,
    inferInstance, fun I J => incomparable_iff⟩
  intro e f a ha b hb hab
  exact lt_of_values e.2 f.2 ha hb hab

end SingleInterval

end ProjectTrans
