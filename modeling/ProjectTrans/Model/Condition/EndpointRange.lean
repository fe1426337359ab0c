import ProjectTrans.Lib.Cut

/-!
# Endpoints (`condition/endpoint_range`)

An endpoint limits values on one side. It has a value, or none at an infinite end, and
an infinite endpoint is always open.
-/

namespace ProjectTrans

open Cuts

/-- `BoundarySide`. -/
inductive BoundarySide
  | left
  | right
  | unknown
  deriving DecidableEq, Repr

/-- `EndpointRange`. -/
structure EndpointRange (α : Type*) where
  value : Option α
  isOpen : Bool
  side : BoundarySide
  infinite_open : value = none → isOpen = true
  deriving DecidableEq

namespace EndpointRange

variable {α : Type*}

/-- The constructor from a side alone: an infinite end. -/
def infinite (side : BoundarySide) : EndpointRange α := ⟨none, true, side, fun _ => rfl⟩

/-- The constructor: an endpoint without a value is made open. -/
def new (value : Option α) (isOpen : Bool) (side : BoundarySide) : EndpointRange α :=
  ⟨value, if value.isSome then isOpen else true, side, fun h => by simp [h]⟩

/-- `is_limited`. -/
def isLimited (e : EndpointRange α) : Bool := e.value.isSome

/-- `get_adjacent_endpoint`. -/
def getAdjacentEndpoint (e : EndpointRange α) : EndpointRange α :=
  new e.value (!e.isOpen) (if e.side = .left then .right else .left)

/-! ## Endpoints as cuts -/

/-- Where an endpoint stands: a right endpoint stands behind the values it admits. -/
def cut (e : EndpointRange α) : Cut α :=
  match e.value with
  | none => if e.side = .right then ⊤ else ⊥
  | some a =>
    if e.side = .right then if e.isOpen then below a else above a
    else if e.isOpen then above a else below a

/-- An endpoint of a given side is determined by where it stands. -/
theorem cut_inj {e f : EndpointRange α} (hs : e.side = f.side) (hu : e.side ≠ .unknown) :
    e.cut = f.cut ↔ e = f := by
  refine ⟨fun h => ?_, fun h => congrArg cut h⟩
  obtain ⟨v, o, s, hv⟩ := e
  obtain ⟨w, p, t, hw⟩ := f
  simp only at hs hu
  subst hs
  cases v <;> cases w <;> cases s <;> cases o <;> cases p <;> simp_all [cut]

/-- Adjacent endpoints stand at one place, and any two infinite ends are adjacent. -/
theorem adjacent_iff_cut {e f : EndpointRange α}
    (hs : e.side = .left ∧ f.side = .right ∨ e.side = .right ∧ f.side = .left) :
    e.getAdjacentEndpoint = f ↔
      e.cut = f.cut ∨ e.isLimited = false ∧ f.isLimited = false := by
  obtain ⟨v, o, s, hv⟩ := e
  obtain ⟨w, p, t, hw⟩ := f
  simp only at hs
  obtain ⟨rfl, rfl⟩ | ⟨rfl, rfl⟩ := hs
  · cases v <;> cases w <;> cases o <;> cases p <;>
      simp at hv hw <;> simp [getAdjacentEndpoint, new, cut, isLimited]
  · cases v <;> cases w <;> cases o <;> cases p <;>
      simp at hv hw <;> simp [getAdjacentEndpoint, new, cut, isLimited]

/-! ## Comparison -/

variable [LinearOrder α]

/-- `operator<`. -/
def lt (e f : EndpointRange α) : Bool :=
  if e = f then false
  else
    match e.value, f.value with
    | none, none => e.side = .left && f.side = .right
    | some a, some b =>
      if a ≠ b then a < b
      else if e.side = f.side then
        if e.side = .left then !e.isOpen else e.isOpen
      else e.side = .right
    | a, _ =>
      if e.side = f.side then
        if e.side = .left then a.isNone else a.isSome
      else e.side = .left

instance : LT (EndpointRange α) := ⟨fun e f => e.lt f = true⟩

instance : DecidableLT (EndpointRange α) := fun e f => inferInstanceAs (Decidable (e.lt f = true))

/-- `operator<=`. -/
def le (e f : EndpointRange α) : Bool := e < f || e = f

/-- `operator>=`. -/
def ge (e f : EndpointRange α) : Bool := f < e || e = f

/-- `is_in_range`. -/
def isInRange (e : EndpointRange α) (v : α) : Bool :=
  match e.value with
  | none => true
  | some a =>
    if e.side = .right then
      if v < a then true else if a < v then false else !e.isOpen
    else
      if v < a then false else if a < v then true else !e.isOpen

theorem isInRange_right {e : EndpointRange α} (h : e.side = .right) {v : α} :
    e.isInRange v = true ↔ below v < e.cut := by
  unfold isInRange cut
  cases hv : e.value with
  | none => simp [h, lt_top_iff_ne_top]
  | some a =>
    simp only [h, if_true]
    rcases lt_trichotomy v a with hlt | rfl | hgt
    · cases e.isOpen <;> simp [hlt, hlt.le]
    · cases e.isOpen <;> simp
    · cases e.isOpen <;> simp [hgt, hgt.not_gt, hgt.not_ge]

theorem isInRange_left {e : EndpointRange α} (h : e.side ≠ .right) {v : α} :
    e.isInRange v = true ↔ e.cut ≤ below v := by
  unfold isInRange cut
  cases hv : e.value with
  | none => simp [h]
  | some a =>
    simp only [h, if_false]
    rcases lt_trichotomy v a with hlt | rfl | hgt
    · cases e.isOpen <;> simp [hlt, hlt.not_gt, hlt.not_ge]
    · cases e.isOpen <;> simp
    · cases e.isOpen <;> simp [hgt, hgt.not_gt, hgt.le]

/-- Endpoints of one side compare as their cuts do. -/
theorem lt_iff_cut {e f : EndpointRange α} (hs : e.side = f.side) (hu : e.side ≠ .unknown) :
    e < f ↔ e.cut < f.cut := by
  by_cases hef : e = f
  · subst hef
    simp only [lt_irrefl, iff_false]
    show ¬e.lt e = true
    simp [lt]
  · show e.lt f = true ↔ _
    obtain ⟨v, o, s, hv⟩ := e
    obtain ⟨w, p, t, hw⟩ := f
    simp only at hs hu
    subst hs
    unfold lt cut
    rw [if_neg hef]
    cases s with
    -- on the left a closed end comes before an open one, on the right behind it
    | unknown => exact absurd rfl hu
    | left =>
      cases v with
      | none => cases w <;> cases p <;> simp_all [bot_lt_iff_ne_bot]
      | some a =>
        cases w with
        | none => simp
        | some b =>
          rcases lt_trichotomy a b with hab | rfl | hab
          · cases o <;> cases p <;> simp [hab, hab.ne, hab.le]
          · cases o <;> cases p <;> simp_all
          · cases o <;> cases p <;> simp [hab.ne', hab.not_gt, hab]
    | right =>
      cases v with
      | none => cases w <;> cases p <;> simp_all
      | some a =>
        cases w with
        | none => cases o <;> simp [lt_top_iff_ne_top]
        | some b =>
          rcases lt_trichotomy a b with hab | rfl | hab
          · cases o <;> cases p <;> simp [hab, hab.ne, hab.le]
          · cases o <;> cases p <;> simp_all
          · cases o <;> cases p <;> simp [hab.ne', hab.not_gt, hab]

theorem le_iff_cut {e f : EndpointRange α} (hs : e.side = f.side) (hu : e.side ≠ .unknown) :
    e.le f = true ↔ e.cut ≤ f.cut := by
  rw [le, Bool.or_eq_true, decide_eq_true_eq, decide_eq_true_eq, lt_iff_cut hs hu, ← cut_inj hs hu,
    le_iff_lt_or_eq]

theorem ge_iff_cut {e f : EndpointRange α} (hs : e.side = f.side) (hu : e.side ≠ .unknown) :
    e.ge f = true ↔ f.cut ≤ e.cut := by
  rw [ge, Bool.or_eq_true, decide_eq_true_eq, decide_eq_true_eq, lt_iff_cut hs.symm (hs ▸ hu),
    ← cut_inj hs hu, le_iff_lt_or_eq, eq_comm]

/-- A right endpoint is before a left one when its value is not behind the other's. -/
theorem right_lt_left {e f : EndpointRange α} (he : e.side = .right) (hf : f.side = .left) :
    e < f ↔ ∃ b ∈ e.value, ∃ a ∈ f.value, b ≤ a := by
  show e.lt f = true ↔ _
  have hne : e ≠ f := fun h => by rw [h, hf] at he; exact absurd he (by decide)
  unfold lt
  rw [if_neg hne, he, hf]
  cases e.value with
  | none => cases f.value <;> simp
  | some b =>
    cases f.value with
    | none => simp
    | some a =>
      rcases lt_trichotomy b a with h | rfl | h
      · simp [h, h.ne, h.le]
      · simp
      · simp [h.ne', h.not_gt, h.not_ge]

/-- `get_integer_endpoint`, for an integral type and its cast to 64 bits. -/
def getIntegerEndpoint (cast : α → Int64) (e : EndpointRange α) : EndpointRange Int64 :=
  new (e.value.map cast) e.isOpen e.side

end EndpointRange

/-- The order of the 64-bit integers. -/
instance int64LinearOrder : LinearOrder Int64 where
  le_refl a := by simp
  le_trans _ _ _ := Int64.le_trans
  le_antisymm _ _ := Int64.le_antisymm
  le_total a b := by
    simp only [Int64.le_iff_toInt_le]
    omega
  lt_iff_le_not_ge a b := by
    simp only [Int64.le_iff_toInt_le, Int64.lt_iff_toInt_lt]
    omega
  toDecidableLE := inferInstance
  toDecidableLT := inferInstance
  toDecidableEq := inferInstance

/-! ## Integral types -/

/-- An integral type: its width, and whether it has a sign. -/
structure IntegralType where
  bits : ℕ
  signed : Bool
  standard : bits = 8 ∨ bits = 16 ∨ bits = 32 ∨ bits = 64

namespace IntegralType

/-- The least value. -/
def min (T : IntegralType) : ℤ := if T.signed then -2 ^ (T.bits - 1) else 0

/-- The greatest value. -/
def max (T : IntegralType) : ℤ := if T.signed then 2 ^ (T.bits - 1) - 1 else 2 ^ T.bits - 1

/-- The values of the type. -/
abbrev Value (T : IntegralType) : Type := {n : ℤ // T.min ≤ n ∧ n ≤ T.max}

/-- `static_cast<int64_t>`: modulo 2^64. -/
def cast (T : IntegralType) (v : T.Value) : Int64 := .ofInt v.1

theorem zero_mem (T : IntegralType) : T.min ≤ 0 ∧ 0 ≤ T.max := by
  obtain ⟨bits, signed, rfl | rfl | rfl | rfl⟩ := T <;> cases signed <;> simp [min, max]

instance (T : IntegralType) : Zero T.Value := ⟨⟨0, T.zero_mem⟩⟩

end IntegralType

end ProjectTrans
