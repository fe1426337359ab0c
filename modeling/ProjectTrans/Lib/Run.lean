import Mathlib.Tactic

/-!
# Runs of a deterministic machine

A run takes one operation after another. A condition on the steps may look at the state
before the step and at the operation; what such steps preserve holds after every run
that meets the condition (`Meets.invariant`, `Meets.imp_of_invariant`), and two machines that related steps keep
related stay related (`Meets.simulates`).
-/

namespace Run

variable {σ τ ω : Type*}

/-- Every step of the run meets the condition. -/
def Meets (ok : σ → ω → Prop) (step : σ → ω → σ) : σ → List ω → Prop
  | _, [] => True
  | s, op :: ops => ok s op ∧ Meets ok step (step s op) ops

variable {ok : σ → ω → Prop} {step : σ → ω → σ} {step' : τ → ω → τ}

instance Meets.decidable [∀ s op, Decidable (ok s op)] : ∀ (s : σ) (ops : List ω), Decidable (Meets ok step s ops)
  | _, [] => isTrue trivial
  | s, op :: ops =>
    have := Meets.decidable (step s op) ops
    inferInstanceAs (Decidable (ok s op ∧ Meets ok step (step s op) ops))

/-- A property of all operations joins the condition. -/
theorem Meets.and_forall {p : ω → Prop} {ops : List ω} {s : σ} (hm : Meets ok step s ops)
    (h : ∀ op ∈ ops, p op) : Meets (fun s op => p op ∧ ok s op) step s ops := by
  induction ops generalizing s with
  | nil => trivial
  | cons op ops ih =>
    have hall := List.forall_mem_cons.1 h
    exact ⟨⟨hall.1, hm.1⟩, ih hm.2 hall.2⟩

/-- Two conditions are one. -/
theorem Meets.and {ok' : σ → ω → Prop} {ops : List ω} {s : σ} (hm : Meets ok step s ops)
    (hm' : Meets ok' step s ops) : Meets (fun s op => ok s op ∧ ok' s op) step s ops := by
  induction ops generalizing s with
  | nil => trivial
  | cons op ops ih => exact ⟨⟨hm.1, hm'.1⟩, ih hm.2 hm'.2⟩

/-- Steps that keep two machines related keep them related over a run. -/
theorem Meets.simulates (rel : σ → τ → Prop)
    (hstep : ∀ s t op, rel s t → ok s op → rel (step s op) (step' t op))
    {ops : List ω} {s : σ} {t : τ} (h : rel s t) (hm : Meets ok step s ops) :
    rel (ops.foldl step s) (ops.foldl step' t) := by
  induction ops generalizing s t with
  | nil => exact h
  | cons op ops ih => exact ih (hstep s t op h hm.1) hm.2

/-- What every step preserves holds after the run. -/
theorem Meets.invariant (inv : σ → Prop) (hstep : ∀ s op, inv s → ok s op → inv (step s op))
    {ops : List ω} {s : σ} (h : inv s) (hm : Meets ok step s ops) : inv (ops.foldl step s) := by
  induction ops generalizing s with
  | nil => exact h
  | cons op ops ih => exact ih (hstep s op h hm.1) hm.2

/-- Under an invariant, the condition on the steps can be exchanged for what follows from it. -/
theorem Meets.imp_of_invariant {good : σ → ω → Prop} (inv : σ → Prop)
    (hstep : ∀ s op, inv s → ok s op → inv (step s op) ∧ good s op) {ops : List ω} {s : σ} (h : inv s)
    (hm : Meets ok step s ops) : Meets good step s ops := by
  induction ops generalizing s with
  | nil => trivial
  | cons op ops ih =>
    obtain ⟨hinv, hgood⟩ := hstep s op h hm.1
    exact ⟨hgood, ih hinv hm.2⟩

/-- What the steps of a run give out. -/
def trace {β : Type*} (out : σ → ω → Option β) (step : σ → ω → σ) : σ → List ω → List β
  | _, [] => []
  | s, op :: ops => (out s op).toList ++ trace out step (step s op) ops

/-- Steps that give nothing out. -/
theorem Meets.trace_eq_nil {β : Type*} {out : σ → ω → Option β} {ops : List ω} {s : σ}
    (hm : Meets (fun s op => out s op = none) step s ops) : trace out step s ops = [] := by
  induction ops generalizing s with
  | nil => rfl
  | cons op ops ih => rw [trace, hm.1, ih hm.2, Option.toList_none, List.nil_append]

/-- If every step gives out what it takes from the things pending, so does a run. -/
theorem Meets.trace_perm {β : Type*} {out : σ → ω → Option β} {pending : σ → List β} (inv : σ → Prop)
    (hstep : ∀ s op, inv s → ok s op → inv (step s op) ∧
      ((out s op).toList ++ pending (step s op)).Perm (pending s))
    {ops : List ω} {s : σ} (h : inv s) (hm : Meets ok step s ops) :
    (trace out step s ops ++ pending (ops.foldl step s)).Perm (pending s) := by
  induction ops generalizing s with
  | nil => exact List.Perm.refl _
  | cons op ops ih =>
    obtain ⟨hinv, hperm⟩ := hstep s op h hm.1
    have hrest := (ih hinv hm.2).append_left (out s op).toList
    rw [← List.append_assoc] at hrest
    exact hrest.trans hperm

/-- Related steps that give out the same make runs that give out the same. -/
theorem Meets.trace_eq {β : Type*} {out : σ → ω → Option β} {out' : τ → ω → Option β} (rel : σ → τ → Prop)
    (hstep : ∀ s t op, rel s t → ok s op → rel (step s op) (step' t op) ∧ out s op = out' t op) {ops : List ω}
    {s : σ} {t : τ} (h : rel s t) (hm : Meets ok step s ops) : trace out step s ops = trace out' step' t ops := by
  induction ops generalizing s t with
  | nil => rfl
  | cons op ops ih =>
    obtain ⟨hrel, hout⟩ := hstep s t op h hm.1
    rw [trace, trace, hout, ih hrel hm.2]

/-- A quantity that only some operations raise, by one, is bounded by how many there are. -/
theorem Meets.of_countP {spent : σ → ℕ} {p : ω → Bool} {budget : ℕ}
    (hstep : ∀ s op, spent (step s op) ≤ spent s + if p op then 1 else 0) {ops : List ω} {s : σ}
    (h : spent s + ops.countP p ≤ budget) :
    Meets (fun s op => spent s + (if p op then 1 else 0) ≤ budget) step s ops := by
  induction ops generalizing s with
  | nil => trivial
  | cons op ops ih =>
    rw [List.countP_cons] at h
    have hop := hstep s op
    exact ⟨by omega, ih (by omega)⟩

/-! ## Runs without end -/

/-- The states of a run without end. -/
def states (step : σ → ω → σ) (s : σ) (ops : ℕ → ω) : ℕ → σ
  | 0 => s
  | t + 1 => step (states step s ops t) (ops t)

/-- What every step preserves holds in every state. -/
theorem states_invariant (inv : σ → Prop) (hstep : ∀ s op, inv s → inv (step s op)) {s : σ}
    (h : inv s) (ops : ℕ → ω) (t : ℕ) : inv (states step s ops t) := by
  induction t with
  | zero => exact h
  | succ t ih => exact hstep _ _ ih

/-- What every step that meets the condition preserves holds in every state. -/
theorem states_invariant_of (inv : σ → Prop) (hstep : ∀ s op, inv s → ok s op → inv (step s op)) {s : σ}
    (h : inv s)
    {ops : ℕ → ω} (hok : ∀ t, ok (states step s ops t) (ops t)) (t : ℕ) : inv (states step s ops t) := by
  induction t with
  | zero => exact h
  | succ t ih => exact hstep _ _ ih (hok t)

/-- A run that has come to rest stays where it is. -/
theorem states_eq_of_rest {s : σ} {ops : ℕ → ω} {t₀ : ℕ}
    (hrest : ∀ t, t₀ ≤ t → step (states step s ops t₀) (ops t) = states step s ops t₀) {t : ℕ} (hle : t₀ ≤ t) :
    states step s ops t = states step s ops t₀ := by
  induction t, hle using Nat.le_induction with
  | base => rfl
  | succ t hle ih => rw [states, ih, hrest t hle]

variable (step) in
/-- **A rank that never rises** and that an operation lowers which always comes again is zero
at some time. -/
theorem exists_rank_eq_zero (rank : σ → ℕ) (helpful : ω → Prop) (s : σ) (ops : ℕ → ω) (t₀ : ℕ)
    (hle : ∀ t, t₀ ≤ t → rank (states step s ops (t + 1)) ≤ rank (states step s ops t))
    (hlt : ∀ t, t₀ ≤ t → helpful (ops t) → 0 < rank (states step s ops t) →
      rank (states step s ops (t + 1)) < rank (states step s ops t))
    (hagain : ∀ t, ∃ t', t ≤ t' ∧ helpful (ops t')) : ∃ t, t₀ ≤ t ∧ rank (states step s ops t) = 0 := by
  have hmono : ∀ t t', t₀ ≤ t → t ≤ t' → rank (states step s ops t') ≤ rank (states step s ops t) := by
    intro t t' ht htt'
    induction t', htt' using Nat.le_induction with
    | base => exact le_rfl
    | succ t' hle' ih => exact (hle t' (ht.trans hle')).trans ih
  -- strong induction on the rank: the next helpful action brings it down
  have hbelow : ∀ n t, t₀ ≤ t → rank (states step s ops t) = n → ∃ t', t₀ ≤ t' ∧
      rank (states step s ops t') = 0 := by
    intro n
    induction n using Nat.strong_induction_on with
    | _ n ih =>
      intro t ht hn
      by_cases hzero : rank (states step s ops t) = 0
      · exact ⟨t, ht, hzero⟩
      obtain ⟨t', htt', hhelp⟩ := hagain t
      have hle' := hmono t t' ht htt'
      by_cases hdone : rank (states step s ops t') = 0
      · exact ⟨t', ht.trans htt', hdone⟩
      have hless := hlt t' (ht.trans htt') hhelp (Nat.pos_of_ne_zero hdone)
      exact ih _ (by omega) (t' + 1) (by omega) rfl
  exact hbelow _ t₀ le_rfl rfl

/-- **What is always used up again while it is wanted** is wanted no more at some time. -/
theorem exists_not_of_measure (measure : ℕ → ℕ) (busy : ℕ → Prop)
    (hless : ∀ t, busy t → ∃ t', measure t' < measure t) : ∃ t, ¬busy t := by
  by_contra hall
  push Not at hall
  have hnone : ∀ n t, measure t ≠ n := by
    intro n
    induction n using Nat.strong_induction_on with
    | _ n ih =>
      intro t heq
      obtain ⟨t', hlt⟩ := hless t (hall t)
      exact ih (measure t') (heq ▸ hlt) t' rfl
  exact hnone (measure 0) 0 rfl

end Run
