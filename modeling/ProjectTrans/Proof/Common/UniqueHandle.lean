import Mathlib.Tactic
import ProjectTrans.Lib.Run
import ProjectTrans.Model.Common.UniqueHandle

/-!
# One owner for each descriptor

A descriptor goes from closed to free when the system gives it to the program, to owned when
a handle takes it over, and back to free or closed when the handle releases or closes it.
Events in any other order are faults; a second `close` is one. `handles_own`: as long as
handles take over only free descriptors there are no faults, and a descriptor is owned
exactly while one handle has it.
-/

namespace ProjectTrans

/-- The descriptor an event is about. -/
def HandleEvent.descriptor : HandleEvent → ℤ
  | .opened d => d
  | .adopted d => d
  | .released d => d
  | .closed d => d
  | .dropped d => d

namespace UniqueHandles

/-- Where a descriptor is. -/
inductive Fate
  | closed
  | free
  | owned
  deriving DecidableEq, Repr

/-- The next event of a descriptor; none is a fault. -/
def Fate.next : Option Fate → HandleEvent → Option Fate
  | some .closed, .opened _ => some .free
  | some .free, .dropped _ => some .closed
  | some .free, .adopted _ => some .owned
  | some .owned, .released _ => some .free
  | some .owned, .closed _ => some .closed
  | _, _ => none

/-- Where the events of the log leave a descriptor. -/
def fate (d : ℤ) (log : List HandleEvent) : Option Fate :=
  (log.filter fun e => e.descriptor = d).foldl Fate.next (some .closed)

variable {ι : Type*} {d : ℤ} {log : List HandleEvent} {e : HandleEvent}

theorem fate_append_self (h : e.descriptor = d) : fate d (log ++ [e]) = Fate.next (fate d log) e := by
  simp [fate, h]

theorem fate_append_of_ne (h : e.descriptor ≠ d) : fate d (log ++ [e]) = fate d log := by
  simp [fate, h]

/-- **One end for each ownership**: without a fault, a descriptor was taken over as often as
it was closed by a handle or released, once more while it is owned. -/
theorem count_of_fate (h : fate d log ≠ none) :
    log.count (.adopted d) =
      log.count (.closed d) + log.count (.released d) + if fate d log = some .owned then 1 else 0 := by
  induction log using List.reverseRecOn with
  | nil => rfl
  | append_singleton log e ih =>
    by_cases he : e.descriptor = d
    · rw [fate_append_self he] at h ⊢
      cases hf : fate d log with
      | none =>
        rw [hf] at h
        exact absurd (by cases e <;> rfl) h
      | some f =>
        have hcount := ih (by simp [hf])
        rw [hf] at h hcount
        -- the events that do not fault here each change one count
        cases e <;> obtain rfl := he <;> cases f <;>
          simp [Fate.next, List.count_append, HandleEvent.descriptor] at h hcount ⊢ <;> omega
    · rw [fate_append_of_ne he] at h ⊢
      have hne : ∀ f : HandleEvent, f.descriptor = d → (e == f) = false := by
        intro f hf
        exact beq_eq_false_iff_ne.2 fun hef => he (hef ▸ hf)
      have hadopted := hne (.adopted d) rfl
      have hclosed := hne (.closed d) rfl
      have hreleased := hne (.released d) rfl
      simp only [List.count_append, List.count_singleton, hadopted, hclosed, hreleased, Bool.false_eq_true,
        if_false, add_zero]
      exact ih h

/-! ## The invariant -/

/-- **Sole ownership**: no descriptor has two handles, an owned descriptor is one that a
handle has, no event is a fault and none is about a negative value. -/
structure Owns (handles : ι → Option ℤ) (log : List HandleEvent) : Prop where
  unique : ∀ i j d, 0 ≤ d → handles i = some d → handles j = some d → i = j
  owned : ∀ d, 0 ≤ d → (fate d log = some .owned ↔ ∃ i, handles i = some d)
  orderly : ∀ d, fate d log ≠ none
  nonneg : ∀ e ∈ log, 0 ≤ e.descriptor

/-- Nothing happens to negative values. -/
theorem Owns.fate_neg {handles : ι → Option ℤ} (h : Owns handles log) (hd : d < 0) :
    fate d log = some .closed := by
  have hnothing : (log.filter fun e => e.descriptor = d) = [] := by
    refine List.filter_eq_nil_iff.2 fun e he => ?_
    have := h.nonneg e he
    simp only [decide_eq_true_eq]
    omega
  rw [fate, hnothing]
  rfl

/-- A handle that owns nothing, or none at all. -/
def Blank (handle : Option ℤ) : Prop := ∀ d, handle = some d → d < 0

variable {handles handles' : ι → Option ℤ} {handle : Option ℤ} {i j : ι}

theorem blank_none : Blank none := fun _ h => nomatch h

theorem blank_neg (h : d < 0) : Blank (some d) := fun _ hd => Option.some.inj hd ▸ h

theorem Owns.init : Owns (fun _ : ι => none) [] where
  unique _ _ _ _ h := nomatch h
  owned _ _ := ⟨fun h => (nomatch h), fun ⟨_, h⟩ => (nomatch h)⟩
  orderly _ h := nomatch h
  nonneg _ h := nomatch h

/-- An event about one descriptor, with what it does to the handle that has it. -/
theorem Owns.event (h : Owns handles log) (he : e.descriptor = d) (hd : 0 ≤ d)
    (hother : ∀ j d', 0 ≤ d' → d' ≠ d → (handles' j = some d' ↔ handles j = some d'))
    (hunique : ∀ j k, handles' j = some d → handles' k = some d → j = k)
    (howned : Fate.next (fate d log) e = some .owned ↔ ∃ j, handles' j = some d)
    (horderly : Fate.next (fate d log) e ≠ none) : Owns handles' (log ++ [e]) where
  unique j k d' hd' hj hk := by
    -- the event is about `d` alone, so only there the fate and the handles change
    by_cases hne : d' = d
    · subst hne
      exact hunique j k hj hk
    · exact h.unique j k d' hd' ((hother j d' hd' hne).1 hj) ((hother k d' hd' hne).1 hk)
  owned d' hd' := by
    by_cases hne : d' = d
    · subst hne
      rw [fate_append_self he]
      exact howned
    · rw [fate_append_of_ne fun heq => hne (heq.symm.trans he)]
      simp only [hother _ d' hd' hne]
      exact h.owned d' hd'
  orderly d' := by
    by_cases hne : d' = d
    · subst hne
      rw [fate_append_self he]
      exact horderly
    · rw [fate_append_of_ne fun heq => hne (heq.symm.trans he)]
      exact h.orderly d'
  nonneg e' he' := by
    obtain hold | hnew := List.mem_append.1 he'
    · exact h.nonneg e' hold
    · rw [List.mem_singleton.1 hnew, he]
      exact hd

/-- Handles that have the same descriptors as before. -/
theorem Owns.of_same (h : Owns handles log) (hsame : ∀ j d, 0 ≤ d → (handles' j = some d ↔ handles j = some d)) :
    Owns handles' log where
  unique j k d hd hj hk := h.unique j k d hd ((hsame j d hd).1 hj) ((hsame k d hd).1 hk)
  owned d hd := by
    simp only [hsame _ d hd]
    exact h.owned d hd
  orderly := h.orderly
  nonneg := h.nonneg

theorem Owns.not_free (h : Owns handles log) (hd : 0 ≤ d) (hi : handles i = some d) : fate d log = some .owned :=
  (h.owned d hd).2 ⟨i, hi⟩

/-- An event about a descriptor that no handle has. -/
theorem Owns.outside (h : Owns handles log) (he : e.descriptor = d) (hd : 0 ≤ d)
    (hbefore : fate d log ≠ some .owned)
    (hafter : Fate.next (fate d log) e ≠ some .owned) (horderly : Fate.next (fate d log) e ≠ none) :
    Owns handles (log ++ [e]) :=
  h.event he hd (fun _ _ _ _ => Iff.rfl) (fun j k => h.unique j k d hd)
    (iff_of_false hafter fun hj => hbefore ((h.owned d hd).2 hj)) horderly

/-- A descriptor that is no handle's stays free when another one is closed. -/
theorem fate_close {d' : ℤ} (h : Owns handles log) (hi : handles i = some d) (hd' : 0 ≤ d')
    (hfree : fate d' log = some .free) : fate d' (log ++ UniqueHandles.close d) = some .free := by
  unfold UniqueHandles.close
  split
  · rw [List.append_nil]
    exact hfree
  · -- what is closed was owned, so it is not the free one
    have hne : (HandleEvent.closed d).descriptor ≠ d' := by
      rintro rfl
      have howned := h.not_free hd' hi
      rw [hfree] at howned
      cases howned
    rw [fate_append_of_ne hne]
    exact hfree

/-! ## What operations do to handles -/

variable [DecidableEq ι]

/-- Another descriptor than the one that a handle gets or has had. -/
theorem has_update {d' : ℤ} (hbefore : Blank (handles i) ∨ handles i = some d)
    (hafter : Blank handle ∨ handle = some d)
    (hd' : 0 ≤ d') (hne : d' ≠ d) : Function.update handles i handle j = some d' ↔ handles j = some d' := by
  by_cases hj : j = i
  · subst hj
    rw [Function.update_self]
    refine iff_of_false ?_ ?_
    · intro hhas
      obtain hblank | hsome := hafter
      · have := hblank d' hhas
        omega
      · rw [hsome] at hhas
        exact hne (Option.some.inj hhas).symm
    · intro hhas
      obtain hblank | hsome := hbefore
      · have := hblank d' hhas
        omega
      · rw [hsome] at hhas
        exact hne (Option.some.inj hhas).symm
  · rw [Function.update_of_ne hj]

/-- A blank handle stays blank. -/
theorem Owns.blank (h : Owns handles log) (hbefore : Blank (handles i)) (hafter : Blank handle) :
    Owns (Function.update handles i handle) log :=
  h.of_same fun j d hd => has_update (d := -1) (.inl hbefore) (.inl hafter) hd (by omega)

/-- A blank handle takes over a free descriptor. -/
theorem Owns.adopt (h : Owns handles log) (hbefore : Blank (handles i)) (hd : 0 ≤ d)
    (hfree : fate d log = some .free) : Owns (Function.update handles i (some d)) (log ++ [.adopted d]) := by
  have hself : ∀ j, Function.update handles i (some d) j = some d → j = i := by
    intro j hj
    by_contra hne
    rw [Function.update_of_ne hne] at hj
    have howned := h.not_free hd hj
    rw [hfree] at howned
    cases howned
  have hdescriptor : (HandleEvent.adopted d).descriptor = d := rfl
  refine h.event hdescriptor hd (fun j d' hd' hne => has_update (.inl hbefore) (.inr rfl) hd' hne) ?_ ?_ ?_
  · intro j k hj hk
    rw [hself j hj, hself k hk]
  · rw [hfree]
    exact iff_of_true rfl ⟨i, Function.update_self ..⟩
  · simp [hfree, Fate.next]

/-- A handle closes its descriptor or releases it. -/
theorem Owns.lose (h : Owns handles log) (hi : handles i = some d) (hd : 0 ≤ d) (hafter : Blank handle)
    (he : e = .closed d ∨ e = .released d) : Owns (Function.update handles i handle) (log ++ [e]) := by
  -- no other handle had the descriptor, so nobody has it afterwards
  have hnobody : ∀ j, Function.update handles i handle j ≠ some d := by
    intro j hj
    by_cases hji : j = i
    · subst hji
      rw [Function.update_self] at hj
      have := hafter d hj
      omega
    · rw [Function.update_of_ne hji] at hj
      exact hji (h.unique j i d hd hj hi)
  have howned := h.not_free hd hi
  have hdescriptor : e.descriptor = d := by obtain rfl | rfl := he <;> rfl
  have hnext : Fate.next (fate d log) e = some .closed ∨ Fate.next (fate d log) e = some .free := by
    rw [howned]
    obtain rfl | rfl := he
    · exact .inl rfl
    · exact .inr rfl
  refine h.event hdescriptor hd (fun j d' hd' hne => has_update (.inr hi) (.inl hafter) hd' hne) ?_ ?_ ?_
  · intro j k hj
    exact absurd hj (hnobody j)
  · refine iff_of_false ?_ fun ⟨j, hj⟩ => hnobody j hj
    obtain hclosed | hfree := hnext
    · simp [hclosed]
    · simp [hfree]
  · obtain hclosed | hfree := hnext
    · simp [hclosed]
    · simp [hfree]

/-- A descriptor moves from one handle to a blank one. -/
theorem Owns.transfer (h : Owns handles log) (hblank : Blank (handles i)) (hsource : handles j = some d) :
    Owns (Function.update (Function.update handles j (some (-1))) i (some d)) log := by
  have hempty : Blank (some (-1)) := blank_neg (by omega)
  by_cases hd : 0 ≤ d
  · -- the target is blank and the source is not
    have hne : i ≠ j := by
      rintro rfl
      have := hblank d hsource
      omega
    have hother : ∀ k d', 0 ≤ d' → d' ≠ d →
        (Function.update (Function.update handles j (some (-1))) i (some d) k = some d' ↔
          handles k = some d') := by
      intro k d' hd' hne'
      have hblank' : Blank (Function.update handles j (some (-1)) i) := by
        rw [Function.update_of_ne hne]
        exact hblank
      rw [has_update (.inl hblank') (.inr rfl) hd' hne', has_update (.inr hsource) (.inl hempty) hd' hne']
    have hself : ∀ k, Function.update (Function.update handles j (some (-1))) i (some d) k = some d → k = i := by
      intro k hk
      by_contra hki
      rw [Function.update_of_ne hki] at hk
      by_cases hkj : k = j
      · rw [hkj, Function.update_self] at hk
        have := hempty d hk
        omega
      · rw [Function.update_of_ne hkj] at hk
        exact hkj (h.unique k j d hd hk hsource)
    refine ⟨?_, ?_, h.orderly, h.nonneg⟩
    · intro k l d' hd' hk hl
      by_cases hd'd : d' = d
      · subst hd'd
        rw [hself k hk, hself l hl]
      · exact h.unique k l d' hd' ((hother k d' hd' hd'd).1 hk) ((hother l d' hd' hd'd).1 hl)
    · intro d' hd'
      by_cases hd'd : d' = d
      · subst hd'd
        exact iff_of_true (h.not_free hd hsource) ⟨i, Function.update_self ..⟩
      · simp only [hother _ d' hd' hd'd]
        exact h.owned d' hd'
  · -- nothing moves
    have hneg : Blank (some d) := blank_neg (by omega)
    refine (h.blank (hsource ▸ hneg) hempty).blank ?_ hneg
    by_cases hij : i = j
    · rw [hij, Function.update_self]
      exact hempty
    · rw [Function.update_of_ne hij]
      exact hblank

/-- A handle is closed, and is blank afterwards. -/
theorem Owns.close (h : Owns handles log) (hi : handles i = some d) (hafter : Blank handle) :
    Owns (Function.update handles i handle) (log ++ UniqueHandles.close d) := by
  unfold UniqueHandles.close
  split
  · rw [List.append_nil]
    exact h.blank (hi ▸ blank_neg ‹_›) hafter
  · exact h.lose hi (by omega) hafter (.inl rfl)

/-- A handle is released, and is blank afterwards. -/
theorem Owns.release (h : Owns handles log) (hi : handles i = some d) (hafter : Blank handle) :
    Owns (Function.update handles i handle) (log ++ released d) := by
  unfold released
  split
  · rw [List.append_nil]
    exact h.blank (hi ▸ blank_neg ‹_›) hafter
  · exact h.lose hi (by omega) hafter (.inr rfl)

/-- A blank handle gets a value: a free descriptor, or a negative one. -/
theorem Owns.take (h : Owns handles log) (hbefore : Blank (handles i)) (hfree : 0 ≤ d → fate d log = some .free) :
    Owns (Function.update handles i (some d)) (log ++ adopted d) := by
  unfold adopted
  split
  · rw [List.append_nil]
    exact h.blank hbefore (blank_neg ‹_›)
  · exact h.adopt hbefore (by omega) (hfree (by omega))

/-- **A handle is move-assigned**: what it had is closed, unless it is moved from itself. -/
theorem Owns.moveAssign (h : Owns handles log) {d' : ℤ} (hi : handles i = some d) (hj : handles j = some d') :
    Owns (Function.update (Function.update handles j (some (-1))) i (some d'))
      (log ++ UniqueHandles.close ((Function.update handles j (some (-1)) i).getD (-1))) := by
  have hempty : Blank (some (-1)) := blank_neg (by omega)
  by_cases hne : i = j
  · -- a self-move puts the descriptor back
    subst hne
    have hsame : Function.update (Function.update handles i (some (-1))) i (some d') = handles := by
      rw [Function.update_idem, ← hj, Function.update_eq_self]
    have hnothing : UniqueHandles.close ((Function.update handles i (some (-1)) i).getD (-1)) = [] := by
      rw [Function.update_self]
      rfl
    rw [hsame, hnothing, List.append_nil]
    exact h
  · have hclosed := h.close hi hempty
    have hblank : Blank (Function.update handles i (some (-1)) i) := by
      rw [Function.update_self]
      exact hempty
    have hsource : Function.update handles i (some (-1)) j = some d' := by
      rw [Function.update_of_ne (Ne.symm hne), hj]
    have hmoved := hclosed.transfer hblank hsource
    rw [Function.update_comm hne, Function.update_idem] at hmoved
    rw [Function.update_of_ne hne, hi, Option.getD_some]
    exact hmoved

/-- **A handle is reset**: what it had is closed before it takes the new value. -/
theorem Owns.reset (h : Owns handles log) {d' : ℤ} (hi : handles i = some d)
    (hfree : 0 ≤ d' → fate d' log = some .free) :
    Owns (Function.update handles i (some d')) (log ++ UniqueHandles.close d ++ adopted d') := by
  have hempty : Blank (some (-1)) := blank_neg (by omega)
  have hclosed := h.close hi hempty
  have hblank : Blank (Function.update handles i (some (-1)) i) := by
    rw [Function.update_self]
    exact hempty
  have htaken := hclosed.take hblank fun hd => fate_close h hi hd (hfree hd)
  rw [Function.update_idem] at htaken
  exact htaken

/-! ## Steps -/

/-- The system gives out descriptors that are closed, the program closes those that are
free, and handles take over only free ones: open, and not owned by any handle. -/
def Fresh (s : UniqueHandles ι) : Op ι → Prop
  | .opened d => 0 ≤ d ∧ fate d s.log = some .closed
  | .dropped d => 0 ≤ d ∧ fate d s.log = some .free
  | .adopt _ d => 0 ≤ d → fate d s.log = some .free
  | .reset _ d => 0 ≤ d → fate d s.log = some .free
  | _ => True

variable {s : UniqueHandles ι} {op : Op ι}

/-- **One step keeps sole ownership.** -/
theorem Owns.step (h : Owns s.handles s.log) (hfresh : s.Fresh op) :
    Owns (s.step op).handles (s.step op).log := by
  have hempty : Blank (some (-1)) := blank_neg (by omega)
  cases op with
  | opened d =>
    exact h.outside rfl hfresh.1 (by simp [hfresh.2, HandleEvent.descriptor])
      (by simp [hfresh.2, HandleEvent.descriptor, Fate.next])
      (by simp [hfresh.2, HandleEvent.descriptor, Fate.next])
  | dropped d =>
    exact h.outside rfl hfresh.1 (by simp [hfresh.2, HandleEvent.descriptor])
      (by simp [hfresh.2, HandleEvent.descriptor, Fate.next])
      (by simp [hfresh.2, HandleEvent.descriptor, Fate.next])
  | construct i =>
    cases hi : s.handles i with
    | some _ =>
      simp only [UniqueHandles.step, hi]
      exact h
    | none =>
      simp only [UniqueHandles.step, hi]
      -- a new handle holds -1, which is nobody's descriptor
      exact h.blank (hi ▸ blank_none) hempty
  | adopt i d =>
    cases hi : s.handles i with
    | some _ =>
      simp only [UniqueHandles.step, hi]
      exact h
    | none =>
      simp only [UniqueHandles.step, hi]
      exact h.take (hi ▸ blank_none) hfresh
  | moveConstruct i other =>
    cases hi : s.handles i with
    | some _ =>
      simp only [UniqueHandles.step, hi]
      exact h
    | none =>
      cases hother : s.handles other with
      | none =>
        simp only [UniqueHandles.step, hi, hother]
        exact h
      | some d =>
        simp only [UniqueHandles.step, hi, hother]
        exact h.transfer (hi ▸ blank_none) hother
  | moveAssign i other =>
    cases hi : s.handles i with
    | none =>
      simp only [UniqueHandles.step, hi]
      exact h
    | some d =>
      cases hother : s.handles other with
      | none =>
        simp only [UniqueHandles.step, hi, hother]
        exact h
      | some newHandle =>
        simp only [UniqueHandles.step, hi, hother]
        exact h.moveAssign hi hother
  | reset i d =>
    cases hi : s.handles i with
    | none =>
      simp only [UniqueHandles.step, hi]
      exact h
    | some handle =>
      simp only [UniqueHandles.step, hi]
      exact h.reset hi hfresh
  | release i =>
    cases hi : s.handles i with
    | none =>
      simp only [UniqueHandles.step, hi]
      exact h
    | some handle =>
      simp only [UniqueHandles.step, hi]
      exact h.release hi hempty
  | destroy i =>
    cases hi : s.handles i with
    | none =>
      simp only [UniqueHandles.step, hi]
      exact h
    | some handle =>
      simp only [UniqueHandles.step, hi]
      exact h.close hi blank_none

/-! ## Runs -/

/-- **Handles own their descriptors alone**: over every run in which handles take over only
descriptors that are open and that no handle owns, no descriptor has two handles, each is
closed by a handle at most once after it was taken over, never when it was released, and no
negative value is closed. Once all handles are destroyed, what was taken over was released
or closed, once. -/
theorem handles_own {ops : List (Op ι)} (hfresh : Run.Meets Fresh step (init : UniqueHandles ι) ops) :
    let last := ops.foldl step (init : UniqueHandles ι)
    Owns last.handles last.log ∧
      ((∀ i, last.handles i = none) → ∀ d, last.log.count (.adopted d) =
        last.log.count (.closed d) + last.log.count (.released d)) := by
  intro last
  have howns : Owns last.handles last.log :=
    hfresh.invariant (fun s => Owns s.handles s.log) (fun s op h hop => h.step hop) .init
  refine ⟨howns, fun hnone d => ?_⟩
  have hcount := count_of_fate (howns.orderly d)
  have hnot : fate d last.log ≠ some .owned := by
    intro howned
    by_cases hd : 0 ≤ d
    · obtain ⟨i, hi⟩ := (howns.owned d hd).1 howned
      rw [hnone i] at hi
      cases hi
    · rw [howns.fate_neg (by omega)] at howned
      cases howned
  rw [if_neg hnot, add_zero] at hcount
  exact hcount

/-- A descriptor is moved, and closed with the handle that has it then. -/
theorem handles_own_moved :
    let ops : List (Op (Fin 2)) :=
      [.opened 5, .adopt 0 5, .moveConstruct 1 0, .moveAssign 1 1, .destroy 0, .destroy 1]
    let last := ops.foldl step init
    Owns last.handles last.log ∧
      ((∀ i, last.handles i = none) → ∀ d, last.log.count (.adopted d) =
        last.log.count (.closed d) + last.log.count (.released d)) := by
  refine handles_own ⟨⟨by decide, by decide⟩, fun _ => by decide, trivial, trivial, trivial, trivial, trivial⟩

/-- The weaker condition that no *other* handle owns the descriptor of a `reset`. -/
def Unshared (s : UniqueHandles ι) : Op ι → Prop
  | .opened d => 0 ≤ d ∧ fate d s.log = some .closed
  | .dropped d => 0 ≤ d ∧ fate d s.log = some .free
  | .adopt i d => 0 ≤ d → fate d s.log ≠ some .closed ∧ ∀ j, j ≠ i → s.handles j ≠ some d
  | .reset i d => 0 ≤ d → fate d s.log ≠ some .closed ∧ ∀ j, j ≠ i → s.handles j ≠ some d
  | _ => True

/-- A handle that is reset to its own descriptor closes it, keeps it, and closes it again. -/
theorem self_reset_closes_twice :
    ¬ ∀ ops : List (Op (Fin 1)), Run.Meets Unshared step init ops →
      ∀ d, (ops.foldl step init).log.count (.closed d) ≤ (ops.foldl step init).log.count (.opened d) := by
  intro h
  have honce := h [.opened 5, .adopt 0 5, .reset 0 5, .destroy 0]
    ⟨⟨by decide, by decide⟩, fun _ => ⟨by decide, by decide⟩, fun _ => ⟨by decide, by decide⟩, trivial, trivial⟩ 5
  exact absurd honce (by decide)

end UniqueHandles

end ProjectTrans
