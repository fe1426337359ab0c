import ProjectTrans.Proof.Condition.Range
import ProjectTrans.Proof.Condition.Relations

/-!
# What a range condition stores

The sweep leaves gaps between the intervals and drops the empty ones (`Built.apart`),
whatever the intervals are. The whole line, once stored, is all that is stored
(`Built.whole_alone`): everything merges with it.
-/

namespace ProjectTrans

open Cuts SingleInterval

variable {α : Type*} [LinearOrder α]

namespace SingleInterval

variable {I J : SingleInterval α}

/-- Without left ends, and without a right end on the one side, intervals are merged. -/
theorem canMergeWith_of_unlimited (h : I.left.isLimited = false)
    (h' : I.right.isLimited = false ∨ J.left.isLimited = false) : I.canMergeWith J = true := by
  have h1 : ¬J.right < I.left := by
    rw [EndpointRange.right_lt_left J.right_side I.left_side]
    rintro ⟨_, -, a, ha, -⟩
    rw [EndpointRange.isLimited, Option.mem_def.1 ha] at h
    exact absurd h (by simp)
  have h2 : ¬I.right < J.left := by
    rw [EndpointRange.right_lt_left I.right_side J.left_side]
    rintro ⟨b, hb, a, ha, -⟩
    obtain h' | h' := h'
    · rw [EndpointRange.isLimited, Option.mem_def.1 hb] at h'
      exact absurd h' (by simp)
    · rw [EndpointRange.isLimited, Option.mem_def.1 ha] at h'
      exact absurd h' (by simp)
  simp [canMergeWith, isDisjoint, h1, h2]

/-- What follows an interval that is not empty, and begins with it, is not empty either. -/
theorem not_isEmpty_of_lt (h : I < J) (hI : I.isEmpty = false) (hlo : J.lo = I.lo) : J.isEmpty = false := by
  have hlt : I.hi < J.hi := by
    obtain hlt | hlt := lt_iff.1 h
    · exact absurd hlo hlt.ne'
    · exact hlt.2
  rw [← Bool.not_eq_true, isEmpty_iff_lt, not_lt] at hI ⊢
  exact hlo ▸ hI.trans hlt.le

/-- The whole line. -/
def IsWhole (I : SingleInterval α) : Prop := I.left.isLimited = false ∧ I.right.isLimited = false

instance : Decidable I.IsWhole := inferInstanceAs (Decidable (_ ∧ _))

theorem IsWhole.isInRange (h : I.IsWhole) (v : α) : I.isInRange v = true := by
  rw [isInRange_iff, lo_eq_bot.1 h.1, hi_eq_top.1 h.2]
  exact ⟨bot_le, lt_top_iff_ne_top.2 below_ne_top⟩

end SingleInterval

namespace RangeCondition

/-- **The whole line comes out of a sweep alone.** While `current` has no left end nothing
has been output, and the whole line is never output before the end. -/
theorem sweep_whole {rest : List (SingleInterval α)} :
    ∀ {current : SingleInterval α} {result : OrderedSet (SingleInterval α)},
      (∀ J ∈ rest, current.lo ≤ J.lo) → rest.Pairwise (· < ·) →
      (current.left.isLimited = false → result = .empty) → (∀ I ∈ result, ¬I.IsWhole) →
      ∀ I ∈ sweep current result rest, I.IsWhole → (sweep current result rest).toList = [I] := by
  induction rest with
  | nil =>
    intro current result _ _ hempty hres I hI hwhole
    rw [sweep] at hI ⊢
    by_cases hc : current.isEmpty = true
    · rw [if_pos hc] at hI
      exact absurd hwhole (hres I hI)
    · rw [if_neg hc] at hI ⊢
      obtain rfl | hI := OrderedSet.mem_insert.1 hI
      · rw [hempty hwhole.1]
        rfl
      · exact absurd hwhole (hres I hI)
  | cons next rest ih =>
    intro current result hle hsort hempty hres
    obtain ⟨hnext, hrest⟩ := List.pairwise_cons.1 hsort
    have hnextlo : ∀ J ∈ rest, next.lo ≤ J.lo := fun J hJ => lo_le_of_lt (hnext J hJ)
    have hcn : current.lo ≤ next.lo := hle next List.mem_cons_self
    rw [sweep]
    by_cases hc : current.isEmpty = true
    · rw [if_pos hc]
      -- nothing empty starts without a left end
      refine ih hnextlo hrest (fun hn => ?_) hres
      obtain ⟨a, ha, -⟩ := isEmpty_iff.1 hc
      rw [lo_eq_bot.1 hn, ha] at hcn
      exact absurd (le_bot_iff.1 hcn) above_ne_bot
    · rw [if_neg hc]
      cases hU : current.tryGetUnion next with
      | some U =>
        -- a union starts where its first interval does
        obtain ⟨-, hlo, -⟩ := union_cuts hU
        rw [min_eq_left hcn] at hlo
        refine ih (fun J hJ => hlo ▸ hle J (List.mem_cons_of_mem _ hJ)) hrest (fun h => hempty ?_) hres
        rw [lo_eq_bot, ← hlo, ← lo_eq_bot]
        exact h
      | none =>
        have hcan := tryGetUnion_eq_none.1 hU
        refine ih hnextlo hrest (fun hn => ?_) fun I hI hwhole => ?_
        · -- then the current one has no left end either, and the two are merged
          have hcur : current.left.isLimited = false := by
            rw [lo_eq_bot] at hn ⊢
            exact le_bot_iff.1 (hn ▸ hcn)
          exact absurd (canMergeWith_of_unlimited hcur (.inr hn)) hcan
        · obtain rfl | hI := OrderedSet.mem_insert.1 hI
          · exact hcan (canMergeWith_of_unlimited hwhole.1 (.inl hwhole.2))
          · exact hres I hI hwhole

theorem simplify_whole {c : RangeCondition α} {I : SingleInterval α} (hI : I ∈ (simplify c).intervals)
    (hwhole : I.IsWhole) : (simplify c).intervals.toList = [I] := by
  have hsort := c.intervals.sorted
  rw [OrderedSet.mem_def, simplify_intervals] at hI
  rw [simplify_intervals]
  cases hl : c.intervals.toList with
  | nil =>
    rw [hl] at hI
    exact absurd hI List.not_mem_nil
  | cons J rest =>
    rw [hl] at hI hsort
    obtain ⟨hJ, hrest⟩ := List.pairwise_cons.1 hsort
    exact sweep_whole (fun K hK => lo_le_of_lt (hJ K hK)) hrest (fun _ => rfl) (by simp) I hI hwhole

/-! ## Gaps -/

/-- The stored intervals have gaps between them, and none is empty. -/
structure Apart (c : RangeCondition α) : Prop where
  gaps : Separated (c.intervals.toList.map span)
  kept : ∀ I ∈ c.intervals, I.isEmpty = false

/-- What the sweep keeps between its output, `current` and the intervals that follow. -/
structure GapInv (current : SingleInterval α) (result : OrderedSet (SingleInterval α))
    (rest : List (SingleInterval α)) : Prop where
  apart : Apart ⟨result⟩
  before : ∀ I ∈ result, I.hi < current.lo
  sorted : rest.Pairwise (· < ·)
  ahead : ∀ J ∈ rest, current.lo ≤ J.lo
  beside : ∀ J ∈ rest, current.isEmpty = false → J.lo = current.lo → J.isEmpty = false

/-- With the next interval in its place, `current` is done with. -/
theorem GapInv.advance {current next : SingleInterval α} {result result' : OrderedSet (SingleInterval α)}
    {rest : List (SingleInterval α)} (h : GapInv current result (next :: rest)) (hapart : Apart ⟨result'⟩)
    (hbefore : ∀ I ∈ result', I.hi < next.lo) : GapInv next result' rest := by
  obtain ⟨hnext, hrest⟩ := List.pairwise_cons.1 h.sorted
  exact ⟨hapart, hbefore, hrest, fun J hJ => lo_le_of_lt (hnext J hJ), fun J hJ => not_isEmpty_of_lt (hnext J hJ)⟩

/-- The output with `current` behind it. -/
theorem GapInv.output {current : SingleInterval α} {result : OrderedSet (SingleInterval α)}
    {rest : List (SingleInterval α)} (h : GapInv current result rest) (hc : current.isEmpty = false) :
    Apart ⟨result.insert current⟩ := by
  have hend : (result.insert current).toList = result.toList ++ [current] := by
    refine OrderedSet.insert_toList fun I hI => lt_iff.2 (.inl (lt_of_le_of_lt ?_ (h.before I hI)))
    have hI := h.apart.kept I hI
    rwa [← Bool.not_eq_true, isEmpty_iff_lt, not_lt] at hI
  refine ⟨?_, fun I hI => ?_⟩
  · show Separated ((result.insert current).toList.map span)
    rw [hend, List.map_append]
    refine List.pairwise_append.2 ⟨h.apart.gaps, List.pairwise_singleton _ _, fun s hs t ht => ?_⟩
    obtain ⟨I, hI, rfl⟩ := List.mem_map.1 hs
    obtain rfl := List.mem_singleton.1 ht
    exact h.before I hI
  · obtain rfl | hI := OrderedSet.mem_insert.1 hI
    · exact hc
    · exact h.apart.kept I hI

/-- **The sweep leaves gaps**, whatever the intervals are. -/
theorem sweep_apart {rest : List (SingleInterval α)} :
    ∀ {current : SingleInterval α} {result : OrderedSet (SingleInterval α)}, GapInv current result rest →
      Apart ⟨sweep current result rest⟩ := by
  induction rest with
  | nil =>
    intro current result h
    rw [sweep]
    cases hc : current.isEmpty with
    | true => exact h.apart
    | false => exact h.output hc
  | cons next rest ih =>
    intro current result h
    rw [sweep]
    cases hc : current.isEmpty with
    | true => exact ih (h.advance h.apart fun I hI => (h.before I hI).trans_le (h.ahead next List.mem_cons_self))
    | false =>
      rw [if_neg Bool.false_ne_true]
      have hcur : current.lo ≤ current.hi := by rwa [← Bool.not_eq_true, isEmpty_iff_lt, not_lt] at hc
      cases hU : current.tryGetUnion next with
      | some U =>
        obtain ⟨-, hlo, hhi⟩ := union_cuts hU
        rw [min_eq_left (h.ahead next List.mem_cons_self)] at hlo
        -- a union begins where `current` does
        refine ih ⟨h.apart, hlo ▸ h.before, (List.pairwise_cons.1 h.sorted).2, fun J hJ => ?_,
          fun J hJ _ hJlo => ?_⟩
        · exact hlo ▸ h.ahead J (List.mem_cons_of_mem _ hJ)
        · exact h.beside J (List.mem_cons_of_mem _ hJ) hc (hJlo.trans hlo)
      | none =>
        have hgap : current.hi < next.lo := by
          have hdis : current.isDisjoint next = true := by
            simpa [canMergeWith] using tryGetUnion_eq_none.1 hU
          refine (gap_of_isDisjoint hdis).resolve_left fun hback => ?_
          -- a gap before `current` would be one within an empty interval that begins with it
          obtain ⟨a, hnlo, hnhi⟩ := isEmpty_iff.1
            (isEmpty_iff_lt.2 (hback.trans_le (h.ahead next List.mem_cons_self)))
          have heq : next.lo = current.lo :=
            le_antisymm (hnlo ▸ above_le_iff.2 (hnhi ▸ hback)) (h.ahead next List.mem_cons_self)
          have hne := h.beside next List.mem_cons_self hc heq
          rw [isEmpty_iff.2 ⟨a, hnlo, hnhi⟩] at hne
          exact absurd hne (by simp)
        refine ih (h.advance (h.output hc) fun I hI => ?_)
        obtain rfl | hI := OrderedSet.mem_insert.1 hI
        · exact hgap
        · exact (h.before I hI).trans_le (h.ahead next List.mem_cons_self)

/-- What intervals and their unions have, the intervals that come out of a sweep have. -/
theorem sweep_forall {p : SingleInterval α → Prop}
    (hU : ∀ {I J U}, p I → p J → I.tryGetUnion J = some U → p U) {rest : List (SingleInterval α)} :
    ∀ {current : SingleInterval α} {result : OrderedSet (SingleInterval α)}, p current →
      (∀ I ∈ result, p I) → (∀ J ∈ rest, p J) → ∀ I ∈ sweep current result rest, p I := by
  have hinsert : ∀ {current : SingleInterval α} {result : OrderedSet (SingleInterval α)}, p current →
      (∀ I ∈ result, p I) → ∀ I ∈ result.insert current, p I := by
    intro current result hc hres I hI
    obtain rfl | hI := OrderedSet.mem_insert.1 hI
    · exact hc
    · exact hres I hI
  induction rest with
  | nil =>
    intro current result hc hres _
    rw [sweep]
    split
    · exact hres
    · exact hinsert hc hres
  | cons next rest ih =>
    intro current result hc hres hrest
    have hnext := hrest next List.mem_cons_self
    have hrest' : ∀ J ∈ rest, p J := fun J hJ => hrest J (List.mem_cons_of_mem _ hJ)
    rw [sweep]
    split
    · exact ih hnext hres hrest'
    · cases hU' : current.tryGetUnion next with
      -- a union of two that have `p` has it, too
      | some U => exact ih (hU hc hnext hU') hres hrest'
      | none => exact ih hnext (hinsert hc hres) hrest'

theorem simplify_forall {p : SingleInterval α → Prop}
    (hU : ∀ {I J U}, p I → p J → I.tryGetUnion J = some U → p U) {c : RangeCondition α}
    (hc : ∀ I ∈ c.intervals, p I) : ∀ I ∈ (simplify c).intervals, p I := by
  simp only [OrderedSet.mem_def, simplify_intervals] at hc ⊢
  cases hl : c.intervals.toList with
  | nil => simp
  | cons I rest =>
    rw [hl] at hc
    exact sweep_forall hU (hc I List.mem_cons_self) (by simp) fun J hJ => hc J (List.mem_cons_of_mem _ hJ)

theorem apart_congr {c d : RangeCondition α} (h : c.intervals.toList = d.intervals.toList) (hd : Apart d) :
    Apart c := by
  refine ⟨h ▸ hd.gaps, fun I hI => hd.kept I ?_⟩
  rw [OrderedSet.mem_def, ← h]
  exact hI

/-- **`simplify` leaves gaps**, whatever was put into the set. -/
theorem simplify_apart (c : RangeCondition α) : Apart (simplify c) := by
  have hempty : Apart (empty : RangeCondition α) :=
    ⟨List.Pairwise.nil, fun I hI => absurd hI (OrderedSet.not_mem_empty I)⟩
  have hint := simplify_intervals c
  have hsort := c.intervals.sorted
  cases hl : c.intervals.toList with
  | nil =>
    rw [hl] at hint
    exact apart_congr (d := empty) hint hempty
  | cons I rest =>
    rw [hl] at hint hsort
    obtain ⟨hI, hrest⟩ := List.pairwise_cons.1 hsort
    exact apart_congr (d := ⟨sweep I .empty rest⟩) hint (sweep_apart
      ⟨hempty, by simp, hrest, fun J hJ => lo_le_of_lt (hI J hJ), fun J hJ => not_isEmpty_of_lt (hI J hJ)⟩)

/-! ## Conditions as they are built -/

/-- A range condition as its constructors and `add_range` make it. -/
def Built [Zero α] (c : RangeCondition α) : Prop :=
  ∃ (start : Construction α) (calls : List (SingleInterval α × ConditionRelation)),
    c = calls.foldl addCall start.build

theorem Built.default [Zero α] : Built (empty : RangeCondition α) := ⟨.default, [], rfl⟩

theorem Built.addRange [Zero α] {c : RangeCondition α} (h : c.Built) (N : SingleInterval α)
    (relation : ConditionRelation) : (c.addRange N relation).Built := by
  obtain ⟨start, calls, rfl⟩ := h
  refine ⟨start, calls ++ [(N, relation)], ?_⟩
  rw [List.foldl_append]
  rfl

/-- **Whatever is added, there are gaps between the stored intervals, and none is empty.** -/
theorem Built.apart [Zero α] {c : RangeCondition α} (h : c.Built) : Apart c := by
  obtain ⟨start, calls, rfl⟩ := h
  induction calls using List.reverseRecOn with
  | append_singleton calls call _ =>
    rw [List.foldl_append]
    exact simplify_apart _
  | nil =>
    have hsingle : ∀ J : SingleInterval α, J.isEmpty = false → Apart ⟨OrderedSet.empty.insert J⟩ := by
      intro J hJ
      refine ⟨List.pairwise_singleton _ _, fun I hI => ?_⟩
      obtain rfl := List.mem_singleton.1 hI
      exact hJ
    cases start with
    | default => exact ⟨List.Pairwise.nil, fun I hI => absurd hI (OrderedSet.not_mem_empty I)⟩
    | point a => exact hsingle _ (proper_of_mem (ofPoint_isInRange.2 rfl)).not_isEmpty
    | interval J =>
      simp only [List.foldl_nil, Construction.build, ofInterval]
      split
      · exact ⟨List.Pairwise.nil, fun I hI => absurd hI (OrderedSet.not_mem_empty I)⟩
      · rename_i hne
        exact hsingle J (by simpa using hne)

/-- **Next to the whole line nothing else is stored.** -/
theorem Built.whole_alone [Zero α] {c : RangeCondition α} (h : c.Built) {I : SingleInterval α}
    (hI : I ∈ c.intervals) (hwhole : I.IsWhole) : c.intervals.toList = [I] := by
  obtain ⟨start, calls, rfl⟩ := h
  induction calls using List.reverseRecOn with
  | append_singleton calls call _ =>
    rw [List.foldl_append] at hI ⊢
    -- the last call has simplified
    exact simplify_whole hI hwhole
  | nil =>
    have hsingle : ∀ J : SingleInterval α, I ∈ OrderedSet.empty.insert J →
        (OrderedSet.empty.insert J).toList = [I] := by
      intro J hJ
      obtain rfl | hJ := OrderedSet.mem_insert.1 hJ
      · rfl
      · exact absurd hJ (OrderedSet.not_mem_empty I)
    cases start with
    | default => exact absurd hI (OrderedSet.not_mem_empty I)
    | point a => exact hsingle _ hI
    | interval J =>
      simp only [List.foldl_nil, Construction.build, ofInterval] at hI ⊢
      split at hI
      · exact absurd hI (OrderedSet.not_mem_empty I)
      · rename_i hne
        rw [if_neg hne]
        exact hsingle J hI

end RangeCondition

end ProjectTrans
