import ProjectTrans.Lib.Cut

/-!
# Spans of a linear order

A span is what lies between two cuts. In a dense order two spans that have values share
one when each begins before the other ends (`share_iff`), and a list of spans with gaps
between them is fixed by its values: a span whose values it all has lies within one of
its spans (`Separated.covers`), so two such lists with the same values have the same
spans (`Separated.mem_of_mem_iff`).
-/

namespace Cuts

variable {α : Type*}

/-- What lies between two cuts. -/
structure Span (α : Type*) where
  lo : Cut α
  hi : Cut α

variable [LinearOrder α] {s t : Span α} {l : List (Span α)} {v : α}

instance : Membership α (Span α) := ⟨fun s v => s.lo ≤ below v ∧ below v < s.hi⟩

namespace Span

theorem mem_iff : v ∈ s ↔ s.lo ≤ below v ∧ below v < s.hi := Iff.rfl

/-- The span has ends on both sides, and begins before it ends. -/
structure Bounded (s : Span α) : Prop where
  lo_lt_hi : s.lo < s.hi
  lo_ne_bot : s.lo ≠ ⊥
  hi_ne_top : s.hi ≠ ⊤

end Span

/-! ## Values between cuts -/

/-- There is a value between two cuts of a dense order. -/
theorem exists_value [DenselyOrdered α] {c d : Cut α} (hc : c ≠ ⊥) (hd : d ≠ ⊤) (h : c < d) :
    ∃ v, c ≤ below v ∧ below v < d := by
  obtain rfl | rfl | ⟨a, rfl⟩ | ⟨a, rfl⟩ := cut_cases c
  · exact absurd rfl hc
  · exact absurd h not_top_lt
  · exact ⟨a, le_rfl, h⟩
  · obtain rfl | rfl | ⟨b, rfl⟩ | ⟨b, rfl⟩ := cut_cases d
    · exact absurd h not_lt_bot
    · exact absurd rfl hd
    · obtain ⟨v, hav, hvb⟩ := exists_between (above_lt_below.1 h)
      exact ⟨v, above_le_below.2 hav, below_lt_below.2 hvb⟩
    · exact ⟨b, above_le_below.2 (above_lt_above.1 h), below_lt_above.2 le_rfl⟩

theorem Span.Bounded.exists_mem [DenselyOrdered α] (h : s.Bounded) : ∃ v, v ∈ s :=
  exists_value h.lo_ne_bot h.hi_ne_top h.lo_lt_hi

/-- **Two spans that have values share one when each begins before the other ends.** -/
theorem share_iff [DenselyOrdered α] (hs : ∃ v, v ∈ s) (ht : ∃ v, v ∈ t) :
    (∃ v, v ∈ s ∧ v ∈ t) ↔ s.lo < t.hi ∧ t.lo < s.hi := by
  obtain ⟨v, hv⟩ := hs
  obtain ⟨w, hw⟩ := ht
  constructor
  · rintro ⟨u, hus, hut⟩
    exact ⟨hus.1.trans_lt hut.2, hut.1.trans_lt hus.2⟩
  · rintro ⟨hst, hts⟩
    have hlt : max s.lo t.lo < min s.hi t.hi :=
      max_lt (lt_min (hv.1.trans_lt hv.2) hst) (lt_min hts (hw.1.trans_lt hw.2))
    have hboth : ∀ u, max s.lo t.lo ≤ below u → below u < min s.hi t.hi → u ∈ s ∧ u ∈ t := fun u hlo hhi =>
      ⟨⟨(max_le_iff.1 hlo).1, (lt_min_iff.1 hhi).1⟩, ⟨(max_le_iff.1 hlo).2, (lt_min_iff.1 hhi).2⟩⟩
    by_cases hbot : max s.lo t.lo = ⊥
    · -- neither has a left end: the one that ends first lies in the other
      rcases le_total s.hi t.hi with hle | hle
      · exact ⟨v, hboth v (hbot ▸ bot_le) (by rw [min_eq_left hle]; exact hv.2)⟩
      · exact ⟨w, hboth w (hbot ▸ bot_le) (by rw [min_eq_right hle]; exact hw.2)⟩
    by_cases htop : min s.hi t.hi = ⊤
    · have hlt_top : ∀ u, below u < min s.hi t.hi := fun u => htop ▸ lt_top_iff_ne_top.2 below_ne_top
      rcases le_total s.lo t.lo with hle | hle
      · exact ⟨w, hboth w (by rw [max_eq_right hle]; exact hw.1) (hlt_top w)⟩
      · exact ⟨v, hboth v (by rw [max_eq_left hle]; exact hv.1) (hlt_top v)⟩
    obtain ⟨u, hlo, hhi⟩ := exists_value hbot htop hlt
    exact ⟨u, hboth u hlo hhi⟩

/-! ## Spans with gaps between them -/

/-- Each span ends before the next ones begin. -/
def Separated (l : List (Span α)) : Prop := l.Pairwise fun s t => s.hi < t.lo

/-- Behind the first span there is room before the others. -/
theorem Separated.exists_gap (h : Separated (s :: l)) (hl : ∀ t ∈ l, t.lo < t.hi) (hs : s.hi ≠ ⊤) :
    ∃ m, s.hi < m ∧ ∀ t ∈ l, m ≤ t.lo := by
  cases l with
  | nil => exact ⟨⊤, lt_top_iff_ne_top.2 hs, by simp⟩
  | cons t l =>
    obtain ⟨hst, htl⟩ := List.pairwise_cons.1 h
    refine ⟨t.lo, hst t List.mem_cons_self, fun u hu => ?_⟩
    obtain rfl | hu := List.mem_cons.1 hu
    · exact le_rfl
    · have hgap : t.hi < u.lo := (List.pairwise_cons.1 htl).1 u hu
      exact ((hl t List.mem_cons_self).trans hgap).le

/-- **What is covered by spans with gaps between them lies within one of them.** -/
theorem Separated.covers [DenselyOrdered α] (h : Separated l) (hl : ∀ t ∈ l, t.lo < t.hi) (hs : s.Bounded)
    (hcov : ∀ v ∈ s, ∃ t ∈ l, v ∈ t) : ∃ t ∈ l, t.lo ≤ s.lo ∧ s.hi ≤ t.hi := by
  induction l with
  | nil =>
    obtain ⟨v, hv⟩ := hs.exists_mem
    exact absurd (hcov v hv) (by simp)
  | cons t l ih =>
    have htl := hl t List.mem_cons_self
    have hbehind : ∀ u ∈ l, t.hi < u.lo := (List.pairwise_cons.1 h).1
    have hl' : ∀ u ∈ l, u.lo < u.hi := fun u hu => hl u (List.mem_cons_of_mem _ hu)
    rcases le_or_gt t.hi s.lo with hbefore | hover
    · -- the first span is before `s`, so the others cover it
      obtain ⟨u, hu, hcut⟩ := ih (List.pairwise_cons.1 h).2 hl' fun v hv => by
        obtain ⟨u, hu, hvu⟩ := hcov v hv
        obtain rfl | hu := List.mem_cons.1 hu
        · exact absurd (hvu.2.trans_le hbefore) hv.1.not_gt
        · exact ⟨u, hu, hvu⟩
      exact ⟨u, List.mem_cons_of_mem _ hu, hcut⟩
    refine ⟨t, List.mem_cons_self, ?_, ?_⟩
    · -- otherwise a value before `t` is covered by nothing
      by_contra hlo
      have hlt : s.lo < min s.hi t.lo := lt_min hs.lo_lt_hi (not_le.1 hlo)
      obtain ⟨v, hvs, hv⟩ := exists_value hs.lo_ne_bot
        (min_lt_of_left_lt (lt_top_iff_ne_top.2 hs.hi_ne_top)).ne hlt
      obtain ⟨hvhi, hvt⟩ := lt_min_iff.1 hv
      obtain ⟨u, hu, hvu⟩ := hcov v ⟨hvs, hvhi⟩
      obtain rfl | hu := List.mem_cons.1 hu
      · exact absurd hvt hvu.1.not_gt
      · exact absurd ((htl.trans (hbehind u hu)).trans_le hvu.1) hvt.not_gt
    · -- nor is a value in the gap behind `t`
      by_contra hhi
      have hlt := not_le.1 hhi
      obtain ⟨m, hm, hml⟩ := h.exists_gap hl' hlt.ne_top
      obtain ⟨v, htv, hv⟩ := exists_value (bot_le.trans_lt hover).ne'
        (min_lt_of_left_lt (lt_top_iff_ne_top.2 hs.hi_ne_top)).ne (lt_min hlt hm)
      obtain ⟨hvhi, hvm⟩ := lt_min_iff.1 hv
      obtain ⟨u, hu, hvu⟩ := hcov v ⟨hover.le.trans htv, hvhi⟩
      obtain rfl | hu := List.mem_cons.1 hu
      · exact absurd hvu.2 htv.not_gt
      · exact absurd ((hml u hu).trans hvu.1) hvm.not_ge

/-- Between two spans of such a list there is a gap, on one side or the other. -/
theorem Separated.gap (h : Separated l) (hs : s ∈ l) (ht : t ∈ l) (hne : s ≠ t) : s.hi < t.lo ∨ t.hi < s.lo := by
  have hboth : l.Pairwise fun s t => s.hi < t.lo ∨ t.hi < s.lo := List.Pairwise.imp Or.inl h
  have : Std.Symm fun s t : Span α => s.hi < t.lo ∨ t.hi < s.lo := ⟨fun _ _ => Or.symm⟩
  exact hboth.forall hs ht hne

/-- Of two spans of such a list, one within the other, there is only one. -/
theorem Separated.eq_of_within (h : Separated l) (hs : s ∈ l) (ht : t ∈ l) (hst : s.lo < s.hi)
    (hlo : t.lo ≤ s.lo) (hhi : s.hi ≤ t.hi) : s = t := by
  by_contra hne
  obtain hgap | hgap := h.gap hs ht hne
  · exact absurd (hst.trans hgap) hlo.not_gt
  · exact absurd (hst.trans_le hhi) hgap.not_gt

/-- **Spans with gaps between them are fixed by their values.** -/
theorem Separated.mem_of_mem_iff [DenselyOrdered α] {l' : List (Span α)} (h : Separated l) (h' : Separated l')
    (hl : ∀ t ∈ l, t.Bounded) (hl' : ∀ t ∈ l', t.Bounded)
    (hmem : ∀ v, (∃ t ∈ l, v ∈ t) ↔ ∃ t ∈ l', v ∈ t) (hs : s ∈ l) : s ∈ l' := by
  obtain ⟨t, ht, hlo, hhi⟩ := h'.covers (fun t ht => (hl' t ht).lo_lt_hi) (hl s hs)
    fun v hv => (hmem v).1 ⟨s, hs, hv⟩
  obtain ⟨u, hu, hlo', hhi'⟩ := h.covers (fun t ht => (hl t ht).lo_lt_hi) (hl' t ht)
    fun v hv => (hmem v).2 ⟨t, ht, hv⟩
  obtain rfl := h.eq_of_within hs hu (hl s hs).lo_lt_hi (hlo'.trans hlo) (hhi.trans hhi')
  have heq : s = t := by
    cases s
    cases t
    simp only at hlo hhi hlo' hhi'
    rw [hlo.antisymm hlo', hhi.antisymm hhi']
  exact heq ▸ ht

end Cuts
