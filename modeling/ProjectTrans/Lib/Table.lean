import Mathlib.Data.Finmap

/-!
# Tables

What is found in an association list after an insertion, and what two tables that agree
on a part of their entries have in common. Rows with distinct keys are a finite map
(`ofRows`), on which appending, replacing and filtering rows are insertions and erasures.
-/

namespace Table

variable {α β γ : Type*} [DecidableEq α] {m m' : AList fun _ : α => β} {a a' : α} {b b' : β}

/-- What is found after an insertion was inserted, or was there before. -/
theorem lookup_insert_eq_some :
    (m.insert a b).lookup a' = some b' ↔ (a' = a ∧ b' = b) ∨ (a' ≠ a ∧ m.lookup a' = some b') := by
  by_cases ha : a' = a
  · subst ha
    rw [AList.lookup_insert, Option.some.injEq]
    exact ⟨fun h => .inl ⟨rfl, h.symm⟩, fun h => (h.resolve_right fun hne => hne.1 rfl).2.symm⟩
  · rw [AList.lookup_insert_ne ha]
    exact ⟨fun h => .inr ⟨ha, h⟩, fun h => (h.resolve_left fun heq => ha heq.1).2⟩

theorem mem_of_lookup (h : m.lookup a = some b) : a ∈ m := AList.lookup_isSome.1 (by rw [h]; rfl)

/-- An entry that is there, with another value. -/
theorem mem_insert_of_lookup (h : m.lookup a = some b) : a' ∈ m.insert a b' ↔ a' ∈ m := by
  rw [AList.mem_insert]
  refine ⟨?_, .inr⟩
  rintro (rfl | hmem)
  · exact mem_of_lookup h
  · exact hmem

/-- A value that agrees with the one it replaces changes nothing. -/
theorem map_lookup_insert {f : β → γ} (h : m.lookup a = some b) (hf : f b' = f b) :
    ((m.insert a b').lookup a').map f = (m.lookup a').map f := by
  by_cases ha : a' = a
  · subst ha
    rw [AList.lookup_insert, h, Option.map_some, Option.map_some, hf]
  · rw [AList.lookup_insert_ne ha]

/-- What one of two tables that agree has, the other has up to the agreement. -/
theorem lookup_of_map_eq {f : β → γ} (hm : (m'.lookup a).map f = (m.lookup a).map f) (h : m'.lookup a = some b') :
    ∃ b, m.lookup a = some b ∧ f b = f b' := by
  rw [h, Option.map_some] at hm
  exact Option.map_eq_some_iff.1 hm.symm

/-! ## Rows under distinct keys -/

section Rows

variable {K E : Type*} (key : E → K)

/-- The entries of rows. -/
def entries (rows : List E) : List (Σ _ : K, E) := rows.map fun e => ⟨key e, e⟩

theorem nodupKeys_entries {rows : List E} (h : (rows.map key).Nodup) : (entries key rows).NodupKeys := by
  have hkeys : (entries key rows).keys = rows.map key := by
    rw [List.keys, entries, List.map_map]
    rfl
  rw [List.NodupKeys, hkeys]
  exact h

/-- The finite map of rows. -/
def ofRows (rows : List E) (h : (rows.map key).Nodup) : Finmap fun _ : K => E :=
  AList.toFinmap ⟨entries key rows, nodupKeys_entries key h⟩

/-- The values of a finite map. -/
def values (m : Finmap fun _ : K => E) : Multiset E := m.entries.map Sigma.snd

variable [DecidableEq K] {key} {rows : List E} {e : E} {k : K}

/-- What is found is the row of that key. -/
theorem lookup_ofRows (h : (rows.map key).Nodup) (k : K) :
    (ofRows key rows h).lookup k = rows.find? fun e => key e = k := by
  have hfind : List.dlookup k (entries key rows) = rows.find? fun e => key e = k := by
    clear h
    induction rows with
    | nil => rfl
    | cons e rows ih =>
      have hcons : entries key (e :: rows) = ⟨key e, e⟩ :: entries key rows := rfl
      rw [hcons]
      by_cases hk : key e = k
      · subst hk
        rw [List.dlookup_cons_eq, List.find?_cons_of_pos (by simp)]
      · rw [List.dlookup_cons_ne _ _ (Ne.symm hk), ih, List.find?_cons_of_neg (by simpa using hk)]
  exact hfind

/-- The first of the rows of a key, in whatever order they come, is the row of that key. -/
theorem head?_of_perm_filter (h : (rows.map key).Nodup) {found : List E}
    (hperm : found.Perm (rows.filter fun e => key e = k)) : found.head? = rows.find? fun e => key e = k := by
  cases found with
  | nil =>
    have hnil := List.filter_eq_nil_iff.1 (List.nil_perm.1 hperm)
    exact (List.find?_eq_none.2 hnil).symm
  | cons e found =>
    obtain ⟨he, hkey⟩ := List.mem_filter.1 (hperm.subset List.mem_cons_self)
    cases hfind : rows.find? fun e => key e = k with
    | none => exact absurd hkey (List.find?_eq_none.1 hfind e he)
    | some e' =>
      have hkey' : key e' = k := by simpa using List.find?_some hfind
      have heq : e = e' := List.inj_on_of_nodup_map h he (List.mem_of_find?_eq_some hfind)
        ((of_decide_eq_true hkey).trans hkey'.symm)
      rw [heq]
      rfl

omit [DecidableEq K] in
/-- The values are the rows. -/
theorem values_ofRows (h : (rows.map key).Nodup) : values (ofRows key rows h) = (rows : Multiset E) := by
  show Multiset.map Sigma.snd (↑(entries key rows) : Multiset (Σ _ : K, E)) = _
  rw [Multiset.map_coe, entries, List.map_map]
  exact congrArg _ (List.map_id rows)

theorem mem_ofRows (h : (rows.map key).Nodup) : k ∈ ofRows key rows h ↔ k ∈ rows.map key := by
  rw [← Finmap.lookup_isSome, lookup_ofRows, List.find?_isSome, List.mem_map]
  simp only [decide_eq_true_eq]

theorem keys_ofRows (h : (rows.map key).Nodup) : (ofRows key rows h).keys = (rows.map key).toFinset := by
  ext k
  rw [Finmap.mem_keys, mem_ofRows, List.mem_toFinset]

/-- A row with a new key. -/
theorem ofRows_append (h : (rows.map key).Nodup)
    (h' : ((rows ++ [e]).map key).Nodup) (hnew : key e ∉ rows.map key) :
    ofRows key (rows ++ [e]) h' = (ofRows key rows h).insert (key e) e := by
  refine Finmap.ext_lookup fun k => ?_
  rw [lookup_ofRows, List.find?_append]
  by_cases hk : k = key e
  · subst hk
    have hnone : rows.find? (fun e' => key e' = key e) = none := by
      refine List.find?_eq_none.2 fun e' he' hkey => hnew ?_
      rw [← of_decide_eq_true hkey]
      exact List.mem_map_of_mem he'
    rw [Finmap.lookup_insert, hnone, List.find?_cons_of_pos (by simp)]
    rfl
  · rw [Finmap.lookup_insert_of_ne _ hk, lookup_ofRows, List.find?_cons_of_neg (by simpa using Ne.symm hk)]
    simp

/-- The rows of all keys but one. -/
theorem ofRows_filter (h : (rows.map key).Nodup) (h' : ((rows.filter fun e => key e ≠ k).map key).Nodup) :
    ofRows key (rows.filter fun e => key e ≠ k) h' = (ofRows key rows h).erase k := by
  refine Finmap.ext_lookup fun k' => ?_
  rw [lookup_ofRows, List.find?_filter]
  by_cases hk : k' = k
  · subst hk
    rw [Finmap.lookup_erase]
    refine List.find?_eq_none.2 fun e _ => ?_
    simp
  · rw [Finmap.lookup_erase_ne hk, lookup_ofRows]
    congr 1
    funext e
    by_cases he : key e = k'
    · simp [he, hk]
    · simp [he]

/-- A row in the place of that of its key. -/
theorem ofRows_map (h : (rows.map key).Nodup)
    (h' : ((rows.map fun row => if key row = key e then e else row).map key).Nodup) :
    ofRows key (rows.map fun row => if key row = key e then e else row) h' =
      if key e ∈ ofRows key rows h then (ofRows key rows h).insert (key e) e else ofRows key rows h := by
  -- what the search for a key finds among the rows that are replaced
  have hfind : ∀ k, (rows.map fun row => if key row = key e then e else row).find? (fun e' => key e' = k) =
      if k = key e then (rows.find? fun e' => key e' = k).map fun _ => e
      else rows.find? fun e' => key e' = k := by
    intro k
    clear h h'
    induction rows with
    | nil => simp
    | cons row rows ih =>
      rw [List.map_cons]
      by_cases hrow : key row = key e <;> by_cases hk : k = key e
      · subst hk
        rw [if_pos hrow, List.find?_cons_of_pos (by simp), if_pos rfl,
          List.find?_cons_of_pos (by simpa using hrow)]
        rfl
      · rw [if_pos hrow, List.find?_cons_of_neg (by simpa using Ne.symm hk), ih, if_neg hk, if_neg hk,
          List.find?_cons_of_neg (by simpa [hrow] using Ne.symm hk)]
      · subst hk
        rw [if_neg hrow, List.find?_cons_of_neg (by simpa using hrow), ih, if_pos rfl, if_pos rfl,
          List.find?_cons_of_neg (by simpa using hrow)]
      · rw [if_neg hrow, if_neg hk]
        by_cases hkey : key row = k
        · rw [List.find?_cons_of_pos (by simpa using hkey), List.find?_cons_of_pos (by simpa using hkey)]
        · rw [List.find?_cons_of_neg (by simpa using hkey), List.find?_cons_of_neg (by simpa using hkey), ih,
            if_neg hk]
  refine Finmap.ext_lookup fun k => ?_
  rw [lookup_ofRows, hfind, ← lookup_ofRows h]
  by_cases hmem : key e ∈ ofRows key rows h
  · rw [if_pos hmem]
    by_cases hk : k = key e
    · subst hk
      obtain ⟨old, hold⟩ := Finmap.mem_iff.1 hmem
      rw [if_pos rfl, Finmap.lookup_insert, hold]
      rfl
    · rw [if_neg hk, Finmap.lookup_insert_of_ne _ hk]
  · rw [if_neg hmem]
    by_cases hk : k = key e
    · subst hk
      rw [if_pos rfl, Finmap.lookup_eq_none.2 hmem]
      rfl
    · rw [if_neg hk]

end Rows

end Table
