import ProjectTrans.Proof.Network.UrlFaults

/-!
# What a fragment changes

The parser marks the end of the URL at the first `#`, and still lets a component that
nothing ends in front of it run on into the fragment. `parse_fragment_iff`: for which URLs
and fragments this makes no difference.
-/

namespace ProjectTrans.UrlResolver

open Search

/-- The fragment does not reach the path `p` or the query behind it. -/
def PathSafe (p f : Text) : Prop :=
  (∀ q, afterFirst ['?'] p = some q → EndsInValue q → '&' ∉ f) ∧ (afterFirst ['?'] p = none → '?' ∉ f)

/-- The port text is one on which `stoi` throws. -/
def BadPort (u : Text) : Prop := ∃ d, portText u = some d ∧ ¬ Readable d

/-- **The fragments that make no difference**: any one when the port throws, or when the URL
has no `://`; else one without the separators that the last component would run on to. -/
def FragmentSafe (u f : Text) : Prop :=
  ∀ r, afterFirst "://".toList u = some r → BadPort u ∨
    if '/' ∈ r then PathSafe (fromOn '/' r) f
    else if ':' ∈ r then '/' ∈ f ∨ '?' ∉ f
    else '/' ∉ f ∧ '?' ∉ f

variable {u s r a p f : Text}

theorem isTail_fragment (f : Text) : IsTail ('#' :: f) := .inr ⟨f, rfl⟩

theorem orRoot_append_extra : orRoot (p ++ extra '?' ('#' :: f)) = orRoot p ↔ '?' ∉ f := by
  rw [← extra_fragment_eq_nil (by decide : '?' ≠ '#')]
  constructor
  · intro h
    cases p with
    | nil =>
      by_contra hne
      have hmark : extra '?' ('#' :: f) ≠ ['/'] := by
        intro he
        have hf : '?' ∈ f := by
          by_contra hf
          exact hne ((extra_fragment_eq_nil (by decide) f).2 hf)
        rw [extra, if_pos (List.mem_cons_of_mem _ hf), upTo, List.takeWhile_cons, if_pos (by decide)] at he
        exact absurd (List.cons.inj he).1 (by decide)
      rw [List.nil_append, orRoot, if_neg hne, orRoot_nil] at h
      exact hmark h
    | cons c p => simpa using h
  · intro h
    rw [h, List.append_nil]

/-- The path and the query of a URL and of the same URL with a fragment. -/
theorem pathReads_fragment (p f : Text) :
    ∃ path M path' M', PathReads [] p path M ∧ PathReads ('#' :: f) p path' M' ∧
      (path' = path ∧ M' = M ↔ PathSafe p f) := by
  by_cases hp : '?' ∈ p
  · obtain ⟨p, q, rfl, hp'⟩ := List.eq_append_cons_of_mem hp
    obtain ⟨M, hM, hext⟩ := exists_reads q
    refine ⟨_, M [], _, M (extra '&' ('#' :: f)), .query hp' (hM _), .query hp' (hM _), ?_⟩
    rw [PathSafe, afterFirst_singleton_append hp', hext, extra_fragment_eq_nil (by decide)]
    simp
  · refine ⟨_, 0, _, 0, .plain hp, .plain hp, ?_⟩
    rw [PathSafe, afterFirst_eq_none_of_not_mem hp, extra_nil, List.append_nil, orRoot_append_extra]
    simp

/-- One authority with and without the fragment. -/
theorem parse_fragment_of_authority (h : Scheme u s r) (hr : Authority [] r a p)
    (hr' : Authority ('#' :: f) r a p) (ha : upTo '/' r = a) :
    parse (u ++ '#' :: f) = parse u ↔ BadPort u ∨ PathSafe p f := by
  obtain ⟨path, M, path', M', hpath, hpath', hsafe⟩ := pathReads_fragment p f
  rw [BadPort, h.portText_eq, ha]
  obtain ⟨hc, hnone⟩ | ⟨host, d, hsplit, hhost, hsome⟩ := colon_cases a
  · have hu := parse_host h (.inl rfl) hr hpath hc
    have huf := parse_host h (isTail_fragment f) hr' hpath' hc
    rw [List.append_nil] at hu
    rw [hu, huf, hnone, ← hsafe]
    simp
  · have hu := parse_host_port h (.inl rfl) hr hpath hsplit hhost
    have huf := parse_host_port h (isTail_fragment f) hr' hpath' hsplit hhost
    rw [List.append_nil] at hu
    rw [hu, huf, hsome, ← hsafe]
    simp only [Option.some.injEq, exists_eq_left', ← stoi_ok_iff]
    cases hv : stoi d with
    | ok v => simp [ok_bind]
    | error e =>
      simp only [reduceCtorEq, exists_false, not_false_eq_true, true_or, iff_true]
      rfl

/-- **When a fragment makes no difference.** -/
theorem parse_fragment_iff (hu : '#' ∉ u) : parse (u ++ '#' :: f) = parse u ↔ FragmentSafe u f := by
  cases hrest : afterFirst "://".toList u with
  | none =>
    have hparse := parse_of_no_protocol hu (.inl rfl) (afterFirst_eq_none.1 hrest)
    rw [List.append_nil] at hparse
    rw [hparse, parse_of_no_protocol hu (isTail_fragment f) (afterFirst_eq_none.1 hrest), FragmentSafe, hrest]
    simp
  | some r =>
    obtain ⟨s, h⟩ := scheme_of_afterFirst hu hrest
    have hsafe : FragmentSafe u f ↔ BadPort u ∨
        if '/' ∈ r then PathSafe (fromOn '/' r) f else if ':' ∈ r then '/' ∈ f ∨ '?' ∉ f
        else '/' ∉ f ∧ '?' ∉ f := by
      rw [FragmentSafe, hrest]
      simp
    rw [hsafe]
    -- with a path the host ends at its slash; without, only the fragment can have one
    by_cases hslash : '/' ∈ r
    · obtain ⟨a, p, rfl, ha⟩ := List.eq_append_cons_of_mem hslash
      rw [if_pos hslash, fromOn_append ha]
      have hauth : ∀ t, Authority t (a ++ '/' :: p) a ('/' :: p) := fun t => ⟨rfl, ha, .inl ⟨p, rfl⟩⟩
      exact parse_fragment_of_authority h (hauth _) (hauth _) (upTo_append ha)
    · rw [if_neg hslash]
      have hauth : ∀ t, '/' ∉ t → Authority t r r [] := fun t ht => ⟨by simp, hslash, .inr ⟨rfl, ht⟩⟩
      have hempty : PathSafe [] f ↔ '?' ∉ f := by simp [PathSafe, afterFirst, place]
      -- a slash of the fragment is taken for the end of the host
      by_cases hf : '/' ∈ f
      · have hpath : PathReads [] [] ['/'] 0 := .plain List.not_mem_nil
        obtain ⟨hc, hnone⟩ | ⟨host, d, hsplit, hhost, hsome⟩ := colon_cases r
        · -- the host runs on to the slash
          obtain ⟨e, hne, port, huf⟩ := parse_host_of_fragment_slash h hslash hf hc
          have hu' := parse_host h (.inl rfl) (hauth [] List.not_mem_nil) hpath hc
          rw [List.append_nil] at hu'
          rw [hu', huf, if_neg hc, BadPort, h.portText_eq, upTo_of_not_mem hslash, hnone]
          simp [hf, hne]
        · -- the host ends at the colon, and the port takes no more than its digits
          have hu' := parse_host_port h (.inl rfl) (hauth [] List.not_mem_nil) hpath hsplit hhost
          rw [List.append_nil] at hu'
          rw [hu', parse_port_of_fragment_slash h hslash hf hsplit hhost, if_pos (by simp [hsplit])]
          simp [hf]
      · rw [parse_fragment_of_authority h (hauth [] List.not_mem_nil) (hauth _ (by simp [hf]))
          (upTo_of_not_mem hslash), hempty]
        split <;> simp [hf]

theorem fragment_behind_path :
    parse ("http://localhost/p".toList ++ '#' :: "top".toList) = parse "http://localhost/p".toList := by
  refine (parse_fragment_iff (by decide)).2 fun r hr => .inr ?_
  have hrest : afterFirst "://".toList "http://localhost/p".toList = some "localhost/p".toList := by decide
  rw [hrest] at hr
  obtain rfl := Option.some.inj hr
  have hquery : afterFirst ['?'] (fromOn '/' "localhost/p".toList) = none := by decide
  rw [if_pos (by decide), PathSafe, hquery]
  exact ⟨by simp, fun _ => by decide⟩

/-- A host with no path before a fragment such as `#/home`. -/
theorem fragment_slash_in_host :
    ¬ ∀ u f : Text, '#' ∉ u → parse (u ++ '#' :: f) = parse u := by
  intro h
  have heq := h "http://localhost".toList "/home".toList (by decide)
  have hleft : parse "http://localhost#/home".toList =
      .ok ⟨.http, "localhost#".toList, 80, ['/'], 0⟩ := by decide
  have hright : parse "http://localhost".toList = .ok ⟨.http, "localhost".toList, 80, ['/'], 0⟩ := by decide
  rw [hright] at heq
  exact absurd (hleft.symm.trans heq) (by decide)

end ProjectTrans.UrlResolver
