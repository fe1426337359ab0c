import ProjectTrans.Proof.Network.UrlParse

/-!
# When `parse` throws

The searches and substrings of `parse` never fail and its loop ends, so the only call that
throws is `stoi`, on the text of the port. `parse_returns_iff`: the parser returns exactly
when the URL has no port text or one that `stoi` reads.
-/

namespace ProjectTrans.UrlResolver

open Search

/-- What stands behind the first colon of the authority, in front of the fragment. -/
def portText (url : Text) : Option Text :=
  (afterFirst "://".toList (upTo '#' url)).bind fun rest => afterFirst [':'] (upTo '/' rest)

variable {u s r t : Text}

theorem portText_append (hu : '#' ∉ u) (ht : IsTail t) : portText (u ++ t) = portText u := by
  obtain rfl | ⟨f, rfl⟩ := ht
  · rw [List.append_nil]
  · rw [portText, portText, upTo_append hu, upTo_of_not_mem hu]

theorem Scheme.portText_eq (h : Scheme u s r) : portText u = Search.afterFirst [':'] (upTo '/' r) := by
  rw [portText, upTo_of_not_mem h.no_mark, h.afterFirst, Option.bind_some]

theorem portText_of_no_protocol (hu : '#' ∉ u) (h : afterFirst "://".toList u = none) : portText u = none := by
  rw [portText, upTo_of_not_mem hu, h, Option.bind_none]

/-- What stands behind the scheme has an authority, or the first slash is in the fragment. -/
theorem authority_cases (t r : Text) :
    (∃ a p, Authority t r a p ∧ upTo '/' r = a) ∨ ('/' ∉ r ∧ '/' ∈ t ∧ upTo '/' r = r) := by
  by_cases hr : '/' ∈ r
  · obtain ⟨a, p, rfl, ha⟩ := List.eq_append_cons_of_mem hr
    exact .inl ⟨a, '/' :: p, ⟨rfl, ha, .inl ⟨p, rfl⟩⟩, upTo_append ha⟩
  · by_cases ht : '/' ∈ t
    · exact .inr ⟨hr, ht, upTo_of_not_mem hr⟩
    · exact .inl ⟨r, [], ⟨by simp, hr, .inr ⟨rfl, ht⟩⟩, upTo_of_not_mem hr⟩

/-- Either there is no colon, or the first one splits the text. -/
theorem colon_cases (a : Text) :
    (':' ∉ a ∧ afterFirst [':'] a = none) ∨
      ∃ host d, a = host ++ ':' :: d ∧ ':' ∉ host ∧ afterFirst [':'] a = some d := by
  by_cases ha : ':' ∈ a
  · obtain ⟨host, d, rfl, hhost⟩ := List.eq_append_cons_of_mem ha
    exact .inr ⟨host, d, rfl, hhost, afterFirst_singleton_append hhost⟩
  · exact .inl ⟨ha, afterFirst_eq_none_of_not_mem ha⟩

/-- **The only call that can throw** is `stoi`, on the port text. -/
theorem parse_cases (hu : '#' ∉ u) (ht : IsTail t) :
    (portText u = none ∧ ∃ info, parse (u ++ t) = .ok info) ∨
      ∃ d, portText u = some d ∧
        ∃ info : ℤ → UrlInfo, parse (u ++ t) = stoi d >>= fun port => .ok (info port) := by
  cases hr : afterFirst "://".toList u with
  | none => exact .inl ⟨portText_of_no_protocol hu hr, _, parse_of_no_protocol hu ht (afterFirst_eq_none.1 hr)⟩
  | some r =>
    obtain ⟨s, h⟩ := scheme_of_afterFirst hu hr
    rw [h.portText_eq]
    obtain ⟨a, p, hauth, ha⟩ | ⟨hslash, htslash, hr'⟩ := authority_cases t r
    · obtain ⟨path, M, hpath⟩ := exists_pathReads t p
      rw [ha]
      obtain ⟨hc, hnone⟩ | ⟨host, d, hsplit, hhost, hsome⟩ := colon_cases a
      · exact .inl ⟨hnone, _, parse_host h ht hauth hpath hc⟩
      · exact .inr ⟨d, hsome, _, parse_host_port h ht hauth hpath hsplit hhost⟩
    · obtain rfl | ⟨f, rfl⟩ := ht
      · exact absurd htslash List.not_mem_nil
      · have hf : '/' ∈ f := by simpa using htslash
        rw [hr']
        obtain ⟨hc, hnone⟩ | ⟨host, d, hsplit, hhost, hsome⟩ := colon_cases r
        · obtain ⟨e, -, port, hparse⟩ := parse_host_of_fragment_slash h hslash hf hc
          exact .inl ⟨hnone, _, hparse⟩
        · exact .inr ⟨d, hsome, _, parse_port_of_fragment_slash h hslash hf hsplit hhost⟩

/-- Every URL is what stands before the first mark, and a tail. -/
theorem exists_tail (url : Text) : ∃ u t, url = u ++ t ∧ '#' ∉ u ∧ IsTail t := by
  by_cases h : '#' ∈ url
  · obtain ⟨u, f, rfl, hu⟩ := List.eq_append_cons_of_mem h
    exact ⟨u, '#' :: f, rfl, hu, .inr ⟨f, rfl⟩⟩
  · exact ⟨url, [], by simp, h, .inl rfl⟩

/-- **When `parse` returns.** The loop always ends and no substring starts outside the URL;
what is returned is a `UrlInfo` exactly when the port text, if any, is one that `stoi` reads. -/
theorem parse_returns_iff (url : Text) :
    ((∃ info, parse url = .ok info) ↔ ∀ d, portText url = some d → Readable d) ∧
      parse url ≠ .error .endless ∧ parse url ≠ .error .position := by
  obtain ⟨u, t, rfl, hu, ht⟩ := exists_tail url
  rw [portText_append hu ht]
  obtain ⟨hnone, info, hparse⟩ | ⟨d, hsome, info, hparse⟩ := parse_cases hu ht
  · rw [hparse, hnone]
    simp
  · rw [hparse, hsome]
    simp only [Option.some.injEq, forall_eq', ← stoi_ok_iff]
    cases hv : stoi d with
    | ok v => simp [ok_bind]
    | error e =>
      have herr : ((.error e : Except UrlFault ℤ) >>= fun port => Except.ok (info port)) = .error e := rfl
      rw [herr]
      obtain rfl | rfl := stoi_error hv <;> simp

/-- An empty port throws. -/
theorem empty_port_throws : ¬ ∀ url, ∃ info, parse url = .ok info := by
  intro h
  obtain ⟨info, hinfo⟩ := h "http://localhost:/".toList
  have hthrow : parse "http://localhost:/".toList = .error .invalidArgument := by decide
  rw [hthrow] at hinfo
  cases hinfo

end ProjectTrans.UrlResolver
