import ProjectTrans.Proof.Network.UrlPort

/-!
# What `parse` reads

A URL is `u ++ t`, where `u` is what stands before the first `#` and the tail `t` is empty
or starts with it. Each search runs over the rest of the URL, tail included, so a component
that is not ended inside `u` takes in a part of the tail: the part before the first letter
that would end it (`extra`). In these terms every stage of the parser has a closed form.
-/

namespace ProjectTrans.UrlResolver

open Search

/-- The tail of a URL: nothing, or the fragment with its mark. -/
def IsTail (t : Text) : Prop := t = [] ∨ ∃ f, t = '#' :: f

/-- What a component that `c` ends takes in from the tail. -/
def extra (c : Char) (t : Text) : Text := if c ∈ t then upTo c t else []

theorem extra_of_not_mem {c : Char} {t : Text} (h : c ∉ t) : extra c t = [] := if_neg h

@[simp] theorem extra_nil (c : Char) : extra c [] = [] := rfl

theorem extra_append {c : Char} {x y : Text} (h : c ∉ x) : extra c (x ++ c :: y) = x := by
  rw [extra, if_pos (by simp), upTo_append h]

/-- A component takes in something of the fragment exactly when its end is in there. -/
theorem extra_fragment_eq_nil {c : Char} (hc : c ≠ '#') (f : Text) :
    extra c ('#' :: f) = [] ↔ c ∉ f := by
  constructor
  · intro h hf
    rw [extra, if_pos (List.mem_cons_of_mem _ hf), upTo, List.takeWhile_cons,
      if_pos (by simpa using hc.symm)] at h
    exact List.cons_ne_nil _ _ h
  · intro h
    exact extra_of_not_mem (by simp [hc, h])

theorem ok_bind {α β : Type} (a : α) (f : α → Except UrlFault β) :
    ((.ok a : Except UrlFault α) >>= f) = f a := rfl

/-! ## Searches from a position -/

section Positions

variable {s a m b r w : Text} {c : Char} {n k : ℕ}

theorem find_at (hs : s = a ++ r) (hn : n = a.length) :
    find s w n = (place w r).map (n + ·) := by
  subst hs hn
  rw [find, if_pos (by simp), List.drop_left]

theorem find_start : find s w 0 = place w s := by
  rw [find, if_pos (Nat.zero_le _), List.drop_zero]
  simp

/-- The first `c` behind a part that has none. -/
theorem find_of_split (hs : s = a ++ (m ++ c :: b)) (hn : n = a.length) (h : c ∉ m) :
    find s [c] n = some (n + m.length) := by
  rw [find_at hs hn, place_singleton_append h, Option.map_some]

theorem find_of_not_mem (hs : s = a ++ r) (hn : n = a.length) (h : c ∉ r) :
    find s [c] n = none := by
  rw [find_at hs hn, place_eq_none_of_not_mem h, Option.map_none]

theorem substr_of_split (hs : s = a ++ (m ++ b)) (hn : n = a.length)
    (hk : k = n + m.length) : substr s n (sizeSub k n) = .ok m := by
  subst hs hn hk
  rw [substr, if_pos (by simp), sizeSub, if_pos (by omega), List.drop_left, Nat.add_sub_cancel_left,
    List.take_left]

theorem substr_start (hs : s = m ++ b) : substr s 0 (sizeSub m.length 0) = .ok m := by
  exact substr_of_split (a := []) (n := 0) hs rfl (Nat.zero_add _).symm

/-- The end of a component that no `c` in `u` ends: the end of `u`, or the first `c` of the
tail. Either way the component takes in `extra c t`. -/
theorem end_of_component {t : Text} (hs : s = a ++ (m ++ t)) (hn : n = a.length)
    (h : c ∉ m) (hk : k = n + m.length) :
    (find s [c] n).getD k = k + (extra c t).length ∧
      substr s n (sizeSub (k + (extra c t).length) n) = .ok (m ++ extra c t) := by
  by_cases ht : c ∈ t
  · obtain ⟨x, y, rfl, hx⟩ := List.eq_append_cons_of_mem ht
    have hmid : c ∉ m ++ x := by simp [h, hx]
    rw [extra_append hx]
    refine ⟨?_, substr_of_split (b := c :: y) (by simp [hs]) hn (by simp [hk]; omega)⟩
    rw [find_of_split (b := y) (by simp [hs]) hn hmid]
    simp [hk, Nat.add_assoc]
  · rw [extra_of_not_mem ht]
    refine ⟨?_, substr_of_split (b := t) (by simp [hs]) hn (by simp [hk])⟩
    rw [find_of_not_mem hs hn (by simp [h, ht])]
    simp

end Positions

/-! ## The query -/

/-- The pairs collected from a query, when the last value takes in `e` behind it. -/
inductive Reads (e : Text) : Text → Multiset (Text × Text) → Prop
  | stop {q : Text} : '=' ∉ q → Reads e q 0
  | last {k v : Text} : '=' ∉ k → '&' ∉ v → Reads e (k ++ '=' :: v) {(k, v ++ e)}
  | pair {k v q : Text} {M : Multiset (Text × Text)} : '=' ∉ k → '&' ∉ v → Reads e q M →
      Reads e (k ++ '=' :: (v ++ '&' :: q)) ((k, v) ::ₘ M)

/-- **The loop over the query**, which ends before the fuel does. -/
theorem parseQuery_reads {t q : Text} {M : Multiset (Text × Text)} (h : Reads (extra '&' t) q M) :
    ∀ (pre : Text) (fuel : ℕ) (info : UrlInfo), q.length < fuel →
      parseQuery (pre ++ (q ++ t)) (pre.length + q.length) fuel pre.length info =
        .ok { info with query := M + info.query } := by
  induction h with
  | @stop q hq =>
    intro pre fuel info hfuel
    obtain ⟨fuel, rfl⟩ := Nat.exists_eq_succ_of_ne_zero (by omega : fuel ≠ 0)
    by_cases ht : '=' ∈ t
    · -- an equals sign of the fragment, behind the end of the URL
      obtain ⟨x, y, rfl, hx⟩ := List.eq_append_cons_of_mem ht
      have hqx : '=' ∉ q ++ x := by simp [hq, hx]
      have hend : pre.length + (q ++ x).length + 1 > pre.length + q.length := by
        simp only [List.length_append]
        omega
      rw [parseQuery, find_of_split (m := q ++ x) (b := y) (by simp) rfl hqx]
      simp only
      rw [substr_of_split (m := q ++ x) (b := '=' :: y) (by simp) rfl rfl, ok_bind, if_pos hend]
      simp
    · rw [parseQuery, find_of_not_mem rfl rfl (by simp [hq, ht])]
      simp
  | @last k v hk hv =>
    intro pre fuel info hfuel
    obtain ⟨fuel, rfl⟩ := Nat.exists_eq_succ_of_ne_zero (by omega : fuel ≠ 0)
    set url := pre ++ (k ++ '=' :: v ++ t) with hurl
    set stop := pre.length + (k ++ '=' :: v).length with hstop
    -- the value has no `&`: it goes to the end, or to an `&` of what is behind
    have hvalue := end_of_component (s := url) (a := pre ++ k ++ ['=']) (m := v) (t := t) (c := '&')
      (n := pre.length + k.length + 1) (k := stop) (by simp [hurl]) (by simp [Nat.add_assoc]) hv
      (by simp only [hstop, List.length_append, List.length_cons]; omega)
    have hstart : ¬ pre.length + k.length + 1 > stop := by
      simp only [hstop, List.length_append, List.length_cons]
      omega
    have hend : stop + (extra '&' t).length + 1 > stop := by omega
    rw [parseQuery, find_of_split (m := k) (b := v ++ t) (by simp [hurl]) rfl hk]
    simp only
    rw [substr_of_split (m := k) (b := '=' :: v ++ t) (by simp [hurl]) rfl rfl, ok_bind, if_neg hstart,
      hvalue.1, hvalue.2, ok_bind, if_pos hend]
    simp
  | @pair k v q M hk hv hq ih =>
    intro pre fuel info hfuel
    obtain ⟨fuel, rfl⟩ := Nat.exists_eq_succ_of_ne_zero (by omega : fuel ≠ 0)
    set url := pre ++ (k ++ '=' :: (v ++ '&' :: q) ++ t) with hurl
    set stop := pre.length + (k ++ '=' :: (v ++ '&' :: q)).length with hstop
    simp only [List.length_append, List.length_cons] at hstop hfuel
    -- the value ends at its `&`, and the loop goes on behind it
    have hand : find url ['&'] (pre.length + k.length + 1) = some (pre.length + k.length + 1 + v.length) :=
      find_of_split (a := pre ++ k ++ ['=']) (b := q ++ t) (by simp [hurl]) (by simp [Nat.add_assoc]) hv
    rw [parseQuery, find_of_split (m := k) (b := v ++ '&' :: q ++ t) (by simp [hurl]) rfl hk]
    simp only
    rw [substr_of_split (m := k) (b := '=' :: (v ++ '&' :: q ++ t)) (by simp [hurl]) rfl rfl, ok_bind,
      if_neg (by omega), hand, Option.getD_some,
      substr_of_split (a := pre ++ k ++ ['=']) (m := v) (b := '&' :: (q ++ t)) (by simp [hurl])
        (by simp [Nat.add_assoc]) rfl, ok_bind, if_neg (by omega)]
    have hrest := ih (pre ++ k ++ ['='] ++ v ++ ['&']) fuel { info with query := (k, v) ::ₘ info.query }
      (by omega)
    have hpos : (pre ++ k ++ ['='] ++ v ++ ['&']).length = pre.length + k.length + 1 + v.length + 1 := by
      simp only [List.length_append, List.length_singleton]
    have hurl' : pre ++ k ++ ['='] ++ v ++ ['&'] ++ (q ++ t) = url := by simp [hurl]
    rw [hpos, hurl', show pre.length + k.length + 1 + v.length + 1 + q.length = stop by omega] at hrest
    rw [hrest]
    simp

/-- Nothing ends the value of the last pair. -/
def EndsInValue (q : Text) : Prop := ∃ a b, q = a ++ '=' :: b ∧ '&' ∉ b

theorem endsInValue_pair {k v q : Text} : EndsInValue (k ++ '=' :: (v ++ '&' :: q)) ↔ EndsInValue q := by
  constructor
  · intro ⟨a, b, hab, hb⟩
    have hsplit : (k ++ '=' :: v) ++ '&' :: q = a ++ '=' :: b := by simpa using hab
    obtain ⟨z, -, hz⟩ | ⟨z, -, hz⟩ := List.append_eq_append_iff.1 hsplit
    · cases z with
      | nil => simp at hz
      | cons c z => exact ⟨z, b, (List.cons.inj hz).2, hb⟩
    · cases z with
      | nil => simp at hz
      | cons c z =>
        have hmem : '&' ∈ b := by simp [(List.cons.inj hz).2]
        exact absurd hmem hb
  · intro ⟨a, b, hab, hb⟩
    exact ⟨k ++ '=' :: (v ++ '&' :: a), b, by simp [hab], hb⟩

/-- Every query is read, whatever the last value takes in, and what that is shows in the
pairs exactly when there is such a value. -/
theorem exists_reads (q : Text) : ∃ M : Text → Multiset (Text × Text),
    (∀ e, Reads e q (M e)) ∧ ∀ e, M e = M [] ↔ (EndsInValue q → e = []) := by
  induction hn : q.length using Nat.strong_induction_on generalizing q with
  | _ n ih =>
    by_cases hq : '=' ∈ q
    · obtain ⟨k, w, rfl, hk⟩ := List.eq_append_cons_of_mem hq
      by_cases hw : '&' ∈ w
      · obtain ⟨v, q, rfl, hv⟩ := List.eq_append_cons_of_mem hw
        simp only [List.length_append, List.length_cons] at hn
        obtain ⟨M, hM, hext⟩ := ih q.length (by omega) q rfl
        refine ⟨fun e => (k, v) ::ₘ M e, fun e => .pair hk hv (hM e), fun e => ?_⟩
        rw [Multiset.cons_inj_right, hext, endsInValue_pair]
      · have hends : EndsInValue (k ++ '=' :: w) := ⟨k, w, rfl, hw⟩
        refine ⟨fun e => {(k, w ++ e)}, fun e => .last hk hw, fun e => ?_⟩
        simp [hends]
    · have hends : ¬ EndsInValue q := by
        intro ⟨a, b, hab, _⟩
        exact hq (by simp [hab])
      exact ⟨fun _ => 0, fun _ => .stop hq, fun _ => by simp [hends]⟩

/-! ## The path -/

/-- An empty path is the root. -/
def orRoot (p : Text) : Text := if p = [] then ['/'] else p

@[simp] theorem orRoot_nil : orRoot [] = ['/'] := rfl

@[simp] theorem orRoot_cons (c : Char) (p : Text) : orRoot (c :: p) = c :: p := if_neg (List.cons_ne_nil _ _)

/-- The path as the parser takes it. -/
theorem path_of_substr {s p : Text} {n m : ℕ} (h : substr s n (sizeSub m n) = .ok p) (hm : m = n + p.length) :
    (if m = n then .ok ['/'] else substr s n (sizeSub m n)) = .ok (orRoot p) := by
  cases p with
  | nil => simp [hm]
  | cons c p => rw [if_neg (by simp [hm]), h, orRoot_cons]

theorem parsePath_past {url : Text} {stop n : ℕ} (info : UrlInfo) (h : stop < n) :
    parsePath url stop n info = .ok info := if_pos h

/-- A path with a query behind it. -/
theorem parsePath_query {w p q t : Text} {M : Multiset (Text × Text)} (info : UrlInfo) (hp : '?' ∉ p)
    (hM : Reads (extra '&' t) q M) :
    parsePath (w ++ (p ++ '?' :: q ++ t)) (w.length + (p ++ '?' :: q).length) w.length info =
      .ok { info with path := orRoot p, query := M + info.query } := by
  set url := w ++ (p ++ '?' :: q ++ t) with hurl
  set stop := w.length + (p ++ '?' :: q).length with hstop
  simp only [List.length_append, List.length_cons] at hstop
  have hfind : find url ['?'] w.length = some (w.length + p.length) :=
    find_of_split (b := q ++ t) (by simp [hurl]) rfl hp
  have hsub : substr url w.length (sizeSub (w.length + p.length) w.length) = .ok p :=
    substr_of_split (b := '?' :: (q ++ t)) (by simp [hurl]) rfl rfl
  have hquery := parseQuery_reads hM (w ++ p ++ ['?']) (url.length + 1) { info with path := orRoot p }
    (by simp [hurl]; omega)
  have hpos : (w ++ p ++ ['?']).length = w.length + p.length + 1 := by
    simp only [List.length_append, List.length_singleton]
  have hurl' : w ++ p ++ ['?'] ++ (q ++ t) = url := by simp [hurl]
  rw [hpos, hurl', show w.length + p.length + 1 + q.length = stop by omega] at hquery
  rw [parsePath, if_neg (by omega), hfind, Option.getD_some]
  simp only
  rw [path_of_substr hsub rfl, ok_bind, if_neg (by omega), hquery]

/-- A path that nothing in `u` ends. -/
theorem parsePath_no_query {w p t : Text} (info : UrlInfo) (hp : '?' ∉ p) :
    parsePath (w ++ (p ++ t)) (w.length + p.length) w.length info =
      .ok { info with path := orRoot (p ++ extra '?' t) } := by
  obtain ⟨hend, hsub⟩ := end_of_component (s := w ++ (p ++ t)) (k := w.length + p.length) rfl rfl hp rfl
  rw [parsePath, if_neg (by omega), hend]
  simp only
  rw [path_of_substr hsub (by simp [Nat.add_assoc]), ok_bind, if_pos (by omega)]

/-- The path and the pairs read from what stands behind the authority. -/
inductive PathReads (t : Text) : Text → Text → Multiset (Text × Text) → Prop
  | query {p q : Text} {M : Multiset (Text × Text)} : '?' ∉ p → Reads (extra '&' t) q M →
      PathReads t (p ++ '?' :: q) (orRoot p) M
  | plain {p : Text} : '?' ∉ p → PathReads t p (orRoot (p ++ extra '?' t)) 0

/-- **The path and the query.** -/
theorem parsePath_reads {w p t path : Text} {M : Multiset (Text × Text)} (info : UrlInfo)
    (h : PathReads t p path M) :
    parsePath (w ++ (p ++ t)) (w.length + p.length) w.length info =
      .ok { info with path := path, query := M + info.query } := by
  cases h with
  | query hp hM => exact parsePath_query info hp hM
  | plain hp => rw [parsePath_no_query info hp, zero_add]

theorem exists_pathReads (t p : Text) : ∃ path M, PathReads t p path M := by
  by_cases hp : '?' ∈ p
  · obtain ⟨p, q, rfl, hp'⟩ := List.eq_append_cons_of_mem hp
    obtain ⟨M, hM, -⟩ := exists_reads q
    exact ⟨_, _, .query hp' (hM _)⟩
  · exact ⟨_, _, .plain hp⟩

/-! ## Host and port -/

section Host

variable {url pre a rest : Text} {stop : ℕ} (info : UrlInfo)

/-- An authority `a` without a colon. -/
theorem parseHost_without_port (hurl : url = pre ++ (a ++ rest)) (hstop : pre.length ≤ stop)
    (hend : (find url ['/'] pre.length).getD stop = pre.length + a.length) (hrest : rest.head? ≠ some ':')
    (ha : ':' ∉ a) :
    parseHost url stop pre.length info =
      parsePath url stop (pre.length + a.length) { info with host := a, port := defaultPort info.protocol } := by
  have hcolon : (find url [':'] pre.length).filter (· ≤ pre.length + a.length) = none := by
    rw [find_at hurl rfl, place_append ha, Option.map_map]
    cases rest with
    | nil => simp [place]
    | cons c rest =>
      have hc : ¬ [':'] <+: c :: rest := by
        intro hp
        exact hrest (by simpa using (List.cons_prefix_cons.1 hp).1.symm)
      rw [place, if_neg hc]
      cases place [':'] rest <;> simp
  rw [parseHost, if_neg (by omega)]
  simp only
  rw [hend, hcolon]
  simp only
  rw [substr_of_split hurl rfl rfl, ok_bind]
  rfl

/-- An authority `h:d`. -/
theorem parseHost_with_port {h d : Text} (hurl : url = pre ++ (h ++ ':' :: d ++ rest)) (hstop : pre.length ≤ stop)
    (hend : (find url ['/'] pre.length).getD stop = pre.length + (h ++ ':' :: d).length) (hh : ':' ∉ h) :
    parseHost url stop pre.length info =
      if pre.length + h.length + 1 > stop then .ok { info with host := h }
      else stoi d >>= fun port =>
        parsePath url stop (pre.length + (h ++ ':' :: d).length)
          { info with host := h, port := UInt16.ofInt port } := by
  have hcolon : find url [':'] pre.length = some (pre.length + h.length) :=
    find_of_split (b := d ++ rest) (by simp [hurl]) rfl hh
  have hport : substr url (pre.length + h.length + 1)
      (sizeSub (pre.length + (h ++ ':' :: d).length) (pre.length + h.length + 1)) = .ok d :=
    substr_of_split (a := pre ++ h ++ [':']) (b := rest) (by simp [hurl]) (by simp [Nat.add_assoc])
      (by simp only [List.length_append, List.length_cons]; omega)
  rw [parseHost, if_neg (by omega)]
  simp only
  rw [hend, hcolon, Option.filter_some, if_pos (by simp)]
  simp only
  rw [substr_of_split (m := h) (b := ':' :: (d ++ rest)) (by simp [hurl]) rfl rfl, ok_bind, hport]
  rfl

end Host

/-! ## Whole URLs -/

section Whole

variable {u s r t : Text}

theorem url_end (hu : '#' ∉ u) (ht : IsTail t) : (find (u ++ t) ['#'] 0).getD (u ++ t).length = u.length := by
  rw [find_start]
  obtain rfl | ⟨f, rfl⟩ := ht
  · rw [List.append_nil, place_eq_none_of_not_mem hu, Option.getD_none]
  · rw [place_singleton_append hu, Option.getD_some]

/-- A known scheme has only letters of the names. -/
theorem toProtocol_of_mem {s : Text} {c : Char} (h : c ∈ s) (hlower : c.toLower = c)
    (hc : c ∉ "http".toList ++ "https".toList ++ "ftp".toList ++ "danejoe".toList) : toProtocol s = .unknown := by
  have hmem : c ∈ s.map Char.toLower := List.mem_map.2 ⟨c, h, hlower⟩
  simp only [List.mem_append, not_or] at hc
  have hne : ∀ name : Text, c ∉ name → s.map Char.toLower ≠ name := by
    intro name hname he
    exact hname (he ▸ hmem)
  rw [toProtocol, if_neg (hne _ hc.1.1.1), if_neg (hne _ hc.1.1.2), if_neg (hne _ hc.1.2), if_neg (hne _ hc.2)]

/-- A separator that is not in `u` is found behind the mark. -/
theorem mark_before_separator {x y : Text} (ht : IsTail t) (h : place "://".toList u = none)
    (hxy : u ++ t = x ++ ("://".toList ++ y)) (hlt : u.length < x.length + 3) : '#' ∈ x := by
  obtain rfl | ⟨f, rfl⟩ := ht
  · rw [List.append_nil] at hxy
    have hlen : ("://".toList : Text).length = 3 := rfl
    rw [hxy, List.length_append, List.length_append, hlen] at hlt
    omega
  · obtain ⟨z, rfl, hz⟩ | ⟨z, rfl, hz⟩ := List.append_eq_append_iff.1 hxy
    · cases z with
      | nil => simp at hz
      | cons c z =>
        rw [List.cons_append, List.cons.injEq] at hz
        simp [← hz.1]
    · -- the mark would be one of the letters of the separator
      obtain _ | ⟨c, _ | ⟨d, _ | ⟨e, z⟩⟩⟩ := z <;> simp at hz hlt
      omega

/-- **Without `://` in front of the fragment** the parser returns the empty information. -/
theorem parse_of_no_protocol (hu : '#' ∉ u) (ht : IsTail t) (h : place "://".toList u = none) :
    parse (u ++ t) = .ok ⟨.unknown, [], 0, ['/'], 0⟩ := by
  rw [parse]
  simp only
  rw [url_end hu ht, find_start]
  cases hi : place "://".toList (u ++ t) with
  | none => rfl
  | some i =>
    -- the separator stands in the fragment
    have hlt : u.length < i + 3 := lt_of_place_append h hi
    obtain ⟨x, y, hxy, rfl⟩ := split_of_place hi
    have hmark : '#' ∈ x := mark_before_separator ht h hxy hlt
    simp only
    rw [substr_start hxy, ok_bind, parseHost, if_pos hlt,
      toProtocol_of_mem hmark (by decide) (by decide)]

/-- What stands before the first `#` is `s://r`. -/
structure Scheme (u s r : Text) : Prop where
  no_mark : '#' ∉ u
  split : u = s ++ ("://".toList ++ r)
  first : place "://".toList u = some s.length

theorem scheme_of_afterFirst (hu : '#' ∉ u) (h : afterFirst "://".toList u = some r) : ∃ s, Scheme u s r := by
  obtain ⟨s, hs, hfirst⟩ := split_of_afterFirst h
  exact ⟨s, hu, hs, hfirst⟩

theorem Scheme.afterFirst (h : Scheme u s r) : Search.afterFirst "://".toList u = some r := by
  have hsplit : u = s ++ "://".toList ++ r := by rw [h.split, List.append_assoc]
  rw [Search.afterFirst, h.first, Option.map_some, Option.some_inj]
  conv_lhs => rw [hsplit, ← List.length_append]
  exact List.drop_left

/-- **With `://`** the parser goes on behind it. -/
theorem parse_of_scheme (h : Scheme u s r) (ht : IsTail t) :
    parse (u ++ t) = parseHost (s ++ "://".toList ++ (r ++ t)) ((s ++ "://".toList).length + r.length)
      (s ++ "://".toList).length ⟨toProtocol s, [], 0, ['/'], 0⟩ := by
  have hurl : u ++ t = s ++ "://".toList ++ (r ++ t) := by simp [h.split]
  have hpos : (s ++ "://".toList).length = s.length + 3 := List.length_append
  have hlen : u.length = s.length + 3 + r.length := by
    rw [h.split, ← List.append_assoc, List.length_append, hpos]
  rw [parse]
  simp only
  rw [url_end h.no_mark ht, find_start, place_append_of_some h.first]
  simp only
  rw [substr_start (b := "://".toList ++ (r ++ t)) (by simp [h.split]), ok_bind, hurl, hpos, hlen]

/-! ## The authority -/

/-- What stands behind the scheme is an authority `a` and the rest `p`, which begins with a
slash unless the whole URL has none. -/
structure Authority (t r a p : Text) : Prop where
  split : r = a ++ p
  no_slash : '/' ∉ a
  rest : (∃ p', p = '/' :: p') ∨ p = [] ∧ '/' ∉ t

theorem Authority.host_end {w a p : Text} (h : Authority t r a p) :
    (find (w ++ (r ++ t)) ['/'] w.length).getD (w.length + r.length) = w.length + a.length := by
  obtain ⟨p', rfl⟩ | ⟨rfl, ht⟩ := h.rest
  · rw [find_of_split (m := a) (b := p' ++ t) (by simp [h.split]) rfl h.no_slash, Option.getD_some]
  · have hr : r = a := by rw [h.split, List.append_nil]
    rw [find_of_not_mem rfl rfl (by simp [hr, h.no_slash, ht]), Option.getD_none, hr]

theorem Authority.head {a p : Text} (h : Authority t r a p) (ht : IsTail t) : (p ++ t).head? ≠ some ':' := by
  obtain ⟨p', rfl⟩ | ⟨rfl, -⟩ := h.rest
  · simp
  · obtain rfl | ⟨f, rfl⟩ := ht <;> simp

/-- The path behind an authority, in a URL read up to `w`. -/
theorem Authority.parsePath_rest {w a p path : Text} {M : Multiset (Text × Text)} (h : Authority t r a p)
    (hpath : PathReads t p path M) (info : UrlInfo) (hq : info.query = 0) :
    parsePath (w ++ (r ++ t)) (w.length + r.length) (w.length + a.length) info =
      .ok { info with path := path, query := M } := by
  have hread := parsePath_reads info hpath (w := w ++ a)
  have hurl : w ++ a ++ (p ++ t) = w ++ (r ++ t) := by simp [h.split]
  have hlen : (w ++ a).length + p.length = w.length + r.length := by
    rw [h.split, List.length_append, List.length_append, Nat.add_assoc]
  rw [hurl, hlen, List.length_append, hq, add_zero] at hread
  exact hread

/-- **A host without a port.** -/
theorem parse_host {a p path : Text} {M : Multiset (Text × Text)} (h : Scheme u s r) (ht : IsTail t)
    (hr : Authority t r a p) (hpath : PathReads t p path M) (ha : ':' ∉ a) :
    parse (u ++ t) = .ok ⟨toProtocol s, a, defaultPort (toProtocol s), path, M⟩ := by
  rw [parse_of_scheme h ht]
  generalize s ++ "://".toList = w
  have hurl : w ++ (r ++ t) = w ++ (a ++ (p ++ t)) := by rw [hr.split, List.append_assoc]
  rw [parseHost_without_port _ hurl (by omega) hr.host_end (hr.head ht) ha, hr.parsePath_rest hpath _ rfl]

/-- **A host with a port.** -/
theorem parse_host_port {a p path host d : Text} {M : Multiset (Text × Text)} (h : Scheme u s r) (ht : IsTail t)
    (hr : Authority t r a p) (hpath : PathReads t p path M) (ha : a = host ++ ':' :: d) (hhost : ':' ∉ host) :
    parse (u ++ t) =
      stoi d >>= fun port => .ok ⟨toProtocol s, host, UInt16.ofInt port, path, M⟩ := by
  rw [parse_of_scheme h ht]
  generalize s ++ "://".toList = w
  subst ha
  have hurl : w ++ (r ++ t) = w ++ (host ++ ':' :: d ++ (p ++ t)) := by rw [hr.split, List.append_assoc]
  have hle : host.length + 1 ≤ r.length := by
    rw [hr.split]
    simp only [List.length_append, List.length_cons]
    omega
  rw [parseHost_with_port _ hurl (by omega) hr.host_end hhost, if_neg (by omega)]
  simp only [hr.parsePath_rest hpath]

/-! ## A slash in the fragment -/

/-- The host ends at the first slash of the fragment, behind the end of the URL. -/
theorem host_end_in_fragment {w f : Text} (hr : '/' ∉ r) (hf : '/' ∈ f) :
    ∃ x y, f = x ++ y ∧ y.head? ≠ some ':' ∧
      (find (w ++ (r ++ '#' :: f)) ['/'] w.length).getD
        (w.length + r.length) = w.length + (r ++ '#' :: x).length := by
  obtain ⟨x, y, rfl, hx⟩ := List.eq_append_cons_of_mem hf
  refine ⟨x, '/' :: y, rfl, by simp, ?_⟩
  rw [find_of_split (m := r ++ '#' :: x) (b := y) (by simp) rfl (by simp [hr, hx]), Option.getD_some]

/-- **A port, and the first slash in the fragment.** -/
theorem parse_port_of_fragment_slash {host d f : Text} (h : Scheme u s r) (hr : '/' ∉ r) (hf : '/' ∈ f)
    (hd : r = host ++ ':' :: d) (hhost : ':' ∉ host) :
    parse (u ++ '#' :: f) =
      stoi d >>= fun port => .ok ⟨toProtocol s, host, UInt16.ofInt port, ['/'], 0⟩ := by
  rw [parse_of_scheme h (.inr ⟨f, rfl⟩)]
  generalize s ++ "://".toList = w
  obtain ⟨x, y, rfl, -, hend⟩ := host_end_in_fragment (w := w) hr hf
  have hr' : r ++ '#' :: x = host ++ ':' :: (d ++ '#' :: x) := by simp [hd]
  have hlen : host.length + 1 ≤ r.length := by
    rw [hd]
    simp only [List.length_append, List.length_cons]
    omega
  have hpast : w.length + r.length < w.length + (host ++ ':' :: (d ++ '#' :: x)).length := by
    rw [← hr', List.length_append, List.length_cons]
    omega
  have hurl : w ++ (r ++ '#' :: (x ++ y)) = w ++ (host ++ ':' :: (d ++ '#' :: x) ++ y) := by
    rw [← hr', List.append_assoc, List.cons_append]
  rw [hr'] at hend
  rw [parseHost_with_port _ hurl (by omega) hend hhost, if_neg (by omega), stoi_append_mark]
  simp only [parsePath_past _ hpast]

/-- **No port, and the first slash in the fragment**: the host takes in the mark. -/
theorem parse_host_of_fragment_slash {f : Text} (h : Scheme u s r) (hr : '/' ∉ r) (hf : '/' ∈ f)
    (hc : ':' ∉ r) :
    ∃ e ≠ [], ∃ port, parse (u ++ '#' :: f) = .ok ⟨toProtocol s, r ++ e, port, ['/'], 0⟩ := by
  rw [parse_of_scheme h (.inr ⟨f, rfl⟩)]
  generalize s ++ "://".toList = w
  obtain ⟨x, y, rfl, hy, hend⟩ := host_end_in_fragment (w := w) hr hf
  by_cases hx : ':' ∈ x
  · obtain ⟨x', z, rfl, hx'⟩ := List.eq_append_cons_of_mem hx
    refine ⟨'#' :: x', List.cons_ne_nil _ _, 0, ?_⟩
    have hr' : r ++ '#' :: (x' ++ ':' :: z) = r ++ '#' :: x' ++ ':' :: z := by simp
    have hurl : w ++ (r ++ '#' :: (x' ++ ':' :: z ++ y)) = w ++ (r ++ '#' :: x' ++ ':' :: z ++ y) := by simp
    rw [hr'] at hend
    rw [parseHost_with_port _ hurl (by omega) hend (by simp [hc, hx']), if_pos]
    simp only [List.length_append, List.length_cons]
    omega
  · refine ⟨'#' :: x, List.cons_ne_nil _ _, defaultPort (toProtocol s), ?_⟩
    have hurl : w ++ (r ++ '#' :: (x ++ y)) = w ++ (r ++ '#' :: x ++ y) := by simp
    have hpast : w.length + r.length < w.length + (r ++ '#' :: x).length := by
      rw [List.length_append, List.length_cons]
      omega
    rw [parseHost_without_port _ hurl (by omega) hend hy (by simp [hc, hx]), parsePath_past _ hpast]

end Whole

end ProjectTrans.UrlResolver
