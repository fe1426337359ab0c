import ProjectTrans.Proof.Network.UrlFaults

/-!
# URLs put together from components

`parse_build`: what `build` prints is read back. `parse_render_iff`: a URL written from its
components is read as these components, except where it has a query and no path: there the
query is lost.
-/

namespace ProjectTrans.UrlResolver

open Search

/-! ## Pairs -/

/-- The pairs of a query, with `&` between them. -/
def renderPairs : List (Text × Text) → Text
  | [] => []
  | [p] => p.1 ++ '=' :: p.2
  | p :: q :: ps => p.1 ++ '=' :: (p.2 ++ '&' :: renderPairs (q :: ps))

variable {ps : List (Text × Text)}

/-- A query is read pair by pair. -/
theorem reads_renderPairs (hk : ∀ p ∈ ps, '=' ∉ p.1) (hv : ∀ p ∈ ps, '&' ∉ p.2) :
    Reads [] (renderPairs ps) ps := by
  induction ps with
  | nil => exact .stop List.not_mem_nil
  | cons p ps ih =>
    have hk' := hk p List.mem_cons_self
    have hv' := hv p List.mem_cons_self
    cases ps with
    | nil =>
      have hlast := Reads.last (e := []) hk' hv'
      rw [List.append_nil] at hlast
      exact hlast
    | cons q ps =>
      exact .pair hk' hv' (ih (fun r hr => hk r (List.mem_cons_of_mem _ hr)) fun r hr =>
        hv r (List.mem_cons_of_mem _ hr))

/-- A letter of the query is a separator or a letter of a key or a value. -/
theorem not_mem_renderPairs {c : Char} (heq : c ≠ '=') (hand : c ≠ '&') (hk : ∀ p ∈ ps, c ∉ p.1)
    (hv : ∀ p ∈ ps, c ∉ p.2) : c ∉ renderPairs ps := by
  induction ps with
  | nil => exact List.not_mem_nil
  | cons p ps ih =>
    have hk' := hk p List.mem_cons_self
    have hv' := hv p List.mem_cons_self
    cases ps with
    | nil => simp [renderPairs, hk', hv', heq]
    | cons q ps =>
      have hrest := ih (fun r hr => hk r (List.mem_cons_of_mem _ hr)) fun r hr =>
        hv r (List.mem_cons_of_mem _ hr)
      simp [renderPairs, hk', hv', heq, hand, hrest]

/-- The loop of `build`, with the last `&` removed. -/
theorem foldl_pairs (hne : ps ≠ []) (acc : Text) :
    (ps.foldl (fun result p => result ++ (p.1 ++ "=".toList ++ p.2 ++ "&".toList)) acc).dropLast =
      acc ++ renderPairs ps := by
  induction ps generalizing acc with
  | nil => exact absurd rfl hne
  | cons p ps ih =>
    cases ps with
    | nil =>
      have hlast : acc ++ (p.1 ++ "=".toList ++ p.2 ++ "&".toList) = acc ++ (p.1 ++ '=' :: p.2) ++ ['&'] := by
        simp
      rw [List.foldl_cons, List.foldl_nil, hlast, List.dropLast_concat]
      rfl
    | cons q ps =>
      rw [List.foldl_cons, ih (List.cons_ne_nil _ _)]
      simp [renderPairs]

/-! ## Schemes and ports -/

variable {s r : Text}

/-- A known scheme is found in front of its separator. -/
theorem scheme_of_known (hs : toProtocol s ≠ .unknown) (hr : '#' ∉ r) :
    Scheme (s ++ ("://".toList ++ r)) s r := by
  have hcolon : ':' ∉ s := fun h => hs (toProtocol_of_mem h (by decide) (by decide))
  have hmark : '#' ∉ s := fun h => hs (toProtocol_of_mem h (by decide) (by decide))
  exact ⟨by simp [hmark, hr], rfl, place_append_of_not_mem hcolon⟩

theorem toProtocol_toString (protocol : UrlProtocol) : toProtocol (toString protocol) = protocol := by
  cases protocol <;> decide

/-- The path and the query that follow a path without a question mark. -/
theorem pathReads_render {p' : Text} (hp : '?' ∉ p') (hk : ∀ p ∈ ps, '=' ∉ p.1) (hv : ∀ p ∈ ps, '&' ∉ p.2) :
    PathReads [] ('/' :: p' ++ if ps = [] then [] else '?' :: renderPairs ps) ('/' :: p') ps := by
  have hp' : '?' ∉ '/' :: p' := by simp [hp]
  by_cases hne : ps = []
  · have hplain := PathReads.plain (t := []) hp'
    subst hne
    simpa using hplain
  · have hquery := PathReads.query (t := []) hp' (reads_renderPairs hk hv)
    rw [if_neg hne]
    simpa using hquery

/-- The authority, with a port or without. -/
def renderAuthority (host : Text) (port : Option Text) : Text :=
  host ++ match port with
    | none => []
    | some d => ':' :: d

/-- A port in digits. -/
def IsPort (d : Text) : Prop := d ≠ [] ∧ (∀ c ∈ d, c.isDigit = true) ∧ Nat.ofDigitChars 10 d 0 < 2 ^ 16

/-- The port that is written, or the one of the scheme. -/
def portOf (protocol : UrlProtocol) (port : Option Text) : UInt16 :=
  match port with
  | none => defaultPort protocol
  | some d => UInt16.ofNat (Nat.ofDigitChars 10 d 0)

theorem IsPort.not_mem {d : Text} {c : Char} (h : IsPort d) (hc : c.isDigit = false) : c ∉ d := by
  intro hmem
  rw [h.2.1 c hmem] at hc
  cases hc

theorem IsPort.stoi {d : Text} (h : IsPort d) : stoi d = .ok (Nat.ofDigitChars 10 d 0 : ℤ) :=
  stoi_digits h.1 h.2.1 (h.2.2.trans (by decide))

theorem not_mem_renderAuthority {host : Text} {port : Option Text} {c : Char} (hhost : c ∉ host) (hc : c ≠ ':')
    (hdigit : c.isDigit = false) (hport : ∀ d ∈ port, IsPort d) : c ∉ renderAuthority host port := by
  cases port with
  | none => simpa [renderAuthority] using hhost
  | some d => simp [renderAuthority, hhost, hc, (hport d rfl).not_mem hdigit]

/-- **An authority and what follows it**, in a URL without a fragment. -/
theorem parse_authority {u p host path : Text} {port : Option Text} {M : Multiset (Text × Text)}
    (h : Scheme u s r)
    (hr : Authority [] r (renderAuthority host port) p) (hpath : PathReads [] p path M) (hhost : ':' ∉ host)
    (hport : ∀ d ∈ port, IsPort d) :
    parse u = .ok ⟨toProtocol s, host, portOf (toProtocol s) port, path, M⟩ := by
  have hu : parse u = parse (u ++ []) := by rw [List.append_nil]
  rw [hu]
  cases port with
  | none =>
    rw [renderAuthority, List.append_nil] at hr
    exact parse_host h (.inl rfl) hr hpath hhost
  | some d =>
    have hcast : UInt16.ofInt (Nat.ofDigitChars 10 d 0 : ℤ) = UInt16.ofNat (Nat.ofDigitChars 10 d 0) := by
      have hlt := (hport d rfl).2.2
      rw [UInt16.ofInt]
      congr 1
      omega
    rw [parse_host_port h (.inl rfl) hr hpath rfl hhost, (hport d rfl).stoi, ok_bind, hcast]
    rfl

/-- A part of a URL with none of its separators in front. -/
theorem not_mem_query {c : Char} (hq : c ≠ '?') (heq : c ≠ '=') (hand : c ≠ '&') (hk : ∀ p ∈ ps, c ∉ p.1)
    (hv : ∀ p ∈ ps, c ∉ p.2) : c ∉ if ps = [] then [] else '?' :: renderPairs ps := by
  split
  · exact List.not_mem_nil
  · simp [hq, not_mem_renderPairs heq hand hk hv]

/-- **A URL with a path** is read as its components. -/
theorem parse_with_path {scheme host p' : Text} {port : Option Text} (hs : toProtocol scheme ≠ .unknown)
    (hhost : ':' ∉ host ∧ '/' ∉ host ∧ '#' ∉ host) (hport : ∀ d ∈ port, IsPort d) (hp : '?' ∉ p' ∧ '#' ∉ p')
    (hk : ∀ p ∈ ps, '=' ∉ p.1 ∧ '#' ∉ p.1) (hv : ∀ p ∈ ps, '&' ∉ p.2 ∧ '#' ∉ p.2) :
    parse (scheme ++ ("://".toList ++ (renderAuthority host port ++
      ('/' :: p' ++ if ps = [] then [] else '?' :: renderPairs ps)))) =
        .ok ⟨toProtocol scheme, host, portOf (toProtocol scheme) port, '/' :: p', ps⟩ := by
  have hslash : '/' ∉ renderAuthority host port :=
    not_mem_renderAuthority hhost.2.1 (by decide) (by decide) hport
  have hmark : '#' ∉ renderAuthority host port ++
      ('/' :: p' ++ if ps = [] then [] else '?' :: renderPairs ps) := by
    have hauthority : '#' ∉ renderAuthority host port :=
      not_mem_renderAuthority hhost.2.2 (by decide) (by decide) hport
    have hquery : '#' ∉ if ps = [] then [] else '?' :: renderPairs ps :=
      not_mem_query (by decide) (by decide) (by decide) (fun p hp => (hk p hp).2) fun p hp => (hv p hp).2
    simp only [List.mem_append, List.mem_cons, not_or]
    exact ⟨hauthority, ⟨by decide, hp.2⟩, hquery⟩
  exact parse_authority (scheme_of_known hs hmark) ⟨rfl, hslash, .inl ⟨_, rfl⟩⟩
    (pathReads_render hp.1 (fun p hp => (hk p hp).1) fun p hp => (hv p hp).1) hhost.1 hport

/-! ## Built URLs -/

/-- What is printed of a query, behind the path. -/
theorem build_eq (info : UrlInfo) (pairs : List (Text × Text)) :
    build info pairs = toString info.protocol ++ ("://".toList ++
      (info.host ++ ':' :: Nat.toDigits 10 info.port.toNat ++
        (info.path ++ if pairs = [] then [] else '?' :: renderPairs pairs))) := by
  by_cases hne : pairs = []
  · subst hne
    simp [build]
  · have hlen : pairs.length > 0 := List.length_pos_iff.2 hne
    rw [build, if_pos hlen, foldl_pairs hne, if_neg hne]
    simp

/-- **Round trip**: what is built from a URL's components is read back, whatever the order
in which the query is gone through. -/
theorem parse_build {info : UrlInfo} {pairs : List (Text × Text)} (hpairs : (pairs : Multiset _) = info.query)
    (hprotocol : info.protocol ≠ .unknown) (hhost : ∀ c ∈ info.host, c ≠ ':' ∧ c ≠ '/' ∧ c ≠ '?' ∧ c ≠ '#')
    (hroot : info.path.head? = some '/') (hpath : ∀ c ∈ info.path, c ≠ '?' ∧ c ≠ '#')
    (hkeys : ∀ p ∈ info.query, ∀ c ∈ p.1, c ≠ '=' ∧ c ≠ '&' ∧ c ≠ '#')
    (hvalues : ∀ p ∈ info.query, ∀ c ∈ p.2, c ≠ '&' ∧ c ≠ '#') :
    parse (build info pairs) = .ok info := by
  obtain ⟨protocol, host, port, path, query⟩ := info
  simp only at hpairs hprotocol hhost hroot hpath hkeys hvalues
  subst hpairs
  obtain ⟨c, p', rfl⟩ : ∃ c p', path = c :: p' := by cases path <;> simp_all
  obtain rfl : c = '/' := by simpa using hroot
  have hport : IsPort (Nat.toDigits 10 port.toNat) := by
    refine ⟨Nat.toDigits_ne_nil, fun c hc => Nat.isDigit_of_mem_toDigits (by decide) (by decide) hc, ?_⟩
    rw [Nat.ofDigitChars_toDigits (by decide) (by decide)]
    exact port.toNat_lt
  have hvalue : Nat.ofDigitChars 10 (Nat.toDigits 10 port.toNat) 0 = port.toNat :=
    Nat.ofDigitChars_toDigits (by decide) (by decide)
  have hknown : toProtocol (toString protocol) ≠ .unknown := by
    rw [toProtocol_toString]
    exact hprotocol
  have hhost' : ':' ∉ host ∧ '/' ∉ host ∧ '#' ∉ host :=
    ⟨fun h => (hhost _ h).1 rfl, fun h => (hhost _ h).2.1 rfl, fun h => (hhost _ h).2.2.2 rfl⟩
  have hpath' : '?' ∉ p' ∧ '#' ∉ p' :=
    ⟨fun h => (hpath _ (List.mem_cons_of_mem _ h)).1 rfl, fun h => (hpath _ (List.mem_cons_of_mem _ h)).2 rfl⟩
  have hports : ∀ d ∈ some (Nat.toDigits 10 port.toNat), IsPort d := fun d hd => Option.some.inj hd ▸ hport
  have hread := parse_with_path hknown hhost' hports hpath'
    (fun p hp => ⟨fun h => (hkeys p hp _ h).1 rfl, fun h => (hkeys p hp _ h).2.2 rfl⟩)
    fun p hp => ⟨fun h => (hvalues p hp _ h).1 rfl, fun h => (hvalues p hp _ h).2 rfl⟩
  rw [build_eq]
  simp only
  rw [toProtocol_toString, portOf] at hread
  rw [hvalue, UInt16.ofNat_toNat] at hread
  exact hread

/-- A key that comes twice, and one without a value. -/
theorem parse_build_localhost :
    let pairs := [("id".toList, "2".toList), ("name".toList, []), ("id".toList, "1".toList)]
    let info : UrlInfo := ⟨.danejoe, "localhost".toList, 8080, "/download".toList,
      {("id".toList, "1".toList), ("id".toList, "2".toList), ("name".toList, [])}⟩
    build info pairs = "danejoe://localhost:8080/download?id=2&name=&id=1".toList ∧
      parse (build info pairs) = .ok info :=
  ⟨by decide, parse_build (by decide) (by decide) (by simp) rfl (by simp) (by simp) (by simp)⟩

/-! ## URLs from the grammar -/

/-- The components of a URL, each of the characters it may have. -/
structure UrlText where
  scheme : Text
  host : Text
  port : Option Text
  path : Option Text
  query : List (Text × Text)
  known : toProtocol scheme ≠ .unknown
  host_plain : ':' ∉ host ∧ '/' ∉ host ∧ '?' ∉ host ∧ '#' ∉ host
  port_digits : ∀ d ∈ port, IsPort d
  path_root : ∀ p ∈ path, ∃ p', p = '/' :: p'
  path_plain : ∀ p ∈ path, '#' ∉ p ∧ '?' ∉ p ∧ '&' ∉ p
  key_plain : ∀ p ∈ query, '=' ∉ p.1 ∧ '#' ∉ p.1 ∧ '?' ∉ p.1 ∧ '&' ∉ p.1
  value_plain : ∀ p ∈ query, '#' ∉ p.2 ∧ '?' ∉ p.2 ∧ '&' ∉ p.2

namespace UrlText

/-- `scheme://host[:port][/path][?k=v&k=v...]`. -/
def render (c : UrlText) : Text :=
  c.scheme ++ ("://".toList ++ (renderAuthority c.host c.port ++
    (c.path.getD [] ++ if c.query = [] then [] else '?' :: renderPairs c.query)))

/-- What the components say. -/
def info (c : UrlText) : UrlInfo :=
  ⟨toProtocol c.scheme, c.host, portOf (toProtocol c.scheme) c.port, c.path.getD ['/'], c.query⟩

variable (c : UrlText)

theorem parse_of_path {p : Text} (hp : c.path = some p) : parse c.render = .ok c.info := by
  obtain ⟨p', rfl⟩ := c.path_root p hp
  have hplain := c.path_plain _ hp
  simp only [List.mem_cons, not_or] at hplain
  have hread := parse_with_path c.known ⟨c.host_plain.1, c.host_plain.2.1, c.host_plain.2.2.2⟩ c.port_digits
    ⟨hplain.2.1.2, hplain.1.2⟩ (fun p hp => ⟨(c.key_plain p hp).1, (c.key_plain p hp).2.1⟩)
    fun p hp => ⟨(c.value_plain p hp).2.2, (c.value_plain p hp).1⟩
  rw [render, info, hp, Option.getD_some, Option.getD_some]
  exact hread

theorem slash_not_mem_authority : '/' ∉ renderAuthority c.host c.port :=
  not_mem_renderAuthority c.host_plain.2.1 (by decide) (by decide) c.port_digits

theorem mark_not_mem_authority : '#' ∉ renderAuthority c.host c.port :=
  not_mem_renderAuthority c.host_plain.2.2.2 (by decide) (by decide) c.port_digits

theorem parse_of_no_query (hp : c.path = none) (hq : c.query = []) : parse c.render = .ok c.info := by
  have hpath : PathReads [] [] ['/'] 0 := .plain List.not_mem_nil
  have hr : Authority [] (renderAuthority c.host c.port) (renderAuthority c.host c.port) [] :=
    ⟨by simp, c.slash_not_mem_authority, .inr ⟨rfl, List.not_mem_nil⟩⟩
  rw [render, info, hp, hq, if_pos rfl, Option.getD_none, Option.getD_none, List.append_nil, List.append_nil]
  exact parse_authority (scheme_of_known c.known c.mark_not_mem_authority) hr hpath c.host_plain.1 c.port_digits

/-- The only question mark stands in front of the first slash. -/
theorem not_mem_behind_slash {a q b p : Text} (h : a ++ '?' :: q = b ++ '/' :: p) (ha : '/' ∉ a) (hq : '?' ∉ q) :
    '?' ∉ p := by
  obtain ⟨z, -, hz⟩ | ⟨z, rfl, hz⟩ := List.append_eq_append_iff.1 h
  · cases z with
    | nil => simp at hz
    | cons x z =>
      have hq' : q = z ++ '/' :: p := (List.cons.inj hz).2
      simp only [hq', List.mem_append, List.mem_cons, not_or] at hq
      exact hq.2.2
  · cases z with
    | nil => simp at hz
    | cons x z =>
      obtain rfl : '/' = x := (List.cons.inj hz).1
      simp at ha

/-- Behind the question mark of a query there is no other one. -/
theorem question_not_mem_query : '?' ∉ renderPairs c.query :=
  not_mem_renderPairs (by decide) (by decide) (fun p hp => (c.key_plain p hp).2.2.1)
    fun p hp => (c.value_plain p hp).2.1

/-- **A query without a path is lost**: the parser looks for it behind the first slash. -/
theorem query_lost (hp : c.path = none) (hq : c.query ≠ []) {i : UrlInfo} (h : parse c.render = .ok i) :
    i.query = 0 := by
  have hmark : '#' ∉ renderPairs c.query :=
    not_mem_renderPairs (by decide) (by decide) (fun p hp => (c.key_plain p hp).2.1)
      fun p hp => (c.value_plain p hp).1
  have hscheme := scheme_of_known c.known (r := renderAuthority c.host c.port ++ '?' :: renderPairs c.query)
    (by simp [c.mark_not_mem_authority, hmark])
  rw [render, hp, if_neg hq, Option.getD_none, List.nil_append] at h
  rw [← List.append_nil (c.scheme ++ _)] at h
  obtain ⟨a, p, hr, -⟩ | ⟨-, hnil, -⟩ :=
    authority_cases [] (renderAuthority c.host c.port ++ '?' :: renderPairs c.query)
  · -- a first slash, if there is one, is in the query, behind its question mark
    have hquestion : '?' ∉ p := by
      obtain ⟨p', rfl⟩ | ⟨rfl, -⟩ := hr.rest
      · simp [not_mem_behind_slash hr.split c.slash_not_mem_authority c.question_not_mem_query]
      · exact List.not_mem_nil
    have hpath : PathReads [] p _ 0 := .plain hquestion
    obtain ⟨hc, -⟩ | ⟨host, d, hsplit, hhost, -⟩ := colon_cases a
    · rw [parse_host hscheme (.inl rfl) hr hpath hc] at h
      rw [← Except.ok.inj h]
    · rw [parse_host_port hscheme (.inl rfl) hr hpath hsplit hhost] at h
      cases hv : stoi d with
      | error e =>
        rw [hv] at h
        cases h
      | ok v =>
        rw [hv, ok_bind] at h
        rw [← Except.ok.inj h]
  · exact absurd hnil List.not_mem_nil

end UrlText

/-- **The URL grammar**: the components are read back exactly when there is a path in front
of the query, or no query. -/
theorem parse_render_iff (c : UrlText) : parse c.render = .ok c.info ↔ c.path ≠ none ∨ c.query = [] := by
  constructor
  · intro h
    by_contra hno
    simp only [not_or, not_not] at hno
    have hlost := c.query_lost hno.1 hno.2 h
    exact hno.2 (by simpa [UrlText.info] using hlost)
  · rintro (hp | hq)
    · obtain ⟨p, hp'⟩ := Option.ne_none_iff_exists'.1 hp
      exact c.parse_of_path hp'
    · cases hp : c.path with
      | some p => exact c.parse_of_path hp
      | none => exact c.parse_of_no_query hp hq

/-- `http://localhost?id=1`. -/
theorem query_without_path : ¬ ∀ c : UrlText, parse c.render = .ok c.info := by
  intro h
  have hread := h ⟨"http".toList, "localhost".toList, none, none, [("id".toList, "1".toList)], by decide,
    by decide, by simp, by simp, by simp, by simp, by simp⟩
  have hparse : parse "http://localhost?id=1".toList =
      .ok ⟨.http, "localhost?id=1".toList, 80, ['/'], 0⟩ := by decide
  exact absurd (hparse.symm.trans hread) (by decide)

end ProjectTrans.UrlResolver
