import ProjectTrans.Model.Condition.WildcardText

/-!
# What the rules for texts match

Each matcher says whether the rule's text stands in the other text in the place it is
for (`Behaves`). `behaves_iff`: they do so for all texts but those that are shorter than
the rule's and not turned away for their length before the suffix is cut.
-/

namespace ProjectTrans.WildcardText

variable {rule : WildcardText} {text : StdString}

/-- A text as it is compared. -/
def folded (rule : WildcardText) (s : Text) : Text := if rule.isCaseSensitive then s else s.map Char.toLower

/-- The rule's text stands at the front, and as much as it asks for behind it. -/
def IsPrefix (rule : WildcardText) (text : StdString) : Prop :=
  rule.folded rule.text.chars <+: rule.folded text.chars ∧
    ∀ n ∈ rule.backContextLength, text.size = rule.text.size + n.toNat

/-- The rule's text stands at the end, and as much as it asks for before it. -/
def IsSuffix (rule : WildcardText) (text : StdString) : Prop :=
  rule.folded rule.text.chars <:+ rule.folded text.chars ∧
    ∀ n ∈ rule.frontContextLength, text.size = rule.text.size + n.toNat

/-- The rule's text stands somewhere. -/
def IsPart (rule : WildcardText) (text : StdString) : Prop :=
  rule.folded rule.text.chars <:+: rule.folded text.chars

/-- The text is the rule's. -/
def IsExact (rule : WildcardText) (text : StdString) : Prop :=
  rule.folded text.chars = rule.folded rule.text.chars

/-- What the rule's pattern asks for. -/
def Fits (rule : WildcardText) (text : StdString) : Prop :=
  match rule.matchPattern with
  | .exactMatch => rule.IsExact text
  | .partialMatch => rule.IsPart text
  | .prefixMatch => rule.IsPrefix text
  | .suffixMatch => rule.IsSuffix text
  | .regexMatch => False
  | .unknown => False

/-- The limits on the length. -/
def WithinLimits (rule : WildcardText) (text : StdString) : Prop :=
  (∀ n ∈ rule.minLength, n.toNat ≤ text.size) ∧ ∀ n ∈ rule.maxLength, text.size ≤ n.toNat

/-- The rule matches what fits, or, if it is one that excludes, what does not. -/
def Selects (rule : WildcardText) (text : StdString) : Prop :=
  rule.isIncludedRule = true ↔ rule.WithinLimits text ∧ rule.Fits text

/-- It returns, and says whether. -/
def Tells (r : Except UrlFault Bool) (p : Prop) : Prop := ∃ b, r = .ok b ∧ (b = true ↔ p)

/-- **What the matchers are for.** -/
structure Behaves (rule : WildcardText) (text : StdString) (texts : List StdString) : Prop where
  prefixMatch : Tells (rule.isPrefixMatch text) (rule.IsPrefix text)
  suffixMatch : Tells (rule.isSuffixMatch text) (rule.IsSuffix text)
  partialMatch : rule.isPartialMatch text = true ↔ rule.IsPart text
  exactMatch : rule.isExactMatch text = true ↔ rule.IsExact text
  allMatch : Tells (rule.isAllMatch text) (rule.WithinLimits text ∧ rule.Fits text)
  lists : ∃ p : StdString → Bool, (∀ text, p text = true ↔ rule.Selects text) ∧
    rule.getMatchedTexts texts = .ok (texts.filter p) ∧ rule.getUnmatchedTexts texts =
      .ok (texts.filter fun text => !p text)

/-- The text is no shorter than the rule's, or turned away for its length. -/
def LongEnough (rule : WildcardText) (text : StdString) : Prop :=
  rule.text.size ≤ text.size ∨ ∃ n ∈ rule.frontContextLength, text.size ≠ sizeAdd rule.text.size n.toNat

/-! ## Comparing -/

theorem folded_eq_map (rule : WildcardText) (s : Text) : rule.folded s = s.map rule.lowered := by
  unfold folded lowered
  split
  · exact (List.map_id s).symm
  · rfl

@[simp] theorem folded_length (rule : WildcardText) (s : Text) : (rule.folded s).length = s.length := by
  rw [folded_eq_map, List.length_map]

/-- **Equal as they are compared.** -/
theorem isEqual_iff {s t : Text} : rule.isEqual s t = true ↔ rule.folded s = rule.folded t := by
  unfold isEqual
  rw [folded_eq_map, folded_eq_map]
  induction s generalizing t with
  | nil => cases t <;> simp
  | cons c s ih =>
    cases t with
    | nil => simp
    | cons d t =>
      have htail := @ih t
      by_cases hlength : s.length = t.length
      · rw [if_neg (by simpa using hlength)] at htail
        simp [hlength, ← htail]
      · have hne : s.map rule.lowered ≠ t.map rule.lowered := by
          intro heq
          have := congrArg List.length heq
          simp only [List.length_map] at this
          exact hlength this
        simp [hlength, hne]

/-- The check of a context length, which no sum that overflows passes for a text that is long enough. -/
theorem context_iff (length : Option UInt64) (hlong : rule.text.size ≤ text.size) :
    (length.any fun n => text.size ≠ sizeAdd rule.text.size n.toNat) = false ↔
      ∀ n ∈ length, text.size = rule.text.size + n.toNat := by
  cases length with
  | none => simp
  | some n =>
    have hn := n.toNat_lt
    have hsize := text.size_lt
    have hsum : text.size = sizeAdd rule.text.size n.toNat ↔ text.size = rule.text.size + n.toNat := by
      unfold sizeAdd
      have hsize : text.size < 2 ^ 64 := hsize
      have hrule : rule.text.size < 2 ^ 64 := rule.text.size_lt
      omega
    simp [hsum]

/-! ## The matchers -/

/-- **A cut that is compared**, unless the length turns the text away. -/
theorem tells_of_cut {length : Option UInt64} {part : Text} {p : Prop}
    (hpart : rule.isEqual part rule.text.chars = true ↔ p) (hlong : p → rule.text.size ≤ text.size) :
    Tells (if length.any fun n => text.size ≠ sizeAdd rule.text.size n.toNat then .ok false
        else .ok (rule.isEqual part rule.text.chars))
      (p ∧ ∀ n ∈ length, text.size = rule.text.size + n.toNat) := by
  by_cases hp : p
  · have hcontext := context_iff length (hlong hp)
    split
    · rename_i haway
      refine ⟨false, rfl, iff_of_false Bool.false_ne_true fun h => ?_⟩
      rw [← hcontext, haway] at h
      exact absurd h.2 Bool.true_eq_false_eq_False
    · rename_i hstay
      have hlength := hcontext.1 (by simpa using hstay)
      exact ⟨_, rfl, iff_of_true (hpart.2 hp) ⟨hp, hlength⟩⟩
  · have hno : ¬(p ∧ ∀ n ∈ length, text.size = rule.text.size + n.toNat) := fun h => hp h.1
    split
    · exact ⟨false, rfl, iff_of_false Bool.false_ne_true hno⟩
    · exact ⟨_, rfl, iff_of_false (fun h => hp (hpart.1 h)) hno⟩

/-- **Prefixes.** -/
theorem isPrefixMatch_tells (rule : WildcardText) (text : StdString) :
    Tells (rule.isPrefixMatch text) (rule.IsPrefix text) := by
  have hcut : substr text.chars 0 rule.text.size = .ok (text.chars.take rule.text.size) := by
    rw [substr, if_pos (Nat.zero_le _), List.drop_zero]
  have hpart : rule.isEqual (text.chars.take rule.text.size) rule.text.chars = true ↔
      rule.folded rule.text.chars <+: rule.folded text.chars := by
    rw [isEqual_iff, List.prefix_iff_eq_take, folded_length, folded_eq_map, List.map_take, ← folded_eq_map,
      eq_comm]
    rfl
  unfold isPrefixMatch
  rw [hcut]
  apply tells_of_cut hpart
  intro h
  simpa [StdString.size] using h.length_le

/-- **Suffixes** of a text that is long enough. -/
theorem isSuffixMatch_of_le (hlong : rule.text.size ≤ text.size) :
    Tells (rule.isSuffixMatch text) (rule.IsSuffix text) := by
  have hsize : text.chars.length < 2 ^ 64 := text.size_lt
  have hcut : substr text.chars (sizeSub text.size rule.text.size) npos =
      .ok (text.chars.drop (text.size - rule.text.size)) := by
    have hfront : text.size - rule.text.size ≤ text.chars.length := Nat.sub_le _ _
    rw [substr, sizeSub, if_pos hlong, if_pos hfront, List.take_of_length_le]
    rw [List.length_drop, npos]
    omega
  have hpart : rule.isEqual (text.chars.drop (text.size - rule.text.size)) rule.text.chars = true ↔
      rule.folded rule.text.chars <:+ rule.folded text.chars := by
    rw [isEqual_iff, List.suffix_iff_eq_drop, folded_length, folded_length, folded_eq_map, List.map_drop,
      ← folded_eq_map, eq_comm]
    rfl
  unfold isSuffixMatch
  rw [hcut]
  exact tells_of_cut hpart fun _ => hlong

/-- **A shorter text** is turned away for its length, or cut at a position it does not have. -/
theorem isSuffixMatch_of_lt (hshort : text.size < rule.text.size) :
    rule.isSuffixMatch text =
      if rule.frontContextLength.any fun n => text.size ≠ sizeAdd rule.text.size n.toNat then .ok false
      else .error .position := by
  have hrule : rule.text.size < 2 ^ 64 := rule.text.size_lt
  have hcut : substr text.chars (sizeSub text.size rule.text.size) npos = .error .position := by
    have hpos : sizeSub text.size rule.text.size = 2 ^ 64 + text.size - rule.text.size := if_neg (by omega)
    have hbehind : ¬sizeSub text.size rule.text.size ≤ text.chars.length := by
      have hlength : text.size = text.chars.length := rfl
      omega
    rw [substr, if_neg hbehind]
  unfold isSuffixMatch
  rw [hcut]
  rfl

/-- **Parts.** -/
theorem isPartialMatch_iff (rule : WildcardText) (text : StdString) :
    rule.isPartialMatch text = true ↔ rule.IsPart text := by
  have hfold : ∀ s : Text, (if rule.isCaseSensitive then s else toLowerString s) = rule.folded s := fun _ => rfl
  unfold isPartialMatch
  simp only [hfold]
  rw [find, if_pos (Nat.zero_le _), List.drop_zero, Option.isSome_map, Search.place_isSome_iff]
  rfl

theorem isExactMatch_iff (rule : WildcardText) (text : StdString) :
    rule.isExactMatch text = true ↔ rule.IsExact text := isEqual_iff

/-! ## The dispatcher -/

theorem isLengthMatch_iff (rule : WildcardText) (text : StdString) :
    rule.isLengthMatch text = true ↔ rule.WithinLimits text ∧ rule.text.size ≤ text.size := by
  unfold isLengthMatch WithinLimits
  have hmin : (rule.minLength.any fun n => text.size < n.toNat) = false ↔
      ∀ n ∈ rule.minLength, n.toNat ≤ text.size := by
    cases rule.minLength <;> simp
  have hmax : (rule.maxLength.any fun n => text.size > n.toNat) = false ↔
      ∀ n ∈ rule.maxLength, text.size ≤ n.toNat := by
    cases rule.maxLength <;> simp
  rw [← hmin, ← hmax]
  split
  · rename_i h
    simp [h]
  · rename_i h
    split
    · rename_i h'
      simp [h']
    · rename_i h'
      simp [h, h']

/-- What fits is not shorter than the rule's text. -/
theorem Fits.size_le (h : rule.Fits text) : rule.text.size ≤ text.size := by
  unfold Fits at h
  split at h
  · have hlength := congrArg List.length h
    rw [folded_length, folded_length] at hlength
    exact hlength.ge
  · simpa [StdString.size] using h.length_le
  · simpa [StdString.size] using h.1.length_le
  · simpa [StdString.size] using h.1.length_le
  · exact h.elim
  · exact h.elim

/-- **The dispatcher** tells for every text: it turns the shorter ones away itself. -/
theorem isAllMatch_tells (rule : WildcardText) (text : StdString) :
    Tells (rule.isAllMatch text) (rule.WithinLimits text ∧ rule.Fits text) := by
  have hlength := isLengthMatch_iff rule text
  unfold isAllMatch
  split
  · rename_i haway
    refine ⟨false, rfl, iff_of_false Bool.false_ne_true fun h => ?_⟩
    have := hlength.2 ⟨h.1, h.2.size_le⟩
    simp [this] at haway
  · rename_i hstay
    obtain ⟨hlimits, hlong⟩ := hlength.1 (by simpa using hstay)
    simp only [hlimits, true_and, Fits]
    cases rule.matchPattern with
    | exactMatch => exact ⟨_, rfl, isExactMatch_iff rule text⟩
    | partialMatch => exact ⟨_, rfl, isPartialMatch_iff rule text⟩
    | prefixMatch => exact isPrefixMatch_tells rule text
    | suffixMatch => exact isSuffixMatch_of_le hlong
    | regexMatch => exact ⟨_, rfl, iff_of_false Bool.false_ne_true id⟩
    | unknown => exact ⟨_, rfl, iff_of_false Bool.false_ne_true id⟩

theorem isMatch_tells (rule : WildcardText) (text : StdString) :
    Tells (rule.isMatch text) (rule.Selects text) := by
  obtain ⟨b, hall, hb⟩ := isAllMatch_tells rule text
  unfold isMatch Selects
  rw [hall, ← hb]
  cases rule.isIncludedRule
  · exact ⟨!b, rfl, by simp⟩
  · exact ⟨b, rfl, by simp⟩

/-- What is kept of a list is what the test says. -/
theorem collect_eq {keep : StdString → Except UrlFault Bool} {p : StdString → Bool}
    (h : ∀ text, keep text = .ok (p text)) (texts : List StdString) :
    collect keep texts = .ok (texts.filter p) := by
  induction texts with
  | nil => rfl
  | cons text texts ih =>
    rw [collect, h, ih, List.filter_cons]
    rfl

/-- **The two lists** are what the rule selects and what it does not. -/
theorem lists_eq (rule : WildcardText) (texts : List StdString) :
    ∃ p : StdString → Bool, (∀ text, p text = true ↔ rule.Selects text) ∧
      rule.getMatchedTexts texts = .ok (texts.filter p) ∧
      rule.getUnmatchedTexts texts = .ok (texts.filter fun text => !p text) := by
  choose p hmatch hp using isMatch_tells rule
  refine ⟨p, hp, collect_eq hmatch texts, collect_eq (fun text => ?_) texts⟩
  rw [hmatch]
  rfl

/-! ## The claims of the interface -/

/-- **What the matchers are for is what they do** exactly when the text is long enough for
the suffix to be cut. -/
theorem behaves_iff (rule : WildcardText) (text : StdString) (texts : List StdString) :
    rule.Behaves text texts ↔ rule.LongEnough text := by
  constructor
  · intro h
    by_contra hno
    simp only [LongEnough, not_or, not_exists, not_and, Nat.not_le, not_not] at hno
    obtain ⟨hshort, hpass⟩ := hno
    -- a shorter text that passes the length rule makes `substr` throw
    obtain ⟨b, hreturns, -⟩ := h.suffixMatch
    rw [isSuffixMatch_of_lt hshort, if_neg] at hreturns
    · cases hreturns
    · rw [Option.any_eq_true]
      rintro ⟨n, hn, hne⟩
      exact of_decide_eq_true hne (hpass n hn)
  · intro h
    refine ⟨isPrefixMatch_tells rule text, ?_, isPartialMatch_iff rule text, isExactMatch_iff rule text,
      isAllMatch_tells rule text, lists_eq rule texts⟩
    by_cases hlong : rule.text.size ≤ text.size
    · exact isSuffixMatch_of_le hlong
    · have haway := h.resolve_left hlong
      have hno : ¬rule.IsSuffix text := fun hsuffix => hlong (by simpa [StdString.size] using hsuffix.1.length_le)
      rw [isSuffixMatch_of_lt (by omega), if_pos]
      · exact ⟨false, rfl, iff_of_false Bool.false_ne_true hno⟩
      · obtain ⟨n, hn, hne⟩ := haway
        exact Option.any_eq_true .. |>.2 ⟨n, hn, decide_eq_true hne⟩

/-- The suffix rule with the text "ab", given "b". -/
theorem suffix_throws :
    let rule := new ⟨"ab".toList, by decide⟩ .suffixMatch true
    let text : StdString := ⟨"b".toList, by decide⟩
    rule.isSuffixMatch text = .error .position ∧ rule.isAllMatch text = .ok false ∧ ¬rule.Behaves text [] := by
  intro rule text
  have hthrows : rule.isSuffixMatch text = .error .position := by decide
  refine ⟨hthrows, by decide, fun h => ?_⟩
  obtain ⟨b, hreturns, -⟩ := h.suffixMatch
  rw [hthrows] at hreturns
  cases hreturns

end ProjectTrans.WildcardText
