import ProjectTrans.Model.Network.UrlResolver

/-!
# Rules for texts (`condition/wildcard_text`)

A rule compares its text with another by one of four patterns. The matchers for prefixes
and suffixes cut the other text with `substr`, which throws for a position behind its end
(`UrlFault.position`).
-/

namespace ProjectTrans

/-- A `std::string`: its size is a `std::size_t`. -/
structure StdString where
  chars : Text
  size_lt : chars.length < 2 ^ 64
  deriving DecidableEq

/-- `size`. -/
def StdString.size (text : StdString) : ℕ := text.chars.length

/-- A sum of two `size_t`. -/
def sizeAdd (a b : ℕ) : ℕ := (a + b) % 2 ^ 64

/-- `std::string::npos`. -/
def npos : ℕ := 2 ^ 64 - 1

/-- `MatchPattern`. -/
inductive MatchPattern
  | exactMatch
  | partialMatch
  | prefixMatch
  | suffixMatch
  | regexMatch
  | unknown
  deriving DecidableEq, Repr

/-- `WildcardText`. -/
structure WildcardText where
  isIncludedRule : Bool
  isCaseSensitive : Bool
  matchPattern : MatchPattern
  text : StdString
  maxLength : Option UInt64
  minLength : Option UInt64
  frontContextLength : Option UInt64
  backContextLength : Option UInt64
  deriving DecidableEq

namespace WildcardText

/-- The constructor. -/
def new (text : StdString) (matchPattern : MatchPattern) (isIncludedRule : Bool) : WildcardText :=
  ⟨isIncludedRule, true, matchPattern, text, none, none, none, none⟩

/-- A character as it is compared. -/
def lowered (rule : WildcardText) (c : Char) : Char := if rule.isCaseSensitive then c else c.toLower

/-- `is_equal`. -/
def isEqual (rule : WildcardText) (text1 text2 : Text) : Bool :=
  if text1.length ≠ text2.length then false
  else (text1.zip text2).all fun p => rule.lowered p.1 == rule.lowered p.2

/-- `to_lower_string`. -/
def toLowerString (text : Text) : Text := text.map Char.toLower

/-- `is_prefix_match`. -/
def isPrefixMatch (rule : WildcardText) (text : StdString) : Except UrlFault Bool :=
  if rule.backContextLength.any fun n => text.size ≠ sizeAdd rule.text.size n.toNat then .ok false
  else do
    let prefixText ← substr text.chars 0 rule.text.size
    .ok (rule.isEqual prefixText rule.text.chars)

/-- `is_suffix_match`. -/
def isSuffixMatch (rule : WildcardText) (text : StdString) : Except UrlFault Bool :=
  if rule.frontContextLength.any fun n => text.size ≠ sizeAdd rule.text.size n.toNat then .ok false
  else do
    let suffixText ← substr text.chars (sizeSub text.size rule.text.size) npos
    .ok (rule.isEqual suffixText rule.text.chars)

/-- `is_partial_match`. -/
def isPartialMatch (rule : WildcardText) (text : StdString) : Bool :=
  let textCopy := if rule.isCaseSensitive then text.chars else toLowerString text.chars
  let ruleCopy := if rule.isCaseSensitive then rule.text.chars else toLowerString rule.text.chars
  (find textCopy ruleCopy 0).isSome

/-- `is_exact_match`. -/
def isExactMatch (rule : WildcardText) (text : StdString) : Bool := rule.isEqual text.chars rule.text.chars

/-- `is_regex_match`, which is not supported. -/
def isRegexMatch (_ : WildcardText) (_ : StdString) : Bool := false

/-- `is_length_match`. -/
def isLengthMatch (rule : WildcardText) (text : StdString) : Bool :=
  if rule.minLength.any fun n => text.size < n.toNat then false
  else if rule.maxLength.any fun n => text.size > n.toNat then false
  else text.size ≥ rule.text.size

/-- `is_all_match`. -/
def isAllMatch (rule : WildcardText) (text : StdString) : Except UrlFault Bool :=
  if !rule.isLengthMatch text then .ok false
  else
    match rule.matchPattern with
    | .exactMatch => .ok (rule.isExactMatch text)
    | .partialMatch => .ok (rule.isPartialMatch text)
    | .prefixMatch => rule.isPrefixMatch text
    | .suffixMatch => rule.isSuffixMatch text
    | .regexMatch => .ok (rule.isRegexMatch text)
    | .unknown => .ok false

/-- `is_match`. -/
def isMatch (rule : WildcardText) (text : StdString) : Except UrlFault Bool :=
  if rule.isIncludedRule then rule.isAllMatch text else (rule.isAllMatch text).map not

/-- The texts that are kept, in their order. -/
def collect (keep : StdString → Except UrlFault Bool) : List StdString → Except UrlFault (List StdString)
  | [] => .ok []
  | text :: texts => do
    let kept ← keep text
    let rest ← collect keep texts
    .ok (if kept then text :: rest else rest)

/-- `get_matched_texts`. -/
def getMatchedTexts (rule : WildcardText) (texts : List StdString) : Except UrlFault (List StdString) :=
  collect rule.isMatch texts

/-- `get_unmatched_texts`. -/
def getUnmatchedTexts (rule : WildcardText) (texts : List StdString) : Except UrlFault (List StdString) :=
  collect (fun text => (rule.isMatch text).map not) texts

end WildcardText

end ProjectTrans
