import ProjectTrans.Lib.Search
import ProjectTrans.Lib.Template

/-!
# URLs (`network/url/url_info`, `network/url/url_resolver`)

`parse` cuts a URL from the front with searches over the whole rest of the text; the
positions it finds are compared with the end of the URL only here and there. What the
standard library throws is a fault. The loop over the query has fuel, one more than the
letters of the URL; that it never runs out is proved.
-/

namespace ProjectTrans

open Search

/-- `UrlProtocol`. -/
inductive UrlProtocol
  | unknown
  | http
  | https
  | ftp
  | danejoe
  deriving DecidableEq, Repr

/-- `UrlInfo`. The query is an unordered container that keeps repeated keys. -/
structure UrlInfo where
  protocol : UrlProtocol
  host : Text
  port : UInt16
  path : Text
  query : Multiset (Text × Text)
  deriving DecidableEq

/-- What `parse` throws (from `substr`, and twice from `stoi`), or the end of the fuel. -/
inductive UrlFault
  | position
  | invalidArgument
  | outOfRange
  | endless
  deriving DecidableEq, Repr

/-! ## The standard library -/

/-- `std::string::find`, where `npos` is none. -/
def find (s pattern : Text) (pos : ℕ) : Option ℕ :=
  if pos ≤ s.length then (place pattern (s.drop pos)).map (pos + ·) else none

/-- A difference of two `size_t`. -/
def sizeSub (a b : ℕ) : ℕ := if b ≤ a then a - b else 2 ^ 64 + a - b

/-- `std::string::substr`. -/
def substr (s : Text) (pos count : ℕ) : Except UrlFault Text :=
  if pos ≤ s.length then .ok ((s.drop pos).take count) else .error .position

/-- `isspace` in the C locale. -/
def isSpace (c : Char) : Bool := c == ' ' || (9 ≤ c.toNat && c.toNat ≤ 13)

/-- The sign at the front, and what follows it. -/
def readSign : Text → Bool × Text
  | '-' :: s => (true, s)
  | '+' :: s => (false, s)
  | s => (false, s)

/-- `std::stoi`. -/
def stoi (s : Text) : Except UrlFault ℤ :=
  let signed := readSign (s.dropWhile isSpace)
  let digits := signed.2.takeWhile Char.isDigit
  if digits = [] then .error .invalidArgument
  else
    let n : ℤ := Nat.ofDigitChars 10 digits 0
    let value := if signed.1 then -n else n
    if -2 ^ 31 ≤ value ∧ value < 2 ^ 31 then .ok value else .error .outOfRange

namespace UrlResolver

/-! ## Conversions -/

/-- `to_protocol`. -/
def toProtocol (protocol : Text) : UrlProtocol :=
  let temp := protocol.map Char.toLower
  if temp = "http".toList then .http
  else if temp = "https".toList then .https
  else if temp = "ftp".toList then .ftp
  else if temp = "danejoe".toList then .danejoe
  else .unknown

/-- `to_string`. -/
def toString : UrlProtocol → Text
  | .http => "http".toList
  | .https => "https".toList
  | .danejoe => "danejoe".toList
  | .ftp => "ftp".toList
  | .unknown => []

/-- `default_port`. -/
def defaultPort : UrlProtocol → UInt16
  | .http => 80
  | .https => 443
  | .ftp => 21
  | .danejoe => 8080
  | .unknown => 0

/-- `to_ip`, which returns what it is given. -/
def toIp (url : Text) : Text := url

/-! ## Parsing -/

/-- The loop over the query, from `currentPos` on. -/
def parseQuery (url : Text) (urlEndPos : ℕ) : ℕ → ℕ → UrlInfo → Except UrlFault UrlInfo
  | 0, _, _ => .error .endless
  | fuel + 1, currentPos, info =>
    match find url ['='] currentPos with
    | none => .ok info
    | some equalPos => do
      let queryKey ← substr url currentPos (sizeSub equalPos currentPos)
      let currentPos := equalPos + 1
      if currentPos > urlEndPos then .ok info
      else
        let queryValueEndPos := (find url ['&'] currentPos).getD urlEndPos
        let queryValue ← substr url currentPos (sizeSub queryValueEndPos currentPos)
        let info := { info with query := (queryKey, queryValue) ::ₘ info.query }
        let currentPos := queryValueEndPos + 1
        if currentPos > urlEndPos then .ok info
        else parseQuery url urlEndPos fuel currentPos info

/-- The path, from `currentPos` on, and what follows it. -/
def parsePath (url : Text) (urlEndPos currentPos : ℕ) (info : UrlInfo) : Except UrlFault UrlInfo :=
  if currentPos > urlEndPos then .ok info
  else do
    let pathEndPos := (find url ['?'] currentPos).getD urlEndPos
    let pathStr := if pathEndPos = currentPos then .ok ['/']
      else substr url currentPos (sizeSub pathEndPos currentPos)
    let path ← pathStr
    let info := { info with path := path }
    let currentPos := pathEndPos + 1
    if currentPos > urlEndPos then .ok info
    else parseQuery url urlEndPos (url.length + 1) currentPos info

/-- Host and port, from `currentPos` on, and what follows them. -/
def parseHost (url : Text) (urlEndPos currentPos : ℕ) (info : UrlInfo) : Except UrlFault UrlInfo :=
  if currentPos > urlEndPos then .ok info
  else
    let hostPortEndPos := (find url ['/'] currentPos).getD urlEndPos
    -- a colon behind the end of the host belongs to something else
    match (find url [':'] currentPos).filter (· ≤ hostPortEndPos) with
    | none => do
      let host ← substr url currentPos (sizeSub hostPortEndPos currentPos)
      let info := { info with host := toIp host, port := defaultPort info.protocol }
      parsePath url urlEndPos hostPortEndPos info
    | some portSignPos => do
      let host ← substr url currentPos (sizeSub portSignPos currentPos)
      let info := { info with host := toIp host }
      let currentPos := portSignPos + 1
      if currentPos > urlEndPos then .ok info
      else
        let portText ← substr url currentPos (sizeSub hostPortEndPos currentPos)
        let port ← stoi portText
        parsePath url urlEndPos hostPortEndPos { info with port := UInt16.ofInt port }

/-- `parse`. -/
def parse (url : Text) : Except UrlFault UrlInfo :=
  let info : UrlInfo := ⟨.unknown, [], 0, ['/'], 0⟩
  let urlEndPos := (find url ['#'] 0).getD url.length
  match find url "://".toList 0 with
  | none => .ok info
  | some protocolEndPos => do
    let protocol ← substr url 0 (sizeSub protocolEndPos 0)
    parseHost url urlEndPos (protocolEndPos + 3) { info with protocol := toProtocol protocol }

/-! ## Building -/

/-- `build`, where `pairs` is the order in which the container goes through the query. -/
def build (info : UrlInfo) (pairs : List (Text × Text)) : Text :=
  let result := toString info.protocol ++ "://".toList ++ info.host ++ ":".toList ++
    Nat.toDigits 10 info.port.toNat ++ info.path
  if pairs.length > 0 then
    (pairs.foldl (fun result p => result ++ (p.1 ++ "=".toList ++ p.2 ++ "&".toList))
      (result ++ "?".toList)).dropLast
  else result

end UrlResolver

end ProjectTrans
