import DictionaryDdl.Text.Decimal
import DictionaryDdl.Text.Percent
import DictionaryDdl.Text.Split

/-!
Addresses of MySQL servers, given as URLs. An address names a host and maybe a port; users,
passwords and databases may stand in the URL, and so may connection parameters, which have to be
known ones with good values that leave room for a connection. An address is shown without any
secret.
-/

namespace DictionaryDdl.ServerAddress

/-- The port of a server that names none. -/
def defaultPort : Nat := 3306

/-- The characters that are cut off both ends of a URL. -/
def isControlOrSpace (c : Char) : Bool :=
  c.toNat ≤ 0x20

/-- The characters that are left out of a URL wherever they stand. -/
def isBreak (c : Char) : Bool :=
  c == '\t' || c == '\n' || c == '\r'

/-- A URL without what is left out of it. -/
def cleaned (url : List Char) : List Char :=
  let inner := ((url.dropWhile isControlOrSpace).reverse.dropWhile isControlOrSpace).reverse
  inner.filter (!isBreak ·)

/-- What follows the scheme `mysql`, in letters of any case, and the two slashes of an
authority. -/
def afterScheme? (url : List Char) : Option (List Char) :=
  let scheme := "mysql://".toList
  if (url.take scheme.length).map Char.toLower = scheme then some (url.drop scheme.length)
  else none

/-- Whether an authority ends before a character. -/
def endsAuthority (c : Char) : Bool :=
  c == '/' || c == '?' || c == '#'

/-- The host and port of an authority, without the user, which ends at the last at-sign; none
where a user stands before no host. -/
def withoutUser? (authority : List Char) : Option (List Char) :=
  if authority.contains '@' then
    let host := (authority.reverse.takeWhile (· != '@')).reverse
    if host.isEmpty then none else some host
  else
    some authority

/-- A host and what follows it, which starts with the colon of a port; colons between brackets
belong to the host. -/
def cutHost (bracketed : Bool) : List Char → List Char × List Char
  | [] => ([], [])
  | c :: rest =>
      if c = ':' ∧ bracketed = false then
        ([], c :: rest)
      else
        let inside := if c = '[' then true else if c = ']' then false else bracketed
        let (host, after) := cutHost inside rest
        (c :: host, after)

/-- The port that follows a host. A backslash ends it, and what comes after that belongs to the
path. -/
def readPort? : List Char → Option Nat
  | [] => some defaultPort
  | ':' :: after =>
      let digits := after.takeWhile Text.isDigit
      match after.drop digits.length with
      | [] | '\\' :: _ =>
          if digits.isEmpty then some defaultPort
          else (Text.readNatural? digits).filter (· < 0x10000)
      | _ => none
  | _ => none

/-- The characters that no host holds. -/
def isForbidden (c : Char) : Bool :=
  c.toNat == 0 || "\t\n\r #/:<>?@[\\]^|".toList.contains c

/-- How a character of a host is shown; octets that cannot be seen are written as percent signs
and digits. -/
def hostChar (c : Char) : List Char :=
  if c.toNat < 0x20 ∨ 0x7E < c.toNat then
    (Text.octets c.toString).toList.flatMap Text.percentEncoded
  else
    [c]

/-- A piece of an address of eight: one to four hexadecimal digits. -/
def readPiece? (digits : List Char) : Option Nat :=
  if digits.isEmpty ∨ 4 < digits.length then none
  else digits.foldlM (fun n c => (Text.hexDigit? c).map (16 * n + ·)) 0

/-- A part of a dotted address: a number below 256 without leading zeros. -/
def readOctet? (digits : List Char) : Option Nat :=
  if digits.isEmpty ∨ (digits.length > 1 ∧ digits.head? = some '0') then none
  else if digits.all Text.isDigit then (Text.readNatural? digits).filter (· < 256)
  else none

/-- The two pieces that a dotted address stands for. -/
def readDotted? (text : List Char) : Option (List Nat) :=
  match (Text.pieces '.' text).mapM readOctet? with
  | some [a, b, c, d] => some [256 * a + b, 256 * c + d]
  | _ => none

/-- Pieces with colons between them; the last may be a dotted address where `dotted` holds. -/
def readPieces? (dotted : Bool) (text : List Char) : Option (List Nat) :=
  if text.isEmpty then some []
  else
    let parts := Text.pieces ':' text
    let tail := parts.getLast?.getD []
    if dotted && tail.contains '.' then do
      let ahead ← parts.dropLast.mapM readPiece?
      return ahead ++ (← readDotted? tail)
    else
      parts.mapM readPiece?

/-- Cuts a text at the first of two colons in a row. -/
def cutDouble : List Char → Option (List Char × List Char)
  | ':' :: ':' :: rest => some ([], rest)
  | c :: rest => (cutDouble rest).map fun (before, after) => (c :: before, after)
  | [] => none

/-- The eight pieces of an address between brackets; two colons stand for pieces of zero. -/
def readAddress? (text : List Char) : Option (List Nat) :=
  match cutDouble text with
  | none => (readPieces? true text).filter (·.length == 8)
  | some (before, after) => do
      let front ← readPieces? false before
      let back ← readPieces? true after
      let count := front.length + back.length
      if count ≤ 7 then return front ++ List.replicate (8 - count) 0 ++ back else none

/-- The length of the run of zeros at the head of some pieces. -/
def zeroRun (pieces : List Nat) : Nat :=
  (pieces.takeWhile (· == 0)).length

/-- Where the longest run of zeros starts and how long it is, the first one of several; none
where no run has two. -/
def longestRun? (pieces : List Nat) : Option (Nat × Nat) :=
  let runs := (List.range pieces.length).map fun i => (i, zeroRun (pieces.drop i))
  let best := runs.foldl (fun (best : Nat × Nat) run => if run.2 > best.2 then run else best) (0, 0)
  if best.2 ≥ 2 then some best else none

/-- The text of some pieces. -/
def piecesText (pieces : List Nat) : String :=
  Text.joined ":" (pieces.map Text.hexadecimal)

/-- The text of an address between brackets, its longest run of zeros left out. -/
def addressText (pieces : List Nat) : String :=
  match longestRun? pieces with
  | none => "[" ++ piecesText pieces ++ "]"
  | some (start, size) =>
      "[" ++ piecesText (pieces.take start) ++ "::" ++ piecesText (pieces.drop (start + size)) ++
        "]"

/-- The text of a host. -/
def hostText? (host : List Char) : Option String :=
  match host with
  | [] => none
  | '[' :: inner =>
      if inner.getLast? = some ']' then (readAddress? inner.dropLast).map addressText else none
  | _ =>
      if host.any isForbidden then none else some (String.ofList (host.flatMap hostChar))

/-- The kinds of values that connection parameters take. -/
inductive ParameterKind where
  | word32 | word64 | flag | text | compression

/-- The connection parameters. -/
def parameters : List (String × ParameterKind) :=
  [("pool_min", .word64), ("pool_max", .word64), ("inactive_connection_ttl", .word64),
    ("ttl_check_interval", .word64), ("conn_ttl", .word64), ("abs_conn_ttl", .word64),
    ("abs_conn_ttl_jitter", .word64), ("tcp_keepalive", .word32),
    ("max_allowed_packet", .word64), ("wait_timeout", .word64),
    ("enable_cleartext_plugin", .flag), ("reset_connection", .flag), ("tcp_nodelay", .flag),
    ("stmt_cache_size", .word64), ("prefer_socket", .flag), ("secure_auth", .flag),
    ("client_found_rows", .flag), ("socket", .text), ("compression", .compression),
    ("require_ssl", .flag), ("built_in_roots", .flag), ("verify_ca", .flag),
    ("verify_identity", .flag)]

/-- Whether a parameter takes a value. -/
def ParameterKind.accepts (kind : ParameterKind) (value : String) : Bool :=
  match kind with
  | .word32 => (Text.readUnsigned? UInt32.size value.toList).isSome
  | .word64 => (Text.readUnsigned? UInt64.size value.toList).isSome
  | .flag => value == "true" || value == "false"
  | .text => true
  | .compression =>
      ["fast", "best", "on", "true"].contains value ||
        ((Text.readUnsigned? 10 value.toList).isSome && value.length == 1)

/-- A parameter of an address. -/
structure Parameter where
  name : String
  value : String

/-- The parameter that a piece of a query stands for, both sides of it in form encoding. -/
def Parameter.ofPiece (piece : List Char) : Parameter :=
  match Text.cutAt '=' piece with
  | some (name, value) => ⟨Text.formDecoded name, Text.formDecoded value⟩
  | none => ⟨Text.formDecoded piece, ""⟩

/-- Whether a parameter is known and has a good value. -/
def Parameter.isGood (p : Parameter) : Bool :=
  match parameters.lookup p.name with
  | some kind => kind.accepts p.value
  | none => false

/-- The parameters of what follows an authority. -/
def parametersOf (rest : List Char) : List Parameter :=
  match Text.cutAt '?' (rest.takeWhile (· != '#')) with
  | none => []
  | some (_, query) => ((Text.pieces '&' query).filter (!·.isEmpty)).map Parameter.ofPiece

/-- The number that the last parameter of a name gives, or else `unset`. -/
def lastNumber (name : String) (unset : Nat) (given : List Parameter) : Nat :=
  given.foldl (fun n p =>
    if p.name = name then (Text.readUnsigned? UInt64.size p.value.toList).getD n else n) unset

/-- Whether the least and the greatest number of connections leave room for one: ten and a
hundred of them unless parameters say otherwise. -/
def hasRoom (given : List Parameter) : Bool :=
  let least := lastNumber "pool_min" 10 given
  let greatest := lastNumber "pool_max" 100 given
  least ≤ greatest && 0 < greatest

/-- The host and port of a server. -/
structure Endpoint where
  host : String
  port : Nat
  deriving DecidableEq, Repr

/-- The host and port that a URL names, if it is a good one. -/
def ofUrl? (url : String) : Option Endpoint := do
  let rest ← afterScheme? (cleaned url.toList)
  let authority := rest.takeWhile (!endsAuthority ·)
  let hostAndPort ← withoutUser? authority
  let (host, after) := cutHost false hostAndPort
  let host ← hostText? host
  let port ← readPort? after
  let given := parametersOf (rest.drop authority.length)
  if given.all Parameter.isGood && hasRoom given then some { host, port } else none

/-- What a server is called in messages. -/
def describe (url : String) : String :=
  match ofUrl? url with
  | some server => "MySQL at '" ++ server.host ++ ":" ++ toString server.port ++ "'"
  | none => "MySQL"

end DictionaryDdl.ServerAddress
