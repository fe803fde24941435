import DotHttp.Dispatch
import DotHttp.Text.Utf8

/-!
The form of messages on a connection: the address that a URL names, the bytes of a request, and the
reading of a response after which the server closes the connection.
-/

namespace DotHttp.Wire

open DotHttp.Text

/-- Where a request goes, with the number of the service there, and what it asks for. -/
structure Address where
  host : String
  service : Nat
  target : String
  deriving DecidableEq, Repr

def scheme : List Char := "http://".toList

def defaultService : Nat := 80

def endsAuthority (c : Char) : Bool :=
  c = '/' || c = '?' || c = '#'

/-- A host with an optional number after a colon. -/
def authority? (s : List Char) : Option (String × Nat) :=
  let (host, tail) := s.span (· != ':')
  let host := String.ofList host
  match tail with
  | [] | [_] => if host = "" then none else some (host, defaultService)
  | _ :: digits =>
    if host != "" && digits.all Char.isDigit then
      let n := Numeral.valueOf (Numeral.plainDigits digits)
      if n < 65536 then some (host, n) else none
    else none

/-- A byte of a target; one that is no plain character is written as a percent sign with two
hexadecimal digits. -/
def targetByte (b : UInt8) : List Char :=
  if 0x20 < b && b < 0x7f then [Char.ofNat b.toNat]
  else '%' :: (hexDigits 2 b.toNat).map Char.toUpper

/-- What is asked for: the path and the query, without the fragment. -/
def target (s : List Char) : String :=
  let s := s.takeWhile (· != '#')
  let s := if s.head? = some '/' then s else '/' :: s
  String.ofList ((String.ofList s).toUTF8.toList.flatMap targetByte)

/-- The address of a URL with the plain scheme. -/
def address? (url : String) : Option Address := do
  let rest ← dropStart? scheme url.toList
  let (host, service) ← authority? (rest.takeWhile (!endsAuthority ·))
  some ⟨host, service, target (rest.dropWhile (!endsAuthority ·))⟩

def hasHeader (name : String) (headers : List (String × String)) : Bool :=
  headers.any fun (n, _) => n.lowerCase = name

/-- The headers that a request is sent with: its own, and those it needs and does not have. -/
def sentHeaders (a : Address) (w : WireRequest) : List (String × String) :=
  let host := if a.service = defaultService then a.host else s!"{a.host}:{a.service}"
  let length := match w.body with
    | some b => [("content-length", toString b.utf8ByteSize)]
    | none => []
  let needed := [("host", host), ("accept", "*/*")] ++ length
  let own := w.headers.filter fun (n, _) => n.lowerCase != "connection"
  needed.filter (fun (n, _) => !hasHeader n own) ++ own ++ [("connection", "close")]

def isOneLine (s : String) : Bool :=
  s.toList.all fun c => c != '\r' && c != '\n'

/-- The bytes of a request. There are none for a header that would begin a line of its own. -/
def requestBytes? (a : Address) (w : WireRequest) : Option (List UInt8) :=
  let lines := s!"{w.method} {a.target} HTTP/1.1" ::
    (sentHeaders a w).map fun (n, v) => n ++ ": " ++ v
  if lines.all isOneLine then
    some ((String.join (lines.map (· ++ "\r\n")) ++ "\r\n" ++ w.body.getD "").toUTF8.toList)
  else none

/-- Bytes as the characters with the same numbers. -/
def ofBytes (bytes : List UInt8) : List Char :=
  bytes.map fun b => Char.ofNat b.toNat

/-- The text of a body: the bytes as text, or each byte as a character where they are none. -/
def bodyText (s : List Char) : String :=
  String.ofList ((decodeUtf8 (s.map fun c => UInt8.ofNat c.toNat)).toOption.getD s)

def line? : List Char → Option (List Char × List Char)
  | [] => none
  | '\r' :: '\n' :: rest => some ([], rest)
  | '\n' :: rest => some ([], rest)
  | c :: rest => (line? rest).map fun (line, below) => (c :: line, below)

theorem length_line? {s line below : List Char} (h : line? s = some (line, below)) :
    below.length < s.length := by
  fun_induction line? s generalizing line below with
  | case1 => simp at h
  | case2 rest =>
    simp only [Option.some.injEq, Prod.mk.injEq] at h
    simp only [List.length_cons, ← h.2]
    omega
  | case3 rest =>
    simp only [Option.some.injEq, Prod.mk.injEq] at h
    simp [← h.2]
  | case4 c rest _ _ ih =>
    simp only [Option.map_eq_some_iff, Prod.exists, Prod.mk.injEq] at h
    obtain ⟨l, b, hb, -, rfl⟩ := h
    exact Nat.lt_succ_of_lt (ih hb)

/-- The headers up to the empty line, and what follows that. -/
def headers? (s : List Char) : Option (List (String × String) × List Char) :=
  match _h : line? s with
  | none => none
  | some ([], below) => some ([], below)
  | some (line, below) => do
    let (name, value) ← splitFirst ':' line
    let (more, body) ← headers? below
    some ((String.ofList (strip name), String.ofList (strip value)) :: more, body)
termination_by s.length
decreasing_by exact length_line? _h

/-- The status in the first line of a response. -/
def status? (line : List Char) : Option Nat :=
  match words line with
  | version :: digits :: _ =>
    if "HTTP/1.".toList.isPrefixOf version && digits.length = 3 && digits.all Char.isDigit then
      some (Numeral.valueOf (Numeral.plainDigits digits))
    else none
  | _ => none

def isHexDigit (c : Char) : Bool :=
  c.isDigit || ('a' ≤ c.toLower && c.toLower ≤ 'f')

def hexDigit (c : Char) : Nat :=
  if c.isDigit then c.toNat - 48 else c.toLower.toNat - 87

/-- The size in the line before a chunk. -/
def chunkSize? (line : List Char) : Option Nat :=
  match line.takeWhile isHexDigit with
  | [] => none
  | digits => some (digits.foldl (fun n c => 16 * n + hexDigit c) 0)

/-- The chunks of a body, joined. The chunk of size zero is the last one. -/
def chunks? (s : List Char) : Option (List Char) :=
  match _h : line? s with
  | none => none
  | some (line, below) =>
    match chunkSize? line with
    | none => none
    | some 0 => some []
    | some size =>
      if below.length < size then none
      else
        match _h' : line? (below.drop size) with
        | some ([], rest) => (chunks? rest).map (below.take size ++ ·)
        | _ => none
termination_by s.length
decreasing_by
  have h₁ := length_line? _h
  have h₂ := length_line? _h'
  rw [List.length_drop] at h₂
  omega

def headerIs (name value : String) (headers : List (String × String)) : Bool :=
  headers.any fun (n, v) => n.lowerCase = name && v.lowerCase = value

/-- The body that the headers announce: in chunks, of a length, or up to the end. -/
def body? (headers : List (String × String)) (s : List Char) : Option (List Char) :=
  if headerIs "transfer-encoding" "chunked" headers then chunks? s
  else
    match headers.find? fun (n, _) => n.lowerCase = "content-length" with
    | none => some s
    | some (_, v) =>
      let length := Numeral.valueOf (Numeral.plainDigits v.toList)
      if s.length < length then none else some (s.take length)

/-- Whether a response has no body, whatever its headers say. -/
def isBodiless (method : String) (status : Nat) : Bool :=
  method = "HEAD" || status = 204 || status = 304

/-- Reads a response, passing over those that only announce another one. -/
def responseFrom? (method : String) (s : List Char) : Option WireResponse :=
  match _h : line? s with
  | none => none
  | some (line, below) => do
    let status ← status? line
    let (headers, rest) ← headers? below
    if status < 200 then
      if _shorter : rest.length < s.length then responseFrom? method rest else none
    else
      let body ← if isBodiless method status then some [] else body? headers rest
      some ⟨status, headers, bodyText body⟩
termination_by s.length

/-- Reads the bytes of a response to a method. -/
def response? (method : String) (bytes : List UInt8) : Option WireResponse :=
  responseFrom? method (ofBytes bytes)

end DotHttp.Wire
