import MeshProbe.Url.Basic
/-!
The network as requests meet it. What comes of a request may depend on those made before it: no
reply to it begins, or one begins after a while, and its body takes time of its own. A reply that
leads to another address is followed there, by a request of its own, as part of the first one.
-/

namespace MeshProbe

/-- A request for an address, without a body. -/
structure Request where
  method : String
  address : Url
  /-- The values of the authorization headers, in the order sent. -/
  authorization : List String
  /-- Whether a server with the secure scheme has to prove who it is. -/
  verifies : Bool
  deriving DecidableEq, Repr

/-- The address as the request line names it. -/
def Request.target (r : Request) : Url := r.address.target

/-- The header that presents a user name and a password. -/
def basicAuthorization (name : List Char) (password : Option (List Char)) : String :=
  "Basic " ++ String.ofList (Base64.encode (Utf8.encode (name ++ ':' :: password.getD [])))

/-- How much of an error is told: `brief` leaves out the network's own words. -/
inductive Detail
  | brief
  | full
  deriving DecidableEq, Repr

/-- Why no reply to a request begins. -/
inductive SendCause
  | unreachable
  | closed
  | timedOut
  | insecure
  deriving DecidableEq, Repr

/-- What stands behind a failure to send, outermost first. -/
def SendCause.chain : SendCause → List String
  | unreachable =>
    let root := "Network is unreachable (os error 101)"
    ["error trying to connect: tcp connect error: " ++ root, "tcp connect error: " ++ root, root]
  | closed => ["connection closed before message completed"]
  | timedOut => ["operation timed out"]
  | insecure => ["error trying to connect: invalid peer certificate: UnknownIssuer",
      "invalid peer certificate: UnknownIssuer"]

/-- Why the body of a reply does not come to its end. -/
inductive ReadCause
  | cut
  | timedOut
  deriving DecidableEq, Repr

def ReadCause.message : ReadCause → String
  | cut => "error reading a body from connection: end of file before message length reached"
  | timedOut => "operation timed out"

inductive NetworkError
  /-- No answer came from an address. -/
  | send (address : String) (cause : SendCause)
  /-- An address leads on to another when enough others have. -/
  | redirect (address : String)
  /-- The body of an answer did not come to its end. -/
  | read (cause : ReadCause)
  /-- An address that cannot be asked. -/
  | unusable (error : Url.ParseError)
  /-- An answer whose status tells of an error. -/
  | status (code : Nat) (address : String)
  deriving DecidableEq, Repr

namespace NetworkError

/-- The error and what stands behind it, outermost first. -/
def chain : NetworkError → List String
  | send address cause =>
    ("error sending request for url (" ++ address ++ "): " ++ cause.chain.headD "") :: cause.chain
  | redirect address =>
    let cause := "too many redirects"
    ["error following redirect for url (" ++ address ++ "): " ++ cause, cause]
  | read cause => ["request or response body error: " ++ cause.message, cause.message]
  | unusable e => ["builder error: " ++ e.message, e.message]
  | status code address =>
    ["HTTP status " ++ (if code < 500 then "client" else "server") ++ " error (" ++ toString code ++
      ") for url (" ++ address ++ ")"]

/-- The words an error adds to a message that it caused. -/
def suffix (detail : Detail) (e : NetworkError) : String :=
  match detail with
  | .brief => ""
  | .full => ": " ++ e.chain.headD ""

/-- What stands behind a message that the error caused. -/
def sources (detail : Detail) (e : NetworkError) : List String :=
  match detail with
  | .brief => []
  | .full => e.chain

end NetworkError

/-! ### Replies -/

/-- Something that is waited for: how long it takes, and what comes of it then. -/
structure Delivery (ε α : Type) where
  after : Nat
  outcome : Except ε α

/-- What comes of waiting for a delivery from a time on, and when. At the limit it is too late. -/
def Delivery.await {ε α : Type} (d : Delivery ε α) (limit : Option Nat) (late : ε) (start : Nat) :
    Except ε α × Nat :=
  match limit with
  | none => (d.outcome, start + d.after)
  | some limit =>
    if start + d.after < limit then (d.outcome, start + d.after)
    else (.error late, max start limit)

/-- What a reply begins with, and its body, which is waited for from there on. -/
structure Head where
  status : Nat
  /-- The address that its location names, read from the address that was asked; a location may
  name one that cannot be asked. -/
  location : Option (Except Url.ParseError Url)
  /-- The name of the charset that its content type names. -/
  charset : Option String
  body : Delivery ReadCause Bytes

/-- What comes of a request: why no reply begins, or what one begins with. -/
abbrev Reply := Delivery SendCause Head

/-- A reply that is there at once and leads nowhere else. -/
def Reply.plain (status : Nat) (body : Bytes) : Reply where
  after := 0
  outcome := .ok { status, location := none, charset := none, body := ⟨0, .ok body⟩ }

/-- The statuses of a reply that leads to another address. -/
def redirectStatuses : List Nat := [301, 302, 303, 307, 308]

/-- The same request for another address. The authorization stays behind when the host or the port
is another. -/
def Request.redirected (request : Request) (address : Url) : Request :=
  { request with
    address
    authorization :=
      if address.host = request.address.host ∧
        address.effectivePort = request.address.effectivePort then request.authorization
      else [] }

/-- The request that a reply leads to, if it leads to one. -/
def Request.next? (request : Request) (head : Head) : Option (Except Url.ParseError Request) :=
  if redirectStatuses.contains head.status then head.location.map (·.map request.redirected)
  else none

/-- An answer: the address that gave it in the end, the head of its reply, and what comes of
waiting for the body. -/
structure Answer where
  address : Url
  status : Nat
  charset : Option String
  body : Delivery NetworkError Bytes

/-- The answer that a head makes which came at a time. -/
def Head.answer (head : Head) (address : Url) (limit : Option Nat) (time : Nat) : Answer :=
  let (body, finish) := head.body.await limit .timedOut time
  { address, status := head.status, charset := head.charset
    body := ⟨finish - time, body.mapError .read⟩ }

/-! ### Sending -/

structure Network where
  /-- What comes of a request after others, the latest first. -/
  reply : List Request → Request → Reply
  /-- How often one request may lead on to another. -/
  redirects : Nat
  /-- How a charset reads bytes, where its name is known. -/
  charsets : String → Option (Bytes → List Char)
  /-- The requests made so far, the latest first. -/
  requests : List Request

namespace Network

/-- A network before the first request, where one request comes to ten at most and no charset but
UTF-8 is known. -/
def ofReplies (reply : List Request → Request → Reply) : Network where
  reply := reply
  redirects := 9
  charsets _ := none
  requests := []

/-- Makes a request when some of the time limit is over, and follows it from reply to reply, so
many times at most: the answer, how much time is over then, and the network after it. -/
def follow (limit : Option Nat) : Nat → Nat → Request → Network →
    Except NetworkError Answer × Nat × Network
  | hops, start, request, net =>
    let after := { net with requests := request :: net.requests }
    match (net.reply net.requests request).await limit .timedOut start with
    | (.error cause, time) => (.error (.send request.address.render cause), time, after)
    | (.ok head, time) =>
      match request.next? head with
      | none => (.ok (head.answer request.address limit time), time, after)
      | some next =>
        match hops, next with
        | 0, _ => (.error (.redirect request.address.render), time, after)
        | _ + 1, .error e => (.error (.unusable e), time, after)
        | hops + 1, .ok next => follow limit hops time next after

/-- Sends a request: the answer, how long it took under the time limit, and the network after
it. -/
def send (net : Network) (limit : Option Nat) (request : Request) :
    Except NetworkError Answer × Nat × Network :=
  net.follow limit net.redirects 0 request

/-- How the bytes of a body are read: as its charset has it, or else as UTF-8. -/
def reader (net : Network) (charset : Option String) : Bytes → List Char :=
  (charset.bind net.charsets).getD Utf8.decodeLossy

end Network

end MeshProbe
