import InferenceRouter.Accounting.Basic

/-! Forwarding one request to one backend. The HTTP client is the environment:
forwarding is a function of what the client delivers. -/
namespace InferenceRouter

/-- What `iter` yields: names in lowercase, values as bytes. The map keeps the values
of a name in order, but the order of its names is arbitrary: nothing is read of it but
the values of a name. -/
abbrev HeaderMap := List (String × List UInt8)

namespace HeaderMap

/-- `get_all`. -/
def values (self : HeaderMap) (name : String) : List (List UInt8) :=
  self.filterMap fun header => if header.1 = name then some header.2 else none

/-- The first value of a name. -/
def get (self : HeaderMap) (name : String) : Option (List UInt8) := (self.values name).head?

end HeaderMap

/-- Hop-by-hop headers, `host`, and the header the router sets itself. -/
def hopByHop : List String :=
  ["connection", "keep-alive", "proxy-authenticate", "proxy-authorization", "te", "trailer",
    "transfer-encoding", "upgrade", "host", "x-router-backend"]

def isHopByHop (name : String) : Bool := hopByHop.contains name || name = "content-length"

/-- Copy end-to-end headers only. -/
def filterHeaders (headers : HeaderMap) : HeaderMap :=
  headers.filter fun header => !isHopByHop header.1

/-- `HeaderValue::to_str`: visible ASCII and tabs only. -/
def headerText (value : List UInt8) : Option (List Char) :=
  if value.all fun byte => (32 ≤ byte && byte < 127) || byte = 9 then
    some (value.map fun byte => Char.ofNat byte.toNat)
  else none

def isEventStream (headers : HeaderMap) : Bool :=
  match (headers.get "content-type").bind headerText with
  | some text => "text/event-stream".toList.isPrefixOf (text.dropWhile Char.isWhitespace)
  | none => false

inductive ForwardedBody where
  | full (bytes : List UInt8)
  | stream

structure Forwarded where
  status : StatusCode
  headers : HeaderMap
  body : ForwardedBody
  /-- When the backend's response headers arrived. -/
  headersAt : Nat

/-- Why forwarding failed. -/
inductive ForwardError where
  /-- No response headers. -/
  | connect
  /-- The headers arrived but reading the buffered body failed. -/
  | body (headersAt : Nat)
  deriving DecidableEq

def ForwardError.status (_ : ForwardError) : StatusCode := ⟨502, by decide⟩

/-- What the HTTP client delivers for a request: no response, or a response whose
buffered body was read or not. The client follows redirects, so the response is that of
the last server it was sent to. The body of an event stream is not read here. -/
inductive Upstream where
  | failed
  | answered (status : StatusCode) (headers : HeaderMap) (headersAt : Nat)
      (body : Option (List UInt8))

def forwardRequest : Upstream → Except ForwardError Forwarded
  | .failed => .error .connect
  | .answered status headers headersAt body =>
      let headers := filterHeaders headers
      if isEventStream headers then .ok { status, headers, headersAt, body := .stream }
      else
        match body with
        | some bytes => .ok { status, headers, headersAt, body := .full bytes }
        | none => .error (.body headersAt)

end InferenceRouter
