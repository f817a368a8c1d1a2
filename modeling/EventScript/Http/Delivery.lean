/-
Delivery with bounded retries. A request is sent again only when the receiver cannot have
acted on it: when no connection was made, or when it answered that it is too busy. How the
attempts end is a stream of replies, so the number of attempts, their waits and the last
reply are a function of that stream.
-/
import EventScript.Http.Request
import EventScript.Log

namespace EventScript.Http

/-- How one attempt ends. -/
inductive Reply where
  | status (code : Nat)
  /-- No connection was made. -/
  | refused
  /-- The connection closed without an answer. -/
  | dropped
  | timedOut
deriving DecidableEq, Repr

/-- The words that go with a status code. -/
def reason (code : Nat) : String :=
  let known : List (Nat × String) := [
    (100, "Continue"), (101, "Switching Protocols"), (102, "Processing"), (200, "OK"),
    (201, "Created"), (202, "Accepted"), (203, "Non Authoritative Information"),
    (204, "No Content"), (205, "Reset Content"), (206, "Partial Content"),
    (207, "Multi-Status"), (208, "Already Reported"), (226, "IM Used"),
    (300, "Multiple Choices"), (301, "Moved Permanently"), (302, "Found"),
    (303, "See Other"), (304, "Not Modified"), (305, "Use Proxy"),
    (307, "Temporary Redirect"), (308, "Permanent Redirect"), (400, "Bad Request"),
    (401, "Unauthorized"), (402, "Payment Required"), (403, "Forbidden"),
    (404, "Not Found"), (405, "Method Not Allowed"), (406, "Not Acceptable"),
    (407, "Proxy Authentication Required"), (408, "Request Timeout"), (409, "Conflict"),
    (410, "Gone"), (411, "Length Required"), (412, "Precondition Failed"),
    (413, "Payload Too Large"), (414, "URI Too Long"), (415, "Unsupported Media Type"),
    (416, "Range Not Satisfiable"), (417, "Expectation Failed"), (418, "I'm a teapot"),
    (421, "Misdirected Request"), (422, "Unprocessable Entity"), (423, "Locked"),
    (424, "Failed Dependency"), (426, "Upgrade Required"), (428, "Precondition Required"),
    (429, "Too Many Requests"), (431, "Request Header Fields Too Large"),
    (451, "Unavailable For Legal Reasons"), (500, "Internal Server Error"),
    (501, "Not Implemented"), (502, "Bad Gateway"), (503, "Service Unavailable"),
    (504, "Gateway Timeout"), (505, "HTTP Version Not Supported"),
    (506, "Variant Also Negotiates"), (507, "Insufficient Storage"), (508, "Loop Detected"),
    (510, "Not Extended"), (511, "Network Authentication Required")]
  (known.lookup code).getD "<unknown status code>"

/-- A status with its words. -/
def statusText (code : Nat) : String := toString code ++ " " ++ reason code

namespace Reply

/-- Whether the request may be sent again. -/
def mayRetry : Reply → Bool
  | status code => code == 429 || code == 503
  | refused => true
  | dropped => false
  | timedOut => false

/-- A reply without a status in words. -/
def failure (u : Url) : Reply → String
  | status code => statusText code
  | refused => "error sending request for url (" ++ u.write ++ "): connection refused"
  | dropped => "error sending request for url (" ++ u.write ++ "): connection closed"
  | timedOut => "error sending request for url (" ++ u.write ++ "): operation timed out"

end Reply

/-- How often to send again, and how long to wait before. -/
structure RetryPolicy where
  /-- The attempts allowed after the first. -/
  retries : Nat
  /-- The wait before the first of them, in milliseconds. -/
  backoff : Nat
deriving DecidableEq, Repr

/-- The wait before a retry, counted from one, in milliseconds: it doubles each time, up to
sixteen times and up to the largest unsigned 64-bit word. -/
def RetryPolicy.wait (p : RetryPolicy) (retry : Nat) : Nat :=
  min (p.backoff <<< min (retry - 1) 16) 0xFFFFFFFFFFFFFFFF

/-- The replies of a delivery: those after which it went on, in order, and the last. -/
structure Delivery where
  retried : List Reply
  last : Reply
deriving DecidableEq, Repr

namespace Delivery

/-- The delivery whose attempts end as the stream says, with `left` more attempts allowed
after the one numbered `attempt`. -/
def run (replies : Nat → Reply) : (left attempt : Nat) → Delivery
  | 0, attempt => ⟨[], replies attempt⟩
  | left + 1, attempt =>
    let reply := replies attempt
    if reply.mayRetry then
      let rest := run replies left (attempt + 1)
      ⟨reply :: rest.retried, rest.last⟩
    else ⟨[], reply⟩

/-- The number of attempts made. -/
def attempts (d : Delivery) : Nat := d.retried.length + 1

/-- The waits between the attempts, in milliseconds. -/
def waits (d : Delivery) (p : RetryPolicy) : List Nat :=
  (List.range d.retried.length).map fun i => p.wait (i + 1)

-- ==================================================================== log

/-- A number of thousandths as whole units and a fraction without zeros at its end. -/
private def thousandths (n : Nat) : String :=
  let digits := (toString (1000 + n % 1000)).toList.tail
  let kept := (digits.reverse.dropWhile (· == '0')).reverse
  toString (n / 1000) ++ (if kept.isEmpty then "" else "." ++ String.ofList kept)

/-- A duration in milliseconds as messages show it. -/
def durationText (ms : Nat) : String :=
  if ms = 0 then "0ns"
  else if ms < 1000 then toString ms ++ "ms"
  else thousandths ms ++ "s"

/-- What is logged about the retry numbered `retry` after a reply. -/
def retryLog (p : RetryPolicy) (u : Url) (retry : Nat) (reply : Reply) : List Log.Record :=
  let after := match reply with
    | .status code => "HTTP " ++ statusText code ++ " from " ++ u.write
    | _ => "HTTP request failed: " ++ reply.failure u
  [Log.warn (after ++ ", retry " ++ toString retry ++ " of " ++ toString p.retries ++ " in "
      ++ durationText (p.wait retry)),
    Log.debug ("retrying request, attempt " ++ toString (retry + 1))]

/-- What is logged about all retries, the first of them numbered `retry`. -/
def logFrom (p : RetryPolicy) (u : Url) (retry : Nat) : List Reply → List Log.Record
  | [] => []
  | reply :: rest => retryLog p u retry reply ++ logFrom p u (retry + 1) rest

end Delivery

/-- The network: how the attempts end, counted from the first ever made, and the requests
attempted so far. -/
structure Network where
  replies : Nat → Reply
  sent : List Request := []

namespace Network

/-- The network without any connection. -/
def unreachable : Network where
  replies _ := .refused

/-- Delivers a request: what came of it, and the network afterwards. -/
def deliver (n : Network) (p : RetryPolicy) (r : Request) : Delivery × Network :=
  let d := Delivery.run n.replies p.retries n.sent.length
  (d, { n with sent := n.sent ++ List.replicate d.attempts r })

end Network
end EventScript.Http
