import Relay.Journal
import Relay.Routing

/-!
# Requests

Requests are counted under the template of their route, so that there are no more series than routes, and
under the bare path if there is no route. Scrapes of the metrics are not counted.
-/

namespace Relay

/-- A request. -/
structure Request where
  /-- The method. -/
  method : String
  /-- The path, without a query. -/
  path : String
  deriving DecidableEq, Repr

namespace Request

/-- What stands behind the scheme of an address and its `://`. -/
def behindScheme? : List Char → Option (List Char)
  | [] => none
  | ':' :: '/' :: '/' :: cs => some cs
  | '/' :: _ => none
  | _ :: cs => behindScheme? cs

/-- Whether a character ends the name of a host. -/
def endsHost (c : Char) : Bool := c == '/' || c == '?' || c == '#'

/-- The path in an address. One with a scheme has a path in any case, one that is a host has none. -/
def pathOf (address : List Char) : List Char :=
  let path := (·.takeWhile fun c => c != '?' && c != '#')
  match behindScheme? address with
  | some rest =>
    match path (rest.dropWhile (!endsHost ·)) with
    | [] => ['/']
    | cs => cs
  | none =>
    match address with
    | '/' :: _ | ['*'] => path address
    | _ => []

/-- The request for an address. -/
def ofAddress (method address : String) : Request := ⟨method, String.ofList (pathOf address.toList)⟩

/-- The route that a request goes to. -/
def route? (routes : List Route) (r : Request) : Option Route := Route.find? routes r.path

/-- Whether a request only reads. -/
def isRead (r : Request) : Bool := r.method == "GET" || r.method == "HEAD"

/-- The status of the answer. -/
def status (routes : List Route) (r : Request) : Nat :=
  match r.route? routes with
  | none => 404
  | some route => if r.isRead then route.status else 405

/-- The path that a request is counted under. -/
def label (routes : List Route) (r : Request) : String :=
  ((r.route? routes).map (·.template.text)).getD r.path

/-- The path of the metrics. -/
def scrapePath : String := "/metrics"

/-- What is counted for a request. -/
def events (routes : List Route) (r : Request) : List Event :=
  let path := r.label routes
  if path = scrapePath then []
  else
    let labels := [("method", r.method), ("path", path), ("status", toString (r.status routes))]
    [.counted ⟨"connect_http_requests_total", labels⟩ 1,
      .observed ⟨"connect_http_request_duration_seconds", labels⟩]

end Request

end Relay
