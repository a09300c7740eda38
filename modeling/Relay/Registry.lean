import Relay.Sharding
import Relay.Subscriber.Codec

/-!
# The registry of subscribers

The registry lists the subscribers of each pipeline in registration order, and the cluster of each of
its tenants. It is a JSON text whose fields may all be left out.
-/

namespace Relay

open Json

/-- The cluster that a tenant's checkpoint topics live on. -/
structure Source where
  /-- The addresses to connect to first. -/
  servers : String
  deriving DecidableEq, Repr, Inhabited

/-- What is registered for one pipeline. -/
structure Pipeline where
  /-- The subscribers, in registration order. -/
  subscribers : List Subscriber
  /-- The clusters of the tenants. -/
  tenants : SortedMap String Source
  deriving Repr, Inhabited

/-- What is registered, by pipeline. -/
structure Registry where
  /-- The pipelines. -/
  pipelines : SortedMap String Pipeline
  deriving Repr, Inhabited

/-- What may be asked of a registry, whatever keeps it. -/
structure Directory where
  /-- The subscribers of a pipeline. The order decides which of several takes a record. -/
  subscribers : String → List Subscriber
  /-- The subscribers of every pipeline that the instance is responsible for. -/
  all : SortedMap String (List Subscriber)

/-- A directory for one of several instances, which is responsible for the subscribers of its shards alone.
Matching still sees every subscriber, because the instances share the source. -/
def Directory.sharded (d : Directory) (c : Coordinator) : Directory where
  subscribers := d.subscribers
  all := d.all.map fun _ subscribers => subscribers.filter fun s => c.owns s.id

namespace Registry

/-- The registry without pipelines. -/
def empty : Registry := ⟨.empty⟩

/-- The subscribers of a pipeline. The order decides which of several takes a record. -/
def subscribers (r : Registry) (pipeline : String) : List Subscriber :=
  ((r.pipelines.get? pipeline).map (·.subscribers)).getD []

/-- The subscribers of every pipeline. -/
def all (r : Registry) : SortedMap String (List Subscriber) := r.pipelines.map fun _ p => p.subscribers

/-- The cluster of a tenant. -/
def source? (r : Registry) (pipeline tenant : String) : Option Source :=
  (r.pipelines.get? pipeline).bind fun p => p.tenants.get? tenant

/-- What may be asked of the registry. -/
def directory (r : Registry) : Directory := ⟨r.subscribers, r.all⟩

/-- The subscribers of every pipeline that an instance is responsible for. Every pipeline is kept. -/
def owned (r : Registry) (c : Coordinator) : SortedMap String (List Subscriber) :=
  (r.directory.sharded c).all

/-! ## Reading -/

/-- The source of a tree. -/
def decodeSource? : Nat → Tree → Option Source
  | 0, _ => none
  | _ + 1, t => do
    let [servers] ← t.fields? ["bootstrap_servers"] | none
    return ⟨← Tree.required Tree.text? servers⟩

/-- The pipeline of a tree. -/
def decodePipeline? : Nat → Tree → Option Pipeline
  | 0, _ => none
  | levels + 1, t => do
    let [subscribers, tenants] ← t.fields? ["subscribers", "tenants"] | none
    let subscribers ← Tree.orElse [] (Tree.items? Subscriber.decode? levels) subscribers
    let tenants ← Tree.orElse .empty (Tree.entries? decodeSource? levels) tenants
    return ⟨subscribers, tenants⟩

/-- The registry of a tree. -/
def decode? : Nat → Tree → Option Registry
  | 0, _ => none
  | levels + 1, t => do
    let [pipelines] ← t.fields? ["pipelines"] | none
    let pipelines ← Tree.orElse .empty (Tree.entries? decodePipeline? levels) pipelines
    return ⟨pipelines⟩

/-- The registry of a JSON text. -/
def ofText? (s : String) : Option Registry := (Tree.ofText? s).bind (decode? deepest)

/-- Why a registry file gives no registry. -/
inductive LoadError where
  /-- The file cannot be read as text. -/
  | unreadable (path : String)
  /-- The text is no registry. -/
  | malformed (path : String)
  deriving DecidableEq, Repr

/-- The wording of a load error. -/
def LoadError.message : LoadError → String
  | .unreadable path => "Failed to read subscriber registry " ++ path
  | .malformed path => "Failed to parse subscriber registry " ++ path

/-- The registry of a file with the given contents, if the file could be read. -/
def load (path : String) (contents : Option Bytes) : Except LoadError Registry :=
  match contents.bind Bytes.toText? with
  | none => .error (.unreadable path)
  | some text =>
    match ofText? text with
    | none => .error (.malformed path)
    | some r => .ok r

end Registry

end Relay
