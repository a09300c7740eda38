import Relay.Bytes

/-!
# Routes

A route has a template for the paths that it takes. The templates of all routes are walked together, from
the left, as a tree of which a node holds what is left of the templates that agree so far. Literal bytes go
before a parameter and a parameter before the whole remainder: what is more general is tried only where the
walk missed. Templates may agree on a character in part, so a node may stand between two of its bytes.

A slash at the end of a path counts. Where a walk ends one slash before or behind a route, or is left with a
lone slash, the path belongs to no route, however general the other ones are.
-/

namespace Relay

/-- A piece of a path template. -/
inductive TemplatePiece where
  /-- A byte that stands for itself. -/
  | literal (b : UInt8)
  /-- The bytes up to the next slash. -/
  | parameter
  /-- All bytes that are left. -/
  | remainder
  deriving DecidableEq, Repr

/-- A path template. -/
structure Template where
  /-- The text of the template. -/
  text : String
  /-- Its pieces. -/
  pieces : List TemplatePiece
  deriving DecidableEq, Repr

/-- The byte between the segments of a path. -/
def slash : UInt8 := Bytes.code '/'

namespace Template

/-- The pieces of the bytes of a template. A colon starts a parameter and a star the remainder; their name
runs up to the next slash. -/
def ofBytes (inName : Bool) : Bytes → List TemplatePiece
  | [] => []
  | b :: bs =>
    if b = slash then .literal slash :: ofBytes false bs
    else if inName then ofBytes true bs
    else if b = Bytes.code ':' then .parameter :: ofBytes true bs
    else if b = Bytes.code '*' then .remainder :: ofBytes true bs
    else .literal b :: ofBytes false bs

/-- The template of a text. -/
def ofText (text : String) : Template := ⟨text, ofBytes false (Bytes.ofText text)⟩

end Template

/-- A route, which answers requests to read. -/
structure Route where
  /-- The template of its paths. -/
  template : Template
  /-- The status of its answers. -/
  status : Nat
  deriving DecidableEq, Repr

namespace Routing

/-- What is left of the template of a route. -/
structure Branch where
  /-- The pieces that are left. -/
  pieces : List TemplatePiece
  /-- The route. -/
  route : Route
  deriving DecidableEq, Repr

/-- What is left of templates that agree so far. -/
abbrev Node := List Branch

/-- How a walk ends. -/
inductive Verdict where
  /-- A route takes the path. -/
  | taken (route : Route)
  /-- There is no route here; a more general one may take the path. -/
  | missed
  /-- No route takes the path. -/
  | refused
  deriving DecidableEq, Repr

/-- The literal bytes that pieces start with. -/
def literals : List TemplatePiece → Bytes
  | .literal b :: ps => b :: literals ps
  | _ => []

/-- What two byte strings start with. -/
def shared : Bytes → Bytes → Bytes
  | b :: bs, c :: cs => if b = c then b :: shared bs cs else []
  | _, _ => []

/-- The literal bytes that all branches of a node start with. -/
def stem : Node → Bytes
  | [] => []
  | b :: bs => bs.foldl (fun stem b => shared stem (literals b.pieces)) (literals b.pieces)

/-- The branches of a node behind their first pieces. -/
def Node.drop (n : Nat) (node : Node) : Node := node.map fun b => { b with pieces := b.pieces.drop n }

/-- The route that ends at a node. -/
def Node.ending? (node : Node) : Option Route := (node.find? (·.pieces.isEmpty)).map (·.route)

/-- The branches that go on with a byte. -/
def Node.literal (b : UInt8) (node : Node) : Node :=
  node.filter fun branch => branch.pieces.head? == some (.literal b)

/-- The branches that go on with a parameter. -/
def Node.parameter (node : Node) : Node := node.filter fun b => b.pieces.head? == some .parameter

/-- The route that takes all bytes that are left at a node. -/
def Node.remainder? (node : Node) : Option Route :=
  (node.find? fun b => b.pieces.head? == some .remainder).map (·.route)

/-- The branches that go on. -/
def Node.unfinished (node : Node) : Node := node.filter fun b => !b.pieces.isEmpty

/-- A walk that cannot go on with the rest of a path. -/
def miss (rest : Bytes) : Verdict := if rest = [slash] then .refused else .missed

/-- A walk that skips no more than a path has got shorter. -/
theorem length_lt_of_drop_eq {path rest left : Bytes} {d : UInt8} {n : Nat}
    (h : path.drop (n + 1) = d :: rest) (hl : left.length ≤ (d :: rest).length) :
    left.length < path.length := by
  have := congrArg List.length h
  simp only [List.length_drop, List.length_cons] at this hl
  omega

/-- Walk from a node along the rest of a path. A parameter takes the bytes up to the next slash, at least one
at the end of a path. -/
def walk (node : Node) (path : Bytes) : Verdict :=
  match stem node with
  | [] => miss path
  | c :: cs =>
    let after := node.drop (cs.length + 1)
    if (c :: cs).isPrefixOf path then
      match _h : path.drop (cs.length + 1) with
      | [] => after.ending?.elim (miss path) .taken
      | d :: rest =>
        let literal := after.literal d
        match if literal.isEmpty then .missed else walk literal (d :: rest) with
        | .missed =>
          match after.remainder?, after.parameter.drop 1 with
          | some route, _ => .taken route
          | none, [] => miss (d :: rest)
          | none, branches@(_ :: _) =>
            let left := (d :: rest).dropWhile (· != slash)
            match left.isEmpty, branches.ending? with
            | true, some route => .taken route
            | _, _ => walk branches.unfinished left
        | verdict => verdict
    else if path ++ [slash] = c :: cs && after.ending?.isSome then .refused
    else miss path
termination_by path.length
decreasing_by
  · exact length_lt_of_drop_eq _h (Nat.le_refl _)
  · exact length_lt_of_drop_eq _h (List.dropWhile_sublist _).length_le

end Routing

/-- The route that takes a path. -/
def Route.find? (routes : List Route) (path : String) : Option Route :=
  match Routing.walk (routes.map fun r => ⟨r.template.pieces, r⟩) (Bytes.ofText path) with
  | .taken route => some route
  | _ => none

end Relay
