import Relay.Bytes

/-!
# Patterns

A pattern is an extended regular expression over bytes. `Pattern.isWellFormed` tells whether a text is one:
it reads the text from left to right, byte by byte, and keeps what the rest depends on. That is the groups
that are open, those that a back reference may name, whether something stands before that a repetition can
repeat, and the bracket or interval that has begun.

A repetition needs something to repeat, which an anchor is not. Branches and groups may be empty, and a
closing parenthesis without an opening one stands for itself.
-/

namespace Relay.Pattern

/-- What a bracket or an interval is after one more byte. -/
inductive Progress (α : Type) where
  /-- It goes on. -/
  | on (state : α)
  /-- It has ended. -/
  | closed

/-! ## Brackets -/

/-- The kinds of elements that a bracket gives by name. -/
inductive Naming where
  /-- A character, as in `[.a.]`. -/
  | symbol
  /-- The characters that are sorted like another one, as in `[=a=]`. -/
  | equivalents
  /-- A class of characters, as in `[:alpha:]`. -/
  | characters
  deriving DecidableEq, Repr

/-- The byte that stands around a name. -/
def Naming.delimiter : Naming → UInt8
  | .symbol => Bytes.code '.'
  | .equivalents => Bytes.code '='
  | .characters => Bytes.code ':'

/-- The kind of the name that a byte begins. -/
def Naming.ofDelimiter? (b : UInt8) : Option Naming :=
  [.symbol, .equivalents, .characters].find? fun n => n.delimiter == b

/-- The classes of characters. -/
def classes : List String :=
  ["alnum", "alpha", "blank", "cntrl", "digit", "graph", "lower", "print", "punct", "space", "upper",
    "xdigit"]

/-- How far a bracket was read. -/
inductive Bracket where
  /-- It was opened, and a caret may follow. -/
  | opened
  /-- Its first element follows, which may be any byte. -/
  | first
  /-- An element was read, with the byte that may start a range. -/
  | element (start : Option UInt8)
  /-- The start of a range was read, and its hyphen. -/
  | range (start : UInt8)
  /-- A hyphen was read that is an element and has to be the last one. -/
  | hyphen
  /-- An opening bracket was read that may begin a name, as the end of a range or not. -/
  | nested (start : Option UInt8)
  /-- A name was read up to here, as the end of a range or not. -/
  | name (kind : Naming) (text : Bytes) (start : Option UInt8)
  deriving DecidableEq, Repr

namespace Bracket

/-- Take a byte as an element or as the end of a range, which must not lie before its start. -/
def accept (start : Option UInt8) (b : UInt8) : Option Bracket :=
  match start with
  | none => some (.element (some b))
  | some low => if low ≤ b then some (.element none) else none

/-- Read the first byte of an element. -/
def begin (start : Option UInt8) (b : UInt8) : Option (Progress Bracket) :=
  if b = Bytes.code '[' then some (.on (.nested start)) else (accept start b).map .on

/-- Read a byte behind an element. -/
def follow (start : Option UInt8) (b : UInt8) : Option (Progress Bracket) :=
  if b = Bytes.code ']' then some .closed
  else if b = Bytes.code '-' then some (.on (start.elim .hyphen .range))
  else begin none b

/-- Take a name as an element or as the end of a range, which only a character can be. -/
def acceptName (kind : Naming) (text : Bytes) (start : Option UInt8) : Option Bracket :=
  match kind, text, start with
  | .symbol, [b], _ => accept start b
  | .equivalents, [_], none => some (.element none)
  | .characters, _, none =>
    if classes.any fun c => Bytes.ofText c == text then some (.element none) else none
  | _, _, _ => none

/-- Read a byte of a bracket. -/
def step : Bracket → UInt8 → Option (Progress Bracket)
  | .opened, b => if b = Bytes.code '^' then some (.on .first) else begin none b
  | .first, b => begin none b
  | .element start, b => follow start b
  | .range start, b => if b = Bytes.code ']' then some .closed else begin (some start) b
  | .hyphen, b => if b = Bytes.code ']' then some .closed else none
  | .nested start, b =>
    match Naming.ofDelimiter? b, start with
    | some kind, _ => some (.on (.name kind [] start))
    | none, none => follow (some (Bytes.code '[')) b
    | none, some low => if low ≤ Bytes.code '[' then follow none b else none
  | .name kind text start, b =>
    if b = Bytes.code ']' && text.getLast? == some kind.delimiter then
      (acceptName kind text.dropLast start).map .on
    else some (.on (.name kind (text ++ [b]) start))

end Bracket

/-! ## Intervals -/

/-- How far the numbers of an interval were read. -/
structure Interval where
  /-- The number before the comma, if the comma was read. -/
  least : Option Nat
  /-- The digits of the current number. -/
  number : Option Nat
  /-- Whether the last byte was a backslash. -/
  escaped : Bool
  deriving DecidableEq, Repr

namespace Interval

/-- The greatest number of repetitions. -/
def limit : Nat := 32767

/-- An interval of which nothing was read. -/
def empty : Interval := ⟨none, none, false⟩

/-- Whether an interval may end: a single number has to be there, and two have to be in order. -/
def isComplete (i : Interval) : Bool :=
  match i.least, i.number with
  | none, none => false
  | none, some n => n ≤ limit
  | some least, none => least ≤ limit
  | some least, some n => least ≤ n && n ≤ limit

/-- Read a byte of an interval. Behind a backslash a comma and a zero are what they are without it. -/
def step (i : Interval) (b : UInt8) : Option (Progress Interval) :=
  if b = Bytes.code ',' then
    if i.least.isNone then some (.on ⟨some (i.number.getD 0), none, false⟩) else none
  else if b = Bytes.code '0' || (!i.escaped && Bytes.code '1' ≤ b && b ≤ Bytes.code '9') then
    let digit := b.toNat - (Bytes.code '0').toNat
    some (.on { i with number := some (10 * i.number.getD 0 + digit), escaped := false })
  else if i.escaped then none
  else if b = Bytes.code '\\' then some (.on { i with escaped := true })
  else if b = Bytes.code '\x7d' && i.isComplete then some .closed
  else none

end Interval

/-! ## Patterns -/

/-- A group that is open, or the pattern itself. -/
structure Group where
  /-- Its number. -/
  number : Nat
  /-- The groups that were complete before it. -/
  before : List Nat
  /-- The groups that are complete in its earlier branches. -/
  branches : List Nat
  deriving DecidableEq, Repr

/-- What was begun last. -/
inductive Part where
  /-- Nothing that has to end. -/
  | text
  /-- A backslash was read. -/
  | escape
  /-- A bracket is open. -/
  | bracket (b : Bracket)
  /-- An interval is open. -/
  | interval (i : Interval)
  deriving DecidableEq, Repr

/-- How far a pattern was read. -/
structure Reading where
  /-- The innermost open group. -/
  group : Group
  /-- The open groups around it, from the inside to the outside. -/
  outer : List Group
  /-- The number of groups so far. -/
  count : Nat
  /-- The groups that a back reference may name. -/
  known : List Nat
  /-- Whether a repetition may follow. -/
  repeatable : Bool
  /-- What was begun last. -/
  part : Part
  deriving DecidableEq, Repr

namespace Reading

/-- A pattern of which nothing was read. -/
def start : Reading := ⟨⟨0, [], []⟩, [], 0, [], false, .text⟩

/-- Something ended that can be repeated. -/
def atom (r : Reading) : Reading := { r with repeatable := true, part := .text }

/-- An anchor ended. -/
def anchor (r : Reading) : Reading := { r with repeatable := false, part := .text }

/-- Another branch begins. It cannot name the groups of the branches before. -/
def branch (r : Reading) : Reading :=
  { r with
    group := { r.group with branches := r.known ++ r.group.branches }
    known := r.group.before
    repeatable := false }

/-- A group begins. -/
def enter (r : Reading) : Reading :=
  { r with
    group := ⟨r.count + 1, r.known, []⟩
    outer := r.group :: r.outer
    count := r.count + 1
    repeatable := false }

/-- A group ends, if one is open. -/
def leave (r : Reading) : Reading :=
  match r.outer with
  | [] => r.atom
  | group :: outer =>
    { r with group, outer, known := r.group.number :: (r.known ++ r.group.branches) }.atom

/-- Read a byte behind a backslash. -/
def escaped (r : Reading) (b : UInt8) : Option Reading :=
  if Bytes.code '1' ≤ b && b ≤ Bytes.code '9' then
    if r.known.contains (b.toNat - (Bytes.code '0').toNat) then some r.atom else none
  else if (Bytes.ofText "<>bB`'").contains b then some r.anchor
  else some r.atom

/-- Read a byte outside brackets and intervals. -/
def plain (r : Reading) (b : UInt8) : Option Reading :=
  if b = Bytes.code '\\' then some { r with part := .escape }
  else if b = Bytes.code '[' then some { r with part := .bracket .opened }
  else if b = Bytes.code '\x7b' then
    if r.repeatable then some { r with part := .interval .empty } else none
  else if (Bytes.ofText "*+?").contains b then if r.repeatable then some r else none
  else if (Bytes.ofText "^$").contains b then some r.anchor
  else if b = Bytes.code '|' then some r.branch
  else if b = Bytes.code '(' then some r.enter
  else if b = Bytes.code ')' then some r.leave
  else some r.atom

/-- Read a byte. -/
def step (r : Reading) (b : UInt8) : Option Reading :=
  match r.part with
  | .text => r.plain b
  | .escape => r.escaped b
  | .bracket bracket =>
    match bracket.step b with
    | none => none
    | some (.on bracket) => some { r with part := .bracket bracket }
    | some .closed => some r.atom
  | .interval interval =>
    match interval.step b with
    | none => none
    | some (.on interval) => some { r with part := .interval interval }
    | some .closed => some r.atom

/-- Whether a pattern may end here: nothing is open. -/
def isComplete (r : Reading) : Bool := r.part == .text && r.outer.isEmpty

end Reading

/-- Whether a text is a pattern. -/
def isWellFormed (text : Bytes) : Bool := (text.foldlM Reading.step .start).any Reading.isComplete

end Relay.Pattern
