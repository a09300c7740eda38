import Relay.Json.Value

/-!
# JSON pointers

A pointer is empty and addresses the whole value, or it is a slash followed by tokens with slashes
between them. In a token `~1` stands for a slash and `~0` for a tilde. A token addresses the member
of an object with that key, or the item of an array at that index, which is written without sign and
without leading zeros.

Removal addresses the parent by the pointer before its last slash. The index in the last token is read
more freely: a plus sign and leading zeros are accepted.
-/

namespace Relay.Json

namespace Pointer

/-- Each `~1` becomes a slash. -/
def unescapeSlash : List Char → List Char
  | '~' :: '1' :: r => '/' :: unescapeSlash r
  | c :: r => c :: unescapeSlash r
  | [] => []

/-- Each `~0` becomes a tilde. -/
def unescapeTilde : List Char → List Char
  | '~' :: '0' :: r => '~' :: unescapeTilde r
  | c :: r => c :: unescapeTilde r
  | [] => []

/-- The key that a token stands for. -/
def key (token : List Char) : String := String.ofList (unescapeTilde (unescapeSlash token))

/-- The parts of a text between its slashes. -/
def split : List Char → List (List Char)
  | [] => [[]]
  | c :: r =>
    if c = '/' then [] :: split r
    else
      match split r with
      | part :: parts => (c :: part) :: parts
      | [] => [[c]]

/-- The keys along a pointer; `none` if the text is no pointer. -/
def keys? : List Char → Option (List String)
  | [] => some []
  | c :: r => if c = '/' then some ((split r).map key) else none

/-- The number that a list of digits stands for, if there is a digit and nothing else. -/
def natural? (cs : List Char) : Option Nat :=
  if cs.isEmpty || !cs.all Char.isDigit then none
  else some (cs.foldl (fun n c => 10 * n + (c.toNat - '0'.toNat)) 0)

/-- The array index that a key stands for: digits without leading zeros. -/
def index? (k : String) : Option Nat :=
  match k.toList with
  | ['0'] => some 0
  | '0' :: _ => none
  | cs => natural? cs

/-- The array index that a key stands for when read freely: a plus sign and leading zeros are
accepted. -/
def looseIndex? (k : String) : Option Nat :=
  match k.toList with
  | '+' :: cs => natural? cs
  | cs => natural? cs

/-- The text before the last slash and the text after it, if there is a slash. -/
def splitLast (cs : List Char) : Option (List Char × List Char) :=
  let last := (cs.reverse.takeWhile (· ≠ '/')).reverse
  match cs.reverse.dropWhile (· ≠ '/') with
  | [] => none
  | _ :: before => some (before.reverse, last)

end Pointer

namespace Value

/-- The child of a value at a key. -/
def child? (v : Value) (k : String) : Option Value :=
  match v with
  | .object ms => SortedMap.find? k ms
  | .list items => (Pointer.index? k).bind fun i => items[i]?
  | _ => none

/-- The value at the end of a path of keys. -/
def atPath? (v : Value) : List String → Option Value
  | [] => some v
  | k :: ks => (v.child? k).bind fun c => c.atPath? ks

/-- The value that a pointer addresses. -/
def pointer? (v : Value) (p : String) : Option Value :=
  (Pointer.keys? p.toList).bind v.atPath?

/-- The list of members without a key. -/
def eraseKey (k : String) : List (String × Value) → List (String × Value)
  | [] => []
  | (k', v) :: ms => if compare k k' = .eq then ms else (k', v) :: eraseKey k ms

/-- Take a child out of a value: the child, and the value without it. -/
def takeChild (k : String) : Value → Option (Value × Value)
  | .object ms => (SortedMap.find? k ms).map fun v => (v, .object (eraseKey k ms))
  | .list items =>
    (Pointer.looseIndex? k).bind fun i => (items[i]?).map fun v => (v, .list (items.eraseIdx i))
  | _ => none

/-- Take a part out of the value at the end of a path: the part, and the whole value without it. -/
def takeAtPath (take : Value → Option (Value × Value)) : List String → Value → Option (Value × Value)
  | [], v => take v
  | k :: ks, .object ms =>
    (SortedMap.find? k ms).bind fun c =>
      (takeAtPath take ks c).map fun (x, c) => (x, .object (SortedMap.place k c ms))
  | k :: ks, .list items =>
    (Pointer.index? k).bind fun i => (items[i]?).bind fun c =>
      (takeAtPath take ks c).map fun (x, c) => (x, .list (items.set i c))
  | _ :: _, _ => none

/-- Remove what a pointer addresses: the removed part if there is one, and the value afterwards. -/
def removePointer (v : Value) (p : String) : Option Value × Value :=
  let taken :=
    (Pointer.splitLast p.toList).bind fun (parent, last) =>
      (Pointer.keys? parent).bind fun ks => takeAtPath (takeChild (Pointer.key last)) ks v
  match taken with
  | some (x, v) => (some x, v)
  | none => (none, v)

/-- The value without what the pointer addresses. -/
def without (v : Value) (p : String) : Value := (v.removePointer p).2

end Value

end Relay.Json
