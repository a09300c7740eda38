import Relay.Settings.Client
import Relay.Subscription.Pattern

/-!
# Subscriptions

A pipeline takes its records from topics of its source, as a member of a consumer group. A topic is given by
its name, or by a pattern if the text starts with a caret. What a consumer is set up with has to be
readable before it connects to anything.
-/

namespace Relay

/-- Whether a character is blank in a property of a client. -/
def Properties.isBlank (c : Char) : Bool := c == ' ' || ('\t' ≤ c && c ≤ '\r')

/-- The text of a property, to which blanks before it do not belong. -/
def Properties.unindent (text : String) : List Char := text.toList.dropWhile isBlank

/-- Where a consumer begins that has committed nothing. -/
inductive OffsetReset where
  /-- At the first record that there is. -/
  | earliest
  /-- Behind the last record. -/
  | latest
  /-- Nowhere: there has to be a commit. -/
  | refuse
  deriving DecidableEq, Repr, Inhabited

namespace OffsetReset

/-- The names of a position. -/
def names : OffsetReset → List String
  | .earliest => ["smallest", "earliest", "beginning"]
  | .latest => ["largest", "latest", "end"]
  | .refuse => ["error"]

/-- The position of a name, in upper or lower case. No name at all stands for the last record. -/
def ofText? (text : String) : Option OffsetReset :=
  match Properties.unindent text with
  | [] => some .latest
  | cs => [earliest, latest, refuse].find? fun r => r.names.contains (String.ofList (cs.map Char.toLower))

end OffsetReset

/-- The topics that a consumer subscribes to. -/
inductive TopicSelection where
  /-- The topic of a name. -/
  | named (name : String)
  /-- The topics whose names a pattern matches. -/
  | matching (pattern : String)
  deriving DecidableEq, Repr, Inhabited

/-- The topics of a text, which must not be empty. -/
def TopicSelection.ofText? (text : String) : Option TopicSelection :=
  match text.toList with
  | [] => none
  | c :: _ =>
    if c != '^' then some (.named text)
    else if Pattern.isWellFormed (Bytes.ofText text) then some (.matching text)
    else none

/-- A member of a consumer group. -/
structure GroupMember where
  /-- The group. -/
  group : String
  /-- Where it begins that has committed nothing. -/
  reset : OffsetReset
  deriving DecidableEq, Repr, Inhabited

/-- The member of a group that client settings describe. A group has a name without null characters. -/
def GroupMember.ofSettings? (c : ClientSettings) (group : String) : Option GroupMember :=
  match Properties.unindent group with
  | [] => none
  | cs => if cs.contains '\x00' then none else (OffsetReset.ofText? c.offsetReset).map (⟨String.ofList cs, ·⟩)

end Relay
