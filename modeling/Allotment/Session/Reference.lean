set_option autoImplicit false

/-!
# References

A step of a session names what it works with. Where an arena, a heap or an
account is wanted, the text may also point into something else: to the arena,
the heap or the account of a context, to the arena of the innermost running
scope, or to the account of an arena or of a heap. Every text is a reference of
each kind; one without a known mark is a plain name. What follows a mark is a
plain name whatever it looks like, so marks do not pile up.
-/

namespace Allotment.Session

/-- What stands behind a mark at the start of a text. -/
def after? (mark text : String) : Option String :=
  if mark.toList.isPrefixOf text.toList then
    some (String.ofList (text.toList.drop mark.length))
  else none

/-- How a step points to an arena. -/
inductive ArenaRef where
  | named (name : String)
  | ofContext (name : String)
  | innermost
  deriving DecidableEq

namespace ArenaRef

def ofText (text : String) : ArenaRef :=
  if text = "@" then innermost
  else match after? "ctx:" text with
    | some name => ofContext name
    | none => named text

def text : ArenaRef → String
  | named name => name
  | ofContext name => "ctx:" ++ name
  | innermost => "@"

end ArenaRef

/-- How a step points to a heap. -/
inductive HeapRef where
  | named (name : String)
  | ofContext (name : String)
  deriving DecidableEq

namespace HeapRef

def ofText (text : String) : HeapRef :=
  match after? "ctx:" text with
  | some name => ofContext name
  | none => named text

def text : HeapRef → String
  | named name => name
  | ofContext name => "ctx:" ++ name

end HeapRef

/-- How a step points to an account. -/
inductive AccountRef where
  | named (name : String)
  | ofContext (name : String)
  | ofArena (name : String)
  | ofInnermost
  | ofHeap (name : String)
  deriving DecidableEq

namespace AccountRef

def ofText (text : String) : AccountRef :=
  match after? "arena:" text with
  | some arena => if arena = "@" then ofInnermost else ofArena arena
  | none => match after? "heap:" text with
    | some heap => ofHeap heap
    | none => match after? "ctx:" text with
      | some name => ofContext name
      | none => named text

def text : AccountRef → String
  | named name => name
  | ofContext name => "ctx:" ++ name
  | ofArena name => "arena:" ++ name
  | ofInnermost => "arena:@"
  | ofHeap name => "heap:" ++ name

end AccountRef

end Allotment.Session
