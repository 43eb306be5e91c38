set_option autoImplicit false

/-!
# Shapes

Values are shown to a developer as names with enclosed items. A shape is such
a text before its layout is chosen: on one line, or with one item a line,
indented by four spaces and each followed by a comma. An empty enclosure stays
closed in both layouts.
-/

namespace Allotment.Text

/-- The brackets around the items of a shape. -/
inductive Enclosure where
  | braces
  | parentheses
  | brackets
  deriving DecidableEq

/-- A structured text whose layout is still open. -/
inductive Shape where
  /-- A text that is written as it is. -/
  | atom (text : String)
  /-- An item under a label. -/
  | labelled (label : String) (item : Shape)
  /-- A name and its enclosed items. -/
  | group (name : String) (enclosure : Enclosure) (items : List Shape)

namespace Enclosure

/-- What opens an enclosure, given what separates it from its first item. -/
def opening : Enclosure → String
  | braces => " \x7b"
  | parentheses => "("
  | brackets => "["

def closing : Enclosure → String
  | braces => "\x7d"
  | parentheses => ")"
  | brackets => "]"

/-- The space inside an enclosure that is written on one line. -/
def padding : Enclosure → String
  | braces => " "
  | parentheses => ""
  | brackets => ""

end Enclosure

namespace Shape

def number (n : Nat) : Shape :=
  atom (toString n)

mutual

def inline : Shape → String
  | atom text => text
  | labelled label item => label ++ ": " ++ item.inline
  | group name enclosure [] => name ++ enclosure.opening ++ enclosure.closing
  | group name enclosure (first :: rest) =>
    name ++ enclosure.opening ++ enclosure.padding ++ first.inline ++ inlineRest rest
      ++ enclosure.padding ++ enclosure.closing

/-- The items after the first, each after a comma. -/
def inlineRest : List Shape → String
  | [] => ""
  | item :: rest => ", " ++ item.inline ++ inlineRest rest

end

/-- The start of a line that lies `depth` enclosures deep. -/
def indent (depth : Nat) : String :=
  "".pushn ' ' (4 * depth)

mutual

/-- The shape with one item a line, as it stands `depth` enclosures deep. -/
def block (depth : Nat) : Shape → String
  | atom text => text
  | labelled label item => label ++ ": " ++ item.block depth
  | group name enclosure [] => name ++ enclosure.opening ++ enclosure.closing
  | group name enclosure (first :: rest) =>
    name ++ enclosure.opening ++ "\n" ++ blockLines (depth + 1) (first :: rest)
      ++ indent depth ++ enclosure.closing

/-- The lines of the items, each closed by a comma. -/
def blockLines (depth : Nat) : List Shape → String
  | [] => ""
  | item :: rest => indent depth ++ item.block depth ++ ",\n" ++ blockLines depth rest

end

/-- The shape in the chosen layout. -/
def render (shape : Shape) (pretty : Bool) : String :=
  if pretty then shape.block 0 else shape.inline

end Shape

end Allotment.Text
