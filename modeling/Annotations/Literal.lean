import Annotations.Tag.Basic

/-!
# Literals and Lists of Them

A literal is one scalar. The literals of a list must be of one family: strings,
truth values, or numbers, where integers and floats may be mixed. A list of
numbers is a list of integers unless some element, at any place, is a float; then
all of its elements are widened to floats.

## Main definitions

* `Literal`: One scalar.
* `Literal.Kind`, `Literal.Family`: Its type, and the types that may share a list.
* `Literal.widened?`: A number as a float.
* `Literal.fold`: The list value of literals.
-/

namespace Annotations

open Number

/-- One scalar. -/
inductive Literal where
  | string (s : String)
  | integer (n : Int64)
  | float (x : Binary64)
  | bool (b : Bool)
deriving DecidableEq, Repr

namespace Literal

/-- The type of a literal. -/
inductive Kind where
  | string
  | integer
  | float
  | bool
deriving DecidableEq, Repr

/-- Literals that may share a list. -/
inductive Family where
  | string
  | numeric
  | bool
deriving DecidableEq, Repr

/-- The name of a type. -/
def Kind.name : Kind → String
  | string => "String"
  | integer => "Integer"
  | float => "Float"
  | bool => "Bool"

/-- Integers and floats are of one family. -/
def Kind.family : Kind → Family
  | string => .string
  | integer | float => .numeric
  | bool => .bool

/-- The type of a literal. -/
def kind : Literal → Kind
  | string _ => .string
  | integer _ => .integer
  | float _ => .float
  | bool _ => .bool

/-- The family of a literal. -/
def family (l : Literal) : Family :=
  l.kind.family

/-- The value that a literal is by itself. -/
def toValue : Literal → Value
  | string s => .string s
  | integer n => .integer n
  | float x => .float x
  | bool b => .bool b

/-- A number as a float. An integer goes to the nearest float, which is even in
    its last place if two are equally near. -/
def widened? : Literal → Option Binary64
  | integer n => some (.ofInt n.toInt)
  | float x => some x
  | _ => none

/-- The string of a string literal. -/
def string? : Literal → Option String
  | string s => some s
  | _ => none

/-- The integer of an integer literal. -/
def integer? : Literal → Option Int64
  | integer n => some n
  | _ => none

/-- The truth value of a boolean literal. -/
def bool? : Literal → Option Bool
  | bool b => some b
  | _ => none

/-- Why literals do not make a list. -/
inductive ListFault where
  /-- There are none. -/
  | empty
  /-- The element at an index is of another family than the first. -/
  | mixed (index : Nat) (expected received : Kind)
deriving DecidableEq, Repr

/-- The message of a list fault. -/
def ListFault.message : ListFault → String
  | empty => "list has no elements"
  | mixed index expected received =>
    s!"element {index} is {received.name}, expected {expected.name}"

/-- The list of literals that are all of one family. -/
def gather (family : Family) (literals : List Literal) : Value :=
  match family with
  | .string => .strings (literals.filterMap string?)
  | .bool => .bools (literals.filterMap bool?)
  | .numeric =>
    if literals.any (·.kind = .float) then .floats (literals.filterMap widened?)
    else .integers (literals.filterMap integer?)

/-- The list value of literals, or the first element that does not fit in with
    the first one. -/
def fold (literals : List Literal) : Except ListFault Value :=
  match literals with
  | [] => .error .empty
  | first :: _ =>
    match literals.zipIdx.find? (fun (l, _) => l.family ≠ first.family) with
    | some (l, index) => .error (.mixed index first.kind l.kind)
    | none => .ok (gather first.family literals)

end Literal

end Annotations
