import ClientGen.Text.Case
import ClientGen.Text.Blank
import ClientGen.Text.CodePoint

/-!
# Paths

A path is a root and the names below it. Empty names and single dots mean nothing and are dropped;
double dots are kept, since what they lead to depends on the files.
-/

namespace ClientGen

/-- A path: its root, which is empty for a relative path, and its parts. -/
structure Path where
  root : String
  parts : List String
deriving DecidableEq, Repr, Inhabited

namespace Path

/-- The root of a path text. Exactly two slashes make a root of their own. -/
def rootOf (s : String) : String :=
  match (s.toList.takeWhile (· == '/')).length with
  | 0 => ""
  | 2 => "//"
  | _ => "/"

/-- The path that a text names. -/
def ofString (s : String) : Path where
  root := rootOf s
  parts := (Text.splitAt '/' s).filter fun part => part != "" && part != "."

/-- The text of a path. -/
def toString (p : Path) : String :=
  if p.root.isEmpty && p.parts.isEmpty then "." else p.root ++ "/".intercalate p.parts

instance : ToString Path := ⟨toString⟩

/-- A path below another one; an absolute path stands for itself. -/
def join (p q : Path) : Path :=
  if q.root.isEmpty then { p with parts := p.parts ++ q.parts } else q

/-- The last part of a path. -/
def name (p : Path) : String := p.parts.getLast?.getD ""

/-- The path without its last part. -/
def parent (p : Path) : Path := { p with parts := p.parts.dropLast }

/-- The part of a name from its last dot on; the dot may neither begin nor end the name. -/
def suffix (p : Path) : String :=
  let reversed := p.name.toList.reverse
  let ending := reversed.takeWhile (· != '.')
  let before := reversed.drop (ending.length + 1)
  if before.isEmpty || ending.isEmpty then "" else String.ofList ('.' :: ending.reverse)

/-- Root and parts, which are compared one after the other. -/
def components (p : Path) : List String :=
  if p.root.isEmpty then p.parts else p.root :: p.parts

/-- Whether names come no later than others, compared one after the other. -/
def namesLe : List String → List String → Bool
  | [], _ => true
  | _ :: _, [] => false
  | a :: as, b :: bs => if a = b then namesLe as bs else Text.lt a b

/-- Whether a path comes no later than another. -/
def le (p q : Path) : Bool := namesLe p.components q.components

end Path

end ClientGen
