/-!
# Trees of files

A directory holds named trees, and a file holds bytes. A place in a tree is the list of names that
lead to it from the root.
-/

namespace ClientGen

/-- A file, or a directory with what it holds. -/
inductive Tree where
  | file (bytes : List UInt8)
  | directory (entries : List (String × Tree))
deriving Repr

/-- Entries of a directory. -/
abbrev TreeEntries := List (String × Tree)

/-- Entries with another tree under a name. -/
def TreeEntries.set (name : String) (t : Tree) : TreeEntries → TreeEntries
  | [] => [(name, t)]
  | (n, u) :: rest => if n = name then (n, t) :: rest else (n, u) :: TreeEntries.set name t rest

/-- Entries without those of a name. -/
def TreeEntries.erase (name : String) (es : TreeEntries) : TreeEntries := es.filter (·.1 ≠ name)

namespace Tree

/-- A directory that holds nothing. -/
def empty : Tree := directory []

/-- The tree under a name. -/
def child? (name : String) : Tree → Option Tree
  | directory es => es.lookup name
  | file _ => none

/-- The tree at a place. -/
def at? : (place : List String) → Tree → Option Tree
  | [], t => some t
  | name :: rest, t => (t.child? name).bind (at? rest)

/-- A tree with another one at a place. Directories that are missing on the way are made, and files
on the way are left as they are. -/
def put : (place : List String) → (new : Tree) → Tree → Tree
  | [], new, _ => new
  | name :: rest, new, directory es =>
    directory (TreeEntries.set name (put rest new ((es.lookup name).getD empty)) es)
  | _ :: _, _, file bytes => file bytes

/-- Whether a tree is a directory. -/
def isDirectory : Tree → Bool
  | directory _ => true
  | file _ => false

/-- Whether a tree is a directory that holds something. -/
def isFilledDirectory : Tree → Bool
  | directory es => !es.isEmpty
  | file _ => false

mutual

/-- The places of the files of a tree, with their bytes. -/
def files : Tree → List (List String × List UInt8)
  | file bytes => [([], bytes)]
  | directory es => filesOf es

/-- The places of the files of entries, with their bytes. -/
def filesOf : List (String × Tree) → List (List String × List UInt8)
  | [] => []
  | (name, t) :: rest => (files t).map (fun f => (name :: f.1, f.2)) ++ filesOf rest

end

end Tree

end ClientGen
