/-!
# Type expressions

The types of the generated client. Members of a union or an intersection are kept as given; the
constructors that put them into normal form are in `ClientGen.TypeExpr.Normal`.
-/

namespace ClientGen

/-- A type named by a keyword. The order of the constructors is the order of the types. -/
inductive Primitive where
  | string
  | number
  | boolean
  | null
  | undefined
  | void
  | any
  | unknown
  | never
deriving DecidableEq, Repr

/-- The keyword of a primitive type. -/
def Primitive.keyword : Primitive → String
  | string => "string"
  | number => "number"
  | boolean => "boolean"
  | null => "null"
  | undefined => "undefined"
  | void => "void"
  | any => "any"
  | unknown => "unknown"
  | never => "never"

/-- All primitive types. -/
def Primitive.all : List Primitive :=
  [string, number, boolean, null, undefined, void, any, unknown, never]

/-- The place of a primitive type in the order. -/
def Primitive.rank : Primitive → Nat
  | string => 0
  | number => 1
  | boolean => 2
  | null => 3
  | undefined => 4
  | void => 5
  | any => 6
  | unknown => 7
  | never => 8

/-- A property of an object type. -/
structure Member (τ : Type) where
  name : String
  type : τ
  isOptional : Bool
  isReadonly : Bool
deriving Repr

/-- A parameter of a function type. -/
structure Argument (τ : Type) where
  name : String
  type : τ
  isOptional : Bool
deriving Repr

/-- A type of the generated client. -/
inductive TypeExpr where
  | primitive (p : Primitive)
  /-- A named type, applied to type arguments. -/
  | ref (name : String) (arguments : List TypeExpr)
  | array (element : TypeExpr)
  | tuple (elements : List TypeExpr)
  /-- An object type with its properties in order. -/
  | object (members : List (Member TypeExpr))
  | union (members : List TypeExpr)
  | inter (members : List TypeExpr)
  | function (arguments : List (Argument TypeExpr)) (result : Option TypeExpr)
  /-- A literal type, by its source text. -/
  | literal (text : String)
  /-- A type parameter in scope. -/
  | generic (name : String)
  /-- An object type that takes any key of the type `key`. -/
  | index (key : String) (value : TypeExpr)
deriving Repr, Inhabited

namespace TypeExpr

/-! ## Names for common types -/

def string : TypeExpr := primitive .string
def number : TypeExpr := primitive .number
def boolean : TypeExpr := primitive .boolean
def null : TypeExpr := primitive .null
def undefined : TypeExpr := primitive .undefined
def void : TypeExpr := primitive .void
def any : TypeExpr := primitive .any
def unknown : TypeExpr := primitive .unknown
def never : TypeExpr := primitive .never

/-- A named type without type arguments. -/
def named (name : String) : TypeExpr := ref name []

/-! ## Questions about a type -/

/-- Whether a type is the type of `null`. -/
def isNull : TypeExpr → Bool
  | primitive .null => true
  | _ => false

/-- Whether a type is that of `null` or a union with it among its members. -/
def containsNull : TypeExpr → Bool
  | union members => members.any isNull
  | t => t.isNull

mutual

/-- Whether a type is written in one word: a primitive, a literal, or a name, applied to such types
at most. -/
def isSimple : TypeExpr → Bool
  | primitive _ => true
  | generic _ => true
  | literal _ => true
  | ref _ arguments => allSimple arguments
  | _ => false

/-- Whether all types of a list are simple. -/
def allSimple : List TypeExpr → Bool
  | [] => true
  | t :: rest => isSimple t && allSimple rest

end

mutual

/-- Whether a type makes the declaration around it take several lines. -/
def isComplex : TypeExpr → Bool
  | array _ => true
  | function _ _ => true
  | union members => !allSimple members
  | inter members => !allSimple members
  | tuple elements => 1 < elements.length
  | object members => 2 < members.length || anyComplex members
  | index _ value => isComplex value
  | _ => false

/-- Whether the type of some property is complex. -/
def anyComplex : List (Member TypeExpr) → Bool
  | [] => false
  | ⟨_, t, _, _⟩ :: rest => isComplex t || anyComplex rest

end

mutual

/-- The names that a type refers to, in the order of their mention. -/
def names : TypeExpr → List String
  | ref name arguments => name :: namesOfList arguments
  | array element => names element
  | tuple elements => namesOfList elements
  | union members => namesOfList members
  | inter members => namesOfList members
  | object members => namesOfMembers members
  | function arguments result => namesOfArguments arguments ++ namesOfOption result
  | index _ value => names value
  | _ => []

/-- The names in a list of types. -/
def namesOfList : List TypeExpr → List String
  | [] => []
  | t :: rest => names t ++ namesOfList rest

/-- The names in the types of properties. -/
def namesOfMembers : List (Member TypeExpr) → List String
  | [] => []
  | ⟨_, t, _, _⟩ :: rest => names t ++ namesOfMembers rest

/-- The names in the types of parameters. -/
def namesOfArguments : List (Argument TypeExpr) → List String
  | [] => []
  | ⟨_, t, _⟩ :: rest => names t ++ namesOfArguments rest

/-- The names in a type that may be missing. -/
def namesOfOption : Option TypeExpr → List String
  | none => []
  | some t => names t

end

end TypeExpr

end ClientGen
