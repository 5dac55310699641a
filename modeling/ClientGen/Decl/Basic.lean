import ClientGen.TypeExpr.Normal

/-!
# Declarations

The named types of the generated client (interfaces, aliases and enumerations) and the parts of its
classes that declare something: imports, properties, parameters and signatures.
-/

namespace ClientGen

/-- A property of an interface. -/
structure Property where
  name : String
  type : TypeExpr
  isOptional : Bool := false
  isReadonly : Bool := false
  documentation : Option String := none
deriving Repr, Inhabited

/-- The part of an interface that takes any key. -/
structure IndexSignature where
  key : String
  value : TypeExpr
deriving Repr, Inhabited

/-- An interface. -/
structure Interface where
  name : String
  properties : List Property := []
  generics : List String := []
  bases : List String := []
  index : Option IndexSignature := none
  documentation : Option String := none
deriving Repr, Inhabited

/-- Another name for a type. -/
structure Alias where
  name : String
  type : TypeExpr
  generics : List String := []
  documentation : Option String := none
deriving Repr, Inhabited

/-- A member of an enumeration; its value is source text. -/
structure Variant where
  name : String
  value : Option String
deriving Repr, Inhabited, DecidableEq

/-- An enumeration. -/
structure Enumeration where
  name : String
  variants : List Variant := []
  isConst : Bool := false
  documentation : Option String := none
deriving Repr, Inhabited

/-- A named type. -/
inductive Declaration where
  | interface (i : Interface)
  | typeAlias (a : Alias)
  | enumeration (e : Enumeration)
deriving Repr, Inhabited

/-- A parameter of a method. -/
structure MethodParameter where
  name : String
  type : TypeExpr
  isOptional : Bool := false
  default : Option String := none
deriving Repr, Inhabited

/-- A method without its body. -/
structure Signature where
  name : String
  parameters : List MethodParameter := []
  result : Option TypeExpr := none
  isAsync : Bool := false
  visibility : String := "public"
  isStatic : Bool := false
deriving Repr, Inhabited

/-- A property of a class. -/
structure ClassProperty where
  name : String
  type : TypeExpr
  visibility : String := "public"
  isReadonly : Bool := false
  isOptional : Bool := false
  isStatic : Bool := false
  initializer : Option String := none
deriving Repr, Inhabited

/-- A name that a module imports, perhaps under another name. -/
structure ImportSpecifier where
  name : String
  localName : Option String := none
  isTypeOnly : Bool := false
deriving Repr, Inhabited, DecidableEq

/-- An import of names from a module. -/
structure Import where
  module : String
  specifiers : List ImportSpecifier := []
  isTypeOnly : Bool := false
deriving Repr, Inhabited, DecidableEq

/-- The name of a declaration. -/
def Declaration.name : Declaration → String
  | interface i => i.name
  | typeAlias a => a.name
  | enumeration e => e.name

/-- The names that a declaration refers to, in the order of their mention. -/
def Declaration.names : Declaration → List String
  | interface i =>
    i.bases ++ i.properties.flatMap (·.type.names) ++ (i.index.map (·.value.names)).getD []
  | typeAlias a => a.type.names
  | enumeration _ => []

/-- The number of properties and index signatures of an interface. -/
def Interface.memberCount (i : Interface) : Nat :=
  i.properties.length + if i.index.isSome then 1 else 0

/-- Names in ascending order, each once. -/
def sortedNames (names : List String) : List String :=
  (names.eraseDups).mergeSort Text.le

end ClientGen
