import SmellCheck.Bytecode.Listing
/-!
# Methods and assemblies

A method definition: its signature, the attributes on it, the number of
its local variable slots, and its body. An assembly has a name and
methods. A call is linked to the method whose signature has the same
written form.
-/

namespace SmellCheck

/-- A method definition. -/
structure Method where
  signature : Signature
  attributes : List String
  locals : Nat
  body : Body
  deriving DecidableEq

namespace Method

/-- The declaring type and the name of the method. -/
def fullName (m : Method) : String :=
  m.signature.fullName

/-- The number of slots of a space. -/
def slots (m : Method) : SlotSpace → Nat
  | .locals => m.locals
  | .args => m.signature.argSlots

/-- An attribute type has the given full or short name, where the ending
`Attribute` may be left out. -/
def attributeMatches (name applied : String) : Bool :=
  applied == name || applied == name ++ "Attribute"
    || applied.endsWith ("." ++ name) || applied.endsWith ("." ++ name ++ "Attribute")

/-- An attribute with the given full or short name is on the method. -/
def hasAttribute (m : Method) (name : String) : Bool :=
  m.attributes.any (attributeMatches name)

/-- The written form of the instruction at a position. -/
def instructionText (m : Method) (position : Nat) : String :=
  match m.body[position]? with
  | some ins => ins.text m.body
  | none => ""

end Method

/-- A named list of methods. -/
structure Assembly where
  name : String
  methods : List Method
  deriving DecidableEq

namespace Assembly

/-- The method of the assembly that has the given signature. -/
def resolve? (a : Assembly) (signature : Signature) : Option Method :=
  a.methods.find? (·.signature.text == signature.text)

/-- The methods with the given full or bare name. -/
def lookup (a : Assembly) (name : String) : List Method :=
  a.methods.filter fun m => m.fullName == name || m.signature.name == name

end Assembly

end SmellCheck
