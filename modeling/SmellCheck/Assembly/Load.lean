import SmellCheck.Bytecode.Method
import SmellCheck.Text.Folding
import SmellCheck.Yaml.Value
/-!
# Loading assemblies

A listing document names an assembly and its methods. A method gives its
signature as one text or field by field, its attributes, the number of
its local slots, and its body as an instruction listing.
-/

namespace SmellCheck

/-! ## Documents -/

/-- A parameter of a method in a document. -/
structure ParamEntry where
  type : String
  kind : String
  deriving DecidableEq

/-- A method in a document. -/
structure MethodEntry where
  signature : String
  type : String
  name : String
  static : Bool
  returns : String
  params : List ParamEntry
  attributes : List String
  locals : Int
  body : String
  deriving DecidableEq

/-- A listing document. -/
structure ListingDocument where
  assembly : String := ""
  methods : List MethodEntry := []
  deriving DecidableEq

open Yaml in
/-- Reads a parameter; `none` for null. -/
def ParamEntry.read? (n : Node) : Read (Option ParamEntry) := do
  match ← n.entries? with
  | none => return none
  | some es =>
    return some { type := ← field es "type" "" Node.string?
                  kind := ← field es "kind" "" Node.string? }

open Yaml in
/-- Reads a method; `none` for null. -/
def MethodEntry.read? (n : Node) : Read (Option MethodEntry) := do
  match ← n.entries? with
  | none => return none
  | some es =>
    return some { signature := ← field es "signature" "" Node.string?
                  type := ← field es "type" "" Node.string?
                  name := ← field es "name" "" Node.string?
                  static := ← field es "static" false Node.bool?
                  returns := ← field es "returns" "" Node.string?
                  params := ← listField es "params" ParamEntry.read?
                  attributes := ← listField es "attributes" Node.string?
                  locals := ← field es "locals" 0 Node.int?
                  body := ← field es "body" "" Node.string? }

open Yaml in
/-- Reads a listing document; null is the empty one. -/
def ListingDocument.read (n : Node) : Read ListingDocument := do
  match ← n.entries? with
  | none => return {}
  | some es =>
    return { assembly := ← field es "assembly" "" Node.string?
             methods := ← listField es "methods" MethodEntry.read? }

/-! ## Failures -/

/-- What is wrong with a method whose name is known. -/
inductive NamedMethodFault where
  | unknownParamKind (kind : String)
  | negativeLocals
  | badBody (e : ListingError)
  deriving DecidableEq

/-- What is wrong with a method. -/
inductive MethodFault where
  | badSignature (e : Signature.ReadError)
  | noSignature
  | named (fullName : String) (fault : NamedMethodFault)
  deriving DecidableEq

/-- Why a document gives no assembly. -/
inductive LoadError where
  | unreadable (e : Yaml.ReadError)
  | noName
  | method (index : Nat) (fault : MethodFault)
  | definedTwice (signature : Signature)
  deriving DecidableEq

/-- The wording that ends an error about a listing document. -/
def invalidListingText : String := "invalid listing"

/-- The wording of what is wrong with a named method. -/
def NamedMethodFault.message : NamedMethodFault → String
  | unknownParamKind kind =>
    "unknown parameter kind " ++ Text.quoted kind ++ ": " ++ invalidListingText
  | negativeLocals => "negative local count: " ++ invalidListingText
  | badBody e => e.message

/-- The wording of what is wrong with a method. -/
def MethodFault.message : MethodFault → String
  | badSignature e => e.message ++ ": " ++ syntaxErrorText
  | noSignature => "method needs a signature or a type and name: " ++ invalidListingText
  | named fullName fault => fullName ++ ": " ++ fault.message

/-- The wording of a failure. -/
def LoadError.message : LoadError → String
  | unreadable _ => "decoding listing: the document cannot be read"
  | noName => "missing assembly name: " ++ invalidListingText
  | method index fault => "method " ++ Nat.repr index ++ ": " ++ fault.message
  | definedTwice signature =>
    "method " ++ signature.text ++ " defined twice: " ++ invalidListingText

/-! ## Assemblies from documents -/

/-- The kind of a parameter by its name, in any case. -/
def ParamKind.ofName? (name : String) : Option ParamKind :=
  match Text.lower name with
  | "" | "in" => some .byValue
  | "ref" => some .byRef
  | "out" => some .out
  | _ => none

namespace MethodEntry

/-- The parameter that an entry describes. A reference mark at the end
of the type does not count. -/
def param (fullName : String) (p : ParamEntry) : Except MethodFault Param :=
  match ParamKind.ofName? p.kind with
  | some kind => .ok ⟨String.ofList (Text.dropTail ['&'] p.type.toList), kind⟩
  | none => .error (.named fullName (.unknownParamKind p.kind))

/-- The signature of a method: the text if there is one, and else the
single fields. -/
def toSignature (e : MethodEntry) : Except MethodFault Signature :=
  if e.signature ≠ "" then (Signature.read e.signature).mapError .badSignature
  else if e.type = "" ∨ e.name = "" then .error .noSignature
  else do
    let params ← e.params.mapM (param (e.type ++ "::" ++ e.name))
    return ⟨e.type, e.name, !e.static, e.returns, params⟩

/-- The method that an entry describes. -/
def toMethod (e : MethodEntry) : Except MethodFault Method := do
  let signature ← e.toSignature
  let fault := MethodFault.named signature.fullName
  if e.locals < 0 then throw (fault .negativeLocals)
  let body ← (Body.read e.body).mapError fun err => fault (.badBody err)
  return ⟨signature, e.attributes, e.locals.toNat, body⟩

end MethodEntry

namespace Assembly

/-- Adds the methods of entries, of which the first has the given index,
to those before them. -/
def addMethods (found : List Method) (index : Nat) :
    List MethodEntry → Except LoadError (List Method)
  | [] => .ok found
  | e :: entries =>
    match e.toMethod with
    | .error fault => .error (.method index fault)
    | .ok m =>
      if found.any (·.signature.text == m.signature.text) then
        .error (.definedTwice m.signature)
      else addMethods (found ++ [m]) (index + 1) entries

/-- The assembly of a listing document. -/
def ofDocument (d : ListingDocument) : Except LoadError Assembly :=
  if d.assembly = "" then .error .noName
  else (addMethods [] 0 d.methods).map (⟨d.assembly, ·⟩)

/-- The assembly of a document. -/
def ofYaml (d : Yaml.Document) : Except LoadError Assembly := do
  let listing ← (d.get ListingDocument.read).mapError .unreadable
  ofDocument listing

/-- The assembly of a listing's text. -/
def load (source : String) : Except LoadError Assembly := do
  let d ← (Yaml.readDocument source).mapError .unreadable
  ofYaml d

end Assembly

end SmellCheck
