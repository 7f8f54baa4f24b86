/-! The types of the language. Values are public or secret; `int`, `bool` and `client` have a secret
counterpart, which is shared among the parties and known to none of them. -/

namespace Multiparty

/-- `none` stands where there is no type, and no value has it. -/
inductive Ty
  | none
  | int
  | sint
  | bool
  | sbool
  | string
  | void
  | client
  | sclient
  | server
  | group
  | tunnel (carried : Ty)
deriving DecidableEq

namespace Ty

def name : Ty → String
  | .none => "none"
  | .int => "int"
  | .sint => "sint"
  | .bool => "bool"
  | .sbool => "sbool"
  | .string => "string"
  | .void => "void"
  | .client => "client"
  | .sclient => "sclient"
  | .server => "server"
  | .group => "group"
  | .tunnel carried => "tunnel of " ++ carried.name

/-- The secret counterpart of a public type. -/
def secretOf : Ty → Ty
  | .int => .sint
  | .bool => .sbool
  | .client => .sclient
  | _ => .none

/-- The public counterpart of a secret type. -/
def publicOf : Ty → Ty
  | .sint => .int
  | .sbool => .bool
  | .sclient => .client
  | _ => .none

def isSecret (type : Ty) : Bool :=
  type.publicOf != .none

theorem isSecret_publicOf (type : Ty) : type.publicOf.isSecret = false := by
  cases type <;> rfl

/-- Whether a value of type `offered` may stand where `required` is asked for. A secret value may stand for
its public counterpart, never the other way round. -/
def compatible (offered required : Ty) : Bool :=
  offered != .none && (offered == required || offered.publicOf == required)

/-- Whether values of this type may travel through a tunnel. -/
def isTunnelable : Ty → Bool
  | .int | .sint | .bool | .sbool => true
  | _ => false

/-- All types but tunnels. -/
def simple : List Ty :=
  [.none, .int, .sint, .bool, .sbool, .string, .void, .client, .sclient, .server, .group]

def tunnelLead : List Char :=
  "tunnel of ".toList

/-- Looks through at most `depth` tunnels. -/
def ofChars : Nat → List Char → Ty
  | 0, _ => .none
  | depth + 1, chars =>
    if tunnelLead.isPrefixOf chars then .tunnel (ofChars depth (chars.drop tunnelLead.length))
    else (simple.find? fun type => type.name == String.ofList chars).getD .none

/-- The type of that name, and `none` for any other text. -/
def ofName (name : String) : Ty :=
  ofChars (name.length + 1) name.toList

end Ty
end Multiparty
