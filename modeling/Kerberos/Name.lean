/-! # Principal names

    A principal name is a list of components and a name type.  The type matters in one case
    only: an enterprise name carries its realm inside its component. -/

namespace Kerberos

structure PrincipalName where
  /-- The name type of RFC 4120. -/
  kind : UInt8
  components : List String
  deriving DecidableEq, Repr

namespace PrincipalName

/-! ## Name types -/

def principalKind : UInt8 := 1

def serviceKind : UInt8 := 2

def enterpriseKind : UInt8 := 10

/-! ## Names -/

/-- The name of a user. -/
def principal (user : String) : PrincipalName := ⟨principalKind, [user]⟩

/-- The name of a service on an instance, such as a host. -/
def service (service instanceName : String) : PrincipalName := ⟨serviceKind, [service, instanceName]⟩

/-- The ticket-granting service of a realm. -/
def krbtgt (realm : String) : PrincipalName := service "krbtgt" realm

def isEnterprise (n : PrincipalName) : Bool := n.kind == enterpriseKind

/-- The components with a slash between two of them. -/
def text (n : PrincipalName) : String := "/".intercalate n.components

end PrincipalName

/-! ## Comparing without regard to case -/

/-- The string with the letters A to Z in lower case.  Other letters stay as they are. -/
def lowercase (s : String) : String := String.ofList (s.toList.map Char.toLower)

/-- The strings differ at most in the case of the letters A to Z. -/
def sameIgnoringCase (s t : String) : Bool := lowercase s == lowercase t

end Kerberos
