import TemplateFormula.Json.Reader
import TemplateFormula.Value.Member

/-!
# Namespaces

Inside the body of a namespace lookup every name is answered by a resolver. The name `&` asks for
the namespace as a whole.
-/

namespace TemplateFormula

abbrev Resolver := String → Value

namespace Resolver

/-- The members of a value of its own. -/
def ofValue (root : Value) : Resolver := fun name =>
  if name = Path.wholeName then root else root.memberAt name

def ofMembers (ms : Members) : Resolver := fun name =>
  if name = Path.wholeName then .object ms else (ms.get? name).getD .undefined

/-- One entry of a cookie header. -/
def cookie? (entry : List Char) : Option (String × Value) :=
  (Text.splitOnce? '=' entry).bind fun (name, value) =>
    let name := Text.trim name
    if name.isEmpty then none
    else some (String.ofList name, .ofChars (Text.trim value))

/-- The entries of a cookie header. Their values are text. -/
def ofCookies (header : String) : Resolver :=
  ofMembers (Members.ofList ((Text.splitOn [';'] header.toList).filterMap cookie?))

/-- A stored text, decoded if it is JSON. -/
def decodeStored (s : String) : Value := (Json.parse? s.toList).getD (.text s)

/-- The entries of a store of texts. -/
def ofStorage (entries : List (String × String)) : Resolver :=
  ofMembers (Members.ofList (entries.map fun e => (e.1, decodeStored e.2)))

end Resolver

end TemplateFormula
