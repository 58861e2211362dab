import ScopeComplexity.Path
import ScopeComplexity.Rules.Language

namespace ScopeComplexity.Language

def unknownName : String := "unknown"

/-- Upper case counts as lower case. No letter outside ASCII has a lower case that occurs in an extension. -/
def ofPath? (p : Path) : Option Language := ofExtension? (p.suffix.map Char.toLower)

def nameFor (p : Path) : String :=
  match ofPath? p with
  | some language => language.name
  | none => unknownName

end ScopeComplexity.Language
