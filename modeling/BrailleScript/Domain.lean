import BrailleScript.Primitive

/-!
# Domains

How far the result of a step is determined by its input.
-/

namespace BrailleScript

/-- Whether the same input always leads to the same output. -/
inductive Domain where
  | deterministic | stochastic | hybrid
  deriving Repr, DecidableEq

namespace Domain

/-- All domains. -/
def all : List Domain :=
  [deterministic, stochastic, hybrid]

/-- The name of a domain. -/
def name : Domain → String
  | deterministic => "deterministic"
  | stochastic => "stochastic"
  | hybrid => "hybrid"

/-- The domain with a name; letters `A` to `Z` count as small ones. -/
def ofName? (s : String) : Option Domain :=
  all.find? (·.name == String.ofList (s.toList.map Char.toLower))

end Domain

/-- The domain of the calls of a primitive. -/
def Primitive.domain : Primitive → Domain
  | infer | embed | semanticSearch => .stochastic
  | promptTemplate => .deterministic
  | pipeCompose | reflectExec => .hybrid

end BrailleScript
