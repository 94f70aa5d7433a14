import BrailleScript.Symbol

/-!
# Primitives

The six calls that reach outside the language: text generation, embedding, templates, function
pipelines, running source text and semantic search.
-/

namespace BrailleScript

/-- What a program can ask of the backend and of the interpreter itself. -/
inductive Primitive where
  | infer | embed | promptTemplate | pipeCompose | reflectExec | semanticSearch
  deriving Repr, DecidableEq

namespace Primitive

/-- All primitives. -/
def all : List Primitive :=
  [infer, embed, promptTemplate, pipeCompose, reflectExec, semanticSearch]

/-- The name that traces, keys and emitted code use. -/
def name : Primitive → String
  | infer => "infer"
  | embed => "embed"
  | promptTemplate => "promptTemplate"
  | pipeCompose => "pipeCompose"
  | reflectExec => "reflectExec"
  | semanticSearch => "semanticSearch"

/-- The primitive of a name. -/
def ofName? (s : String) : Option Primitive :=
  all.find? (·.name == s)

/-- The primitive that a keyword calls. -/
def ofKeyword? : Keyword → Option Primitive
  | .inferKw => some infer
  | .embedKw => some embed
  | .promptKw => some promptTemplate
  | .composeKw => some pipeCompose
  | .reflectKw => some reflectExec
  | .searchKw => some semanticSearch
  | _ => none

/-- Whether equal calls may share one result. -/
def isCacheable : Primitive → Bool
  | infer | embed | semanticSearch => true
  | _ => false

/-- Whether the call is billed by the length of its texts. -/
def isTextGenerating : Primitive → Bool
  | infer => true
  | _ => false

end Primitive

end BrailleScript
