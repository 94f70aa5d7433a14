import BrailleScript.Backend.DryRun
import BrailleScript.Machine
import BrailleScript.Text.Quoted
import BrailleScript.Toml.Reader

/-!
# Configuration

What a configuration file can set.  Sections and settings that are missing keep their defaults,
and unknown ones are ignored; the first setting of the wrong type is an error.
-/

namespace BrailleScript

/-- Which backend answers the requests of programs. -/
inductive BackendKind where
  | dryRun | openai
  deriving Repr, DecidableEq

/-- The name of a kind in a configuration. -/
def BackendKind.name : BackendKind → String
  | dryRun => "dry-run"
  | openai => "openai"

/-- The settings of the backend. -/
structure BackendConfig where
  kind : BackendKind := .dryRun
  endpoint : String := "https://api.openai.com/v1"
  model : String := "gpt-4o-mini"
  embeddingModel : String := "text-embedding-3-small"
  apiKeyEnv : String := "CELLSCRIPT_API_KEY"
  maxTokens : Nat := 256
  timeoutSecs : Nat := 45

/-- All settings, with their defaults. -/
structure Config where
  interpreter : RunOptions := {}
  ledger : LedgerConfig := {}
  backend : BackendConfig := {}

namespace Toml

/-- What a fault calls a value. -/
def describe : Toml → String
  | text s _ => "string " ++ Text.quoted s
  | int n _ => "integer `" ++ toString n ++ "`"
  | float x _ => "floating point `" ++ Decimal.pointed.write x ++ "`"
  | bool b _ => "boolean `" ++ (if b then "true" else "false") ++ "`"
  | array .. | tables .. => "sequence"
  | time .. | table .. => "map"

variable {α : Type}

/-- Refuses a value with a message, at its place in the document. -/
def refuse (v : Toml) (message : String) : Except TomlError α :=
  .error ⟨.refused message, v.span⟩

/-- Refuses a value of another type than the wanted one. -/
def otherType (v : Toml) (wanted : String) : Except TomlError α :=
  refuse v ("invalid type: " ++ v.describe ++ ", expected " ++ wanted)

/-- A natural number of so many bits. -/
def toNat (wanted : String) (bits : Nat) : Toml → Except TomlError Nat
  | int n s =>
    if 0 ≤ n && n.toNat < 1 <<< bits then .ok n.toNat
    else refuse (int n s) ("invalid value: " ++ describe (int n s) ++ ", expected " ++ wanted)
  | v => otherType v wanted

/-- A boolean; all else is refused. -/
def toBool : Toml → Except TomlError Bool
  | bool b _ => .ok b
  | v => otherType v "a boolean"

/-- A text; all else is refused. -/
def toText : Toml → Except TomlError String
  | text s _ => .ok s
  | v => otherType v "a string"

/-- A number, where an integer stands for a float; all else is refused. -/
def toFloat : Toml → Except TomlError Float
  | float x _ => .ok x
  | int n _ => .ok (Number.ofInt n)
  | v => otherType v "f64"

/-- The entries of a section, which is a table or the array of its settings in order. -/
def sectionEntries (typeName : String) (names : List String) : Toml → Except TomlError Entries
  | table _ entries _ => .ok entries
  | array items _ | tables items _ => .ok (names.zip items)
  | v => otherType v ("struct " ++ typeName)

end Toml

namespace Config

/-- Sets one option of runs. -/
def setInterpreter (o : RunOptions) : String × Toml → Except TomlError RunOptions
  | ("max_loop_iterations", v) => (v.toNat "u64" 64).map fun n => { o with maxLoopIterations := n }
  | ("max_call_depth", v) => (v.toNat "usize" 64).map fun n => { o with maxCallDepth := n }
  | ("max_reflect_depth", v) => (v.toNat "usize" 64).map fun n => { o with maxReflectDepth := n }
  | ("trace_deterministic", v) => v.toBool.map fun b => { o with traceDeterministic := b }
  | ("lenient_literals", v) => v.toBool.map fun b => { o with lenientLiterals := b }
  | _ => .ok o

/-- Sets one option of the ledger. -/
def setLedger (c : LedgerConfig) : String × Toml → Except TomlError LedgerConfig
  | ("cache_enabled", v) => v.toBool.map fun b => { c with cacheEnabled := b }
  | ("max_cache_entries", v) => (v.toNat "usize" 64).map fun n => { c with maxCacheEntries := n }
  | ("cache_ttl_secs", v) => (v.toNat "u64" 64).map fun n => { c with cacheTtlSecs := some n }
  | ("truncate_len", v) => (v.toNat "usize" 64).map fun n => { c with truncateLen := n }
  | ("input_cost_per_1k", v) => v.toFloat.map fun x => { c with inputCostPer1k := x }
  | ("output_cost_per_1k", v) => v.toFloat.map fun x => { c with outputCostPer1k := x }
  | _ => .ok c

/-- The kind with a name that stands at a place. -/
def kindNamed (name : String) (span : Span) : Except TomlError BackendKind :=
  match name with
  | "dry-run" => .ok .dryRun
  | "openai" => .ok .openai
  | _ =>
    .error ⟨.refused ("unknown variant `" ++ name ++ "`, expected `dry-run` or `openai`"), span⟩

/-- A kind is its name, or a table with the name as its only key and nothing under it. -/
def toKind : Toml → Except TomlError BackendKind
  | .text s span => kindNamed s span
  | .table origin entries span =>
    let v := Toml.table origin entries span
    match entries with
    | [] => v.refuse "wanted exactly 1 element, found 0 elements"
    -- an enumeration may be written as a table with one empty entry
    | [(name, inner)] => do
      let kind ← kindNamed name span
      match inner with
      | .table _ [] _ => return kind
      | .table .. => inner.refuse "expected empty table"
      | _ => inner.refuse ("expected table, found " ++ inner.typeName)
    | _ => v.refuse "wanted exactly 1 element, more than 1 element"
  | v => v.refuse "wanted string or table"

/-- Sets one option of the backend. -/
def setBackend (c : BackendConfig) : String × Toml → Except TomlError BackendConfig
  | ("kind", v) => (toKind v).map fun k => { c with kind := k }
  | ("endpoint", v) => v.toText.map fun s => { c with endpoint := s }
  | ("model", v) => v.toText.map fun s => { c with model := s }
  | ("embedding_model", v) => v.toText.map fun s => { c with embeddingModel := s }
  | ("api_key_env", v) => v.toText.map fun s => { c with apiKeyEnv := s }
  | ("max_tokens", v) => (v.toNat "u32" 32).map fun n => { c with maxTokens := n }
  | ("timeout_secs", v) => (v.toNat "u64" 64).map fun n => { c with timeoutSecs := n }
  | _ => .ok c

/-- Sets what one section says. -/
def setSection (c : Config) : String × Toml → Except TomlError Config
  | ("interpreter", v) => do
    let entries ← v.sectionEntries "InterpreterOptions"
      ["max_loop_iterations", "max_call_depth", "max_reflect_depth", "trace_deterministic",
       "lenient_literals"]
    return { c with interpreter := ← entries.foldlM setInterpreter c.interpreter }
  | ("sal", v) => do
    let entries ← v.sectionEntries "SalConfig"
      ["cache_enabled", "max_cache_entries", "cache_ttl_secs", "truncate_len", "input_cost_per_1k",
       "output_cost_per_1k"]
    return { c with ledger := ← entries.foldlM setLedger c.ledger }
  | ("backend", v) => do
    let entries ← v.sectionEntries "BackendConfig"
      ["kind", "endpoint", "model", "embedding_model", "api_key_env", "max_tokens", "timeout_secs"]
    return { c with backend := ← entries.foldlM setBackend c.backend }
  -- unknown sections are refused when the file is read
  | _ => .ok c

/-- The configuration of a file. -/
def read (s : String) : Except TomlError Config := do
  (← Toml.read s).foldlM setSection {}

end Config

/-- The backend of a configuration, or why it cannot be had. -/
def BackendConfig.backend (c : BackendConfig) : Except String Backend :=
  match c.kind with
  | .dryRun => .ok (.dryRun c.model c.maxTokens)
  | .openai => .error "backend 'openai' requires building with the `ai-openai` feature"

end BrailleScript
