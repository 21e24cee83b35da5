import Schematic.Yaml.Mark

/-!
# Tokens

## Main definitions

- `TokenKind` — the tokens with what they carry
- `Token` — a token with the places where it begins and ends
-/

namespace Schematic.Yaml

/-- A directive before a document. -/
inductive Directive where
  | version (major minor : Nat)
  /-- A handle of tags stands for a prefix. -/
  | handle (name address : String)
  /-- A directive of another name is ignored. -/
  | other
deriving DecidableEq, Repr

/-- A tag as it is written: a handle, if it has one, and what follows it. -/
structure WrittenTag where
  handle? : Option String
  suffix : String
deriving DecidableEq, Repr

/-- The kinds of tokens. -/
inductive TokenKind where
  | directive (directive : Directive)
  | documentStart
  | documentEnd
  | streamEnd
  | blockListStart
  | blockMappingStart
  | blockEnd
  | flowListStart
  | flowListEnd
  | flowMappingStart
  | flowMappingEnd
  | key
  | value
  | blockEntry
  | flowEntry
  /-- An alias, by the name of its anchor. -/
  | reference (name : String)
  | anchor (name : String)
  | tag (tag : WrittenTag)
  | scalar (text : String) (isPlain : Bool)
  /-- Comments and empty lines. -/
  | comment
deriving DecidableEq, Repr

namespace TokenKind

/-- What a token is called in an error. -/
def name : TokenKind → String
  | directive _ => "<directive>"
  | documentStart => "<document start>"
  | documentEnd => "<document end>"
  | streamEnd => "<stream end>"
  | blockListStart => "<block sequence start>"
  | blockMappingStart => "<block mapping start>"
  | blockEnd => "<block end>"
  | flowListStart => "["
  | flowListEnd => "]"
  | flowMappingStart => "\x7b"
  | flowMappingEnd => "\x7d"
  | key => "?"
  | value => ":"
  | blockEntry => "-"
  | flowEntry => ","
  | reference _ => "<alias>"
  | anchor _ => "<anchor>"
  | tag _ => "<tag>"
  | scalar _ _ => "<scalar>"
  | comment => "<comment>"

end TokenKind

/-- A token in its place. -/
structure Token where
  kind : TokenKind
  start : Mark
  stop : Mark
deriving Repr

end Schematic.Yaml
