/-! # Tokens of a YAML text

Besides the marks that stand in the text there are tokens for where block collections begin and end,
which follow from indentation.
-/

namespace Splice.Yaml

inductive Token where
  | streamEnd
  | versionDirective (major minor : Nat)
  | tagDirective (handle leading : String)
  | otherDirective
  | documentStart
  | documentEnd
  | blockSequenceStart
  | blockMappingStart
  | blockEnd
  | flowSequenceStart
  | flowSequenceEnd
  | flowMappingStart
  | flowMappingEnd
  | blockEntry
  | flowEntry
  | key
  | value
  | alias (name : String)
  | anchor (name : String)
  /-- A tag: its handle if it has one, and the rest. -/
  | tag (handle : Option String) (suffix : String)
  /-- A scalar; only a plain one may mean something else than its text. -/
  | scalar (isPlain : Bool) (text : String)
  deriving DecidableEq, Repr

end Splice.Yaml
