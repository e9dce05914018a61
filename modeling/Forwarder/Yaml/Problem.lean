/-
**Problems.** Why a text is no YAML, or not the YAML that is wanted.
-/

namespace Forwarder.Yaml

/-- Why a text cannot be read. -/
inductive Problem
  | controlCharacter
  | strayCharacter
  | strayTab
  | unclosedQuote
  | markInQuote
  | badEscape
  | badIndent
  | strayMark
  | badAnchor
  | unknownAnchor (name : String)
  | badTag
  | unknownHandle (handle : String)
  | badDirective
  | tooDeep
  | missingColon
  | misplacedEntry
  | misplacedKey
  | misplacedValue
  | noContent
  | expected (what : String)
  | repeatedKey (key : String)
  | wrongKind (wanted : String)
  | contradictoryTag
  | noMerge
  | endless (name : String)
  | tooManyAliases
deriving DecidableEq, Repr

/-- The problem as it is reported. -/
def Problem.message : Problem → String
  | controlCharacter => "yaml: control characters are not allowed"
  | strayCharacter => "yaml: found character that cannot start any token"
  | strayTab => "yaml: found a tab character that violates indentation"
  | unclosedQuote => "yaml: found unexpected end of stream"
  | markInQuote => "yaml: found unexpected document indicator"
  | badEscape => "yaml: found unknown escape character"
  | badIndent => "yaml: found an indentation indicator equal to 0"
  | strayMark => "yaml: did not find expected comment or line break"
  | badAnchor => "yaml: did not find expected alphabetic or numeric character"
  | unknownAnchor name => "yaml: unknown anchor '" ++ name ++ "' referenced"
  | badTag => "yaml: did not find expected tag URI"
  | unknownHandle handle => "yaml: found undefined tag handle " ++ handle
  | badDirective => "yaml: found unknown directive"
  | tooDeep => "yaml: exceeded max depth of 10000"
  | missingColon => "yaml: could not find expected ':'"
  | misplacedEntry => "yaml: block sequence entries are not allowed in this context"
  | misplacedKey => "yaml: mapping keys are not allowed in this context"
  | misplacedValue => "yaml: mapping values are not allowed in this context"
  | noContent => "yaml: did not find expected node content"
  | expected what => "yaml: did not find expected " ++ what
  | repeatedKey key => "yaml: mapping key " ++ key ++ " already defined"
  | wrongKind wanted => "yaml: cannot unmarshal into " ++ wanted
  | contradictoryTag => "yaml: cannot decode a scalar as its tag wants"
  | noMerge => "yaml: map merge requires map or sequence of maps as the value"
  | endless name => "yaml: anchor '" ++ name ++ "' value contains itself"
  | tooManyAliases => "yaml: document contains excessive aliasing"

end Forwarder.Yaml
