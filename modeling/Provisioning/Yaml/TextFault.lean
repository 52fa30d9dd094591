import Provisioning.Yaml.Mark

/-!
# What can be wrong with a YAML text

A fault of the text is a problem at a place, often found while some larger thing
that began at another place was being read. Each problem and each such activity is
a constructor; their wording is one function apiece, and `TextFault.message` puts
the two together.
-/

namespace Provisioning.Yaml

/-- What is wrong at a place of a text. -/
inductive Problem where
  | forbiddenCharacter (offset : Nat)
  | noTokenStartsHere
  | colonMissing
  | sequenceEntryMisplaced
  | mappingKeyMisplaced
  | mappingValueMisplaced
  | directiveNameMissing
  | directiveNameCharacter
  | directiveUnknown
  | versionTooLong
  | versionMissing
  | versionPointMissing
  | whitespaceMissing
  | whitespaceOrBreakMissing
  | commentOrBreakMissing
  | nameMissing
  | tagMarkMissing
  | tagCloseMissing
  | tagUriMissing
  | escapedOctetMissing
  | leadingOctetWrong
  | trailingOctetWrong
  | boundaryInScalar
  | streamEndInScalar
  | escapeUnknown
  | hexDigitMissing
  | escapeNoCharacter
  | colonInPlainScalar
  | tabViolatesIndentation
  | tabAsIndentation
  | indentationZero
  | versionRepeated
  | versionUnsupported
  | tagDirectiveRepeated
  | documentStartMissing
  | tagHandleUndefined
  | nodeMissing
  | dashMissing
  | keyMissing
  | flowSequenceSeparatorMissing
  | flowMappingSeparatorMissing
deriving DecidableEq, Repr

namespace Problem

/-- The wording of a problem. -/
def text : Problem → String
  | .forbiddenCharacter _ => "control characters are not allowed"
  | .noTokenStartsHere => "found character that cannot start any token"
  | .colonMissing => "could not find expected ':'"
  | .sequenceEntryMisplaced => "block sequence entries are not allowed in this context"
  | .mappingKeyMisplaced => "mapping keys are not allowed in this context"
  | .mappingValueMisplaced => "mapping values are not allowed in this context"
  | .directiveNameMissing => "could not find expected directive name"
  | .directiveNameCharacter => "found unexpected non-alphabetical character"
  | .directiveUnknown => "found unknown directive name"
  | .versionTooLong => "found extremely long version number"
  | .versionMissing => "did not find expected version number"
  | .versionPointMissing => "did not find expected digit or '.' character"
  | .whitespaceMissing => "did not find expected whitespace"
  | .whitespaceOrBreakMissing => "did not find expected whitespace or line break"
  | .commentOrBreakMissing => "did not find expected comment or line break"
  | .nameMissing => "did not find expected alphabetic or numeric character"
  | .tagMarkMissing => "did not find expected '!'"
  | .tagCloseMissing => "did not find the expected '>'"
  | .tagUriMissing => "did not find expected tag URI"
  | .escapedOctetMissing => "did not find URI escaped octet"
  | .leadingOctetWrong => "found an incorrect leading UTF-8 octet"
  | .trailingOctetWrong => "found an incorrect trailing UTF-8 octet"
  | .boundaryInScalar => "found unexpected document indicator"
  | .streamEndInScalar => "found unexpected end of stream"
  | .escapeUnknown => "found unknown escape character"
  | .hexDigitMissing => "did not find expected hexadecimal number"
  | .escapeNoCharacter => "found invalid Unicode character escape code"
  | .colonInPlainScalar => "found unexpected ':'"
  | .tabViolatesIndentation => "found a tab character that violates indentation"
  | .tabAsIndentation => "found a tab character where an indentation space is expected"
  | .indentationZero => "found an indentation indicator equal to 0"
  | .versionRepeated => "found duplicate %YAML directive"
  | .versionUnsupported => "found incompatible YAML document"
  | .tagDirectiveRepeated => "found duplicate %TAG directive"
  | .documentStartMissing => "did not find expected <document start>"
  | .tagHandleUndefined => "found undefined tag handle"
  | .nodeMissing => "did not find expected node content"
  | .dashMissing => "did not find expected '-' indicator"
  | .keyMissing => "did not find expected key"
  | .flowSequenceSeparatorMissing => "did not find expected ',' or ']'"
  | .flowMappingSeparatorMissing => "did not find expected ',' or '\x7d'"

/-- A forbidden character is found before places are counted, so its byte offset stands in. -/
def offset : Problem → Nat
  | .forbiddenCharacter offset => offset
  | _ => 0

end Problem

/-- What was being read when a problem was found. -/
inductive Activity where
  | nextToken
  | simpleKey
  | directive
  | versionDirective
  | tagDirective
  | tagDirectiveMark
  | tagDirectiveHandle
  | tagDirectiveUri
  | tag
  | tagUri
  | anchor
  | aliasName
  | quotedScalar
  | quotedEscape
  | plainScalar
  | blockScalar
  | node
  | blockNode
  | flowNode
  | blockCollection
  | blockMapping
  | flowSequence
  | flowMapping
deriving DecidableEq, Repr

/-- The wording of an activity. -/
def Activity.text : Activity → String
  | .nextToken => "while scanning for the next token"
  | .simpleKey => "while scanning a simple key"
  | .directive => "while scanning a directive"
  | .versionDirective => "while scanning a %YAML directive"
  | .tagDirective => "while scanning a %TAG directive"
  | .tagDirectiveMark => "while scanning a tag directive"
  | .tagDirectiveHandle => "while parsing a tag directive"
  | .tagDirectiveUri => "while parsing a %TAG directive"
  | .tag => "while scanning a tag"
  | .tagUri => "while parsing a tag"
  | .anchor => "while scanning an anchor"
  | .aliasName => "while scanning an alias"
  | .quotedScalar => "while scanning a quoted scalar"
  | .quotedEscape => "while parsing a quoted scalar"
  | .plainScalar => "while scanning a plain scalar"
  | .blockScalar => "while scanning a block scalar"
  | .node => "while parsing a node"
  | .blockNode => "while parsing a block node"
  | .flowNode => "while parsing a flow node"
  | .blockCollection => "while parsing a block collection"
  | .blockMapping => "while parsing a block mapping"
  | .flowSequence => "while parsing a flow sequence"
  | .flowMapping => "while parsing a flow mapping"

/-- A fault of a text: a problem, its place, and what was being read from where. -/
structure TextFault where
  problem : Problem
  mark : Mark
  activity : Option (Activity × Mark) := none
deriving DecidableEq, Repr

namespace TextFault

/-- A fault found while something else was being read. -/
def during (activity : Activity) (began : Mark) (problem : Problem) (mark : Mark) : TextFault :=
  ⟨problem, mark, some (activity, began)⟩

/-- Where the problem is: its place, or the byte offset when places are not yet counted. -/
def place (fault : TextFault) : String :=
  if fault.mark.atOrigin then
    if fault.problem.offset == 0 then "" else " at position " ++ toString fault.problem.offset
  else fault.mark.suffix

/-- What was being read, with its place unless that is the problem's own. -/
def background (fault : TextFault) : String :=
  match fault.activity with
  | none => ""
  | some (activity, began) =>
    ", " ++ activity.text ++ if began == fault.mark then "" else began.suffix

/-- The wording of a fault. -/
def message (fault : TextFault) : String :=
  fault.problem.text ++ fault.place ++ fault.background

end TextFault

end Provisioning.Yaml
