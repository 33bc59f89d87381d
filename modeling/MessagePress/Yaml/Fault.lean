/-! Why a text is not a document, and where that shows. -/

namespace MessagePress.Yaml

/-- A place in a text, all parts counted from zero and in characters. -/
structure Mark where
  index : Nat
  line : Nat
  column : Nat
  deriving DecidableEq, Repr

def Mark.start : Mark := ⟨0, 0, 0⟩

def Mark.isStart (mark : Mark) : Bool := mark.line == 0 && mark.column == 0

def Mark.message (mark : Mark) : String := s!"line {mark.line + 1} column {mark.column + 1}"

/-- Why bytes are not readable characters. -/
inductive Unreadable
  | leadingOctet
  | incompleteSequence
  | trailingOctet
  | sequenceLength
  | invalidCharacter
  | controlCharacter
  deriving DecidableEq, Repr

def Unreadable.message : Unreadable → String
  | .leadingOctet => "invalid leading UTF-8 octet"
  | .incompleteSequence => "incomplete UTF-8 octet sequence"
  | .trailingOctet => "invalid trailing UTF-8 octet"
  | .sequenceLength => "invalid length of a UTF-8 sequence"
  | .invalidCharacter => "invalid Unicode character"
  | .controlCharacter => "control characters are not allowed"

/-- What was being read when a problem arose. -/
inductive Context
  | nextToken
  | simpleKey
  | directive
  | yamlDirective
  | tagDirective
  | tagDirectiveHandle
  | tagDirectiveHandleEnd
  | tagDirectiveUri
  | anchor
  | alias
  | tag
  | tagUri
  | blockScalar
  | quotedScalar
  | quotedEscape
  | plainScalar
  | node
  | blockNode
  | flowNode
  | blockSequence
  | blockMapping
  | flowSequence
  | flowMapping
  deriving DecidableEq, Repr

def Context.message : Context → String
  | .nextToken => "while scanning for the next token"
  | .simpleKey => "while scanning a simple key"
  | .directive => "while scanning a directive"
  | .yamlDirective => "while scanning a %YAML directive"
  | .tagDirective => "while scanning a %TAG directive"
  | .tagDirectiveHandle => "while scanning a tag directive"
  | .tagDirectiveHandleEnd => "while parsing a tag directive"
  | .tagDirectiveUri => "while parsing a %TAG directive"
  | .anchor => "while scanning an anchor"
  | .alias => "while scanning an alias"
  | .tag => "while scanning a tag"
  | .tagUri => "while parsing a tag"
  | .blockScalar => "while scanning a block scalar"
  | .quotedScalar => "while scanning a quoted scalar"
  | .quotedEscape => "while parsing a quoted scalar"
  | .plainScalar => "while scanning a plain scalar"
  | .node => "while parsing a node"
  | .blockNode => "while parsing a block node"
  | .flowNode => "while parsing a flow node"
  | .blockSequence => "while parsing a block collection"
  | .blockMapping => "while parsing a block mapping"
  | .flowSequence => "while parsing a flow sequence"
  | .flowMapping => "while parsing a flow mapping"

/-- What is wrong with a text. -/
inductive Problem
  | cannotStartToken
  | missingColon
  | unknownDirective
  | trailingDirectiveText
  | emptyDirectiveName
  | directiveNameCharacter
  | versionSeparator
  | longVersionNumber
  | missingVersionNumber
  | missingWhitespace
  | missingWhitespaceOrBreak
  | missingNameCharacter
  | missingTagEnd
  | missingExclamation
  | missingTagUri
  | missingUriOctet
  | uriLeadingOctet
  | uriTrailingOctet
  | missingCommentOrBreak
  | zeroIndentation
  | tabIndentation
  | documentIndicator
  | endOfStream
  | unknownEscape
  | missingHexDigits
  | invalidEscapeCode
  | unexpectedColon
  | tabViolatesIndentation
  | blockEntryNotAllowed
  | mappingKeyNotAllowed
  | mappingValueNotAllowed
  | missingDocumentStart
  | duplicateYamlDirective
  | duplicateTagDirective
  | incompatibleDocument
  | undefinedTagHandle
  | missingNodeContent
  | missingBlockEntry
  | missingKey
  | missingSequenceEnd
  | missingMappingEnd
  deriving DecidableEq, Repr

def Problem.message : Problem → String
  | .cannotStartToken => "found character that cannot start any token"
  | .missingColon => "could not find expected ':'"
  | .unknownDirective => "found unknown directive name"
  | .trailingDirectiveText => "did not find expected comment or line break"
  | .emptyDirectiveName => "could not find expected directive name"
  | .directiveNameCharacter => "found unexpected non-alphabetical character"
  | .versionSeparator => "did not find expected digit or '.' character"
  | .longVersionNumber => "found extremely long version number"
  | .missingVersionNumber => "did not find expected version number"
  | .missingWhitespace => "did not find expected whitespace"
  | .missingWhitespaceOrBreak => "did not find expected whitespace or line break"
  | .missingNameCharacter => "did not find expected alphabetic or numeric character"
  | .missingTagEnd => "did not find the expected '>'"
  | .missingExclamation => "did not find expected '!'"
  | .missingTagUri => "did not find expected tag URI"
  | .missingUriOctet => "did not find URI escaped octet"
  | .uriLeadingOctet => "found an incorrect leading UTF-8 octet"
  | .uriTrailingOctet => "found an incorrect trailing UTF-8 octet"
  | .missingCommentOrBreak => "did not find expected comment or line break"
  | .zeroIndentation => "found an indentation indicator equal to 0"
  | .tabIndentation => "found a tab character where an indentation space is expected"
  | .documentIndicator => "found unexpected document indicator"
  | .endOfStream => "found unexpected end of stream"
  | .unknownEscape => "found unknown escape character"
  | .missingHexDigits => "did not find expected hexadecimal number"
  | .invalidEscapeCode => "found invalid Unicode character escape code"
  | .unexpectedColon => "found unexpected ':'"
  | .tabViolatesIndentation => "found a tab character that violates indentation"
  | .blockEntryNotAllowed => "block sequence entries are not allowed in this context"
  | .mappingKeyNotAllowed => "mapping keys are not allowed in this context"
  | .mappingValueNotAllowed => "mapping values are not allowed in this context"
  | .missingDocumentStart => "did not find expected <document start>"
  | .duplicateYamlDirective => "found duplicate %YAML directive"
  | .duplicateTagDirective => "found duplicate %TAG directive"
  | .incompatibleDocument => "found incompatible YAML document"
  | .undefinedTagHandle => "found undefined tag handle"
  | .missingNodeContent => "did not find expected node content"
  | .missingBlockEntry => "did not find expected '-' indicator"
  | .missingKey => "did not find expected key"
  | .missingSequenceEnd => "did not find expected ',' or ']'"
  | .missingMappingEnd => "did not find expected ',' or '\x7d'"

/-- A fault of the text itself: bytes that are no characters, at a byte offset, or
characters that form no document. -/
inductive SyntaxFault
  | unreadable (cause : Unreadable) (offset : Nat)
  | malformed (problem : Problem) (mark : Mark) (context : Option (Context × Mark))
  deriving DecidableEq, Repr

/-- Marks at the very start of a text are not shown, nor is a context's mark where it is
that of the problem. -/
def SyntaxFault.message : SyntaxFault → String
  | .unreadable cause offset =>
    cause.message ++ if offset = 0 then "" else s!" at position {offset}"
  | .malformed problem mark context =>
    let place := if mark.isStart then "" else " at " ++ mark.message
    let background := match context with
      | none => ""
      | some (context, start) =>
        let elsewhere := !start.isStart && (start.line != mark.line || start.column != mark.column)
        ", " ++ context.message ++ if elsewhere then " at " ++ start.message else ""
    problem.message ++ place ++ background

end MessagePress.Yaml
