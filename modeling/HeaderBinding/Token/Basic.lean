/-
The tokens of an Objective-C header.

* `TokenKind`: what a token is; `TokenKind.label` is its written name and
  `TokenKind.ofLabel?` reads the name back;
* `ofLabel?_label`: reading the name of a kind gives the kind;
* `Token`: a kind, the text it carries and where it starts.
-/

namespace HeaderBinding

/-- What a token is. -/
inductive TokenKind
  | identifier | string | number | char
  | atInterface | atEnd | atProtocol | atProperty | atOptional
  | atRequired | atClass
  | kwTypedef | kwEnum | kwStruct | kwUnion | kwConst | kwVoid | kwExtern
  | kwStatic | kwInline
  | openParen | closeParen | openBrace | closeBrace | openBracket
  | closeBracket | openAngle | closeAngle
  | semicolon | colon | comma | asterisk | minus | plus | equals | dot
  | ellipsis | caret | ampersand | pipe | tilde | exclamation | slash
  | percent
  | directive | nonnullBegin | nonnullEnd
  | endOfInput | unknown
deriving DecidableEq, Repr

namespace TokenKind

/-- Every kind, in the order of the declaration. -/
def all : List TokenKind :=
  [identifier, string, number, char, atInterface, atEnd, atProtocol,
    atProperty, atOptional, atRequired, atClass, kwTypedef, kwEnum,
    kwStruct, kwUnion, kwConst, kwVoid, kwExtern, kwStatic, kwInline,
    openParen, closeParen, openBrace, closeBrace, openBracket,
    closeBracket, openAngle, closeAngle, semicolon, colon, comma, asterisk,
    minus, plus, equals, dot, ellipsis, caret, ampersand, pipe, tilde,
    exclamation, slash, percent, directive, nonnullBegin, nonnullEnd,
    endOfInput, unknown]

/-- The written name of a kind: the spelling where it has only one. -/
def label : TokenKind → String
  | identifier => "identifier"
  | string => "string"
  | number => "number"
  | char => "char"
  | atInterface => "@interface"
  | atEnd => "@end"
  | atProtocol => "@protocol"
  | atProperty => "@property"
  | atOptional => "@optional"
  | atRequired => "@required"
  | atClass => "@class"
  | kwTypedef => "typedef"
  | kwEnum => "enum"
  | kwStruct => "struct"
  | kwUnion => "union"
  | kwConst => "const"
  | kwVoid => "void"
  | kwExtern => "extern"
  | kwStatic => "static"
  | kwInline => "inline"
  | openParen => "("
  | closeParen => ")"
  | openBrace => "\x7b"
  | closeBrace => "\x7d"
  | openBracket => "["
  | closeBracket => "]"
  | openAngle => "<"
  | closeAngle => ">"
  | semicolon => ";"
  | colon => ":"
  | comma => ","
  | asterisk => "*"
  | minus => "-"
  | plus => "+"
  | equals => "="
  | dot => "."
  | ellipsis => "..."
  | caret => "^"
  | ampersand => "&"
  | pipe => "|"
  | tilde => "~"
  | exclamation => "!"
  | slash => "/"
  | percent => "%"
  | directive => "directive"
  | nonnullBegin => "nonnull_begin"
  | nonnullEnd => "nonnull_end"
  | endOfInput => "eof"
  | unknown => "unknown"

/-- The kind with a written name. -/
def ofLabel? (name : String) : Option TokenKind :=
  all.find? fun kind => kind.label == name

theorem ofLabel?_label (kind : TokenKind) :
    ofLabel? kind.label = some kind := by
  cases kind <;> decide +kernel

end TokenKind

/-- A token: its kind, the text it carries, and the line and column of its
first character, both counted from one. -/
structure Token where
  kind : TokenKind
  value : String
  line : Nat
  column : Nat
deriving DecidableEq, Repr

/-- The word after an at sign that makes it a keyword. -/
def atKeyword? (word : String) : Option TokenKind :=
  match word with
  | "interface" => some .atInterface
  | "end" => some .atEnd
  | "protocol" => some .atProtocol
  | "property" => some .atProperty
  | "optional" => some .atOptional
  | "required" => some .atRequired
  | "class" => some .atClass
  | _ => none

/-- The kind of a plain word: a keyword, a nonnull marker or an
identifier. -/
def wordKind (word : String) : TokenKind :=
  match word with
  | "typedef" => .kwTypedef
  | "enum" => .kwEnum
  | "struct" => .kwStruct
  | "union" => .kwUnion
  | "const" => .kwConst
  | "void" => .kwVoid
  | "extern" => .kwExtern
  | "static" => .kwStatic
  | "inline" => .kwInline
  | "NS_ASSUME_NONNULL_BEGIN" => .nonnullBegin
  | "NS_ASSUME_NONNULL_END" => .nonnullEnd
  | _ => .identifier

/-- The kind of a character that stands alone. -/
def punctuationKind (c : Char) : TokenKind :=
  match c with
  | '(' => .openParen
  | ')' => .closeParen
  | '{' => .openBrace
  | '}' => .closeBrace
  | '[' => .openBracket
  | ']' => .closeBracket
  | '<' => .openAngle
  | '>' => .closeAngle
  | ';' => .semicolon
  | ':' => .colon
  | ',' => .comma
  | '*' => .asterisk
  | '-' => .minus
  | '+' => .plus
  | '=' => .equals
  | '.' => .dot
  | '^' => .caret
  | '&' => .ampersand
  | '|' => .pipe
  | '~' => .tilde
  | '!' => .exclamation
  | '/' => .slash
  | '%' => .percent
  | _ => .unknown

end HeaderBinding
