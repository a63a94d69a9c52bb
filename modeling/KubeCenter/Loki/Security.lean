import KubeCenter.Lib.Bytes

/-! # Namespace enforcement of LogQL queries

`loki/security.go`: a query is split at the closing brace of its stream selector, every matcher on
`namespace` is replaced by one the server builds, and the query is written out again. -/
namespace KubeCenter.Loki

open Lib

def maxQueryLen : Nat := 4096

def openBrace : UInt8 := byte '\x7b'

def closeBrace : UInt8 := byte '\x7d'

inductive MatchOp where
  | eq
  | ne
  | re
  | nre
deriving DecidableEq

def MatchOp.write : MatchOp → Bytes
  | .eq => [byte '=']
  | .ne => [byte '!', byte '=']
  | .re => [byte '=', byte '~']
  | .nre => [byte '!', byte '~']

/-- A matcher of a stream selector; `value` is unquoted, with internal escapes
preserved. -/
structure Matcher where
  label : Bytes
  op : MatchOp
  value : Bytes
deriving DecidableEq

/-! ## Errors -/

/-- Why `parseMatchers` refuses a selector. -/
inductive SelectorError where
  | expectedLabel (position : Nat)
  | expectedOperator (label : Bytes)
  | invalidOperator (label : Bytes)
  | expectedValue (label : Bytes) (op : MatchOp)
  | unclosedValue (label : Bytes)
deriving DecidableEq

/-- Why `EnforceNamespaces` refuses a query. -/
inductive QueryError where
  | tooLong
  | noNamespaces
  | noSelector
  | unclosedSelector
  | selector (e : SelectorError)
deriving DecidableEq

def showAscii (s : Bytes) : String := String.ofList (s.map fun b => Char.ofNat b.toNat)

-- A label is letters, digits and underscores, so `%q` only adds the quotes.
def SelectorError.text : SelectorError → String
  | .expectedLabel i => "expected label name at position " ++ toString i
  | .expectedOperator label => "expected operator after label \"" ++ showAscii label ++ "\""
  | .invalidOperator label =>
    "invalid operator after label \"" ++ showAscii label ++ "\": expected =, !=, =~, or !~"
  | .expectedValue label op =>
    "expected quoted value after " ++ showAscii label ++ showAscii op.write
  | .unclosedValue label => "invalid value for " ++ showAscii label ++ ": unclosed quoted value"

def QueryError.text : QueryError → String
  | .tooLong => "query exceeds maximum length of " ++ toString maxQueryLen ++ " bytes"
  | .noNamespaces => "no namespaces allowed"
  | .noSelector => "invalid LogQL: query must start with a stream selector '\x7b'"
  | .unclosedSelector => "invalid LogQL: unclosed stream selector"
  | .selector e => "invalid LogQL selector: " ++ e.text

/-! ## Finding the end of the selector -/

/-- The loop of `findClosingBrace`, at index `i` with the bytes from there on. -/
@[simp] def findClosingBraceFrom (inQuote escaped : Bool) (i : Nat) : Bytes → Option Nat
  | [] => none
  | ch :: rest =>
    if escaped then findClosingBraceFrom inQuote false (i + 1) rest
    else if ch = byte '\\' ∧ inQuote then findClosingBraceFrom inQuote true (i + 1) rest
    else if ch = byte '"' then findClosingBraceFrom (!inQuote) escaped (i + 1) rest
    else if !inQuote ∧ ch = closeBrace then some i
    else findClosingBraceFrom inQuote escaped (i + 1) rest

def findClosingBrace (s : Bytes) : Option Nat := findClosingBraceFrom false false 1 (s.drop 1)

/-! ## Parsing the selector -/

def isLabelChar (ch : UInt8) : Bool :=
  (byte 'a' ≤ ch && ch ≤ byte 'z') || (byte 'A' ≤ ch && ch ≤ byte 'Z') ||
    (byte '0' ≤ ch && ch ≤ byte '9') || ch == byte '_'

def isBlank (ch : UInt8) : Bool := ch == byte ' ' || ch == byte '\t'

def isSeparator (ch : UInt8) : Bool := isBlank ch || ch == byte ','

/-- The operator at the start of `s` and what follows it. -/
def parseOp : Bytes → Option (MatchOp × Bytes)
  | [] => none
  | [a] => if a = byte '=' then some (.eq, []) else none
  | a :: b :: rest =>
    if a = byte '!' ∧ b = byte '=' then some (.ne, rest)
    else if a = byte '=' ∧ b = byte '~' then some (.re, rest)
    else if a = byte '!' ∧ b = byte '~' then some (.nre, rest)
    else if a = byte '=' then some (.eq, b :: rest)
    else none

/-- The loop of `parseQuotedValue`; `sb` is the value read so far. -/
@[simp] def parseQuotedValueFrom (sb : Bytes) (escaped : Bool) : Bytes → Option (Bytes × Bytes)
  | [] => none
  | ch :: rest =>
    if escaped then parseQuotedValueFrom (sb ++ [byte '\\', ch]) false rest
    else if ch = byte '\\' then parseQuotedValueFrom sb true rest
    else if ch = byte '"' then some (sb, rest)
    else parseQuotedValueFrom (sb ++ [ch]) false rest

/-- The value after an opening quote and what follows its closing quote, if it
has one. -/
def parseQuotedValue (s : Bytes) : Option (Bytes × Bytes) := parseQuotedValueFrom [] false s

/-- The matcher at the start of `s`, in a selector of `n` bytes, and what follows it. -/
def parseMatcher (n : Nat) (s : Bytes) : Except SelectorError (Matcher × Bytes) :=
  let label := s.takeWhile isLabelChar
  if label = [] then .error (.expectedLabel (n - s.length))
  else
    match (s.dropWhile isLabelChar).dropWhile isBlank with
    | [] => .error (.expectedOperator label)
    | c :: cs =>
      match parseOp (c :: cs) with
      | none => .error (.invalidOperator label)
      | some (op, rest) =>
        match rest.dropWhile isBlank with
        | [] => .error (.expectedValue label op)
        | q :: quoted =>
          if q ≠ byte '"' then .error (.expectedValue label op)
          else
            match parseQuotedValue quoted with
            | none => .error (.unclosedValue label)
            | some (value, rest) => .ok (⟨label, op, value⟩, rest)

/-- Every round reads at least one byte, so the length of the selector bounds their number. -/
def parseMatchersLoop (n : Nat) : Nat → Bytes → Except SelectorError (List Matcher)
  | 0, _ => .ok []
  | fuel + 1, s =>
    match s.dropWhile isSeparator with
    | [] => .ok []
    | c :: cs =>
      match parseMatcher n (c :: cs) with
      | .error e => .error e
      | .ok (m, rest) => (m :: ·) <$> parseMatchersLoop n fuel rest

def parseMatchers (content : Bytes) : Except SelectorError (List Matcher) :=
  let content := trimSpace content
  parseMatchersLoop content.length content.length content

/-! ## The rewrite -/

def isRegexMeta (ch : UInt8) : Bool := (ascii ".+*?()[]\x7b\x7d|^$\\").contains ch

def escapeRegexValue (s : Bytes) : Bytes :=
  s.flatMap fun ch => if isRegexMeta ch then [byte '\\', ch] else [ch]

def namespaceLabel : Bytes := ascii "namespace"

def nsMatcher : List Bytes → Matcher
  | [ns] => ⟨namespaceLabel, .eq, ns⟩
  | allowed => ⟨namespaceLabel, .re, List.intercalate [byte '|'] (allowed.map escapeRegexValue)⟩

def Matcher.write (m : Matcher) : Bytes :=
  m.label ++ m.op.write ++ byte '"' :: m.value ++ [byte '"']

/-- The matchers with a comma before each but the first. -/
def writeMatchers : List Matcher → Bytes
  | [] => []
  | m :: ms => m.write ++ ms.flatMap fun m => byte ',' :: m.write

/-- No list of namespaces (`nil`) is an administrator, who is not restricted. -/
def enforceNamespaces (query : Bytes) (allowedNamespaces : Option (List Bytes)) :
    Except QueryError Bytes :=
  if maxQueryLen < query.length then .error .tooLong
  else
    match allowedNamespaces with
    | none => .ok query
    | some [] => .error .noNamespaces
    | some allowed =>
      let trimmed := trimSpace query
      if trimmed.head? ≠ some openBrace then .error .noSelector
      else
        match findClosingBrace trimmed with
        | none => .error .unclosedSelector
        | some closeIdx =>
          let selectorContent := (trimmed.take closeIdx).drop 1
          let pipeline := trimmed.drop (closeIdx + 1)
          match parseMatchers selectorContent with
          | .error e => .error (.selector e)
          | .ok matchers =>
            let filtered := matchers.filter fun m => m.label ≠ namespaceLabel
            .ok (openBrace :: writeMatchers (nsMatcher allowed :: filtered) ++
              closeBrace :: pipeline)

end KubeCenter.Loki
