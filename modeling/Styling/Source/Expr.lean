import Styling.Source.Token

/-!
# Expressions in source texts

The expressions that annotations are made of: names and constants, members, arguments in square
brackets, bars, minus signs, and expressions side by side in round or square brackets. They are
read token by token, with a stack of what is open around the place that has been reached.
-/

namespace Styling

inductive SourceExpr where
  | name (s : String)
  | constant (v : Value)
  | dots
  | member (e : SourceExpr) (name : String)
  | subscript (e argument : SourceExpr)
  | either (left right : SourceExpr)
  | negative (e : SourceExpr)
  | tuple (items : List SourceExpr)
  | list (items : List SourceExpr)

instance : Inhabited SourceExpr := ⟨.dots⟩

/-- What expressions side by side stand in. -/
inductive Enclosure where
  /-- The text itself. -/
  | text
  | round
  | square
  /-- Square brackets after an expression. -/
  | arguments (e : SourceExpr)

/-- The expression that an enclosure makes of the items before its last comma and of what follows
that. A single item without a comma is no tuple. -/
def Enclosure.close (items : List SourceExpr) (last : Option SourceExpr) :
    Enclosure → Option SourceExpr
  | .text =>
    match items, last with
    | [], none => none
    | [], some e => some e
    | items, last => some (.tuple (items ++ last.toList))
  | .round =>
    match items, last with
    | [], some e => some e
    | items, last => some (.tuple (items ++ last.toList))
  | .square => some (.list (items ++ last.toList))
  | .arguments head =>
    match items, last with
    | [], none => none
    | [], some e => some (.subscript head e)
    | items, last => some (.subscript head (.tuple (items ++ last.toList)))

/-- The bracket closes the enclosure. -/
def Enclosure.closedBy (bracket : Char) : Enclosure → Bool
  | .text => false
  | .round => bracket = ')'
  | .square => bracket = ']'
  | .arguments _ => bracket = ']'

def Enclosure.isText : Enclosure → Bool
  | .text => true
  | _ => false

/-- What is open around the place that has been reached. -/
inductive Frame where
  /-- A bar whose left side is complete. -/
  | either (left : SourceExpr)
  | minus
  /-- An enclosure with the items before the last comma. -/
  | enclosed (enclosure : Enclosure) (items : List SourceExpr)

/-- How far an expression has been read: one is wanted, one is complete, the name of a member is
wanted, or the line of the whole expression has ended. -/
inductive Reached where
  | wanted
  | complete (e : SourceExpr)
  | memberOf (e : SourceExpr)
  | ended (e : SourceExpr)

/-- Closes what an expression ends that stands in no enclosure of its own. -/
def closeOperators (e : SourceExpr) : List Frame → SourceExpr × List Frame
  | .minus :: frames => closeOperators (.negative e) frames
  | .either left :: frames => closeOperators (.either left e) frames
  | frames => (e, frames)

/-- Closes the innermost enclosure by a bracket. -/
def closeBracket (bracket : Char) (last : Option SourceExpr) :
    List Frame → Option (Reached × List Frame)
  | .enclosed enclosure items :: frames =>
    if enclosure.closedBy bracket then
      (enclosure.close items last).map fun e => (.complete e, frames)
    else none
  | _ => none

/-- Ends the line of the whole expression. -/
def endLine (last : Option SourceExpr) : List Frame → Option (Reached × List Frame)
  | [.enclosed .text items] =>
    (Enclosure.close items last .text).map fun e => (.ended e, [.enclosed .text items])
  | _ => none

/-- What one more token leads to; nothing where the token cannot stand. -/
def SourceToken.step (token : SourceToken) : Reached → List Frame → Option (Reached × List Frame)
  | .wanted, frames =>
    match token with
    | .name s => some (.complete (.name s), frames)
    | .constant v => some (.complete (.constant v), frames)
    | .dots => some (.complete .dots, frames)
    | .mark '(' => some (.wanted, .enclosed .round [] :: frames)
    | .mark '[' => some (.wanted, .enclosed .square [] :: frames)
    | .mark '-' => some (.wanted, .minus :: frames)
    | .mark c => closeBracket c none frames
    | .lineEnd =>
      match frames with
      -- Empty lines in front of the expression are passed over.
      | [.enclosed .text []] => some (.wanted, frames)
      | frames => endLine none frames
    | _ => none
  | .memberOf e, frames =>
    match token with
    | .name s => some (.complete (.member e s), frames)
    | _ => none
  | .complete e, frames =>
    match token with
    | .mark '.' => some (.memberOf e, frames)
    | .mark '[' => some (.wanted, .enclosed (.arguments e) [] :: frames)
    | .mark '|' =>
      let (e, frames) := closeOperators e frames
      some (.wanted, .either e :: frames)
    | .mark ',' =>
      match closeOperators e frames with
      | (e, .enclosed enclosure items :: frames) =>
        some (.wanted, .enclosed enclosure (items ++ [e]) :: frames)
      | _ => none
    | .mark c =>
      let (e, frames) := closeOperators e frames
      closeBracket c (some e) frames
    | .lineEnd =>
      let (e, frames) := closeOperators e frames
      endLine (some e) frames
    | _ => none
  | .ended e, frames =>
    match token with
    | .lineEnd => some (.ended e, frames)
    | _ => none

/-! ## Where reading stops -/

/-- The first name of an expression as it is written, if it starts with one. -/
def SourceExpr.firstName? : SourceExpr → Option String
  | .name s => some s
  | .member e _ => e.firstName?
  | .subscript e _ => e.firstName?
  | .either left _ => left.firstName?
  | _ => none

/-- The names that are always themselves. -/
def constantNames : List String := ["None", "True", "False"]

/-- The expression is a name that can mean anything. -/
def SourceExpr.isName : SourceExpr → Bool
  | .name s => !constantNames.contains s
  | _ => false

/-- The token is an expression. -/
def SourceToken.isOperand : SourceToken → Bool
  | .name _ => true
  | .constant _ => true
  | .dots => true
  | _ => false

def SourceToken.isText : SourceToken → Bool
  | .constant (.text _) => true
  | _ => false

/-- Names that are words of the language in some places. -/
def softKeywords : List String := ["_", "case", "match"]

/-- Between a complete expression and the token a comma may be missing: both stand inside brackets,
and the first is no mere name in front of a text, which may be a marker of the text. -/
def SourceToken.missesComma (token : SourceToken) : Reached → List Frame → Bool
  | .complete e, frames =>
    -- What counts is the whole item before the token, and what that stands in.
    let (item, outer) := closeOperators e frames
    let enclosed :=
      match outer with
      | .enclosed enclosure _ :: _ => !enclosure.isText
      | _ => false
    enclosed && token.isOperand
      && !(e.isName && outer.length = frames.length && token.isText)
      && !(item.firstName?.any softKeywords.contains)
  | _, _ => false

/-- The token starts an expression right after one that is complete. -/
def SourceToken.isAside (token : SourceToken) : Reached → Bool
  | .complete _ => token.isOperand
  | _ => false

/-- The tokens are the start of a single expression, or one that ends with them. -/
def endInside : List PlacedToken → Reached → List Frame → Bool
  | [], _, _ => true
  | p :: ps, reached, frames =>
    match p.token.step reached frames with
    -- A comma outside all brackets: these are several expressions.
    | some (_, [.enclosed .text (_ :: _)]) => false
    | some (.ended _, _) => false
    | some (reached, frames) => endInside ps reached frames
    | none => false

/-- Where reading stops before there is an expression. -/
inductive Stop where
  /-- At the end of the text. -/
  | atEnd
  /-- At a token that cannot stand there; perhaps a comma is missing before it. -/
  | atToken (p : PlacedToken) (missesComma : Bool)

/-- Reads all tokens. Where two expressions stand side by side and the second one has no end, that
is the end of the text. -/
def readSource : List PlacedToken → Reached → List Frame → Except Stop SourceExpr
  | [], reached, frames =>
    match SourceToken.lineEnd.step reached frames with
    | some (.ended e, _) => .ok e
    | _ => .error .atEnd
  | p :: ps, reached, frames =>
    match p.token.step reached frames with
    | some (reached, frames) => readSource ps reached frames
    | none =>
      if p.token.isAside reached && endInside (p :: ps) .wanted [.enclosed .text []] then
        .error .atEnd
      else .error (.atToken p (p.token.missesComma reached frames))

/-- The expression of the tokens. -/
def TokenRun.read (r : TokenRun) : Except Stop SourceExpr :=
  readSource r.tokens .wanted [.enclosed .text []]

/-- What is wrong with a text whose tokens stop an expression. -/
def Stop.malformed (s : List Char) (r : TokenRun) : Stop → Malformed
  | .atEnd =>
    match r.unclosed with
    | some o => ⟨.neverClosed o.bracket, lineAt s o.left⟩
    | none => ⟨.unexpected, lineCount s⟩
  | .atToken p missesComma =>
    let fault :=
      match p.token with
      | .indent => .unexpectedIndent
      | _ => if missesComma then .missingComma else .unexpected
    ⟨fault, lineAt s p.left⟩

/-- The expression that a source text writes, blanks in front of it apart. -/
def SourceExpr.ofText (s : List Char) : Except Malformed SourceExpr :=
  let s := unifyLineEnds (s.dropWhile fun c => c = ' ' || c = '\t')
  match sourceTokens s with
  | .error m => .error m
  | .ok r =>
    match r.read with
    | .ok e => .ok e
    | .error stop => .error (stop.malformed s r)

/-! ## Names of types -/

/-- The token can stand in an expression of some other sort. -/
def SourceToken.mayOperate : SourceToken → Bool
  | .mark c =>
    ['+', '-', '*', '/', '%', '@', '&', '^', '~', '<', '>', '=', '!', ':', '(', '\x7b'].contains c
  | .keyword s =>
    ["and", "await", "else", "for", "if", "in", "is", "lambda", "not", "or"].contains s
  | _ => false

/-- The text can name a type that is not known yet: nothing in it contradicts that it is an
expression. -/
def canNameType (s : List Char) : Bool :=
  s.head?.all (fun c => !isSourceBlank c) &&
    match sourceTokens (unifyLineEnds s) with
    | .error _ => false
    | .ok r =>
      match r.read with
      | .ok _ => true
      | .error .atEnd => false
      | .error (.atToken p _) => p.token.mayOperate

end Styling
