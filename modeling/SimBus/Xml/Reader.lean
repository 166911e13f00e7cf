import SimBus.Text.Digits
import SimBus.Xml.Tree
/-!
Reading XML documents. A document that is not well-formed has no elements, and
what is wrong with it is not told. Of a document type declaration the internal
entities count; external ones are never fetched.

The text of an entity is read in place and need not be a content of its own.
It may open an element that is closed later, or close one around it. It may
also end inside a tag: the attributes read so far then go to the next tag.
-/

namespace SimBus.Xml

structure Cursor where
  rest : List Char
  line : Nat
  /-- How many references stood in the entity that is being resolved. -/
  references : Nat
  tree : Tree
  /-- The attributes that the next tag to end will take. -/
  attributes : Attributes
  /-- Whether an element has begun in the text. Before that no end tag may
  stand in the text of an entity. -/
  begun : Bool

abbrev Reader := StateT Cursor Option

def skip (count : Nat) : Reader Unit :=
  modify fun cursor =>
    { cursor with
      rest := cursor.rest.drop count
      line := cursor.line + (cursor.rest.take count).count '\n' }

def startsWith (mark : String) : Reader Bool := do
  return mark.toList.isPrefixOf (← get).rest

def expect (mark : String) : Reader Unit := do
  if ← startsWith mark then skip mark.length else failure

def accept (mark : String) : Reader Bool := do
  if ← startsWith mark then
    skip mark.length
    return true
  else return false

def takeWhile (p : Char → Bool) : Reader (List Char) := do
  let taken := (← get).rest.takeWhile p
  skip taken.length
  return taken

def spaces : Reader Unit := do
  let _ ← takeWhile isSpace

def someSpaces : Reader Unit := do
  if (← takeWhile isSpace).isEmpty then failure

/-- The characters before the first `mark`. All of them have to be allowed. -/
def before? (mark : List Char) : List Char → Option (List Char)
  | [] => none
  | c :: rest =>
      if mark.isPrefixOf (c :: rest) then some []
      else if isAllowed c then (before? mark rest).map (c :: ·)
      else none

def takeUntil (mark : String) : Reader (List Char) := do
  match before? mark.toList (← get).rest with
  | some text =>
      skip (text.length + mark.length)
      return text
  | none => failure

def quote : Reader Char := do
  match (← get).rest with
  | c :: _ =>
      if c == '"' || c == '\'' then
        skip 1
        return c
      else failure
  | [] => failure

def quoted : Reader (List Char) := do
  let mark ← quote
  let text ← takeWhile (· != mark)
  expect (String.singleton mark)
  return text

def quotedValue : Reader (List Char) := do
  let mark ← quote
  let text ← takeWhile fun c => c != mark && c != '<'
  expect (String.singleton mark)
  if text.all isAllowed then return text else failure

def plainName : Reader String := do
  match (← get).rest with
  | c :: _ => if isNameStart c then String.ofList <$> takeWhile isNameChar else failure
  | [] => failure

def qualifiedName : Reader QualifiedName := do
  match qualifiedName? (← takeWhile isNameChar) with
  | some name => return name
  | none => failure

def equals : Reader Unit := do
  spaces
  expect "="
  spaces

/-- A part of a text with references: a character as it stands, a character
given by a reference, or a reference to an entity. -/
inductive Piece where
  | plain (c : Char)
  | character (c : Char)
  | entity (name : String)

/-- The character of a number. Numbers without a character get the replacement
character, and numbers beyond 32 bits are refused. -/
def characterOf? (base : Nat) (digits : List Char) : Option Char :=
  let n := Digits.number base digits
  if digits.isEmpty || Nat.pow 2 32 ≤ n then none
  else
    let c := if h : n.isValidChar then Char.ofNatAux n h else '\ufffd'
    if isAllowed c then some c else none

def namedPiece (name : String) : Piece :=
  match name with
  | "quot" => .character '"'
  | "amp" => .character '&'
  | "apos" => .character '\''
  | "lt" => .character '<'
  | "gt" => .character '>'
  | _ => .entity name

def reference? (cs : List Char) : Option (Piece × List Char) :=
  let (piece, rest) : Option Piece × List Char := match cs with
    | '#' :: 'x' :: cs =>
        ((characterOf? 16 (cs.takeWhile Digits.isHexadecimal)).map .character,
          cs.dropWhile Digits.isHexadecimal)
    | '#' :: cs =>
        ((characterOf? 10 (cs.takeWhile Char.isDigit)).map .character, cs.dropWhile Char.isDigit)
    | cs =>
        (if cs.head?.any isNameStart then
          some (namedPiece (String.ofList (cs.takeWhile isNameChar))) else none,
          cs.dropWhile isNameChar)
  match piece, rest with
  | some piece, ';' :: rest => some (piece, rest)
  | _, _ => none

/-- Takes a text apart at its references. Line ends become single newlines.
Every step makes the text shorter, so its length is enough `fuel`. -/
def pieces? : (fuel : Nat) → List Char → Option (List Piece)
  | _, [] => some []
  | 0, _ :: _ => none
  | fuel + 1, '&' :: rest => do
      let (piece, rest) ← reference? rest
      return piece :: (← pieces? fuel rest)
  | fuel + 1, '\r' :: '\n' :: rest => do return .plain '\n' :: (← pieces? fuel rest)
  | fuel + 1, c :: rest => do return .plain c :: (← pieces? fuel rest)

def pieces (text : List Char) : Reader (List Piece) :=
  match pieces? text.length text with
  | some pieces => return pieces
  | none => failure

structure Entity where
  name : String
  text : List Char
  line : Nat

def entityDepth : Nat := 10

/-- How many references an entity may contain, counting those inside of others. -/
def referenceLimit : Nat := 255

/-- Looks an entity up, and runs a reader of its text. Here `depth` tells how
much deeper references may go. -/
def resolve {α : Type} (entities : List Entity) (depth : Nat) (name : String)
    (read : Entity → Reader α) : Reader α := do
  match entities.find? (·.name == name) with
  | none => failure
  | some entity =>
      let outermost := depth = entityDepth
      let cursor ← get
      if !outermost && referenceLimit ≤ cursor.references then failure
      let count := if outermost then 0 else cursor.references + 1
      set { cursor with references := count }
      let result ← read entity
      modify fun cursor => { cursor with references := if outermost then 0 else cursor.references }
      return result

def blanked (c : Char) : Char := if isSpace c then ' ' else c

def pieceText (depth : Nat) (entityText : String → Reader (List Char)) :
    Piece → Reader (List Char)
  | .plain c => return [blanked c]
  | .character c =>
      if depth = entityDepth then return [c]
      else if c = '<' then failure
      else return [blanked c]
  | .entity name => entityText name

def valueText (entities : List Entity) : (depth : Nat) → List Char → Reader (List Char)
  | 0, text => do
      return (← (← pieces text).mapM (pieceText 0 fun _ => failure)).flatten
  | depth + 1, text => do
      let resolved (name : String) := resolve entities (depth + 1) name fun entity =>
        valueText entities depth entity.text
      return (← (← pieces text).mapM (pieceText (depth + 1) resolved)).flatten

inductive TagEnd where
  | missing
  | opening
  | empty

def readAttributes (entities : List Entity) (depth : Nat) : (fuel : Nat) → Reader TagEnd
  | 0 => failure
  | fuel + 1 => do
      if (← get).rest.isEmpty then return .missing
      let apart := !(← takeWhile isSpace).isEmpty
      if ← accept ">" then return .opening
      else if ← accept "/>" then return .empty
      else if !apart then failure
      else
        let name ← qualifiedName
        equals
        let value ← valueText entities depth (← quotedValue)
        let cursor ← get
        match cursor.attributes.add? name (String.ofList value) with
        | some attributes =>
            set { cursor with attributes := attributes }
            readAttributes entities depth fuel
        | none => failure

/-- Takes the attributes that were waiting for the end of a tag, and yields the
scope they make. -/
def takeAttributes : Reader (Attributes × Namespaces) := do
  let cursor ← get
  match cursor.attributes.scope? cursor.tree.scope with
  | some scope =>
      set { cursor with attributes := Attributes.empty }
      return (cursor.attributes, scope)
  | none => failure

def startElement (line : Nat) (name : QualifiedName) (isEmpty : Bool) : Reader Unit := do
  let (attributes, scope) ← takeAttributes
  if !name.isKnown scope then failure
  let element : OpenElement := ⟨line, name, attributes.unqualified, scope, []⟩
  modify fun cursor =>
    { cursor with
      tree := if isEmpty then cursor.tree.add element.toElement else cursor.tree.start element }

def endTag : Reader Unit := do
  expect "</"
  let name ← qualifiedName
  spaces
  expect ">"
  if !(← get).begun then failure
  let _ ← takeAttributes
  let cursor ← get
  match cursor.tree.close? name with
  | some tree => set { cursor with tree := tree }
  | none => failure

def comment : Reader Unit := do
  expect "<!--"
  let text ← takeUntil "-->"
  if (before? ['-', '-'] text).isSome || text.getLast? = some '-' then failure

def instruction : Reader Unit := do
  if ← startsWith "<?xml " then failure
  expect "<?"
  let _ ← plainName
  spaces
  let _ ← takeUntil "?>"

def readText : Reader (List Char) := do
  let text ← takeWhile (· != '<')
  if !text.all isAllowed || (before? [']', ']', '>'] text).isSome then failure
  else return text

mutual
/-- Reads a content, up to and with an end tag or up to the end of the text.
Every call of the reader is for a shorter text or follows one that is. -/
def readContent (entities : List Entity) (depth : Nat) (readEntity : String → Reader Unit) :
    (fuel : Nat) → Reader Unit
  | 0 => failure
  | fuel + 1 => do
      if (← get).rest.isEmpty then return
      else if ← startsWith "</" then endTag
      else
        if ← startsWith "<!--" then comment
        else if ← accept "<![CDATA[" then
          let _ ← takeUntil "]]>"
        else if ← startsWith "<?" then instruction
        else if ← startsWith "<" then readElement entities depth readEntity fuel
        else
          for piece in ← pieces (← readText) do
            if let .entity name := piece then readEntity name
        readContent entities depth readEntity fuel

def readElement (entities : List Entity) (depth : Nat) (readEntity : String → Reader Unit) :
    (fuel : Nat) → Reader Unit
  | 0 => failure
  | fuel + 1 => do
      let line := (← get).line
      expect "<"
      let name ← qualifiedName
      if name.qualifier = "xmlns" then failure
      modify fun cursor => { cursor with begun := true }
      match ← readAttributes entities depth fuel with
      | .missing => return
      | .empty => startElement line name true
      | .opening =>
          startElement line name false
          readContent entities depth readEntity fuel
end

/-- Reads the text of an entity in a content. What it leaves over behind an end
tag is not read. -/
def readEntity (entities : List Entity) : (depth : Nat) → String → Reader Unit
  | 0, _ => failure
  | depth + 1, name =>
      resolve entities (depth + 1) name fun entity => do
        let outside ← get
        set { outside with rest := entity.text, line := entity.line, begun := false }
        readContent entities depth (readEntity entities depth) (2 * entity.text.length + 1)
        modify fun cursor =>
          { cursor with rest := outside.rest, line := outside.line, begun := outside.begun }

def declaration : Reader Unit := do
  let setting : Reader Unit := do
    let _ ← qualifiedName
    equals
    let _ ← quotedValue
  let gap : Reader Unit := do
    if (← startsWith "?>") || (← get).rest.isEmpty then return else someSpaces
  expect "<?xml"
  someSpaces
  if !(← startsWith "version") then failure
  setting
  gap
  if ← startsWith "encoding" then
    setting
    gap
  if ← startsWith "standalone" then setting
  spaces
  expect "?>"

def readMisc : (fuel : Nat) → Reader Unit
  | 0 => return
  | fuel + 1 => do
      spaces
      if ← startsWith "<!--" then
        comment
        readMisc fuel
      else if ← startsWith "<?" then
        instruction
        readMisc fuel

def externalId : Reader Bool := do
  if ← accept "SYSTEM" then
    someSpaces
    let _ ← quoted
    return true
  else if ← accept "PUBLIC" then
    someSpaces
    let _ ← quoted
    someSpaces
    let _ ← quoted
    return true
  else return false

/-- Reads the definition of an entity. An external one has no text. -/
def entityText? (general : Bool) : Reader (Option (List Char × Nat)) := do
  if (← startsWith "\"") || (← startsWith "'") then
    let line := (← get).line
    return some (← quoted, line)
  else if ← externalId then
    if general then
      spaces
      if ← accept "NDATA" then
        someSpaces
        let _ ← plainName
    return none
  else failure

def entityDeclaration : Reader (List Entity) := do
  expect "<!ENTITY"
  someSpaces
  let general := !(← accept "%")
  if !general then someSpaces
  let name ← plainName
  someSpaces
  let definition ← entityText? general
  spaces
  expect ">"
  match definition with
  | some (text, line) => return [⟨name, text, line⟩]
  | none => return []

def readDeclarations : (fuel : Nat) → List Entity → Reader (List Entity)
  | 0, _ => failure
  | fuel + 1, entities => do
      spaces
      if ← startsWith "<!ENTITY" then
        readDeclarations fuel (entities ++ (← entityDeclaration))
      else if ← startsWith "<!--" then
        comment
        readDeclarations fuel entities
      else if ← startsWith "<?" then
        instruction
        readDeclarations fuel entities
      else if ← accept "]" then
        spaces
        expect ">"
        return entities
      else if (← startsWith "<!ELEMENT") || (← startsWith "<!ATTLIST")
          || (← startsWith "<!NOTATION") then
        let _ ← takeWhile (· != '>')
        expect ">"
        readDeclarations fuel entities
      else failure

def documentType (fuel : Nat) : Reader (List Entity) := do
  expect "<!DOCTYPE"
  someSpaces
  let _ ← plainName
  spaces
  let _ ← externalId
  spaces
  if ← accept ">" then return []
  else
    expect "["
    readDeclarations fuel []

/-- Reads a document. There is one root element, unless an entity closes it. -/
def document (fuel : Nat) : Reader (List Element) := do
  let _ ← accept "\ufeff"
  if ← startsWith "<?xml " then declaration
  readMisc fuel
  let entities ← if ← startsWith "<!DOCTYPE" then documentType fuel else pure []
  readMisc fuel
  readElement entities entityDepth (readEntity entities entityDepth) fuel
  readMisc fuel
  let cursor ← get
  match cursor.tree.elements? with
  | some elements => if cursor.rest.isEmpty then return elements else failure
  | none => failure

def parse? (text : String) : Option (List Element) :=
  let cs := text.toList
  ((document (2 * cs.length + 1)).run ⟨cs, 1, 0, Tree.empty, Attributes.empty, false⟩).map Prod.fst

end SimBus.Xml
