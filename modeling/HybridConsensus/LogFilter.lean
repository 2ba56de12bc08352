import HybridConsensus.Pattern.Reader
import HybridConsensus.Text

/-!
# Log filters

A filter is a list of directives between commas. A directive is a level, or a target, a span or both
and perhaps a level behind an equals sign: `info`, `chain=debug`, `store[push]=trace`. A span may
name a field in braces, and a field a value, which is a number or a pattern.

The white space around a directive is passed over to find its parts, but the places of the parts are
then looked up in the whole text of the directive. So white space in front moves every part, and a
place can fall inside a character.
-/

namespace HybridConsensus

inductive LogFilterError
  | directive
  | level
  | field (error : PatternError)
  | insideCharacter
deriving DecidableEq, Repr

def LogFilterError.message : LogFilterError → String
  | .directive => "invalid filter directive"
  | .level =>
    "error parsing level filter: expected one of \"off\", \"error\", \"warn\", \"info\", " ++
      "\"debug\", \"trace\", or a number 0-5"
  | .field error => "invalid field filter: " ++ error.message
  | .insideCharacter => "byte index is not a character boundary"

namespace LogFilter

/-- The configured filter, or the one that shows information and what is more severe. -/
def directives (configured : Option String) : String :=
  configured.getD "info"

/-! ### Levels and values -/

def levelNames : List String :=
  ["off", "error", "warn", "info", "debug", "trace"]

def isLevelNumber (text : List Char) : Bool :=
  let digits := match text with
    | '+' :: rest => rest
    | text => text
  !digits.isEmpty && digits.all Char.isDigit && decimalValue digits ≤ 5

/-- No level at all is one, too. -/
def checkLevel (text : List Char) : Except LogFilterError Unit :=
  if text.isEmpty || isLevelNumber text ||
      levelNames.contains (String.ofList (text.map Char.toLower)) then .ok ()
  else .error .level

def dropSign : List Char → List Char
  | '+' :: rest => rest
  | '-' :: rest => rest
  | text => text

def isExponent : List Char → Bool
  | [] => true
  | mark :: rest =>
    let digits := dropSign rest
    (mark = 'e' || mark = 'E') && !digits.isEmpty && digits.all Char.isDigit

/-- Digits with a point before, among or behind them, and perhaps an exponent. -/
def isDecimal (text : List Char) : Bool :=
  let whole := text.takeWhile Char.isDigit
  match text.dropWhile Char.isDigit with
  | '.' :: rest =>
    !(whole.isEmpty && (rest.takeWhile Char.isDigit).isEmpty) &&
      isExponent (rest.dropWhile Char.isDigit)
  | rest => !whole.isEmpty && isExponent rest

def isNumber (text : List Char) : Bool :=
  let unsigned := dropSign text
  isDecimal unsigned ||
    ["inf", "infinity", "nan"].contains (String.ofList (unsigned.map Char.toLower))

/-- A field is a name and perhaps a value behind an equals sign. What a second one brings in is
passed over. -/
def checkField (field : List Char) : Except LogFilterError Unit :=
  match cutAt '=' field with
  | _ :: value :: _ =>
    if isNumber value then .ok () else (Pattern.check value).mapError .field
  | _ => .ok ()

/-! ### Places -/

/-- The text behind so many bytes, if a character ends there. -/
def dropBytes? : (bytes : Nat) → List Char → Option (List Char)
  | 0, text => some text
  | _ + 1, [] => none
  | bytes + 1, character :: rest =>
    if character.utf8Size ≤ bytes + 1 then dropBytes? (bytes + 1 - character.utf8Size) rest
    else none

/-- The text before so many bytes, if a character ends there. -/
def takeBytes? : (bytes : Nat) → List Char → Option (List Char)
  | 0, _ => some []
  | _ + 1, [] => none
  | bytes + 1, character :: rest =>
    if character.utf8Size ≤ bytes + 1 then
      (takeBytes? (bytes + 1 - character.utf8Size) rest).map (character :: ·)
    else none

def behind (whole : List Char) (start : Nat) : Except LogFilterError (List Char) :=
  match dropBytes? start whole with
  | some text => .ok text
  | none => .error .insideCharacter

def between (whole : List Char) (start stop : Nat) : Except LogFilterError (List Char) := do
  match takeBytes? (stop - start) (← behind whole start) with
  | some text => return text
  | none => throw .insideCharacter

/-- The first character that ends a part, its place and the text behind it. -/
def findEnd? (ends : List Char) (place : Nat) : List Char → Option (Char × Nat × List Char)
  | [] => none
  | character :: rest =>
    if ends.contains character then some (character, place, rest)
    else findEnd? ends (place + character.utf8Size) rest

/-! ### Directives -/

/-- What follows the closing bracket of a span, which stands before `place`. -/
def checkBehindSpan (whole : List Char) (place : Nat) : List Char → Except LogFilterError Unit
  | [] => .ok ()
  | '=' :: _ => do checkLevel (← behind whole (place + 1))
  | _ => .error .directive

/-- What follows the opening brace of a span's field. -/
def checkBrace (whole : List Char) (start : Nat) (text : List Char) :
    Except LogFilterError Unit := do
  match findEnd? ['}'] start text with
  | some (_, place, rest) =>
    let field ← between whole start place
    if field.isEmpty then throw .directive
    checkField field
    match rest with
    | ']' :: rest => checkBehindSpan whole (place + 2) rest
    | _ => throw .directive
  | none => throw .directive

/-- What follows the opening bracket of a span. -/
def checkSpan (whole : List Char) (start : Nat) (text : List Char) :
    Except LogFilterError Unit := do
  match findEnd? [']', '{'] start text with
  | some (mark, place, rest) =>
    let _ ← between whole start place
    if mark = ']' then checkBehindSpan whole (place + 1) rest
    else checkBrace whole (place + 1) rest
  | none => throw .directive

def startsTarget (character : Char) : Bool :=
  character = '-' || character = ':' || character = '_' || isAlphanumeric character

/-- A target without anything behind it may be a level. -/
def checkDirective (whole : List Char) : Except LogFilterError Unit := do
  match trimWhiteSpace whole with
  | [] => throw .directive
  | '[' :: rest => checkSpan whole 1 rest
  | first :: rest =>
    if !startsTarget first then throw .directive
    match findEnd? ['=', '['] first.utf8Size rest with
    | some (mark, place, rest) =>
      let _ ← between whole 0 place
      if mark = '[' then checkSpan whole (place + 1) rest
      else checkLevel (← behind whole (place + 1))
    | none => return

/-- The first directive that is none makes the filter invalid. Empty parts are passed over. -/
def check (text : String) : Except LogFilterError Unit :=
  ((cutAt ',' text.toList).filter (!·.isEmpty)).forM checkDirective

end LogFilter

end HybridConsensus
