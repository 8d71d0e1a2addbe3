import DocumentApi.Number.Numeral
import DocumentApi.Text.CodeUnit
import DocumentApi.Text.Percent
import DocumentApi.Value

/-!
The tokens of JSON text, each with the position of its first character. What is no token is kept as
a fault or a stray character, so that the reader can report the first thing that is out of place.
-/

set_option autoImplicit false

namespace DocumentApi.Json

inductive Complaint where
  | byteOrderMark
  | expectingValue
  | expectingName
  | expectingColon
  | expectingComma
  | extraData
  | unterminatedString
  | controlCharacter
  | badEscape
  | badCodeUnit
deriving DecidableEq, Repr

/-- Why a text is not read: malformed at a position, or a number too long to convert. -/
inductive Fault where
  | malformed (complaint : Complaint) (position : Nat)
  | number (fault : Numeral.IntFault)
deriving DecidableEq, Repr

inductive Token where
  | openList
  | closeList
  | openObject
  | closeObject
  | colon
  | comma
  | string (s : String)
  | badString (fault : Fault)
  | scalar (v : Value)
  | badScalar (fault : Fault)
  | stray
deriving Repr

def isBlank (c : Char) : Bool := c = ' ' || c = '\t' || c = '\n' || c = '\r'

def codeUnit? : List Char → Option Nat
  | a :: b :: c :: d :: _ =>
    [a, b, c, d].foldlM (fun n digit => (Text.Percent.hexValue? digit).map (16 * n + ·)) 0
  | _ => none

def simpleEscape? (c : Char) : Option Char :=
  match c with
  | '"' => some '"'
  | '\\' => some '\\'
  | '/' => some '/'
  | 'b' => some '\u0008'
  | 'f' => some '\u000c'
  | 'n' => some '\n'
  | 'r' => some '\r'
  | 't' => some '\t'
  | _ => none

/-- How a string ends: its characters with the number of characters read, or a complaint with the
number of characters before it. -/
abbrev StringEnd := Except (Complaint × Nat) (List Char × Nat)

/-- The characters `given` for `used` characters of text, before the rest of the string. -/
def prepend (given : Char) (used : Nat) : StringEnd → StringEnd
  | .ok (cs, n) => .ok (given :: cs, used + n)
  | .error (.unterminatedString, n) => .error (.unterminatedString, n)
  | .error (complaint, n) => .error (complaint, used + n)

/-- A string after its opening quote. A code unit must have a character after it. -/
def stringBody (cs : List Char) : StringEnd :=
  match cs with
  | [] => .error (.unterminatedString, 0)
  | '"' :: _ => .ok ([], 1)
  | '\\' :: [] => .error (.unterminatedString, 0)
  | '\\' :: 'u' :: rest =>
    match codeUnit? rest, rest.drop 4 with
    | none, _ | _, [] => .error (.badCodeUnit, 1)
    | some unit, '\\' :: 'u' :: more =>
      match Text.CodeUnit.isHighSurrogate unit, codeUnit? more, more.drop 4 with
      | true, some low, _ :: _ =>
        if Text.CodeUnit.isLowSurrogate low then
          prepend (Text.CodeUnit.pair unit low) 12 (stringBody (rest.drop 10))
        else prepend (Text.CodeUnit.char unit) 6 (stringBody (rest.drop 4))
      | _, _, _ => prepend (Text.CodeUnit.char unit) 6 (stringBody (rest.drop 4))
    | some unit, _ => prepend (Text.CodeUnit.char unit) 6 (stringBody (rest.drop 4))
  | '\\' :: c :: rest =>
    match simpleEscape? c with
    | some given => prepend given 2 (stringBody rest)
    | none => .error (.badEscape, 0)
  | c :: rest =>
    if c.toNat < 0x20 then .error (.controlCharacter, 0) else prepend c 1 (stringBody rest)
termination_by cs.length
decreasing_by all_goals simp only [List.length_cons, List.length_drop]; omega

def fractionLength : List Char → Nat
  | '.' :: rest =>
    let digits := rest.takeWhile Numeral.isPlainDigit
    if digits.isEmpty then 0 else digits.length + 1
  | _ => 0

def exponentLength : List Char → Nat
  | c :: rest =>
    if c = 'e' ∨ c = 'E' then
      let signLength := if rest.head? = some '-' ∨ rest.head? = some '+' then 1 else 0
      let digits := (rest.drop signLength).takeWhile Numeral.isPlainDigit
      if digits.isEmpty then 0 else 1 + signLength + digits.length
    else 0
  | [] => 0

def wholeLength : List Char → Nat
  | '0' :: _ => 1
  | cs => (cs.takeWhile Numeral.isPlainDigit).length

/-- A number at the start of the text, and its length; zero if there is none. -/
def number (cs : List Char) : Token × Nat :=
  let signLength := if cs.head? = some '-' then 1 else 0
  let whole := wholeLength (cs.drop signLength)
  if whole = 0 then (.stray, 0)
  else
    let intLength := signLength + whole
    let fraction := fractionLength (cs.drop intLength)
    let exponent := exponentLength (cs.drop (intLength + fraction))
    let length := intLength + fraction + exponent
    let text := cs.take length
    if fraction = 0 ∧ exponent = 0 then
      match Numeral.readPlainInt text with
      | .ok i => (.scalar (.int i), length)
      | .error fault => (.badScalar (.number fault), length)
    else (.scalar (.float ((Numeral.readPlainFloat? text).getD .nan)), length)

def words : List (String × Value) :=
  [("null", .null), ("true", .bool true), ("false", .bool false), ("NaN", .float .nan),
    ("Infinity", .float (.infinite false)), ("-Infinity", .float (.infinite true))]

def lexeme (position : Nat) (c : Char) (rest : List Char) : Token × Nat :=
  match c with
  | '[' => (.openList, 1)
  | ']' => (.closeList, 1)
  | '\x7b' => (.openObject, 1)
  | '\x7d' => (.closeObject, 1)
  | ':' => (.colon, 1)
  | ',' => (.comma, 1)
  | '"' =>
    match stringBody rest with
    | .ok (cs, n) => (.string (String.ofList cs), n + 1)
    | .error (.unterminatedString, _) => (.badString (.malformed .unterminatedString position), 1)
    | .error (complaint, n) => (.badString (.malformed complaint (position + 1 + n)), 1)
  | _ =>
    match words.find? fun word => word.1.toList.isPrefixOf (c :: rest) with
    | some (word, v) => (.scalar v, word.length)
    | none => number (c :: rest)

def tokens (position : Nat) (cs : List Char) : List (Nat × Token) :=
  match cs with
  | [] => []
  | c :: rest =>
    if isBlank c then tokens (position + 1) rest
    else
      let (token, length) := lexeme position c rest
      (position, token) :: tokens (position + max length 1) (rest.drop (length - 1))
termination_by cs.length
decreasing_by all_goals simp only [List.length_cons, List.length_drop]; omega

end DocumentApi.Json
