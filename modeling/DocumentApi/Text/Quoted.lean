import DocumentApi.Text.Printable

/-!
Text between quotes, as error messages show it: characters that cannot be shown are written as
escapes, and the quote is the one the text does not hold, a single one if possible.
-/

set_option autoImplicit false

namespace DocumentApi.Text

def hexDigit (n : Nat) : Char := Nat.digitChar (n % 16)

def hexText : Nat → Nat → List Char
  | 0, _ => []
  | width + 1, n => hexText width (n / 16) ++ [hexDigit n]

theorem length_hexText (width n : Nat) : (hexText width n).length = width := by
  induction width generalizing n with
  | zero => rfl
  | succ width ih => simp [hexText, ih]

/-- The shortest escape that can name the code point. -/
def codePointEscape (n : Nat) : List Char :=
  if n < 0x100 then '\\' :: 'x' :: hexText 2 n
  else if n < 0x10000 then '\\' :: 'u' :: hexText 4 n
  else '\\' :: 'U' :: hexText 8 n

def quotedChar (quote c : Char) : List Char :=
  if c = quote ∨ c = '\\' then ['\\', c]
  else if c = '\n' then ['\\', 'n']
  else if c = '\r' then ['\\', 'r']
  else if c = '\t' then ['\\', 't']
  else if isPrintable c then [c]
  else codePointEscape c.toNat

/-- Double quotes serve text that holds a single quote and no double one. -/
def quoteFor (cs : List Char) : Char := if '\'' ∈ cs ∧ '"' ∉ cs then '"' else '\''

def quoted (s : String) : String :=
  let quote := quoteFor s.toList
  String.ofList (quote :: s.toList.flatMap (quotedChar quote) ++ [quote])

example : quoted "a'b\n" = "\"a'b\\n\"" := by decide +kernel
example : quoted "'\"²\u200b" = "'\\'\"²\\u200b'" := by decide +kernel

end DocumentApi.Text
