import Transplant.Toml.Value

/-!
# Scalars of a configuration document

Strings in their four forms, whole numbers, fractions, truth values, dates and times.  Each reader
takes the text at the place of the value and returns the value with the rest.
-/

namespace Transplant.Toml

/-- Characters that may not stand in strings and comments. -/
def isControl (c : Char) : Bool :=
  (c.toNat < 0x20 && c ≠ '\t') || c.toNat = 0x7f

def hexValue? (c : Char) : Option Nat :=
  if c.isDigit then some (c.toNat - '0'.toNat)
  else if 'a' ≤ c ∧ c ≤ 'f' then some (c.toNat - 'a'.toNat + 10)
  else if 'A' ≤ c ∧ c ≤ 'F' then some (c.toNat - 'A'.toNat + 10)
  else none

def codedChar? (digits : Text) : Option Char := do
  let code ← digits.foldlM (fun code digit => (hexValue? digit).map (code * 16 + ·)) 0
  if code < 0xD800 ∨ (0xE000 ≤ code ∧ code < 0x110000) then some (Char.ofNat code) else none

/-- The character behind a backslash stands for this one. -/
def escaped? : Char → Option Char
  | 'b' => some '\x08'
  | 't' => some '\t'
  | 'n' => some '\n'
  | 'f' => some '\x0c'
  | 'r' => some '\r'
  | '"' => some '"'
  | '\\' => some '\\'
  | _ => none

/-- Puts a character in front of a string that was read. -/
def consTo (c : Char) : Text × Text → Text × Text
  | (body, rest) => (c :: body, rest)

def basicBody? : Text → Option (Text × Text)
  | [] => none
  | '"' :: rest => some ([], rest)
  | '\\' :: 'u' :: a :: b :: c :: d :: rest => do
    let coded ← codedChar? [a, b, c, d]
    (basicBody? rest).map (consTo coded)
  | '\\' :: 'U' :: a :: b :: c :: d :: e :: f :: g :: h :: rest => do
    let coded ← codedChar? [a, b, c, d, e, f, g, h]
    (basicBody? rest).map (consTo coded)
  | '\\' :: c :: rest => do
    let meant ← escaped? c
    (basicBody? rest).map (consTo meant)
  | c :: rest => if c = '\\' ∨ isControl c then none else (basicBody? rest).map (consTo c)

/-- Reads a string without escapes on one line behind its opening apostrophe. -/
def literalBody? : Text → Option (Text × Text)
  | [] => none
  | c :: rest =>
    if c = '\x27' then some ([], rest)
    else if isControl c then none
    else (literalBody? rest).map (consTo c)

def isSpace (c : Char) : Bool :=
  c == ' ' || c == '\t'

/-- Whether only spaces stand before the next line break. -/
def endsLine (t : Text) : Bool :=
  match t.dropWhile isSpace with
  | '\n' :: _ => true
  | '\r' :: '\n' :: _ => true
  | _ => false

/-- Reads a string of several lines behind its opening marks.  A backslash at the end of a line
takes away the line break and all blanks up to the next character; `skipping` tells that this is
going on. -/
def multiBasicBody? (skipping : Bool) : Text → Option (Text × Text)
  | [] => none
  | '"' :: '"' :: '"' :: '"' :: '"' :: rest => some (['"', '"'], rest)
  | '"' :: '"' :: '"' :: '"' :: rest => some (['"'], rest)
  | '"' :: '"' :: '"' :: rest => some ([], rest)
  | '\r' :: '\n' :: rest =>
    if skipping then multiBasicBody? true rest
    else (multiBasicBody? false rest).map (consTo '\n')
  | '\\' :: 'u' :: a :: b :: c :: d :: rest => do
    let coded ← codedChar? [a, b, c, d]
    (multiBasicBody? false rest).map (consTo coded)
  | '\\' :: 'U' :: a :: b :: c :: d :: e :: f :: g :: h :: rest => do
    let coded ← codedChar? [a, b, c, d, e, f, g, h]
    (multiBasicBody? false rest).map (consTo coded)
  | '\\' :: c :: rest =>
    if endsLine (c :: rest) then multiBasicBody? true (c :: rest)
    else do
      let meant ← escaped? c
      (multiBasicBody? false rest).map (consTo meant)
  | c :: rest =>
    if skipping && (isSpace c || c = '\n') then multiBasicBody? true rest
    else if c = '\n' then (multiBasicBody? false rest).map (consTo c)
    else if c = '\\' ∨ isControl c then none
    else (multiBasicBody? false rest).map (consTo c)

/-- Reads a string of several lines without escapes behind its opening marks. -/
def multiLiteralBody? : Text → Option (Text × Text)
  | [] => none
  | '\x27' :: '\x27' :: '\x27' :: '\x27' :: '\x27' :: rest => some (['\x27', '\x27'], rest)
  | '\x27' :: '\x27' :: '\x27' :: '\x27' :: rest => some (['\x27'], rest)
  | '\x27' :: '\x27' :: '\x27' :: rest => some ([], rest)
  | '\r' :: '\n' :: rest => (multiLiteralBody? rest).map (consTo '\n')
  | c :: rest =>
    if c ≠ '\n' ∧ isControl c then none else (multiLiteralBody? rest).map (consTo c)

def dropBreak : Text → Text
  | '\n' :: rest => rest
  | '\r' :: '\n' :: rest => rest
  | t => t

def string? : Text → Option (Text × Text)
  | '"' :: '"' :: '"' :: rest => multiBasicBody? false (dropBreak rest)
  | '\x27' :: '\x27' :: '\x27' :: rest => multiLiteralBody? (dropBreak rest)
  | '"' :: rest => basicBody? rest
  | '\x27' :: rest => literalBody? rest
  | _ => none

/-! ## Numbers -/

/-- Digits with underscores between them, given which characters are digits. -/
def isDigits (isDigit : Char → Bool) : Text → Bool
  | [] => false
  | [c] => isDigit c
  | c :: '_' :: rest => isDigit c && isDigits isDigit rest
  | c :: rest => isDigit c && isDigits isDigit rest

/-- Decimal digits without a needless zero in front. -/
def isPlainNumber (t : Text) : Bool :=
  isDigits Char.isDigit t &&
    match t with
    | '0' :: _ :: _ => false
    | _ => true

/-- The number that digits stand for in a base; underscores do not count. -/
def digitsValue (base : Nat) (t : Text) : Nat :=
  t.foldl (fun n c =>
    match hexValue? c with
    | some d => n * base + d
    | none => n) 0

def signed : Text → Bool × Text
  | '+' :: rest => (false, rest)
  | '-' :: rest => (true, rest)
  | t => (false, t)

/-- The whole numbers that a document can hold. -/
def inRange (n : Int) : Bool :=
  -9223372036854775808 ≤ n && n < 9223372036854775808

def integer? (token : Text) : Option Int :=
  let based (base : Nat) (isDigit : Char → Bool) (t : Text) : Option Int :=
    if isDigits isDigit t ∧ inRange (digitsValue base t) then some (digitsValue base t) else none
  match token with
  | '0' :: 'x' :: rest => based 16 (fun c => (hexValue? c).isSome) rest
  | '0' :: 'o' :: rest => based 8 (fun c => '0' ≤ c && c ≤ '7') rest
  | '0' :: 'b' :: rest => based 2 (fun c => c == '0' || c == '1') rest
  | _ =>
    let (negative, digits) := signed token
    if isPlainNumber digits then
      let n : Int := if negative then -(digitsValue 10 digits : Int) else digitsValue 10 digits
      if inRange n then some n else none
    else none

/-- Whether a token is an exponent, behind its letter. -/
def isExponent (t : Text) : Bool :=
  isDigits Char.isDigit (signed t).2

/-- A decimal number: `digits · 10 ^ exponent`, or its opposite. -/
structure Decimal where
  negative : Bool
  digits : Nat
  exponent : Int
  deriving DecidableEq, Repr

def decimal? (token : Text) : Option Decimal :=
  let (negative, body) := signed token
  let isE c := c == 'e' || c == 'E'
  let mantissa := body.takeWhile (!isE ·)
  let exponent := body.dropWhile (!isE ·)
  let whole := mantissa.takeWhile (· ≠ '.')
  let fraction := mantissa.dropWhile (· ≠ '.')
  if isPlainNumber whole && (!exponent.isEmpty || !fraction.isEmpty) &&
      (fraction.isEmpty || isDigits Char.isDigit fraction.tail) &&
      (exponent.isEmpty || isExponent exponent.tail) then
    let (down, power) := signed exponent.tail
    let power : Int := digitsValue 10 power
    some {
      negative
      digits := digitsValue 10 (whole ++ fraction.tail)
      exponent := (if down then -power else power) - (fraction.filter Char.isDigit).length }
  else none

/-- Whether the size of a decimal number rounds to no double: it reaches the middle between the
largest one and the next power of two.  The number of digits decides all but the close cases. -/
def Decimal.isTooLarge (d : Decimal) : Bool :=
  let limit := Nat.pow 2 1024 - Nat.pow 2 970
  let magnitude : Int := (Nat.toDigits 10 d.digits).length + d.exponent
  if d.digits = 0 ∨ magnitude ≤ 308 then false
  else if 310 < magnitude then true
  else limit * Nat.pow 10 (-d.exponent).toNat ≤ d.digits * Nat.pow 10 d.exponent.toNat

/-- Whether a token is a number with a fraction or an exponent, or one of the special values.  A
positive number that is too large is refused. -/
def isFloat (token : Text) : Bool :=
  let body := (signed token).2
  body = "inf".toList || body = "nan".toList ||
    match decimal? token with
    | some d => d.negative || !d.isTooLarge
    | none => false

/-! ## Dates and times -/

/-- A number of exactly `count` digits, with the rest. -/
def fixed? (count : Nat) (t : Text) : Option (Nat × Text) :=
  let digits := t.take count
  if digits.length = count ∧ digits.all Char.isDigit then
    some (digitsValue 10 digits, t.drop count)
  else none

def daysIn (year month : Nat) : Nat :=
  let leap := year % 4 = 0 ∧ (year % 100 ≠ 0 ∨ year % 400 = 0)
  if month = 2 then (if leap then 29 else 28)
  else if month = 4 ∨ month = 6 ∨ month = 9 ∨ month = 11 then 30
  else 31

def date? (t : Text) : Option Text := do
  let (year, t) ← fixed? 4 t
  let t ← Text.after? ['-'] t
  let (month, t) ← fixed? 2 t
  let t ← Text.after? ['-'] t
  let (day, t) ← fixed? 2 t
  if 1 ≤ month ∧ month ≤ 12 ∧ 1 ≤ day ∧ day ≤ daysIn year month then some t else none

def secondFraction? (t : Text) : Option Text :=
  match t with
  | '.' :: rest =>
    if (rest.takeWhile Char.isDigit).isEmpty then none else some (rest.dropWhile Char.isDigit)
  | _ => some t

def time? (t : Text) : Option Text := do
  let (hour, t) ← fixed? 2 t
  let t ← Text.after? [':'] t
  let (minute, t) ← fixed? 2 t
  let t ← Text.after? [':'] t
  let (second, t) ← fixed? 2 t
  if hour < 24 ∧ minute < 60 ∧ second ≤ 60 then secondFraction? t else none

/-- Whether a text is the offset of a time zone, or nothing. -/
def isOffset : Text → Bool
  | [] => true
  | ['Z'] | ['z'] => true
  | sign :: rest =>
    (sign == '+' || sign == '-') &&
      match fixed? 2 rest with
      | some (hour, ':' :: rest) =>
        hour < 24 &&
          match fixed? 2 rest with
          | some (minute, []) => minute < 60
          | _ => false
      | _ => false

def isDate (token : Text) : Bool :=
  date? token = some []

/-- Whether a token is a time with an optional offset. -/
def isZonedTime (token : Text) : Bool :=
  match time? token with
  | some rest => isOffset rest
  | none => false

/-- Whether a token is a date, a time, or both with a letter between. -/
def isDatetime (token : Text) : Bool :=
  isDate token || time? token = some [] ||
    match date? token with
    | some (c :: rest) => (c == 'T' || c == 't') && isZonedTime rest
    | _ => false

/-- Characters of numbers, words, dates and times. -/
def inToken (c : Char) : Bool :=
  c.isAlphanum || c == '+' || c == '-' || c == '_' || c == '.' || c == ':'

/-- Reads a scalar that is no string.  A space may stand between a date and a time. -/
def bareScalar? (t : Text) : Option (Value × Text) :=
  let token := t.takeWhile inToken
  let rest := t.dropWhile inToken
  if token = "true".toList then some (.boolean true, rest)
  else if token = "false".toList then some (.boolean false, rest)
  else match integer? token with
    | some n => some (.integer n, rest)
    | none =>
      if isFloat token then some (.float, rest)
      else if isDatetime token then
        match rest with
        | ' ' :: behind =>
          if isDate token ∧ isZonedTime (behind.takeWhile inToken) then
            some (.datetime, behind.dropWhile inToken)
          else some (.datetime, rest)
        | _ => some (.datetime, rest)
      else none

def scalar? (t : Text) : Option (Value × Text) :=
  match t with
  | '"' :: _ | '\x27' :: _ => (string? t).map fun (body, rest) => (.string body, rest)
  | _ => bareScalar? t

end Transplant.Toml
