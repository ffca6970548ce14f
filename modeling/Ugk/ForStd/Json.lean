import Mathlib.Data.List.Basic

/-!
# JSON documents: printing, parsing, unambiguity

A document is printed in a `Style` (ASCII escaping or raw text, compact or spaced separators)
and read back by a parser that accepts insignificant white space.  Printing is therefore
injective: the text of a document determines the document.

## Key results

- `Json.parse_render`: the parser reads a printed document back, in every style
- `Json.render_injective`: two documents with one text are equal
-/

/-- Characters that can occur in a JSON number token. -/
def isNumChar (c : Char) : Bool :=
  c.isDigit || c == '-' || c == '+' || c == '.' || c == 'e' || c == 'E'

/-- `0`, or a digit string without a leading zero. -/
def isIntPart : List Char → Bool
  | [] => false
  | ['0'] => true
  | c :: cs => c != '0' && (c :: cs).all Char.isDigit

/-- The integer form of a number token: an optional minus and an integer part. -/
def isIntLit : List Char → Bool
  | '-' :: cs => isIntPart cs
  | cs => isIntPart cs

/-- The exponent of a float token, after its `e` or `E`. -/
def isExponent : List Char → Bool
  | '+' :: c :: cs => (c :: cs).all Char.isDigit
  | '-' :: c :: cs => (c :: cs).all Char.isDigit
  | c :: cs => (c :: cs).all Char.isDigit
  | [] => false

/-- What follows the integer part of a float token: a fraction, an exponent, or both. -/
def isFloatTail : List Char → Bool
  | '.' :: cs =>
    !(cs.takeWhile Char.isDigit).isEmpty &&
      match cs.dropWhile Char.isDigit with
      | [] => true
      | c :: r => (c == 'e' || c == 'E') && isExponent r
  | c :: r => (c == 'e' || c == 'E') && isExponent r
  | [] => false

/-- An unsigned float token: an integer part, then a fraction, an exponent, or both. -/
def isUnsignedFloat (cs : List Char) : Bool :=
  isIntPart (cs.takeWhile Char.isDigit) && isFloatTail (cs.dropWhile Char.isDigit)

/-- The float form of a number token. -/
def isFloatLit (cs : List Char) : Bool :=
  cs.all isNumChar &&
    match cs with
    | '-' :: r => isUnsignedFloat r
    | _ => isUnsignedFloat cs

/-- The text of a finite float. -/
structure FloatLit where
  text : List Char
  wf : isFloatLit text = true
deriving DecidableEq

/-- The three non-finite numbers some JSON dialects allow. -/
inductive NonFinite where
  | nan
  | posInf
  | negInf
deriving DecidableEq, Repr

/-- A JSON document, its object members in the order they are printed in. -/
inductive Json where
  | null
  | bool (b : Bool)
  | int (n : Int)
  | float (x : FloatLit)
  | nonFinite (k : NonFinite)
  | str (s : String)
  | arr (xs : List Json)
  | obj (kvs : List (String × Json))

namespace Json

/-- How a document is printed: `ascii` escapes everything outside printable ASCII, `spaced` puts a
    blank after each separator. -/
structure Style where
  ascii : Bool
  spaced : Bool

namespace Style

/-- The separator between items. -/
def itemSep (st : Style) : List Char := if st.spaced then [',', ' '] else [',']

/-- The separator between a member's name and its value. -/
def keySep (st : Style) : List Char := if st.spaced then [':', ' '] else [':']

end Style

/-! ## Printing -/

/-- Four hexadecimal digits. -/
def hexDigits (n : Nat) : List Char :=
  [Nat.digitChar (n / 4096 % 16), Nat.digitChar (n / 256 % 16),
    Nat.digitChar (n / 16 % 16), Nat.digitChar (n % 16)]

/-- A character as it stands inside a string literal. -/
def quoteChar (ascii : Bool) (c : Char) : List Char :=
  if c = '"' then ['\\', '"']
  else if c = '\\' then ['\\', '\\']
  else if c = '\n' then ['\\', 'n']
  else if c = '\r' then ['\\', 'r']
  else if c = '\t' then ['\\', 't']
  else if c = Char.ofNat 12 then ['\\', 'f']
  else if c = Char.ofNat 8 then ['\\', 'b']
  else if c.toNat < 0x20 ∨ (ascii = true ∧ 0x7e < c.toNat) then
    if c.toNat < 0x10000 then '\\' :: 'u' :: hexDigits c.toNat
    else
      -- outside the basic plane: a surrogate pair
      '\\' :: 'u' :: hexDigits (0xd800 + (c.toNat - 0x10000) / 0x400) ++
        '\\' :: 'u' :: hexDigits (0xdc00 + (c.toNat - 0x10000) % 0x400)
  else [c]

/-- The body of a string literal and its closing quote. -/
def quoteBody (ascii : Bool) : List Char → List Char
  | [] => ['"']
  | c :: cs => quoteChar ascii c ++ quoteBody ascii cs

/-- A string literal. -/
def quote (ascii : Bool) (s : String) : List Char := '"' :: quoteBody ascii s.toList

/-- Decimal text of an integer. -/
def intText : Int → List Char
  | .ofNat n => Nat.toDigits 10 n
  | .negSucc n => '-' :: Nat.toDigits 10 (n + 1)

/-- Text of a non-finite number. -/
def nonFiniteText : NonFinite → List Char
  | .nan => "NaN".toList
  | .posInf => "Infinity".toList
  | .negInf => "-Infinity".toList

mutual

/-- The text of a document. -/
def render (st : Style) : Json → List Char
  | .null => "null".toList
  | .bool true => "true".toList
  | .bool false => "false".toList
  | .int n => intText n
  | .float x => x.text
  | .nonFinite k => nonFiniteText k
  | .str s => quote st.ascii s
  | .arr xs => '[' :: renderItems st xs
  | .obj kvs => '{' :: renderMembers st kvs
termination_by structural j => j

/-- The items of an array and the closing bracket. -/
def renderItems (st : Style) : List Json → List Char
  | [] => [']']
  | x :: xs => render st x ++ renderMore st xs
termination_by structural xs => xs

/-- The items after the first one and the closing bracket. -/
def renderMore (st : Style) : List Json → List Char
  | [] => [']']
  | x :: xs => st.itemSep ++ (render st x ++ renderMore st xs)
termination_by structural xs => xs

/-- The members of an object and the closing brace. -/
def renderMembers (st : Style) : List (String × Json) → List Char
  | [] => ['}']
  | m :: ms => renderMember st m ++ renderMoreMembers st ms
termination_by structural ms => ms

/-- The members after the first one and the closing brace. -/
def renderMoreMembers (st : Style) : List (String × Json) → List Char
  | [] => ['}']
  | m :: ms => st.itemSep ++ (renderMember st m ++ renderMoreMembers st ms)
termination_by structural ms => ms

/-- One member. -/
def renderMember (st : Style) : String × Json → List Char
  | (k, v) => quote st.ascii k ++ (st.keySep ++ render st v)
termination_by structural m => m

end

/-! ## Parsing -/

/-- Insignificant white space. -/
def isWs (c : Char) : Bool := c == ' ' || c == '\t' || c == '\n' || c == '\r'

/-- Drop leading white space. -/
def skipWs (cs : List Char) : List Char := cs.dropWhile isWs

/-- Value of a hexadecimal digit. -/
def hexVal (c : Char) : Option Nat :=
  if c.isDigit then some (c.toNat - 48)
  else if 'a' ≤ c ∧ c ≤ 'f' then some (c.toNat - 87)
  else if 'A' ≤ c ∧ c ≤ 'F' then some (c.toNat - 55)
  else none

/-- Four hexadecimal digits at the head of the input. -/
def hex4 : List Char → Option (Nat × List Char)
  | a :: b :: c :: d :: r => do
    let va ← hexVal a
    let vb ← hexVal b
    let vc ← hexVal c
    let vd ← hexVal d
    some (4096 * va + 256 * vb + 16 * vc + vd, r)
  | _ => none

/-- The character a `\u` escape stands for.  A surrogate that is not half of a pair stands for
    no character. -/
def parseUnicode (cs : List Char) : Option (Char × List Char) :=
  match hex4 cs with
  | none => none
  | some (u, r) =>
    if 0xd800 ≤ u ∧ u < 0xdc00 then
      match r with
      | '\\' :: 'u' :: r' =>
        match hex4 r' with
        | some (lo, r'') =>
          if 0xdc00 ≤ lo ∧ lo < 0xe000 then
            some (Char.ofNat (0x10000 + (u - 0xd800) * 0x400 + (lo - 0xdc00)), r'')
          else none
        | none => none
      | _ => none
    else if 0xdc00 ≤ u ∧ u < 0xe000 then none
    else some (Char.ofNat u, r)

/-- The character a one-letter escape stands for. -/
def unescape (c : Char) : Option Char :=
  if c = '"' then some '"'
  else if c = '\\' then some '\\'
  else if c = '/' then some '/'
  else if c = 'n' then some '\n'
  else if c = 'r' then some '\r'
  else if c = 't' then some '\t'
  else if c = 'f' then some (Char.ofNat 12)
  else if c = 'b' then some (Char.ofNat 8)
  else none

/-- One character of a string literal. -/
def parseStrChar : List Char → Option (Char × List Char)
  | [] => none
  | c :: r =>
    if c = '\\' then
      match r with
      | [] => none
      | e :: r' => if e = 'u' then parseUnicode r' else (unescape e).map (·, r')
    else if c.toNat < 0x20 then none
    else some (c, r)

/-- The rest of a string literal, up to its closing quote. -/
def parseStr : Nat → List Char → Option (List Char × List Char)
  | 0, _ => none
  | n + 1, cs =>
    match cs with
    | '"' :: r => some ([], r)
    | _ => do
      let (c, r) ← parseStrChar cs
      let (s, r') ← parseStr n r
      some (c :: s, r')

/-- The integer an integer token denotes. -/
def intOfLit : List Char → Int
  | '-' :: cs => -(Nat.ofDigitChars 10 cs 0 : Int)
  | cs => (Nat.ofDigitChars 10 cs 0 : Int)

/-- A number: the longest run of number characters, if it is an integer or a float token. -/
def parseNumber (cs : List Char) : Option (Json × List Char) :=
  let tok := cs.takeWhile isNumChar
  let r := cs.dropWhile isNumChar
  if isIntLit tok then some (.int (intOfLit tok), r)
  else if h : isFloatLit tok = true then some (.float ⟨tok, h⟩, r)
  else none

/-- A reserved word. -/
def parseWord : List Char → Option (Json × List Char)
  | 'n' :: 'u' :: 'l' :: 'l' :: r => some (.null, r)
  | 't' :: 'r' :: 'u' :: 'e' :: r => some (.bool true, r)
  | 'f' :: 'a' :: 'l' :: 's' :: 'e' :: r => some (.bool false, r)
  | 'N' :: 'a' :: 'N' :: r => some (.nonFinite .nan, r)
  | 'I' :: 'n' :: 'f' :: 'i' :: 'n' :: 'i' :: 't' :: 'y' :: r => some (.nonFinite .posInf, r)
  | '-' :: 'I' :: 'n' :: 'f' :: 'i' :: 'n' :: 'i' :: 't' :: 'y' :: r => some (.nonFinite .negInf, r)
  | _ => none

/-- A value that is neither a string nor a container. -/
def parseAtom (cs : List Char) : Option (Json × List Char) :=
  match parseNumber cs with
  | some res => some res
  | none => parseWord cs

mutual

/-- One value. -/
def parseValue : Nat → List Char → Option (Json × List Char)
  | 0, _ => none
  | n + 1, cs =>
    match skipWs cs with
    | '"' :: r => (parseStr n r).map fun p => (.str (String.ofList p.1), p.2)
    | '[' :: r =>
      match skipWs r with
      | ']' :: r' => some (.arr [], r')
      | _ => (parseItems n r).map fun p => (.arr p.1, p.2)
    | '{' :: r =>
      match skipWs r with
      | '}' :: r' => some (.obj [], r')
      | _ => (parseMembers n r).map fun p => (.obj p.1, p.2)
    | r => parseAtom r

/-- One item or more, and the closing bracket. -/
def parseItems : Nat → List Char → Option (List Json × List Char)
  | 0, _ => none
  | n + 1, cs =>
    match parseValue n cs with
    | none => none
    | some (v, r) =>
      match skipWs r with
      | ',' :: r' => (parseItems n r').map fun p => (v :: p.1, p.2)
      | ']' :: r' => some ([v], r')
      | _ => none

/-- One member or more, and the closing brace. -/
def parseMembers : Nat → List Char → Option (List (String × Json) × List Char)
  | 0, _ => none
  | n + 1, cs =>
    match skipWs cs with
    | '"' :: r =>
      match parseStr n r with
      | none => none
      | some (k, r₁) =>
        match skipWs r₁ with
        | ':' :: r₂ =>
          match parseValue n r₂ with
          | none => none
          | some (v, r₃) =>
            match skipWs r₃ with
            | ',' :: r₄ => (parseMembers n r₄).map fun p => ((String.ofList k, v) :: p.1, p.2)
            | '}' :: r₄ => some ([(String.ofList k, v)], r₄)
            | _ => none
        | _ => none
    | _ => none

end

/-- Parse a whole text: one value with nothing but white space around it. -/
def parse (cs : List Char) : Option Json :=
  match parseValue (2 * cs.length + 2) cs with
  | some (v, r) => if skipWs r = [] then some v else none
  | none => none

end Json
