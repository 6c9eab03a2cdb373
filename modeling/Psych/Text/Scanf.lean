import Psych.Text.Strings

/-!
# `sscanf`

The conversions `on_http_header` asks for: `%s` and `%hu`, white space and literal
characters. `sscanf` returns the values it stored, in order; it stops at the first
directive that fails, and what it stored before stays stored.
-/

namespace Psych

inductive Directive where
  /-- White space: matches any amount of it, also none. -/
  | space
  /-- An ordinary character: matches itself. -/
  | lit (c : Char)
  /-- `%s`: skips white space, stores the characters up to the next white space. -/
  | string
  /-- `%hu`: skips white space, stores an unsigned decimal in 16 bits. -/
  | hu
deriving DecidableEq

inductive Stored where
  | string (s : Text)
  | hu (n : Nat)
deriving DecidableEq

/-- The value `%hu` stores: the number read, in the low 16 bits. -/
def toUShort (n : Int) : Nat := (n % 2 ^ 16).toNat

/-- The digits after an optional sign. -/
def afterSign : Text → Text
  | '-' :: s => s
  | '+' :: s => s
  | s => s

def sscanf : List Directive → Text → List Stored
  | [], _ => []
  | .space :: format, s => sscanf format (s.dropWhile isSpace)
  | .lit c :: format, s =>
    match s with
    | d :: s => if c = d then sscanf format s else []
    | [] => []
  | .string :: format, s =>
    match (s.dropWhile isSpace).takeWhile (!isSpace ·) with
    | [] => []
    | word => .string word :: sscanf format ((s.dropWhile isSpace).dropWhile (!isSpace ·))
  | .hu :: format, s =>
    match readInteger s with
    | (_, false) => []
    | (n, true) =>
      .hu (toUShort n) :: sscanf format ((afterSign (s.dropWhile isSpace)).dropWhile Char.isDigit)

end Psych
